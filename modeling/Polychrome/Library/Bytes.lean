import Mathlib.Data.UInt

/-!
# Byte strings

Paths, file names and protocol fields are byte strings.  A Lean string stands
for the bytes of its characters, so that constants can be written as text.
-/

/-- A byte string. -/
abbrev Bytes := List UInt8

/-- The bytes of an ASCII text. -/
def bytes (text : String) : Bytes :=
  text.toList.map fun c => UInt8.ofNat c.toNat
