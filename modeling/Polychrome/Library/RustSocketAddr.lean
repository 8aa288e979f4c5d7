import Polychrome.Library.RustText

/-!
# Rust's socket addresses

The parser of {lit}`std::net::SocketAddr`: dotted IPv4 addresses and bracketed IPv6
addresses with an optional scope, each with a port.  A reader returns what it has
read and the rest; one that fails reads nothing.

Main results:

- Definition {lit}`parseSocketAddr`: the address that a whole text stands for.
- Theorem {lit}`head_of_parseSocketAddr`: it begins with a digit or a bracket.
-/

namespace Rust

/-- {lit}`std::net::SocketAddr` -/
inductive SocketAddr
  | v4 (octets : List UInt8) (port : UInt16)
  | v6 (segments : List UInt16) (scope : UInt32) (port : UInt16)
deriving DecidableEq, Repr

/-- {lit}`SocketAddr::port` -/
def SocketAddr.port : SocketAddr → UInt16
  | .v4 _ port | .v6 _ _ port => port

/-- A reader of the front of a text. -/
abbrev Reader (α : Type) := StateT Bytes Option α

/-- {lit}`char::to_digit` -/
def toDigit (radix : Nat) (b : UInt8) : Option Nat :=
  let digit :=
    if 48 ≤ b ∧ b ≤ 57 then some (b.toNat - 48)
    else if 97 ≤ b ∧ b ≤ 122 then some (b.toNat - 87)
    else if 65 ≤ b ∧ b ≤ 90 then some (b.toNat - 55)
    else none
  digit.filter fun d => d < radix

/-- {lit}`read_given_char` -/
def readGivenChar (target : UInt8) : Reader Unit
  | [] => none
  | b :: s => if b = target then some ((), s) else none

/-- {lit}`read_number`, up to the first character that is no digit.  It fails without
a digit, with too many, with a leading zero that is not allowed and from
{lit}`bound` on. -/
def readNumber (bound radix : Nat) (maxDigits : Option Nat) (allowZeroPrefix : Bool) :
    Reader Nat := fun s =>
  let digits := s.takeWhile fun b => (toDigit radix b).isSome
  let value := (digits.filterMap (toDigit radix)).foldl (fun n d => radix * n + d) 0
  if digits = [] then none
  else if maxDigits.any fun most => most < digits.length then none
  else if !allowZeroPrefix && digits.head? == some 48 && 1 < digits.length then none
  else if value < bound then some (value, s.drop digits.length)
  else none

/-- {lit}`read_separator` -/
def readSeparator {α : Type} (separator : UInt8) (index : Nat) (inner : Reader α) : Reader α := do
  if 0 < index then readGivenChar separator
  inner

/-- {lit}`read_ipv4_addr` -/
def readIpv4Addr : Reader (List UInt8) :=
  (List.range 4).mapM fun i => do
    let octet ← readSeparator 46 i (readNumber 256 10 (some 3) false)
    pure (UInt8.ofNat octet)

/-- The loop of {lit}`read_groups` with {lit}`slots` groups still free.  A trailing
IPv4 address takes two of them and ends it. -/
def readGroupsFrom : Nat → List UInt16 → Bytes → (List UInt16 × Bool) × Bytes
  | 0, groups, s => ((groups, false), s)
  | slots + 1, groups, s =>
      match if 0 < slots then readSeparator 58 groups.length readIpv4Addr s else none with
      | some ([a, b, c, d], rest) =>
          ((groups ++ [256 * a.toUInt16 + b.toUInt16, 256 * c.toUInt16 + d.toUInt16], true), rest)
      | _ =>
          match readSeparator 58 groups.length (readNumber 65536 16 (some 4) true) s with
          | some (group, rest) => readGroupsFrom slots (groups ++ [UInt16.ofNat group]) rest
          | none => ((groups, false), s)

/-- {lit}`read_groups` -/
def readGroups (limit : Nat) : Reader (List UInt16 × Bool) := fun s =>
  some (readGroupsFrom limit [] s)

/-- {lit}`read_ipv6_addr` -/
def readIpv6Addr : Reader (List UInt16) := do
  let (head, headIpv4) ← readGroups 8
  if head.length = 8 then return head
  if headIpv4 then failure
  readGivenChar 58
  readGivenChar 58
  let (tail, _) ← readGroups (8 - (head.length + 1))
  return head ++ List.replicate (8 - head.length - tail.length) 0 ++ tail

/-- {lit}`read_port` -/
def readPort : Reader UInt16 := do
  readGivenChar 58
  let port ← readNumber 65536 10 none true
  return UInt16.ofNat port

/-- {lit}`read_scope_id` -/
def readScopeId : Reader UInt32 := do
  readGivenChar 37
  let scope ← readNumber (2 ^ 32) 10 none true
  return UInt32.ofNat scope

/-- {lit}`read_socket_addr_v4` -/
def readSocketAddrV4 : Reader SocketAddr := do
  let octets ← readIpv4Addr
  let port ← readPort
  return .v4 octets port

/-- {lit}`read_socket_addr_v6` -/
def readSocketAddrV6 : Reader SocketAddr := do
  readGivenChar 91
  let segments ← readIpv6Addr
  let scope ← readScopeId <|> pure 0
  readGivenChar 93
  let port ← readPort
  return .v6 segments scope port

/-- {lit}`str::parse` for a socket address: nothing may be left over. -/
def parseSocketAddr (s : Bytes) : Option SocketAddr :=
  match (readSocketAddrV4 <|> readSocketAddrV6) s with
  | some (address, []) => some address
  | _ => none

example : parseSocketAddr (bytes "[::1]:9010") = some (.v6 [0, 0, 0, 0, 0, 0, 0, 1] 0 9010) := by
  decide +kernel

/-! ## The first character -/

/-- A number begins with a digit. -/
theorem head_of_readNumber {bound radix : Nat} {maxDigits : Option Nat} {allowZeroPrefix : Bool}
    {s : Bytes} {x : Nat × Bytes}
    (h : readNumber bound radix maxDigits allowZeroPrefix s = some x) :
    ∃ b rest, s = b :: rest ∧ (toDigit radix b).isSome = true := by
  unfold readNumber at h
  cases s with
  | nil => simp at h
  | cons b rest =>
      refine ⟨b, rest, rfl, ?_⟩
      by_contra hb
      simp [hb] at h

/-- An IPv4 address begins with one, too. -/
theorem head_of_readIpv4Addr {s : Bytes} {x : List UInt8 × Bytes} (h : readIpv4Addr s = some x) :
    ∃ b rest, s = b :: rest ∧ (toDigit 10 b).isSome = true := by
  cases hnumber : readNumber 256 10 (some 3) false s with
  | some y => exact head_of_readNumber hnumber
  | none =>
      exfalso
      have hrange : List.range 4 = 0 :: [1, 2, 3] := rfl
      simp only [readIpv4Addr, hrange, List.mapM_cons, readSeparator, Nat.lt_irrefl,
        if_false] at h
      simp [bind, StateT.bind, hnumber] at h

/-- A socket address begins with a digit or an opening bracket. -/
theorem head_of_parseSocketAddr {s : Bytes} {address : SocketAddr}
    (h : parseSocketAddr s = some address) :
    ∃ b rest, s = b :: rest ∧ ((toDigit 10 b).isSome = true ∨ b = 91) := by
  have hread : ∃ x, readSocketAddrV4 s = some x ∨ readSocketAddrV6 s = some x := by
    unfold parseSocketAddr at h
    simp only [HOrElse.hOrElse, OrElse.orElse, Alternative.orElse, StateT.orElse] at h
    cases hv4 : readSocketAddrV4 s with
    | some x => exact ⟨x, Or.inl rfl⟩
    | none =>
        cases hv6 : readSocketAddrV6 s with
        | some x => exact ⟨x, Or.inr rfl⟩
        | none => simp [hv4, hv6] at h
  rcases hread with ⟨x, hv4 | hv6⟩
  · cases hipv4 : readIpv4Addr s with
    | none => simp [readSocketAddrV4, bind, StateT.bind, hipv4] at hv4
    | some y =>
        rcases head_of_readIpv4Addr hipv4 with ⟨b, rest, rfl, hb⟩
        exact ⟨b, rest, rfl, Or.inl hb⟩
  · cases s with
    | nil => simp [readSocketAddrV6, bind, StateT.bind, readGivenChar] at hv6
    | cons b rest =>
        refine ⟨b, rest, rfl, Or.inr ?_⟩
        by_contra hb
        simp [readSocketAddrV6, bind, StateT.bind, readGivenChar, hb] at hv6

end Rust
