import Mathlib.Data.Int.Order.Basic
import Polychrome.Library.PhpString

/-!
# PHP values as they come out of JSON

JSON decoded into associative arrays, and what PHP does with a value of any type
where a program reads it: the null-coalescing operator, a plain index,
{lit}`foreach`, a cast, a parameter under {lit}`strict_types` and the conversions to
a string and to an array key.  Warnings are not recorded; what is thrown ends the
program.
-/

namespace Php

/-- What ends a function early. -/
inductive Thrown
  | typeError
  | valueError
  | error
  | jsonException
  | runtimeException (message : Bytes)
  /-- a directory that cannot be opened -/
  | unexpectedValueException
deriving DecidableEq, Repr

/-- The key of an array entry. -/
inductive Key
  | int (n : Int)
  | string (s : Bytes)
deriving DecidableEq, Repr

/-- A decoded value.  A float is given by its text and its integer part. -/
inductive Value
  | null
  | bool (b : Bool)
  | int (n : Int)
  | float (text : Bytes) (truncated : Int)
  | string (s : Bytes)
  | array (entries : List (Key × Value))

/-! ## Keys -/

/-- The value of decimal digits. -/
def decimal (digits : Bytes) : Nat := digits.foldl (fun n b => 10 * n + (b.toNat - 48)) 0

/-- Decimal digits without a leading zero. -/
def isNumeral : Bytes → Bool
  | [] => false
  | [48] => true
  | b :: s => 49 ≤ b && b ≤ 57 && s.all fun c => 48 ≤ c && c ≤ 57

/-- The key that a string stands for: a numeral is an integer key. -/
def Key.ofString : Bytes → Key
  | 45 :: s =>
      if isNumeral s && s != [48] && decimal s ≤ 2 ^ 63 then .int (-(decimal s : Int))
      else .string (45 :: s)
  | s => if isNumeral s && decimal s < 2 ^ 63 then .int (decimal s) else .string s

/-- The key behind the largest integer key. -/
def nextKey (entries : List (Key × Value)) : Int :=
  entries.foldl (fun next entry =>
    match entry.1 with
    | .int n => max next (n + 1)
    | .string _ => next) 0

/-! ## Reading a value -/

namespace Value

/-- The entry of an array. -/
def entry (v : Value) (key : Key) : Option Value :=
  match v with
  | .array entries => (entries.find? fun x => x.1 = key).map Prod.snd
  | _ => none

/-- {lit}`$v['key'] ?? ..` with a key that is no numeral. -/
def coalesce (v : Value) (key : Bytes) : Option Value :=
  match v.entry (.string key) with
  | some .null => none
  | found => found

/-- {lit}`$v['key']` with a key that is no numeral. -/
def index (v : Value) (key : Bytes) : Except Thrown Value :=
  match v with
  | .array _ => .ok ((v.entry (.string key)).getD .null)
  | .string _ => .error .typeError
  | _ => .ok .null

/-- What {lit}`foreach` runs over. -/
def elements : Value → List Value
  | .array entries => entries.map Prod.snd
  | _ => []

/-- {lit}`(array) $v` -/
def cast : Value → List (Key × Value)
  | .array entries => entries
  | .null => []
  | v => [(.int 0, v)]

/-- A string parameter under {lit}`strict_types`. -/
def asString : Value → Except Thrown Bytes
  | .string s => .ok s
  | _ => .error .typeError

/-- An array parameter. -/
def asArray : Value → Except Thrown (List (Key × Value))
  | .array entries => .ok entries
  | _ => .error .typeError

/-- The value in a string. -/
def text : Value → Bytes
  | .null => []
  | .bool b => if b then bytes "1" else []
  | .int n => bytes (toString n)
  | .float text _ => text
  | .string s => s
  | .array _ => bytes "Array"

/-- The value as an offset in {lit}`isset`. -/
def offset : Value → Except Thrown Key
  | .null => .ok (.string [])
  | .bool b => .ok (.int (if b then 1 else 0))
  | .int n => .ok (.int n)
  | .float _ truncated => .ok (.int truncated)
  | .string s => .ok (.ofString s)
  | .array _ => .error .typeError

end Value

/-- The keys of {lit}`array_fill_keys($keys, true)`. -/
def arrayFillKeys (keys : Value) : Except Thrown (List Key) :=
  keys.asArray.map fun entries => entries.map fun x => Key.ofString x.2.text

/-- {lit}`array_push($array, ...$values)`: string keys would be named arguments. -/
def arrayPush (array : Value) (values : List (Key × Value)) : Except Thrown Value := do
  let entries ← array.asArray
  if values.any fun x => match x.1 with | .string _ => true | .int _ => false then
    throw .error
  else if nextKey entries + values.length > 2 ^ 63 ∧ values ≠ [] then throw .error
  else
    return .array (entries ++ (values.map Prod.snd).mapIdx fun i v =>
      (.int (nextKey entries + i), v))

end Php
