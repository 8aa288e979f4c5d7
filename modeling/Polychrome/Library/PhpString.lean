import Mathlib.Data.List.DropRight
import Polychrome.Library.Bytes

/-!
# PHP's string functions

The functions of PHP on byte strings that take a set of one character, a literal
search text or a path, and what {lit}`str_replace` does at the head of a text.
-/

namespace Php

/-- {lit}`rtrim($string, $character)` -/
def rtrim (s : Bytes) (character : UInt8) : Bytes := s.rdropWhile fun b => b == character

/-- {lit}`ltrim($string, $character)` -/
def ltrim (s : Bytes) (character : UInt8) : Bytes := s.dropWhile fun b => b == character

/-- {lit}`str_starts_with($haystack, $needle)` -/
def strStartsWith (haystack needle : Bytes) : Bool := needle.isPrefixOf haystack

/-- {lit}`str_ends_with($haystack, $needle)` -/
def strEndsWith (haystack needle : Bytes) : Bool := needle.isSuffixOf haystack

/-- {lit}`substr($string, $offset)` for an offset that is not negative. -/
def substr (s : Bytes) (offset : Nat) : Bytes := s.drop offset

/-- The rest of {lit}`str_replace`, with {lit}`skip` bytes of an occurrence still to
pass. -/
def strReplaceFrom (search replace : Bytes) : Nat → Bytes → Bytes
  | _, [] => []
  | skip + 1, _ :: s => strReplaceFrom search replace skip s
  | 0, b :: s =>
      if search.isPrefixOf (b :: s) then
        replace ++ strReplaceFrom search replace (search.length - 1) s
      else b :: strReplaceFrom search replace 0 s

/-- {lit}`str_replace($search, $replace, $subject)` for a search text that is not
empty: the occurrences are taken from the left and do not overlap. -/
def strReplace (search replace subject : Bytes) : Bytes := strReplaceFrom search replace 0 subject

/-- {lit}`basename($path)` -/
def basename (p : Bytes) : Bytes :=
  (p.rdropWhile fun b => b == 47).rtakeWhile fun b => b != 47

/-- The characters that {lit}`preg_quote` puts a backslash before. -/
def pregSpecial : Bytes := bytes ".\\+*?[^]$()\x7b\x7d=!<>|:-#"

/-- One character of {lit}`preg_quote($string, $delimiter)`. -/
def pregQuoteByte (delimiter b : UInt8) : Bytes :=
  if b = 0 then bytes "\\000"
  else if b ∈ pregSpecial ∨ b = delimiter then [92, b]
  else [b]

/-- {lit}`preg_quote($string, $delimiter)` -/
def pregQuote (s : Bytes) (delimiter : UInt8) : Bytes := s.flatMap (pregQuoteByte delimiter)

/-! ## Replacing -/

section Replacing

variable {search replace : Bytes}

/-- There is nothing to replace in the empty string. -/
theorem strReplace_nil : strReplace search replace [] = [] := by
  rw [strReplace, strReplaceFrom]

/-- Bytes still to pass are dropped. -/
theorem strReplaceFrom_eq_drop (skip : Nat) (s : Bytes) :
    strReplaceFrom search replace skip s = strReplace search replace (s.drop skip) := by
  induction skip generalizing s with
  | zero => rfl
  | succ skip ih =>
      cases s with
      | nil => rw [List.drop_nil, strReplace_nil, strReplaceFrom]
      | cons b s => rw [strReplaceFrom, ih, List.drop_succ_cons]

/-- An occurrence at the head is replaced. -/
theorem strReplace_occurrence (hsearch : search ≠ []) (s : Bytes) :
    strReplace search replace (search ++ s) = replace ++ strReplace search replace s := by
  cases search with
  | nil => exact absurd rfl hsearch
  | cons c search =>
      have hprefix : (c :: search).isPrefixOf (c :: (search ++ s)) = true := by
        rw [List.isPrefixOf_iff_prefix]
        exact List.prefix_append (c :: search) s
      have hdrop : (search ++ s).drop ((c :: search).length - 1) = s := by
        rw [List.length_cons, Nat.add_sub_cancel, List.drop_left]
      rw [List.cons_append, strReplace, strReplaceFrom, if_pos hprefix, strReplaceFrom_eq_drop,
        hdrop]

/-- A byte at which no occurrence begins is kept. -/
theorem strReplace_cons_miss {b : UInt8} {s : Bytes} (h : ¬ search <+: b :: s) :
    strReplace search replace (b :: s) = b :: strReplace search replace s := by
  rw [← List.isPrefixOf_iff_prefix] at h
  rw [strReplace, strReplaceFrom, if_neg h]
  rfl

/-- No occurrence begins in a piece without the first byte of the search text. -/
theorem strReplace_append_of_notMem {c : UInt8} {search piece : Bytes} (h : c ∉ piece)
    (s : Bytes) : strReplace (c :: search) replace (piece ++ s) =
      piece ++ strReplace (c :: search) replace s := by
  induction piece with
  | nil => rfl
  | cons b piece ih =>
      rw [List.mem_cons, not_or] at h
      have hmiss : ¬ c :: search <+: b :: (piece ++ s) := by
        rw [List.cons_prefix_cons]
        exact fun hprefix => h.1 hprefix.1
      rw [List.cons_append, strReplace_cons_miss hmiss, ih h.2, List.cons_append]

/-- A search text of one byte: each byte is replaced for itself. -/
theorem strReplace_singleton (c : UInt8) (s : Bytes) :
    strReplace [c] replace s = s.flatMap fun b => if b = c then replace else [b] := by
  induction s with
  | nil => exact strReplace_nil
  | cons b s ih =>
      rw [List.flatMap_cons, ← ih]
      by_cases hb : b = c
      · rw [if_pos hb, hb]
        exact strReplace_occurrence (List.cons_ne_nil c []) s
      · have hmiss : ¬ [c] <+: b :: s := by
          rw [List.cons_prefix_cons]
          exact fun hprefix => hb hprefix.1.symm
        rw [if_neg hb, strReplace_cons_miss hmiss, List.singleton_append]

/-- Pieces of which each is replaced on its own. -/
theorem strReplace_flatMap {ι : Type*} {text text' : ι → Bytes} {is : List ι}
    (h : ∀ i ∈ is, ∀ s, strReplace search replace (text i ++ s) =
      text' i ++ strReplace search replace s) :
    strReplace search replace (is.flatMap text) = is.flatMap text' := by
  induction is with
  | nil => exact strReplace_nil
  | cons i is ih =>
      rw [List.forall_mem_cons] at h
      rw [List.flatMap_cons, h.1, ih h.2, List.flatMap_cons]

end Replacing

end Php
