import Polychrome.Library.Glob
import Polychrome.Library.PcreRow
import Polychrome.Preload.Exclusions

/-!
# Patterns of exclusions

{lit}`exclusionPattern` turns an exclusion of the class map into a regular expression by
replacing pieces of text that is quoted already.  This module follows the replacements
piece by piece and finds that the expression looks for a glob below the package's base
directory.

Main results:

- Definition {lit}`IsExcluded`: what an exclusion says.
- Theorem {lit}`exclusionPattern_text`: the text that comes out, item by item.
- Theorem {lit}`pregMatch_exclusionPattern_iff`: it matches the paths that are excluded.
- Theorem {lit}`discover_returns_iff`: what is returned, told without a pattern.

Current gaps:

- The byte 1 marks two stars in between, and the dot matches no newline; exclusions
  with this byte and paths with a newline are left aside.
-/

namespace Polychrome

namespace Preload

open Posix Php Pcre

/-! ## What an exclusion says -/

/-- A star in an exclusion. -/
def asterisk : UInt8 := 42

/-- The exclusion with a slash for each backslash and without leading slashes. -/
def normalized (pattern : Bytes) : Bytes :=
  (pattern.map fun b => if b = 92 then slash else b).dropWhile fun b => b == slash

/-- The glob of an exclusion. -/
def globOf (pattern : Bytes) : List (Glob.Item UInt8) := Glob.read asterisk (normalized pattern)

/-- Below the base, the path begins with a word of the glob. -/
def IsExcluded (pattern base path : Bytes) : Prop :=
  ∃ middle ∈ Glob.language slash (globOf pattern), ∃ suffix,
    path = rtrim base slash ++ bytes "/" ++ middle ++ suffix

/-! ## The replacements -/

/-- The text of an item while the stars are replaced. -/
def itemText (anything segment : Bytes) : Glob.Item UInt8 → Bytes
  | .anything => anything
  | .segment => segment
  | .letter b => pregQuoteByte tilde b

/-- The pattern with forward slashes and none in front. -/
theorem normalized_eq (pattern : Bytes) :
    ltrim (strReplace (bytes "\\") (bytes "/") pattern) slash = normalized pattern := by
  have hmap : strReplace (bytes "\\") (bytes "/") pattern =
      pattern.map fun b => if b = 92 then slash else b := by
    change strReplace [92] (bytes "/") pattern = _
    rw [strReplace_singleton, List.map_eq_flatMap]
    congr
    ext1 b
    split <;> rfl
  rw [hmap]
  rfl

/-- A byte of the normal form is a slash or one of the pattern's. -/
theorem mem_normalized {b : UInt8} {pattern : Bytes} (h : b ∈ normalized pattern) :
    b ≠ 92 ∧ (b = slash ∨ b ∈ pattern) := by
  rcases List.mem_map.mp (List.dropWhile_subset _ h) with ⟨c, hc, hb⟩
  by_cases hbackslash : c = 92
  · rw [if_pos hbackslash] at hb
    rw [← hb]
    exact ⟨by decide, Or.inl rfl⟩
  · rw [if_neg hbackslash] at hb
    rw [← hb]
    exact ⟨hbackslash, Or.inr hc⟩

/-- A byte that is quoted: behind a backslash there is no star and no other backslash. -/
theorem quoted_shape {b : UInt8} (hstar : b ≠ asterisk) (hbackslash : b ≠ 92) :
    (∃ c piece, pregQuoteByte tilde b = 92 :: c :: piece ∧ c ≠ asterisk ∧ 92 ∉ c :: piece) ∨
      pregQuoteByte tilde b = [b] := by
  unfold pregQuoteByte
  split
  case isTrue => exact Or.inl ⟨48, bytes "00", rfl, by decide, by decide⟩
  case isFalse =>
    split
    case isTrue =>
      refine Or.inl ⟨b, [], rfl, hstar, ?_⟩
      rw [List.mem_singleton]
      exact hbackslash.symm
    case isFalse => exact Or.inr rfl

/-- A byte that is no star does not begin like a quoted one. -/
theorem quoted_not_star {b : UInt8} (hstar : b ≠ asterisk) (hbackslash : b ≠ 92) (s : Bytes) :
    ¬ [92, asterisk] <+: pregQuoteByte tilde b ++ s := by
  rcases quoted_shape hstar hbackslash with ⟨c, piece, hquoted, hc, -⟩ | hquoted
  · rw [hquoted, List.cons_append, List.cons_append, List.cons_prefix_cons,
      List.cons_prefix_cons]
    exact fun hprefix => hc hprefix.2.1.symm
  · rw [hquoted, List.singleton_append, List.cons_prefix_cons]
    exact fun hprefix => hbackslash hprefix.1.symm

/-- The replacements of the stars pass a quoted byte. -/
theorem strReplace_quoted {b : UInt8} (hstar : b ≠ asterisk) (hbackslash : b ≠ 92)
    (search replace s : Bytes) :
    strReplace (92 :: asterisk :: search) replace (pregQuoteByte tilde b ++ s) =
      pregQuoteByte tilde b ++ strReplace (92 :: asterisk :: search) replace s := by
  have hmiss : ¬ 92 :: asterisk :: search <+: pregQuoteByte tilde b ++ s := by
    intro hprefix
    have hbegins : [92, asterisk] <+: 92 :: asterisk :: search := List.prefix_append _ search
    exact quoted_not_star hstar hbackslash s (hbegins.trans hprefix)
  rcases quoted_shape hstar hbackslash with ⟨c, piece, hquoted, -, hpiece⟩ | hquoted
  · -- Nothing begins at the backslash, and there is none behind it.
    rw [hquoted, List.cons_append] at hmiss ⊢
    rw [strReplace_cons_miss hmiss, strReplace_append_of_notMem hpiece]
    rfl
  · rw [hquoted]
    apply strReplace_append_of_notMem
    rw [List.mem_singleton]
    exact hbackslash.symm

/-- The replacement of two stars passes a star that no other one follows. -/
theorem strReplace_single_star {replace s : Bytes} (h : ¬ [92, asterisk] <+: s) :
    strReplace [92, asterisk, 92, asterisk] replace (92 :: asterisk :: s) =
      92 :: asterisk :: strReplace [92, asterisk, 92, asterisk] replace s := by
  have hmiss : ¬ [92, asterisk, 92, asterisk] <+: 92 :: asterisk :: s := by
    rw [List.cons_prefix_cons, List.cons_prefix_cons]
    exact fun hprefix => h hprefix.2.2
  have hstar : 92 ∉ [asterisk] := by decide
  rw [strReplace_cons_miss hmiss]
  exact congrArg (List.cons 92) (strReplace_append_of_notMem hstar s)

/-- An asterisk is quoted with a backslash. -/
theorem quoted_asterisk : pregQuoteByte tilde asterisk = [92, asterisk] := rfl

/-- Two stars are replaced in pairs from the left. -/
theorem strReplace_pairs {s : Bytes} (h : 92 ∉ s) :
    strReplace (bytes "\\*\\*") [1] (pregQuote s tilde) =
      (Glob.read asterisk s).flatMap (itemText [1] (bytes "\\*")) := by
  change strReplace [92, asterisk, 92, asterisk] [1] _ = _
  induction s using Glob.read.induct asterisk with
  | case1 => exact strReplace_nil
  | case2 b =>
      rw [List.mem_singleton] at h
      rw [pregQuote, List.flatMap_singleton, Glob.read, List.flatMap_singleton, Glob.single]
      split
      case isTrue hstar =>
        rw [hstar, quoted_asterisk, strReplace_single_star (by simp), strReplace_nil]
        rfl
      case isFalse hstar =>
        have hquoted := strReplace_quoted hstar (Ne.symm h) [92, asterisk] [1] []
        rwa [List.append_nil, strReplace_nil, List.append_nil] at hquoted
  | case3 b c s hpair ih =>
      rcases hpair with ⟨rfl, rfl⟩
      rw [List.mem_cons, List.mem_cons, not_or, not_or] at h
      rw [Glob.read, if_pos ⟨rfl, rfl⟩, List.flatMap_cons, ← ih h.2.2]
      exact strReplace_occurrence (by decide) (pregQuote s tilde)
  | case4 b c s hpair ih =>
      rw [List.mem_cons, not_or] at h
      rw [Glob.read, if_neg hpair, List.flatMap_cons, ← ih h.2, pregQuote, List.flatMap_cons,
        ← pregQuote, Glob.single]
      split
      case isTrue hstar =>
        have hc : c ≠ asterisk := fun hc => hpair ⟨hstar, hc⟩
        have hbackslash : c ≠ 92 := by
          rintro rfl
          exact h.2 List.mem_cons_self
        -- What follows is read on its own, so the star stays single.
        have hnext : ¬ [92, asterisk] <+: pregQuote (c :: s) tilde := by
          rw [pregQuote, List.flatMap_cons]
          exact quoted_not_star hc hbackslash _
        rw [hstar, quoted_asterisk]
        exact strReplace_single_star hnext
      case isFalse hstar => exact strReplace_quoted hstar (Ne.symm h.1) _ _ _

/-- Each star that is left is replaced. -/
theorem strReplace_segments {items : List (Glob.Item UInt8)}
    (h : ∀ b, .letter b ∈ items → b ≠ asterisk ∧ b ≠ 92) :
    strReplace (bytes "\\*") (bytes "[^/]*") (items.flatMap (itemText [1] (bytes "\\*"))) =
      items.flatMap (itemText [1] (bytes "[^/]*")) := by
  apply strReplace_flatMap
  intro item hitem s
  cases item with
  | anything =>
      have hmark : (92 : UInt8) ∉ [1] := by decide
      exact strReplace_append_of_notMem hmark s
  | segment => exact strReplace_occurrence (by decide) s
  | letter b => exact strReplace_quoted (h b hitem).1 (h b hitem).2 [] _ s

/-- The mark stands for two stars, and for nothing else. -/
theorem strReplace_marks {items : List (Glob.Item UInt8)}
    (h : ∀ b, .letter b ∈ items → b ≠ 1) :
    strReplace [1] (bytes ".*") (items.flatMap (itemText [1] (bytes "[^/]*"))) =
      items.flatMap (itemText (bytes ".*") (bytes "[^/]*")) := by
  apply strReplace_flatMap
  intro item hitem s
  cases item with
  | anything => exact strReplace_occurrence (by decide) s
  | segment =>
      have hmark : 1 ∉ bytes "[^/]*" := by decide
      exact strReplace_append_of_notMem hmark s
  | letter b =>
      have hmark : 1 ∉ pregQuoteByte tilde b := by
        have hb := (h b hitem).symm
        unfold pregQuoteByte
        split
        case isTrue => decide
        case isFalse => split <;> simp [hb]
      exact strReplace_append_of_notMem hmark s

/-- The text of the regular expression, if the mark does not occur in the exclusion. -/
theorem exclusionPattern_text {pattern : Bytes} (hmark : 1 ∉ pattern) (base : Bytes) :
    exclusionPattern pattern base =
      bytes "~^" ++ pregQuote (rtrim base slash ++ bytes "/") tilde ++
        (globOf pattern).flatMap (itemText (bytes ".*") (bytes "[^/]*")) ++ bytes ".*$~" := by
  have hbackslash : 92 ∉ normalized pattern := fun h => (mem_normalized h).1 rfl
  have hletter : ∀ b, .letter b ∈ globOf pattern → (b ≠ asterisk ∧ b ≠ 92) ∧ b ≠ 1 := by
    intro b hb
    have hread := Glob.letter_mem_read asterisk hb
    have hmem := mem_normalized hread.1
    refine ⟨⟨hread.2, hmem.1⟩, ?_⟩
    rintro rfl
    rcases hmem.2 with hslash | hone
    · cases hslash
    · exact hmark hone
  simp only [exclusionPattern]
  rw [normalized_eq, strReplace_pairs hbackslash, ← globOf,
    strReplace_segments fun b hb => (hletter b hb).1, strReplace_marks fun b hb => (hletter b hb).2]

/-! ## The expression -/

/-- The expression of an item. -/
def itemRegex : Glob.Item UInt8 → Regex
  | .anything => .star .dot
  | .segment => .star (.noneOf [slash])
  | .letter b => .byte b

/-- The words of its language: the dot matches no newline. -/
def itemLanguage : Glob.Item UInt8 → Language UInt8
  | .anything => {x | ∀ b ∈ x, b ≠ 10}
  | .segment => {x | slash ∉ x}
  | .letter b => {[b]}

/-- Every item's regular expression spells the item's language. -/
theorem spells_item (item : Glob.Item UInt8) :
    Spells (Matches false (itemRegex item)) (itemLanguage item) := by
  cases item with
  | anything =>
      rw [itemLanguage, ← kstar_singles]
      exact spells_dot.star
  | segment =>
      have hlanguage : itemLanguage .segment = {x | ∀ b ∈ x, b ∉ [slash]} := by
        ext x
        change slash ∉ x ↔ ∀ b ∈ x, b ∉ [slash]
        simp only [List.mem_singleton]
        constructor
        · rintro h _ hb rfl
          exact h hb
        · intro h hslash
          exact h slash hslash rfl
      rw [hlanguage, ← kstar_singles]
      exact (spells_noneOf [slash]).star
  | letter b => exact spells_byte b

/-- On words without a newline, these are the languages of the glob. -/
theorem mem_items_iff {items : List (Glob.Item UInt8)} {x : Bytes} (hx : 10 ∉ x) :
    x ∈ (items.map itemLanguage).prod ↔ x ∈ Glob.language slash items := by
  have hitem : ∀ (item : Glob.Item UInt8) (y : Bytes), 10 ∉ y →
      (y ∈ itemLanguage item ↔ y ∈ item.language slash) := by
    intro item y hy
    cases item with
    | anything =>
        refine iff_of_true ?_ trivial
        rintro _ hb rfl
        exact hy hb
    | segment => exact Iff.rfl
    | letter b => exact Iff.rfl
  induction items generalizing x with
  | nil => exact Iff.rfl
  | cons item items ih =>
      rw [List.map_cons, List.prod_cons, Glob.language_cons, Language.mem_mul, Language.mem_mul]
      constructor
      · rintro ⟨y, hy, z, hz, rfl⟩
        rw [List.mem_append, not_or] at hx
        exact ⟨y, (hitem item y hx.1).mp hy, z, (ih hx.2).mp hz, rfl⟩
      · rintro ⟨y, hy, z, hz, rfl⟩
        rw [List.mem_append, not_or] at hx
        exact ⟨y, (hitem item y hx.1).mpr hy, z, (ih hx.2).mpr hz, rfl⟩

/-- The circumflex reads as the start. -/
theorem readsAs_start : ReadsAs tilde (bytes "^") [.start] :=
  .of_tokens [.caret] (undelimit_append (by decide +kernel)) (fun _ => rfl) fun _ _ _ => rfl

/-- The dollar sign reads as the end. -/
theorem readsAs_finish : ReadsAs tilde (bytes "$") [.finish] :=
  .of_tokens [.dollar] (undelimit_append (by decide +kernel)) (fun _ => rfl) fun _ _ _ => rfl

/-- Every item's text reads as the item's regular expression. -/
theorem readsAs_item (item : Glob.Item UInt8) :
    ReadsAs tilde (itemText (bytes ".*") (bytes "[^/]*") item) [itemRegex item] := by
  have htwice : ∀ (t t' : Token) (ts : Option (List Token)),
      ((ts.map fun ts => t' :: ts).map fun ts => t :: ts) = ts.map fun ts => [t, t'] ++ ts := by
    intro t t' ts
    rw [Option.map_map]
    rfl
  cases item with
  | anything =>
      exact .of_tokens [.dot, .star] (undelimit_append (by decide +kernel)) (fun _ => htwice _ _ _)
        fun _ _ _ => rfl
  | segment =>
      exact .of_tokens [.noneOf [slash], .star] (undelimit_append (by decide +kernel))
        (fun _ => htwice _ _ _) fun _ _ _ => rfl
  | letter b => exact readsAs_quoted (by decide) b

/-! ## What it matches -/

/-- The items of the whole expression: the base, the glob and any suffix. -/
def wholeGlob (pattern base : Bytes) : List (Glob.Item UInt8) :=
  (rtrim base slash ++ bytes "/").map .letter ++ (globOf pattern ++ [.anything])

/-- The language of the whole pattern is what the pattern excludes. -/
theorem mem_wholeGlob_iff {pattern base path : Bytes} :
    path ∈ Glob.language slash (wholeGlob pattern base) ↔ IsExcluded pattern base path := by
  rw [wholeGlob, Glob.mem_letters_append, IsExcluded]
  constructor
  · rintro ⟨_, rfl, hrest⟩
    rcases Glob.mem_append_anything.mp hrest with ⟨middle, hmiddle, suffix, rfl⟩
    exact ⟨middle, hmiddle, suffix, by rw [List.append_assoc _ middle]⟩
  · rintro ⟨middle, hmiddle, suffix, rfl⟩
    exact ⟨middle ++ suffix, by rw [List.append_assoc _ middle],
      Glob.mem_append_anything.mpr ⟨middle, hmiddle, suffix, rfl⟩⟩

/-- The expression is read as its items between both anchors. -/
theorem readsAs_exclusionPattern {pattern : Bytes} (hmark : 1 ∉ pattern) (base : Bytes) :
    ∃ text, exclusionPattern pattern base = tilde :: text ++ [tilde] ∧
      ReadsAs tilde text (.start :: ((wholeGlob pattern base).map itemRegex ++ [.finish])) := by
  refine ⟨bytes "^" ++ ((wholeGlob pattern base).flatMap (itemText (bytes ".*") (bytes "[^/]*")) ++
    bytes "$"), ?_, ?_⟩
  · rw [exclusionPattern_text hmark, wholeGlob, List.flatMap_append, List.flatMap_append,
      List.flatMap_map, pregQuote]
    simp [bytes, itemText, tilde]
  · have hitems : ReadsAs tilde
        ((wholeGlob pattern base).flatMap (itemText (bytes ".*") (bytes "[^/]*")))
        ((wholeGlob pattern base).map itemRegex) := .pieces fun item _ => readsAs_item item
    exact readsAs_start.append (hitems.append readsAs_finish)

/-- The regular expression matches the words of the whole glob. -/
theorem pregMatch_wholeGlob_iff {pattern base path : Bytes} (hmark : 1 ∉ pattern)
    (hpath : 10 ∉ path) : pregMatch (exclusionPattern pattern base) path = true ↔
      path ∈ Glob.language slash (wholeGlob pattern base) := by
  rcases readsAs_exclusionPattern hmark base with ⟨text, htext, hreads⟩
  rw [htext, pregMatch_row hreads, anchored_iff (spells_row spells_item _)]
  constructor
  · rintro ⟨x, hx, rfl | rfl⟩
    · exact (mem_items_iff hpath).mp hx
    · -- Only a newline could end the path behind the match.
      exact absurd (List.mem_append_right x List.mem_cons_self) hpath
  · intro h
    exact ⟨path, (mem_items_iff hpath).mpr h, Or.inl rfl⟩

/-- The regular expression matches a path exactly if the exclusion says so. -/
theorem pregMatch_exclusionPattern_iff {pattern base path : Bytes} (hmark : 1 ∉ pattern)
    (hpath : 10 ∉ path) :
    pregMatch (exclusionPattern pattern base) path = true ↔ IsExcluded pattern base path := by
  rw [pregMatch_wholeGlob_iff hmark hpath, mem_wholeGlob_iff]

/-- A pattern with a backslash, the delimiter and both kinds of asterisk. -/
theorem pregMatch_exclusionPattern_sample :
    1 ∉ bytes "\\src~/**/T*.php" ∧ 10 ∉ bytes "/app/src~/a/b/Test.php.bak" ∧
      (pregMatch (exclusionPattern (bytes "\\src~/**/T*.php") (bytes "/app//"))
          (bytes "/app/src~/a/b/Test.php.bak") = true ↔
        IsExcluded (bytes "\\src~/**/T*.php") (bytes "/app//")
          (bytes "/app/src~/a/b/Test.php.bak")) :=
  ⟨by decide, by decide, pregMatch_exclusionPattern_iff (by decide) (by decide)⟩

example : pregMatch (exclusionPattern (bytes "\\src~/**/T*.php") (bytes "/app//"))
    (bytes "/app/src~/a/b/Test.php.bak") = true := by
  decide +kernel

/-! ## The exclusions of a package -/

/-- The exclusion stands in the package's metadata. -/
def ListsExclusion (package : Package) (pattern : Bytes) : Prop :=
  ∃ patterns, ((package.autoload.coalesce (bytes "exclude-from-classmap")).getD
      (.array [])).asArray = .ok patterns ∧
    ∃ x ∈ patterns, x.2.asString = .ok pattern

/-- The expressions of a package are those of the exclusions it lists. -/
theorem mem_exclusions_iff {package : Package} {patterns : List Bytes}
    (h : exclusions package = .ok patterns) {regex : Bytes} :
    regex ∈ patterns ↔
      ∃ pattern, ListsExclusion package pattern ∧
        regex = exclusionPattern pattern package.base := by
  rw [exclusions, Except.bind_eq_ok] at h
  rcases h with ⟨entries, hentries, hmap⟩
  have hvalue : ∀ x : Key × Value,
      (x.2.asString.map fun pattern => exclusionPattern pattern package.base) = .ok regex ↔
        ∃ pattern, x.2.asString = .ok pattern ∧
          regex = exclusionPattern pattern package.base := by
    intro x
    cases x.2.asString with
    | error e => simp [Except.map]
    | ok pattern => simp [Except.map, eq_comm]
  rw [Collecting.mem_of_mapM hmap]
  constructor
  · rintro ⟨x, hx, hregex⟩
    rcases (hvalue x).mp hregex with ⟨pattern, hpattern, hregex⟩
    exact ⟨pattern, ⟨entries, hentries, x, hx, hpattern⟩, hregex⟩
  · rintro ⟨pattern, ⟨entries', hentries', x, hx, hpattern⟩, hregex⟩
    cases hentries.symm.trans hentries'
    exact ⟨x, hx, (hvalue x).mpr ⟨pattern, hpattern, hregex⟩⟩

/-- A package excludes the files that one of its exclusions says. -/
theorem excludes_iff {package : Package} {patterns : List Bytes} {file : Path}
    (h : exclusions package = .ok patterns)
    (hmark : ∀ pattern, ListsExclusion package pattern → 1 ∉ pattern) (hfile : 10 ∉ text file) :
    Excludes package file ↔
      ∃ pattern, ListsExclusion package pattern ∧
        IsExcluded pattern package.base (text file) := by
  constructor
  · rintro ⟨patterns', hpatterns, regex, hregex, hmatch⟩
    cases h.symm.trans hpatterns
    rcases (mem_exclusions_iff h).mp hregex with ⟨pattern, hlists, rfl⟩
    rw [pregMatch_wholeGlob_iff (hmark pattern hlists) hfile, mem_wholeGlob_iff] at hmatch
    exact ⟨pattern, hlists, hmatch⟩
  · rintro ⟨pattern, hlists, hexcluded⟩
    rw [← mem_wholeGlob_iff, ← pregMatch_wholeGlob_iff (hmark pattern hlists) hfile] at hexcluded
    exact ⟨patterns, h, _, (mem_exclusions_iff h).mpr ⟨pattern, hlists, rfl⟩, hexcluded⟩

/-- The package is one for production, a path that it declares leads to the regular PHP
file, and no exclusion that it lists says so. -/
structure Delivers (host : Host) (root : Path) (package : Package) (file : Path) : Prop where
  declares : Declares host root package
  leads : ∃ real, Starts host root package real ∧ Yields host.files real file
  regular : ∃ readable content, host.files.lookup file = some (.regular readable content)
  php : strEndsWith (text file) (bytes ".php") = true
  listed : ∀ pattern, ListsExclusion package pattern →
    ¬ IsExcluded pattern package.base (text file)

/-- What a declared path leads to lies inside the root. -/
theorem Delivers.inside {host : Host} {root : Path} {package : Package} {file : Path}
    (h : Delivers host root package file) : root <+: file := by
  rcases h.leads with ⟨real, ⟨-, -, -, -, -, -, -, -, -, hinside⟩, hyields⟩
  rcases hyields with ⟨-, rfl⟩ | ⟨-, q, c, rfl, -⟩
  · exact hinside
  · rw [List.append_assoc]
    exact hinside.trans (List.prefix_append _ _)

/-- A package offers what it delivers: the expressions match what the exclusions say. -/
theorem offers_iff {host : Host} {root : Path} {package : Package} {file : Path}
    {patterns : List Bytes} (hpatterns : exclusions package = .ok patterns)
    (hpackage : Declares host root package)
    (hmark : ∀ pattern, ListsExclusion package pattern → 1 ∉ pattern) (hfile : 10 ∉ text file) :
    Offers host root package file ↔ Delivers host root package file := by
  have hexcludes := excludes_iff hpatterns hmark hfile
  constructor
  · intro h
    have hown := not_excluded_by_own h
    rcases h with ⟨-, real, -, hstarts, hyields, hregular, hphp, -⟩
    refine ⟨hpackage, ⟨real, hstarts, hyields⟩, hregular, hphp, ?_⟩
    intro pattern hlists hexcluded
    exact hown (hexcludes.mpr ⟨pattern, hlists, hexcluded⟩)
  · rintro ⟨-, ⟨real, hstarts, hyields⟩, hregular, hphp, hlisted⟩
    refine ⟨patterns, real, hpatterns, hstarts, hyields, hregular, hphp, ?_⟩
    intro regex hregex
    rw [← Bool.not_eq_true]
    intro hmatch
    rcases hexcludes.mp ⟨patterns, hpatterns, regex, hregex, hmatch⟩ with
      ⟨pattern, hlists, hexcluded⟩
    exact hlisted pattern hlists hexcluded

/-- Below a root that is not the root directory, the files that are returned are those
that no name keeps out and that some package for production delivers. -/
theorem discover_returns_iff (host : Host) (argument : Bytes) (found : Found)
    (h : discover host argument = .ok found) :
    ∃ root, host.phpRealpath argument = .ok (some root) ∧
      (root ≠ [] →
        (∀ package, Declares host root package →
          ∀ pattern, ListsExclusion package pattern → 1 ∉ pattern) →
        ∀ file, 10 ∉ text file →
          (file ∈ found.files ↔
            KeptClear root file ∧ ∃ package, Delivers host root package file)) := by
  rcases mem_discover_iff h with ⟨root, -, hroot, -, -⟩
  refine ⟨root, hroot, ?_⟩
  intro htop hmark file hfile
  have hoffers : ∀ package, Declares host root package →
      (Offers host root package file ↔ Delivers host root package file) := by
    intro package hpackage
    rcases (entries_of_discover h hroot hpackage).1 with ⟨patterns, hpatterns⟩
    exact offers_iff hpatterns hpackage (hmark package hpackage) hfile
  rw [mem_found_iff h hroot]
  constructor
  · rintro ⟨⟨package, hpackage, hoffered⟩, hfree⟩
    have hdelivers := (hoffers package hpackage).mp hoffered
    rcases hdelivers.inside with ⟨rest, rfl⟩
    exact ⟨(keptClear_iff htop hdelivers.php).mp hfree, package, hdelivers⟩
  · rintro ⟨hclear, package, hdelivers⟩
    refine ⟨⟨package, hdelivers.declares, (hoffers package hdelivers.declares).mpr hdelivers⟩, ?_⟩
    rcases hdelivers.inside with ⟨rest, rfl⟩
    exact (keptClear_iff htop hdelivers.php).mpr hclear

/-- The packages of the sample: the application, and the core directory of Drupal. -/
theorem packages_excludingHost :
    packages excludingHost [named "app"] =
      .ok
        [{ base := bytes "/app"
           autoload := .array
             [(.string (bytes "exclude-from-classmap"), .array
               [(.int 0, .string (bytes "core/lib/Old/"))])] },
          { base := bytes "/app/core/lib"
            autoload := .array
              [(.string (bytes "classmap"), .array [(.int 0, .string (bytes "."))])] }] :=
  rfl

/-- None of the sample's exclusions holds the byte that marks two stars. -/
theorem unmarked_excludingHost {package : Package}
    (hpackage : Declares excludingHost [named "app"] package) {pattern : Bytes}
    (hlists : ListsExclusion package pattern) : 1 ∉ pattern := by
  rcases hlists with ⟨patterns, hpatterns, x, hx, hpattern⟩
  have hmem := (mem_packages_iff packages_excludingHost).mpr hpackage
  rcases List.mem_pair.mp hmem with rfl | rfl
  · cases hpatterns
    rw [List.mem_singleton.mp hx] at hpattern
    cases hpattern
    decide
  · cases hpatterns
    cases hx

/-- The core directory delivers the file that the application excludes. -/
theorem discover_returns_sample :
    KeptClear [named "app"] excludedFile ∧
      ∃ package, Delivers excludingHost [named "app"] package excludedFile := by
  rcases discover_returns_iff excludingHost (bytes "/app") _ discover_excludingHost with
    ⟨root, hroot, hiff⟩
  have happ : root = [named "app"] := by
    cases hroot
    rfl
  subst happ
  refine (hiff (List.cons_ne_nil _ _) ?_ excludedFile (by decide)).mp List.mem_cons_self
  intro package hpackage pattern hlists
  exact unmarked_excludingHost hpackage hlists

end Preload

end Polychrome
