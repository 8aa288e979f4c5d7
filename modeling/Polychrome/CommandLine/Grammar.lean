import Polychrome.CommandLine.Parse

/-!
# The grammar of the command line

The grammar is stated without the loop: arguments are the words of settings, each
with a value that its option accepts, up to the end of the list, a flag that asks
for help or the version, or a fault.

Main results:

- Definitions {lit}`Setting`, {lit}`written` and {lit}`Fault`: the sentences of the
  grammar and what breaks them off.
- Definition {lit}`Accepts` and theorem {lit}`takeValue_eq_ok_iff`: the values that an
  option accepts are the ones that the code takes.
-/

namespace Polychrome

namespace CommandLine

open Posix Rust

/-! ## Values -/

/-- A socket in the file system, or an address with a port. -/
def Endpoint (value : Bytes) : Prop :=
  (∃ path, value = bytes "unix:" ++ slash :: path) ∨
    ∃ address, parseSocketAddr value = some address ∧ address.port ≠ 0

/-- A setting of PHP that is not reserved, on one line. -/
def Override (value : Bytes) : Prop :=
  ∃ key rest, value = key ++ 61 :: rest ∧ key ≠ [] ∧ (∀ b ∈ key, isKeyByte b = true) ∧
    (10 ∉ value ∧ 13 ∉ value ∧ 0 ∉ value) ∧
    ∀ reserved ∈ reservedKeys, eqIgnoreAsciiCase key reserved = false

/-- The values that an option accepts. -/
def Accepts : ValueOption → Bytes → Prop
  | .root, _ | .c, _ => True
  | .listen, value => isUtf8 value = true ∧ Endpoint value
  | .workers, value => isUtf8 value = true ∧ ∃ n, Numeral value n ∧ 1 ≤ n ∧ n ≤ 4096
  | .requestTimeout, value => isUtf8 value = true ∧ ∃ n, Numeral value n ∧ 1 ≤ n ∧ n ≤ 86400
  | .d, value => isUtf8 value = true ∧ Override value

/-- An endpoint is taken as it is. -/
theorem takeListen_eq_ok_iff {value listen : Bytes} :
    takeListen value = .ok listen ↔ Endpoint value ∧ listen = value := by
  unfold takeListen
  split
  case h_1 path hpath =>
    rw [stripStart_eq_some_iff] at hpath
    subst hpath
    have hnone : parseSocketAddr (bytes "unix:" ++ path) = none := by
      rw [Option.eq_none_iff_forall_ne_some]
      intro address haddress
      rcases head_of_parseSocketAddr haddress with ⟨b, rest, heq, hb⟩
      cases heq
      revert hb
      decide
    split
    case isTrue hhead =>
      rcases List.head?_eq_some_iff.mp hhead with ⟨rest, rfl⟩
      simp [Endpoint, eq_comm]
    case isFalse hhead =>
      simp only [reduceCtorEq, false_iff, not_and]
      rintro (⟨rest, hrest⟩ | ⟨address, haddress, -⟩)
      · exact absurd (by simpa using congrArg List.head? (List.append_cancel_left hrest)) hhead
      · rw [hnone] at haddress
        cases haddress
  case h_2 hpath =>
    have hunix : ¬ ∃ path, value = bytes "unix:" ++ slash :: path := by
      rintro ⟨path, hvalue⟩
      rw [stripStart_eq_some_iff.mpr hvalue] at hpath
      cases hpath
    split
    case h_1 hnone => simp [Endpoint, hunix, hnone]
    case h_2 address haddress =>
      by_cases hport : address.port = 0
      · simp [Endpoint, hunix, haddress, hport]
      · rw [if_neg hport]
        constructor
        · rintro ⟨⟩
          exact ⟨Or.inr ⟨address, haddress, hport⟩, rfl⟩
        · rintro ⟨-, rfl⟩
          rfl

/-- A number is taken if it is a decimal numeral within its bounds. -/
theorem takeNumber_eq_ok_iff {most : Nat} (hmost : most < 2 ^ 64) {message value : Bytes}
    {n : Nat} :
    takeNumber most message value = .ok n ↔ Numeral value n ∧ 1 ≤ n ∧ n ≤ most := by
  have hfilter : (parseUnsigned (2 ^ 64) value).filter (fun n => 1 ≤ n ∧ n ≤ most) = some n ↔
      Numeral value n ∧ 1 ≤ n ∧ n ≤ most := by
    rw [Option.filter_eq_some_iff, parseUnsigned_iff (by decide), decide_eq_true_iff]
    constructor
    · rintro ⟨⟨hn, -⟩, hrange⟩
      exact ⟨hn, hrange⟩
    · rintro ⟨hn, hrange⟩
      exact ⟨⟨hn, by omega⟩, hrange⟩
  rw [← hfilter, takeNumber]
  split
  case h_1 m hm =>
    rw [hm]
    simp
  case h_2 hnone =>
    rw [hnone]
    simp

/-- An override is taken as it is. -/
theorem takeDefine_eq_ok_iff {value define : Bytes} :
    takeDefine value = .ok define ↔ Override value ∧ define = value := by
  -- The first equals sign ends the key, because no key holds one.
  have hkey : ∀ key rest : Bytes, value = key ++ 61 :: rest → (∀ b ∈ key, isKeyByte b = true) →
      splitOnce 61 value = some (key, rest) := by
    intro key rest hvalue hbytes
    refine splitOnce_eq_some_iff.mpr ⟨hvalue, fun hmem => ?_⟩
    exact absurd (hbytes 61 hmem) (by decide)
  unfold takeDefine
  split
  case h_1 hnone =>
    simp only [reduceCtorEq, false_iff, not_and]
    rintro ⟨key, rest, hvalue, -, hbytes, -⟩
    rw [hkey key rest hvalue hbytes] at hnone
    cases hnone
  case h_2 key rest hsplit =>
    have hvalue := (splitOnce_eq_some_iff.mp hsplit).1
    have hkeys : Override value ↔ key ≠ [] ∧ (∀ b ∈ key, isKeyByte b = true) ∧
        (10 ∉ value ∧ 13 ∉ value ∧ 0 ∉ value) ∧
        ∀ reserved ∈ reservedKeys, eqIgnoreAsciiCase key reserved = false := by
      constructor
      · rintro ⟨key', rest', hvalue', hne, hbytes, hlines, hreserved⟩
        cases hsplit.symm.trans (hkey key' rest' hvalue' hbytes)
        exact ⟨hne, hbytes, hlines, hreserved⟩
      · exact fun h => ⟨key, rest, hvalue, h⟩
    rw [hkeys]
    split
    case isTrue hbad =>
      simp only [reduceCtorEq, false_iff]
      rintro ⟨⟨hne, hbytes, ⟨h10, h13, h0⟩, -⟩, -⟩
      rcases hbad with hempty | hkey' | hline | hline | hline
      · exact hne hempty
      · simp [List.all_eq_true.mpr hbytes] at hkey'
      · exact h10 hline
      · exact h13 hline
      · exact h0 hline
    case isFalse hgood =>
      simp only [not_or, Bool.not_eq_false, List.all_eq_true] at hgood
      rcases hgood with ⟨hne, hbytes, hlines⟩
      split
      case isTrue hreserved =>
        rcases List.any_eq_true.mp hreserved with ⟨reserved, hmem, heq⟩
        simp only [reduceCtorEq, false_iff, not_and]
        rintro ⟨-, -, -, hnone⟩
        simp [hnone reserved hmem] at heq
      case isFalse hfree =>
        have hnone : ∀ reserved ∈ reservedKeys, eqIgnoreAsciiCase key reserved = false := by
          simpa using hfree
        constructor
        · rintro ⟨⟩
          exact ⟨⟨hne, hbytes, hlines, hnone⟩, rfl⟩
        · rintro ⟨-, rfl⟩
          rfl

/-! ## Settings -/

/-- A flag, or an option with its value. -/
inductive Setting
  | noPreload
  | value (option : ValueOption) (text : Bytes)
deriving DecidableEq, Repr

/-- How a setting is written. -/
def Setting.words : Setting → List Bytes
  | .noPreload => [noPreloadWord]
  | .value option text => [option.word, text]

/-- The option accepts its value. -/
def Setting.Valid : Setting → Prop
  | .noPreload => True
  | .value option text => Accepts option text

/-- The words of settings one after another. -/
def written (settings : List Setting) : List Bytes := settings.flatMap Setting.words

/-- The value of a setting of the option. -/
def Setting.valueOf (option : ValueOption) : Setting → Option Bytes
  | .noPreload => none
  | .value option' text => if option' = option then some text else none

/-- The values of an option in order. -/
def valuesOf (option : ValueOption) (settings : List Setting) : List Bytes :=
  settings.filterMap (Setting.valueOf option)

/-- The value of the last occurrence. -/
def last (option : ValueOption) (settings : List Setting) : Option Bytes :=
  (valuesOf option settings).getLast?

/-- The words that mean something where an option is expected. -/
def vocabulary : List Bytes :=
  helpWords ++ versionWords ++ noPreloadWord ::
    [.root, .listen, .workers, .requestTimeout, .c, .d].map ValueOption.word

/-- What cannot be read on: a word that is no text or means nothing, an option without
a value, an option with a value that it does not accept. -/
inductive Fault : List Bytes → Prop
  | notUtf8 {arg : Bytes} {rest : List Bytes} (hutf8 : isUtf8 arg = false) : Fault (arg :: rest)
  | unknown {arg : Bytes} {rest : List Bytes} (hword : arg ∉ vocabulary) : Fault (arg :: rest)
  | missing (option : ValueOption) : Fault [option.word]
  | invalid {option : ValueOption} {text : Bytes} {rest : List Bytes}
      (hvalue : ¬ Accepts option text) : Fault (option.word :: text :: rest)

/-! ## What the code takes -/

/-- What a setting does to the configuration. -/
def Setting.apply (config : Config) : Setting → Config
  | .noPreload => { config with preload := false }
  | .value .root text => { config with root := text }
  | .value .c text => { config with ini := some text }
  | .value .listen text => { config with listen := text }
  | .value .workers text =>
      { config with workers := (parseUnsigned (2 ^ 64) text).getD config.workers }
  | .value .requestTimeout text =>
      { config with timeout := (parseUnsigned (2 ^ 64) text).getD config.timeout }
  | .value .d text => { config with defines := config.defines ++ [text] }

/-- What is done with a value that has to be UTF-8. -/
theorem intoString_bind_iff {α : Type} {option : ValueOption} {text : Bytes}
    {take : Bytes → Except Bytes α} {f : α → Config} {config' : Config} :
    (do let a ← take (← intoString option text); return f a) = .ok config' ↔
      isUtf8 text = true ∧ ∃ a, take text = .ok a ∧ config' = f a := by
  unfold intoString
  cases isUtf8 text with
  | false => simp [bind, Except.bind]
  | true =>
      cases htake : take text with
      | error e => simp [bind, Except.bind, htake]
      | ok a => simp [bind, Except.bind, htake, pure, Except.pure, eq_comm]

/-- A number in range is what is read again. -/
theorem takeNumber_read_iff {most : Nat} (hmost : most < 2 ^ 64) {message text : Bytes}
    {config' : Config} {f : Nat → Config} (before : Nat) :
    (∃ n, takeNumber most message text = .ok n ∧ config' = f n) ↔
      (∃ n, Numeral text n ∧ 1 ≤ n ∧ n ≤ most) ∧
        config' = f ((parseUnsigned (2 ^ 64) text).getD before) := by
  simp only [takeNumber_eq_ok_iff hmost]
  have hread : ∀ n, Numeral text n → n ≤ most → (parseUnsigned (2 ^ 64) text).getD before = n :=
    fun n hn hle => hn.read (by omega) before
  constructor
  · rintro ⟨n, ⟨hn, hrange⟩, rfl⟩
    rw [hread n hn hrange.2]
    exact ⟨⟨n, hn, hrange⟩, rfl⟩
  · rintro ⟨⟨n, hn, hrange⟩, rfl⟩
    rw [hread n hn hrange.2]
    exact ⟨n, ⟨hn, hrange⟩, rfl⟩

/-- A value that its option accepts is applied to the configuration, and no other is. -/
theorem takeValue_eq_ok_iff {config config' : Config} {option : ValueOption} {text : Bytes} :
    takeValue config option text = .ok config' ↔
      Accepts option text ∧ config' = (Setting.value option text).apply config := by
  cases option with
  | root => simp [takeValue, Accepts, Setting.apply, eq_comm]
  | c => simp [takeValue, Accepts, Setting.apply, eq_comm]
  | listen =>
      rw [takeValue, intoString_bind_iff]
      simp [takeListen_eq_ok_iff, Accepts, Setting.apply, and_assoc]
  | workers =>
      rw [takeValue, intoString_bind_iff, takeWorkers,
        takeNumber_read_iff (by decide) config.workers]
      simp only [Accepts, Setting.apply, and_assoc]
  | requestTimeout =>
      rw [takeValue, intoString_bind_iff, takeTimeout,
        takeNumber_read_iff (by decide) config.timeout]
      simp only [Accepts, Setting.apply, and_assoc]
  | d =>
      rw [takeValue, intoString_bind_iff]
      simp [takeDefine_eq_ok_iff, Accepts, Setting.apply, and_assoc]

end CommandLine

end Polychrome
