import Polychrome.Library.Reordering
import Polychrome.Preload.Declarations

/-!
# Presentations of one installation

The metadata of an installation can be written down in different orders: the packages
of {lit}`installed.json`, the paths of a section, the exclusions.  This module compares
what {lit}`discover` reads out of two such presentations.

Main results:

- Theorem {lit}`pushDirectories_spec`: when the sections can be put together.
- Theorem {lit}`declaredPaths_agree`: two presentations declare the same paths.
- Theorem {lit}`packages_agree`: two presentations have the same packages.
-/

namespace Polychrome

namespace Preload

open Posix Php Pcre Reordering

/-! ## Two orders -/

/-- The same value, or an array with its entries in another order. -/
def Reordered (v v' : Value) : Prop :=
  v = v' ∨ ∃ entries entries', v = .array entries ∧ v' = .array entries' ∧
    (entries.map Prod.fst).Perm (entries'.map Prod.fst) ∧
    (entries.map Prod.snd).Perm (entries'.map Prod.snd)

/-- The sections of a package in two orders. -/
structure SameAutoload (autoload autoload' : Value) : Prop where
  classmap : Reordered (sectionOf autoload "classmap") (sectionOf autoload' "classmap")
  psr0 : PermWith Reordered (sectionOf autoload "psr-0").elements
    (sectionOf autoload' "psr-0").elements
  psr4 : PermWith Reordered (sectionOf autoload "psr-4").elements
    (sectionOf autoload' "psr-4").elements
  exclusions : Reordered (sectionOf autoload "exclude-from-classmap")
    (sectionOf autoload' "exclude-from-classmap")

/-- One package, with its sections in two orders. -/
structure SamePackage (package package' : Package) : Prop where
  base : package.base = package'.base
  autoload : SameAutoload package.autoload package'.autoload

/-- The entry of one package in two presentations of {lit}`installed.json`. -/
structure SameEntry (entry entry' : Value) : Prop where
  name : entry.index (bytes "name") = entry'.index (bytes "name")
  type : entry.coalesce (bytes "type") = entry'.coalesce (bytes "type")
  installPath : entry.coalesce (bytes "install-path") = entry'.coalesce (bytes "install-path")
  autoload : SameAutoload (sectionOf entry "autoload") (sectionOf entry' "autoload")

/-- Two presentations of {lit}`installed.json`. -/
structure SameInstalled (installed installed' : Value) : Prop where
  development : installed.coalesce (bytes "dev-package-names") =
    installed'.coalesce (bytes "dev-package-names")
  packages : PermWith SameEntry ((installed.coalesce (bytes "packages")).getD installed).elements
    ((installed'.coalesce (bytes "packages")).getD installed').elements

/-- Two presentations of {lit}`composer.json`. -/
structure SameComposer (composer composer' : Value) : Prop where
  vendor : (composer.coalesce (bytes "config")).bind (·.coalesce (bytes "vendor-dir")) =
    (composer'.coalesce (bytes "config")).bind (·.coalesce (bytes "vendor-dir"))
  autoload : SameAutoload (sectionOf composer "autoload") (sectionOf composer' "autoload")

/-- Every value is itself, reordered. -/
theorem Reordered.refl (v : Value) : Reordered v v :=
  Or.inl rfl

/-- Every section declares what it declares. -/
theorem SameAutoload.refl (v : Value) : SameAutoload v v where
  classmap := .refl _
  psr0 := .refl .refl _
  psr4 := .refl .refl _
  exclusions := .refl _

/-! ## The declared paths -/

/-- The next key, when one more key is taken. -/
def afterKey (next : Int) : Key → Int
  | .int n => max next (n + 1)
  | .string _ => next

/-- The next key depends on the keys only. -/
theorem nextKey_eq (entries : List (Key × Value)) :
    nextKey entries = (entries.map Prod.fst).foldl afterKey 0 := by
  rw [nextKey, List.foldl_map]
  rfl

/-- The next key does not depend on the order of the entries. -/
theorem nextKey_perm {entries entries' : List (Key × Value)}
    (h : (entries.map Prod.fst).Perm (entries'.map Prod.fst)) :
    nextKey entries = nextKey entries' := by
  rw [nextKey_eq, nextKey_eq]
  apply h.foldl_eq'
  intro key _ key' _ next
  cases key with
  | string s => cases key' <;> rfl
  | int n =>
      cases key' with
      | string s' => rfl
      | int n' => exact max_right_comm _ _ _

/-- Pushing numbers the values from the next key on. -/
theorem nextKey_append (entries : List (Key × Value)) (values : List Value) :
    nextKey (entries ++ values.mapIdx fun i v => (Key.int (nextKey entries + i), v)) =
      nextKey entries + values.length := by
  have hkeys : ∀ next : Int, ((values.mapIdx fun i v => (Key.int (next + i), v)).map
      Prod.fst).foldl afterKey next = next + values.length := by
    induction values with
    | nil => simp
    | cons v values ih =>
        intro next
        have hshift : (fun (i : Nat) (v : Value) => (Key.int (next + (i + 1 : Nat)), v)) =
            fun (i : Nat) (v : Value) => (Key.int (next + 1 + i), v) := by
          funext i v
          have hnext : next + ((i + 1 : Nat) : Int) = next + 1 + i := by omega
          rw [hnext]
        have hmax : afterKey next (Key.int (next + (0 : Nat))) = next + 1 := by
          rw [afterKey]
          omega
        rw [List.mapIdx_cons, hshift, List.map_cons, List.foldl_cons, hmax, ih, List.length_cons]
        omega
  rw [nextKey_eq, List.map_append, List.foldl_append, ← nextKey_eq, hkeys]

/-- The values that the directories of a PSR section push. -/
def pushed (directories : List Value) : List Value :=
  directories.flatMap fun v => v.cast.map Prod.snd

/-- All keys are integers. -/
def IntegerKeys (v : Value) : Prop := ∀ key ∈ v.cast.map Prod.fst, ∃ n, key = Key.int n

/-- The directories can be pushed behind the entries. -/
def Fits (entries : List (Key × Value)) (directories : List Value) : Prop :=
  (∀ v ∈ directories, IntegerKeys v) ∧
    (pushed directories = [] ∨ nextKey entries + (pushed directories).length ≤ 2 ^ 63)

/-- Some key is a string. -/
def hasStringKey (values : List (Key × Value)) : Bool :=
  values.any fun x => match x.1 with | .string _ => true | .int _ => false

/-- Keys that are no strings are integers. -/
theorem hasStringKey_iff {v : Value} : hasStringKey v.cast = true ↔ ¬ IntegerKeys v := by
  rw [hasStringKey, List.any_eq_true, IntegerKeys]
  constructor
  · rintro ⟨⟨key, w⟩, hmem, hstring⟩ hall
    rcases hall key (List.mem_map.mpr ⟨_, hmem, rfl⟩) with ⟨n, rfl⟩
    cases hstring
  · intro hsome
    by_contra hnone
    apply hsome
    intro key hkey
    rcases List.mem_map.mp hkey with ⟨⟨key, w⟩, hmem, rfl⟩
    cases key with
    | int n => exact ⟨n, rfl⟩
    | string s => exact absurd ⟨_, hmem, rfl⟩ hnone

/-- What {lit}`array_push` does with the values of an array. -/
theorem arrayPush_array (entries values : List (Key × Value)) :
    arrayPush (.array entries) values =
      if hasStringKey values then .error .error
      else if nextKey entries + values.length > 2 ^ 63 ∧ values ≠ [] then .error .error
      else .ok (.array (entries ++ (values.map Prod.snd).mapIdx fun i v =>
        (.int (nextKey entries + i), v))) :=
  rfl

/-- One entry of a section. -/
theorem arrayPush_cases (entries : List (Key × Value)) (v : Value) :
    (Fits entries [v] ∧ ∃ entries', arrayPush (.array entries) v.cast = .ok (.array entries') ∧
      entries'.map Prod.snd = entries.map Prod.snd ++ pushed [v] ∧
      nextKey entries' = nextKey entries + (pushed [v]).length) ∨
    ¬ Fits entries [v] ∧ ∃ e, arrayPush (.array entries) v.cast = .error e := by
  have hpushed : pushed [v] = v.cast.map Prod.snd := by simp [pushed]
  have hkeys : (∀ w ∈ [v], IntegerKeys w) ↔ ¬ hasStringKey v.cast = true := by
    rw [hasStringKey_iff, not_not]
    simp
  have hbound : (pushed [v] = [] ∨ nextKey entries + (pushed [v]).length ≤ 2 ^ 63) ↔
      ¬ (nextKey entries + v.cast.length > 2 ^ 63 ∧ v.cast ≠ []) := by
    rw [hpushed, List.length_map, List.map_eq_nil_iff, not_and_or, not_lt, not_not, or_comm]
  rw [arrayPush_array, Fits, hkeys, hbound]
  by_cases hstring : hasStringKey v.cast = true
  · exact Or.inr ⟨fun h => h.1 hstring, _, if_pos hstring⟩
  · rw [if_neg hstring]
    by_cases hfull : nextKey entries + v.cast.length > 2 ^ 63 ∧ v.cast ≠ []
    · exact Or.inr ⟨fun h => h.2 hfull, _, if_pos hfull⟩
    · rw [if_neg hfull]
      refine Or.inl ⟨⟨hstring, hfull⟩, _, rfl, ?_, ?_⟩
      · rw [List.map_append, hpushed]
        congr 1
        apply List.ext_getElem <;> simp
      · rw [hpushed]
        exact nextKey_append entries _

/-- Directories fit one after the other. -/
theorem fits_cons {entries entries' : List (Key × Value)} {v : Value} {directories : List Value}
    (h : Fits entries [v]) (hnext : nextKey entries' = nextKey entries + (pushed [v]).length) :
    Fits entries (v :: directories) ↔ Fits entries' directories := by
  have hpushed : pushed (v :: directories) = pushed [v] ++ pushed directories := by
    simp [pushed]
  rw [Fits, Fits, List.forall_mem_cons, hpushed, hnext, List.length_append, List.append_eq_nil_iff]
  have hkeys : IntegerKeys v := h.1 v List.mem_cons_self
  have hlength : pushed directories = [] ↔ (pushed directories).length = 0 :=
    List.length_eq_zero_iff.symm
  have hlength' : pushed [v] = [] ↔ (pushed [v]).length = 0 := List.length_eq_zero_iff.symm
  have hfits := h.2
  rw [hlength'] at hfits ⊢
  rw [hlength]
  push_cast
  constructor
  · rintro ⟨⟨-, hrest⟩, hbound⟩
    exact ⟨hrest, by omega⟩
  · rintro ⟨hrest, hbound⟩
    exact ⟨⟨hkeys, hrest⟩, by omega⟩

/-- The sections can be put together exactly if everything fits. -/
theorem pushDirectories_spec (entries : List (Key × Value)) (directories : List Value) :
    (Fits entries directories ∧ ∃ entries',
      pushDirectories (.array entries) directories = .ok (.array entries') ∧
      entries'.map Prod.snd = entries.map Prod.snd ++ pushed directories) ∨
    ¬ Fits entries directories ∧
      ∃ e, pushDirectories (.array entries) directories = .error e := by
  induction directories generalizing entries with
  | nil => exact Or.inl ⟨⟨by simp, Or.inl rfl⟩, entries, rfl, by simp [pushed]⟩
  | cons v directories ih =>
      have hpushed : pushed (v :: directories) = pushed [v] ++ pushed directories := by
        simp [pushed]
      rw [pushDirectories]
      rcases arrayPush_cases entries v with ⟨hfits, entries', hpush, hvalues, hnext⟩ |
        ⟨hno, e, hpush⟩
      · rw [hpush, fits_cons hfits hnext, hpushed, ← List.append_assoc, ← hvalues]
        exact ih entries'
      · refine Or.inr ⟨?_, e, by rw [hpush]; rfl⟩
        intro hfits
        refine hno ⟨fun w hw => hfits.1 w ?_, ?_⟩
        · rw [List.mem_singleton.mp hw]
          exact List.mem_cons_self
        · have hbound := hfits.2
          rw [hpushed, List.length_append, List.append_eq_nil_iff] at hbound
          push_cast at hbound
          rcases hbound with hnil | hbound
          · exact Or.inl hnil.1
          · exact Or.inr (by omega)

/-- A reordered value has its keys and its elements reordered. -/
theorem Reordered.cast {v v' : Value} (h : Reordered v v') :
    (v.cast.map Prod.fst).Perm (v'.cast.map Prod.fst) ∧
      (v.cast.map Prod.snd).Perm (v'.cast.map Prod.snd) := by
  rcases h with rfl | ⟨entries, entries', rfl, rfl, hkeys, hvalues⟩
  · exact ⟨List.Perm.refl _, List.Perm.refl _⟩
  · exact ⟨hkeys, hvalues⟩

/-- Reordered directories push the same values in another order. -/
theorem pushed_perm {directories directories' : List Value}
    (h : PermWith Reordered directories directories') :
    (pushed directories).Perm (pushed directories') :=
  h.flatMap fun _ _ hreordered => hreordered.cast.2

/-- Whether directories fit does not depend on their order. -/
theorem fits_congr {entries entries' : List (Key × Value)} {directories directories' : List Value}
    (hkeys : (entries.map Prod.fst).Perm (entries'.map Prod.fst))
    (h : PermWith Reordered directories directories') :
    Fits entries directories ↔ Fits entries' directories' := by
  have hlength := (pushed_perm h).length_eq
  have hnil : pushed directories = [] ↔ pushed directories' = [] := by
    rw [← List.length_eq_zero_iff, hlength, List.length_eq_zero_iff]
  have hinteger : (∀ v ∈ directories, IntegerKeys v) ↔ ∀ v ∈ directories', IntegerKeys v := by
    refine h.forall_iff ?_
    intro v v' hreordered
    have hmem : ∀ key, key ∈ v.cast.map Prod.fst ↔ key ∈ v'.cast.map Prod.fst :=
      fun key => hreordered.cast.1.mem_iff
    simp only [IntegerKeys, hmem]
  rw [Fits, Fits, nextKey_perm hkeys, hlength, hnil, hinteger]

/-- Sections in two orders come to the same paths, or to an error. -/
theorem pushDirectories_agree {paths paths' : Value} {directories directories' : List Value}
    (hpaths : Reordered paths paths') (h : PermWith Reordered directories directories') :
    Agree (fun v v' => v.elements.Perm v'.elements) (pushDirectories paths directories)
      (pushDirectories paths' directories') := by
  have harray : ∀ entries entries' : List (Key × Value),
      (entries.map Prod.fst).Perm (entries'.map Prod.fst) →
      (entries.map Prod.snd).Perm (entries'.map Prod.snd) →
      Agree (fun v v' => v.elements.Perm v'.elements) (pushDirectories (.array entries) directories)
        (pushDirectories (.array entries') directories') := by
    intro entries entries' hkeys hvalues
    have hfits := fits_congr hkeys h
    rcases pushDirectories_spec entries directories with ⟨hfirst, pushed, hpush, heq⟩ |
      ⟨hfirst, e, hpush⟩
    · rcases pushDirectories_spec entries' directories' with ⟨hsecond, pushed', hpush', heq'⟩ |
        ⟨hsecond, e, hpush'⟩
      · rw [hpush, hpush']
        refine .ok ?_
        change (pushed.map Prod.snd).Perm (pushed'.map Prod.snd)
        rw [heq, heq']
        exact hvalues.append (pushed_perm h)
      · exact absurd (hfits.mp hfirst) hsecond
    · rcases pushDirectories_spec entries' directories' with ⟨hsecond, pushed', hpush', heq'⟩ |
        ⟨hsecond, e', hpush'⟩
      · exact absurd (hfits.mpr hsecond) hfirst
      · rw [hpush, hpush']
        exact .error
  have hscalar : ∀ v : Value, (∀ entries, v ≠ .array entries) →
      Agree (fun v v' => v.elements.Perm v'.elements) (pushDirectories v directories)
        (pushDirectories v directories') := by
    intro v hv
    have hlength := h.length_eq
    -- Nothing can be pushed to it, and nothing may have to be.
    have herror : ∀ d rest, ∃ e, pushDirectories v (d :: rest) = .error e := by
      intro d rest
      cases v with
      | array entries => exact absurd rfl (hv entries)
      | null => exact ⟨_, rfl⟩
      | bool b => exact ⟨_, rfl⟩
      | int n => exact ⟨_, rfl⟩
      | float text truncated => exact ⟨_, rfl⟩
      | string s => exact ⟨_, rfl⟩
    cases directories with
    | nil =>
        rw [List.length_nil, eq_comm, List.length_eq_zero_iff] at hlength
        rw [hlength]
        exact .ok (List.Perm.refl _)
    | cons d rest =>
        cases directories' with
        | nil => cases hlength
        | cons d' rest' =>
            rcases herror d rest with ⟨e, he⟩
            rcases herror d' rest' with ⟨e', he'⟩
            rw [he, he']
            exact .error
  rcases hpaths with rfl | ⟨entries, entries', rfl, rfl, hkeys, hvalues⟩
  · cases paths with
    | array entries => exact harray entries entries (List.Perm.refl _) (List.Perm.refl _)
    | null => exact hscalar _ (by simp)
    | bool b => exact hscalar _ (by simp)
    | int n => exact hscalar _ (by simp)
    | float text truncated => exact hscalar _ (by simp)
    | string s => exact hscalar _ (by simp)
  · exact harray entries entries' hkeys hvalues

/-- Pushing goes on where it stopped. -/
theorem pushDirectories_append (paths : Value) (first second : List Value) :
    pushDirectories paths (first ++ second) =
      pushDirectories paths first >>= fun paths => pushDirectories paths second := by
  induction first generalizing paths with
  | nil => rfl
  | cons d first ih =>
      rw [List.cons_append, pushDirectories, pushDirectories]
      cases arrayPush paths d.cast with
      | error e => rfl
      | ok paths' => exact ih paths'

/-- The declared paths, as one push behind the class map. -/
theorem declaredPaths_eq (package : Package) :
    declaredPaths package = do
      let paths ← pushDirectories (sectionOf package.autoload "classmap")
        ((sectionOf package.autoload "psr-0").elements ++
          (sectionOf package.autoload "psr-4").elements)
      return paths.elements := by
  rw [pushDirectories_append, bind_assoc]
  rfl

/-- Two presentations of a package declare the same paths. -/
theorem declaredPaths_agree {package package' : Package} (h : SamePackage package package') :
    Agree List.Perm (declaredPaths package) (declaredPaths package') := by
  rw [declaredPaths_eq, declaredPaths_eq]
  have hboth := h.autoload.psr0.append h.autoload.psr4
  exact (pushDirectories_agree h.autoload.classmap hboth).bind fun _ _ hperm => .ok hperm

/-! ## The exclusions -/

/-- The exclusions, as one pass over their texts. -/
theorem exclusions_eq (package : Package) :
    exclusions package =
      (sectionOf package.autoload "exclude-from-classmap").asArray >>= fun patterns =>
        (patterns.map Prod.snd).mapM fun v =>
          v.asString.map fun pattern => exclusionPattern pattern package.base := by
  rw [exclusions]
  congr 1
  funext patterns
  rw [List.mapM_map]
  rfl

/-- A package with its sections reordered lists the same exclusions. -/
theorem exclusions_agree {package package' : Package} (h : SamePackage package package') :
    Agree List.Perm (exclusions package) (exclusions package') := by
  rw [exclusions_eq, exclusions_eq, h.base]
  have hexclusions := h.autoload.exclusions
  generalize sectionOf package.autoload "exclude-from-classmap" = v at hexclusions
  generalize sectionOf package'.autoload "exclude-from-classmap" = v' at hexclusions
  rcases hexclusions with rfl | ⟨entries, entries', rfl, rfl, -, hvalues⟩
  · exact Agree.refl List.Perm.refl _
  · exact Agree.mapM_perm hvalues

/-! ## The packages -/

/-- Two hosts that present one installation: they read directories, matches and
metadata in different orders. -/
structure SameInstallation (host host' : Host) (argument : Bytes) : Prop where
  tree : host.files.SameTree host'.files
  cwd : host.cwd = host'.cwd
  glob : ∀ p, (host.glob p).Perm (host'.glob p)
  composer : ∀ root, host.phpRealpath argument = .ok (some root) →
    Agree SameComposer (composerMetadata host root) (composerMetadata host' root)
  installed : ∀ root vendor, host.phpRealpath argument = .ok (some root) →
    vendorDirectory host root = .ok (some vendor) →
    Agree SameInstalled (host.readJson (text vendor ++ bytes "/composer/installed.json"))
      (host'.readJson (text vendor ++ bytes "/composer/installed.json"))

section Hosts

variable {host host' : Host} {root : Path} (htree : host.files.SameTree host'.files)
  (hcwd : host.cwd = host'.cwd)

include htree hcwd

/-- Both views resolve a path alike. -/
theorem realpath_eq (p : Bytes) : host.realpath p = host'.realpath p := by
  rw [View.realpath, View.realpath, hcwd, htree.realpath]

/-- PHP's {lit}`realpath` is the same on both views. -/
theorem phpRealpath_eq (p : Bytes) : host.phpRealpath p = host'.phpRealpath p := by
  rw [Host.phpRealpath, Host.phpRealpath, realpath_eq htree hcwd, hcwd]

/-- Both views have the same files. -/
theorem isFile_eq (p : Bytes) : host.isFile p = host'.isFile p := by
  rw [Host.isFile, Host.isFile, View.stat, View.stat, hcwd]
  rcases htree.stat_cases host'.cwd p with heq | ⟨readable, content, content', hfile, hfile'⟩
  · rw [heq]
  · rw [hfile, hfile']

/-- Both views have the same directories. -/
theorem isDir_eq (p : Bytes) : host.isDir p = host'.isDir p := by
  rw [Host.isDir, Host.isDir, View.stat, View.stat, hcwd]
  rcases htree.stat_cases host'.cwd p with heq | ⟨readable, content, content', hfile, hfile'⟩
  · rw [heq]
  · rw [hfile, hfile']

/-- An entry with its sections reordered gives the same package. -/
theorem installedPackage_agree {vendor : Path} {development : List Key} {entry entry' : Value}
    (h : SameEntry entry entry') :
    Agree (Option.Rel SamePackage) (installedPackage host vendor development entry)
      (installedPackage host' vendor development entry') := by
  rw [installedPackage, installedPackage, isPassedOver, isPassedOver, h.name, h.type,
    h.installPath]
  refine (Agree.refl (fun _ => rfl) _).bind ?_
  rintro passed _ rfl
  cases passed with
  | true => exact .ok .none
  | false =>
      refine (Agree.refl (fun _ => rfl) _).bind ?_
      rintro name _ rfl
      refine (Agree.refl (fun _ => rfl) _).bind ?_
      rintro installPath _ rfl
      rw [phpRealpath_eq htree hcwd]
      refine (Agree.refl (fun _ => rfl) _).bind ?_
      rintro base _ rfl
      cases base with
      | none => exact .ok .none
      | some base => exact .ok (.some ⟨rfl, h.autoload⟩)

/-- Both views have the same core packages. -/
theorem corePackages_eq : corePackages host root = corePackages host' root := by
  unfold corePackages
  congr 1
  funext core
  rw [isDir_eq htree hcwd]

end Hosts

/-- The installed packages, as one pass over the entries. -/
theorem installedPackages_eq (host : Host) (vendor : Path) (development : List Key)
    (entries : List Value) :
    installedPackages host vendor development entries =
      entries.mapM (installedPackage host vendor development) >>= fun found =>
        pure found.reduceOption := by
  induction entries with
  | nil => rfl
  | cons entry entries ih =>
      rw [installedPackages, ih, List.mapM_cons]
      cases installedPackage host vendor development entry with
      | error e => rfl
      | ok found =>
          cases entries.mapM (installedPackage host vendor development) with
          | error e => rfl
          | ok rest => cases found <;> rfl

/-- Both views install the same packages. -/
theorem vendorPackages_agree {host host' : Host} {argument : Bytes} {root : Path}
    (h : SameInstallation host host' argument)
    (hroot : host.phpRealpath argument = .ok (some root)) {vendor : Option Path}
    (hvendor : vendorDirectory host root = .ok vendor) :
    Agree (PermWith SamePackage) (vendorPackages host vendor) (vendorPackages host' vendor) := by
  rw [vendorPackages.eq_def, vendorPackages.eq_def]
  cases vendor with
  | none => exact .ok (.refl (fun _ => ⟨rfl, .refl _⟩) [])
  | some vendor =>
      dsimp only
      rw [isFile_eq h.tree h.cwd]
      split
      case isFalse => exact .ok (.refl (fun _ => ⟨rfl, .refl _⟩) [])
      case isTrue =>
        refine (h.installed root vendor hroot hvendor).bind ?_
        intro installed installed' hinstalled
        rw [hinstalled.development]
        refine (Agree.refl (fun _ => rfl) _).bind ?_
        rintro development _ rfl
        rw [installedPackages_eq, installedPackages_eq]
        refine (Agree.mapM hinstalled.packages fun entry entry' hentry =>
          installedPackage_agree h.tree h.cwd hentry).bind ?_
        exact fun _ _ hpackages => .ok hpackages.reduceOption

/-- Two presentations of an installation have the same packages. -/
theorem packages_agree {host host' : Host} {argument : Bytes} {root : Path}
    (h : SameInstallation host host' argument)
    (hroot : host.phpRealpath argument = .ok (some root)) :
    Agree (PermWith SamePackage) (packages host root) (packages host' root) := by
  have hcomposer := h.composer root hroot
  have hvendor : ∀ vendor, vendorDirectory host root = .ok vendor →
      Agree (PermWith SamePackage) (vendorPackages host vendor) (vendorPackages host' vendor) :=
    fun vendor => vendorPackages_agree h hroot
  unfold vendorDirectory at hvendor
  rw [packages, packages]
  change Agree _ (composerMetadata host root >>= _) (composerMetadata host' root >>= _)
  generalize composerMetadata host root = first at hcomposer hvendor ⊢
  generalize composerMetadata host' root = second at hcomposer ⊢
  cases hcomposer with
  | error => exact .error
  | @ok composer composer' hsame =>
      change Agree _ (Value.asString _ >>= _) (Value.asString _ >>= _)
      rw [← hsame.vendor]
      change ∀ vendor, (Value.asString _ >>= _) = _ → _ at hvendor
      generalize Value.asString _ = setting at hvendor ⊢
      cases setting with
      | error e => exact .error
      | ok setting =>
          change ∀ vendor, host.phpRealpath _ = _ → _ at hvendor
          change Agree _ (host.phpRealpath _ >>= _) (host'.phpRealpath _ >>= _)
          rw [← phpRealpath_eq h.tree h.cwd]
          generalize host.phpRealpath _ = vendor at hvendor ⊢
          cases vendor with
          | error e => exact .error
          | ok vendor =>
              refine (hvendor vendor rfl).bind ?_
              intro list list' hlist
              rw [corePackages_eq h.tree h.cwd]
              refine .ok (hlist.append (.cons ⟨rfl, hsame.autoload⟩ ?_))
              exact .refl (fun _ => ⟨rfl, .refl _⟩) _

end Preload

end Polychrome
