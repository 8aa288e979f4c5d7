import Polychrome.Preload.Recursion

/-!
# The packages and what they offer

The packages of a discovery are the application itself, what Composer has installed
for production and the core directories of Drupal.  In a discovery that succeeds
nothing is left out because of an error.

Main results:

- Theorem {lit}`mem_packages_iff`: which packages a discovery goes through.
- Theorem {lit}`mem_found_iff`: the files that are returned, from the places where
  the declared paths resolve to.
-/

namespace Polychrome

namespace Preload

open Posix Php Pcre

section Metadata

variable (host : Host) (root : Path)

/-- The metadata of the application. -/
def composerMetadata : Except Thrown Value :=
  readIfThere host (text root ++ bytes "/composer.json")

/-- The directory that Composer installs into. -/
def vendorDirectory : Except Thrown (Option Path) := do
  let composer ← composerMetadata host root
  let vendorSetting ←
    (((composer.coalesce (bytes "config")).bind (·.coalesce (bytes "vendor-dir"))).getD
      (.string (bytes "vendor"))).asString
  host.phpRealpath (anchored (text root) vendorSetting)

/-- What {lit}`installed.json` says: the entries, and the keys of the development
packages. -/
def Installed (vendor : Path) (development : List Key) (entries : List Value) : Prop :=
  ∃ installed, vendorDirectory host root = .ok (some vendor) ∧
    host.isFile (text vendor ++ bytes "/composer/installed.json") = true ∧
    host.readJson (text vendor ++ bytes "/composer/installed.json") = .ok installed ∧
    arrayFillKeys ((installed.coalesce (bytes "dev-package-names")).getD (.array [])) =
      .ok development ∧
    entries = ((installed.coalesce (bytes "packages")).getD installed).elements

/-- The packages whose declarations count. -/
inductive Declares : Package → Prop
  | installed {vendor : Path} {development : List Key} {entries : List Value} {entry : Value}
      {package : Package} (hinstalled : Installed host root vendor development entries)
      (hentry : entry ∈ entries)
      (hpackage : installedPackage host vendor development entry = .ok (some package)) :
      Declares package
  | own {composer : Value} (hcomposer : composerMetadata host root = .ok composer) :
      Declares
        { base := text root, autoload := (composer.coalesce (bytes "autoload")).getD (.array []) }
  | core {package : Package} (hcore : package ∈ corePackages host root) : Declares package

end Metadata

section Packages

variable {host : Host} {root : Path}

/-- The packages of an installation are those of its entries. -/
theorem mem_installedPackages {vendor : Path} {development : List Key} {entries : List Value}
    {list : List Package} (h : installedPackages host vendor development entries = .ok list)
    {package : Package} :
    package ∈ list ↔
      ∃ entry ∈ entries, installedPackage host vendor development entry = .ok (some package) := by
  induction entries generalizing list with
  | nil =>
      cases h
      simp
  | cons entry entries ih =>
      rw [installedPackages, Except.bind_eq_ok] at h
      rcases h with ⟨found, hfound, h⟩
      rw [Except.bind_eq_ok] at h
      rcases h with ⟨rest, hrest, h⟩
      rw [Except.pure_eq_ok] at h
      rw [← h, List.mem_append, ih hrest, Option.mem_toList]
      simp [hfound]

/-- The packages of the vendor directory are those its installation lists. -/
theorem mem_vendorPackages {vendor : Option Path} {list : List Package}
    (hvendor : vendorDirectory host root = .ok vendor)
    (h : vendorPackages host vendor = .ok list) {package : Package} :
    package ∈ list ↔ ∃ vendor development entries entry,
      Installed host root vendor development entries ∧ entry ∈ entries ∧
        installedPackage host vendor development entry = .ok (some package) := by
  rw [vendorPackages.eq_def] at h
  split at h
  case h_1 =>
    cases h
    simp only [List.not_mem_nil, false_iff]
    rintro ⟨vendor, -, -, -, ⟨-, hsome, -⟩, -⟩
    cases hvendor.symm.trans hsome
  case h_2 vendor =>
    dsimp only at h
    split at h
    case isFalse hmissing =>
      cases h
      simp only [List.not_mem_nil, false_iff]
      rintro ⟨vendor', -, -, -, ⟨-, hsome, hthere, -⟩, -⟩
      cases hvendor.symm.trans hsome
      exact hmissing hthere
    case isTrue hthere =>
      rw [Except.bind_eq_ok] at h
      rcases h with ⟨installed, hread, h⟩
      rw [Except.bind_eq_ok] at h
      rcases h with ⟨development, hkeys, h⟩
      rw [mem_installedPackages h]
      constructor
      · rintro ⟨entry, hentry, hpackage⟩
        exact ⟨vendor, development, _, entry, ⟨installed, hvendor, hthere, hread, hkeys, rfl⟩,
          hentry, hpackage⟩
      · rintro ⟨vendor', development', entries, entry, ⟨installed', hvendor', -, hread', hkeys',
          rfl⟩, hentry, hpackage⟩
        cases hvendor.symm.trans hvendor'
        cases hread.symm.trans hread'
        cases hkeys.symm.trans hkeys'
        exact ⟨entry, hentry, hpackage⟩

/-- The packages of a discovery. -/
theorem mem_packages_iff {list : List Package} (h : packages host root = .ok list)
    {package : Package} : package ∈ list ↔ Declares host root package := by
  rw [packages, Except.bind_eq_ok] at h
  rcases h with ⟨composer, hcomposer, h⟩
  rw [Except.bind_eq_ok] at h
  rcases h with ⟨setting, hsetting, h⟩
  rw [Except.bind_eq_ok] at h
  rcases h with ⟨vendor, hvendor, h⟩
  rw [Except.bind_eq_ok] at h
  rcases h with ⟨installed, hinstalled, h⟩
  rw [Except.pure_eq_ok] at h
  have hdirectory : vendorDirectory host root = .ok vendor :=
    Except.bind_eq_ok.mpr ⟨composer, hcomposer, Except.bind_eq_ok.mpr ⟨setting, hsetting, hvendor⟩⟩
  rw [← h, List.mem_append, List.mem_cons, mem_vendorPackages hdirectory hinstalled]
  constructor
  · rintro (⟨vendor, development, entries, entry, hmeta, hentry, hpackage⟩ | rfl | hcore)
    · exact .installed hmeta hentry hpackage
    · exact .own hcomposer
    · exact .core hcore
  · intro hdeclares
    cases hdeclares with
    | installed hmeta hentry hpackage => exact Or.inl ⟨_, _, _, _, hmeta, hentry, hpackage⟩
    | own hcomposer' =>
        cases hcomposer.symm.trans hcomposer'
        exact Or.inr (Or.inl rfl)
    | core hcore => exact Or.inr (Or.inr hcore)

end Packages

/-! ## What a package offers -/

/-- A declared path of the package resolves to a place that yields the file. -/
def Offers (host : Host) (root : Path) (package : Package) (file : Path) : Prop :=
  ∃ patterns real, exclusions package = .ok patterns ∧ Starts host root package real ∧
    Yields host.files real file ∧ Admissible host.files patterns file

section Turns

variable {host : Host} {root : Path}

/-- A package whose turn has succeeded had no error at any of its places. -/
theorem entries_of_takePackage {package : Package} {found found' : Found}
    (h : takePackage host root found package = .ok found') :
    (∃ patterns, exclusions package = .ok patterns) ∧
      ∀ real, Starts host root package real →
        ∃ entries, candidateEntries host real = .ok entries := by
  rw [takePackage, Except.bind_eq_ok] at h
  rcases h with ⟨paths, hpaths, h⟩
  rw [Except.bind_eq_ok] at h
  rcases h with ⟨patterns, hpatterns, h⟩
  refine ⟨⟨patterns, hpatterns⟩, ?_⟩
  rintro real ⟨paths', relative, path, candidate, hpaths', hrelative, hpath, hcandidate, hreal,
    hinside⟩
  cases hpaths.symm.trans hpaths'
  rcases Collecting.foldlM_turns h hrelative with ⟨before, after, hturn⟩
  rw [takePath, Except.bind_eq_ok] at hturn
  rcases hturn with ⟨path', hpath', hturn⟩
  cases hpath.symm.trans hpath'
  dsimp only at hturn
  split at hturn
  case isTrue => cases hturn
  case isFalse =>
    rcases Collecting.foldlM_turns hturn hcandidate with ⟨before, after, hturn⟩
    rw [takeCandidate, Except.bind_eq_ok] at hturn
    rcases hturn with ⟨real?, hreal', hturn⟩
    cases hreal.symm.trans hreal'
    dsimp only at hturn
    rw [if_neg (by simp [within_iff.mpr hinside]), Except.bind_eq_ok] at hturn
    rcases hturn with ⟨entries, hentries, -⟩
    exact ⟨entries, hentries⟩

/-- In a discovery that succeeds, no package has an error. -/
theorem entries_of_discover {argument : Bytes} {found : Found}
    (h : discover host argument = .ok found) (hroot : host.phpRealpath argument = .ok (some root))
    {package : Package} (hpackage : Declares host root package) :
    (∃ patterns, exclusions package = .ok patterns) ∧
      ∀ real, Starts host root package real →
        ∃ entries, candidateEntries host real = .ok entries := by
  rw [discover, Except.bind_eq_ok] at h
  rcases h with ⟨root?, hroot', h⟩
  cases hroot.symm.trans hroot'
  dsimp only at h
  rw [Except.bind_eq_ok] at h
  rcases h with ⟨list, hlist, h⟩
  rw [Except.bind_eq_ok] at h
  rcases h with ⟨collected, hcollected, -⟩
  rcases Collecting.foldlM_turns hcollected ((mem_packages_iff hlist).mpr hpackage) with
    ⟨before, after, hturn⟩
  exact entries_of_takePackage hturn

/-- The files that are returned. -/
theorem mem_found_iff {argument : Bytes} {found : Found}
    (h : discover host argument = .ok found)
    (hroot : host.phpRealpath argument = .ok (some root)) {file : Path} :
    file ∈ found.files ↔
      (∃ package, Declares host root package ∧ Offers host root package file) ∧
        isKeptOut root file = false := by
  rcases mem_discover_iff h with ⟨root', list, hroot', hlist, hfiles⟩
  cases hroot.symm.trans hroot'
  rw [hfiles]
  apply and_congr_left'
  constructor
  · rintro ⟨package, hpackage, hleads⟩
    rcases leads_iff.mp hleads with ⟨patterns, real, -, hpatterns, hstarts, -, hyields, hadmissible⟩
    exact ⟨package, (mem_packages_iff hlist).mp hpackage, patterns, real, hpatterns, hstarts,
      hyields, hadmissible⟩
  · rintro ⟨package, hpackage, patterns, real, hpatterns, hstarts, hyields, hadmissible⟩
    rcases (entries_of_discover h hroot hpackage).2 real hstarts with ⟨entries, hentries⟩
    exact ⟨package, (mem_packages_iff hlist).mpr hpackage, leads_iff.mpr
      ⟨patterns, real, entries, hpatterns, hstarts, hentries, hyields, hadmissible⟩⟩

end Turns

end Preload

end Polychrome
