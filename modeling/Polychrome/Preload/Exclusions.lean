import Polychrome.Preload.Development

/-!
# Exclusions

Every package brings exclusions for its class map, and {lit}`discover` applies them to
the files that the paths of this package lead to.  A file that one package excludes
may still be reached through another one.

Main results:

- Theorem {lit}`not_excluded_by_own`: a package's own exclusions are honoured.
- Theorem {lit}`exclusions_honoured_iff`: when the exclusions of all packages are.
-/

namespace Polychrome

namespace Preload

open Posix Php Pcre

/-- The packages for production: those that declare paths, and those of Drupal that
are passed over. -/
def Production (host : Host) (root : Path) (package : Package) : Prop :=
  Declares host root package ∨
    ∃ vendor development entries entry base, Installed host root vendor development entries ∧
      entry ∈ entries ∧ ¬ IsDevelopment development entry ∧
      InstalledIn host vendor entry base ∧
      package =
        { base := text base, autoload := (entry.coalesce (bytes "autoload")).getD (.array []) }

/-- One of the package's exclusions matches the file. -/
def Excludes (package : Package) (file : Path) : Prop :=
  ∃ patterns, exclusions package = .ok patterns ∧
    ∃ pattern ∈ patterns, pregMatch pattern (text file) = true

/-- A package offers nothing that it excludes. -/
theorem not_excluded_by_own {host : Host} {root : Path} {package : Package} {file : Path}
    (h : Offers host root package file) : ¬ Excludes package file := by
  rintro ⟨patterns, hpatterns, pattern, hpattern, hmatch⟩
  rcases h with ⟨patterns', real, hpatterns', -, -, -, -, hnone⟩
  cases hpatterns.symm.trans hpatterns'
  rw [hnone pattern hpattern] at hmatch
  cases hmatch

/-- The exclusions of all packages are honoured exactly if no package offers a file,
not kept out by its name, that another package excludes. -/
theorem exclusions_honoured_iff (host : Host) (argument : Bytes) (found : Found)
    (h : discover host argument = .ok found) :
    ∃ root, host.phpRealpath argument = .ok (some root) ∧
      ((∀ file ∈ found.files, ∀ package, Production host root package →
          ¬ Excludes package file) ↔
        ∀ package package', Declares host root package → Production host root package' →
          package ≠ package' → ∀ file, Offers host root package file →
            isKeptOut root file = false → ¬ Excludes package' file) := by
  rcases mem_discover_iff h with ⟨root, -, hroot, -, -⟩
  refine ⟨root, hroot, ?_, ?_⟩
  · intro hhonoured package package' hpackage hpackage' _ file hoffers hfree
    have hreturned : file ∈ found.files :=
      (mem_found_iff h hroot).mpr ⟨⟨package, hpackage, hoffers⟩, hfree⟩
    exact hhonoured file hreturned package' hpackage'
  · intro hcondition file hfile package' hpackage'
    rcases (mem_found_iff h hroot).mp hfile with ⟨⟨package, hpackage, hoffers⟩, hfree⟩
    by_cases hsame : package = package'
    · rw [← hsame]
      exact not_excluded_by_own hoffers
    · exact hcondition package package' hpackage hpackage' hsame file hoffers hfree

/-- Metadata that excludes a directory of Drupal. -/
def excludingMetadata : Bytes :=
  bytes "\x7b\"autoload\":\x7b\"exclude-from-classmap\":[\"core/lib/Old/\"]\x7d\x7d"

/-- A Drupal installation whose metadata excludes a directory of the core. -/
def excludingHost : Host where
  files :=
    { nodes :=
        [([named "app"], .directory true),
          ([named "app", named "composer.json"], .regular true excludingMetadata),
          ([named "app", named "core"], .directory true),
          ([named "app", named "core", named "lib"], .directory true),
          ([named "app", named "core", named "lib", named "Old"], .directory true),
          ([named "app", named "core", named "lib", named "Old", named "A.php"], .regular true [])]
      distinct := by decide
      rooted := by decide
      closed := by decide }
  cwd := []
  there := rfl
  glob p := if p = bytes "/app/core/lib/." then [p] else []
  jsonDecode json :=
    if json = excludingMetadata then
      some (.array
        [(.string (bytes "autoload"), .array
          [(.string (bytes "exclude-from-classmap"), .array
            [(.int 0, .string (bytes "core/lib/Old/"))])])])
    else none

/-- {lit}`A.php` in the directory that is excluded. -/
def excludedFile : Path :=
  [named "app", named "core", named "lib", named "Old", named "A.php"]

/-- A file that one package excludes is returned through another. -/
theorem discover_excludingHost :
    discover excludingHost (bytes "/app") = .ok { files := [excludedFile], skipped := 0 } := by
  decide +kernel

/-- The package of the application excludes the file. -/
theorem excludes_excludedFile :
    ∃ package, Production excludingHost [named "app"] package ∧
      package.base = text [named "app"] ∧ Excludes package excludedFile := by
  refine ⟨_, Or.inl (.own rfl), rfl, [exclusionPattern (bytes "core/lib/Old/") (bytes "/app")], rfl,
    _, List.mem_cons_self, ?_⟩
  decide +kernel

/-- The application excludes the file, and the core directory leads to it. -/
theorem excluded_file_returned :
    ∃ found root package, discover excludingHost (bytes "/app") = .ok found ∧
      excludingHost.phpRealpath (bytes "/app") = .ok (some root) ∧ excludedFile ∈ found.files ∧
      Production excludingHost root package ∧ package.base = text root ∧
      Excludes package excludedFile := by
  rcases excludes_excludedFile with ⟨package, hproduction, hbase, hexcludes⟩
  exact ⟨_, _, package, discover_excludingHost, rfl, List.mem_cons_self, hproduction, hbase,
    hexcludes⟩

/-- One package must offer what another one excludes. -/
theorem exclusions_honoured_sample :
    ∃ package package' file, Declares excludingHost [named "app"] package ∧
      Production excludingHost [named "app"] package' ∧ package ≠ package' ∧
      Offers excludingHost [named "app"] package file ∧ isKeptOut [named "app"] file = false ∧
      Excludes package' file := by
  rcases exclusions_honoured_iff excludingHost (bytes "/app") _ discover_excludingHost with
    ⟨root, hroot, hiff⟩
  have happ : root = [named "app"] := by
    cases hroot
    rfl
  subst happ
  rcases excludes_excludedFile with ⟨excluding, hproduction, -, hexcludes⟩
  by_contra hnone
  refine hiff.mpr ?_ excludedFile List.mem_cons_self excluding hproduction hexcludes
  intro package package' hpackage hpackage' hne file hoffers hfree hexcludes'
  exact hnone ⟨package, package', file, hpackage, hpackage', hne, hoffers, hfree, hexcludes'⟩

end Preload

end Polychrome
