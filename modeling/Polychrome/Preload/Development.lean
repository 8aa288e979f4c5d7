import Polychrome.Preload.Declarations

/-!
# Development packages

The packages that {lit}`installed.json` lists for development declare nothing.  Their
directories are not told apart from others, though: a declared path of another
package may lead into one, or to a directory above one.

Main results:

- Theorem {lit}`leadsInto_iff`: how a place yields a file below a directory.
- Theorem {lit}`development_omitted_iff`: when no file of a development package is
  returned.
-/

namespace Polychrome

namespace Preload

open Posix Php Pcre

/-! ## Where development packages are installed -/

/-- The entry is listed in {lit}`dev-package-names`. -/
def IsDevelopment (development : List Key) (entry : Value) : Prop :=
  ∃ name key, entry.index (bytes "name") = .ok name ∧ name.offset = .ok key ∧ key ∈ development

/-- The entry is installed in the directory. -/
def InstalledIn (host : Host) (vendor : Path) (entry : Value) (directory : Path) : Prop :=
  ∃ name path, entry.index (bytes "name") = .ok name ∧
    ((entry.coalesce (bytes "install-path")).getD (.string (bytes "../" ++ name.text))).asString =
      .ok path ∧
    host.phpRealpath (anchored (text vendor ++ bytes "/composer") path) = .ok (some directory)

/-- A package for development is installed in the directory. -/
def DevelopmentIn (host : Host) (root directory : Path) : Prop :=
  ∃ vendor development entries entry, Installed host root vendor development entries ∧
    entry ∈ entries ∧ IsDevelopment development entry ∧ InstalledIn host vendor entry directory

/-- Below the directory. -/
def Under (directory file : Path) : Prop := directory <+: file ∧ directory ≠ file

/-! ## How a place leads into a directory -/

/-- From the place the recursion comes to the file below the directory: the place is
inside the directory, or the recursion goes down to it. -/
def LeadsInto (files : FileSystem) (real directory file : Path) : Prop :=
  directory <+: real ∧ Yields files real file ∨
    ∃ q, directory = real ++ q ∧ files.isDirectory real = true ∧ Passes files real q ∧
      Yields files directory file

/-- Which files below a directory a place yields depends on the way to the directory. -/
theorem leadsInto_iff {files : FileSystem} {real directory file : Path} (h : Under directory file) :
    Yields files real file ↔ LeadsInto files real directory file := by
  constructor
  · intro hyields
    rcases h with ⟨hbelow, hne⟩
    have hreal : real <+: file := by
      rcases hyields with ⟨-, rfl⟩ | ⟨-, q, c, rfl, -⟩
      · exact List.prefix_refl _
      · rw [List.append_assoc]
        exact List.prefix_append _ _
    rcases List.prefix_or_prefix_of_prefix hbelow hreal with hinside | ⟨q, rfl⟩
    · exact Or.inl ⟨hinside, hyields⟩
    · right
      rcases hyields with ⟨-, rfl⟩ | ⟨hdir, r, c, rfl, hpasses⟩
      · -- The place is the file, so the directory above the file is not below it.
        have hlength := hbelow.length_le
        rw [List.length_append] at hlength
        have hq : q = [] := List.eq_nil_of_length_eq_zero (by omega)
        exact absurd (by rw [hq, List.append_nil]) hne
      · rw [List.append_assoc, List.prefix_append_right_inj] at hbelow
        have hshort : q <+: r := by
          rcases List.prefix_concat_iff.mp hbelow with heq | hshort
          · exact absurd (by rw [heq, List.append_assoc]) hne
          · exact hshort
        rcases hshort with ⟨s, rfl⟩
        rw [passes_append] at hpasses
        refine ⟨q, rfl, hdir, hpasses.1, Or.inr ⟨isDirectory_of_passes hpasses.1 hdir, s, c, ?_,
          hpasses.2⟩⟩
        simp
  · rintro (⟨-, hyields⟩ | ⟨q, rfl, hdir, hpasses, hyields⟩)
    · exact hyields
    · rcases hyields with ⟨hno, -⟩ | ⟨-, s, c, rfl, hrest⟩
      · rw [isDirectory_of_passes hpasses hdir] at hno
        cases hno
      · refine Or.inr ⟨hdir, q ++ s, c, ?_, passes_append.mpr ⟨hpasses, hrest⟩⟩
        simp

/-- A declared path of the package resolves to a place inside the directory, or to one
above from where the recursion goes down to it, and a PHP file is there that
neither its name nor an exclusion of that package keeps out. -/
def Exposes (host : Host) (root : Path) (package : Package) (directory : Path) : Prop :=
  ∃ patterns real file, exclusions package = .ok patterns ∧ Starts host root package real ∧
    LeadsInto host.files real directory file ∧ Under directory file ∧
    Admissible host.files patterns file ∧ isKeptOut root file = false

/-- No file of a development package is returned exactly if no path that is declared
for production leads into the directory of one. -/
theorem development_omitted_iff (host : Host) (argument : Bytes) (found : Found)
    (h : discover host argument = .ok found) :
    ∃ root, host.phpRealpath argument = .ok (some root) ∧
      ((∀ file ∈ found.files, ∀ directory, DevelopmentIn host root directory →
          ¬ Under directory file) ↔
        ∀ directory, DevelopmentIn host root directory → ∀ package, Declares host root package →
          ¬ Exposes host root package directory) := by
  rcases mem_discover_iff h with ⟨root, -, hroot, -, -⟩
  refine ⟨root, hroot, ?_, ?_⟩
  · rintro homitted directory hdevelopment package hpackage ⟨patterns, real, file, hpatterns,
      hstarts, hinto, hunder, hadmissible, hfree⟩
    have hreturned : file ∈ found.files :=
      (mem_found_iff h hroot).mpr ⟨⟨package, hpackage, patterns, real, hpatterns, hstarts,
        (leadsInto_iff hunder).mpr hinto, hadmissible⟩, hfree⟩
    exact homitted file hreturned directory hdevelopment hunder
  · intro hcondition file hfile directory hdevelopment hunder
    rcases (mem_found_iff h hroot).mp hfile with ⟨⟨package, hpackage, patterns, real, hpatterns,
      hstarts, hyields, hadmissible⟩, hfree⟩
    exact hcondition directory hdevelopment package hpackage ⟨patterns, real, file, hpatterns,
      hstarts, (leadsInto_iff hunder).mp hyields, hunder, hadmissible, hfree⟩

/-- Metadata with another name for the vendor directory. -/
def vendorMetadata : Bytes :=
  bytes ("\x7b\"config\":\x7b\"vendor-dir\":\"lib\"\x7d," ++
    "\"autoload\":\x7b\"classmap\":[\"lib/\"]\x7d\x7d")

/-- One package, installed for development. -/
def installedMetadata : Bytes :=
  bytes ("\x7b\"packages\":[\x7b\"name\":\"demo/dev\",\"install-path\":\"../demo/dev\"\x7d]," ++
    "\"dev-package-names\":[\"demo/dev\"]\x7d")

/-- An application that installs its packages into {lit}`lib`. -/
def vendorHost : Host where
  files :=
    { nodes :=
        [([named "app"], .directory true),
          ([named "app", named "composer.json"], .regular true vendorMetadata),
          ([named "app", named "lib"], .directory true),
          ([named "app", named "lib", named "composer"], .directory true),
          ([named "app", named "lib", named "composer",
            named "installed.json"], .regular true installedMetadata),
          ([named "app", named "lib", named "demo"], .directory true),
          ([named "app", named "lib", named "demo", named "dev"], .directory true),
          ([named "app", named "lib", named "demo",
            named "dev", named "Dev.php"], .regular true [])]
      distinct := by decide
      rooted := by decide
      closed := by decide }
  cwd := []
  there := rfl
  glob p := if p = bytes "/app/lib/" then [p] else []
  jsonDecode json :=
    if json = vendorMetadata then
      some (.array
        [(.string (bytes "config"), .array [(.string (bytes "vendor-dir"), .string (bytes "lib"))]),
          (.string (bytes "autoload"), .array
            [(.string (bytes "classmap"), .array [(.int 0, .string (bytes "lib/"))])])])
    else if json = installedMetadata then
      some (.array
        [(.string (bytes "packages"), .array [(.int 0, .array
            [(.string (bytes "name"), .string (bytes "demo/dev")),
              (.string (bytes "install-path"), .string (bytes "../demo/dev"))])]),
          (.string (bytes "dev-package-names"), .array [(.int 0, .string (bytes "demo/dev"))])])
    else none

/-- {lit}`Dev.php` in the development package. -/
def developmentFile : Path :=
  [named "app", named "lib", named "demo", named "dev", named "Dev.php"]

/-- A file of a development package is returned through the project's own declaration. -/
theorem discover_vendorHost :
    discover vendorHost (bytes "/app") = .ok { files := [developmentFile], skipped := 0 } := by
  decide +kernel

/-- The package that the file belongs to is installed for development. -/
theorem developmentIn_vendorHost :
    DevelopmentIn vendorHost [named "app"] developmentFile.dropLast := by
  refine ⟨[named "app", named "lib"], _, _, _, ⟨_, rfl, rfl, rfl, rfl, rfl⟩, List.mem_cons_self,
    ?_, ?_⟩
  · exact ⟨_, _, rfl, rfl, List.mem_cons_self⟩
  · exact ⟨_, _, rfl, rfl, rfl⟩

/-- The file lies in the directory of its package. -/
theorem under_developmentFile : Under developmentFile.dropLast developmentFile :=
  ⟨⟨[named "Dev.php"], rfl⟩, by decide⟩

/-- The class map of the application covers the directory that packages are installed
into, and nothing keeps the development package out. -/
theorem development_file_returned :
    ∃ found root directory, discover vendorHost (bytes "/app") = .ok found ∧
      vendorHost.phpRealpath (bytes "/app") = .ok (some root) ∧ developmentFile ∈ found.files ∧
      DevelopmentIn vendorHost root directory ∧ Under directory developmentFile :=
  ⟨_, _, _, discover_vendorHost, rfl, List.mem_cons_self, developmentIn_vendorHost,
    under_developmentFile⟩

/-- A path that is declared for production must lead into the package. -/
theorem development_omitted_sample :
    ∃ directory package, DevelopmentIn vendorHost [named "app"] directory ∧
      Declares vendorHost [named "app"] package ∧
      Exposes vendorHost [named "app"] package directory := by
  rcases development_omitted_iff vendorHost (bytes "/app") _ discover_vendorHost with
    ⟨root, hroot, hiff⟩
  have happ : root = [named "app"] := by
    cases hroot
    rfl
  subst happ
  by_contra hnone
  refine hiff.mpr ?_ developmentFile List.mem_cons_self _ developmentIn_vendorHost
    under_developmentFile
  intro directory hdirectory package hpackage hexposes
  exact hnone ⟨directory, package, hdirectory, hpackage, hexposes⟩

end Preload

end Polychrome
