import Mathlib.Data.List.Sort
import Polychrome.Library.FileSystem
import Polychrome.Library.Pcre
import Polychrome.Library.PhpValue

/-!
# Preload discovery

This module embeds {lit}`discovery.php`: which packages are read from Composer's
metadata, which paths they declare and which files below these paths are handed
to the preloader.  {lit}`glob` and {lit}`json_decode` are parameters; nothing is
assumed of them.

Main results:

- Definition {lit}`within` and definition {lit}`exclusionPattern`.
- Definition {lit}`discover`: the files to preload, and how many were skipped.

Current gaps:

- Warnings are left out; what is thrown ends the discovery.
-/

namespace Polychrome

namespace Preload

open Posix Php Pcre

/-- What the discovery sees: a view of the files and the two functions it gets
from PHP. -/
structure Host extends View where
  /-- {lit}`glob($path, GLOB_NOSORT | GLOB_BRACE) ?: []` -/
  glob : Bytes → List Bytes
  /-- {lit}`json_decode($json, true, 512)` -/
  jsonDecode : Bytes → Option Value

/-! ## Files as PHP sees them -/

namespace Host

variable (host : Host)

/-- PHP's {lit}`realpath`. -/
def phpRealpath (p : Bytes) : Except Thrown (Option Path) :=
  if 0 ∈ p then .error .valueError
  else if p = [] then .ok (some host.cwd)
  else .ok (host.realpath p)

/-- {lit}`is_file` -/
def isFile (p : Bytes) : Bool :=
  match host.stat p with
  | some (.regular _ _) => !p.contains 0
  | _ => false

/-- {lit}`is_dir` -/
def isDir (p : Bytes) : Bool :=
  match host.stat p with
  | some (.directory _) => !p.contains 0
  | _ => false

/-- {lit}`readJson($path)` for a file that is there. -/
def readJson (p : Bytes) : Except Thrown Value :=
  match host.stat p with
  | some (.regular true content) =>
      match host.jsonDecode content with
      | none => .error .jsonException
      | some (.array entries) => .ok (.array entries)
      | some _ => .error (.runtimeException (bytes "Expected a JSON object in " ++ p))
  | _ => .error .typeError

end Host

/-- {lit}`within($path, $directory)` -/
def within (path directory : Bytes) : Bool :=
  path == directory || strStartsWith path (rtrim directory slash ++ bytes "/")

/-- The delimiter of all patterns. -/
def tilde : UInt8 := 126

/-- {lit}`exclusionPattern($pattern, $base)` -/
def exclusionPattern (pattern base : Bytes) : Bytes :=
  let pattern := ltrim (strReplace (bytes "\\") (bytes "/") pattern) slash
  let quoted := pregQuote pattern tilde
  let quoted := strReplace (bytes "\\*") (bytes "[^/]*") (strReplace (bytes "\\*\\*") [1] quoted)
  let quoted := strReplace [1] (bytes ".*") quoted
  bytes "~^" ++ pregQuote (rtrim base slash ++ bytes "/") tilde ++ quoted ++ bytes ".*$~"

/-! ## Packages -/

/-- One package: its base directory and its section {lit}`autoload`. -/
structure Package where
  base : Bytes
  autoload : Value

/-- A path of the metadata, relative to a directory unless it is absolute. -/
def anchored (directory path : Bytes) : Bytes :=
  if strStartsWith path (bytes "/") then path else directory ++ bytes "/" ++ path

section Packages

variable (host : Host)

/-- Whether {lit}`installed.json` lists the package for development, or it is part of
Drupal. -/
def isPassedOver (development : List Key) (package : Value) : Except Thrown Bool := do
  let key ← (← package.index (bytes "name")).offset
  if key ∈ development then return true
  let type ← ((package.coalesce (bytes "type")).getD (.string [])).asString
  return strStartsWith type (bytes "drupal-")

/-- The package of one entry of {lit}`installed.json`, if it is in place. -/
def installedPackage (vendor : Path) (development : List Key) (package : Value) :
    Except Thrown (Option Package) := do
  if ← isPassedOver development package then return none
  let name ← package.index (bytes "name")
  let installPath ←
    ((package.coalesce (bytes "install-path")).getD (.string (bytes "../" ++ name.text))).asString
  let base ← host.phpRealpath (anchored (text vendor ++ bytes "/composer") installPath)
  return base.map fun base =>
    { base := text base
      autoload := (package.coalesce (bytes "autoload")).getD (.array []) }

/-- The packages of the entries of {lit}`installed.json`. -/
def installedPackages (vendor : Path) (development : List Key) :
    List Value → Except Thrown (List Package)
  | [] => .ok []
  | package :: packages => do
      let found ← installedPackage host vendor development package
      return found.toList ++ (← installedPackages vendor development packages)

/-- The packages that Composer has installed. -/
def vendorPackages (vendor : Option Path) : Except Thrown (List Package) :=
  match vendor with
  | none => .ok []
  | some vendor =>
      let path := text vendor ++ bytes "/composer/installed.json"
      if host.isFile path then do
        let installed ← host.readJson path
        let development ←
          arrayFillKeys ((installed.coalesce (bytes "dev-package-names")).getD (.array []))
        installedPackages host vendor development
          ((installed.coalesce (bytes "packages")).getD installed).elements
      else .ok []

/-- The core directories of Drupal that are there. -/
def corePackages (root : Path) : List Package :=
  ([bytes "/web/core/lib", bytes "/docroot/core/lib", bytes "/core/lib"].map fun core =>
      text root ++ core).filterMap fun core =>
    if host.isDir core then
      some
        { base := core
          autoload := .array
            [(.string (bytes "classmap"), .array [(.int 0, .string (bytes "."))])] }
    else none

/-- The metadata in a file, if it is there. -/
def readIfThere (path : Bytes) : Except Thrown Value :=
  if host.isFile path then host.readJson path else .ok (.array [])

/-- All packages, those of Composer first. -/
def packages (root : Path) : Except Thrown (List Package) := do
  let path := text root ++ bytes "/composer.json"
  let composer ← readIfThere host path
  let vendorSetting ←
    (((composer.coalesce (bytes "config")).bind (·.coalesce (bytes "vendor-dir"))).getD
      (.string (bytes "vendor"))).asString
  let vendor ← host.phpRealpath (anchored (text root) vendorSetting)
  let installed ← vendorPackages host vendor
  let own : Package :=
    { base := text root
      autoload := (composer.coalesce (bytes "autoload")).getD (.array []) }
  return installed ++ own :: corePackages host root

end Packages

/-- Add what a PSR section maps its namespaces to. -/
def pushDirectories (paths : Value) : List Value → Except Thrown Value
  | [] => .ok paths
  | directories :: rest => do pushDirectories (← arrayPush paths directories.cast) rest

/-- {lit}`$autoload[$standard] ?? []` -/
def sectionOf (autoload : Value) (standard : String) : Value :=
  (autoload.coalesce (bytes standard)).getD (.array [])

/-- The paths that a package declares: its class map and its two PSR sections. -/
def declaredPaths (package : Package) : Except Thrown (List Value) := do
  let paths ← pushDirectories (sectionOf package.autoload "classmap")
    (sectionOf package.autoload "psr-0").elements
  let paths ← pushDirectories paths (sectionOf package.autoload "psr-4").elements
  return paths.elements

/-- The patterns of a package, one for each exclusion of its class map. -/
def exclusions (package : Package) : Except Thrown (List Bytes) := do
  let patterns ←
    ((package.autoload.coalesce (bytes "exclude-from-classmap")).getD (.array [])).asArray
  patterns.mapM fun x => x.2.asString.map fun pattern => exclusionPattern pattern package.base

/-! ## Directories -/

/-- The names that a directory is not entered for, and no file is taken for. -/
def entryFilter : Bytes :=
  bytes "~^(?:tests?|fixtures?|modules|themes|node_modules|vendor|\\.git)$~i"

/-- What the iteration comes to. -/
inductive Visit
  | opened (directory : Path)
  | leaf (file : Path)
deriving DecidableEq, Repr

/-- The iteration over a directory, down to a depth.  A link is left out, and so is
an entry with a name of {lit}`entryFilter`. -/
def iterate (files : FileSystem) : Nat → Path → List Visit
  | 0, _ => []
  | depth + 1, directory =>
      .opened directory :: (files.entries directory).flatMap fun entry =>
        match entry.2 with
        | .link _ => []
        | .directory _ =>
            if pregMatch entryFilter entry.1.val then []
            else iterate files depth (directory ++ [entry.1])
        | _ =>
            if pregMatch entryFilter entry.1.val then [] else [.leaf (directory ++ [entry.1])]

/-- A depth that no directory of the table reaches. -/
def depth (files : FileSystem) : Nat := (files.nodes.map fun x => x.1.length).foldr max 0 + 1

/-- The files below a directory, if all directories on the way can be opened. -/
def entriesBelow (files : FileSystem) (directory : Path) : Except Thrown (List Path) :=
  let visits := iterate files (depth files) directory
  let closed := fun visit =>
    match visit with
    | Visit.opened p => files.lookup p == some (.directory false)
    | .leaf _ => false
  if visits.any closed then .error .unexpectedValueException
  else
    .ok (visits.filterMap fun visit =>
      match visit with
      | .opened _ => none
      | .leaf file => some file)

/-! ## The files to preload -/

/-- The components of a file's path that keep it out. -/
def pathFilter : Bytes := bytes "~(?:^|/)(?:tests?|fixtures?|modules|themes)(?:/|$)~i"

/-- {lit}`$files` and {lit}`$skipped` -/
structure Found where
  files : List Path
  skipped : Nat
deriving DecidableEq, Repr

/-- {lit}`$skipped++` -/
def Found.skip (found : Found) : Found := { found with skipped := found.skipped + 1 }

/-- {lit}`$files[$file] = true` -/
def Found.add (found : Found) (file : Path) : Found :=
  if file ∈ found.files then found else { found with files := found.files ++ [file] }

section Discover

variable (host : Host) (root : Path)

/-- The file has a name that is not preloaded. -/
def isKeptOut (root file : Path) : Bool :=
  pregMatch pathFilter (substr (text file) ((text root).length + 1)) ||
    basename (text file) == bytes "index.php"

/-- One entry: {lit}`$file`, its tests and the exclusions of the package. -/
def takeEntry (patterns : List Bytes) (found : Found) (entry : Path) : Found :=
  match host.realpath (text entry) with
  | none => found
  | some file =>
      if !host.isFile (text entry) || !strEndsWith (text file) (bytes ".php") ||
          !within (text file) (text root) then found
      else if isKeptOut root file then found.skip
      else if patterns.any fun pattern => pregMatch pattern (text file) then found.skip
      else found.add file

/-- {lit}`$entries`: what the iteration yields, or the file itself. -/
def candidateEntries (real : Path) : Except Thrown (List Path) :=
  if host.isDir (text real) then entriesBelow host.files real else .ok [real]

/-- One candidate of {lit}`glob`. -/
def takeCandidate (patterns : List Bytes) (found : Found) (candidate : Bytes) :
    Except Thrown Found := do
  match ← host.phpRealpath candidate with
  | none => return found.skip
  | some real =>
      if !within (text real) (text root) then return found.skip
      let entries ← candidateEntries host real
      return entries.foldl (takeEntry host root patterns) found

/-- One declared path. -/
def takePath (package : Package) (patterns : List Bytes) (found : Found) (relative : Value) :
    Except Thrown Found := do
  let path := anchored package.base (← relative.asString)
  if 0 ∈ path then throw .valueError
  (host.glob path).foldlM (takeCandidate host root patterns) found

/-- One package. -/
def takePackage (found : Found) (package : Package) : Except Thrown Found := do
  let paths ← declaredPaths package
  let patterns ← exclusions package
  paths.foldlM (takePath host root package patterns) found

end Discover

/-- {lit}`strcmp($a, $b) <= 0`, as {lit}`SORT_STRING` orders. -/
def stringLe : Bytes → Bytes → Bool
  | [], _ => true
  | _ :: _, [] => false
  | a :: s, b :: t => a < b || a == b && stringLe s t

/-- {lit}`discover($root)` -/
def discover (host : Host) (root : Bytes) : Except Thrown Found := do
  match ← host.phpRealpath root with
  | none => throw (.runtimeException (bytes "Application root does not exist"))
  | some root =>
      let found ←
        (← packages host root).foldlM (takePackage host root) { files := [], skipped := 0 }
      return { found with files := found.files.insertionSort fun p q => stringLe (text p) (text q) }

end Preload

end Polychrome
