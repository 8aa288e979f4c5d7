import Polychrome.CommandLine.Reading
import Polychrome.Library.CString
import Polychrome.Library.Overlay

/-!
# The configuration of PHP

This module embeds {lit}`ini_defaults`, {lit}`set_default` and the module start-up
of {lit}`PHP_MINIT_FUNCTION(polychrome)`.  PHP fills its configuration hash from
the defaults, then from its INI files and last from the {lit}`-d` settings, and a
later value for a key replaces an earlier one.

Main results:

- Definitions {lit}`iniDefaults` and {lit}`moduleStartUp`: the defaults and the check.
- Theorem {lit}`start_up_iff`: the settings that let PHP start, and what PHP preloads
  if it does.

Current gaps:

- Reading INI files and the text of the {lit}`-d` settings is PHP's.  Of the latter it
  is assumed that an entry comes from a setting for its key.
-/

namespace Polychrome

namespace Zygote

open Clib CommandLine Overlay Rust

/-- PHP's configuration hash. -/
abbrev Configuration := Bytes → Option Bytes

/-! ## The defaults -/

/-- {lit}`set_default` -/
def setDefault (key value : Bytes) (configuration : Configuration) : Configuration :=
  Function.update configuration key (some value)

/-- {lit}`ini_defaults` -/
def iniDefaults (preloadPath : Option Bytes) (preloadUser : Bytes)
    (configuration : Configuration) : Configuration :=
  configuration
    |> setDefault (bytes "opcache.enable") (bytes "1")
    |> setDefault (bytes "opcache.jit") (bytes "disable")
    |> setDefault (bytes "opcache.memory_consumption") (bytes "256")
    |> setDefault (bytes "opcache.max_accelerated_files") (bytes "100000")
    |> setDefault (bytes "memory_limit") (bytes "256M")
    |> setDefault (bytes "opcache.preload") (preloadPath.getD [])
    |> setDefault (bytes "opcache.preload_user") preloadUser
    |> setDefault (bytes "display_errors") (bytes "0")
    |> setDefault (bytes "log_errors") (bytes "1")
    |> setDefault (bytes "expose_php") (bytes "0")
    |> setDefault (bytes "max_execution_time") (bytes "0")
    |> setDefault (bytes "variables_order") (bytes "GPCS")

/-- The configuration hash when modules start: what the INI files and the {lit}`-d`
settings enter over the defaults. -/
def configured (preloadPath : Option Bytes) (preloadUser : Bytes)
    (files defines : List (Bytes × Bytes)) : Configuration :=
  overlay (overlay (iniDefaults preloadPath preloadUser fun _ => none) files) defines

/-! ## The check -/

/-- {lit}`cfg_get_string` -/
def cfgGetString (configuration : Configuration) (key : Bytes) : Option Bytes := configuration key

/-- {lit}`cfg_get_long`; {lit}`long` is how PHP reads a number. -/
def cfgGetLong (long : Bytes → Int) (configuration : Configuration) (key : Bytes) : Option Int :=
  (configuration key).map long

/-- {lit}`PHP_MINIT_FUNCTION(polychrome)`, with the message of a failure. -/
def moduleStartUp (long : Bytes → Int) (preloadPath : Option Bytes) (preloadUser : Bytes)
    (configuration : Configuration) : Except Bytes Unit :=
  if preloadPath.isSome &&
      ((cfgGetLong long configuration (bytes "opcache.enable")).getD 0 == 0) then
    .error (bytes ("polychrome: automatic preloading requires opcache.enable=1; " ++
      "use --no-preload when disabling OPcache\n"))
  else if (cfgGetString configuration (bytes "opcache.preload")).any
      (fun value => cString value != preloadPath.getD []) then
    .error (bytes "polychrome: opcache.preload is reserved; remove it from php.ini\n")
  else if (cfgGetString configuration (bytes "opcache.preload_user")).any
      (fun value => cString value != preloadUser) then
    .error (bytes "polychrome: preloading must run as the invoking user\n")
  else .ok ()

/-! ## What the settings decide -/

/-- The entries that PHP reads from the {lit}`-d` settings are for their keys. -/
def ReadsKeys (entries : List Bytes → List (Bytes × Bytes)) : Prop :=
  ∀ defines, ∀ entry ∈ entries defines, ∃ define ∈ defines, ∃ rest,
    splitOnce 61 define = some (entry.1, rest)

/-- A setting is looked for among the definitions, then in the files, then among the defaults. -/
theorem configured_apply (preloadPath : Option Bytes) (preloadUser : Bytes)
    (files defines : List (Bytes × Bytes)) (key : Bytes) :
    configured preloadPath preloadUser files defines key =
      (lastOf defines key).or
        ((lastOf files key).or (iniDefaults preloadPath preloadUser (fun _ => none) key)) := by
  rw [configured, overlay_apply, overlay_apply]

/-- By default the helper is preloaded, if there is one. -/
theorem defaults_preload (preloadPath : Option Bytes) (preloadUser : Bytes) :
    iniDefaults preloadPath preloadUser (fun _ => none) (bytes "opcache.preload") =
      some (preloadPath.getD []) :=
  rfl

/-- By default it is preloaded as the given user. -/
theorem defaults_preload_user (preloadPath : Option Bytes) (preloadUser : Bytes) :
    iniDefaults preloadPath preloadUser (fun _ => none) (bytes "opcache.preload_user") =
      some preloadUser :=
  rfl

/-- By default the cache is enabled. -/
theorem defaults_enable (preloadPath : Option Bytes) (preloadUser : Bytes) :
    iniDefaults preloadPath preloadUser (fun _ => none) (bytes "opcache.enable") =
      some (bytes "1") :=
  rfl

/-- No {lit}`-d` setting that the command line accepts reaches a reserved key. -/
theorem reserved_unset {entries : List Bytes → List (Bytes × Bytes)} (hreads : ReadsKeys entries)
    {defines : List Bytes} (hdefines : ∀ define ∈ defines, Override define) {key : Bytes}
    (hkey : key ∈ reservedKeys) : lastOf (entries defines) key = none := by
  rw [lastOf_eq_none_iff]
  rintro ⟨key', value⟩ hmem rfl
  rcases hreads defines _ hmem with ⟨define, hdefine, rest, hsplit⟩
  rcases hdefines define hdefine with ⟨key, rest', hvalue, -, hbytes, -, hreserved⟩
  -- The key of an override holds no equals sign.
  have hsplit' : splitOnce 61 define = some (key, rest') := by
    refine splitOnce_eq_some_iff.mpr ⟨hvalue, fun hmem => ?_⟩
    exact absurd (hbytes 61 hmem) (by decide)
  rw [hsplit, Option.some.injEq, Prod.mk.injEq] at hsplit'
  have hother := hreserved _ hkey
  rw [hsplit'.1, eqIgnoreAsciiCase, beq_self_eq_true] at hother
  cases hother

/-- The path handed to {lit}`poly_initialize`: the helper, unless preloading is off. -/
def preloadPath (config : Config) (helper : Bytes) : Option Bytes :=
  if config.preload then some helper else none

/-- The value that {lit}`opcache.enable` has in the end. -/
def opcacheEnable (files defines : List (Bytes × Bytes)) : Bytes :=
  ((lastOf defines (bytes "opcache.enable")).or (lastOf files (bytes "opcache.enable"))).getD
    (bytes "1")

/-- No INI file gives the key another value than Polychrome does. -/
def Unchallenged (files : List (Bytes × Bytes)) (key value : Bytes) : Prop :=
  ∀ other, lastOf files key = some other → cString other = value

/-- A key that no file sets is not challenged. -/
theorem unchallenged_of_unset {files : List (Bytes × Bytes)} {key value : Bytes}
    (h : lastOf files key = none) : Unchallenged files key value := by
  intro other hother
  rw [h] at hother
  cases hother

/-- The check of a reserved key, whose value only the INI files can have changed. -/
theorem reserved_check {files : List (Bytes × Bytes)} {key value : Bytes} (hnul : 0 ∉ value) :
    ((lastOf files key).or (some value)).any (fun other => cString other != value) = false ↔
      Unchallenged files key value := by
  unfold Unchallenged
  cases lastOf files key with
  | none => simp [cString_of_notMem hnul]
  | some other => simp

section Check

variable {long : Bytes → Int} {preload : Option Bytes} {user : Bytes}
  {files defines : List (Bytes × Bytes)}

/-- A reserved key comes from the files or is the default. -/
theorem configured_reserved {key value : Bytes} (hunset : lastOf defines key = none)
    (hdefault : iniDefaults preload user (fun _ => none) key = some value) :
    cfgGetString (configured preload user files defines) key =
      (lastOf files key).or (some value) := by
  rw [cfgGetString, configured_apply, hunset, hdefault]
  rfl

/-- The cache is enabled as files and definitions say. -/
theorem configured_enable :
    cfgGetLong long (configured preload user files defines) (bytes "opcache.enable") =
      some (long (opcacheEnable files defines)) := by
  rw [cfgGetLong, configured_apply, defaults_enable, opcacheEnable]
  cases lastOf defines (bytes "opcache.enable") with
  | some value => rfl
  | none => cases lastOf files (bytes "opcache.enable") <;> rfl

/-- The check passes if OPcache is on where it is needed and no INI file challenges a
reserved key. -/
theorem moduleStartUp_eq_ok_iff (long : Bytes → Int) (files : List (Bytes × Bytes))
    (hpreload : lastOf defines (bytes "opcache.preload") = none)
    (huser : lastOf defines (bytes "opcache.preload_user") = none)
    (hpath : 0 ∉ preload.getD []) (hname : 0 ∉ user) :
    moduleStartUp long preload user (configured preload user files defines) = .ok () ↔
      (preload.isSome = true → long (opcacheEnable files defines) ≠ 0) ∧
        Unchallenged files (bytes "opcache.preload") (preload.getD []) ∧
        Unchallenged files (bytes "opcache.preload_user") user := by
  rw [← reserved_check hpath, ← reserved_check hname, moduleStartUp, configured_enable,
    configured_reserved hpreload (defaults_preload preload user),
    configured_reserved huser (defaults_preload_user preload user)]
  -- The three tests are made one after the other, and each of them decides alone.
  generalize Option.any (fun value => cString value != preload.getD []) _ = challenged
  generalize Option.any (fun value => cString value != user) _ = challengedUser
  by_cases hon : preload.isSome = true → long (opcacheEnable files defines) ≠ 0
  · have hpassed : (preload.isSome &&
        ((some (long (opcacheEnable files defines))).getD 0 == 0)) = false := by
      rw [← Bool.not_eq_true, Bool.and_eq_true, beq_iff_eq]
      rintro ⟨hsome, hoff⟩
      exact hon hsome hoff
    rw [hpassed]
    cases challenged <;> cases challengedUser <;> simp
    exact hon
  · rw [Classical.not_imp, not_not] at hon
    simp [hon.1, hon.2]

/-- An unchallenged value is the one that counts. -/
theorem unchallenged_value {key value : Bytes} (hnul : 0 ∉ value)
    (h : Unchallenged files key value) :
    ((lastOf files key).or (some value)).map cString = some value := by
  cases hlast : lastOf files key with
  | none => simp [cString_of_notMem hnul]
  | some other => simpa using h other hlast

end Check

/-- Whatever command line is accepted and whatever the INI files say, PHP starts exactly
if OPcache is on where it is needed and the INI files leave the reserved keys alone;
then it preloads the helper, or nothing without preloading, as the invoking user. -/
theorem start_up_iff (host : Host) (args : List Bytes) (c : Config)
    (hparse : parse host args = .ok (.serve c)) (helper user : Bytes) (hhelper : 0 ∉ helper)
    (huser : 0 ∉ user) (long : Bytes → Int) (entries : List Bytes → List (Bytes × Bytes))
    (hreads : ReadsKeys entries) (files : List (Bytes × Bytes)) :
    (moduleStartUp long (preloadPath c helper) user
        (configured (preloadPath c helper) user files (entries c.defines)) = .ok () ↔
      (c.preload = true → long (opcacheEnable files (entries c.defines)) ≠ 0) ∧
        Unchallenged files (bytes "opcache.preload") ((preloadPath c helper).getD []) ∧
        Unchallenged files (bytes "opcache.preload_user") user) ∧
    (moduleStartUp long (preloadPath c helper) user
        (configured (preloadPath c helper) user files (entries c.defines)) = .ok () →
      (cfgGetString (configured (preloadPath c helper) user files (entries c.defines))
          (bytes "opcache.preload")).map cString =
        some (if c.preload then helper else []) ∧
      (cfgGetString (configured (preloadPath c helper) user files (entries c.defines))
          (bytes "opcache.preload_user")).map cString = some user) := by
  rcases parse_serve_iff.mp hparse with ⟨settings, hvalid, -, hserves⟩
  have hdefines := (hserves.sound hvalid).defines
  have hunset : lastOf (entries c.defines) (bytes "opcache.preload") = none :=
    reserved_unset hreads hdefines (List.mem_cons_self)
  have hunset' : lastOf (entries c.defines) (bytes "opcache.preload_user") = none :=
    reserved_unset hreads hdefines (List.mem_cons_of_mem _ List.mem_cons_self)
  have hpath : 0 ∉ (preloadPath c helper).getD [] := by
    unfold preloadPath
    split
    · exact hhelper
    · simp
  have hsome : (preloadPath c helper).isSome = c.preload := by
    unfold preloadPath
    split <;> simp_all
  have hgetD : (preloadPath c helper).getD [] = if c.preload then helper else [] := by
    unfold preloadPath
    split <;> rfl
  have hiff := moduleStartUp_eq_ok_iff long files hunset hunset' hpath huser
  rw [hsome] at hiff
  refine ⟨hiff, fun hok => ?_⟩
  rcases hiff.mp hok with ⟨-, hpreload, hpreloadUser⟩
  rw [configured_reserved hunset (defaults_preload _ _),
    configured_reserved hunset' (defaults_preload_user _ _), ← hgetD]
  exact ⟨unchallenged_value hpath hpreload, unchallenged_value huser hpreloadUser⟩

/-- The {lit}`-d` settings as PHP reads them when no value is quoted. -/
def plainEntries (defines : List Bytes) : List (Bytes × Bytes) := defines.filterMap (splitOnce 61)

/-- This reading keeps the keys. -/
theorem plainEntries_readsKeys : ReadsKeys plainEntries := by
  rintro defines ⟨key, value⟩ hmem
  rcases List.mem_filterMap.mp hmem with ⟨define, hdefine, hsplit⟩
  exact ⟨define, hdefine, value, hsplit⟩

/-- A command line with a setting of its own, on a machine with an empty root. -/
def limitedArgs : List Bytes := [bytes "-d", bytes "memory_limit=1G"]

/-- What it stands for. -/
def limitedConfig : Config :=
  { defaults wideHost with root := bytes "/", defines := [bytes "memory_limit=1G"] }

/-- The helper is what a service with a limit preloads. -/
theorem start_up_iff_sample :
    (cfgGetString (configured (preloadPath limitedConfig (bytes "/helper.php")) (bytes "www")
        [(bytes "memory_limit", bytes "512M")] (plainEntries limitedConfig.defines))
      (bytes "opcache.preload")).map cString = some (bytes "/helper.php") := by
  have hparse : parse wideHost limitedArgs = .ok (.serve limitedConfig) := by decide +kernel
  have hlaws := start_up_iff wideHost limitedArgs limitedConfig hparse (bytes "/helper.php")
    (bytes "www") (by decide) (by decide) (fun value => (strtol value).value) plainEntries
    plainEntries_readsKeys [(bytes "memory_limit", bytes "512M")]
  refine (hlaws.2 (hlaws.1.mpr ⟨fun _ => ?_, unchallenged_of_unset ?_,
    unchallenged_of_unset ?_⟩)).1
  all_goals decide +kernel

end Zygote

end Polychrome
