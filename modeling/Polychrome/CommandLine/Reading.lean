import Polychrome.CommandLine.Grammar

/-!
# Reading the command line

The loop reads the words of settings one setting at a time, and every argument list
is the words of settings up to the end, a flag or a fault.  What is served is read
off the settings alone.

Main results:

- Theorem {lit}`parseArgs_written`: the loop over the words of settings.
- Theorem {lit}`exists_reading`: how every argument list begins.
- Definition {lit}`Settled` and theorem {lit}`settled_written`: the configuration
  behind the settings.
- Theorem {lit}`parse_follows_grammar`: {lit}`parse` accepts its grammar.
-/

namespace Polychrome

namespace CommandLine

open Posix Rust

/-! ## The loop -/

section Loop

variable (host : Host)

/-- A valid setting is read and applied. -/
theorem parseArgs_setting {config : Config} {setting : Setting} (h : setting.Valid)
    (args : List Bytes) :
    parseArgs host config (setting.words ++ args) =
      parseArgs host (setting.apply config) args := by
  cases setting with
  | noPreload => exact parseArgs_noPreload host config args
  | value option text =>
      have htake : takeValue config option text =
          .ok ((Setting.value option text).apply config) :=
        takeValue_eq_ok_iff.mpr ⟨h, rfl⟩
      exact (parseArgs_option host config args option text).trans (by rw [htake]; rfl)

/-- The loop passes over the words of valid settings. -/
theorem parseArgs_written {settings : List Setting} (h : ∀ setting ∈ settings, setting.Valid)
    (config : Config) (args : List Bytes) :
    parseArgs host config (written settings ++ args) =
      parseArgs host (settings.foldl Setting.apply config) args := by
  induction settings generalizing config with
  | nil => rfl
  | cons setting settings ih =>
      rw [List.forall_mem_cons] at h
      rw [written, List.flatMap_cons, List.append_assoc, parseArgs_setting host h.1]
      exact ih h.2 (setting.apply config)

/-- A fault ends the parsing with an error. -/
theorem parseArgs_fault {rest : List Bytes} (h : Fault rest) (config : Config) :
    ∃ message, parseArgs host config rest = .error message := by
  cases h with
  | notUtf8 hutf8 => exact ⟨_, by rw [parseArgs, if_pos hutf8]⟩
  | @unknown arg rest hword =>
      simp only [vocabulary, List.mem_append, List.mem_cons, not_or] at hword
      rcases hword with ⟨⟨hhelp, hversion⟩, hflag, hoption⟩
      have hnone : valueOption arg = none := by
        rw [Option.eq_none_iff_forall_ne_some]
        intro option hsome
        rw [valueOption_eq_some_iff] at hsome
        subst hsome
        cases option <;> simp at hoption
      by_cases hutf8 : isUtf8 arg = false
      · exact ⟨_, by rw [parseArgs, if_pos hutf8]⟩
      · refine ⟨bytes "unknown option: " ++ arg, ?_⟩
        rw [parseArgs, if_neg hutf8, if_neg hhelp, if_neg hversion, if_neg hflag, hnone]
  | missing option => exact ⟨_, parseArgs_missing host config option⟩
  | @invalid option text rest hvalue =>
      rw [parseArgs_option]
      cases htake : takeValue config option text with
      | error message => exact ⟨message, rfl⟩
      | ok config' => exact absurd (takeValue_eq_ok_iff.mp htake).1 hvalue

end Loop

/-- How an argument list ends. -/
inductive Ending : List Bytes → Prop
  | ended : Ending []
  | help {arg : Bytes} {rest : List Bytes} (harg : arg ∈ helpWords) : Ending (arg :: rest)
  | version {arg : Bytes} {rest : List Bytes} (harg : arg ∈ versionWords) : Ending (arg :: rest)
  | fault {rest : List Bytes} (hfault : Fault rest) : Ending rest

/-- Every argument list is the words of valid settings up to its ending. -/
theorem exists_reading : ∀ args : List Bytes, ∃ settings rest,
    (∀ setting ∈ settings, setting.Valid) ∧ args = written settings ++ rest ∧ Ending rest
  | [] => ⟨[], [], by simp, rfl, .ended⟩
  | arg :: args => by
      by_cases hword : arg ∈ vocabulary
      case neg => exact ⟨[], _, by simp, rfl, .fault (.unknown hword)⟩
      case pos =>
        simp only [vocabulary, List.mem_append, List.mem_cons] at hword
        rcases hword with (hhelp | hversion) | rfl | hoption
        · exact ⟨[], _, by simp, rfl, .help hhelp⟩
        · exact ⟨[], _, by simp, rfl, .version hversion⟩
        · rcases exists_reading args with ⟨settings, rest, hvalid, rfl, hending⟩
          exact ⟨.noPreload :: settings, rest, by simpa [Setting.Valid] using hvalid, rfl, hending⟩
        · rcases List.mem_map.mp hoption with ⟨option, -, rfl⟩
          cases args with
          | nil => exact ⟨[], _, by simp, rfl, .fault (.missing option)⟩
          | cons text args =>
              by_cases hvalue : Accepts option text
              · rcases exists_reading args with ⟨settings, rest, hvalid, rfl, hending⟩
                refine ⟨.value option text :: settings, rest, ?_, rfl, hending⟩
                exact List.forall_mem_cons.mpr ⟨hvalue, hvalid⟩
              · exact ⟨[], _, by simp, rfl, .fault (.invalid hvalue)⟩

/-! ## The configuration behind the settings -/

/-- A number is that of the last occurrence of its option. -/
def Counts (option : ValueOption) (settings : List Setting) (otherwise n : Nat) : Prop :=
  (last option settings = none → n = otherwise) ∧
    ∀ text, last option settings = some text → Numeral text n

/-- What the settings say before the paths are looked up. -/
structure Settled (host : Host) (settings : List Setting) (config : Config) : Prop where
  root : config.root = (last .root settings).getD (bytes ".")
  listen : config.listen = (last .listen settings).getD (bytes "127.0.0.1:9000")
  workers : Counts .workers settings host.defaultWorkers config.workers
  timeout : Counts .requestTimeout settings 30 config.timeout
  preload : config.preload = true ↔ .noPreload ∉ settings
  ini : config.ini = last .c settings
  defines : config.defines = valuesOf .d settings

section Settled

variable {host : Host} {settings : List Setting} {config : Config}

/-- One more setting adds its value. -/
theorem valuesOf_concat (option : ValueOption) (setting : Setting) :
    valuesOf option (settings ++ [setting]) =
      valuesOf option settings ++ (setting.valueOf option).toList := by
  rw [valuesOf, List.filterMap_append]
  cases h : setting.valueOf option <;> simp [valuesOf, h]

/-- The latest value counts. -/
theorem last_concat (option : ValueOption) (setting : Setting) :
    last option (settings ++ [setting]) = (setting.valueOf option).or (last option settings) := by
  rw [last, valuesOf_concat]
  cases setting.valueOf option <;> simp [last]

/-- A number is read from the latest value. -/
theorem counts_concat {option : ValueOption} {setting : Setting} {otherwise n : Nat} :
    Counts option (settings ++ [setting]) otherwise n ↔
      match setting.valueOf option with
      | none => Counts option settings otherwise n
      | some text => Numeral text n := by
  unfold Counts
  rw [last_concat]
  cases setting.valueOf option <;> simp

/-- One more valid setting keeps what has been settled. -/
theorem Settled.concat (h : Settled host settings config) {setting : Setting}
    (hvalid : setting.Valid) : Settled host (settings ++ [setting]) (setting.apply config) := by
  have hroot := h.root
  have hlisten := h.listen
  have hworkers := h.workers
  have htimeout := h.timeout
  have hpreload := h.preload
  have hini := h.ini
  have hdefines := h.defines
  cases setting with
  | noPreload =>
      constructor <;> simp_all [last_concat, valuesOf_concat, counts_concat, Setting.valueOf,
        Setting.apply]
  | value option text =>
      cases option
      case workers =>
        rcases hvalid.2 with ⟨n, hn, hrange⟩
        have hread := hn.read (show n < 2 ^ 64 by omega) config.workers
        constructor <;> simp_all [last_concat, valuesOf_concat, counts_concat, Setting.valueOf,
          Setting.apply]
      case requestTimeout =>
        rcases hvalid.2 with ⟨n, hn, hrange⟩
        have hread := hn.read (show n < 2 ^ 64 by omega) config.timeout
        constructor <;> simp_all [last_concat, valuesOf_concat, counts_concat, Setting.valueOf,
          Setting.apply]
      all_goals
        constructor <;> simp_all [last_concat, valuesOf_concat, counts_concat, Setting.valueOf,
          Setting.apply]

/-- Without a setting the defaults are settled. -/
theorem settled_defaults (host : Host) : Settled host [] (defaults host) := by
  constructor <;> simp [Counts, last, valuesOf, defaults]

/-- What the settings settle, whatever they are. -/
theorem settled_written (hvalid : ∀ setting ∈ settings, setting.Valid) :
    Settled host settings (settings.foldl Setting.apply (defaults host)) := by
  induction settings using List.reverseRecOn with
  | nil => exact settled_defaults host
  | append_singleton settings setting ih =>
      rw [List.foldl_concat]
      refine (ih fun s hs => hvalid s (by simp [hs])).concat (hvalid setting (by simp))

/-- A value counts for one number. -/
theorem Counts.unique {option : ValueOption} {otherwise m n : Nat}
    (hm : Counts option settings otherwise m) (hn : Counts option settings otherwise n) :
    m = n := by
  cases hlast : last option settings with
  | none => rw [hm.1 hlast, hn.1 hlast]
  | some text => exact (hm.2 text hlast).unique (hn.2 text hlast)

/-- The settings leave nothing open. -/
theorem Settled.unique {config' : Config} (h : Settled host settings config)
    (h' : Settled host settings config') : config = config' := by
  have hworkers := h.workers.unique h'.workers
  have htimeout := h.timeout.unique h'.timeout
  have hpreload : config.preload = config'.preload := by
    rw [Bool.eq_iff_iff, h.preload, h'.preload]
  rcases config with ⟨root, listen, workers, timeout, preload, ini, defines⟩
  rcases config' with ⟨root', listen', workers', timeout', preload', ini', defines'⟩
  have hroot := h.root.trans h'.root.symm
  have hlisten := h.listen.trans h'.listen.symm
  have hini := h.ini.trans h'.ini.symm
  have hdefines := h.defines.trans h'.defines.symm
  simp_all

/-! ## The paths -/

/-- The root is a directory, and the PHP configuration is there. -/
def PathsFound (host : Host) (settings : List Setting) : Prop :=
  (∃ p, host.files.realpath host.cwd ((last .root settings).getD (bytes ".")) = some p ∧
    host.files.isDirectory p = true) ∧
    ∀ path, last .c settings = some path → ∃ p, host.files.realpath host.cwd path = some p

/-- What is served under the settings. -/
structure Serves (host : Host) (settings : List Setting) (c : Config) : Prop where
  root : ∃ p, host.files.realpath host.cwd ((last .root settings).getD (bytes ".")) = some p ∧
    host.files.isDirectory p = true ∧ c.root = text p
  listen : c.listen = (last .listen settings).getD (bytes "127.0.0.1:9000")
  workers : Counts .workers settings host.defaultWorkers c.workers
  timeout : Counts .requestTimeout settings 30 c.timeout
  preload : c.preload = true ↔ .noPreload ∉ settings
  ini : (last .c settings = none ∧ c.ini = none) ∨
    ∃ path p, last .c settings = some path ∧ host.files.realpath host.cwd path = some p ∧
      c.ini = some (text p)
  defines : c.defines = valuesOf .d settings

/-- The canonical path leads to what the path leads to. -/
theorem isDir_text {p : Path} {path : Bytes}
    (h : host.files.realpath host.cwd path = some p) :
    host.isDir (text p) = host.files.isDirectory p := by
  rw [Host.isDir, FileSystem.stat_text (FileSystem.realpath_solid h)]
  rfl

/-- The configuration is finished if its paths are there. -/
theorem finish_eq_ok_iff {command : Command} :
    finish host config = .ok command ↔
      ∃ p, host.files.realpath host.cwd config.root = some p ∧
        host.files.isDirectory p = true ∧
        ((config.ini = none ∧ command = .serve { config with root := text p }) ∨
          ∃ path q, config.ini = some path ∧ host.files.realpath host.cwd path = some q ∧
            command = .serve { config with root := text p, ini := some (text q) }) := by
  unfold finish Host.canonicalize
  cases hroot : host.files.realpath host.cwd config.root with
  | none => simp [Except.mapError, bind, Except.bind]
  | some p =>
      have hdir := isDir_text hroot
      by_cases hp : host.files.isDirectory p = true
      · rw [hp] at hdir
        cases hini : config.ini with
        | none =>
            simp only [Except.mapError, bind, Except.bind, pure, Except.pure, hdir]
            simp [hp, eq_comm (a := command)]
        | some path =>
            cases hpath : host.files.realpath host.cwd path with
            | none =>
                simp [Except.mapError, bind, Except.bind, hdir, hpath]
            | some q =>
                simp only [Except.mapError, bind, Except.bind, pure, Except.pure, hdir, hpath]
                simp [hp, hpath, eq_comm (a := command)]
      · rw [Bool.not_eq_true] at hp
        rw [hp] at hdir
        simp [Except.mapError, bind, Except.bind, throw, throwThe, MonadExceptOf.throw, hdir, hp]

/-- What has been settled is served if its paths are there. -/
theorem Settled.finish_iff (h : Settled host settings config) {c : Config} :
    finish host config = .ok (.serve c) ↔ Serves host settings c := by
  rw [finish_eq_ok_iff, h.root, h.ini]
  constructor
  · rintro ⟨p, hp, hdir, hini⟩
    rcases hini with ⟨hnone, hc⟩ | ⟨path, q, hpath, hq, hc⟩ <;> cases hc
    · exact ⟨⟨p, hp, hdir, rfl⟩, h.listen, h.workers, h.timeout, h.preload,
        Or.inl ⟨hnone, hnone⟩, h.defines⟩
    · exact ⟨⟨p, hp, hdir, rfl⟩, h.listen, h.workers, h.timeout, h.preload,
        Or.inr ⟨path, q, hpath, hq, rfl⟩, h.defines⟩
  · intro hserves
    rcases hserves.root with ⟨p, hp, hdir, hroot⟩
    -- Before its paths are looked up the configuration served is the one settled.
    have hbefore : Settled host settings
        { c with root := (last .root settings).getD (bytes "."), ini := last .c settings } :=
      ⟨rfl, hserves.listen, hserves.workers, hserves.timeout, hserves.preload, rfl,
        hserves.defines⟩
    have heq := h.unique hbefore
    refine ⟨p, hp, hdir, ?_⟩
    rcases hserves.ini with ⟨hnone, hini⟩ | ⟨path, q, hpath, hq, hini⟩
    · refine Or.inl ⟨hnone, ?_⟩
      rw [heq, ← hroot, hnone, ← hini]
    · refine Or.inr ⟨path, q, hpath, hq, ?_⟩
      rw [heq, ← hroot, ← hini]

/-- A configuration is refused if one of its paths is not found. -/
theorem Settled.fails_iff (h : Settled host settings config) :
    (∃ message, finish host config = .error message) ↔ ¬ PathsFound host settings := by
  have hfound : (∃ command, finish host config = .ok command) ↔ PathsFound host settings := by
    simp only [finish_eq_ok_iff, h.root, h.ini, PathsFound]
    constructor
    · rintro ⟨command, p, hp, hdir, hini⟩
      refine ⟨⟨p, hp, hdir⟩, fun path hpath => ?_⟩
      rcases hini with ⟨hnone, -⟩ | ⟨path', q, hpath', hq, -⟩
      · rw [hnone] at hpath
        cases hpath
      · cases hpath.symm.trans hpath'
        exact ⟨q, hq⟩
    · rintro ⟨⟨p, hp, hdir⟩, hini⟩
      cases hlast : last .c settings with
      | none => exact ⟨_, p, hp, hdir, Or.inl ⟨rfl, rfl⟩⟩
      | some path =>
          rcases hini path hlast with ⟨q, hq⟩
          exact ⟨_, p, hp, hdir, Or.inr ⟨path, q, rfl, hq, rfl⟩⟩
  rw [← hfound]
  cases finish host config <;> simp

end Settled

/-! ## The grammar -/

/-- What holds of every configuration that is served. -/
structure Sound (host : Host) (settings : List Setting) (c : Config) : Prop where
  root : ∃ p, c.root = text p ∧ host.files.isDirectory p = true
  listen : Endpoint c.listen
  workers : 1 ≤ c.workers ∧
    (c.workers ≤ 4096 ∨ last .workers settings = none ∧ c.workers = host.defaultWorkers)
  timeout : 1 ≤ c.timeout ∧ c.timeout ≤ 86400
  defines : ∀ define ∈ c.defines, Override define

section Grammar

variable {host : Host} {settings : List Setting} {c : Config}

/-- Every value of a valid setting is accepted by its option. -/
theorem accepts_of_mem {option : ValueOption} {text : Bytes}
    (hvalid : ∀ setting ∈ settings, setting.Valid) (h : text ∈ valuesOf option settings) :
    Accepts option text := by
  rcases List.mem_filterMap.mp h with ⟨setting, hmem, hvalue⟩
  have hsetting := hvalid setting hmem
  cases setting with
  | noPreload => cases hvalue
  | value option' text' =>
      simp only [Setting.valueOf] at hvalue
      split_ifs at hvalue with heq
      cases hvalue
      exact heq ▸ hsetting

/-- The last value of an option is one it accepts. -/
theorem accepts_of_last {option : ValueOption} {text : Bytes}
    (hvalid : ∀ setting ∈ settings, setting.Valid) (h : last option settings = some text) :
    Accepts option text :=
  accepts_of_mem hvalid (List.mem_of_getLast? h)

/-- A configuration that is served is within its bounds. -/
theorem Serves.sound (h : Serves host settings c)
    (hvalid : ∀ setting ∈ settings, setting.Valid) : Sound host settings c where
  root := by
    rcases h.root with ⟨p, -, hdir, hroot⟩
    exact ⟨p, hroot, hdir⟩
  listen := by
    rw [h.listen]
    cases hlast : last .listen settings with
    | none =>
        refine Or.inr ⟨.v4 [127, 0, 0, 1] 9000, ?_, by decide⟩
        decide +kernel
    | some text => exact (accepts_of_last hvalid hlast).2
  workers := by
    cases hlast : last .workers settings with
    | none =>
        have hdefault := h.workers.1 hlast
        refine ⟨?_, Or.inr ⟨rfl, hdefault⟩⟩
        rw [hdefault, Host.defaultWorkers]
        cases host.parallelism with
        | none => exact le_rfl
        | some n => exact n.property
    | some text =>
        rcases (accepts_of_last hvalid hlast).2 with ⟨n, hn, hrange⟩
        rw [(h.workers.2 text hlast).unique hn]
        exact ⟨hrange.1, Or.inl hrange.2⟩
  timeout := by
    cases hlast : last .requestTimeout settings with
    | none => simp [h.timeout.1 hlast]
    | some text =>
        rcases (accepts_of_last hvalid hlast).2 with ⟨n, hn, hrange⟩
        rw [(h.timeout.2 text hlast).unique hn]
        exact hrange
  defines define hmem := by
    rw [h.defines] at hmem
    exact (accepts_of_mem hvalid hmem).2

/-- The settings at the front are applied in order. -/
theorem parse_written (hvalid : ∀ setting ∈ settings, setting.Valid) (rest : List Bytes) :
    parse host (written settings ++ rest) =
      parseArgs host (settings.foldl Setting.apply (defaults host)) rest :=
  parseArgs_written host hvalid (defaults host) rest

/-- A line of settings only is finished. -/
theorem parse_ended (hvalid : ∀ setting ∈ settings, setting.Valid) :
    parse host (written settings) =
      finish host (settings.foldl Setting.apply (defaults host)) := by
  have hparse : parse host (written settings ++ []) = _ := parse_written hvalid []
  rwa [List.append_nil] at hparse

/-- Only {lit}`--help` and {lit}`--version` stop the loop with another command. -/
theorem finish_serves {config : Config} {command : Command}
    (h : finish host config = .ok command) : ∃ c, command = .serve c := by
  rcases finish_eq_ok_iff.mp h with ⟨p, -, -, ⟨-, rfl⟩ | ⟨path, q, -, -, rfl⟩⟩
  · exact ⟨_, rfl⟩
  · exact ⟨_, rfl⟩

/-- What becomes of an argument list, by the way it ends. -/
inductive Outcome (host : Host) (args : List Bytes) : Except Bytes Command → Prop
  | ended {settings : List Setting} (hvalid : ∀ setting ∈ settings, setting.Valid)
      (hargs : args = written settings) :
      Outcome host args (finish host (settings.foldl Setting.apply (defaults host)))
  | help {settings : List Setting} {arg : Bytes} {rest : List Bytes}
      (hvalid : ∀ setting ∈ settings, setting.Valid)
      (hargs : args = written settings ++ arg :: rest) (harg : arg ∈ helpWords) :
      Outcome host args (.ok .help)
  | version {settings : List Setting} {arg : Bytes} {rest : List Bytes}
      (hvalid : ∀ setting ∈ settings, setting.Valid)
      (hargs : args = written settings ++ arg :: rest) (harg : arg ∈ versionWords) :
      Outcome host args (.ok .version)
  | fault {settings : List Setting} {rest : List Bytes} {message : Bytes}
      (hvalid : ∀ setting ∈ settings, setting.Valid) (hargs : args = written settings ++ rest)
      (hfault : Fault rest) : Outcome host args (.error message)

/-- What a line comes to is told by its form. -/
theorem parse_outcome (host : Host) (args : List Bytes) :
    Outcome host args (parse host args) := by
  rcases exists_reading args with ⟨settings, rest, hvalid, rfl, hending⟩
  rw [parse_written hvalid]
  cases hending with
  | ended => exact .ended hvalid (List.append_nil _)
  | help harg =>
      rw [parseArgs_help _ _ _ harg]
      exact .help hvalid rfl harg
  | version harg =>
      rw [parseArgs_version _ _ _ harg]
      exact .version hvalid rfl harg
  | fault hfault =>
      rcases parseArgs_fault host hfault (settings.foldl Setting.apply (defaults host)) with
        ⟨message, hmessage⟩
      rw [hmessage]
      exact .fault hvalid rfl hfault

/-- Help is asked for behind valid settings. -/
theorem parse_help_iff {args : List Bytes} :
    parse host args = .ok .help ↔ ∃ settings arg rest,
      (∀ setting ∈ settings, setting.Valid) ∧ args = written settings ++ arg :: rest ∧
        arg ∈ helpWords := by
  constructor
  · intro h
    have hread := parse_outcome host args
    rw [h] at hread
    generalize hresult : (Except.ok Command.help : Except Bytes Command) = result at hread
    cases hread with
    | ended hvalid hargs =>
        rcases finish_serves hresult.symm with ⟨c, hc⟩
        cases hc
    | help hvalid hargs harg => exact ⟨_, _, _, hvalid, hargs, harg⟩
    | version => cases hresult
    | fault => cases hresult
  · rintro ⟨settings, arg, rest, hvalid, rfl, harg⟩
    rw [parse_written hvalid, parseArgs_help _ _ _ harg]

/-- The version is asked for behind valid settings. -/
theorem parse_version_iff {args : List Bytes} :
    parse host args = .ok .version ↔ ∃ settings arg rest,
      (∀ setting ∈ settings, setting.Valid) ∧ args = written settings ++ arg :: rest ∧
        arg ∈ versionWords := by
  constructor
  · intro h
    have hread := parse_outcome host args
    rw [h] at hread
    generalize hresult : (Except.ok Command.version : Except Bytes Command) = result at hread
    cases hread with
    | ended hvalid hargs =>
        rcases finish_serves hresult.symm with ⟨c, hc⟩
        cases hc
    | help => cases hresult
    | version hvalid hargs harg => exact ⟨_, _, _, hvalid, hargs, harg⟩
    | fault => cases hresult
  · rintro ⟨settings, arg, rest, hvalid, rfl, harg⟩
    rw [parse_written hvalid, parseArgs_version _ _ _ harg]

/-- A line is refused for a fault, or for a path that is not there. -/
theorem parse_error_iff {args : List Bytes} :
    (∃ message, parse host args = .error message) ↔
      (∃ settings rest, (∀ setting ∈ settings, setting.Valid) ∧
        args = written settings ++ rest ∧ Fault rest) ∨
      ∃ settings, (∀ setting ∈ settings, setting.Valid) ∧ args = written settings ∧
        ¬ PathsFound host settings := by
  constructor
  · rintro ⟨message, h⟩
    have hread := parse_outcome host args
    rw [h] at hread
    generalize hresult : (Except.error message : Except Bytes Command) = result at hread
    cases hread with
    | ended hvalid hargs =>
        have hsettled : Settled host _ _ := settled_written hvalid
        exact Or.inr ⟨_, hvalid, hargs, hsettled.fails_iff.mp ⟨message, hresult.symm⟩⟩
    | help => cases hresult
    | version => cases hresult
    | fault hvalid hargs hfault => exact Or.inl ⟨_, _, hvalid, hargs, hfault⟩
  · rintro (⟨settings, rest, hvalid, rfl, hfault⟩ | ⟨settings, hvalid, rfl, hlost⟩)
    · rw [parse_written hvalid]
      exact parseArgs_fault host hfault _
    · rw [parse_ended hvalid]
      exact (settled_written hvalid).fails_iff.mpr hlost

/-- A line is served if it holds nothing but valid settings, with their paths there. -/
theorem parse_serve_iff {args : List Bytes} :
    parse host args = .ok (.serve c) ↔ ∃ settings,
      (∀ setting ∈ settings, setting.Valid) ∧ args = written settings ∧
        Serves host settings c := by
  constructor
  · intro h
    have hread := parse_outcome host args
    rw [h] at hread
    generalize hresult : (Except.ok (Command.serve c) : Except Bytes Command) = result at hread
    cases hread with
    | ended hvalid hargs =>
        exact ⟨_, hvalid, hargs, (settled_written hvalid).finish_iff.mp hresult.symm⟩
    | help => cases hresult
    | version => cases hresult
    | fault => cases hresult
  · rintro ⟨settings, hvalid, rfl, hserves⟩
    rw [parse_ended hvalid]
    exact (settled_written hvalid).finish_iff.mpr hserves

end Grammar

/-- Arguments are read as settings up to the end, a flag or a fault; the settings
decide what is served, and what is served is sound. -/
theorem parse_follows_grammar (host : Host) (args : List Bytes) :
    (parse host args = .ok .help ↔ ∃ settings arg rest,
      (∀ setting ∈ settings, setting.Valid) ∧ args = written settings ++ arg :: rest ∧
        arg ∈ helpWords) ∧
    (parse host args = .ok .version ↔ ∃ settings arg rest,
      (∀ setting ∈ settings, setting.Valid) ∧ args = written settings ++ arg :: rest ∧
        arg ∈ versionWords) ∧
    ((∃ message, parse host args = .error message) ↔
      (∃ settings rest, (∀ setting ∈ settings, setting.Valid) ∧
        args = written settings ++ rest ∧ Fault rest) ∨
      ∃ settings, (∀ setting ∈ settings, setting.Valid) ∧ args = written settings ∧
        ¬ PathsFound host settings) ∧
    (∀ c, parse host args = .ok (.serve c) ↔ ∃ settings,
      (∀ setting ∈ settings, setting.Valid) ∧ args = written settings ∧
        Serves host settings c) ∧
    ∀ settings c, (∀ setting ∈ settings, setting.Valid) → args = written settings →
      Serves host settings c → Sound host settings c := by
  refine ⟨parse_help_iff, parse_version_iff, parse_error_iff, fun c => parse_serve_iff, ?_⟩
  intro settings c hvalid _ hserves
  exact hserves.sound hvalid

/-! ## The number of workers without the option -/

/-- A machine with 8192 processors and an empty file system. -/
def wideHost : Host where
  files := { nodes := [], distinct := by simp, rooted := by simp, closed := by simp }
  cwd := []
  parallelism := some ⟨8192, by decide⟩
  reason := fun _ => bytes "No such file or directory (os error 2)"

/-- Without {lit}`--workers` nothing bounds the number of workers. -/
theorem default_workers_unchecked :
    ¬ ∀ (host : Host) (args : List Bytes) (c : Config),
      parse host args = .ok (.serve c) → 1 ≤ c.workers ∧ c.workers ≤ 4096 := by
  intro h
  have hparse : parse wideHost [] = .ok (.serve { defaults wideHost with root := bytes "/" }) := by
    decide +kernel
  exact absurd (h wideHost [] _ hparse).2 (by decide)

end CommandLine

end Polychrome
