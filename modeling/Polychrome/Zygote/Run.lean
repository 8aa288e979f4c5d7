import Polychrome.CommandLine.Reading
import Polychrome.Manager.Outcome
import Polychrome.Zygote.Runtime

/-!
# The life of the zygote

This module embeds {lit}`run` and {lit}`polychrome_main`.  A label is a call that
leaves the Rust code together with its answer; the calls of {lit}`supervise` are
those of the supervised manager.  The variables of {lit}`run` that own something are
part of the state, so that what is dropped on an early return is visible.

Main results:

- Definition {lit}`step`: one call of {lit}`run`.
- Inductive {lit}`Step` and theorem {lit}`step_cases`: its branches.
- Definitions {lit}`polychromeMain` and {lit}`exitStatus`: the frame around it.

Current gaps:

- {lit}`Listener::bind` and its drop are one call each; what is printed is left out.
-/

namespace Polychrome

namespace Zygote

open Posix

/-- {lit}`Result<(), String>` -/
abbrev Result := Except Bytes Unit

/-- The call that {lit}`run` makes next, with the local variables alive there. -/
inductive Phase
  /-- {lit}`CString::new` for the root, the INI path and the settings -/
  | strings
  | currentExe
  /-- {lit}`canonicalize` of the preload helper beside the executable -/
  | canonicalize (path : Bytes)
  | setCurrentDir (helper : Option Bytes)
  | signalFd (helper : Option Bytes)
  | polyInitialize (helper : Option Bytes)
  | readTasks
  | bind
  /-- {lit}`let mut retry_at = Instant::now()` -/
  | enter
  | supervise
  | dropListener (result : Result)
  | shutdown (result : Result)
  | dropSignals (result : Result)
  | returned (result : Result)
  | panicked
deriving DecidableEq

/-- What {lit}`run` owns, the runtime behind it and the manager's variables. -/
structure State where
  phase : Phase
  runtime : Runtime
  signals : Bool
  listener : Bool
  manager : Manager.State × Manager.Kernel

/-- A call of {lit}`run` with its answer; an error is given by its text. -/
inductive Event
  | tau
  | currentExe (reply : Except Bytes Path)
  | canonicalize (path : Bytes) (reply : Except Bytes Path)
  | setCurrentDir (path : Bytes) (reply : Result)
  | signalFd (reply : Result)
  | polyInitialize (args : Arguments) (user : Option Bytes) (startUp : StartUp)
  | readTasks (reply : Except Bytes Nat)
  | bind (endpoint : Bytes) (reply : Result)
  | now (t : Instant)
  | supervise (e : Manager.Event)
  | dropListener
  | shutdown
  | dropSignals

/-- {lit}`executable.parent().unwrap().join("../share/polychrome/preload.php")` -/
def helperBeside (executable : Path) : Option Bytes :=
  if executable = [] then none
  else some (below executable.dropLast ++ bytes "/../share/polychrome/preload.php")

/-- The strings that {lit}`run` makes into C strings. -/
def strings (config : Config) : Phase :=
  if 0 ∈ config.root then .returned (.error (bytes "root contains NUL"))
  else if config.ini.any fun p => decide (0 ∈ p) then
    .returned (.error (bytes "INI path contains NUL"))
  else if config.defines.any fun s => decide (0 ∈ s) then .panicked
  else if config.preload then .currentExe
  else .setCurrentDir none

/-- What {lit}`poly_initialize` is handed. -/
def arguments (config : Config) (helper : Option Bytes) : Arguments where
  root := config.root
  ini := config.ini
  defines := config.defines
  preload := helper

/-- {lit}`supervise(..).map_err(|e| e.to_string())` -/
def superviseResult (describe : Errno → Bytes) (m : Manager.State) : Result :=
  m.result.mapError describe

/-- An error that is returned at once. -/
def State.fail (s : State) (e : Bytes) : State := { s with phase := .returned (.error e) }

/-- An error behind {lit}`poly_initialize`, which is returned behind {lit}`poly_shutdown`. -/
def State.unwind (s : State) (e : Bytes) : State := { s with phase := .shutdown (.error e) }

/-- The texts of the errors that {lit}`run` words itself. -/
def helperLost (e : Bytes) : Bytes := bytes "cannot locate installed preload helper: " ++ e

def initializationFailed : Bytes := bytes "PHP initialization failed; see diagnostics above"

def threadsStarted : Bytes :=
  bytes "an extension started threads in the zygote; disable it before forking"

/-- One call of {lit}`run`. -/
def step (describe : Errno → Bytes) (config : Config) : LabelledMachine.Machine State Event :=
  fun s e =>
    match s.phase, e with
    | .strings, .tau => some { s with phase := strings config }
    | .currentExe, .currentExe (.error e) => some (s.fail e)
    | .currentExe, .currentExe (.ok executable) =>
        match helperBeside executable with
        | none => some { s with phase := .panicked }
        | some path => some { s with phase := .canonicalize path }
    | .canonicalize path, .canonicalize path' (.error e) =>
        if path' = path then some (s.fail (helperLost e)) else none
    | .canonicalize path, .canonicalize path' (.ok helper) =>
        if path' = path then
          if 0 ∈ text helper then some (s.fail (bytes "preload path contains NUL"))
          else some { s with phase := .setCurrentDir (some (text helper)) }
        else none
    | .setCurrentDir helper, .setCurrentDir path reply =>
        if path = config.root then
          match reply with
          | .error e => some (s.fail e)
          | .ok () => some { s with phase := .signalFd helper }
        else none
    | .signalFd _, .signalFd (.error e) => some (s.fail (bytes "signals: " ++ e))
    | .signalFd helper, .signalFd (.ok ()) =>
        some { s with signals := true, phase := .polyInitialize helper }
    | .polyInitialize helper, .polyInitialize args user startUp =>
        if args = arguments config helper then
          let r := polyInitialize args user startUp s.runtime
          if r.2 = 0 then some { s with runtime := r.1, phase := .readTasks }
          else some { s with
            runtime := r.1
            phase := .dropSignals (.error initializationFailed) }
        else none
    | .readTasks, .readTasks (.error e) => some (s.unwind e)
    | .readTasks, .readTasks (.ok tasks) =>
        if tasks = 1 then some { s with phase := .bind } else some (s.unwind threadsStarted)
    | .bind, .bind endpoint reply =>
        if endpoint = config.listen then
          match reply with
          | .error e => some (s.unwind (bytes "listen " ++ config.listen ++ bytes ": " ++ e))
          | .ok () => some { s with listener := true, phase := .enter }
        else none
    | .enter, .now t => some { s with manager := Manager.initial t, phase := .supervise }
    | .supervise, .supervise e =>
        (Manager.supervised config s.manager e).map fun m => { s with manager := m }
    | .supervise, .tau =>
        if s.manager.1.phase = .finished then
          some { s with phase := .dropListener (superviseResult describe s.manager.1) }
        else none
    | .dropListener result, .dropListener =>
        some { s with listener := false, phase := .shutdown result }
    | .shutdown result, .shutdown =>
        some { s with runtime := polyShutdown s.runtime, phase := .dropSignals result }
    | .dropSignals result, .dropSignals =>
        some { s with signals := false, phase := .returned result }
    | _, _ => none

/-- Before {lit}`run`. -/
def initial : State where
  phase := .strings
  runtime := .fresh
  signals := false
  listener := false
  manager := Manager.initial 0

/-- {lit}`polychrome_main`: the configuration to run, or else the exit status. -/
def polychromeMain (host : CommandLine.Host) (args : List Bytes) : Config ⊕ Nat :=
  match CommandLine.parse host args with
  | .ok .help => .inr 0
  | .ok .version => .inr 0
  | .ok (.serve config) => .inl config
  | .error _ => .inr 2

/-- The exit status that {lit}`polychrome_main` makes of the result of {lit}`run`. -/
def exitStatus : Result → Nat
  | .ok () => 0
  | .error _ => 1

/-! ## What one call can do -/

/-- The branches of {lit}`run`, one case each. -/
inductive Step (describe : Errno → Bytes) (config : Config) (s : State) : Event → State → Prop
  | stringsMade (hphase : s.phase = .strings) :
      Step describe config s .tau { s with phase := strings config }
  | exeUnknown {e : Bytes} (hphase : s.phase = .currentExe) :
      Step describe config s (.currentExe (.error e)) (s.fail e)
  | exeRootless {executable : Path} (hphase : s.phase = .currentExe)
      (hhelper : helperBeside executable = none) :
      Step describe config s (.currentExe (.ok executable)) { s with phase := .panicked }
  | exeFound {executable : Path} {path : Bytes} (hphase : s.phase = .currentExe)
      (hhelper : helperBeside executable = some path) :
      Step describe config s (.currentExe (.ok executable))
        { s with phase := .canonicalize path }
  | helperMissing {path e : Bytes} (hphase : s.phase = .canonicalize path) :
      Step describe config s (.canonicalize path (.error e)) (s.fail (helperLost e))
  | helperNul {path : Bytes} {helper : Path} (hphase : s.phase = .canonicalize path)
      (hnul : 0 ∈ text helper) :
      Step describe config s (.canonicalize path (.ok helper))
        (s.fail (bytes "preload path contains NUL"))
  | helperFound {path : Bytes} {helper : Path} (hphase : s.phase = .canonicalize path)
      (hnul : 0 ∉ text helper) :
      Step describe config s (.canonicalize path (.ok helper))
        { s with phase := .setCurrentDir (some (text helper)) }
  | dirLost {helper : Option Bytes} {e : Bytes} (hphase : s.phase = .setCurrentDir helper) :
      Step describe config s (.setCurrentDir config.root (.error e)) (s.fail e)
  | dirSet {helper : Option Bytes} (hphase : s.phase = .setCurrentDir helper) :
      Step describe config s (.setCurrentDir config.root (.ok ()))
        { s with phase := .signalFd helper }
  | signalsFailed {helper : Option Bytes} {e : Bytes} (hphase : s.phase = .signalFd helper) :
      Step describe config s (.signalFd (.error e)) (s.fail (bytes "signals: " ++ e))
  | signalsOpened {helper : Option Bytes} (hphase : s.phase = .signalFd helper) :
      Step describe config s (.signalFd (.ok ()))
        { s with signals := true, phase := .polyInitialize helper }
  | initialized {helper user : Option Bytes} {startUp : StartUp}
      (hphase : s.phase = .polyInitialize helper)
      (hstatus : (polyInitialize (arguments config helper) user startUp s.runtime).2 = 0) :
      Step describe config s (.polyInitialize (arguments config helper) user startUp)
        { s with
          runtime := (polyInitialize (arguments config helper) user startUp s.runtime).1
          phase := .readTasks }
  | initializeFailed {helper user : Option Bytes} {startUp : StartUp}
      (hphase : s.phase = .polyInitialize helper)
      (hstatus : (polyInitialize (arguments config helper) user startUp s.runtime).2 ≠ 0) :
      Step describe config s (.polyInitialize (arguments config helper) user startUp)
        { s with
          runtime := (polyInitialize (arguments config helper) user startUp s.runtime).1
          phase := .dropSignals (.error initializationFailed) }
  | tasksUnknown {e : Bytes} (hphase : s.phase = .readTasks) :
      Step describe config s (.readTasks (.error e)) (s.unwind e)
  | singleTask (hphase : s.phase = .readTasks) :
      Step describe config s (.readTasks (.ok 1)) { s with phase := .bind }
  | moreTasks {tasks : Nat} (hphase : s.phase = .readTasks) (htasks : tasks ≠ 1) :
      Step describe config s (.readTasks (.ok tasks)) (s.unwind threadsStarted)
  | bindFailed {e : Bytes} (hphase : s.phase = .bind) :
      Step describe config s (.bind config.listen (.error e))
        (s.unwind (bytes "listen " ++ config.listen ++ bytes ": " ++ e))
  | bound (hphase : s.phase = .bind) :
      Step describe config s (.bind config.listen (.ok ()))
        { s with listener := true, phase := .enter }
  | entered {t : Instant} (hphase : s.phase = .enter) :
      Step describe config s (.now t) { s with manager := Manager.initial t, phase := .supervise }
  | supervised {e : Manager.Event} {m : Manager.State × Manager.Kernel}
      (hphase : s.phase = .supervise) (hstep : Manager.supervised config s.manager e = some m) :
      Step describe config s (.supervise e) { s with manager := m }
  | superviseReturned (hphase : s.phase = .supervise)
      (hfinished : s.manager.1.phase = .finished) :
      Step describe config s .tau
        { s with phase := .dropListener (superviseResult describe s.manager.1) }
  | listenerDropped {result : Result} (hphase : s.phase = .dropListener result) :
      Step describe config s .dropListener
        { s with listener := false, phase := .shutdown result }
  | shutDown {result : Result} (hphase : s.phase = .shutdown result) :
      Step describe config s .shutdown
        { s with runtime := polyShutdown s.runtime, phase := .dropSignals result }
  | signalsDropped {result : Result} (hphase : s.phase = .dropSignals result) :
      Step describe config s .dropSignals
        { s with signals := false, phase := .returned result }

/-- What a call can do. -/
theorem step_cases {describe : Errno → Bytes} {config : Config} {s s' : State} {e : Event}
    (h : step describe config s e = some s') : Step describe config s e s' := by
  unfold step at h
  split at h
  case h_3 hphase =>
      split at h
      case h_1 hhelper => obtain rfl := Option.some.inj h; exact .exeRootless hphase hhelper
      case h_2 hhelper => obtain rfl := Option.some.inj h; exact .exeFound hphase hhelper
  case h_4 hphase =>
      obtain ⟨rfl, hsome⟩ := Option.ite_none_right_eq_some.mp h
      obtain rfl := Option.some.inj hsome
      exact .helperMissing hphase
  case h_5 hphase =>
      obtain ⟨rfl, hsome⟩ := Option.ite_none_right_eq_some.mp h
      split at hsome
      case isTrue hnul => obtain rfl := Option.some.inj hsome; exact .helperNul hphase hnul
      case isFalse hnul => obtain rfl := Option.some.inj hsome; exact .helperFound hphase hnul
  case h_6 hphase =>
      obtain ⟨rfl, hsome⟩ := Option.ite_none_right_eq_some.mp h
      split at hsome
      · obtain rfl := Option.some.inj hsome; exact .dirLost hphase
      · obtain rfl := Option.some.inj hsome; exact .dirSet hphase
  case h_9 hphase =>
      obtain ⟨rfl, hsome⟩ := Option.ite_none_right_eq_some.mp h
      dsimp only at hsome
      split at hsome
      case isTrue hstatus => obtain rfl := Option.some.inj hsome; exact .initialized hphase hstatus
      case isFalse hstatus =>
          obtain rfl := Option.some.inj hsome
          exact .initializeFailed hphase hstatus
  case h_11 hphase =>
      split at h
      case isTrue htasks =>
          obtain rfl := Option.some.inj h
          obtain rfl := htasks
          exact .singleTask hphase
      case isFalse htasks => obtain rfl := Option.some.inj h; exact .moreTasks hphase htasks
  case h_12 hphase =>
      obtain ⟨rfl, hsome⟩ := Option.ite_none_right_eq_some.mp h
      split at hsome
      · obtain rfl := Option.some.inj hsome; exact .bindFailed hphase
      · obtain rfl := Option.some.inj hsome; exact .bound hphase
  case h_14 hphase =>
      obtain ⟨m, hstep, rfl⟩ := Option.map_eq_some_iff.mp h
      exact .supervised hphase hstep
  case h_15 hphase =>
      obtain ⟨hfinished, h⟩ := Option.ite_none_right_eq_some.mp h
      obtain rfl := Option.some.inj h
      exact .superviseReturned hphase hfinished
  case h_19 => cases h
  all_goals
    obtain rfl := Option.some.inj h
    constructor
    assumption

end Zygote

end Polychrome
