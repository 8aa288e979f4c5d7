import Polychrome.Zygote.Configuration
import Polychrome.Zygote.Run

/-!
# What the zygote holds

The descriptor of the signals, the PHP runtime and the listener are acquired in
this order and given up in the opposite one, on whatever way {lit}`run` comes to its
end.  Each of them is held exactly in a stretch of its phases.

Main results:

- Theorem {lit}`held_step`: what is held follows the phase.
- Theorem {lit}`run_gives_back`: children exist only while everything is held, and
  nothing is held when {lit}`run` returns.
- Theorem {lit}`exit_status_tells`: what the exit status says about the run.
-/

namespace Polychrome

namespace Zygote

open CommandLine Posix

/-! ## The stretches -/

/-- PHP runs. -/
def Phase.up : Phase → Bool
  | .readTasks | .bind | .enter | .supervise | .dropListener _ | .shutdown _ => true
  | _ => false

/-- The listener is bound. -/
def Phase.listening : Phase → Bool
  | .enter | .supervise | .dropListener _ => true
  | _ => false

/-- The descriptor of the signals is open. -/
def Phase.signalled : Phase → Bool
  | .polyInitialize _ | .dropSignals _ => true
  | phase => phase.up

/-- The process is known to have a single thread. -/
def Phase.single : Phase → Bool
  | .bind => true
  | phase => phase.listening

/-- The supervisor has not been entered. -/
def Phase.early : Phase → Bool
  | .supervise | .dropListener _ | .shutdown _ | .dropSignals _ | .returned _ => false
  | _ => true

/-- The result on its way out of {lit}`run`. -/
def Phase.result : Phase → Option Result
  | .dropListener result | .shutdown result | .dropSignals result | .returned result =>
      some result
  | _ => none

/-- The call starts PHP. -/
def Event.starts : Event → Bool
  | .polyInitialize _ (some _) .succeeded => true
  | _ => false

/-- The call shuts PHP down. -/
def Event.shutsDown : Event → Bool
  | .shutdown => true
  | _ => false

/-- The call of the supervisor that it is. -/
def Event.managed : Event → Option Manager.Event
  | .supervise e => some e
  | _ => none

/-! ## The strings -/

/-- What C strings are made of holds no NUL. -/
structure NulFree (config : Config) : Prop where
  root : 0 ∉ config.root
  ini : ∀ p, config.ini = some p → 0 ∉ p
  defines : ∀ define ∈ config.defines, 0 ∉ define

/-- A command line that is accepted leaves no NUL in the configuration. -/
theorem nulFree_of_parse {host : Host} {args : List Bytes} {c : Config}
    (hparse : parse host args = .ok (.serve c)) : NulFree c := by
  rcases parse_serve_iff.mp hparse with ⟨settings, hvalid, -, hserves⟩
  constructor
  case root =>
    rcases hserves.root with ⟨p, -, -, hroot⟩
    exact hroot ▸ zero_notMem_text p
  case ini =>
    intro p hp
    rcases hserves.ini with ⟨-, hnone⟩ | ⟨-, p', -, -, hini⟩
    · rw [hnone] at hp
      cases hp
    · rw [hini, Option.some.injEq] at hp
      exact hp ▸ zero_notMem_text p'
  case defines =>
    intro define hdefine
    rcases (hserves.sound hvalid).defines define hdefine with ⟨-, -, -, -, -, ⟨-, -, hnul⟩, -⟩
    exact hnul

/-- Without a NUL the strings are made. -/
theorem strings_eq {config : Config} (h : NulFree config) :
    strings config = if config.preload then .currentExe else .setCurrentDir none := by
  have hini : (config.ini.any fun p => decide (0 ∈ p)) = false := by
    cases hsome : config.ini with
    | none => rfl
    | some p => simpa using h.ini p hsome
  have hdefines : (config.defines.any fun s => decide (0 ∈ s)) = false := by
    simpa using h.defines
  rw [strings, if_neg h.root, hini, hdefines]
  simp

/-! ## What is held -/

/-- What the process holds at each of its phases. -/
structure Held (es : List Event) (s : State) : Prop where
  sane : s.runtime.Sane
  up : s.runtime.runtimeInitialized = s.phase.up
  listener : s.listener = s.phase.listening
  signals : s.signals = s.phase.signalled
  single : s.phase.single = true → Event.readTasks (.ok 1) ∈ es
  starts : es.countP Event.starts = es.countP Event.shutsDown + s.phase.up.toNat
  whole : s.phase ≠ .panicked

/-- A call that neither starts nor ends the engine keeps the balance. -/
theorem Held.starts_along {es : List Event} {s : State} {p q : Phase} {e : Event}
    (h : Held es s) (hphase : s.phase = p) (hup : q.up = p.up) (hstarts : e.starts = false)
    (hshuts : e.shutsDown = false) :
    (es ++ [e]).countP Event.starts = (es ++ [e]).countP Event.shutsDown + q.up.toNat := by
  have hcount := h.starts
  rw [hphase, ← hup] at hcount
  simpa [List.countP_append, hstarts, hshuts] using hcount

/-- A call between two phases that hold the same. -/
theorem Held.along {es : List Event} {s : State} {p q : Phase} {e : Event}
    {m : Manager.State × Manager.Kernel} (h : Held es s) (hphase : s.phase = p)
    (hsame : (q.up, q.listening, q.signalled) = (p.up, p.listening, p.signalled))
    (hsingle : q.single = true → p.single = true ∨ e = .readTasks (.ok 1))
    (hstarts : e.starts = false) (hshuts : e.shutsDown = false) (hwhole : q ≠ .panicked) :
    Held (es ++ [e]) { s with manager := m, phase := q } := by
  obtain ⟨hup, hlistening, hsignalled⟩ : q.up = p.up ∧ q.listening = p.listening ∧
      q.signalled = p.signalled := by simpa using hsame
  subst hphase
  constructor
  case sane => exact h.sane
  case up => exact h.up.trans hup.symm
  case listener => exact h.listener.trans hlistening.symm
  case signals => exact h.signals.trans hsignalled.symm
  case single =>
    intro hs
    rcases hsingle hs with hs | rfl
    · exact List.mem_append_left _ (h.single hs)
    · simp
  case starts => exact h.starts_along rfl hup hstarts hshuts
  case whole => exact hwhole

/-- Nothing is held at the beginning. -/
theorem held_initial : Held [] initial where
  sane := sane_fresh
  up := rfl
  listener := rfl
  signals := rfl
  single h := by cases h
  starts := rfl
  whole h := by cases h

/-- The engine has started exactly if {lit}`poly_initialize` says so. -/
theorem polyInitialize_starts (args : Arguments) (user : Option Bytes) (startUp : StartUp)
    (r : Runtime) :
    (Event.polyInitialize args user startUp).starts =
      ((polyInitialize args user startUp r).2 == 0) := by
  cases user with
  | none => rfl
  | some name => cases startUp <;> rfl

/-- Behind {lit}`poly_initialize` the engine is up exactly if the status says so. -/
theorem Held.initialized {config : Config} {es : List Event} {s : State}
    {helper user : Option Bytes} {startUp : StartUp} {q : Phase} (h : Held es s)
    (hphase : s.phase = .polyInitialize helper)
    (hup : q.up = ((polyInitialize (arguments config helper) user startUp s.runtime).2 == 0))
    (hsame : (q.listening, q.signalled, q.single) = (false, true, false))
    (hwhole : q ≠ .panicked) :
    Held (es ++ [.polyInitialize (arguments config helper) user startUp])
      { s with
        runtime := (polyInitialize (arguments config helper) user startUp s.runtime).1
        phase := q } := by
  obtain ⟨hlistening, hsignalled, hsingle⟩ : q.listening = false ∧ q.signalled = true ∧
      q.single = false := by simpa using hsame
  have hdown : s.runtime.runtimeInitialized = false := by rw [h.up, hphase]; rfl
  have hbefore : es.countP Event.starts = es.countP Event.shutsDown := by
    simpa [hphase, Phase.up] using h.starts
  constructor
  case sane => exact sane_polyInitialize h.sane hdown _ _ _
  case up => exact (polyInitialize_up hdown _ _ _).trans hup.symm
  case listener => rw [h.listener, hphase, hlistening]; rfl
  case signals => rw [h.signals, hphase, hsignalled]; rfl
  case single =>
    intro hs
    cases hsingle.symm.trans hs
  case starts =>
    have hstarts := polyInitialize_starts (arguments config helper) user startUp s.runtime
    rw [← hup] at hstarts
    cases hq : q.up <;> simp [List.countP_append, hstarts, hq, Event.shutsDown, hbefore]
  case whole => exact hwhole

/-- Every call keeps the account of what is held. -/
theorem held_step {describe : Errno → Bytes} {config : Config} {es : List Event} {s s' : State}
    {e : Event} (hnul : NulFree config) (hexe : ∀ p, e = .currentExe (.ok p) → p ≠ [])
    (h : Held es s) (hs : Step describe config s e s') : Held (es ++ [e]) s' := by
  have hup := h.up
  have hlistener := h.listener
  have hsignals := h.signals
  have hcount := h.starts
  cases hs
  case stringsMade hphase =>
    have hmade : ∀ p, strings config = p → Held (es ++ [.tau]) { s with phase := p } := by
      intro p hp
      rw [strings_eq hnul] at hp
      split at hp <;> subst hp <;>
        exact h.along hphase rfl (fun hs => by cases hs) rfl rfl (fun hs => by cases hs)
    exact hmade _ rfl
  case exeRootless executable hphase hhelper =>
    -- An executable lies in a directory.
    rw [helperBeside, if_neg (hexe executable rfl)] at hhelper
    cases hhelper
  case initialized hphase hstatus =>
    exact h.initialized hphase (by rw [hstatus]; rfl) rfl (fun hs => by cases hs)
  case initializeFailed hphase hstatus =>
    exact h.initialized hphase (beq_false_of_ne hstatus).symm rfl (fun hs => by cases hs)
  case signalsOpened helper hphase =>
    rw [hphase] at hup hlistener
    exact ⟨h.sane, hup, hlistener, rfl, fun hs => (by cases hs),
      h.starts_along hphase rfl rfl rfl, fun hs => (by cases hs)⟩
  case bound hphase =>
    rw [hphase] at hup hsignals
    have hone := h.single (by rw [hphase]; rfl)
    exact ⟨h.sane, hup, rfl, hsignals, fun _ => List.mem_append_left _ hone,
      h.starts_along hphase rfl rfl rfl, fun hs => (by cases hs)⟩
  case listenerDropped result hphase =>
    rw [hphase] at hup hsignals
    exact ⟨h.sane, hup, rfl, hsignals, fun hs => (by cases hs),
      h.starts_along hphase rfl rfl rfl, fun hs => (by cases hs)⟩
  case shutDown result hphase =>
    rw [hphase] at hlistener hsignals hcount
    exact ⟨sane_shutdown h.sane, shutdown_down _, hlistener, hsignals, fun hs => (by cases hs),
      by simpa [List.countP_append, Event.starts, Event.shutsDown, Phase.up] using hcount,
      fun hs => (by cases hs)⟩
  case signalsDropped result hphase =>
    rw [hphase] at hup hlistener
    exact ⟨h.sane, hup, hlistener, rfl, fun hs => (by cases hs),
      h.starts_along hphase rfl rfl rfl, fun hs => (by cases hs)⟩
  case exeFound executable path hphase hhelper =>
    exact h.along hphase rfl (fun hs => by cases hs) rfl rfl (fun hs => by cases hs)
  case helperNul path helper hphase hhelper =>
    exact h.along hphase rfl (fun hs => by cases hs) rfl rfl (fun hs => by cases hs)
  case helperFound path helper hphase hhelper =>
    exact h.along hphase rfl (fun hs => by cases hs) rfl rfl (fun hs => by cases hs)
  case singleTask hphase =>
    exact h.along hphase rfl (fun _ => Or.inr rfl) rfl rfl (fun hs => by cases hs)
  case moreTasks tasks hphase htasks =>
    exact h.along hphase rfl (fun hs => by cases hs) rfl rfl (fun hs => by cases hs)
  case entered t hphase =>
    exact h.along hphase rfl (fun _ => Or.inl rfl) rfl rfl (fun hs => by cases hs)
  case supervised e m hphase hstep =>
    have hkeep : Held (es ++ [.supervise e]) { s with manager := m, phase := .supervise } :=
      h.along hphase rfl Or.inl rfl rfl (fun hs => by cases hs)
    rwa [← hphase] at hkeep
  case superviseReturned hphase hfinished =>
    exact h.along hphase rfl (fun _ => Or.inl rfl) rfl rfl (fun hs => by cases hs)
  -- The other calls are failures and an open descriptor of the working directory.
  all_goals
    rename_i hphase
    exact h.along hphase rfl (fun hs => by cases hs) rfl rfl (fun hs => by cases hs)

/-! ## What PHP is handed -/

/-- The process looks for the preload helper. -/
def Phase.seeks : Phase → Bool
  | .currentExe | .canonicalize _ => true
  | _ => false

/-- The preload helper that has been found, or that there is none. -/
def Phase.helper : Phase → Option (Option Bytes)
  | .setCurrentDir helper | .signalFd helper | .polyInitialize helper => some helper
  | _ => none

/-- The helper is a C string, and there is one exactly if something is preloaded. -/
structure Helper (config : Config) (helper : Option Bytes) : Prop where
  isSome : helper.isSome = config.preload
  nulFree : ∀ path, helper = some path → 0 ∉ path

/-- What {lit}`poly_initialize` has been handed, and will be. -/
structure Handed (config : Config) (es : List Event) (s : State) : Prop where
  wanted : s.phase.seeks = true → config.preload = true
  found : ∀ helper, s.phase.helper = some helper → Helper config helper
  handed : ∀ args user startUp, .polyInitialize args user startUp ∈ es →
    ∃ helper, args = arguments config helper ∧ Helper config helper

/-- A call other than {lit}`poly_initialize` hands nothing over. -/
theorem Handed.along {config : Config} {es : List Event} {s s' : State} {e : Event}
    (h : Handed config es s) (hseeks : s'.phase.seeks = true → config.preload = true)
    (hhelper : ∀ helper, s'.phase.helper = some helper → Helper config helper)
    (he : ∀ args user startUp, e ≠ .polyInitialize args user startUp) :
    Handed config (es ++ [e]) s' where
  wanted := hseeks
  found := hhelper
  handed args user startUp hmem := by
    rcases List.mem_append.mp hmem with hmem | hmem
    · exact h.handed args user startUp hmem
    · exact absurd (List.mem_singleton.mp hmem).symm (he args user startUp)

/-- Nothing is looked for and nothing has been found. -/
theorem Handed.past {config : Config} {es : List Event} {s s' : State} {e : Event}
    (h : Handed config es s) (hseeks : s'.phase.seeks = false) (hhelper : s'.phase.helper = none)
    (he : ∀ args user startUp, e ≠ .polyInitialize args user startUp) :
    Handed config (es ++ [e]) s' :=
  h.along (fun hs => by rw [hseeks] at hs; cases hs)
    (fun helper hs => by rw [hhelper] at hs; cases hs) he

/-- What {lit}`poly_initialize` is handed. -/
theorem Handed.initialized {config : Config} {es : List Event} {s s' : State}
    {helper user : Option Bytes} {startUp : StartUp} (h : Handed config es s)
    (hphase : s.phase = .polyInitialize helper) (hseeks : s'.phase.seeks = false)
    (hhelper : s'.phase.helper = none) :
    Handed config (es ++ [.polyInitialize (arguments config helper) user startUp]) s' where
  wanted hs := by rw [hseeks] at hs; cases hs
  found helper hs := by rw [hhelper] at hs; cases hs
  handed args user' startUp' hmem := by
    rcases List.mem_append.mp hmem with hmem | hmem
    · exact h.handed args user' startUp' hmem
    · obtain ⟨rfl, -, -⟩ := Event.polyInitialize.inj (List.mem_singleton.mp hmem)
      exact ⟨helper, rfl, h.found helper (by rw [hphase]; rfl)⟩

/-- Every call keeps the account of what was handed over. -/
theorem handed_step {describe : Errno → Bytes} {config : Config} {es : List Event}
    {s s' : State} {e : Event} (hnul : NulFree config) (h : Handed config es s)
    (hs : Step describe config s e s') : Handed config (es ++ [e]) s' := by
  cases hs
  case stringsMade hphase =>
    have hmade : ∀ p, strings config = p →
        Handed config (es ++ [.tau]) { s with phase := p } := by
      intro p hp
      rw [strings_eq hnul] at hp
      split at hp <;> subst hp
      case isTrue hpreload =>
        exact h.along (fun _ => hpreload) (fun _ hh => by cases hh) (fun _ _ _ hh => by cases hh)
      case isFalse hpreload =>
        refine h.along (fun hh => by cases hh) ?_ (fun _ _ _ hh => by cases hh)
        rintro _ ⟨⟩
        exact ⟨by simpa using hpreload, fun _ hh => by cases hh⟩
    exact hmade _ rfl
  case exeFound executable path hphase hhelper =>
    exact h.along (fun _ => h.wanted (by rw [hphase]; rfl)) (fun _ hh => by cases hh)
      (fun _ _ _ hh => by cases hh)
  case helperFound path helper hphase hhelper =>
    refine h.along (fun hh => by cases hh) ?_ (fun _ _ _ hh => by cases hh)
    rintro _ ⟨⟩
    refine ⟨(h.wanted (by rw [hphase]; rfl)).symm, ?_⟩
    rintro _ ⟨⟩
    exact hhelper
  case dirSet helper hphase =>
    refine h.along (fun hh => by cases hh) ?_ (fun _ _ _ hh => by cases hh)
    rintro _ ⟨⟩
    exact h.found helper (by rw [hphase]; rfl)
  case signalsOpened helper hphase =>
    refine h.along (fun hh => by cases hh) ?_ (fun _ _ _ hh => by cases hh)
    rintro _ ⟨⟩
    exact h.found helper (by rw [hphase]; rfl)
  case initialized helper user startUp hphase hstatus => exact h.initialized hphase rfl rfl
  case initializeFailed helper user startUp hphase hstatus => exact h.initialized hphase rfl rfl
  case supervised e m hphase hstep =>
    exact h.along h.wanted h.found (fun _ _ _ hh => by cases hh)
  all_goals exact h.past rfl rfl (fun _ _ _ hh => by cases hh)

/-! ## The supervisor -/

/-- The calls of the supervisor are a run of the manager, and the result is its
result unless the manager has not been reached. -/
structure Supervised (describe : Errno → Bytes) (config : Config) (es : List Event)
    (s : State) : Prop where
  unreached : s.phase.early = true → es.filterMap Event.managed = []
  run : ∃ t, LabelledMachine.exec (Manager.supervised config) (Manager.initial t)
    (es.filterMap Event.managed) = some s.manager
  result : ∀ result, s.phase.result = some result →
    (s.manager.1.phase = .finished ∧ result = superviseResult describe s.manager.1) ∨
      (es.filterMap Event.managed = [] ∧ ∃ e, result = .error e)

section Supervised

variable {describe : Errno → Bytes} {config : Config} {es : List Event} {s s' : State}
  {e : Event}

/-- A call that is not the supervisor's own. -/
theorem Supervised.along (h : Supervised describe config es s) (he : e.managed = none)
    (hmanager : s'.manager = s.manager)
    (hearly : s'.phase.early = true → s.phase.early = true)
    (hresult : ∀ result, s'.phase.result = some result → s.phase.result = some result ∨
      (s.manager.1.phase = .finished ∧ result = superviseResult describe s.manager.1) ∨
      (s.phase.early = true ∧ ∃ e, result = .error e)) :
    Supervised describe config (es ++ [e]) s' := by
  have hcalls : (es ++ [e]).filterMap Event.managed = es.filterMap Event.managed := by
    simp [List.filterMap_append, he]
  constructor
  case unreached => exact fun hs => hcalls.trans (h.unreached (hearly hs))
  case run => rw [hcalls, hmanager]; exact h.run
  case result =>
    intro result hs
    rw [hcalls, hmanager]
    rcases hresult result hs with hsame | hfinished | ⟨hs, herror⟩
    · exact h.result result hsame
    · exact Or.inl hfinished
    · exact Or.inr ⟨h.unreached hs, herror⟩

/-- A call before the supervisor: it fails or goes on. -/
theorem Supervised.before {p : Phase} (h : Supervised describe config es s)
    (hphase : s.phase = p) (hp : p.early = true) (he : e.managed = none)
    (hmanager : s'.manager = s.manager)
    (hresult : s'.phase.result = none ∨ ∃ e, s'.phase.result = some (.error e)) :
    Supervised describe config (es ++ [e]) s' := by
  subst hphase
  refine h.along he hmanager (fun _ => hp) fun result hs => Or.inr (Or.inr ⟨hp, ?_⟩)
  rcases hresult with hnone | ⟨e, herror⟩
  · rw [hnone] at hs
    cases hs
  · rw [herror] at hs
    exact ⟨e, (Option.some.inj hs).symm⟩

/-- Every call keeps the run of the manager a run. -/
theorem supervised_step (h : Supervised describe config es s)
    (hs : Step describe config s e s') : Supervised describe config (es ++ [e]) s' := by
  cases hs
  case stringsMade hphase =>
    have hstrings : (strings config).result = none ∨
        ∃ e, (strings config).result = some (.error e) := by
      unfold strings
      split
      · exact Or.inr ⟨_, rfl⟩
      split
      · exact Or.inr ⟨_, rfl⟩
      split
      · exact Or.inl rfl
      · split <;> exact Or.inl rfl
    exact h.before hphase rfl rfl rfl hstrings
  case entered t hphase =>
    have hnone := h.unreached (by rw [hphase]; rfl)
    have hcalls : (es ++ [Event.now t]).filterMap Event.managed = [] := by
      simp [List.filterMap_append, hnone, Event.managed]
    exact ⟨fun hs => (by cases hs), ⟨t, by rw [hcalls]; rfl⟩, fun _ hs => (by cases hs)⟩
  case supervised e m hphase hstep =>
    obtain ⟨t, hrun⟩ := h.run
    have hcalls : (es ++ [Event.supervise e]).filterMap Event.managed =
        es.filterMap Event.managed ++ [e] := by
      simp [List.filterMap_append, Event.managed]
    refine ⟨fun hs => ?_, ⟨t, ?_⟩, fun _ hs => ?_⟩
    · rw [hphase] at hs
      cases hs
    · rw [hcalls]
      exact LabelledMachine.exec_concat hrun hstep
    · rw [hphase] at hs
      cases hs
  case superviseReturned hphase hfinished =>
    refine h.along rfl rfl (fun hs => by cases hs) ?_
    rintro _ ⟨⟩
    exact Or.inr (Or.inl ⟨hfinished, rfl⟩)
  case listenerDropped result hphase =>
    refine h.along rfl rfl (fun hs => by cases hs) ?_
    rintro _ ⟨⟩
    exact Or.inl (by rw [hphase]; rfl)
  case shutDown result hphase =>
    refine h.along rfl rfl (fun hs => by cases hs) ?_
    rintro _ ⟨⟩
    exact Or.inl (by rw [hphase]; rfl)
  case signalsDropped result hphase =>
    refine h.along rfl rfl (fun hs => by cases hs) ?_
    rintro _ ⟨⟩
    exact Or.inl (by rw [hphase]; rfl)
  case exeRootless executable hphase hhelper => exact h.before hphase rfl rfl rfl (Or.inl rfl)
  case exeFound executable path hphase hhelper => exact h.before hphase rfl rfl rfl (Or.inl rfl)
  case helperNul path helper hphase hhelper =>
    exact h.before hphase rfl rfl rfl (Or.inr ⟨_, rfl⟩)
  case helperFound path helper hphase hhelper =>
    exact h.before hphase rfl rfl rfl (Or.inl rfl)
  case initialized helper user startUp hphase hstatus =>
    exact h.before hphase rfl rfl rfl (Or.inl rfl)
  case initializeFailed helper user startUp hphase hstatus =>
    exact h.before hphase rfl rfl rfl (Or.inr ⟨_, rfl⟩)
  case moreTasks tasks hphase htasks => exact h.before hphase rfl rfl rfl (Or.inr ⟨_, rfl⟩)
  all_goals
    rename_i hphase
    first
    | exact h.before hphase rfl rfl rfl (Or.inl rfl)
    | exact h.before hphase rfl rfl rfl (Or.inr ⟨_, rfl⟩)

/-- The manager has not begun. -/
theorem supervised_initial : Supervised describe config [] initial :=
  ⟨fun _ => rfl, ⟨0, rfl⟩, fun _ hs => by cases hs⟩

/-- Outside {lit}`supervise` the process has no child. -/
theorem Supervised.childless (h : Supervised describe config es s)
    (hphase : s.phase ≠ .supervise) : s.manager.2.children = ∅ := by
  obtain ⟨t, hrun⟩ := h.run
  have hnone : es.filterMap Event.managed = [] → s.manager.2.children = ∅ := by
    intro hnil
    rw [hnil, LabelledMachine.exec_nil, Option.some.injEq] at hrun
    rw [← hrun]
    rfl
  cases hearly : s.phase.early with
  | true => exact hnone (h.unreached hearly)
  | false =>
      have hresult : ∃ result, s.phase.result = some result := by
        generalize hp : s.phase = p at hphase hearly
        cases p <;> first | exact ⟨_, rfl⟩ | exact absurd rfl hphase | cases hearly
      obtain ⟨result, hresult⟩ := hresult
      rcases h.result result hresult with ⟨hfinished, -⟩ | ⟨hnil, -⟩
      · exact (Manager.run_tracks hrun).laws.returned hfinished
      · exact hnone hnil

end Supervised

/-! ## Whole runs -/

/-- What holds of the process at any point of {lit}`run`. -/
structure RunLaws (config : Config) (es : List Event) (s : State) : Prop where
  /-- None of the values that are unwrapped is missing. -/
  whole : s.phase ≠ .panicked
  /-- What PHP is handed is the configuration and the helper, in strings of C. -/
  handed : ∀ args user startUp, .polyInitialize args user startUp ∈ es →
    ∃ helper, args = arguments config helper ∧ Helper config helper ∧ NulFree config
  /-- Children are forked from one thread, with PHP, its hooks and the descriptors in
  place. -/
  children : s.manager.2.children.Nonempty →
    s.runtime.runtimeInitialized = true ∧ s.runtime.importHook = .polychrome ∧
      s.runtime.loadHook = .polychrome ∧ s.listener = true ∧ s.signals = true ∧
      Event.readTasks (.ok 1) ∈ es
  shutDown : es.countP Event.starts =
    es.countP Event.shutsDown + s.runtime.runtimeInitialized.toNat
  returned : ∀ result, s.phase = .returned result →
    s.runtime.runtimeInitialized = false ∧ s.runtime.importHook = .php ∧
      s.runtime.loadHook = .php ∧ s.listener = false ∧ s.signals = false ∧
      s.manager.2.children = ∅ ∧ es.countP Event.starts = es.countP Event.shutsDown

/-- The manager's part of every run is a run of the manager. -/
theorem run_supervised {describe : Errno → Bytes} {config : Config} {es : List Event}
    {s : State} (hrun : LabelledMachine.exec (step describe config) initial es = some s) :
    Supervised describe config es s :=
  LabelledMachine.exec_history_induction (P := Supervised describe config) supervised_initial
    (fun _ _ _ _ _ h hstep => supervised_step h (step_cases hstep)) hrun

/-- The accounts hold along every run. -/
theorem run_held {describe : Errno → Bytes} {config : Config} (hnul : NulFree config)
    {es : List Event} {s : State} (hexe : ∀ p, .currentExe (.ok p) ∈ es → p ≠ [])
    (hrun : LabelledMachine.exec (step describe config) initial es = some s) :
    Held es s ∧ Handed config es s := by
  revert hexe
  refine LabelledMachine.exec_history_induction
    (P := fun es s => (∀ p, .currentExe (.ok p) ∈ es → p ≠ []) → Held es s ∧ Handed config es s)
    ?_ ?_ hrun
  · intro _
    exact ⟨held_initial, fun hs => (by cases hs), fun _ hs => (by cases hs),
      fun _ _ _ hs => (by cases hs)⟩
  · intro es s e s' _ h hstep hexe
    obtain ⟨hheld, hhanded⟩ := h fun p hp => hexe p (List.mem_append_left _ hp)
    refine ⟨held_step hnul (fun p hp => hexe p ?_) hheld (step_cases hstep),
      handed_step hnul hhanded (step_cases hstep)⟩
    exact hp ▸ List.mem_append_right _ (List.mem_singleton_self _)

/-- Whatever {lit}`run` meets, it neither panics nor hands PHP a broken string; it has
children only while PHP is up, the listener bound and the signals read, in one thread;
and it returns with all of that given back, PHP's own hooks included. -/
theorem run_gives_back (host : Host) (args : List Bytes) (c : Config)
    (hparse : parse host args = .ok (.serve c)) (describe : Errno → Bytes) (es : List Event)
    (s : State) (hexe : ∀ p, .currentExe (.ok p) ∈ es → p ≠ [])
    (hrun : LabelledMachine.exec (step describe c) initial es = some s) : RunLaws c es s := by
  have hnul := nulFree_of_parse hparse
  obtain ⟨hheld, hhanded⟩ := run_held hnul hexe hrun
  have hsupervised := run_supervised hrun
  constructor
  case whole => exact hheld.whole
  case handed =>
    intro args user startUp hmem
    obtain ⟨helper, hargs, hhelper⟩ := hhanded.handed args user startUp hmem
    exact ⟨helper, hargs, hhelper, hnul⟩
  case children =>
    intro hchildren
    have hphase : s.phase = .supervise := by
      by_contra hphase
      rw [hsupervised.childless hphase] at hchildren
      exact Finset.not_nonempty_empty hchildren
    have hup : s.runtime.runtimeInitialized = true := by rw [hheld.up, hphase]; rfl
    refine ⟨hup, ?_, ?_, ?_, ?_, hheld.single (by rw [hphase]; rfl)⟩
    · rw [hheld.sane.importHook, if_pos hup]
    · rw [hheld.sane.loadHook, if_pos hup]
    · rw [hheld.listener, hphase]; rfl
    · rw [hheld.signals, hphase]; rfl
  case shutDown => rw [hheld.up]; exact hheld.starts
  case returned =>
    intro result hphase
    have hdown : s.runtime.runtimeInitialized = false := by rw [hheld.up, hphase]; rfl
    refine ⟨hdown, ?_, ?_, ?_, ?_, hsupervised.childless ?_, ?_⟩
    · rw [hheld.sane.importHook, hdown]; rfl
    · rw [hheld.sane.loadHook, hdown]; rfl
    · rw [hheld.listener, hphase]; rfl
    · rw [hheld.signals, hphase]; rfl
    · rw [hphase]
      intro hs
      cases hs
    · rw [hheld.starts, hphase]; rfl

/-- The supervisor's calls when the second child cannot be set up and the poll fails. -/
def brokenService : List Manager.Event :=
  [.now 0, .tau, .socketpair (.ok (5, 6)), .fork (.ok 7), .close 6, .now 1, .tau,
    .socketpair (.error 24), .now 2, .poll (.error 12), .now 3, .recv 7 5 none, .tau, .read none,
    .clockGettime 2, .now 4, .kill 7 .sigkill, .tau, .waitpid (some (7, .signaled .sigkill)),
    .now 5, .now 6, .close 5, .waitpid none, .tau]

/-- A process around it. -/
def brokenRun : List Event :=
  [.tau, .currentExe (.ok [named "bin", named "polychrome"]),
    .canonicalize (bytes "/bin/../share/polychrome/preload.php") (.ok [named "preload.php"]),
    .setCurrentDir (bytes "/") (.ok ()), .signalFd (.ok ()),
    .polyInitialize (arguments limitedConfig (some (bytes "/preload.php"))) (some (bytes "www"))
      .succeeded,
    .readTasks (.ok 1), .bind (bytes "127.0.0.1:9000") (.ok ()), .now 0] ++
  brokenService.map .supervise ++ [.tau, .dropListener, .shutdown, .dropSignals]

/-- The arguments parse to the configuration. -/
theorem limitedArgs_parse : parse wideHost limitedArgs = .ok (.serve limitedConfig) := by
  decide +kernel

/-- A service whose poll fails gives everything back and returns the error. -/
theorem run_gives_back_sample :
    ∃ s, LabelledMachine.exec (step (fun _ => bytes "Cannot allocate memory") limitedConfig)
        initial brokenRun = some s ∧
      s.phase = .returned (.error (bytes "Cannot allocate memory")) ∧
      s.manager.2.children = ∅ ∧ s.runtime.importHook = .php := by
  refine ⟨_, rfl, rfl, ?_⟩
  have hlaws := (run_gives_back wideHost limitedArgs limitedConfig limitedArgs_parse
    (fun _ => bytes "Cannot allocate memory") brokenRun _ ?_ rfl).returned _ rfl
  · exact ⟨hlaws.2.2.2.2.2.1, hlaws.2.1⟩
  · intro p hp
    simp only [brokenRun, List.cons_append, List.nil_append, List.mem_cons, reduceCtorEq,
      Event.currentExe.injEq, Except.ok.injEq, false_or, List.mem_append, List.mem_map,
      and_false, exists_false, or_false, List.not_mem_nil] at hp
    rw [hp]
    exact List.cons_ne_nil _ _

/-! ## The exit status -/

/-- {lit}`polychrome_main` ends with the status. -/
inductive Exits (host : Host) (args : List Bytes) (describe : Errno → Bytes) :
    List Event → Nat → Prop
  | atOnce {status : Nat} (h : polychromeMain host args = .inr status) :
      Exits host args describe [] status
  | afterRun {config : Config} {es : List Event} {s : State} {result : Result}
      (h : polychromeMain host args = .inl config)
      (hrun : LabelledMachine.exec (step describe config) initial es = some s)
      (hreturned : s.phase = .returned result) :
      Exits host args describe es (exitStatus result)

/-- Among its calls the supervisor was asked to end, and no poll failed. -/
def ServedOut (es : List Event) : Prop :=
  (es.filterMap Event.managed).any Manager.Event.asksToEnd = true ∧
    (es.filterMap Event.managed).filterMap Manager.Event.pollFailure = []

/-- The result is good exactly if the supervisor was asked to end and has not failed. -/
theorem Supervised.result_ok_iff {describe : Errno → Bytes} {config : Config}
    {es : List Event} {s : State} {result : Result} (h : Supervised describe config es s)
    (hresult : s.phase.result = some result) : result = .ok () ↔ ServedOut es := by
  obtain ⟨t, hrun⟩ := h.run
  rcases h.result result hresult with ⟨hfinished, rfl⟩ | ⟨hnil, e, rfl⟩
  · have hsettled := Manager.run_settled hrun
    have hasked : (es.filterMap Event.managed).any Manager.Event.asksToEnd = true := by
      rw [← hsettled.asked, hsettled.drained hfinished, Bool.true_or]
    rw [ServedOut, and_iff_right hasked, superviseResult, Manager.State.result, hsettled.fatal,
      ← List.getLast?_eq_none_iff]
    cases ((es.filterMap Event.managed).filterMap Manager.Event.pollFailure).getLast? <;>
      simp [Except.mapError]
  · rw [ServedOut, hnil]
    simp

/-- The exit status is 2 for a command line that is refused, 0 for help, the version and
a service that was asked to end, and 1 for a service that failed or never began. -/
theorem exit_status_tells (host : Host) (args : List Bytes) (describe : Errno → Bytes)
    (es : List Event) (status : Nat) (hexits : Exits host args describe es status) :
    (status = 2 ↔ ∃ e, parse host args = .error e) ∧
    (status = 0 ↔ parse host args = .ok .help ∨ parse host args = .ok .version ∨
      (∃ c, parse host args = .ok (.serve c)) ∧ ServedOut es) ∧
    (status = 1 ↔ (∃ c, parse host args = .ok (.serve c)) ∧ ¬ ServedOut es) := by
  cases hexits
  case atOnce h =>
    unfold polychromeMain at h
    split at h
    case h_1 hparse => cases h; simp [hparse]
    case h_2 hparse => cases h; simp [hparse]
    case h_3 => cases h
    case h_4 hparse => cases h; simp [hparse]
  case afterRun config s result h hreturned hrun =>
    unfold polychromeMain at h
    split at h
    case h_3 c hparse =>
      cases h
      have hiff := (run_supervised hrun).result_ok_iff (by rw [hreturned]; rfl)
      rw [hparse, ← hiff]
      rcases result with e | ⟨⟩ <;> simp [exitStatus]
    all_goals cases h

/-- A service whose poll fails exits with status 1. -/
theorem exit_status_tells_sample :
    Exits wideHost limitedArgs (fun _ => bytes "Cannot allocate memory") brokenRun 1 ∧
      ¬ ServedOut brokenRun := by
  have hexits : Exits wideHost limitedArgs (fun _ => bytes "Cannot allocate memory") brokenRun
      (exitStatus (.error (bytes "Cannot allocate memory"))) := by
    have hmain : polychromeMain wideHost limitedArgs = .inl limitedConfig := by
      rw [polychromeMain, limitedArgs_parse]
    obtain ⟨s, hrun, hreturned⟩ :
        ∃ s, LabelledMachine.exec (step (fun _ => bytes "Cannot allocate memory") limitedConfig)
          initial brokenRun = some s ∧
          s.phase = .returned (.error (bytes "Cannot allocate memory")) :=
      ⟨_, rfl, rfl⟩
    exact .afterRun hmain hrun hreturned
  exact ⟨hexits, ((exit_status_tells wideHost limitedArgs _ brokenRun 1 hexits).2.2.mp rfl).2⟩

end Zygote

end Polychrome
