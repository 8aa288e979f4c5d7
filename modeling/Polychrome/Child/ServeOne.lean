import Mathlib.Data.Finset.Basic
import Polychrome.Manager.Supervise

/-!
# One disposable child

This module embeds what a forked child does: the child's branch of
{lit}`spawn`, {lit}`poly_serve_one`, its signal handler and the two hooks it puts
into PHP's accept loop.  The code between two points at which a signal handler
can run is one step of a labelled machine.

The control flow of the main program is the partial function
{lit}`Phase.next`; the signal handler runs on top of it, in frames, and one
handler can interrupt another.  PHP itself is not part of the sources: its
accept loop calls {lit}`before_accept` before every accept and goes back there
after a connection that brings no readable request, it gives up on an accept
error other than {lit}`EINTR` and {lit}`ECONNABORTED`, it goes back or gives up
after a peer it refuses, and a bailout unwinds to the enclosing {lit}`zend_try`.

Main results:

- Definition {lit}`step`: one step of the child or of its environment.
- Inductive {lit}`Next` and theorem {lit}`next_cases`: the branches of the main
  program.
- Inductive {lit}`Step` and theorem {lit}`step_cases`: what one step can do.

Current gaps:

- The work of a request is one step; what it writes is left out.
-/

namespace Polychrome

/-- {lit}`ECONNABORTED` -/
def econnaborted : Errno := 103

/-- The signals that {lit}`drain_handler` is installed for. -/
def Signal.drains : Signal → Bool
  | .sigusr1 | .sigterm | .sigint => true
  | _ => false

/-- The signals that end a child whatever it does. -/
def Signal.fatal : Signal → Bool
  | .sigkill | .other _ => true
  | _ => false

namespace Child

/-- What {lit}`poly_serve_one` decides about a request it has read. -/
inductive Decision
  /-- 400 -/
  | invalid
  /-- 404 -/
  | notFound
  /-- 403 -/
  | outside
  | admitted
deriving DecidableEq, Repr

/-- The point the main program has reached, with the local variables alive
there. -/
inductive Phase
  /-- the manager's descriptors still to close -/
  | closeInherited (todo : List RawFd)
  | prctl
  /-- {lit}`getppid() != expected_parent` -/
  | getppid
  /-- the signals whose disposition is still to set -/
  | dispositions (todo : List Signal)
  /-- {lit}`sigprocmask(SIG_SETMASK, &mask, NULL)` -/
  | unmask
  | childInit
  | initRequest
  /-- {lit}`if (connection_active || drain_requested) _exit(0)` -/
  | beforeAccept
  | accept
  /-- {lit}`if (drain_requested || connection_active) _exit(0)` -/
  | connectionTest (fd : RawFd)
  /-- {lit}`connection_active = 1` -/
  | markActive (fd : RawFd)
  | setCloexec (fd : RawFd)
  | readClock
  | sendStamp (stamp : Nat)
  | readRequest
  | closeListener
  /-- the tests on the parameters of the request -/
  | examine
  /-- {lit}`protocol_error`, and the result that goes with it -/
  | refuse (result : Nat)
  | requestStartup
  | openScript
  | execute
  /-- the 404 of a script that cannot be opened -/
  | missingScript
  | requestShutdown (result : Nat)
  | finishRequest (result : Nat)
  /-- {lit}`poly_serve_one` has returned -/
  | returned (result : Nat)
  | terminated (status : WaitStatus)
deriving DecidableEq, Repr

/-- One run of {lit}`drain_handler`; {lit}`requested` says that it has set
{lit}`drain_requested`. -/
structure Frame where
  signal : Signal
  requested : Bool
deriving DecidableEq, Repr

/-- The variables of the child, its signal mask and the handlers under way, the
innermost first. -/
structure State where
  pending : Finset Signal
  blocked : Bool
  frames : List Frame
  drainRequested : Bool
  connectionActive : Bool
  phase : Phase

/-- One step, with the answer of the call it makes. -/
inductive Event
  /-- a process sends the child a signal -/
  | raise (signal : Signal)
  /-- the kernel starts the handler of a pending signal -/
  | deliver (signal : Signal)
  /-- the next statement of the innermost handler -/
  | handler
  /-- the child crashes or is killed -/
  | killed (signal : Signal)
  | tau
  | close (fd : RawFd)
  | prctl
  | getppid (unchanged : Bool)
  | sigaction (signal : Signal)
  | sigprocmask (delivered : Option Signal)
  | childInit
  | initRequest
  | accept (reply : Reply RawFd)
  /-- {lit}`connection_active = 1` -/
  | markActive
  | fcntl (fd : RawFd)
  | clockGettime (ns : Nat)
  | send (stamp : Nat) (sent : Bool)
  | readRequest (readable : Bool)
  /-- PHP closes the connection of a peer it refuses, and its accept loop gives up -/
  | refusePeer
  | closeListener
  | examine (decision : Decision)
  | protocolError
  | requestStartup (success : Bool)
  | openScript (success : Bool)
  | execute (exitStatus : Nat)
  | phpWrite
  | requestShutdown
  | finishRequest
  | bailout
deriving DecidableEq, Repr

/-! ## The main program -/

/-- Where a bailout leads: {lit}`result = 1`, then the clean-up of what has been
set up so far. -/
def Phase.bailout : Phase → Option Phase
  | .childInit | .initRequest => some (.returned 1)
  | .examine | .requestStartup => some (.finishRequest 1)
  | .openScript | .execute | .missingScript => some (.requestShutdown 1)
  | .requestShutdown _ => some (.finishRequest 1)
  | _ => none

/-- The control flow of the main program, the two calls that change its other
variables apart; {lit}`stop` is {lit}`connection_active || drain_requested`. -/
def Phase.next (stop : Bool) : Phase → Event → Option Phase
  | .closeInherited (fd :: todo), .close fd' =>
      if fd' = fd then some (.closeInherited todo) else none
  | .closeInherited [], .tau => some .prctl
  | .prctl, .prctl => some .getppid
  | .getppid, .getppid true => some (.dispositions [.sigusr1, .sigterm, .sigint, .sigchld])
  | .getppid, .getppid false => some (.terminated (.exited 1))
  | .dispositions (signal :: todo), .sigaction signal' =>
      if signal' = signal then some (.dispositions todo) else none
  | .dispositions [], .tau => some .unmask
  | .childInit, .childInit => some .initRequest
  | .initRequest, .initRequest => some .beforeAccept
  | .beforeAccept, .tau => if stop then some (.terminated (.exited 0)) else some .accept
  | .accept, .accept (.ok fd) => some (.connectionTest fd)
  | .accept, .accept (.error errno) =>
      if errno = eintr ∨ errno = econnaborted then some .beforeAccept
      else some (.finishRequest 0)
  | .connectionTest fd, .tau =>
      if stop then some (.terminated (.exited 0)) else some (.markActive fd)
  | .setCloexec fd, .fcntl fd' => if fd' = fd then some .readClock else none
  | .readClock, .clockGettime ns => some (.sendStamp ns)
  | .sendStamp stamp, .send stamp' sent =>
      if stamp' = stamp then
        if sent then some .readRequest else some (.terminated (.exited 1))
      else none
  | .readRequest, .readRequest readable =>
      if readable then some .closeListener else some .beforeAccept
  | .readRequest, .refusePeer => some (.finishRequest 0)
  | .closeListener, .closeListener => some .examine
  | .examine, .examine decision =>
      if decision = .admitted then some .requestStartup else some (.refuse 0)
  | .refuse result, .protocolError => some (.finishRequest result)
  | .requestStartup, .requestStartup success =>
      if success then some .openScript else some (.refuse 1)
  | .openScript, .openScript success => if success then some .execute else some .missingScript
  | .execute, .execute exitStatus =>
      some (.requestShutdown (if exitStatus = 255 then 1 else 0))
  | .missingScript, .phpWrite => some (.requestShutdown 0)
  | .requestShutdown result, .requestShutdown => some (.finishRequest result)
  | .finishRequest result, .finishRequest => some (.returned result)
  | .returned result, .tau => some (.terminated (.exited result))
  | phase, .bailout => phase.bailout
  | _, _ => none

/-- The branches of the main program, one case each. -/
inductive Next (stop : Bool) : Phase → Event → Phase → Prop
  | inheritedClosed {fd : RawFd} {todo : List RawFd} :
      Next stop (.closeInherited (fd :: todo)) (.close fd) (.closeInherited todo)
  | inheritedDone : Next stop (.closeInherited []) .tau .prctl
  | deathSignalSet : Next stop .prctl .prctl .getppid
  | parentThere : Next stop .getppid (.getppid true)
      (.dispositions [.sigusr1, .sigterm, .sigint, .sigchld])
  | parentGone : Next stop .getppid (.getppid false) (.terminated (.exited 1))
  | dispositionSet {signal : Signal} {todo : List Signal} :
      Next stop (.dispositions (signal :: todo)) (.sigaction signal) (.dispositions todo)
  | dispositionsDone : Next stop (.dispositions []) .tau .unmask
  | childInitialized : Next stop .childInit .childInit .initRequest
  | requestInitialized : Next stop .initRequest .initRequest .beforeAccept
  | acceptBarred (hstop : stop = true) :
      Next stop .beforeAccept .tau (.terminated (.exited 0))
  | acceptCleared (hstop : stop = false) : Next stop .beforeAccept .tau .accept
  | accepted {fd : RawFd} : Next stop .accept (.accept (.ok fd)) (.connectionTest fd)
  | acceptRetried {errno : Errno} (herrno : errno = eintr ∨ errno = econnaborted) :
      Next stop .accept (.accept (.error errno)) .beforeAccept
  | acceptFailed {errno : Errno} (herrno : ¬ (errno = eintr ∨ errno = econnaborted)) :
      Next stop .accept (.accept (.error errno)) (.finishRequest 0)
  | connectionBarred {fd : RawFd} (hstop : stop = true) :
      Next stop (.connectionTest fd) .tau (.terminated (.exited 0))
  | connectionCleared {fd : RawFd} (hstop : stop = false) :
      Next stop (.connectionTest fd) .tau (.markActive fd)
  | cloexecSet {fd : RawFd} : Next stop (.setCloexec fd) (.fcntl fd) .readClock
  | clockRead {ns : Nat} : Next stop .readClock (.clockGettime ns) (.sendStamp ns)
  | stampSent {stamp : Nat} : Next stop (.sendStamp stamp) (.send stamp true) .readRequest
  | stampLost {stamp : Nat} :
      Next stop (.sendStamp stamp) (.send stamp false) (.terminated (.exited 1))
  | requestRead : Next stop .readRequest (.readRequest true) .closeListener
  | requestUnreadable : Next stop .readRequest (.readRequest false) .beforeAccept
  | peerRefused : Next stop .readRequest .refusePeer (.finishRequest 0)
  | listenerClosed : Next stop .closeListener .closeListener .examine
  | admitted : Next stop .examine (.examine .admitted) .requestStartup
  | refused {decision : Decision} (hdecision : decision ≠ .admitted) :
      Next stop .examine (.examine decision) (.refuse 0)
  | refusalWritten {result : Nat} :
      Next stop (.refuse result) .protocolError (.finishRequest result)
  | startedUp : Next stop .requestStartup (.requestStartup true) .openScript
  | startupFailed : Next stop .requestStartup (.requestStartup false) (.refuse 1)
  | scriptOpened : Next stop .openScript (.openScript true) .execute
  | scriptMissing : Next stop .openScript (.openScript false) .missingScript
  | executed {exitStatus result : Nat} (hresult : result = if exitStatus = 255 then 1 else 0) :
      Next stop .execute (.execute exitStatus) (.requestShutdown result)
  | missingWritten : Next stop .missingScript .phpWrite (.requestShutdown 0)
  | requestShutDown {result : Nat} :
      Next stop (.requestShutdown result) .requestShutdown (.finishRequest result)
  | requestFinished {result : Nat} :
      Next stop (.finishRequest result) .finishRequest (.returned result)
  | exited {result : Nat} :
      Next stop (.returned result) .tau (.terminated (.exited result))
  | initBailedOut {p : Phase} (hphase : p = .childInit ∨ p = .initRequest) :
      Next stop p .bailout (.returned 1)
  | startupBailedOut {p : Phase} (hphase : p = .examine ∨ p = .requestStartup) :
      Next stop p .bailout (.finishRequest 1)
  | scriptBailedOut {p : Phase} (hphase : p = .openScript ∨ p = .execute ∨ p = .missingScript) :
      Next stop p .bailout (.requestShutdown 1)
  | shutdownBailedOut {result : Nat} :
      Next stop (.requestShutdown result) .bailout (.finishRequest 1)

/-- A bailout leads to the clean-up of what has been set up so far. -/
theorem bailout_cases {stop : Bool} {p p' : Phase} (h : p.bailout = some p') :
    Next stop p .bailout p' := by
  unfold Phase.bailout at h
  split at h
  all_goals cases h
  · exact .initBailedOut (Or.inl rfl)
  · exact .initBailedOut (Or.inr rfl)
  · exact .startupBailedOut (Or.inl rfl)
  · exact .startupBailedOut (Or.inr rfl)
  · exact .scriptBailedOut (Or.inl rfl)
  · exact .scriptBailedOut (Or.inr (Or.inl rfl))
  · exact .scriptBailedOut (Or.inr (Or.inr rfl))
  · exact .shutdownBailedOut

/-- Every move of the main program is one of the branches. -/
theorem next_cases {stop : Bool} {p p' : Phase} {e : Event} (h : p.next stop e = some p') :
    Next stop p e p' := by
  unfold Phase.next at h
  split at h
  all_goals first | exact bailout_cases h | skip
  all_goals
    repeat' split at h
    all_goals first | (cases h; done) | skip
  all_goals
    simp only [Option.some.injEq] at h
    subst h
  all_goals try simp only [Bool.not_eq_true] at *
  all_goals subst_vars
  all_goals constructor <;> first | assumption | simp_all

/-- Every branch is a move of the main program. -/
theorem next_of_cases {stop : Bool} {p p' : Phase} {e : Event} (h : Next stop p e p') :
    p.next stop e = some p' := by
  cases h
  case initBailedOut hphase => rcases hphase with rfl | rfl <;> rfl
  case startupBailedOut hphase => rcases hphase with rfl | rfl <;> rfl
  case scriptBailedOut hphase => rcases hphase with rfl | rfl | rfl <;> rfl
  all_goals simp_all [Phase.next, Phase.bailout]

/-- The child has not terminated. -/
def Phase.live : Phase → Bool
  | .terminated _ => false
  | _ => true

/-! ## Signals -/

/-- A drain signal stays pending until its handler starts; one more of its kind
is merged with it. -/
def State.post (s : State) (signal : Signal) : State :=
  if s.phase.live && signal.drains then { s with pending := insert signal s.pending } else s

section Post

variable (s : State) (signal : Signal)

/-- A signal that is posted leaves the main program where it is. -/
@[simp]
theorem State.post_phase : (s.post signal).phase = s.phase := by
  unfold State.post
  split <;> rfl

/-- It starts no handler. -/
@[simp]
theorem State.post_frames : (s.post signal).frames = s.frames := by
  unfold State.post
  split <;> rfl

/-- It leaves the mask alone. -/
@[simp]
theorem State.post_blocked : (s.post signal).blocked = s.blocked := by
  unfold State.post
  split <;> rfl

/-- It asks for nothing by itself. -/
@[simp]
theorem State.post_drainRequested : (s.post signal).drainRequested = s.drainRequested := by
  unfold State.post
  split <;> rfl

/-- It leaves the mark alone. -/
@[simp]
theorem State.post_connectionActive : (s.post signal).connectionActive = s.connectionActive := by
  unfold State.post
  split <;> rfl

/-- What is pending was so before, or has been posted and drains. -/
theorem State.mem_post_pending {signal' : Signal} (h : signal' ∈ (s.post signal).pending) :
    signal' ∈ s.pending ∨ signal' = signal ∧ signal.drains = true := by
  unfold State.post at h
  split at h
  case isTrue hpost =>
    rw [Bool.and_eq_true] at hpost
    rcases Finset.mem_insert.mp h with rfl | hmem
    · exact Or.inr ⟨rfl, hpost.2⟩
    · exact Or.inl hmem
  case isFalse => exact Or.inl h

end Post

/-- The kernel starts the handler. -/
def State.enter (s : State) (signal : Signal) : State :=
  { s with
    pending := s.pending.erase signal
    frames := { signal := signal, requested := false } :: s.frames }

/-- {lit}`_exit(code)` -/
def State.exit (s : State) (code : Nat) : State := { s with phase := .terminated (.exited code) }

/-- One step of the child.  A handler blocks its own signal only, and the main
program waits for the handlers.  Lifting the mask lets one of the signals that
are pending through before it returns. -/
def step : LabelledMachine.Machine State Event := fun s e =>
  match e with
  | .raise signal => some (s.post signal)
  | .deliver signal =>
      if s.phase.live && !s.blocked && decide (signal ∈ s.pending) &&
          s.frames.all (fun frame => frame.signal != signal) then
        some (s.enter signal)
      else none
  | .handler =>
      if s.phase.live then
        match s.frames with
        | [] => none
        | frame :: frames =>
            if frame.requested then
              if s.connectionActive then some { s with frames := frames } else some (s.exit 0)
            else
              some { s with
                drainRequested := true
                frames := { frame with requested := true } :: frames }
      else none
  | .killed signal =>
      if s.phase.live && signal.fatal then
        some { s with phase := .terminated (.signaled signal) }
      else none
  | .sigprocmask delivered =>
      match s.frames, s.phase, delivered with
      | [], .unmask, none =>
          if s.pending = ∅ then some { s with blocked := false, phase := .childInit } else none
      | [], .unmask, some signal =>
          if signal ∈ s.pending then
            some ({ s with blocked := false, phase := .childInit }.enter signal)
          else none
      | _, _, _ => none
  | .markActive =>
      match s.frames, s.phase with
      | [], .markActive fd => some { s with connectionActive := true, phase := .setCloexec fd }
      | _, _ => none
  | e =>
      if s.frames = [] then
        (s.phase.next (s.connectionActive || s.drainRequested) e).map fun phase =>
          { s with phase := phase }
      else none

/-- A child right after {lit}`fork`: nothing is pending and the manager's mask
is inherited. -/
def start (inherited : List RawFd) : State where
  pending := ∅
  blocked := true
  frames := []
  drainRequested := false
  connectionActive := false
  phase := .closeInherited inherited

/-! ## What one step can do -/

/-- The ways a child moves on. -/
inductive Step (s : State) : Event → State → Prop
  | raised {signal : Signal} : Step s (.raise signal) (s.post signal)
  | delivered {signal : Signal} (hlive : s.phase.live = true) (hunblocked : s.blocked = false)
      (hpending : signal ∈ s.pending) (hframes : ∀ frame ∈ s.frames, frame.signal ≠ signal) :
      Step s (.deliver signal) (s.enter signal)
  | requested {signal : Signal} {frames : List Frame} (hlive : s.phase.live = true)
      (hframes : s.frames = { signal := signal, requested := false } :: frames) :
      Step s .handler
        { s with
          drainRequested := true
          frames := { signal := signal, requested := true } :: frames }
  | drained {signal : Signal} {frames : List Frame} (hlive : s.phase.live = true)
      (hframes : s.frames = { signal := signal, requested := true } :: frames)
      (hidle : s.connectionActive = false) : Step s .handler (s.exit 0)
  | resumed {signal : Signal} {frames : List Frame} (hlive : s.phase.live = true)
      (hframes : s.frames = { signal := signal, requested := true } :: frames)
      (hactive : s.connectionActive = true) : Step s .handler { s with frames := frames }
  | killed {signal : Signal} (hlive : s.phase.live = true)
      (hfatal : signal.fatal = true) :
      Step s (.killed signal) { s with phase := .terminated (.signaled signal) }
  | unmasked (hphase : s.phase = .unmask) (hframes : s.frames = []) (hpending : s.pending = ∅) :
      Step s (.sigprocmask none) { s with blocked := false, phase := .childInit }
  | unmaskedInto {signal : Signal} (hphase : s.phase = .unmask) (hframes : s.frames = [])
      (hpending : signal ∈ s.pending) :
      Step s (.sigprocmask (some signal))
        ({ s with blocked := false, phase := .childInit }.enter signal)
  | activated {fd : RawFd} (hphase : s.phase = .markActive fd) (hframes : s.frames = []) :
      Step s .markActive { s with connectionActive := true, phase := .setCloexec fd }
  | moved {e : Event} {phase : Phase} (hframes : s.frames = [])
      (hnext : Next (s.connectionActive || s.drainRequested) s.phase e phase) :
      Step s e { s with phase := phase }

/-- Every step is one of these. -/
theorem step_cases {s s' : State} {e : Event} (h : step s e = some s') : Step s e s' := by
  have hmoved : s.frames = [] →
      (s.phase.next (s.connectionActive || s.drainRequested) e).map
        (fun phase => { s with phase := phase }) = some s' → Step s e s' := by
    intro hframes hmap
    rcases Option.map_eq_some_iff.mp hmap with ⟨phase, hnext, rfl⟩
    exact .moved hframes (next_cases hnext)
  unfold step at h
  split at h
  case h_1 signal =>
    cases h
    exact .raised
  case h_2 signal =>
    split at h
    case isTrue hdeliver =>
      cases h
      simp only [Bool.and_eq_true, Bool.not_eq_true', decide_eq_true_eq, List.all_eq_true,
        bne_iff_ne] at hdeliver
      rcases hdeliver with ⟨⟨⟨hlive, hunblocked⟩, hpending⟩, hframes⟩
      exact .delivered hlive hunblocked hpending hframes
    case isFalse => cases h
  case h_3 =>
    split at h
    case isTrue hlive =>
      split at h
      case h_1 => cases h
      case h_2 frame frames hframes =>
        rcases frame with ⟨signal, requested⟩
        cases requested with
        | false =>
            cases h
            exact .requested hlive hframes
        | true =>
            by_cases hactive : s.connectionActive = true
            · rw [if_pos rfl, if_pos hactive] at h
              cases h
              exact .resumed hlive hframes hactive
            · rw [if_pos rfl, if_neg hactive] at h
              cases h
              exact .drained hlive hframes (Bool.not_eq_true _ ▸ hactive)
    case isFalse => cases h
  case h_4 signal =>
    split at h
    case isTrue hkilled =>
      cases h
      rw [Bool.and_eq_true] at hkilled
      exact .killed hkilled.1 hkilled.2
    case isFalse => cases h
  case h_5 delivered =>
    split at h
    case h_1 hframes hphase =>
      split at h
      case isTrue hpending =>
        cases h
        exact .unmasked hphase hframes hpending
      case isFalse => cases h
    case h_2 signal hframes hphase =>
      split at h
      case isTrue hpending =>
        cases h
        exact .unmaskedInto hphase hframes hpending
      case isFalse => cases h
    case h_3 => cases h
  case h_6 =>
    split at h
    case h_1 fd hframes hphase =>
      cases h
      exact .activated hphase hframes
    case h_2 => cases h
  case h_7 =>
    split at h
    case isTrue hframes => exact hmoved hframes h
    case isFalse => cases h

/-- The moves of the main program are steps. -/
theorem step_of_next {s : State} {e : Event} {phase : Phase} (hframes : s.frames = [])
    (hnext : Next (s.connectionActive || s.drainRequested) s.phase e phase) :
    step s e = some { s with phase := phase } := by
  have hmoves := next_of_cases hnext
  unfold step
  split
  case h_7 => rw [if_pos hframes, hmoves]; rfl
  -- The other labels are not the main program's.
  all_goals
    exfalso
    generalize s.phase = p at hnext
    cases hnext

/-- An uncaught signal ends every live child. -/
theorem step_of_killed {s : State} {signal : Signal} (hlive : s.phase.live = true)
    (hfatal : signal.fatal = true) :
    step s (.killed signal) = some { s with phase := .terminated (.signaled signal) } := by
  simp [step, hlive, hfatal]

end Child

end Polychrome
