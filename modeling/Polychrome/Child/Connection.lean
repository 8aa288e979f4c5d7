import Polychrome.Child.Drain

/-!
# The one connection of a child

A child may take one connection from the listen queue, start one request for it
and answer it.  This module counts these steps in a child's run and says how
each run that has ended came to its end.

Main results:

- Theorem {lit}`run_takes` and theorem {lit}`run_starts`: at most one connection
  and at most one request.
- Theorem {lit}`status_abnormal_iff`: how an undisturbed child that never had a
  connection reports its end.
- Theorem {lit}`answered_iff`: what a child that took a connection needs to
  answer it.
- Theorem {lit}`unstuck` and theorem {lit}`serving_bounded`: a live child can always
  go on, and an active one has few steps left.
-/

namespace Polychrome

namespace Child

/-! ## Steps that matter -/

/-- A connection leaves the listen queue. -/
def Event.takes : Event → Bool
  | .accept (.ok _) => true
  | _ => false

/-- PHP starts a request. -/
def Event.starts : Event → Bool
  | .requestStartup _ => true
  | _ => false

/-- An accept error that PHP's accept loop does not retry. -/
def Event.givesUp : Event → Bool
  | .accept (.error errno) => !(errno == eintr || errno == econnaborted)
  | _ => false

/-- The accept stamp is sent. -/
def Event.stamps : Event → Bool
  | .send _ sent => sent
  | _ => false

/-- The accept stamp cannot be sent. -/
def Event.losesStamp : Event → Bool
  | .send _ sent => !sent
  | _ => false

/-- The connection brings no readable request. -/
def Event.unreadable : Event → Bool
  | .readRequest readable => !readable
  | _ => false

/-- PHP refuses the peer. -/
def Event.refuses : Event → Bool
  | .refusePeer => true
  | _ => false

/-- The response is complete. -/
def Event.finishes : Event → Bool
  | .finishRequest => true
  | _ => false

/-- The child crashes or is killed. -/
def Event.kills : Event → Bool
  | .killed _ => true
  | _ => false

/-- A drain signal is sent to the child. -/
def Event.disturbs : Event → Bool
  | .raise signal => signal.drains
  | _ => false

/-- {lit}`accept` has returned a connection that is not marked active yet. -/
def Phase.holding : Phase → Bool
  | .connectionTest _ | .markActive _ => true
  | _ => false

/-- The request of the child has not been started. -/
def Phase.beforeRequest : Phase → Bool
  | .refuse _ | .openScript | .execute | .missingScript | .requestShutdown _ | .finishRequest _
  | .returned _ | .terminated _ => false
  | _ => true

/-! ## At most one connection, at most one request -/

/-- Only {lit}`accept` brings a connection to the main program. -/
theorem holding_of_next {stop : Bool} {p p' : Phase} {e : Event} (h : Next stop p e p') :
    (p = .accept ∧ e.takes = true ∧ p'.holding = true) ∨
      (e.takes = false ∧ (p'.live = true → p'.holding = p.holding)) := by
  cases h
  case accepted => exact Or.inl ⟨rfl, rfl, rfl⟩
  case initBailedOut hphase => rcases hphase with rfl | rfl <;> exact Or.inr ⟨rfl, fun _ => rfl⟩
  case startupBailedOut hphase =>
    rcases hphase with rfl | rfl <;> exact Or.inr ⟨rfl, fun _ => rfl⟩
  case scriptBailedOut hphase =>
    rcases hphase with rfl | rfl | rfl <;> exact Or.inr ⟨rfl, fun _ => rfl⟩
  case connectionBarred => exact Or.inr ⟨rfl, fun hlive => (by cases hlive)⟩
  all_goals exact Or.inr ⟨rfl, fun _ => rfl⟩

/-- A request is started in one phase, and nothing leads back before it. -/
theorem starts_of_next {stop : Bool} {p p' : Phase} {e : Event} (h : Next stop p e p') :
    (p = .requestStartup ∧ e.starts = true ∧ p'.beforeRequest = false) ∨
      (e.starts = false ∧ (p'.beforeRequest = true → p.beforeRequest = true)) := by
  cases h
  case startedUp => exact Or.inl ⟨rfl, rfl, rfl⟩
  case startupFailed => exact Or.inl ⟨rfl, rfl, rfl⟩
  case initBailedOut hphase => exact Or.inr ⟨rfl, fun hbefore => (by cases hbefore)⟩
  case startupBailedOut hphase => exact Or.inr ⟨rfl, fun hbefore => (by cases hbefore)⟩
  case scriptBailedOut hphase => exact Or.inr ⟨rfl, fun hbefore => (by cases hbefore)⟩
  all_goals first
    | exact Or.inr ⟨rfl, fun _ => rfl⟩
    | exact Or.inr ⟨rfl, fun hbefore => (by cases hbefore)⟩

/-- The number of connections taken, as the phase and the flag know it. -/
structure Takes (es : List Event) (s : State) : Prop where
  le_one : es.countP Event.takes ≤ 1
  count : s.phase.live = true →
    es.countP Event.takes = if s.connectionActive || s.phase.holding then 1 else 0

/-- A step that takes no connection and moves no further in the window. -/
theorem Takes.steady {es : List Event} {s s' : State} {e : Event} (h : Takes es s)
    (htakes : e.takes = false) (hlive : s'.phase.live = true → s.phase.live = true)
    (hkept : s'.phase.live = true →
      (s'.connectionActive || s'.phase.holding) = (s.connectionActive || s.phase.holding)) :
    Takes (es ++ [e]) s' where
  le_one := by simpa [List.countP_append, htakes] using h.le_one
  count hafter := by
    rw [hkept hafter, ← h.count (hlive hafter)]
    simp [List.countP_append, htakes]

/-- The account of the connections is kept by every step. -/
theorem takes_step {es : List Event} {s s' : State} {e : Event} (h : Takes es s)
    (hflags : Flags s) (hs : Step s e s') : Takes (es ++ [e]) s' := by
  cases hs
  case raised signal => exact h.steady rfl (by simp) (by simp)
  case delivered => exact h.steady rfl id fun _ => rfl
  case requested => exact h.steady rfl id fun _ => rfl
  case drained => exact h.steady rfl (fun hlive => (by cases hlive)) fun hlive => (by cases hlive)
  case resumed => exact h.steady rfl id fun _ => rfl
  case killed => exact h.steady rfl (fun hlive => (by cases hlive)) fun hlive => (by cases hlive)
  case unmasked hphase _ _ =>
    exact h.steady rfl (by simp [hphase, Phase.live]) (by simp [hphase, Phase.holding])
  case unmaskedInto hphase _ _ =>
    exact h.steady rfl (by simp [hphase, Phase.live])
      (by simp [hphase, Phase.holding, State.enter])
  case activated hphase _ =>
    exact h.steady rfl (by simp [hphase, Phase.live]) (by simp [hphase, Phase.holding])
  case moved phase hframes hnext =>
    have hlive := live_of_next hnext
    rcases holding_of_next hnext with ⟨hphase, htakes, hholding⟩ | ⟨htakes, hholding⟩
    · have hidle := hflags.idle (by rw [hphase]; rfl)
      have hnone : es.countP Event.takes = 0 := by
        rw [h.count hlive, hidle, hphase]
        rfl
      constructor
      · simp [List.countP_append, hnone, htakes]
      · simp [List.countP_append, hnone, htakes, hholding]
    · apply h.steady htakes (fun _ => hlive)
      intro hafter
      rw [hholding hafter]

/-- In every run a child takes one connection at most. -/
theorem run_takes {inherited : List RawFd} {es : List Event} {s : State}
    (hrun : LabelledMachine.exec step (start inherited) es = some s) : Takes es s := by
  refine LabelledMachine.exec_history_induction (P := Takes)
    ⟨by simp, by simp [start, Phase.holding]⟩ ?_ hrun
  intro es s e s' hprefix h hstep
  exact takes_step h (run_flags hprefix) (step_cases hstep)

/-- The number of requests started, as the phase knows it. -/
structure Starts (es : List Event) (s : State) : Prop where
  le_one : es.countP Event.starts ≤ 1
  before : s.phase.beforeRequest = true → es.countP Event.starts = 0

/-- A step that starts no request keeps the account of the starts. -/
theorem Starts.steady {es : List Event} {s s' : State} {e : Event} (h : Starts es s)
    (hstarts : e.starts = false)
    (hbefore : s'.phase.beforeRequest = true → s.phase.beforeRequest = true) :
    Starts (es ++ [e]) s' where
  le_one := by simpa [List.countP_append, hstarts] using h.le_one
  before hafter := by simp [List.countP_append, hstarts, h.before (hbefore hafter)]

/-- The account of the starts is kept by every step. -/
theorem starts_step {es : List Event} {s s' : State} {e : Event} (h : Starts es s)
    (hs : Step s e s') : Starts (es ++ [e]) s' := by
  cases hs
  case raised => exact h.steady rfl (by simp)
  case drained => exact h.steady rfl fun hbefore => (by cases hbefore)
  case killed => exact h.steady rfl fun hbefore => (by cases hbefore)
  case unmasked hphase _ _ => exact h.steady rfl fun _ => by rw [hphase]; rfl
  case unmaskedInto hphase _ _ => exact h.steady rfl fun _ => by rw [hphase]; rfl
  case activated hphase _ => exact h.steady rfl fun _ => by rw [hphase]; rfl
  case moved phase hframes hnext =>
    rcases starts_of_next hnext with ⟨hphase, hstarts, hafter⟩ | ⟨hstarts, hafter⟩
    · have hnone := h.before (by rw [hphase]; rfl)
      constructor
      · simp [List.countP_append, hnone, hstarts]
      · simp [hafter]
    · exact h.steady hstarts hafter
  all_goals exact h.steady rfl id

/-- In every run a child starts one request at most. -/
theorem run_starts {inherited : List RawFd} {es : List Event} {s : State}
    (hrun : LabelledMachine.exec step (start inherited) es = some s) : Starts es s := by
  refine LabelledMachine.exec_history_induction (P := Starts) ⟨by simp, by simp⟩ ?_ hrun
  intro es s e s' _ h hstep
  exact starts_step h (step_cases hstep)

/-! ## At most one stamp -/

/-- The connection is active and the stamp has not been sent. -/
def Phase.stamping : Phase → Bool
  | .setCloexec _ | .readClock | .sendStamp _ => true
  | _ => false

/-- A stamp is sent behind the stage that leads to it, and nothing leads back. -/
theorem stamps_of_next {stop : Bool} {p p' : Phase} {e : Event} (h : Next stop p e p') :
    (e.stamps = true → p.stamping = true ∧ p'.stamping = false) ∧
      (p'.stamping = true → p.stamping = true) := by
  cases h
  case initBailedOut hphase => simp [Event.stamps, Phase.stamping]
  case startupBailedOut hphase => simp [Event.stamps, Phase.stamping]
  case scriptBailedOut hphase => simp [Event.stamps, Phase.stamping]
  all_goals simp [Event.stamps, Phase.stamping]

/-- The number of stamps sent, as the phase and the flag know it. -/
structure Stamps (es : List Event) (s : State) : Prop where
  le_one : es.countP Event.stamps ≤ 1
  before : s.connectionActive = false ∨ s.phase.stamping = true → es.countP Event.stamps = 0

/-- A step that sends no stamp keeps the account of the stamps. -/
theorem Stamps.steady {es : List Event} {s s' : State} {e : Event} (h : Stamps es s)
    (hstamps : e.stamps = false)
    (hbefore : s'.connectionActive = false ∨ s'.phase.stamping = true →
      s.connectionActive = false ∨ s.phase.stamping = true) : Stamps (es ++ [e]) s' where
  le_one := by simpa [List.countP_append, hstamps] using h.le_one
  before hafter := by simp [List.countP_append, hstamps, h.before (hbefore hafter)]

/-- The stamp is sent for a connection that is served. -/
theorem serving_of_stamping {p : Phase} (h : p.stamping = true) : p.serving = true := by
  cases p <;> first | rfl | cases h

/-- The account of the stamps is kept by every step. -/
theorem stamps_step {es : List Event} {s s' : State} {e : Event} (h : Stamps es s)
    (hflags : Flags s) (hs : Step s e s') : Stamps (es ++ [e]) s' := by
  cases hs
  case raised => exact h.steady rfl (by simp)
  case drained => exact h.steady rfl fun hafter => hafter.imp id fun hnot => (by cases hnot)
  case killed => exact h.steady rfl fun hafter => hafter.imp id fun hnot => (by cases hnot)
  case unmasked => exact h.steady rfl fun hafter => hafter.imp id fun hnot => (by cases hnot)
  case unmaskedInto => exact h.steady rfl fun hafter => hafter.imp id fun hnot => (by cases hnot)
  case activated hphase _ =>
    exact h.steady rfl fun _ => Or.inl (hflags.idle (by rw [hphase]; rfl))
  case moved phase hframes hnext =>
    rcases stamps_of_next hnext with ⟨hsent, hkept⟩
    cases hstamps : e.stamps with
    | true =>
        rcases hsent hstamps with ⟨hbefore, hafter⟩
        have hnone := h.before (Or.inr hbefore)
        have hactive := hflags.serving (serving_of_stamping hbefore)
        constructor
        · simp [List.countP_append, hnone, hstamps]
        · simp [hactive, hafter]
    | false => exact h.steady hstamps fun hafter => hafter.imp id hkept
  all_goals exact h.steady rfl id

/-- In every run a child sends one stamp at most. -/
theorem run_stamps {inherited : List RawFd} {es : List Event} {s : State}
    (hrun : LabelledMachine.exec step (start inherited) es = some s) : Stamps es s := by
  refine LabelledMachine.exec_history_induction (P := Stamps) ⟨by simp, by simp⟩ ?_ hrun
  intro es s e s' hprefix h hstep
  exact stamps_step h (run_flags hprefix) (step_cases hstep)

/-! ## How a child ends -/

/-- The child was ended by a signal it does not handle. -/
def Phase.killed : Phase → Bool
  | .terminated (.signaled _) => true
  | _ => false

/-- The main program kills nothing. -/
theorem killed_of_next {stop : Bool} {p p' : Phase} {e : Event} (h : Next stop p e p') :
    p.killed = false ∧ p'.killed = false ∧ e.kills = false := by
  cases h
  case initBailedOut hphase => rcases hphase with rfl | rfl <;> exact ⟨rfl, rfl, rfl⟩
  case startupBailedOut hphase => rcases hphase with rfl | rfl <;> exact ⟨rfl, rfl, rfl⟩
  case scriptBailedOut hphase => rcases hphase with rfl | rfl | rfl <;> exact ⟨rfl, rfl, rfl⟩
  all_goals exact ⟨rfl, rfl, rfl⟩

/-- The phase remembers a kill. -/
theorem kills_step {s s' : State} {e : Event} (hs : Step s e s') :
    s'.phase.killed = (s.phase.killed || e.kills) := by
  cases hs
  case raised => simp [Event.kills]
  case drained hlive _ _ =>
    cases hphase : s.phase <;> simp_all [State.exit, Phase.killed, Phase.live, Event.kills]
  case killed => simp [Phase.killed, Event.kills]
  case unmasked hphase _ _ => rw [hphase]; rfl
  case unmaskedInto hphase _ _ => rw [hphase]; rfl
  case activated hphase _ => rw [hphase]; rfl
  case moved hframes hnext =>
    rcases killed_of_next hnext with ⟨hbefore, hafter, hkills⟩
    rw [hbefore, hkills]
    exact hafter
  all_goals simp [Event.kills, State.enter]

/-- A child is dead of a signal exactly if one has killed it. -/
theorem run_kills {inherited : List RawFd} {es : List Event} {s : State}
    (hrun : LabelledMachine.exec step (start inherited) es = some s) :
    s.phase.killed = es.any Event.kills := by
  refine LabelledMachine.exec_history_induction
    (P := fun es s => s.phase.killed = es.any Event.kills) rfl ?_ hrun
  intro es s e s' _ h hstep
  rw [kills_step (step_cases hstep), h, List.any_append]
  simp

/-- A child that no drain signal is sent to runs no handler. -/
theorem quiet_run {inherited : List RawFd} {es : List Event} {s : State}
    (hrun : LabelledMachine.exec step (start inherited) es = some s)
    (hquiet : es.any Event.disturbs = false) :
    s.pending = ∅ ∧ s.frames = [] ∧ s.drainRequested = false := by
  revert hquiet
  refine LabelledMachine.exec_history_induction
    (P := fun es s => es.any Event.disturbs = false →
      s.pending = ∅ ∧ s.frames = [] ∧ s.drainRequested = false)
    (fun _ => ⟨rfl, rfl, rfl⟩) ?_ hrun
  intro es s e s' _ ih hstep hquiet
  rw [List.any_append, Bool.or_eq_false_iff] at hquiet
  rcases ih hquiet.1 with ⟨hpending, hframes, hdrain⟩
  have he : e.disturbs = false := by simpa using hquiet.2
  cases step_cases hstep
  case raised signal =>
    have hdrains : signal.drains = false := he
    simp [State.post, hdrains, hpending, hframes, hdrain]
  case delivered signal _ _ hmem _ => simp [hpending] at hmem
  case requested hframes' => simp [hframes] at hframes'
  case drained hframes' _ => simp [hframes] at hframes'
  case resumed hframes' _ => simp [hframes] at hframes'
  case unmaskedInto hmem => simp [hpending] at hmem
  all_goals exact ⟨hpending, hframes, hdrain⟩

/-- The result that a child without a connection carries to its end: only the
accept loop that gave up leaves it at zero. -/
def Outcome (gaveUp : Prop) : Phase → Prop
  | .finishRequest result | .returned result => result = 0 ↔ gaveUp
  | .terminated (.exited code) => code = 0 ↔ gaveUp
  | .terminated (.signaled _) => True
  | _ => ¬ gaveUp

/-- A main program without a connection ends well unless it has given up. -/
theorem outcome_of_next {p p' : Phase} {e : Event} {gaveUp : Prop} (h : Next false p e p')
    (hserving : p.serving = false) (houtcome : Outcome gaveUp p) :
    Outcome (gaveUp ∨ e.givesUp = true) p' := by
  cases h
  case acceptBarred hstop => cases hstop
  case connectionBarred hstop => cases hstop
  case acceptRetried herrno =>
    rcases herrno with rfl | rfl <;> simpa [Outcome, Event.givesUp] using houtcome
  case acceptFailed herrno => simp_all [Outcome, Event.givesUp]
  case initBailedOut hphase =>
    rcases hphase with rfl | rfl <;> simpa [Outcome, Event.givesUp] using houtcome
  case startupBailedOut hphase => rcases hphase with rfl | rfl <;> cases hserving
  case scriptBailedOut hphase => rcases hphase with rfl | rfl | rfl <;> cases hserving
  all_goals first
    | (cases hserving; done)
    | simpa [Outcome, Event.givesUp] using houtcome

/-- How a child that no drain signal is sent to stands, as long as it has no
connection. -/
theorem run_outcome {inherited : List RawFd} {es : List Event} {s : State}
    (hrun : LabelledMachine.exec step (start inherited) es = some s)
    (hquiet : es.any Event.disturbs = false) (hidle : s.connectionActive = false) :
    Outcome (es.any Event.givesUp = true) s.phase := by
  revert hquiet hidle
  refine LabelledMachine.exec_history_induction
    (P := fun es s => es.any Event.disturbs = false → s.connectionActive = false →
      Outcome (es.any Event.givesUp = true) s.phase) (fun _ _ => by simp [Outcome, start]) ?_ hrun
  intro es s e s' hprefix ih hstep hquiet hidle
  rw [List.any_append, Bool.or_eq_false_iff] at hquiet
  have hs := step_cases hstep
  have hidle' : s.connectionActive = false := by
    by_contra hactive
    rw [Bool.not_eq_false] at hactive
    rw [active_of_step hs hactive] at hidle
    cases hidle
  have hbefore := ih hquiet.1 hidle'
  rcases quiet_run hprefix hquiet.1 with ⟨hpending, hframes, hdrain⟩
  have hany : (es ++ [e]).any Event.givesUp = true ↔
      es.any Event.givesUp = true ∨ e.givesUp = true := by simp [List.any_append]
  rw [hany]
  cases hs
  case raised =>
    simpa only [Event.givesUp, Bool.false_eq_true, or_false, State.post_phase] using hbefore
  case delivered _ _ hmem _ => simp [hpending] at hmem
  case requested hframes' => simp [hframes] at hframes'
  case drained hframes' _ => simp [hframes] at hframes'
  case resumed hframes' _ => simp [hframes] at hframes'
  case killed => exact trivial
  case unmasked hphase _ _ =>
    rw [hphase] at hbefore
    exact fun hgave => hgave.elim hbefore fun he => (by cases he)
  case unmaskedInto hmem => simp [hpending] at hmem
  case activated => cases hidle
  case moved phase _ hnext =>
    rw [hidle', hdrain] at hnext
    refine outcome_of_next hnext ?_ hbefore
    by_contra hserving
    rw [Bool.not_eq_false] at hserving
    rw [(run_flags hprefix).serving hserving] at hidle'
    cases hidle'

/-- A child that ends without a connection and without a drain signal reports a
failure, unless it ends because the accept loop gave up. -/
theorem status_abnormal_iff {inherited : List RawFd} {es : List Event} {s : State}
    {status : WaitStatus} (hrun : LabelledMachine.exec step (start inherited) es = some s)
    (hphase : s.phase = .terminated status) (hquiet : es.any Event.disturbs = false)
    (hidle : s.connectionActive = false) :
    status.abnormal = true ↔ (es.any Event.givesUp = true → es.any Event.kills = true) := by
  have houtcome := run_outcome hrun hquiet hidle
  rw [← run_kills hrun, hphase]
  rw [hphase] at houtcome
  cases status with
  | exited code =>
      have hcode : code = 0 ↔ es.any Event.givesUp = true := houtcome
      simp [WaitStatus.abnormal, Phase.killed, hcode]
  | signaled signal => simp [WaitStatus.abnormal, Phase.killed]

/-! ## What becomes of a connection -/

/-- A handler has started between the return of {lit}`accept` and
{lit}`connection_active = 1`. -/
def InWindow (inherited : List RawFd) (es : List Event) : Prop :=
  ∃ earlier signal later s, es = earlier ++ .deliver signal :: later ∧
    LabelledMachine.exec step (start inherited) earlier = some s ∧ s.phase.holding = true

/-- A run has a handler in the window if it had one, or if its last step starts one there. -/
theorem inWindow_concat {inherited : List RawFd} {es : List Event} {s : State} {e : Event}
    (hrun : LabelledMachine.exec step (start inherited) es = some s) :
    InWindow inherited (es ++ [e]) ↔
      InWindow inherited es ∨ s.phase.holding = true ∧ ∃ signal, e = .deliver signal := by
  constructor
  · rintro ⟨earlier, signal, later, s₁, hsplit, hearlier, hholding⟩
    rcases List.eq_nil_or_concat later with rfl | ⟨later', last, rfl⟩
    · rcases List.append_inj' hsplit rfl with ⟨rfl, hlast⟩
      cases hlast
      cases hrun.symm.trans hearlier
      exact Or.inr ⟨hholding, signal, rfl⟩
    · rw [List.concat_eq_append, ← List.cons_append, ← List.append_assoc] at hsplit
      rcases List.append_inj' hsplit rfl with ⟨rfl, -⟩
      exact Or.inl ⟨earlier, signal, later', s₁, rfl, hearlier, hholding⟩
  · rintro (⟨earlier, signal, later, s₁, rfl, hearlier, hholding⟩ | ⟨hholding, signal, rfl⟩)
    · exact ⟨earlier, signal, later ++ [e], s₁, by simp, hearlier, hholding⟩
    · exact ⟨es, signal, [], s, rfl, hrun, hholding⟩

/-- Something has kept the connection from being answered. -/
def Spoilt (inherited : List RawFd) (es : List Event) : Prop :=
  InWindow inherited es ∨ es.any Event.losesStamp = true ∨ es.any Event.unreadable = true

/-- A step that starts no handler spoils a run by itself or not at all. -/
theorem spoilt_concat {inherited : List RawFd} {es : List Event} {s : State} {e : Event}
    (hrun : LabelledMachine.exec step (start inherited) es = some s)
    (hdeliver : ∀ signal, e ≠ .deliver signal) :
    Spoilt inherited (es ++ [e]) ↔
      Spoilt inherited es ∨ e.losesStamp = true ∨ e.unreadable = true := by
  have hwindow : InWindow inherited (es ++ [e]) ↔ InWindow inherited es := by
    rw [inWindow_concat hrun]
    constructor
    · rintro (h | ⟨-, signal, rfl⟩)
      · exact h
      · exact absurd rfl (hdeliver signal)
    · exact Or.inl
  simp only [Spoilt, hwindow, List.any_append, List.any_cons, List.any_nil, Bool.or_false,
    Bool.or_eq_true]
  tauto

/-- The move out of a phase without handlers, with the flag as {lit}`stop`. -/
theorem spoilt_of_next {active : Bool} {p p' : Phase} {e : Event} {spoilt : Prop}
    (h : Next active p e p') (hidle : p.idle = true → active = false)
    (hserving : p.serving = true → active = true)
    (hspoilt : spoilt ↔ p = .beforeAccept ∧ active = true) (hlive : p'.live = true) :
    (spoilt ∨ e.losesStamp = true ∨ e.unreadable = true) ↔
      p' = .beforeAccept ∧ active = true := by
  cases h
  case parentGone => cases hlive
  case acceptBarred => cases hlive
  case connectionBarred => cases hlive
  case stampLost => cases hlive
  case exited => cases hlive
  case initBailedOut hphase =>
    rcases hphase with rfl | rfl <;> simp_all [Event.losesStamp, Event.unreadable]
  case startupBailedOut hphase =>
    rcases hphase with rfl | rfl <;> simp_all [Event.losesStamp, Event.unreadable]
  case scriptBailedOut hphase =>
    rcases hphase with rfl | rfl | rfl <;> simp_all [Event.losesStamp, Event.unreadable]
  all_goals simp_all [Event.losesStamp, Event.unreadable, Phase.idle, Phase.serving]

/-- The response is completed by the last call before {lit}`poly_serve_one`
returns, and an active child comes there in no other way. -/
theorem finishes_of_next {active : Bool} {p p' : Phase} {e : Event} (h : Next active p e p')
    (hidle : p.idle = true → active = false) :
    (e.finishes = true → ∃ result, p' = .returned result) ∧
      (∀ result, p' = .returned result → active = true → e.finishes = true) ∧
      ∀ result, p = .returned result → p' = .terminated (.exited result) := by
  cases h
  case initBailedOut hphase =>
    rcases hphase with rfl | rfl <;> simp_all [Event.finishes, Phase.idle]
  case startupBailedOut hphase =>
    rcases hphase with rfl | rfl <;> simp [Event.finishes]
  case scriptBailedOut hphase =>
    rcases hphase with rfl | rfl | rfl <;> simp [Event.finishes]
  all_goals simp [Event.finishes]

/-- The end of the main program, when nothing is left to wait for. -/
theorem exited_of_next {active : Bool} {p : Phase} {e : Event} {code : Nat}
    (h : Next active p e (.terminated (.exited code))) :
    e.finishes = false ∧
      (p = .getppid ∨
        p = .beforeAccept ∧ active = true ∧ e.losesStamp = false ∧ e.unreadable = false ∨
        (∃ fd, p = .connectionTest fd) ∧ active = true ∨
        (∃ stamp, p = .sendStamp stamp) ∧ e.losesStamp = true ∨
        p = .returned code ∧ e.losesStamp = false ∧ e.unreadable = false) := by
  cases h <;> simp_all [Event.finishes, Event.losesStamp, Event.unreadable]

/-- What the state knows of the response and of the connection's misfortunes. -/
structure Fate (inherited : List RawFd) (es : List Event) (s : State) : Prop where
  finished : s.phase.live = true → es.any Event.finishes = true →
    ∃ result, s.phase = .returned result
  returned : ∀ result, s.phase = .returned result → s.connectionActive = true →
    es.any Event.finishes = true
  spoilt : s.phase.live = true → (Spoilt inherited es ↔
    s.phase.holding = true ∧ s.frames ≠ [] ∨
      s.phase = .beforeAccept ∧ s.connectionActive = true)
  exited : ∀ code, s.phase = .terminated (.exited code) → es.countP Event.takes = 1 →
    (es.any Event.finishes = true ↔ ¬ Spoilt inherited es)

/-- A child that still works has not answered. -/
theorem Fate.not_finished {inherited : List RawFd} {es : List Event} {s : State}
    (h : Fate inherited es s) (hlive : s.phase.live = true)
    (hphase : ∀ result, s.phase ≠ .returned result) : es.any Event.finishes = false := by
  by_contra hfinished
  rw [Bool.not_eq_false] at hfinished
  rcases h.finished hlive hfinished with ⟨result, hresult⟩
  exact hphase result hresult

/-- A live child makes a step that starts no handler. -/
theorem Fate.move {inherited : List RawFd} {es : List Event} {s s' : State} {e : Event}
    (h : Fate inherited es s) (hrun : LabelledMachine.exec step (start inherited) es = some s)
    (hdeliver : ∀ signal, e ≠ .deliver signal) (hlive : s.phase.live = true)
    (hfinish : e.finishes = true → ∃ result, s'.phase = .returned result)
    (hreturned : ∀ result, s'.phase = .returned result → s'.connectionActive = true →
      es.any Event.finishes = true ∨ e.finishes = true)
    (hlast : ∀ result, s.phase = .returned result →
      s'.phase = .returned result ∨ s'.phase.live = false)
    (hspoilt : s'.phase.live = true →
      ((Spoilt inherited es ∨ e.losesStamp = true ∨ e.unreadable = true) ↔
        s'.phase.holding = true ∧ s'.frames ≠ [] ∨
          s'.phase = .beforeAccept ∧ s'.connectionActive = true))
    (hexited : ∀ code, s'.phase = .terminated (.exited code) →
      (es ++ [e]).countP Event.takes = 1 →
      ((es.any Event.finishes = true ∨ e.finishes = true) ↔
        ¬ (Spoilt inherited es ∨ e.losesStamp = true ∨ e.unreadable = true))) :
    Fate inherited (es ++ [e]) s' := by
  have hany : (es ++ [e]).any Event.finishes = true ↔
      es.any Event.finishes = true ∨ e.finishes = true := by simp [List.any_append]
  constructor
  · intro hlive' hfinished
    rcases hany.mp hfinished with hbefore | hnow
    · rcases h.finished hlive hbefore with ⟨result, hresult⟩
      rcases hlast result hresult with hkept | hdead
      · exact ⟨result, hkept⟩
      · rw [hdead] at hlive'
        cases hlive'
    · exact hfinish hnow
  · intro result hresult hactive
    exact hany.mpr (hreturned result hresult hactive)
  · intro hlive'
    rw [spoilt_concat hrun hdeliver]
    exact hspoilt hlive'
  · intro code hcode hcount
    rw [hany, spoilt_concat hrun hdeliver]
    exact hexited code hcode hcount

/-- A step that leaves the phase as it was. -/
theorem Fate.steady {inherited : List RawFd} {es : List Event} {s s' : State} {e : Event}
    (h : Fate inherited es s) (hrun : LabelledMachine.exec step (start inherited) es = some s)
    (hdeliver : ∀ signal, e ≠ .deliver signal) (hlive : s.phase.live = true)
    (hquiet : e.finishes = false ∧ e.losesStamp = false ∧ e.unreadable = false)
    (hphase : s'.phase = s.phase) (hactive : s'.connectionActive = s.connectionActive)
    (hframes : s.phase.holding = true → (s'.frames = [] ↔ s.frames = [])) :
    Fate inherited (es ++ [e]) s' := by
  rcases hquiet with ⟨hfinishes, hloses, hunreadable⟩
  refine h.move hrun hdeliver hlive ?_ ?_ ?_ ?_ ?_
  · simp [hfinishes]
  · rw [hphase, hactive]
    exact fun result hresult hact => Or.inl (h.returned result hresult hact)
  · rw [hphase]
    exact fun result hresult => Or.inl hresult
  · rw [hphase, hactive, hloses, hunreadable]
    intro _
    rw [← or_assoc, h.spoilt hlive]
    simp only [Bool.false_eq_true, or_false]
    tauto
  · intro code hcode
    rw [← hphase, hcode] at hlive
    cases hlive

/-- A step between phases in which the request is not over. -/
theorem Fate.elsewhere {inherited : List RawFd} {es : List Event} {s s' : State} {e : Event}
    (h : Fate inherited es s) (hrun : LabelledMachine.exec step (start inherited) es = some s)
    (hdeliver : ∀ signal, e ≠ .deliver signal) (hlive : s.phase.live = true)
    (hlive' : s'.phase.live = true) (hfinishes : e.finishes = false)
    (hbefore : ∀ result, s.phase ≠ .returned result)
    (hafter : ∀ result, s'.phase ≠ .returned result)
    (hspoilt : (Spoilt inherited es ∨ e.losesStamp = true ∨ e.unreadable = true) ↔
      s'.phase.holding = true ∧ s'.frames ≠ [] ∨
        s'.phase = .beforeAccept ∧ s'.connectionActive = true) :
    Fate inherited (es ++ [e]) s' := by
  refine h.move hrun hdeliver hlive ?_ ?_ ?_ (fun _ => hspoilt) ?_
  · simp [hfinishes]
  · exact fun result hresult => absurd hresult (hafter result)
  · exact fun result hresult => absurd hresult (hbefore result)
  · intro code hcode
    rw [hcode] at hlive'
    cases hlive'

section Fates

variable {inherited : List RawFd} {es : List Event} {s : State}

/-- A signal that is sent changes nothing yet. -/
theorem Fate.raised (h : Fate inherited es s)
    (hrun : LabelledMachine.exec step (start inherited) es = some s) (signal : Signal) :
    Fate inherited (es ++ [.raise signal]) (s.post signal) := by
  have hspoilt : Spoilt inherited (es ++ [.raise signal]) ↔ Spoilt inherited es := by
    simp [spoilt_concat hrun, Event.losesStamp, Event.unreadable]
  have hfinished : (es ++ [Event.raise signal]).any Event.finishes = es.any Event.finishes := by
    rw [List.any_append]
    exact Bool.or_false _
  have hcount : (es ++ [Event.raise signal]).countP Event.takes = es.countP Event.takes := by
    rw [List.countP_append]
    rfl
  constructor
  · rw [State.post_phase, hfinished]
    exact h.finished
  · rw [State.post_phase, State.post_connectionActive, hfinished]
    exact h.returned
  · rw [State.post_phase, State.post_connectionActive, State.post_frames, hspoilt]
    exact h.spoilt
  · rw [State.post_phase, hfinished, hspoilt, hcount]
    exact h.exited

/-- In the window the handler that starts spoils the connection. -/
theorem Fate.delivered (h : Fate inherited es s)
    (hrun : LabelledMachine.exec step (start inherited) es = some s) {signal : Signal}
    (hlive : s.phase.live = true) :
    Fate inherited (es ++ [.deliver signal]) (s.enter signal) := by
  have hspoilt : Spoilt inherited (es ++ [.deliver signal]) ↔
      Spoilt inherited es ∨ s.phase.holding = true := by
    simp only [Spoilt, inWindow_concat hrun, List.any_append, List.any_cons, List.any_nil,
      Event.losesStamp, Event.unreadable, Bool.or_false, Event.deliver.injEq, exists_eq',
      and_true]
    tauto
  have hfinished : (es ++ [Event.deliver signal]).any Event.finishes = es.any Event.finishes := by
    rw [List.any_append]
    exact Bool.or_false _
  constructor
  · rw [hfinished]
    exact h.finished
  · rw [hfinished]
    exact h.returned
  · intro _
    rw [hspoilt, h.spoilt hlive]
    simp only [State.enter, ne_eq, reduceCtorEq, not_false_eq_true, and_true]
    tauto
  · intro code hcode
    rw [show s.phase = .terminated (.exited code) from hcode] at hlive
    cases hlive

/-- A taken connection that is not active is still held. -/
theorem Takes.holding (h : Takes es s) (hlive : s.phase.live = true)
    (hidle : s.connectionActive = false) (hcount : es.countP Event.takes = 1) :
    s.phase.holding = true := by
  have hlaw := h.count hlive
  rw [hcount, hidle] at hlaw
  by_contra hnot
  simp [hnot] at hlaw

/-- A connection in hand is not served yet. -/
theorem idle_of_holding {p : Phase} (hholding : p.holding = true) : p.idle = true := by
  cases p <;> first | rfl | cases hholding

/-- The handler ends a child that holds a connection, and the connection with it. -/
theorem Fate.drained (h : Fate inherited es s)
    (hrun : LabelledMachine.exec step (start inherited) es = some s)
    (hlive : s.phase.live = true) (hframes : s.frames ≠ [])
    (hidle : s.connectionActive = false) :
    Fate inherited (es ++ [.handler]) (s.exit 0) := by
  refine h.move hrun (by simp) hlive ?_ ?_ ?_ ?_ ?_
  · intro hfinish
    cases hfinish
  · intro result hresult
    cases hresult
  · exact fun result hresult => Or.inr rfl
  · intro hdead
    cases hdead
  · intro code _ hcount
    have hbefore : es.countP Event.takes = 1 := by
      rw [List.countP_append] at hcount
      exact hcount
    have hholding := (run_takes hrun).holding hlive hidle hbefore
    have hspoilt : Spoilt inherited es := (h.spoilt hlive).mpr (Or.inl ⟨hholding, hframes⟩)
    have hunfinished := h.not_finished hlive fun result hresult => by
      rw [hresult] at hholding
      cases hholding
    simp [hunfinished, hspoilt, Event.finishes]

/-- Where the main program ends, a connection that was taken is either spoilt or
answered. -/
theorem Fate.exited_of_move (h : Fate inherited es s)
    (hrun : LabelledMachine.exec step (start inherited) es = some s) {e : Event} {code : Nat}
    (hnext : Next s.connectionActive s.phase e (.terminated (.exited code)))
    (hspoilt : Spoilt inherited es ↔ s.phase = .beforeAccept ∧ s.connectionActive = true)
    (hcount : (es ++ [e]).countP Event.takes = 1) :
    (es.any Event.finishes = true ∨ e.finishes = true) ↔
      ¬ (Spoilt inherited es ∨ e.losesStamp = true ∨ e.unreadable = true) := by
  have hlive := live_of_next hnext
  have hflags := run_flags hrun
  have htaken : es.countP Event.takes = 1 := by
    rcases holding_of_next hnext with ⟨-, -, hholding⟩ | ⟨htakes, -⟩
    · cases hholding
    · simpa [List.countP_append, htakes] using hcount
  have hheld : s.phase.holding = false → s.connectionActive = true := by
    intro hnot
    by_contra hidle
    rw [Bool.not_eq_true] at hidle
    rw [(run_takes hrun).holding hlive hidle htaken] at hnot
    cases hnot
  rcases exited_of_next hnext with ⟨hfinishes, hphase | hphase | hphase | hphase | hphase⟩
  · have hactive := hheld (by rw [hphase]; rfl)
    rw [hflags.idle (by rw [hphase]; rfl)] at hactive
    cases hactive
  · rcases hphase with ⟨hphase, hactive, -⟩
    have hunfinished := h.not_finished hlive (by simp [hphase])
    simp [hunfinished, hfinishes, hspoilt, hphase, hactive]
  · rcases hphase with ⟨⟨fd, hphase⟩, hactive⟩
    rw [hflags.idle (by rw [hphase]; rfl)] at hactive
    cases hactive
  · rcases hphase with ⟨⟨stamp, hphase⟩, hloses⟩
    have hunfinished := h.not_finished hlive (by simp [hphase])
    simp [hunfinished, hfinishes, hloses]
  · rcases hphase with ⟨hphase, hloses, hunreadable⟩
    have hactive := hheld (by rw [hphase]; rfl)
    simp [h.returned code hphase hactive, hspoilt, hphase, hloses, hunreadable]

/-- The main program moves on where no handler runs. -/
theorem Fate.moved (h : Fate inherited es s)
    (hrun : LabelledMachine.exec step (start inherited) es = some s) {e : Event} {phase : Phase}
    (hframes : s.frames = [])
    (hnext : Next (s.connectionActive || s.drainRequested) s.phase e phase) :
    Fate inherited (es ++ [e]) { s with phase := phase } := by
  have hflags := run_flags hrun
  have hlive := live_of_next hnext
  -- Without handlers {lit}`drain_requested` adds nothing to the flag.
  have hstop : (s.connectionActive || s.drainRequested) = s.connectionActive := by
    cases hdrain : s.drainRequested with
    | false => simp
    | true =>
        rcases run_settled hrun hlive hdrain with hactive | ⟨frame, hmem, -⟩
        · simp [hactive]
        · simp [hframes] at hmem
  rw [hstop] at hnext
  have hdeliver : ∀ signal, e ≠ .deliver signal := by
    rintro signal rfl
    generalize s.phase = p at hnext
    cases hnext
  have hspoilt : Spoilt inherited es ↔
      s.phase = .beforeAccept ∧ s.connectionActive = true := by
    rw [h.spoilt hlive, hframes]
    simp
  rcases finishes_of_next hnext hflags.idle with ⟨hfinish, hreturned, hlast⟩
  refine h.move hrun hdeliver hlive hfinish ?_ ?_ ?_ ?_
  · exact fun result hresult hactive => Or.inr (hreturned result hresult hactive)
  · intro result hresult
    right
    rw [hlast result hresult]
    rfl
  · intro hlive'
    rw [spoilt_of_next hnext hflags.idle hflags.serving hspoilt hlive', hframes]
    simp
  · rintro code rfl hcount
    exact h.exited_of_move hrun hnext hspoilt hcount

end Fates

/-- What becomes of a connection is kept by every step. -/
theorem fate_step {inherited : List RawFd} {es : List Event} {s s' : State} {e : Event}
    (h : Fate inherited es s) (hrun : LabelledMachine.exec step (start inherited) es = some s)
    (hs : Step s e s') : Fate inherited (es ++ [e]) s' := by
  have hflags := run_flags hrun
  cases hs
  case raised signal => exact h.raised hrun signal
  case delivered signal hlive _ _ _ => exact h.delivered hrun hlive
  case requested hlive hframes =>
    exact h.steady hrun (by simp) hlive ⟨rfl, rfl, rfl⟩ rfl rfl (by simp [hframes])
  case drained hlive hframes hidle => exact h.drained hrun hlive (by simp [hframes]) hidle
  case resumed hlive hframes hactive =>
    refine h.steady hrun (by simp) hlive ⟨rfl, rfl, rfl⟩ rfl rfl ?_
    intro hholding
    rw [hflags.idle (idle_of_holding hholding)] at hactive
    cases hactive
  case killed signal hlive _ =>
    refine h.move hrun (by simp) hlive ?_ ?_ ?_ ?_ ?_
    · intro hfinish
      cases hfinish
    · intro result hresult
      cases hresult
    · exact fun result hresult => Or.inr rfl
    · intro hdead
      cases hdead
    · intro code hcode
      cases hcode
  case unmasked hphase hframes _ =>
    have hlive : s.phase.live = true := by rw [hphase]; rfl
    refine h.elsewhere hrun (by simp) hlive rfl rfl (by simp [hphase]) (by simp) ?_
    rw [h.spoilt hlive, hphase]
    simp [Phase.holding, Event.losesStamp, Event.unreadable]
  case unmaskedInto hphase hframes _ =>
    have hlive : s.phase.live = true := by rw [hphase]; rfl
    refine h.elsewhere hrun (by simp) hlive rfl rfl (by simp [hphase]) (by simp [State.enter]) ?_
    rw [h.spoilt hlive, hphase]
    simp [Phase.holding, Event.losesStamp, Event.unreadable, State.enter]
  case activated fd hphase hframes =>
    have hlive : s.phase.live = true := by rw [hphase]; rfl
    refine h.elsewhere hrun (by simp) hlive rfl rfl (by simp [hphase]) (by simp) ?_
    rw [h.spoilt hlive, hphase, hframes]
    simp [Phase.holding, Event.losesStamp, Event.unreadable]
  case moved hframes hnext => exact h.moved hrun hframes hnext

/-- In every run the fate of a connection is known. -/
theorem run_fate {inherited : List RawFd} {es : List Event} {s : State}
    (hrun : LabelledMachine.exec step (start inherited) es = some s) : Fate inherited es s := by
  refine LabelledMachine.exec_history_induction (P := Fate inherited) ?_ ?_ hrun
  · constructor
    · simp
    · simp [start]
    · intro _
      simp only [start, Phase.holding, Bool.false_eq_true, false_and, reduceCtorEq, or_self,
        iff_false]
      rintro (⟨earlier, signal, later, s, hsplit, -⟩ | hloses | hunreadable)
      · simp at hsplit
      · cases hloses
      · cases hunreadable
    · simp [start]
  · intro es s e s' hprefix h hstep
    exact fate_step h hprefix (step_cases hstep)

/-- A child that has taken a connection and has ended of itself has answered it,
unless a handler started too early, the stamp could not be sent or the
connection brought no request. -/
theorem answered_iff {inherited : List RawFd} {es : List Event} {s : State} {status : WaitStatus}
    (hrun : LabelledMachine.exec step (start inherited) es = some s)
    (hphase : s.phase = .terminated status) (htaken : es.countP Event.takes = 1)
    (hkills : es.any Event.kills = false) :
    es.any Event.finishes = true ↔ ¬ Spoilt inherited es := by
  cases status with
  | exited code => exact (run_fate hrun).exited code hphase htaken
  | signaled signal =>
      rw [← run_kills hrun, hphase] at hkills
      cases hkills

/-- Outside the window nothing keeps a child from marking its connection. -/
def Marked (inherited : List RawFd) (es : List Event) (s : State) : Prop :=
  es.countP Event.takes = 1 → s.phase.killed = false → InWindow inherited es ∨
    s.connectionActive = true ∨ s.phase.holding = true ∧ s.frames = []

/-- Outside the window every step keeps a connection on its way to the mark. -/
theorem marked_step {inherited : List RawFd} {es : List Event} {s s' : State} {e : Event}
    (h : Marked inherited es s)
    (hrun : LabelledMachine.exec step (start inherited) es = some s) (hs : Step s e s') :
    Marked inherited (es ++ [e]) s' := by
  intro hcount hkilled
  rw [inWindow_concat hrun]
  rw [kills_step hs, Bool.or_eq_false_iff] at hkilled
  have hbefore : e.takes = false → InWindow inherited es ∨
      s.connectionActive = true ∨ s.phase.holding = true ∧ s.frames = [] := by
    intro htakes
    refine h ?_ hkilled.1
    simpa [List.countP_append, htakes] using hcount
  cases hs
  case raised signal =>
    simpa [State.post_frames] using hbefore rfl
  case delivered signal _ _ _ _ =>
    rcases hbefore rfl with hwindow | hactive | ⟨hholding, -⟩
    · exact Or.inl (Or.inl hwindow)
    · exact Or.inr (Or.inl hactive)
    · exact Or.inl (Or.inr ⟨hholding, signal, rfl⟩)
  case requested hframes =>
    rcases hbefore rfl with hwindow | hactive | ⟨-, hnone⟩
    · exact Or.inl (Or.inl hwindow)
    · exact Or.inr (Or.inl hactive)
    · simp [hframes] at hnone
  case drained hframes hidle =>
    rcases hbefore rfl with hwindow | hactive | ⟨-, hnone⟩
    · exact Or.inl (Or.inl hwindow)
    · exact Or.inr (Or.inl hactive)
    · simp [hframes] at hnone
  case resumed hactive => exact Or.inr (Or.inl hactive)
  case killed => cases hkilled.2
  case unmasked hphase _ _ =>
    rcases hbefore rfl with hwindow | hactive | ⟨hholding, -⟩
    · exact Or.inl (Or.inl hwindow)
    · exact Or.inr (Or.inl hactive)
    · rw [hphase] at hholding
      cases hholding
  case unmaskedInto hphase _ _ =>
    rcases hbefore rfl with hwindow | hactive | ⟨hholding, -⟩
    · exact Or.inl (Or.inl hwindow)
    · exact Or.inr (Or.inl hactive)
    · rw [hphase] at hholding
      cases hholding
  case activated => exact Or.inr (Or.inl rfl)
  case moved phase hframes hnext =>
    rcases holding_of_next hnext with ⟨-, -, hholding⟩ | ⟨htakes, hholding⟩
    · exact Or.inr (Or.inr ⟨hholding, hframes⟩)
    · rcases hbefore htakes with hwindow | hactive | ⟨hheld, -⟩
      · exact Or.inl (Or.inl hwindow)
      · exact Or.inr (Or.inl hactive)
      · cases hlive : phase.live with
        | true => exact Or.inr (Or.inr ⟨(hholding hlive).trans hheld, hframes⟩)
        | false =>
            -- {lit}`poly_connection_accepted` gives up only a second connection.
            have hstop : (s.connectionActive || s.drainRequested) = true := by
              generalize s.phase = p at hnext hheld
              cases hnext <;> first | assumption | (cases hheld; done) | cases hlive
            rcases Bool.or_eq_true_iff.mp hstop with hactive | hdrain
            · exact Or.inr (Or.inl hactive)
            · rcases run_settled hrun (live_of_next hnext) hdrain with hactive | ⟨frame, hmem, -⟩
              · exact Or.inr (Or.inl hactive)
              · simp [hframes] at hmem

/-- In every run a connection is marked unless a handler starts in the window. -/
theorem run_marked {inherited : List RawFd} {es : List Event} {s : State}
    (hrun : LabelledMachine.exec step (start inherited) es = some s) : Marked inherited es s := by
  refine LabelledMachine.exec_history_induction (P := Marked inherited) ?_ ?_ hrun
  · intro hcount
    cases hcount
  · intro es s e s' hprefix h hstep
    exact marked_step h hprefix (step_cases hstep)

/-! ## A live child can go on -/

/-- The child moves by itself: it is neither signalled nor killed. -/
def Event.moves : Event → Bool
  | .raise _ | .killed _ => false
  | _ => true

/-- The main program waits for no one but the environment's answers. -/
theorem next_unstuck {stop : Bool} {p : Phase} (hlive : p.live = true) (hunmask : p ≠ .unmask)
    (hmark : ∀ fd, p ≠ .markActive fd) : ∃ e p', e.moves = true ∧ Next stop p e p' := by
  cases p with
  | closeInherited todo =>
      cases todo with
      | nil => exact ⟨_, _, rfl, .inheritedDone⟩
      | cons fd todo => exact ⟨_, _, rfl, .inheritedClosed⟩
  | prctl => exact ⟨_, _, rfl, .deathSignalSet⟩
  | getppid => exact ⟨_, _, rfl, .parentThere⟩
  | dispositions todo =>
      cases todo with
      | nil => exact ⟨_, _, rfl, .dispositionsDone⟩
      | cons signal todo => exact ⟨_, _, rfl, .dispositionSet⟩
  | unmask => exact absurd rfl hunmask
  | childInit => exact ⟨_, _, rfl, .childInitialized⟩
  | initRequest => exact ⟨_, _, rfl, .requestInitialized⟩
  | beforeAccept =>
      cases stop with
      | false => exact ⟨_, _, rfl, .acceptCleared rfl⟩
      | true => exact ⟨_, _, rfl, .acceptBarred rfl⟩
  | accept => exact ⟨_, _, rfl, .acceptRetried (Or.inl rfl)⟩
  | connectionTest fd =>
      cases stop with
      | false => exact ⟨_, _, rfl, .connectionCleared rfl⟩
      | true => exact ⟨_, _, rfl, .connectionBarred rfl⟩
  | markActive fd => exact absurd rfl (hmark fd)
  | setCloexec fd => exact ⟨_, _, rfl, .cloexecSet⟩
  | readClock => exact ⟨.clockGettime 0, _, rfl, .clockRead⟩
  | sendStamp stamp => exact ⟨_, _, rfl, .stampSent⟩
  | readRequest => exact ⟨_, _, rfl, .requestRead⟩
  | closeListener => exact ⟨_, _, rfl, .listenerClosed⟩
  | examine => exact ⟨_, _, rfl, .admitted⟩
  | refuse result => exact ⟨_, _, rfl, .refusalWritten⟩
  | requestStartup => exact ⟨_, _, rfl, .startedUp⟩
  | openScript => exact ⟨_, _, rfl, .scriptOpened⟩
  | execute => exact ⟨.execute 0, _, rfl, .executed rfl⟩
  | missingScript => exact ⟨_, _, rfl, .missingWritten⟩
  | requestShutdown result => exact ⟨_, _, rfl, .requestShutDown⟩
  | finishRequest result => exact ⟨_, _, rfl, .requestFinished⟩
  | returned result => exact ⟨_, _, rfl, .exited⟩
  | terminated status => cases hlive

/-- A child that lives always has a step of its own. -/
theorem unstuck {s : State} (hlive : s.phase.live = true) :
    ∃ e, e.moves = true ∧ (step s e).isSome = true := by
  by_cases hframes : s.frames = []
  · by_cases hunmask : s.phase = .unmask
    · rcases Finset.eq_empty_or_nonempty s.pending with hempty | ⟨signal, hmem⟩
      · exact ⟨.sigprocmask none, rfl, by simp [step, hframes, hunmask, hempty]⟩
      · exact ⟨.sigprocmask (some signal), rfl, by simp [step, hframes, hunmask, hmem]⟩
    · by_cases hmark : ∃ fd, s.phase = .markActive fd
      · rcases hmark with ⟨fd, hmark⟩
        exact ⟨.markActive, rfl, by simp [step, hframes, hmark]⟩
      · rcases next_unstuck hlive hunmask (not_exists.mp hmark) with ⟨e, p', hmoves, hnext⟩
        exact ⟨e, hmoves, by rw [step_of_next hframes hnext]; rfl⟩
  · exact ⟨.handler, rfl, handler_unstuck hlive hframes⟩

/-- The most steps of the main program that an active child has left. -/
def Phase.remaining : Phase → Nat
  | .setCloexec _ => 12
  | .readClock => 11
  | .sendStamp _ => 10
  | .readRequest => 9
  | .closeListener => 8
  | .examine => 7
  | .requestStartup => 6
  | .openScript => 5
  | .execute | .missingScript => 4
  | .requestShutdown _ | .refuse _ => 3
  | .finishRequest _ => 2
  | .beforeAccept | .returned _ => 1
  | _ => 0

/-- No phase has more than twelve steps before it. -/
theorem remaining_le (p : Phase) : p.remaining ≤ 12 := by
  cases p <;> simp [Phase.remaining]

/-- Every branch behind {lit}`connection_active = 1` leads on to the end. -/
theorem remaining_of_next {p p' : Phase} {e : Event} (h : Next true p e p')
    (hactive : p.idle = false) : p'.remaining < p.remaining := by
  cases h
  case acceptCleared hstop => cases hstop
  case connectionCleared hstop => cases hstop
  case initBailedOut hphase => rcases hphase with rfl | rfl <;> cases hactive
  case startupBailedOut hphase => rcases hphase with rfl | rfl <;> simp [Phase.remaining]
  case scriptBailedOut hphase => rcases hphase with rfl | rfl | rfl <;> simp [Phase.remaining]
  all_goals first | (cases hactive; done) | simp [Phase.remaining]

/-- A step of the main program uses one of those that remain. -/
theorem remaining_step {s s' : State} {e : Event} (hflags : Flags s)
    (hactive : s.connectionActive = true) (hs : Step s e s') :
    s'.phase.remaining + (if e.main then 1 else 0) ≤ s.phase.remaining := by
  have hidle : s.phase.idle = false := by
    by_contra hidle
    rw [Bool.not_eq_false] at hidle
    rw [hflags.idle hidle] at hactive
    cases hactive
  cases hs
  case raised => simp [Event.main]
  case delivered => exact Nat.le_refl _
  case requested => exact Nat.le_refl _
  case drained => exact Nat.zero_le _
  case resumed => exact Nat.le_refl _
  case killed => exact Nat.zero_le _
  case unmasked hphase _ _ => rw [hphase] at hidle; cases hidle
  case unmaskedInto hphase _ _ => rw [hphase] at hidle; cases hidle
  case activated hphase _ => rw [hphase] at hidle; cases hidle
  case moved phase _ hnext =>
    rw [hactive, Bool.true_or] at hnext
    have hless := remaining_of_next hnext hidle
    change phase.remaining + _ ≤ s.phase.remaining
    split <;> omega

/-- A child that has marked its connection active makes few more steps of its main
program. -/
theorem serving_bounded {s s' : State} {es : List Event} (hflags : Flags s)
    (hactive : s.connectionActive = true) (hrun : LabelledMachine.exec step s es = some s') :
    es.countP Event.main ≤ 12 := by
  have hcount : s'.phase.remaining + es.countP Event.main ≤ s.phase.remaining := by
    refine (LabelledMachine.exec_history_induction
      (P := fun es u => (Flags u ∧ u.connectionActive = true) ∧
        u.phase.remaining + es.countP Event.main ≤ s.phase.remaining)
      ⟨⟨hflags, hactive⟩, by simp⟩ ?_ hrun).2
    rintro es u e u' - ⟨⟨hflags', hactive'⟩, hle⟩ hstep
    have hs := step_cases hstep
    have hless := remaining_step hflags' hactive' hs
    refine ⟨⟨flags_step hflags' hs, active_of_step hs hactive'⟩, ?_⟩
    rw [List.countP_append, List.countP_singleton]
    omega
  have hstart := remaining_le s.phase
  omega

end Child

end Polychrome
