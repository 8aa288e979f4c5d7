import Polychrome.Manager.WorkerTable

/-!
# The back-off after a start-up failure

A start-up failure is a spawn error or an abnormal exit, without a stamp, within
a second of birth.  The loop counts it and pushes {lit}`retry_at` back by an
interval that grows with the count.  A healthy exit resets the count but leaves
{lit}`retry_at` alone, so the next failure can pull {lit}`retry_at` forward again.

Main results:

- Theorem {lit}`backOff_cases`: which steps write {lit}`failures` and
  {lit}`retry_at`.
- Theorem {lit}`run_floor`: no failure is followed by a fork within 200 ms.
- Theorem {lit}`supervise_backs_off_iff`: the whole interval is kept exactly in
  the runs where no failure meets a reset count and a distant {lit}`retry_at`.
-/

namespace Polychrome

namespace Manager

/-! ## The interval -/

/-- More failures never shorten the pause. -/
theorem backOff_mono {j k : Nat} (hjk : j ≤ k) : backOff j ≤ backOff k := by
  have hpow : 2 ^ min j 6 ≤ 2 ^ min k 6 := Nat.pow_le_pow_right (by decide) (by omega)
  unfold backOff fromMillis
  omega

/-- The first failure is answered with 200 ms. -/
theorem backOff_one : backOff 1 = fromMillis 200 :=
  rfl

/-- The counter is never zero behind a failure. -/
theorem one_le_saturatingSucc (n : Nat) : 1 ≤ saturatingSucc n := by
  unfold saturatingSucc
  omega

/-- Saturation at the 32-bit limit does not shorten the interval, which stops
growing at the sixth failure. -/
theorem backOff_saturatingSucc (n : Nat) : backOff (saturatingSucc n) = backOff (n + 1) := by
  have hmin : min (saturatingSucc n) 6 = min (n + 1) 6 := by
    unfold saturatingSucc
    omega
  unfold backOff
  rw [hmin]

/-- Every interval is at least the one after a first failure. -/
theorem first_le_backOff (n : Nat) : fromMillis 200 ≤ backOff (saturatingSucc n) := by
  rw [← backOff_one]
  exact backOff_mono (one_le_saturatingSucc n)

/-! ## Who writes the two variables -/

/-- The next clock reading dates a start-up failure. -/
def Phase.failing : Phase → Bool
  | .spawnFailed | .startupFailed _ => true
  | _ => false

/-- Only the handling of a failure moves {lit}`retry_at`; every other step leaves
the count alone or resets it. -/
theorem backOff_cases {config : Config} {s s' : State} {e : Event} (hs : Step config s e s') :
    (s'.retryAt = s.retryAt ∧ (s'.failures = s.failures ∨ s'.failures = 0)) ∨
      ∃ t, s.phase.failing = true ∧ e = .now t ∧ s'.failures = saturatingSucc s.failures ∧
        s'.retryAt = t + backOff s'.failures := by
  cases hs
  case spawnFailureRecorded t hphase =>
    right
    exact ⟨t, by rw [hphase]; rfl, rfl, rfl, rfl⟩
  case startupFailureRecorded w t hphase =>
    right
    exact ⟨t, by rw [hphase]; rfl, rfl, rfl, rfl⟩
  case reaped status w hphase hw =>
    left
    refine ⟨by simp, ?_⟩
    rw [State.classify_failures]
    split
    · exact Or.inl rfl
    · exact Or.inr rfl
  all_goals
    left
    simp

/-- In a failing phase the clock reading is the failure. -/
theorem failure_recorded {config : Config} {s s' : State} {t : Instant}
    (hfailing : s.phase.failing = true) (hs : Step config s (.now t) s') :
    s'.failures = saturatingSucc s.failures ∧ s'.retryAt = t + backOff s'.failures := by
  cases hs
  case spawnFailureRecorded => exact ⟨rfl, rfl⟩
  case startupFailureRecorded => exact ⟨rfl, rfl⟩
  all_goals simp_all [Phase.failing]

/-! ## The pace of a run -/

/-- A nonzero count bounds how far {lit}`retry_at` can lie ahead, and the spawn
phase is entered only behind it. -/
structure Paced (s : State) (k : Kernel) : Prop where
  ahead : s.failures ≠ 0 → s.retryAt ≤ k.clock + backOff s.failures
  due : s.phase.inSpawn → s.retryAt ≤ k.clock

/-- The spawn phase is entered by a clock reading behind {lit}`retry_at`, and
left by the step that moves {lit}`retry_at`. -/
theorem inSpawn_cases {config : Config} {s s' : State} {e : Event} (hs : Step config s e s')
    (hspawn : s'.phase.inSpawn = true) :
    s'.retryAt = s.retryAt ∧
      (s.phase.inSpawn = true ∨ ∃ t, e = .now t ∧ s.retryAt ≤ t) := by
  cases hs
  case retryDue t hphase hdraining hdue => exact ⟨rfl, Or.inr ⟨t, rfl, hdue⟩⟩
  case reaped status w hphase hw =>
    rw [State.classify_phase] at hspawn
    split at hspawn <;> cases hspawn
  case enforceCalm now pid todo hphase hdraining =>
    rw [State.enforceNext_phase] at hspawn
    split at hspawn <;> cases hspawn
  case enforceDraining now pid todo t deadline hphase hdraining =>
    rw [State.enforceNext_phase] at hspawn
    split at hspawn <;> cases hspawn
  all_goals simp_all [Phase.inSpawn]

/-- Every call keeps the times in order. -/
theorem paced_step {config : Config} {s s' : State} {k k' : Kernel} {e : Event}
    (h : Paced s k) (hs : Step config s e s') (hk : k.step e = some k') : Paced s' k' := by
  have hclock : k.clock ≤ k'.clock := Kernel.clock_le hk
  constructor
  · intro hcount
    rcases backOff_cases hs with ⟨hretry, hkept | hreset⟩ | ⟨t, -, rfl, -, hretry⟩
    · rw [hkept] at hcount ⊢
      rw [hretry]
      exact (h.ahead hcount).trans (Nat.add_le_add_right hclock _)
    · exact absurd hreset hcount
    · rw [hretry, Kernel.clock_now hk]
  · intro hspawn
    rcases inSpawn_cases hs hspawn with ⟨hretry, hinside | ⟨t, rfl, hdue⟩⟩
    · rw [hretry]
      exact (h.due hinside).trans hclock
    · rw [hretry, Kernel.clock_now hk]
      exact hdue

/-- Every run is paced. -/
theorem run_paced {config : Config} {t : Instant} {es : List Event} {s : State} {k : Kernel}
    (hrun : LabelledMachine.exec (supervised config) (initial t) es = some (s, k)) :
    Paced s k := by
  refine LabelledMachine.exec_invariant (I := fun x => Paced x.1 x.2) ?_ ?_ hrun
  · intro x e x' hx hstep
    rcases LabelledMachine.sync_eq_some_iff.mp hstep with ⟨hs, hk⟩
    exact paced_step hx (step_cases hs) hk
  · constructor <;> simp [initial, start]

/-- A failure moves {lit}`retry_at` back, unless the count was reset while
{lit}`retry_at` was more than the first interval away. -/
theorem retryAt_kept_iff {config : Config} {s s' : State} {k k' : Kernel} {t : Instant}
    (h : Paced s k) (hfailing : s.phase.failing = true) (hs : Step config s (.now t) s')
    (hk : k.step (.now t) = some k') :
    s.retryAt ≤ s'.retryAt ↔ (s.failures = 0 → s.retryAt ≤ t + fromMillis 200) := by
  rcases failure_recorded hfailing hs with ⟨hcount, hretry⟩
  rw [hretry, hcount, backOff_saturatingSucc]
  by_cases hzero : s.failures = 0
  · simp [hzero, backOff_one]
  · have hahead := h.ahead hzero
    have hclock : k.clock ≤ t := Kernel.clock_now hk ▸ Kernel.clock_le hk
    have hmono : backOff s.failures ≤ backOff (s.failures + 1) := backOff_mono (by omega)
    simp only [hzero, false_imp_iff, iff_true]
    exact hahead.trans (Nat.add_le_add hclock hmono)

/-! ## The laws of the back-off -/

/-- The run {lit}`es` handles a start-up failure at {lit}`t`, after
{lit}`earlier` and before {lit}`later`; {lit}`s` and {lit}`s'` are the states
around the step. -/
structure FailureAt (config : Config) (t₀ : Instant) (es earlier : List Event) (t : Instant)
    (later : List Event) (s s' : State) : Prop where
  split : es = earlier ++ .now t :: later
  before : ∃ k, LabelledMachine.exec (supervised config) (initial t₀) earlier = some (s, k)
  after : ∃ k, LabelledMachine.exec (supervised config) (initial t₀) (earlier ++ [.now t]) =
    some (s', k)
  failing : s.phase.failing = true

/-- No failure meets a reset count while {lit}`retry_at` is further away than the
first interval. -/
def Unhurried (config : Config) (t₀ : Instant) (es : List Event) : Prop :=
  ∀ earlier t later s s', FailureAt config t₀ es earlier t later s s' → s.failures = 0 →
    s.retryAt ≤ t + fromMillis 200

/-- Every failure keeps {lit}`retry_at` from moving forward, and no fork is tried
before the interval is over. -/
structure BacksOff (config : Config) (t₀ : Instant) (es : List Event) : Prop where
  never_earlier : ∀ earlier t later s s', FailureAt config t₀ es earlier t later s s' →
    s.retryAt ≤ s'.retryAt
  no_fork : ∀ earlier t between rest s s' s₁ k₁ reply,
    FailureAt config t₀ es earlier t (between ++ rest) s s' →
    LabelledMachine.exec (supervised config) (initial t₀) (earlier ++ .now t :: between) =
      some (s₁, k₁) →
    (step config s₁ (.fork reply)).isSome → t + backOff s'.failures ≤ k₁.clock

section Laws

variable {config : Config} {t₀ t : Instant} {es earlier later : List Event} {s s' : State}

/-- The step of a failure, on both sides, and the run that leads to it. -/
theorem FailureAt.step (h : FailureAt config t₀ es earlier t later s s') :
    ∃ k k', Paced s k ∧ Step config s (.now t) s' ∧ k.step (.now t) = some k' ∧
      LabelledMachine.exec (supervised config) (initial t₀) (earlier ++ [.now t]) =
        some (s', k') := by
  rcases h.before with ⟨k, hbefore⟩
  rcases h.after with ⟨k', hafter⟩
  rcases LabelledMachine.exec_concat_eq_some_iff.mp hafter with ⟨x, hx, hstep⟩
  cases hbefore.symm.trans hx
  rcases LabelledMachine.sync_eq_some_iff.mp hstep with ⟨hs, hk⟩
  exact ⟨k, k', run_paced hbefore, step_cases hs, hk, hafter⟩

/-- The count that is reached and the interval that goes with it. -/
theorem FailureAt.retryAt_eq (h : FailureAt config t₀ es earlier t later s s') :
    s'.failures = saturatingSucc s.failures ∧ s'.retryAt = t + backOff s'.failures := by
  rcases h.step with ⟨k, k', -, hs, -, -⟩
  exact failure_recorded h.failing hs

/-- The retry time moves back only behind a first failure, when it was set later than that
failure's pause. -/
theorem FailureAt.never_earlier_iff (h : FailureAt config t₀ es earlier t later s s') :
    s.retryAt ≤ s'.retryAt ↔ (s.failures = 0 → s.retryAt ≤ t + fromMillis 200) := by
  rcases h.step with ⟨k, k', hpaced, hs, hk, -⟩
  exact retryAt_kept_iff hpaced h.failing hs hk

/-- The run from the failure on, as a run of its own. -/
theorem FailureAt.rest (h : FailureAt config t₀ es earlier t later s s') {fs : List Event}
    {x : State × Kernel}
    (hrun : LabelledMachine.exec (supervised config) (initial t₀) (earlier ++ .now t :: fs) =
      some x) :
    ∃ k', k'.clock = t ∧ LabelledMachine.exec (supervised config) (s', k') fs = some x := by
  rcases h.step with ⟨k, k', -, -, hk, hafter⟩
  rw [List.append_cons, LabelledMachine.exec_append, hafter] at hrun
  exact ⟨k', Kernel.clock_now hk, hrun⟩

/-- A fork is tried only behind {lit}`retry_at`. -/
theorem fork_due {k : Kernel} {reply : Reply Pid} (h : Paced s k)
    (hfork : (Manager.step config s (.fork reply)).isSome) : s.retryAt ≤ k.clock := by
  rcases Option.isSome_iff_exists.mp hfork with ⟨u, hu⟩
  apply h.due
  cases step_cases hu
  case forked hphase => rw [hphase]; rfl
  case forkFailed hphase => rw [hphase]; rfl

/-- While no failure moves {lit}`retry_at` forward, none of the run does. -/
theorem retryAt_kept_run
    (hkept : ∀ earlier t later s s', FailureAt config t₀ es earlier t later s s' →
      s.retryAt ≤ s'.retryAt)
    {begun fs rest : List Event} {x y : State × Kernel} (hes : es = begun ++ (fs ++ rest))
    (hbegun : LabelledMachine.exec (supervised config) (initial t₀) begun = some x)
    (hrun : LabelledMachine.exec (supervised config) x fs = some y) :
    x.1.retryAt ≤ y.1.retryAt := by
  induction fs using List.reverseRecOn generalizing y rest with
  | nil =>
      cases hrun
      exact le_rfl
  | append_singleton fs e ih =>
      rcases LabelledMachine.exec_concat_eq_some_iff.mp hrun with ⟨z, hz, hstep⟩
      have hsplit : es = begun ++ (fs ++ e :: rest) := by simp [hes]
      apply (ih hsplit hz).trans
      have hs := step_cases (LabelledMachine.sync_eq_some_iff.mp hstep).1
      rcases backOff_cases hs with ⟨hretry, -⟩ | ⟨t, hfailing, rfl, -, -⟩
      · exact hretry.ge
      · have hbefore : LabelledMachine.exec (supervised config) (initial t₀) (begun ++ fs) =
            some z := by
          rw [LabelledMachine.exec_append, hbegun]
          exact hz
        exact hkept (begun ++ fs) t rest z.1 y.1 {
          split := by simp [hes]
          before := ⟨z.2, hbefore⟩
          after := ⟨y.2, LabelledMachine.exec_concat hbefore hstep⟩
          failing := hfailing }

/-- Whatever the loop does after a failure, the first interval is kept. -/
theorem run_floor (h : FailureAt config t₀ es earlier t later s s') {fs : List Event}
    {s₁ : State} {k₁ : Kernel}
    (hrun : LabelledMachine.exec (supervised config) (initial t₀) (earlier ++ .now t :: fs) =
      some (s₁, k₁)) :
    t + fromMillis 200 ≤ s₁.retryAt := by
  rcases h.rest hrun with ⟨k', hclock, hrest⟩
  rcases h.retryAt_eq with ⟨hcount, hretry⟩
  have hfloor : t + fromMillis 200 ≤ s'.retryAt ∧ t ≤ k'.clock := by
    rw [hretry, hcount, hclock]
    exact ⟨Nat.add_le_add_left (first_le_backOff _) t, le_rfl⟩
  refine (LabelledMachine.exec_invariant
    (I := fun x => t + fromMillis 200 ≤ x.1.retryAt ∧ t ≤ x.2.clock) ?_ hfloor hrest).1
  rintro x e x' ⟨hx, hclock⟩ hstep
  rcases LabelledMachine.sync_eq_some_iff.mp hstep with ⟨hs, hk⟩
  refine ⟨?_, hclock.trans (Kernel.clock_le hk)⟩
  rcases backOff_cases (step_cases hs) with ⟨hretry, -⟩ | ⟨u, -, rfl, hcount, hretry⟩
  · rw [hretry]
    exact hx
  · have hlater : t ≤ u := Kernel.clock_now hk ▸ hclock.trans (Kernel.clock_le hk)
    rw [hretry, hcount]
    exact Nat.add_le_add hlater (first_le_backOff _)

end Laws

/-- The back-off intervals are kept exactly in the unhurried runs. -/
theorem supervise_backs_off_iff (config : Config) (t₀ : Instant) (es : List Event) :
    BacksOff config t₀ es ↔ Unhurried config t₀ es := by
  constructor
  · intro h earlier t later s s' hfailure
    exact hfailure.never_earlier_iff.mp (h.never_earlier earlier t later s s' hfailure)
  · intro h
    have hkept : ∀ earlier t later s s', FailureAt config t₀ es earlier t later s s' →
        s.retryAt ≤ s'.retryAt := by
      intro earlier t later s s' hfailure
      exact hfailure.never_earlier_iff.mpr (h earlier t later s s' hfailure)
    refine ⟨hkept, ?_⟩
    intro earlier t between rest s s' s₁ k₁ reply hfailure hrun hfork
    rcases hfailure.step with ⟨k, k', -, -, -, hafter⟩
    have hrest : LabelledMachine.exec (supervised config) (s', k') between = some (s₁, k₁) := by
      rw [List.append_cons, LabelledMachine.exec_append, hafter] at hrun
      exact hrun
    have hretry : s'.retryAt ≤ s₁.retryAt :=
      retryAt_kept_run hkept (by rw [hfailure.split, List.append_cons]) hafter hrest
    calc
      t + backOff s'.failures = s'.retryAt := hfailure.retryAt_eq.2.symm
      _ ≤ s₁.retryAt := hretry
      _ ≤ k₁.clock := fork_due (run_paced hrun) hfork

/-- Four workers start; two fail, one exits healthily and one more fails. -/
def mixedExits : List Event :=
  .now 0 ::
    [11, 12, 13, 14].flatMap (fun pid => [.tau, .socketpair (.ok (2 * pid, 2 * pid + 1)),
      .fork (.ok pid), .close (2 * pid + 1), .now 0]) ++
    [.tau, .poll (.ok 1), .recv 11 22 none, .recv 12 24 none, .recv 13 26 none, .recv 14 28 none,
      .tau, .read none, .clockGettime 0, .tau, .tau, .tau, .tau, .tau,
      .waitpid (some (11, .exited 1)), .now 0, .now 0, .close 22,
      .waitpid (some (12, .exited 1)), .now 0]

/-- What follows the second failure, up to the next fork. -/
def earlyRetry : List Event :=
  [.close 24, .waitpid (some (13, .exited 0)), .close 26,
    .waitpid (some (14, .exited 1)), .now 0, .now 0, .close 28, .waitpid none, .tau,
    .now (fromMillis 300), .tau, .socketpair (.ok (5, 6))]

/-- The second failure calls for 400 ms, but a fork is tried after 300 ms. -/
theorem healthy_exit_shortens_backOff :
    ∃ s k, LabelledMachine.exec (supervised { sampleConfig with workers := 4 }) (initial 0)
        (mixedExits ++ .now 0 :: earlyRetry) = some (s, k) ∧
      ¬ BacksOff { sampleConfig with workers := 4 } 0 (mixedExits ++ .now 0 :: earlyRetry) := by
  refine ⟨_, _, rfl, ?_⟩
  intro h
  have hlate := h.no_fork mixedExits 0 earlyRetry [] _ _ _ _ (.ok 15)
    { split := rfl
      before := ⟨_, rfl⟩
      after := ⟨_, rfl⟩
      failing := rfl } rfl rfl
  exact absurd hlate (by decide)

end Manager

end Polychrome
