import Polychrome.Request.Callbacks

/-!
# The loop of {lit}`write_output`

This module embeds {lit}`write_output` with the arithmetic of its loop: a block of any
{lit}`size_t` length goes out in parts of an {lit}`int`, and {lit}`fcgi_write` may take
less of a part than it got, or fail.  What it answers may depend on all calls before.

Main results:

- Definition {lit}`turn`: one turn of the loop.
- Theorem {lit}`writeOutput_delivers`: what any block and any answers come to.
- Theorem {lit}`request_delivers`: the callbacks of a request make the same calls.
-/

namespace Polychrome

namespace Request

namespace WriteOutput

open Clib

/-! ## The loop -/

/-- A call of {lit}`fcgi_write`: where its part begins in the block, the count it gets
and its result. -/
structure Call where
  offset : Nat
  count : Int
  result : Int
deriving DecidableEq, Repr

/-- The part of the block that a call gets. -/
def Call.handed (data : Bytes) (call : Call) : Bytes :=
  (data.drop call.offset).take call.count.toNat

/-- The part of the block that a call has accepted. -/
def Call.sent (data : Bytes) (call : Call) : Bytes :=
  (data.drop call.offset).take call.result.toNat

/-- The number of bytes that the calls have accepted. -/
def accepted (calls : List Call) : Nat := (calls.map fun call => call.result.toNat).sum

/-- How {lit}`write_output` ends. -/
inductive Ending
  | returned (written : Nat)
  /-- {lit}`php_handle_aborted_connection` does not come back -/
  | bailedOut
deriving DecidableEq, Repr

/-- The calls that {lit}`write_output` makes, and its end. -/
structure Run where
  calls : List Call
  ending : Ending
deriving DecidableEq, Repr

/-- The static variables that {lit}`write_output` reads and what it calls. -/
structure Surroundings where
  /-- {lit}`request` is not {lit}`NULL` -/
  request : Bool
  responseFinished : Bool
  /-- {lit}`fwrite(data, 1, length, stderr)` -/
  fwrite : Bytes → Nat
  /-- {lit}`fcgi_write` after these calls, with this count -/
  fcgiWrite : List Call → Int → Int
  /-- {lit}`php_handle_aborted_connection` bails out -/
  bailsOut : List Call → Bool

/-- The local variable {lit}`written`, and the calls so far. -/
structure Loop where
  written : Nat
  calls : List Call
deriving DecidableEq, Repr

/-- What a turn of the loop leads to. -/
inductive Turn
  | again (loop : Loop)
  | over (run : Run)
deriving DecidableEq, Repr

section Source

variable (s : Surroundings)

/-- One turn of the loop, its condition included. -/
def turn (length : Nat) (loop : Loop) : Turn :=
  if loop.written < length then
    let part := partOf length loop.written
    let result := s.fcgiWrite loop.calls part
    let calls := loop.calls ++ [{ offset := loop.written, count := part, result := result }]
    if result ≤ 0 then
      .over
        { calls := calls
          ending := if s.bailsOut calls then .bailedOut else .returned loop.written }
    else .again { written := (loop.written + cSize result) % 2 ^ 64, calls := calls }
  else .over { calls := loop.calls, ending := .returned loop.written }

/-- The loop, with a bound on its turns. -/
def writeLoop (length : Nat) : Nat → Loop → Option Run
  | 0, _ => none
  | fuel + 1, loop =>
      match turn s length loop with
      | .again loop => writeLoop length fuel loop
      | .over run => some run

/-- {lit}`write_output(data, length)` -/
def writeOutput (fuel : Nat) (data : Bytes) : Option Run :=
  if !s.request then some { calls := [], ending := .returned (s.fwrite data) }
  else if s.responseFinished then some { calls := [], ending := .returned data.length }
  else writeLoop s data.length fuel { written := 0, calls := [] }

end Source

/-- {lit}`fcgi_write` takes at most the count it got. -/
def Surroundings.Legal (s : Surroundings) : Prop :=
  ∀ calls count, 0 < count → s.fcgiWrite calls count ≤ count

/-! ## What one turn does -/

/-- Nothing is accepted before the first call. -/
@[simp] theorem accepted_nil : accepted [] = 0 := rfl

/-- A call adds what it was answered. -/
@[simp] theorem accepted_concat (calls : List Call) (call : Call) :
    accepted (calls ++ [call]) = accepted calls + call.result.toNat := by
  simp [accepted]

/-- The call fits behind so many bytes of a block. -/
structure Next (length written : Nat) (call : Call) : Prop where
  offset : call.offset = written
  count : call.count = partOf length written
  positive : 0 < call.count
  bounded : call.count ≤ intMax
  inside : call.offset + call.count ≤ length
  legal : call.result ≤ call.count

namespace Next

variable {length written : Nat} {call : Call}

/-- A call is made only where something is left to write. -/
theorem lt (h : Next length written call) : written < length := by
  have hoffset := h.offset
  have hpositive := h.positive
  have hinside := h.inside
  omega

/-- No call has more accepted than is left. -/
theorem le (h : Next length written call) : written + call.result.toNat ≤ length := by
  have hoffset := h.offset
  have hpositive := h.positive
  have hinside := h.inside
  have hlegal := h.legal
  omega

end Next

/-- The call that a turn makes. -/
def Surroundings.call (s : Surroundings) (length : Nat) (loop : Loop) : Call where
  offset := loop.written
  count := partOf length loop.written
  result := s.fcgiWrite loop.calls (partOf length loop.written)

/-- A call is answered by {lit}`fcgi_write`. -/
theorem call_result (s : Surroundings) (length : Nat) (loop : Loop) :
    (s.call length loop).result = s.fcgiWrite loop.calls (s.call length loop).count := by
  simp only [Surroundings.call]

/-- The next part is not empty, fits an {lit}`int` and lies inside the block. -/
theorem next_part {s : Surroundings} (hlegal : s.Legal) {length : Nat} {loop : Loop}
    (h : loop.written < length) : Next length loop.written (s.call length loop) := by
  unfold Surroundings.call
  have hmin : partOf length loop.written = (min (length - loop.written) intMax : Nat) := partOf_eq
  have hmax : 0 < intMax := by decide
  generalize hpart : partOf length loop.written = part at hmin ⊢
  have hpositive : 0 < part := by omega
  exact
    { offset := rfl
      count := hpart.symm
      positive := hpositive
      bounded := by
        change part ≤ intMax
        omega
      inside := by
        change (loop.written : Int) + part ≤ length
        omega
      legal := hlegal _ _ hpositive }

/-- The loop after a call. -/
def Loop.after (loop : Loop) (call : Call) : Loop :=
  { written := loop.written + call.result.toNat, calls := loop.calls ++ [call] }

/-- The loop has stopped at a call that failed. -/
def Surroundings.stopped (s : Surroundings) (loop : Loop) (call : Call) : Run where
  calls := loop.calls ++ [call]
  ending := if s.bailsOut (loop.calls ++ [call]) then .bailedOut else .returned loop.written

/-- Everything a turn can do within a block. -/
theorem turn_cases {s : Surroundings} (hlegal : s.Legal) {length : Nat}
    (hlength : length < 2 ^ 64) {loop : Loop} (hbound : loop.written ≤ length) :
    (∃ call, Next length loop.written call ∧ call.result = s.fcgiWrite loop.calls call.count ∧
      0 < call.result ∧ turn s length loop = .again (loop.after call)) ∨
    (∃ call, Next length loop.written call ∧ call.result = s.fcgiWrite loop.calls call.count ∧
      call.result ≤ 0 ∧ turn s length loop = .over (s.stopped loop call)) ∨
    (loop.written = length ∧
      turn s length loop = .over { calls := loop.calls, ending := .returned loop.written }) := by
  by_cases hmore : loop.written < length
  · have hnext := next_part hlegal hmore
    rw [turn, if_pos hmore]
    dsimp only
    split
    case isTrue hfailed =>
      exact Or.inr (Or.inl ⟨s.call length loop, hnext, call_result s length loop, hfailed, rfl⟩)
    case isFalse hresult =>
      have hpositive : 0 < (s.call length loop).result := by
        rw [not_le] at hresult
        simpa only [Surroundings.call] using hresult
      have hsize := cSize_of_le hpositive.le (hnext.legal.trans hnext.bounded)
      have hsum := hnext.le
      refine Or.inl ⟨s.call length loop, hnext, call_result s length loop, hpositive, ?_⟩
      have hwritten : (loop.written + cSize (s.call length loop).result) % 2 ^ 64 =
          loop.written + (s.call length loop).result.toNat := by
        rw [hsize, Nat.mod_eq_of_lt (hsum.trans_lt hlength)]
      rw [Loop.after, ← hwritten]
      simp only [Surroundings.call]
  · rw [turn, if_neg hmore]
    exact Or.inr (Or.inr ⟨by omega, rfl⟩)

/-! ## What the calls come to -/

/-- The calls go over a block in order. -/
structure InOrder (data : Bytes) (calls : List Call) : Prop where
  /-- Each hands over a part of the block. -/
  inside : ∀ call ∈ calls, 0 < call.count ∧ call.count ≤ intMax ∧
    call.offset + call.count ≤ data.length
  /-- Each begins where what was accepted before it ends. -/
  consecutive : ∀ before call after, calls = before ++ call :: after →
    call.offset = accepted before
  /-- What they have accepted is the beginning of the block. -/
  sent : calls.flatMap (Call.sent data) = data.take (accepted calls)

/-- Every call has got what {lit}`fcgi_write` answers after the calls before it. -/
def Answered (s : Surroundings) (calls : List Call) : Prop :=
  ∀ before call after, calls = before ++ call :: after →
    call.result = s.fcgiWrite before call.count

/-- A run delivers a block as far as {lit}`fcgi_write` accepts it. -/
structure Delivered (s : Surroundings) (data : Bytes) (run : Run) : Prop
    extends InOrder data run.calls where
  answered : Answered s run.calls
  /-- Nothing follows a call that fails. -/
  stops : ∀ before call after, run.calls = before ++ call :: after → call.result ≤ 0 →
    after = []
  /-- What is returned is the number of bytes accepted, all of them unless a call failed. -/
  returned : ∀ written, run.ending = .returned written →
    written = accepted run.calls ∧
      (written = data.length ↔ ∀ call ∈ run.calls, 0 < call.result)
  /-- It ends without returning if the handler, called for a call that failed, bails out. -/
  bailedOut : run.ending = .bailedOut ↔
    (∃ call ∈ run.calls, call.result ≤ 0) ∧ s.bailsOut run.calls = true

/-- A split of a list that has grown at its end. -/
theorem split_concat {α : Type} {l before after : List α} {a b : α}
    (h : l ++ [a] = before ++ b :: after) :
    (before = l ∧ b = a ∧ after = []) ∨ ∃ after', l = before ++ b :: after' := by
  rcases List.eq_nil_or_concat after with rfl | ⟨after', c, rfl⟩
  · rcases List.append_inj' h rfl with ⟨rfl, hlast⟩
    cases hlast
    exact Or.inl ⟨rfl, rfl, rfl⟩
  · rw [List.concat_eq_append, ← List.cons_append, ← List.append_assoc] at h
    rcases List.append_inj' h rfl with ⟨rfl, hlast⟩
    cases hlast
    exact Or.inr ⟨after', rfl⟩

/-- No calls are in order. -/
theorem InOrder.nil (data : Bytes) : InOrder data [] where
  inside := by simp
  consecutive := by simp
  sent := by simp

/-- One more call, which begins where the block is accepted so far. -/
theorem InOrder.concat {data : Bytes} {calls : List Call} {call : Call} (h : InOrder data calls)
    (hnext : Next data.length (accepted calls) call) : InOrder data (calls ++ [call]) where
  inside := by
    rw [List.forall_mem_append, List.forall_mem_singleton]
    exact ⟨h.inside, hnext.positive, hnext.bounded, hnext.inside⟩
  consecutive before call' after hsplit := by
    rcases split_concat hsplit with ⟨rfl, rfl, -⟩ | ⟨after', hbefore⟩
    · exact hnext.offset
    · exact h.consecutive before call' after' hbefore
  sent := by
    have hsent : call.sent data = (data.drop (accepted calls)).take call.result.toNat := by
      rw [Call.sent, hnext.offset]
    rw [List.flatMap_append, h.sent, List.flatMap_singleton, hsent, accepted_concat, List.take_add]

/-- No calls are answered. -/
theorem Answered.nil (s : Surroundings) : Answered s [] := by
  intro before call after hsplit
  simp at hsplit

/-- An answered call goes behind the answered calls. -/
theorem Answered.concat {s : Surroundings} {calls : List Call} {call : Call} (h : Answered s calls)
    (hcall : call.result = s.fcgiWrite calls call.count) : Answered s (calls ++ [call]) := by
  intro before call' after hsplit
  rcases split_concat hsplit with ⟨rfl, rfl, -⟩ | ⟨after', hbefore⟩
  · exact hcall
  · exact h before call' after' hbefore

/-- The loop is under way: all calls have accepted something. -/
structure Underway (s : Surroundings) (data : Bytes) (loop : Loop) : Prop where
  order : InOrder data loop.calls
  answered : Answered s loop.calls
  written : loop.written = accepted loop.calls
  bound : loop.written ≤ data.length
  positive : ∀ call ∈ loop.calls, 0 < call.result

/-- The loop begins at the first byte. -/
theorem Underway.start (s : Surroundings) (data : Bytes) :
    Underway s data { written := 0, calls := [] } where
  order := .nil data
  answered := .nil s
  written := rfl
  bound := Nat.zero_le _
  positive := by simp

/-- A turn that goes on keeps the loop under way. -/
theorem Underway.again {s : Surroundings} {data : Bytes} {loop : Loop} {call : Call}
    (h : Underway s data loop) (hnext : Next data.length loop.written call)
    (hcall : call.result = s.fcgiWrite loop.calls call.count) (hresult : 0 < call.result) :
    Underway s data (loop.after call) where
  order := h.order.concat (h.written ▸ hnext)
  answered := h.answered.concat hcall
  written := by rw [Loop.after, accepted_concat, h.written]
  bound := hnext.le
  positive := by
    change ∀ call' ∈ loop.calls ++ [call], 0 < call'.result
    rw [List.forall_mem_append, List.forall_mem_singleton]
    exact ⟨h.positive, hresult⟩

/-- The loop has written everything. -/
theorem Underway.complete {s : Surroundings} {data : Bytes} {loop : Loop}
    (h : Underway s data loop) (hwritten : loop.written = data.length) :
    Delivered s data { calls := loop.calls, ending := .returned loop.written } where
  toInOrder := h.order
  answered := h.answered
  stops before call after hsplit hresult := by
    have hcalls : loop.calls = before ++ call :: after := hsplit
    have hpositive := h.positive call (by simp [hcalls])
    omega
  returned written hending := by
    cases hending
    exact ⟨h.written, iff_of_true hwritten h.positive⟩
  bailedOut := by
    simp only [reduceCtorEq, false_iff, not_and]
    rintro ⟨call, hmem, hresult⟩
    have hpositive := h.positive call hmem
    omega

/-- The loop stops at a call that fails. -/
theorem Underway.failed {s : Surroundings} {data : Bytes} {loop : Loop} {call : Call}
    (h : Underway s data loop) (hnext : Next data.length loop.written call)
    (hcall : call.result = s.fcgiWrite loop.calls call.count) (hresult : call.result ≤ 0) :
    Delivered s data (s.stopped loop call) where
  toInOrder := h.order.concat (h.written ▸ hnext)
  answered := h.answered.concat hcall
  stops before call' after hsplit hresult' := by
    rcases split_concat hsplit with ⟨-, -, hafter⟩ | ⟨after', hbefore⟩
    · exact hafter
    · have hpositive := h.positive call' (by simp [hbefore])
      omega
  returned written hreturned := by
    have hwritten : written = loop.written := by
      rw [Surroundings.stopped] at hreturned
      split at hreturned
      · cases hreturned
      · cases hreturned
        rfl
    subst hwritten
    refine ⟨?_, iff_of_false hnext.lt.ne ?_⟩
    · rw [Surroundings.stopped, accepted_concat, ← h.written]
      omega
    · intro hpositive
      have hlast := hpositive call (by simp [Surroundings.stopped])
      omega
  bailedOut := by
    have hfailed : ∃ call' ∈ (s.stopped loop call).calls, call'.result ≤ 0 :=
      ⟨call, by simp [Surroundings.stopped], hresult⟩
    rw [and_iff_right hfailed]
    unfold Surroundings.stopped
    cases s.bailsOut (loop.calls ++ [call]) <;> simp

/-- From a loop under way, enough turns deliver the block. -/
theorem writeLoop_delivers {s : Surroundings} (hlegal : s.Legal) {data : Bytes}
    (hlength : data.length < 2 ^ 64) {loop : Loop} (h : Underway s data loop) :
    ∃ run, (∀ fuel, data.length - loop.written < fuel →
      writeLoop s data.length fuel loop = some run) ∧ Delivered s data run := by
  -- Each turn that goes on leaves less of the block.
  induction hleft : data.length - loop.written using Nat.strong_induction_on generalizing loop with
  | _ left ih =>
      have hover : ∀ run, turn s data.length loop = .over run →
          ∀ fuel, left < fuel → writeLoop s data.length fuel loop = some run := by
        intro run hturn fuel hfuel
        cases fuel with
        | zero => omega
        | succ fuel => rw [writeLoop, hturn]
      rcases turn_cases hlegal hlength h.bound with ⟨call, hnext, hcall, hresult, hturn⟩ |
        ⟨call, hnext, hcall, hresult, hturn⟩ | ⟨hwritten, hturn⟩
      · have hless : data.length - (loop.after call).written < left := by
          change data.length - (loop.written + call.result.toNat) < left
          have hless := hnext.lt
          omega
        rcases ih _ hless (h.again hnext hcall hresult) rfl with ⟨run, hrun, hdelivered⟩
        refine ⟨run, ?_, hdelivered⟩
        intro fuel hfuel
        cases fuel with
        | zero => omega
        | succ fuel =>
            rw [writeLoop, hturn]
            exact hrun fuel (by omega)
      · exact ⟨_, hover _ hturn, h.failed hnext hcall hresult⟩
      · exact ⟨_, hover _ hturn, h.complete hwritten⟩

/-- On an open, unfinished request any block is delivered, with more fuel than bytes. -/
theorem writeOutput_delivers (s : Surroundings) (data : Bytes) (hlength : data.length < 2 ^ 64)
    (hrequest : s.request = true) (hopen : s.responseFinished = false) (hlegal : s.Legal) :
    ∃ run, (∀ fuel, data.length < fuel → writeOutput s fuel data = some run) ∧
      Delivered s data run := by
  rcases writeLoop_delivers hlegal hlength (.start s data) with ⟨run, hrun, hdelivered⟩
  refine ⟨run, ?_, hdelivered⟩
  intro fuel hfuel
  rw [writeOutput, hrequest, hopen]
  exact hrun fuel hfuel

/-- A connection that takes two bytes a call, and fails from the third call on. -/
def shortWrites : Surroundings where
  request := true
  responseFinished := false
  fwrite := List.length
  fcgiWrite calls count := if calls.length < 2 then min count 2 else -1
  bailsOut _ := false

/-- These answers are legal. -/
theorem legal_shortWrites : shortWrites.Legal := by
  intro calls count hcount
  change (if calls.length < 2 then min count 2 else -1) ≤ count
  split <;> omega

/-- Five bytes are delivered two at a time. -/
theorem writeOutput_delivers_sample :
    (bytes "hello").length < 2 ^ 64 ∧ shortWrites.request = true ∧
      shortWrites.responseFinished = false ∧ shortWrites.Legal ∧
      ∃ run, (∀ fuel, (bytes "hello").length < fuel →
        writeOutput shortWrites fuel (bytes "hello") = some run) ∧
          Delivered shortWrites (bytes "hello") run :=
  ⟨by decide, rfl, rfl, legal_shortWrites,
    writeOutput_delivers shortWrites (bytes "hello") (by decide) rfl rfl legal_shortWrites⟩

example : writeOutput shortWrites 6 (bytes "hello") =
    some
      { calls :=
          [{ offset := 0, count := 5, result := 2 }, { offset := 2, count := 3, result := 2 },
            { offset := 4, count := 1, result := -1 }]
        ending := .returned 4 } := by
  decide +kernel

/-! ## The callbacks of a request -/

section Callbacks

open Callbacks

variable {view : Posix.View} {applicationRoot : Bytes} {params : Params}

/-- The trace that a call leaves in the history of a request. -/
def Call.op (data : Bytes) (call : Call) : Op := .output (call.handed data) call.result.toNat

/-- A request whose innermost callback is in the loop. -/
def Loop.inRequest (c : Callbacks.State) (data : Bytes) (todo : List Bytes) (frames : List Frame)
    (loop : Loop) : Callbacks.State :=
  { c with
    frames := .output data loop.written todo :: frames
    log := c.log ++ loop.calls.map (Call.op data) }

/-- A request whose innermost callback has left the loop at a call that failed. -/
def Loop.aborted (c : Callbacks.State) (data : Bytes) (todo : List Bytes) (frames : List Frame)
    (loop : Loop) : Callbacks.State :=
  { c with
    frames := .aborted todo :: frames
    log := c.log ++ loop.calls.map (Call.op data)
    outputs := c.outputs ++ [{ data := data, written := loop.written, cut := true }] }

/-- A request makes the next call of the loop. -/
theorem step_next {c : Callbacks.State} {data : Bytes} {todo : List Bytes} {frames : List Frame}
    {loop : Loop} {call : Call} (hrunning : c.running = true)
    (hnext : Next data.length loop.written call) :
    Callbacks.step view applicationRoot params (loop.inRequest c data todo frames)
        (.fcgiWrite call.result) =
      some (if call.result ≤ 0 then (loop.after call).aborted c data todo frames
        else (loop.after call).inRequest c data todo frames) := by
  have hstill : (loop.inRequest c data todo frames).running = true := hrunning
  have hmore : loop.written < data.length ∧ call.result ≤ partOf data.length loop.written :=
    ⟨hnext.lt, hnext.count ▸ hnext.legal⟩
  have hhanded : (data.drop loop.written).take (partOf data.length loop.written).toNat =
      call.handed data := by
    rw [Call.handed, hnext.offset, hnext.count]
  have hop : ∀ n, call.result.toNat = n → .output (call.handed data) n = call.op data := by
    rintro _ rfl
    rfl
  rw [Callbacks.step, if_pos hstill]
  simp only [State.resume, Loop.inRequest]
  rw [if_pos hmore, hhanded]
  by_cases hresult : call.result ≤ 0
  · have hzero : call.result.toNat = 0 := by omega
    rw [if_pos hresult, if_pos hresult, hop 0 hzero]
    simp [Loop.aborted, Loop.after, hzero]
  · rw [if_neg hresult, if_neg hresult, hop _ rfl]
    simp [Loop.after]

/-- The request when the calls of a run are over. -/
def Run.inRequest (c : Callbacks.State) (data : Bytes) (todo : List Bytes) (frames : List Frame)
    (run : Run) : Callbacks.State :=
  if ∀ call ∈ run.calls, 0 < call.result then
    Loop.inRequest c data todo frames { written := data.length, calls := run.calls }
  else Loop.aborted c data todo frames { written := accepted run.calls, calls := run.calls }

/-- The answers of {lit}`fcgi_write`, as the callbacks get them. -/
def events (calls : List Call) : List Callbacks.Event :=
  calls.map fun call => .fcgiWrite call.result

/-- The calls of the loop are calls of the machine. -/
theorem exec_writeLoop {s : Surroundings} (hlegal : s.Legal) {data : Bytes}
    (hlength : data.length < 2 ^ 64) {c : Callbacks.State} (hrunning : c.running = true)
    (todo : List Bytes) (frames : List Frame) {loop : Loop} (h : Underway s data loop) {fuel : Nat}
    {run : Run} (hrun : writeLoop s data.length fuel loop = some run) :
    ∃ calls, run.calls = loop.calls ++ calls ∧
      LabelledMachine.exec (Callbacks.step view applicationRoot params)
        (loop.inRequest c data todo frames) (events calls) =
          some (run.inRequest c data todo frames) := by
  induction fuel generalizing loop with
  | zero => cases hrun
  | succ fuel ih =>
      rw [writeLoop] at hrun
      rcases turn_cases hlegal hlength h.bound with ⟨call, hnext, hcall, hresult, hturn⟩ |
        ⟨call, hnext, hcall, hresult, hturn⟩ | ⟨hwritten, hturn⟩
      · rw [hturn] at hrun
        rcases ih (h.again hnext hcall hresult) hrun with ⟨calls, hcalls, hexec⟩
        refine ⟨call :: calls, ?_, ?_⟩
        · rw [hcalls, Loop.after, List.append_assoc, List.singleton_append]
        · rw [events, List.map_cons, LabelledMachine.exec_cons, step_next hrunning hnext,
            if_neg (by omega), Option.bind_some]
          exact hexec
      · rw [hturn] at hrun
        cases hrun
        have hfailed : ¬ ∀ call' ∈ loop.calls ++ [call], 0 < call'.result := by
          intro hpositive
          have hlast := hpositive call (by simp)
          omega
        refine ⟨[call], rfl, ?_⟩
        rw [events, List.map_cons, LabelledMachine.exec_cons, step_next hrunning hnext,
          if_pos hresult, Option.bind_some, Run.inRequest, Surroundings.stopped]
        dsimp only
        rw [if_neg hfailed, accepted_concat, ← h.written]
        rfl
      · rw [hturn] at hrun
        cases hrun
        refine ⟨[], (List.append_nil _).symm, ?_⟩
        rw [Run.inRequest, if_pos h.positive, ← hwritten]
        rfl

/-- A request with the block in its innermost callback makes the same calls, and stands
behind the block or at the call that failed. -/
theorem exec_writeOutput {s : Surroundings} (hlegal : s.Legal) (hrequest : s.request = true)
    (hopen : s.responseFinished = false) {data : Bytes} (hlength : data.length < 2 ^ 64)
    {c : Callbacks.State} (hrunning : c.running = true) {todo : List Bytes} {frames : List Frame}
    (hframes : c.frames = .output data 0 todo :: frames) {fuel : Nat} {run : Run}
    (hrun : writeOutput s fuel data = some run) :
    LabelledMachine.exec (Callbacks.step view applicationRoot params) c (events run.calls) =
      some (run.inRequest c data todo frames) := by
  have hstart : Loop.inRequest c data todo frames { written := 0, calls := [] } = c := by
    rw [Loop.inRequest, ← hframes, List.map_nil, List.append_nil]
  rw [writeOutput, hrequest, hopen] at hrun
  rcases exec_writeLoop hlegal hlength hrunning todo frames (.start s data) hrun with
    ⟨calls, hcalls, hexec⟩
  rw [hstart] at hexec
  rw [hcalls]
  exact hexec

/-- The calls are appended to the log. -/
@[simp]
theorem Run.inRequest_log (c : Callbacks.State) (data : Bytes) (todo : List Bytes)
    (frames : List Frame) (run : Run) :
    (run.inRequest c data todo frames).log = c.log ++ run.calls.map (Call.op data) := by
  unfold Run.inRequest
  split <;> rfl

/-- The request stands behind the block, or at the abort. -/
@[simp]
theorem Run.inRequest_frames (c : Callbacks.State) (data : Bytes) (todo : List Bytes)
    (frames : List Frame) (run : Run) :
    (run.inRequest c data todo frames).frames =
      (if ∀ call ∈ run.calls, 0 < call.result then .output data data.length todo
        else .aborted todo) :: frames := by
  unfold Run.inRequest
  split <;> rfl

/-- What a request has seen accepted is what the call has sent. -/
theorem accepted_op {data : Bytes} {call : Call} (h : call.result ≤ call.count) :
    (call.op data).accepted = call.sent data := by
  rw [Call.op, Op.accepted, Call.handed, Call.sent, List.take_take, min_eq_left]
  omega

/-- No call is answered with more than it was given. -/
theorem Delivered.le {s : Surroundings} (hlegal : s.Legal) {data : Bytes} {run : Run}
    (h : Delivered s data run) {call : Call} (hcall : call ∈ run.calls) :
    call.result ≤ call.count := by
  rcases List.append_of_mem hcall with ⟨before, after, hsplit⟩
  rw [h.answered before call after hsplit]
  exact hlegal before call.count (h.inside call hcall).1

/-- What the connection has accepted grows by the beginning of the block. -/
theorem Delivered.accepted_inRequest {s : Surroundings} (hlegal : s.Legal) {data : Bytes}
    {run : Run} (h : Delivered s data run) (c : Callbacks.State) (todo : List Bytes)
    (frames : List Frame) :
    (run.inRequest c data todo frames).log.flatMap Op.accepted =
      c.log.flatMap Op.accepted ++ data.take (accepted run.calls) := by
  have hsent : run.calls.flatMap (fun call => (call.op data).accepted) =
      run.calls.flatMap (Call.sent data) :=
    List.flatMap_congr fun call hcall => accepted_op (h.le hlegal hcall)
  rw [Run.inRequest_log, List.flatMap_append, List.flatMap_map, hsent, h.sent]

end Callbacks

open Callbacks in
/-- A request that is about to write a block makes the calls of {lit}`write_output` and no
others; it stands behind the block then, or at the handler if a call failed. -/
theorem request_delivers (view : Posix.View) (applicationRoot : Bytes) (params : Params)
    (s : Surroundings) (data : Bytes) (c : Callbacks.State) (todo : List Bytes)
    (frames : List Frame) (hlength : data.length < 2 ^ 64) (hrequest : s.request = true)
    (hopen : s.responseFinished = false) (hlegal : s.Legal) (hrunning : c.running = true)
    (hframes : c.frames = .output data 0 todo :: frames) :
    ∃ run c', (∀ fuel, data.length < fuel → writeOutput s fuel data = some run) ∧
      Delivered s data run ∧
      LabelledMachine.exec (Callbacks.step view applicationRoot params) c (events run.calls) =
        some c' ∧
      c'.frames = (if ∀ call ∈ run.calls, 0 < call.result then .output data data.length todo
        else .aborted todo) :: frames ∧
      c'.log.flatMap Op.accepted =
        c.log.flatMap Op.accepted ++ data.take (accepted run.calls) := by
  rcases writeLoop_delivers hlegal hlength (.start s data) with ⟨run, hloop, hdelivered⟩
  have hrun : ∀ fuel, data.length < fuel → writeOutput s fuel data = some run := by
    intro fuel hfuel
    rw [writeOutput, hrequest, hopen]
    exact hloop fuel hfuel
  refine ⟨run, run.inRequest c data todo frames, hrun, hdelivered, ?_,
    Run.inRequest_frames c data todo frames run, hdelivered.accepted_inRequest hlegal c todo frames⟩
  exact exec_writeOutput hlegal hrequest hopen hlength hrunning hframes
    (hrun (data.length + 1) (by omega))

/-- The calls up to a script that writes a block. -/
def writingEvents : List Callbacks.Event :=
  (sampleEvents.take 21).map .child ++
    [.child (.requestStartup true), .child (.openScript true), .writeOutput (bytes "hello")]

/-- A request whose script writes a block that is taken in part. -/
theorem request_delivers_sample :
    ∃ c, LabelledMachine.exec (Callbacks.step sampleView (bytes "/srv") sampleParams)
        (Callbacks.start [] []) writingEvents = some c ∧
      ∃ run c', Delivered shortWrites (bytes "hello") run ∧
        LabelledMachine.exec (Callbacks.step sampleView (bytes "/srv") sampleParams) c
          (events run.calls) = some c' ∧
        c'.log.flatMap Callbacks.Op.accepted = (bytes "hello").take (accepted run.calls) := by
  obtain ⟨c, hexec, hrunning, hframes, hlog⟩ :
      ∃ c, LabelledMachine.exec (Callbacks.step sampleView (bytes "/srv") sampleParams)
          (Callbacks.start [] []) writingEvents = some c ∧
        c.running = true ∧ c.frames = [.output (bytes "hello") 0 []] ∧ c.log = [] :=
    ⟨_, rfl, rfl, rfl, rfl⟩
  obtain ⟨run, c', -, hdelivered, hcalls, -, haccepted⟩ :=
    request_delivers sampleView (bytes "/srv") sampleParams shortWrites (bytes "hello") c [] []
      (by decide) rfl rfl legal_shortWrites hrunning hframes
  rw [hlog, List.flatMap_nil, List.nil_append] at haccepted
  exact ⟨c, hexec, run, c', hdelivered, hcalls, haccepted⟩

end WriteOutput

end Request

end Polychrome
