import Polychrome.Client.Answer
import Polychrome.Client.Environment

/-!
# One request and its response

The client of {lit}`tests/fcgi.py` and a child talk over one connection.  PHP's FastCGI
library hands the child the parameters and the body that the client's records carry, and
puts what the child hands back into records of its own.

Main results:

- Theorem {lit}`reported_of_run`: what {lit}`protocol_error` writes for a request that is
  admitted.
- Theorem {lit}`exchange`: what a child gets of the request, and what the client gets
  back.
-/

namespace Polychrome

namespace Client

open Clib FastCgi Posix Python Request.Callbacks Stream
open Request hiding State start step

/-! ## Requests that are admitted -/

/-- {lit}`protocol_error(500, ..)` -/
def startupFailure : Bytes := bytes "PHP request startup failed.\n"

/-- What has been reported of an admitted request when the child is at a stage: a failed
start-up of PHP, and nothing else. -/
def Reported (es : List Event) (s : State) : Stage → Prop
  | .waiting | .read | .running =>
      .child (.requestStartup false) ∉ es ∧ s.log.filter refuses = []
  | .refusing =>
      .child (.requestStartup false) ∈ es ∧ s.refusal = (500, startupFailure) ∧
        s.log.filter refuses = []
  | .ending | .returned =>
      .child (.requestStartup false) ∉ es ∧ s.log.filter refuses = [] ∨
        .child (.requestStartup false) ∈ es ∧ s.log.filter refuses = told 500 startupFailure
  | .dead => True

section Runs

variable {view : View} {applicationRoot : Bytes} {params : Params} {info : Info}

/-- A step that reports nothing leaves the report as it is. -/
theorem Reported.kept {es : List Event} {s s' : State} {k : Stage} {e : Event}
    (h : Reported es s k) (he : e ≠ .child (.requestStartup false))
    (hlog : s'.log.filter refuses = s.log.filter refuses) (hrefusal : s'.refusal = s.refusal) :
    Reported (es ++ [e]) s' k := by
  have hmem : .child (.requestStartup false) ∈ es ++ [e] ↔
      Event.child (.requestStartup false) ∈ es := by
    simp [Ne.symm he]
  unfold Reported at h ⊢
  rw [hmem, hlog, hrefusal]
  exact h

/-- Nothing has been reported before the end of the start-up, so neither is at the end. -/
theorem Reported.ended {es : List Event} {s : State} {k k' : Stage} (h : Reported es s k)
    (hk : k = .waiting ∨ k = .read ∨ k = .running) (hk' : k' = .ending ∨ k' = .returned) :
    Reported es s k' := by
  have hnone : .child (.requestStartup false) ∉ es ∧ s.log.filter refuses = [] := by
    rcases hk with rfl | rfl | rfl <;> exact h
  rcases hk' with rfl | rfl <;> exact Or.inl hnone

/-- A verdict that admits the request leads to PHP. -/
theorem running_of_examine {gate gate' : Request.State} {decision : Child.Decision}
    (hverdict : examine view applicationRoot params = .admitted info)
    (hgate : Request.step view applicationRoot params gate (.examine decision) = some gate') :
    stage gate'.child.phase = .running := by
  rcases Option.bind_eq_some_iff.mp hgate with ⟨child, hchild, hrest⟩
  dsimp only at hrest
  rw [hverdict, Option.ite_none_right_eq_some] at hrest
  obtain ⟨rfl, hrest⟩ := hrest
  cases hrest
  cases Child.step_cases hchild with
  | moved _ hnext =>
      generalize gate.child.phase = p at hnext
      cases hnext with
      | admitted => rfl
      | refused hrefused => exact absurd rfl hrefused

/-- A step of the child of an admitted request. -/
theorem reported_child {es : List Event} {s : State} {e : Child.Event} {gate : Request.State}
    (hverdict : examine view applicationRoot params = .admitted info)
    (h : Reported es s (stage s.gate.child.phase))
    (hgate : Request.step view applicationRoot params s.gate e = some gate) :
    Reported (es ++ [.child e]) { s.follow view applicationRoot params e with gate := gate }
      (stage gate.child.phase) := by
  have hturn := turn_of_gate hgate
  generalize stage s.gate.child.phase = k at hturn h
  generalize hk' : stage gate.child.phase = k' at hturn
  have hquiet : ∀ {e : Child.Event}, calm e = true →
      Event.child e ≠ .child (.requestStartup false) := by
    rintro e hcalm ⟨⟩
    cases hcalm
  cases hturn with
  | kept hcalm =>
      rw [follow_of_calm hcalm]
      exact h.kept (hquiet hcalm) rfl rfl
  | died hcalm => exact trivial
  | requestRead => exact h.kept (by simp) rfl rfl
  | noRequest hcalm =>
      rw [follow_of_calm hcalm]
      exact (h.kept (hquiet hcalm) rfl rfl).ended (Or.inl rfl) (Or.inl rfl)
  | initBailedOut => exact (h.kept (by simp) rfl rfl).ended (Or.inl rfl) (Or.inr rfl)
  | admitted =>
      rw [State.follow, hverdict]
      exact h.kept (by simp) rfl rfl
  | refused =>
      rw [running_of_examine hverdict hgate] at hk'
      cases hk'
  | examineBailedOut =>
      exact (h.kept (by simp) rfl rfl).ended (Or.inr (Or.inl rfl)) (Or.inl rfl)
  | startupFailed => exact ⟨by simp, rfl, h.2⟩
  | refusalWritten =>
      refine Or.inr ⟨List.mem_append_left _ h.1, ?_⟩
      rw [State.follow, h.2.1, List.filter_append, h.2.2]
      rfl
  | scriptBailedOut => exact h.kept (by simp) rfl rfl
  | bailedOut => exact (h.kept (by simp) rfl rfl).ended (Or.inr (Or.inr rfl)) (Or.inl rfl)
  | shutDown => exact (h.kept (by simp) rfl rfl).ended (Or.inr (Or.inr rfl)) (Or.inl rfl)
  | finished =>
      have hlog : (s.follow view applicationRoot params .finishRequest).log.filter refuses =
          s.log.filter refuses := by
        rw [State.follow]
        split
        · rfl
        · rw [fcgiFinishRequest_eq, List.filter_append]
          cases s.connected <;> cases s.ended <;> simp [refuses]
      have hkept : Reported (es ++ [.child .finishRequest])
          { s.follow view applicationRoot params .finishRequest with gate := gate } .ending := by
        refine h.kept (by simp) hlog ?_
        rw [State.follow]
        split
        · rfl
        · rw [fcgiFinishRequest_eq]
      exact hkept

/-- The callbacks report nothing. -/
theorem reported_step {es : List Event} {s s' : State} {e : Event}
    (hverdict : examine view applicationRoot params = .admitted info)
    (h : Reported es s (stage s.gate.child.phase))
    (hstep : Step view applicationRoot params s e s') :
    Reported (es ++ [e]) s' (stage s'.gate.child.phase) := by
  cases hstep with
  | child _ hgate => exact reported_child hverdict h hgate
  | finished =>
      rw [fcgiClose_fcgiEnd]
      refine h.kept (by simp) ?_ rfl
      dsimp only
      rw [List.filter_append]
      cases s.connected <;> cases s.ended <;> simp [refuses]
  | read | accepted | failed => exact h.kept (by simp) (by simp [refuses]) rfl
  | caught | completed | continued => exact h.kept (by simp) rfl rfl
  | called _ he | entered he | returned he | advanced he | left he =>
      refine h.kept ?_ rfl rfl
      rintro rfl
      cases he

/-- In every run on an admitted request its failures are known. -/
theorem reported_of_run {inherited : List RawFd} {stdin : Bytes} {es : List Event} {s : State}
    (hverdict : examine view applicationRoot params = .admitted info)
    (hrun : LabelledMachine.exec (step view applicationRoot params) (start inherited stdin) es =
      some s) : Reported es s (stage s.gate.child.phase) := by
  have hstart : Reported [] (start inherited stdin)
      (stage (start inherited stdin).gate.child.phase) := ⟨List.not_mem_nil, rfl⟩
  exact LabelledMachine.exec_history_induction
    (P := fun es s => Reported es s (stage s.gate.child.phase)) hstart
    (fun _ _ _ _ _ h hstep => reported_step hverdict h (step_cases hstep)) hrun

/-- Where PHP has written nothing, the connection conveys what has been reported. -/
theorem conveyed_of_unwritten {inherited : List RawFd} {stdin : Bytes} {es : List Event}
    {s : State}
    (hrun : LabelledMachine.exec (step view applicationRoot params) (start inherited stdin) es =
      some s)
    (hopen : StartupFailsOpen view applicationRoot params inherited stdin es)
    (hended : .endRequest ∈ s.log) (hnone : s.outputs = []) :
    s.log.flatMap conveyed = (s.log.filter refuses).flatMap conveyed := by
  have hlaws := responseLaws_of_open hrun hopen
  rcases List.append_of_mem hended with ⟨before, after, hlog⟩
  have hbefore : ∀ op ∈ before, op.accepted = [] := by
    have hnothing := hlaws.ordered before after hlog
    rw [hnone, List.flatMap_nil, List.flatMap_eq_nil_iff] at hnothing
    exact hnothing
  have hunreported : ∀ op ∈ s.log, refuses op = false → conveyed op = [] := by
    intro op hop hother
    rw [hlog] at hop
    rcases List.mem_append.mp hop with hop | hop
    · have haccepted := hbefore op hop
      cases op with
      | protocol => cases hother
      | output handed accepted => exact haccepted
      | stdin | endRequest | close => rfl
    · rcases List.mem_cons.mp hop with rfl | hop
      · rfl
      · exact conveyed_of_silent (hlaws.silent before after hlog op hop).1
  generalize s.log = log at hunreported
  induction log with
  | nil => rfl
  | cons op log ih =>
      rw [List.forall_mem_cons] at hunreported
      rw [List.flatMap_cons, ih hunreported.2, List.filter_cons]
      split
      case isTrue => rfl
      case isFalse hother =>
        rw [hunreported.1 (Bool.eq_false_iff.mpr hother), List.nil_append]

end Runs

/-! ## The exchange -/

/-- The request is refused, whatever PHP would make of it. -/
inductive Denied (view : View) (applicationRoot : Bytes) (args : Arguments) : Nat → Bytes → Prop
  | invalid (hmethod : cString args.method = []) :
      Denied view applicationRoot args 400 (bytes "Invalid FastCGI request.\n")
  | notFound (hmethod : cString args.method ≠ [])
      (hmissing : view.realpath (cString args.filename) = none) :
      Denied view applicationRoot args 404 (bytes "Script not found.\n")
  | outside {resolved : Path} (hmethod : cString args.method ≠ [])
      (hresolved : view.realpath (cString args.filename) = some resolved)
      (hforbidden : permittedScript view applicationRoot (text resolved) = false) :
      Denied view applicationRoot args 403
        (bytes "Script is outside the application root or is not a readable PHP file.\n")

section Exchanged

variable {view : View} {applicationRoot : Bytes} {args : Arguments}

/-- A request is denied or permitted. -/
theorem denied_or_permitted (view : View) (applicationRoot : Bytes) (args : Arguments) :
    (∃ status message, Denied view applicationRoot args status message) ∨
      ∃ resolved, Permits view applicationRoot args resolved := by
  by_cases hmethod : cString args.method = []
  · exact Or.inl ⟨_, _, .invalid hmethod⟩
  · cases hresolved : view.realpath (cString args.filename) with
    | none => exact Or.inl ⟨_, _, .notFound hmethod hresolved⟩
    | some resolved =>
        cases hpermitted : permittedScript view applicationRoot (text resolved) with
        | false => exact Or.inl ⟨_, _, .outside hmethod hresolved hpermitted⟩
        | true => exact Or.inr ⟨resolved, hmethod, hresolved, hpermitted⟩

/-- The tests of the server find out. -/
theorem examine_of_denied (hparams : ∀ item ∈ args.params, item.1 ∉ examinedKeys)
    (hbody : args.body.length < 2 ^ 63) {status : Nat} {message : Bytes}
    (h : Denied view applicationRoot args status message) :
    examine view applicationRoot (paramsOf (environment args)) = .refused status message := by
  have hgetenv : ∀ name value, bytes name ∈ examinedKeys → (bytes name, value) ∈ defaults args →
      getenv (paramsOf (environment args)) name = some (cString value) := fun name value =>
    getenv_environment hparams
  have hfilename := hgetenv "SCRIPT_FILENAME" args.filename (by decide) (by simp [defaults])
  have hmethod := hgetenv "REQUEST_METHOD" args.method (by decide) (by simp [defaults])
  cases h with
  | invalid hnone => exact examine_of_no_method view applicationRoot hparams hnone
  | notFound hsome hmissing =>
      obtain ⟨b, method, hname⟩ := List.exists_cons_of_ne_nil hsome
      rw [examine, bodyLength_environment hparams hbody, hmethod, hname]
      dsimp only
      rw [hfilename, Option.bind_some, hmissing]
  | outside hsome hresolved hforbidden =>
      obtain ⟨b, method, hname⟩ := List.exists_cons_of_ne_nil hsome
      rw [examine, bodyLength_environment hparams hbody, hmethod, hname]
      dsimp only
      rw [hfilename, Option.bind_some, hresolved]
      dsimp only
      rw [if_neg (by simp [hforbidden])]

/-- What is admitted is permitted. -/
theorem permits_of_admitted (hparams : ∀ item ∈ args.params, item.1 ∉ examinedKeys)
    (hbody : args.body.length < 2 ^ 63) {info : Info}
    (h : examine view applicationRoot (paramsOf (environment args)) = .admitted info) :
    ∃ resolved, Permits view applicationRoot args resolved ∧
      info.pathTranslated = text resolved := by
  rcases denied_or_permitted view applicationRoot args with
    ⟨status, message, hdenied⟩ | ⟨resolved, hpermits⟩
  · rw [examine_of_denied hparams hbody hdenied] at h
    cases h
  · obtain ⟨b, method, hname⟩ := List.exists_cons_of_ne_nil hpermits.1
    rw [examine_environment view applicationRoot hparams hbody hname hpermits.2.1 hpermits.2.2,
      Verdict.admitted.injEq] at h
    exact ⟨resolved, hpermits, by rw [← h]⟩

end Exchanged

/-- The client reads this response, for every way in which the FastCGI library makes records
of the log, and the connection delivers them. -/
def Reads (log : List Op) (status : Int) (headers : List (Bytes × Bytes)) (body : Bytes) : Prop :=
  ∀ (text : Text) (records : List Record) (last : Record) (sock : Arrivals),
    Carries log records last → OnTheWay records last sock →
      receiveResponse text sock =
        .ok { status := status, headers := headers, body := body, errors := ofKind 7 records }

/-- The child has read the request and returned. -/
structure Over (es : List Event) (s : State) : Prop where
  read : .child (.readRequest true) ∈ es
  returned : ∃ result, s.gate.child.phase = .returned result

/-- The headers of {lit}`protocol_error`. -/
def plainText : List (Bytes × Bytes) := [(bytes "content-type", bytes "text/plain")]

/-- What is known of a request of the client when its child has come to {lit}`s`. -/
structure ExchangeLaws (view : View) (applicationRoot : Bytes) (args : Arguments)
    (params : Params) (inherited : List RawFd) (es : List Event) (s : State) : Prop where
  body : s.body.delivered <+: args.body
  script : admittedPhase s.gate.child.phase = true → ∃ resolved,
    Permits view applicationRoot args resolved ∧ s.gate.pathTranslated = some (text resolved)
  denied : ∀ status message, Denied view applicationRoot args status message → Over es s →
    .child .bailout ∉ es → Reads s.log status plainText message
  failed : ∀ resolved, Permits view applicationRoot args resolved → Over es s →
    .child (.requestStartup false) ∈ es → s.outputs = [] →
    StartupFailsOpen view applicationRoot params inherited args.body es →
    Reads s.log 500 plainText startupFailure
  served : ∀ resolved, Permits view applicationRoot args resolved → Over es s →
    .child (.requestStartup false) ∉ es → (∀ output ∈ s.outputs, output.cut = false) →
    ∀ (httpResponseCode : Int32) (headers blocks : List Bytes),
      (∀ header ∈ sent headers, Sendable header) →
      s.outputs.map Output.data = headerBlocks httpResponseCode headers ++ blocks →
      Reads s.log httpResponseCode.toInt ((sent headers).filterMap field) blocks.flatten

section Laws

variable {view : View} {applicationRoot : Bytes} {args : Arguments} {inherited : List RawFd}
  {es : List Event} {s : State}

/-- Where no start-up fails, none fails late. -/
theorem startupFailsOpen_of_unfailed {params : Params} {stdin : Bytes}
    (h : .child (.requestStartup false) ∉ es) :
    StartupFailsOpen view applicationRoot params inherited stdin es := by
  intro before after t hes
  exact absurd (hes ▸ List.mem_append_right before List.mem_cons_self) h

section Responses

variable {params : Params} {stdin : Bytes}
  (hrun : LabelledMachine.exec (step view applicationRoot params) (start inherited stdin) es =
    some s)

include hrun

/-- A request that is over has been ended. -/
theorem Over.ended (h : Over es s)
    (hopen : StartupFailsOpen view applicationRoot params inherited stdin es) :
    .endRequest ∈ s.log := by
  rw [← List.count_pos_iff, (responseLaws_of_open hrun hopen).once h.read h.returned]
  exact Nat.one_pos

/-- What has been reported when the child returns. -/
theorem Over.reported {info : Info} (h : Over es s)
    (hverdict : examine view applicationRoot params = .admitted info) :
    .child (.requestStartup false) ∉ es ∧ s.log.filter refuses = [] ∨
      .child (.requestStartup false) ∈ es ∧ s.log.filter refuses = told 500 startupFailure := by
  obtain ⟨result, hphase⟩ := h.returned
  have hreported := reported_of_run hverdict hrun
  rw [hphase] at hreported
  exact hreported

/-- The client reads the refusal. -/
theorem reads_of_refused {status : Nat} {message : Bytes}
    (hverdict : examine view applicationRoot params = .refused status message) (hover : Over es s)
    (hcalm : .child .bailout ∉ es) : Reads s.log status plainText message := by
  intro text records last sock hcarries hsock
  have htold := (refusing_of_run hverdict hrun).told_of_returned hover.returned hover.read hcalm
  have hconveyed : s.log.flatMap conveyed = protocolHeader status ++ message := by
    rw [htold]
    simp [told, conveyed]
  apply receiveResponse_of_carries hcarries hsock
  rw [hconveyed]
  refine readOutput_protocolHeader text ?_ message _
  rcases status_of_refused hverdict with rfl | rfl | rfl <;> decide

/-- The client reads that the start-up has failed. -/
theorem reads_of_failed {info : Info}
    (hverdict : examine view applicationRoot params = .admitted info) (hover : Over es s)
    (hfailed : .child (.requestStartup false) ∈ es) (hnone : s.outputs = [])
    (hopen : StartupFailsOpen view applicationRoot params inherited stdin es) :
    Reads s.log 500 plainText startupFailure := by
  intro text records last sock hcarries hsock
  apply receiveResponse_of_carries hcarries hsock
  rw [conveyed_of_unwritten hrun hopen (hover.ended hrun hopen) hnone]
  rcases hover.reported hrun hverdict with ⟨hunfailed, -⟩ | ⟨-, htold⟩
  · exact absurd hfailed hunfailed
  · have hconveyed : (told 500 startupFailure).flatMap conveyed =
        protocolHeader 500 ++ startupFailure := by
      simp [told, conveyed]
    rw [htold, hconveyed]
    exact readOutput_protocolHeader text (by decide) startupFailure _

/-- The client reads the response of the script. -/
theorem reads_of_served {info : Info}
    (hverdict : examine view applicationRoot params = .admitted info) (hover : Over es s)
    (hunfailed : .child (.requestStartup false) ∉ es)
    (hwhole : ∀ output ∈ s.outputs, output.cut = false) (httpResponseCode : Int32)
    {headers blocks : List Bytes} (hsendable : ∀ header ∈ sent headers, Sendable header)
    (houtputs : s.outputs.map Output.data = headerBlocks httpResponseCode headers ++ blocks) :
    Reads s.log httpResponseCode.toInt ((sent headers).filterMap field) blocks.flatten := by
  intro text records last sock hcarries hsock
  have hopen : StartupFailsOpen view applicationRoot params inherited stdin es :=
    startupFailsOpen_of_unfailed hunfailed
  have hunrefused : ∀ op ∈ s.log, refuses op = false := by
    rcases hover.reported hrun hverdict with ⟨-, hnone⟩ | ⟨hfailed, -⟩
    · simpa [List.filter_eq_nil_iff] using hnone
    · exact absurd hfailed hunfailed
  apply receiveResponse_of_carries hcarries hsock
  rw [conveyed_of_run hrun hopen (hover.ended hrun hopen) hunrefused hwhole, houtputs,
    List.flatten_append]
  exact readOutput_headerBlocks text httpResponseCode hsendable blocks.flatten _

end Responses

/-- The child runs the script that was asked for. -/
theorem script_of_run (hparams : ∀ item ∈ args.params, item.1 ∉ examinedKeys)
    (hbody : args.body.length < 2 ^ 63)
    (hrun : LabelledMachine.exec (step view applicationRoot (paramsOf (environment args)))
      (start inherited args.body) es = some s)
    (hphase : admittedPhase s.gate.child.phase = true) :
    ∃ resolved, Permits view applicationRoot args resolved ∧
      s.gate.pathTranslated = some (text resolved) := by
  have hknown : ScriptKnown view applicationRoot (paramsOf (environment args)) s.gate :=
    LabelledMachine.exec_invariant (I := ScriptKnown view applicationRoot _)
      (fun _ _ _ => scriptKnown_step) (fun h => by cases h) (gate_run hrun)
  obtain ⟨info, hverdict, hpath⟩ := hknown hphase
  obtain ⟨resolved, hpermits, htext⟩ := permits_of_admitted hparams hbody hverdict
  exact ⟨resolved, hpermits, by rw [hpath, htext]⟩

/-- The laws of the exchange, branch by branch. -/
theorem exchangeLaws_of_run (hparams : ∀ item ∈ args.params, item.1 ∉ examinedKeys)
    (hbody : args.body.length < 2 ^ 63)
    (hrun : LabelledMachine.exec (step view applicationRoot (paramsOf (environment args)))
      (start inherited args.body) es = some s) :
    ExchangeLaws view applicationRoot args (paramsOf (environment args)) inherited es s := by
  have hadmitted : ∀ resolved, Permits view applicationRoot args resolved → ∃ info,
      examine view applicationRoot (paramsOf (environment args)) = .admitted info :=
    fun resolved hpermits =>
      (admitted_iff_permits view applicationRoot hparams hbody).mpr ⟨resolved, hpermits⟩
  constructor
  · exact (delivered_of_run hrun).1
  · exact script_of_run hparams hbody hrun
  · intro status message hdenied hover hcalm
    exact reads_of_refused hrun (examine_of_denied hparams hbody hdenied) hover hcalm
  · intro resolved hpermits hover hfailed hnone hopen
    obtain ⟨info, hverdict⟩ := hadmitted resolved hpermits
    exact reads_of_failed hrun hverdict hover hfailed hnone hopen
  · intro resolved hpermits hover hunfailed hwhole httpResponseCode headers blocks hsendable
      houtputs
    obtain ⟨info, hverdict⟩ := hadmitted resolved hpermits
    exact reads_of_served hrun hverdict hover hunfailed hwhole httpResponseCode hsendable houtputs

end Laws

/-- What the client asks for decides what it is answered.  A request without a method, for
a script that is not there or for one that may not be run is told so, whatever the run was;
any other request runs that script and no other, on the body that was sent, and the client
reads what PHP was asked to write, or that the start-up of PHP has failed. -/
theorem exchange (view : View) (applicationRoot : Bytes) (args : Arguments)
    (hfit : ∀ pair ∈ environment args, LengthsFit pair)
    (hparams : ∀ item ∈ args.params, item.1 ∉ examinedKeys)
    (hbody : args.body.length < 2 ^ 63) :
    ((∃ status message, Denied view applicationRoot args status message) ∨
        ∃ resolved, Permits view applicationRoot args resolved) ∧
      ∃ records, request args = some (records.flatMap Record.wire) ∧
        decodePairs (ofKind 4 records) = some (environment args) ∧
        ofKind 5 records = args.body ∧
        ∀ inherited es s,
          LabelledMachine.exec (step view applicationRoot (paramsOf (environment args)))
              (start inherited args.body) es = some s →
            ExchangeLaws view applicationRoot args (paramsOf (environment args)) inherited es
              s := by
  obtain ⟨records, hwire, hstdin, hpairs⟩ := request_records hfit
  exact ⟨denied_or_permitted view applicationRoot args, records, hwire, hpairs, hstdin,
    fun inherited es s => exchangeLaws_of_run hparams hbody⟩

/-- The response of a script to a request of the client. -/
theorem exchange_sample :
    ∃ s,
      LabelledMachine.exec (step sampleView (bytes "/srv") (paramsOf (environment sampleRequest)))
          (start [] sampleRequest.body) servedRun = some s ∧
        Reads s.log 201 [(bytes "x-kind", bytes "sample")] (bytes "done") := by
  have hshort : ∀ pair ∈ environment sampleRequest,
      pair.1.length < 100 ∧ pair.2.length < 100 := by
    decide
  have hfit : ∀ pair ∈ environment sampleRequest, LengthsFit pair := by
    intro pair hmem
    have hlengths := hshort pair hmem
    exact ⟨by omega, by omega⟩
  have hbody : sampleRequest.body.length < 2 ^ 63 := by
    have hlength : sampleRequest.body.length = 4 := rfl
    omega
  obtain ⟨s, hrun, hreturned, hwhole, houtputs⟩ : ∃ s,
      LabelledMachine.exec (step sampleView (bytes "/srv") (paramsOf (environment sampleRequest)))
          (start [] sampleRequest.body) servedRun = some s ∧
        s.gate.child.phase = .returned 0 ∧ (∀ output ∈ s.outputs, output.cut = false) ∧
        s.outputs.map Output.data =
          headerBlocks 201 [bytes "X-Kind: sample"] ++ [bytes "done"] :=
    ⟨_, rfl, rfl, by decide +kernel, by decide +kernel⟩
  have hsendable : ∀ header ∈ sent [bytes "X-Kind: sample"], Sendable header := by
    intro header hmem
    have heq : header = bytes "X-Kind: sample" :=
      List.mem_singleton.mp (List.mem_of_mem_filter hmem)
    rw [heq]
    exact ⟨by decide, by decide⟩
  obtain ⟨-, records, -, -, -, hlaws⟩ :=
    exchange sampleView (bytes "/srv") sampleRequest hfit (by decide) hbody
  have hreads := (hlaws [] servedRun s hrun).served _ ⟨by decide, rfl, by decide⟩
    ⟨by decide +kernel, 0, hreturned⟩ (by decide +kernel) hwhole 201 [bytes "X-Kind: sample"]
    [bytes "done"] hsendable houtputs
  refine ⟨s, hrun, ?_⟩
  have hfields : (sent [bytes "X-Kind: sample"]).filterMap field =
      [(bytes "x-kind", bytes "sample")] := by
    decide +kernel
  rwa [hfields] at hreads

end Client

end Polychrome
