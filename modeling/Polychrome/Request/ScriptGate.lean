import Polychrome.Child.ServeOne
import Polychrome.Library.CString
import Polychrome.Preload.Traversal

/-!
# The script of a request

This module embeds what {lit}`poly_serve_one` does with the parameters of a
request before it starts PHP: its tests, its answers to a request that fails one,
and the request information of one that passes.  The child of a request is the
child machine with {lit}`path_translated` as one more variable.

Main results:

- Theorem {lit}`nameTest_iff`: the string tests of {lit}`permitted_script` are proper
  containment and the ending.
- Theorem {lit}`gates_agree`: both gates let the same PHP files through, and a script
  is executed only below the application root.
-/

namespace Polychrome

namespace Request

open Posix Clib

/-! ## The tests on the parameters -/

/-- The parameters of a FastCGI request. -/
abbrev Params := Bytes → Option Bytes

/-- {lit}`FCGI_GETENV` -/
def getenv (params : Params) (name : String) : Option Bytes := (params (bytes name)).map cString

/-- The tests of {lit}`permitted_script` on the string: {lit}`strncmp` with the root
and the byte behind it, then the ending. -/
def nameTest (applicationRoot path : Bytes) : Bool :=
  let rootLength := applicationRoot.length
  let length := path.length
  !(path.take rootLength != applicationRoot.take rootLength ||
    (rootLength > 1 && path.getD rootLength 0 != slash)) &&
  !(length < 4 || path.drop (length - 4) != bytes ".php")

/-- {lit}`permitted_script` -/
def permittedScript (view : View) (applicationRoot path : Bytes) : Bool :=
  nameTest applicationRoot path &&
    match view.stat path with
    | some (.regular readable _) => readable
    | _ => false

/-- The length that {lit}`CONTENT_LENGTH` announces, if it is valid. -/
def bodyLength (params : Params) : Option Int :=
  match getenv params "CONTENT_LENGTH" with
  | none | some [] => some 0
  | some (b :: s) =>
      let converted := strtol (b :: s)
      if !converted.overflow && converted.rest.isEmpty && decide (0 ≤ converted.value) &&
          48 ≤ b && b ≤ 57 then some converted.value
      else none

/-- What {lit}`SG(request_info)` is set to. -/
structure Info where
  requestMethod : Bytes
  queryString : Option Bytes
  requestUri : Option Bytes
  contentType : Option Bytes
  contentLength : Int
  pathTranslated : Bytes
  protoNum : Nat
  headersOnly : Bool
  /-- what {lit}`php_handle_auth_data` gets -/
  authorization : Option Bytes
deriving DecidableEq, Repr

/-- What the tests come to. -/
inductive Verdict
  /-- {lit}`protocol_error(status, message)` -/
  | refused (status : Nat) (message : Bytes)
  | admitted (info : Info)
deriving DecidableEq, Repr

/-- The tests of {lit}`poly_serve_one`, in its order. -/
def examine (view : View) (applicationRoot : Bytes) (params : Params) : Verdict :=
  match getenv params "REQUEST_METHOD", bodyLength params with
  | none, _ | some [], _ | _, none => .refused 400 (bytes "Invalid FastCGI request.\n")
  | some (b :: method), some length =>
      match (getenv params "SCRIPT_FILENAME").bind view.realpath with
      | none => .refused 404 (bytes "Script not found.\n")
      | some resolved =>
          if permittedScript view applicationRoot (text resolved) then
            .admitted
              { requestMethod := b :: method
                queryString := getenv params "QUERY_STRING"
                requestUri := getenv params "REQUEST_URI"
                contentType := getenv params "CONTENT_TYPE"
                contentLength := length
                pathTranslated := text resolved
                protoNum := 1001
                headersOnly := b :: method == bytes "HEAD"
                authorization := getenv params "HTTP_AUTHORIZATION" }
          else
            .refused 403
              (bytes "Script is outside the application root or is not a readable PHP file.\n")

/-- The branch of {lit}`poly_serve_one` that a verdict leads to. -/
def Verdict.decision : Verdict → Child.Decision
  | .refused 404 _ => .notFound
  | .refused 403 _ => .outside
  | .refused _ _ => .invalid
  | .admitted _ => .admitted

/-- {lit}`SG(request_info).path_translated` of a request that is admitted. -/
def Verdict.pathTranslated : Verdict → Option Bytes
  | .refused _ _ => none
  | .admitted info => some info.pathTranslated

/-! ## The child of one request -/

/-- The child with the script of its request. -/
structure State where
  child : Child.State
  pathTranslated : Option Bytes

/-- One step of the child.  The tests decide where {lit}`examine` leads, and
{lit}`path_translated` is released before the request is shut down. -/
def step (view : View) (applicationRoot : Bytes) (params : Params) :
    LabelledMachine.Machine State Child.Event := fun s e =>
  (Child.step s.child e).bind fun child =>
    match e with
    | .examine decision =>
        let verdict := examine view applicationRoot params
        if decision = verdict.decision then
          some { child := child, pathTranslated := verdict.pathTranslated }
        else none
    | .requestShutdown => some { child := child, pathTranslated := none }
    | _ => some { s with child := child }

/-- A child before its request. -/
def start (inherited : List RawFd) : State where
  child := Child.start inherited
  pathTranslated := none

/-! ## Both string tests -/

/-- {lit}`strncmp` finds the root and the byte behind it is a slash. -/
theorem take_getD_iff {r x : Bytes} :
    (x.take r.length = r ∧ x.getD r.length 0 = slash) ↔ r ++ [slash] <+: x := by
  constructor
  · rintro ⟨htake, hget⟩
    have hsplit := List.take_append_drop r.length x
    rw [htake] at hsplit
    rw [List.getD_eq_getElem?_getD, ← List.head?_drop] at hget
    cases hdrop : x.drop r.length with
    | nil =>
        rw [hdrop] at hget
        cases hget
    | cons b rest =>
        rw [hdrop] at hget hsplit
        have hb : b = slash := hget
        exact ⟨rest, by rw [← hsplit, hb, List.append_assoc]; rfl⟩
  · rintro ⟨rest, rfl⟩
    simp

/-- {lit}`strcmp` finds the ending. -/
theorem endTest_iff {x : Bytes} :
    (!(x.length < 4 || x.drop (x.length - 4) != bytes ".php")) = true ↔ bytes ".php" <:+ x := by
  have hlength : (bytes ".php").length = 4 := rfl
  rw [List.suffix_iff_eq_drop, hlength, Bool.not_eq_true', Bool.or_eq_false_iff,
    decide_eq_false_iff_not, bne_eq_false_iff_eq]
  constructor
  · rintro ⟨-, hdrop⟩
    exact hdrop.symm
  · intro hdrop
    refine ⟨?_, hdrop.symm⟩
    have hlengths := congrArg List.length hdrop
    rw [List.length_drop, hlength] at hlengths
    omega

/-- {lit}`strncmp` and the byte behind it test for proper containment. -/
theorem rootTest_iff {root p : Path} (hp : p ≠ []) :
    (!((text p).take (text root).length != (text root).take (text root).length ||
      ((text root).length > 1 && (text p).getD (text root).length 0 != slash))) = true ↔
      root <+: p ∧ root ≠ p := by
  rw [← below_slash_prefix, List.take_length, Bool.not_eq_true', Bool.or_eq_false_iff,
    bne_eq_false_iff_eq, Bool.and_eq_false_iff, decide_eq_false_iff_not, bne_eq_false_iff_eq,
    text_of_ne_nil hp]
  cases root with
  | nil =>
      cases p with
      | nil => exact absurd rfl hp
      | cons c p => simp
  | cons c root =>
      have hlong : ¬ ¬ (text (c :: root)).length > 1 := by
        rw [text_of_ne_nil (by simp), below_cons, List.length_cons, List.length_append]
        have hname := List.length_pos_iff.mpr c.property.1
        omega
      rw [or_iff_right hlong, text_of_ne_nil (by simp), take_getD_iff]

/-- The two tests of {lit}`permitted_script` are proper containment and the ending. -/
theorem nameTest_iff {root p : Path} :
    nameTest (text root) (text p) = true ↔
      (root <+: p ∧ root ≠ p) ∧ bytes ".php" <:+ text p := by
  rw [nameTest, Bool.and_eq_true, endTest_iff]
  apply and_congr_left
  intro hsuffix
  apply rootTest_iff
  rintro rfl
  exact absurd hsuffix (by decide)

/-! ## The script that is executed -/

section Scripts

variable {view : View} {applicationRoot : Bytes} {params : Params}

/-- A request that is admitted has a script that passed all tests. -/
theorem examine_admitted {info : Info}
    (h : examine view applicationRoot params = .admitted info) :
    ∃ filename resolved, getenv params "SCRIPT_FILENAME" = some filename ∧
      view.realpath filename = some resolved ∧ info.pathTranslated = text resolved ∧
      permittedScript view applicationRoot (text resolved) = true := by
  unfold examine at h
  split at h
  case h_1 => cases h
  case h_2 => cases h
  case h_3 => cases h
  case h_4 =>
    split at h
    case h_1 => cases h
    case h_2 resolved hresolved =>
      rcases Option.bind_eq_some_iff.mp hresolved with ⟨filename, hfilename, hreal⟩
      split at h
      case isTrue hpermitted =>
        cases h
        exact ⟨filename, resolved, hfilename, hreal, rfl, hpermitted⟩
      case isFalse => cases h

/-- The request has been admitted, and its script is not released yet. -/
def admittedPhase : Child.Phase → Bool
  | .requestStartup | .openScript | .execute => true
  | _ => false

/-- A child is past the gate only after it was admitted. -/
theorem admitted_of_next {stop : Bool} {p p' : Child.Phase} {e : Child.Event}
    (h : Child.Next stop p e p') (hadmitted : admittedPhase p' = true) :
    e = .examine .admitted ∨
      admittedPhase p = true ∧ (∀ decision, e ≠ .examine decision) ∧ e ≠ .requestShutdown := by
  cases h
  case admitted => exact Or.inl rfl
  case startedUp => exact Or.inr ⟨rfl, by simp, by simp⟩
  case scriptOpened => exact Or.inr ⟨rfl, by simp, by simp⟩
  all_goals cases hadmitted

/-- In the phases of an admitted request the script is the one that was tested. -/
def ScriptKnown (view : View) (applicationRoot : Bytes) (params : Params) (s : State) : Prop :=
  admittedPhase s.child.phase = true → ∃ info,
    examine view applicationRoot params = .admitted info ∧
      s.pathTranslated = some info.pathTranslated

/-- Only an admission admits. -/
theorem admitted_of_decision {verdict : Verdict} (h : verdict.decision = .admitted) :
    ∃ info, verdict = .admitted info := by
  unfold Verdict.decision at h
  split at h
  all_goals first | (cases h; done) | exact ⟨_, rfl⟩

/-- The child of a request moves as any child. -/
theorem child_of_step {s s' : State} {e : Child.Event}
    (hstep : step view applicationRoot params s e = some s') :
    Child.step s.child e = some s'.child := by
  rcases Option.bind_eq_some_iff.mp hstep with ⟨child, hchild, hrest⟩
  rw [hchild]
  split at hrest
  case h_1 =>
    dsimp only at hrest
    split at hrest
    case isTrue => cases hrest; rfl
    case isFalse => cases hrest
  case h_2 => cases hrest; rfl
  case h_3 => cases hrest; rfl

/-- What a step of the child does to the phases of an admitted request. -/
theorem admitted_of_step {s s' : Child.State} {e : Child.Event} (hs : Child.Step s e s')
    (hadmitted : admittedPhase s'.phase = true) :
    e = .examine .admitted ∨
      admittedPhase s.phase = true ∧ (∀ decision, e ≠ .examine decision) ∧
        e ≠ .requestShutdown := by
  cases hs
  case raised signal =>
    rw [Child.State.post_phase] at hadmitted
    exact Or.inr ⟨hadmitted, by simp, by simp⟩
  case delivered => exact Or.inr ⟨hadmitted, by simp, by simp⟩
  case requested => exact Or.inr ⟨hadmitted, by simp, by simp⟩
  case resumed => exact Or.inr ⟨hadmitted, by simp, by simp⟩
  case moved _ hnext => exact admitted_of_next hnext hadmitted
  all_goals cases hadmitted

/-- Every call keeps the script that was looked at. -/
theorem scriptKnown_step {s s' : State} {e : Child.Event}
    (h : ScriptKnown view applicationRoot params s)
    (hstep : step view applicationRoot params s e = some s') :
    ScriptKnown view applicationRoot params s' := by
  intro hadmitted
  have hs := Child.step_cases (child_of_step hstep)
  rcases Option.bind_eq_some_iff.mp hstep with ⟨child, -, hrest⟩
  rcases admitted_of_step hs hadmitted with rfl | ⟨hbefore, hexamine, hshutdown⟩
  · dsimp only at hrest
    split at hrest
    case isTrue hdecision =>
      cases hrest
      rcases admitted_of_decision hdecision.symm with ⟨info, hinfo⟩
      exact ⟨info, hinfo, by rw [hinfo]; rfl⟩
    case isFalse => cases hrest
  · split at hrest
    case h_1 decision => exact absurd rfl (hexamine decision)
    case h_2 => exact absurd rfl hshutdown
    case h_3 =>
      cases hrest
      exact h hbefore

end Scripts

/-- What is known of the gates of an application root. -/
structure GateLaws (view : View) (root : Bytes) : Prop where
  permitted : ∀ p, IsCanonical p → (nameTest root p = true ↔
    (components root <+: components p ∧ components root ≠ components p) ∧ bytes ".php" <:+ p)
  within : ∀ p, IsCanonical p →
    (Preload.within p root = true ↔ components root <+: components p)
  agree : ∀ p, IsCanonical p → bytes ".php" <:+ p → p ≠ root →
    nameTest root p = Preload.within p root
  executed : ∀ (params : Params) (inherited : List RawFd) (es : List Child.Event) (s : State)
    (exitStatus : Nat),
    LabelledMachine.exec (step view root params) (start inherited) es = some s →
    (step view root params s (.execute exitStatus)).isSome = true →
    ∃ filename resolved content, getenv params "SCRIPT_FILENAME" = some filename ∧
      view.realpath filename = some resolved ∧ s.pathTranslated = some (text resolved) ∧
      view.files.lookup resolved = some (.regular true content) ∧
      components root <+: components (text resolved) ∧
      components root ≠ components (text resolved)

/-- The gate of the requests and the gate of the preloader agree, and a script is
executed only if it passed. -/
theorem gates_agree (view : View) (root : Bytes) (hroot : IsCanonical root) :
    GateLaws view root := by
  rcases isCanonical_iff.mp hroot with ⟨root, rfl⟩
  have hinit : ∀ p : Path, components (text root) <+: components (text p) ↔ root <+: p := by
    intro p
    rw [components_text, components_text,
      List.prefix_map_iff_of_injective Subtype.val_injective]
  have hne : ∀ p : Path, components (text root) ≠ components (text p) ↔ root ≠ p := by
    intro p
    rw [components_text, components_text, ne_eq, ne_eq,
      (List.map_injective_iff.mpr Subtype.val_injective).eq_iff]
  constructor
  · intro p hp
    rcases isCanonical_iff.mp hp with ⟨p, rfl⟩
    rw [hinit, hne, nameTest_iff]
  · intro p hp
    rcases isCanonical_iff.mp hp with ⟨p, rfl⟩
    rw [hinit, Preload.within_iff]
  · intro p hp hphp hdistinct
    rcases isCanonical_iff.mp hp with ⟨p, rfl⟩
    have hpaths : root ≠ p := by
      rintro rfl
      exact hdistinct rfl
    rw [Bool.eq_iff_iff, nameTest_iff, Preload.within_iff]
    simp [hphp, hpaths]
  · intro params inherited es s exitStatus hrun hexecute
    have hknown : ScriptKnown view (text root) params s :=
      LabelledMachine.exec_invariant (I := ScriptKnown view (text root) params)
        (fun _ _ _ => scriptKnown_step) (fun h => (by cases h)) hrun
    have hadmitted : admittedPhase s.child.phase = true := by
      rcases Option.isSome_iff_exists.mp hexecute with ⟨s', hs'⟩
      have hs := Child.step_cases (child_of_step hs')
      generalize s'.child = child at hs
      cases hs with
      | moved hframes hnext =>
          generalize s.child.phase = phase at hnext
          cases hnext
          rfl
    rcases hknown hadmitted with ⟨info, hinfo, hscript⟩
    rcases examine_admitted hinfo with ⟨filename, resolved, hfilename, hreal, hpath, hpermitted⟩
    rw [permittedScript, Bool.and_eq_true, View.stat_text (View.solid_of_realpath hreal)]
      at hpermitted
    rcases hpermitted with ⟨hname, hnode⟩
    have hbelow := (nameTest_iff.mp hname).1
    split at hnode
    case h_1 readable content hlookup =>
      refine ⟨filename, resolved, content, hfilename, hreal, ?_, ?_, ?_, ?_⟩
      · rw [hscript, hpath]
      · rw [hlookup, hnode]
      · exact (hinit resolved).mpr hbelow.1
      · exact (hne resolved).mpr hbelow.2
    case h_2 => cases hnode

/-- An application with one script. -/
def sampleView : View where
  files :=
    { nodes :=
        [([⟨bytes "srv", by decide⟩], .directory true),
          ([⟨bytes "srv", by decide⟩, ⟨bytes "a.php", by decide⟩], .regular true [])]
      distinct := by decide
      rooted := by decide
      closed := by decide }
  cwd := []
  there := rfl

/-- A request for the script. -/
def sampleParams : Params := fun name =>
  if name = bytes "REQUEST_METHOD" then some (bytes "GET")
  else if name = bytes "SCRIPT_FILENAME" then some (bytes "srv/../srv/./a.php")
  else none

/-- The child up to the execution of the script. -/
def sampleEvents : List Child.Event :=
  [.tau, .prctl, .getppid true, .sigaction .sigusr1, .sigaction .sigterm, .sigaction .sigint,
    .sigaction .sigchld, .tau, .sigprocmask none, .childInit, .initRequest, .tau,
    .accept (.ok 9), .tau, .markActive, .fcntl 9, .clockGettime 100, .send 100 true,
    .readRequest true, .closeListener, .examine .admitted, .requestStartup true,
    .openScript true]

/-- A script below the root is admitted, and is the one that is run. -/
theorem gates_agree_sample :
    ∃ s filename resolved content,
      LabelledMachine.exec (step sampleView (bytes "/srv") sampleParams) (start []) sampleEvents =
        some s ∧ getenv sampleParams "SCRIPT_FILENAME" = some filename ∧
      sampleView.realpath filename = some resolved ∧ s.pathTranslated = some (text resolved) ∧
      sampleView.files.lookup resolved = some (.regular true content) ∧
      components (bytes "/srv") <+: components (text resolved) ∧
      components (bytes "/srv") ≠ components (text resolved) := by
  have hroot : IsCanonical (bytes "/srv") := isCanonical_iff.mpr ⟨[⟨bytes "srv", by decide⟩], rfl⟩
  rcases (gates_agree sampleView (bytes "/srv") hroot).executed sampleParams [] sampleEvents _ 0
    rfl rfl with ⟨filename, resolved, content, hexecuted⟩
  exact ⟨_, filename, resolved, content, rfl, hexecuted⟩

end Request

end Polychrome
