import Polychrome.Request.ScriptGate

/-!
# The body of a request

This module settles which values of {lit}`CONTENT_LENGTH` announce a body and
what {lit}`read_post` makes of the announced length.  PHP adds what
{lit}`read_post` returns to {lit}`SG(read_post_bytes)`, which the next call reads.

{lit}`fcgi_read` is not part of the sources.  It answers with a number of bytes
that it has stored, at most the count it got and at most what is left of STDIN,
or it fails with a number below one.  When it fails on a broken connection, it may
have taken bytes that it does not hand over, and nothing can be read after that.

Main results:

- Theorem {lit}`bodyLength_iff`: the values of {lit}`CONTENT_LENGTH` that are valid.
- Theorem {lit}`Body.Sound.readPost`: what one call keeps.
- Theorem {lit}`body_bounded`: a body is announced in digits, and no call leaves it.
-/

namespace Polychrome

namespace Request

open Posix Clib

/-! ## The announced length -/

/-- The values of {lit}`CONTENT_LENGTH` that announce {lit}`n` bytes. -/
def Announces (value : Option Bytes) (n : Int) : Prop :=
  (value = none ∨ value = some []) ∧ n = 0 ∨
    ∃ digits, value = some digits ∧ digits ≠ [] ∧ (∀ b ∈ digits, isDigit b = true) ∧
      n = digitsValue digits ∧ n ≤ longMax

/-- An announced length is not negative. -/
theorem Announces.nonneg {value : Option Bytes} {n : Int} (h : Announces value n) : 0 ≤ n := by
  rcases h with ⟨-, rfl⟩ | ⟨digits, -, -, -, rfl, -⟩
  · exact le_refl 0
  · exact Int.natCast_nonneg _

/-- An announced length is at most {lit}`LONG_MAX`. -/
theorem Announces.le_longMax {value : Option Bytes} {n : Int} (h : Announces value n) :
    n ≤ longMax := by
  rcases h with ⟨-, rfl⟩ | ⟨-, -, -, -, -, hmax⟩
  · decide
  · exact hmax

/-- The tests on {lit}`strtol`'s answer leave strings of digits below the maximum. -/
theorem converted_iff {b : UInt8} {s : Bytes} {n : Int} :
    (if !(strtol (b :: s)).overflow && (strtol (b :: s)).rest.isEmpty &&
        decide (0 ≤ (strtol (b :: s)).value) && 48 ≤ b && b ≤ 57 then
      some (strtol (b :: s)).value else none) = some n ↔
      (∀ c ∈ b :: s, isDigit c = true) ∧ n = digitsValue (b :: s) ∧ n ≤ longMax := by
  by_cases hb : isDigit b = true
  case neg =>
    have hfirst : ¬ (48 ≤ b ∧ b ≤ 57) := by
      rwa [isDigit, Bool.and_eq_true, decide_eq_true_eq, decide_eq_true_eq] at hb
    simp [hb]
    tauto
  case pos =>
    have hfirst : 48 ≤ b ∧ b ≤ 57 := by
      rwa [isDigit, Bool.and_eq_true, decide_eq_true_eq, decide_eq_true_eq] at hb
    rw [strtol_of_digit hb]
    by_cases hall : ∀ c ∈ b :: s, isDigit c = true
    · rw [List.takeWhile_eq_self_iff.mpr hall, List.dropWhile_eq_nil_iff.mpr hall]
      by_cases hmax : (digitsValue (b :: s) : Int) ≤ longMax
      · simp [hmax, hall, hfirst]
        grind
      · simp [hmax, hall]
        grind
    · have hrest : ((b :: s).dropWhile isDigit).isEmpty = false := by
        rw [List.isEmpty_eq_false_iff]
        exact fun h => hall (List.dropWhile_eq_nil_iff.mp h)
      constructor
      · intro h
        split at h <;> simp [hrest] at h
      · rintro ⟨hdigits, -⟩
        exact absurd hdigits hall

/-- A value is valid if it is absent, empty or digits below the maximum. -/
theorem bodyLength_iff {params : Params} {n : Int}
    (h : ∀ value, params (bytes "CONTENT_LENGTH") = some value → 0 ∉ value) :
    bodyLength params = some n ↔ Announces (params (bytes "CONTENT_LENGTH")) n := by
  have hgetenv : getenv params "CONTENT_LENGTH" = params (bytes "CONTENT_LENGTH") := by
    rw [getenv]
    cases hvalue : params (bytes "CONTENT_LENGTH") with
    | none => rfl
    | some value => rw [Option.map_some, cString_of_notMem (h value hvalue)]
  rw [bodyLength, hgetenv, Announces]
  cases params (bytes "CONTENT_LENGTH") with
  | none =>
      simp only [true_and, reduceCtorEq, false_and, exists_false, or_false, Option.some.injEq]
      exact eq_comm
  | some value =>
      cases value with
      | nil =>
          simp only [reduceCtorEq, or_true, true_and, Option.some.injEq]
          constructor
          · rintro rfl
            exact Or.inl rfl
          · rintro (rfl | ⟨digits, rfl, hdigits, -⟩)
            · rfl
            · exact absurd rfl hdigits
      | cons b s => simpa using converted_iff (b := b) (s := s) (n := n)

/-- No body has a negative length. -/
theorem bodyLength_nonneg {params : Params} {n : Int} (h : bodyLength params = some n) :
    0 ≤ n := by
  unfold bodyLength at h
  split at h
  case h_1 =>
    cases h
    exact le_refl 0
  case h_2 =>
    cases h
    exact le_refl 0
  case h_3 =>
    dsimp only at h
    rw [Option.ite_none_right_eq_some] at h
    simp only [Bool.and_eq_true, decide_eq_true_eq] at h
    rcases h with ⟨⟨⟨⟨-, hvalue⟩, -⟩, -⟩, hn⟩
    cases hn
    exact hvalue

/-! ## Reading the body -/

/-- {lit}`SG(request_info).content_length`, {lit}`SG(read_post_bytes)`, what
{lit}`fcgi_read` has left of STDIN, and what has come out of {lit}`read_post`. -/
structure Body where
  contentLength : Int
  readPostBytes : Int
  stdin : Bytes
  delivered : Bytes
deriving DecidableEq, Repr

/-- One call of {lit}`read_post`: the size of the buffer, what {lit}`fcgi_read`
answers and whether it has failed on a broken connection. -/
structure Read where
  length : Nat
  result : Int
  broken : Bool
deriving DecidableEq, Repr

/-- A body before the first call. -/
def Body.start (contentLength : Int) (stdin : Bytes) : Body where
  contentLength := contentLength
  readPostBytes := 0
  stdin := stdin
  delivered := []

/-- The count that {lit}`read_post` passes to {lit}`fcgi_read`. -/
def Body.count (body : Body) (length : Nat) : Int :=
  let remaining :=
    if body.contentLength > body.readPostBytes then
      (body.contentLength - body.readPostBytes).toNat
    else 0
  let length := if length > remaining then remaining else length
  cInt (if length > intMax then intMax else length)

/-- What {lit}`fcgi_read` may answer. -/
def Body.CanAnswer (body : Body) (read : Read) : Prop :=
  read.result ≤ body.count read.length ∧ read.result ≤ body.stdin.length

instance (body : Body) (read : Read) : Decidable (body.CanAnswer read) :=
  inferInstanceAs (Decidable (_ ∧ _))

/-- {lit}`read_post`, and PHP's account of what it returns. -/
def readPost : LabelledMachine.Machine Body Read := fun body read =>
  if body.CanAnswer read then
    let size := if read.result > 0 then read.result.toNat else 0
    some
      { body with
        readPostBytes := body.readPostBytes + size
        stdin := if read.result ≤ 0 ∧ read.broken = true then [] else body.stdin.drop size
        delivered := body.delivered ++ body.stdin.take size }
  else none

/-- The count lies in the buffer and in the announced length. -/
theorem Body.count_bounds (body : Body) (length : Nat) :
    0 ≤ body.count length ∧ body.count length ≤ length ∧
      body.count length ≤ max 0 (body.contentLength - body.readPostBytes) := by
  have hremaining : (if body.contentLength > body.readPostBytes then
      (body.contentLength - body.readPostBytes).toNat else 0) =
      (body.contentLength - body.readPostBytes).toNat := by
    split
    · rfl
    · omega
  have hcount : body.count length =
      min (min length (body.contentLength - body.readPostBytes).toNat) intMax := by
    rw [Body.count, hremaining, ite_gt_eq_min, ite_gt_eq_min, cInt_of_le (min_le_right _ _)]
  omega

/-- What holds of a body of {lit}`n` bytes on {lit}`stream` however it is read. -/
structure Body.Sound (n : Int) (stream : Bytes) (body : Body) : Prop where
  announced : body.contentLength = n
  counted : body.readPostBytes = body.delivered.length
  bounded : (body.delivered.length : Int) ≤ n
  kept : body.delivered ++ body.stdin <+: stream

/-- A body that is not read yet is sound. -/
theorem Body.Sound.start {n : Int} (hn : 0 ≤ n) (stream : Bytes) :
    (Body.start n stream).Sound n stream where
  announced := rfl
  counted := rfl
  bounded := hn
  kept := List.prefix_rfl

/-- A call moves bytes from the stream to the buffer, not more than are missing. -/
theorem Body.Sound.readPost {n : Int} {stream : Bytes} {body body' : Body} {read : Read}
    (h : body.Sound n stream) (hread : Request.readPost body read = some body') :
    body'.Sound n stream := by
  unfold Request.readPost at hread
  split at hread
  case isFalse => cases hread
  case isTrue hanswer =>
    cases hread
    rcases hanswer with ⟨hcount, hstdin⟩
    have hremaining := (body.count_bounds read.length).2.2
    rw [h.announced, h.counted] at hremaining
    have hbounded := h.bounded
    have hsize : (if read.result > 0 then read.result.toNat else 0) = read.result.toNat := by
      split
      · rfl
      · omega
    rw [hsize]
    have hlength : (body.stdin.take read.result.toNat).length = read.result.toNat := by
      rw [List.length_take]
      omega
    constructor
    · exact h.announced
    · rw [List.length_append, hlength, h.counted]
      push_cast
      rfl
    · rw [List.length_append, hlength]
      omega
    · split
      case isTrue hfailed =>
        have hnone : read.result.toNat = 0 := by omega
        rw [hnone, List.take_zero, List.append_nil, List.append_nil]
        exact (List.prefix_append _ _).trans h.kept
      case isFalse =>
        rw [List.append_assoc, List.take_append_drop]
        exact h.kept

/-- Reading keeps it sound. -/
theorem Body.Sound.reads {n : Int} {stream : Bytes} {body body' : Body} {reads : List Read}
    (h : body.Sound n stream)
    (hrun : LabelledMachine.exec Request.readPost body reads = some body') :
    body'.Sound n stream :=
  LabelledMachine.exec_invariant (I := Body.Sound n stream)
    (fun _ _ _ h hread => h.readPost hread) h hrun

/-! ## Requests with a length that is not valid -/

section Refused

variable {view : View} {applicationRoot : Bytes} {params : Params}

/-- A length that cannot be read is answered with 400. -/
theorem examine_of_invalid (h : bodyLength params = none) :
    examine view applicationRoot params = .refused 400 (bytes "Invalid FastCGI request.\n") := by
  rw [examine, h]
  rcases getenv params "REQUEST_METHOD" with _ | _ | ⟨b, method⟩ <;> rfl

/-- The length of a request that is admitted is the one that was tested. -/
theorem contentLength_of_admitted {info : Info}
    (h : examine view applicationRoot params = .admitted info) :
    bodyLength params = some info.contentLength := by
  unfold examine at h
  split at h
  case h_1 => cases h
  case h_2 => cases h
  case h_3 => cases h
  case h_4 b method length hmethod hlength =>
    split at h
    case h_1 => cases h
    case h_2 =>
      split at h
      case isTrue =>
        cases h
        exact hlength
      case isFalse => cases h

/-- PHP starts a request only if it was admitted. -/
theorem admitted_of_startup {inherited : List RawFd} {es : List Child.Event} {s : State}
    (hrun : LabelledMachine.exec (step view applicationRoot params) (start inherited) es = some s)
    {success : Bool} (hmem : .requestStartup success ∈ es) :
    ∃ info, examine view applicationRoot params = .admitted info := by
  rcases List.append_of_mem hmem with ⟨earlier, later, rfl⟩
  rcases LabelledMachine.exec_append_eq_some_iff.mp hrun with ⟨t, hearlier, hlater⟩
  rcases Option.bind_eq_some_iff.mp hlater with ⟨t', hstartup, -⟩
  have hknown : ScriptKnown view applicationRoot params t :=
    LabelledMachine.exec_invariant (I := ScriptKnown view applicationRoot params)
      (fun _ _ _ => scriptKnown_step) (fun h => by cases h) hearlier
  have hadmitted : admittedPhase t.child.phase = true := by
    have hs := Child.step_cases (child_of_step hstartup)
    generalize t'.child = child at hs
    cases hs with
    | moved hframes hnext =>
        generalize t.child.phase = phase at hnext
        cases hnext <;> rfl
  rcases hknown hadmitted with ⟨info, hinfo, -⟩
  exact ⟨info, hinfo⟩

end Refused

/-- What is known of the body of a request with the parameters {lit}`params`. -/
structure BodyLaws (view : View) (applicationRoot : Bytes) (params : Params) : Prop where
  valid : ∀ n, bodyLength params = some n ↔ Announces (params (bytes "CONTENT_LENGTH")) n
  told : ∀ info, examine view applicationRoot params = .admitted info →
    Announces (params (bytes "CONTENT_LENGTH")) info.contentLength
  refused : (¬ ∃ n, Announces (params (bytes "CONTENT_LENGTH")) n) →
    examine view applicationRoot params = .refused 400 (bytes "Invalid FastCGI request.\n")
  unstarted : (¬ ∃ n, Announces (params (bytes "CONTENT_LENGTH")) n) →
    ∀ (inherited : List RawFd) (es : List Child.Event) (s : State),
      LabelledMachine.exec (step view applicationRoot params) (start inherited) es = some s →
      ∀ success, .requestStartup success ∉ es
  delivered : ∀ n, Announces (params (bytes "CONTENT_LENGTH")) n →
    ∀ (stream : Bytes) (reads : List Read) (body : Body),
      LabelledMachine.exec readPost (Body.start n stream) reads = some body →
      body.delivered <+: stream ∧ body.delivered.length ≤ n ∧
        body.readPostBytes = body.delivered.length ∧ body.readPostBytes ≤ longMax
  counted : ∀ n, Announces (params (bytes "CONTENT_LENGTH")) n →
    ∀ (stream : Bytes) (reads : List Read) (body : Body),
      LabelledMachine.exec readPost (Body.start n stream) reads = some body →
      ∀ length, 0 ≤ body.count length ∧ body.count length ≤ length
  answered : ∀ (body : Body) (read : Read), body.CanAnswer read →
    (readPost body read).isSome = true

/-- A body is announced in digits, and no call of {lit}`read_post` leaves it. -/
theorem body_bounded (view : View) (applicationRoot : Bytes) (params : Params)
    (hnul : ∀ value, params (bytes "CONTENT_LENGTH") = some value → 0 ∉ value) :
    BodyLaws view applicationRoot params := by
  have hinvalid : (¬ ∃ n, Announces (params (bytes "CONTENT_LENGTH")) n) →
      bodyLength params = none := by
    intro hnone
    rw [Option.eq_none_iff_forall_ne_some]
    intro n hn
    exact hnone ⟨n, (bodyLength_iff hnul).mp hn⟩
  constructor
  · intro n
    exact bodyLength_iff hnul
  · intro info hinfo
    exact (bodyLength_iff hnul).mp (contentLength_of_admitted hinfo)
  · intro hnone
    exact examine_of_invalid (hinvalid hnone)
  · intro hnone inherited es s hrun success hmem
    rcases admitted_of_startup hrun hmem with ⟨info, hinfo⟩
    rw [examine_of_invalid (hinvalid hnone)] at hinfo
    cases hinfo
  · intro n hn stream reads body hrun
    have hsound := (Body.Sound.start hn.nonneg stream).reads hrun
    have hmax : body.readPostBytes ≤ longMax :=
      calc body.readPostBytes = body.delivered.length := hsound.counted
        _ ≤ n := hsound.bounded
        _ ≤ longMax := hn.le_longMax
    exact ⟨(List.prefix_append _ _).trans hsound.kept, hsound.bounded, hsound.counted, hmax⟩
  · intro n hn stream reads body hrun length
    have hbounds := body.count_bounds length
    exact ⟨hbounds.1, hbounds.2.1⟩
  · intro body read hanswer
    rw [readPost, if_pos hanswer]
    rfl

/-- A request that announces five bytes. -/
def sampleBodyParams : Params := fun name =>
  if name = bytes "CONTENT_LENGTH" then some (bytes "5") else none

/-- A body of five bytes. -/
theorem body_bounded_sample :
    (∀ value, sampleBodyParams (bytes "CONTENT_LENGTH") = some value → 0 ∉ value) ∧
      bodyLength sampleBodyParams = some 5 ∧
      BodyLaws sampleView (bytes "/srv") sampleBodyParams := by
  have hnul : ∀ value, sampleBodyParams (bytes "CONTENT_LENGTH") = some value → 0 ∉ value := by
    intro value hvalue
    cases hvalue
    decide
  exact ⟨hnul, by decide, body_bounded sampleView (bytes "/srv") sampleBodyParams hnul⟩

/-- Two calls get the five bytes and leave what is behind them. -/
example :
    LabelledMachine.exec readPost (Body.start 5 (bytes "hello world"))
        [⟨3, 3, false⟩, ⟨10, 2, false⟩] =
      some { contentLength := 5, readPostBytes := 5, stdin := bytes " world",
             delivered := bytes "hello" } := by
  decide

end Request

end Polychrome
