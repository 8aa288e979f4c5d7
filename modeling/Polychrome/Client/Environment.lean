import Polychrome.Client.Send
import Polychrome.Library.Overlay
import Polychrome.Library.PythonText
import Polychrome.Request.Body

/-!
# The environment of a request

This module embeds the environment that {lit}`request` in {lit}`tests/fcgi.py` builds, and
sets what it sends against the tests of {lit}`poly_serve_one`.

Main results:

- Definition {lit}`environment`: the entries in their order.
- Theorem {lit}`request_examined`: what becomes of a request of the client.

Current gaps:

- Texts stand for their encodings; {lit}`str(filename.parent)` is an argument.
-/

namespace Polychrome

namespace Client

open Clib FastCgi Overlay Posix Request

/-- The arguments of {lit}`request`. -/
structure Arguments where
  filename : Bytes
  /-- {lit}`str(filename.parent)` -/
  parent : Bytes
  query : Bytes
  method : Bytes
  body : Bytes
  params : List (Bytes × Bytes)
  keep : Bool

/-! ## The entries -/

/-- {lit}`env[key] = value` -/
def setItem (env : List (Bytes × Bytes)) (item : Bytes × Bytes) : List (Bytes × Bytes) :=
  match env with
  | [] => [item]
  | entry :: env => if entry.1 = item.1 then item :: env else entry :: setItem env item

/-- {lit}`env.update(params)` -/
def update (env params : List (Bytes × Bytes)) : List (Bytes × Bytes) := params.foldl setItem env

/-- {lit}`REQUEST_URI` -/
def requestUri (query : Bytes) : Bytes :=
  bytes "/index.php" ++ if query ≠ [] then bytes "?" ++ query else []

/-- The entries of {lit}`env` before the update. -/
def defaults (args : Arguments) : List (Bytes × Bytes) :=
  [(bytes "SCRIPT_FILENAME", args.filename),
    (bytes "SCRIPT_NAME", bytes "/index.php"),
    (bytes "REQUEST_URI", requestUri args.query),
    (bytes "REQUEST_METHOD", args.method),
    (bytes "QUERY_STRING", args.query),
    (bytes "CONTENT_LENGTH", bytes (toString args.body.length)),
    (bytes "SERVER_PROTOCOL", bytes "HTTP/1.1"),
    (bytes "SERVER_NAME", bytes "localhost"),
    (bytes "SERVER_PORT", bytes "80"),
    (bytes "REMOTE_ADDR", bytes "127.0.0.1"),
    (bytes "REMOTE_PORT", bytes "43210"),
    (bytes "HTTP_HOST", bytes "localhost"),
    (bytes "GATEWAY_INTERFACE", bytes "CGI/1.1"),
    (bytes "DOCUMENT_ROOT", args.parent)]

/-- {lit}`env` -/
def environment (args : Arguments) : List (Bytes × Bytes) := update (defaults args) args.params

/-- What {lit}`request` sends. -/
def request (args : Arguments) : Option Bytes :=
  requestWire args.keep (environment args) args.body

section Items

variable {env params : List (Bytes × Bytes)} {item entry : Bytes × Bytes}

/-- An item adds its key and no other. -/
theorem mem_keys_setItem {key : Bytes} :
    key ∈ (setItem env item).map Prod.fst ↔ key = item.1 ∨ key ∈ env.map Prod.fst := by
  induction env with
  | nil => simp [setItem]
  | cons entry env ih =>
      rw [setItem]
      by_cases h : entry.1 = item.1
      · rw [if_pos h]
        simp [h]
      · rw [if_neg h, List.map_cons, List.mem_cons, ih, List.map_cons, List.mem_cons]
        tauto

/-- A dictionary with an item more still has every key once. -/
theorem nodup_setItem (h : (env.map Prod.fst).Nodup) :
    ((setItem env item).map Prod.fst).Nodup := by
  induction env with
  | nil => simp [setItem]
  | cons entry env ih =>
      rw [List.map_cons, List.nodup_cons] at h
      rw [setItem]
      by_cases hkey : entry.1 = item.1
      · rw [if_pos hkey, List.map_cons, List.nodup_cons, ← hkey]
        exact h
      · rw [if_neg hkey, List.map_cons, List.nodup_cons, mem_keys_setItem, not_or]
        exact ⟨⟨hkey, h.1⟩, ih h.2⟩

/-- Setting an item keeps the entries for other keys. -/
theorem mem_setItem (h : entry ∈ env) (hkey : entry.1 ≠ item.1) : entry ∈ setItem env item := by
  induction env with
  | nil => cases h
  | cons first env ih =>
      rw [setItem]
      rcases List.mem_cons.mp h with rfl | h
      · rw [if_neg hkey]
        exact List.mem_cons_self
      · by_cases hfirst : first.1 = item.1
        · rw [if_pos hfirst]
          exact List.mem_cons_of_mem _ h
        · rw [if_neg hfirst]
          exact List.mem_cons_of_mem _ (ih h)

/-- An update keeps the keys different. -/
theorem nodup_update (h : (env.map Prod.fst).Nodup) : ((update env params).map Prod.fst).Nodup := by
  induction params generalizing env with
  | nil => exact h
  | cons item params ih => exact ih (nodup_setItem h)

/-- An update leaves what it does not name. -/
theorem mem_update (h : entry ∈ env) (hkey : ∀ item ∈ params, item.1 ≠ entry.1) :
    entry ∈ update env params := by
  induction params generalizing env with
  | nil => exact h
  | cons item params ih =>
      rw [List.forall_mem_cons] at hkey
      exact ih (mem_setItem h (Ne.symm hkey.1)) hkey.2

end Items

/-! ## What the server finds -/

/-- The parameters of a request: the last pair with a name counts. -/
def paramsOf (pairs : List (Bytes × Bytes)) : Params := lastOf pairs

/-- The names of {lit}`env` that {lit}`poly_serve_one` looks up. -/
def examinedKeys : List Bytes :=
  [bytes "SCRIPT_FILENAME", bytes "REQUEST_URI", bytes "REQUEST_METHOD", bytes "QUERY_STRING",
    bytes "CONTENT_LENGTH"]

section Examined

variable {args : Arguments}

/-- The keys that {lit}`request` sets by itself are different. -/
theorem defaults_distinct (args : Arguments) : ((defaults args).map Prod.fst).Nodup := by
  simp only [defaults, List.map_cons, List.map_nil]
  decide

/-- What {lit}`request` sets is what the environment has, unless the caller overrides it. -/
theorem paramsOf_environment {name : String} {value : Bytes}
    (hparams : ∀ item ∈ args.params, item.1 ∉ examinedKeys) (hname : bytes name ∈ examinedKeys)
    (hmem : (bytes name, value) ∈ defaults args) :
    paramsOf (environment args) (bytes name) = some value := by
  refine lastOf_of_mem (nodup_update (defaults_distinct args)) (mem_update hmem ?_)
  exact fun item hitem heq => hparams item hitem (heq ▸ hname)

/-- A default is found up to its first zero byte. -/
theorem getenv_environment {name : String} {value : Bytes}
    (hparams : ∀ item ∈ args.params, item.1 ∉ examinedKeys) (hname : bytes name ∈ examinedKeys)
    (hmem : (bytes name, value) ∈ defaults args) :
    getenv (paramsOf (environment args)) name = some (cString value) := by
  rw [getenv, paramsOf_environment hparams hname hmem]
  rfl

/-- The length that the client announces is the length of the body. -/
theorem bodyLength_environment (hparams : ∀ item ∈ args.params, item.1 ∉ examinedKeys)
    (hbody : args.body.length < 2 ^ 63) :
    bodyLength (paramsOf (environment args)) = some (args.body.length : Int) := by
  have hvalue : paramsOf (environment args) (bytes "CONTENT_LENGTH") =
      some (bytes args.body.length.repr) :=
    paramsOf_environment hparams (by decide) (by simp [defaults])
  obtain ⟨hdigits, hread, hne, -⟩ := Clib.digits_repr args.body.length
  rw [List.all_eq_true] at hdigits
  have hnul : ∀ value, paramsOf (environment args) (bytes "CONTENT_LENGTH") = some value →
      0 ∉ value := by
    intro value hfound hzero
    rw [hvalue, Option.some.injEq] at hfound
    exact absurd (hdigits 0 (hfound ▸ hzero)) (by decide)
  rw [bodyLength_iff hnul, hvalue]
  refine Or.inr ⟨_, rfl, hne, hdigits, by rw [hread], ?_⟩
  rw [longMax]
  omega

/-- What the client sends, record by record. -/
theorem request_records (hfit : ∀ pair ∈ environment args, LengthsFit pair) :
    ∃ records, request args = some (records.flatMap Record.wire) ∧
      ofKind 5 records = args.body ∧
      decodePairs (ofKind 4 records) = some (environment args) := by
  have hlength : (beginning args.keep).length < 2 ^ 16 := by
    simp [beginning]
  obtain ⟨begun, hbegun, ⟨-, hkind⟩, -⟩ := record_eq 1 hlength
  obtain ⟨params, hparams, hstream⟩ := sendStream_eq 4 ((environment args).flatMap pairBytes)
  obtain ⟨stdin, hstdin, hbody⟩ := sendStream_eq 5 args.body
  refine ⟨begun :: params ++ stdin, ?_, ?_, ?_⟩
  · exact requestWire_eq hbegun (encodeParams_eq hfit) hparams hstdin
  · rw [ofKind_append, ofKind_cons, hkind, if_neg (by decide), hstream.ofKind_ne (by decide),
      hbody.ofKind_self]
    rfl
  · rw [ofKind_append, ofKind_cons, hkind, if_neg (by decide), hstream.ofKind_self,
      hbody.ofKind_ne (by decide), List.nil_append, List.append_nil]
    exact decodePairs_pairs hfit

/-- The tests on a request of the client. -/
theorem examine_environment (view : View) (applicationRoot : Bytes)
    (hparams : ∀ item ∈ args.params, item.1 ∉ examinedKeys) (hbody : args.body.length < 2 ^ 63)
    {b : UInt8} {method : Bytes} (hmethod : cString args.method = b :: method) {resolved : Path}
    (hresolved : view.realpath (cString args.filename) = some resolved)
    (hpermitted : permittedScript view applicationRoot (text resolved) = true) :
    examine view applicationRoot (paramsOf (environment args)) =
      .admitted
        { requestMethod := b :: method
          queryString := some (cString args.query)
          requestUri := some (cString (requestUri args.query))
          contentType := getenv (paramsOf (environment args)) "CONTENT_TYPE"
          contentLength := args.body.length
          pathTranslated := text resolved
          protoNum := 1001
          headersOnly := b :: method == bytes "HEAD"
          authorization := getenv (paramsOf (environment args)) "HTTP_AUTHORIZATION" } := by
  have hgetenv : ∀ name value, bytes name ∈ examinedKeys → (bytes name, value) ∈ defaults args →
      getenv (paramsOf (environment args)) name = some (cString value) := fun name value =>
    getenv_environment hparams
  rw [examine, bodyLength_environment hparams hbody,
    hgetenv "REQUEST_METHOD" args.method (by decide) (by simp [defaults]), hmethod]
  dsimp only
  rw [hgetenv "SCRIPT_FILENAME" args.filename (by decide) (by simp [defaults]), Option.bind_some,
    hresolved]
  dsimp only
  rw [if_pos hpermitted, hgetenv "QUERY_STRING" args.query (by decide) (by simp [defaults]),
    hgetenv "REQUEST_URI" (requestUri args.query) (by decide) (by simp [defaults])]

/-- A request without a method is refused. -/
theorem examine_of_no_method (view : View) (applicationRoot : Bytes)
    (hparams : ∀ item ∈ args.params, item.1 ∉ examinedKeys) (hmethod : cString args.method = []) :
    examine view applicationRoot (paramsOf (environment args)) =
      .refused 400 (bytes "Invalid FastCGI request.\n") := by
  have hfound : getenv (paramsOf (environment args)) "REQUEST_METHOD" = some [] := by
    rw [← hmethod]
    exact getenv_environment hparams (by decide) (by simp [defaults])
  rw [examine, hfound]

/-- The tests that are left to the arguments. -/
def Permits (view : View) (applicationRoot : Bytes) (args : Arguments) (resolved : Path) : Prop :=
  cString args.method ≠ [] ∧ view.realpath (cString args.filename) = some resolved ∧
    permittedScript view applicationRoot (text resolved) = true

/-- The examination lets through what the client asks for properly. -/
theorem admitted_iff_permits (view : View) (applicationRoot : Bytes)
    (hparams : ∀ item ∈ args.params, item.1 ∉ examinedKeys) (hbody : args.body.length < 2 ^ 63) :
    (∃ info, examine view applicationRoot (paramsOf (environment args)) = .admitted info) ↔
      ∃ resolved, Permits view applicationRoot args resolved := by
  constructor
  · rintro ⟨info, hinfo⟩
    obtain ⟨filename, resolved, hfilename, hresolved, -, hpermitted⟩ := examine_admitted hinfo
    refine ⟨resolved, ?_, ?_, hpermitted⟩
    · intro hmethod
      rw [examine_of_no_method view applicationRoot hparams hmethod] at hinfo
      cases hinfo
    · have hsent : getenv (paramsOf (environment args)) "SCRIPT_FILENAME" =
          some (cString args.filename) :=
        getenv_environment hparams (by decide) (by simp [defaults])
      rw [hsent, Option.some.injEq] at hfilename
      rw [hfilename]
      exact hresolved
  · rintro ⟨resolved, hmethod, hresolved, hpermitted⟩
    cases hname : cString args.method with
    | nil => exact absurd hname hmethod
    | cons b method =>
        exact ⟨_, examine_environment view applicationRoot hparams hbody hname hresolved hpermitted⟩

end Examined

/-- A request for the script of the sample application. -/
def sampleRequest : Arguments where
  filename := bytes "/srv/a.php"
  parent := bytes "/srv"
  query := bytes "q=1"
  method := bytes "POST"
  body := bytes "body"
  params := [(bytes "HTTP_HOST", bytes "example")]
  keep := false

end Client

end Polychrome
