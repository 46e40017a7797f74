import Ultrav.AuthGate
import Ultrav.ErrorConfidentiality

/-!
# Correlation ids

A request goes through the middlewares from the outside in; a panic of a handler leaves all of
them up to the one that recovers it.

* `Exchange` — the reply and the log of a request; `HandlerFunc` — what works on them.
* `withRequestID`, `withLogging`, `withRecovery`, `withSecurityHeaders`, `withCORS` — the
  middlewares; `entrypoint` — all of them in their order.
* `Ends` — what the handlers leave, by the way they end.
* `Correlated` — the header, the body and the log have one id.
* `correlated_iff` — the requests whose reply and log have.
-/

namespace Ultrav.Correlation

open Url

/-! ## Replies and the log -/

/-- The JSON string for some bytes, as it is read back. -/
def jsonText (bs : Bytes) : List Char := Utf8.decode bs

/-- A line of the log. -/
structure LogLine where
  message : String
  attrs : List (String × List Char)
  deriving DecidableEq, Repr

def LogLine.requestId (l : LogLine) : Option (List Char) := l.attrs.lookup "requestId"

/-- The error envelope. -/
structure Envelope where
  code : String
  message : String
  requestId : List Char
  deriving DecidableEq, Repr

/-- The body of a reply. -/
inductive Body where
  | envelope (e : Envelope)
  /-- anything else, or nothing -/
  | other
  deriving DecidableEq, Repr

theorem lookup_filter_of_ne {name other : String} (h : name ≠ other) (l : List (String × Bytes)) :
    (l.filter (·.1 ≠ other)).lookup name = l.lookup name := by
  induction l with
  | nil => rfl
  | cons p ps ih =>
    by_cases hp : p.1 = other
    · have hkey : (name == p.1) = false := beq_false_of_ne (hp ▸ h)
      rw [List.filter_cons_of_neg (by simpa using hp), List.lookup_cons, hkey]
      exact ih
    · rw [List.filter_cons_of_pos (by simpa using hp), List.lookup_cons, List.lookup_cons, ih]

/-- The response writer and the log of one request. -/
structure Exchange where
  headers : List (String × Bytes)
  reply : Option (ℕ × Body)
  log : List LogLine
  deriving DecidableEq, Repr

namespace Exchange

variable (x : Exchange)

def header (name : String) : Option Bytes := x.headers.lookup name

/-- `Header().Set` -/
def set (name : String) (value : Bytes) : Exchange :=
  { x with headers := (name, value) :: x.headers.filter (·.1 ≠ name) }

/-- `WriteHeader` and the body; the first status counts. -/
def write (status : ℕ) (body : Body) : Exchange :=
  { x with reply := x.reply.or (some (status, body)) }

/-- `writeJSON` -/
def writeJSON (status : ℕ) (body : Body) : Exchange :=
  (x.set "Content-Type" (bytesOf "application/json; charset=utf-8")).write status body

/-- One more line of the log. -/
def record (message : String) (attrs : List (String × List Char)) : Exchange :=
  { x with log := x.log ++ [⟨message, attrs⟩] }

@[simp] theorem header_set (name : String) (value : Bytes) :
    (x.set name value).header name = some value := List.lookup_cons_self

theorem header_set_of_ne {name other : String} (h : name ≠ other) (value : Bytes) :
    (x.set other value).header name = x.header name := by
  have hne : (name == other) = false := beq_false_of_ne h
  rw [header, set, List.lookup_cons, hne]
  exact lookup_filter_of_ne h x.headers

end Exchange

/-- A request on its way, with the id that its context has. -/
structure Call where
  request : Request
  url : URL
  ctxRequestID : Option Bytes

/-- What comes back from a handler. -/
inductive Flow where
  | returned (x : Exchange)
  | panicked (value : List Char) (x : Exchange)

abbrev HandlerFunc := Call → Exchange → Flow

/-! ## The middlewares -/

/-- `RequestID` -/
def Call.requestID (c : Call) : Bytes :=
  match c.ctxRequestID with
  | some v => if v ≠ [] then v else bytesOf "req_unknown"
  | none => bytesOf "req_unknown"

/-- The attributes that say which request it is. -/
def Call.methodAndPath (c : Call) : List (String × List Char) :=
  [("method", jsonText c.request.method), ("path", jsonText c.url.path)]

/-- `hex.EncodeToString` -/
def hexText (bs : Bytes) : Bytes :=
  let digit (n : UInt8) : UInt8 := if n < 10 then 0x30 + n else 0x61 + (n - 10)
  bs.flatMap fun b => [digit (b / 16), digit (b % 16)]

/-- `newRequestID`, from what the random source gives. -/
def newRequestID (b : Bytes) : Bytes := bytesOf "req_" ++ hexText b

/-- The id that `withRequestID` gives to a request. -/
def assignedID (b : Bytes) (r : Request) : Bytes :=
  let id := r.header "X-Request-Id"
  if id.length < 8 ∨ id.length > 64 then newRequestID b else id

/-- `withRequestID` -/
def withRequestID (b : Bytes) (next : HandlerFunc) : HandlerFunc := fun c x =>
  let id := assignedID b c.request
  next { c with ctxRequestID := some id } (x.set "X-Request-Id" id)

/-- `withLogging`; the duration is left out. -/
def withLogging (next : HandlerFunc) : HandlerFunc := fun c x =>
  match next c x with
  | .returned x =>
    let status := (x.reply.map (·.1)).getD 200
    .returned (x.record "request" ([("requestId", jsonText c.requestID)] ++ c.methodAndPath ++
      [("status", (toString status).toList)]))
  -- the line is written after the handler and not deferred
  | .panicked value x => .panicked value x

/-- `withRecovery` -/
def withRecovery (next : HandlerFunc) : HandlerFunc := fun c x =>
  match next c x with
  | .returned x => .returned x
  | .panicked value x =>
    let x := x.record "panic recovered" [("requestId", jsonText c.requestID), ("panic", value)]
    .returned (x.writeJSON 500
      (.envelope ⟨"INTERNAL_ERROR", "An internal error occurred", jsonText c.requestID⟩))

/-- `withSecurityHeaders` -/
def withSecurityHeaders (next : HandlerFunc) : HandlerFunc := fun c x =>
  next c ((((x.set "X-Content-Type-Options" (bytesOf "nosniff")).set
    "X-Frame-Options" (bytesOf "DENY")).set
    "Referrer-Policy" (bytesOf "no-referrer")).set
    "Cache-Control" (bytesOf "no-store"))

/-- `withCORS` -/
def withCORS (origin : Bytes) (next : HandlerFunc) : HandlerFunc := fun c x =>
  if origin ≠ [] then
    let x := (x.set "Access-Control-Allow-Origin" origin).set "Vary" (bytesOf "Origin")
    if c.request.method = bytesOf "OPTIONS" then
      .returned ((((x.set "Access-Control-Allow-Methods" (bytesOf "GET, POST, OPTIONS")).set
        "Access-Control-Allow-Headers"
        (bytesOf "Content-Type, X-Request-Id, Authorization")).set
        "Access-Control-Max-Age" (bytesOf "86400")).write 204 .other)
    else next c x
  else next c x

/-! ## The handlers -/

/-- A line that a handler logs itself; it has no id. -/
structure Note where
  message : String
  dir : Option String
  err : Option String

def Note.attrs (n : Note) : List (String × List Char) :=
  (n.dir.map fun d => ("dir", d.toList)).toList ++ (n.err.map fun e => ("err", e.toList)).toList

/-- How a handler ends. -/
inductive Answer where
  /-- a reply of its own, of this type -/
  | reply (status : ℕ) (contentType : Option String)
  /-- `writeError` -/
  | error (code : ErrorCode) (message : String)
  /-- `writeProviderError` -/
  | providerError (err : GoError)
  /-- a panic before there is a reply -/
  | panic (value : String)

/-- What a handler does for a request, as far as it can be seen from outside. -/
structure Behaviour where
  notes : List Note
  answer : Answer

/-- The handlers of the routes, and the status that the router replies with itself. -/
structure App where
  run : Handler → Option UserRow → Behaviour
  refuse : ℕ

/-- `writeError`, with its line. -/
def sendError (reply : ErrorReply) (c : Call) (x : Exchange) : Exchange :=
  let line :=
    if reply.code = ErrorCode.internalError.text then
      x.record "internal error" (("requestId", jsonText c.requestID) :: c.methodAndPath)
    else
      x.record "request error" ([("requestId", jsonText c.requestID), ("code", reply.code.toList),
        ("message", reply.message.toList)] ++ c.methodAndPath)
  line.writeJSON reply.status (.envelope ⟨reply.code, reply.message, jsonText c.requestID⟩)

def Answer.give (a : Answer) : HandlerFunc := fun c x =>
  match a with
  | .reply status contentType =>
    let x := match contentType with
      | some t => x.set "Content-Type" (bytesOf t)
      | none => x
    .returned (x.write status .other)
  | .error code message => .returned (sendError (writeError code message) c x)
  | .providerError err =>
    let (cause, sent) := writeProviderError err
    let x := match cause with
      | some text =>
        x.record "provider error" ([("requestId", jsonText c.requestID)] ++ c.methodAndPath ++
          [("err", text.toList)])
      | none => x
    .returned (sendError sent c x)
  | .panic value => .panicked value.toList x

def Behaviour.perform (b : Behaviour) : HandlerFunc := fun c x =>
  b.answer.give c (b.notes.foldl (fun x n => x.record n.message n.attrs) x)

/-- `withAuth` around the router. -/
def handle {T : Type} (s : Server T) (now : ℤ) (app : App) : HandlerFunc := fun c x =>
  match s.withAuth now c.request c.url with
  | .run handler user => (app.run handler user).perform c x
  | .error reply => .returned (sendError reply c x)
  | .answered => .returned (x.write app.refuse .other)

/-- `Handler`, in the CORS wrapper of the entrypoint. -/
def entrypoint {T : Type} (s : Server T) (now : ℤ) (app : App) (origin b : Bytes) : HandlerFunc :=
  withCORS origin <| withSecurityHeaders <| withRecovery <| withRequestID b <| withLogging <|
    handle s now app

/-- What a request gets and leaves in the log. -/
def serve {T : Type} (s : Server T) (now : ℤ) (app : App) (origin b : Bytes) (r : Request)
    (u : URL) : Flow :=
  entrypoint s now app origin b ⟨r, u, none⟩ ⟨[], none, []⟩

/-! ## What the handlers leave -/

/-- How a request ends inside of the middlewares. -/
inductive Ending where
  | reply
  | error
  | panic
  deriving DecidableEq, Repr

def Answer.ending : Answer → Ending
  | .reply _ _ => .reply
  | .error _ _ | .providerError _ => .error
  | .panic _ => .panic

def ending {T : Type} (s : Server T) (now : ℤ) (app : App) (r : Request) (u : URL) : Ending :=
  match s.withAuth now r u with
  | .run handler user => (app.run handler user).answer.ending
  | .error _ => .error
  | .answered => .reply

/-- The header is kept, and the lines that came in are of the request with this id. -/
structure Traced (id : Bytes) (x x' : Exchange) : Prop where
  header : x'.header "X-Request-Id" = x.header "X-Request-Id"
  lines : ∀ l ∈ x'.log, l ∈ x.log ∨ ∀ i, l.requestId = some i → i = jsonText id

namespace Traced

variable {id : Bytes} {x y z : Exchange}

theorem refl (x : Exchange) : Traced id x x := ⟨rfl, fun _ hl => .inl hl⟩

theorem trans (hxy : Traced id x y) (hyz : Traced id y z) : Traced id x z := by
  refine ⟨hyz.header.trans hxy.header, fun l hl => ?_⟩
  rcases hyz.lines l hl with hy | hid
  · exact hxy.lines l hy
  · exact .inr hid

theorem set {name : String} (h : "X-Request-Id" ≠ name) (value : Bytes) :
    Traced id x (x.set name value) :=
  ⟨x.header_set_of_ne h value, fun _ hl => .inl hl⟩

theorem write (status : ℕ) (body : Body) : Traced id x (x.write status body) :=
  ⟨rfl, fun _ hl => .inl hl⟩

theorem writeJSON (status : ℕ) (body : Body) : Traced id x (x.writeJSON status body) :=
  (set (by decide) _).trans (write status body)

theorem record {message : String} {attrs : List (String × List Char)}
    (h : ∀ i, attrs.lookup "requestId" = some i → i = jsonText id) :
    Traced id x (x.record message attrs) := by
  refine ⟨rfl, fun l hl => ?_⟩
  rcases List.mem_append.mp hl with hold | hnew
  · exact .inl hold
  · obtain rfl := List.mem_singleton.mp hnew
    exact .inr h

/-- A line that starts with the id. -/
theorem record_id {message : String} {attrs : List (String × List Char)} {c : Call}
    (hc : c.requestID = id) :
    Traced id x (x.record message (("requestId", jsonText c.requestID) :: attrs)) := by
  refine record fun i hi => ?_
  rw [List.lookup_cons_self, hc] at hi
  exact (Option.some.inj hi).symm

/-- The lines of a handler's own have no id. -/
theorem notes (ns : List Note) :
    Traced id x (ns.foldl (fun x n => x.record n.message n.attrs) x) := by
  induction ns generalizing x with
  | nil => exact refl x
  | cons n ns ih =>
    refine trans (record fun i hi => ?_) ih
    obtain ⟨message, dir, err⟩ := n
    cases dir <;> cases err <;> cases hi

end Traced

/-- What is left by a handler that ends this way. -/
inductive Ends (id : Bytes) (x : Exchange) : Ending → Flow → Prop
  | reply {x' : Exchange} {status : ℕ} (traced : Traced id x x')
      (sent : x'.reply = some (status, .other)) : Ends id x .reply (.returned x')
  | error {x' : Exchange} {status : ℕ} {e : Envelope} (traced : Traced id x x')
      (sent : x'.reply = some (status, .envelope e)) (named : e.requestId = jsonText id) :
      Ends id x .error (.returned x')
  | panic {x' : Exchange} {value : List Char} (traced : Traced id x x')
      (sent : x'.reply = none) : Ends id x .panic (.panicked value x')

section Handlers

variable {id : Bytes} {c : Call} {x y : Exchange}

theorem Exchange.reply_write (hx : x.reply = none) (status : ℕ) (body : Body) :
    (x.write status body).reply = some (status, body) := by
  rw [write, hx, Option.none_or]

theorem Exchange.reply_writeJSON (hx : x.reply = none) (status : ℕ) (body : Body) :
    (x.writeJSON status body).reply = some (status, body) :=
  reply_write hx status body

/-- Every error that is written has the id of its request. -/
theorem ends_sendError (hc : c.requestID = id) (hx : x.reply = none) (htr : Traced id y x)
    (reply : ErrorReply) : Ends id y .error (.returned (sendError reply c x)) := by
  rw [sendError]
  split
  · exact .error (htr.trans ((Traced.record_id hc).trans (.writeJSON _ _)))
      (Exchange.reply_writeJSON hx _ _) (congrArg jsonText hc)
  · exact .error (htr.trans ((Traced.record_id hc).trans (.writeJSON _ _)))
      (Exchange.reply_writeJSON hx _ _) (congrArg jsonText hc)

theorem ends_give (hc : c.requestID = id) (hx : x.reply = none) (htr : Traced id y x)
    (a : Answer) : Ends id y a.ending (a.give c x) := by
  cases a with
  | reply status contentType =>
    cases contentType with
    | none => exact .reply (htr.trans (.write _ _)) (Exchange.reply_write hx _ _)
    | some t =>
      have hset : Traced id y (x.set "Content-Type" (bytesOf t)) := htr.trans (.set (by decide) _)
      exact .reply (hset.trans (.write _ _)) (Exchange.reply_write hx _ _)
  | error code message => exact ends_sendError hc hx htr _
  | providerError err =>
    rw [Answer.give]
    rcases writeProviderError err with ⟨cause, sent⟩
    cases cause with
    | some text =>
      refine ends_sendError hc ?_ (htr.trans (Traced.record_id hc)) sent
      exact hx
    | none => exact ends_sendError hc hx htr sent
  | panic value => exact .panic htr hx

theorem ends_perform (hc : c.requestID = id) (hx : x.reply = none) (b : Behaviour) :
    Ends id x b.answer.ending (b.perform c x) := by
  refine ends_give hc ?_ (Traced.notes b.notes) b.answer
  generalize b.notes = ns
  induction ns generalizing x with
  | nil => exact hx
  | cons n ns ih => exact ih (x := x.record n.message n.attrs) hx

/-- **Authentication and the router**. -/
theorem ends_handle {T : Type} (s : Server T) (now : ℤ) (app : App) (hc : c.requestID = id)
    (hx : x.reply = none) :
    Ends id x (ending s now app c.request c.url) (handle s now app c x) := by
  rw [ending, handle]
  cases s.withAuth now c.request c.url with
  | run handler user => exact ends_perform hc hx _
  | error reply => exact ends_sendError hc hx (.refl x) reply
  | answered => exact .reply (.write _ _) (Exchange.reply_write hx _ _)

/-- **Logging** adds a line of the request. -/
theorem Ends.withLogging {k : Ending} {next : HandlerFunc} (hc : c.requestID = id)
    (h : Ends id x k (next c x)) : Ends id x k (withLogging next c x) := by
  rw [Correlation.withLogging]
  cases hn : next c x with
  | returned x' =>
    rw [hn] at h
    cases h with
    | reply traced sent => exact .reply (traced.trans (Traced.record_id hc)) sent
    | error traced sent named => exact .error (traced.trans (Traced.record_id hc)) sent named
  | panicked value x' =>
    rw [hn] at h
    exact h

end Handlers

/-! ## Correlation -/

/-- There is a reply, its header has an id, and an error envelope and the lines of the log have
the same one. -/
def Correlated (f : Flow) : Prop :=
  ∃ x id, f = .returned x ∧ x.header "X-Request-Id" = some id ∧
    ∀ status e, x.reply = some (status, .envelope e) →
      Utf8.encode e.requestId = id ∧ ∀ l ∈ x.log, ∀ i, l.requestId = some i → i = e.requestId

/-- The inbound id is not needed, or can be kept. -/
structure IdKept (origin : Bytes) (r : Request) (id : Bytes) (k : Ending) : Prop where
  /-- the request is not answered as a preflight -/
  passed : origin = [] ∨ r.method ≠ bytesOf "OPTIONS"
  /-- an id that is written to a body is a text -/
  text : k = .error → ∃ cs, id = Utf8.encode cs
  /-- the recovery has no other id -/
  unknown : k = .panic → id = bytesOf "req_unknown"

theorem encode_jsonText {id : Bytes} :
    Utf8.encode (jsonText id) = id ↔ ∃ cs, id = Utf8.encode cs := by
  constructor
  · intro h
    exact ⟨jsonText id, h.symm⟩
  · rintro ⟨cs, rfl⟩
    exact congrArg Utf8.encode (Utf8.decode_encode cs)

/-- The id of the recovery, in a body. -/
theorem encode_unknown : Utf8.encode (jsonText (bytesOf "req_unknown")) = bytesOf "req_unknown" :=
  encode_jsonText.mpr ⟨"req_unknown".toList, by decide⟩

section

variable {id : Bytes} {c : Call} {x x' : Exchange}

theorem correlated_other {status : ℕ} (hh : x.header "X-Request-Id" = some id)
    (hr : x.reply = some (status, .other)) : Correlated (.returned x) := by
  refine ⟨x, id, rfl, hh, fun status' e he => ?_⟩
  rw [hr] at he
  cases he

/-- Whether an envelope is correlated is up to its id alone. -/
theorem correlated_envelope {status : ℕ} {e : Envelope} (hh : x.header "X-Request-Id" = some id)
    (hr : x.reply = some (status, .envelope e))
    (hl : Utf8.encode e.requestId = id → ∀ l ∈ x.log, ∀ i, l.requestId = some i → i = e.requestId) :
    Correlated (.returned x) ↔ Utf8.encode e.requestId = id := by
  constructor
  · rintro ⟨y, id', hy, hh', hbody⟩
    cases hy
    obtain rfl := Option.some.inj (hh.symm.trans hh')
    exact (hbody status e hr).1
  · intro hid
    refine ⟨x, id, rfl, hh, fun status' e' he => ?_⟩
    rw [hr] at he
    cases he
    exact ⟨hid, hl hid⟩

/-- The line of the recovery has the id of the recovery. -/
theorem recovered_line {value : List Char} {l : LogLine} {i : List Char}
    (hx : Traced id x x') (hlog : x.log = [])
    (hl : l ∈ (x'.record "panic recovered" [("requestId", jsonText c.requestID),
      ("panic", value)]).log) (hi : l.requestId = some i) :
    i = jsonText id ∨ i = jsonText c.requestID := by
  rcases List.mem_append.mp hl with hold | hnew
  · rcases hx.lines l hold with hin | hid
    · rw [hlog] at hin
      cases hin
    · exact .inl (hid i hi)
  · obtain rfl := List.mem_singleton.mp hnew
    exact .inr (Option.some.inj (hi.symm.trans List.lookup_cons_self))

/-- **Recovery**, around what has set the header and then the id. -/
theorem correlated_withRecovery {next : HandlerFunc} {k : Ending} {y : Exchange}
    (hc : c.requestID = bytesOf "req_unknown") (hy : y.header "X-Request-Id" = some id)
    (hlog : y.log = []) (h : Ends id y k (next c x)) :
    Correlated (withRecovery next c x) ↔
      (k = .error → ∃ cs, id = Utf8.encode cs) ∧ (k = .panic → id = bytesOf "req_unknown") := by
  rw [withRecovery]
  generalize next c x = f at h
  cases h with
  | reply traced sent =>
    exact iff_of_true (correlated_other (traced.header.trans hy) sent)
      ⟨nofun, nofun⟩
  | @error x' status e traced sent named =>
    have hlines : ∀ l ∈ x'.log, ∀ i, l.requestId = some i → i = e.requestId := by
      intro l hl i hi
      rcases traced.lines l hl with hin | hid
      · rw [hlog] at hin
        cases hin
      · exact (hid i hi).trans named.symm
    rw [correlated_envelope (traced.header.trans hy) sent fun _ => hlines, named, encode_jsonText]
    exact ⟨fun ht => ⟨fun _ => ht, nofun⟩, fun ht => ht.1 rfl⟩
  | @panic x' value traced sent =>
    have hunknown : Utf8.encode (jsonText c.requestID) = bytesOf "req_unknown" := by
      rw [hc]
      exact encode_unknown
    have hwritten (m a s b) : Traced id (x'.record m a) ((x'.record m a).writeJSON s b) :=
      .writeJSON s b
    have hh (m a s b) : ((x'.record m a).writeJSON s b).header "X-Request-Id" = some id :=
      (hwritten m a s b).header.trans (traced.header.trans hy)
    rw [correlated_envelope (hh _ _ _ _) (Exchange.reply_writeJSON (by exact sent) _ _), hunknown]
    · exact ⟨fun hid => ⟨nofun, fun _ => hid.symm⟩, fun hid => (hid.2 rfl).symm⟩
    · intro hid l hl i hi
      rcases recovered_line traced hlog hl hi with h | h
      · have hsame : id = c.requestID := hid.symm.trans (hunknown.trans hc.symm)
        exact h.trans (congrArg jsonText hsame)
      · exact h

/-- The ids that are given to requests are not empty. -/
theorem assignedID_ne_nil (b : Bytes) (r : Request) : assignedID b r ≠ [] := by
  rw [assignedID]
  split
  · exact List.append_ne_nil_of_left_ne_nil (by decide) _
  · rename_i hlen
    rintro hnil
    rw [hnil] at hlen
    exact hlen (.inl (by decide))

end

/-- A preflight is answered outside of everything that knows ids. -/
theorem not_correlated_preflight {origin : Bytes} {next : HandlerFunc} {c : Call}
    (ho : origin ≠ []) (hm : c.request.method = bytesOf "OPTIONS") :
    ¬ Correlated (withCORS origin next c ⟨[], none, []⟩) := by
  rintro ⟨x, id, hx, hh, -⟩
  rw [withCORS, if_pos ho, if_pos hm] at hx
  cases hx
  simp [Exchange.header, Exchange.set, Exchange.write, List.lookup_cons] at hh

/-- The chain inside of the CORS wrapper. -/
theorem correlated_chain {T : Type} (s : Server T) (now : ℤ) (app : App) (b : Bytes)
    {c : Call} {x : Exchange} (hc : c.ctxRequestID = none) (hr : x.reply = none)
    (hlog : x.log = []) :
    Correlated ((withSecurityHeaders <| withRecovery <| withRequestID b <| withLogging <|
      handle s now app) c x) ↔
      (ending s now app c.request c.url = .error → ∃ cs, assignedID b c.request = Utf8.encode cs) ∧
      (ending s now app c.request c.url = .panic →
        assignedID b c.request = bytesOf "req_unknown") := by
  have hunknown : c.requestID = bytesOf "req_unknown" := by rw [Call.requestID, hc]
  have hid : Call.requestID { c with ctxRequestID := some (assignedID b c.request) } =
      assignedID b c.request := if_pos (assignedID_ne_nil b c.request)
  refine correlated_withRecovery hunknown (Exchange.header_set _ _ _) ?_
    (.withLogging hid (ends_handle s now app hid ?_))
  · exact hlog
  · exact hr

/-- What is asked of a request that is no preflight. -/
theorem correlated_passed {T : Type} (s : Server T) (now : ℤ) (app : App) (origin b : Bytes)
    (r : Request) (u : URL) (hpass : origin = [] ∨ r.method ≠ bytesOf "OPTIONS") :
    Correlated (serve s now app origin b r u) ↔
      (ending s now app r u = .error → ∃ cs, assignedID b r = Utf8.encode cs) ∧
      (ending s now app r u = .panic → assignedID b r = bytesOf "req_unknown") := by
  rw [serve, entrypoint, withCORS]
  split
  · rename_i ho
    simp only
    rw [if_neg (hpass.resolve_left ho)]
    exact correlated_chain s now app b rfl rfl rfl
  · exact correlated_chain s now app b rfl rfl rfl

/-- **Correlation ids**: a reply and its lines have one id, except for preflights, errors under an
id that is not a text, and panics. -/
theorem correlated_iff {T : Type} (s : Server T) (now : ℤ) (app : App) (origin b : Bytes)
    (r : Request) (u : URL) :
    Correlated (serve s now app origin b r u) ↔
      IdKept origin r (assignedID b r) (ending s now app r u) := by
  by_cases hpass : origin = [] ∨ r.method ≠ bytesOf "OPTIONS"
  · rw [correlated_passed s now app origin b r u hpass]
    exact ⟨fun h => ⟨hpass, h.1, h.2⟩, fun h => ⟨h.text, h.unknown⟩⟩
  · obtain ⟨ho, hm⟩ := not_or.mp hpass
    refine iff_of_false (not_correlated_preflight ho (not_not.mp hm)) fun h => ?_
    exact hpass h.passed

/-! ### A panic -/

/-- `GET /api/v1/host`, without an id. -/
def getHostCall : Request := ⟨bytesOf "GET", bytesOf "/api/v1/host", [], []⟩

def hostURL : URL := ⟨bytesOf "/api/v1/host", []⟩

/-- Handlers that panic. -/
def panics : App := ⟨fun _ _ => ⟨[], .panic "index out of range"⟩, 404⟩

set_option maxRecDepth 100000 in
theorem route_getHost : route getHostCall hostURL none = .run .getHost none := by decide

/-- The header has the new id and the body has `req_unknown`. -/
theorem not_correlated : ¬ Correlated (serve (T := Unit) ⟨none⟩ 0 panics []
    (List.replicate 8 0) getHostCall hostURL) := by
  intro h
  have hend : ending (T := Unit) ⟨none⟩ 0 panics getHostCall hostURL = .panic := by
    rw [ending, Server.withAuth]
    simp only
    rw [route_getHost]
    rfl
  have hid := ((correlated_passed ⟨none⟩ 0 panics [] _ getHostCall hostURL (.inl rfl)).mp h).2 hend
  exact absurd hid (by decide)

end Ultrav.Correlation
