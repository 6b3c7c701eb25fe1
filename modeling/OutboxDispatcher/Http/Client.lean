import OutboxDispatcher.Callbacks.Headers
import OutboxDispatcher.Dispatch
import OutboxDispatcher.Http.Signing
import OutboxDispatcher.Keys

/-! # Sending a webhook

`HttpCallback::deliver` writes the event as JSON, signs the bytes when the target names a key, and
posts them. The request is what the receiver gets: its headers in the order in which they were
added, and the bytes of the body. What `reqwest` does with it is a function from requests to
responses; a builder that holds an error and a connection that fails are errors of it alike. -/

namespace OutboxDispatcher.Http.Client

open OutboxDispatcher.Lib OutboxDispatcher.Lib.Checks OutboxDispatcher.Lib.JsonValue
open OutboxDispatcher.Lib.Text
open OutboxDispatcher.Schema OutboxDispatcher.Callbacks.Fields OutboxDispatcher.Callbacks.Parse
open OutboxDispatcher.Callbacks.Headers OutboxDispatcher.Retry OutboxDispatcher.Dispatch
open OutboxDispatcher.Keys
open OutboxDispatcher.Http.Signing

/-! ### The body -/

/-- What `serde_json` writes. -/
class SerdeCrate where
  /-- `serde_json::to_vec`. -/
  toVec : Json → Except String (List UInt8)
  /-- The text of a `DateTime<Utc>`. -/
  dateTime : Time → String

/-- The bytes of an id, the highest first. -/
def uuidBytes (u : Uuid) : List UInt8 :=
  (List.range 16).map fun i => .ofNat ((u >>> (8 * (15 - i))).toNat % 256)

/-- `Uuid::to_string`: groups of 8, 4, 4, 4 and 12 digits. -/
def uuidText (u : Uuid) : String :=
  let group (i n : ℕ) := Hex.encode (((uuidBytes u).drop i).take n)
  s!"{group 0 4}-{group 4 2}-{group 6 2}-{group 8 2}-{group 10 6}"

/-- An id as JSON, or `null`. -/
def uuidJson : Option Uuid → Json
  | none => .null
  | some u => .str (uuidText u)

/-- The fields in the order of `serde_json::Map`. -/
def buildBody [SerdeCrate] (event : EventForDelivery) : Json :=
  .obj [("actor_id", uuidJson event.actorId),
    ("aggregate_id", uuidJson event.aggregateId),
    ("aggregate_type", .str event.aggregateType),
    ("attempt", .int event.attempt),
    ("callback_name", .str event.callbackName),
    ("causation_id", uuidJson event.causationId),
    ("correlation_id", uuidJson event.correlationId),
    ("created_at", .str (SerdeCrate.dateTime event.createdAt)),
    ("delivery_id", .int event.deliveryId),
    ("event_id", uuidJson event.eventId),
    ("kind", .str event.kind),
    ("metadata", event.metadata),
    ("mode", .str event.mode.asStr),
    ("payload", event.payload)]

/-! ### The request -/

/-- A POST request; `RequestBuilder::header` appends. -/
structure Request where
  url : String
  timeout : Duration
  headers : List (String × String)
  body : List UInt8

/-- The values of a header, whose names are compared without case. -/
def headerValues (headers : List (String × String)) (name : String) : List String :=
  (headers.filter fun h => toAsciiLowercase h.1 = toAsciiLowercase name).map Prod.snd

theorem headerValues_of_mem {name value : String} : ∀ {headers : List (String × String)},
    (headers.map fun h => toAsciiLowercase h.1).Nodup → (name, value) ∈ headers →
      headerValues headers name = [value]
  | [], _, h => nomatch h
  | (k, v) :: rest, hn, h => by
    rw [List.map_cons, List.nodup_cons] at hn
    rw [headerValues, List.filter_cons]
    rcases List.mem_cons.mp h with heq | hmem
    · cases heq
      have hrest : rest.filter (fun h => toAsciiLowercase h.1 = toAsciiLowercase name) = [] := by
        refine List.filter_eq_nil_iff.mpr fun h' hm' heq => hn.1 ?_
        exact List.mem_map.mpr ⟨h', hm', of_decide_eq_true heq⟩
      simp [hrest]
    · have hne : toAsciiLowercase k ≠ toAsciiLowercase name :=
        fun heq => hn.1 (List.mem_map.mpr ⟨_, hmem, heq.symm⟩)
      rw [if_neg (by simpa using hne)]
      exact headerValues_of_mem hn.2 hmem

/-- The headers that say which delivery this is. -/
def eventHeaders (event : EventForDelivery) : List (String × String) :=
  [("Content-Type", "application/json"),
    ("X-Outbox-Event-Id", uuidText event.eventId),
    ("X-Outbox-Delivery-Id", toString event.deliveryId),
    ("X-Outbox-Callback-Name", event.callbackName),
    ("X-Outbox-Kind", event.kind),
    ("X-Outbox-Mode", event.mode.asStr),
    ("X-Outbox-Attempt", toString event.attempt)]

/-- The seconds since the epoch; a clock before it counts as at it. -/
def unixSecs (now : Time) : UInt64 := .ofNat (now / 10 ^ 9).toNat

section

variable [HmacCrate] [SerdeCrate]

def signatureHeaders (ring : KeyRing) (nowTs : UInt64) (bodyBytes : List UInt8) :
    Option String → Except String (List (String × String))
  | none => .ok []
  | some keyId =>
    match ring.get keyId with
    | some secret =>
      .ok [("X-Outbox-Signing-Key-Id", keyId), ("X-Outbox-Signature", sign secret nowTs bodyBytes)]
    | none => .error s!"signing_key_id '{keyId}' not registered"

/-- The first half of `deliver`: the request, or the reason of a transient error. -/
def buildRequest (ring : KeyRing) (now : Time) (target : CallbackTarget)
    (event : EventForDelivery) : Except String Request := do
  let bodyBytes ← (SerdeCrate.toVec (buildBody event)).mapError fun e =>
    s!"failed to serialize webhook body: {e}"
  let signature ← signatureHeaders ring (unixSecs now) bodyBytes target.signingKeyId
  return { url := target.url, timeout := target.timeout, body := bodyBytes,
           headers := eventHeaders event ++ signature ++ target.headers }

/-! ### The response -/

/-- What `deliver` reads of a response. -/
structure Response where
  status : ℕ
  /-- The first value of `Retry-After`. -/
  retryAfter : Option (List UInt8)

/-- `HeaderValue::to_str`: visible ASCII characters, spaces and tabs. -/
def headerToStr (value : List UInt8) : Option String :=
  if value.all fun b => (32 ≤ b && b < 127) || b == 9 then
    some (.ofList (value.map fun b => .ofNat b.toNat))
  else none

def extractRetryAfter [HttpDateCrate] (now : Time) (response : Response) : Option Duration :=
  (response.retryAfter.bind headerToStr).bind (parseRetryAfter now)

/-- The second half of `deliver`, at the time of the response. -/
def interpretResponse [HttpDateCrate] (now : Time) (target : CallbackTarget) :
    Except String Response → CallbackResult
  | .error e => .transient s!"connection error: {e}" none
  | .ok response =>
    if 200 ≤ response.status ∧ response.status < 300 then .ok
    else .transient s!"POST {target.url} returned {response.status}"
      (extractRetryAfter now response)

/-- `HttpCallback::deliver`, which reads the clock before the request and after the response. -/
def deliver [HttpDateCrate] (ring : KeyRing) (send : Request → Except String Response)
    (now responseTime : Time) (target : CallbackTarget) (event : EventForDelivery) :
    CallbackResult :=
  match buildRequest ring now target event with
  | .error reason => .transient reason none
  | .ok req => interpretResponse responseTime target (send req)

end

/-! ### The headers of the callback -/

theorem headerValues_append (l l' : List (String × String)) (name : String) :
    headerValues (l ++ l') name = headerValues l name ++ headerValues l' name := by
  rw [headerValues, List.filter_append, List.map_append]
  rfl

/-- A name that the dispatcher has for itself. -/
def isReserved (name : String) : Bool :=
  toAsciiLowercase name ∈ reservedHeaders || startsWith (toAsciiLowercase name) "x-outbox-"

/-- A callback does not bring a header of the dispatcher's. -/
theorem headerValues_of_reserved {headers : List (String × String)} (hok : HeadersOk headers)
    {name : String} (hname : isReserved name) : headerValues headers name = [] := by
  rw [headerValues, List.map_eq_nil_iff, List.filter_eq_nil_iff]
  intro h hm heq
  have hh := hok.ok h hm
  rw [isReserved, ← of_decide_eq_true heq, Bool.or_eq_true, decide_eq_true_eq] at hname
  exact hname.elim hh.reserved hh.outbox

/-! ### The receiver verifies what is sent -/

section

variable [HmacCrate] [SerdeCrate] {ring : KeyRing} {keyId : String} {secret bodyBytes : List UInt8}
  {target : CallbackTarget} {event : EventForDelivery} {now : Time}

omit [HmacCrate] [SerdeCrate] in
/-- The signature of the dispatcher comes before any of the callback's. -/
theorem headerValues_signature (event : EventForDelivery) (keyId signature : String)
    (headers : List (String × String)) :
    headerValues (eventHeaders event ++ [("X-Outbox-Signing-Key-Id", keyId),
      ("X-Outbox-Signature", signature)] ++ headers) "X-Outbox-Signature" =
        signature :: headerValues headers "X-Outbox-Signature" := by
  have hnames : ((eventHeaders event ++ [("X-Outbox-Signing-Key-Id", keyId),
      ("X-Outbox-Signature", signature)]).map fun h => toAsciiLowercase h.1).Nodup := by
    show (["Content-Type", "X-Outbox-Event-Id", "X-Outbox-Delivery-Id", "X-Outbox-Callback-Name",
      "X-Outbox-Kind", "X-Outbox-Mode", "X-Outbox-Attempt", "X-Outbox-Signing-Key-Id",
      "X-Outbox-Signature"].map toAsciiLowercase).Nodup
    decide
  have hown : headerValues (eventHeaders event ++ [("X-Outbox-Signing-Key-Id", keyId),
      ("X-Outbox-Signature", signature)]) "X-Outbox-Signature" = [signature] :=
    headerValues_of_mem hnames (by simp)
  rw [headerValues_append, hown]
  rfl

/-- **The bytes that are signed are the bytes that are sent.** -/
theorem buildRequest_signed (hring : ring.get keyId = some secret)
    (hkey : target.signingKeyId = some keyId)
    (hbody : SerdeCrate.toVec (buildBody event) = .ok bodyBytes) :
    ∃ req, buildRequest ring now target event = .ok req ∧ req.body = bodyBytes ∧
      headerValues req.headers "X-Outbox-Signature" =
        sign secret (unixSecs now) bodyBytes ::
        headerValues target.headers "X-Outbox-Signature" := by
  have hreq : buildRequest ring now target event = .ok
      { url := target.url, timeout := target.timeout, body := bodyBytes,
        headers := eventHeaders event ++ [("X-Outbox-Signing-Key-Id", keyId),
          ("X-Outbox-Signature", sign secret (unixSecs now) bodyBytes)] ++ target.headers } := by
    unfold buildRequest signatureHeaders
    rw [hbody, hkey]
    dsimp only
    rw [hring]
    rfl
  exact ⟨_, hreq, rfl, headerValues_signature ..⟩

/-- **Signatures, end to end.** If two messages have different codes, then:

* a receiver accepts the header of one of them for the other iff the two are the same, and it reads
  the timestamp that was signed;
* what `deliver` sends for a target that names a key of the ring is one request; the receiver
  accepts its signature for the timestamp it reads there and the bytes it gets, and a callback that
  was accepted does not bring another signature. -/
theorem signature_end_to_end [Crates] [HttpDateCrate] (secret : List UInt8) (t t' : UInt64)
    (body body' : List UInt8)
    (hinj : HmacCrate.mac secret (signingString t body) =
      HmacCrate.mac secret (signingString t' body') →
      signingString t body = signingString t' body') :
    (verify secret t' body' (sign secret t body) ↔ t = t' ∧ body = body') ∧
    parseTField (sign secret t body) = some t ∧
    ∀ (ring : KeyRing) (keyId : String) (target : CallbackTarget) (event : EventForDelivery)
      (now : Time) (bodyBytes : List UInt8), (keyId, secret) ∈ ring.keys →
      target.signingKeyId = some keyId → SerdeCrate.toVec (buildBody event) = .ok bodyBytes →
      ∃ req header custom ts,
        (∀ send responseTime, deliver ring send now responseTime target event =
          interpretResponse responseTime target (send req)) ∧
        req.body = bodyBytes ∧
        headerValues req.headers "X-Outbox-Signature" = header :: custom ∧
        parseTField header = some ts ∧ verify secret ts req.body header ∧
        ∀ config v, accept config v = some target → custom = [] := by
  refine ⟨?_, parseTField_sign secret t body, ?_⟩
  · rw [verify_sign_iff]
    constructor
    · intro hmac
      exact signingString_inj (hinj hmac)
    · rintro ⟨rfl, rfl⟩
      rfl
  · intro ring keyId target event now bodyBytes hmem hkey hbody
    obtain ⟨req, hreq, hsent, hvalues⟩ := buildRequest_signed (KeyRing.get_of_mem hmem) hkey hbody
    refine ⟨req, _, _, unixSecs now, fun send responseTime => ?_, hsent, hvalues,
      parseTField_sign ..,
      ?_, fun config v ha => headerValues_of_reserved (headersOk_of_accept ha) (by decide)⟩
    · rw [deliver, hreq]
    · rw [hsent]
      exact (verify_sign_iff ..).mpr rfl

end

/-! ### A request -/

def sampleSecret : List UInt8 := bytes "super-secret-key-32-bytes-minimum!!"

def sampleEvent : EventForDelivery where
  deliveryId := 1
  eventId := 1
  kind := "user.registered@v1"
  callbackName := "hook_a"
  mode := .managed
  aggregateType := "user"
  aggregateId := 2
  payload := .obj []
  metadata := .obj []
  actorId := none
  correlationId := none
  causationId := none
  createdAt := 0
  attempt := 1

/-- The body of the request for the event. -/
def sampleBody : List UInt8 := bytes (
    "\x7b\"actor_id\":null,\"aggregate_id\":\"00000000-0000-0000-0000-000000000002\"," ++
    "\"aggregate_type\":\"user\",\"attempt\":1,\"callback_name\":\"hook_a\"," ++
    "\"causation_id\":null,\"correlation_id\":null,\"created_at\":\"1970-01-01T00:00:00Z\"," ++
    "\"delivery_id\":1,\"event_id\":\"00000000-0000-0000-0000-000000000001\"," ++
    "\"kind\":\"user.registered@v1\",\"metadata\":\x7b\x7d,\"mode\":\"managed\"," ++
    "\"payload\":\x7b\x7d\x7d")

@[reducible] def sampleSerde : SerdeCrate where
  toVec _ := .ok sampleBody
  dateTime _ := "1970-01-01T00:00:00Z"

/-- HMAC-SHA256 on the body, at one time and a second later. -/
@[reducible] def sampleHmac : HmacCrate where
  mac _ message :=
    if message = signingString 1714229400 sampleBody then
      ⟨#[184, 6, 43, 27, 97, 141, 33, 42, 142, 220, 213, 169, 222, 29, 124, 205, 228, 75, 3,
        169, 129, 239, 116, 145, 254, 128, 17, 226, 96, 38, 135, 25], rfl⟩
    else if message = signingString 1714229401 sampleBody then
      ⟨#[125, 245, 69, 104, 19, 81, 71, 38, 120, 20, 41, 236, 53, 139, 135, 121, 121, 81, 79,
        233, 11, 78, 53, 171, 124, 37, 164, 234, 242, 253, 101, 155], rfl⟩
    else .replicate 32 0

theorem sampleHmac_ne : sampleHmac.mac sampleSecret (signingString 1714229400 sampleBody) ≠
    sampleHmac.mac sampleSecret (signingString 1714229401 sampleBody) := by
  have hmsg : signingString 1714229401 sampleBody ≠ signingString 1714229400 sampleBody :=
    fun heq => absurd (signingString_inj heq).1 (by decide)
  show (if _ then _ else _) ≠ (if _ then _ else _)
  rw [if_pos rfl, if_neg hmsg, if_pos rfl]
  decide

/-- An `httpdate` that knows no date. -/
@[reducible] def noDates : HttpDateCrate where
  parse _ := none

def sampleSigned : Json :=
  .obj [("name", .str "hook_a"), ("signing_key_id", .str "k1"),
    ("url", .str "https://example.com/hook")]

theorem signature_end_to_end_sample :
    letI := sampleHmac
    letI := sampleSerde
    letI := noDates
    ¬verify sampleSecret 1714229401 sampleBody (sign sampleSecret 1714229400 sampleBody) ∧
    ∃ target, @accept sampleCrates {} sampleSigned = some target ∧
      ∃ req header ts,
        (∀ send responseTime,
          deliver (.withKey "k1" sampleSecret) send (1714229400 * 10 ^ 9) responseTime
          target sampleEvent = interpretResponse responseTime target (send req)) ∧
        headerValues req.headers "X-Outbox-Signature" = [header] ∧
        parseTField header = some ts ∧ verify sampleSecret ts req.body header := by
  let := sampleHmac
  let := sampleSerde
  let := noDates
  let := sampleCrates
  have hx : (accept {} sampleSigned).any (·.signingKeyId = some "k1") := by decide +kernel
  obtain ⟨target, ha, hkey⟩ := (Option.any_eq_true _ _).mp hx
  obtain ⟨hiff, -, hsend⟩ :=
    signature_end_to_end sampleSecret 1714229400 1714229401 sampleBody sampleBody
    fun heq => absurd heq sampleHmac_ne
  obtain ⟨req, header, custom, ts, hdel, -, hvalues, hts, hver, hcustom⟩ :=
    hsend (.withKey "k1" sampleSecret) "k1" target sampleEvent (1714229400 * 10 ^ 9) sampleBody
      (List.mem_singleton.mpr rfl) (of_decide_eq_true hkey) rfl
  refine ⟨fun h => absurd (hiff.mp h).1 (by decide), target, ha, req, header, ts, hdel, ?_, hts,
    hver⟩
  rw [hvalues, hcustom {} sampleSigned ha]

end OutboxDispatcher.Http.Client
