import OutboxDispatcher.Lib.Checks
import OutboxDispatcher.Schema

/-! # The fields of a callback

Structural validation of the fields of one callback: the name, the URL with its guard against
private targets, the mode, the headers, and the numbers with their limits. A field that fails is an
error with a stable reason code and the message stored in `outbox_deliveries.last_error`.

The `url` and `serde_json` crates are not modelled: `Crates.parseUrl` stands for `url::Url::parse`,
and a parsed URL is what the guard reads of it; `Crates.decode` stands for reading a `jsonb` column
into a `serde_json::Value`. -/

namespace OutboxDispatcher.Callbacks.Fields

open OutboxDispatcher.Lib.Checks OutboxDispatcher.Lib.JsonValue OutboxDispatcher.Lib.Text
open OutboxDispatcher.Schema

/-! ### Limits -/

def maxExternalTimeoutSecs : ℕ := 7 * 86400
def maxPerCallbackAttempts : ℕ := 50
def maxHandlerTimeoutSecs : ℕ := 300
def maxCompletionCyclesLimit : ℕ := 1000
def maxBackoffElementSecs : ℕ := 7 * 86400

/-- Why a callback failed structural validation. -/
inductive InvalidReason
  | notArray | tooManyCallbacks | notAnObject | missingName | nameNotString | nameInvalid
  | missingUrl | urlNotString | urlMalformed | urlHasUserinfo | urlBadScheme | urlNoHost
  | urlPrivateHost | missingSigningKeyId | invalidMode | headersNotObject | headerNameInvalid
  | headerReserved | headerDuplicate | headerValueInvalid | maxAttemptsNotInteger
  | maxAttemptsOutOfRange | backoffNotArray | backoffEmpty | backoffElementInvalid
  | backoffElementOutOfRange | timeoutNotInteger | timeoutOutOfRange | externalTimeoutNotInteger
  | externalTimeoutOutOfRange | maxCompletionCyclesNotInteger | maxCompletionCyclesOutOfRange
  | externalMissingTimeout | duplicateName | other
  deriving DecidableEq, Repr

/-- The outcome of checking one field. -/
abbrev Checked := Except (InvalidReason × String)

/-! ### The name -/

/-- `^[a-z][a-z0-9_]{2,63}$`, on bytes and characters as the source tests it. -/
def isValidCallbackName (name : String) : Bool :=
  3 ≤ name.utf8ByteSize && name.utf8ByteSize ≤ 64 &&
    match name.toList with
    | [] => false
    | first :: chars =>
      first.isLower && chars.all fun c => c.isLower || c.isDigit || c == '_'

/-! ### The URL -/

/-- `url::Host`. -/
inductive Host
  | ipv4 (ip : BitVec 32)
  | ipv6 (ip : BitVec 128)
  | domain (d : String)

/-- What the guard reads of a `url::Url`. -/
structure Url where
  scheme : String
  username : String
  password : Option String
  host : Option Host

/-- What is left to the crates. -/
class Crates where
  /-- `Url::parse` of the `url` crate. -/
  parseUrl : String → Option Url
  /-- What a `serde_json::Value` holds of a `jsonb` value: numbers that are no 64-bit integers as an
  `f64`. It is `none` when the value is not taken: a number beyond an `f64`, arrays or objects in
  each other deeper than 127. -/
  decode : Json → Option Json

/-- Crates that know `https` URLs of a domain only, and take a number of at most 308 digits. -/
@[reducible] def sampleCrates : Crates where
  parseUrl s :=
    if startsWith s "https://" then
      some { scheme := "https", username := "", password := none,
             host := some (.domain (.ofList ((s.toList.drop 8).takeWhile (· != '/')))) }
    else none
  decode
    | .int n => if n.natAbs < 10 ^ 308 then some (.int n) else none
    | v => some v

/-! The predicates of `std::net::Ipv4Addr` and `Ipv6Addr`. -/

def ipv4IsLoopback (ip : BitVec 32) : Bool := ip >>> 24 == 127

def ipv4IsPrivate (ip : BitVec 32) : Bool :=
  ip >>> 24 == 10 || ip >>> 20 == 0xAC1 || ip >>> 16 == 0xC0A8

def ipv4IsLinkLocal (ip : BitVec 32) : Bool := ip >>> 16 == 0xA9FE

def ipv4IsUnspecified (ip : BitVec 32) : Bool := ip == 0

/-- `Ipv6Addr::to_ipv4`: of the mapped `::ffff:a` and the compatible `::a`. -/
def toIpv4 (ip : BitVec 128) : Option (BitVec 32) :=
  if ip >>> 32 == 0 || ip >>> 32 == 0xFFFF then some (ip.setWidth 32) else none

def ipv6IsLoopback (ip : BitVec 128) : Bool := ip == 1

def ipv6IsUnspecified (ip : BitVec 128) : Bool := ip == 0

def ipv6IsUniqueLocal (ip : BitVec 128) : Bool := ip >>> 121 == 0x7E

def ipv6IsUnicastLinkLocal (ip : BitVec 128) : Bool := ip >>> 118 == 0x3FA

/-- The names that are private or dangerous to reach. -/
def isBlockedDomain (d : String) : Bool :=
  let lower := toAsciiLowercase (trimEndMatches '.' d)
  lower == "localhost" || endsWith lower ".local" || endsWith lower ".localhost" ||
    endsWith lower ".internal" || endsWith lower ".lan" || endsWith lower ".home.arpa"

/-- The four tests on an IPv4 address. -/
def isPrivateIpv4 (ip : BitVec 32) : Bool :=
  ipv4IsLoopback ip || ipv4IsPrivate ip || ipv4IsLinkLocal ip || ipv4IsUnspecified ip

def isPrivateHost : Host → Bool
  | .ipv4 ip => isPrivateIpv4 ip
  | .ipv6 ip =>
    -- an embedded IPv4 address is tested first; `::1` embeds `0.0.0.1` and falls through
    if (toIpv4 ip).any isPrivateIpv4 then true
    else ipv6IsLoopback ip || ipv6IsUnspecified ip || ipv6IsUniqueLocal ip ||
      ipv6IsUnicastLinkLocal ip
  | .domain d => isBlockedDomain d

def validateUrl [Crates] (urlStr : String) (allowInsecure allowPrivateIpTargets : Bool) :
    Checked Unit := do
  let parsed ← okOr (Crates.parseUrl urlStr)
    (.urlMalformed, s!"invalid_callback: url '{urlStr}' is structurally malformed")
  rejectIf (parsed.username ≠ "" ∨ parsed.password.isSome)
    (.urlHasUserinfo,
      s!"invalid_callback: url '{urlStr}' must not contain userinfo (username/password)")
  rejectIf (¬(parsed.scheme = "https" ∨ (parsed.scheme = "http" ∧ allowInsecure)))
    (.urlBadScheme,
      if allowInsecure then
        s!"invalid_callback: url must use http:// or https:// scheme; got '{urlStr}'"
      else s!"invalid_callback: url must use https:// scheme; got '{urlStr}'")
  let host ← okOr parsed.host (.urlNoHost, s!"invalid_callback: url '{urlStr}' has no host")
  rejectIf (!allowPrivateIpTargets && isPrivateHost host)
    (.urlPrivateHost,
      s!"invalid_callback: url '{urlStr}' targets a private or loopback address " ++
        "(set allow_private_ip_targets=true to allow local targets)")

/-! ### The mode -/

def parseMode (modeStr : Option String) : Checked CompletionMode :=
  match modeStr.getD "managed" with
  | "managed" => .ok .managed
  | "external" => .ok .external
  | other =>
    .error (.invalidMode,
      s!"invalid_callback: mode must be 'managed' or 'external'; got '{other}'")

/-! ### The headers -/

/-- The `tchar` characters of RFC 7230. -/
def isTchar (b : UInt8) : Bool :=
  "!#$%&'*+-.^_`|~".toList.any (fun c => c.toNat == b.toNat) ||
    ('0'.toNat ≤ b.toNat && b.toNat ≤ '9'.toNat) || ('A'.toNat ≤ b.toNat && b.toNat ≤ 'Z'.toNat) ||
    ('a'.toNat ≤ b.toNat && b.toNat ≤ 'z'.toNat)

def isValidHeaderName (name : String) : Bool := name ≠ "" && (bytes name).all isTchar

/-- The headers the dispatcher or the HTTP stack controls. -/
def reservedHeaders : List String :=
  ["authorization", "cookie", "host", "content-length", "content-type", "transfer-encoding",
    "connection", "upgrade", "expect", "te", "trailer", "proxy-authorization"]

/-- A byte that no header value may hold. -/
def isIllegalValueByte (b : UInt8) : Bool := (b < 0x20 && b != 9) || b ≥ 0x7f

/-- The loop over the entries; `seenLower` holds the lower-cased names before. -/
def parseHeaderEntries (seenLower : List String) :
    List (String × Json) → Checked (List (String × String))
  | [] => .ok []
  | (k, v) :: rest => do
    rejectIf (!isValidHeaderName k)
      (.headerNameInvalid, s!"invalid_callback: header name '{k}' contains invalid characters")
    let kLower := toAsciiLowercase k
    rejectIf (kLower ∈ reservedHeaders ∨ startsWith kLower "x-outbox-")
      (.headerReserved, s!"invalid_callback: header '{k}' is reserved and cannot be set")
    rejectIf (kLower ∈ seenLower)
      (.headerDuplicate,
        s!"invalid_callback: header '{k}' is a duplicate (header names are case-insensitive)")
    let valStr ← okOr v.asStr
      (.headerValueInvalid, s!"invalid_callback: header '{k}' value must be a string")
    rejectIf ((bytes valStr).any isIllegalValueByte)
      (.headerValueInvalid,
        s!"invalid_callback: header '{k}' value contains illegal characters " ++
          "(control characters and non-ASCII bytes are not allowed)")
    let headers ← parseHeaderEntries (kLower :: seenLower) rest
    return (k, valStr) :: headers

def parseHeaders : Option Json → Checked (List (String × String))
  | none => .ok []
  | some val => do
    let entries ← okOr val.asObject
      (.headersNotObject, "invalid_callback: headers must be a JSON object")
    parseHeaderEntries [] entries

/-! ### The numbers -/

/-- An integer between 1 and `max`. The four bounded fields are instances of it. -/
def parseBounded (field : String) (notInteger outOfRange : InvalidReason) (max : ℕ) (v : Json) :
    Checked ℕ := do
  let n ← okOr v.asU64 (notInteger, s!"invalid_callback: {field} must be a positive integer")
  rejectIf (¬(1 ≤ n ∧ n ≤ max))
    (outOfRange, s!"invalid_callback: {field} must be between 1 and {max}; got {n}")
  return n

def parseMaxAttempts (val : Option Json) (default : ℕ) : Checked ℕ :=
  match val with
  | none => .ok default
  | some v =>
    parseBounded "max_attempts" .maxAttemptsNotInteger .maxAttemptsOutOfRange
      maxPerCallbackAttempts v

def parseTimeout (val : Option Json) (default : Duration) : Checked Duration :=
  match val with
  | none => .ok default
  | some v =>
    fromSecs <$> parseBounded "timeout_seconds" .timeoutNotInteger .timeoutOutOfRange
      maxHandlerTimeoutSecs v

def parseExternalTimeout (val : Option Json) : Checked (Option Duration) :=
  match val with
  | none => .ok none
  | some v =>
    (fun n => some (fromSecs n)) <$> parseBounded "external_completion_timeout_seconds"
      .externalTimeoutNotInteger .externalTimeoutOutOfRange maxExternalTimeoutSecs v

def parseMaxCompletionCycles (val : Option Json) (default : ℕ) : Checked ℕ :=
  match val with
  | none => .ok default
  | some v =>
    parseBounded "max_completion_cycles" .maxCompletionCyclesNotInteger
      .maxCompletionCyclesOutOfRange maxCompletionCyclesLimit v

/-- One element of `backoff_seconds`. -/
def parseBackoffElement (e : Json) : Checked Duration := do
  let n ← okOr e.asU64 (.backoffElementInvalid,
    "invalid_callback: backoff_seconds elements must be positive integers")
  rejectIf (n = 0)
    (.backoffElementInvalid, "invalid_callback: backoff_seconds elements must be > 0")
  rejectIf (n > maxBackoffElementSecs)
    (.backoffElementOutOfRange,
      s!"invalid_callback: backoff_seconds elements must be <= {maxBackoffElementSecs}; got {n}")
  return fromSecs n

def parseBackoff (val : Option Json) (default : List Duration) : Checked (List Duration) :=
  match val with
  | none => .ok default
  | some v => do
    let arr ← okOr v.asArray
      (.backoffNotArray, "invalid_callback: backoff_seconds must be an array")
    rejectIf (arr = []) (.backoffEmpty, "invalid_callback: backoff_seconds must not be empty")
    arr.mapM parseBackoffElement

/-- A schedule that passed validation: whole seconds, at most seven days each. -/
structure ValidBackoff (schedule : List Duration) : Prop where
  nonempty : schedule ≠ []
  range : ∀ d ∈ schedule, ∃ n, d = fromSecs n ∧ 1 ≤ n ∧ n ≤ maxBackoffElementSecs

theorem validateUrl_eq_ok [Crates] {u : String} {insecure allowPrivate : Bool} :
    validateUrl u insecure allowPrivate = .ok () ↔ ∃ p host, Crates.parseUrl u = some p ∧
      p.username = "" ∧ p.password = none ∧ (p.scheme = "https" ∨ (p.scheme = "http" ∧ insecure)) ∧
      p.host = some host ∧ (allowPrivate ∨ ¬isPrivateHost host) := by
  simp only [validateUrl, bind_eq_ok, okOr_eq_ok, rejectIf_eq_ok]
  constructor
  · rintro ⟨p, hp, -, huser, -, hscheme, host, hhost, hprivate⟩
    refine ⟨p, host, hp, ?_, ?_, not_not.mp hscheme, hhost, ?_⟩
    · exact not_not.mp (not_or.mp huser).1
    · exact Option.not_isSome_iff_eq_none.mp (not_or.mp huser).2
    · cases allowPrivate with
      | true => exact .inl rfl
      | false => exact .inr (by simpa using hprivate)
  · rintro ⟨p, host, hp, huser, hpass, hscheme, hhost, hprivate⟩
    refine ⟨p, hp, (), by simp [huser, hpass], (), not_not.mpr hscheme, host, hhost, ?_⟩
    rcases hprivate with rfl | hprivate
    · simp
    · simp [hprivate]

theorem parseBackoffElement_ok {e : Json} {d : Duration} (h : parseBackoffElement e = .ok d) :
    ∃ n, d = fromSecs n ∧ 1 ≤ n ∧ n ≤ maxBackoffElementSecs := by
  simp only [parseBackoffElement, bind_eq_ok, okOr_eq_ok, rejectIf_eq_ok, pure_eq_ok] at h
  obtain ⟨n, -, -, h0, -, hmax, rfl⟩ := h
  exact ⟨n, rfl, by omega, by omega⟩

/-- **The schedule of a callback** is valid when the default is. -/
theorem parseBackoff_valid {val : Option Json} {default l : List Duration}
    (hd : ValidBackoff default) (h : parseBackoff val default = .ok l) : ValidBackoff l := by
  cases val with
  | none =>
    cases h
    exact hd
  | some v =>
    simp only [parseBackoff, bind_eq_ok, okOr_eq_ok, rejectIf_eq_ok] at h
    obtain ⟨arr, -, -, hne, h⟩ := h
    obtain ⟨hleft, hright⟩ := mem_of_mapM h
    refine ⟨?_, fun d hd => ?_⟩
    · rintro rfl
      refine hne (List.eq_nil_iff_forall_not_mem.mpr fun e he => ?_)
      obtain ⟨d, hd, -⟩ := hleft e he
      cases hd
    · obtain ⟨e, -, he⟩ := hright d hd
      exact parseBackoffElement_ok he

end OutboxDispatcher.Callbacks.Fields
