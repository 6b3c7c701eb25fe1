import OutboxDispatcher.Callbacks.Accepted
import OutboxDispatcher.Http.Client

/-! # The headers of a webhook

A request carries the dispatcher's headers, those of its signature, the callback's, and the
`User-Agent` of the client unless it has one already. The parser keeps callbacks from the names of
the dispatcher, but not from `User-Agent` (`controlled_iff`); and it checks what a callback brings,
but nobody checks the kind of the event or the id of the key (`legal_iff`). -/

namespace OutboxDispatcher.Http.Headers

open OutboxDispatcher.Lib OutboxDispatcher.Lib.Checks OutboxDispatcher.Lib.JsonValue
open OutboxDispatcher.Lib.Text OutboxDispatcher.Schema
open OutboxDispatcher.Callbacks.Fields OutboxDispatcher.Callbacks.Parse
  OutboxDispatcher.Callbacks.Headers
open OutboxDispatcher.Callbacks.Accepted OutboxDispatcher.Config OutboxDispatcher.Dispatch
open OutboxDispatcher.Keys OutboxDispatcher.Http.Signing OutboxDispatcher.Http.Client

/-- What the client sends: its `User-Agent` is used when the request has none. -/
def sentHeaders (cfg : HttpClientConfig) (req : Request) : List (String × String) :=
  if (headerValues req.headers "User-Agent").isEmpty then
    req.headers ++ [("User-Agent", cfg.userAgent)]
  else req.headers

/-! ### The request -/

section

variable [HmacCrate] [SerdeCrate] {ring : KeyRing} {now : Time} {target : CallbackTarget}
  {event : EventForDelivery} {req : Request}

/-- The headers of a signature: none without a key, two with a key of the ring. -/
inductive Signature (ring : KeyRing) (ts : UInt64) (body : List UInt8) :
    Option String → List (String × String) → Prop
  | unsigned : Signature ring ts body none []
  | signed (keyId : String) (secret : List UInt8) (h : ring.get keyId = some secret) :
      Signature ring ts body (some keyId)
        [("X-Outbox-Signing-Key-Id", keyId), ("X-Outbox-Signature", sign secret ts body)]

omit [SerdeCrate] in
theorem signature_of_ok {ts : UInt64} {body : List UInt8} {keyId : Option String}
    {headers : List (String × String)} (h : signatureHeaders ring ts body keyId = .ok headers) :
    Signature ring ts body keyId headers := by
  cases keyId with
  | none =>
    cases h
    exact .unsigned
  | some keyId =>
    unfold signatureHeaders at h
    cases hr : ring.get keyId with
    | none => simp [hr] at h
    | some secret =>
      simp only [hr, Except.ok.injEq] at h
      subst h
      exact .signed keyId secret hr

/-- **What `deliver` builds.** -/
theorem headers_of_buildRequest (h : buildRequest ring now target event = .ok req) :
    ∃ signature, Signature ring (unixSecs now) req.body target.signingKeyId signature ∧
      req.headers = eventHeaders event ++ signature ++ target.headers := by
  simp only [buildRequest, bind_eq_ok, pure_eq_ok] at h
  obtain ⟨body, -, signature, hs, rfl⟩ := h
  exact ⟨signature, signature_of_ok hs, rfl⟩

/-! ### Headers that cannot be overridden -/

/-- Headers that a callback must never bring. -/
def harmfulNames : List String := ["Authorization", "Cookie", "Host", "Content-Length"]

/-- The headers of the dispatcher have one value, its own; those of a signature are there iff the
target names a key; and the callback brings none of those it must not. -/
structure Controlled (cfg : HttpClientConfig) (ring : KeyRing) (now : Time)
    (target : CallbackTarget) (event : EventForDelivery) (req : Request) : Prop where
  own : ∀ h ∈ eventHeaders event, headerValues (sentHeaders cfg req) h.1 = [h.2]
  userAgent : headerValues (sentHeaders cfg req) "User-Agent" = [cfg.userAgent]
  unsigned : target.signingKeyId = none →
    headerValues (sentHeaders cfg req) "X-Outbox-Signing-Key-Id" = [] ∧
      headerValues (sentHeaders cfg req) "X-Outbox-Signature" = []
  signed : ∀ keyId ∈ target.signingKeyId, ∃ secret, ring.get keyId = some secret ∧
    headerValues (sentHeaders cfg req) "X-Outbox-Signing-Key-Id" = [keyId] ∧
      headerValues (sentHeaders cfg req) "X-Outbox-Signature" =
        [sign secret (unixSecs now) req.body]
  harmless : ∀ name ∈ harmfulNames, headerValues (sentHeaders cfg req) name = []

def eventNames : List String :=
  ["Content-Type", "X-Outbox-Event-Id", "X-Outbox-Delivery-Id", "X-Outbox-Callback-Name",
    "X-Outbox-Kind", "X-Outbox-Mode", "X-Outbox-Attempt"]

def signatureNames : List String := ["X-Outbox-Signing-Key-Id", "X-Outbox-Signature"]

omit [HmacCrate] [SerdeCrate] in
theorem toAsciiLowercase_userAgent : toAsciiLowercase "User-Agent" = "user-agent" :=
  toAsciiLowercase_ofList rfl

def ownLower : List String :=
  ["content-type", "x-outbox-event-id", "x-outbox-delivery-id", "x-outbox-callback-name",
    "x-outbox-kind",
    "x-outbox-mode", "x-outbox-attempt", "x-outbox-signing-key-id", "x-outbox-signature"]

omit [HmacCrate] [SerdeCrate] in
theorem lower_own : (eventNames ++ signatureNames).map toAsciiLowercase = ownLower := by
  iterate 9 refine congrArg₂ List.cons (toAsciiLowercase_ofList rfl) ?_
  rfl

omit [HmacCrate] [SerdeCrate] in
theorem lower_harmful : harmfulNames.map toAsciiLowercase =
    ["authorization", "cookie", "host", "content-length"] := by
  iterate 4 refine congrArg₂ List.cons (toAsciiLowercase_ofList rfl) ?_
  rfl

omit [HmacCrate] [SerdeCrate] in
/-- No name comes twice. All of them are reserved, and so are the harmful ones, which are others;
none is the client's. -/
theorem ownLower_reserved : ownLower.Nodup ∧
    (∀ l ∈ ownLower, (l ∈ reservedHeaders || startsWith l "x-outbox-") ∧ l ≠ "user-agent") ∧
    ∀ l ∈ ["authorization", "cookie", "host", "content-length"],
      (l ∈ reservedHeaders || startsWith l "x-outbox-") ∧ l ≠ "user-agent" ∧ l ∉ ownLower := by
  decide +kernel

omit [HmacCrate] [SerdeCrate] in
theorem lower_nodup :
    (eventNames.map toAsciiLowercase ++ signatureNames.map toAsciiLowercase).Nodup := by
  rw [← List.map_append, lower_own]
  exact ownLower_reserved.1

omit [HmacCrate] [SerdeCrate] in
theorem reserved_of_name {n : String} (hn : n ∈ eventNames ++ signatureNames) :
    isReserved n ∧ toAsciiLowercase n ≠ "user-agent" :=
  ownLower_reserved.2.1 (toAsciiLowercase n) (lower_own ▸ List.mem_map_of_mem hn)

omit [HmacCrate] [SerdeCrate] in
theorem reserved_of_harmful {n : String} (hn : n ∈ harmfulNames) : isReserved n ∧
    toAsciiLowercase n ≠ "user-agent" ∧ toAsciiLowercase n ∉ ownLower :=
  ownLower_reserved.2.2 (toAsciiLowercase n) (lower_harmful ▸ List.mem_map_of_mem hn)

omit [HmacCrate] [SerdeCrate] in
/-- The client's own header changes no other. -/
theorem headerValues_sent (cfg : HttpClientConfig) (req : Request) {name : String}
    (hne : toAsciiLowercase name ≠ "user-agent") :
    headerValues (sentHeaders cfg req) name = headerValues req.headers name := by
  have hua : headerValues [("User-Agent", cfg.userAgent)] name = [] := by
    simp [headerValues, toAsciiLowercase_userAgent, Ne.symm hne]
  unfold sentHeaders
  split_ifs
  · rw [headerValues_append, hua, List.append_nil]
  · rfl

omit [SerdeCrate] in
theorem names_nodup {ts : UInt64} {body : List UInt8} {keyId : Option String}
    {signature : List (String × String)} (event : EventForDelivery)
    (h : Signature ring ts body keyId signature) :
    ((eventHeaders event ++ signature).map fun h => toAsciiLowercase h.1).Nodup := by
  cases h with
  | unsigned => exact lower_nodup.of_append_left
  | signed => exact lower_nodup

omit [HmacCrate] [SerdeCrate] in
theorem headerValues_eq_nil {headers : List (String × String)} {name : String}
    (h : ∀ n ∈ headers.map Prod.fst, toAsciiLowercase n ≠ toAsciiLowercase name) :
    headerValues headers name = [] := by
  rw [headerValues, List.map_eq_nil_iff, List.filter_eq_nil_iff]
  exact fun x hx heq => h x.1 (List.mem_map_of_mem hx) (of_decide_eq_true heq)

omit [SerdeCrate] in
theorem mem_names {ts : UInt64} {body : List UInt8} {keyId : Option String}
    {signature : List (String × String)} {event : EventForDelivery} {n : String}
    (h : Signature ring ts body keyId signature)
    (hn : n ∈ (eventHeaders event ++ signature).map Prod.fst) :
    n ∈ eventNames ++ signatureNames := by
  cases h with
  | unsigned => exact List.mem_append_left _ hn
  | signed => exact hn

omit [SerdeCrate] in
/-- A header the dispatcher has added is sent with its value and no other. -/
theorem headerValues_of_own {ts : UInt64} {body : List UInt8} {keyId : Option String}
    {signature : List (String × String)} {h : String × String} (cfg : HttpClientConfig)
    (hsig : Signature ring ts body keyId signature) (hok : HeadersOk target.headers)
    (hreq : req.headers = eventHeaders event ++ signature ++ target.headers)
    (hm : h ∈ eventHeaders event ++ signature) :
    headerValues (sentHeaders cfg req) h.1 = [h.2] := by
  obtain ⟨hr, hne⟩ := reserved_of_name (mem_names hsig (List.mem_map_of_mem hm))
  rw [headerValues_sent cfg req hne, hreq, headerValues_append,
    headerValues_of_mem (names_nodup event hsig) hm, headerValues_of_reserved hok hr]
  rfl

omit [HmacCrate] [SerdeCrate] in
/-- A reserved name that the dispatcher has not added is not sent. -/
theorem headerValues_of_not_own {signature : List (String × String)} {name : String}
    (cfg : HttpClientConfig) (hok : HeadersOk target.headers)
    (hreq : req.headers = eventHeaders event ++ signature ++ target.headers)
    (hr : isReserved name) (hne : toAsciiLowercase name ≠ "user-agent")
    (hnot : ∀ n ∈ (eventHeaders event ++ signature).map Prod.fst,
      toAsciiLowercase n ≠ toAsciiLowercase name) :
      headerValues (sentHeaders cfg req) name = [] := by
  rw [headerValues_sent cfg req hne, hreq, headerValues_append, headerValues_eq_nil hnot,
    headerValues_of_reserved hok hr]
  rfl

omit [SerdeCrate] in
/-- Of `User-Agent` the request has what the callback brings. -/
theorem headerValues_userAgent {ts : UInt64} {body : List UInt8} {keyId : Option String}
    {signature : List (String × String)} (hsig : Signature ring ts body keyId signature)
    (hreq : req.headers = eventHeaders event ++ signature ++ target.headers) :
    headerValues req.headers "User-Agent" = headerValues target.headers "User-Agent" := by
  have hnot : ∀ n ∈ (eventHeaders event ++ signature).map Prod.fst,
      toAsciiLowercase n ≠ toAsciiLowercase "User-Agent" := by
    rw [toAsciiLowercase_userAgent]
    exact fun _ hn => (reserved_of_name (mem_names hsig hn)).2
  rw [hreq, headerValues_append, headerValues_eq_nil hnot]
  rfl

omit [HmacCrate] [SerdeCrate] in
theorem headerValues_sent_userAgent (cfg : HttpClientConfig) (req : Request) :
    headerValues (sentHeaders cfg req) "User-Agent" =
      if (headerValues req.headers "User-Agent").isEmpty then [cfg.userAgent]
      else headerValues req.headers "User-Agent" := by
  unfold sentHeaders
  split_ifs with h
  · rw [headerValues_append, List.isEmpty_iff.mp h]
    simp [headerValues]
  · rfl

/-- The callback's `User-Agent`, if it has one, is the client's. -/
def KeepsUserAgent (cfg : HttpClientConfig) (target : CallbackTarget) : Prop :=
  ∀ h ∈ target.headers, toAsciiLowercase h.1 = "user-agent" → h.2 = cfg.userAgent

omit [HmacCrate] [SerdeCrate] in
theorem userAgent_iff (cfg : HttpClientConfig) (hok : HeadersOk target.headers) :
    (if (headerValues target.headers "User-Agent").isEmpty then [cfg.userAgent]
      else headerValues target.headers "User-Agent") = [cfg.userAgent] ↔
      KeepsUserAgent cfg target := by
  have hvalue : ∀ h ∈ target.headers, toAsciiLowercase h.1 = "user-agent" →
      headerValues target.headers "User-Agent" = [h.2] := by
    intro h hm heq
    have hv := headerValues_of_mem hok.names_nodup (show (h.1, h.2) ∈ target.headers from hm)
    rw [headerValues] at hv ⊢
    rw [toAsciiLowercase_userAgent, ← heq]
    exact hv
  constructor
  · intro h x hx heq
    rw [hvalue x hx heq] at h
    exact List.singleton_injective h
  · intro h
    by_cases hex : ∃ x ∈ target.headers, toAsciiLowercase x.1 = "user-agent"
    · obtain ⟨x, hx, heq⟩ := hex
      rw [hvalue x hx heq, h x hx heq]
      rfl
    · have hnil : headerValues target.headers "User-Agent" = [] := by
        refine headerValues_eq_nil fun n hn heq => ?_
        obtain ⟨x, hx, rfl⟩ := List.mem_map.mp hn
        exact hex ⟨x, hx, heq.trans toAsciiLowercase_userAgent⟩
      rw [hnil]
      rfl

/-- **The dispatcher's headers cannot be overridden**, by a callback that one of the parsers
returns, iff the callback brings no `User-Agent` other than the client's. -/
theorem controlled_iff [Crates] (cfg : HttpClientConfig) (config : DispatchConfig) (json : Json)
    (ht : Returned config json target) (h : buildRequest ring now target event = .ok req) :
    Controlled cfg ring now target event req ↔ KeepsUserAgent cfg target := by
  obtain ⟨v, hv⟩ := accept_of_returned ht
  have hok := headersOk_of_accept hv
  obtain ⟨signature, hsig, hreq⟩ := headers_of_buildRequest h
  have hown : ∀ x ∈ eventHeaders event ++ signature,
      headerValues (sentHeaders cfg req) x.1 = [x.2] :=
    fun x hx => headerValues_of_own cfg hsig hok hreq hx
  have hua : headerValues (sentHeaders cfg req) "User-Agent" = [cfg.userAgent] ↔
      KeepsUserAgent cfg target := by
    rw [headerValues_sent_userAgent, headerValues_userAgent hsig hreq, userAgent_iff cfg hok]
  refine ⟨fun hc => hua.mp hc.userAgent, fun hk => ⟨fun x hx => hown x (List.mem_append_left _ hx),
    hua.mpr hk, fun hnone => ?_, fun keyId hkey => ?_, fun name hname => ?_⟩⟩
  · -- without a key there are the headers of the event only
    rw [hnone] at hsig
    cases hsig
    have hnone : ∀ name ∈ signatureNames, headerValues (sentHeaders cfg req) name = [] := by
      intro name hname
      obtain ⟨hr, hne⟩ := reserved_of_name (List.mem_append_right eventNames hname)
      refine headerValues_of_not_own cfg hok hreq hr hne fun n hn => ?_
      exact (List.nodup_append.mp lower_nodup).2.2 _ (List.mem_map_of_mem hn) _
        (List.mem_map_of_mem hname)
    exact ⟨hnone _ (by simp [signatureNames]), hnone _ (by simp [signatureNames])⟩
  · rw [Option.mem_def.mp hkey] at hsig
    cases hsig with
    | signed _ secret hs =>
      exact ⟨secret, hs, hown ("X-Outbox-Signing-Key-Id", keyId) (by simp),
        hown ("X-Outbox-Signature", sign secret (unixSecs now) req.body) (by simp)⟩
  · obtain ⟨hr, hne, hnot⟩ := reserved_of_harmful hname
    refine headerValues_of_not_own cfg hok hreq hr hne fun n hn heq => hnot ?_
    exact heq ▸ lower_own ▸ List.mem_map_of_mem (mem_names hsig hn)

end

/-! ### A callback with a `User-Agent` -/

def sampleWithHeader (name value : String) : Json :=
  .arr [.obj [("headers", .obj [(name, .str value)]), ("name", .str "hook_a"),
    ("signing_key_id", .str "k1"), ("url", .str "https://example.com/hook")]]

/-- The request of the sample event for the callback, if it is accepted. -/
def sampleRequest (name value : String) : Option (CallbackTarget × Request) :=
  letI := sampleCrates
  letI := sampleHmac
  letI := sampleSerde
  (parseCallbacks (sampleWithHeader name value) {}).valid.head?.bind fun target =>
    (buildRequest (.withKey "k1" sampleSecret) 0 target sampleEvent).toOption.map (target, ·)

theorem of_sampleRequest {name value : String} {target : CallbackTarget} {req : Request}
    (h : sampleRequest name value = some (target, req)) :
    @Returned sampleCrates {} (sampleWithHeader name value) target ∧
      @buildRequest sampleHmac sampleSerde (.withKey "k1" sampleSecret) 0 target sampleEvent =
      .ok req := by
  simp only [sampleRequest, Option.bind_eq_some_iff, Option.map_eq_some_iff] at h
  obtain ⟨target', ht, req', hreq, heq⟩ := h
  cases heq
  refine ⟨.inl (List.mem_of_mem_head? ht), ?_⟩
  cases hb : @buildRequest sampleHmac sampleSerde (.withKey "k1" sampleSecret) 0 target sampleEvent
    with
  | error e => rw [hb] at hreq; cases hreq
  | ok r => rw [hb] at hreq; exact congrArg _ (Option.some.inj hreq)

theorem controlled_tenant :
    ∃ target req, @Returned sampleCrates {} (sampleWithHeader "X-Tenant" "acme") target ∧
      @Controlled sampleHmac {} (.withKey "k1" sampleSecret) 0 target sampleEvent req := by
  have hx : (sampleRequest "X-Tenant" "acme").any
      (·.1.headers.all (toAsciiLowercase ·.1 ≠ "user-agent")) := by decide +kernel
  obtain ⟨⟨target, req⟩, hs, hkeep⟩ := (Option.any_eq_true _ _).mp hx
  obtain ⟨ht, hreq⟩ := of_sampleRequest hs
  refine ⟨target, req, ht,
    (@controlled_iff sampleHmac sampleSerde _ _ _ _ _ sampleCrates {} {} _ ht hreq).mpr ?_⟩
  exact fun h hm heq => absurd heq (of_decide_eq_true (List.all_eq_true.mp hkeep h hm))

/-- The receiver sees the `User-Agent` of the callback in place of the dispatcher's. -/
theorem userAgent_overridden :
    ∃ target req, @Returned sampleCrates {} (sampleWithHeader "User-Agent" "curl/8") target ∧
      @buildRequest sampleHmac sampleSerde (.withKey "k1" sampleSecret) 0 target sampleEvent =
        .ok req ∧
      headerValues (sentHeaders {} req) "User-Agent" = ["curl/8"] ∧
      ¬@Controlled sampleHmac {} (.withKey "k1" sampleSecret) 0 target sampleEvent req := by
  have hx : (sampleRequest "User-Agent" "curl/8").any
      (fun r => headerValues (sentHeaders {} r.2) "User-Agent" = ["curl/8"]) := by decide +kernel
  obtain ⟨⟨target, req⟩, hs, hua⟩ := (Option.any_eq_true _ _).mp hx
  obtain ⟨ht, hreq⟩ := of_sampleRequest hs
  have hua : headerValues (sentHeaders {} req) "User-Agent" = ["curl/8"] := of_decide_eq_true hua
  refine ⟨target, req, ht, hreq, hua, fun hc => ?_⟩
  have hown := @Controlled.userAgent sampleHmac _ _ _ _ _ _ hc
  rw [hua] at hown
  exact absurd hown (by decide)

/-! ### Legal values -/

/-- A value that HTTP allows: no control characters but the tab. -/
def LegalValue (value : String) : Prop := ∀ b ∈ bytes value, (0x20 ≤ b ∨ b = 9) ∧ b ≠ 0x7f

instance (value : String) : Decidable (LegalValue value) := List.decidableBAll _ _

/-- Visible ASCII characters and spaces. -/
def Printable (s : String) : Prop := ∀ c ∈ s.toList, 0x20 ≤ c.toNat ∧ c.toNat < 0x7f

instance (s : String) : Decidable (Printable s) := List.decidableBAll _ _

theorem Printable.append {s t : String} (hs : Printable s) (ht : Printable t) :
    Printable (s ++ t) := by
  intro c hc
  rw [String.toList_append, List.mem_append] at hc
  exact hc.elim (hs c) (ht c)

theorem Printable.legal {s : String} (h : Printable s) : LegalValue s := by
  intro b hb
  obtain ⟨c, hc, rfl⟩ := mem_bytes_of_ascii (fun c hc => by have := h c hc; omega) hb
  obtain ⟨hlo, hhi⟩ := h c hc
  have hnat : c.toUInt8.toNat = c.toNat := by
    show c.toNat % 256 = c.toNat
    omega
  refine ⟨.inl ?_, fun heq => ?_⟩
  · rw [UInt8.le_iff_toNat_le, hnat]
    exact hlo
  · rw [heq] at hnat
    have : (0x7f : UInt8).toNat = 127 := rfl
    omega

theorem printable_of_plain {s : String} (h : Plain s) : Printable s := by
  intro c hc
  have := h c hc
  omega

theorem printable_int (n : ℤ) : Printable (toString n) := by
  cases n with
  | ofNat n => exact printable_of_plain (plain_toString n)
  | negSucc n =>
    show Printable ("-" ++ toString (n + 1))
    exact .append (by decide) (printable_of_plain (plain_toString _))

theorem printable_encode (data : List UInt8) : Printable (Hex.encode data) :=
  printable_of_plain fun _ hc => Hex.toNat_of_mem_encode hc

theorem printable_uuidText (u : Uuid) : Printable (uuidText u) := by
  have hdash : Printable "-" := by decide
  have hg (i n : ℕ) : Printable (Hex.encode (((uuidBytes u).drop i).take n)) := printable_encode _
  exact ((((((((hg 0 4).append hdash).append (hg 4 2)).append hdash).append (hg 6 2)).append
    hdash).append (hg 8 2)).append hdash).append (hg 10 6)

theorem printable_sign [HmacCrate] (secret : List UInt8) (t : UInt64) (body : List UInt8) :
    Printable (sign secret t body) := by
  have ht : Printable "t=" := by decide
  have hv : Printable ",v1=" := by decide
  exact ((ht.append (printable_of_plain (plain_toString t.toNat))).append hv).append
    (printable_encode _)

theorem printable_name {name : String} (h : MatchesName name) : Printable name := by
  obtain ⟨first, chars, hname, hfirst, hchars, -, -⟩ := h
  have hlower : ∀ c, Lower c → 0x20 ≤ c.toNat ∧ c.toNat < 0x7f := by
    intro c hc
    have hlo : 97 ≤ c.toNat := hc.1
    have hhi : c.toNat ≤ 122 := hc.2
    omega
  intro c hc
  rw [hname] at hc
  rcases List.mem_cons.mp hc with rfl | hc
  · exact hlower c hfirst
  · rcases hchars c hc with hc | hc | rfl
    · exact hlower c hc
    · have hlo : 48 ≤ c.toNat := hc.1
      have hhi : c.toNat ≤ 57 := hc.2
      omega
    · decide

/-- What the parsers and the configuration check is legal. -/
theorem legal_of_bytes {value : String} (h : ∀ b ∈ bytes value, isIllegalValueByte b = false) :
    LegalValue value := by
  intro b hb
  have hok := h b hb
  simp only [isIllegalValueByte, Bool.or_eq_false_iff, Bool.and_eq_false_iff,
    decide_eq_false_iff_not, bne_eq_false_iff_eq, UInt8.not_lt] at hok
  refine ⟨hok.1, ?_⟩
  rintro rfl
  exact hok.2 (by decide)

theorem legal_userAgent {c : AppConfig} (hc : c.validate = .ok ()) :
    LegalValue c.httpClient.userAgent := by
  have hchecks : ∀ check ∈ httpClientChecks c.httpClient, check.1 = false :=
    fun check hm => AppConfig.validate_eq_ok.mp hc check (by simp [AppConfig.checks, hm])
  simp only [httpClientChecks, List.forall_mem_cons] at hchecks
  obtain ⟨-, hblank, hbytes, -⟩ := hchecks
  rw [hblank] at hbytes
  refine legal_of_bytes fun b hb => ?_
  simpa using List.any_eq_false.mp (by simpa using hbytes) b hb

/-- A header that can be sent. -/
def LegalHeader (h : String × String) : Prop := isValidHeaderName h.1 ∧ LegalValue h.2

theorem mem_sentHeaders {cfg : HttpClientConfig} {req : Request} {h : String × String}
    (hm : h ∈ req.headers) : h ∈ sentHeaders cfg req := by
  unfold sentHeaders
  split_ifs
  · exact List.mem_append_left _ hm
  · exact hm

theorem forall_sentHeaders {cfg : HttpClientConfig} {req : Request}
    (hua : LegalValue cfg.userAgent) :
    (∀ h ∈ sentHeaders cfg req, LegalHeader h) ↔ ∀ h ∈ req.headers, LegalHeader h := by
  have hname : isValidHeaderName "User-Agent" := by decide
  have hclient : LegalHeader ("User-Agent", cfg.userAgent) := ⟨hname, hua⟩
  unfold sentHeaders
  split_ifs
  · simp only [List.forall_mem_append, List.forall_mem_singleton, hclient, and_true]
  · rfl

theorem isValidHeaderName_own : ∀ n ∈ eventNames ++ signatureNames, isValidHeaderName n := by
  decide +kernel

theorem forall_eventHeaders {event : EventForDelivery} (hname : MatchesName event.callbackName) :
    (∀ h ∈ eventHeaders event, LegalHeader h) ↔ LegalValue event.kind := by
  have hmode : LegalValue event.mode.asStr := by cases event.mode <;> decide
  constructor
  · exact fun h => (h ("X-Outbox-Kind", event.kind) (by simp [eventHeaders])).2
  · intro hkind h hm
    refine ⟨isValidHeaderName_own h.1 (List.mem_append_left _ (List.mem_map_of_mem (f :=
      Prod.fst) hm)), ?_⟩
    simp only [eventHeaders, List.mem_cons, List.not_mem_nil, or_false] at hm
    rcases hm with rfl | rfl | rfl | rfl | rfl | rfl | rfl
    · decide
    · exact (printable_uuidText _).legal
    · exact (printable_int _).legal
    · exact (printable_name hname).legal
    · exact hkind
    · exact hmode
    · exact (printable_int _).legal

theorem forall_signature [HmacCrate] {ring : KeyRing} {ts : UInt64} {body : List UInt8}
    {keyId : Option String} {signature : List (String × String)}
    (h : Signature ring ts body keyId signature) :
    (∀ h ∈ signature, LegalHeader h) ↔ ∀ k ∈ keyId, LegalValue k := by
  have hnames : ∀ n ∈ signatureNames, isValidHeaderName n :=
    fun n hn => isValidHeaderName_own n (List.mem_append_right _ hn)
  cases h with
  | unsigned => simp
  | signed k secret =>
    have hsign := (printable_sign secret ts body).legal
    have hkey : isValidHeaderName "X-Outbox-Signing-Key-Id" := hnames _ (by decide)
    have hsig : isValidHeaderName "X-Outbox-Signature" := hnames _ (by decide)
    simp [LegalHeader, hsign, hkey, hsig]

section

variable [Crates] [HmacCrate] [SerdeCrate]

omit [Crates] in
theorem exists_request {ring : KeyRing} (now : Time) {target : CallbackTarget}
    (event : EventForDelivery)
    {body : List UInt8} (hkey : ∀ k ∈ target.signingKeyId, (ring.get k).isSome)
    (hbody : SerdeCrate.toVec (buildBody event) = .ok body) :
    ∃ req, buildRequest ring now target event = .ok req := by
  have hsig : ∃ signature, signatureHeaders ring (unixSecs now) body target.signingKeyId =
      .ok signature := by
    cases hk : target.signingKeyId with
    | none => exact ⟨[], rfl⟩
    | some k =>
      obtain ⟨secret, hs⟩ := Option.isSome_iff_exists.mp (hkey k hk)
      exact ⟨_, by rw [signatureHeaders, hs]⟩
  obtain ⟨signature, hs⟩ := hsig
  refine ⟨⟨target.url, target.timeout, eventHeaders event ++ signature ++ target.headers, body⟩, ?_⟩
  simp only [buildRequest, hbody, Except.mapError, bind_eq_ok]
  exact ⟨body, rfl, signature, hs, rfl⟩

/-- **Every header that is sent is legal**, for a row with a callback accepted under a validated
configuration and a key that is registered, iff the kind of the event and the id of the key are.
Nobody has checked these two. -/
theorem legal_iff (c : AppConfig) (hc : c.validate = .ok ()) (ring : KeyRing) (now : Time)
    (json : Json) (due : DueDelivery) (ht : Returned c.dispatch.toConfig json due.target)
    (hkey : ∀ k ∈ due.target.signingKeyId, (ring.get k).isSome) (body : List UInt8)
    (hbody : SerdeCrate.toVec (buildBody (buildEventForDelivery due)) = .ok body) :
    ∃ req, buildRequest ring now due.target (buildEventForDelivery due) = .ok req ∧
      ((∀ h ∈ sentHeaders c.httpClient req, LegalHeader h) ↔
        LegalValue due.kind ∧ ∀ k ∈ due.target.signingKeyId, LegalValue k) := by
  obtain ⟨v, hv⟩ := accept_of_returned ht
  have hok := headersOk_of_accept hv
  have hname : MatchesName due.target.name := (withinLimits_of_accept hc hv).name
  obtain ⟨req, hreq⟩ := exists_request now _ hkey hbody
  obtain ⟨signature, hsig, hheaders⟩ := headers_of_buildRequest hreq
  have htarget : ∀ h ∈ due.target.headers, LegalHeader h :=
    fun h hm => ⟨(hok.ok h hm).name, legal_of_bytes (hok.ok h hm).value⟩
  refine ⟨req, hreq, ?_⟩
  rw [forall_sentHeaders (legal_userAgent hc), hheaders, List.forall_mem_append,
    List.forall_mem_append, forall_eventHeaders hname, forall_signature hsig, and_iff_left htarget]
  rfl

end

/-! ### A kind of two lines -/

def sampleDue (target : CallbackTarget) (kind : String) : DueDelivery where
  deliveryId := 1
  eventId := 1
  attempts := 0
  target := target
  kind := kind
  aggregateType := "user"
  aggregateId := 2
  payload := .obj []
  metadata := .obj []
  actorId := none
  correlationId := none
  causationId := none
  createdAt := 0

theorem exists_sampleTarget :
    ∃ target,
    @Returned sampleCrates sampleApp.dispatch.toConfig (sampleWithHeader "X-Tenant" "acme") target ∧
      target.signingKeyId = some "k1" := by
  have hx : (@parseCallbacks sampleCrates (sampleWithHeader "X-Tenant" "acme")
      sampleApp.dispatch.toConfig).valid.any (·.signingKeyId = some "k1") := by decide +kernel
  obtain ⟨target, ht, hk⟩ := List.any_eq_true.mp hx
  exact ⟨target, .inl ht, of_decide_eq_true hk⟩

theorem legal_registered :
    sampleApp.validate = .ok () ∧
    ∃ target req,
    @Returned sampleCrates sampleApp.dispatch.toConfig (sampleWithHeader "X-Tenant" "acme") target ∧
      @buildRequest sampleHmac sampleSerde (.withKey "k1" sampleSecret) 0 target
        (buildEventForDelivery (sampleDue target "user.registered@v1")) = .ok req ∧
      ∀ h ∈ sentHeaders sampleApp.httpClient req, LegalHeader h := by
  let := sampleCrates
  let := sampleHmac
  let := sampleSerde
  have hok := validate_sampleApp
  obtain ⟨target, ht, hk⟩ := exists_sampleTarget
  have hkind : LegalValue "user.registered@v1" := by decide
  have hkey : ∀ k ∈ target.signingKeyId,
      ((KeyRing.withKey "k1" sampleSecret).get k).isSome ∧ LegalValue k := by
    rintro k (hk' : target.signingKeyId = some k)
    cases hk.symm.trans hk'
    decide
  obtain ⟨req, hreq, hiff⟩ := legal_iff sampleApp hok (.withKey "k1" sampleSecret) 0 _
    (sampleDue target "user.registered@v1") ht (fun k hm => (hkey k hm).1) sampleBody rfl
  exact ⟨hok, target, req, ht, hreq, hiff.mpr ⟨hkind, fun k hm => (hkey k hm).2⟩⟩

/-- The row has a line break in the value of a header, so the request cannot be sent. -/
theorem kind_of_two_lines :
    sampleApp.validate = .ok () ∧
    ∃ target req,
    @Returned sampleCrates sampleApp.dispatch.toConfig (sampleWithHeader "X-Tenant" "acme") target ∧
      @buildRequest sampleHmac sampleSerde (.withKey "k1" sampleSecret) 0 target
        (buildEventForDelivery (sampleDue target "user\nregistered")) = .ok req ∧
      ("X-Outbox-Kind", "user\nregistered") ∈ sentHeaders sampleApp.httpClient req ∧
      ¬LegalHeader ("X-Outbox-Kind", "user\nregistered") := by
  let := sampleCrates
  let := sampleHmac
  let := sampleSerde
  have hok := validate_sampleApp
  obtain ⟨target, ht, hk⟩ := exists_sampleTarget
  have hkey : ∀ k ∈ target.signingKeyId, ((KeyRing.withKey "k1" sampleSecret).get k).isSome := by
    rintro k (hk' : target.signingKeyId = some k)
    cases hk.symm.trans hk'
    decide
  obtain ⟨req, hreq⟩ :=
    exists_request 0 (buildEventForDelivery (sampleDue target "user\nregistered")) hkey rfl
  obtain ⟨signature, -, hheaders⟩ := headers_of_buildRequest hreq
  refine ⟨hok, target, req, ht, hreq, mem_sentHeaders ?_, fun h => absurd h.2 (by decide)⟩
  rw [hheaders]
  refine List.mem_append_left _ (List.mem_append_left _ ?_)
  simp [eventHeaders, buildEventForDelivery, sampleDue]

end OutboxDispatcher.Http.Headers
