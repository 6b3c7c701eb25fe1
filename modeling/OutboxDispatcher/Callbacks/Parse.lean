import OutboxDispatcher.Callbacks.Fields

/-! # Parsing the callbacks of an event

The `callbacks` column is read twice. At schedule time `parseCallbacks` splits the array into
accepted targets and rejections; at dispatch time `validateNamedCallback` looks for one name and
validates the element it finds. Both rest on `parseOneCallback`, of which the rest of the
development needs three facts: an accepted element carries the name of its target, what is accepted
does not depend on the position, and a rejection is filed under the element's key (`elementKey`).

* `mem_valid`: a target is accepted from the array iff it is the first accepted one of its name.
* `parseElements_eq`: the loop over the array gives one verdict for each element and sorts them.
* `keys_verdicts`: the keys of the verdicts are the keys of the elements. -/

namespace OutboxDispatcher.Callbacks.Parse

open OutboxDispatcher.Lib.Checks OutboxDispatcher.Lib.JsonValue
open OutboxDispatcher.Schema OutboxDispatcher.Callbacks.Fields

/-- A rejected element: the name or the position, the reason code, the message. -/
abbrev Rejection := String × InvalidReason × String

structure ParsedCallbacks where
  valid : List CallbackTarget
  invalid : List Rejection

/-- Why `validateNamedCallback` returns no target. -/
inductive NamedCallbackError
  | invalid (reason : String)
  | notFound
  deriving DecidableEq, Repr

section Parser

variable [Crates]

/-! ### One element -/

/-- The name of an element: the first checks of `parse_one_callback`. -/
def parseName (obj : List (String × Json)) (index : ℕ) : Except Rejection String := do
  let v ← okOr (obj.lookup "name")
    (s!"[{index}]", .missingName, "invalid_callback: missing required field 'name'")
  let name ← okOr v.asStr
    (s!"[{index}]", .nameNotString, "invalid_callback: 'name' must be a string")
  rejectIf (!isValidCallbackName name)
    (name, .nameInvalid, "invalid_callback: name must match ^[a-z][a-z0-9_]\x7b2,63\x7d$")
  return name

/-- The other fields: the closure `body` of `parse_one_callback`. -/
def parseBody (obj : List (String × Json)) (name : String) (config : DispatchConfig) :
    Checked CallbackTarget := do
  let urlValue ← okOr (obj.lookup "url")
    (.missingUrl, "invalid_callback: missing required field 'url'")
  let url ← okOr urlValue.asStr (.urlNotString, "invalid_callback: 'url' must be a string")
  validateUrl url config.allowInsecureUrls config.allowPrivateIpTargets
  let mode ← parseMode ((obj.lookup "mode").bind Json.asStr)
  let signingKeyId := (obj.lookup "signing_key_id").bind Json.asStr
  rejectIf (!config.allowUnsignedCallbacks && signingKeyId.isNone)
    (.missingSigningKeyId, "invalid_callback: missing required field 'signing_key_id' " ++
      "(set allow_unsigned_callbacks=true to omit)")
  let headers ← parseHeaders (obj.lookup "headers")
  let maxAttempts ← parseMaxAttempts (obj.lookup "max_attempts") config.maxAttempts
  let backoff ← parseBackoff (obj.lookup "backoff_seconds") config.backoff
  let timeout ← parseTimeout (obj.lookup "timeout_seconds") config.handlerTimeout
  let externalCompletionTimeout ←
    parseExternalTimeout (obj.lookup "external_completion_timeout_seconds")
  let maxCompletionCycles ←
    parseMaxCompletionCycles (obj.lookup "max_completion_cycles") config.maxCompletionCycles
  rejectIf (mode = .external ∧ externalCompletionTimeout.isNone)
    (.externalMissingTimeout, "invalid_callback: mode='external' requires " ++
      "'external_completion_timeout_seconds'")
  return { name, url, mode, signingKeyId, headers, maxAttempts, backoff, timeout,
           externalCompletionTimeout, maxCompletionCycles }

def parseOneCallback (element : Json) (index : ℕ) (config : DispatchConfig) :
    Except Rejection CallbackTarget := do
  let obj ← okOr element.asObject
    (s!"[{index}]", .notAnObject, "invalid_callback: element is not an object")
  let name ← parseName obj index
  (parseBody obj name config).mapError fun (code, reason) => (name, code, reason)

/-! ### The array -/

def notArrayMessage : String := "invalid_callback: top-level callbacks value is not a JSON array"

def tooManyMessage (array : List Json) (config : DispatchConfig) : String :=
  s!"invalid_callback: too many callbacks in event ({array.length}); max is " ++
    s!"{config.maxCallbacksPerEvent}"

/-- The loop of `parse_callbacks` over the elements and their positions. -/
def parseElements (config : DispatchConfig) : List String → List (Json × ℕ) → ParsedCallbacks
  | _, [] => ⟨[], []⟩
  | seenNames, (element, i) :: rest =>
    match parseOneCallback element i config with
    | .ok target =>
      if target.name ∈ seenNames then
        let p := parseElements config seenNames rest
        ⟨p.valid, (target.name, .duplicateName,
          "invalid_callback: duplicate callback name within event") :: p.invalid⟩
      else
        let p := parseElements config (target.name :: seenNames) rest
        ⟨target :: p.valid, p.invalid⟩
    | .error e =>
      let p := parseElements config seenNames rest
      ⟨p.valid, e :: p.invalid⟩

/-- The schedule-time parser. -/
def parseCallbacks (callbacksJson : Json) (config : DispatchConfig) : ParsedCallbacks :=
  match callbacksJson.asArray with
  | none => ⟨[], [("<root>", .notArray, notArrayMessage)]⟩
  | some array =>
    if array.length > config.maxCallbacksPerEvent then
      ⟨[], [("<root>", .tooManyCallbacks, tooManyMessage array config)]⟩
    else parseElements config [] array.zipIdx

/-- The dispatch-time parser. -/
def validateNamedCallback (callbacksJson : Json) (callbackName : String) (config : DispatchConfig) :
    Except NamedCallbackError CallbackTarget := do
  let array ← okOr callbacksJson.asArray (.invalid notArrayMessage)
  rejectIf (array.length > config.maxCallbacksPerEvent) (.invalid (tooManyMessage array config))
  let (element, idx) ← okOr
    (array.zipIdx.find? fun (v, _) => v.strField "name" = some callbackName) .notFound
  (parseOneCallback element idx config).mapError fun (_, _, reason) => .invalid reason

end Parser

def payloadTooLargeError (actualBytes limitBytes : ℤ) : String :=
  s!"source_payload_too_large: {actualBytes} bytes > {limitBytes} bytes " ++
    "(rejected by dispatcher before send)"

/-- The key a delivery row of the element has: its name, or its position. -/
def elementKey (v : Json) (i : ℕ) : String := (v.strField "name").getD s!"[{i}]"

/-- `extract_callback_names` of the scheduler. -/
def extractCallbackNames (callbacks : Json) : List String :=
  (callbacks.asArray.getD []).zipIdx.map fun (v, i) => elementKey v i

/-! ### What one element gives -/

section Element

variable {obj : List (String × Json)} {v : Json} {i : ℕ}

theorem parseName_eq_ok {name : String} : parseName obj i = .ok name ↔
    (obj.lookup "name").bind Json.asStr = some name ∧ isValidCallbackName name := by
  simp only [parseName, bind_eq_ok, okOr_eq_ok, rejectIf_eq_ok, pure_eq_ok, Option.bind_eq_some_iff]
  constructor
  · rintro ⟨v, hv, name, hn, -, hr, rfl⟩
    exact ⟨⟨v, hv, hn⟩, by simpa using hr⟩
  · rintro ⟨⟨v, hv, hn⟩, hr⟩
    exact ⟨v, hv, name, hn, (), by simpa using hr, rfl⟩

theorem parseName_eq_error {r : Rejection} (h : parseName obj i = .error r) :
    r.1 = ((obj.lookup "name").bind Json.asStr).getD s!"[{i}]" := by
  simp only [parseName, bind_eq_error, okOr_eq_error, okOr_eq_ok, rejectIf_eq_error] at h
  rcases h with ⟨h, rfl⟩ | ⟨v, hv, ⟨h, rfl⟩ | ⟨name, hn, ⟨-, rfl⟩ | ⟨_, -, h⟩⟩⟩
  · simp [h]
  · simp [hv, h]
  · simp [hv, hn]
  · exact absurd h pure_ne_error

theorem strField_of_asObject (h : v.asObject = some obj) (k : String) :
    v.strField k = (obj.lookup k).bind Json.asStr := by
  rw [Json.asObject_eq_some h]; rfl

variable [Crates] {config : DispatchConfig} {t : CallbackTarget}

structure BodySpec (obj : List (String × Json)) (name : String) (config : DispatchConfig)
    (t : CallbackTarget) : Prop where
  name : t.name = name
  url : validateUrl t.url config.allowInsecureUrls config.allowPrivateIpTargets = .ok ()
  mode : parseMode ((obj.lookup "mode").bind Json.asStr) = .ok t.mode
  signingKeyId : config.allowUnsignedCallbacks = false → t.signingKeyId.isSome
  headers : parseHeaders (obj.lookup "headers") = .ok t.headers
  maxAttempts : parseMaxAttempts (obj.lookup "max_attempts") config.maxAttempts = .ok t.maxAttempts
  backoff : parseBackoff (obj.lookup "backoff_seconds") config.backoff = .ok t.backoff
  timeout : parseTimeout (obj.lookup "timeout_seconds") config.handlerTimeout = .ok t.timeout
  externalCompletionTimeout :
    parseExternalTimeout (obj.lookup "external_completion_timeout_seconds") =
      .ok t.externalCompletionTimeout
  maxCompletionCycles :
    parseMaxCompletionCycles (obj.lookup "max_completion_cycles") config.maxCompletionCycles =
      .ok t.maxCompletionCycles
  external : t.mode = .external → t.externalCompletionTimeout.isSome

theorem parseBody_spec {name : String} (h : parseBody obj name config = .ok t) :
    BodySpec obj name config t := by
  simp only [parseBody, bind_eq_ok, rejectIf_eq_ok, pure_eq_ok] at h
  obtain ⟨-, -, url, -, _, hurl, mode, hmode, -, hkey, headers, hh, m, hm, backoff, hb, timeout,
    ht, ext, hext, cycles, hcycles, -, hreq, rfl⟩ := h
  refine ⟨rfl, hurl, hmode, fun hsigned => ?_, hh, hm, hb, ht, hext, hcycles, fun hx => ?_⟩
  · by_contra hnone
    exact hkey (by simpa [hsigned] using hnone)
  · by_contra hnone
    exact hreq ⟨hx, by simpa using hnone⟩

/-- **Acceptance.** The element is an object with a legal name, and its body is accepted. -/
theorem parseOneCallback_eq_ok : parseOneCallback v i config = .ok t ↔
    v.strField "name" = some t.name ∧ isValidCallbackName t.name ∧
      ∃ obj, v.asObject = some obj ∧ parseBody obj t.name config = .ok t := by
  simp only [parseOneCallback, bind_eq_ok, okOr_eq_ok, parseName_eq_ok, mapError_eq_ok]
  constructor
  · rintro ⟨obj, ho, name, ⟨hn, hv⟩, hb⟩
    obtain rfl := (parseBody_spec hb).name
    exact ⟨strField_of_asObject ho _ ▸ hn, hv, obj, ho, hb⟩
  · rintro ⟨hn, hv, obj, ho, hb⟩
    exact ⟨obj, ho, t.name, ⟨strField_of_asObject ho _ ▸ hn, hv⟩, hb⟩

/-- **Rejection.** It is filed under the element's key. -/
theorem parseOneCallback_error_key {r : Rejection} (h : parseOneCallback v i config = .error r) :
    r.1 = elementKey v i := by
  simp only [parseOneCallback, bind_eq_error, okOr_eq_error, okOr_eq_ok, parseName_eq_ok,
    mapError_eq_error] at h
  rcases h with ⟨h, rfl⟩ | ⟨obj, ho, h | ⟨name, ⟨hn, -⟩, e, -, rfl⟩⟩
  · simp [elementKey, Json.strField, Json.get_eq_none_of_asObject h]
  · rw [parseName_eq_error h, elementKey, strField_of_asObject ho]
  · simp [elementKey, strField_of_asObject ho, hn]

/-- The target of an accepted element; the position does not matter. -/
def accept (config : DispatchConfig) (v : Json) : Option CallbackTarget :=
  (parseOneCallback v 0 config).toOption

theorem accept_eq_some (i : ℕ) : accept config v = some t ↔
    parseOneCallback v i config = .ok t := by
  rw [parseOneCallback_eq_ok, ← parseOneCallback_eq_ok (i := 0), accept]
  cases parseOneCallback v 0 config <;> simp [Except.toOption]

theorem accept_eq_none {r : Rejection} (h : parseOneCallback v i config = .error r) :
    accept config v = none := by
  rcases ha : accept config v with _ | t
  · rfl
  · rw [accept_eq_some i, h] at ha; cases ha

theorem strField_of_accept (h : accept config v = some t) : v.strField "name" = some t.name :=
  (parseOneCallback_eq_ok.mp ((accept_eq_some 0).mp h)).1

theorem elementKey_of_accept (h : accept config v = some t) (i : ℕ) : elementKey v i = t.name := by
  simp [elementKey, strField_of_accept h]

end Element

/-! ### What the array gives -/

section Array

variable [Crates] {config : DispatchConfig} {t : CallbackTarget}

/-- The targets are the accepted ones, of each name the first. -/
theorem mem_valid_parseElements : ∀ (array : List Json) (k : ℕ) (seen : List String),
    t ∈ (parseElements config seen (array.zipIdx k)).valid ↔
      t.name ∉ seen ∧ (array.filterMap (accept config)).find? (·.name = t.name) = some t
  | [], _, _ => by simp [parseElements]
  | v :: array, k, seen => by
    rw [List.zipIdx_cons, parseElements]
    rcases h : parseOneCallback v k config with r | t'
    · rw [List.filterMap_cons_none (accept_eq_none h)]
      exact mem_valid_parseElements array (k + 1) seen
    · rw [List.filterMap_cons_some ((accept_eq_some k).mpr h), List.find?_cons]
      have ih := mem_valid_parseElements array (k + 1)
      by_cases hs : t'.name ∈ seen
      · simp only [hs, if_true, ih]
        by_cases hn : t'.name = t.name
        · simp [← hn, hs]
        · simp [hn]
      · simp only [hs, if_false, List.mem_cons, ih]
        by_cases hn : t'.name = t.name
        · simp only [hn, decide_true, Option.some.injEq]
          constructor
          · rintro (rfl | h)
            · exact ⟨hs, rfl⟩
            · simp at h
          · rintro ⟨-, rfl⟩; exact .inl rfl
        · have : t ≠ t' := fun e => hn (e ▸ rfl)
          simp [hn, this, Ne.symm hn]

/-! ### One verdict for each element -/

/-- What becomes of an element: it gives a target, or a rejection. -/
abbrev Verdict := CallbackTarget ⊕ Rejection

/-- The name or the position that the verdict is filed under. -/
def verdictKey : Verdict → String := Sum.elim (·.name) (·.1)

/-- The verdict on an element, by the names of the targets before it. -/
def verdict (config : DispatchConfig) (seenNames : List String) (v : Json) (i : ℕ) : Verdict :=
  match parseOneCallback v i config with
  | .ok target =>
    if target.name ∈ seenNames then
      .inr (target.name, .duplicateName, "invalid_callback: duplicate callback name within event")
    else .inl target
  | .error e => .inr e

def seenAfter (seenNames : List String) : Verdict → List String
  | .inl t => t.name :: seenNames
  | .inr _ => seenNames

def verdicts (config : DispatchConfig) : List String → List (Json × ℕ) → List Verdict
  | _, [] => []
  | seenNames, (v, i) :: rest =>
    let x := verdict config seenNames v i
    x :: verdicts config (seenAfter seenNames x) rest

/-- **The loop sorts its verdicts.** -/
theorem parseElements_eq (config : DispatchConfig) (seen : List String) (l : List (Json × ℕ)) :
    parseElements config seen l =
      ⟨(verdicts config seen l).filterMap Sum.getLeft?,
      (verdicts config seen l).filterMap Sum.getRight?⟩ := by
  induction l generalizing seen with
  | nil => rfl
  | cons p l ih =>
    obtain ⟨v, i⟩ := p
    rw [parseElements, verdicts]
    unfold verdict
    cases parseOneCallback v i config with
    | error r => simp [ih, seenAfter, List.filterMap_cons]
    | ok t =>
      by_cases hs : t.name ∈ seen
      · simp [ih, seenAfter, hs, List.filterMap_cons]
      · simp [ih, seenAfter, hs, List.filterMap_cons]

theorem mem_invalid_iff {l : List (Json × ℕ)} {seen : List String} {r : Rejection} :
    r ∈ (parseElements config seen l).invalid ↔ .inr r ∈ verdicts config seen l := by
  simp [parseElements_eq, Sum.getRight?_eq_some_iff]

theorem verdictKey_verdict (config : DispatchConfig) (seen : List String) (v : Json) (i : ℕ) :
    verdictKey (verdict config seen v i) = elementKey v i := by
  unfold verdict
  cases hp : parseOneCallback v i config with
  | error r => exact parseOneCallback_error_key hp
  | ok t =>
    have hkey := elementKey_of_accept ((accept_eq_some i).mpr hp) i
    dsimp only
    split_ifs <;> exact hkey.symm

/-- **The verdicts are filed under the keys of the elements.** -/
theorem keys_verdicts (config : DispatchConfig) (seen : List String) (l : List (Json × ℕ)) :
    (verdicts config seen l).map verdictKey = l.map fun p => elementKey p.1 p.2 := by
  induction l generalizing seen with
  | nil => rfl
  | cons p l ih => rw [verdicts, List.map_cons, List.map_cons, verdictKey_verdict, ih]

theorem verdict_mem (config : DispatchConfig) {v : Json} {i : ℕ} {l : List (Json × ℕ)}
    (h : (v, i) ∈ l) (seen : List String) :
    ∃ seen', verdict config seen' v i ∈ verdicts config seen l := by
  induction l generalizing seen with
  | nil => cases h
  | cons p l ih =>
    rcases List.mem_cons.mp h with rfl | h
    · exact ⟨seen, List.mem_cons_self⟩
    · obtain ⟨seen', hm⟩ := ih h (seenAfter seen (verdict config seen p.1 p.2))
      exact ⟨seen', List.mem_cons_of_mem _ hm⟩

theorem mem_verdicts {x : Verdict} {l : List (Json × ℕ)} {seen : List String}
    (h : x ∈ verdicts config seen l) : ∃ seen', ∃ p ∈ l, verdict config seen' p.1 p.2 = x := by
  induction l generalizing seen with
  | nil => cases h
  | cons p l ih =>
    rcases List.mem_cons.mp h with rfl | h
    · exact ⟨seen, p, List.mem_cons_self, rfl⟩
    · obtain ⟨seen', q, hq, hx⟩ := ih h
      exact ⟨seen', q, List.mem_cons_of_mem _ hq, hx⟩

/-- A rejected element is reported with the reason it was rejected for. -/
theorem error_mem_parseElements {v : Json} {i : ℕ} {r : Rejection}
    (hr : parseOneCallback v i config = .error r) (l : List (Json × ℕ)) (seen : List String)
    (h : (v, i) ∈ l) : r ∈ (parseElements config seen l).invalid := by
  obtain ⟨seen', hm⟩ := verdict_mem config h seen
  rw [verdict, hr] at hm
  exact mem_invalid_iff.mpr hm

/-- The elements of a `callbacks` value the parsers go through: an array within the limit. -/
def elements (json : Json) (config : DispatchConfig) : List Json :=
  match json.asArray with
  | none => []
  | some array => if array.length ≤ config.maxCallbacksPerEvent then array else []

/-- **The schedule-time parser.** A target is accepted iff it is the first accepted of its name. -/
theorem mem_valid {json : Json} : t ∈ (parseCallbacks json config).valid ↔
    ((elements json config).filterMap (accept config)).find? (·.name = t.name) = some t := by
  unfold parseCallbacks elements
  rcases json.asArray with _ | array
  · simp
  · by_cases h : array.length > config.maxCallbacksPerEvent
    · simp [h, Nat.not_le.mpr h]
    · simp only [if_neg h, if_pos (Nat.not_lt.mp h), mem_valid_parseElements, List.not_mem_nil,
        not_false_eq_true, true_and]

/-- **The dispatch-time parser.** A target is returned iff the first element that carries the name
is accepted with it. -/
theorem validateNamedCallback_eq_ok {json : Json} {name : String} :
    validateNamedCallback json name config = .ok t ↔
      ∃ v, (elements json config).find? (·.strField "name" = some name) = some v ∧
        accept config v = some t := by
  simp only [validateNamedCallback, bind_eq_ok, okOr_eq_ok, rejectIf_eq_ok, mapError_eq_ok,
    elements, Prod.exists, gt_iff_lt, not_lt]
  rcases json.asArray with _ | array
  · simp
  · have hfind : array.find? (fun v => decide (v.strField "name" = some name)) =
        (array.zipIdx.find? fun c => decide (c.1.strField "name" = some name)).map Prod.fst := by
      conv_lhs => rw [← List.zipIdx_map_fst 0 array, List.find?_map]
      rfl
    by_cases h : array.length ≤ config.maxCallbacksPerEvent
    · simp only [Option.some.injEq, exists_eq_left', h, if_true, hfind, Option.map_eq_some_iff,
        Prod.exists, true_and, exists_const]
      constructor
      · rintro ⟨v, i, hf, ht⟩; exact ⟨v, ⟨v, i, hf, rfl⟩, (accept_eq_some i).mpr ht⟩
      · rintro ⟨_, ⟨v, i, hf, rfl⟩, ht⟩; exact ⟨v, i, hf, (accept_eq_some i).mp ht⟩
    · simp [h]

end Array

end OutboxDispatcher.Callbacks.Parse
