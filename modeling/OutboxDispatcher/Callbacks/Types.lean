import OutboxDispatcher.Callbacks.Headers
import OutboxDispatcher.Callbacks.Limits

/-! # The types of the fields

A callback has ten fields, each with its type of JSON (`fields`). Eight of them are read so that a
value of another type is an error. The mode and the signing key are read by `.and_then(|v|
v.as_str())`, where a value that is no string is as good as none: the mode is then the default one,
and the callback is not signed. So what is accepted has the types of its fields exactly when these
two have (`asWritten_iff`). -/

namespace OutboxDispatcher.Callbacks.Types

open OutboxDispatcher.Lib.Checks OutboxDispatcher.Lib.JsonValue OutboxDispatcher.Schema
open OutboxDispatcher.Callbacks.Fields OutboxDispatcher.Callbacks.Parse
open OutboxDispatcher.Callbacks.Headers OutboxDispatcher.Callbacks.Limits

inductive FieldType
  | string
  /-- An object of strings. -/
  | strings
  | integer
  /-- An array of integers. -/
  | integers

def FieldType.Has : FieldType → Json → Prop
  | .string, v => ∃ s, v.asStr = some s
  | .strings, v => ∃ entries, v.asObject = some entries ∧ ∀ e ∈ entries, ∃ s, e.2.asStr = some s
  | .integer, v => ∃ n, v.asU64 = some n
  | .integers, v => ∃ arr, v.asArray = some arr ∧ ∀ e ∈ arr, ∃ n, e.asU64 = some n

def fields : List (String × FieldType) :=
  [("name", .string), ("url", .string), ("mode", .string), ("signing_key_id", .string),
    ("headers", .strings),
    ("max_attempts", .integer), ("backoff_seconds", .integers), ("timeout_seconds", .integer),
    ("external_completion_timeout_seconds", .integer), ("max_completion_cycles", .integer)]

/-- Every field of the element has its type, and the target has the mode and the signing key that
the element asks for. -/
structure AsWritten (v : Json) (t : CallbackTarget) : Prop where
  typed : ∀ f ∈ fields, ∀ w, v.get f.1 = some w → f.2.Has w
  mode : ∀ w, v.get "mode" = some w → w = .str t.mode.asStr
  signed : ∀ w, v.get "signing_key_id" = some w → ∃ k, w = .str k ∧ t.signingKeyId = some k

/-! ### One field -/

theorem string_of_bind {w : Option Json} {s : String} (h : w.bind Json.asStr = some s) :
    ∀ w', w = some w' → FieldType.string.Has w' := by
  rintro w' rfl
  exact ⟨s, h⟩

theorem parseMode_some {s : String} {mode : CompletionMode} (h : parseMode (some s) = .ok mode) :
    s = mode.asStr := by
  unfold parseMode at h
  split at h
  · next heq =>
    cases h
    exact heq
  · next heq =>
    cases h
    exact heq
  · cases h

theorem strings_of_parseHeaders {w : Json} {headers : List (String × String)}
    (h : parseHeaders (some w) = .ok headers) : FieldType.strings.Has w := by
  rcases parseHeaders_iff.mp h with ⟨hw, -⟩ | ⟨entries, hw, rfl, -⟩
  · cases hw
  · cases hw
    refine ⟨_, rfl, List.forall_mem_map.mpr fun e _ => ⟨e.2, rfl⟩⟩

theorem integers_of_parseBackoff {w : Json} {default l : List Duration}
    (h : parseBackoff (some w) default = .ok l) : FieldType.integers.Has w := by
  simp only [parseBackoff, bind_eq_ok, okOr_eq_ok, rejectIf_eq_ok] at h
  obtain ⟨arr, harr, -, -, h⟩ := h
  refine ⟨arr, harr, fun e he => ?_⟩
  obtain ⟨d, -, hd⟩ := (mem_of_mapM h).1 e he
  simp only [parseBackoffElement, bind_eq_ok, okOr_eq_ok] at hd
  obtain ⟨n, hn, -⟩ := hd
  exact ⟨n, hn⟩

/-! ### The element -/

section

variable [Crates] {config : DispatchConfig} {v : Json} {i : ℕ} {t : CallbackTarget}

theorem parseBody_texts {obj : List (String × Json)} {name : String}
    (h : parseBody obj name config = .ok t) :
    (obj.lookup "url").bind Json.asStr = some t.url ∧
      t.signingKeyId = (obj.lookup "signing_key_id").bind Json.asStr := by
  simp only [parseBody, bind_eq_ok, okOr_eq_ok, rejectIf_eq_ok, pure_eq_ok] at h
  obtain ⟨w, hw, url, hurl, -, -, -, -, -, -, -, -, -, -, -, -, -, -, -, -, -, -, -, -, rfl⟩ := h
  exact ⟨by rw [hw]; exact hurl, rfl⟩

/-- **Eight fields have their types**, so all have when the other two have. -/
theorem typed_of_ok (h : parseOneCallback v i config = .ok t)
    (hmode : ∀ w, v.get "mode" = some w → FieldType.string.Has w)
    (hkey : ∀ w, v.get "signing_key_id" = some w → FieldType.string.Has w) :
    ∀ f ∈ fields, ∀ w, v.get f.1 = some w → f.2.Has w := by
  intro f hf w hw
  obtain ⟨hname, -, obj, hobj, hb⟩ := parseOneCallback_eq_ok.mp h
  have hspec := parseBody_spec hb
  obtain ⟨hurl, -⟩ := parseBody_texts hb
  obtain rfl := Json.asObject_eq_some hobj
  simp only [fields, List.mem_cons, List.not_mem_nil, or_false] at hf
  rcases hf with rfl | rfl | rfl | rfl | rfl | rfl | rfl | rfl | rfl | rfl
  · exact string_of_bind hname w hw
  · exact string_of_bind hurl w hw
  · exact hmode w hw
  · exact hkey w hw
  · have hp := hspec.headers
    rw [show obj.lookup "headers" = some w from hw] at hp
    exact strings_of_parseHeaders hp
  · have hp := hspec.maxAttempts
    rw [show obj.lookup "max_attempts" = some w from hw] at hp
    exact ⟨_, (parseBounded_ok hp).1⟩
  · have hp := hspec.backoff
    rw [show obj.lookup "backoff_seconds" = some w from hw] at hp
    exact integers_of_parseBackoff hp
  · have hp := hspec.timeout
    rw [show obj.lookup "timeout_seconds" = some w from hw, parseTimeout, map_eq_ok] at hp
    obtain ⟨n, hn, -⟩ := hp
    exact ⟨n, (parseBounded_ok hn).1⟩
  · have hp := hspec.externalCompletionTimeout
    rw [show obj.lookup "external_completion_timeout_seconds" = some w from hw,
      parseExternalTimeout, map_eq_ok] at hp
    obtain ⟨n, hn, -⟩ := hp
    exact ⟨n, (parseBounded_ok hn).1⟩
  · have hp := hspec.maxCompletionCycles
    rw [show obj.lookup "max_completion_cycles" = some w from hw] at hp
    exact ⟨_, (parseBounded_ok hp).1⟩

/-- **What an accepted element says is what its target does**, if and only if its mode and its
signing key, where present, are strings. -/
theorem asWritten_iff (h : parseOneCallback v i config = .ok t) :
    AsWritten v t ↔ (∀ w, v.get "mode" = some w → FieldType.string.Has w) ∧
      (∀ w, v.get "signing_key_id" = some w → FieldType.string.Has w) := by
  constructor
  · intro ha
    exact ⟨ha.typed ("mode", .string) (by simp [fields]),
      ha.typed ("signing_key_id", .string) (by simp [fields])⟩
  · rintro ⟨hmode, hkey⟩
    refine ⟨typed_of_ok h hmode hkey, fun w hw => ?_, fun w hw => ?_⟩
    all_goals
      obtain ⟨-, -, obj, hobj, hb⟩ := parseOneCallback_eq_ok.mp h
      rw [Json.asObject_eq_some hobj] at hw
    · obtain ⟨s, hs⟩ := hmode w (by rw [Json.asObject_eq_some hobj]; exact hw)
      have hspec := (parseBody_spec hb).mode
      rw [show obj.lookup "mode" = some w from hw, Option.bind_some, hs] at hspec
      rw [Json.asStr_eq_some hs, parseMode_some hspec]
    · obtain ⟨k, hk⟩ := hkey w (by rw [Json.asObject_eq_some hobj]; exact hw)
      obtain ⟨-, hsigned⟩ := parseBody_texts hb
      rw [show obj.lookup "signing_key_id" = some w from hw, Option.bind_some, hk] at hsigned
      exact ⟨k, Json.asStr_eq_some hk, hsigned⟩

end

/-- A callback with its mode and its signing key under test. -/
def sampleFields (mode key : Json) : Json :=
  .obj [("external_completion_timeout_seconds", .int 60), ("mode", mode), ("name", .str "hook_a"),
    ("signing_key_id", key), ("url", .str "https://example.com/hook")]

theorem asWritten_external :
    ∃ t, @parseOneCallback sampleCrates (sampleFields (.str "external") (.str "k1")) 0 {} = .ok t ∧
      t.mode = .external ∧ AsWritten (sampleFields (.str "external") (.str "k1")) t := by
  have haccept : (@accept sampleCrates {} (sampleFields (.str "external") (.str "k1"))).any
      (·.mode = .external) := by decide +kernel
  obtain ⟨t, ht, hmode⟩ := Option.any_eq_true _ _ |>.mp haccept
  have hok := (@accept_eq_some _ sampleCrates _ _ 0).mp ht
  refine ⟨t, hok, of_decide_eq_true hmode, (@asWritten_iff sampleCrates _ _ _ _ hok).mpr ⟨?_, ?_⟩⟩
  · rintro w ⟨⟩
    exact ⟨"external", rfl⟩
  · rintro w ⟨⟩
    exact ⟨"k1", rfl⟩

/-- The mode `["external"]` is read as the default one; the signing key `7` as none, if unsigned
callbacks are allowed. -/
theorem mistyped_defaulted :
    (@accept sampleCrates {} (sampleFields (.arr [.str "external"]) (.str "k1"))).any
      (·.mode = .managed) ∧
    (@accept sampleCrates { allowUnsignedCallbacks := true }
      (sampleFields (.str "external") (.int 7))).any (·.signingKeyId = none) ∧
    ∀ t, ¬AsWritten (sampleFields (.arr [.str "external"]) (.str "k1")) t ∧
      ¬AsWritten (sampleFields (.str "external") (.int 7)) t := by
  refine ⟨by decide +kernel, by decide +kernel, fun t => ⟨fun h => ?_, fun h => ?_⟩⟩
  · have hmode := h.mode (.arr [.str "external"]) rfl
    cases hmode
  · obtain ⟨k, hk, -⟩ := h.signed (.int 7) rfl
    cases hk

end OutboxDispatcher.Callbacks.Types
