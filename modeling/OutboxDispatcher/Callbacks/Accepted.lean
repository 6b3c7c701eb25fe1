import Mathlib.Data.String.Basic
import OutboxDispatcher.Config
import OutboxDispatcher.Retry

/-! # What an accepted target looks like

Every limit of a callback is enforced in two places: the parser holds what the publisher writes to
it, and `AppConfig::validate` the default that takes its place. `accepted_within_limits` puts the
two together for both parsers.

* `isValidCallbackName_iff`: the test on bytes and characters is the regular expression.
* `withinLimits_of_accept`: the limits, one field at a time. -/

namespace OutboxDispatcher.Callbacks.Accepted

open OutboxDispatcher.Lib OutboxDispatcher.Lib.Checks OutboxDispatcher.Lib.JsonValue
  OutboxDispatcher.Schema
open OutboxDispatcher.Callbacks.Fields OutboxDispatcher.Callbacks.Parse
  OutboxDispatcher.Callbacks.Limits
open OutboxDispatcher.Config OutboxDispatcher.Retry

/-! ### Names -/

/-- A character of `[a-z]`. -/
def Lower (c : Char) : Prop := 'a' ≤ c ∧ c ≤ 'z'

/-- A character of `[a-z0-9_]`. -/
def NameChar (c : Char) : Prop := Lower c ∨ ('0' ≤ c ∧ c ≤ '9') ∨ c = '_'

/-- `^[a-z][a-z0-9_]{2,63}$`. -/
def MatchesName (name : String) : Prop :=
  ∃ first chars, name.toList = first :: chars ∧ Lower first ∧ (∀ c ∈ chars, NameChar c) ∧
    2 ≤ chars.length ∧ chars.length ≤ 63

theorem isLower_iff {c : Char} : c.isLower ↔ Lower c := Text.isLower_iff_range

theorem nameChar_iff {c : Char} : (c.isLower || c.isDigit || c == '_') ↔ NameChar c := by
  have hdigit : c.isDigit ↔ '0' ≤ c ∧ c ≤ '9' := by
    simp only [Char.isDigit, Bool.and_eq_true, decide_eq_true_eq]
    exact Iff.rfl
  simp only [Bool.or_eq_true, isLower_iff, hdigit, beq_iff_eq, NameChar, or_assoc]

theorem utf8Size_of_nameChar {c : Char} (h : NameChar c) : c.utf8Size = 1 := by
  refine Char.utf8Size_eq_one_iff.mpr (UInt32.le_iff_toNat_le.mpr ?_)
  rcases h with h | h | rfl
  · exact (UInt32.le_iff_toNat_le.mp h.2).trans (by decide)
  · exact (UInt32.le_iff_toNat_le.mp h.2).trans (by decide)
  · decide

theorem utf8Len_of_nameChars : ∀ {cs : List Char}, (∀ c ∈ cs, NameChar c) →
    String.utf8Len cs = cs.length
  | [], _ => rfl
  | c :: cs, h => by
    obtain ⟨hc, hcs⟩ := List.forall_mem_cons.mp h
    rw [String.utf8Len_cons, List.length_cons, utf8Len_of_nameChars hcs, utf8Size_of_nameChar hc]

/-- **The name check is the regular expression.** -/
theorem isValidCallbackName_iff (name : String) : isValidCallbackName name ↔ MatchesName name := by
  have hsize : name.utf8ByteSize = String.utf8Len name.toList := by
    conv_lhs => rw [← String.ofList_toList (s := name), String.utf8ByteSize_ofList]
  unfold isValidCallbackName MatchesName
  rw [hsize]
  cases name.toList with
  | nil => simp
  | cons first chars =>
    simp only [Bool.and_eq_true, decide_eq_true_eq, List.all_eq_true, nameChar_iff, isLower_iff,
      List.cons.injEq]
    have hlen : Lower first → (∀ c ∈ chars, NameChar c) →
        String.utf8Len (first :: chars) = chars.length + 1 := fun hf hcs =>
      utf8Len_of_nameChars (List.forall_mem_cons.mpr ⟨.inl hf, hcs⟩)
    constructor
    · rintro ⟨⟨hlo, hhi⟩, hf, hcs⟩
      rw [hlen hf hcs] at hlo hhi
      exact ⟨first, chars, ⟨rfl, rfl⟩, hf, hcs, by omega, by omega⟩
    · rintro ⟨_, _, ⟨rfl, rfl⟩, hf, hcs, hlo, hhi⟩
      rw [hlen hf hcs]
      exact ⟨⟨by omega, by omega⟩, hf, hcs⟩

/-! ### Durations -/

/-- From `lo` to `hi` seconds. -/
def WithinSecs (lo hi : ℕ) (d : Duration) : Prop := fromSecs lo ≤ d ∧ d ≤ fromSecs hi

theorem withinSecs_fromSecs {lo hi n : ℕ} (h : lo ≤ n ∧ n ≤ hi) : WithinSecs lo hi (fromSecs n) :=
  ⟨Nat.mul_le_mul_right _ h.1, Nat.mul_le_mul_right _ h.2⟩

theorem withinSecs_of_parseTimeout {val : Option Json} {default d : Duration}
    (hd : WithinSecs 1 maxHandlerTimeoutSecs default) (h : parseTimeout val default = .ok d) :
    WithinSecs 1 maxHandlerTimeoutSecs d := by
  cases val with
  | none =>
    cases h
    exact hd
  | some v =>
    obtain ⟨n, hn, rfl⟩ := map_eq_ok.mp h
    exact withinSecs_fromSecs (parseBounded_ok hn).2

theorem withinSecs_of_parseExternalTimeout {val : Option Json} {t : Option Duration}
    (h : parseExternalTimeout val = .ok t) : ∀ d ∈ t, WithinSecs 1 maxExternalTimeoutSecs d := by
  cases val with
  | none =>
    cases h
    nofun
  | some v =>
    obtain ⟨n, hn, rfl⟩ := map_eq_ok.mp h
    rintro d ⟨⟩
    exact withinSecs_fromSecs (parseBounded_ok hn).2

/-! ### Targets -/

section

variable [Crates]

structure WithinLimits (config : DispatchConfig) (t : CallbackTarget) : Prop where
  name : MatchesName t.name
  maxAttempts : 1 ≤ t.maxAttempts ∧ t.maxAttempts ≤ 50
  timeout : WithinSecs 1 300 t.timeout
  backoff : t.backoff ≠ [] ∧ ∀ d ∈ t.backoff, WithinSecs 1 (7 * 86400) d
  maxCompletionCycles : 1 ≤ t.maxCompletionCycles ∧ t.maxCompletionCycles ≤ 1000
  externalCompletionTimeout : ∀ d ∈ t.externalCompletionTimeout, WithinSecs 1 (7 * 86400) d
  external : t.mode = .external → t.externalCompletionTimeout.isSome
  signingKeyId : config.allowUnsignedCallbacks = false → t.signingKeyId.isSome
  url : ∃ url, Crates.parseUrl t.url = some url ∧
    (url.scheme = "https" ∨ (url.scheme = "http" ∧ config.allowInsecureUrls))

variable {c : AppConfig} {t : CallbackTarget}

theorem withinLimits_of_accept (hc : c.validate = .ok ()) {v : Json}
    (h : accept c.dispatch.toConfig v = some t) : WithinLimits c.dispatch.toConfig t := by
  obtain ⟨-, hname, obj, -, hb⟩ := parseOneCallback_eq_ok.mp ((accept_eq_some 0).mp h)
  have hspec := parseBody_spec hb
  have hv := validTarget_of_accept (validConfig_of_validate hc) h
  obtain ⟨url, -, hurl, -, -, hscheme, -⟩ := validateUrl_eq_ok.mp hspec.url
  have hdefault : WithinSecs 1 maxHandlerTimeoutSecs c.dispatch.toConfig.handlerTimeout :=
    withinSecs_fromSecs (validSettings_of_validate hc).handlerTimeoutSecs
  refine ⟨(isValidCallbackName_iff _).mp hname, hv.maxAttempts,
    withinSecs_of_parseTimeout hdefault hspec.timeout,
    ⟨hv.backoff.nonempty, fun d hd => ?_⟩, hv.maxCompletionCycles,
    withinSecs_of_parseExternalTimeout hspec.externalCompletionTimeout, hspec.external,
    hspec.signingKeyId, ⟨url, hurl, hscheme⟩⟩
  obtain ⟨n, rfl, hn⟩ := hv.backoff.range d hd
  exact withinSecs_fromSecs hn

def Returned (config : DispatchConfig) (json : Json) (t : CallbackTarget) : Prop :=
  t ∈ (parseCallbacks json config).valid ∨ ∃ name, validateNamedCallback json name config = .ok t

theorem accept_of_returned {config : DispatchConfig} {json : Json} (h : Returned config json t) :
    ∃ v, accept config v = some t := by
  rcases h with h | ⟨name, h⟩
  · obtain ⟨v, -, hv⟩ := List.mem_filterMap.mp (List.mem_of_find?_eq_some (mem_valid.mp h))
    exact ⟨v, hv⟩
  · obtain ⟨v, -, hv⟩ := validateNamedCallback_eq_ok.mp h
    exact ⟨v, hv⟩

/-- **Every accepted target is within the limits** when the configuration is accepted. So its number
of attempts is the same as `i32`, and adding its timeout to the clock is defined up to five minutes
before the last instant. -/
theorem accepted_within_limits (c : AppConfig) (hc : c.validate = .ok ()) (json : Json)
    (t : CallbackTarget) (ht : Returned c.dispatch.toConfig json t) :
    WithinLimits c.dispatch.toConfig t ∧ asI32 t.maxAttempts = t.maxAttempts ∧
      ∀ now : ℤ, now + fromSecs 300 ≤ maxUtc →
      addDuration now t.timeout = some (now + t.timeout) := by
  obtain ⟨v, hv⟩ := accept_of_returned ht
  have hlim := withinLimits_of_accept hc hv
  refine ⟨hlim, asI32_of_lt (hlim.maxAttempts.2.trans_lt (by decide)), fun now hnow => ?_⟩
  have hle : t.timeout ≤ fromSecs 300 := hlim.timeout.2
  have hdelta : t.timeout ≤ maxTimeDelta := hle.trans (by decide)
  exact if_pos ⟨hdelta, (Int.add_le_add_left (Int.ofNat_le.mpr hle) now).trans hnow⟩

end

def sampleLimits : Json :=
  .arr [.obj [("max_attempts", .int 50), ("name", .str "hook_a"), ("signing_key_id", .str "k1"),
    ("timeout_seconds", .int 300), ("url", .str "https://example.com/hook")]]

theorem accepted_within_limits_sample :
    sampleApp.validate = .ok () ∧
    ∃ t, @Returned sampleCrates sampleApp.dispatch.toConfig sampleLimits t ∧
    t.timeout = fromSecs 300 ∧
      @WithinLimits sampleCrates sampleApp.dispatch.toConfig t := by
  have hok := validate_sampleApp
  have hx : (@parseCallbacks sampleCrates sampleLimits sampleApp.dispatch.toConfig).valid.any
      (·.timeout = fromSecs 300) := by decide +kernel
  obtain ⟨t, ht, htime⟩ := List.any_eq_true.mp hx
  exact ⟨hok, t, .inl ht, of_decide_eq_true htime,
    (@accepted_within_limits sampleCrates sampleApp hok sampleLimits t (.inl ht)).1⟩

end OutboxDispatcher.Callbacks.Accepted
