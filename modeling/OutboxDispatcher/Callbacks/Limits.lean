import OutboxDispatcher.Callbacks.Parse

/-! # Limits of accepted callbacks

The numbers of a callback are within the limits of the parser, or they are defaults of the
configuration, which `AppConfig::validate` holds to the same limits. So a target that was accepted
under a valid configuration is within them, and its numbers are the same as `i32`. -/

namespace OutboxDispatcher.Callbacks.Limits

open OutboxDispatcher.Lib.Checks OutboxDispatcher.Lib.JsonValue OutboxDispatcher.Schema
open OutboxDispatcher.Callbacks.Fields OutboxDispatcher.Callbacks.Parse

/-- What `AppConfig::validate` says of the defaults of a callback. -/
structure ValidConfig (config : DispatchConfig) : Prop where
  maxAttempts : 1 ≤ config.maxAttempts ∧ config.maxAttempts ≤ maxPerCallbackAttempts
  maxCompletionCycles :
    1 ≤ config.maxCompletionCycles ∧ config.maxCompletionCycles ≤ maxCompletionCyclesLimit
  backoff : ValidBackoff config.backoff

structure ValidTarget (target : CallbackTarget) : Prop where
  maxAttempts : 1 ≤ target.maxAttempts ∧ target.maxAttempts ≤ maxPerCallbackAttempts
  maxCompletionCycles :
    1 ≤ target.maxCompletionCycles ∧ target.maxCompletionCycles ≤ maxCompletionCyclesLimit
  backoff : ValidBackoff target.backoff

theorem validConfig_default : ValidConfig {} := by
  refine ⟨by decide, by decide, by decide, fun d hd => ?_⟩
  obtain ⟨n, hn, rfl⟩ := List.mem_map.mp hd
  refine ⟨n, rfl, ?_⟩
  revert n
  decide

theorem parseBounded_ok {field : String} {notInteger outOfRange : InvalidReason} {max n : ℕ}
    {v : Json} (h : parseBounded field notInteger outOfRange max v = .ok n) :
    v.asU64 = some n ∧ 1 ≤ n ∧ n ≤ max := by
  simp only [parseBounded, bind_eq_ok, okOr_eq_ok, rejectIf_eq_ok, pure_eq_ok] at h
  obtain ⟨m, hm, -, hr, rfl⟩ := h
  exact ⟨hm, not_not.mp hr⟩

theorem parseMaxAttempts_ok {val : Option Json} {default n : ℕ}
    (hd : 1 ≤ default ∧ default ≤ maxPerCallbackAttempts)
    (h : parseMaxAttempts val default = .ok n) : 1 ≤ n ∧ n ≤ maxPerCallbackAttempts := by
  cases val with
  | none => cases h; exact hd
  | some v => exact (parseBounded_ok h).2

theorem parseMaxCompletionCycles_ok {val : Option Json} {default n : ℕ}
    (hd : 1 ≤ default ∧ default ≤ maxCompletionCyclesLimit)
    (h : parseMaxCompletionCycles val default = .ok n) : 1 ≤ n ∧ n ≤ maxCompletionCyclesLimit := by
  cases val with
  | none => cases h; exact hd
  | some v => exact (parseBounded_ok h).2

section

variable [Crates] {config : DispatchConfig} {target : CallbackTarget}

/-- **An accepted target is within the limits.** -/
theorem validTarget_of_accept (hc : ValidConfig config) {v : Json}
    (h : accept config v = some target) : ValidTarget target := by
  obtain ⟨-, -, obj, -, hb⟩ := parseOneCallback_eq_ok.mp ((accept_eq_some 0).mp h)
  have hspec := parseBody_spec hb
  exact ⟨parseMaxAttempts_ok hc.maxAttempts hspec.maxAttempts,
    parseMaxCompletionCycles_ok hc.maxCompletionCycles hspec.maxCompletionCycles,
    parseBackoff_valid hc.backoff hspec.backoff⟩

theorem validTarget_of_validate (hc : ValidConfig config) {json : Json} {name : String}
    (h : validateNamedCallback json name config = .ok target) : ValidTarget target := by
  obtain ⟨v, -, hacc⟩ := validateNamedCallback_eq_ok.mp h
  exact validTarget_of_accept hc hacc

end

theorem asI32_of_lt {n : ℕ} (h : n < 2 ^ 31) : asI32 n = n := by
  unfold asI32
  rw [Int.bmod_eq_of_le] <;> omega

namespace ValidTarget

variable {target : CallbackTarget}

theorem asI32_maxAttempts (h : ValidTarget target) :
    asI32 target.maxAttempts = target.maxAttempts :=
  asI32_of_lt (h.maxAttempts.2.trans_lt (by decide))

end ValidTarget

end OutboxDispatcher.Callbacks.Limits
