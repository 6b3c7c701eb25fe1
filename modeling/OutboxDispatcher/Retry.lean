import OutboxDispatcher.Callbacks.Parse
import Mathlib.Data.Rat.Floor
import Mathlib.Tactic.Linarith
import Mathlib.Tactic.Ring
import Mathlib.Tactic.FieldSimp
import Mathlib.Tactic.NormNum

/-! # When a failed delivery is due again

`compute_next_available_at` takes the delay of the schedule, raises it to the receiver's
`Retry-After`, scales it by a jitter of a quarter either way and adds it to the clock. Every one of
the last three operations panics when its result is out of range; a panic is `none` here. The
scaling, which the source does in `f64`, is exact and rounded to the nearest nanosecond.

`Retry-After` is a number of seconds up to `2 ^ 64 - 1`, and nothing bounds it before the addition.
`inRange_iff` says which headers are harmless at which time, `retryAfter_floor_iff` which of them
hold the next attempt back for as long as they ask. The `httpdate` crate is the parameter
`HttpDateCrate`. -/

namespace OutboxDispatcher.Retry

open OutboxDispatcher.Lib.Text OutboxDispatcher.Schema OutboxDispatcher.Callbacks.Fields

/-! ### Ranges of the libraries -/

/-- `Duration::MAX`: seconds are a `u64`. -/
def maxDuration : ℕ := 2 ^ 64 * 10 ^ 9 - 1

/-- `TimeDelta::MAX`: `i64::MAX` milliseconds. -/
def maxTimeDelta : ℕ := (2 ^ 63 - 1) * 10 ^ 6

/-- `DateTime::<Utc>::MAX_UTC`: `+262142-12-31T23:59:59.999999999`. -/
def maxUtc : ℤ := 8210266876799 * 10 ^ 9 + 999999999

/-- `9999-12-31T23:59:59`, the last instant of an HTTP date. -/
def maxHttpDate : ℤ := 253402300799 * 10 ^ 9

/-- `Duration::mul_f64`. -/
def mulF64 (d : Duration) (x : ℚ) : Option Duration :=
  let nanos := ⌊(d : ℚ) * x + 1 / 2⌋
  if 0 ≤ nanos ∧ nanos ≤ maxDuration then some nanos.toNat else none

/-- `DateTime + Duration`. -/
def addDuration (t : Time) (d : Duration) : Option Time :=
  if d ≤ maxTimeDelta ∧ t + d ≤ maxUtc then some (t + d) else none

/-! ### The computation -/

/-- The `httpdate` crate: `parse_http_date`. -/
class HttpDateCrate where
  parse : String → Option Time

/-- The delay of the schedule for an attempt; the last one repeats. -/
def baseDelay (attempt : ℤ) (backoffSchedule : List Duration) : ℕ :=
  let index := (max attempt 1 - 1).toNat
  (backoffSchedule[index]?.or backoffSchedule.getLast?).getD (fromSecs 60)

def computeNextAvailableAt (now : Time) (jitter : ℚ) (attempt : ℤ) (retryAfter : Option Duration)
    (backoffSchedule : List Duration) : Option Time := do
  let base := baseDelay attempt backoffSchedule
  let delay := (retryAfter.map (max · base)).getD base
  let total ← mulF64 delay (1 + jitter)
  addDuration now total

def parseRetryAfter [HttpDateCrate] (now : Time) (value : String) : Option Duration :=
  let trimmed := trim value
  match parseU64 trimmed with
  | some secs => some (fromSecs secs)
  | none => (HttpDateCrate.parse trimmed).map fun target => (target - now).toNat

/-- The jitter `rand::random::<f64>() * 0.5 - 0.25`. -/
def InJitterRange (jitter : ℚ) : Prop := -(1 / 4) ≤ jitter ∧ jitter < 1 / 4

/-- Whatever the attempt, the schedule and the jitter, the computation does not panic. -/
def InRange [HttpDateCrate] (now : Time) (header : String) : Prop :=
  ∀ attempt jitter schedule, ValidBackoff schedule → InJitterRange jitter →
    (computeNextAvailableAt now jitter attempt (parseRetryAfter now header) schedule).isSome

/-! ### Bounds -/

theorem baseDelay_mem {attempt : ℤ} {schedule : List Duration} (h : schedule ≠ []) :
    baseDelay attempt schedule ∈ schedule := by
  unfold baseDelay
  dsimp only
  rcases hi : schedule[(max attempt 1 - 1).toNat]? with _ | d
  · simp only [Option.none_or, List.getLast?_eq_some_getLast h, Option.getD_some]
    exact List.getLast_mem h
  · simp only [Option.some_or, Option.getD_some]
    exact List.mem_of_getElem? hi

/-- The longest delay of a schedule, seven days. -/
theorem baseDelay_le (attempt : ℤ) {schedule : List Duration} (h : ValidBackoff schedule) :
    baseDelay attempt schedule ≤ fromSecs maxBackoffElementSecs := by
  obtain ⟨n, hn, -, hle⟩ := h.range _ (baseDelay_mem h.nonempty)
  rw [hn]; exact Nat.mul_le_mul_right _ hle

/-- The scaled delay is at most the delay and a quarter. -/
theorem floor_scaled_le {d : ℕ} {jitter : ℚ} {b : ℤ} (hj : InJitterRange jitter)
    (hb : 5 * (d : ℤ) ≤ 4 * b) : ⌊(d : ℚ) * (1 + jitter) + 1 / 2⌋ ≤ b := by
  have hd : (d : ℚ) * (1 + jitter) ≤ (d : ℚ) * (5 / 4) :=
    mul_le_mul_of_nonneg_left (by linarith [hj.2]) (Nat.cast_nonneg d)
  have hb' : 5 * (d : ℚ) ≤ 4 * b := by exact_mod_cast hb
  have : (d : ℚ) * (1 + jitter) + 1 / 2 < ((b + 1 : ℤ) : ℚ) := by push_cast; linarith
  have := Int.floor_lt.mpr this
  omega

theorem floor_scaled_nonneg {d : ℕ} {jitter : ℚ} (hj : InJitterRange jitter) :
    0 ≤ ⌊(d : ℚ) * (1 + jitter) + 1 / 2⌋ := by
  refine Int.floor_nonneg.mpr ?_
  have : 0 ≤ (d : ℚ) * (1 + jitter) := mul_nonneg (Nat.cast_nonneg d) (by linarith [hj.1])
  linarith

/-- A delay whose five quarters reach no further than the last instant is scaled and added. -/
theorem scaled_eq_some {now : ℤ} {d : ℕ} {jitter : ℚ} (hnow : 0 ≤ now) (hj : InJitterRange jitter)
    (hd : 5 * (d : ℤ) ≤ 4 * (maxUtc - now)) : (mulF64 d (1 + jitter)).bind (addDuration now) =
      some (now + ⌊(d : ℚ) * (1 + jitter) + 1 / 2⌋) := by
  obtain ⟨n, hn⟩ := Int.eq_ofNat_of_zero_le (floor_scaled_nonneg (d := d) hj)
  have hle : (n : ℤ) ≤ maxUtc - now := hn ▸ floor_scaled_le hj hd
  have hmax : maxUtc < (2 ^ 63 - 1) * 10 ^ 6 := by decide
  have hdur : n ≤ 2 ^ 64 * 10 ^ 9 - 1 := by omega
  have hdelta : n ≤ (2 ^ 63 - 1) * 10 ^ 6 := by omega
  have hmul : mulF64 d (1 + jitter) = some n := by
    unfold mulF64
    rw [hn, if_pos ⟨by omega, by exact_mod_cast hdur⟩]
    rfl
  rw [hmul, Option.bind_some, addDuration, if_pos ⟨hdelta, show now + n ≤ maxUtc by omega⟩, hn]

theorem isSome_of_le {now : ℤ} {d : ℕ} {jitter : ℚ} (hnow : 0 ≤ now) (hj : InJitterRange jitter)
    (hd : 5 * (d : ℤ) ≤ 4 * (maxUtc - now)) :
    ((mulF64 d (1 + jitter)).bind (addDuration now)).isSome := by
  rw [scaled_eq_some hnow hj hd]
  rfl

/-- The jitter that scales a positive delay by five quarters, up to rounding. -/
def topJitter (d : Duration) : ℚ := 1 / 4 - 1 / (4 * d)

theorem inJitterRange_topJitter {d : ℕ} (hd : 1 ≤ d) : InJitterRange (topJitter d) := by
  have hd' : (1 : ℚ) ≤ d := by exact_mod_cast hd
  have h1 : 1 / (4 * (d : ℚ)) ≤ 1 / 4 := by
    apply one_div_le_one_div_of_le <;> linarith
  have h2 : 0 < 1 / (4 * (d : ℚ)) := by positivity
  constructor <;> unfold topJitter <;> linarith

/-- At that jitter the scaled delay is the five quarters, when they are a whole number. -/
theorem floor_topJitter {d : ℕ} {b : ℤ} (hd : 1 ≤ d) (hb : 5 * (d : ℤ) = 4 * b) :
    ⌊(d : ℚ) * (1 + topJitter d) + 1 / 2⌋ = b := by
  have hd' : (d : ℚ) ≠ 0 := by exact_mod_cast (by omega : d ≠ 0)
  have hb' : 5 * (d : ℚ) = 4 * b := by exact_mod_cast hb
  have hval : (d : ℚ) * (1 + topJitter d) + 1 / 2 = b + 1 / 4 := by
    unfold topJitter; field_simp; linarith
  rw [hval, Int.floor_eq_iff]
  constructor <;> linarith

/-- So a delay of at least `d` that is in range at this jitter does not take `d` past the last
instant. -/
theorem le_of_isSome {now : ℤ} {d d' : ℕ} {b : ℤ} (hd : 1 ≤ d) (hb : 5 * (d : ℤ) = 4 * b)
    (hle : d ≤ d') (h : ((mulF64 d' (1 + topJitter d)).bind (addDuration now)).isSome) :
    now + b ≤ maxUtc := by
  have hj := inJitterRange_topJitter hd
  have hmono : b ≤ ⌊(d' : ℚ) * (1 + topJitter d) + 1 / 2⌋ := by
    rw [← floor_topJitter hd hb]
    refine Int.floor_mono (add_le_add_left (mul_le_mul_of_nonneg_right ?_ ?_) _)
    · exact_mod_cast hle
    · linarith [hj.1]
  unfold mulF64 at h
  dsimp only at h
  split_ifs at h with hr
  · rw [Option.bind_some, addDuration] at h
    split_ifs at h with ha
    · have := ha.2
      rw [Int.toNat_of_nonneg hr.1] at this
      exact (Int.add_le_add_left hmono now).trans this
    · simp at h
  · simp at h

/-! ### The window -/

/-- The delay after the failure number `k`: that of the schedule, whose last one repeats, or the
receiver's `Retry-After` if it is longer. -/
def retryDelay (backoffSchedule : List Duration) (k : ℕ) (retryAfter : Option Duration) : ℕ :=
  max (backoffSchedule[min k backoffSchedule.length - 1]?.getD 0) (retryAfter.getD 0)

/-- From three to five quarters of the delay `d` after `t`. Times are whole nanoseconds; where a
quarter of the delay is not, the rounding may take them a quarter of a nanosecond out. -/
structure InWindow (t : ℤ) (d : ℕ) (availableAt : ℤ) : Prop where
  lower : 3 * (d : ℤ) ≤ 4 * (availableAt - t) + 1
  upper : 4 * (availableAt - t) ≤ 5 * d + 1
  sharp : d % 4 ≠ 3 → 3 * (d : ℤ) ≤ 4 * (availableAt - t) ∧ 4 * (availableAt - t) ≤ 5 * d

theorem baseDelay_eq {k : ℕ} (hk : 1 ≤ k) {schedule : List Duration} (h : schedule ≠ []) :
    baseDelay k schedule = schedule[min k schedule.length - 1]?.getD 0 := by
  have hlen : 0 < schedule.length := List.length_pos_iff.mpr h
  have hindex : (max (k : ℤ) 1 - 1).toNat = k - 1 := by omega
  unfold baseDelay
  simp only [hindex]
  by_cases hle : k ≤ schedule.length
  · have hlt : k - 1 < schedule.length := by omega
    rw [Nat.min_eq_left hle, List.getElem?_eq_getElem hlt]
    rfl
  · have hge : schedule.length ≤ k - 1 := by omega
    rw [Nat.min_eq_right (by omega), List.getElem?_eq_none hge, ← List.getLast?_eq_getElem?,
      List.getLast?_eq_some_getLast h]
    rfl

theorem inWindow_of_scaled {t : ℤ} {d : ℕ} {jitter : ℚ} (hj : InJitterRange jitter) :
    InWindow t d (t + ⌊(d : ℚ) * (1 + jitter) + 1 / 2⌋) := by
  generalize hn : ⌊(d : ℚ) * (1 + jitter) + 1 / 2⌋ = n
  obtain ⟨hle, hlt⟩ := Int.floor_eq_iff.mp hn
  have hd : (0 : ℚ) ≤ d := Nat.cast_nonneg d
  have hlo : 3 * (d : ℤ) ≤ 4 * n + 1 := by
    have hscaled : (d : ℚ) * (3 / 4) ≤ d * (1 + jitter) :=
      mul_le_mul_of_nonneg_left (by linarith [hj.1]) hd
    have : ((3 * d : ℤ) : ℚ) < ((4 * n + 2 : ℤ) : ℚ) := by push_cast; linarith
    have := Int.cast_lt.mp this
    omega
  have hup : 4 * n ≤ 5 * d + 1 := by
    rcases Nat.eq_zero_or_pos d with rfl | hpos
    · have : ((2 * n : ℤ) : ℚ) ≤ ((1 : ℤ) : ℚ) := by push_cast at hle ⊢; linarith
      have := Int.cast_le.mp this
      omega
    · have hscaled : (d : ℚ) * (1 + jitter) < d * (5 / 4) :=
        mul_lt_mul_of_pos_left (by linarith [hj.2]) (Nat.cast_pos.mpr hpos)
      have : ((4 * n : ℤ) : ℚ) < ((5 * d + 2 : ℤ) : ℚ) := by push_cast; linarith
      have := Int.cast_lt.mp this
      omega
  refine ⟨by omega, by omega, fun hmod => ?_⟩
  have hcases : d % 4 = 0 ∨ d % 4 = 1 ∨ d % 4 = 2 := by omega
  rcases hcases with h | h | h <;> omega

/-- **The next attempt is due in the window.** -/
theorem inWindow_of_compute {now availableAt : Time} {jitter : ℚ} {k : ℕ}
    {retryAfter : Option Duration}
    {schedule : List Duration} (hk : 1 ≤ k) (hs : schedule ≠ []) (hj : InJitterRange jitter)
    (h : computeNextAvailableAt now jitter k retryAfter schedule = some availableAt) :
    InWindow now (retryDelay schedule k retryAfter) availableAt := by
  have hdelay : (retryAfter.map (max · (baseDelay k schedule))).getD (baseDelay k schedule) =
      retryDelay schedule k retryAfter := by
    unfold retryDelay
    rw [baseDelay_eq hk hs]
    cases retryAfter with
    | none => simp
    | some after => exact max_comm _ _
  unfold computeNextAvailableAt at h
  simp only [hdelay] at h
  obtain ⟨total, htotal, hadd⟩ := Option.bind_eq_some_iff.mp h
  unfold mulF64 at htotal
  dsimp only at htotal
  split_ifs at htotal with hr
  cases htotal
  unfold addDuration at hadd
  split_ifs at hadd
  cases hadd
  rw [Int.toNat_of_nonneg hr.1]
  exact inWindow_of_scaled hj

/-! ### Which headers are harmless -/

/-- The last instant a numeric `Retry-After` reaches, with the jitter at its top. -/
def reach (now : ℤ) (secs : ℕ) : ℤ := now + 5 * fromSecs secs / 4

/-- A delay of at most `secs` is in range when `secs` is. -/
theorem five_mul_le {now : ℤ} {d secs : ℕ} (hd : d ≤ fromSecs secs) (h : reach now secs ≤ maxUtc) :
    5 * (d : ℤ) ≤ 4 * (maxUtc - now) := by
  unfold reach fromSecs at *
  omega

theorem five_mul_date_le {now t : ℤ} (hnow : 0 ≤ now) (hmax : now ≤ maxUtc) (ht : t ≤ maxHttpDate) :
    5 * ((t - now).toNat : ℤ) ≤ 4 * (maxUtc - now) := by
  unfold maxHttpDate maxUtc at *
  omega

theorem five_mul_delay_le {retryAfter : Option ℕ} {base : ℕ} {c : ℤ} (hb : 5 * (base : ℤ) ≤ c)
    (hr : ∀ r, retryAfter = some r → 5 * (r : ℤ) ≤ c) :
    5 * (((retryAfter.map (max · base)).getD base : ℕ) : ℤ) ≤ c := by
  cases retryAfter with
  | none => exact hb
  | some r =>
    have := hr r rfl
    simp only [Option.map_some, Option.getD_some]
    omega

theorem le_delay (retryAfter : Option ℕ) (base : ℕ) :
    base ≤ (retryAfter.map (max · base)).getD base := by
  cases retryAfter with
  | none => exact le_rfl
  | some r => simp

theorem le_delay_some (r base : ℕ) : r ≤ ((some r).map (max · base)).getD base := by simp

theorem baseDelay_singleton (d : ℕ) : baseDelay 1 [d] = d := rfl

theorem reach_mono (now : ℤ) {a b : ℕ} (h : a ≤ b) : reach now a ≤ reach now b := by
  unfold reach fromSecs; omega

/-- Conversely the jitter takes a delay of at least `secs` to `reach`. -/
theorem reach_le_of_isSome {now : ℤ} {secs d : ℕ} (hs : 1 ≤ secs) (hd : fromSecs secs ≤ d)
    (h : ((mulF64 d (1 + topJitter (fromSecs secs))).bind (addDuration now)).isSome) :
    reach now secs ≤ maxUtc := by
  have h1 : 1 ≤ fromSecs secs := by unfold fromSecs; omega
  refine le_of_isSome h1 ?_ hd h
  unfold fromSecs; omega

theorem computeNextAvailableAt_eq (now : Time) (jitter : ℚ) (attempt : ℤ)
    (retryAfter : Option Duration)
    (schedule : List Duration) : computeNextAvailableAt now jitter attempt retryAfter schedule =
      (mulF64 ((retryAfter.map (max · (baseDelay attempt schedule))).getD
        (baseDelay attempt schedule)) (1 + jitter)).bind (addDuration now) := rfl

theorem validBackoff_singleton {n : ℕ} (h1 : 1 ≤ n) (hn : n ≤ maxBackoffElementSecs) :
    ValidBackoff [fromSecs n] :=
  ⟨by simp, by simpa using ⟨n, rfl, h1, hn⟩⟩

section Header

variable [HttpDateCrate]

theorem parseRetryAfter_cases {now : Time} {header : String} {r : Duration}
    (h : parseRetryAfter now header = some r) :
    (∃ secs, parseU64 (trim header) = some secs ∧ r = fromSecs secs) ∨
      ∃ t, HttpDateCrate.parse (trim header) = some t ∧ r = (t - now).toNat := by
  unfold parseRetryAfter at h
  dsimp only at h
  split at h
  · next secs hp => exact .inl ⟨secs, hp, (Option.some.inj h).symm⟩
  · obtain ⟨t, ht, hr⟩ := Option.map_eq_some_iff.mp h
    exact .inr ⟨t, ht, hr.symm⟩

theorem parseRetryAfter_secs {now : Time} {header : String} {secs : ℕ}
    (h : parseU64 (trim header) = some secs) :
    parseRetryAfter now header = some (fromSecs secs) := by
  unfold parseRetryAfter
  simp only [h]

/-- **The range of the computation.** No receiver's header makes the dispatcher panic iff the clock
is early enough for the longest delay of a schedule and, when the header is a number of seconds, for
that delay. -/
theorem inRange_iff (hdate : ∀ s t, HttpDateCrate.parse s = some t → t ≤ maxHttpDate) (now : ℤ)
    (hnow : 0 ≤ now) (header : String) : InRange now header ↔
      reach now maxBackoffElementSecs ≤ maxUtc ∧
        ∀ secs, parseU64 (trim header) = some secs → reach now secs ≤ maxUtc := by
  constructor
  · intro h
    have hone : 1 ≤ maxBackoffElementSecs := by decide
    have hpos : ∀ {n : ℕ}, 1 ≤ n → 1 ≤ fromSecs n := fun hn => by unfold fromSecs; omega
    -- at the longest schedule, and at the shortest, under the jitter at its top
    have hlong := h 1 _ _ (validBackoff_singleton hone le_rfl) (inJitterRange_topJitter (hpos hone))
    rw [computeNextAvailableAt_eq, baseDelay_singleton] at hlong
    have hbase := reach_le_of_isSome hone (le_delay _ _) hlong
    refine ⟨hbase, fun secs hsecs => ?_⟩
    rcases Nat.eq_zero_or_pos secs with rfl | hs
    · exact (reach_mono now (Nat.zero_le _)).trans hbase
    · have hshort :=
        h 1 _ _ (validBackoff_singleton le_rfl hone) (inJitterRange_topJitter (hpos hs))
      rw [computeNextAvailableAt_eq, baseDelay_singleton, parseRetryAfter_secs hsecs] at hshort
      exact reach_le_of_isSome hs (le_delay_some _ _) hshort
  · rintro ⟨hbase, hsecs⟩ attempt jitter schedule hv hj
    rw [computeNextAvailableAt_eq]
    have hb := five_mul_le (baseDelay_le attempt hv) hbase
    have hmax : now ≤ maxUtc := by omega
    refine isSome_of_le hnow hj (five_mul_delay_le hb fun r hr => ?_)
    rcases parseRetryAfter_cases hr with ⟨secs, hp, rfl⟩ | ⟨t, ht, rfl⟩
    · exact five_mul_le le_rfl (hsecs secs hp)
    · exact five_mul_date_le hnow hmax (hdate _ _ ht)

end Header

/-! ### Two headers -/

theorem mulF64_one {d : ℕ} (h : d ≤ maxDuration) : mulF64 d 1 = some d := by
  have hf : ⌊(d : ℚ) * 1 + 1 / 2⌋ = d := by
    rw [Int.floor_eq_iff]; constructor <;> push_cast <;> linarith
  unfold mulF64
  rw [hf, if_pos ⟨by omega, by exact_mod_cast h⟩]
  rfl

/-- An `httpdate` crate that knows no date. -/
@[reducible] def noDates : HttpDateCrate where
  parse _ := none

/-- Two minutes are harmless in November 2026. -/
theorem inRange_two_minutes : @InRange noDates (1794787200 * 10 ^ 9) "120" := by
  refine (@inRange_iff noDates (fun _ _ h => nomatch h) _ (by decide) _).mpr ⟨by decide,
    fun secs h => ?_⟩
  have hp : parseU64 (trim "120") = some 120 := by decide
  rw [hp] at h
  cases h
  decide

/-- **`Retry-After: 18446744073709551615`**, without jitter, on the first attempt: the delay is a
`Duration` but no `TimeDelta`, so adding it to the clock panics. -/
theorem retryAfter_max_panics :
    @parseRetryAfter noDates (1794787200 * 10 ^ 9) "18446744073709551615" =
      some (fromSecs 18446744073709551615) ∧
    computeNextAvailableAt (1794787200 * 10 ^ 9) 0 1 (some (fromSecs 18446744073709551615))
      [fromSecs 30] = none ∧
    ¬@InRange noDates (1794787200 * 10 ^ 9) "18446744073709551615" := by
  have hparse : @parseRetryAfter noDates (1794787200 * 10 ^ 9) "18446744073709551615" =
      some (fromSecs 18446744073709551615) := by
    have hp : parseU64 (trim "18446744073709551615") = some 18446744073709551615 := by
      decide +kernel
    exact @parseRetryAfter_secs noDates _ _ _ hp
  have hnone : computeNextAvailableAt (1794787200 * 10 ^ 9) 0 1
      (some (fromSecs 18446744073709551615)) [fromSecs 30] = none := by
    rw [computeNextAvailableAt_eq, baseDelay_singleton, add_zero]
    have hmax :
      ((some (fromSecs 18446744073709551615)).map (max · (fromSecs 30))).getD (fromSecs 30) =
        fromSecs 18446744073709551615 := by decide
    rw [hmax, mulF64_one (by decide), Option.bind_some, addDuration, if_neg (by decide)]
  refine ⟨hparse, hnone, fun h => ?_⟩
  have := h 1 0 _ (validBackoff_singleton (n := 30) (by decide) (by decide))
    ⟨by norm_num, by norm_num⟩
  rw [hparse, hnone] at this
  cases this

/-! ### `Retry-After` as a floor

The jitter is applied last, to the receiver's delay as well. So the floor holds when the scheduled
delay is so much longer that the jitter cannot take it below, or when the draw is not negative. -/

/-- The scaled delay is at least `r` iff the receiver's own delay loses at most half a nanosecond,
or the scheduled one, scaled, is long enough. -/
theorem le_scaled_iff {r base : ℕ} {jitter : ℚ} (hj : InJitterRange jitter) :
    (r : ℤ) ≤ ⌊((max r base : ℕ) : ℚ) * (1 + jitter) + 1 / 2⌋ ↔
      -jitter * r ≤ 1 / 2 ∨ (r : ℚ) ≤ base * (1 + jitter) + 1 / 2 := by
  have hpos : 0 ≤ 1 + jitter := by linarith [hj.1]
  have hmax :
      ((max r base : ℕ) : ℚ) * (1 + jitter) = max (r * (1 + jitter)) (base * (1 + jitter)) := by
    rw [Nat.cast_max, max_mul_of_nonneg _ _ hpos]
  rw [Int.le_floor, hmax, Int.cast_natCast, ← sub_le_iff_le_add, le_max_iff]
  refine or_congr ?_ ?_
  · constructor <;> intro h <;> linarith
  · rw [sub_le_iff_le_add]

theorem inJitterRange_bottom : InJitterRange (-(1 / 4)) := ⟨le_rfl, by norm_num⟩

/-- **When `Retry-After` is a floor**, for a delay that can be represented. One draw keeps the next
attempt from coming early iff it is so little below zero that it is lost in the rounding, or the
scheduled delay is long enough for it. Every draw does iff three quarters of the scheduled delay
are. -/
theorem retryAfter_floor_iff (now : ℤ) (hnow : 0 ≤ now) (attempt : ℤ) (schedule : List Duration)
    (r : ℕ) (hr : 5 * ((max r (baseDelay attempt schedule) : ℕ) : ℤ) ≤ 4 * (maxUtc - now)) :
    (∀ jitter, InJitterRange jitter → ∃ availableAt : ℤ,
      computeNextAvailableAt now jitter attempt (some r) schedule = some availableAt ∧
      (now + r ≤ availableAt ↔
        -jitter * r ≤ 1 / 2 ∨ (r : ℚ) ≤ baseDelay attempt schedule * (1 + jitter) + 1 / 2)) ∧
    ((∀ jitter, InJitterRange jitter → ∀ availableAt : ℤ,
      computeNextAvailableAt now jitter attempt (some r) schedule = some availableAt →
        now + r ≤ availableAt) ↔
      r ≤ 2 ∨ 4 * r ≤ 3 * baseDelay attempt schedule + 2) := by
  generalize hbase : baseDelay attempt schedule = base at *
  have hdraw : ∀ jitter, InJitterRange jitter → ∃ availableAt : ℤ,
      computeNextAvailableAt now jitter attempt (some r) schedule = some availableAt ∧
      (now + r ≤ availableAt ↔ -jitter * r ≤ 1 / 2 ∨ (r : ℚ) ≤ base * (1 + jitter) + 1 / 2) := by
    intro jitter hj
    refine ⟨now + ⌊((max r base : ℕ) : ℚ) * (1 + jitter) + 1 / 2⌋, ?_, ?_⟩
    · rw [computeNextAvailableAt_eq, hbase]
      exact scaled_eq_some hnow hj hr
    · rw [Int.add_le_add_iff_left]
      exact le_scaled_iff hj
  refine ⟨hdraw, ?_⟩
  constructor
  · intro h
    obtain ⟨availableAt, hat, hiff⟩ := hdraw _ inJitterRange_bottom
    rcases hiff.mp (h _ inJitterRange_bottom _ hat) with hlow | hlow
    · have hcast : ((r : ℤ) : ℚ) ≤ ((2 : ℤ) : ℚ) := by push_cast; linarith
      exact .inl (by exact_mod_cast hcast)
    · have hcast : ((4 * r : ℕ) : ℚ) ≤ ((3 * base + 2 : ℕ) : ℚ) := by push_cast; linarith
      exact .inr (by exact_mod_cast hcast)
  · intro h jitter hj availableAt hat
    obtain ⟨at', hat', hiff⟩ := hdraw jitter hj
    rw [hat, Option.some.injEq] at hat'
    rw [hat']
    refine hiff.mpr ?_
    rcases h with h | h
    · left
      have hle : (r : ℚ) ≤ 2 := by exact_mod_cast h
      have hscaled : -jitter * r ≤ 1 / 4 * r :=
        mul_le_mul_of_nonneg_right (by linarith [hj.1]) (Nat.cast_nonneg r)
      linarith
    · right
      have hle : 4 * (r : ℚ) ≤ 3 * base + 2 := by exact_mod_cast h
      have hscaled : (base : ℚ) * (3 / 4) ≤ base * (1 + jitter) :=
        mul_le_mul_of_nonneg_left (by linarith [hj.1]) (Nat.cast_nonneg base)
      linarith

/-- Twenty seconds are a floor under a schedule of thirty. -/
theorem retryAfter_floor_twenty :
    5 * ((max (fromSecs 20) (baseDelay 1 [fromSecs 30]) : ℕ) : ℤ) ≤
      4 * (maxUtc - 1794787200 * 10 ^ 9) ∧
    ∀ jitter, InJitterRange jitter → ∀ availableAt : ℤ,
      computeNextAvailableAt (1794787200 * 10 ^ 9) jitter 1 (some (fromSecs 20)) [fromSecs 30] =
        some availableAt → 1794787200 * 10 ^ 9 + (fromSecs 20 : ℕ) ≤ availableAt := by
  have hr : 5 * ((max (fromSecs 20) (baseDelay 1 [fromSecs 30]) : ℕ) : ℤ) ≤
      4 * (maxUtc - 1794787200 * 10 ^ 9) := by decide
  obtain ⟨-, hevery⟩ :=
    retryAfter_floor_iff (1794787200 * 10 ^ 9) (by decide) 1 [fromSecs 30] (fromSecs 20) hr
  exact ⟨hr, hevery.mpr (by decide)⟩

/-- **`Retry-After: 600`** under a schedule of thirty seconds, with the lowest draw: the next
attempt is due after 450 seconds. -/
theorem retryAfter_undercut :
    InJitterRange (-(1 / 4)) ∧
    computeNextAvailableAt (1794787200 * 10 ^ 9) (-(1 / 4)) 1 (some (fromSecs 600)) [fromSecs 30] =
      some (1794787650 * 10 ^ 9) ∧
    (1794787650 * 10 ^ 9 : ℤ) < 1794787200 * 10 ^ 9 + fromSecs 600 := by
  refine ⟨inJitterRange_bottom, ?_, by decide⟩
  have hdelay : ((some (fromSecs 600)).map (max · (fromSecs 30))).getD (fromSecs 30) =
      fromSecs 600 := by
    decide
  rw [computeNextAvailableAt_eq, baseDelay_singleton, hdelay,
    scaled_eq_some (by decide) inJitterRange_bottom (by decide)]
  norm_num [fromSecs]

end OutboxDispatcher.Retry
