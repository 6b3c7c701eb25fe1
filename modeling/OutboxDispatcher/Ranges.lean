import OutboxDispatcher.Callbacks.Accepted
import OutboxDispatcher.Retention

/-! # Machine ranges under a validated configuration

Three values of the configuration go through narrowing casts and through the types of `chrono`: the
concurrency, compared as a `u32`; the two retentions, whose days become an `i64` and then a date;
and the buffer of the lock, added to the clock. `AppConfig::validate` has lower bounds for all of
them and no upper bound for any, so each has values that are accepted and do not fit
(`validated_in_range_iff`). -/

namespace OutboxDispatcher.Ranges

open OutboxDispatcher.Lib.Checks OutboxDispatcher.Lib.JsonValue OutboxDispatcher.Schema
open OutboxDispatcher.Callbacks.Fields OutboxDispatcher.Callbacks.Parse
  OutboxDispatcher.Callbacks.Accepted
open OutboxDispatcher.Config OutboxDispatcher.Repo.Database OutboxDispatcher.Repo.Statements
open OutboxDispatcher.Retry OutboxDispatcher.Dispatch OutboxDispatcher.Retention

/-! ### The retention cycle -/

def dayNanos : ℤ := 86400 * 10 ^ 9

/-- `DateTime::<Utc>::MIN_UTC`: `-262143-01-01T00:00:00`. -/
def minUtc : ℤ := -8334601228800 * 10 ^ 9

/-- `chrono::Duration::days`; `none` when it panics. -/
def chronoDays (days : Int64) : Option ℤ :=
  let nanos := days.toInt * dayNanos
  if nanos.natAbs ≤ maxTimeDelta then some nanos else none

/-- `DateTime - TimeDelta`; `none` when it panics. -/
def subTimeDelta (t : Time) (delta : ℤ) : Option Time :=
  if minUtc ≤ t - delta ∧ t - delta ≤ maxUtc then some (t - delta) else none

/-- `now - chrono::Duration::days(retention_days as i64)`. -/
def cutoff (now : Time) (retentionDays : UInt64) : Option Time := do
  let delta ← chronoDays retentionDays.toInt64
  subTimeDelta now delta

/-- `run_retention_cycle`: the events it deletes; `none` when it panics or the statement fails. -/
def runRetentionCycle (db : Db) (now : Time) (config : RetentionConfig) :
    Option (Db × RetentionDeleted) := do
  let processedCutoff ← cutoff now config.processedRetentionDays
  let deadLetterCutoff ← cutoff now config.deadLetterRetentionDays
  deleteTerminalEvents db deadLetterCutoff processedCutoff config.batchLimit.toInt64.toInt

/-- The cutoff is defined, and a day before now or earlier. -/
def CutoffOk (now : ℤ) (retentionDays : UInt64) : Prop :=
  ∃ t : ℤ, cutoff now retentionDays = some t ∧ t + dayNanos ≤ now

theorem toInt64_cases (n : UInt64) : (n.toNat < 2 ^ 63 ∧ n.toInt64.toInt = n.toNat) ∨
    (2 ^ 63 ≤ n.toNat ∧ n.toInt64.toInt = n.toNat - 2 ^ 64) := by
  have hcond : n.toInt64.toInt = if 2 * n.toNat < 2 ^ 64 then (n.toNat : ℤ) else n.toNat - 2 ^ 64 :=
    BitVec.toInt_eq_toNat_cond n.toBitVec
  split_ifs at hcond with h
  · exact .inl ⟨by omega, hcond⟩
  · exact .inr ⟨by omega, hcond⟩

theorem chronoDays_eq_some {days : Int64} {delta : ℤ} : chronoDays days = some delta ↔
    (days.toInt * dayNanos).natAbs ≤ maxTimeDelta ∧ days.toInt * dayNanos = delta := by
  simp only [chronoDays, Option.ite_none_right_eq_some, Option.some.injEq]

theorem subTimeDelta_eq_some {t u delta : ℤ} : subTimeDelta t delta = some u ↔
    (minUtc ≤ t - delta ∧ t - delta ≤ maxUtc) ∧ t - delta = u := by
  simp only [subTimeDelta, Option.ite_none_right_eq_some, Option.some.injEq]

/-- The cutoff is right when the days survive the cast and lead to no date before the first. -/
theorem cutoffOk_iff {now : ℤ} (hnow : 0 ≤ now ∧ now ≤ maxUtc) {n : UInt64} : CutoffOk now n ↔
    1 ≤ n.toNat ∧ n.toNat * dayNanos ≤ now - minUtc := by
  have hday : dayNanos = 86400000000000 := rfl
  have hmin : minUtc = -8334601228800000000000 := rfl
  have hmax : maxUtc = 8210266876799999999999 := rfl
  have hdelta : maxTimeDelta = 9223372036854775807000000 := rfl
  simp only [CutoffOk, cutoff, Option.bind_eq_bind, Option.bind_eq_some_iff, chronoDays_eq_some,
    subTimeDelta_eq_some]
  rw [hmax] at hnow
  rw [hday, hmin, hdelta, hmax]
  constructor
  · rintro ⟨t, ⟨delta, ⟨-, rfl⟩, ⟨hlo, -⟩, rfl⟩, hle⟩
    rcases toInt64_cases n with ⟨-, hd⟩ | ⟨hbig, hd⟩
    · rw [hd] at hlo hle
      omega
    · -- a negative number of days is a time after now
      have hlt := n.toNat_lt
      rw [hd] at hle
      omega
  · rintro ⟨hone, hle⟩
    have hd : n.toInt64.toInt = n.toNat := by
      rcases toInt64_cases n with ⟨-, hd⟩ | ⟨hbig, -⟩
      · exact hd
      · omega
    rw [hd]
    refine ⟨_, ⟨_, ⟨?_, rfl⟩, ⟨?_, ?_⟩, rfl⟩, ?_⟩ <;> omega

/-- **A cycle deletes nothing of the last day** when its cutoffs are right. -/
theorem createdAt_of_deleted {db db' : Db} {now : ℤ} {config : RetentionConfig}
    {report : RetentionDeleted} (hp : CutoffOk now config.processedRetentionDays)
    (hd : CutoffOk now config.deadLetterRetentionDays)
    (h : runRetentionCycle db now config = some (db', report)) {e : RawEvent}
    (he : Deleted db db' e) : e.createdAt + dayNanos < now := by
  obtain ⟨p, hp, hple⟩ := hp
  obtain ⟨d, hd, hdle⟩ := hd
  rw [runRetentionCycle, hp, hd] at h
  have hpast := (deletable_iff.mp (deletable_of_deleted h he)).2
  unfold PastCutoff at hpast
  split_ifs at hpast
  · exact (Int.add_lt_add_right hpast dayNanos).trans_le hdle
  · exact (Int.add_lt_add_right hpast dayNanos).trans_le hple

/-! ### The bounds -/

/-- A time of the years 2020 to 2100. -/
def InYears (now : ℤ) : Prop := 1577836800 * 10 ^ 9 ≤ now ∧ now < 4133980800 * 10 ^ 9

/-- The largest number of days that leads to a date, from any of these years. -/
def maxRetentionDays : ℕ := 96483554

/-- The largest buffer, in seconds, that leads to a date after the longest timeout. -/
def maxLockBufferSecs : ℕ := 8206132895700

theorem forall_cutoffOk_iff {n : UInt64} (hn : 1 ≤ n.toNat) :
    (∀ now, InYears now → CutoffOk now n) ↔ n.toNat ≤ maxRetentionDays := by
  have hday : dayNanos = 86400000000000 := rfl
  have hmin : minUtc = -8334601228800000000000 := rfl
  have hmax : maxUtc = 8210266876799999999999 := rfl
  have hyears : ∀ now, InYears now → 0 ≤ now ∧ now ≤ maxUtc := by
    intro now hnow
    unfold InYears at hnow
    omega
  have hdays : maxRetentionDays = 96483554 := rfl
  constructor
  · intro h
    have hfirst : InYears (1577836800 * 10 ^ 9) := by
      unfold InYears
      omega
    have hle := ((cutoffOk_iff (hyears _ hfirst)).mp (h _ hfirst)).2
    rw [hday, hmin] at hle
    omega
  · intro hle now hnow
    refine (cutoffOk_iff (hyears now hnow)).mpr ⟨hn, ?_⟩
    unfold InYears at hnow
    rw [hday, hmin]
    omega

/-- The comparison after the cast is right for a number of 32 bits only. -/
theorem concurrency_iff {c : AppConfig} (hc : c.validate = .ok ()) :
    (1 ≤ c.dispatch.dispatchConcurrency.toNat ∧
      c.dispatch.dispatchConcurrency.toNat ≤ c.database.maxConnections.toNat) ↔
    c.dispatch.dispatchConcurrency.toNat < 2 ^ 32 := by
  have hone := (validSettings_of_validate hc).dispatchConcurrency
  have hlt := c.database.maxConnections.toNat_lt
  have hchecks := AppConfig.validate_eq_ok.mp hc
  simp only [AppConfig.checks, List.forall_mem_append] at hchecks
  obtain ⟨⟨⟨⟨⟨⟨⟨hdb, -⟩, hconc⟩, -⟩, -⟩, -⟩, -⟩, -⟩ := hchecks
  simp only [databaseChecks, concurrencyChecks, List.forall_mem_cons] at hdb hconc
  have hmax := one_le_toNat32 hdb.2.1
  have hpos : 0 < c.database.maxConnections := UInt32.lt_iff_toNat_lt.mpr hmax
  have hcast : c.dispatch.dispatchConcurrency.toNat % 2 ^ 32 ≤ c.database.maxConnections.toNat := by
    have hle := hconc.1
    rw [decide_eq_true hpos, Bool.true_and, decide_eq_false_iff_not, gt_iff_lt,
      UInt32.lt_iff_toNat_lt, UInt64.toNat_toUInt32, Nat.not_lt] at hle
    exact hle
  constructor
  · exact fun h => h.2.trans_lt hlt
  · intro h
    rw [Nat.mod_eq_of_lt h] at hcast
    exact ⟨hone, hcast⟩

section

variable [Crates]

/-- A callback with the longest timeout. -/
def longest (url : String) : List (String × Json) :=
  [("name", .str "hook_a"), ("signing_key_id", .str "k1"), ("timeout_seconds", .int 300),
    ("url", .str url)]

omit [Crates] in
theorem lookup_longest (url : String) {k : String}
    (h : k ∉ ["name", "signing_key_id", "timeout_seconds", "url"]) :
    (longest url).lookup k = none := by
  refine List.lookup_eq_none_iff.mpr fun p hp => bne_iff_ne.mpr fun heq => h ?_
  have hkeys : (longest url).map Prod.fst = ["name", "signing_key_id", "timeout_seconds", "url"] :=
    rfl
  rw [heq, ← hkeys]
  exact List.mem_map_of_mem hp

theorem exists_longest (config : DispatchConfig) {url : String}
    (hone : 1 ≤ config.maxCallbacksPerEvent)
    (hurl : validateUrl url config.allowInsecureUrls config.allowPrivateIpTargets = .ok ()) :
    ∃ t, Returned config (.arr [.obj (longest url)]) t ∧ t.timeout = fromSecs 300 := by
  let t : CallbackTarget :=
    { name := "hook_a", url, mode := .managed, signingKeyId := some "k1", headers := [],
      maxAttempts := config.maxAttempts, backoff := config.backoff, timeout := fromSecs 300,
      externalCompletionTimeout := none, maxCompletionCycles := config.maxCompletionCycles }
  have htime :
      parseBounded "timeout_seconds" .timeoutNotInteger .timeoutOutOfRange maxHandlerTimeoutSecs
      (.int 300) = .ok 300 := rfl
  have hbody : parseBody (longest url) "hook_a" config = .ok t := by
    have hkey : (longest url).lookup "signing_key_id" = some (.str "k1") := rfl
    have htimeout : (longest url).lookup "timeout_seconds" = some (.int 300) := rfl
    have hmode : (longest url).lookup "mode" = none := lookup_longest url (by decide)
    have hheaders : (longest url).lookup "headers" = none := lookup_longest url (by decide)
    have hattempts : (longest url).lookup "max_attempts" = none := lookup_longest url (by decide)
    have hbackoff : (longest url).lookup "backoff_seconds" = none := lookup_longest url (by decide)
    have hexternal : (longest url).lookup "external_completion_timeout_seconds" = none :=
      lookup_longest url (by decide)
    have hcycles : (longest url).lookup "max_completion_cycles" = none :=
      lookup_longest url (by decide)
    simp only [parseBody, hkey, htimeout, hmode, hheaders, hattempts, hbackoff, hexternal, hcycles,
      bind_eq_ok, okOr_eq_ok, rejectIf_eq_ok, pure_eq_ok]
    exact ⟨.str url, rfl, url, rfl, (), hurl, .managed, rfl, (), by simp [Json.asStr], [], rfl,
      config.maxAttempts, rfl, config.backoff, rfl, fromSecs 300, by rw [parseTimeout, htime]; rfl,
      none, rfl,
      config.maxCompletionCycles, rfl, (), by simp, rfl⟩
  have hname : isValidCallbackName "hook_a" := by decide
  have hfield : (Json.obj (longest url)).strField "name" = some "hook_a" := rfl
  have haccept : accept config (.obj (longest url)) = some t :=
    (accept_eq_some 0).mpr (parseOneCallback_eq_ok.mpr ⟨hfield, hname, longest url, rfl, hbody⟩)
  refine ⟨t, .inr ⟨"hook_a", validateNamedCallback_eq_ok.mpr ⟨.obj (longest url), ?_, haccept⟩⟩,
    rfl⟩
  simp [elements, Json.asArray, hone, hfield]

omit [Crates] in
theorem lockUntil_isSome_iff {now : ℤ} {timeout lockBuffer : ℕ} :
    (computeLockUntil now timeout lockBuffer).isSome ↔
    (timeout ≤ maxTimeDelta ∧ now + timeout ≤ maxUtc) ∧
      lockBuffer ≤ maxTimeDelta ∧ now + timeout + lockBuffer ≤ maxUtc := by
  unfold computeLockUntil addDuration
  by_cases ht : timeout ≤ maxTimeDelta ∧ now + timeout ≤ maxUtc
  · rw [if_pos ht]
    simp [ht]
  · rw [if_neg ht]
    simp [ht]

theorem forall_lockUntil_iff {c : AppConfig} (hc : c.validate = .ok ())
    (hurl : ∃ url, validateUrl url c.dispatch.allowInsecureUrls c.dispatch.allowPrivateIpTargets =
      .ok ()) :
    (∀ now, InYears now → ∀ json t, Returned c.dispatch.toConfig json t →
      (computeLockUntil now t.timeout c.dispatch.toConfig.lockBuffer).isSome) ↔
    c.dispatch.lockBufferSecs.toNat ≤ maxLockBufferSecs := by
  have hmax : maxUtc = 8210266876799999999999 := rfl
  have hdelta : maxTimeDelta = 9223372036854775807000000 := rfl
  have hsecs : maxLockBufferSecs = 8206132895700 := rfl
  have hbuffer : c.dispatch.toConfig.lockBuffer = c.dispatch.lockBufferSecs.toNat * 10 ^ 9 := rfl
  have hlong : fromSecs 300 = 300 * 10 ^ 9 := rfl
  constructor
  · intro h
    obtain ⟨url, hurl⟩ := hurl
    obtain ⟨t, ht, htime⟩ := exists_longest c.dispatch.toConfig
      (validSettings_of_validate hc).maxCallbacksPerEvent hurl
    have hlast : InYears (4133980800 * 10 ^ 9 - 1) := by
      unfold InYears
      omega
    have hle := (lockUntil_isSome_iff.mp (h _ hlast _ t ht)).2.2
    rw [htime, hlong, hbuffer, hmax] at hle
    omega
  · intro hle now hnow json t ht
    obtain ⟨v, hv⟩ := accept_of_returned ht
    obtain ⟨d, hd, htime⟩ : ∃ d : ℕ, t.timeout = d ∧ d ≤ 300 * 10 ^ 9 :=
      ⟨_, rfl, (withinLimits_of_accept hc hv).timeout.2⟩
    unfold InYears at hnow
    rw [lockUntil_isSome_iff, hd, hbuffer, hmax, hdelta]
    omega

/-- Nothing overflows in the years 2020 to 2100. -/
structure NeverOverflows (c : AppConfig) : Prop where
  concurrency : 1 ≤ c.dispatch.dispatchConcurrency.toNat ∧
    c.dispatch.dispatchConcurrency.toNat ≤ c.database.maxConnections.toNat
  retention : c.retention.enabled → ∀ now, InYears now →
    CutoffOk now c.retention.processedRetentionDays ∧
    CutoffOk now c.retention.deadLetterRetentionDays
  lockUntil : ∀ now, InYears now → ∀ json t, Returned c.dispatch.toConfig json t →
    (computeLockUntil now t.timeout c.dispatch.toConfig.lockBuffer).isSome

omit [Crates] in
theorem one_le_retentionDays {c : AppConfig} (hc : c.validate = .ok ())
    (hon : c.retention.enabled) : 1 ≤ c.retention.processedRetentionDays.toNat ∧
    1 ≤ c.retention.deadLetterRetentionDays.toNat := by
  have hchecks : ∀ check ∈ retentionChecks c.retention, check.1 = false :=
    fun check hm => AppConfig.validate_eq_ok.mp hc check (by simp [AppConfig.checks, hm])
  rw [retentionChecks, if_pos hon] at hchecks
  simp only [List.forall_mem_cons] at hchecks
  exact ⟨one_le_toNat hchecks.1, one_le_toNat hchecks.2.1⟩

/-- **A validated configuration does not overflow** iff its concurrency is a number of 32 bits, its
retentions lead to dates, if retention is on, and so does its lock buffer; where some URL is
accepted. -/
theorem validated_in_range_iff (c : AppConfig) (hc : c.validate = .ok ())
    (hurl : ∃ url, validateUrl url c.dispatch.allowInsecureUrls c.dispatch.allowPrivateIpTargets =
      .ok ()) :
    NeverOverflows c ↔ c.dispatch.dispatchConcurrency.toNat < 2 ^ 32 ∧
      (c.retention.enabled → c.retention.processedRetentionDays.toNat ≤ maxRetentionDays ∧
        c.retention.deadLetterRetentionDays.toNat ≤ maxRetentionDays) ∧
      c.dispatch.lockBufferSecs.toNat ≤ maxLockBufferSecs := by
  have hret : (c.retention.enabled → ∀ now, InYears now →
      CutoffOk now c.retention.processedRetentionDays ∧
      CutoffOk now c.retention.deadLetterRetentionDays) ↔
      (c.retention.enabled → c.retention.processedRetentionDays.toNat ≤ maxRetentionDays ∧
        c.retention.deadLetterRetentionDays.toNat ≤ maxRetentionDays) := by
    refine forall_congr' fun hon => ?_
    obtain ⟨hp, hd⟩ := one_le_retentionDays hc hon
    rw [← forall_cutoffOk_iff hp, ← forall_cutoffOk_iff hd]
    simp only [imp_and, forall_and]
  rw [← concurrency_iff hc, ← hret, ← forall_lockUntil_iff hc hurl]
  exact ⟨fun h => ⟨h.concurrency, h.retention, h.lockUntil⟩, fun h => ⟨h.1, h.2.1, h.2.2⟩⟩

end

theorem validated_in_range_sample : sampleApp.validate = .ok () ∧
    @NeverOverflows sampleCrates sampleApp := by
  have hok := validate_sampleApp
  have hurl : @validateUrl sampleCrates "https://example.com/hook" false false = .ok () := by
    decide +kernel
  refine ⟨hok, (@validated_in_range_iff sampleCrates sampleApp hok ⟨_, hurl⟩).mpr ?_⟩
  decide

/-- More workers than a `u32` can count. -/
def tooManyWorkers : AppConfig :=
  { sampleApp with dispatch := { sampleApp.dispatch with dispatchConcurrency := 4294967297 } }

/-- A retention of `u64::MAX` days. -/
def endlessRetention : AppConfig :=
  { sampleApp with
    retention := { enabled := true, processedRetentionDays := 18446744073709551615 } }

/-- A lock for `u64::MAX` seconds. -/
def endlessLock : AppConfig :=
  { sampleApp with dispatch := { sampleApp.dispatch with lockBufferSecs := 18446744073709551615 } }

/-- All three are accepted: the first has more workers than connections, the second deletes what
will be processed until tomorrow, and the third panics before it locks a row. -/
theorem validated_overflows :
    (tooManyWorkers.validate = .ok () ∧ tooManyWorkers.database.maxConnections.toNat <
      tooManyWorkers.dispatch.dispatchConcurrency.toNat) ∧
    (endlessRetention.validate = .ok () ∧ endlessRetention.retention.enabled ∧
      cutoff (1577836800 * 10 ^ 9) endlessRetention.retention.processedRetentionDays =
        some (1577836800 * 10 ^ 9 + dayNanos)) ∧
    (endlessLock.validate = .ok () ∧
      ∃ t, @Returned sampleCrates endlessLock.dispatch.toConfig sampleLimits t ∧
      computeLockUntil (1577836800 * 10 ^ 9) t.timeout endlessLock.dispatch.toConfig.lockBuffer =
      none) := by
  have hx : (@parseCallbacks sampleCrates sampleLimits endlessLock.dispatch.toConfig).valid.any
      (fun t =>
        computeLockUntil (1577836800 * 10 ^ 9) t.timeout endlessLock.dispatch.toConfig.lockBuffer =
        none) := by decide +kernel
  obtain ⟨t, ht, hnone⟩ := List.any_eq_true.mp hx
  exact ⟨by decide +kernel, by decide +kernel, by decide +kernel, t, .inl ht,
    of_decide_eq_true hnone⟩

end OutboxDispatcher.Ranges
