import OutboxDispatcher.Callbacks.Limits
import OutboxDispatcher.Lib.SocketAddr

/-! # The configuration

`AppConfig::validate` goes through a list of checks and reports the message of every one that fails;
here the list is data (`checks`), and a configuration is accepted iff none of them fails. Machine
integers keep their widths, and `usize` has 64 bits.

The dispatch loop does not see the settings themselves but what `From<DispatchSettings>` makes of
them (`toConfig`). `validConfig_of_validate` is what the checks say about its defaults for a
callback.

Left out are the fields that neither `validate` nor anything else here reads. -/

namespace OutboxDispatcher.Config

open OutboxDispatcher.Lib.SocketAddr OutboxDispatcher.Lib.Text OutboxDispatcher.Schema
open OutboxDispatcher.Callbacks.Fields OutboxDispatcher.Callbacks.Limits

structure DatabaseConfig where
  url : String
  maxConnections : UInt32
  acquireTimeoutSecs : UInt64 := 10

/-- The dispatch settings as they are read, durations in seconds. -/
structure DispatchSettings where
  pollIntervalSecs : UInt64
  batchSize : Int64
  dispatchConcurrency : UInt64 := 16
  scheduleBatchSize : UInt32 := 500
  maxAttempts : UInt32
  backoffSecs : List UInt64
  handlerTimeoutSecs : UInt64
  lockBufferSecs : UInt64
  externalTimeoutSweepIntervalSecs : UInt64
  maxCompletionCycles : UInt32
  payloadSizeLimitBytes : Int64
  notifyChannel : String
  allowInsecureUrls : Bool := false
  allowUnsignedCallbacks : Bool := false
  allowPrivateIpTargets : Bool := false
  maxCallbacksPerEvent : UInt32 := 32

/-- `From<DispatchSettings> for DispatchConfig`. -/
def DispatchSettings.toConfig (s : DispatchSettings) : DispatchConfig where
  batchSize := s.batchSize.toInt
  dispatchConcurrency := s.dispatchConcurrency.toNat
  scheduleBatchSize := s.scheduleBatchSize.toNat
  maxAttempts := s.maxAttempts.toNat
  backoff := s.backoffSecs.map fun n => fromSecs n.toNat
  handlerTimeout := fromSecs s.handlerTimeoutSecs.toNat
  lockBuffer := fromSecs s.lockBufferSecs.toNat
  maxCompletionCycles := s.maxCompletionCycles.toNat
  payloadSizeLimitBytes := s.payloadSizeLimitBytes.toInt
  allowInsecureUrls := s.allowInsecureUrls
  allowUnsignedCallbacks := s.allowUnsignedCallbacks
  allowPrivateIpTargets := s.allowPrivateIpTargets
  maxCallbacksPerEvent := s.maxCallbacksPerEvent.toNat

structure AdminConfig where
  bind : String := "0.0.0.0:9090"
  authToken : String := ""

structure HttpClientConfig where
  connectTimeoutSecs : UInt64 := 5
  userAgent : String := "outbox-dispatcher/1.0"

structure RetentionConfig where
  enabled : Bool := false
  processedRetentionDays : UInt64 := 7
  deadLetterRetentionDays : UInt64 := 30
  cleanupIntervalSecs : UInt64 := 3600
  batchLimit : UInt64 := 1000

structure ObservabilityConfig where
  metricsBind : String := "0.0.0.0:9091"
  statsSampleIntervalSecs : UInt64 := 30

structure AppConfig where
  database : DatabaseConfig
  dispatch : DispatchSettings
  /-- `log.filter`. -/
  logFilter : String
  admin : AdminConfig := {}
  httpClient : HttpClientConfig := {}
  retention : RetentionConfig := {}
  observability : ObservabilityConfig := {}

/-! ### The checks -/

def maxCallbacksPerEventLimit : UInt32 := 1000
def minPayloadSizeBytes : Int64 := 1024
def maxPayloadSizeBytes : Int64 := 104857600
def minSweepIntervalSecs : UInt64 := 10
def minRetentionCleanupSecs : UInt64 := 60
def maxRetentionBatch : UInt64 := 10000
def minStatsSampleIntervalSecs : UInt64 := 10

/-- A check: when it fails, and its message. -/
abbrev Check := Bool × String

def blank (s : String) : Bool := trim s == ""

def databaseChecks (c : DatabaseConfig) : List Check :=
  [(blank c.url,
      "database.url is not set — provide it via the DATABASE_URL env var or APP__DATABASE__URL"),
    (c.maxConnections == 0, "database.max_connections must be > 0"),
    (c.acquireTimeoutSecs == 0, "database.acquire_timeout_secs must be > 0")]

def dispatchChecks (s : DispatchSettings) : List Check :=
  [(s.pollIntervalSecs == 0, "dispatch.poll_interval_secs must be > 0"),
    (s.batchSize ≤ 0, "dispatch.batch_size must be > 0"),
    (s.scheduleBatchSize == 0, "dispatch.schedule_batch_size must be > 0"),
    (s.maxAttempts == 0, "dispatch.max_attempts must be > 0"),
    (s.maxAttempts.toNat > maxPerCallbackAttempts,
      s!"dispatch.max_attempts must be <= {maxPerCallbackAttempts} (per-callback cap)"),
    (s.handlerTimeoutSecs == 0, "dispatch.handler_timeout_secs must be > 0"),
    (s.handlerTimeoutSecs.toNat > maxHandlerTimeoutSecs,
      s!"dispatch.handler_timeout_secs must be <= {maxHandlerTimeoutSecs}"),
    (s.lockBufferSecs == 0, "dispatch.lock_buffer_secs must be > 0"),
    (s.maxCompletionCycles == 0, "dispatch.max_completion_cycles must be > 0"),
    (s.maxCompletionCycles.toNat > maxCompletionCyclesLimit,
      s!"dispatch.max_completion_cycles must be <= {maxCompletionCyclesLimit}"),
    (s.backoffSecs.isEmpty, "dispatch.backoff_secs must contain at least one value"),
    (s.backoffSecs.contains 0, "dispatch.backoff_secs entries must all be > 0"),
    (s.backoffSecs.any (·.toNat > maxBackoffElementSecs),
      s!"dispatch.backoff_secs entries must all be <= {maxBackoffElementSecs}"),
    (s.externalTimeoutSweepIntervalSecs < minSweepIntervalSecs,
      s!"dispatch.external_timeout_sweep_interval_secs must be >= {minSweepIntervalSecs}"),
    (s.payloadSizeLimitBytes < minPayloadSizeBytes,
      s!"dispatch.payload_size_limit_bytes must be >= {minPayloadSizeBytes} (1 KB)"),
    (s.payloadSizeLimitBytes > maxPayloadSizeBytes,
      s!"dispatch.payload_size_limit_bytes must be <= {maxPayloadSizeBytes} (100 MB)"),
    (blank s.notifyChannel, "dispatch.notify_channel must not be empty"),
    (s.maxCallbacksPerEvent == 0, "dispatch.max_callbacks_per_event must be > 0"),
    (s.maxCallbacksPerEvent > maxCallbacksPerEventLimit,
      s!"dispatch.max_callbacks_per_event must be <= {maxCallbacksPerEventLimit}"),
    (s.dispatchConcurrency == 0, "dispatch.dispatch_concurrency must be > 0")]

/-- The concurrency is compared after a cast to 32 bits. -/
def concurrencyChecks (d : DatabaseConfig) (s : DispatchSettings) : List Check :=
  [(d.maxConnections > 0 && s.dispatchConcurrency.toUInt32 > d.maxConnections,
    s!"dispatch.dispatch_concurrency ({s.dispatchConcurrency}) must be <= " ++
      s!"database.max_connections ({d.maxConnections}); a slow callback can otherwise hold " ++
      "the last connection while concurrent dispatchers stall on lock_delivery")]

def adminChecks (c : AdminConfig) : List Check :=
  [(blank c.authToken,
      "admin.auth_token is empty — set ADMIN_TOKEN env var or APP__ADMIN__AUTH_TOKEN; " ++
        "the admin API must not run without a bearer token"),
    (!isSocketAddr c.bind, s!"admin.bind '{c.bind}' is not a valid socket address " ++
      "(expected IP:port, e.g. 0.0.0.0:9090 or [::]:9090)")]

def httpClientChecks (c : HttpClientConfig) : List Check :=
  [(c.connectTimeoutSecs == 0, "http_client.connect_timeout_secs must be > 0"),
    (blank c.userAgent, "http_client.user_agent must not be empty"),
    (!blank c.userAgent && (bytes c.userAgent).any isIllegalValueByte,
      "http_client.user_agent contains invalid characters " ++
        "(control characters and non-ASCII bytes are not allowed)")]

/-- Nothing is asked of a retention that is off. -/
def retentionChecks (c : RetentionConfig) : List Check :=
  if c.enabled then
    [(c.processedRetentionDays == 0, "retention.processed_retention_days must be >= 1"),
      (c.deadLetterRetentionDays == 0, "retention.dead_letter_retention_days must be >= 1"),
      (c.cleanupIntervalSecs < minRetentionCleanupSecs,
        s!"retention.cleanup_interval_secs must be >= {minRetentionCleanupSecs} (1 minute)"),
      (c.batchLimit == 0 || c.batchLimit > maxRetentionBatch,
        s!"retention.batch_limit must be between 1 and {maxRetentionBatch}")]
  else []

def observabilityChecks (c : ObservabilityConfig) : List Check :=
  [(!isSocketAddr c.metricsBind,
      s!"observability.metrics_bind '{c.metricsBind}' is not a valid socket address " ++
        "(expected IP:port, e.g. 0.0.0.0:9091 or [::]:9091)"),
    (c.statsSampleIntervalSecs < minStatsSampleIntervalSecs,
      s!"observability.stats_sample_interval_secs must be >= {minStatsSampleIntervalSecs} " ++
        "(sub-10s sampling re-introduces sustained DB load — see review F20)")]

namespace AppConfig

/-- All checks, in the order of the source. -/
def checks (c : AppConfig) : List Check :=
  databaseChecks c.database ++ dispatchChecks c.dispatch ++
    concurrencyChecks c.database c.dispatch ++
    [(blank c.logFilter, "log.filter must not be empty")] ++ adminChecks c.admin ++
    httpClientChecks c.httpClient ++ retentionChecks c.retention ++
      observabilityChecks c.observability

/-- `AppConfig::validate`: the messages of the checks that fail. -/
def validate (c : AppConfig) : Except (List String) Unit :=
  let errors := (c.checks.filter Prod.fst).map Prod.snd
  if errors.isEmpty then .ok () else .error errors

/-- **Acceptance.** No check fails. -/
theorem validate_eq_ok {c : AppConfig} : c.validate = .ok () ↔
    ∀ check ∈ c.checks, check.1 = false := by
  unfold validate
  dsimp only
  split_ifs with h
  · simpa [List.filter_eq_nil_iff] using h
  · simpa [List.filter_eq_nil_iff] using h

end AppConfig

/-! ### What acceptance says -/

/-- What the checks say about the settings of the dispatch loop, as numbers. -/
structure ValidSettings (s : DispatchSettings) : Prop where
  batchSize : 0 < s.batchSize.toInt
  scheduleBatchSize : 0 < s.scheduleBatchSize.toNat
  maxAttempts : 1 ≤ s.maxAttempts.toNat ∧ s.maxAttempts.toNat ≤ maxPerCallbackAttempts
  handlerTimeoutSecs : 1 ≤ s.handlerTimeoutSecs.toNat ∧
    s.handlerTimeoutSecs.toNat ≤ maxHandlerTimeoutSecs
  maxCompletionCycles :
    1 ≤ s.maxCompletionCycles.toNat ∧ s.maxCompletionCycles.toNat ≤ maxCompletionCyclesLimit
  backoffSecs : s.backoffSecs ≠ [] ∧
    ∀ n ∈ s.backoffSecs, 1 ≤ n.toNat ∧ n.toNat ≤ maxBackoffElementSecs
  maxCallbacksPerEvent : 1 ≤ s.maxCallbacksPerEvent.toNat
  dispatchConcurrency : 1 ≤ s.dispatchConcurrency.toNat

/-- A number that passes the check against zero, of any width. -/
theorem one_le_of_beq_zero {α : Type} [BEq α] [LawfulBEq α] [OfNat α 0] {toNat : α → ℕ} {n : α}
    (hinj : toNat n = 0 → n = 0) (h : (n == 0) = false) : 1 ≤ toNat n :=
  Nat.one_le_iff_ne_zero.mpr fun h0 => by simp [hinj h0] at h

theorem one_le_toNat {n : UInt64} (h : (n == 0) = false) : 1 ≤ n.toNat :=
  one_le_of_beq_zero (fun h0 => UInt64.toNat_inj.mp h0) h

theorem one_le_toNat32 {n : UInt32} (h : (n == 0) = false) : 1 ≤ n.toNat :=
  one_le_of_beq_zero (fun h0 => UInt32.toNat_inj.mp h0) h

theorem validSettings_of_checks {s : DispatchSettings}
    (h : ∀ check ∈ dispatchChecks s, check.1 = false) : ValidSettings s := by
  simp only [dispatchChecks, List.forall_mem_cons, decide_eq_false_iff_not] at h
  obtain ⟨-, hbatch, hsched, hatt, hatt', htime, htime', -, hcyc, hcyc', hne, hzero, hmax, -,
    -, -, -, hcb, -, hconc, -⟩ := h
  refine ⟨?_, one_le_toNat32 hsched, ⟨one_le_toNat32 hatt, Nat.not_lt.mp hatt'⟩,
    ⟨one_le_toNat htime, Nat.not_lt.mp htime'⟩, ⟨one_le_toNat32 hcyc, Nat.not_lt.mp hcyc'⟩,
    ⟨by simpa using hne, fun n hn => ⟨?_, ?_⟩⟩, one_le_toNat32 hcb, one_le_toNat hconc⟩
  · have hlt := Int64.not_le.mp hbatch
    exact Int64.lt_iff_toInt_lt.mp hlt
  · refine one_le_toNat ?_
    rw [beq_eq_false_iff_ne]
    rintro rfl
    simp [hn] at hzero
  · have hle := List.any_eq_false.mp hmax n hn
    simpa using hle

section

variable {c : AppConfig}

theorem validSettings_of_validate (h : c.validate = .ok ()) : ValidSettings c.dispatch := by
  refine validSettings_of_checks fun check hc => AppConfig.validate_eq_ok.mp h check ?_
  simp [AppConfig.checks, hc]

/-- **The defaults of a callback** are within the limits of the parser. -/
theorem validConfig_of_validate (h : c.validate = .ok ()) : ValidConfig c.dispatch.toConfig := by
  have hs := validSettings_of_validate h
  refine ⟨hs.maxAttempts, hs.maxCompletionCycles, ?_, fun d hd => ?_⟩
  · simpa [DispatchSettings.toConfig] using hs.backoffSecs.1
  · obtain ⟨n, hn, rfl⟩ := List.mem_map.mp hd
    exact ⟨n.toNat, rfl, hs.backoffSecs.2 n hn⟩

end

/-! ### A configuration -/

/-- The settings the source has for its defaults, and a database. -/
def sampleApp : AppConfig where
  database := { url := "postgres://localhost/db", maxConnections := 20 }
  dispatch :=
    { pollIntervalSecs := 5, batchSize := 50, maxAttempts := 6,
      backoffSecs := [30, 120, 600, 3600, 21600, 86400], handlerTimeoutSecs := 30,
      lockBufferSecs := 10, externalTimeoutSweepIntervalSecs := 60, maxCompletionCycles := 20,
      payloadSizeLimitBytes := 1048576, notifyChannel := "outbox_events_new" }
  logFilter := "info"
  admin := { authToken := "token" }

theorem validate_sampleApp : sampleApp.validate = .ok () := by decide +kernel

end OutboxDispatcher.Config
