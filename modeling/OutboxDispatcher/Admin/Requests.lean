import OutboxDispatcher.Admin
import OutboxDispatcher.Admin.Auth
import OutboxDispatcher.Dispatch.Identity
import OutboxDispatcher.Lib.Handlers
import OutboxDispatcher.Observability
import OutboxDispatcher.System.Phases

/-! # Requests to the admin API

A handler of the admin API is a few statements without a transaction around them: `retry_delivery`
asks whether the row exists when its update has found none that it may reset, the view of an event
reads the event and then its deliveries, and the statistics are three queries. Meanwhile the
dispatchers, the other workers and the other requests go on. Handlers here are those of
`Lib/Handlers`, on the state of the system in which sweeps and deletions have two phases.

A request is a run of the system (`run_of_handle`), so what is proved of the system's runs holds
with the API. And almost always it could have been served at one moment, though it was not
(`requests_linearizable`). The exceptions are: a row inserted between the two statements of a retry
is reported as locked; an event deleted between the two queries of its view is shown without
deliveries; and the three parts of the statistics are of three moments.

The probe `/ready` is in `Replicas/Readiness`. -/

namespace OutboxDispatcher.Admin.Requests

open OutboxDispatcher.Lib.Floats OutboxDispatcher.Lib.Handlers OutboxDispatcher.Lib.Runs
open OutboxDispatcher.Lib.Tables OutboxDispatcher.Lib.Text OutboxDispatcher.Schema
open OutboxDispatcher.Callbacks.Fields OutboxDispatcher.Repo.Database
  OutboxDispatcher.Repo.Database.Db
open OutboxDispatcher.Repo.Statements OutboxDispatcher.Scheduler.Pass OutboxDispatcher.Dispatch
open OutboxDispatcher.Dispatch.Identity OutboxDispatcher.System OutboxDispatcher.System.Effects
open OutboxDispatcher.System.History OutboxDispatcher.System.Rows OutboxDispatcher.System.Phases
open OutboxDispatcher.Observability OutboxDispatcher.Admin.Auth

/-! ### Answers -/

structure EventWithDeliveries where
  event : RawEvent
  deliveries : List DeliveryRow

inductive Body
  | text (t : String)
  | mutation (ok : Bool)
  | deadLetters (page : ListResponse DeadLetterRow)
  | externalPending (page : ListResponse ExternalPendingRow)
  | event (detail : EventWithDeliveries)
  | stats (stats : Stats)

structure Response where
  status : ℕ := 200
  wwwAuthenticate : Option String := none
  body : Body

/-- The response; none when the handler panics. -/
abbrev Reply := Option Response

def internalError : Reply := some { status := 500, body := .text "internal server error" }

def unauthorized : Reply := some
  { status := 401, wwwAuthenticate := some "Bearer realm=\"outbox-dispatcher\"",
    body := .text "Unauthorized" }

def notFound (what : String) : Reply := some { status := 404, body := .text what }

def conflict : Reply := some
  { status := 409,
    body := .text "delivery is currently locked by a dispatcher; retry again shortly" }

/-- `Json(..)` with the status 200. -/
def json (body : Body) : Reply := some { body }

/-! ### The handlers -/

def retried (d : ℤ) (s : Phased) : Phased :=
  { s with base := { s.base with
      db := Stmt.retryDelivery.exec s.base.db s.base.now d
      trace := (if Stmt.retryDelivery.affects s.base.db s.base.now d then [.retryReset d]
        else []) ++ s.base.trace } }

def executed (c : Stmt) (d : ℤ) (s : Phased) : Phased :=
  { s with base := { s.base with db := c.exec s.base.db s.base.now d } }

def deliveriesOf (db : Db) (u : Uuid) : List DeliveryRow :=
  orderBy (fun a b => a.id ≤ b.id) (db.deliveries.rows.filter (·.eventId = u))

def query (answer : Sys → Reply) : Handler Phased Reply :=
  .stmt internalError id fun s => .answer (answer s.base)

def listDeadLetters (q : DeadLettersQuery) : Handler Phased Reply :=
  query fun s =>
    (Admin.listDeadLetters s.db q).elim internalError fun page => json (.deadLetters page)

/-- A duration that is none makes the handler panic before its query. -/
def listExternalPending (q : ExternalPendingQuery) : Handler Phased Reply :=
  if (q.olderThanSecs.mapM durationFromSecs).isNone then .answer none
  else query fun s =>
    (Admin.listExternalPending s.db s.now q).elim internalError fun page =>
      json (.externalPending page)

/-- The event with its JSON columns as they are held. -/
def shown [Crates] (e : RawEvent) : RawEvent :=
  { e with payload := held e.payload, metadata := held e.metadata, callbacks := held e.callbacks }

/-- An event whose JSON columns cannot be read fails the first query. -/
def getEvent [Crates] (u : Uuid) : Handler Phased Reply :=
  .stmt internalError id fun s =>
    match s.base.db.event? u with
    | none => .answer (notFound "event not found")
    | some event =>
      if decodes event then
        query fun s => json (.event { event := shown event, deliveries := deliveriesOf s.db u })
      else .answer internalError

def retryDelivery (d : ℤ) : Handler Phased Reply :=
  .stmt internalError (retried d) fun s =>
    if Stmt.retryDelivery.affects s.base.db s.base.now d then .answer (json (.mutation true))
    else query fun s =>
      if (s.db.deliveries.get d).isSome then conflict else notFound "delivery not found"

/-- A statement on one row: it has found it or not. -/
def mutate (c : Stmt) (d : ℤ) : Handler Phased Reply :=
  .stmt internalError (executed c d) fun s =>
    .answer (if c.affects s.base.db s.base.now d then json (.mutation true)
      else notFound "delivery not found")

def completeDelivery (d : ℤ) : Handler Phased Reply := mutate .completeDelivery d

def abandonDelivery (d : ℤ) : Handler Phased Reply := mutate .abandonDelivery d

/-- The age of the oldest pending delivery is by the clock of the second query. -/
def getStats : Handler Phased Reply :=
  .stmt internalError id fun counted => .stmt internalError id fun totalled => query fun grouped =>
    json (.stats (fetchStats counted.base.db totalled.base.db grouped.db totalled.base.now))

inductive Endpoint
  | health
  | deadLetters (q : DeadLettersQuery)
  | externalPending (q : ExternalPendingQuery)
  | event (u : Uuid)
  | retry (d : ℤ)
  | complete (d : ℤ)
  | abandon (d : ℤ)
  | stats

def Endpoint.handler [Crates] : Endpoint → Handler Phased Reply
  | .health => .answer (json (.text "ok"))
  | .deadLetters q => listDeadLetters q
  | .externalPending q => listExternalPending q
  | .event u => getEvent u
  | .retry d => retryDelivery d
  | .complete d => completeDelivery d
  | .abandon d => abandonDelivery d
  | .stats => getStats

def Endpoint.isPublic : Endpoint → Bool
  | .health => true
  | _ => false

/-- The router: a request to an endpoint, with the value of its header `Authorization`. -/
def handle [Crates] (expected : String) (authorization : Option (List UInt8))
    (endpoint : Endpoint) : Handler Phased Reply :=
  if endpoint.isPublic || authorised expected authorization then endpoint.handler
  else .answer unauthorized

/-! ### A request is a run of the system -/

section

variable [Crates] {config : DispatchConfig} {s s' : Phased}

theorem step_retry (s : Phased) (d : ℤ) :
    phasedStep config s (.base (.retry d)) = some (retried d s) := by
  have hreset : (Repo.Statements.retryDelivery s.base.db s.base.now d).2 = .reset ↔
      Stmt.retryDelivery.affects s.base.db s.base.now d := by
    unfold Repo.Statements.retryDelivery
    dsimp only
    split_ifs with h1 h2 <;> simp [h1]
  simp only [phasedStep, inPhases, step, hreset]
  rfl

theorem lawful_query (answer : Sys → Reply) : (query answer).Lawful (phasedStep config) :=
  ⟨fun _ => .inl rfl, fun _ => trivial⟩

theorem lawful_handler (endpoint : Endpoint) : endpoint.handler.Lawful (phasedStep config) := by
  cases endpoint with
  | health => trivial
  | deadLetters q => exact ⟨fun _ => .inl rfl, fun _ => trivial⟩
  | externalPending q =>
    show (listExternalPending q).Lawful (phasedStep config)
    unfold listExternalPending
    split_ifs
    · trivial
    · exact lawful_query _
  | event u =>
    refine ⟨fun _ => .inl rfl, fun s => ?_⟩
    dsimp only
    cases s.base.db.event? u with
    | none => trivial
    | some e =>
      dsimp only
      split_ifs
      · exact lawful_query _
      · trivial
  | retry d =>
    refine ⟨fun s => .inr ⟨.base (.retry d), step_retry s d⟩, fun s => ?_⟩
    dsimp only
    split_ifs
    · trivial
    · exact lawful_query _
  | complete d => exact ⟨fun s => .inr ⟨.base (.complete d), rfl⟩, fun _ => trivial⟩
  | abandon d => exact ⟨fun s => .inr ⟨.base (.abandon d), rfl⟩, fun _ => trivial⟩
  | stats => exact ⟨fun _ => .inl rfl, fun _ => ⟨fun _ => .inl rfl, fun _ => lawful_query _⟩⟩

theorem lawful_handle (expected : String) (authorization : Option (List UInt8))
    (endpoint : Endpoint) :
    (handle expected authorization endpoint).Lawful (phasedStep config) := by
  unfold handle
  split_ifs
  · exact lawful_handler endpoint
  · trivial

/-- **A request is a run of the system.** -/
theorem run_of_handle {expected : String} {authorization : Option (List UInt8)}
    {endpoint : Endpoint}
    {r : Reply} (h : Served (phasedStep config) (handle expected authorization endpoint) s r s') :
    Run (phasedStep config) anyStep s s' :=
  run_of_served (lawful_handle expected authorization endpoint) h

/-- A query sees a moment between request and answer, or fails without a trace. -/
theorem served_query {answer : Sys → Reply} {r : Reply}
    (h : Served (phasedStep config) (query answer) s r s') :
    (∃ x, Run (phasedStep config) anyStep s x ∧ r = answer x.base ∧
      Run (phasedStep config) anyStep x s') ∨
      r = internalError ∧ Run (phasedStep config) anyStep s s' := by
  obtain ⟨x, hx, hnext | ⟨rfl, rfl | rfl⟩⟩ := served_stmt h
  · obtain ⟨rfl, hx'⟩ := served_answer hnext
    exact .inl ⟨x, hx, rfl, hx'⟩
  · exact .inr ⟨rfl, hx⟩
  · exact .inr ⟨rfl, hx⟩

/-! ### Retry -/

omit [Crates] in
theorem retried_eq_self {d : ℤ} (h : ¬Stmt.retryDelivery.affects s.base.db s.base.now d) :
    retried d s = s := by
  unfold retried
  rw [Stmt.exec_eq_self _ h, if_neg h]
  rfl

omit [Crates] in
theorem run_retryDelivery (d : ℤ) (s : Phased) : (retryDelivery d).run s = (retried d s,
    if Stmt.retryDelivery.affects s.base.db s.base.now d then json (.mutation true)
    else if (s.base.db.deliveries.get d).isSome then conflict
    else notFound "delivery not found") := by
  unfold retryDelivery
  rw [Handler.run]
  split_ifs with ha hr <;> simp [Handler.run, query, retried_eq_self, *]

theorem gone_of_run {d : ℤ} (hg : Gone s.base d) (h : Run (phasedStep config) anyStep s s') :
    Gone s'.base d := by
  refine h.invariant (fun s => Gone s.base d) hg fun x a x' hi hs _ => ?_
  rcases base_cases (phasedStep_cases hs) with ⟨-, hsame⟩ | ⟨b, -, hstep⟩ | ⟨p, u, -, -, hbase⟩
  · rwa [hsame]
  · exact gone_step hi hstep
  · rw [hbase]
    exact gone_apply hi _ u

theorem deliverySeq_le_of_run (h : Run (phasedStep config) anyStep s s') :
    s.base.db.deliverySeq ≤ s'.base.db.deliverySeq :=
  h.invariant (s.base.db.deliverySeq ≤ ·.base.db.deliverySeq) le_rfl fun _ _ _ hi hs _ =>
    hi.trans (phasedStep_cases hs).deliverySeq_le

/-- The answer that the row is locked is true of the moment of the update, unless the row came after
it. -/
theorem linear_retry {d : ℤ} {r : Reply} (h : Served (phasedStep config) (retryDelivery d) s r s') :
    Linear (phasedStep config) internalError (retryDelivery d) s r s' ∨
      r = conflict ∧ s.base.db.deliverySeq ≤ d ∧ d < s'.base.db.deliverySeq := by
  obtain ⟨x, hx, hnext | ⟨rfl, rfl | rfl⟩⟩ := served_stmt h
  · by_cases ha : Stmt.retryDelivery.affects x.base.db x.base.now d
    · rw [if_pos ha] at hnext
      obtain ⟨rfl, hx'⟩ := served_answer hnext
      exact .inl (.inl ⟨x, hx, by rw [run_retryDelivery, if_pos ha],
        by rw [run_retryDelivery]; exact hx'⟩)
    · rw [if_neg ha, retried_eq_self ha] at hnext
      obtain ⟨y, hxy, rfl, hy'⟩ | ⟨rfl, hx'⟩ := served_query hnext
      · by_cases hy : (y.base.db.deliveries.get d).isSome
        · by_cases hsome : (x.base.db.deliveries.get d).isSome
          · -- it was locked when the update was made
            refine .inl (.inl ⟨x, hx, ?_, ?_⟩) <;> rw [run_retryDelivery]
            · rw [if_neg ha, if_pos hsome, if_pos hy]
            · rw [retried_eq_self ha]
              exact hxy.trans hy'
          · have hnone : x.base.db.deliveries.get d = none := by simpa using hsome
            refine .inr ⟨if_pos hy, (deliverySeq_le_of_run hx).trans (not_lt.mp fun hlt => ?_), ?_⟩
            · rw [(gone_of_run ⟨hlt, hnone⟩ hxy).deleted] at hy
              cases hy
            · obtain ⟨row, hrow⟩ := Option.isSome_iff_exists.mp hy
              obtain ⟨hm, hid⟩ := Table.get_eq_some_iff.mp hrow
              exact lt_of_lt_of_le (hid ▸ y.base.db.seq_fresh row hm) (deliverySeq_le_of_run hy')
        · -- it is not there when the second query is made
          have hya : ¬Stmt.retryDelivery.affects y.base.db y.base.now d := fun hc => by
            obtain ⟨row, hrow, -⟩ := (Stmt.affects_iff _).mp hc
            rw [hrow] at hy
            exact hy rfl
          refine .inl (.inl ⟨y, hx.trans hxy, ?_, ?_⟩) <;> rw [run_retryDelivery]
          · rw [if_neg hya]
          · rw [retried_eq_self hya]
            exact hy'
      · exact .inl (.inr ⟨rfl, .inl (hx.trans hx')⟩)
  · exact .inl (.inr ⟨rfl, .inl hx⟩)
  · exact .inl (.inr ⟨rfl, .inr ⟨x, hx, by rw [run_retryDelivery]; exact .refl⟩⟩)

/-! ### The view of an event -/

/-- An event that is deleted does not come back. -/
theorem deleted_step {a : PhasedAction} {e : RawEvent} (hi : EventsWF s.base)
    (hc : e ∈ s.base.committed) (hn : e ∉ s.base.db.events.rows) (h : PhasedStep config s a s') :
    e ∉ s'.base.db.events.rows := by
  rcases base_cases h with ⟨-, hsame⟩ | ⟨b, -, hstep⟩ | ⟨p, u, -, -, hbase⟩
  · rwa [hsame]
  · intro he
    rcases mem_events_step hstep he with he | ⟨-, hun, -⟩
    · exact hn he
    · have hnd := hi.ids_nodup
      rw [List.map_append, List.nodup_append] at hnd
      exact hnd.2.2 _ (List.mem_map_of_mem hc) _ (List.mem_map_of_mem hun) rfl
  · rw [hbase]
    exact hn

theorem committed_of_run {e : RawEvent} (h : Run (phasedStep config) anyStep s s')
    (he : e ∈ s.base.committed) : e ∈ s'.base.committed :=
  h.invariant (e ∈ ·.base.committed) he fun _ _ _ hi hs _ =>
  (phasedStep_cases hs).committed_subset hi

theorem event?_of_gone {u : Uuid} {e : RawEvent} (hw : PhasedWF config s)
    (he : e ∈ s.base.committed) (hu : e.eventId = u) (hgone : s.base.db.event? u = none)
    (h : Run (phasedStep config) anyStep s s') : s'.base.db.event? u = none := by
  have hinv := h.invariant (fun z => PhasedWF config z ∧ e ∈ z.base.committed ∧
    e ∉ z.base.db.events.rows)
    ⟨hw, he, fun hm => List.find?_eq_none.mp hgone e hm (by simpa using hu)⟩
    fun _ _ _ hi hs _ => ⟨phasedWF_step hi.1 (phasedStep_cases hs),
      (phasedStep_cases hs).committed_subset hi.2.1,
      deleted_step hi.1.wf.events hi.2.1 hi.2.2 (phasedStep_cases hs)⟩
  refine Option.eq_none_iff_forall_ne_some.mpr fun e' he' => ?_
  obtain ⟨hvis, hu'⟩ := event?_eq_some.mp he'
  have hev := hinv.1.wf.events
  rw [hev.eq_of_eventId (hev.visible e' hvis) hinv.2.1 (hu'.trans hu.symm)] at hvis
  exact hinv.2.2 hvis

/-- What is committed under a UUID stays what it is, visible or not. -/
theorem event?_of_run {u : Uuid} {e : RawEvent} (hw : PhasedWF config s)
    (he : s.base.db.event? u = some e) (h : Run (phasedStep config) anyStep s s') :
    s'.base.db.event? u = some e ∨ s'.base.db.event? u = none := by
  obtain ⟨hvis, hu⟩ := event?_eq_some.mp he
  have he' := committed_of_run h (hw.wf.events.visible e hvis)
  have hev := (phasedWF_of_run hw h).wf.events
  rcases hs' : s'.base.db.event? u with _ | e'
  · exact .inr rfl
  · obtain ⟨hvis', hu'⟩ := event?_eq_some.mp hs'
    exact .inl (congrArg some (hev.eq_of_eventId (hev.visible e' hvis') he' (hu'.trans hu.symm)))

theorem run_getEvent (u : Uuid) (s : Phased) : (getEvent u).run s = (s,
    (s.base.db.event? u).elim (notFound "event not found") fun event =>
      if decodes event then
        json (.event { event := shown event, deliveries := deliveriesOf s.base.db u })
      else internalError) := by
  unfold getEvent
  rw [Handler.run]
  rcases s.base.db.event? u with _ | e
  · rfl
  · dsimp only [Option.elim_some]
    split_ifs <;> rfl

omit [Crates] in
theorem deliveriesOf_eq_nil {db : Db} {u : Uuid} (h : db.event? u = none) :
    deliveriesOf db u = [] := by
  refine List.eq_nil_iff_forall_not_mem.mpr fun r hr => ?_
  obtain ⟨hr, hu⟩ := List.mem_filter.mp (mem_orderBy.mp hr)
  obtain ⟨e, he, hk⟩ := db.references r hr
  have hne := List.find?_eq_none.mp h e he
  exact hne (by simpa using hk.trans (of_decide_eq_true hu))

/-- The view is of the moment of its second query, unless the event was gone by then. -/
theorem linear_event {u : Uuid} {r : Reply} (hw : PhasedWF config s)
    (h : Served (phasedStep config) (getEvent u) s r s') :
    Linear (phasedStep config) internalError (getEvent u) s r s' ∨
      ∃ event x, Run (phasedStep config) anyStep s x ∧ x.base.db.event? u = some event ∧
        s'.base.db.event? u = none ∧
        r = json (.event { event := shown event, deliveries := [] }) := by
  obtain ⟨x, hx, hnext | ⟨rfl, rfl | rfl⟩⟩ := served_stmt h
  · rcases he : x.base.db.event? u with _ | e
    · rw [he] at hnext
      obtain ⟨rfl, hx'⟩ := served_answer hnext
      exact .inl (.inl ⟨x, hx, by rw [run_getEvent, he]; rfl, by rw [run_getEvent]; exact hx'⟩)
    · simp only [he] at hnext
      split_ifs at hnext with hdec
      · obtain ⟨y, hxy, rfl, hy'⟩ | ⟨rfl, hx'⟩ := served_query hnext
        · have hxy : Run (phasedStep config) anyStep x y := hxy
          have hwx : PhasedWF config x := phasedWF_of_run hw hx
          rcases event?_of_run hwx he hxy with hey | hey
          · refine .inl (.inl ⟨y, hx.trans hxy, ?_, by rw [run_getEvent]; exact hy'⟩)
            rw [run_getEvent, hey, Option.elim_some, if_pos hdec]
          · obtain ⟨hvis, hu⟩ := event?_eq_some.mp he
            have hcom := committed_of_run hxy (hwx.wf.events.visible e hvis)
            have hgone := event?_of_gone (phasedWF_of_run hwx hxy) hcom hu hey hy'
            exact .inr ⟨e, x, hx, he, hgone, by rw [deliveriesOf_eq_nil hey]⟩
        · exact .inl (.inr ⟨rfl, .inl (hx.trans hx')⟩)
      · obtain ⟨rfl, hx'⟩ := served_answer hnext
        exact .inl (.inr ⟨rfl, .inl (hx.trans hx')⟩)
  · exact .inl (.inr ⟨rfl, .inl hx⟩)
  · exact .inl (.inr ⟨rfl, .inl hx⟩)

/-! ### All of them -/

inductive Anomaly (config : DispatchConfig) (s s' : Phased) : Endpoint → Reply → Prop
  /-- The row has been inserted between the two statements. -/
  | lateRow (d : ℤ) (hs : s.base.db.deliverySeq ≤ d) (hs' : d < s'.base.db.deliverySeq) :
      Anomaly config s s' (.retry d) conflict
  /-- The event has been deleted between the two queries. -/
  | deletedEvent (u : Uuid) (event : RawEvent) (x : Phased)
      (hx : Run (phasedStep config) anyStep s x)
      (he : x.base.db.event? u = some event) (hgone : s'.base.db.event? u = none) :
      Anomaly config s s' (.event u) (json (.event { event := shown event, deliveries := [] }))
  /-- The three queries are of three moments, one after the other. -/
  | stats (counted totalled grouped : Phased) (hc : Run (phasedStep config) anyStep s counted)
      (ht : Run (phasedStep config) anyStep counted totalled)
      (hg : Run (phasedStep config) anyStep totalled grouped)
      (hs' : Run (phasedStep config) anyStep grouped s') : Anomaly config s s' .stats
        (json (.stats (fetchStats counted.base.db totalled.base.db grouped.base.db
          totalled.base.now)))

theorem stats_of_served {r : Reply} (h : Served (phasedStep config) getStats s r s') :
    Linear (phasedStep config) internalError getStats s r s' ∨ Anomaly config s s' .stats r := by
  obtain ⟨x, hx, hnext | ⟨rfl, rfl | rfl⟩⟩ := served_stmt h
  · obtain ⟨y, hxy, hnext | ⟨rfl, rfl | rfl⟩⟩ := served_stmt hnext
    · obtain ⟨z, hyz, rfl, hz'⟩ | ⟨rfl, hy'⟩ := served_query hnext
      · exact .inr (.stats x y z hx hxy hyz hz')
      · exact .inl (.inr ⟨rfl, .inl (hx.trans (hxy.trans hy'))⟩)
    · exact .inl (.inr ⟨rfl, .inl (hx.trans hxy)⟩)
    · exact .inl (.inr ⟨rfl, .inl (hx.trans hxy)⟩)
  · exact .inl (.inr ⟨rfl, .inl hx⟩)
  · exact .inl (.inr ⟨rfl, .inl hx⟩)

theorem linear_handler {endpoint : Endpoint} {r : Reply} (hw : PhasedWF config s)
    (h : Served (phasedStep config) endpoint.handler s r s') :
    Linear (phasedStep config) internalError endpoint.handler s r s' ∨
    Anomaly config s s' endpoint r := by
  cases endpoint with
  | health => exact .inl (linear_of_answer h)
  | deadLetters q => exact .inl (linear_of_single h)
  | externalPending q =>
    refine .inl ?_
    show Linear (phasedStep config) internalError (listExternalPending q) s r s'
    have h : Served (phasedStep config) (listExternalPending q) s r s' := h
    unfold listExternalPending at h ⊢
    split_ifs at h ⊢
    · exact linear_of_answer h
    · exact linear_of_single h
  | event u =>
    rcases linear_event hw h with hl | ⟨event, x, hx, he, hgone, rfl⟩
    · exact .inl hl
    · exact .inr (.deletedEvent u event x hx he hgone)
  | retry d =>
    rcases linear_retry h with hl | ⟨rfl, hs, hs'⟩
    · exact .inl hl
    · exact .inr (.lateRow d hs hs')
  | complete d => exact .inl (linear_of_single h)
  | abandon d => exact .inl (linear_of_single h)
  | stats => exact stats_of_served h

/-- **Requests are served at one moment.** Whatever the dispatchers, the workers, the publishers and
other requests do while a request is served, and whether or not a statement of it fails: all that
happens is a run of the system, and its answer and its effect are those of the handler run at once
at some moment between request and answer; or it has failed, and done nothing or all that it does;
or it is one of the three exceptions. -/
theorem requests_linearizable {now : Time} {scheds : ℕ → Sched} (hq : Quiet scheds)
    (h0 : Run (phasedStep config) anyStep (start now scheds) s) {expected : String}
    {authorization : Option (List UInt8)} {endpoint : Endpoint} {r : Reply}
    (h : Served (phasedStep config) (handle expected authorization endpoint) s r s') :
    Run (phasedStep config) anyStep s s' ∧
      (Linear (phasedStep config) internalError (handle expected authorization endpoint) s r s' ∨
        Anomaly config s s' endpoint r) := by
  refine ⟨run_of_handle h, ?_⟩
  unfold handle at h ⊢
  split_ifs at h ⊢
  · exact linear_handler (phasedWF_of_run (phasedWF_start now hq) h0) h
  · exact .inl (linear_of_answer h)

/-- **The token is required.** A request to any endpoint but the public ones is served by its
handler only if its header is the scheme, a space and the token, byte for byte, and the token is
visible ASCII, spaces and tabs. Every other request is answered 401 and makes no statement: what
happens meanwhile are steps of others. -/
theorem token_required {expected : String} {authorization : Option (List UInt8)}
    {endpoint : Endpoint} {r : Reply} (hp : endpoint.isPublic = false)
    (h : Served (phasedStep config) (handle expected authorization endpoint) s r s') :
    (∀ b ∈ bytes expected, isVisibleAscii b) ∧
        (∃ scheme, IsBearer scheme ∧ authorization = some (scheme ++ 32 :: bytes expected)) ∧
        Served (phasedStep config) endpoint.handler s r s' ∨
      r = unauthorized ∧ handle expected authorization endpoint = .answer unauthorized ∧
        Run (phasedStep config) anyStep s s' := by
  by_cases ha : authorised expected authorization
  · obtain ⟨hvis, hscheme⟩ := (authorised_iff expected authorization).mp ha
    unfold handle at h
    rw [if_pos (by simp [ha])] at h
    exact .inl ⟨hvis, hscheme, h⟩
  · have hh : handle expected authorization endpoint = .answer unauthorized :=
      if_neg (by simp [hp, ha])
    rw [hh] at h
    obtain ⟨rfl, hrun⟩ := served_answer h
    exact .inr ⟨rfl, hh, hrun⟩

end

/-- An event is being scheduled, and its row is not inserted yet. -/
def scheduling : List PhasedAction :=
  [.base (.publish (sampleEvent 1 [sampleCallback "hook_a" []])), .base (.commit 1),
    .base (.sched 0 .poll)]

def retryFirst (authorization : String) : Handler Phased Reply :=
  @handle sampleCrates "t0ken" (some (bytes authorization)) (.retry 1)

/-- An operator asks for a retry of the row that comes next: the update does not find it, the query
does. -/
theorem served_lateRow :
    ∃ s s', Run (@phasedStep sampleCrates {}) anyStep (start 0 oneScheduler) s ∧
      Served (@phasedStep sampleCrates {}) (retryFirst "bearer t0ken") s conflict s' := by
  obtain ⟨s, hrun, ha, hsome⟩ :
      ∃ s, Run (@phasedStep sampleCrates {}) anyStep (start 0 oneScheduler) s ∧
        ¬Stmt.retryDelivery.affects s.base.db s.base.now 1 ∧
        ((@phasedStep sampleCrates {} s (.base (.sched 0 (.write .ok)))).bind fun s' =>
          s'.base.db.deliveries.get 1).isSome := Run.exists_of_exec scheduling (by decide +kernel)
  obtain ⟨r, hr⟩ := Option.isSome_iff_exists.mp hsome
  obtain ⟨s', hs', hr⟩ := Option.bind_eq_some_iff.mp hr
  refine ⟨s, s', hrun, ?_⟩
  unfold retryFirst handle
  rw [if_pos (by decide +kernel)]
  refine .stmt ?_
  rw [if_neg ha, retried_eq_self ha]
  refine .others hs' (.stmt ?_)
  have hans : (if (s'.base.db.deliveries.get 1).isSome then conflict
      else notFound "delivery not found") = conflict := by
    rw [hr]
    rfl
  dsimp only
  rw [hans]
  exact .answer conflict s'

theorem requests_linearizable_lateRow :
    ∃ s s', Run (@phasedStep sampleCrates {}) anyStep (start 0 oneScheduler) s ∧
      Served (@phasedStep sampleCrates {}) (retryFirst "bearer t0ken") s conflict s' ∧
      (Linear (@phasedStep sampleCrates {}) internalError (retryFirst "bearer t0ken") s conflict
        s' ∨ @Anomaly sampleCrates {} s s' (.retry 1) conflict) := by
  obtain ⟨s, s', hrun, h⟩ := served_lateRow
  exact ⟨s, s', hrun, h,
    (@requests_linearizable sampleCrates {} s s' 0 _ quiet_oneScheduler hrun _ _ _ _ h).2⟩

/-- Without a space after it, the scheme is no scheme. -/
theorem token_required_noSpace :
    ∃ r, Served (@phasedStep sampleCrates {}) (retryFirst "bearert0ken") (start 0 oneScheduler) r
        (start 0 oneScheduler) ∧
      r = unauthorized ∧ retryFirst "bearert0ken" = .answer unauthorized := by
  have hserved : Served (@phasedStep sampleCrates {}) (retryFirst "bearert0ken")
      (start 0 oneScheduler) unauthorized (start 0 oneScheduler) := by
    unfold retryFirst handle
    rw [if_neg (by decide +kernel)]
    exact .answer unauthorized _
  refine ⟨unauthorized, hserved, ?_⟩
  rcases @token_required sampleCrates {} _ _ "t0ken" (some (bytes "bearert0ken")) (.retry 1) _ rfl
    hserved with ⟨-, ⟨scheme, -, heq⟩, -⟩ | ⟨hr, hh, -⟩
  · have hspace : (32 : UInt8) ∈ bytes "bearert0ken" := by
      rw [Option.some.inj heq]
      simp
    exact absurd hspace (by decide +kernel)
  · exact ⟨hr, hh⟩

end OutboxDispatcher.Admin.Requests
