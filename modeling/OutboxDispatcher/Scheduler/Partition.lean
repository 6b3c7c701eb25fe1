import OutboxDispatcher.Scheduler.Pass

/-! # One entry and one key for each element

`parse_callbacks` gives a verdict on every element of the array, in order: the targets among the
verdicts are `valid`, the rejections `invalid`. An element gets a target iff it is accepted and no
accepted element before it has its name. The key of the verdict on an element is what
`extract_callback_names` says, so all three paths of the scheduler ask for the same row keys.

* `getElem?_verdicts`: the verdict on the element at a position.
* `parse_partitions`: the whole of it. -/

namespace OutboxDispatcher.Scheduler.Partition

open OutboxDispatcher.Lib.Checks OutboxDispatcher.Lib.JsonValue OutboxDispatcher.Schema
open OutboxDispatcher.Callbacks.Fields OutboxDispatcher.Callbacks.Parse
open OutboxDispatcher.Repo.Database OutboxDispatcher.Repo.Statements OutboxDispatcher.Scheduler.Pass

section

variable [Crates] {config : DispatchConfig}

/-! ### The verdict at a position -/

/-- The names of the targets, after the verdicts on `l`. -/
def seenThrough (config : DispatchConfig) (seen : List String) (l : List (Json × ℕ)) :
    List String :=
  l.foldl (fun seen p => seenAfter seen (verdict config seen p.1 p.2)) seen

theorem mem_seenAfter {seen : List String} {v : Json} {i : ℕ} {n : String} :
    n ∈ seenAfter seen (verdict config seen v i) ↔
      n ∈ seen ∨ ∃ t, accept config v = some t ∧ t.name = n := by
  simp only [accept_eq_some i]
  unfold verdict
  cases parseOneCallback v i config with
  | error r => simp [seenAfter]
  | ok t =>
    by_cases hs : t.name ∈ seen
    · simp only [hs, if_true, seenAfter, Except.ok.injEq, exists_eq_left']
      exact ⟨.inl, fun h => h.elim id fun heq => heq ▸ hs⟩
    · simp only [hs, if_false, seenAfter, List.mem_cons, Except.ok.injEq, exists_eq_left']
      rw [or_comm, eq_comm]

theorem mem_seenThrough {n : String} (seen : List String) (l : List (Json × ℕ)) :
    n ∈ seenThrough config seen l ↔
      n ∈ seen ∨ ∃ p ∈ l, ∃ t, accept config p.1 = some t ∧ t.name = n := by
  induction l generalizing seen with
  | nil => simp [seenThrough]
  | cons p l ih =>
    have hcons : seenThrough config seen (p :: l) =
        seenThrough config (seenAfter seen (verdict config seen p.1 p.2)) l := rfl
    rw [hcons, ih, mem_seenAfter, or_assoc]
    simp only [List.exists_mem_cons_iff]

/-- The verdict on the element at a position rests on the elements before it. -/
theorem getElem?_verdicts (seen : List String) (l : List (Json × ℕ)) (i : ℕ) :
    (verdicts config seen l)[i]? =
      l[i]?.map fun p => verdict config (seenThrough config seen (l.take i)) p.1 p.2 := by
  induction l generalizing seen i with
  | nil => rfl
  | cons p l ih =>
    cases i with
    | zero => rfl
    | succ i =>
      rw [verdicts, List.getElem?_cons_succ, ih]
      rfl

theorem verdict_eq_inl {seen : List String} {v : Json} {i : ℕ} {t : CallbackTarget} :
    verdict config seen v i = .inl t ↔ parseOneCallback v i config = .ok t ∧ t.name ∉ seen := by
  unfold verdict
  cases parseOneCallback v i config with
  | error r => simp
  | ok t' =>
    by_cases hs : t'.name ∈ seen
    · simp only [hs, if_true, reduceCtorEq, Except.ok.injEq, false_iff, not_and, not_not]
      rintro rfl
      exact hs
    · simp only [hs, if_false, Sum.inl.injEq, Except.ok.injEq]
      constructor
      · rintro rfl
        exact ⟨rfl, hs⟩
      · exact And.left

theorem nodup_names (seen : List String) (l : List (Json × ℕ)) :
    (((verdicts config seen l).filterMap Sum.getLeft?).map (·.name)).Nodup ∧
      ∀ n ∈ ((verdicts config seen l).filterMap Sum.getLeft?).map (·.name), n ∉ seen := by
  induction l generalizing seen with
  | nil => simp [verdicts]
  | cons p l ih =>
    rw [verdicts]
    cases hx : verdict config seen p.1 p.2 with
    | inr r => simpa [seenAfter, List.filterMap_cons] using ih seen
    | inl t =>
      obtain ⟨hnodup, hnew⟩ := ih (t.name :: seen)
      have hs : t.name ∉ seen := (verdict_eq_inl.mp hx).2
      simp only [seenAfter, List.filterMap_cons, Sum.getLeft?_inl, List.map_cons]
      refine ⟨List.nodup_cons.mpr ⟨fun hm => hnew _ hm List.mem_cons_self, hnodup⟩, ?_⟩
      exact List.forall_mem_cons.mpr ⟨hs, fun n hn hm => hnew n hn (List.mem_cons_of_mem _ hm)⟩

/-! ### The partition -/

/-- The verdicts on the elements of `array` are sorted into `parsed`. -/
structure Partitioned (config : DispatchConfig) (array : List Json) (parsed : ParsedCallbacks)
    (verdicts : List Verdict) : Prop where
  length : verdicts.length = array.length
  valid : parsed.valid = verdicts.filterMap Sum.getLeft?
  invalid : parsed.invalid = verdicts.filterMap Sum.getRight?
  accepted : ∀ i v t, array[i]? = some v → (verdicts[i]? = some (.inl t) ↔
    parseOneCallback v i config = .ok t ∧ ∀ j < i, ∀ w t', array[j]? = some w →
      parseOneCallback w j config = .ok t' → t'.name ≠ t.name)
  keys : verdicts.map verdictKey = extractCallbackNames (.arr array)

omit [Crates] in
theorem mem_take_zipIdx {array : List Json} {i : ℕ} {p : Json × ℕ} :
    p ∈ array.zipIdx.take i ↔ p.2 < i ∧ array[p.2]? = some p.1 := by
  obtain ⟨w, j⟩ := p
  rw [List.mem_take_iff_getElem]
  constructor
  · rintro ⟨k, hk, heq⟩
    rw [List.getElem_zipIdx] at heq
    obtain ⟨rfl, rfl⟩ := Prod.mk.inj heq
    rw [List.length_zipIdx] at hk
    exact ⟨by omega, by simp⟩
  · rintro ⟨hj, hw⟩
    obtain ⟨hlt, hget⟩ := List.getElem?_eq_some_iff.mp hw
    refine ⟨j, by simp; omega, ?_⟩
    rw [List.getElem_zipIdx]
    simp [hget]

theorem partition_parseElements (config : DispatchConfig) (array : List Json) :
    Partitioned config array (parseElements config [] array.zipIdx)
    (verdicts config [] array.zipIdx) := by
  have hkeys := keys_verdicts config [] array.zipIdx
  refine ⟨?_, by rw [parseElements_eq], by rw [parseElements_eq], fun i v t hv => ?_, hkeys⟩
  · have hlen := congrArg List.length hkeys
    simpa using hlen
  · have hget : array.zipIdx[i]? = some (v, i) := by simp [List.getElem?_zipIdx, hv]
    rw [getElem?_verdicts, hget, Option.map_some, Option.some.injEq, verdict_eq_inl,
      mem_seenThrough]
    simp only [List.not_mem_nil, false_or, not_exists, not_and]
    refine and_congr_right fun _ => ⟨fun h j hj w t' hw ht' heq => ?_, fun h p hp t' ht' heq => ?_⟩
    · exact h (w, j) (mem_take_zipIdx.mpr ⟨hj, hw⟩) t' ((accept_eq_some j).mpr ht') heq
    · obtain ⟨hj, hw⟩ := mem_take_zipIdx.mp hp
      exact h p.2 hj p.1 t' hw ((accept_eq_some p.2).mp ht') heq

/-- **`parse_callbacks` partitions its input.** Each element of an array within the limit has one
entry in `valid` or `invalid`; `valid` is in the order of the array and has no name twice; an
element is in it iff it is accepted and no accepted element before it has its name; and the entry is
filed under the key that `extract_callback_names` gives the element. These keys are those of the
rows that the scheduler asks for, also when the payload is too large or the array is rejected as a
whole. -/
theorem parse_partitions (config : DispatchConfig) (array : List Json)
    (h : array.length ≤ config.maxCallbacksPerEvent) :
    (∃ verdicts, Partitioned config array (parseCallbacks (.arr array) config) verdicts) ∧
    (parseCallbacks (.arr array) config).valid.length +
      (parseCallbacks (.arr array) config).invalid.length = array.length ∧
    ((parseCallbacks (.arr array) config).valid.map (·.name)).Nodup ∧
    ∀ (config' : DispatchConfig) (e : RawEvent), e.callbacks = .arr array →
      ((eventRows config' e).map (·.callbackName)).Perm (extractCallbackNames (.arr array)) := by
  have hparse : parseCallbacks (.arr array) config = parseElements config [] array.zipIdx :=
    if_neg (Nat.not_lt.mpr h)
  have hpart := partition_parseElements config array
  rw [hparse]
  refine ⟨⟨_, hpart⟩, ?_, ?_, fun config' e he => he ▸ perm_eventRows config' e⟩
  · rw [hpart.valid, hpart.invalid, length_split, hpart.length]
  · rw [hpart.valid]
    exact (nodup_names [] array.zipIdx).1

end

/-- A target, an element without a URL, the name of the target once more, and a number. -/
def sampleMixed : List Json :=
  [.obj [("name", .str "hook_a"), ("signing_key_id", .str "k1"),
    ("url", .str "https://example.com/hook")], .obj [("name", .str "hook_b")],
    .obj [("name", .str "hook_a"), ("signing_key_id", .str "k1"),
      ("url", .str "https://example.com/hook")],
    .int 3]

theorem parse_partitions_mixed :
    (@parseCallbacks sampleCrates (.arr sampleMixed) {}).valid.map (·.name) = ["hook_a"] ∧
    (@parseCallbacks sampleCrates (.arr sampleMixed) {}).invalid.map (·.1) =
      ["hook_b", "hook_a", "[3]"] ∧
    ∃ verdicts,
    @Partitioned sampleCrates {} sampleMixed (@parseCallbacks sampleCrates (.arr sampleMixed) {})
      verdicts :=
  ⟨by decide +kernel, by decide +kernel,
    (@parse_partitions sampleCrates {} sampleMixed (by decide)).1⟩

end OutboxDispatcher.Scheduler.Partition
