import OutboxDispatcher.Callbacks.Parse

/-! # The two parsers of the callbacks

A row is created from a target the schedule-time parser accepted; when it is due, its target is
parsed again, by name. The schedule-time parser drops a rejected element and goes on, so it may
accept a name that an earlier, rejected element carries as well. The dispatch-time parser stops at
the first element that carries the name, and fails on it.

* `parsersAgree_iff`: the parsers agree on a value iff it has no such element.
* `validateNamedCallback_justified`: in the other direction there is no gap. -/

namespace OutboxDispatcher.Callbacks.Agreement

open OutboxDispatcher.Lib.Checks OutboxDispatcher.Lib.JsonValue OutboxDispatcher.Schema
open OutboxDispatcher.Callbacks.Fields OutboxDispatcher.Callbacks.Parse

section

variable [Crates]

/-- Every target accepted at schedule time is returned at dispatch time under its name. -/
def ParsersAgree (json : Json) (config : DispatchConfig) : Prop :=
  ∀ t ∈ (parseCallbacks json config).valid, validateNamedCallback json t.name config = .ok t

/-- Of the elements that carry the name of an accepted one, the first is accepted. -/
def FirstNamedAccepted (json : Json) (config : DispatchConfig) : Prop :=
  ∀ v ∈ elements json config, (accept config v).isSome →
    ∀ w, (elements json config).find? (·.strField "name" = v.strField "name") = some w →
      (accept config w).isSome

variable {json : Json} {config : DispatchConfig} {t : CallbackTarget}

/-- The first target of a name comes from an element that carries the name. -/
theorem exists_element (h : t ∈ (parseCallbacks json config).valid) :
    ∃ v ∈ elements json config, accept config v = some t :=
  List.mem_filterMap.mp (List.mem_of_find?_eq_some (mem_valid.mp h))

/-- An accepted element has a target of its name among the accepted ones. -/
theorem exists_valid {v : Json} (hv : v ∈ elements json config) (ht : accept config v = some t) :
    ∃ t' ∈ (parseCallbacks json config).valid, t'.name = t.name := by
  have hm : t ∈ (elements json config).filterMap (accept config) :=
    List.mem_filterMap.mpr ⟨v, hv, ht⟩
  rcases hf : ((elements json config).filterMap (accept config)).find? (·.name = t.name) with _ | t'
  · simpa using List.find?_eq_none.mp hf t hm
  · have hn : t'.name = t.name := by simpa using List.find?_some hf
    exact ⟨t', mem_valid.mpr (hn ▸ hf), hn⟩

/-- When the first element that carries the name is accepted, its target is the accepted one. -/
theorem accept_first {l : List Json} {w : Json} {t' : CallbackTarget}
    (ht : (l.filterMap (accept config)).find? (·.name = t.name) = some t)
    (hw : l.find? (·.strField "name" = some t.name) = some w) (ht' : accept config w = some t') :
    t' = t := by
  obtain ⟨hwn, as, bs, rfl, has⟩ := List.find?_eq_some_iff_append.mp hw
  have hn : t'.name = t.name := by
    have := strField_of_accept ht'
    simp only [decide_eq_true_eq] at hwn
    exact Option.some.inj (this.symm.trans hwn)
  -- no element before `w` carries the name, so none is accepted under it
  have hpre : (as.filterMap (accept config)).find? (·.name = t.name) = none := by
    rw [List.find?_eq_none]
    intro s hs
    obtain ⟨v, hv, hs⟩ := List.mem_filterMap.mp hs
    have := has v hv
    simpa [strField_of_accept hs] using this
  rw [List.filterMap_append, List.find?_append, hpre, Option.none_or,
    List.filterMap_cons_some ht', List.find?_cons_of_pos (by simpa using hn)] at ht
  exact Option.some.inj ht

/-- The target of a callback that validates is the accepted one of its name, if any is accepted. -/
theorem eq_of_validate {json : Json} {t target : CallbackTarget}
    (h : validateNamedCallback json t.name config = .ok target)
    (ht : t ∈ (parseCallbacks json config).valid) : target = t := by
  obtain ⟨w, hw, hacc⟩ := validateNamedCallback_eq_ok.mp h
  exact accept_first (mem_valid.mp ht) hw hacc

theorem exists_valid_of_validate {json : Json} {name : String} {target : CallbackTarget}
    (h : validateNamedCallback json name config = .ok target) :
    ∃ t ∈ (parseCallbacks json config).valid, t.name = name := by
  obtain ⟨w, hw, hacc⟩ := validateNamedCallback_eq_ok.mp h
  obtain ⟨t, ht, hn⟩ := exists_valid (List.mem_of_find?_eq_some hw) hacc
  refine ⟨t, ht, hn.trans ?_⟩
  have hwn : w.strField "name" = some name := by simpa using List.find?_some hw
  exact Option.some.inj ((strField_of_accept hacc).symm.trans hwn)

/-- **The parsers agree** on a value iff of the elements with the name of an accepted one the first
is accepted. -/
theorem parsersAgree_iff (json : Json) (config : DispatchConfig) :
    ParsersAgree json config ↔ FirstNamedAccepted json config := by
  constructor
  · intro h v hv hacc w hw
    obtain ⟨t, ht⟩ := Option.isSome_iff_exists.mp hacc
    obtain ⟨t', ht', hn⟩ := exists_valid hv ht
    obtain ⟨w', hw', hacc'⟩ := validateNamedCallback_eq_ok.mp (h t' ht')
    rw [strField_of_accept ht, ← hn, hw', Option.some.injEq] at hw
    rw [← hw, hacc']; rfl
  · intro h t ht
    obtain ⟨v, hv, hvt⟩ := exists_element ht
    have hname := strField_of_accept hvt
    have hex : ((elements json config).find? (·.strField "name" = some t.name)).isSome := by
      rw [List.find?_isSome]; exact ⟨v, hv, by simpa using hname⟩
    obtain ⟨w, hw⟩ := Option.isSome_iff_exists.mp hex
    obtain ⟨t', ht'⟩ := Option.isSome_iff_exists.mp (h v hv (by simp [hvt]) w (hname ▸ hw))
    exact validateNamedCallback_eq_ok.mpr ⟨w,
      hw, by rw [ht', accept_first (mem_valid.mp ht) hw ht']⟩

/-! ### What the dispatch-time parser returns -/

theorem mem_valid_of_validate {name : String} (h : validateNamedCallback json name config = .ok t) :
    t.name = name ∧ t ∈ (parseCallbacks json config).valid := by
  obtain ⟨t', ht', rfl⟩ := exists_valid_of_validate h
  obtain rfl := eq_of_validate h ht'
  exact ⟨rfl, ht'⟩

/-- The value as a whole is rejected, or the element that carries the name is. -/
theorem rejected_of_validate {name msg : String}
    (h : validateNamedCallback json name config = .error (.invalid msg)) :
    (∃ code, parseCallbacks json config = ⟨[], [("<root>", code, msg)]⟩) ∨
      ∃ code, (name, code, msg) ∈ (parseCallbacks json config).invalid := by
  unfold parseCallbacks
  simp only [validateNamedCallback, bind_eq_error, okOr_eq_error, okOr_eq_ok, rejectIf_eq_error,
    rejectIf_eq_ok, mapError_eq_error] at h
  rcases h with ⟨hnone, hmsg⟩ |
    ⟨array, harr, ⟨hlen, hmsg⟩ | ⟨-, hlen, ⟨-, hmsg⟩ | ⟨⟨v, i⟩, hf, e, he, hmsg⟩⟩⟩
  · cases hmsg
    exact .inl ⟨.notArray, by rw [hnone]⟩
  · cases hmsg
    exact .inl ⟨.tooManyCallbacks, by rw [harr]; simp [hlen]⟩
  · cases hmsg
  · obtain ⟨key, code, reason⟩ := e
    cases hmsg
    have hname : v.strField "name" = some name := by simpa using List.find?_some hf
    have hkey : key = name := by
      have := parseOneCallback_error_key he
      simpa [elementKey, hname] using this
    refine .inr ⟨code, ?_⟩
    rw [harr]
    simp only [hlen, if_false]
    exact hkey ▸ error_mem_parseElements he _ [] (List.mem_of_find?_eq_some hf)

theorem not_mem_valid_of_validate {name : String}
    (h : validateNamedCallback json name config = .error .notFound)
    (ht : t ∈ (parseCallbacks json config).valid) : t.name ≠ name := by
  rintro rfl
  obtain ⟨v, hv, hacc⟩ := exists_element ht
  simp only [validateNamedCallback, bind_eq_error, okOr_eq_error, okOr_eq_ok, rejectIf_eq_error,
    rejectIf_eq_ok, mapError_eq_error] at h
  rcases h with ⟨-, hmsg⟩ | ⟨array, harr, ⟨-, hmsg⟩ | ⟨-, hlen, ⟨hnone, -⟩ | ⟨_, -, _, -, hmsg⟩⟩⟩
  · cases hmsg
  · cases hmsg
  · have hm : v ∈ array := by
      simp only [elements, harr, Nat.not_lt.mp hlen, if_true] at hv
      exact hv
    rw [← List.zipIdx_map_fst 0 array] at hm
    obtain ⟨c, hc, rfl⟩ := List.mem_map.mp hm
    simpa [strField_of_accept hacc] using List.find?_eq_none.mp hnone c hc
  · cases hmsg

/-- **The dispatch-time parser is justified by the schedule-time parser.** A target it returns is an
accepted one of the name it looked for; a reason it gives is a rejection of the whole value or of
the name; and a name it does not find is the name of no accepted target. -/
theorem validateNamedCallback_justified (json : Json) (name : String) (config : DispatchConfig) :
    (∀ t, validateNamedCallback json name config = .ok t →
      t.name = name ∧ t ∈ (parseCallbacks json config).valid) ∧
    (∀ msg, validateNamedCallback json name config = .error (.invalid msg) →
      (∃ code, parseCallbacks json config = ⟨[], [("<root>", code, msg)]⟩) ∨
        ∃ code, (name, code, msg) ∈ (parseCallbacks json config).invalid) ∧
    (validateNamedCallback json name config = .error .notFound →
      ∀ t ∈ (parseCallbacks json config).valid, t.name ≠ name) :=
  ⟨fun _ h => mem_valid_of_validate h, fun _ h => rejected_of_validate h,
    fun h _ ht => not_mem_valid_of_validate h ht⟩

end

/-! ### Two elements of one name, the first without a URL -/

/-- `[{"name": "hook_a"}, {"name": "hook_a", "signing_key_id": "k1", "url": …}]`. -/
def twiceNamed : Json :=
  .arr [.obj [("name", .str "hook_a")],
    .obj [("name", .str "hook_a"), ("signing_key_id", .str "k1"),
      ("url", .str "https://example.com/hook")]]

/-- The second element is scheduled; at dispatch time the first one is found and rejected. -/
theorem twiceNamed_disagrees :
    (@parseCallbacks sampleCrates twiceNamed {}).valid.map (·.name) = ["hook_a"] ∧
    @validateNamedCallback sampleCrates twiceNamed "hook_a" {} =
      .error (.invalid "invalid_callback: missing required field 'url'") ∧
    ¬@ParsersAgree sampleCrates twiceNamed {} := by
  have herr : @validateNamedCallback sampleCrates twiceNamed "hook_a" {} =
      .error (.invalid "invalid_callback: missing required field 'url'") := by decide
  have hv : ∃ t ∈ (@parseCallbacks sampleCrates twiceNamed {}).valid, t.name = "hook_a" := by decide
  refine ⟨by decide, herr, fun h => ?_⟩
  obtain ⟨t, ht, hn⟩ := hv
  have hok := h t ht
  rw [hn, herr] at hok
  cases hok

end OutboxDispatcher.Callbacks.Agreement
