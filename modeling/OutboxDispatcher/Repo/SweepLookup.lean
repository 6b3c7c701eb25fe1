import OutboxDispatcher.Callbacks.Limits
import OutboxDispatcher.Repo.Statements

/-! # The entry that the sweep reads

The dispatcher finds the callback of a row by a string under `name` (`validateNamedCallback`), the
sweep by the text that `->>` makes of whatever stands there (`sweepTarget`). The text of a number,
an array or an object is never the name of a callback, but that of a boolean is: an element whose
name is the value `true` goes for the callback `true`.

* `field_name_iff`: which elements the sweep takes for a callback.
* `sweep_agrees_iff`: the two read the same entry, and the same numbers from it, iff no such element
  comes before the dispatcher's.
* `shadowed_raises`: a row for which the sweep raises, and with it every sweep. -/

namespace OutboxDispatcher.Repo.SweepLookup

open OutboxDispatcher.Lib.Checks OutboxDispatcher.Lib.JsonValue OutboxDispatcher.Lib.Text
open OutboxDispatcher.Schema OutboxDispatcher.Callbacks.Fields OutboxDispatcher.Callbacks.Parse
open OutboxDispatcher.Callbacks.Limits OutboxDispatcher.Repo.Statements

/-! ### The search -/

section Search

variable {α : Type} {p q : α → Bool}

/-- The first `q` is the first `p`, when nothing before it is a `q`. -/
theorem find?_eq_of_takeWhile (hpq : ∀ a, p a → q a) : ∀ {l : List α},
    (∀ a ∈ l.takeWhile (!p ·), q a = false) → l.find? q = l.find? p
  | [], _ => rfl
  | a :: l, h => by
    cases hp : p a with
    | true => rw [List.find?_cons_of_pos hp, List.find?_cons_of_pos (hpq a hp)]
    | false =>
      rw [List.takeWhile_cons_of_pos (by simp [hp]), List.forall_mem_cons] at h
      rw [List.find?_cons_of_neg (by simp [h.1]), List.find?_cons_of_neg (by simp [hp])]
      exact find?_eq_of_takeWhile hpq h.2

/-- And exactly then the two stand at the same place. -/
theorem findIdx?_eq_iff (hpq : ∀ a, p a → q a) : ∀ {l : List α},
    l.findIdx? q = l.findIdx? p ↔ ∀ a ∈ l.takeWhile (!p ·), q a = false
  | [] => by simp
  | a :: l => by
    rw [List.findIdx?_cons, List.findIdx?_cons]
    cases hp : p a with
    | true => simp [hpq a hp, hp]
    | false =>
      rw [List.takeWhile_cons_of_pos (by simp [hp]), List.forall_mem_cons, ← findIdx?_eq_iff hpq]
      cases hq : q a with
      | true => cases l.findIdx? p <;> simp
      | false =>
        simp only [Bool.false_eq_true, if_false, true_and]
        exact (Option.map_injective (add_left_injective 1)).eq_iff

end Search

/-! ### The text of a name -/

/-- The first character of the text of a number, an array or an object. -/
def opens (c : Char) : Bool := c.isDigit || c == '-' || c == '[' || c == '\x7b'

theorem opens_of_toDigits (n : ℕ) (cs : List Char) :
    ∃ c cs', Nat.toDigits 10 n ++ cs = c :: cs' ∧ opens c := by
  obtain ⟨c, cs', hc⟩ := List.exists_cons_of_ne_nil (Nat.toDigits_ne_nil (n := n) (b := 10))
  have hdig := isDigit_of_mem_toDigits c (by rw [hc]; exact List.mem_cons_self)
  exact ⟨c, cs' ++ cs, by rw [hc]; rfl, by simp [opens, hdig]⟩

theorem opens_of_signed (neg : Prop) [Decidable neg] (n : ℕ) (cs : List Char) :
    ∃ c cs', (if neg then ['-'] else []) ++ (Nat.toDigits 10 n ++ cs) = c :: cs' ∧ opens c := by
  split_ifs
  · exact ⟨'-', _, rfl, by decide⟩
  · exact opens_of_toDigits n cs

/-- A text that opens so is not the name of a callback. -/
theorem not_valid_of_opens {c : Char} {cs : List Char} (h : opens c) :
    isValidCallbackName (.ofList (c :: cs)) = false := by
  have hlow : c.isLower = false := by
    by_contra hl
    have hrange := isLower_iff_range.mp (eq_true_of_ne_false hl)
    have hge : 97 ≤ c.toNat := hrange.1
    have hle : c.toNat ≤ 122 := hrange.2
    simp only [opens, Bool.or_eq_true, beq_iff_eq] at h
    rcases h with ((hd | rfl) | rfl) | rfl
    · have := toNat_of_isDigit hd
      omega
    · exact absurd hge (by decide)
    · exact absurd hge (by decide)
    · exact absurd hle (by decide)
  simp [isValidCallbackName, hlow]

/-- The name of the element is the boolean that is printed so. -/
def boolNamed (name : String) (v : Json) : Bool :=
  match v.get "name" with
  | some (.bool b) => toString b == name
  | _ => false

/-- **What the sweep takes for a callback**: a string of its name, and a boolean that is printed so.
-/
theorem field_name_iff {name : String} (hn : isValidCallbackName name) (v : Json) :
    v.field "name" = some name ↔ v.strField "name" = some name ∨ boolNamed name v := by
  have hother : ∀ {cs : List Char}, (∃ c cs', cs = c :: cs' ∧ opens c) →
      String.ofList cs ≠ name := by
    rintro cs ⟨c, cs', rfl, hc⟩ rfl
    rw [not_valid_of_opens hc] at hn
    cases hn
  unfold Json.field Json.strField boolNamed
  cases hg : v.get "name" with
  | none => simp
  | some w =>
    cases w with
    | null => simp [Json.asStr]
    | bool b => simp [Json.asStr, Json.text]
    | int n =>
      have hne : String.ofList (Json.int n).text ≠ name := hother (by
        rw [Json.text, Json.intText]
        simpa using opens_of_signed (n < 0) n.natAbs [])
      simp [Json.asStr, hne]
    | dec m scale =>
      have hne : String.ofList (Json.dec m scale).text ≠ name := hother (by
        rw [Json.text, Json.decText, List.append_assoc]
        exact opens_of_signed (m < 0) _ _)
      simp [Json.asStr, hne]
    | str s => simp [Json.asStr]
    | arr a =>
      have hne : String.ofList (Json.arr a).text ≠ name :=
        hother ⟨'[', _, by rw [Json.text], by decide⟩
      simp [Json.asStr, hne]
    | obj o =>
      have hne : String.ofList (Json.obj o).text ≠ name :=
        hother ⟨'\x7b', _, by rw [Json.text], by decide⟩
      simp [Json.asStr, hne]

/-! ### The numbers of an entry -/

theorem castInt_of_none {obj : List (String × Json)} {k : String} (hl : obj.lookup k = none) :
    castInt ((Json.obj obj).field k) = some none := by
  have hfield : (Json.obj obj).field k = none := by simp [Json.field, Json.get, hl]
  rw [hfield]
  rfl

/-- A number that the parser has read is cast to itself. -/
theorem castInt_of_asU64 {obj : List (String × Json)} {k : String} {v : Json} {n : ℕ}
    (hl : obj.lookup k = some v) (hv : v.asU64 = some n) (hlt : n < 2 ^ 31) :
    castInt ((Json.obj obj).field k) = some (some (n : ℤ)) := by
  have hint : v = .int n := by
    cases v with
    | int m =>
      unfold Json.asU64 at hv
      dsimp only at hv
      split_ifs at hv with hm
      rw [← Option.some.inj hv, Int.toNat_of_nonneg hm.1]
    | _ => cases hv
  have hfield : (Json.obj obj).field k = some (.ofList (Json.intText n)) := by
    simp [Json.field, Json.get, hl, hint, Json.text]
  rw [hfield, castInt, Json.int4?_intText hlt]
  rfl

/-- What the sweep is to read for a target: the timeout in nanoseconds, and the limit. -/
def limitsOf (target : CallbackTarget) : Option (ℤ × ℤ) :=
  target.externalCompletionTimeout.map fun d : ℕ => ((d : ℤ), (target.maxCompletionCycles : ℤ))

/-- What it has read, with its seconds in nanoseconds. -/
def inNanos : Option (ℤ × ℤ) → Option (ℤ × ℤ) := Option.map fun x => (x.1 * 10 ^ 9, x.2)

section

variable [Crates] {config : DispatchConfig} {target : CallbackTarget} {obj : List (String × Json)}
  {name : String}

theorem castInt_maxCompletionCycles (hc : ValidConfig config)
    (hb : BodySpec obj name config target) :
    ∃ cycles, castInt ((Json.obj obj).field "max_completion_cycles") = some cycles ∧
      cycles.getD (asI32 config.maxCompletionCycles) = target.maxCompletionCycles := by
  have hspec := hb.maxCompletionCycles
  cases hl : obj.lookup "max_completion_cycles" with
  | none =>
    rw [hl] at hspec
    have hdefault : config.maxCompletionCycles = target.maxCompletionCycles := Except.ok.inj hspec
    refine ⟨none, castInt_of_none hl, ?_⟩
    rw [Option.getD_none, asI32_of_lt (hc.maxCompletionCycles.2.trans_lt (by decide)), hdefault]
  | some v =>
    rw [hl] at hspec
    obtain ⟨hv, -, hle⟩ := parseBounded_ok hspec
    exact ⟨_, castInt_of_asU64 hl hv (hle.trans_lt (by decide)), rfl⟩

theorem castInt_externalTimeout (hb : BodySpec obj name config target) :
    ∃ secs, castInt ((Json.obj obj).field "external_completion_timeout_seconds") = some secs ∧
      secs.map (· * 10 ^ 9) = target.externalCompletionTimeout.map fun d : ℕ => (d : ℤ) := by
  have hspec := hb.externalCompletionTimeout
  cases hl : obj.lookup "external_completion_timeout_seconds" with
  | none =>
    rw [hl] at hspec
    have hnone : none = target.externalCompletionTimeout := Except.ok.inj hspec
    exact ⟨none, castInt_of_none hl, by rw [← hnone]; rfl⟩
  | some v =>
    rw [hl] at hspec
    obtain ⟨n, hn, hsome⟩ := map_eq_ok.mp hspec
    obtain ⟨hv, -, hle⟩ := parseBounded_ok hn
    refine ⟨_, castInt_of_asU64 hl hv (hle.trans_lt (by decide)), ?_⟩
    rw [← hsome, Option.map_some, Option.map_some, fromSecs]
    push_cast
    rfl

theorem sweepTarget_of_find (hc : ValidConfig config) (hb : BodySpec obj name config target)
    {callbacks : Json}
    (hf : (callbacks.asArray.getD []).find? (·.field "name" = some name) = some (.obj obj)) :
    ∃ x, sweepTarget callbacks name (asI32 config.maxCompletionCycles) = some x ∧
      inNanos x = limitsOf target := by
  obtain ⟨secs, hsecs, htime⟩ := castInt_externalTimeout hb
  obtain ⟨cycles, hcycles, hlim⟩ := castInt_maxCompletionCycles hc hb
  refine ⟨secs.map fun t => (t, cycles.getD (asI32 config.maxCompletionCycles)), ?_, ?_⟩
  · unfold sweepTarget
    rw [hf]
    simp [hsecs, hcycles]
  · have hmap : inNanos (secs.map fun t => (t, cycles.getD (asI32 config.maxCompletionCycles))) =
        (secs.map (· * 10 ^ 9)).map fun t => (t, (target.maxCompletionCycles : ℤ)) := by
      rw [inNanos, Option.map_map, Option.map_map, hlim]
      rfl
    rw [hmap, htime, limitsOf, Option.map_map]
    rfl

/-! ### Agreement -/

/-- The sweep reads the entry that the dispatcher has found, and from it the limits of the target;
no cast raises. -/
structure SweepAgrees (config : DispatchConfig) (callbacks : Json) (name : String)
    (target : CallbackTarget) : Prop where
  entry : (callbacks.asArray.getD []).findIdx? (·.field "name" = some name) =
    (callbacks.asArray.getD []).findIdx? (·.strField "name" = some name)
  limits : ∃ x, sweepTarget callbacks name (asI32 config.maxCompletionCycles) = some x ∧
    inNanos x = limitsOf target

/-- Before the first element with the name there is none whose name is the boolean that is printed
so. -/
def Unshadowed (callbacks : Json) (name : String) : Prop :=
  ∀ v ∈ (callbacks.asArray.getD []).takeWhile fun v => !decide (v.strField "name" = some name),
    boolNamed name v = false

instance (callbacks : Json) (name : String) : Decidable (Unshadowed callbacks name) :=
  inferInstanceAs (Decidable (∀ v ∈ (callbacks.asArray.getD []).takeWhile fun v =>
    !decide (v.strField "name" = some name), boolNamed name v = false))

omit [Crates] in
theorem elements_eq_of_find {callbacks : Json} {p : Json → Bool} {v : Json}
    (h : (elements callbacks config).find? p = some v) :
    elements callbacks config = callbacks.asArray.getD [] := by
  unfold elements at h ⊢
  cases harr : callbacks.asArray with
  | none => rfl
  | some array =>
    rw [harr] at h
    dsimp only at h ⊢
    split_ifs at h ⊢
    · rfl
    · cases h

/-- What the dispatcher has found: the name, the entry, and what its fields are. -/
theorem found_of_validate {callbacks : Json}
    (hv : validateNamedCallback callbacks name config = .ok target) :
    isValidCallbackName name ∧ ∃ obj, BodySpec obj name config target ∧
      (callbacks.asArray.getD []).find? (·.strField "name" = some name) = some (.obj obj) := by
  obtain ⟨v, hfind, hacc⟩ := validateNamedCallback_eq_ok.mp hv
  obtain ⟨hstr, hvalid, obj, ho, hb⟩ := parseOneCallback_eq_ok.mp ((accept_eq_some 0).mp hacc)
  obtain rfl := Json.asObject_eq_some ho
  have hname : target.name = name := by
    have hs : (Json.obj obj).strField "name" = some name := by simpa using List.find?_some hfind
    exact Option.some.inj (hstr.symm.trans hs)
  rw [hname] at hvalid hb
  rw [elements_eq_of_find hfind] at hfind
  exact ⟨hvalid, obj, parseBody_spec hb, hfind⟩

omit [Crates] in
theorem field_of_strField (hn : isValidCallbackName name) (v : Json)
    (h : decide (v.strField "name" = some name)) : decide (v.field "name" = some name) :=
  decide_eq_true ((field_name_iff hn v).mpr (.inl (of_decide_eq_true h)))

omit [Crates] in
/-- Among the elements before the entry, the sweep takes the boolean ones. -/
theorem unshadowed_iff (hn : isValidCallbackName name) (callbacks : Json) :
    Unshadowed callbacks name ↔
    ∀ v ∈ (callbacks.asArray.getD []).takeWhile fun v => !decide (v.strField "name" = some name),
      decide (v.field "name" = some name) = false := by
  refine forall₂_congr fun v hm => ?_
  have hnot : v.strField "name" ≠ some name := by
    simpa using List.all_eq_true.mp List.all_takeWhile v hm
  rw [decide_eq_false_iff_not, field_name_iff hn]
  simp [hnot]

theorem sweepTarget_of_unshadowed (hc : ValidConfig config) {callbacks : Json}
    (hv : validateNamedCallback callbacks name config = .ok target)
    (h : Unshadowed callbacks name) :
    ∃ x, sweepTarget callbacks name (asI32 config.maxCompletionCycles) = some x ∧
      inNanos x = limitsOf target := by
  obtain ⟨hn, obj, hb, hfind⟩ := found_of_validate hv
  refine sweepTarget_of_find hc hb ?_
  rw [find?_eq_of_takeWhile (field_of_strField hn) ((unshadowed_iff hn callbacks).mp h), hfind]

/-- **The sweep reads the same entry as the dispatcher**, for a name that the dispatcher accepts,
iff no element before that entry has the boolean for a name that is printed like it. -/
theorem sweep_agrees_iff (hc : ValidConfig config) (callbacks : Json) (name : String)
    (target : CallbackTarget) (hv : validateNamedCallback callbacks name config = .ok target) :
    SweepAgrees config callbacks name target ↔ Unshadowed callbacks name := by
  have hn := (found_of_validate hv).1
  have hentry := findIdx?_eq_iff (l := callbacks.asArray.getD []) (field_of_strField hn)
  constructor
  · intro h
    exact (unshadowed_iff hn callbacks).mpr (hentry.mp h.entry)
  · intro h
    exact ⟨hentry.mpr ((unshadowed_iff hn callbacks).mp h), sweepTarget_of_unshadowed hc hv h⟩

end

/-! ### A callback with the name `true` -/

/-- The external callback `true`, with an hour to complete. -/
def trueCallback : Json :=
  .obj [("external_completion_timeout_seconds", .int 3600), ("mode", .str "external"),
    ("name", .str "true"), ("signing_key_id", .str "k1"), ("url", .str "https://example.com/hook")]

def trueTarget : CallbackTarget where
  name := "true"
  url := "https://example.com/hook"
  mode := .external
  signingKeyId := some "k1"
  headers := []
  maxAttempts := 6
  backoff := [30, 120, 600, 3600, 21600, 86400].map fromSecs
  timeout := fromSecs 30
  externalCompletionTimeout := some (fromSecs 3600)
  maxCompletionCycles := 20

/-- An element that is rejected does no harm after the callback. -/
theorem sweep_agrees_behind :
    SweepAgrees {} (.arr [trueCallback, .obj [("name", .bool true)]]) "true" trueTarget :=
  (@sweep_agrees_iff sampleCrates {} validConfig_default _ _ _ (by decide +kernel)).mpr
    (by decide +kernel)

/-- **Shadowed by a boolean.** Both parsers reject the first element and return the target of the
second; the sweep takes the first for it, and its timeout is no number. -/
theorem shadowed_raises :
    let callbacks := Json.arr [.obj [("external_completion_timeout_seconds", .str "soon"),
      ("name", .bool true)], trueCallback]
    (@parseCallbacks sampleCrates callbacks {}).valid = [trueTarget] ∧
    @validateNamedCallback sampleCrates callbacks "true" {} = .ok trueTarget ∧
    sweepTarget callbacks "true" (asI32 20) = none ∧
    ¬SweepAgrees {} callbacks "true" trueTarget := by
  refine ⟨by decide +kernel, by decide +kernel, by decide +kernel, fun h => ?_⟩
  exact absurd h.entry (by decide +kernel)

end OutboxDispatcher.Repo.SweepLookup
