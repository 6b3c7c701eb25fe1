import OutboxDispatcher.Callbacks.Parse

/-! # The headers of a callback

What the parser has checked of every header it accepts (`HeaderOk`), and that no two of them have
one name but for the case. The checks on bytes are those on characters that RFC 7230 asks for
(`isValidHeaderName_iff`), and they are all there is: an object whose entries pass them is accepted
(`parseHeaders_exact`). -/

namespace OutboxDispatcher.Callbacks.Headers

open OutboxDispatcher.Lib.Checks OutboxDispatcher.Lib.JsonValue OutboxDispatcher.Lib.Text
open OutboxDispatcher.Schema OutboxDispatcher.Callbacks.Fields OutboxDispatcher.Callbacks.Parse

structure HeaderOk (h : String × String) : Prop where
  name : isValidHeaderName h.1
  reserved : toAsciiLowercase h.1 ∉ reservedHeaders
  outbox : ¬startsWith (toAsciiLowercase h.1) "x-outbox-"
  value : ∀ b ∈ bytes h.2, isIllegalValueByte b = false

structure HeadersOk (headers : List (String × String)) : Prop where
  ok : ∀ h ∈ headers, HeaderOk h
  names_nodup : (headers.map fun h => toAsciiLowercase h.1).Nodup

/-! ### The entries -/

theorem entries_iff {entries : List (String × Json)} {seenLower : List String}
    {headers : List (String × String)} : parseHeaderEntries seenLower entries = .ok headers ↔
      entries = headers.map (fun h => (h.1, .str h.2)) ∧ HeadersOk headers ∧
        ∀ h ∈ headers, toAsciiLowercase h.1 ∉ seenLower := by
  induction entries generalizing seenLower headers with
  | nil =>
    rw [parseHeaderEntries, eq_comm (a := []), List.map_eq_nil_iff, Except.ok.injEq, eq_comm]
    refine ⟨?_, And.left⟩
    rintro rfl
    exact ⟨rfl, ⟨by simp, List.nodup_nil⟩, by simp⟩
  | cons e rest ih =>
    obtain ⟨k, v⟩ := e
    simp only [parseHeaderEntries, bind_eq_ok, okOr_eq_ok, rejectIf_eq_ok, pure_eq_ok, ih]
    constructor
    · rintro ⟨-, hname, -, hres, -, hseen, value, hv, -, hbytes, tail, ⟨rfl, hok, hnew⟩, rfl⟩
      obtain ⟨hres, hours⟩ := not_or.mp hres
      have hhead : HeaderOk (k, value) := ⟨by simpa using hname, hres, hours, by simpa using hbytes⟩
      refine ⟨by rw [Json.asStr_eq_some hv]; rfl, ⟨List.forall_mem_cons.mpr ⟨hhead, hok.ok⟩, ?_⟩,
        List.forall_mem_cons.mpr ⟨hseen, fun h hm hs => hnew h hm (List.mem_cons_of_mem _ hs)⟩⟩
      refine List.nodup_cons.mpr ⟨fun hm => ?_, hok.names_nodup⟩
      obtain ⟨h, hm, heq⟩ := List.mem_map.mp hm
      exact hnew h hm (heq ▸ List.mem_cons_self)
    · rintro ⟨heq, hok, hnew⟩
      obtain _ | ⟨⟨k', value⟩, tail⟩ := headers
      · cases heq
      · obtain ⟨hhead, rfl⟩ := List.cons.inj heq
        obtain ⟨rfl, rfl⟩ := Prod.mk.inj hhead
        obtain ⟨hone, hall⟩ := List.forall_mem_cons.mp hok.ok
        obtain ⟨hfresh, hnodup⟩ := List.nodup_cons.mp hok.names_nodup
        obtain ⟨hseen, hnew⟩ := List.forall_mem_cons.mp hnew
        refine ⟨(), by simpa using hone.name, (), not_or.mpr ⟨hone.reserved, hone.outbox⟩, (),
          hseen,
          value, rfl, (), by simpa using hone.value, tail, ⟨rfl, ⟨hall, hnodup⟩, fun h hm hs => ?_⟩,
          rfl⟩
        rcases List.mem_cons.mp hs with heq | hs
        · exact hfresh (List.mem_map.mpr ⟨h, hm, heq⟩)
        · exact hnew h hm hs

theorem parseHeaders_iff {val : Option Json} {headers : List (String × String)} :
    parseHeaders val = .ok headers ↔ (val = none ∧ headers = []) ∨
      ∃ entries, val = some (.obj entries) ∧ entries = headers.map (fun h => (h.1, .str h.2)) ∧
        HeadersOk headers := by
  cases val with
  | none => simp [parseHeaders, eq_comm]
  | some v =>
    simp only [parseHeaders, bind_eq_ok, okOr_eq_ok, entries_iff]
    constructor
    · rintro ⟨entries, hv, heq, hok, -⟩
      exact .inr ⟨entries, by rw [Json.asObject_eq_some hv], heq, hok⟩
    · rintro (⟨hv, -⟩ | ⟨entries, hv, heq, hok⟩)
      · cases hv
      · cases hv
        exact ⟨entries, rfl, heq, hok, by simp⟩

/-- **The headers of an accepted callback.** -/
theorem headersOk_of_accept [Crates] {config : DispatchConfig} {v : Json} {target : CallbackTarget}
    (ha : accept config v = some target) : HeadersOk target.headers := by
  obtain ⟨-, -, obj, -, hb⟩ := parseOneCallback_eq_ok.mp ((accept_eq_some 0).mp ha)
  have hh := (parseBody_spec hb).headers
  rcases parseHeaders_iff.mp hh with ⟨-, hnil⟩ | ⟨-, -, -, hok⟩
  · rw [hnil]
    exact ⟨by simp, List.nodup_nil⟩
  · exact hok

/-! ### What is accepted, character by character -/

/-- The characters of a token of RFC 7230. -/
def IsTokenChar (c : Char) : Prop :=
  c ∈ "!#$%&'*+-.^_`|~".toList ∨ ('0' ≤ c ∧ c ≤ '9') ∨ ('A' ≤ c ∧ c ≤ 'Z') ∨ ('a' ≤ c ∧ c ≤ 'z')

theorem toNat_lt_of_mark {c : Char} (h : c ∈ "!#$%&'*+-.^_`|~".toList) : c.toNat < 128 := by
  have hall : ("!#$%&'*+-.^_`|~".toList.all fun c => c.toNat < 128) = true := rfl
  exact of_decide_eq_true (List.all_eq_true.mp hall c h)

theorem toNat_lt_of_isTchar {b : UInt8} (h : isTchar b) : b.toNat < 128 := by
  simp only [isTchar, Bool.or_eq_true, List.any_eq_true, beq_iff_eq, Bool.and_eq_true,
    decide_eq_true_eq] at h
  rcases h with ((⟨c, hc, heq⟩ | ⟨-, h⟩) | ⟨-, h⟩) | ⟨-, h⟩
  · exact heq ▸ toNat_lt_of_mark hc
  · exact Nat.lt_of_le_of_lt h (by decide)
  · exact Nat.lt_of_le_of_lt h (by decide)
  · exact Nat.lt_of_le_of_lt h (by decide)

theorem isTchar_toUInt8 {c : Char} (h : c.toNat < 128) : isTchar c.toUInt8 ↔ IsTokenChar c := by
  have hb : c.toUInt8.toNat = c.toNat := Nat.mod_eq_of_lt (by show c.toNat < 256; omega)
  have hmarks : (∃ d ∈ "!#$%&'*+-.^_`|~".toList, d.toNat = c.toNat) ↔
    c ∈ "!#$%&'*+-.^_`|~".toList :=
    ⟨fun ⟨d, hd, heq⟩ => Char.toNat_inj.mp heq ▸ hd, fun hc => ⟨c, hc, rfl⟩⟩
  simp only [isTchar, IsTokenChar, hb, Bool.or_eq_true, List.any_eq_true, beq_iff_eq,
    Bool.and_eq_true, decide_eq_true_eq, hmarks, or_assoc]
  exact Iff.rfl

/-- A character that is not ASCII has no byte of a token. -/
theorem all_isTchar_iff {c : Char} : (∀ b ∈ String.utf8EncodeChar c, isTchar b) ↔
    IsTokenChar c := by
  by_cases h : c.toNat < 128
  · have hsize : c.utf8Size = 1 :=
      Char.utf8Size_eq_one_iff.mpr (UInt32.le_iff_toNat_le.mpr (Nat.le_of_lt_succ h))
    rw [String.utf8EncodeChar_eq_singleton hsize, List.forall_mem_singleton]
    exact isTchar_toUInt8 h
  · refine ⟨fun hall => ?_, fun hc => absurd ?_ h⟩
    · obtain ⟨b, hb⟩ := List.exists_mem_of_ne_nil _ (String.utf8EncodeChar_ne_nil (c := c))
      have hlow := toNat_lt_of_isTchar (hall b hb)
      have hhigh := le_of_mem_utf8EncodeChar (Nat.le_of_not_lt h) hb
      omega
    · rcases hc with hc | ⟨-, hc⟩ | ⟨-, hc⟩ | ⟨-, hc⟩
      · exact toNat_lt_of_mark hc
      all_goals exact Nat.lt_of_le_of_lt (UInt32.le_iff_toNat_le.mp hc) (by decide)

theorem isValidHeaderName_iff {name : String} :
    isValidHeaderName name ↔ name ≠ "" ∧ ∀ c ∈ name.toList, IsTokenChar c := by
  simp only [isValidHeaderName, bytes, Bool.and_eq_true, decide_eq_true_eq, List.all_eq_true,
    List.mem_flatMap, ← all_isTchar_iff]
  refine and_congr_right fun _ => ⟨fun h c hc b hb => h b ⟨c, hc, hb⟩, ?_⟩
  rintro h b ⟨c, hc, hb⟩
  exact h c hc b hb

theorem isIllegalValueByte_eq_false {b : UInt8} :
    isIllegalValueByte b = false ↔ b = 9 ∨ (0x20 ≤ b ∧ b ≤ 0x7e) := by
  simp only [isIllegalValueByte, Bool.or_eq_false_iff, Bool.and_eq_false_iff,
    decide_eq_false_iff_not,
    bne_eq_false_iff_eq, UInt8.lt_iff_toNat_lt, UInt8.le_iff_toNat_le, ← UInt8.toNat_inj, ge_iff_le]
  show (¬b.toNat < 32 ∨ b.toNat = 9) ∧ ¬127 ≤ b.toNat ↔ b.toNat = 9 ∨ 32 ≤ b.toNat ∧ b.toNat ≤ 126
  omega

structure Acceptable (entries : List (String × Json)) : Prop where
  token : ∀ e ∈ entries, e.1 ≠ "" ∧ ∀ c ∈ e.1.toList, IsTokenChar c
  reserved : ∀ e ∈ entries, toAsciiLowercase e.1 ∉ reservedHeaders
  outbox : ∀ e ∈ entries, ¬startsWith (toAsciiLowercase e.1) "x-outbox-"
  distinct : entries.Pairwise fun e e' => toAsciiLowercase e.1 ≠ toAsciiLowercase e'.1
  value : ∀ e ∈ entries, ∃ s, e.2 = .str s ∧ ∀ b ∈ bytes s, b = 9 ∨ (0x20 ≤ b ∧ b ≤ 0x7e)

theorem acceptable_iff {headers : List (String × String)} :
    Acceptable (headers.map fun h => (h.1, .str h.2)) ↔ HeadersOk headers := by
  constructor
  · rintro ⟨htoken, hres, hours, hdist, hvalue⟩
    rw [List.forall_mem_map] at htoken hres hours hvalue
    refine ⟨fun h hm => ⟨isValidHeaderName_iff.mpr (htoken h hm), hres h hm, hours h hm, ?_⟩, ?_⟩
    · obtain ⟨s, hs, hall⟩ := hvalue h hm
      cases hs
      exact fun b hb => isIllegalValueByte_eq_false.mpr (hall b hb)
    · rw [List.pairwise_map] at hdist
      exact List.pairwise_map.mpr hdist
  · intro hok
    refine ⟨?_, ?_, ?_, List.pairwise_map.mpr (List.pairwise_map.mp hok.names_nodup), ?_⟩
    all_goals rw [List.forall_mem_map]; intro h hm; have hh := hok.ok h hm
    · exact isValidHeaderName_iff.mp hh.name
    · exact hh.reserved
    · exact hh.outbox
    · exact ⟨h.2, rfl, fun b hb => isIllegalValueByte_eq_false.mp (hh.value b hb)⟩

theorem exists_headers {entries : List (String × Json)} (h : Acceptable entries) :
    ∃ headers : List (String × String), entries = headers.map fun h => (h.1, .str h.2) := by
  have hvalue := h.value
  clear h
  induction entries with
  | nil => exact ⟨[], rfl⟩
  | cons e rest ih =>
    obtain ⟨⟨s, hs, -⟩, hrest⟩ := List.forall_mem_cons.mp hvalue
    obtain ⟨headers, rfl⟩ := ih hrest
    exact ⟨(e.1, s) :: headers, by rw [List.map_cons, ← hs]⟩

theorem no_line_break {h : String × String} (hok : HeaderOk h) :
    ∀ b ∈ bytes h.1 ++ bytes h.2, b ≠ 13 ∧ b ≠ 10 := by
  have htoken : ∀ b ∈ bytes h.1, isTchar b := by
    have hname := hok.name
    rw [isValidHeaderName, Bool.and_eq_true, List.all_eq_true] at hname
    exact hname.2
  intro b hb
  rcases List.mem_append.mp hb with hb | hb
  · constructor
    · rintro rfl
      exact absurd (htoken _ hb) (by decide)
    · rintro rfl
      exact absurd (htoken _ hb) (by decide)
  · constructor
    · rintro rfl
      exact absurd (hok.value _ hb) (by decide)
    · rintro rfl
      exact absurd (hok.value _ hb) (by decide)

/-- **The headers are accepted exactly when they may be set**: no header, or an object whose keys
are tokens of RFC 7230, not reserved and different whatever their case, with printable ASCII and
tabs for values. The headers returned are the entries of the object, and none has a line break in
it. -/
theorem parseHeaders_exact (val : Option Json) :
    ((∃ headers, parseHeaders val = .ok headers) ↔
      val = none ∨ ∃ entries, val = some (.obj entries) ∧ Acceptable entries) ∧
    ∀ headers, parseHeaders val = .ok headers →
      headers.map (fun h => (h.1, Json.str h.2)) = (val.bind Json.asObject).getD [] ∧
      ∀ h ∈ headers, ∀ b ∈ bytes h.1 ++ bytes h.2, b ≠ 13 ∧ b ≠ 10 := by
  refine ⟨⟨?_, ?_⟩, fun headers hh => ?_⟩
  · rintro ⟨headers, hh⟩
    rcases parseHeaders_iff.mp hh with ⟨hv, -⟩ | ⟨entries, hv, rfl, hok⟩
    · exact .inl hv
    · exact .inr ⟨_, hv, acceptable_iff.mpr hok⟩
  · rintro (rfl | ⟨entries, rfl, hacc⟩)
    · exact ⟨[], rfl⟩
    · obtain ⟨headers, rfl⟩ := exists_headers hacc
      exact ⟨headers, parseHeaders_iff.mpr (.inr ⟨_, rfl, rfl, acceptable_iff.mp hacc⟩)⟩
  · rcases parseHeaders_iff.mp hh with ⟨rfl, rfl⟩ | ⟨entries, rfl, heq, hok⟩
    · exact ⟨rfl, by simp⟩
    · exact ⟨heq.symm, fun h hm => no_line_break (hok.ok h hm)⟩

theorem parseHeaders_exact_trace :
    parseHeaders (some (.obj [("X-Trace", .str "a\tb"), ("x-tenant", .str "7")])) =
      .ok [("X-Trace", "a\tb"), ("x-tenant", "7")] ∧
    ∀ h ∈ [("X-Trace", "a\tb"), ("x-tenant", "7")], ∀ b ∈ bytes h.1 ++ bytes h.2, b ≠ 13 ∧ b ≠ 10 :=
  ⟨by rfl, ((parseHeaders_exact (some (.obj [("X-Trace", .str "a\tb"), ("x-tenant", .str "7")]))).2
    _ rfl).2⟩

end OutboxDispatcher.Callbacks.Headers
