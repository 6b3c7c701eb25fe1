import OutboxDispatcher.Repo.Statements

/-! # Errors of bounded length

`truncate_at_char_boundary` walks back from the limit to a boundary of characters, so it stops at or
after every boundary within the limit (`le_boundaryBelow`): a short beginning of the text survives.

The loop runs on bytes and counts down an unsigned number. `truncateBytes` is the function with the
faults it could have, too few rounds, a count below zero and a cut inside a character; it has none
of them, and what it returns are the bytes of the longest part of whole characters within the limit
(`truncateBytes_eq`, `longestWithin_truncate`). So is every `last_error` that a statement stores for
a given reason. -/

namespace OutboxDispatcher.Repo.Truncate

open OutboxDispatcher.Lib.Text OutboxDispatcher.Schema
open OutboxDispatcher.Repo.Database OutboxDispatcher.Repo.Database.Db
  OutboxDispatcher.Repo.Statements

/-- The walk back passes over no boundary. -/
theorem le_boundaryBelow {cs : List Char} {i m : ℕ} (h : isCharBoundary cs i) (hm : i ≤ m) :
    i ≤ boundaryBelow cs m := by
  induction m with
  | zero =>
    rw [Nat.le_zero.mp hm]
    exact Nat.zero_le _
  | succ m ih =>
    rw [boundaryBelow]
    split_ifs with hb
    · exact hm
    · have hne : i ≠ m + 1 := by
        rintro rfl
        exact hb h
      exact ih (by omega)

/-- **A beginning within the limit is kept.** -/
theorem startsWith_truncate {s p : String} {maxBytes : ℕ} (hp : byteLen p.toList ≤ maxBytes)
    (h : startsWith s p) : startsWith (truncateAtCharBoundary s maxBytes) p := by
  unfold truncateAtCharBoundary
  split_ifs
  · exact h
  · obtain ⟨cs, hcs⟩ := startsWith_iff.mp h
    have hle := le_boundaryBelow (hcs ▸ isCharBoundary_append p.toList cs) hp
    obtain ⟨n, hn⟩ := Nat.exists_eq_add_of_le hle
    rw [startsWith_iff, String.toList_ofList, hn, ← hcs, takeBytes_append]
    exact List.prefix_append _ _

/-! ### The loop on the bytes -/

/-- `while !s.is_char_boundary(end) { end -= 1; }` for some rounds; `none` when they do not suffice,
and when `end` would go below 0. -/
def scanBack (bs : List UInt8) : ℕ → ℕ → Option ℕ
  | 0, _ => none
  | rounds + 1, i =>
    if isBoundaryAt bs i then some i else if i = 0 then none else scanBack bs rounds (i - 1)

/-- `&s[..end]`; `none` when `end` is inside a character. -/
def sliceTo (bs : List UInt8) (i : ℕ) : Option (List UInt8) :=
  if isBoundaryAt bs i then some (bs.take i) else none

/-- `truncate_at_char_boundary` on the bytes of the text, with the faults it could have. -/
def truncateBytes (rounds : ℕ) (bs : List UInt8) (maxBytes : ℕ) : Option (List UInt8) :=
  if bs.length ≤ maxBytes then some bs else (scanBack bs rounds maxBytes).bind (sliceTo bs)

theorem isCharBoundary_boundaryBelow (cs : List Char) (m : ℕ) :
    isCharBoundary cs (boundaryBelow cs m) := by
  induction m with
  | zero => simp [boundaryBelow, isCharBoundary]
  | succ m ih =>
    rw [boundaryBelow]
    split_ifs with hb
    · exact hb
    · exact ih

theorem boundaryBelow_le (cs : List Char) (m : ℕ) : boundaryBelow cs m ≤ m := by
  induction m with
  | zero => exact le_rfl
  | succ m ih =>
    rw [boundaryBelow]
    split_ifs
    · exact le_rfl
    · omega

/-- The loop ends above zero at the latest, since there a character starts. -/
theorem scanBack_eq (cs : List Char) {rounds m : ℕ} (h : m < rounds) :
    scanBack (cs.flatMap String.utf8EncodeChar) rounds m = some (boundaryBelow cs m) := by
  induction m generalizing rounds with
  | zero =>
    obtain ⟨n, rfl⟩ := Nat.exists_eq_add_one.mpr h
    rw [scanBack, if_pos (by simp [isBoundaryAt]), boundaryBelow]
  | succ m ih =>
    obtain ⟨n, rfl⟩ := Nat.exists_eq_add_one.mpr (Nat.zero_lt_of_lt h)
    rw [scanBack, boundaryBelow, isBoundaryAt_flatMap, if_neg (Nat.succ_ne_zero m),
      Nat.add_sub_cancel,
      ih (by omega)]
    split_ifs <;> rfl

/-- The characters up to a boundary have the bytes up to it. -/
theorem flatMap_takeBytes {cs : List Char} {i : ℕ} (h : isCharBoundary cs i) :
    (takeBytes cs i).flatMap String.utf8EncodeChar = (cs.flatMap String.utf8EncodeChar).take i := by
  obtain ⟨q, hq, hlen⟩ := append_of_isCharBoundary h
  generalize takeBytes cs i = p at hq hlen
  rw [hq, List.flatMap_append, ← hlen, ← length_flatMap_utf8EncodeChar, List.take_left]

/-- **No fault.** With more rounds than the limit has bytes the function returns. -/
theorem truncateBytes_eq (s : String) {rounds maxBytes : ℕ} (h : maxBytes < rounds) :
    truncateBytes rounds (bytes s) maxBytes = some (bytes (truncateAtCharBoundary s maxBytes)) := by
  unfold truncateBytes truncateAtCharBoundary
  rw [length_bytes, utf8ByteSize_eq_byteLen]
  split_ifs
  · rfl
  · have hcut := isCharBoundary_boundaryBelow s.toList maxBytes
    rw [bytes, scanBack_eq s.toList h, Option.bind_some, sliceTo, isBoundaryAt_flatMap, if_pos hcut,
      bytes, String.toList_ofList, flatMap_takeBytes hcut]

/-- A crab has four bytes. -/
example : truncateBytes 4 (bytes "🦀🦀") 3 = some [] ∧
    truncateBytes 8 (bytes "🦀🦀") 7 = some (bytes "🦀") := by
  decide

/-! ### The longest part within the limit -/

/-- `t` is the longest beginning of `s` of whole characters that has at most `maxBytes` bytes. -/
structure LongestWithin (maxBytes : ℕ) (s t : String) : Prop where
  isBeginning : t.toList <+: s.toList
  within : (bytes t).length ≤ maxBytes
  longest : ∀ p : List Char, p <+: s.toList → byteLen p ≤ maxBytes → p <+: t.toList

theorem longestWithin_truncate (s : String) (maxBytes : ℕ) :
    LongestWithin maxBytes s (truncateAtCharBoundary s maxBytes) where
  isBeginning := by
    unfold truncateAtCharBoundary
    split_ifs
    · exact List.prefix_rfl
    · obtain ⟨q, hq, -⟩ := append_of_isCharBoundary (isCharBoundary_boundaryBelow s.toList maxBytes)
      rw [String.toList_ofList]
      exact ⟨q, hq.symm⟩
  within := by
    rw [length_bytes]
    unfold truncateAtCharBoundary
    split_ifs with hfits
    · rwa [← utf8ByteSize_eq_byteLen]
    · obtain ⟨q, -, hlen⟩ :=
        append_of_isCharBoundary (isCharBoundary_boundaryBelow s.toList maxBytes)
      rw [String.toList_ofList, hlen]
      exact boundaryBelow_le s.toList maxBytes
  longest p hp hlen := by
    have hs : startsWith s (.ofList p) := startsWith_iff.mpr (by rwa [String.toList_ofList])
    have hkeep : startsWith (truncateAtCharBoundary s maxBytes) (.ofList p) :=
      startsWith_truncate (by rwa [String.toList_ofList]) hs
    rwa [startsWith_iff, String.toList_ofList] at hkeep

theorem truncate_eq_self {s : String} {maxBytes : ℕ} (h : (bytes s).length ≤ maxBytes) :
    truncateAtCharBoundary s maxBytes = s := by
  rw [length_bytes, ← utf8ByteSize_eq_byteLen] at h
  exact if_pos h

/-! ### What the statements store -/

/-- The `last_error` of the row is the reason cut at 4096 bytes: its first bytes, which are a text
again, as many as whole characters allow, and all of them when they fit. -/
def HoldsError (reason : String) (r : DeliveryRow) : Prop :=
  ∃ t, r.lastError = some t ∧ LongestWithin 4096 reason t ∧ bytes t <+: bytes reason ∧
    ((bytes reason).length ≤ 4096 → t = reason)

theorem holdsError_truncate {reason : String} {r : DeliveryRow}
    (h : r.lastError = some (truncateAtCharBoundary reason 4096)) : HoldsError reason r := by
  have hlong := longestWithin_truncate reason 4096
  refine ⟨_, h, hlong, ?_, truncate_eq_self⟩
  obtain ⟨q, hq⟩ := hlong.isBeginning
  rw [bytes, bytes, ← hq, List.flatMap_append]
  exact List.prefix_append _ _

/-- The rows that are inserted for rejected callbacks. -/
theorem holdsError_insert {db db' : Db} {now : Time} {u : Uuid} {entries : List (String × String)}
    (h : db.insertDeliveries now u (entries.map invalidRow) = some db') {d : ℤ} {r : DeliveryRow}
    (hr : db'.deliveries.get d = some r) : db.deliveries.get d = some r ∨
      ∃ entry ∈ entries, r.callbackName = entry.1 ∧ HoldsError entry.2 r := by
  rcases (insertDeliveries_spec h).get_cases hr with hold | ⟨-, hnew⟩
  · exact .inl hold
  · obtain ⟨n, hn, hrow⟩ := hnew.first
    obtain ⟨entry, hentry, rfl⟩ := List.mem_map.mp (List.mem_of_find?_eq_some hn)
    refine .inr ⟨entry, hentry, ?_, holdsError_truncate ?_⟩
    · rw [hrow]
      rfl
    · rw [hrow]
      rfl

/-- The row that a failure or the poison-pill guard writes, and the others. -/
theorem holdsError_exec {c : Stmt} {reason : String} (hg : ∀ now r, c.guard now r)
    (hc : ∀ now r, (c.assign now r).lastError = some (truncateAtCharBoundary reason 4096)) {db : Db}
    {now : Time} {id d : ℤ} {r : DeliveryRow} (hr : (c.exec db now id).deliveries.get d = some r) :
    if d = id then HoldsError reason r else db.deliveries.get d = some r := by
  rw [Stmt.get_exec] at hr
  obtain ⟨r₀, hr₀, rfl⟩ := Option.map_eq_some_iff.mp hr
  split_ifs with hd hw hw
  · exact holdsError_truncate (hc now r₀)
  · exact absurd ⟨hd, hg now r₀⟩ hw
  · exact absurd hw.1 hd
  · exact hr₀

/-- **Errors are cut safely and as late as possible.** The function on bytes ends without a fault on
every text and for every limit, with the bytes of the longest beginning of whole characters within
it; and so is what each of the four statements stores, all other rows being as they were. -/
theorem lastError_longest (s : String) (maxBytes : ℕ) :
    (∀ rounds, maxBytes < rounds →
      truncateBytes rounds (bytes s) maxBytes = some (bytes (truncateAtCharBoundary s maxBytes))) ∧
    LongestWithin maxBytes s (truncateAtCharBoundary s maxBytes) ∧
    ∀ (db : Db) (now : Time) (d : ℤ) (r : DeliveryRow),
      (∀ u callbackName reason db', createInvalidDelivery db now u callbackName reason = some db' →
        db'.deliveries.get d = some r →
          db.deliveries.get d = some r ∨ (r.callbackName = callbackName ∧ HoldsError reason r)) ∧
      (∀ u entries db', createInvalidDeliveries db now u entries = some db' →
        db'.deliveries.get d = some r → db.deliveries.get d = some r ∨
          ∃ entry ∈ entries, r.callbackName = entry.1 ∧ HoldsError entry.2 r) ∧
      (∀ id error availableAt deadLetter,
        (markFailure db now id error availableAt deadLetter).deliveries.get d = some r →
          if d = id then HoldsError error r else db.deliveries.get d = some r) ∧
      (∀ id reason, ((Stmt.deadLetterPoison reason).exec db now id).deliveries.get d = some r →
        if d = id then HoldsError reason r else db.deliveries.get d = some r) := by
  refine ⟨fun rounds h => truncateBytes_eq s h, longestWithin_truncate s maxBytes, fun db now d r =>
    ⟨?_, ?_, ?_, ?_⟩⟩
  · intro u callbackName reason db' h hr
    have hone : db.insertDeliveries now u ([(callbackName, reason)].map invalidRow) = some db' := h
    simpa using holdsError_insert hone hr
  · intro u entries db' h hr
    unfold createInvalidDeliveries at h
    split_ifs at h
    · cases h
      exact .inl hr
    · exact holdsError_insert h hr
  · intro id error availableAt deadLetter hr
    exact holdsError_exec (fun _ _ => rfl) (fun _ _ => rfl) hr
  · intro id reason hr
    exact holdsError_exec (fun _ _ => rfl) (fun _ _ => rfl) hr

end OutboxDispatcher.Repo.Truncate
