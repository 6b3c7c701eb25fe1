import Mathlib.Algebra.Order.Ring.Int
import Mathlib.Data.List.Basic
import Mathlib.Tactic.Common

/-! # Text

The operations on strings that Rust's standard library offers, on the list of characters: trimming,
splitting, ASCII case folding, suffix and prefix tests, byte boundaries, and decimal numbers of 64
bits. A number that is printed is read again, also from among other fields. -/

namespace OutboxDispatcher.Lib.Text

/-- `char::is_whitespace`: the characters with the Unicode property `White_Space`. -/
def isWhitespace (c : Char) : Bool :=
  let n := c.toNat
  (9 ≤ n && n ≤ 13) || n == 0x20 || n == 0x85 || n == 0xA0 || n == 0x1680 ||
    (0x2000 ≤ n && n ≤ 0x200A) || n == 0x2028 || n == 0x2029 || n == 0x202F || n == 0x205F ||
    n == 0x3000

/-- `str::trim`. -/
def trim (s : String) : String :=
  .ofList (((s.toList.dropWhile isWhitespace).reverse.dropWhile isWhitespace).reverse)

/-- `str::trim_end_matches` with a character. -/
def trimEndMatches (c : Char) (s : String) : String :=
  .ofList ((s.toList.reverse.dropWhile (· == c)).reverse)

/-- `str::to_ascii_lowercase`. -/
def toAsciiLowercase (s : String) : String := .ofList (s.toList.map Char.toLower)

/-- `str::starts_with`. -/
def startsWith (s p : String) : Bool := p.toList.isPrefixOf s.toList

/-- `str::ends_with`. -/
def endsWith (s p : String) : Bool := p.toList.isSuffixOf s.toList

/-- `str::strip_prefix`. -/
def stripPrefix (p s : String) : Option String := (s.toList.dropPrefix? p.toList).map .ofList

/-- `str::split` with a character. -/
def split (sep : Char) (s : String) : List String := (s.toList.splitOn sep).map .ofList

/-! ### Ends of a text -/

theorem startsWith_iff {s p : String} : startsWith s p ↔ p.toList <+: s.toList :=
  List.isPrefixOf_iff_prefix

/-- Of literals, without going through their bytes. -/
theorem startsWith_ofList {p cs : List Char} (h : p.isPrefixOf cs) :
    startsWith (.ofList cs) (.ofList p) := by
  rw [startsWith, String.toList_ofList, String.toList_ofList]
  exact h

theorem startsWith_append {s p : String} (h : startsWith s p) (t : String) :
    startsWith (s ++ t) p := by
  rw [startsWith_iff] at h ⊢
  rw [String.toList_append]
  exact h.trans (List.prefix_append _ _)

theorem endsWith_iff {s p : String} : endsWith s p ↔ p.toList <:+ s.toList :=
  List.isSuffixOf_iff_suffix

theorem endsWith_append (s : String) {t p : String} (h : endsWith t p) : endsWith (s ++ t) p := by
  rw [endsWith_iff] at h ⊢
  rw [String.toList_append]
  exact h.trans (List.suffix_append _ _)

theorem trimEndMatches_append {c : Char} (s : String) {t : String} (h : trimEndMatches c t ≠ "") :
    trimEndMatches c (s ++ t) = s ++ trimEndMatches c t := by
  have hne : t.toList.reverse.dropWhile (· == c) ≠ [] := by
    intro hnil
    exact h (by rw [trimEndMatches, hnil]; rfl)
  rw [trimEndMatches, String.toList_append, List.reverse_append, List.dropWhile_append,
    if_neg (by simpa using hne), List.reverse_append, List.reverse_reverse, String.ofList_append,
    String.ofList_toList]
  rfl

theorem trimEndMatches_append_replicate (c : Char) (s : String) (n : ℕ) :
    trimEndMatches c (s ++ .ofList (List.replicate n c)) = trimEndMatches c s := by
  have hnil : (List.replicate n c).dropWhile (· == c) = [] := by
    simp
  rw [trimEndMatches, String.toList_append, String.toList_ofList, List.reverse_append,
    List.reverse_replicate, List.dropWhile_append, hnil]
  rfl

/-! ### ASCII case -/

/-- Of literals, without going through their bytes. -/
theorem toAsciiLowercase_ofList {cs ds : List Char} (h : cs.map Char.toLower = ds) :
    toAsciiLowercase (.ofList cs) = .ofList ds := by
  rw [toAsciiLowercase, String.toList_ofList, h]

theorem toAsciiLowercase_append (s t : String) :
    toAsciiLowercase (s ++ t) = toAsciiLowercase s ++ toAsciiLowercase t := by
  simp [toAsciiLowercase]

theorem toLower_eq_or (c : Char) : c.toLower = c ∨
    (65 ≤ c.toNat ∧ c.toNat ≤ 90 ∧ c.toLower.toNat = c.toNat + 32) := by
  unfold Char.toLower
  split
  · next h =>
    have hlo : 65 ≤ c.toNat := UInt32.le_iff_toNat_le.mp h.1
    have hhi : c.toNat ≤ 90 := UInt32.le_iff_toNat_le.mp h.2
    refine .inr ⟨hlo, hhi, ?_⟩
    show (c.val + 32).toNat = c.val.toNat + 32
    rw [UInt32.toNat_add]
    exact Nat.mod_eq_of_lt (by show c.toNat + 32 < 2 ^ 32; omega)
  · exact .inl rfl

/-- A dot is no letter, so that trimming dots and folding the case commute. -/
theorem toAsciiLowercase_trimEnd_dot (s : String) :
    toAsciiLowercase (trimEndMatches '.' s) = trimEndMatches '.' (toAsciiLowercase s) := by
  have hdot : ∀ c : Char, (c.toLower == '.') = (c == '.') := by
    intro c
    rcases toLower_eq_or c with h | ⟨hlo, hhi, h⟩
    · rw [h]
    · have hlower : c.toLower ≠ '.' := by
        intro heq
        rw [heq] at h
        have hnum : '.'.toNat = 46 := rfl
        omega
      have hupper : c ≠ '.' := by
        rintro rfl
        have hnum : '.'.toNat = 46 := rfl
        omega
      rw [beq_eq_false_iff_ne.mpr hlower, beq_eq_false_iff_ne.mpr hupper]
  unfold toAsciiLowercase trimEndMatches
  rw [String.toList_ofList, String.toList_ofList, ← List.map_reverse, List.dropWhile_map,
    List.map_reverse]
  simp only [Function.comp_def, hdot]

/-! ### Bytes -/

/-- `str::bytes`. -/
def bytes (s : String) : List UInt8 := s.toList.flatMap String.utf8EncodeChar

theorem bytes_inj {s t : String} (h : bytes s = bytes t) : s = t := by
  have hencode : s.toList.utf8Encode = t.toList.utf8Encode := congrArg List.toByteArray h
  have hdecode := List.utf8Decode?_utf8Encode (l := s.toList)
  rw [hencode, List.utf8Decode?_utf8Encode, Option.some.injEq] at hdecode
  exact String.toList_injective (Array.toList_inj.mpr hdecode).symm

theorem mem_bytes_of_ascii {s : String} (h : ∀ c ∈ s.toList, c.toNat < 128) {b : UInt8}
    (hb : b ∈ bytes s) : ∃ c ∈ s.toList, c.toUInt8 = b := by
  obtain ⟨c, hc, hb⟩ := List.mem_flatMap.mp hb
  have hsize : c.utf8Size = 1 :=
    Char.utf8Size_eq_one_iff.mpr (UInt32.le_iff_toNat_le.mpr (Nat.le_of_lt_succ (h c hc)))
  rw [String.utf8EncodeChar_eq_singleton hsize, List.mem_singleton] at hb
  exact ⟨c, hc, hb.symm⟩

/-- Every byte of a character that is not ASCII has its high bit set. -/
theorem le_of_mem_utf8EncodeChar {c : Char} (h : 128 ≤ c.toNat) {b : UInt8}
    (hb : b ∈ String.utf8EncodeChar c) : 128 ≤ b.toNat := by
  have hv : c.val.toNat = c.toNat := rfl
  unfold String.utf8EncodeChar at hb
  dsimp only at hb
  rw [hv, if_neg (by omega)] at hb
  split_ifs at hb <;> simp only [List.mem_cons, List.not_mem_nil, or_false] at hb
  · rcases hb with rfl | rfl <;> simp only [UInt8.toNat_ofNat'] <;> omega
  · rcases hb with rfl | rfl | rfl <;> simp only [UInt8.toNat_ofNat'] <;> omega
  · rcases hb with rfl | rfl | rfl | rfl <;> simp only [UInt8.toNat_ofNat'] <;> omega

/-- The number of bytes of the characters. -/
def byteLen (cs : List Char) : ℕ := (cs.map Char.utf8Size).sum

/-- `str::is_char_boundary`: byte `i` starts a character, or ends the text. -/
def isCharBoundary : List Char → ℕ → Bool
  | _, 0 => true
  | [], _ + 1 => false
  | c :: cs, i + 1 => c.utf8Size ≤ i + 1 && isCharBoundary cs (i + 1 - c.utf8Size)

/-- The characters that lie in the first `n` bytes, `n` a boundary: `&s[..n]`. -/
def takeBytes : List Char → ℕ → List Char
  | [], _ => []
  | c :: cs, n => if c.utf8Size ≤ n then c :: takeBytes cs (n - c.utf8Size) else []

theorem isCharBoundary_append (p cs : List Char) : isCharBoundary (p ++ cs) (byteLen p) := by
  induction p with
  | nil => simp [byteLen, isCharBoundary]
  | cons c p ih =>
    have hlen : byteLen (c :: p) = c.utf8Size + byteLen p := by simp [byteLen]
    obtain ⟨n, hn⟩ : ∃ n, byteLen (c :: p) = n + 1 :=
      Nat.exists_eq_add_one.mpr (by rw [hlen]; exact Nat.add_pos_left c.utf8Size_pos _)
    rw [hn, List.cons_append, isCharBoundary, ← hn, hlen, Bool.and_eq_true, Nat.add_sub_cancel_left]
    exact ⟨decide_eq_true (Nat.le_add_right _ _), ih⟩

theorem takeBytes_append (p cs : List Char) (n : ℕ) :
    takeBytes (p ++ cs) (byteLen p + n) = p ++ takeBytes cs n := by
  induction p with
  | nil => simp [byteLen]
  | cons c p ih =>
    have hlen : byteLen (c :: p) = c.utf8Size + byteLen p := by simp [byteLen]
    rw [List.cons_append, takeBytes, hlen, if_pos (by omega), List.cons_append,
      show c.utf8Size + byteLen p + n - c.utf8Size = byteLen p + n by omega, ih]

/-- `u8::is_utf8_char_boundary`, `(b as i8) >= -0x40`: a byte that does not continue a character. -/
def isBoundaryByte (b : UInt8) : Bool := b.toNat < 0x80 || 0xC0 ≤ b.toNat

/-- `str::is_char_boundary` as it is computed, on the bytes. -/
def isBoundaryAt (bs : List UInt8) (i : ℕ) : Bool :=
  i == 0 || match bs[i]? with
    | none => i == bs.length
    | some b => isBoundaryByte b

theorem length_flatMap_utf8EncodeChar (cs : List Char) :
    (cs.flatMap String.utf8EncodeChar).length = byteLen cs := by
  rw [List.length_flatMap, byteLen]
  simp only [String.length_utf8EncodeChar]

theorem length_bytes (s : String) : (bytes s).length = byteLen s.toList :=
  length_flatMap_utf8EncodeChar s.toList

theorem utf8ByteSize_eq_byteLen (s : String) : s.utf8ByteSize = byteLen s.toList := by
  have hsize : s.utf8ByteSize = s.toList.utf8Encode.size := by
    rw [String.utf8Encode_toList, String.size_toByteArray]
  rw [hsize, List.utf8Encode, List.size_toByteArray, length_flatMap_utf8EncodeChar]

/-- The first byte of a character is told from the others. -/
theorem utf8EncodeChar_eq_cons (c : Char) : ∃ b bs, String.utf8EncodeChar c = b :: bs ∧
    isBoundaryByte b ∧ ∀ b' ∈ bs, isBoundaryByte b' = false := by
  have hlt : c.toNat < 0x110000 := by
    have hv : c.toNat < 0xD800 ∨ (0xDFFF < c.toNat ∧ c.toNat < 0x110000) := c.valid
    omega
  have hval : c.val.toNat = c.toNat := rfl
  unfold String.utf8EncodeChar isBoundaryByte
  dsimp only
  rw [hval]
  -- one to four bytes, by the size of the code point
  split_ifs
  all_goals
    refine ⟨_, _, rfl, ?_, ?_⟩
    · simp
      omega
    · simp
      try omega

/-- Behind the first byte of a character are the bytes that continue it, then what comes next. -/
theorem isBoundaryAt_cons_append {b : UInt8} {bs rest : List UInt8}
    (hbs : ∀ b' ∈ bs, isBoundaryByte b' = false) (hrest : ∀ b' ∈ rest.head?, isBoundaryByte b')
    (i : ℕ) : isBoundaryAt (b :: bs ++ rest) (i + 1) =
      (decide (bs.length + 1 ≤ i + 1) && isBoundaryAt rest (i + 1 - (bs.length + 1))) := by
  have hget : (b :: bs ++ rest)[i + 1]? = (bs ++ rest)[i]? := rfl
  unfold isBoundaryAt
  rw [hget]
  by_cases hi : i < bs.length
  · have hcont := hbs _ (List.getElem_mem hi)
    have hle : ¬bs.length + 1 ≤ i + 1 := by omega
    rw [List.getElem?_append_left hi, List.getElem?_eq_getElem hi, decide_eq_false hle]
    simp [hcont]
  · obtain ⟨j, rfl⟩ := Nat.exists_eq_add_of_le (Nat.le_of_not_lt hi)
    rw [List.getElem?_append_right (Nat.le_add_right _ _), Nat.add_sub_cancel_left,
      show bs.length + j + 1 - (bs.length + 1) = j by omega]
    cases j with
    | zero =>
      -- what comes next starts here, or the text ends
      cases rest with
      | nil => simp
      | cons b' rest => simp [hrest b' rfl]
    | succ j => cases rest[j + 1]? <;> simp

/-- **The test on the bytes finds the boundaries of the characters.** -/
theorem isBoundaryAt_flatMap (cs : List Char) (i : ℕ) :
    isBoundaryAt (cs.flatMap String.utf8EncodeChar) i = isCharBoundary cs i := by
  induction cs generalizing i with
  | nil => cases i <;> simp [isBoundaryAt, isCharBoundary]
  | cons c cs ih =>
    obtain ⟨b, bs, hc, -, hbs⟩ := utf8EncodeChar_eq_cons c
    have hlen : c.utf8Size = bs.length + 1 := by
      rw [← String.length_utf8EncodeChar, hc, List.length_cons]
    have hrest : ∀ b' ∈ (cs.flatMap String.utf8EncodeChar).head?, isBoundaryByte b' := by
      cases cs with
      | nil => simp
      | cons c' cs =>
        obtain ⟨b', bs', hc', hb', -⟩ := utf8EncodeChar_eq_cons c'
        simp [hc', hb']
    cases i with
    | zero => simp [isBoundaryAt, isCharBoundary]
    | succ i =>
      rw [isCharBoundary, ← ih, List.flatMap_cons, hc, hlen, isBoundaryAt_cons_append hbs hrest]

theorem takeBytes_byteLen (p q : List Char) : takeBytes (p ++ q) (byteLen p) = p := by
  have hzero : takeBytes q 0 = [] := by
    cases q with
    | nil => rfl
    | cons c q => rw [takeBytes, if_neg (by have := c.utf8Size_pos; omega)]
  have h := takeBytes_append p q 0
  rwa [Nat.add_zero, hzero, List.append_nil] at h

/-- A boundary cuts between whole characters. -/
theorem append_of_isCharBoundary {cs : List Char} {i : ℕ} (h : isCharBoundary cs i) :
    ∃ q, cs = takeBytes cs i ++ q ∧ byteLen (takeBytes cs i) = i := by
  suffices hsplit : ∃ p q, cs = p ++ q ∧ byteLen p = i by
    obtain ⟨p, q, rfl, rfl⟩ := hsplit
    rw [takeBytes_byteLen]
    exact ⟨q, rfl, rfl⟩
  induction cs generalizing i with
  | nil =>
    cases i with
    | zero => exact ⟨[], [], rfl, rfl⟩
    | succ i => simp [isCharBoundary] at h
  | cons c cs ih =>
    cases i with
    | zero => exact ⟨[], c :: cs, rfl, rfl⟩
    | succ i =>
      rw [isCharBoundary, Bool.and_eq_true, decide_eq_true_eq] at h
      obtain ⟨p, q, rfl, hp⟩ := ih h.2
      have hlen : byteLen (c :: p) = c.utf8Size + byteLen p := by simp [byteLen]
      exact ⟨c :: p, q, rfl, by omega⟩

/-! ### Numbers -/

/-- The value of a non-empty list of decimal digits. -/
def decimal? (cs : List Char) : Option ℕ :=
  if cs.isEmpty then none
  else cs.foldlM (fun n c => if c.isDigit then some (10 * n + (c.toNat - '0'.toNat)) else none) 0

/-- `str::parse::<u64>`: decimal digits with an optional plus sign, below `2 ^ 64`. -/
def parseU64 (s : String) : Option ℕ :=
  let digits := match s.toList with
    | '+' :: cs => cs
    | cs => cs
  (decimal? digits).filter (· < 2 ^ 64)

/-! ### What is printed is read -/

theorem isWhitespace_eq_false {c : Char} (h : 0x20 < c.toNat ∧ c.toNat < 0x7F) :
    isWhitespace c = false := by
  unfold isWhitespace
  simp only [Bool.or_eq_false_iff, Bool.and_eq_false_iff, decide_eq_false_iff_not,
    beq_eq_false_iff_ne]
  omega

theorem trim_eq_self {s : String} (h : ∀ c ∈ s.toList, isWhitespace c = false) : trim s = s := by
  have hdrop : ∀ l : List Char, (∀ c ∈ l, isWhitespace c = false) →
      l.dropWhile isWhitespace = l := by
    intro l hl
    cases l with
    | nil => rfl
    | cons c l => simp [hl c (List.mem_cons_self ..)]
  rw [trim, hdrop _ h, hdrop _ (by simpa using h), List.reverse_reverse, String.ofList_toList]

theorem stripPrefix_append (p s : String) : stripPrefix p (p ++ s) = some s := by
  have hdrop : (p ++ s).toList.dropPrefix? p.toList = some s.toList :=
    List.dropPrefix?_eq_some_iff.mpr ⟨p.toList, by simp, beq_self_eq_true _⟩
  rw [stripPrefix, hdrop, Option.map_some, String.ofList_toList]

theorem split_append {sep : Char} {s t : String} (hs : sep ∉ s.toList) (ht : sep ∉ t.toList) :
    split sep (s ++ .singleton sep ++ t) = [s, t] := by
  have hlist : (s ++ .singleton sep ++ t).toList = s.toList ++ sep :: t.toList := by simp
  rw [split, hlist, List.splitOn_append_cons_self_of_not_mem hs, List.splitOn_eq_singleton ht]
  simp

theorem toNat_of_isDigit {c : Char} (h : c.isDigit) : 48 ≤ c.toNat ∧ c.toNat ≤ 57 := by
  simp only [Char.isDigit, Bool.and_eq_true, decide_eq_true_eq] at h
  exact ⟨h.1, h.2⟩

theorem isLower_iff_range {c : Char} : c.isLower ↔ 'a' ≤ c ∧ c ≤ 'z' := by
  show (decide (c.val ≥ 'a'.val) && decide (c.val ≤ 'z'.val)) = true ↔ _
  rw [Bool.and_eq_true, decide_eq_true_eq, decide_eq_true_eq]
  exact Iff.rfl

theorem isDigit_of_mem_toDigits {n : ℕ} : ∀ c ∈ Nat.toDigits 10 n, c.isDigit :=
  fun _ hc => Nat.isDigit_of_mem_toDigits (by decide) (by decide) hc

theorem isDigit_of_mem_toString {n : ℕ} {c : Char} (h : c ∈ (toString n).toList) : c.isDigit := by
  rw [Nat.toString_eq_ofList_toDigits, String.toList_ofList] at h
  exact isDigit_of_mem_toDigits c h

theorem foldlM_of_isDigit : ∀ {cs : List Char} (n : ℕ), (∀ c ∈ cs, c.isDigit) →
    cs.foldlM (fun n c => if c.isDigit then some (10 * n + (c.toNat - '0'.toNat)) else none) n =
      some (Nat.ofDigitChars 10 cs n)
  | [], n, _ => by simp
  | c :: cs, n, h => by
    have hc := h c (List.mem_cons_self ..)
    have ih := foldlM_of_isDigit (10 * n + (c.toNat - '0'.toNat))
      fun c' h' => h c' (List.mem_cons_of_mem _ h')
    rw [List.foldlM_cons, if_pos hc, Option.bind_eq_bind, Option.bind_some, ih,
      Nat.ofDigitChars_eq_foldl, Nat.ofDigitChars_eq_foldl]
    rfl

/-- **A number of 64 bits that is printed is read.** -/
theorem parseU64_toString {n : ℕ} (h : n < 2 ^ 64) : parseU64 (toString n) = some n := by
  have hdig : ∀ c ∈ Nat.toDigits 10 n, c.isDigit := isDigit_of_mem_toDigits
  have hval := foldlM_of_isDigit 0 hdig
  rw [Nat.ofDigitChars_ten_toDigits] at hval
  have hne : Nat.toDigits 10 n ≠ [] := Nat.toDigits_ne_nil
  unfold parseU64
  rw [Nat.toString_eq_ofList_toDigits, String.toList_ofList]
  generalize Nat.toDigits 10 n = cs at hdig hval hne
  have hdec : decimal? cs = some n := by
    rw [decimal?, if_neg (by simpa using hne), hval]
  dsimp only
  split
  · exact absurd (hdig '+' (List.mem_cons_self ..)) (by decide)
  · rw [hdec, Option.filter_some, if_pos (decide_eq_true h)]

end OutboxDispatcher.Lib.Text
