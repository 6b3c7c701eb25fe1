import OutboxDispatcher.Lib.Text
import Mathlib.Tactic.Common

/-! # Base64

Bytes are cut into digits of six bits, the last one filled up with zeros, and the digits are written
in one of two alphabets, with or without `=` up to a multiple of four. These are the canonical
encodings.

One reader understands all four (`read_encode`): the alphabets differ in the last two digits only,
and no character is a digit of both with two values. So a text is a canonical encoding of one list
of bytes at most, whichever alphabet and padding it is in (`encode_inj`). -/

namespace OutboxDispatcher.Lib.Base64

open OutboxDispatcher.Lib.Text

/-- The alphabet and whether the encoding is padded. -/
structure Engine where
  urlSafe : Bool
  padded : Bool
  deriving DecidableEq

def digit (urlSafe : Bool) (n : ℕ) : Char :=
  if n < 26 then .ofNat ('A'.toNat + n)
  else if n < 52 then .ofNat ('a'.toNat + (n - 26))
  else if n < 62 then .ofNat ('0'.toNat + (n - 52))
  else if n = 62 then (if urlSafe then '-' else '+')
  else if urlSafe then '_' else '/'

def sextets : List UInt8 → List ℕ
  | [] => []
  | [a] => [a.toNat / 4, a.toNat % 4 * 16]
  | [a, b] => [a.toNat / 4, a.toNat % 4 * 16 + b.toNat / 16, b.toNat % 16 * 4]
  | a :: b :: c :: rest => a.toNat / 4 :: (a.toNat % 4 * 16 + b.toNat / 16) ::
      (b.toNat % 16 * 4 + c.toNat / 64) :: c.toNat % 64 :: sextets rest

def encode (e : Engine) (data : List UInt8) : String :=
  .ofList ((sextets data).map (digit e.urlSafe) ++
    if e.padded then List.replicate ((3 - data.length % 3) % 3) '=' else [])

/-! ### Reading -/

def value? (c : Char) : Option ℕ :=
  if 'A' ≤ c ∧ c ≤ 'Z' then some (c.toNat - 'A'.toNat)
  else if 'a' ≤ c ∧ c ≤ 'z' then some (c.toNat - 'a'.toNat + 26)
  else if c.isDigit then some (c.toNat - '0'.toNat + 52)
  else if c = '+' ∨ c = '-' then some 62
  else if c = '/' ∨ c = '_' then some 63
  else none

/-- The bytes of the digits; what is left of the last one is dropped. -/
def ofSextets : List ℕ → List UInt8
  | p :: q :: r :: s :: rest =>
    .ofNat (p * 4 + q / 16) :: .ofNat (q % 16 * 16 + r / 4) :: .ofNat (r % 4 * 64 + s) ::
      ofSextets rest
  | [p, q, r] => [.ofNat (p * 4 + q / 16), .ofNat (q % 16 * 16 + r / 4)]
  | [p, q] => [.ofNat (p * 4 + q / 16)]
  | _ => []

def read (s : String) : List UInt8 := ofSextets (s.toList.filterMap value?)

theorem value?_digit (urlSafe : Bool) : ∀ n < 64, value? (digit urlSafe n) = some n := by
  cases urlSafe <;> decide

theorem sextets_lt : ∀ (data : List UInt8), ∀ n ∈ sextets data, n < 64
  | [] => by simp [sextets]
  | [a] => by
    have ha := a.toNat_lt
    simp only [sextets, List.mem_cons, List.not_mem_nil, or_false]
    omega
  | [a, b] => by
    have ha := a.toNat_lt
    have hb := b.toNat_lt
    simp only [sextets, List.mem_cons, List.not_mem_nil, or_false]
    omega
  | a :: b :: c :: rest => by
    have ha := a.toNat_lt
    have hb := b.toNat_lt
    have hc := c.toNat_lt
    have ih := sextets_lt rest
    simp only [sextets, List.mem_cons]
    rintro n (rfl | rfl | rfl | rfl | hn)
    · omega
    · omega
    · omega
    · omega
    · exact ih n hn

theorem ofNat_eq {a : UInt8} {n : ℕ} (h : n = a.toNat) : UInt8.ofNat n = a := by
  rw [h, UInt8.ofNat_toNat]

/-- No bit is lost between bytes and digits. -/
theorem ofSextets_sextets : ∀ data : List UInt8, ofSextets (sextets data) = data
  | [] => rfl
  | [a] => by
    have ha := a.toNat_lt
    rw [sextets, ofSextets, ofNat_eq (a := a) (by omega)]
  | [a, b] => by
    have ha := a.toNat_lt
    have hb := b.toNat_lt
    rw [sextets, ofSextets, ofNat_eq (a := a) (by omega), ofNat_eq (a := b) (by omega)]
  | a :: b :: c :: rest => by
    have ha := a.toNat_lt
    have hb := b.toNat_lt
    have hc := c.toNat_lt
    rw [sextets, ofSextets, ofNat_eq (a := a) (by omega), ofNat_eq (a := b) (by omega),
      ofNat_eq (a := c) (by omega), ofSextets_sextets rest]

/-- **What is encoded is read**, in either alphabet, padded or not. -/
theorem read_encode (e : Engine) (data : List UInt8) : read (encode e data) = data := by
  have hdigits : ((sextets data).map (digit e.urlSafe)).filterMap value? = sextets data := by
    rw [List.filterMap_map]
    conv_rhs => rw [← List.filterMap_some (l := sextets data)]
    exact List.filterMap_congr fun n hn => value?_digit e.urlSafe n (sextets_lt data n hn)
  have hpad :
      (if e.padded then List.replicate ((3 - data.length % 3) % 3) '=' else []).filterMap value? =
      [] := by
    refine List.filterMap_eq_nil_iff.mpr fun c hc => ?_
    split_ifs at hc
    · rw [List.eq_of_mem_replicate hc]
      rfl
    · cases hc
  rw [read, encode, String.toList_ofList, List.filterMap_append, hdigits, hpad, List.append_nil,
    ofSextets_sextets]

/-- **A text is the encoding of one list of bytes**, whatever the engines. -/
theorem encode_inj {e e' : Engine} {data data' : List UInt8} (h : encode e data = encode e' data') :
    data = data' := by
  rw [← read_encode e data, h, read_encode]

theorem isWhitespace_of_mem_encode {e : Engine} {data : List UInt8} {c : Char}
    (h : c ∈ (encode e data).toList) : isWhitespace c = false := by
  have hdigit : ∀ n < 64, 0x20 < (digit e.urlSafe n).toNat ∧ (digit e.urlSafe n).toNat < 0x7F := by
    cases e.urlSafe <;> decide
  rw [encode, String.toList_ofList, List.mem_append] at h
  refine isWhitespace_eq_false ?_
  rcases h with h | h
  · obtain ⟨n, hn, rfl⟩ := List.mem_map.mp h
    exact hdigit n (sextets_lt data n hn)
  · split_ifs at h
    · rw [List.eq_of_mem_replicate h]
      decide
    · cases h

/-! ### Decoding -/

/-- The decoder of an engine: it accepts the canonical encodings. -/
def decode? (e : Engine) (s : String) : Option (List UInt8) :=
  if encode e (read s) = s then some (read s) else none

theorem decode?_eq_some {e : Engine} {s : String} {data : List UInt8} :
    decode? e s = some data ↔ s = encode e data := by
  unfold decode?
  constructor
  · intro h
    split_ifs at h with hs
    cases h
    exact hs.symm
  · rintro rfl
    rw [read_encode, if_pos rfl]

end OutboxDispatcher.Lib.Base64
