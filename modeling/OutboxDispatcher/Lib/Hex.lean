import Mathlib.Tactic.Common

/-! # Hexadecimal

The `hex` crate: a byte is written as two digits in lower case, and both cases are read. What is
written is read (`decode_encode`).

Other crates are parameters of this development. This one is defined, because what is proved of the
headers is about the characters themselves: a digest has no comma in it, nothing to trim and no
character that a header value cannot have (`toNat_of_mem_encode`). -/

namespace OutboxDispatcher.Lib.Hex

def encodeByte (b : UInt8) : List Char :=
  [Nat.digitChar (b.toNat / 16), Nat.digitChar (b.toNat % 16)]

/-- `hex::encode`. -/
def encode (data : List UInt8) : String := .ofList (data.flatMap encodeByte)

def val? (c : Char) : Option ℕ :=
  if 'A' ≤ c ∧ c ≤ 'F' then some (c.toNat - 'A'.toNat + 10)
  else if 'a' ≤ c ∧ c ≤ 'f' then some (c.toNat - 'a'.toNat + 10)
  else if c.isDigit then some (c.toNat - '0'.toNat)
  else none

def decodeChars : List Char → Option (List UInt8)
  | [] => some []
  | [_] => none
  | hi :: lo :: rest => do
    let h ← val? hi
    let l ← val? lo
    let data ← decodeChars rest
    return .ofNat (16 * h + l) :: data

/-- `hex::decode`; no character outside ASCII is a digit, and neither are its bytes. -/
def decode (s : String) : Option (List UInt8) := decodeChars s.toList

theorem val?_digitChar : ∀ n < 16, val? (Nat.digitChar n) = some n := by decide

theorem decodeChars_flatMap : ∀ data : List UInt8, decodeChars (data.flatMap encodeByte) = some data
  | [] => rfl
  | b :: data => by
    have hlt := b.toNat_lt
    have hb : UInt8.ofNat (16 * (b.toNat / 16) + b.toNat % 16) = b := by
      rw [Nat.div_add_mod, UInt8.ofNat_toNat]
    rw [List.flatMap_cons, encodeByte, List.cons_append, List.singleton_append, decodeChars,
      val?_digitChar _ (by omega), val?_digitChar _ (by omega), decodeChars_flatMap data]
    simp only [Option.bind_eq_bind, Option.bind_some, Option.pure_def, hb]

/-- **What is encoded is decoded.** -/
theorem decode_encode (data : List UInt8) : decode (encode data) = some data := by
  rw [decode, encode, String.toList_ofList, decodeChars_flatMap]

theorem toNat_of_mem_encode {data : List UInt8} {c : Char} (h : c ∈ (encode data).toList) :
    48 ≤ c.toNat ∧ c.toNat ≤ 102 := by
  have hdigit : ∀ n < 16, 48 ≤ (Nat.digitChar n).toNat ∧ (Nat.digitChar n).toNat ≤ 102 := by decide
  rw [encode, String.toList_ofList] at h
  obtain ⟨b, -, hc⟩ := List.mem_flatMap.mp h
  have hlt := b.toNat_lt
  simp only [encodeByte, List.mem_cons, List.not_mem_nil, or_false] at hc
  rcases hc with rfl | rfl
  · exact hdigit _ (by omega)
  · exact hdigit _ (by omega)

end OutboxDispatcher.Lib.Hex
