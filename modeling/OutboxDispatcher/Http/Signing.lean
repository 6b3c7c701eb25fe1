import OutboxDispatcher.Lib.Hex
import OutboxDispatcher.Lib.Text

/-! # Signatures of webhooks

The dispatcher signs a request with `X-Outbox-Signature: t=<ts>,v1=<hex(HMAC-SHA256(secret,
"<ts>.<body>"))>`, and the receiver looks for the two fields among the parts of the header, computes
the code again and compares. Here are both sides. The header is read as it was written
(`parseTField_sign`, `parseV1Digest_sign`), and a body that starts with digits and a dot is not
taken for part of the timestamp (`signingString_inj`). So a receiver accepts the header for another
message only if the two have the same code (`verify_sign_iff`). -/

namespace OutboxDispatcher.Http.Signing

open OutboxDispatcher.Lib OutboxDispatcher.Lib.Text

/-- The `hmac` crate with SHA-256: the code of a message under a secret. -/
class HmacCrate where
  mac : (secret message : List UInt8) → Vector UInt8 32

/-- What the code is computed of, the two `update`s. -/
def signingString (timestampSecs : UInt64) (body : List UInt8) : List UInt8 :=
  bytes s!"{timestampSecs}." ++ body

/-- The value of the first part of the header that has the key. -/
def parseField (key headerValue : String) : Option String :=
  (split ',' headerValue).findSome? fun part => stripPrefix key (trim part)

def parseTField (headerValue : String) : Option UInt64 :=
  (parseField "t=" headerValue).bind fun ts => (parseU64 ts).map .ofNat

def parseV1Digest (headerValue : String) : Option String := parseField "v1=" headerValue

section

variable [HmacCrate]

def sign (secret : List UInt8) (timestampSecs : UInt64) (body : List UInt8) : String :=
  let digest := HmacCrate.mac secret (signingString timestampSecs body)
  s!"t={timestampSecs},v1={Hex.encode digest.toList}"

def verify (secret : List UInt8) (timestampSecs : UInt64) (body : List UInt8)
    (headerValue : String) : Bool :=
  match parseV1Digest headerValue with
  | none => false
  | some hexDigest =>
    match Hex.decode hexDigest with
    | none => false
    | some decoded => decoded = (HmacCrate.mac secret (signingString timestampSecs body)).toList

end

/-! ### The header is read as it was written -/

/-- Decimal and hexadecimal digits, among others. -/
def Plain (value : String) : Prop := ∀ c ∈ value.toList, 48 ≤ c.toNat ∧ c.toNat ≤ 102

theorem plain_toString (n : ℕ) : Plain (toString n) := by
  intro c hc
  have := toNat_of_isDigit (isDigit_of_mem_toString hc)
  omega

theorem comma_notMem {key value : String} (hk : ',' ∉ key.toList) (hv : Plain value) :
    ',' ∉ (key ++ value).toList := by
  rw [String.toList_append, List.mem_append]
  rintro (hc | hc)
  · exact hk hc
  · exact absurd (hv _ hc).1 (by decide)

theorem trim_part {key value : String} (hk : key.toList.all (!isWhitespace ·)) (hv : Plain value) :
    trim (key ++ value) = key ++ value := by
  refine trim_eq_self fun c hc => ?_
  rw [String.toList_append, List.mem_append] at hc
  rcases hc with hc | hc
  · simpa using List.all_eq_true.mp hk c hc
  · have := hv c hc
    exact isWhitespace_eq_false (by omega)

section

variable [HmacCrate] (secret : List UInt8) (t : UInt64) (body : List UInt8)

theorem split_sign : split ',' (sign secret t body) =
    ["t=" ++ toString t.toNat,
      "v1=" ++ Hex.encode (HmacCrate.mac secret (signingString t body)).toList] := by
  have hsign : sign secret t body = "t=" ++ toString t.toNat ++ .singleton ',' ++
      ("v1=" ++ Hex.encode (HmacCrate.mac secret (signingString t body)).toList) := by
    show "t=" ++ toString t.toNat ++ ",v1=" ++ Hex.encode _ = _
    refine String.toList_injective ?_
    simp
  rw [hsign]
  exact split_append (comma_notMem (by decide) (plain_toString t.toNat))
    (comma_notMem (by decide) fun c hc => Hex.toNat_of_mem_encode hc)

theorem parseTField_sign : parseTField (sign secret t body) = some t := by
  have hfield : parseField "t=" (sign secret t body) = some (toString t.toNat) := by
    rw [parseField, split_sign, List.findSome?_cons, trim_part (by decide) (plain_toString _),
      stripPrefix_append]
  rw [parseTField, hfield, Option.bind_some, parseU64_toString t.toNat_lt, Option.map_some,
    UInt64.ofNat_toNat]

theorem parseV1Digest_sign : parseV1Digest (sign secret t body) =
    some (Hex.encode (HmacCrate.mac secret (signingString t body)).toList) := by
  have hno : stripPrefix "v1=" ("t=" ++ toString t.toNat) = none := by
    simp [stripPrefix, List.dropPrefix?]
  rw [parseV1Digest, parseField, split_sign, List.findSome?_cons,
    trim_part (by decide) (plain_toString _), hno, List.findSome?_cons,
    trim_part (by decide) fun c hc => Hex.toNat_of_mem_encode hc, stripPrefix_append]

/-! ### The message is read off the string that is signed -/

omit [HmacCrate] in
theorem signingString_eq : signingString t body = bytes (toString t.toNat) ++ 46 :: body := by
  show bytes (toString t.toNat ++ ".") ++ body = _
  rw [bytes, String.toList_append, List.flatMap_append, List.append_assoc]
  rfl

omit [HmacCrate] in
theorem dot_notMem (n : ℕ) : 46 ∉ bytes (toString n) := by
  intro h
  have hdigit : ∀ c ∈ (toString n).toList, 48 ≤ c.toNat ∧ c.toNat ≤ 57 :=
    fun c hc => toNat_of_isDigit (isDigit_of_mem_toString hc)
  obtain ⟨c, hc, heq⟩ := mem_bytes_of_ascii (fun c hc => by have := hdigit c hc; omega) h
  have hnat : c.toNat % 256 = 46 := congrArg UInt8.toNat heq
  have := hdigit c hc
  omega

omit [HmacCrate] in
/-- **The signed string is unambiguous**: the first dot ends the timestamp, whatever the body starts
with. -/
theorem signingString_inj {t t' : UInt64} {body body' : List UInt8}
    (h : signingString t body = signingString t' body') : t = t' ∧ body = body' := by
  rw [signingString_eq, signingString_eq] at h
  have hsplit := congrArg (List.splitOn 46) h
  rw [List.splitOn_append_cons_self_of_not_mem (dot_notMem _),
    List.splitOn_append_cons_self_of_not_mem (dot_notMem _), List.cons.injEq] at hsplit
  have ht : t = t' := by
    have hread := congrArg parseU64 (bytes_inj hsplit.1)
    rw [parseU64_toString t.toNat_lt, parseU64_toString t'.toNat_lt, Option.some.injEq] at hread
    exact UInt64.toNat_inj.mp hread
  subst ht
  exact ⟨rfl, (List.cons.inj (List.append_cancel_left h)).2⟩

/-- **What the receiver accepts**: the header of the message it has, or of one with the same code.
-/
theorem verify_sign_iff (t' : UInt64) (body' : List UInt8) :
    verify secret t' body' (sign secret t body) ↔
      HmacCrate.mac secret (signingString t body) =
      HmacCrate.mac secret (signingString t' body') := by
  unfold verify
  rw [parseV1Digest_sign]
  dsimp only
  rw [Hex.decode_encode]
  simp [Vector.toList_inj]

end

end OutboxDispatcher.Http.Signing
