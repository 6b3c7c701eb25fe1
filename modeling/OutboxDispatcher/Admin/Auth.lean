import OutboxDispatcher.Lib.Text

/-! # Who gets in

All endpoints of the admin API but the probes are behind `require_bearer_token`, which looks at the
value of the header `Authorization`: bytes, which need not be text. The value must be visible ASCII,
spaces and tabs, have the scheme `Bearer` in any case before its first space, and be the configured
token after it, byte for byte. A token with any other byte in it lets nobody in. -/

namespace OutboxDispatcher.Admin.Auth

open OutboxDispatcher.Lib.Text

/-- The bytes that `HeaderValue::to_str` accepts: visible ASCII, the space and the tab. -/
def isVisibleAscii (b : UInt8) : Bool := (32 ≤ b && b < 127) || b == 9

/-- `str::split_once(' ')`. -/
def splitOnceSpace : List UInt8 → Option (List UInt8 × List UInt8)
  | [] => none
  | b :: bs => if b = 32 then some ([], bs) else (splitOnceSpace bs).map fun p => (b :: p.1, p.2)

def toAsciiLowercaseByte (b : UInt8) : UInt8 := if 65 ≤ b ∧ b ≤ 90 then b + 32 else b

/-- `str::eq_ignore_ascii_case`. -/
def eqIgnoreAsciiCase (s t : List UInt8) : Bool :=
  s.map toAsciiLowercaseByte == t.map toAsciiLowercaseByte

/-- `require_bearer_token`, for the value of the header if there is one. -/
def authorised (expected : String) (authorization : Option (List UInt8)) : Bool :=
  (((authorization.filter (·.all isVisibleAscii)).bind splitOnceSpace).filter fun p =>
    eqIgnoreAsciiCase p.1 (bytes "Bearer")).any (·.2 == bytes expected)

theorem splitOnceSpace_eq_some {scheme rest : List UInt8} : ∀ {bs : List UInt8},
    splitOnceSpace bs = some (scheme, rest) ↔ bs = scheme ++ 32 :: rest ∧ 32 ∉ scheme
  | [] => by simp [splitOnceSpace]
  | b :: bs => by
    unfold splitOnceSpace
    split_ifs with hb
    · subst hb
      rw [Option.some.injEq, Prod.mk.injEq]
      constructor
      · rintro ⟨rfl, rfl⟩
        simp
      · rintro ⟨hbs, hno⟩
        cases scheme with
        | nil => simpa using hbs
        | cons c cs =>
          obtain ⟨rfl, -⟩ := List.cons.inj hbs
          exact absurd List.mem_cons_self hno
    · rw [Option.map_eq_some_iff]
      constructor
      · rintro ⟨⟨scheme', rest'⟩, hs, heq⟩
        obtain ⟨rfl, rfl⟩ := Prod.mk.inj heq
        obtain ⟨rfl, hno⟩ := splitOnceSpace_eq_some.mp hs
        exact ⟨rfl, by simpa [Ne.symm hb] using hno⟩
      · rintro ⟨hbs, hno⟩
        cases scheme with
        | nil => exact absurd (List.cons.inj hbs).1 hb
        | cons c cs =>
          obtain ⟨rfl, htail⟩ := List.cons.inj hbs
          exact ⟨(cs, rest),
            splitOnceSpace_eq_some.mpr ⟨htail, fun hm => hno (List.mem_cons_of_mem _ hm)⟩, rfl⟩

/-- The scheme, in any case. -/
def IsBearer (scheme : List UInt8) : Prop := eqIgnoreAsciiCase scheme (bytes "Bearer")

theorem letter_of_lowercase {b : UInt8}
    (h : toAsciiLowercaseByte b ∈ (bytes "Bearer").map toAsciiLowercaseByte) :
    b ≠ 32 ∧ isVisibleAscii b := by
  have hall :
      ∀ b : Fin 256, toAsciiLowercaseByte (.ofFin b) ∈ (bytes "Bearer").map toAsciiLowercaseByte →
      (UInt8.ofFin b ≠ 32 ∧ isVisibleAscii (.ofFin b)) := by decide +kernel
  exact hall b.toFin h

theorem IsBearer.letters {scheme : List UInt8} (h : IsBearer scheme) : ∀ b ∈ scheme, b ≠ 32 ∧
    isVisibleAscii b := by
  intro b hb
  refine letter_of_lowercase ?_
  rw [← eq_of_beq h]
  exact List.mem_map_of_mem hb

/-- **Who gets in.** A request is let through exactly when its header is `Bearer` in some case, one
space and the token, and the token is visible ASCII. -/
theorem authorised_iff (expected : String) (authorization : Option (List UInt8)) :
    authorised expected authorization ↔ (∀ b ∈ bytes expected, isVisibleAscii b) ∧
      ∃ scheme, IsBearer scheme ∧ authorization = some (scheme ++ 32 :: bytes expected) := by
  simp only [authorised, Option.any_eq_true, Option.filter_eq_some_iff, Option.bind_eq_some_iff,
    beq_iff_eq, List.all_eq_true]
  constructor
  · rintro ⟨⟨scheme, rest⟩, ⟨⟨bs, ⟨rfl, hvis⟩, hsplit⟩, hb⟩, rfl⟩
    obtain ⟨rfl, -⟩ := splitOnceSpace_eq_some.mp hsplit
    exact ⟨fun b hm => hvis b (by simp [hm]), scheme, hb, rfl⟩
  · rintro ⟨hvis, scheme, hb, rfl⟩
    refine ⟨(scheme, bytes expected), ⟨⟨_, ⟨rfl, fun b hm => ?_⟩, ?_⟩, hb⟩, rfl⟩
    · rcases List.mem_append.mp hm with hm | hm
      · exact (hb.letters b hm).2
      · rcases List.mem_cons.mp hm with rfl | hm
        · decide
        · exact hvis b hm
    · exact splitOnceSpace_eq_some.mpr ⟨rfl, fun hm => (hb.letters 32 hm).1 rfl⟩

end OutboxDispatcher.Admin.Auth
