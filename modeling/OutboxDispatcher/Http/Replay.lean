import OutboxDispatcher.Http.Client

/-! # The replay window

`verify_header` is the receiver's side of a signature: it reads the timestamp of the header, turns
the request away when the timestamp is too old, and leaves the rest to `verify`. The age is a
saturating difference of unsigned numbers, so a timestamp ahead of the clock has no age at all,
however far ahead it is.

* `verifyHeader_iff`: what is accepted.
* `window_iff`: the window has two sides for a header iff the header is not one from the future.
* `tomorrow_accepted`: a header signed for the next day. -/

namespace OutboxDispatcher.Http.Replay

open OutboxDispatcher.Lib OutboxDispatcher.Lib.Text OutboxDispatcher.Schema
open OutboxDispatcher.Http.Signing OutboxDispatcher.Http.Client

/-- `Duration::as_secs`. -/
def asSecs (d : Duration) : ℕ := d / 10 ^ 9

section

variable [HmacCrate]

def verifyHeader (now : Time) (secret body : List UInt8) (headerValue : String)
    (maxAge : Duration) : Bool :=
  match parseTField headerValue with
  | none => false
  | some ts =>
    -- `saturating_sub`
    if (unixSecs now).toNat - ts.toNat > asSecs maxAge then false
    else verify secret ts body headerValue

/-! ### What is accepted -/

/-- The digest of the header is the code of the message. -/
def Authentic (secret : List UInt8) (ts : UInt64) (body : List UInt8) (headerValue : String) :
    Prop :=
  ∃ digest, parseV1Digest headerValue = some digest ∧
    Hex.decode digest = some (HmacCrate.mac secret (signingString ts body)).toList

/-- The timestamp is at most `maxAge` away from the clock, on either side. -/
def Recent (now : Time) (ts : UInt64) (maxAge : Duration) : Prop :=
  |((unixSecs now).toNat : ℤ) - ts.toNat| ≤ asSecs maxAge

theorem verify_iff {secret : List UInt8} {ts : UInt64} {body : List UInt8} {headerValue : String} :
    verify secret ts body headerValue ↔ Authentic secret ts body headerValue := by
  unfold verify Authentic
  cases hp : parseV1Digest headerValue with
  | none => simp
  | some digest =>
    cases hd : Hex.decode digest with
    | none => simp [hd]
    | some decoded => simp [hd]

variable {now : Time} {secret body : List UInt8} {headerValue : String} {maxAge : Duration}

/-- **What is accepted**: an authentic header whose timestamp is not too old. -/
theorem verifyHeader_iff : verifyHeader now secret body headerValue maxAge ↔
    ∃ ts, parseTField headerValue = some ts ∧ (unixSecs now).toNat ≤ ts.toNat + asSecs maxAge ∧
      Authentic secret ts body headerValue := by
  unfold verifyHeader
  cases ht : parseTField headerValue with
  | none => simp
  | some ts =>
    have hage : (unixSecs now).toNat - ts.toNat > asSecs maxAge ↔
        ¬(unixSecs now).toNat ≤ ts.toNat + asSecs maxAge := by omega
    simp only [Option.some.injEq, exists_eq_left', hage, ite_not]
    split_ifs with hle
    · simp [hle, verify_iff]
    · simp [hle]

omit [HmacCrate] in
theorem recent_iff {ts : UInt64} : Recent now ts maxAge ↔
    (unixSecs now).toNat ≤ ts.toNat + asSecs maxAge ∧
    ts.toNat ≤ (unixSecs now).toNat + asSecs maxAge := by
  unfold Recent
  rw [abs_le]
  omega

/-! ### Both sides of the window -/

/-- What is accepted is authentic and in the window, and a header that was signed outside of the
window is not accepted. -/
def WindowKept (now : Time) (secret body : List UInt8) (headerValue : String) (maxAge : Duration) :
    Prop :=
  (verifyHeader now secret body headerValue maxAge →
    ∃ ts, parseTField headerValue = some ts ∧ Recent now ts maxAge ∧
      Authentic secret ts body headerValue) ∧
  ∀ ts, headerValue = sign secret ts body → ¬Recent now ts maxAge →
    ¬verifyHeader now secret body headerValue maxAge

/-- The header is authentic, and its timestamp is more than `maxAge` ahead of the clock. -/
def FromFuture (now : Time) (secret body : List UInt8) (headerValue : String) (maxAge : Duration) :
    Prop :=
  ∃ ts, parseTField headerValue = some ts ∧ (unixSecs now).toNat + asSecs maxAge < ts.toNat ∧
    Authentic secret ts body headerValue

/-- **The window is kept** for a header iff the header is not from the future. -/
theorem window_iff (now : Time) (secret body : List UInt8) (headerValue : String)
    (maxAge : Duration) : WindowKept now secret body headerValue maxAge ↔
    ¬FromFuture now secret body headerValue maxAge := by
  constructor
  · rintro ⟨haccepted, -⟩ ⟨ts, hts, hahead, hauth⟩
    have hok : verifyHeader now secret body headerValue maxAge :=
      verifyHeader_iff.mpr ⟨ts, hts, by omega, hauth⟩
    obtain ⟨ts', hts', hwin, -⟩ := haccepted hok
    cases hts.symm.trans hts'
    have hle := (recent_iff.mp hwin).2
    omega
  · intro hnot
    have haccepted : verifyHeader now secret body headerValue maxAge →
        ∃ ts, parseTField headerValue = some ts ∧ Recent now ts maxAge ∧
          Authentic secret ts body headerValue := by
      intro hok
      obtain ⟨ts, hts, hage, hauth⟩ := verifyHeader_iff.mp hok
      refine ⟨ts, hts, recent_iff.mpr ⟨hage, ?_⟩, hauth⟩
      by_contra hahead
      exact hnot ⟨ts, hts, by omega, hauth⟩
    refine ⟨haccepted, fun ts hsign hout hok => hout ?_⟩
    -- the header has the timestamp it was signed with
    obtain ⟨ts', hts', hwin, -⟩ := haccepted hok
    rw [hsign, parseTField_sign] at hts'
    cases hts'
    exact hwin

/-- A header that was signed is accepted for as long as it is not too old. -/
theorem verifyHeader_sign {ts : UInt64} :
    verifyHeader now secret body (sign secret ts body) maxAge ↔
    (unixSecs now).toNat ≤ ts.toNat + asSecs maxAge := by
  have hauth : Authentic secret ts body (sign secret ts body) :=
    verify_iff.mp ((verify_sign_iff secret ts body ts body).mpr rfl)
  rw [verifyHeader_iff, parseTField_sign]
  simp [hauth]

end

/-- A day ahead of the clock, with a window of five minutes, whatever the digests are. -/
theorem tomorrow_accepted :
    ¬Recent (fromSecs 1714229400) 1714315800 (fromSecs 300) ∧
      ∀ _ : HmacCrate,
        verifyHeader (fromSecs 1714229400) sampleSecret sampleBody
            (sign sampleSecret 1714315800 sampleBody) (fromSecs 300) ∧
          ¬WindowKept (fromSecs 1714229400) sampleSecret sampleBody
            (sign sampleSecret 1714315800 sampleBody) (fromSecs 300) := by
  have hout : ¬Recent (fromSecs 1714229400) 1714315800 (fromSecs 300) := by
    rw [recent_iff]
    decide
  refine ⟨hout, fun _ => ?_⟩
  have hok : verifyHeader (fromSecs 1714229400) sampleSecret sampleBody
      (sign sampleSecret 1714315800 sampleBody) (fromSecs 300) := verifyHeader_sign.mpr (by decide)
  exact ⟨hok, fun hkept => hkept.2 _ rfl hout hok⟩

end OutboxDispatcher.Http.Replay
