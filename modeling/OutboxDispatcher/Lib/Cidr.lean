import Mathlib.Tactic.Common

/-! # Blocks of addresses

An address of `w` bits is in the block `base/len` when its first `len` bits are those of `base`. The
test is one shift (`inBlock_iff`). An address that is embedded in a longer one, behind a prefix of
its own, is what is left after the prefix (`append_ushiftRight`, `setWidth_append`). -/

namespace OutboxDispatcher.Lib.Cidr

variable {w n : ℕ} {base ip : BitVec w}

/-- The block `base/len`. -/
def InBlock (base : BitVec w) (len : ℕ) (ip : BitVec w) : Prop :=
  ∀ i < len, ip.getMsbD i = base.getMsbD i

/-- **Membership in a block is a comparison after a shift.** -/
theorem inBlock_iff {len : ℕ} (h : len ≤ w) :
    InBlock base len ip ↔ ip >>> (w - len) = base >>> (w - len) := by
  constructor
  · intro hb
    refine BitVec.eq_of_getMsbD_eq fun i hi => ?_
    rw [BitVec.getMsbD_ushiftRight, BitVec.getMsbD_ushiftRight]
    by_cases hlow : i < w - len
    · simp [hlow]
    · rw [hb (i - (w - len)) (by omega)]
  · intro heq i hi
    have hbit := congrArg (BitVec.getMsbD · (w - len + i)) heq
    have hin : w - len + i < w := by omega
    have hhigh : ¬w - len + i < w - len := by omega
    simpa [BitVec.getMsbD_ushiftRight, hin, hhigh] using hbit

/-- The prefix of an embedded address, and what is behind it. -/
theorem append_ushiftRight (x : BitVec n) (a : BitVec w) : (x ++ a) >>> w = x.setWidth (n + w) := by
  refine BitVec.eq_of_getLsbD_eq fun i hi => ?_
  rw [BitVec.getLsbD_ushiftRight, BitVec.getLsbD_append, BitVec.getLsbD_setWidth,
    if_neg (by omega), Nat.add_sub_cancel_left, decide_eq_true hi, Bool.true_and]

theorem setWidth_append (x : BitVec n) (a : BitVec w) : (x ++ a).setWidth w = a := by
  simp [BitVec.setWidth_append]

end OutboxDispatcher.Lib.Cidr
