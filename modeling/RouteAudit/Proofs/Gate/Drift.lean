import RouteAudit.Proofs.Gate.Comparison

/-! # How exact a drift is

A drift has 64 bits with sign, and the difference of two counts of 64 bits needs one more. Both
counts are taken as numbers with sign before one is subtracted from the other, so those from 2^63 on
start out negative. What comes of it is the exact difference up to multiples of 2^64: exact and of
the right sign wherever the difference fits, and of the wrong sign wherever it does not
(`drift_exact_where_it_fits`).
-/

namespace RouteAudit.Gate

open Risk (Level Summary)

/-- A number fits into 64 bits with sign. -/
def Fits (n : Int) : Prop := -2 ^ 63 ≤ n ∧ n < 2 ^ 63

namespace Drift

/-- How a count moved, exactly. -/
def exact (now before : UInt64) : Int := now.toNat - before.toNat

/-- Taken with sign, one count cannot be subtracted from the other in 64 bits. -/
def Overflows (now before : UInt64) : Prop := ¬ Fits (now.toInt64.toInt - before.toInt64.toInt)

section

variable (now before : UInt64)

theorem toInt_toInt64_bmod (n : UInt64) : n.toInt64.toInt = (n.toNat : Int).bmod (2 ^ 64) :=
  BitVec.toInt_eq_toNat_bmod n.toInt64.toBitVec

/-- A count from 2^63 on is less by 2^64 when it is taken with sign. -/
theorem toInt_toInt64_eq (n : UInt64) :
    n.toInt64.toInt = if n.toNat < 2 ^ 63 then (n.toNat : Int) else n.toNat - 2 ^ 64 := by
  have hless := n.toNat_lt
  rw [toInt_toInt64_bmod]
  split
  · exact Int.bmod_eq_of_le (by omega) (by omega)
  · rw [← Int.sub_bmod_right]
    exact Int.bmod_eq_of_le (by omega) (by omega)

/-- A drift is the exact difference up to multiples of 2^64. -/
theorem toInt_ofCounts_bmod : (ofCounts now before).toInt = (exact now before).bmod (2 ^ 64) := by
  rw [ofCounts, Int64.toInt_sub, toInt_toInt64_bmod, toInt_toInt64_bmod, ← Int.sub_bmod, exact]

/-- A difference that is too large or too small comes out on the other side of zero. -/
theorem toInt_ofCounts_eq : (ofCounts now before).toInt =
    if exact now before < -2 ^ 63 then exact now before + 2 ^ 64
    else if exact now before < 2 ^ 63 then exact now before
    else exact now before - 2 ^ 64 := by
  have hnow := now.toNat_lt
  have hbefore := before.toNat_lt
  rw [toInt_ofCounts_bmod]
  unfold exact
  split_ifs with hsmall hlarge
  · rw [← Int.add_bmod_right]
    exact Int.bmod_eq_of_le (by omega) (by omega)
  · exact Int.bmod_eq_of_le (by omega) (by omega)
  · rw [← Int.sub_bmod_right]
    exact Int.bmod_eq_of_le (by omega) (by omega)

theorem toInt_ofCounts_eq_iff :
    (ofCounts now before).toInt = exact now before ↔ Fits (exact now before) := by
  rw [toInt_ofCounts_eq, Fits]
  split_ifs <;> omega

theorem sign_ofCounts_eq_iff :
    (ofCounts now before).toInt.sign = (exact now before).sign ↔ Fits (exact now before) := by
  have hnow := now.toNat_lt
  have hbefore := before.toNat_lt
  rw [toInt_ofCounts_eq, Fits]
  unfold exact
  split_ifs with hsmall hlarge
  · rw [Int.sign_eq_one_of_pos (by omega), Int.sign_eq_neg_one_of_neg (by omega)]
    omega
  · omega
  · rw [Int.sign_eq_neg_one_of_neg (by omega), Int.sign_eq_one_of_pos (by omega)]
    omega

/-- The subtraction overflows where one count is on each side of 2^63 though the exact difference
would fit. -/
theorem overflows_iff : Overflows now before ↔
    Fits (exact now before) ∧ ¬ (now.toNat < 2 ^ 63 ↔ before.toNat < 2 ^ 63) := by
  have hnow := now.toNat_lt
  have hbefore := before.toNat_lt
  rw [Overflows, toInt_toInt64_eq, toInt_toInt64_eq, Fits, Fits]
  unfold exact
  split_ifs <;> omega

theorem ofCounts_eq_zero_iff : ofCounts now before = 0 ↔ now = before := by
  have hnow := now.toNat_lt
  have hbefore := before.toNat_lt
  rw [← Int64.toInt_inj, toInt_ofCounts_eq, ← UInt64.toNat_inj, Int64.toInt_zero]
  unfold exact
  split_ifs <;> omega

end

theorem isZero_between_iff (now before : Summary) :
    (between now before).isZero ↔ now = before := by
  obtain ⟨low, medium, high⟩ := now
  obtain ⟨lowBefore, mediumBefore, highBefore⟩ := before
  simp [isZero, between, ofCounts_eq_zero_iff, and_assoc]

end Drift

/-! ## Main result -/

/-- Whatever two snapshots count, each component of the drift between them is the exact difference
up to multiples of 2^64. It is the exact difference, and has its sign, just where that difference
fits into 64 bits with sign; the subtraction overflows on the way where it does fit but only one of
the counts does. The drift is zero just where the summaries are the same. -/
theorem drift_exact_where_it_fits (current baseline : Snapshot) :
    let drift := (compare current baseline).drift
    (∀ level,
      let now := current.summary.count level
      let before := baseline.summary.count level
      let moved := (drift.count level).toInt
      moved = (Drift.exact now before).bmod (2 ^ 64) ∧
        (moved = Drift.exact now before ↔ Fits (Drift.exact now before)) ∧
        (moved.sign = (Drift.exact now before).sign ↔ Fits (Drift.exact now before)) ∧
        (Drift.Overflows now before ↔
          Fits (Drift.exact now before) ∧ ¬ (now.toNat < 2 ^ 63 ↔ before.toNat < 2 ^ 63))) ∧
      (drift.isZero ↔ current.summary = baseline.summary) := by
  intro drift
  refine ⟨fun level => ?_, Drift.isZero_between_iff _ _⟩
  intro now before moved
  have hmoved : moved = (Drift.ofCounts now before).toInt :=
    congrArg Int64.toInt (Drift.count_between _ _ level)
  rw [hmoved]
  exact ⟨Drift.toInt_ofCounts_bmod now before, Drift.toInt_ofCounts_eq_iff now before,
    Drift.sign_ofCounts_eq_iff now before, Drift.overflows_iff now before⟩

/-- A count that was zero and is 2^63 now has gone down by 2^63. -/
example : (Drift.ofCounts 0x8000000000000000 0).toInt = -2 ^ 63 := by decide

end RouteAudit.Gate
