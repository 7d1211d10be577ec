import Mathlib.Algebra.BigOperators.Group.List.Basic
import Mathlib.Algebra.GroupWithZero.Nat
import Mathlib.Data.List.Count
import RouteAudit.Gate.Verdict

/-! # What a verdict and an exit code say

A verdict goes over a batch more than once: for the violations and for the counts of the levels.
Both come from the levels of the batch alone, so they agree on every batch, and a higher threshold
never finds more (`verdict_and_exit`). The exit code adds the comparison with a baseline to the
verdict, and nothing else.

Places and counts have 64 bits, which no batch that fits a memory uses up.
-/

namespace RouteAudit

deriving instance ReflBEq, LawfulBEq for Risk.Level
deriving instance ReflBEq, LawfulBEq for Risk.Summary
deriving instance ReflBEq, LawfulBEq for Gate.BaselinePattern

namespace Risk

/-! ## Counts of levels -/

namespace Level

/-- The levels from the lowest to the highest. -/
def all : List Level := [low, medium, high]

/-- The levels at or above a threshold. -/
def andAbove (threshold : Level) : List Level := all.filter (threshold ≤ ·)

theorem le_trans {a b c : Level} (hab : a ≤ b) (hbc : b ≤ c) : a ≤ c := by
  rw [le_def] at *
  exact Nat.le_trans hab hbc

end Level

namespace Summary

theorem count_add (summary : Summary) (level other : Level) :
    (summary.add level).count other = summary.count other + if level = other then 1 else 0 := by
  cases level <;> cases other <;> simp [add, count]

theorem count_foldl (batch : List Assessment) (summary : Summary) (level : Level) :
    (batch.foldl (fun summary a => summary.add a.level) summary).count level =
      summary.count level + .ofNat (batch.countP (·.level = level)) := by
  induction batch generalizing summary with
  | nil => simp
  | cons a batch ih =>
      rw [List.foldl_cons, ih, count_add, List.countP_cons, UInt64.ofNat_add]
      by_cases hlevel : a.level = level
      · simp only [hlevel, if_true, decide_true]
        rw [UInt64.add_assoc, UInt64.add_comm 1]
        rfl
      · simp [hlevel]

/-- A summary counts how many assessments have a level. -/
theorem count_ofAssessments (batch : List Assessment) (level : Level) :
    (ofAssessments batch).count level = .ofNat (batch.countP (·.level = level)) := by
  rw [ofAssessments, count_foldl]
  cases level <;> simp [count]

end Summary

/-- Every assessment has one of the levels, so those with a property are counted level by level. -/
theorem countP_level (batch : List Assessment) (p : Level → Bool) :
    batch.countP (fun a => p a.level) =
      ((Level.all.filter p).map fun level => batch.countP (·.level = level)).sum := by
  induction batch with
  | nil => simp
  | cons a batch ih =>
      simp only [List.countP_cons, List.sum_map_add, ih]
      congr 1
      cases hlevel : a.level <;> cases hlow : p .low <;> cases hmedium : p .medium <;>
        cases hhigh : p .high <;> simp [Level.all, *]

/-- All counts together count the batch. -/
theorem Summary.total_ofAssessments (batch : List Assessment) :
    (ofAssessments batch).total = .ofNat batch.length := by
  have hlength := countP_level batch fun _ => true
  have hlow := count_ofAssessments batch .low
  have hmedium := count_ofAssessments batch .medium
  have hhigh := count_ofAssessments batch .high
  simp only [Level.all, List.filter_true, List.countP_true, List.map_cons, List.map_nil,
    List.sum_cons, List.sum_nil, Nat.add_zero] at hlength
  rw [hlength, UInt64.ofNat_add, UInt64.ofNat_add, ← hlow, ← hmedium, ← hhigh, ← UInt64.add_assoc]
  rfl

end Risk

namespace Gate

open Risk (Assessment Level Summary)

/-! ## Violations -/

/-- What is told of an assessment at a place of the batch. -/
def violationAt : Assessment × Nat → Violation
  | (a, index) => ⟨.ofNat index, a.pattern, a.level, a.score⟩

section

variable {batch : List Assessment} {threshold : Level}

theorem violationsFrom_eq (threshold : Level) (index : Nat) (batch : List Assessment) :
    violationsFrom threshold index batch =
      ((batch.zipIdx index).filter (threshold ≤ ·.1.level)).map violationAt := by
  induction batch generalizing index with
  | nil => rfl
  | cons a batch ih =>
      rw [violationsFrom, List.zipIdx_cons, List.filter_cons, ih]
      by_cases hlevel : threshold ≤ a.level <;> simp [hlevel, violationAt]

theorem violations_eq (batch : List Assessment) (threshold : Level) :
    (evaluate batch threshold).violations =
      (batch.zipIdx.filter (threshold ≤ ·.1.level)).map violationAt :=
  violationsFrom_eq threshold 0 batch

/-- Violations stand in the order of their places. -/
theorem violations_pairwise (hsize : batch.length < UInt64.size) :
    (evaluate batch threshold).violations.Pairwise (·.index < ·.index) := by
  rw [violations_eq, List.pairwise_map]
  have hplaces : (batch.zipIdx.map Prod.snd).Pairwise (· < ·) := by
    rw [List.zipIdx_map_snd]
    exact List.pairwise_lt_range'
  rw [List.pairwise_map] at hplaces
  refine (hplaces.filter _).imp_of_mem ?_
  intro first second hfirst hsecond hlt
  have hlast : second.2 < batch.length := by
    have hmem := List.mem_of_mem_filter hsecond
    exact List.snd_lt_of_mem_zipIdx hmem
  have hfirst := List.mem_of_mem_filter hfirst
  have hfits := Nat.lt_trans hlast hsize
  exact (UInt64.ofNat_lt_iff_lt (Nat.lt_trans hlt hfits) hfits).mpr hlt

theorem length_violations (batch : List Assessment) (threshold : Level) :
    (evaluate batch threshold).violations.length = batch.countP (threshold ≤ ·.level) := by
  rw [violations_eq, List.length_map, ← List.countP_eq_length_filter]
  conv => rhs; rw [← List.zipIdx_map_fst 0 batch, List.countP_map]
  rfl

theorem passed_iff : (evaluate batch threshold).passed ↔ ∀ a ∈ batch, ¬ threshold ≤ a.level := by
  rw [evaluate, List.isEmpty_iff_length_eq_zero]
  have h := length_violations batch threshold
  rw [evaluate] at h
  rw [h, List.countP_eq_zero]
  simp

theorem compare_isMatch_iff {current baseline : Snapshot} : (compare current baseline).isMatch ↔
    current.patterns = baseline.patterns ∧ current.summary = baseline.summary := by
  simp [compare]

theorem Outcome.exitCode_eq_zero_iff {outcome : Outcome} :
    outcome.exitCode = 0 ↔ outcome.passed := by
  by_cases h : outcome.passed <;> simp [exitCode, h]

end

/-! ## Main result -/

/-- The violations of a batch are its assessments at or above the threshold, each with its place and
in the order of places, and there are as many of them as the summary counts at these levels. A
verdict passes if there are none, and then for every higher threshold too. The exit code is zero
exactly if the verdict passes and, where snapshots were compared, their patterns and summaries are
equal; that a baseline could not be used does not matter to it. -/
theorem verdict_and_exit (batch : List Assessment) (threshold : Level)
    (compared : Option (Snapshot × Snapshot)) (error : Option String) :
    let verdict := evaluate batch threshold
    let outcome : Outcome := ⟨verdict, compared.map fun pair => compare pair.1 pair.2, error⟩
    verdict.violations = (batch.zipIdx.filter (threshold ≤ ·.1.level)).map violationAt ∧
      verdict.total = .ofNat batch.length ∧ verdict.summary.total = verdict.total ∧
      (batch.length < UInt64.size →
        verdict.violations.Pairwise (·.index < ·.index) ∧
          verdict.violations.length =
            (threshold.andAbove.map fun level => (verdict.summary.count level).toNat).sum ∧
          verdict.total.toNat = batch.length) ∧
      (verdict.passed ↔ verdict.violations = []) ∧
      (verdict.passed → ∀ higher, threshold ≤ higher → (evaluate batch higher).passed) ∧
      (outcome.exitCode = 0 ↔ (∀ a ∈ batch, ¬ threshold ≤ a.level) ∧
        ∀ current baseline, compared = some (current, baseline) →
          current.patterns = baseline.patterns ∧ current.summary = baseline.summary) ∧
      ∀ other, { outcome with baselineError := other }.exitCode = outcome.exitCode := by
  intro verdict outcome
  refine ⟨violations_eq batch threshold, rfl, Summary.total_ofAssessments batch, ?_,
    List.isEmpty_iff, ?_, ?_, fun _ => rfl⟩
  · intro hsize
    refine ⟨violations_pairwise hsize, ?_, UInt64.toNat_ofNat_of_lt' hsize⟩
    have hcount (level : Level) :
        (verdict.summary.count level).toNat = batch.countP (·.level = level) := by
      have hle : batch.countP (·.level = level) ≤ batch.length := List.countP_le_length
      exact (congrArg UInt64.toNat (Summary.count_ofAssessments batch level)).trans
        (UInt64.toNat_ofNat_of_lt' (Nat.lt_of_le_of_lt hle hsize))
    simp only [hcount]
    exact (length_violations batch threshold).trans (Risk.countP_level batch (threshold ≤ ·))
  · simp only [verdict, passed_iff]
    intro hbelow higher hle a ha hreached
    exact hbelow a ha (Level.le_trans hle hreached)
  · rw [Outcome.exitCode_eq_zero_iff, Outcome.passed, Bool.and_eq_true, passed_iff]
    refine and_congr_right fun _ => ?_
    cases compared with
    | none => simp [outcome]
    | some pair => simp [outcome, compare_isMatch_iff, Prod.ext_iff]

/-- Levels need not go with scores. Two of three assessments reach the threshold, so the code is
not zero though the batch is what the baseline has; at the next threshold one is left. -/
theorem two_of_three_violate :
    let batch : List Assessment :=
      [⟨"/a", [], 9, .low⟩, ⟨"/b", [], 0, .high⟩, ⟨"/a", [], 1, .medium⟩]
    let snapshot := Snapshot.ofAssessments batch .low
    batch.length < UInt64.size ∧
      (evaluate batch .medium).violations = [⟨1, "/b", .high, 0⟩, ⟨2, "/a", .medium, 1⟩] ∧
      (evaluate batch .medium).violations.Pairwise (·.index < ·.index) ∧
      (evaluate batch .medium).total.toNat = 3 ∧
      (Outcome.mk (evaluate batch .medium) (some (compare snapshot snapshot)) none).exitCode ≠ 0 ∧
      (evaluate [⟨"/a", [], 9, .low⟩] .medium).passed ∧
      (evaluate [⟨"/a", [], 9, .low⟩] .high).passed := by
  intro batch snapshot
  obtain ⟨hviolations, -, -, hfits, -, -, hcode, -⟩ :=
    verdict_and_exit batch .medium (some (snapshot, snapshot)) none
  obtain ⟨hordered, -, htotal⟩ := hfits (by decide)
  obtain ⟨-, -, -, -, -, hhigher, -⟩ :=
    verdict_and_exit [⟨"/a", [], 9, .low⟩] .medium none none
  have hpassed : (evaluate [⟨"/a", [], 9, .low⟩] .medium).passed := by decide
  refine ⟨by decide, hviolations, hordered, htotal, ?_, hpassed, hhigher hpassed .high (by decide)⟩
  intro hzero
  exact (hcode.mp hzero).1 _ (List.mem_cons_of_mem _ List.mem_cons_self) (by decide)

end Gate

end RouteAudit
