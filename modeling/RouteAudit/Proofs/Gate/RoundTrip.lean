import RouteAudit.Gate.BaselineFile
import RouteAudit.Proofs.Gate.Verdict
import RouteAudit.Proofs.Json.Records
import RouteAudit.Proofs.Storage.Files

/-! # Baselines read back

A snapshot that was kept is loaded as it was, whatever its texts and numbers are. Snapshots of one
batch match whatever their thresholds are, so a run on what the baseline was taken from passes if
its verdict does.
-/

namespace RouteAudit

namespace Risk

/-! ## Levels and summaries -/

theorem Level.ofJson?_toJson (level : Level) : ofJson? level.toJson = some level := by
  cases level <;> rfl

theorem Level.plain_toJson (level : Level) : level.toJson.Plain := .string _

theorem Summary.asFields?_toJson (summary : Summary) :
    summary.toJson.asFields? ["low", "medium", "high"] =
      some [some (.nat summary.low.toNat), some (.nat summary.medium.toNat),
        some (.nat summary.high.toNat)] := by
  have hfields := Json.asFields?_record [
    ("low", .nat summary.low.toNat),
    ("medium", .nat summary.medium.toNat),
    ("high", .nat summary.high.toNat)] (by simp)
  exact hfields

theorem Summary.ofJson?_toJson (summary : Summary) : ofJson? summary.toJson = some summary := by
  rw [ofJson?, asFields?_toJson, Option.bind_eq_bind, Option.bind_some]
  dsimp only
  simp only [Json.required?_some, Json.asUInt64?_nat, Option.bind_eq_bind, Option.bind_some,
    Option.pure_def]

theorem Summary.plain_toJson (summary : Summary) : summary.toJson.Plain := by
  apply Json.Plain.record
  simp [Json.Plain.int, Json.nat]

end Risk

namespace Gate

open Risk (Assessment Level Summary)
open Storage (Files)

/-! ## Snapshots -/

theorem BaselinePattern.asFields?_toJson (entry : BaselinePattern) :
    entry.toJson.asFields? ["pattern", "level", "score"] =
      some [some (.string entry.pattern), some entry.level.toJson,
        some (.nat entry.score.toNat)] := by
  have hfields := Json.asFields?_record [
    ("pattern", .string entry.pattern),
    ("level", entry.level.toJson),
    ("score", .nat entry.score.toNat)] (by simp)
  exact hfields

theorem BaselinePattern.ofJson?_toJson (entry : BaselinePattern) :
    ofJson? entry.toJson = some entry := by
  rw [ofJson?, asFields?_toJson, Option.bind_eq_bind, Option.bind_some]
  dsimp only
  simp only [Json.required?_some, Json.asString?_string, Level.ofJson?_toJson,
    Json.asUInt32?_nat, Option.bind_eq_bind, Option.bind_some, Option.pure_def]

theorem BaselinePattern.plain_toJson (entry : BaselinePattern) : entry.toJson.Plain := by
  apply Json.Plain.record
  simp [Json.Plain.string, Json.Plain.int, Json.nat, entry.level.plain_toJson]

namespace Snapshot

section

variable {files : Files} {path : String}

theorem asFields?_toJson (snapshot : Snapshot) :
    snapshot.toJson.asFields? ["patterns", "summary", "threshold"] =
      some [some (.array (snapshot.patterns.map BaselinePattern.toJson)),
        some snapshot.summary.toJson, some snapshot.threshold.toJson] := by
  have hfields := Json.asFields?_record [
    ("patterns", .array (snapshot.patterns.map BaselinePattern.toJson)),
    ("summary", snapshot.summary.toJson),
    ("threshold", snapshot.threshold.toJson)] (by simp)
  exact hfields

theorem ofJson?_toJson (snapshot : Snapshot) : ofJson? snapshot.toJson = some snapshot := by
  rw [ofJson?, asFields?_toJson, Option.bind_eq_bind, Option.bind_some]
  dsimp only
  simp only [Json.required?_some, Json.asList?_array BaselinePattern.ofJson?_toJson,
    Summary.ofJson?_toJson, Level.ofJson?_toJson, Option.bind_eq_bind, Option.bind_some,
    Option.pure_def]

theorem plain_toJson (snapshot : Snapshot) : snapshot.toJson.Plain := by
  have hpatterns : (Json.array (snapshot.patterns.map BaselinePattern.toJson)).Plain := by
    apply Json.Plain.array
    simp [BaselinePattern.plain_toJson]
  apply Json.Plain.record
  simp [hpatterns, snapshot.summary.plain_toJson, snapshot.threshold.plain_toJson]

theorem ofFileText?_fileText (snapshot : Snapshot) :
    ofFileText? snapshot.fileText = some snapshot := by
  rw [ofFileText?, fileText, snapshot.plain_toJson.parse?_pretty, Option.bind_eq_bind,
    Option.bind_some, ofJson?_toJson]

theorem load_save (snapshot : Snapshot) (hsaved : (snapshot.save files path).2 = none) :
    load (snapshot.save files path).1 path = .ok snapshot := by
  have hreplaced : (files.replace (.ofText path) snapshot.fileText.toUTF8).2 = none :=
    Option.map_eq_none_iff.mp hsaved
  have hread : (snapshot.save files path).1.readText (.ofText path) = .ok snapshot.fileText :=
    Files.readText_replace hreplaced
  rw [load, hread, ofReading, ofFileText?_fileText]

end

end Snapshot

/-- A file is made where nothing stands. -/
theorem Snapshot.save_in_empty (snapshot : Snapshot) : (snapshot.save {} "b").2 = none := by
  have hpath : Storage.Path.ofText "b" = ⟨false, [.name "b"], false⟩ := by
    have hsteps : "b".splitOn "/" = ["b"] := by
      rw [String.splitOn, if_neg (by decide), String.splitOnAux, String.splitOnAux]
      decide +kernel
    rw [Storage.Path.ofText, hsteps]
    decide +kernel
  rw [Snapshot.save, hpath]
  rfl

/-! ## Main result -/

/-- A snapshot that was kept is loaded as it was. So a baseline kept of a batch, with any
threshold, matches that batch, and a run passes if its verdict does. -/
theorem kept_baseline_loads (files : Files) (path : String) :
    (∀ snapshot : Snapshot, (snapshot.save files path).2 = none →
      Snapshot.load (snapshot.save files path).1 path = .ok snapshot) ∧
    ∀ (batch : List Assessment) (before now : Level),
      ((Snapshot.ofAssessments batch before).save files path).2 = none → ∃ baseline,
        Snapshot.load ((Snapshot.ofAssessments batch before).save files path).1 path =
          .ok baseline ∧
        (compare (.ofAssessments batch now) baseline).isMatch ∧
        ((Outcome.mk (evaluate batch now)
          (some (compare (.ofAssessments batch now) baseline)) none).exitCode = 0 ↔
            (evaluate batch now).passed) := by
  refine ⟨fun snapshot => snapshot.load_save, fun batch before now hsaved => ?_⟩
  have hmatch : (compare (.ofAssessments batch now) (.ofAssessments batch before)).isMatch :=
    compare_isMatch_iff.mpr ⟨rfl, rfl⟩
  refine ⟨_, Snapshot.load_save _ hsaved, hmatch, ?_⟩
  rw [Outcome.exitCode_eq_zero_iff, Outcome.passed, Option.all_some, hmatch, Bool.and_true]

/-- Texts with quotes, control characters and characters beyond the first plane, and the largest
numbers. -/
theorem odd_baseline_loads :
    (∃ snapshot : Snapshot, snapshot.patterns = [⟨"/\"\\\x01😀", .high, 0xFFFFFFFF⟩] ∧
      snapshot.summary.low = 0xFFFFFFFFFFFFFFFF ∧
      Snapshot.load (snapshot.save {} "b").1 "b" = .ok snapshot) ∧
    ∃ baseline, Snapshot.load
        ((Snapshot.ofAssessments [⟨"/x", [], 9, .high⟩] .low).save {} "b").1 "b" =
          .ok baseline ∧
      (compare (.ofAssessments [⟨"/x", [], 9, .high⟩] .high) baseline).isMatch ∧
      (Outcome.mk (evaluate [⟨"/x", [], 9, .high⟩] .high)
        (some (compare (.ofAssessments [⟨"/x", [], 9, .high⟩] .high) baseline))
          none).exitCode ≠ 0 := by
  obtain ⟨hloads, hmatches⟩ := kept_baseline_loads {} "b"
  refine ⟨⟨⟨[⟨"/\"\\\x01😀", .high, 0xFFFFFFFF⟩], ⟨0xFFFFFFFFFFFFFFFF, 0, 1⟩, .low⟩, rfl, rfl,
    hloads _ (Snapshot.save_in_empty _)⟩, ?_⟩
  obtain ⟨baseline, hload, hmatch, hcode⟩ :=
    hmatches [⟨"/x", [], 9, .high⟩] .low .high (Snapshot.save_in_empty _)
  exact ⟨baseline, hload, hmatch, hcode.not.mpr (by decide)⟩

end Gate

end RouteAudit
