import RouteAudit.Proofs.Json.Records
import RouteAudit.Proofs.Storage.Dictionary
import RouteAudit.Proofs.Storage.Files
import RouteAudit.Store.Manifest

/-! # Manifests read back

What is written of a manifest is decoded to that manifest, and the bytes of its file are read as
what was written.
-/

namespace RouteAudit.Store

open Storage (Dictionary)

theorem Entry.asFields?_toJson (entry : Entry) :
    entry.toJson.asFields? ["pattern", "baseUrl", "compiledAt", "compileTimeNs", "hash"] =
      some [some (.string entry.pattern), some (.string entry.base),
        some (.int entry.compiledAt.toInt), some (.nat entry.durationNs.toNat),
        some (.string entry.hash)] := by
  have hfields := Json.asFields?_record [
    ("pattern", .string entry.pattern),
    ("baseUrl", .string entry.base),
    ("compiledAt", .int entry.compiledAt.toInt),
    ("compileTimeNs", .nat entry.durationNs.toNat),
    ("hash", .string entry.hash)] (by simp)
  exact hfields

theorem Entry.ofJson?_toJson (entry : Entry) : ofJson? entry.toJson = some entry := by
  rw [ofJson?, asFields?_toJson, Option.bind_eq_bind, Option.bind_some]
  dsimp only
  simp only [Json.required?_some, Json.asString?_string, Json.asInt64?_toInt, Json.asUInt64?_nat,
    Option.bind_eq_bind, Option.bind_some, Option.pure_def]

theorem Entry.plain_toJson (entry : Entry) : entry.toJson.Plain := by
  apply Json.Plain.record
  simp [Json.Plain.string, Json.Plain.int, Json.nat]

namespace Manifest

theorem asFields?_toJson (manifest : Manifest) :
    manifest.toJson.asFields? ["version", "created", "updated", "entries"] =
      some [some (.nat manifest.version.toNat), some (.int manifest.created.toInt),
        some (.int manifest.updated.toInt),
        some (.record (manifest.entries.entries.map fun (key, entry) => (key, entry.toJson)))] := by
  have hfields := Json.asFields?_record [
    ("version", .nat manifest.version.toNat),
    ("created", .int manifest.created.toInt),
    ("updated", .int manifest.updated.toInt),
    ("entries", .record (manifest.entries.entries.map fun (key, entry) => (key, entry.toJson)))]
    (by simp)
  exact hfields

theorem ofJson?_toJson (manifest : Manifest) : ofJson? manifest.toJson = some manifest := by
  rw [ofJson?, asFields?_toJson, Option.bind_eq_bind, Option.bind_some]
  dsimp only
  simp only [Json.required?_some, Json.asUInt32?_nat, Json.asInt64?_toInt,
    Json.asDictionary?_record Entry.ofJson?_toJson, Dictionary.ofList_entries,
    Option.bind_eq_bind, Option.bind_some, Option.pure_def]

theorem plain_toJson (manifest : Manifest) : manifest.toJson.Plain := by
  have hentries : (Json.record (manifest.entries.entries.map fun (key, entry) =>
      (key, entry.toJson))).Plain := by
    apply Json.Plain.record
    intro field hfield
    obtain ⟨entry, -, rfl⟩ := List.mem_map.mp hfield
    exact entry.2.plain_toJson
  apply Json.Plain.record
  simp [Json.Plain.int, Json.nat, hentries]

/-- The file of a manifest is read as that manifest. -/
theorem ofFileBytes?_fileText (manifest : Manifest) :
    ofFileBytes? manifest.fileText.toUTF8 = some manifest := by
  rw [ofFileBytes?, Json.parseBytes?, Storage.fromUTF8?_toUTF8]
  dsimp only
  rw [fileText, manifest.plain_toJson.parse?_pretty, Option.bind_eq_bind, Option.bind_some,
    ofJson?_toJson]

end Manifest

end RouteAudit.Store
