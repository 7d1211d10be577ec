import Mathlib.Data.List.Basic
import RouteAudit.Cache.Key

/-! # Keys of two pairs

The key of a pair is its base and its pattern with two colons between them, and nothing
says where in the key these two colons stand. Two different pairs have one key when one
of the bases runs on into what the other pair calls its pattern (`cacheKey_eq_iff`). On
one base alone keys are distinct.
-/

namespace RouteAudit

/-- The longer base of two runs on into the pattern that goes with the shorter one: by the
first of the two colons, or by both and some text. -/
def RunsOn (base pattern longer shorter : String) : Prop :=
  (longer = base ++ ":" ∧ pattern = ":" ++ shorter) ∨
    ∃ text, longer = base ++ "::" ++ text ∧ pattern = text ++ "::" ++ shorter

/-- Two pairs that are not the same have one key. -/
def Clash (first second : String × String) : Prop :=
  RunsOn first.1 first.2 second.1 second.2 ∨ RunsOn second.1 second.2 first.1 first.2

variable {base pattern : String}

theorem cacheKey_right_inj {other : String} :
    cacheKey base pattern = cacheKey base other ↔ pattern = other := by
  simp [cacheKey]

theorem RunsOn.cacheKey_eq {longer shorter : String} (h : RunsOn base pattern longer shorter) :
    cacheKey base pattern = cacheKey longer shorter := by
  rcases h with ⟨rfl, rfl⟩ | ⟨text, rfl, rfl⟩
  · apply String.toList_inj.mp
    simp [cacheKey]
  · simp [cacheKey, String.append_assoc]

/-- A base that runs on is longer than the base that it starts with. -/
theorem RunsOn.ne {longer shorter : String} (h : RunsOn base pattern longer shorter) :
    longer ≠ base := by
  rintro rfl
  rcases h with ⟨hbase, -⟩ | ⟨text, hbase, -⟩
  · have hlength := congrArg String.length hbase
    simp at hlength
  · have hlength := congrArg String.length hbase
    simp only [String.length_append, show "::".length = 2 from rfl] at hlength
    omega

/-- Where two pairs have one key and the base of one starts with that of the other, the
pairs are the same or the longer base runs on. -/
theorem runsOn_of_start {longer shorter : String} {rest : List Char}
    (hstart : longer.toList = base.toList ++ rest)
    (hkey : cacheKey base pattern = cacheKey longer shorter) :
    (base = longer ∧ pattern = shorter) ∨ RunsOn base pattern longer shorter := by
  have hrest : ':' :: ':' :: pattern.toList = rest ++ ':' :: ':' :: shorter.toList := by
    have htext := congrArg String.toList hkey
    simpa [cacheKey, hstart] using htext
  match rest, hstart, hrest with
  | [], hstart, hrest =>
      refine .inl ⟨String.toList_inj.mp ?_, String.toList_inj.mp ?_⟩
      · simpa using hstart.symm
      · simpa using hrest
  | [first], hstart, hrest =>
      obtain ⟨rfl, htext⟩ := List.cons.inj hrest
      refine .inr (.inl ⟨String.toList_inj.mp ?_, String.toList_inj.mp ?_⟩)
      · simpa using hstart
      · simpa using htext
  | first :: second :: text, hstart, hrest =>
      obtain ⟨rfl, hsecond⟩ := List.cons.inj hrest
      obtain ⟨rfl, htext⟩ := List.cons.inj hsecond
      refine .inr (.inr ⟨String.ofList text, String.toList_inj.mp ?_, String.toList_inj.mp ?_⟩)
      · simpa using hstart
      · simpa using htext

/-- One key is the key of one pair, or of pairs that clash. -/
theorem cacheKey_eq_iff {first second : String × String} :
    cacheKey first.1 first.2 = cacheKey second.1 second.2 ↔
      first = second ∨ Clash first second := by
  constructor
  · intro hkey
    have htext : first.1.toList ++ ("::" ++ first.2).toList =
        second.1.toList ++ ("::" ++ second.2).toList := by
      simpa [cacheKey] using congrArg String.toList hkey
    rcases List.append_eq_append_iff.mp htext with ⟨rest, hstart, -⟩ | ⟨rest, hstart, -⟩
    · rcases runsOn_of_start hstart hkey with hsame | hruns
      · exact .inl (Prod.ext hsame.1 hsame.2)
      · exact .inr (.inl hruns)
    · rcases runsOn_of_start hstart hkey.symm with hsame | hruns
      · exact .inl (Prod.ext hsame.1.symm hsame.2.symm)
      · exact .inr (.inr hruns)
  · rintro (rfl | hruns | hruns)
    · rfl
    · exact hruns.cacheKey_eq
    · exact hruns.cacheKey_eq.symm

theorem Clash.ne {first second : String × String} (h : Clash first second) : first ≠ second := by
  rintro rfl
  rcases h with hruns | hruns
  · exact hruns.ne rfl
  · exact hruns.ne rfl

end RouteAudit
