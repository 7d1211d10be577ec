import Mathlib.Data.Bool.AllAny
import RouteAudit.Proofs.Remedy.Items
import RouteAudit.Proofs.Risk.Patches

/-! # Encoded dots

Encoding the dots of a pattern patches it: each piece writes the two dots of a segment. The pieces
look like nothing that a marker asks for, so no rule fires anew, and they leave the runs of stars
as they are.
-/

namespace RouteAudit.Remedy

open Regex (Expr Foresight Patch)
open Risk (Seamless markers)

/-! ## The patch -/

/-- What two dots are written as. -/
def encodedWord : List Char := "%2E%2E".toList

/-- Two dots, written as percent codes behind what a segment starts with. -/
def encoding : Patch where
  Piece piece := piece = encodedWord
  old := '.'
  last := 'E'
  opens := ['/', '\\']
  closes c := endsName (some c)
  start := encodedWord.map fun c => [c]
  inner := ["2E%2E", "E%2E", "%2E", "2E", "E"].map fun word => word.toList.map fun c => [c]
  ends_last := by
    rintro _ rfl
    exact ⟨"%2E%2".toList, by decide⟩
  fits_start := by
    rintro _ rest rfl
    exact Foresight.fits_word encodedWord rest
  fits_inner := by
    intro first second rest hpiece hfirst hsecond _
    have hinner : ∀ tail ∈ encodedWord.tails, tail ≠ encodedWord → tail ≠ [] →
        tail ∈ ["2E%2E", "E%2E", "%2E", "2E", "E"].map (·.toList) := by decide
    have htail : second ∈ encodedWord.tails :=
      (List.mem_tails _ _).mpr (hpiece ▸ List.suffix_append first second)
    have hother : second ≠ encodedWord := by
      rw [← hpiece]
      simpa using hfirst
    obtain ⟨word, hword, rfl⟩ := List.mem_map.mp (hinner second htail hother hsecond)
    exact ⟨_, List.mem_map_of_mem hword, Foresight.fits_word _ rest⟩
  old_not_word := by decide

theorem startsSegment_iff {before : Option Char} :
    startsSegment before ↔ ∀ c ∈ before, c ∈ encoding.opens := by
  cases before with
  | none => simp [startsSegment]
  | some c => simp [startsSegment, encoding]

/-- The dots of a segment are encoded. -/
theorem encodeFrom_segment {before : Option Char} {rest : List Char}
    (hbefore : startsSegment before) (hends : endsName rest.head?) :
    encodeFrom false before ('.' :: '.' :: rest) =
      encodedWord ++ encodeFrom false (some '.') rest := by
  have hdots : startsWithDots ('.' :: '.' :: rest) := startsWithDots_iff.mpr ⟨rest, rfl, hends⟩
  rw [encodeFrom_dots (Bool.and_eq_true_iff.mpr ⟨hbefore, hdots⟩)]
  rfl

/-- Where no segment starts, the next character stays. -/
theorem head?_encodeFrom {before : Option Char} (hbefore : ¬ startsSegment before)
    (text : List Char) : (encodeFrom false before text).head? = text.head? := by
  cases text with
  | nil => rfl
  | cons c text =>
      rw [encodeFrom_cons fun h => hbefore (Bool.and_eq_true_iff.mp h).1]
      rfl

/-- Encoding is a patch. -/
theorem encodeFrom_patched {before other : Option Char} (text : List Char)
    (hother : startsSegment before → startsSegment other) :
    encoding.Patched other text (encodeFrom false before text) := by
  induction hlength : text.length using Nat.strongRecOn generalizing before other text with
  | ind length ih =>
      cases text with
      | nil => exact .nil other
      | cons c cs =>
          by_cases hdots : startsSegment before && startsWithDots (c :: cs)
          · rw [Bool.and_eq_true] at hdots
            obtain ⟨rest, heq, hends⟩ := startsWithDots_iff.mp hdots.2
            rw [heq, encodeFrom_segment hdots.1 hends]
            refine Patch.Patched.put 1 (startsSegment_iff.mp (hother hdots.1)) rfl ?_ ?_
            · intro d hd
              rw [head?_encodeFrom (by decide)] at hd
              rwa [Option.mem_def.mp hd] at hends
            · have hshorter : rest.length < length := by
                rw [← hlength, heq, List.length_cons, List.length_cons]
                omega
              exact ih rest.length hshorter rest (by decide) rfl
          · rw [encodeFrom_cons hdots]
            exact .keep c (ih cs.length (by simp [← hlength]) cs id rfl)

theorem encodeTraversal_patched (text : List Char) :
    encoding.Patched none text (encodeTraversal text) := encodeFrom_patched text id

/-! ## No rule fires anew -/

theorem seamless_encoding : Seamless encoding where
  piece_flat := by
    rintro _ rfl
    exact List.all_iff_forall_prop.mp (by decide)
  old_flat := by decide
  opens_apart := List.all_iff_forall_prop.mp (by decide)
  scan_piece := by
    rintro _ rfl facts rest
    rfl
  scan_escaped := by
    rintro _ _ rfl facts rest
    rfl
  scan_old facts rest := ⟨facts, .refl facts, rfl⟩

theorem encoding_keeps : ∀ e ∈ markers, encoding.keeps e := by decide +kernel

/-! ## Runs of stars -/

section

variable {text candidate : List Char} {before : Option Char}

/-- A character that neither ends a segment nor belongs to a run or to what tells groups apart ends
the run before it. -/
theorem count_cut_cons {c : Char} (hc : c ∉ "\\*()/?#".toList) (depth : Nat) (opens : Bool)
    (stars : Nat) (rest : List Char) :
    (cut depth opens stars (c :: rest)).count .run = (cut depth false 0 rest).count .run := by
  have hne (d : Char) (hd : d ∈ "\\*()/?#".toList) : c ≠ d := by
    rintro rfl
    exact hc hd
  have hslash : (c == '/') = false := beq_eq_false_iff_ne.mpr (hne '/' (by decide))
  have hends : endsSegment c = false := by
    simp [endsSegment, hne '/' (by decide), hne '?' (by decide), hne '#' (by decide)]
  rw [cut_plain (hne _ (by decide)) (fun h => hne '*' (by decide) h.1), hends, hslash,
    ofStars_of_false (.inr rfl), count_run_chars, depthBehind, if_neg (hne _ (by decide)),
    if_neg (hne _ (by decide))]
  rfl

theorem count_cut_word {word : List Char} (h : ∀ c ∈ word, c ∉ "\\*()/?#".toList)
    (hword : word ≠ []) (depth : Nat) (opens : Bool) (stars : Nat) (rest : List Char) :
    (cut depth opens stars (word ++ rest)).count .run = (cut depth false 0 rest).count .run := by
  induction word generalizing opens stars with
  | nil => exact absurd rfl hword
  | cons c word ih =>
      obtain ⟨hc, hrest⟩ := List.forall_mem_cons.mp h
      rw [List.cons_append, count_cut_cons hc]
      by_cases hend : word = []
      · rw [hend, List.nil_append]
      · exact ih hrest hend false 0

/-- A word of which the first character is escaped ends the run before it as well. -/
theorem count_cut_escapedWord {word : List Char} (h : ∀ c ∈ word, c ∉ "\\*()/?#".toList)
    (hword : word ≠ []) (depth : Nat) (opens : Bool) (stars : Nat) (rest : List Char) :
    (cut depth opens stars ('\\' :: (word ++ rest))).count .run =
      (cut depth false 0 rest).count .run := by
  cases word with
  | nil => exact absurd rfl hword
  | cons c word =>
      obtain ⟨hc, hrest⟩ := List.forall_mem_cons.mp h
      have hslash : (c == '/') = false := by
        rw [beq_eq_false_iff_ne]
        rintro rfl
        exact hc (by decide)
      rw [List.cons_append, count_cut_escaped, hslash]
      by_cases hend : word = []
      · rw [hend, List.nil_append]
      · exact count_cut_word hrest hend depth false 0 rest

theorem encodedWord_quiet : ∀ c ∈ encodedWord, c ∉ "\\*()/?#".toList :=
  List.all_iff_forall_prop.mp (by decide)

theorem dots_quiet (n : Nat) : ∀ c ∈ List.replicate n encoding.old, c ∉ "\\*()/?#".toList := by
  intro c hc
  rw [List.eq_of_mem_replicate hc]
  decide

/-- Encoding leaves the runs of stars, wherever the reading stands. -/
theorem count_cut_patched (h : encoding.Patched before text candidate) :
    (∀ depth opens stars, (cut depth opens stars candidate).count .run =
      (cut depth opens stars text).count .run) ∧
      ∀ depth opens stars, (cut depth opens stars ('\\' :: candidate)).count .run =
        (cut depth opens stars ('\\' :: text)).count .run := by
  induction h with
  | nil => exact ⟨fun _ _ _ => rfl, fun _ _ _ => rfl⟩
  | @keep before text candidate c _ ih =>
      obtain ⟨houtside, hescaped⟩ := ih
      refine ⟨?_, ?_⟩
      · intro depth opens stars
        by_cases hescape : c = '\\'
        · subst hescape
          exact hescaped depth opens stars
        by_cases hstar : c = '*' ∧ depth = 0
        · obtain ⟨rfl, rfl⟩ := hstar
          rw [cut_star, cut_star, houtside]
        · rw [cut_plain hescape hstar, cut_plain hescape hstar, List.count_append,
            List.count_append, List.count_cons, List.count_cons, houtside]
      · intro depth opens stars
        rw [count_cut_escaped, count_cut_escaped, houtside]
  | @put before text candidate piece n _ hpiece _ _ ih =>
      subst hpiece
      have hpiece : encodedWord ≠ [] := by decide
      have hrun : List.replicate (n + 1) encoding.old ≠ [] := by simp
      refine ⟨?_, ?_⟩
      · intro depth opens stars
        rw [count_cut_word encodedWord_quiet hpiece, count_cut_word (dots_quiet _) hrun, ih.1]
      · intro depth opens stars
        rw [count_cut_escapedWord encodedWord_quiet hpiece,
          count_cut_escapedWord (dots_quiet _) hrun, ih.1]

theorem runCount_encodeTraversal (text : List Char) :
    runCount (encodeTraversal text) = runCount text :=
  (count_cut_patched (encodeTraversal_patched text)).1 0 true 0

end

end RouteAudit.Remedy
