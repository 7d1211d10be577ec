import Mathlib.Data.List.DropRight
import RouteAudit.Text.Blank
import RouteAudit.Text.Line

/-! # Lines written one after another

Trimming takes a text apart from blanks at its ends and does nothing to one that has none there.
Texts without line feeds, each written with a line feed behind it, are read back line by line; what
is lost of them, a carriage return before the line feed, is blank.
-/

namespace RouteAudit.Text

variable {text line : List Char} {c : Char}

/-! ## Trimming -/

theorem trimChars_eq_rdropWhile (text : List Char) :
    trimChars text = (text.dropWhile isBlank).rdropWhile isBlank := rfl

theorem trimChars_sublist (text : List Char) : (trimChars text).Sublist text :=
  (List.rdropWhile_prefix isBlank _).sublist.trans (List.dropWhile_suffix isBlank).sublist

/-- A text is trimmed if no blank stands at either end of it. -/
theorem trimChars_eq_self_iff : trimChars text = text ↔
    (∀ c ∈ text.head?, ¬ isBlank c) ∧ ∀ c ∈ text.getLast?, ¬ isBlank c := by
  have hfirst : text.dropWhile isBlank = text ↔ ∀ c ∈ text.head?, ¬ isBlank c := by
    rw [List.dropWhile_eq_self_iff]
    cases text <;> simp
  have hlast : text.rdropWhile isBlank = text ↔ ∀ c ∈ text.getLast?, ¬ isBlank c := by
    rw [List.rdropWhile_eq_self_iff]
    cases text using List.reverseRecOn <;> simp
  rw [trimChars_eq_rdropWhile, ← hfirst, ← hlast]
  constructor
  · intro htrim
    -- Nothing is lost on the way, so neither end loses anything.
    have hle := (List.rdropWhile_prefix isBlank (text.dropWhile isBlank)).length_le
    rw [htrim] at hle
    have hstart := (List.dropWhile_suffix (l := text) isBlank).eq_of_length_le hle
    rw [hstart] at htrim
    exact ⟨hstart, htrim⟩
  · rintro ⟨hstart, hend⟩
    rw [hstart, hend]

theorem trimChars_trimChars (text : List Char) : trimChars (trimChars text) = trimChars text := by
  obtain ⟨behind, hbehind⟩ := List.rdropWhile_prefix isBlank (text.dropWhile isBlank)
  rw [← trimChars_eq_rdropWhile] at hbehind
  have hstart : (trimChars text).dropWhile isBlank = trimChars text := by
    rw [List.dropWhile_eq_self_iff]
    intro hlength
    have hdropped := List.dropWhile_get_zero_not isBlank text
    simp only [← hbehind, List.get_eq_getElem, List.length_append] at hdropped
    have hnot := hdropped (Nat.add_pos_left hlength _)
    rwa [List.getElem_append_left hlength] at hnot
  rw [trimChars_eq_rdropWhile (trimChars text), hstart, trimChars_eq_rdropWhile,
    List.rdropWhile_idempotent]

theorem trimChars_cons_of_not_blank (h : ¬ isBlank c) (cs : List Char) :
    ∃ start, trimChars (c :: cs) = c :: start := by
  rw [trimChars, List.dropWhile_cons_of_neg h, dropTrailing, List.reverse_cons,
    List.dropWhile_append]
  split
  next => exact ⟨[], by rw [List.dropWhile_cons_of_neg h]; rfl⟩
  next => exact ⟨_, by rw [List.reverse_append]; rfl⟩

/-- A blank behind a text is trimmed away with those that are there. -/
theorem trimChars_append_blank (h : isBlank c) (text : List Char) :
    trimChars (text ++ [c]) = trimChars text := by
  rw [trimChars_eq_rdropWhile, trimChars_eq_rdropWhile, List.dropWhile_append]
  split
  next hempty => rw [List.isEmpty_iff.mp hempty, List.dropWhile_cons_of_pos h]; rfl
  next => exact List.rdropWhile_concat_pos isBlank _ c h

/-! ## Lines -/

theorem trimChars_withoutReturn (line : List Char) :
    trimChars (withoutReturn line).reverse = trimChars line.reverse := by
  unfold withoutReturn
  split
  next cs =>
    rw [List.reverse_cons, trimChars_append_blank (by decide)]
  next => rfl

theorem withoutReturn_suffix (line : List Char) : withoutReturn line <:+ line := by
  unfold withoutReturn
  split
  · exact List.suffix_cons _ _
  · exact List.suffix_refl _

theorem newline_not_mem_of_mem_linesFrom {current : List Char} (hcurrent : '\n' ∉ current)
    (h : line ∈ linesFrom current text) : '\n' ∉ line := by
  fun_induction linesFrom current text with
  | case1 current _ => cases h
  | case2 current _ =>
      obtain rfl := List.mem_singleton.mp h
      rwa [List.mem_reverse]
  | case3 current cs ih =>
      rcases List.mem_cons.mp h with rfl | hrest
      · rw [List.mem_reverse]
        exact fun hmem => hcurrent ((withoutReturn_suffix current).subset hmem)
      · exact ih List.not_mem_nil hrest
  | case4 current c cs hc ih =>
      refine ih ?_ h
      rw [List.mem_cons, not_or]
      exact ⟨fun heq => hc heq.symm, hcurrent⟩

theorem newline_not_mem_of_mem_lines (h : line ∈ lines text) : '\n' ∉ line :=
  newline_not_mem_of_mem_linesFrom List.not_mem_nil h

theorem linesFrom_append_newline (h : '\n' ∉ line) (current rest : List Char) :
    linesFrom current (line ++ '\n' :: rest) =
      (withoutReturn (line.reverse ++ current)).reverse :: linesFrom [] rest := by
  induction line generalizing current with
  | nil => rfl
  | cons c line ih =>
      obtain ⟨hc, hline⟩ := not_or.mp (fun hmem => h (List.mem_cons.mpr hmem))
      rw [List.cons_append, linesFrom, ih hline, List.reverse_cons, List.append_assoc]
      · rfl
      · exact fun heq => hc heq.symm

/-- Lines that are written each with a line feed behind it are the lines that are read, up to
blanks. -/
theorem trimmed_lines {texts : List (List Char)} (h : ∀ line ∈ texts, '\n' ∉ line) :
    (lines (texts.flatMap (· ++ ['\n']))).map trimChars = texts.map trimChars := by
  rw [lines]
  induction texts with
  | nil => rfl
  | cons line texts ih =>
      obtain ⟨hline, htexts⟩ := List.forall_mem_cons.mp h
      rw [List.flatMap_cons, List.append_assoc, List.singleton_append,
        linesFrom_append_newline hline, List.map_cons, ih htexts, List.append_nil,
        trimChars_withoutReturn, List.reverse_reverse, List.map_cons]

end RouteAudit.Text
