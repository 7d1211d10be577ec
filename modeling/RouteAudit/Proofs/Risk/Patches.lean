import RouteAudit.Proofs.Regex.Patches
import RouteAudit.Proofs.Risk.Monotone

/-! # Risk of a patched pattern

A patch whose pieces open and close no group and hold no wildcard leaves the structure of a pattern
as it is: the emptied groups of the patched pattern are a patch of the emptied groups
(`emptyOutside_patched`), and the patched pattern shows no more than the pattern (`scan_patched`).
If it also keeps the markers, no rule fires anew and the score does not rise.
-/

namespace RouteAudit.Risk

open Regex (Expr Patch)
open Facts (Below Preceding scanOutside scanInside)

/-- The character neither escapes another one nor opens or closes a group. -/
def Flat (c : Char) : Prop := c ≠ '\\' ∧ c ≠ '(' ∧ c ≠ ')'

instance (c : Char) : Decidable (Flat c) :=
  inferInstanceAs (Decidable (c ≠ '\\' ∧ c ≠ '(' ∧ c ≠ ')'))

/-- A patch that no reading of groups and wildcards can tell from the characters it replaces. A
piece may stand behind a backslash, so it counts for itself without its first character too. -/
structure Seamless (patch : Patch) : Prop where
  piece_flat : ∀ {piece}, patch.Piece piece → ∀ c ∈ piece, Flat c
  old_flat : Flat patch.old
  opens_apart : ∀ c ∈ patch.opens, ¬ Pattern.isNameChar c ∧ c ≠ ':' ∧ c ≠ ')'
  scan_piece : ∀ {piece}, patch.Piece piece → ∀ facts rest,
    scanOutside facts .plain (piece ++ rest) = scanOutside facts .plain rest
  scan_escaped : '\\' ∈ patch.opens → ∀ {piece}, patch.Piece piece → ∀ facts rest,
    scanOutside facts .plain (piece.tail ++ rest) = scanOutside facts .plain rest
  scan_old : ∀ facts rest, ∃ more, Below facts more ∧
    scanOutside facts .plain (patch.old :: rest) = scanOutside more .plain rest

/-! ## Words without groups -/

section

variable {word : List Char}

theorem emptyOutside_word (h : ∀ c ∈ word, Flat c) (rest : List Char) :
    emptyOutside (word ++ rest) = word ++ emptyOutside rest := by
  induction word with
  | nil => rfl
  | cons c word ih =>
      obtain ⟨⟨hescape, hopen, -⟩, hword⟩ := List.forall_mem_cons.mp h
      rw [List.cons_append, emptyOutside_plain hescape hopen, ih hword, List.cons_append]

theorem emptyInside_word (h : ∀ c ∈ word, Flat c) (opened : List Char) (depth : Nat)
    (rest : List Char) :
    emptyInside opened depth (word ++ rest) = emptyInside opened depth rest := by
  induction word with
  | nil => rfl
  | cons c word ih =>
      obtain ⟨⟨hescape, hopen, hclose⟩, hword⟩ := List.forall_mem_cons.mp h
      rw [List.cons_append, emptyInside_plain hescape hopen hclose, ih hword]

theorem scanInside_word (h : ∀ c ∈ word, Flat c) (facts : Facts) (onParameter : Bool)
    (depth : Nat) (rest : List Char) :
    scanInside facts onParameter depth (word ++ rest) =
      scanInside facts onParameter depth rest := by
  induction word with
  | nil => rfl
  | cons c word ih =>
      obtain ⟨⟨hescape, hopen, hclose⟩, hword⟩ := List.forall_mem_cons.mp h
      rw [List.cons_append, Facts.scanInside_plain hescape hopen hclose, ih hword]

theorem emptyOutside_escaped (hword : word ≠ []) (h : ∀ c ∈ word, Flat c) (rest : List Char) :
    emptyOutside ('\\' :: (word ++ rest)) = '\\' :: (word ++ emptyOutside rest) := by
  cases word with
  | nil => exact absurd rfl hword
  | cons c word =>
      have hrest := emptyOutside_word (List.forall_mem_cons.mp h).2 rest
      exact congrArg ('\\' :: c :: ·) hrest

theorem emptyInside_escaped (hword : word ≠ []) (h : ∀ c ∈ word, Flat c) (opened : List Char)
    (depth : Nat) (rest : List Char) :
    emptyInside opened depth ('\\' :: (word ++ rest)) = emptyInside opened depth rest := by
  cases word with
  | nil => exact absurd rfl hword
  | cons c word => exact emptyInside_word (List.forall_mem_cons.mp h).2 opened depth rest

theorem scanInside_escaped (hword : word ≠ []) (h : ∀ c ∈ word, Flat c) (facts : Facts)
    (onParameter : Bool) (depth : Nat) (rest : List Char) :
    scanInside facts onParameter depth ('\\' :: (word ++ rest)) =
      scanInside facts onParameter depth rest := by
  cases word with
  | nil => exact absurd rfl hword
  | cons c word => exact scanInside_word (List.forall_mem_cons.mp h).2 facts onParameter depth rest

/-- A text starts with what it did when its groups are emptied. -/
theorem head?_empty :
    (∀ cs, (emptyOutside cs).head? = cs.head?) ∧
      ∀ opened depth cs, (emptyInside opened depth cs).head? = some '(' := by
  apply emptyOutside.mutual_induct (fun cs => (emptyOutside cs).head? = cs.head?)
    (fun opened depth cs => (emptyInside opened depth cs).head? = some '(')
  -- Outside of groups.
  · rfl
  · rfl
  · intro c cs _
    rfl
  · intro cs ih
    exact ih
  · intro c cs hend hnext hopen _
    rw [emptyOutside_plain (Facts.ne_escape hend hnext) hopen]
    rfl
  -- Inside a group.
  · intro opened depth
    rfl
  · intro opened depth
    rfl
  · intro opened depth c cs ih
    exact ih
  · intro opened depth cs ih
    exact ih
  · intro opened cs _
    rfl
  · intro opened cs depth ih
    exact ih
  · intro opened depth c cs hend hnext hopen hclose ih
    rwa [emptyInside_plain (Facts.ne_escape hend hnext) hopen hclose]

end

/-! ## Emptied groups -/

section

variable {patch : Patch} {before : Option Char} {text candidate piece : List Char}

theorem Seamless.run_flat (h : Seamless patch) (n : Nat) :
    ∀ c ∈ List.replicate n patch.old, Flat c := by
  intro c hc
  rw [List.eq_of_mem_replicate hc]
  exact h.old_flat

theorem run_ne_nil (n : Nat) : List.replicate (n + 1) patch.old ≠ [] := by simp

/-- Emptying the groups of a patched text patches what it leaves of the text, wherever the reading
stands. -/
structure EmptiedAlike (patch : Patch) (before : Option Char) (text candidate : List Char) :
    Prop where
  outside : patch.Patched before (emptyOutside text) (emptyOutside candidate)
  escaped : before = some '\\' → ∀ first,
    patch.Patched first (emptyOutside ('\\' :: text)) (emptyOutside ('\\' :: candidate))
  inside : ∀ {opened kept}, patch.Patched (some '(') opened kept → ∀ depth first,
    patch.Patched first (emptyInside opened depth text) (emptyInside kept depth candidate)
  escapedInside : ∀ {opened kept}, patch.Patched (some '(') opened kept → ∀ depth first,
    patch.Patched first (emptyInside opened depth ('\\' :: text))
      (emptyInside kept depth ('\\' :: candidate))

namespace EmptiedAlike

theorem nil (before : Option Char) : EmptiedAlike patch before [] [] where
  outside := .nil before
  escaped _ first := .refl first _
  inside h _ _ := .keep '(' h
  escapedInside h _ _ := .keep '(' h

theorem keep (c : Char) (hpatched : patch.Patched (some c) text candidate)
    (h : EmptiedAlike patch (some c) text candidate) :
    EmptiedAlike patch before (c :: text) (c :: candidate) where
  outside := by
    by_cases hescape : c = '\\'
    · subst hescape
      exact h.escaped rfl before
    by_cases hopen : c = '('
    · subst hopen
      exact h.inside hpatched 0 before
    rw [emptyOutside_plain hescape hopen, emptyOutside_plain hescape hopen]
    exact .keep c h.outside
  escaped _ first := .keep '\\' (.keep c h.outside)
  inside hopened depth first := by
    by_cases hescape : c = '\\'
    · subst hescape
      exact h.escapedInside hopened depth first
    by_cases hopen : c = '('
    · subst hopen
      exact h.inside hopened (depth + 1) first
    by_cases hclose : c = ')'
    · subst hclose
      cases depth with
      | zero => exact .keep '(' (.keep ')' h.outside)
      | succ depth => exact h.inside hopened depth first
    rw [emptyInside_plain hescape hopen hclose, emptyInside_plain hescape hopen hclose]
    exact h.inside hopened depth first
  escapedInside hopened depth first := h.inside hopened depth first

theorem put (hseamless : Seamless patch) (n : Nat) (hopens : ∀ c ∈ before, c ∈ patch.opens)
    (hpiece : patch.Piece piece) (hcloses : ∀ c ∈ candidate.head?, patch.closes c)
    (h : EmptiedAlike patch (some patch.last) text candidate) :
    EmptiedAlike patch before (List.replicate (n + 1) patch.old ++ text) (piece ++ candidate) where
  outside := by
    rw [emptyOutside_word (hseamless.run_flat _), emptyOutside_word (hseamless.piece_flat hpiece)]
    refine .put n hopens hpiece ?_ h.outside
    rwa [head?_empty.1]
  escaped := by
    rintro rfl first
    rw [emptyOutside_escaped (run_ne_nil n) (hseamless.run_flat _),
      emptyOutside_escaped (Patch.Piece.ne_nil hpiece) (hseamless.piece_flat hpiece)]
    refine .keep '\\' (.put n hopens hpiece ?_ h.outside)
    rwa [head?_empty.1]
  inside hopened depth first := by
    rw [emptyInside_word (hseamless.run_flat _), emptyInside_word (hseamless.piece_flat hpiece)]
    exact h.inside hopened depth first
  escapedInside hopened depth first := by
    rw [emptyInside_escaped (run_ne_nil n) (hseamless.run_flat _),
      emptyInside_escaped (Patch.Piece.ne_nil hpiece) (hseamless.piece_flat hpiece)]
    exact h.inside hopened depth first

end EmptiedAlike

theorem emptied_alike (hseamless : Seamless patch) (h : patch.Patched before text candidate) :
    EmptiedAlike patch before text candidate := by
  induction h with
  | nil before => exact .nil before
  | keep c h ih => exact .keep c h ih
  | put n hopens hpiece hcloses _ ih => exact .put hseamless n hopens hpiece hcloses ih

theorem emptyOutside_patched (hseamless : Seamless patch)
    (h : patch.Patched before text candidate) :
    patch.Patched before (emptyOutside text) (emptyOutside candidate) :=
  (emptied_alike hseamless h).outside

/-! ## Facts -/

/-- A run of old characters leaves nothing behind that a name or a group could go on from. -/
theorem Seamless.scan_run (h : Seamless patch) (n : Nat) (facts : Facts) (rest : List Char) :
    ∃ more, Below facts more ∧
      scanOutside facts .plain (List.replicate n patch.old ++ rest) =
        scanOutside more .plain rest := by
  induction n generalizing facts with
  | zero => exact ⟨facts, .refl facts, rfl⟩
  | succ n ih =>
      obtain ⟨middle, hmiddle, hfirst⟩ := h.scan_old facts (List.replicate n patch.old ++ rest)
      obtain ⟨more, hmore, hrest⟩ := ih middle
      exact ⟨more, hmiddle.trans hmore, hfirst.trans hrest⟩

theorem Seamless.clear_colon (h : Seamless patch) : patch.Clear (some ':') :=
  ⟨':', rfl, fun hopens => (h.opens_apart ':' hopens).2.1 rfl⟩

theorem Seamless.clear_close (h : Seamless patch) : patch.Clear (some ')') :=
  ⟨')', rfl, fun hopens => (h.opens_apart ')' hopens).2.2 rfl⟩

/-- A patched text shows no more than the text, wherever the reading stands. Where a piece may
start, nothing stands before that a quantifier could count for. -/
structure ScannedBelow (patch : Patch) (before : Option Char) (text candidate : List Char) :
    Prop where
  outside : ∀ {facts more}, Below facts more → ∀ preceding,
    (¬ patch.Clear before → preceding = .plain) →
      Below (scanOutside facts preceding candidate) (scanOutside more preceding text)
  escaped : before = some '\\' → ∀ {facts more}, Below facts more → ∀ preceding,
    Below (scanOutside facts preceding ('\\' :: candidate))
      (scanOutside more preceding ('\\' :: text))
  inside : ∀ {facts more}, Below facts more → ∀ onParameter depth,
    Below (scanInside facts onParameter depth candidate) (scanInside more onParameter depth text)
  escapedInside : ∀ {facts more}, Below facts more → ∀ onParameter depth,
    Below (scanInside facts onParameter depth ('\\' :: candidate))
      (scanInside more onParameter depth ('\\' :: text))

namespace ScannedBelow

theorem nil (before : Option Char) : ScannedBelow patch before [] [] where
  outside h _ _ := h
  escaped _ _ _ h _ := h
  inside h _ _ := h
  escapedInside h _ _ := h

theorem keep (hseamless : Seamless patch) (c : Char)
    (hpatched : patch.Patched (some c) text candidate)
    (h : ScannedBelow patch (some c) text candidate) :
    ScannedBelow patch before (c :: text) (c :: candidate) where
  outside := by
    intro facts more hbelow preceding _
    by_cases hescape : c = '\\'
    · subst hescape
      exact h.escaped rfl hbelow preceding
    by_cases hopen : c = '('
    · subst hopen
      exact h.inside hbelow.addGroup_both _ 0
    by_cases hstar : c = '*'
    · subst hstar
      exact h.outside hbelow.addWildcard_both .plain fun _ => rfl
    by_cases hplus : c = '+'
    · subst hplus
      refine h.outside ?_ .plain fun _ => rfl
      split
      · exact hbelow
      · exact hbelow.addWildcard_both
    by_cases hcolon : c = ':'
    · subst hcolon
      have hclear := hseamless.clear_colon
      have hhead := hpatched.head?_eq hclear
      rw [scanOutside, scanOutside, hhead]
      exact h.outside hbelow _ fun hnot => absurd hclear hnot
    · rw [Facts.scanOutside_plain hescape hopen hstar hplus hcolon,
        Facts.scanOutside_plain hescape hopen hstar hplus hcolon]
      refine h.outside hbelow _ fun hnot => ?_
      -- A character that opens a piece goes on with no name.
      have hopens : c ∈ patch.opens := by
        by_contra hother
        exact hnot ⟨c, rfl, hother⟩
      rw [if_neg]
      simp [(hseamless.opens_apart c hopens).1]
  escaped := by
    intro _ facts more hbelow _
    exact h.outside hbelow .plain fun _ => rfl
  inside := by
    intro facts more hbelow onParameter depth
    by_cases hescape : c = '\\'
    · subst hescape
      exact h.escapedInside hbelow onParameter depth
    by_cases hopen : c = '('
    · subst hopen
      exact h.inside hbelow onParameter (depth + 1)
    by_cases hclose : c = ')'
    · subst hclose
      cases depth with
      | zero => exact h.outside hbelow _ fun hnot => absurd hseamless.clear_close hnot
      | succ depth => exact h.inside hbelow onParameter depth
    rw [Facts.scanInside_plain hescape hopen hclose, Facts.scanInside_plain hescape hopen hclose]
    exact h.inside hbelow onParameter depth
  escapedInside := by
    intro facts more hbelow onParameter depth
    exact h.inside hbelow onParameter depth

theorem put (hseamless : Seamless patch) (n : Nat) (hopens : ∀ c ∈ before, c ∈ patch.opens)
    (hpiece : patch.Piece piece) (h : ScannedBelow patch (some patch.last) text candidate) :
    ScannedBelow patch before (List.replicate (n + 1) patch.old ++ text) (piece ++ candidate) where
  outside := by
    intro facts more hbelow preceding hpreceding
    have hnot : ¬ patch.Clear before := by
      rintro ⟨c, hc, hother⟩
      exact hother (hopens c hc)
    obtain rfl := hpreceding hnot
    obtain ⟨most, hmost, hrun⟩ := hseamless.scan_run (n + 1) more text
    rw [hseamless.scan_piece hpiece, hrun]
    exact h.outside (hbelow.trans hmost) .plain fun _ => rfl
  escaped := by
    rintro rfl facts more hbelow preceding
    obtain ⟨most, hmost, hrun⟩ := hseamless.scan_run n more text
    have hscan := hseamless.scan_escaped (hopens _ rfl) hpiece facts candidate
    have hne := Patch.Piece.ne_nil hpiece
    cases piece with
    | nil => exact absurd rfl hne
    | cons c piece =>
        have htext : scanOutside more preceding
            ('\\' :: (List.replicate (n + 1) patch.old ++ text)) = scanOutside most .plain text :=
          hrun
        have hcandidate : scanOutside facts preceding ('\\' :: (c :: piece ++ candidate)) =
            scanOutside facts .plain candidate := hscan
        rw [htext, hcandidate]
        exact h.outside (hbelow.trans hmost) .plain fun _ => rfl
  inside := by
    intro facts more hbelow onParameter depth
    rw [scanInside_word (hseamless.run_flat _), scanInside_word (hseamless.piece_flat hpiece)]
    exact h.inside hbelow onParameter depth
  escapedInside := by
    intro facts more hbelow onParameter depth
    rw [scanInside_escaped (run_ne_nil n) (hseamless.run_flat _),
      scanInside_escaped (Patch.Piece.ne_nil hpiece) (hseamless.piece_flat hpiece)]
    exact h.inside hbelow onParameter depth

end ScannedBelow

theorem scanned_below (hseamless : Seamless patch) (h : patch.Patched before text candidate) :
    ScannedBelow patch before text candidate := by
  induction h with
  | nil before => exact .nil before
  | keep c h ih => exact .keep hseamless c h ih
  | put n hopens hpiece _ _ ih => exact .put hseamless n hopens hpiece ih

theorem scan_patched (hseamless : Seamless patch) (h : patch.Patched none text candidate) :
    Below (.scan (String.ofList candidate)) (.scan (String.ofList text)) := by
  rw [Facts.scan, Facts.scan, String.toList_ofList, String.toList_ofList]
  exact (scanned_below hseamless h).outside (.refl {}) .plain fun _ => rfl

end

/-! ## Rules -/

/-- The markers that the rules of the table look for. -/
def markers : List Expr :=
  [Marker.interpolation, Marker.traversal, Marker.openRedirect, Marker.internalHost,
    Marker.dynamicHost, Marker.nestedQuantifier, Marker.leadingWildcard, Marker.credentialName,
    Marker.userInfo, Marker.script, Marker.query, Marker.shell]

section

variable {patch : Patch} {text candidate : List Char}

/-- A check that succeeds for one text does so for another. -/
def Check.PassedOn (candidate text : List Char) (check : Check) : Prop :=
  check.holds (String.ofList candidate) (.scan (String.ofList candidate)) →
    check.holds (String.ofList text) (.scan (String.ofList text))

namespace Check

variable {e : Expr} (hpatched : patch.Patched none text candidate)
include hpatched

theorem marker_passedOn (hkeeps : patch.keeps e) :
    (marker (.ofExpr e)).PassedOn candidate text := by
  intro hmatch
  rw [holds, String.toList_ofList] at hmatch ⊢
  exact Patch.isMatch_of_patched hkeeps hpatched hmatch

theorem markerOutsideGroups_passedOn (hseamless : Seamless patch) (hkeeps : patch.keeps e) :
    (markerOutsideGroups (.ofExpr e)).PassedOn candidate text := by
  intro hmatch
  rw [holds, String.toList_ofList] at hmatch ⊢
  exact Patch.isMatch_of_patched hkeeps (emptyOutside_patched hseamless hpatched) hmatch

theorem markerWithGroups_passedOn (hseamless : Seamless patch) (hkeeps : patch.keeps e) :
    (markerWithGroups (.ofExpr e)).PassedOn candidate text := by
  intro hholds
  rw [holds, Bool.and_eq_true] at hholds ⊢
  exact ⟨(scan_patched hseamless hpatched).groups hholds.1,
    marker_passedOn hpatched hkeeps hholds.2⟩

theorem wildcards_passedOn (hseamless : Seamless patch) (least : Nat) :
    (wildcards least).PassedOn candidate text := by
  intro hholds
  rw [holds, decide_eq_true_eq] at hholds ⊢
  exact Nat.le_trans hholds (scan_patched hseamless hpatched).wildcards

end Check

/-- A seamless patch that keeps the markers makes no rule fire. -/
theorem Rule.fires_of_patched (hseamless : Seamless patch) (hkeeps : ∀ e ∈ markers, patch.keeps e)
    (hpatched : patch.Patched none text candidate) :
    ∀ rule ∈ table, rule.check.PassedOn candidate text := by
  simp only [markers, List.forall_mem_cons] at hkeeps
  obtain ⟨hinterpolation, htraversal, hredirect, hinternal, hdynamic, hquantifier, hleading,
    hcredential, huserInfo, hscript, hquery, hshell, -⟩ := hkeeps
  simp only [table, List.forall_mem_cons]
  exact ⟨Check.marker_passedOn hpatched hinterpolation, Check.marker_passedOn hpatched htraversal,
    Check.marker_passedOn hpatched hredirect, Check.marker_passedOn hpatched hinternal,
    Check.marker_passedOn hpatched hdynamic,
    Check.markerWithGroups_passedOn hpatched hseamless hquantifier,
    Check.wildcards_passedOn hpatched hseamless 1, Check.wildcards_passedOn hpatched hseamless 3,
    Check.marker_passedOn hpatched hleading, Check.marker_passedOn hpatched hcredential,
    Check.marker_passedOn hpatched huserInfo, Check.marker_passedOn hpatched hscript,
    Check.marker_passedOn hpatched hquery,
    Check.markerOutsideGroups_passedOn hpatched hseamless hshell, List.forall_mem_nil _⟩

end

end RouteAudit.Risk
