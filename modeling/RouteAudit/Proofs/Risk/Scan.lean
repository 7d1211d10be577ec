import RouteAudit.Pattern.Facts

/-! # Facts of a longer text

Reading on never takes back what was read: a group stays open to have been seen, and a
wildcard stays counted (`scan_below`). So a text with more behind shows at least
what it showed alone (`scan_append`). How a name, an escape or a group that reaches to the
end of the text goes on behind it does not matter to that.
-/

namespace RouteAudit.Facts

/-- Some facts hold at least as much as others. -/
structure Below (facts more : Facts) : Prop where
  groups : facts.hasGroups → more.hasGroups
  wildcards : facts.wildcards ≤ more.wildcards

namespace Below

variable {facts more most : Facts}

theorem refl (facts : Facts) : Below facts facts := ⟨id, Nat.le_refl _⟩

theorem trans (h : Below facts more) (hmost : Below more most) : Below facts most :=
  ⟨fun hgroups => hmost.groups (h.groups hgroups), Nat.le_trans h.wildcards hmost.wildcards⟩

theorem addWildcard (facts : Facts) : Below facts facts.addWildcard := ⟨id, Nat.le_succ _⟩

theorem addGroup (facts : Facts) : Below facts { facts with hasGroups := true } :=
  ⟨fun _ => rfl, Nat.le_refl _⟩

theorem addWildcard_both (h : Below facts more) : Below facts.addWildcard more.addWildcard :=
  ⟨h.groups, Nat.succ_le_succ h.wildcards⟩

theorem addGroup_both (h : Below facts more) :
    Below { facts with hasGroups := true } { more with hasGroups := true } :=
  ⟨fun _ => rfl, h.wildcards⟩

end Below

/-- A character that is no escape stands as itself, whatever comes next. -/
theorem ne_escape {c : Char} {cs : List Char} (hend : c = '\\' → cs = [] → False)
    (hnext : ∀ next rest, c = '\\' → cs = next :: rest → False) : c ≠ '\\' := by
  intro hc
  cases cs with
  | nil => exact hend hc rfl
  | cons next rest => exact hnext next rest hc rfl

theorem scanOutside_plain {c : Char} (hescape : c ≠ '\\') (hgroup : c ≠ '(') (hstar : c ≠ '*')
    (hplus : c ≠ '+') (hcolon : c ≠ ':') (facts : Facts) (preceding : Preceding)
    (cs : List Char) :
    scanOutside facts preceding (c :: cs) = scanOutside facts
      (if preceding == .name && Pattern.isNameChar c then .name else .plain) cs := by
  rw [scanOutside] <;> intros <;> contradiction

theorem scanInside_plain {c : Char} (hescape : c ≠ '\\') (hopen : c ≠ '(') (hclose : c ≠ ')')
    (facts : Facts) (onParameter : Bool) (depth : Nat) (cs : List Char) :
    scanInside facts onParameter depth (c :: cs) = scanInside facts onParameter depth cs := by
  rw [scanInside] <;> intros <;> contradiction

/-- Reading on never takes back what was read. -/
theorem scan_below :
    (∀ facts preceding cs, Below facts (scanOutside facts preceding cs)) ∧
      ∀ facts onParameter depth cs, Below facts (scanInside facts onParameter depth cs) := by
  apply scanOutside.mutual_induct
    (fun facts preceding cs => Below facts (scanOutside facts preceding cs))
    (fun facts onParameter depth cs => Below facts (scanInside facts onParameter depth cs))
  -- Outside of groups.
  · intro facts preceding
    exact .refl facts
  · intro facts preceding
    exact .refl facts
  · intro facts preceding c cs ih
    exact ih
  · intro facts preceding cs ih
    exact (Below.addGroup facts).trans ih
  · intro facts preceding cs ih
    exact (Below.addWildcard facts).trans ih
  · intro facts preceding cs ih
    refine Below.trans ?_ ih
    split
    · exact .refl facts
    · exact .addWildcard facts
  · intro facts preceding cs ih
    exact ih
  · intro facts preceding c cs hend hnext hgroup hstar hplus hcolon ih
    rw [scanOutside_plain (ne_escape hend hnext) hgroup hstar hplus hcolon]
    exact ih
  -- Inside a group.
  · intro facts onParameter depth
    exact .refl facts
  · intro facts onParameter depth
    exact .refl facts
  · intro facts onParameter depth c cs ih
    exact ih
  · intro facts onParameter depth cs ih
    exact ih
  · intro facts onParameter cs ih
    exact ih
  · intro facts onParameter cs depth ih
    exact ih
  · intro facts onParameter depth c cs hend hnext hopen hclose ih
    rw [scanInside_plain (ne_escape hend hnext) hopen hclose]
    exact ih

/-- More text behind only adds to what is read. -/
theorem scan_append (more : List Char) :
    (∀ facts preceding cs,
      Below (scanOutside facts preceding cs) (scanOutside facts preceding (cs ++ more))) ∧
      ∀ facts onParameter depth cs, Below (scanInside facts onParameter depth cs)
        (scanInside facts onParameter depth (cs ++ more)) := by
  obtain ⟨houtside, hinside⟩ := scan_below
  apply scanOutside.mutual_induct
    (fun facts preceding cs =>
      Below (scanOutside facts preceding cs) (scanOutside facts preceding (cs ++ more)))
    (fun facts onParameter depth cs => Below (scanInside facts onParameter depth cs)
      (scanInside facts onParameter depth (cs ++ more)))
  -- Outside of groups.
  · intro facts preceding
    exact houtside facts preceding more
  · intro facts preceding
    cases more with
    | nil => exact .refl facts
    | cons c more => exact houtside facts .plain more
  · intro facts preceding c cs ih
    exact ih
  · intro facts preceding cs ih
    exact ih
  · intro facts preceding cs ih
    exact ih
  · intro facts preceding cs ih
    exact ih
  · intro facts preceding cs ih
    cases cs with
    | nil => exact houtside facts _ more
    | cons c cs => exact ih
  · intro facts preceding c cs hend hnext hgroup hstar hplus hcolon ih
    have hescape := ne_escape hend hnext
    rw [List.cons_append, scanOutside_plain hescape hgroup hstar hplus hcolon,
      scanOutside_plain hescape hgroup hstar hplus hcolon]
    exact ih
  -- Inside a group.
  · intro facts onParameter depth
    exact hinside facts onParameter depth more
  · intro facts onParameter depth
    cases more with
    | nil => exact .refl facts
    | cons c more => exact hinside facts onParameter depth more
  · intro facts onParameter depth c cs ih
    exact ih
  · intro facts onParameter depth cs ih
    exact ih
  · intro facts onParameter cs ih
    exact ih
  · intro facts onParameter cs depth ih
    exact ih
  · intro facts onParameter depth c cs hend hnext hopen hclose ih
    have hescape := ne_escape hend hnext
    rw [List.cons_append, scanInside_plain hescape hopen hclose,
      scanInside_plain hescape hopen hclose]
    exact ih

/-- A longer pattern shows at least what the pattern shows. -/
theorem scan_below_append (pattern suffix : String) :
    Below (scan pattern) (scan (pattern ++ suffix)) := by
  rw [scan, scan, String.toList_append]
  exact (scan_append suffix.toList).1 {} .plain pattern.toList

end RouteAudit.Facts
