import Mathlib.Data.List.MinMax
import RouteAudit.Proofs.Regex.Groups
import RouteAudit.Proofs.Regex.OutlineSteps

/-! # Groups of a pattern that is read to its end

A group whose text closes what it opens is read inside the pattern step by step as it is read
apart, so if the reader comes to the end of the pattern, it comes to the end of the group alone
(`Completes.apart`). Nesting only grows on the way, so the group keeps to the limit too.
-/

namespace RouteAudit.Regex

namespace Piece

variable {piece : Piece} {pieces : List Piece}

theorem depth_lt_depthAround (h : piece ∈ pieces) : piece.depth < depthAround pieces := by
  have hmax : piece.depth ≤ (pieces.map (·.depth)).foldl max 0 := by
    rw [← List.foldr_eq_foldl]
    exact List.le_max_of_le' 0 (List.mem_map_of_mem h) (Nat.le_refl _)
  rw [depthAround]
  omega

theorem depth_le_row (h : piece ∈ pieces) : piece.depth ≤ (row pieces).depth := by
  unfold row
  split
  next => cases h
  next other =>
    obtain rfl := List.mem_singleton.mp h
    exact Nat.le_refl _
  next => exact Nat.le_of_lt (depth_lt_depthAround h)

theorem depth_le_choice (h : piece ∈ pieces) : piece.depth ≤ (choice pieces).depth := by
  unfold choice
  split
  next other =>
    obtain rfl := List.mem_singleton.mp h
    exact Nat.le_refl _
  next => exact Nat.le_of_lt (depth_lt_depthAround h)

theorem depth_lt_group (kind : Group) (piece : Piece) :
    piece.depth < (Piece.group kind piece).depth :=
  depth_lt_depthAround (List.mem_singleton_self piece)

end Piece

namespace Level

variable {level : Level} {piece : Piece}

/-- Nothing that stands on a level nests too deep. -/
def Shallow (level : Level) : Prop :=
  ∀ piece, piece ∈ level.pieces ∨ piece ∈ level.branches → piece.depth ≤ Piece.maxDepth

/-- What stands on a level nests no deeper than the level once it is closed. -/
theorem shallow_of_close (h : level.close.depth ≤ Piece.maxDepth) : level.Shallow := by
  rintro piece (hpiece | hpiece)
  · have hrow : (Piece.row level.pieces).depth ≤ level.close.depth :=
      Piece.depth_le_choice List.mem_cons_self
    exact ((Piece.depth_le_row hpiece).trans hrow).trans h
  · exact (Piece.depth_le_choice (List.mem_cons_of_mem _ hpiece)).trans h

theorem Shallow.of_push (h : Shallow { level with pieces := piece :: level.pieces }) :
    level.Shallow :=
  fun other hother => h other (hother.imp_left (List.mem_cons_of_mem _))

end Level

namespace Reader

/-- The reader comes to the end of a text with no group open and the limit on nesting kept. -/
def Completes (r : Reader) (cs : List Char) : Prop :=
  ∃ fuel last, last? fuel r cs = some last ∧ last.groups = [] ∧
    last.level.close.depth ≤ Piece.maxDepth

/-- Nothing that has been read nests too deep. -/
def Shallow (r : Reader) : Prop := r.level.Shallow ∧ ∀ group ∈ r.groups, group.around.Shallow

section

variable {n fuel : Nat} {r r' : Reader} {c : Char} {cs ds rest : List Char} {construct : Construct}
  {e : Expr}

/-! ## Reading to the end -/

theorem completes_of_run (h : run? fuel r cs = some e) : Completes r cs := by
  rw [run?_eq_last?] at h
  obtain ⟨last, hlast, hfinish⟩ := Option.bind_eq_some_iff.mp h
  unfold finish? at hfinish
  dsimp only at hfinish
  split at hfinish
  next hlimits =>
    simp only [Bool.and_eq_true, List.isEmpty_iff, decide_eq_true_eq] at hlimits
    exact ⟨fuel, last, hlast, hlimits.1.1, hlimits.1.2⟩
  next => cases hfinish

namespace Completes

theorem of_reach (h : Completes r cs) (hreach : Reach n r cs r' rest) : Completes r' rest := by
  obtain ⟨fuel, last, hlast, hend⟩ := h
  have hmore := last?_mono hlast (Nat.le_add_left fuel n)
  rw [last?_of_reach hreach] at hmore
  exact ⟨fuel, last, hmore, hend⟩

theorem not_stuck (h : Completes r cs) : ¬ Stuck r cs := by
  obtain ⟨fuel, last, hlast, -⟩ := h
  intro hstuck
  rw [hstuck fuel] at hlast
  cases hlast

/-- Where there is more text, the reader makes a step. -/
theorem step (h : Completes r cs) (hnext : r.flags.next cs = c :: ds) :
    ∃ r' rest, r.step? c ds = some (r', rest) ∧ Completes r' rest := by
  cases hstep : r.step? c ds with
  | none => exact absurd (.of_step hnext hstep) h.not_stuck
  | some found => exact ⟨found.1, found.2, rfl, h.of_reach (.one hnext hstep)⟩

end Completes

/-! ## Nesting -/

/-- A step takes nothing back that nests too deep. -/
theorem Shallow.of_take? (htake : r.take? construct = some r') (h : Shallow r') : Shallow r := by
  unfold take? at htake
  split at htake
  case h_1 | h_2 =>
    obtain rfl := Option.some.inj htake
    exact ⟨h.1.of_push, h.2⟩
  case h_3 =>
    unfold repeatLast? at htake
    split at htake
    next => cases htake
    next piece pieces hpieces =>
      obtain ⟨added, hadded, heq⟩ := Option.bind_eq_some_iff.mp htake
      obtain ⟨body, -, rfl⟩ := Option.map_eq_some_iff.mp hadded
      obtain rfl := Option.some.inj heq
      refine ⟨?_, h.2⟩
      rintro other (hother | hother)
      · rw [hpieces] at hother
        rcases List.mem_cons.mp hother with rfl | hother
        · have hlt := Piece.depth_lt_depthAround (List.mem_singleton_self other)
          exact hlt.le.trans (h.1 _ (.inl List.mem_cons_self))
        · exact h.1 other (.inl (List.mem_cons_of_mem _ hother))
      · exact h.1 other (.inr hother)
  case h_4 =>
    obtain rfl := Option.some.inj htake
    refine ⟨?_, h.2⟩
    rintro other (hother | hother)
    · exact (Piece.depth_le_row hother).trans (h.1 _ (.inr List.mem_cons_self))
    · exact h.1 other (.inr (List.mem_cons_of_mem _ hother))
  case h_5 =>
    split at htake
    next => cases htake
    next =>
      obtain rfl := Option.some.inj htake
      exact List.forall_mem_cons.mp h.2
  case h_6 =>
    obtain rfl := Option.some.inj htake
    exact List.forall_mem_cons.mp h.2
  case h_7 =>
    unfold closeParen? at htake
    split at htake
    next => cases htake
    next group groups hgroups =>
      obtain rfl := Option.some.inj htake
      have hpiece := h.1 _ (.inl List.mem_cons_self)
      refine ⟨Level.shallow_of_close ((Piece.depth_lt_group _ _).le.trans hpiece), ?_⟩
      rw [hgroups]
      exact List.forall_mem_cons.mpr ⟨h.1.of_push, h.2⟩

theorem Completes.shallow (h : Completes r cs) : Shallow r := by
  obtain ⟨fuel, last, hlast, hgroups, hdepth⟩ := h
  induction fuel generalizing r cs with
  | zero => cases hlast
  | succ fuel ih =>
      rw [last?] at hlast
      split at hlast
      next =>
        obtain rfl := Option.some.inj hlast
        refine ⟨Level.shallow_of_close hdepth, ?_⟩
        rw [hgroups]
        exact List.forall_mem_nil _
      next =>
        obtain ⟨⟨next, rest⟩, hstep, hlast⟩ := Option.bind_eq_some_iff.mp hlast
        rw [step?_eq] at hstep
        obtain ⟨taken, -, hstep⟩ := Option.bind_eq_some_iff.mp hstep
        obtain ⟨next, htake, heq⟩ := Option.map_eq_some_iff.mp hstep
        obtain ⟨rfl, rfl⟩ := Prod.mk.inj heq
        exact Shallow.of_take? htake (ih hlast)

end

/-! ## States inside a group -/

/-- A state of the group read apart and one of the whole pattern at the same place in the group,
where so many groups have been opened inside. Only what was there before the group differs. -/
structure Inside (group group' : OpenGroup) (outer : List OpenGroup) (names : List String)
    (depth : Nat) (r r' : Reader) : Prop where
  flags : r'.flags = r.flags
  strict : r.flags.loose = false
  level : r'.level = r.level
  groups : ∃ inner, r.groups = inner ++ [group] ∧ r'.groups = inner ++ group' :: outer ∧
    inner.length = depth ∧ ∀ opened ∈ inner, opened.flags.loose = false
  names : r'.names = r.names ++ names

section

variable {group group' : OpenGroup} {outer : List OpenGroup} {names : List String}
  {depth fuel : Nat} {r r' r₁' : Reader} {c : Char} {cs tail rest behind : List Char}
  {construct : Construct}

namespace Inside

theorem openGroup (h : Inside group group' outer names depth r r') (kind : Group) {flags : Flags}
    (hstrict : flags.loose = false) :
    Inside group group' outer names (depth + 1) (r.openGroup kind flags)
      (r'.openGroup kind flags) := by
  obtain ⟨inner, hgroups, hgroups', hlength, hinner⟩ := h.groups
  refine ⟨rfl, hstrict, rfl, ⟨⟨r.level, kind, r.flags⟩ :: inner, ?_, ?_, ?_, ?_⟩, h.names⟩
  · rw [Reader.openGroup, hgroups, List.cons_append]
  · rw [Reader.openGroup, hgroups', h.level, h.flags, List.cons_append]
  · rw [List.length_cons, hlength]
  · exact List.forall_mem_cons.mpr ⟨h.strict, hinner⟩

/-- What is made of a construct inside the group is made of it in the group read apart. -/
theorem take? (h : Inside group group' outer names depth r r')
    (hleaves : construct.Leaves depth behind) (htake : r'.take? construct = some r₁') :
    ∃ r₁ depth₁, r.take? construct = some r₁ ∧
      Inside group group' outer names depth₁ r₁ r₁' ∧ Outline.closes ⟨depth₁, .plain⟩ behind := by
  cases construct with
  | piece piece =>
      obtain rfl := Option.some.inj htake
      refine ⟨_, depth, rfl, ⟨h.flags, h.strict, ?_, h.groups, h.names⟩, hleaves⟩
      rw [push, push, h.level]
  | setting flags =>
      obtain rfl := Option.some.inj htake
      refine ⟨_, depth, rfl, ⟨rfl, hleaves.1, ?_, h.groups, h.names⟩, hleaves.2⟩
      rw [push, push, h.level]
  | repetition greedy least most =>
      rw [Reader.take?, repeatLast?, h.level, h.flags] at htake
      rw [Reader.take?, repeatLast?]
      split at htake
      next => cases htake
      next =>
        obtain ⟨added, hadded, heq⟩ := Option.bind_eq_some_iff.mp htake
        obtain rfl := Option.some.inj heq
        simp only [hadded, Option.bind_eq_bind, Option.bind_some, Option.pure_def]
        exact ⟨_, depth, rfl, ⟨rfl, h.strict, rfl, h.groups, h.names⟩, hleaves⟩
  | bar =>
      obtain rfl := Option.some.inj htake
      refine ⟨_, depth, rfl, ⟨h.flags, h.strict, ?_, h.groups, h.names⟩, hleaves⟩
      rw [h.level]
  | opening kind flags =>
      have hopened := h.openGroup kind hleaves.1
      cases kind with
      | plain | numbered =>
          obtain rfl := Option.some.inj htake
          exact ⟨_, depth + 1, rfl, hopened, hleaves.2⟩
      | named name =>
          rw [Reader.take?, h.names] at htake
          rw [Reader.take?]
          split at htake
          next => cases htake
          next hnew =>
            obtain rfl := Option.some.inj htake
            have hnew : ¬ r.names.contains name := by
              rw [List.contains_eq_mem, decide_eq_true_eq] at hnew ⊢
              exact fun hmem => hnew (List.mem_append_left _ hmem)
            rw [if_neg hnew]
            exact ⟨_, depth + 1, rfl, ⟨hopened.flags, hopened.strict, hopened.level,
              hopened.groups, rfl⟩, hleaves.2⟩
  | closing =>
      obtain ⟨inner, hgroups, hgroups', hlength, hinner⟩ := h.groups
      obtain ⟨around, rfl, hbehind⟩ := hleaves
      cases inner with
      | nil => cases hlength
      | cons opened inner =>
      obtain ⟨hopened, hinner⟩ := List.forall_mem_cons.mp hinner
      rw [Reader.take?, closeParen?, hgroups'] at htake
      obtain rfl := Option.some.inj htake
      let piece : Piece := .group opened.kind r.level.close
      let level : Level := { opened.around with pieces := piece :: opened.around.pieces }
      refine ⟨{ r with flags := opened.flags, level, groups := inner ++ [group] }, around, ?_,
        ⟨rfl, hopened, ?_, ⟨inner, rfl, rfl, Nat.succ.inj hlength, hinner⟩, h.names⟩, hbehind⟩
      · rw [Reader.take?, closeParen?, hgroups]
        rfl
      · rw [h.level]

end Inside

/-- Where the reader comes to the end of the pattern from inside a group, it comes to the closing
parenthesis of the group if that is read apart. -/
theorem Completes.closes (h : Completes r' (cs ++ tail))
    (hinside : Inside group group' outer names depth r r') (hgroup : group.flags = {})
    (hcloses : Outline.closes ⟨depth, .plain⟩ cs) (hfuel : cs.length ≤ fuel) :
    ∃ closed closed', closes? fuel r cs = some closed ∧
      Inside group group' outer names 0 closed closed' ∧ Completes closed' (')' :: tail) := by
  induction fuel generalizing depth r r' cs with
  | zero =>
      obtain rfl := List.length_eq_zero_iff.mp (Nat.le_zero.mp hfuel)
      cases hcloses
  | succ fuel ih =>
  cases cs with
  | nil => cases hcloses
  | cons c cs =>
  have hnext (cs : List Char) : r.flags.next cs = cs := next_of_strict hinside.strict cs
  by_cases hstop : c = ')' ∧ cs = []
  · obtain ⟨rfl, rfl⟩ := hstop
    cases depth with
    | succ around => cases hcloses
    | zero =>
    obtain ⟨inner, hgroups, -, hlength, -⟩ := hinside.groups
    obtain rfl := List.length_eq_zero_iff.mp hlength
    refine ⟨r, r', ?_, hinside, h⟩
    rw [closes?, hnext, hgroups]
    simp [hgroup]
  · have hmore : r'.flags.next (c :: cs ++ tail) = c :: (cs ++ tail) := by
      rw [hinside.flags, hnext]
      rfl
    obtain ⟨r₁', rest, hstep, hcomplete⟩ := h.step hmore
    rw [step?_eq, hinside.flags] at hstep
    obtain ⟨⟨construct, last⟩, hread, hstep⟩ := Option.bind_eq_some_iff.mp hstep
    obtain ⟨next, htake, heq⟩ := Option.map_eq_some_iff.mp hstep
    obtain ⟨rfl, rfl⟩ := Prod.mk.inj heq
    obtain ⟨behind, rfl, hread, hleaves, hlength⟩ :=
      stays_ofText? hinside.strict hcloses hstop hread
    obtain ⟨r₁, depth₁, htake, hinside₁, hbehind⟩ := hinside.take? hleaves htake
    have hstep₁ : r.step? c cs = some (r₁, behind) := by
      rw [step?_eq, hread, Option.bind_some, htake]
      rfl
    have hsome := Outline.ne_nil_of_closes (Outline.idle_plain depth₁).unclosed hbehind
    rw [closes?_of_step (hnext _) hstep₁ hsome]
    exact ih hcomplete hinside₁ hbehind (hlength.trans (Nat.le_of_succ_le_succ hfuel))

/-- In a pattern that is read to its end, a group that closes what it opens closes apart, and no
deeper than the limit. -/
theorem Completes.apart (h : Completes r' (cs ++ tail))
    (hinside : Inside group group' outer names 0 r r') (hgroup : group.flags = {})
    (hcloses : Outline.closes ⟨0, .plain⟩ cs) (hfuel : cs.length ≤ fuel) :
    ∃ closed, closes? fuel r cs = some closed ∧ closed.groups = [group] ∧
      (Piece.group group.kind closed.level.close).depth ≤ Piece.maxDepth := by
  obtain ⟨closed, closed', hclosed, hinside', hcomplete⟩ := h.closes hinside hgroup hcloses hfuel
  obtain ⟨inner, hgroups, hgroups', hlength, -⟩ := hinside'.groups
  obtain rfl := List.length_eq_zero_iff.mp hlength
  refine ⟨closed, hclosed, hgroups, ?_⟩
  have hnext : closed'.flags.next (')' :: tail) = ')' :: tail := by
    rw [hinside'.flags]
    exact next_of_strict hinside'.strict _
  obtain ⟨last, rest, hstep, hcomplete⟩ := hcomplete.step hnext
  obtain ⟨found, hclose, heq⟩ := Option.map_eq_some_iff.mp hstep
  obtain ⟨rfl, rfl⟩ := Prod.mk.inj heq
  rw [closeParen?, hgroups', hinside'.level] at hclose
  obtain rfl := Option.some.inj hclose
  exact hcomplete.shallow.1 (.group group'.kind closed.level.close) (.inl List.mem_cons_self)

end

end Reader

end RouteAudit.Regex
