import RouteAudit.Proofs.Regex.Steps

/-! # Groups read apart

What stands between the parentheses of a group may reach beyond them: a bracket, an escape or a
comment can swallow the closing one, and a setting changes what follows. Where it does not, the
group can be read on its own (`group?`), and then it is read like that wherever it stands, also
with backslashes before its pipes. All it can meet with is a name that is taken.
-/

namespace RouteAudit.Regex.Reader

/-! ## Reading on -/

/-- Reading comes from one state and text to another in so many steps. -/
inductive Reach : Nat → Reader → List Char → Reader → List Char → Prop where
  | refl (r : Reader) (cs : List Char) : Reach 0 r cs r cs
  | step {n : Nat} {r r' r'' : Reader} {c : Char} {cs ds rest last : List Char} :
      r.flags.next cs = c :: ds → r.step? c ds = some (r', rest) → Reach n r' rest r'' last →
        Reach (n + 1) r cs r'' last

/-- The state at the end of a text, before it is looked at. -/
def last? : (fuel : Nat) → Reader → List Char → Option Reader
  | 0, _, _ => none
  | fuel + 1, r, cs =>
    match r.flags.next cs with
    | [] => some r
    | c :: cs => do
      let (r, rest) ← r.step? c cs
      last? fuel r rest

/-- Reading does not come to the end of the text. -/
def Stuck (r : Reader) (cs : List Char) : Prop := ∀ fuel, last? fuel r cs = none

theorem run?_eq_last? (fuel : Nat) (r : Reader) (cs : List Char) :
    run? fuel r cs = (last? fuel r cs).bind finish? := by
  induction fuel generalizing r cs with
  | zero => rfl
  | succ fuel ih =>
      rw [run?, last?]
      cases r.flags.next cs with
      | nil => rfl
      | cons c cs =>
          dsimp only
          cases r.step? c cs with
          | none => rfl
          | some found => exact ih found.1 found.2

section

variable {m n fuel : Nat} {r r' r'' : Reader} {cs ds rest last : List Char} {c : Char}

theorem Reach.trans (hfirst : Reach m r cs r' rest) (hsecond : Reach n r' rest r'' last) :
    Reach (m + n) r cs r'' last := by
  induction hfirst with
  | refl =>
      rw [Nat.zero_add]
      exact hsecond
  | step hnext hstep _ ih =>
      rw [Nat.succ_add]
      exact .step hnext hstep (ih hsecond)

theorem Reach.one (hnext : r.flags.next cs = c :: ds) (hstep : r.step? c ds = some (r', rest)) :
    Reach 1 r cs r' rest :=
  .step hnext hstep (.refl r' rest)

theorem last?_of_reach (h : Reach n r cs r' rest) (fuel : Nat) :
    last? (n + fuel) r cs = last? fuel r' rest := by
  induction h with
  | refl => rw [Nat.zero_add]
  | step hnext hstep _ ih =>
      rw [Nat.succ_add, last?, hnext]
      simp only [hstep, Option.bind_eq_bind, Option.bind_some]
      exact ih

theorem last?_mono (h : last? fuel r cs = some r') (hle : fuel ≤ n) : last? n r cs = some r' := by
  induction fuel generalizing r cs n with
  | zero => cases h
  | succ fuel ih =>
      obtain ⟨n, rfl⟩ : ∃ more, n = more + 1 := Nat.exists_eq_succ_of_ne_zero (by omega)
      rw [last?] at h ⊢
      split at h
      next => exact h
      next c cs _ =>
        obtain ⟨⟨next, rest⟩, hstep, hlast⟩ := Option.bind_eq_some_iff.mp h
        simp only [hstep, Option.bind_eq_bind, Option.bind_some]
        exact ih hlast (Nat.le_of_succ_le_succ hle)

theorem Stuck.of_reach (h : Reach n r cs r' rest) (hstuck : Stuck r' rest) : Stuck r cs := by
  intro fuel
  cases hlast : last? fuel r cs with
  | none => rfl
  | some found =>
      have hmore := last?_mono hlast (Nat.le_add_left fuel n)
      rw [last?_of_reach h, hstuck] at hmore
      cases hmore

theorem Stuck.of_step (hnext : r.flags.next cs = c :: ds) (hstep : r.step? c ds = none) :
    Stuck r cs := by
  intro fuel
  cases fuel with
  | zero => rfl
  | succ fuel =>
      rw [last?, hnext]
      simp only [hstep, Option.bind_eq_bind, Option.bind_none]

end

/-! ## States around a group -/

/-- Whether something stands before that a repetition can repeat. -/
def repeatable (r : Reader) : Bool := r.level.pieces.head?.any (·.expr.isSome)

/-- A state and the same with more around it: groups that were opened before and names that were
taken before. What has been read need not be the same. -/
structure Framed (outer : List OpenGroup) (names : List String) (r r' : Reader) : Prop where
  flags : r'.flags = r.flags
  repeatable : r.repeatable → r'.repeatable
  groups : ∃ inner, r'.groups = inner ++ outer ∧ inner.map (·.flags) = r.groups.map (·.flags)
  names : r'.names = r.names ++ names

section

variable {r r' r₁ : Reader} {outer : List OpenGroup} {names : List String}

theorem repeatLast?_spec {greedy : Bool} {least : Nat} {most : Option Nat}
    (h : r.repeatLast? greedy least most = some r') :
    r.repeatable ∧ r'.repeatable ∧ r'.flags = r.flags ∧ r'.groups = r.groups ∧
      r'.names = r.names := by
  unfold repeatLast? at h
  split at h
  next => cases h
  next piece pieces hpieces =>
    obtain ⟨added, hadded, heq⟩ := Option.bind_eq_some_iff.mp h
    obtain ⟨body, hbody, rfl⟩ := Option.map_eq_some_iff.mp hadded
    obtain rfl := Option.some.inj heq
    refine ⟨?_, rfl, rfl, rfl, rfl⟩
    rw [Reader.repeatable, hpieces, List.head?_cons, Option.any_some, hbody]
    rfl

theorem repeatLast?_of_repeatable (h : r.repeatable) (greedy : Bool) (least : Nat)
    (most : Option Nat) : ∃ r', r.repeatLast? greedy least most = some r' := by
  unfold Reader.repeatable at h
  unfold repeatLast?
  split
  next hpieces =>
    rw [hpieces] at h
    cases h
  next piece pieces hpieces =>
    rw [hpieces, List.head?_cons, Option.any_some, Option.isSome_iff_exists] at h
    obtain ⟨body, hbody⟩ := h
    exact ⟨_, by rw [Piece.repeat?, hbody]; rfl⟩

theorem closeParen?_of_groups {group : OpenGroup} {groups : List OpenGroup}
    (h : r.groups = group :: groups) : ∃ closed, r.closeParen? = some closed ∧
      closed.flags = group.flags ∧ closed.repeatable ∧ closed.groups = groups ∧
      closed.names = r.names := by
  let piece : Piece := .group group.kind r.level.close
  let level : Level := { group.around with pieces := piece :: group.around.pieces }
  refine ⟨{ r with flags := group.flags, level, groups }, ?_, rfl, rfl, rfl, rfl⟩
  rw [closeParen?, h]

/-- A construct adds at most one name. -/
theorem take?_names {construct : Construct} (h : r.take? construct = some r₁) :
    r₁.names = r.names ∨ ∃ name flags, construct = .opening (.named name) flags ∧
      name ∉ r.names ∧ r₁.names = name :: r.names := by
  unfold take? at h
  split at h
  case h_3 => exact .inl (repeatLast?_spec h).2.2.2.2
  case h_5 name flags =>
    split at h
    next => cases h
    next hnew =>
      obtain rfl := Option.some.inj h
      rw [List.contains_eq_mem, decide_eq_true_eq] at hnew
      exact .inr ⟨name, flags, rfl, hnew, rfl⟩
  case h_7 =>
    unfold closeParen? at h
    split at h
    next => cases h
    next =>
      obtain rfl := Option.some.inj h
      exact .inl rfl
  all_goals
    obtain rfl := Option.some.inj h
    exact .inl rfl

theorem Framed.take? (h : Framed outer names r r') {construct : Construct}
    (htake : r.take? construct = some r₁) (hfree : ∀ name ∈ r₁.names, name ∉ names) :
    ∃ r₁', r'.take? construct = some r₁' ∧ Framed outer names r₁ r₁' := by
  cases construct with
  | piece piece =>
      obtain rfl := Option.some.inj htake
      exact ⟨_, rfl, h.flags, id, h.groups, h.names⟩
  | setting flags =>
      obtain rfl := Option.some.inj htake
      exact ⟨_, rfl, rfl, id, h.groups, h.names⟩
  | repetition greedy least most =>
      obtain ⟨hrepeatable, -, hflags, hgroups, hnames⟩ := repeatLast?_spec htake
      obtain ⟨r₁', htake'⟩ := repeatLast?_of_repeatable (h.repeatable hrepeatable) greedy least most
      obtain ⟨-, hrepeatable', hflags', hgroups', hnames'⟩ := repeatLast?_spec htake'
      refine ⟨r₁', htake', ?_, fun _ => hrepeatable', ?_, ?_⟩
      · rw [hflags', hflags, h.flags]
      · rw [hgroups', hgroups]
        exact h.groups
      · rw [hnames', hnames, h.names]
  | bar =>
      obtain rfl := Option.some.inj htake
      exact ⟨_, rfl, h.flags, id, h.groups, h.names⟩
  | opening kind flags =>
      obtain ⟨inner, hgroups, hinner⟩ := h.groups
      have hopened (level : Level) : ∃ opened, ⟨level, kind, r'.flags⟩ :: r'.groups =
          opened ++ outer ∧ opened.map (·.flags) = r.flags :: r.groups.map (·.flags) :=
        ⟨⟨level, kind, r'.flags⟩ :: inner, by rw [hgroups]; rfl, by
          rw [List.map_cons, hinner, h.flags]⟩
      cases kind with
      | plain | numbered =>
          obtain rfl := Option.some.inj htake
          exact ⟨_, rfl, rfl, id, hopened _, h.names⟩
      | named name =>
          rw [Reader.take?] at htake
          split at htake
          next => cases htake
          next hnew =>
            obtain rfl := Option.some.inj htake
            have hnew' : ¬ r'.names.contains name := by
              rw [h.names, List.contains_eq_mem, decide_eq_true_eq, List.mem_append, not_or]
              rw [List.contains_eq_mem, decide_eq_true_eq] at hnew
              exact ⟨hnew, hfree name List.mem_cons_self⟩
            refine ⟨_, if_neg hnew', rfl, id, hopened _, ?_⟩
            rw [h.names]
            rfl
  | closing =>
      obtain ⟨inner, hgroups, hinner⟩ := h.groups
      cases hopen : r.groups with
      | nil =>
          rw [Reader.take?, closeParen?, hopen] at htake
          cases htake
      | cons group groups =>
      rw [hopen] at hinner
      cases inner with
      | nil => cases hinner
      | cons group' inner =>
          obtain ⟨hflags, hinner⟩ := List.cons.inj hinner
          obtain ⟨closed, hclosed, hclosedFlags, -, hclosedGroups, hclosedNames⟩ :=
            closeParen?_of_groups hopen
          obtain ⟨closed', hclosed', hclosedFlags', hrepeatable, hclosedGroups', hclosedNames'⟩ :=
            closeParen?_of_groups hgroups
          obtain rfl := Option.some.inj (hclosed.symm.trans htake)
          refine ⟨closed', hclosed', ?_, fun _ => hrepeatable, ⟨inner, hclosedGroups', ?_⟩, ?_⟩
          · exact hclosedFlags'.trans (hflags.trans hclosedFlags.symm)
          · rw [hinner, hclosedGroups]
          · rw [hclosedNames', hclosedNames, h.names]

/-- A bar that has become a character is no obstacle. -/
theorem Framed.take?_char (h : Framed outer names r r') (c : Char)
    (htake : r.take? .bar = some r₁) :
    ∃ r₁', r'.take? (.piece (.char r.flags c)) = some r₁' ∧ Framed outer names r₁ r₁' := by
  obtain rfl := Option.some.inj htake
  exact ⟨_, rfl, h.flags, fun _ => rfl, h.groups, h.names⟩

/-- A name that is taken outside is refused. -/
theorem Framed.take?_clash (h : Framed outer names r r') {construct : Construct}
    (htake : r.take? construct = some r₁) (hfree : ∀ name ∈ r.names, name ∉ names)
    (hclash : ¬ ∀ name ∈ r₁.names, name ∉ names) : r'.take? construct = none := by
  rcases take?_names htake with hnames | ⟨name, flags, rfl, -, hnames⟩
  · rw [hnames] at hclash
    exact absurd hfree hclash
  · have htaken : name ∈ names := by
      by_contra hname
      refine hclash ?_
      rw [hnames]
      exact List.forall_mem_cons.mpr ⟨hname, hfree⟩
    have hcontains : r'.names.contains name := by
      rw [h.names, List.contains_eq_mem, decide_eq_true_eq]
      exact List.mem_append_right _ htaken
    rw [Reader.take?, if_pos hcontains]

end

/-! ## Steps with more around -/

section

variable {r r' r₁ : Reader} {outer : List OpenGroup} {names : List String} {c : Char}
  {tail text other cs rest : List Char}

/-- A step is made with more around it too, from a text that is alike, unless it names a group
like one before. -/
theorem Framed.step (h : Framed outer names r r') (halike : Alike tail (c :: cs) other)
    (hstep : r.step? c cs = some (r₁, rest)) (hrest : rest ≠ [])
    (hfree : ∀ name ∈ r.names, name ∉ names) : ∃ d ds, other = d :: ds ∧
      ((∀ name ∈ r₁.names, name ∉ names) → ∃ r₁' behind,
        r'.step? d ds = some (r₁', behind) ∧ Framed outer names r₁ r₁' ∧
          Alike tail rest behind) ∧
      ((¬ ∀ name ∈ r₁.names, name ∉ names) → r'.step? d ds = none) := by
  rw [step?_eq] at hstep
  obtain ⟨⟨construct, last⟩, hread, hstep⟩ := Option.bind_eq_some_iff.mp hstep
  obtain ⟨next, htake, heq⟩ := Option.map_eq_some_iff.mp hstep
  obtain ⟨rfl, rfl⟩ := Prod.mk.inj heq
  obtain ⟨d, ds, construct', behind, rfl, hread', hbehind, hsame⟩ :=
    ofText?_alike halike hread hrest
  refine ⟨d, ds, rfl, ?_, ?_⟩
  · intro hfree
    have htaken : ∃ r₁', r'.take? construct' = some r₁' ∧ Framed outer names next r₁' := by
      rcases hsame with rfl | ⟨rfl, rfl⟩
      · exact h.take? htake hfree
      · exact h.take?_char '|' htake
    obtain ⟨r₁', htake', hframed⟩ := htaken
    refine ⟨r₁', behind, ?_, hframed, hbehind⟩
    rw [step?_eq, h.flags, hread']
    simp only [Option.bind_some, htake', Option.map_some]
  · intro hclash
    have htaken : r'.take? construct' = none := by
      rcases hsame with rfl | ⟨rfl, rfl⟩
      · exact h.take?_clash htake hfree hclash
      · obtain rfl := Option.some.inj htake
        exact absurd hfree hclash
    rw [step?_eq, h.flags, hread']
    simp only [Option.bind_some, htaken, Option.map_none]

end

/-! ## Groups -/

/-- Reads on until a closing parenthesis is all that is left, which has to close a group that was
opened with no flag set. -/
def closes? : (fuel : Nat) → Reader → List Char → Option Reader
  | 0, _, _ => none
  | fuel + 1, r, cs =>
    match r.flags.next cs with
    | [] => none
    | c :: cs =>
      if c = ')' ∧ cs = [] then if r.groups.map (·.flags) = [{}] then some r else none
      else do
        let (r, rest) ← r.step? c cs
        closes? fuel r rest

/-- Reads a group from behind its opening parenthesis, given without the closing one. -/
def group? (body : List Char) : Option Reader := do
  let (r, rest) ← openParen? {} (body ++ [')'])
  closes? (body.length + 1) r rest

section

variable {r r' closed : Reader} {outer : List OpenGroup} {names : List String} {fuel : Nat}
  {tail text other : List Char}

theorem step?_names {r₁ : Reader} {c : Char} {cs rest : List Char}
    (h : r.step? c cs = some (r₁, rest)) :
    r.names ⊆ r₁.names ∧ (r.names.Nodup → r₁.names.Nodup) := by
  rw [step?_eq] at h
  obtain ⟨⟨construct, last⟩, -, hstep⟩ := Option.bind_eq_some_iff.mp h
  obtain ⟨next, htake, heq⟩ := Option.map_eq_some_iff.mp hstep
  obtain ⟨rfl, -⟩ := Prod.mk.inj heq
  rcases take?_names htake with hnames | ⟨name, _, -, hnew, hnames⟩
  · rw [hnames]
    exact ⟨List.Subset.refl _, id⟩
  · rw [hnames]
    exact ⟨List.subset_cons_self _ _, fun hnodup => List.nodup_cons.mpr ⟨hnew, hnodup⟩⟩

theorem closes?_nil (fuel : Nat) (r : Reader) : closes? fuel r [] = none := by
  cases fuel with
  | zero => rfl
  | succ fuel => rw [closes?, next_nil]

/-- One round of `closes?`: the end, or a step and the rest. -/
theorem closes?_succ (h : closes? (fuel + 1) r text = some closed) :
    (r.flags.next text = [')'] ∧ closed = r ∧ r.groups.map (·.flags) = [{}]) ∨
      ∃ c cs r₁ rest, r.flags.next text = c :: cs ∧ r.step? c cs = some (r₁, rest) ∧ rest ≠ [] ∧
        closes? fuel r₁ rest = some closed := by
  rw [closes?] at h
  split at h
  next => cases h
  next c cs hnext =>
    split at h
    next hstop =>
      obtain ⟨rfl, rfl⟩ := hstop
      split at h
      next hgroups => exact .inl ⟨hnext, (Option.some.inj h).symm, hgroups⟩
      next => cases h
    next =>
      obtain ⟨⟨next, rest⟩, hstep, hrest⟩ := Option.bind_eq_some_iff.mp h
      refine .inr ⟨c, cs, next, rest, hnext, hstep, ?_, hrest⟩
      rintro rfl
      exact nomatch (closes?_nil fuel next).symm.trans hrest

theorem closes?_of_step {c : Char} {cs rest : List Char} {r₁ : Reader}
    (hnext : r.flags.next text = c :: cs) (hstep : r.step? c cs = some (r₁, rest))
    (hrest : rest ≠ []) : closes? (fuel + 1) r text = closes? fuel r₁ rest := by
  have hgo : ¬ (c = ')' ∧ cs = []) := by
    rintro ⟨rfl, rfl⟩
    obtain ⟨_, -, heq⟩ := Option.map_eq_some_iff.mp hstep
    exact hrest (Prod.mk.inj heq).2.symm
  rw [closes?, hnext]
  dsimp only
  rw [if_neg hgo, hstep]
  rfl

theorem closes?_names (h : closes? fuel r text = some closed) :
    r.names ⊆ closed.names ∧ (r.names.Nodup → closed.names.Nodup) := by
  induction fuel generalizing r text with
  | zero => cases h
  | succ fuel ih =>
      rcases closes?_succ h with ⟨-, rfl, -⟩ | ⟨c, cs, r₁, rest, -, hstep, -, hmore⟩
      · exact ⟨List.Subset.refl _, id⟩
      · obtain ⟨hsubset, hnodup⟩ := step?_names hstep
        obtain ⟨hsubset', hnodup'⟩ := ih hmore
        exact ⟨List.Subset.trans hsubset hsubset', hnodup' ∘ hnodup⟩

theorem next_of_closes? (h : closes? (fuel + 1) r text = some closed) : r.flags.next text ≠ [] := by
  intro hnil
  rw [closes?, hnil] at h
  cases h

/-- Where a group closes apart, it closes with more around it, and things are as they were before
it was opened. -/
theorem closes?_reach (hclosed : closes? fuel r text = some closed)
    (h : Framed outer names r r') (halike : Alike tail text other)
    (hfree : ∀ name ∈ closed.names, name ∉ names) : ∃ n ≤ fuel, ∃ r₁, Reach n r' other r₁ tail ∧
      r₁.flags = {} ∧ r₁.groups = outer ∧ r₁.repeatable ∧ r₁.names = closed.names ++ names := by
  induction fuel generalizing r r' text other with
  | zero => cases hclosed
  | succ fuel ih =>
      have hread := next_alike halike (next_of_closes? hclosed)
      rcases closes?_succ hclosed with ⟨hstop, rfl, hgroups⟩ |
        ⟨c, cs, r₁, rest, hgo, hstep, hrest, hmore⟩
      · rw [hstop] at hread
        obtain ⟨inner, hopen, hinner⟩ := h.groups
        rw [hgroups] at hinner
        obtain ⟨group, rfl, hgroup⟩ := List.map_eq_singleton_iff.mp hinner
        obtain ⟨last, hlast, hflags, hrepeatable, houter, hnames⟩ := closeParen?_of_groups hopen
        have hother : r'.flags.next other = ')' :: tail := by
          rw [h.flags]
          exact hread.nil_inv.2
        have hstep : r'.step? ')' tail = some (last, tail) := by
          rw [step?, hlast]
          rfl
        exact ⟨1, by omega, last, .one hother hstep, hflags.trans hgroup, houter, hrepeatable,
          hnames.trans h.names⟩
      · rw [hgo] at hread
        have hnames := (closes?_names hmore).1
        obtain ⟨d, ds, hother, hstep', -⟩ := h.step hread hstep hrest
          fun name hname => hfree name (hnames ((step?_names hstep).1 hname))
        obtain ⟨r₁', behind, hstep', hframed, hbehind⟩ :=
          hstep' fun name hname => hfree name (hnames hname)
        obtain ⟨n, hn, last, hreach, hlast⟩ := ih hmore hframed hbehind
        refine ⟨n + 1, Nat.succ_le_succ hn, last, .step ?_ hstep' hreach, hlast⟩
        rw [h.flags]
        exact hother

/-- Where a group names what is named outside already, reading does not get past it. -/
theorem closes?_stuck (hclosed : closes? fuel r text = some closed)
    (h : Framed outer names r r') (halike : Alike tail text other)
    (hfree : ∀ name ∈ r.names, name ∉ names) (hclash : ¬ ∀ name ∈ closed.names, name ∉ names) :
    Stuck r' other := by
  induction fuel generalizing r r' text other with
  | zero => cases hclosed
  | succ fuel ih =>
      have hread := next_alike halike (next_of_closes? hclosed)
      rcases closes?_succ hclosed with ⟨-, rfl, -⟩ | ⟨c, cs, r₁, rest, hgo, hstep, hrest, hmore⟩
      · exact absurd hfree hclash
      · rw [hgo] at hread
        obtain ⟨d, ds, hother, hstep', hnone⟩ := h.step hread hstep hrest hfree
        rw [← h.flags] at hother
        by_cases hnew : ∀ name ∈ r₁.names, name ∉ names
        · obtain ⟨r₁', behind, hstep', hframed, hbehind⟩ := hstep' hnew
          exact (ih hmore hframed hbehind hnew).of_reach (.one hother hstep')
        · exact .of_step hother (hnone hnew)

/-- A group closes apart in a text that is alike too. -/
theorem closes?_alike (hclosed : closes? fuel r text = some closed)
    (h : Framed [] [] r r') (halike : Alike [] text other) : ∃ closed',
      closes? fuel r' other = some closed' ∧ closed'.names = closed.names := by
  induction fuel generalizing r r' text other with
  | zero => cases hclosed
  | succ fuel ih =>
      have hread := next_alike halike (next_of_closes? hclosed)
      rcases closes?_succ hclosed with ⟨hstop, rfl, hgroups⟩ |
        ⟨c, cs, r₁, rest, hgo, hstep, hrest, hmore⟩
      · rw [hstop] at hread
        obtain ⟨inner, hopen, hinner⟩ := h.groups
        rw [List.append_nil] at hopen
        refine ⟨r', ?_, by rw [h.names, List.append_nil]⟩
        rw [closes?, h.flags, hread.nil_inv.2]
        dsimp only
        rw [if_pos ⟨rfl, rfl⟩, if_pos]
        rw [hopen, hinner, hgroups]
      · rw [hgo] at hread
        obtain ⟨d, ds, hother, hstep', -⟩ := h.step hread hstep hrest fun _ _ => List.not_mem_nil
        obtain ⟨r₁', behind, hstep', hframed, hbehind⟩ := hstep' fun _ _ => List.not_mem_nil
        obtain ⟨closed', hclosed', hnames⟩ := ih hmore hframed hbehind
        refine ⟨closed', ?_, hnames⟩
        rw [closes?_of_step (by rw [h.flags]; exact hother) hstep' hbehind.other_ne_nil, hclosed']

theorem closes?_mono {more : Nat} (h : closes? fuel r text = some closed) (hle : fuel ≤ more) :
    closes? more r text = some closed := by
  induction fuel generalizing r text more with
  | zero => cases h
  | succ fuel ih =>
      obtain ⟨more, rfl⟩ : ∃ n, more = n + 1 := Nat.exists_eq_succ_of_ne_zero (by omega)
      rcases closes?_succ h with ⟨hstop, rfl, hgroups⟩ | ⟨c, cs, r₁, rest, hgo, hstep, hrest, hmore⟩
      · rw [closes?, hstop]
        dsimp only
        rw [if_pos ⟨rfl, rfl⟩, if_pos hgroups]
      · rw [closes?_of_step hgo hstep hrest]
        exact ih hmore (Nat.le_of_succ_le_succ hle)

end

/-- What stands in a group and the same with backslashes before some pipes. -/
def BodiesAlike (body other : List Char) : Prop :=
  ∀ tail, Alike tail (body ++ [')']) (other ++ ')' :: tail)

namespace BodiesAlike

variable {body other : List Char}

theorem nil : BodiesAlike [] [] := fun _ => .stop

theorem escape (c : Char) (h : BodiesAlike body other) :
    BodiesAlike ('\\' :: c :: body) ('\\' :: c :: other) := fun tail => .escape c (h tail)

theorem char {c : Char} (hc : c ≠ '\\') (h : BodiesAlike body other) :
    BodiesAlike (c :: body) (c :: other) := fun tail => .char hc (h tail)

theorem pipe (h : BodiesAlike body other) : BodiesAlike ('|' :: body) ('\\' :: '|' :: other) :=
  fun tail => .pipe (h tail)

theorem length_le (h : BodiesAlike body other) : body.length ≤ other.length := by
  have hlength := (h []).length_le
  simpa using hlength

end BodiesAlike

section

variable {r closed : Reader} {body other rest : List Char}

theorem framed_self (r : Reader) (h : r.flags = {}) : Framed r.groups r.names {} r :=
  ⟨h, (fun hnone => Bool.noConfusion hnone), ⟨[], rfl, rfl⟩, rfl⟩

theorem group?_spec (h : group? body = some closed) : ∃ opened more,
    step? {} '(' (body ++ [')']) = some (opened, more) ∧ more ≠ [] ∧
      closes? (body.length + 1) opened more = some closed := by
  obtain ⟨⟨opened, more⟩, hopen, hclosed⟩ := Option.bind_eq_some_iff.mp h
  refine ⟨opened, more, hopen, ?_, hclosed⟩
  rintro rfl
  exact nomatch (closes?_nil _ opened).symm.trans hclosed

theorem nodup_of_group? (h : group? body = some closed) : closed.names.Nodup := by
  obtain ⟨opened, more, hopen, -, hclosed⟩ := group?_spec h
  exact (closes?_names hclosed).2 ((step?_names hopen).2 List.nodup_nil)

/-- A group is read apart as well when backslashes stand before its pipes. -/
theorem group?_alike (h : group? body = some closed) (hbodies : BodiesAlike body other) :
    ∃ closed', group? other = some closed' ∧ closed'.names = closed.names := by
  obtain ⟨opened, more, hopen, hmore, hclosed⟩ := group?_spec h
  obtain ⟨d, ds, heq, hstep, -⟩ := (framed_self {} rfl).step
    (.char (by decide) (hbodies [])) hopen hmore fun _ _ => List.not_mem_nil
  obtain ⟨rfl, rfl⟩ := List.cons.inj heq
  obtain ⟨opened', behind, hopen', hframed, halike⟩ := hstep fun _ _ => List.not_mem_nil
  obtain ⟨closed', hclosed', hnames⟩ := closes?_alike hclosed hframed halike
  refine ⟨closed', ?_, hnames⟩
  have hopen' : openParen? {} (other ++ [')']) = some (opened', behind) := hopen'
  rw [group?, hopen']
  exact closes?_mono hclosed' (Nat.succ_le_succ hbodies.length_le)

/-- A group that can be read apart is read wherever it stands. -/
theorem group?_reach (rest : List Char) (h : group? body = some closed)
    (hbodies : BodiesAlike body other) (hflags : r.flags = {})
    (hfree : ∀ name ∈ closed.names, name ∉ r.names) :
    ∃ n ≤ other.length + 2, ∃ r₁, Reach n r ('(' :: other ++ ')' :: rest) r₁ rest ∧
      r₁.flags = {} ∧ r₁.groups = r.groups ∧ r₁.repeatable ∧
        r₁.names = closed.names ++ r.names := by
  obtain ⟨opened, more, hopen, hmore, hclosed⟩ := group?_spec h
  obtain ⟨d, ds, heq, hstep, -⟩ := (framed_self r hflags).step
    (.char (by decide) (hbodies rest)) hopen hmore nofun
  obtain ⟨rfl, rfl⟩ := List.cons.inj heq
  obtain ⟨opened', behind, hopen', hframed, halike⟩ :=
    hstep fun name hname => hfree name ((closes?_names hclosed).1 hname)
  obtain ⟨n, hn, last, hreach, hlast⟩ := closes?_reach hclosed hframed halike hfree
  refine ⟨n + 1, ?_, last, .step ?_ hopen' hreach, hlast⟩
  · have := hbodies.length_le
    omega
  · rw [hflags]
    rfl

/-- A group that names what is named before is not got past. -/
theorem group?_stuck (rest : List Char) (h : group? body = some closed)
    (hbodies : BodiesAlike body other) (hflags : r.flags = {})
    (hclash : ¬ ∀ name ∈ closed.names, name ∉ r.names) :
    Stuck r ('(' :: other ++ ')' :: rest) := by
  obtain ⟨opened, more, hopen, hmore, hclosed⟩ := group?_spec h
  obtain ⟨d, ds, heq, hstep, hnone⟩ := (framed_self r hflags).step
    (.char (by decide) (hbodies rest)) hopen hmore nofun
  obtain ⟨rfl, rfl⟩ := List.cons.inj heq
  have hnext : r.flags.next ('(' :: other ++ ')' :: rest) = '(' :: (other ++ ')' :: rest) := by
    rw [hflags]
    rfl
  by_cases hnew : ∀ name ∈ opened.names, name ∉ r.names
  · obtain ⟨opened', behind, hopen', hframed, halike⟩ := hstep hnew
    exact (closes?_stuck hclosed hframed halike hnew hclash).of_reach (.one hnext hopen')
  · exact .of_step hnext (hnone hnew)

end

end RouteAudit.Regex.Reader
