import RouteAudit.Proofs.Regex.Constructs
import RouteAudit.Proofs.Regex.Groups

/-! # Patterns read for their names

Where every group can be read apart, all that is left to go wrong is that two groups get one name.
So each part of a pattern is told by the names it gives: it is read where they are new, and where
they are not the reader is stuck (`Takes`).
-/

namespace RouteAudit.Regex.Reader

/-- The names are new and no two of them are the same. -/
def Fresh (names taken : List String) : Prop := names.Nodup ∧ ∀ name ∈ names, name ∉ taken

/-- Reading a text up to a rest of it leads to a state that gave some names, in so many steps at
most, unless one of the names is not new: then the reader is stuck. -/
structure Comes (limit : Nat) (names : List String) (r : Reader) (cs : List Char)
    (Goal : Reader → Prop) (rest : List Char) : Prop where
  reach : Fresh names r.names → ∃ n ≤ limit, ∃ r', Reach n r cs r' rest ∧ Goal r' ∧
    ∀ name, name ∈ r'.names ↔ name ∈ names ∨ name ∈ r.names
  stuck : ¬ Fresh names r.names → Stuck r cs

section

variable {m n limit : Nat} {names more taken : List String} {r r' : Reader}
  {cs rest last : List Char} {Goal Next : Reader → Prop}

theorem fresh_append (more : List String)
    (h : ∀ name, name ∈ r'.names ↔ name ∈ names ∨ name ∈ r.names) :
    Fresh (names ++ more) r.names ↔ Fresh names r.names ∧ Fresh more r'.names := by
  unfold Fresh
  rw [List.nodup_append]
  simp only [h, List.mem_append]
  grind

theorem fresh_nil (taken : List String) : Fresh [] taken := ⟨List.nodup_nil, nofun⟩

theorem Comes.step {c : Char} {ds : List Char} (hnext : r.flags.next cs = c :: ds)
    (hstep : r.step? c ds = some (r', rest)) (hnames : r'.names = r.names) :
    Comes 1 [] r cs (· = r') rest where
  reach _ := ⟨1, Nat.le_refl 1, r', .one hnext hstep, rfl, by simp [hnames]⟩
  stuck h := absurd (fresh_nil _) h

theorem Comes.trans (hfirst : Comes m names r cs Goal rest)
    (hsecond : ∀ r', Goal r' → Comes n more r' rest Next last) :
    Comes (m + n) (names ++ more) r cs Next last := by
  by_cases hfresh : Fresh names r.names
  · obtain ⟨i, hi, r', hreach, hgoal, hnames⟩ := hfirst.reach hfresh
    have hiff := fresh_append more hnames
    refine ⟨?_, ?_⟩
    · intro h
      obtain ⟨j, hj, r'', hreach', hnext, hnames'⟩ :=
        (hsecond r' hgoal).reach (hiff.mp h).2
      refine ⟨i + j, Nat.add_le_add hi hj, r'', hreach.trans hreach', hnext, ?_⟩
      intro name
      rw [hnames', hnames, List.mem_append]
      tauto
    · intro h
      refine ((hsecond r' hgoal).stuck fun hmore => h (hiff.mpr ⟨hfresh, hmore⟩)).of_reach hreach
  · refine ⟨fun h => absurd ⟨(List.nodup_append.mp h.1).1, ?_⟩ hfresh, fun _ => hfirst.stuck hfresh⟩
    exact fun name hname => h.2 name (List.mem_append_left _ hname)

theorem Comes.weaken (h : Comes m names r cs Goal rest) (hle : m ≤ n)
    (hgoal : ∀ r', Goal r' → Next r') : Comes n names r cs Next rest := by
  refine ⟨fun hfresh => ?_, h.stuck⟩
  obtain ⟨i, hi, r', hreach, hr', hnames⟩ := h.reach hfresh
  exact ⟨i, Nat.le_trans hi hle, r', hreach, hgoal r' hr', hnames⟩

end

/-- A state with no flag set and with the given groups open. -/
structure Open (groups : List OpenGroup) (r : Reader) : Prop where
  flags : r.flags = {}
  groups : r.groups = groups

/-- A text that is read wherever no flag is set and nothing that changes a repetition follows, for
the names that it gives. -/
def Takes (text : List Char) (names : List String) : Prop :=
  ∀ r rest, r.flags = {} → Calm rest →
    Comes text.length names r (text ++ rest) (Open r.groups) rest

/-- A text that is read like that and may be repeated. -/
def TakesOne (text : List Char) (names : List String) : Prop :=
  ∀ r rest, r.flags = {} → Comes text.length names r (text ++ rest)
    (fun r' => Open r.groups r' ∧ r'.repeatable) rest

/-- A text that can stand between the parentheses of a group, for the names that it gives. There
may be more steps than characters, but not many more. -/
def Fills (extra : Nat) (text : List Char) (names : List String) : Prop :=
  ∀ r group outer rest, Open (group :: outer) r → group.flags = {} →
    Comes (text.length + extra) names r (text ++ ')' :: rest)
      (fun r' => Open outer r' ∧ r'.repeatable) rest

section

variable {extra : Nat} {text first second body other : List Char} {names more : List String}
  {c : Char} {closed : Reader}

theorem TakesOne.takes (h : TakesOne text names) : Takes text names := fun r rest hflags _ =>
  (h r rest hflags).weaken (Nat.le_refl _) fun _ hr' => hr'.1

theorem Takes.nil : Takes [] [] := fun r rest hflags _ => ⟨fun _ => ⟨0, Nat.le_refl 0, r,
  .refl r rest, ⟨hflags, rfl⟩, by simp⟩, fun h => absurd (fresh_nil _) h⟩

theorem Takes.append (hfirst : Takes first names) (hcalm : Calm second)
    (hsecond : Takes second more) : Takes (first ++ second) (names ++ more) := by
  intro r rest hflags hrest
  rw [List.append_assoc, List.length_append]
  refine (hfirst r (second ++ rest) hflags (calm_append hcalm hrest)).trans fun r' hr' => ?_
  refine (hsecond r' rest hr'.flags hrest).weaken (Nat.le_refl _) fun r'' hr'' => ?_
  exact ⟨hr''.flags, hr''.groups.trans hr'.groups⟩

/-! ## Characters -/

theorem takesOne_of_push {cs : List Char} {expr : Expr} {depth : Nat}
    (hstep : ∀ (r : Reader) rest, r.flags = {} →
      r.step? c (cs ++ rest) = some (r.push ⟨some expr, depth⟩, rest)) : TakesOne (c :: cs) [] := by
  intro r rest hflags
  have hnext : r.flags.next (c :: cs ++ rest) = c :: (cs ++ rest) := by rw [hflags]; rfl
  refine (Comes.step hnext (hstep r rest hflags) rfl).weaken (by simp) ?_
  rintro r' rfl
  exact ⟨⟨hflags, rfl⟩, rfl⟩

theorem takesOne_plain (hplain : isMeta c = false) : TakesOne [c] [] :=
  takesOne_of_push fun _ rest hflags => step?_plain hflags hplain rest

theorem takesOne_escaped (hmeta : isMeta c) : TakesOne ['\\', c] [] :=
  takesOne_of_push fun _ rest hflags => step?_escaped hflags hmeta rest

theorem takesOne_dot : TakesOne ['.'] [] :=
  takesOne_of_push fun _ rest hflags => step?_dot hflags rest

/-! ## Repetitions -/

/-- A mark that repeats what stands right before it. -/
theorem comes_repeat {r : Reader} {mark : Char} {rest : List Char} (hmark : mark ∈ ['?', '*', '+'])
    (hflags : r.flags = {}) (hlast : r.repeatable) (hrest : Calm rest) :
    Comes 1 [] r (mark :: rest) (Open r.groups) rest := by
  have hstep : ∃ least most, r.step? mark rest =
      (r.repeatLast? (readGreed rest).1 least most).map (·, (readGreed rest).2) := by
    simp only [List.mem_cons, List.not_mem_nil, or_false] at hmark
    rcases hmark with rfl | rfl | rfl <;> exact ⟨_, _, rfl⟩
  obtain ⟨least, most, hstep⟩ := hstep
  obtain ⟨r', hr'⟩ := repeatLast?_of_repeatable hlast true least most
  obtain ⟨-, -, hflags', hgroups, hnames⟩ := repeatLast?_spec hr'
  have hnext : r.flags.next (mark :: rest) = mark :: rest := by rw [hflags]; rfl
  refine (Comes.step hnext ?_ hnames).weaken (Nat.le_refl 1) ?_
  · rw [hstep, readGreed_calm hrest, hr']
    rfl
  · rintro r'' rfl
    exact ⟨hflags'.trans hflags, hgroups⟩

theorem TakesOne.repeated (h : TakesOne text names) (mark : Char)
    (hmark : mark ∈ ['?', '*', '+']) : Takes (text ++ [mark]) names := by
  intro r rest hflags hrest
  rw [List.append_assoc, List.length_append, ← List.append_nil names]
  refine (h r (mark :: rest) hflags).trans fun r' hr' => ?_
  have hrepeat := comes_repeat hmark hr'.1.flags hr'.2 hrest
  rwa [hr'.1.groups] at hrepeat

/-! ## Groups -/

theorem comes_close {r : Reader} {group : OpenGroup} {outer : List OpenGroup}
    (hopen : Open (group :: outer) r) (hgroup : group.flags = {}) (rest : List Char) :
    Comes 1 [] r (')' :: rest) (fun r' => Open outer r' ∧ r'.repeatable) rest := by
  obtain ⟨closed, hclosed, hflags, hrepeatable, hgroups, hnames⟩ :=
    closeParen?_of_groups hopen.groups
  have hnext : r.flags.next (')' :: rest) = ')' :: rest := by rw [hopen.flags]; rfl
  refine (Comes.step hnext ?_ hnames).weaken (Nat.le_refl 1) ?_
  · rw [step?, hclosed]
    rfl
  · rintro r'' rfl
    exact ⟨⟨hflags.trans hgroup, hgroups⟩, hrepeatable⟩

theorem Takes.fills (h : Takes text names) : Fills 1 text names := by
  intro r group outer rest hopen hgroup
  have hcalm : Calm (')' :: rest) := by simp [Calm]
  rw [← List.append_nil names]
  exact (h r (')' :: rest) hopen.flags hcalm).trans fun r' hr' =>
    comes_close ⟨hr'.flags, hr'.groups.trans hopen.groups⟩ hgroup rest

/-- What can stand in a group is read with the parentheses around it, once the opening one has
led into the group. -/
theorem Fills.takesOne {opening : List Char} (start : List String) (h : Fills extra text names)
    (hextra : extra ≤ opening.length)
    (hopen : ∀ r rest, r.flags = {} → Comes 1 start r (opening ++ (text ++ ')' :: rest))
      (fun r' => ∃ group, Open (group :: r.groups) r' ∧ group.flags = {}) (text ++ ')' :: rest)) :
    TakesOne (opening ++ text ++ [')']) (start ++ names) := by
  intro r rest hflags
  simp only [List.append_assoc, List.singleton_append]
  have hread := (hopen r rest hflags).trans fun r' ⟨group, hgroups, hgroup⟩ =>
    h r' group r.groups rest hgroups hgroup
  refine hread.weaken ?_ fun _ hr' => hr'
  simp only [List.length_append, List.length_cons]
  omega

theorem Fills.plainGroup (h : Fills extra text names) (hextra : extra ≤ 3) :
    TakesOne ("(?:".toList ++ text ++ [')']) names := by
  refine h.takesOne [] hextra fun r rest hflags => ?_
  have hnext : r.flags.next ("(?:".toList ++ (text ++ ')' :: rest)) =
      '(' :: '?' :: ':' :: (text ++ ')' :: rest) := by rw [hflags]; rfl
  refine (Comes.step hnext (step?_openPlain hflags _) rfl).weaken (Nat.le_refl 1) ?_
  rintro r' rfl
  exact ⟨_, ⟨rfl, rfl⟩, hflags⟩

theorem Fills.numberedGroup (h : Fills 1 (c :: text) names) (hc : c ≠ '?') :
    TakesOne (['('] ++ c :: text ++ [')']) names := by
  refine h.takesOne [] (Nat.le_refl 1) fun r rest hflags => ?_
  have hnext : r.flags.next (['('] ++ (c :: text ++ ')' :: rest)) =
      '(' :: c :: (text ++ ')' :: rest) := by rw [hflags]; rfl
  refine (Comes.step hnext (step?_openNumbered hflags hc _) rfl).weaken (Nat.le_refl 1) ?_
  rintro r' rfl
  exact ⟨_, ⟨rfl, rfl⟩, hflags⟩

/-- Whether the reader takes a text for the name of a group. -/
def isName : List Char → Bool
  | [] => false
  | first :: others => isNameChar true first && others.all (isNameChar false)

theorem readName?_of_isName {name : List Char} (hname : isName name) (rest : List Char) :
    readName? (name ++ '>' :: rest) = some (String.ofList name, rest) := by
  cases name with
  | nil => cases hname
  | cons first others =>
      rw [isName, Bool.and_eq_true, List.all_eq_true] at hname
      have hkeep (c : Char) (hc : c ∈ first :: others) : decide (c ≠ '>') := by
        rw [decide_eq_true_eq]
        rintro rfl
        rcases List.mem_cons.mp hc with rfl | hc
        · exact absurd hname.1 (by decide)
        · exact absurd (hname.2 _ hc) (by decide)
      have hspan : (first :: others ++ '>' :: rest).span (· ≠ '>') =
          (first :: others, '>' :: rest) := Text.span_eq_iff.mpr ⟨rfl, hkeep, by simp⟩
      rw [readName?, hspan]
      dsimp only
      rw [if_pos]
      rw [Bool.and_eq_true, List.all_eq_true]
      exact hname

theorem step?_openNamed {r : Reader} {name : List Char} (hflags : r.flags = {})
    (hname : isName name) (rest : List Char) :
    r.step? '(' ('?' :: 'P' :: '<' :: (name ++ '>' :: rest)) =
      if r.names.contains (String.ofList name) then none
      else some ({ r.openGroup (.named (String.ofList name)) {} with
        names := String.ofList name :: r.names }, rest) := by
  have hopen : r.openParen? ('?' :: 'P' :: '<' :: (name ++ '>' :: rest)) =
      r.openNamed? (name ++ '>' :: rest) := by
    rw [openParen?, hflags]
    rfl
  rw [step?, hopen, openNamed?, readName?_of_isName hname, hflags]
  rfl

theorem Fills.namedGroup {name : List Char} (h : Fills extra text names) (hextra : extra ≤ 3)
    (hname : isName name) :
    TakesOne ("(?P<".toList ++ name ++ ['>'] ++ text ++ [')']) (String.ofList name :: names) := by
  refine h.takesOne [String.ofList name] ?_ fun r rest hflags => ?_
  · have hopening : "(?P<".toList.length = 4 := rfl
    rw [List.length_append, List.length_append, hopening]
    omega
  · have hnext : r.flags.next ("(?P<".toList ++ name ++ ['>'] ++ (text ++ ')' :: rest)) =
        '(' :: '?' :: 'P' :: '<' :: (name ++ '>' :: (text ++ ')' :: rest)) := by
      rw [hflags]
      simp [Flags.next]
    have hstep := step?_openNamed hflags hname (text ++ ')' :: rest)
    refine ⟨fun hfresh => ?_, fun hclash => ?_⟩
    · have hnew := hfresh.2 _ List.mem_cons_self
      rw [if_neg (by simpa using hnew)] at hstep
      refine ⟨1, Nat.le_refl 1, _, .one hnext hstep, ⟨_, ⟨rfl, rfl⟩, hflags⟩, ?_⟩
      simp
    · have htaken : r.names.contains (String.ofList name) := by
        by_contra hnew
        exact hclash ⟨List.nodup_singleton _, by simpa using hnew⟩
      rw [if_pos htaken] at hstep
      exact .of_step hnext hstep

/-- A group that can be read apart is read for its names. -/
theorem takesOne_of_group? (h : group? body = some closed) (hbodies : BodiesAlike body other) :
    TakesOne (['('] ++ other ++ [')']) closed.names := by
  intro r rest hflags
  have hfresh : Fresh closed.names r.names ↔ ∀ name ∈ closed.names, name ∉ r.names :=
    and_iff_right (nodup_of_group? h)
  refine ⟨fun hnew => ?_, fun hclash => ?_⟩
  · obtain ⟨n, hn, r', hreach, hflags', hgroups, hrepeatable, hnames⟩ :=
      group?_reach rest h hbodies hflags (hfresh.mp hnew)
    refine ⟨n, ?_, r', ?_, ⟨⟨hflags', hgroups⟩, hrepeatable⟩, ?_⟩
    · simpa using hn
    · simpa using hreach
    · intro name
      rw [hnames, List.mem_append]
  · have hstuck := group?_stuck rest h hbodies hflags fun hnew => hclash (hfresh.mpr hnew)
    simpa using hstuck

/-- The contents of a group that can be read apart can stand in other groups too. -/
theorem fills_of_group? (h : group? ('?' :: ':' :: body) = some closed)
    (hbodies : BodiesAlike body other) : Fills 3 other closed.names := by
  intro r group outer rest hopen hgroup
  have hclosed : closes? (body.length + 3) (openGroup {} .plain {}) (body ++ [')']) = some closed :=
    h
  have hframed : Framed outer r.names (openGroup {} .plain {}) r :=
    ⟨hopen.flags, (fun hnone => Bool.noConfusion hnone),
      ⟨[group], hopen.groups, by rw [List.map_singleton, hgroup]; rfl⟩, rfl⟩
  have hnodup : closed.names.Nodup := (closes?_names hclosed).2 List.nodup_nil
  have hfresh : Fresh closed.names r.names ↔ ∀ name ∈ closed.names, name ∉ r.names :=
    and_iff_right hnodup
  refine ⟨fun hnew => ?_, fun hclash => ?_⟩
  · obtain ⟨n, hn, r', hreach, hflags', hgroups, hrepeatable, hnames⟩ :=
      closes?_reach hclosed hframed (hbodies rest) (hfresh.mp hnew)
    refine ⟨n, ?_, r', hreach, ⟨⟨hflags', hgroups⟩, hrepeatable⟩, ?_⟩
    · have := hbodies.length_le
      omega
    · intro name
      rw [hnames, List.mem_append]
  · exact closes?_stuck hclosed hframed (hbodies rest) nofun fun hnew => hclash (hfresh.mpr hnew)

/-! ## Whole patterns -/

/-- Whether what a pattern is read as keeps to the limits on nesting and size. -/
def withinLimits (pattern : List Char) : Bool :=
  (last? (pattern.length + 1) {} pattern).all fun r =>
    r.level.close.depth ≤ Piece.maxDepth && r.level.close.toExpr.fits

theorem comes_look {r : Reader} {c : Char} {assertion : Look} (hflags : r.flags = {})
    (hstep : ∀ rest, r.step? c rest = some (r.push (.ofLook assertion), rest))
    (rest : List Char) : Comes 1 [] r (c :: rest) (Open r.groups) rest := by
  have hnext : r.flags.next (c :: rest) = c :: rest := by rw [hflags]; rfl
  refine (Comes.step hnext (hstep rest) rfl).weaken (Nat.le_refl 1) ?_
  rintro r' rfl
  exact ⟨hflags, rfl⟩

/-- A pattern between the two ends of a text is an expression if no name is given twice and it
keeps to the limits, and only then. -/
theorem Takes.anchored (h : Takes text names) : (Expr.ofPattern? ('^' :: text ++ ['$'])).isSome ↔
    names.Nodup ∧ withinLimits ('^' :: text ++ ['$']) := by
  have hstart : Comes 1 [] {} ('^' :: (text ++ ['$'])) (Open []) (text ++ ['$']) :=
    comes_look rfl (fun _ => rfl) _
  have htext (r : Reader) (hr : Open [] r) :
      Comes text.length names r (text ++ ['$']) (Open []) ['$'] :=
    hr.groups ▸ h r ['$'] hr.flags (by simp [Calm])
  have hend (r : Reader) (hr : Open [] r) : Comes 1 [] r ['$'] (Open []) [] :=
    hr.groups ▸ comes_look hr.flags (fun _ => by rw [step?, hr.flags]) []
  have hread := (hstart.trans htext).trans hend
  rw [List.nil_append, List.append_nil] at hread
  have hfresh : Fresh names ({} : Reader).names ↔ names.Nodup :=
    and_iff_left fun _ _ => List.not_mem_nil
  rw [List.cons_append, Expr.ofPattern?, run?_eq_last?, withinLimits, ← hfresh]
  by_cases hnew : Fresh names ({} : Reader).names
  · obtain ⟨n, hn, r, hreach, hopen, -⟩ := hread.reach hnew
    have hall : n + 1 ≤ ('^' :: (text ++ ['$'])).length + 1 := by
      rw [List.length_cons, List.length_append, List.length_singleton]
      omega
    have hlast : last? (n + 1) {} ('^' :: (text ++ ['$'])) = some r := by
      rw [last?_of_reach hreach, last?, next_nil]
    rw [last?_mono hlast hall, Option.bind_some, Option.all_some, finish?, hopen.groups]
    simp [hnew]
  · rw [hread.stuck hnew]
    exact iff_of_false Bool.false_ne_true fun h => hnew h.1

end

end RouteAudit.Regex.Reader
