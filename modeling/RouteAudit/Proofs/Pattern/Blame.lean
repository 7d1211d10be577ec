import RouteAudit.Proofs.Pattern.Grammar

/-! # What is told of texts that are no templates

Reading takes the way that the grammar allows. It comes to the end of a text exactly if the text is
well-formed, and otherwise tells the place that blocks the way. Up to there the text is a template,
but for blocks that are still open.
-/

namespace RouteAudit.Template

open Pattern (isNameStart isNameChar)

/-- How many blocks are open behind some items, where so many are open before them. -/
def blocksAfter (blocks : Nat) : Template → Option Nat
  | [] => some blocks
  | item :: items => (item.after blocks).bind (blocksAfter · items)

section

variable {text rest behind name body : List Char} {item : Item} {items : Template}
  {blocks after length fuel distance : Nat} {fault : TemplateFault} {error : TemplateError}
  {modifier : Option Modifier}

theorem blocksAfter_cons : blocksAfter blocks (item :: items) = some after ↔
    ∃ middle, item.after blocks = some middle ∧ blocksAfter middle items = some after :=
  Option.bind_eq_some_iff

theorem closed_iff_blocksAfter : closed blocks items ↔ blocksAfter blocks items = some 0 := by
  induction items generalizing blocks with
  | nil => simp [closed, blocksAfter]
  | cons item items ih =>
      rw [closed_cons, Option.any_eq_true, blocksAfter_cons]
      simp only [ih]

/-! ## Items on the way -/

theorem isPlain_of_isNameChar {c : Char} (h : isNameChar c) : isPlain c := by
  have hne (d : Char) (hd : ¬ isNameChar d) : c ≠ d := by
    rintro rfl
    exact hd h
  simp [isPlain, hne _ (by decide : ¬ isNameChar '\\'), hne _ (by decide : ¬ isNameChar '('),
    hne _ (by decide : ¬ isNameChar ')'), hne _ (by decide : ¬ isNameChar '\x7b'),
    hne _ (by decide : ¬ isNameChar '\x7d')]

theorem walk_modifier (modifier : Option Modifier) (blocks : Nat) (rest : List Char) :
    Walk (blocks, Modifier.spelling modifier ++ rest) (blocks, rest) := by
  apply walk_plain
  cases modifier with
  | none => exact nofun
  | some modifier => cases modifier <;> exact List.all_eq_true.mp (by decide)

theorem walk_name (hname : ∀ c ∈ name, isNameChar c) (blocks : Nat) (rest : List Char) :
    Walk (blocks, ':' :: (name ++ rest)) (blocks, rest) :=
  .head (.plain blocks _ (by decide))
    (walk_plain (fun c hc => isPlain_of_isNameChar (hname c hc)) blocks rest)

theorem walk_body (hbody : Item.isBody body) (blocks : Nat) (rest : List Char) :
    Walk (blocks, Item.bodySpelling (some body) ++ rest) (blocks, rest) := by
  obtain ⟨hsome, hbalanced⟩ := isBody_iff.mp hbody
  have hgroup := Advance.group blocks rest hsome hbalanced
  simpa [Item.bodySpelling] using Relation.ReflTransGen.single hgroup

/-- The way over an item that means itself. -/
theorem walk_item (h : item.stands rest) (hafter : item.after blocks = some after) :
    Walk (blocks, item.spelling ++ rest) (after, rest) := by
  cases item with
  | char c escaped =>
      cases hafter
      cases escaped with
      | true => exact .single (.escape blocks c rest)
      | false =>
          obtain ⟨⟨hescape, hopen, hclose, -, hblock, hend⟩, -⟩ := standsBefore_char.mp h
          have hplain : isPlain c := by simp [isPlain, *]
          exact .single (.plain blocks rest hplain)
  | param name body modifier =>
      cases hafter
      have hname := walk_name (name_of_stands h).2 blocks
      simp only [Item.spelling, List.cons_append, List.append_assoc]
      refine (hname _).trans (Relation.ReflTransGen.trans ?_ (walk_modifier modifier blocks rest))
      cases body with
      | none => exact .refl
      | some body => exact walk_body (Item.stands_param.mp h).2.2.1 blocks _
  | group body modifier =>
      cases hafter
      rw [Item.spelling, List.append_assoc]
      exact (walk_body (Item.stands_group.mp h).1 blocks _).trans
        (walk_modifier modifier blocks rest)
  | wildcard =>
      cases hafter
      exact .single (.plain blocks rest (by decide))
  | blockOpen =>
      cases hafter
      exact .single (.opening blocks rest)
  | blockClose modifier =>
      cases blocks with
      | zero => cases hafter
      | succ blocks =>
          cases hafter
          exact .head (.closing _ _) (walk_modifier modifier _ rest)

theorem walk_items (h : items.stands rest) (hafter : blocksAfter blocks items = some after) :
    Walk (blocks, spelling items ++ rest) (after, rest) := by
  induction items generalizing blocks with
  | nil =>
      cases hafter
      exact .refl
  | cons item items ih =>
      obtain ⟨hitem, hitems⟩ := stands_cons.mp h
      obtain ⟨middle, hmiddle, hafter⟩ := blocksAfter_cons.mp hafter
      rw [spelling_cons, List.append_assoc]
      exact (walk_item hitem hmiddle).trans (ih hitems hafter)

/-! ## Items read -/

/-- Each item takes one unit of fuel. -/
theorem readItems_append (h : items.stands rest) (hafter : blocksAfter blocks items = some after) :
    readItems length (fuel + items.length) blocks (spelling items ++ rest) =
      (readItems length fuel after rest).map (items ++ ·) := by
  induction items generalizing blocks with
  | nil =>
      cases hafter
      cases hread : readItems length fuel after rest <;> simp [Except.map, hread]
  | cons item items ih =>
      obtain ⟨hitem, hitems⟩ := stands_cons.mp h
      obtain ⟨middle, hmiddle, hafter⟩ := blocksAfter_cons.mp hafter
      rw [spelling_cons, List.append_assoc, List.length_cons, ← Nat.add_assoc]
      cases htext : item.spelling ++ (spelling items ++ rest) with
      | nil => exact absurd (List.append_eq_nil_iff.mp htext).1 item.spelling_ne_nil
      | cons c cs =>
          rw [readItems, readItem_of_stands hitem hmiddle htext.symm]
          dsimp only
          rw [ih hitems hafter]
          cases readItems length fuel after rest <;> rfl

theorem length_le_spelling (items : Template) : items.length ≤ (spelling items).length := by
  induction items with
  | nil => exact Nat.le_refl _
  | cons item items ih =>
      have hpos := List.length_pos_of_ne_nil item.spelling_ne_nil
      rw [spelling_cons, List.length_append, List.length_cons]
      omega

/-- What items write is a template, but for the blocks that are still open. -/
theorem read_spelling (h : items.stands []) (hafter : blocksAfter 0 items = some after) :
    read (spelling items) =
      if after = 0 then .ok items else .error ⟨(spelling items).length, .unclosedBrace⟩ := by
  obtain ⟨more, hmore⟩ := Nat.exists_eq_add_of_le' (length_le_spelling items)
  have hread : readItems (spelling items).length (more + items.length) 0 (spelling items ++ []) =
      (readItems (spelling items).length more after []).map (items ++ ·) :=
    readItems_append h hafter
  rw [List.append_nil, ← hmore] at hread
  rw [read, hread, readItems]
  by_cases hclosed : after = 0
  · rw [if_pos hclosed, if_pos hclosed]
    simp [Except.map]
  · rw [if_neg hclosed, if_neg hclosed]
    rfl

/-- More fuel than characters changes nothing. -/
theorem readItems_fuel (hfuel : text.length ≤ fuel) (more : Nat) :
    readItems length (fuel + more) blocks text = readItems length fuel blocks text := by
  induction fuel generalizing blocks text with
  | zero =>
      obtain rfl := List.length_eq_zero_iff.mp (Nat.le_zero.mp hfuel)
      rw [readItems, readItems]
  | succ fuel ih =>
      cases text with
      | nil => rw [readItems, readItems]
      | cons c cs =>
          rw [Nat.add_right_comm, readItems, readItems]
          cases hread : readItem blocks c cs with
          | error error => rfl
          | ok result =>
              obtain ⟨item, after, rest⟩ := result
              have hshort := (readItem_spec hread).length_lt
              rw [List.length_cons] at hshort hfuel
              dsimp only
              rw [ih (by omega)]

/-! ## Faults -/

theorem blocked_of_readGroup (h : readGroup rest = .error fault) (blocks : Nat) :
    Blocked fault blocks ('(' :: rest) := by
  unfold readGroup at h
  split at h
  next hnone =>
    cases h
    refine .unbalancedGroup blocks fun body behind hbody htext => ?_
    rw [htext, hbody.readBody?] at hnone
    cases hnone
  next hempty =>
    cases h
    obtain ⟨rfl, -⟩ := readBody?_spec hempty
    exact .emptyGroup blocks _
  next => cases h

theorem standsBefore_nil (modifier : Option Modifier) : Modifier.standsBefore [] modifier := by
  simp [Modifier.standsBefore]

/-- An item that means itself where a text goes on means itself where the text ends. -/
theorem stands_nil (h : item.stands rest) : item.stands [] := by
  cases item with
  | char c escaped =>
      cases escaped with
      | true => rfl
      | false => exact standsBefore_char.mpr ⟨(standsBefore_char.mp h).1, fun _ => nofun⟩
  | param name body modifier =>
      cases body with
      | none =>
          obtain ⟨hfirst, hname, -⟩ := standsBefore_param.mp h
          exact standsBefore_param.mpr ⟨hfirst, hname, fun _ => nofun, standsBefore_nil modifier⟩
      | some body =>
          obtain ⟨hfirst, hname, hbody, -⟩ := Item.stands_param.mp h
          exact Item.stands_param.mpr ⟨hfirst, hname, hbody, standsBefore_nil modifier⟩
  | group body modifier =>
      exact Item.stands_group.mpr ⟨(Item.stands_group.mp h).1, standsBefore_nil modifier⟩
  | wildcard | blockOpen => rfl
  | blockClose modifier => exact standsBefore_nil modifier

theorem stands_take (h : item.stands (rest ++ behind)) : item.stands rest := by
  cases rest with
  | nil => exact stands_nil h
  | cons c rest =>
      have hhead : (c :: rest ++ behind).head? = (c :: rest).head? := rfl
      rwa [Item.stands_congr hhead] at h

/-! ## Where reading comes to a halt -/

/-- How reading comes to a halt in a text: the items that are read, what stands behind them, and why
the way ends there. -/
structure Halts (fault : TemplateFault) (blocks : Nat) (text : List Char) (items : Template)
    (after : Nat) (rest : List Char) : Prop where
  spelling : text = spelling items ++ rest
  stands : items.stands []
  opened : blocksAfter blocks items = some after
  walk : Walk (blocks, text) (after, rest)
  blocked : Blocked fault after rest

namespace Halts

theorem here (h : Blocked fault blocks text) : Halts fault blocks text [] blocks text :=
  ⟨rfl, rfl, rfl, .refl, h⟩

theorem cons {middle : Nat} (hread : ItemRead blocks text item middle rest)
    (h : Halts fault middle rest items after behind) :
    Halts fault blocks text (item :: items) after behind where
  spelling := by rw [hread.spelling, spelling_cons, List.append_assoc, ← h.spelling]
  stands := by
    refine stands_cons.mpr ⟨?_, h.stands⟩
    rw [List.append_nil]
    exact stands_take (h.spelling ▸ hread.stands)
  opened := blocksAfter_cons.mpr ⟨middle, hread.after, h.opened⟩
  walk := by
    rw [hread.spelling]
    exact (walk_item hread.stands hread.after).trans h.walk
  blocked := h.blocked

/-- The name of a parameter is read, whatever blocks the way behind it. -/
theorem param (hfirst : name.head?.any isNameStart) (hname : ∀ c ∈ name, isNameChar c)
    (h : Blocked fault blocks rest) :
    Halts fault blocks (':' :: (name ++ rest)) [.param name none none] blocks rest where
  spelling := by simp [Template.spelling, Item.spelling, Item.bodySpelling, Modifier.spelling]
  stands := by
    have hparam : (Item.param name none none).stands [] :=
      standsBefore_param.mpr ⟨hfirst, hname, fun _ _ hc => absurd hc (Option.not_mem_none _), rfl⟩
    exact stands_cons.mpr ⟨hparam, rfl⟩
  opened := rfl
  walk := walk_name hname blocks rest
  blocked := h

end Halts

theorem readParam_error {cs : List Char} (hstart : cs.head?.any isNameStart)
    (h : readParam cs = .error (distance, fault)) (blocks : Nat) :
    ∃ (lead : Template) (rest : List Char), Halts fault blocks (':' :: cs) lead blocks rest ∧
      (spelling lead).length = distance + 1 := by
  unfold readParam at h
  cases hspan : cs.span isNameChar with
  | mk name behind =>
  obtain ⟨rfl, hname, hends⟩ := Text.span_eq_iff.mp hspan
  rw [hspan] at h
  dsimp only at h
  split at h
  next behind =>
    split at h
    next hgroup =>
      cases h
      refine ⟨_, _, .param (isNameStart_of_span hends hstart) hname
        (blocked_of_readGroup hgroup _), ?_⟩
      simp [spelling, Item.spelling, Item.bodySpelling, Modifier.spelling]
    next => cases h
  next => cases h

/-- A fault that an item has stands behind what can be read as a parameter without a body, if it is
not where the item starts. -/
theorem readItem_error {c : Char} {cs : List Char}
    (h : readItem blocks c cs = .error (distance, fault)) :
    ∃ (lead : Template) (rest : List Char), Halts fault blocks (c :: cs) lead blocks rest ∧
      (spelling lead).length = distance := by
  unfold readItem at h
  split at h
  · split at h
    · cases h
      exact ⟨_, _, .here (.danglingEscape blocks), rfl⟩
    · cases h
  · split at h
    next hgroup =>
      cases h
      exact ⟨_, _, .here (blocked_of_readGroup hgroup blocks), rfl⟩
    next => cases h
  · cases h
    exact ⟨_, _, .here (.strayParenthesis blocks cs), rfl⟩
  · cases h
  · cases h
  · split at h
    next =>
      cases h
      exact ⟨_, _, .here (.strayBrace cs), rfl⟩
    next => cases h
  · split at h
    next hstart =>
      split at h
      next hparam =>
        cases h
        exact readParam_error hstart hparam blocks
      next => cases h
    next => cases h
  · cases h

theorem readItems_nil_error (h : readItems length fuel blocks [] = .error error) :
    Halts error.fault blocks [] [] blocks [] ∧ error.offset = length := by
  cases blocks with
  | zero =>
      rw [readItems, if_pos rfl] at h
      cases h
  | succ blocks =>
      rw [readItems, if_neg (Nat.succ_ne_zero blocks)] at h
      cases h
      exact ⟨.here (.unclosedBrace blocks), rfl⟩

/-- What is read before a fault is told, and where the fault stands. -/
theorem readItems_error (hfuel : text.length ≤ fuel) (hlength : text.length ≤ length)
    (h : readItems length fuel blocks text = .error error) :
    ∃ (items : Template) (after : Nat) (rest : List Char),
      Halts error.fault blocks text items after rest ∧ error.offset + rest.length = length := by
  induction fuel generalizing blocks text with
  | zero =>
      obtain rfl := List.length_eq_zero_iff.mp (Nat.le_zero.mp hfuel)
      obtain ⟨hhalts, hoffset⟩ := readItems_nil_error h
      exact ⟨_, _, _, hhalts, hoffset⟩
  | succ fuel ih =>
      cases text with
      | nil =>
          obtain ⟨hhalts, hoffset⟩ := readItems_nil_error h
          exact ⟨_, _, _, hhalts, hoffset⟩
      | cons c cs =>
          rw [readItems] at h
          split at h
          next distance fault hfault =>
            cases h
            obtain ⟨lead, rest, hhalts, hdistance⟩ := readItem_error hfault
            refine ⟨lead, blocks, rest, hhalts, ?_⟩
            have hcount := congrArg List.length hhalts.spelling
            rw [List.length_cons, List.length_append, hdistance] at hcount
            rw [List.length_cons] at hlength
            dsimp only
            omega
          next item middle rest hitem =>
            have hread := readItem_spec hitem
            have hshort := hread.length_lt
            rw [List.length_cons] at hshort hfuel hlength
            cases hrest : readItems length fuel middle rest with
            | ok items =>
                rw [hrest] at h
                cases h
            | error fault =>
                rw [hrest] at h
                cases h
                obtain ⟨items, after, behind, hhalts, hoffset⟩ := ih (by omega) (by omega) hrest
                exact ⟨item :: items, after, behind, hhalts.cons hread, hoffset⟩

theorem read_error (h : read text = .error error) : ∃ (items : Template) (after : Nat),
    text.take error.offset = spelling items ∧ items.stands [] ∧
      blocksAfter 0 items = some after ∧ error.offset ≤ text.length ∧
        Reaches text after (text.drop error.offset) ∧
          Blocked error.fault after (text.drop error.offset) := by
  obtain ⟨items, after, rest, hhalts, hoffset⟩ :=
    readItems_error (Nat.le_refl _) (Nat.le_refl _) h
  have htext := hhalts.spelling
  have hlength : error.offset = (spelling items).length := by
    have hcount := congrArg List.length htext
    rw [List.length_append] at hcount
    omega
  have htake : text.take error.offset = spelling items := by
    rw [htext, hlength, List.take_left]
  have hdrop : text.drop error.offset = rest := by
    rw [htext, hlength, List.drop_left]
  rw [hdrop]
  exact ⟨items, after, htake, hhalts.stands, hhalts.opened, by omega, hhalts.walk, hhalts.blocked⟩

theorem reaches_end_of_read (h : read text = .ok items) : Reaches text 0 [] := by
  obtain ⟨rfl, hstands, hclosed⟩ := read_eq_ok_iff.mp h
  have hwalk := walk_items hstands (closed_iff_blocksAfter.mp hclosed)
  rwa [List.append_nil] at hwalk

end

/-- Reading takes no more steps than a text has characters, and inside a group no more parentheses
are closed than are open. A text is read exactly if it is well-formed; otherwise the way through it
is blocked at the place that is told, and what stands before that place is a template but for
blocks that are still open. -/
theorem read_iff_wellFormed (text : List Char) :
    (∀ more, readItems text.length (text.length + more) 0 text = read text) ∧
    (∀ {blocks rest seen}, Reaches text blocks ('(' :: rest) → seen <+: rest →
      (∀ body, Balanced 0 body → body ++ [')'] <+: rest → seen <+: body) → 0 ≤ level seen) ∧
    ((∃ items, read text = .ok items) ↔ WellFormed text) ∧
    ∀ error, read text = .error error → error.offset ≤ text.length ∧
      (∃ blocks, Reaches text blocks (text.drop error.offset) ∧
        Blocked error.fault blocks (text.drop error.offset)) ∧
      ((∃ items, read (text.take error.offset) = .ok items) ∨
        read (text.take error.offset) = .error ⟨error.offset, .unclosedBrace⟩) := by
  refine ⟨readItems_fuel (Nat.le_refl _), ?_, ⟨?_, ?_⟩, ?_⟩
  · intro blocks rest seen _ hseen hinside
    have hlevel := level_nonneg hseen hinside
    omega
  · rintro ⟨items, hread⟩
    exact wellFormed_of_reaches (reaches_end_of_read hread)
  · intro hwell
    cases hread : read text with
    | ok items => exact ⟨items, rfl⟩
    | error error =>
        obtain ⟨-, after, -, -, -, -, hreach, hblocked⟩ := read_error hread
        exact absurd hblocked (wellFormed_iff.mp hwell hreach)
  · intro error hread
    obtain ⟨items, after, htake, hstands, hafter, hoffset, hreach, hblocked⟩ := read_error hread
    refine ⟨hoffset, ⟨after, hreach, hblocked⟩, ?_⟩
    have hlength : (spelling items).length = error.offset := by
      rw [← htake, List.length_take, Nat.min_eq_left hoffset]
    rw [htake, read_spelling hstands hafter, hlength]
    by_cases hclosed : after = 0
    · exact .inl ⟨items, if_pos hclosed⟩
    · exact .inr (if_neg hclosed)

/-- The parenthesis of a group that does not end is told, although the block around it does not end
either. -/
theorem unclosed_group_told : ¬ WellFormed "/\x7ba(b".toList ∧
    (∃ blocks, Reaches "/\x7ba(b".toList blocks "(b".toList) ∧ 0 ≤ level "b".toList ∧
      read "/\x7ba".toList = .error ⟨3, .unclosedBrace⟩ := by
  obtain ⟨-, hlevel, hwell, herror⟩ := read_iff_wellFormed "/\x7ba(b".toList
  have hread : read "/\x7ba(b".toList = .error ⟨3, .unbalancedGroup⟩ := by decide
  obtain ⟨-, ⟨blocks, hreach, -⟩, hcut⟩ := herror _ hread
  refine ⟨?_, ⟨blocks, hreach⟩, ?_, ?_⟩
  · rw [← hwell, hread]
    rintro ⟨items, hitems⟩
    cases hitems
  · refine hlevel hreach (List.prefix_refl _) fun body _ hend => ?_
    have hmem : ')' ∈ "b".toList := hend.subset (by simp)
    exact absurd hmem (by decide)
  · refine hcut.resolve_left ?_
    rintro ⟨items, hitems⟩
    have hnone : (read ("/\x7ba(b".toList.take 3)).toOption = none := by decide
    rw [hitems] at hnone
    cases hnone

end RouteAudit.Template
