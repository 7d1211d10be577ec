import RouteAudit.Proofs.Regex.AlikeClasses

/-! # One construct at a time

What a step of the reader takes from the text depends on the flags alone, and what it makes of
it on the text no more (`step?_eq`). From texts that are alike the same constructs are taken,
except that a bar between branches may have become a character.
-/

namespace RouteAudit.Regex

/-- What a step takes from the text. -/
inductive Construct where
  | piece (piece : Piece)
  | setting (flags : Flags)
  | repetition (greedy : Bool) (least : Nat) (most : Option Nat)
  | bar
  | opening (kind : Group) (flags : Flags)
  | closing

namespace Construct

/-- What an escape adds. -/
def ofEscaped? (flags : Flags) : Escaped → Option Construct
  | .char c asByte => if flags.allows c asByte then some (.piece (.char flags c)) else none
  | .set chars => some (.piece (.ofSet chars 0))
  | .look assertion => some (.piece (.ofLook assertion))

/-- Takes the name of a group. -/
def ofName? (flags : Flags) (cs : List Char) : Option (Construct × List Char) :=
  (Reader.readName? cs).map fun (name, rest) => (.opening (.named name) flags, rest)

/-- Takes what stands behind an opening parenthesis. -/
def ofParen? (flags : Flags) (cs : List Char) : Option (Construct × List Char) :=
  match flags.next cs with
  | '?' :: 'P' :: '<' :: cs => ofName? flags cs
  | '?' :: '<' :: '=' :: _ | '?' :: '<' :: '!' :: _ | '?' :: '=' :: _ | '?' :: '!' :: _ => none
  | '?' :: '<' :: cs => ofName? flags cs
  | '?' :: cs => do
    let (switches, stop, rest) ← Reader.readSwitches? [] cs
    let set := flags.apply true switches
    if stop = ':' then some (.opening .plain set, rest)
    else if switches.isEmpty then none
    else some (.setting set, rest)
  | cs => some (.opening .numbered flags, cs)

/-- Takes switches with the character that ends them. -/
def ofSwitches? (flags : Flags) (cs : List Char) : Option (Construct × List Char) := do
  let (switches, stop, rest) ← Reader.readSwitches? [] cs
  let set := flags.apply true switches
  if stop = ':' then some (.opening .plain set, rest)
  else if switches.isEmpty then none
  else some (.setting set, rest)

/-- Takes a repetition of which the mark has been read. -/
def ofMark (least : Nat) (most : Option Nat) (cs : List Char) : Construct × List Char :=
  let (greedy, rest) := Reader.readGreed cs
  (.repetition greedy least most, rest)

/-- Takes one construct, whose first character is given apart. -/
def ofText? (flags : Flags) (c : Char) (cs : List Char) : Option (Construct × List Char) :=
  match c with
  | '(' => ofParen? flags cs
  | ')' => some (.closing, cs)
  | '|' => some (.bar, cs)
  | '[' => (readClass? flags cs).map fun (part, rest) => (.piece (.ofSet part.set part.depth), rest)
  | '?' => some (ofMark 0 (some 1) cs)
  | '*' => some (ofMark 0 none cs)
  | '+' => some (ofMark 1 none cs)
  | '\x7b' =>
    (Reader.readBounds? flags cs).map fun (least, most, rest) => ofMark least most (flags.next rest)
  | '\\' => do
    let (escaped, rest) ← readEscape? flags cs
    (ofEscaped? flags escaped).map (·, rest)
  | '.' => flags.dot?.map fun set => (.piece (.ofSet set 0), cs)
  | '^' => some (.piece (.ofLook flags.caret), cs)
  | '$' => some (.piece (.ofLook flags.dollar), cs)
  | c => some (.piece (.char flags c), cs)

end Construct

namespace Reader

/-- What the reader makes of a construct. -/
def take? (r : Reader) : Construct → Option Reader
  | .piece piece => some (r.push piece)
  | .setting flags => some { r.push .setting with flags }
  | .repetition greedy least most => r.repeatLast? greedy least most
  | .bar => some { r with level := ⟨.row r.level.pieces :: r.level.branches, []⟩ }
  | .opening (.named name) flags =>
    if r.names.contains name then none
    else some { r.openGroup (.named name) flags with names := name :: r.names }
  | .opening kind flags => some (r.openGroup kind flags)
  | .closing => r.closeParen?

theorem openNamed?_eq (r : Reader) (cs : List Char) : r.openNamed? cs =
    (Construct.ofName? r.flags cs).bind fun taken => (r.take? taken.1).map (·, taken.2) := by
  unfold openNamed? Construct.ofName?
  cases readName? cs with
  | none => rfl
  | some found =>
      simp only [Option.bind_eq_bind, Option.bind_some, Option.map_some, take?]
      split <;> rfl

theorem openParen?_eq (r : Reader) (cs : List Char) : r.openParen? cs =
    (Construct.ofParen? r.flags cs).bind fun taken => (r.take? taken.1).map (·, taken.2) := by
  unfold openParen?
  split
  -- What the later patterns exclude excludes the earlier ones on the other side too.
  case h_1 | h_6 => simp [Construct.ofParen?, openNamed?_eq, *]
  case h_7 =>
    simp only [Construct.ofParen?, *]
    cases readSwitches? [] _ with
    | none => rfl
    | some found =>
        simp only [Option.bind_eq_bind, Option.bind_some]
        split
        next => rfl
        next => split <;> rfl
  all_goals simp [Construct.ofParen?, take?, *]

/-- A step takes a construct from the text and makes something of it. -/
theorem step?_eq (r : Reader) (c : Char) (cs : List Char) : r.step? c cs =
    (Construct.ofText? r.flags c cs).bind fun taken => (r.take? taken.1).map (·, taken.2) := by
  unfold step? Construct.ofText?
  split
  case h_1 => exact openParen?_eq r cs
  case h_4 => cases readClass? r.flags cs <;> rfl
  case h_8 => cases readBounds? r.flags cs <;> rfl
  case h_9 =>
    cases readEscape? r.flags cs with
    | none => rfl
    | some found =>
        obtain ⟨escaped, rest⟩ := found
        cases escaped with
        | char c asByte =>
            simp only [Option.bind_eq_bind, Option.bind_some, pushEscaped?, Construct.ofEscaped?]
            split <;> rfl
        | set chars => rfl
        | look assertion => rfl
  case h_10 => cases r.flags.dot? <;> rfl
  case h_13 => simp [take?, *]
  all_goals rfl

end Reader

/-! ## Constructs taken alike -/

section

variable {tail text other rest : List Char} {flags : Flags}

open Reader

theorem readGreed_alike (h : Alike tail text other) (hrest : (readGreed text).2 ≠ []) :
    (readGreed other).1 = (readGreed text).1 ∧
      Alike tail (readGreed text).2 (readGreed other).2 := by
  unfold readGreed at hrest ⊢
  split at hrest
  next cs =>
    obtain ⟨ds, rfl, hds⟩ := h.cons_inv hrest (by decide) (by decide)
    exact ⟨rfl, hds⟩
  next hmark =>
    split
    next ds =>
      obtain ⟨cs, rfl, -⟩ := h.cons_of (by decide)
      exact (hmark cs rfl).elim
    next => exact ⟨rfl, h⟩

theorem dropBlanks_alike (h : Alike tail text other) :
    Alike tail (text.dropWhile Text.isBlank) (other.dropWhile Text.isBlank) := by
  induction h with
  | stop => exact .stop
  | escape c halike => exact .escape c halike
  | @char text other c hc halike ih =>
      rw [List.dropWhile_cons, List.dropWhile_cons]
      split
      next => exact ih
      next => exact .char hc halike
  | pipe halike => exact .pipe halike

theorem readCount?_alike (flags : Flags) : ReadsAlike (readCount? flags) := by
  intro tail text other rest count h hread hrest
  unfold readCount? at hread
  cases htake : takeCounted flags.loose Char.isDigit false (text.dropWhile Text.isBlank) with
  | mk digits last =>
  rw [htake] at hread
  dsimp only at hread
  split at hread
  · cases hread
  next hdigits =>
    split at hread
    next hsize =>
      obtain ⟨rfl, rfl⟩ := Prod.mk.inj (Option.some.inj hread)
      have hlast : last.dropWhile Text.isBlank ≠ [] := ne_nil_of_next hrest
      obtain ⟨behind, htaken, halike⟩ := takeCounted_alike (fun hslash => by cases hslash)
        (dropBlanks_alike h) htake (by rintro rfl; exact hlast rfl)
        fun hmem => nomatch keep_of_mem_takeCounted htake '|' hmem
      refine ⟨_, ?_, next_alike (dropBlanks_alike halike) hrest⟩
      rw [readCount?, htaken]
      dsimp only
      rw [if_neg hdigits, if_pos hsize]
    next => cases hread

theorem readCount?_nil (flags : Flags) : readCount? flags [] = none := rfl

theorem readBounds?_alike {least : Nat} {most : Option Nat} (h : Alike tail text other)
    (hread : readBounds? flags text = some (least, most, rest)) (hrest : rest ≠ []) :
    ∃ behind, readBounds? flags other = some (least, most, behind) ∧ Alike tail rest behind := by
  obtain ⟨⟨count, last⟩, hcount, hread⟩ := Option.bind_eq_some_iff.mp hread
  have hnext : flags.next text ≠ [] := by
    intro hnil
    rw [hnil, readCount?_nil] at hcount
    cases hcount
  dsimp only at hread
  have hlast : last ≠ [] := by
    rintro rfl
    cases hread
  obtain ⟨last', hlast', halike⟩ := readCount?_alike flags (next_alike h hnext) hcount hlast
  simp only [readBounds?, hlast', Option.bind_eq_bind, Option.bind_some]
  split at hread
  next last =>
    simp only [Option.some.injEq, Prod.mk.injEq] at hread
    obtain ⟨rfl, rfl, rfl⟩ := hread
    obtain ⟨behind, rfl, hbehind⟩ := halike.cons_inv hrest (by decide) (by decide)
    exact ⟨behind, rfl, hbehind⟩
  next last =>
    have hnext : flags.next last ≠ [] := by
      intro hnil
      rw [hnil] at hread
      cases hread
    obtain ⟨behind, rfl, hbehind⟩ :=
      halike.cons_inv (ne_nil_of_next hnext) (by decide) (by decide)
    have hbehind := next_alike hbehind hnext
    simp only
    split at hread
    next last heq =>
      simp only [Option.some.injEq, Prod.mk.injEq] at hread
      obtain ⟨rfl, rfl, rfl⟩ := hread
      rw [heq] at hbehind
      obtain ⟨last', heq', hlast'⟩ := hbehind.cons_inv hrest (by decide) (by decide)
      exact ⟨last', by rw [heq']; rfl, hlast'⟩
    next hbrace =>
      obtain ⟨⟨second, final⟩, hsecond, hread⟩ := Option.bind_eq_some_iff.mp hread
      split
      next ds heq =>
        rw [heq] at hbehind
        obtain ⟨cs, hcs, -⟩ := hbehind.cons_of (by decide)
        exact (hbrace cs hcs).elim
      next =>
        split at hread
        next most last heq =>
          split at hread
          next hle =>
            simp only [Option.some.injEq, Prod.mk.injEq] at hread
            obtain ⟨rfl, rfl, rfl⟩ := hread
            obtain ⟨rfl, rfl⟩ := Prod.mk.inj heq
            obtain ⟨closed, hclosed, hlast⟩ :=
              readCount?_alike flags hbehind hsecond (List.cons_ne_nil _ _)
            obtain ⟨last', rfl, hlast'⟩ := hlast.cons_inv hrest (by decide) (by decide)
            refine ⟨last', ?_, hlast'⟩
            simp only [hclosed, Option.bind_some]
            rw [if_pos hle]
          next => cases hread
        next => cases hread
  next => cases hread

theorem not_nameChar (isFirst : Bool) :
    Reader.isNameChar isFirst '\\' = false ∧ Reader.isNameChar isFirst '|' = false := by
  cases isFirst <;> decide +kernel

theorem readName?_alike : ReadsAlike readName? := by
  intro tail text other rest name h hread hrest
  unfold readName? at hread
  split at hread
  next first others stop last hspan =>
    split at hread
    next hname =>
      obtain ⟨rfl, rfl⟩ := Prod.mk.inj (Option.some.inj hread)
      obtain ⟨rfl, hkeep, hstop⟩ := Text.span_eq_iff.mp hspan
      obtain rfl : stop = '>' := by simpa using hstop stop rfl
      rw [Bool.and_eq_true, List.all_eq_true] at hname
      have hword : ∀ c ∈ first :: others ++ ['>'], c ≠ '\\' ∧ c ≠ '|' := by
        have hchar (isFirst : Bool) (c : Char) (hc : Reader.isNameChar isFirst c) :
            c ≠ '\\' ∧ c ≠ '|' := by
          obtain ⟨hescape, hpipe⟩ := not_nameChar isFirst
          exact ⟨by rintro rfl; simp [hescape] at hc, by rintro rfl; simp [hpipe] at hc⟩
        intro c hc
        simp only [List.cons_append, List.mem_cons, List.mem_append, List.not_mem_nil,
          or_false] at hc
        rcases hc with rfl | hc | rfl
        · exact hchar true c hname.1
        · exact hchar false c (hname.2 c hc)
        · decide
      rw [List.append_cons] at h
      obtain ⟨behind, rfl, halike⟩ := h.append hword hrest
      refine ⟨behind, ?_, halike⟩
      have hspan : (first :: others ++ ['>'] ++ behind).span (· ≠ '>') =
          (first :: others, '>' :: behind) := by
        rw [List.append_assoc]
        exact Text.span_eq_iff.mpr ⟨rfl, hkeep, by simp⟩
      rw [readName?, hspan]
      dsimp only
      rw [if_pos]
      rw [Bool.and_eq_true, List.all_eq_true]
      exact hname
    next => cases hread
  next => cases hread

theorem readSwitches?_alike {seen switches : List Flags.Switch} {stop : Char}
    (h : Alike tail text other) (hread : readSwitches? seen text = some (switches, stop, rest))
    (hrest : rest ≠ []) : ∃ behind,
      readSwitches? seen other = some (switches, stop, behind) ∧ Alike tail rest behind := by
  induction h generalizing seen with
  | stop =>
      rw [readSwitches?] at hread
      split at hread
      next =>
        split at hread
        next => cases hread
        next =>
          simp only [Option.some.injEq, Prod.mk.injEq] at hread
          exact absurd hread.2.2.symm hrest
      next hstop => exact absurd (.inr rfl) hstop
  | escape c halike => cases hread
  | @char text other c hc halike ih =>
      rw [readSwitches?] at hread ⊢
      split at hread
      next hstop =>
        rw [if_pos hstop]
        split at hread
        next => cases hread
        next hhyphen =>
          simp only [Option.some.injEq, Prod.mk.injEq] at hread
          obtain ⟨rfl, rfl, rfl⟩ := hread
          exact ⟨other, if_neg hhyphen, halike⟩
      next hstop =>
        rw [if_neg hstop]
        have hgo (switch : Flags.Switch)
            (hread : (if seen.contains switch then none else readSwitches? (switch :: seen) text) =
              some (switches, stop, rest)) : ∃ behind,
              (if seen.contains switch then none else readSwitches? (switch :: seen) other) =
                some (switches, stop, behind) ∧ Alike tail rest behind := by
          split at hread
          next => cases hread
          next hseen =>
            rw [if_neg hseen]
            exact ih hread
        dsimp only at hread ⊢
        split at hread
        next hhyphen =>
          rw [if_pos hhyphen]
          exact hgo .hyphen hread
        next hhyphen =>
          rw [if_neg hhyphen]
          obtain ⟨switch, hswitch, hread⟩ := Option.bind_eq_some_iff.mp hread
          rw [Option.bind_eq_bind, hswitch]
          exact hgo switch hread
  | pipe halike => cases hread

theorem ofName?_alike (flags : Flags) : ReadsAlike (Construct.ofName? flags) :=
  readName?_alike.map (f := fun name => Construct.opening (.named name) flags)

theorem ofSwitches?_alike (flags : Flags) : ReadsAlike (Construct.ofSwitches? flags) := by
  intro tail text other rest taken h hread hrest
  obtain ⟨⟨switches, stop, last⟩, hswitches, hread⟩ := Option.bind_eq_some_iff.mp hread
  dsimp only at hread
  -- Whatever the switches are for, what stands behind them is left.
  have hlast : last = rest := by
    split_ifs at hread <;> exact (Prod.mk.inj (Option.some.inj hread)).2
  subst hlast
  obtain ⟨behind, hbehind, halike⟩ := readSwitches?_alike h hswitches hrest
  refine ⟨behind, ?_, halike⟩
  simp only [Construct.ofSwitches?, hbehind, Option.bind_eq_bind, Option.bind_some]
  split_ifs at hread ⊢
  · rw [(Prod.mk.inj (Option.some.inj hread)).1]
  · rw [(Prod.mk.inj (Option.some.inj hread)).1]

/-! ## What stands behind an opening parenthesis -/

theorem ofParen?_name (hnext : flags.next text = '?' :: '<' :: rest)
    (hbehind : ∀ more, rest = '=' :: more → False)
    (hnotBehind : ∀ more, rest = '!' :: more → False) :
    Construct.ofParen? flags text = Construct.ofName? flags rest := by
  simp [Construct.ofParen?, *]

theorem ofParen?_switches (hnext : flags.next text = '?' :: rest)
    (hnamed : ∀ more, rest = 'P' :: '<' :: more → False)
    (hname : ∀ more, rest = '<' :: more → False) (hahead : ∀ more, rest = '=' :: more → False)
    (hnotAhead : ∀ more, rest = '!' :: more → False) :
    Construct.ofParen? flags text = Construct.ofSwitches? flags rest := by
  rw [Construct.ofParen?, hnext]
  split
  case h_7 heq =>
    cases heq
    rfl
  all_goals grind

theorem ofParen?_numbered (hmark : ∀ more, flags.next text = '?' :: more → False) :
    Construct.ofParen? flags text = some (.opening .numbered flags, flags.next text) := by
  rw [Construct.ofParen?]
  split <;> first | rfl | grind

theorem ofParen?_alike (flags : Flags) : ReadsAlike (Construct.ofParen? flags) := by
  intro tail text other rest taken h hread hrest
  have halike (hsome : flags.next text ≠ []) := next_alike h hsome
  unfold Construct.ofParen? at hread
  split at hread
  case h_1 cs hnext =>
    rw [hnext] at halike
    obtain ⟨_, hother, hthird⟩ := (halike nofun).cons_cons_inv_of_ne (by decide) (by decide)
    obtain ⟨ds, rfl, hds⟩ := hthird.cons_inv_of_ne (by decide) (by decide) (by decide)
    rw [Construct.ofParen?, hother]
    exact ofName?_alike flags hds hread hrest
  case h_6 cs hbehind hnotBehind hnext =>
    rw [hnext] at halike
    obtain ⟨ds, hother, hds⟩ := (halike nofun).cons_cons_inv_of_ne (by decide) (by decide)
    rw [ofParen?_name hother (hds.ne_cons (by decide) hbehind) (hds.ne_cons (by decide) hnotBehind)]
    exact ofName?_alike flags hds hread hrest
  case h_7 cs hnamed _ _ hahead hnotAhead hname hnext =>
    rw [hnext] at halike
    obtain ⟨ds, hother, hds⟩ := (halike nofun).cons_inv_of_ne (by decide) (by decide) (by decide)
    rw [ofParen?_switches hother (hds.ne_cons_cons (by decide) (by decide) (by decide) hnamed)
      (hds.ne_cons (by decide) hname) (hds.ne_cons (by decide) hahead)
      (hds.ne_cons (by decide) hnotAhead)]
    exact ofSwitches?_alike flags hds hread hrest
  case h_8 hmark =>
    obtain ⟨rfl, rfl⟩ := Prod.mk.inj (Option.some.inj hread)
    exact ⟨_, ofParen?_numbered ((halike hrest).ne_cons (by decide) hmark), halike hrest⟩
  all_goals cases hread

/-! ## Constructs -/

/-- A repetition is taken alike. -/
theorem ofMark_alike {least : Nat} {most : Option Nat} {taken : Construct}
    (h : Alike tail text other) (hread : Construct.ofMark least most text = (taken, rest))
    (hrest : rest ≠ []) :
    ∃ behind, Construct.ofMark least most other = (taken, behind) ∧ Alike tail rest behind := by
  obtain ⟨rfl, rfl⟩ : .repetition (readGreed text).1 least most = taken ∧
      (readGreed text).2 = rest := Prod.mk.inj hread
  obtain ⟨hgreedy, halike⟩ := readGreed_alike h hrest
  refine ⟨_, ?_, halike⟩
  rw [← hgreedy]
  rfl

/-- Behind the same character that is no backslash the same construct is taken. -/
theorem ofText?_char_alike (hc : c ≠ '\\') : ReadsAlike (Construct.ofText? flags c) := by
  intro tail text other rest taken h hread hrest
  unfold Construct.ofText? at hread ⊢
  split at hread
  case h_1 => exact ofParen?_alike flags h hread hrest
  case h_4 =>
    exact ReadsAlike.map (f := fun part => Construct.piece (.ofSet part.set part.depth))
      (readClass?_alike flags) h hread hrest
  case h_5 | h_6 | h_7 =>
    obtain ⟨behind, hbehind, halike⟩ := ofMark_alike h (Option.some.inj hread) hrest
    exact ⟨behind, congrArg some hbehind, halike⟩
  case h_8 =>
    obtain ⟨⟨least, most, last⟩, hbounds, heq⟩ := Option.map_eq_some_iff.mp hread
    dsimp only at heq
    have hnext : flags.next last ≠ [] := by
      intro hnil
      rw [hnil] at heq
      exact hrest (Prod.mk.inj heq).2.symm
    obtain ⟨behind, hbehind, hlast⟩ := readBounds?_alike h hbounds (ne_nil_of_next hnext)
    simp only [hbehind, Option.map_some]
    obtain ⟨behind, hbehind, halike⟩ := ofMark_alike (next_alike hlast hnext) heq hrest
    exact ⟨behind, congrArg some hbehind, halike⟩
  case h_9 => exact absurd rfl hc
  case h_10 =>
    obtain ⟨set, hset, heq⟩ := Option.map_eq_some_iff.mp hread
    obtain ⟨rfl, rfl⟩ := Prod.mk.inj heq
    exact ⟨other, by simp only [hset, Option.map_some], h⟩
  all_goals
    obtain ⟨rfl, rfl⟩ := Prod.mk.inj (Option.some.inj hread)
    exact ⟨other, rfl, h⟩

/-- A construct is taken alike, except that a bar may have become a character. -/
theorem ofText?_alike {c : Char} {cs : List Char} {taken : Construct}
    (h : Alike tail (c :: cs) other)
    (hread : Construct.ofText? flags c cs = some (taken, rest)) (hrest : rest ≠ []) :
    ∃ d ds taken' behind, other = d :: ds ∧
      Construct.ofText? flags d ds = some (taken', behind) ∧ Alike tail rest behind ∧
      (taken' = taken ∨ taken = .bar ∧ taken' = .piece (.char flags '|')) := by
  cases h with
  | stop =>
      obtain ⟨-, rfl⟩ := Prod.mk.inj (Option.some.inj hread)
      exact absurd rfl hrest
  | @escape text other c halike =>
      obtain ⟨⟨escaped, last⟩, hescape, hread⟩ := Option.bind_eq_some_iff.mp hread
      obtain ⟨construct, hconstruct, heq⟩ := Option.map_eq_some_iff.mp hread
      obtain ⟨rfl, rfl⟩ := Prod.mk.inj heq
      obtain ⟨behind, hbehind, hlast⟩ := readEscape?_alike halike hescape hrest
      refine ⟨_, _, construct, behind, rfl, ?_, hlast, .inl rfl⟩
      rw [Construct.ofText?, hbehind]
      simp only [Option.bind_eq_bind, Option.bind_some, hconstruct, Option.map_some]
  | @pipe text other halike =>
      obtain ⟨rfl, rfl⟩ := Prod.mk.inj (Option.some.inj hread)
      have hallowed : flags.allows '|' false := by simp [Flags.allows]
      have hescaped : Construct.ofEscaped? flags (.char '|' false) =
          some (.piece (.char flags '|')) := if_pos hallowed
      have hescape : readEscape? flags ('|' :: other) = some (.char '|' false, other) := rfl
      refine ⟨_, _, .piece (.char flags '|'), other, rfl, ?_, halike, .inr ⟨rfl, rfl⟩⟩
      rw [Construct.ofText?, hescape]
      simp only [Option.bind_eq_bind, Option.bind_some, hescaped, Option.map_some]
  | @char text other c hc halike =>
      obtain ⟨behind, hbehind, hlast⟩ := ofText?_char_alike hc halike hread hrest
      exact ⟨c, other, taken, behind, rfl, hbehind, hlast, .inl rfl⟩

end

end RouteAudit.Regex
