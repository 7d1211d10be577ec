import RouteAudit.Proofs.Regex.Language
import RouteAudit.Proofs.Regex.Search
import RouteAudit.Proofs.Regex.Trails

/-! # What a run leaves behind

A run of a program goes from trail to trail. Where the block of an expression stands in a program,
every run that enters it leads from a trail to one that the expression passes to before it leaves
(`Expr.code_traces`), so the marks of the answer to a search are those of a pass over some stretch
of the text (`exists_passes_of_find?`). What is told here of marks is told of runs that there are;
which runs there are is told without marks (`Expr.code_runs`).
-/

namespace RouteAudit.Regex

open RouteAudit.Text (Spot)

/-- The trail of a run in progress. -/
def Thread.trail (thread : Thread) : Trail := ⟨thread.spot, thread.marks⟩

/-- The marks that there are behind an instruction. -/
def Instr.marked (c : Trail) : Instr → List Mark
  | .mark name opens _ => ⟨name, opens, c.spot.index⟩ :: c.marks
  | _ => c.marks

/-- An instruction leads from a trail to an address and a trail. -/
def Moves (instr : Instr) (c : Trail) (addr : Nat) (d : Trail) : Prop :=
  Leads instr c.spot addr d.spot ∧ d.marks = instr.marked c

section

variable {c d : Trail} {addr next : Nat}

@[simp] theorem moves_skip : Moves (.skip next) c addr d ↔ addr = next ∧ d = c := by
  simp only [Moves, leads_skip, Instr.marked, Trail.ext_iff, and_assoc]

@[simp] theorem moves_mark {name : String} {opens : Bool} :
    Moves (.mark name opens next) c addr d ↔ addr = next ∧ d = c.mark name opens := by
  simp only [Moves, leads_mark, Instr.marked, Trail.ext_iff, Trail.mark, and_assoc]

@[simp] theorem moves_read {chars : CharSet} : Moves (.read chars next) c addr d ↔
    addr = next ∧ (Expr.set chars).Passes c d := by
  simp only [Moves, leads_read, Instr.marked, Expr.Passes, and_comm, and_left_comm]

@[simp] theorem moves_check {assertion : Look} : Moves (.check assertion next) c addr d ↔
    addr = next ∧ d = c ∧ assertion.holds c.spot := by
  simp only [Moves, leads_check, Instr.marked, Trail.ext_iff]
  tauto

@[simp] theorem moves_fork {first second : Nat} :
    Moves (.fork first second) c addr d ↔ (addr = first ∨ addr = second) ∧ d = c := by
  simp only [Moves, leads_fork, Instr.marked, Trail.ext_iff, and_assoc]

@[simp] theorem moves_branch {greedy : Bool} {into past : Nat} :
    Moves (.branch greedy into past) c addr d ↔ (addr = into ∨ addr = past) ∧ d = c := by
  cases greedy with
  | false => simp [Instr.branch, or_comm]
  | true => simp [Instr.branch]

/-- A run that an instruction makes of a run is where the instruction leads. -/
theorem moves_of_mem {instr : Instr} {thread other : Thread}
    (h : other ∈ thread.successors instr) : Moves instr thread.trail other.addr other.trail := by
  refine ⟨leads_iff_successors.mpr ⟨other, h, rfl, rfl⟩, ?_⟩
  cases instr with
  | skip | mark => simp_all [Thread.successors, Instr.marked, Thread.trail]
  | accept => cases h
  | fork first second =>
      simp only [Thread.successors, List.mem_cons, List.not_mem_nil, or_false] at h
      rcases h with rfl | rfl <;> rfl
  | read chars next =>
      unfold Thread.successors at h
      dsimp only at h
      split at h
      next => split at h <;> simp_all [Instr.marked, Thread.trail]
      next => cases h
  | check assertion next =>
      unfold Thread.successors at h
      dsimp only at h
      split at h <;> simp_all [Instr.marked, Thread.trail]

end

/-- The program accepts with a trail after so many steps from an address and a trail. -/
def Finishes (program : Program) : Nat → Nat → Trail → Trail → Prop
  | 0, addr, c, last => program[addr]? = some .accept ∧ last = c
  | n + 1, addr, c, last => ∃ instr next d,
      program[addr]? = some instr ∧ Moves instr c next d ∧ Finishes program n next d last

/-- Every run from one address gets to another one, and from its trail to one that stands in a
relation to it. -/
def Traces (program : Program) (addr next : Nat) (Q : Trail → Trail → Prop) : Prop :=
  ∀ n c last, Finishes program n addr c last →
    ∃ d m, m ≤ n ∧ Q c d ∧ Finishes program m next d last

namespace Traces

variable {program : Program} {addr onward next : Nat} {Q S : Trail → Trail → Prop} {greedy : Bool}

theorem mono (h : Traces program addr next Q) (hQS : ∀ c d, Q c d → S c d) :
    Traces program addr next S := by
  intro n c last hfinishes
  obtain ⟨d, m, hm, hcd, hrest⟩ := h n c last hfinishes
  exact ⟨d, m, hm, hQS c d hcd, hrest⟩

theorem nothing : Traces program addr addr Eq :=
  fun n c _ hfinishes => ⟨c, n, Nat.le_refl n, rfl, hfinishes⟩

/-- An instruction other than accepting takes a step. -/
theorem step {instr : Instr} (hinstr : program[addr]? = some instr) (hopen : instr ≠ .accept)
    {n : Nat} {c last : Trail} (hfinishes : Finishes program n addr c last) :
    ∃ m next d, n = m + 1 ∧ Moves instr c next d ∧ Finishes program m next d last := by
  cases n with
  | zero =>
      have hsame := hinstr.symm.trans hfinishes.1
      exact absurd (Option.some.inj hsame) hopen
  | succ n =>
      obtain ⟨other, next, d, hother, hmoves, hrest⟩ := hfinishes
      obtain rfl : instr = other := Option.some.inj (hinstr.symm.trans hother)
      exact ⟨n, next, d, rfl, hmoves, hrest⟩

theorem instr {instr : Instr} (hinstr : program[addr]? = some instr) (hopen : instr ≠ .accept)
    (hmoves : ∀ c a d, Moves instr c a d → a = next ∧ Q c d) : Traces program addr next Q := by
  intro n c last hfinishes
  obtain ⟨m, a, d, rfl, hmove, hrest⟩ := step hinstr hopen hfinishes
  obtain ⟨rfl, hcd⟩ := hmoves c a d hmove
  exact ⟨d, m, Nat.le_succ m, hcd, hrest⟩

theorem cat (hQ : Traces program addr onward Q) (hS : Traces program onward next S) :
    Traces program addr next fun c e => ∃ d, Q c d ∧ S d e := by
  intro n c last hfinishes
  obtain ⟨d, m, hm, hcd, hmiddle⟩ := hQ n c last hfinishes
  obtain ⟨e, k, hk, hde, hrest⟩ := hS m d last hmiddle
  exact ⟨e, k, Nat.le_trans hk hm, ⟨d, hcd, hde⟩, hrest⟩

theorem choice {instr : Instr} {first second : Nat} (hinstr : program[addr]? = some instr)
    (hopen : instr ≠ .accept)
    (hmoves : ∀ c a d, Moves instr c a d → (a = first ∨ a = second) ∧ d = c)
    (hQ : Traces program first next Q) (hS : Traces program second next S) :
    Traces program addr next fun c d => Q c d ∨ S c d := by
  intro n c last hfinishes
  obtain ⟨m, a, d, rfl, hmove, hrest⟩ := step hinstr hopen hfinishes
  obtain ⟨rfl | rfl, rfl⟩ := hmoves c a d hmove
  · obtain ⟨e, k, hk, hcd, hlast⟩ := hQ m d last hrest
    exact ⟨e, k, Nat.le_succ_of_le hk, .inl hcd, hlast⟩
  · obtain ⟨e, k, hk, hcd, hlast⟩ := hS m d last hrest
    exact ⟨e, k, Nat.le_succ_of_le hk, .inr hcd, hlast⟩

theorem optional {into : Nat} (hbranch : program[addr]? = some (.branch greedy into next))
    (hQ : Traces program into next Q) : Traces program addr next fun c d => Q c d ∨ c = d :=
  choice hbranch branch_ne_accept (fun _ _ _ => moves_branch.mp) hQ nothing

theorem loop {into : Nat} (hbranch : program[addr]? = some (.branch greedy into next))
    (hQ : Traces program into addr Q) :
    Traces program addr next fun c d => ∃ k, Rounds Q k c d := by
  intro n
  induction n using Nat.strongRecOn with
  | ind n ih =>
      intro c last hfinishes
      obtain ⟨m, a, d, rfl, hmove, hrest⟩ := step hbranch branch_ne_accept hfinishes
      obtain ⟨rfl | rfl, rfl⟩ := moves_branch.mp hmove
      · obtain ⟨e, j, hj, hround, hagain⟩ := hQ m d last hrest
        -- The branch took a step, so less of the run is left even after an empty round.
        obtain ⟨f, i, hi, ⟨k, hrounds⟩, hlast⟩ := ih j (Nat.lt_succ_of_le hj) e last hagain
        exact ⟨f, i, by omega, ⟨k + 1, .succ hround hrounds⟩, hlast⟩
      · exact ⟨d, m, Nat.le_succ m, ⟨0, .zero d⟩, hrest⟩

theorem composes (program : Program) : Composes program (Traces program) where
  congr := fun h hQS => h.mono fun c d => (hQS c d).mp
  nothing := nothing
  skip := fun hskip => instr hskip Instr.noConfusion fun _ _ _ hmoves =>
    (moves_skip.mp hmoves).imp_right Eq.symm
  cat := cat
  optional := optional
  loop := loop

end Traces

/-! ## Expressions -/

namespace Expr

variable {program : Program}

/-- What enters the code of an expression leaves it where the expression passes to. -/
theorem code_traces {e : Expr} (hbounded : e.wellBounded) {addr next : Nat}
    (h : Holds program addr (e.code addr next)) : Traces program addr next e.Passes := by
  induction e generalizing addr next with
  | empty =>
      refine Traces.instr (holds_cons.mp h).1 Instr.noConfusion fun c a d hmoves => ?_
      exact (moves_skip.mp hmoves).imp_right Eq.symm
  | set chars =>
      exact Traces.instr (holds_cons.mp h).1 Instr.noConfusion fun _ _ _ => moves_read.mp
  | look assertion =>
      exact Traces.instr (holds_cons.mp h).1 Instr.noConfusion fun _ _ _ => moves_check.mp
  | cat first second ihfirst ihsecond =>
      rw [wellBounded, Bool.and_eq_true] at hbounded
      rw [code, holds_append, length_code] at h
      exact (ihfirst hbounded.1 h.1).cat (ihsecond hbounded.2 h.2)
  | alt first second ihfirst ihsecond =>
      rw [wellBounded, Bool.and_eq_true] at hbounded
      rw [code, holds_cons, holds_append, length_code] at h
      obtain ⟨hfork, hfirst, hsecond⟩ := h
      exact Traces.choice hfork Instr.noConfusion (fun _ _ _ => moves_fork.mp)
        (ihfirst hbounded.1 hfirst) (ihsecond hbounded.2 hsecond)
  | repeated greedy least most body ih =>
      rw [wellBounded, Bool.and_eq_true] at hbounded
      obtain ⟨hmost, hbody⟩ := hbounded
      have horder : ∀ limit, most = some limit → least ≤ limit := by
        rintro limit rfl
        simpa using hmost
      exact (Traces.composes program).repeated (fun _ _ => ih hbody) horder h
  | group kind body ih =>
      cases kind with
      | plain | numbered => exact ih hbounded h
      | named name =>
          rw [code, holds_cons, holds_append, length_code, holds_cons] at h
          obtain ⟨hopens, hbody, hcloses, -⟩ := h
          have hmark {a b : Nat} {opens : Bool}
              (hinstr : program[a]? = some (.mark name opens b)) :
              Traces program a b fun c d => d = c.mark name opens :=
            Traces.instr hinstr Instr.noConfusion fun _ _ _ => moves_mark.mp
          refine ((hmark hopens).cat ((ih hbounded hbody).cat (hmark hcloses))).mono ?_
          rintro c d ⟨_, rfl, inner, hinner, hd⟩
          exact ⟨inner, hinner, hd⟩

end Expr

/-! ## The search -/

/-- The answer of a search is the end of a run from an entry of the agenda. -/
theorem exists_finishes_of_search {program : Program} {width fuel : Nat} {seen : Visited}
    {agenda : List Thread} {answer : Thread}
    (hsome : search program width fuel seen agenda = some answer) :
    ∃ thread ∈ agenda, ∃ n, Finishes program n thread.addr thread.trail answer.trail := by
  induction fuel generalizing seen agenda with
  | zero => cases hsome
  | succ fuel ih =>
      cases agenda with
      | nil => cases hsome
      | cons thread agenda =>
          unfold search at hsome
          dsimp only at hsome
          split at hsome
          next =>
            obtain ⟨other, hother, hfinishes⟩ := ih hsome
            exact ⟨other, List.mem_cons_of_mem thread hother, hfinishes⟩
          next =>
            split at hsome
            next =>
              obtain ⟨other, hother, hfinishes⟩ := ih hsome
              exact ⟨other, List.mem_cons_of_mem thread hother, hfinishes⟩
            next haccept =>
              obtain rfl := Option.some.inj hsome
              exact ⟨thread, List.mem_cons_self, 0, haccept, rfl⟩
            next instr _ hinstr =>
              obtain ⟨other, hother, n, hfinishes⟩ := ih hsome
              rcases List.mem_append.mp hother with hother | hother
              · exact ⟨thread, List.mem_cons_self, n + 1, instr, other.addr, other.trail, hinstr,
                  moves_of_mem hother, hfinishes⟩
              · exact ⟨other, List.mem_cons_of_mem thread hother, n, hfinishes⟩

/-- The marks of the preferred match are those of a pass over a stretch of the text. -/
theorem exists_passes_of_find? {e : Expr} (hbounded : e.wellBounded) {text : List Char}
    {marks : List Mark} (h : (Searcher.ofExpr e).find? text = some marks) :
    ∃ s ∈ Spot.all text, ∃ t, e.Passes ⟨s, []⟩ ⟨t, marks⟩ := by
  obtain ⟨answer, hanswer, rfl⟩ := Option.map_eq_some_iff.mp h
  obtain ⟨thread, hthread, n, hfinishes⟩ := exists_finishes_of_search hanswer
  obtain ⟨s, hs, rfl⟩ := List.mem_map.mp hthread
  obtain ⟨hblock, haccept⟩ := holds_ofExpr e
  obtain ⟨d, m, -, hpasses, hend⟩ := Expr.code_traces hbounded hblock n ⟨s, []⟩ _ hfinishes
  refine ⟨s, hs, answer.spot, ?_⟩
  -- Behind the code there is nothing but the end.
  cases m with
  | zero =>
      obtain ⟨-, hlast⟩ := hend
      rwa [← hlast] at hpasses
  | succ m =>
      obtain ⟨instr, next, other, hinstr, hmoves, -⟩ := hend
      obtain rfl := Option.some.inj (haccept.symm.trans hinstr)
      obtain ⟨⟨thread, hthread, -⟩, -⟩ := hmoves
      cases hthread

/-! ## Captured stretches -/

theorem index_of_spans {word : List Char} {s t : Spot} (h : s.Spans word t) :
    t.index = s.index + word.length := by
  induction h with
  | nil => rfl
  | @cons s t u c cs hnext _ ih =>
      unfold Spot.next? at hnext
      split at hnext
      · cases hnext
      next =>
        obtain ⟨-, rfl⟩ := Prod.mk.inj (Option.some.inj hnext)
        rw [ih, List.length_cons, Nat.add_assoc, Nat.add_comm 1]

theorem slice_of_spans {text word : List Char} {s t : Spot} (hs : s ∈ Spot.all text)
    (h : s.Spans word t) : Searcher.slice text s.index t.index = word := by
  have hrest := h.rest_eq
  rw [Searcher.slice, index_of_spans h, Nat.add_sub_cancel_left]
  obtain ⟨j, -, rfl⟩ := Spot.mem_all_iff.mp hs
  dsimp only at hrest ⊢
  rw [hrest, List.take_left]

section

variable {text word : List Char} {marks other : List Mark} {name : String}

theorem captured?_congr (h : ends marks name = ends other name) :
    Searcher.captured? text marks name = Searcher.captured? text other name := by
  obtain ⟨hopened, hclosed⟩ := Prod.mk.inj h
  rw [Searcher.captured?, Searcher.captured?, hopened, hclosed]

theorem captured?_of_ends {opened closed : Mark}
    (h : ends marks name = (some opened, some closed)) :
    Searcher.captured? text marks name = some (Searcher.slice text opened.index closed.index) := by
  obtain ⟨hopened, hclosed⟩ := Prod.mk.inj h
  rw [Searcher.captured?, hopened, hclosed]
  rfl

/-- A group captures what it matches. -/
theorem exists_captured?_of_group {body : Expr} {L : Language Char} {c d : Trail}
    (h : (Expr.group (.named name) body).Passes c d) (hc : c.spot ∈ Spot.all text)
    (hdenotes : body.Denotes L) (hflat : body.bodies name = []) :
    ∃ word ∈ L, c.spot.Spans word d.spot ∧ Searcher.captured? text d.marks name = some word := by
  obtain ⟨inner, hinner, rfl⟩ := h
  obtain ⟨word, hword, hspans⟩ :=
    (hdenotes.matches_iff _ _).mp (hinner.matches hdenotes.wellBounded)
  refine ⟨word, hword, hspans, ?_⟩
  have hends : ends (inner.mark name false).marks name =
      (some ⟨name, true, c.spot.index⟩, some ⟨name, false, inner.spot.index⟩) := by
    rw [Trail.ends_mark_close, @hinner.ends_eq _ _ _ text name hc hflat, Trail.ends_mark_open]
  rw [captured?_of_ends hends, slice_of_spans hc hspans]

/-- What was captured under a name is a text of the language that its groups have. -/
theorem mem_of_captured? {e : Expr} {L : Language Char} (hbounded : e.wellBounded)
    (hfind : (Searcher.ofExpr e).find? text = some marks)
    (hbodies : ∀ body ∈ e.bodies name, body.Denotes L ∧ body.bodies name = [])
    (hcaptured : Searcher.captured? text marks name = some word) : word ∈ L := by
  obtain ⟨s, hs, t, hpasses⟩ := exists_passes_of_find? hbounded hfind
  rcases hpasses.traced hs fun body hbody => (hbodies body hbody).2 with
    hnone | ⟨body, hbody, opened, closed, hopened, hgroup, hends⟩
  · rw [captured?_congr hnone] at hcaptured
    cases hcaptured
  · obtain ⟨hdenotes, -⟩ := hbodies body hbody
    obtain ⟨value, hvalue, hspans⟩ :=
      (hdenotes.matches_iff _ _).mp (hgroup.matches hdenotes.wellBounded)
    rw [captured?_of_ends hends, slice_of_spans hopened hspans] at hcaptured
    obtain rfl := Option.some.inj hcaptured
    exact hvalue

end

end RouteAudit.Regex
