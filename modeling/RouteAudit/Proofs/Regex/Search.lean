import Mathlib.Data.Finset.Card
import RouteAudit.Proofs.Regex.Blocks
import RouteAudit.Proofs.Regex.Spots

/-! # The search finds what there is

A search answers exactly if the program accepts from some spot of the text
(`run?_isSome_iff`), so a regular expression occurs in a text exactly if it matches a
stretch of it (`isMatch_iff`). What the search keeps is that every step from a pair it has
been at leads to such a pair or to one on the agenda; when the agenda is empty nothing
else can be reached. Every turn drops an entry of the agenda or uses up a pair not seen
before, which pays for two new entries, so the fuel lasts.
-/

namespace RouteAudit.Regex

open RouteAudit.Text (Spot)

namespace Visited

/-- How many numbers with room in the set are no members. -/
def unseen (seen : Visited) : Nat :=
  ((Finset.range seen.bound).filter fun key => ¬ seen.contains key).card

theorem unseen_le (seen : Visited) : seen.unseen ≤ seen.bound :=
  (Finset.card_filter_le _ _).trans_eq (Finset.card_range seen.bound)

theorem lt_bound {seen : Visited} {key : Nat} (hnot : ¬ seen.contains key) : key < seen.bound := by
  by_contra hroom
  exact hnot (by rw [contains, if_neg hroom])

/-- A new member is one number less to see. -/
theorem unseen_insert_lt {seen : Visited} {key : Nat} (hnot : ¬ seen.contains key) :
    (seen.insert key).unseen < seen.unseen := by
  refine Finset.card_lt_card ((Finset.ssubset_iff_of_subset ?_).mpr ⟨key, ?_, ?_⟩)
  · intro other hother
    rw [Finset.mem_filter, contains_insert, Bool.or_eq_true, not_or] at hother
    exact Finset.mem_filter.mpr ⟨hother.1, hother.2.2⟩
  · exact Finset.mem_filter.mpr ⟨Finset.mem_range.mpr (lt_bound hnot), hnot⟩
  · rw [Finset.mem_filter, contains_insert, beq_self_eq_true, Bool.true_or]
    exact fun hmem => hmem.2 rfl

end Visited

section

variable {program : Program} {text : List Char} {seen : Visited} {agenda : List Thread}
  {addr next fuel : Nat} {s t : Spot}

/-- The number under which a search remembers an address and a spot. -/
def keyOf (text : List Char) (addr : Nat) (s : Spot) : Nat := addr * (text.length + 1) + s.index

/-- An address and a spot have been seen or are on the agenda. -/
def Covered (text : List Char) (seen : Visited) (agenda : List Thread) (addr : Nat) (s : Spot) :
    Prop :=
  seen.contains (keyOf text addr s) ∨ ∃ thread ∈ agenda, addr = thread.addr ∧ s = thread.spot

namespace Covered

variable {thread : Thread}

/-- An entry of the agenda whose pair has been seen covers nothing more. -/
theorem drop (h : Covered text seen (thread :: agenda) addr s)
    (hseen : seen.contains (keyOf text thread.addr thread.spot)) :
    Covered text seen agenda addr s := by
  rcases h with hcovered | ⟨other, hother, rfl, rfl⟩
  · exact .inl hcovered
  · rcases List.mem_cons.mp hother with rfl | hother
    · exact .inl hseen
    · exact .inr ⟨other, hother, rfl, rfl⟩

/-- What the first entry of the agenda covers is seen once the entry is. -/
theorem expand (h : Covered text seen (thread :: agenda) addr s) (more : List Thread) :
    Covered text (seen.insert (keyOf text thread.addr thread.spot)) (more ++ agenda) addr s := by
  unfold Covered
  rw [Visited.contains_insert, Bool.or_eq_true, beq_iff_eq]
  rcases h with hcovered | ⟨other, hother, rfl, rfl⟩
  · exact .inl (.inr hcovered)
  · rcases List.mem_cons.mp hother with rfl | hother
    · exact .inl (.inl rfl)
    · exact .inr ⟨other, List.mem_append_right more hother, rfl, rfl⟩

end Covered

/-- Pairs that have been seen do not accept, and their steps lead to pairs that are
covered. -/
structure Explored (program : Program) (text : List Char) (seen : Visited)
    (agenda : List Thread) : Prop where
  room : seen.bound = program.size * (text.length + 1)
  spots : ∀ thread ∈ agenda, thread.spot ∈ Spot.all text
  closed : ∀ {addr s instr}, s ∈ Spot.all text → seen.contains (keyOf text addr s) →
    program[addr]? = some instr → instr ≠ .accept ∧
      ∀ next t, Leads instr s next t → Covered text seen agenda next t

theorem keyOf_inj (hs : s ∈ Spot.all text) (ht : t ∈ Spot.all text)
    (hkey : keyOf text addr s = keyOf text next t) : addr = next ∧ s = t := by
  have hsindex := Spot.index_le hs
  have htindex := Spot.index_le ht
  unfold keyOf at hkey
  -- No index is as large as a row, so a key is divided in one way only.
  have hindex : s.index = t.index := by
    have hmod := congrArg (· % (text.length + 1)) hkey
    simpa [Nat.mul_add_mod_self_right, Nat.mod_eq_of_lt (Nat.lt_succ_of_le hsindex),
      Nat.mod_eq_of_lt (Nat.lt_succ_of_le htindex)] using hmod
  refine ⟨?_, Spot.eq_of_index hs ht hindex⟩
  rw [hindex] at hkey
  exact Nat.eq_of_mul_eq_mul_right (Nat.succ_pos _) (Nat.add_right_cancel hkey)

/-- An instruction has no more than two successors. -/
theorem successors_length_le (thread : Thread) (instr : Instr) :
    (thread.successors instr).length ≤ 2 := by
  unfold Thread.successors
  split
  next => simp
  next => split <;> [split <;> simp; simp]
  next => split <;> simp
  next => simp
  next => simp
  next => simp

theorem leads_mem {instr : Instr} (hs : s ∈ Spot.all text) (hleads : Leads instr s next t) :
    t ∈ Spot.all text := by
  cases instr with
  | skip => exact (leads_skip.mp hleads).2 ▸ hs
  | read =>
      obtain ⟨-, c, hnext, -⟩ := leads_read.mp hleads
      exact Spot.next?_mem hs hnext
  | check => exact (leads_check.mp hleads).2.1 ▸ hs
  | mark => exact (leads_mark.mp hleads).2 ▸ hs
  | fork => exact (leads_fork.mp hleads).2 ▸ hs
  | accept =>
      obtain ⟨thread, hthread, -⟩ := hleads
      cases hthread

namespace Explored

/-- Where nothing is left on the agenda, nothing that was seen gets to accept. -/
theorem not_accepts (h : Explored program text seen []) {n : Nat} (hs : s ∈ Spot.all text)
    (hseen : seen.contains (keyOf text addr s)) : ¬ Accepts program n addr s := by
  induction n generalizing addr s with
  | zero => exact fun haccept => (h.closed hs hseen haccept).1 rfl
  | succ n ih =>
      rintro ⟨instr, next, t, hinstr, hleads, hrest⟩
      rcases (h.closed hs hseen hinstr).2 next t hleads with hcovered | ⟨thread, hthread, -⟩
      · exact ih (leads_mem hs hleads) hcovered hrest
      · cases hthread

/-- An entry of the agenda whose pair has been seen can be dropped. -/
theorem drop {thread : Thread} (h : Explored program text seen (thread :: agenda))
    (hseen : seen.contains (keyOf text thread.addr thread.spot)) :
    Explored program text seen agenda where
  room := h.room
  spots other hother := h.spots other (List.mem_cons_of_mem thread hother)
  closed := by
    intro addr s instr hs hmem hinstr
    obtain ⟨hopen, hsteps⟩ := h.closed hs hmem hinstr
    exact ⟨hopen, fun next t hleads => (hsteps next t hleads).drop hseen⟩

/-- An entry of the agenda gives way to its successors. -/
theorem expand {thread : Thread} {instr : Instr} (h : Explored program text seen (thread :: agenda))
    (hinstr : program[thread.addr]? = some instr) (hopen : instr ≠ .accept) :
    Explored program text (seen.insert (keyOf text thread.addr thread.spot))
      (thread.successors instr ++ agenda) where
  room := h.room
  spots other hother := by
    rcases List.mem_append.mp hother with hother | hother
    · have hleads : Leads instr thread.spot other.addr other.spot :=
        leads_iff_successors.mpr ⟨other, hother, rfl, rfl⟩
      exact leads_mem (h.spots thread List.mem_cons_self) hleads
    · exact h.spots other (List.mem_cons_of_mem thread hother)
  closed := by
    have hthread := h.spots thread List.mem_cons_self
    intro addr s other hs hmem hother
    rw [Visited.contains_insert, Bool.or_eq_true, beq_iff_eq] at hmem
    rcases hmem with hkey | hmem
    · -- This pair is the one of the entry, and where it leads is on the agenda now.
      obtain ⟨rfl, rfl⟩ := keyOf_inj hs hthread hkey
      obtain rfl : instr = other := Option.some.inj (hinstr.symm.trans hother)
      refine ⟨hopen, fun next t hleads => ?_⟩
      obtain ⟨successor, hmem, rfl, rfl⟩ := leads_iff_successors.mp hleads
      exact .inr ⟨successor, List.mem_append_left agenda hmem, rfl, rfl⟩
    · obtain ⟨hopen, hsteps⟩ := h.closed hs hmem hother
      exact ⟨hopen, fun next t hleads => (hsteps next t hleads).expand _⟩

end Explored

/-- A search without an answer has seen nothing that gets to accept, and has left nothing
on the agenda that does. -/
theorem search_eq_none (h : Explored program text seen agenda)
    (hfuel : 2 * seen.unseen + agenda.length < fuel)
    (hnone : search program (text.length + 1) fuel seen agenda = none) (hs : s ∈ Spot.all text)
    (hcovered : Covered text seen agenda addr s) (n : Nat) : ¬ Accepts program n addr s := by
  induction fuel generalizing seen agenda with
  | zero => omega
  | succ fuel ih =>
      cases agenda with
      | nil =>
          rcases hcovered with hseen | ⟨thread, hthread, -⟩
          · exact h.not_accepts hs hseen
          · cases hthread
      | cons thread agenda =>
          rw [List.length_cons] at hfuel
          unfold search at hnone
          dsimp only at hnone
          rw [← keyOf] at hnone
          split at hnone
          next hseen => exact ih (h.drop hseen) (by omega) hnone (hcovered.drop hseen)
          next hunseen =>
            have hless := Visited.unseen_insert_lt hunseen
            split at hnone
            next houtside =>
              -- Addresses outside of the program have no room, so they count as seen.
              have hroom := Visited.lt_bound hunseen
              rw [h.room, keyOf] at hroom
              have hsize := Array.getElem?_eq_none_iff.mp houtside
              have hle := Nat.mul_le_mul_right (text.length + 1) hsize
              omega
            next => cases hnone
            next instr hopen hinstr =>
              have hlength := successors_length_le thread instr
              refine ih (h.expand hinstr hopen) ?_ hnone (hcovered.expand _)
              -- The number that is new pays for both successors.
              rw [List.length_append]
              omega

/-- The answer of a search comes from an entry of the agenda that gets to accept. -/
theorem search_eq_some {answer : Thread} {width : Nat}
    (hsome : search program width fuel seen agenda = some answer) :
    ∃ thread ∈ agenda, ∃ n, Accepts program n thread.addr thread.spot := by
  induction fuel generalizing seen agenda with
  | zero => cases hsome
  | succ fuel ih =>
      cases agenda with
      | nil => cases hsome
      | cons thread agenda =>
          unfold search at hsome
          dsimp only at hsome
          split at hsome
          next =>
            obtain ⟨other, hother, haccepts⟩ := ih hsome
            exact ⟨other, List.mem_cons_of_mem thread hother, haccepts⟩
          next =>
            split at hsome
            next =>
              obtain ⟨other, hother, haccepts⟩ := ih hsome
              exact ⟨other, List.mem_cons_of_mem thread hother, haccepts⟩
            next haccept => exact ⟨thread, List.mem_cons_self, 0, haccept⟩
            next instr _ hinstr =>
              obtain ⟨other, hother, n, haccepts⟩ := ih hsome
              rcases List.mem_append.mp hother with hother | hother
              · have hleads : Leads instr thread.spot other.addr other.spot :=
                  leads_iff_successors.mpr ⟨other, hother, rfl, rfl⟩
                exact ⟨thread, List.mem_cons_self, n + 1, instr, other.addr, other.spot, hinstr,
                  hleads, haccepts⟩
              · exact ⟨other, List.mem_cons_of_mem thread hother, n, haccepts⟩

/-- A run over a text ends with an answer exactly if the program accepts from a spot of the
text. -/
theorem Program.run?_isSome_iff (program : Program) (text : List Char) :
    (program.run? text).isSome ↔ ∃ s ∈ Spot.all text, ∃ n, Accepts program n 0 s := by
  unfold Program.run?
  dsimp only
  have hstart : Explored program text (Visited.empty (program.size * (text.length + 1)))
      ((Spot.all text).map fun spot => ⟨0, spot, []⟩) := by
    refine ⟨rfl, ?_, ?_⟩
    · intro thread hthread
      obtain ⟨spot, hspot, rfl⟩ := List.mem_map.mp hthread
      exact hspot
    · intro addr s instr hs hseen hinstr
      have hroom : keyOf text addr s < program.size * (text.length + 1) := by
        obtain ⟨haddr, -⟩ := Array.getElem?_eq_some_iff.mp hinstr
        have hindex := Spot.index_le hs
        have hrow := Nat.mul_le_mul_right (text.length + 1) (Nat.succ_le_of_lt haddr)
        rw [Nat.succ_mul] at hrow
        unfold keyOf
        omega
      rw [Visited.contains_empty hroom] at hseen
      cases hseen
  have hfuel := Visited.unseen_le (Visited.empty (program.size * (text.length + 1)))
  have hlength := Spot.length_all text
  constructor
  · intro hsome
    obtain ⟨answer, hanswer⟩ := Option.isSome_iff_exists.mp hsome
    obtain ⟨thread, hthread, n, haccepts⟩ := search_eq_some hanswer
    obtain ⟨spot, hspot, rfl⟩ := List.mem_map.mp hthread
    exact ⟨spot, hspot, n, haccepts⟩
  · rintro ⟨s, hs, n, haccepts⟩
    by_contra hnone
    rw [Bool.not_eq_true, Option.isSome_eq_false_iff, Option.isNone_iff_eq_none] at hnone
    refine search_eq_none hstart ?_ hnone hs (.inr ⟨_, List.mem_map_of_mem hs, rfl, rfl⟩) n haccepts
    rw [List.length_map, hlength]
    exact Nat.lt_succ_of_le (Nat.add_le_add_right (Nat.mul_le_mul_left 2 hfuel) _)

end

/-- The program of an expression is its code, with accepting behind it. -/
theorem holds_ofExpr (e : Expr) : Holds (.ofExpr e) 0 (e.code 0 e.size) ∧
    (Program.ofExpr e)[e.size]? = some .accept := by
  have hcode : Holds (.ofExpr e) 0 (e.code 0 e.size ++ [.accept]) := by
    intro i instr hinstr
    rw [Nat.zero_add, Program.ofExpr, List.getElem?_toArray]
    exact hinstr
  rw [holds_append, holds_cons, Expr.length_code, Nat.zero_add] at hcode
  exact ⟨hcode.1, hcode.2.1⟩

/-- A regular expression whose bounds are in order occurs in a text exactly if it matches
some stretch of it. -/
theorem isMatch_iff {e : Expr} (hbounded : e.wellBounded) (text : List Char) :
    (Searcher.ofExpr e).isMatch text ↔ ∃ s ∈ Spot.all text, ∃ t, e.Matches s t := by
  obtain ⟨hblock, haccept⟩ := holds_ofExpr e
  have hruns := Expr.code_runs hbounded hblock
  unfold Searcher.isMatch
  rw [Program.run?_isSome_iff]
  constructor
  · rintro ⟨s, hs, n, haccepts⟩
    obtain ⟨t, -, -, hmatch, -⟩ := hruns.sound haccepts
    exact ⟨s, hs, t, hmatch⟩
  · rintro ⟨s, hs, t, hmatch⟩
    exact ⟨s, hs, hruns.complete (n := 0) hmatch haccept⟩

end RouteAudit.Regex
