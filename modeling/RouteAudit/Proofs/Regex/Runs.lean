import RouteAudit.Proofs.Regex.Matches
import RouteAudit.Regex.Search

/-! # Stretches of a run

A run of a program goes from address to address and from spot to spot until it accepts.
A part of a program that is entered at one address and left to another runs over the
stretches of a kind (`Runs`) when it gets from the one to the other over just these. What
expressions are built of is built of such parts: one behind the other, a choice, a loop.

The length of the run that is left never grows across a part, so what a loop does follows
by induction on this length.
-/

namespace RouteAudit.Regex

open RouteAudit.Text (Spot)

/-- An instruction leads from a spot to an address and a spot. -/
def Leads (instr : Instr) (s : Spot) (addr : Nat) (t : Spot) : Prop :=
  ∃ thread ∈ Thread.successors ⟨0, s, []⟩ instr, addr = thread.addr ∧ t = thread.spot

section

variable {s t : Spot} {addr next : Nat}

@[simp] theorem leads_skip : Leads (.skip next) s addr t ↔ addr = next ∧ t = s := by
  simp [Leads, Thread.successors]

@[simp] theorem leads_read {chars : CharSet} : Leads (.read chars next) s addr t ↔
    addr = next ∧ ∃ c, s.next? = some (c, t) ∧ c ∈ chars := by
  unfold Leads Thread.successors
  dsimp only
  cases s.next? with
  | none => simp
  | some pair =>
      obtain ⟨c, u⟩ := pair
      dsimp only
      split
      next hmem =>
        constructor
        · intro hleads
          obtain ⟨rfl, rfl⟩ : addr = next ∧ t = u := by simpa using hleads
          exact ⟨rfl, c, rfl, hmem⟩
        · rintro ⟨rfl, _, ⟨⟩, -⟩
          exact ⟨_, List.mem_singleton_self _, rfl, rfl⟩
      next hmem =>
        constructor
        · intro hleads
          simp at hleads
        · rintro ⟨-, _, ⟨⟩, hmember⟩
          exact absurd hmember hmem

@[simp] theorem leads_check {assertion : Look} : Leads (.check assertion next) s addr t ↔
    addr = next ∧ t = s ∧ assertion.holds s := by
  unfold Leads Thread.successors
  by_cases hholds : assertion.holds s <;> simp [hholds]

@[simp] theorem leads_mark {name : String} {opens : Bool} :
    Leads (.mark name opens next) s addr t ↔ addr = next ∧ t = s := by
  simp [Leads, Thread.successors]

@[simp] theorem leads_fork {first second : Nat} :
    Leads (.fork first second) s addr t ↔ (addr = first ∨ addr = second) ∧ t = s := by
  simp only [Leads, Thread.successors, List.mem_cons, List.not_mem_nil, or_false]
  constructor
  · rintro ⟨_, rfl | rfl, rfl, rfl⟩
    · exact ⟨.inl rfl, rfl⟩
    · exact ⟨.inr rfl, rfl⟩
  · rintro ⟨rfl | rfl, rfl⟩
    · exact ⟨_, .inl rfl, rfl, rfl⟩
    · exact ⟨_, .inr rfl, rfl, rfl⟩

@[simp] theorem leads_branch {greedy : Bool} {into past : Nat} :
    Leads (.branch greedy into past) s addr t ↔ (addr = into ∨ addr = past) ∧ t = s := by
  cases greedy with
  | false => simp [Instr.branch, or_comm]
  | true => simp [Instr.branch]

theorem branch_ne_accept {greedy : Bool} {into past : Nat} :
    Instr.branch greedy into past ≠ .accept := by
  cases greedy <;> exact Instr.noConfusion

/-- Marks do not matter to where an instruction leads. -/
theorem leads_iff_successors {instr : Instr} {thread : Thread} :
    Leads instr thread.spot addr t ↔
      ∃ next ∈ thread.successors instr, addr = next.addr ∧ t = next.spot := by
  cases instr with
  | skip | mark | fork | accept => simp [Leads, Thread.successors]
  | read chars next =>
      unfold Leads Thread.successors
      dsimp only
      cases thread.spot.next? with
      | none => simp
      | some pair => by_cases hmem : chars.holds pair.1 <;> simp [hmem]
  | check assertion next =>
      unfold Leads Thread.successors
      by_cases hholds : assertion.holds thread.spot <;> simp [hholds]

end

/-- The program accepts after so many steps from an address and a spot. -/
def Accepts (program : Program) : Nat → Nat → Spot → Prop
  | 0, addr, _ => program[addr]? = some .accept
  | n + 1, addr, s => ∃ instr next t,
      program[addr]? = some instr ∧ Leads instr s next t ∧ Accepts program n next t

/-- The program gets from one address to another over the stretches of a kind, and does not
accept in between. -/
structure Runs (program : Program) (addr next : Nat) (R : Spot → Spot → Prop) : Prop where
  complete : ∀ {s t n}, R s t → Accepts program n next t → ∃ m, Accepts program m addr s
  sound : ∀ {n s}, Accepts program n addr s → ∃ t m, m ≤ n ∧ R s t ∧ Accepts program m next t

namespace Runs

variable {program : Program} {addr onward next : Nat} {R S : Spot → Spot → Prop} {greedy : Bool}

theorem congr (h : Runs program addr next R) (hRS : ∀ s t, R s t ↔ S s t) :
    Runs program addr next S := by
  obtain rfl : R = S := by
    funext s t
    exact propext (hRS s t)
  exact h

/-- A part without instructions stays at its spot. -/
theorem nothing : Runs program addr addr Eq where
  complete := by
    rintro s _ n rfl haccepts
    exact ⟨n, haccepts⟩
  sound := fun {n s} haccepts => ⟨s, n, Nat.le_refl n, rfl, haccepts⟩

/-- An instruction other than accepting takes a step. -/
theorem step {instr : Instr} (hinstr : program[addr]? = some instr) (hopen : instr ≠ .accept)
    {n : Nat} {s : Spot} (haccepts : Accepts program n addr s) :
    ∃ m next t, n = m + 1 ∧ Leads instr s next t ∧ Accepts program m next t := by
  cases n with
  | zero =>
      have hsame := hinstr.symm.trans haccepts
      exact absurd (Option.some.inj hsame) hopen
  | succ n =>
      obtain ⟨other, next, t, hother, hleads, hrest⟩ := haccepts
      obtain rfl : instr = other := Option.some.inj (hinstr.symm.trans hother)
      exact ⟨n, next, t, rfl, hleads, hrest⟩

/-- A part of one instruction. -/
theorem instr {instr : Instr} (hinstr : program[addr]? = some instr) (hopen : instr ≠ .accept)
    (hleads : ∀ s a t, Leads instr s a t ↔ a = next ∧ R s t) : Runs program addr next R where
  complete := fun {s t n} hst haccepts =>
    ⟨n + 1, instr, next, t, hinstr, (hleads s next t).mpr ⟨rfl, hst⟩, haccepts⟩
  sound := by
    intro n s haccepts
    obtain ⟨m, a, t, rfl, hlead, hrest⟩ := step hinstr hopen haccepts
    obtain ⟨rfl, hst⟩ := (hleads s a t).mp hlead
    exact ⟨t, m, Nat.le_succ m, hst, hrest⟩

/-- One part behind another. -/
theorem cat (hR : Runs program addr onward R) (hS : Runs program onward next S) :
    Runs program addr next fun s u => ∃ t, R s t ∧ S t u where
  complete := by
    rintro s u n ⟨t, hst, htu⟩ haccepts
    obtain ⟨m, hmiddle⟩ := hS.complete htu haccepts
    exact hR.complete hst hmiddle
  sound := by
    intro n s haccepts
    obtain ⟨t, m, hm, hst, hmiddle⟩ := hR.sound haccepts
    obtain ⟨u, k, hk, htu, hlast⟩ := hS.sound hmiddle
    exact ⟨u, k, Nat.le_trans hk hm, ⟨t, hst, htu⟩, hlast⟩

/-- A choice between two parts. -/
theorem choice {instr : Instr} {first second : Nat} (hinstr : program[addr]? = some instr)
    (hopen : instr ≠ .accept)
    (hleads : ∀ s a t, Leads instr s a t ↔ (a = first ∨ a = second) ∧ t = s)
    (hR : Runs program first next R) (hS : Runs program second next S) :
    Runs program addr next fun s t => R s t ∨ S s t where
  complete := by
    rintro s t n hst haccepts
    rcases hst with hst | hst
    · obtain ⟨m, hm⟩ := hR.complete hst haccepts
      exact ⟨m + 1, instr, first, s, hinstr, (hleads s first s).mpr ⟨.inl rfl, rfl⟩, hm⟩
    · obtain ⟨m, hm⟩ := hS.complete hst haccepts
      exact ⟨m + 1, instr, second, s, hinstr, (hleads s second s).mpr ⟨.inr rfl, rfl⟩, hm⟩
  sound := by
    intro n s haccepts
    obtain ⟨m, a, t, rfl, hlead, hrest⟩ := step hinstr hopen haccepts
    obtain ⟨rfl | rfl, rfl⟩ := (hleads s a t).mp hlead
    · obtain ⟨u, k, hk, htu, hlast⟩ := hR.sound hrest
      exact ⟨u, k, Nat.le_succ_of_le hk, .inl htu, hlast⟩
    · obtain ⟨u, k, hk, htu, hlast⟩ := hS.sound hrest
      exact ⟨u, k, Nat.le_succ_of_le hk, .inr htu, hlast⟩

/-- A part that may be passed over. -/
theorem optional {into : Nat} (hbranch : program[addr]? = some (.branch greedy into next))
    (hR : Runs program into next R) : Runs program addr next fun s t => R s t ∨ s = t :=
  choice hbranch branch_ne_accept (fun _ _ _ => leads_branch) hR nothing

/-- A loop that leads back to its branch makes any number of rounds. -/
theorem loop {into : Nat} (hbranch : program[addr]? = some (.branch greedy into next))
    (hR : Runs program into addr R) : Runs program addr next fun s t => ∃ k, Rounds R k s t where
  complete := by
    rintro s t n ⟨k, hrounds⟩ haccepts
    induction hrounds with
    | zero s =>
        exact ⟨n + 1, _, next, s, hbranch, leads_branch.mpr ⟨.inr rfl, rfl⟩, haccepts⟩
    | @succ k s t u hround _ ih =>
        obtain ⟨m, hm⟩ := ih haccepts
        obtain ⟨j, hj⟩ := hR.complete hround hm
        exact ⟨j + 1, _, into, s, hbranch, leads_branch.mpr ⟨.inl rfl, rfl⟩, hj⟩
  sound := by
    intro n
    induction n using Nat.strongRecOn with
    | ind n ih =>
        intro s haccepts
        obtain ⟨m, a, t, rfl, hlead, hrest⟩ := step hbranch branch_ne_accept haccepts
        obtain ⟨rfl | rfl, rfl⟩ := leads_branch.mp hlead
        · obtain ⟨u, j, hj, hround, hagain⟩ := hR.sound hrest
          -- The branch took a step, so less of the run is left even after an empty round.
          obtain ⟨v, i, hi, ⟨k, hrounds⟩, hlast⟩ := ih j (Nat.lt_succ_of_le hj) hagain
          exact ⟨v, i, by omega, ⟨k + 1, .succ hround hrounds⟩, hlast⟩
        · exact ⟨t, m, Nat.le_succ m, ⟨0, .zero t⟩, hrest⟩

end Runs

end RouteAudit.Regex
