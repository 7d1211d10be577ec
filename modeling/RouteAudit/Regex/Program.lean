import RouteAudit.Regex.Expr

/-! # Programs for a nondeterministic matcher

An expression becomes a list of instructions that lie next to each other, each
naming its successors by address. The block of an expression is entered at its
first address and left to one address only, which the caller chooses. The order
in which a fork names its successors is the preference between them.
-/

namespace RouteAudit.Regex

/-- One instruction. -/
inductive Instr where
  | skip (next : Nat)
  | read (chars : CharSet) (next : Nat)
  | check (assertion : Look) (next : Nat)
  | mark (name : String) (opens : Bool) (next : Nat)
  | fork (first second : Nat)
  | accept
  deriving Repr, BEq, DecidableEq

namespace Instr

/-- A fork that prefers going into a repeated body when `greedy` is set. -/
def branch (greedy : Bool) (into past : Nat) : Instr :=
  if greedy then fork into past else fork past into

end Instr

/-- Copies of a block in a row, each leaving to the next one. A block of `size`
instructions is given by what it is at an address and with a successor. -/
def copies (n size : Nat) (block : Nat → Nat → List Instr) (addr next : Nat) : List Instr :=
  (List.range n).flatMap fun i =>
    block (addr + i * size) (if i + 1 = n then next else addr + (i + 1) * size)

/-- Copies of a block in a row, each of which may be passed over with all that follow
it. -/
def optionals (greedy : Bool) (n size : Nat) (block : Nat → Nat → List Instr)
    (addr next : Nat) : List Instr :=
  copies n (size + 1) (fun here onward =>
    .branch greedy (here + 1) next :: block (here + 1) onward) addr next

namespace Expr

/-- How many instructions the block of an expression takes. -/
def size : Expr → Nat
  | empty | set _ | look _ => 1
  | cat first second => first.size + second.size
  | alt first second => first.size + second.size + 1
  | repeated _ least most body =>
    match body.bounds least most with
    | (0, none) => if body.consumes then body.size + 1 else body.size + 2
    | (least, none) => least * body.size + 1
    | (0, some 0) => 1
    | (least, some most) => least * body.size + (most - least) * (body.size + 1)
  | group (.named _) body => body.size + 2
  | group _ body => body.size

/-- The block of an expression that starts at `addr` and leaves to `next`. -/
def code : Expr → (addr next : Nat) → List Instr
  | empty, _, next => [.skip next]
  | set chars, _, next => [.read chars next]
  | look assertion, _, next => [.check assertion next]
  | cat first second, addr, next =>
    first.code addr (addr + first.size) ++ second.code (addr + first.size) next
  | alt first second, addr, next =>
    .fork (addr + 1) (addr + 1 + first.size) ::
      (first.code (addr + 1) next ++ second.code (addr + 1 + first.size) next)
  | repeated greedy least most body, addr, next =>
    match body.bounds least most with
    | (0, none) =>
      if body.consumes then .branch greedy (addr + 1) next :: body.code (addr + 1) addr
      else
        -- An empty round is then preferred exactly where skipping is.
        .branch greedy (addr + 1) next ::
          (body.code (addr + 1) (addr + 1 + body.size) ++ [.branch greedy (addr + 1) next])
    | (least, none) =>
      copies least body.size body.code addr (addr + least * body.size) ++
        [.branch greedy (addr + (least - 1) * body.size) next]
    | (0, some 0) => [.skip next]
    | (least, some most) =>
      let onward := addr + least * body.size
      copies least body.size body.code addr (if most ≤ least then next else onward) ++
        optionals greedy (most - least) body.size body.code onward next
  | group (.named name) body, addr, next =>
    .mark name true (addr + 1) ::
      (body.code (addr + 1) (addr + 1 + body.size) ++ [.mark name false next])
  | group _ body, addr, next => body.code addr next

/-- Copies of a block take as much room as the block so many times. -/
theorem length_copies {n size : Nat} {block : Nat → Nat → List Instr}
    (h : ∀ addr next, (block addr next).length = size) (addr next : Nat) :
    (copies n size block addr next).length = n * size := by
  have hmap (f : Nat → List Instr) (hf : ∀ i, (f i).length = size) (l : List Nat) :
      (l.flatMap f).length = l.length * size := by
    induction l with
    | nil => simp
    | cons i l ih => simp [List.flatMap_cons, ih, hf, Nat.succ_mul, Nat.add_comm]
  unfold copies
  rw [hmap _ (fun i => h _ _), List.length_range]

/-- The code of an expression takes exactly the room that was planned for it. -/
theorem length_code (e : Expr) (addr next : Nat) : (e.code addr next).length = e.size := by
  induction e generalizing addr next with
  | empty | set | look => rfl
  | cat first second ih₁ ih₂ => simp [code, size, ih₁, ih₂]
  | alt first second ih₁ ih₂ => simp [code, size, ih₁, ih₂]
  | repeated greedy least most body ih =>
    rw [code, size]
    split
    next => split <;> simp [ih]
    next => simp [length_copies ih]
    next => rfl
    next =>
      have hopt : ∀ a b c, (Instr.branch greedy (a + 1) c :: body.code (a + 1) b).length =
          body.size + 1 := by simp [ih]
      simp [length_copies ih, optionals, length_copies fun a b => hopt a b _]
  | group kind body ih => cases kind <;> simp [code, size, ih]

end Expr

/-- The instructions of a whole program. Execution starts at address 0. -/
abbrev Program := Array Instr

/-- The program that runs an expression and then accepts. -/
def Program.ofExpr (e : Expr) : Program :=
  (e.code 0 e.size ++ [Instr.accept]).toArray

end RouteAudit.Regex
