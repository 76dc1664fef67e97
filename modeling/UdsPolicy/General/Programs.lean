import Mathlib.Logic.Function.Iterate

/-!
# Programs over commands, and their control points

`Prog C R α` is a sequential program that issues commands `c : C`, receives a
reply of type `R c` for each, and finally returns an `α`. Interleaving several
programs needs a name for every place where one of them can be interrupted. A
machine `next : π → Head C R α π` supplies such control points, and
`Presents next p prog` says that the machine started at `p` issues the commands
of `prog`, in the same order and for every possible reply.
-/

/-- A program over the commands `C`, whose replies have the types `R`. -/
inductive Prog (C : Type) (R : C → Type) (α : Type) : Type
  /-- Return a value. -/
  | ret (a : α)
  /-- Issue a command and continue with its reply. -/
  | call (c : C) (k : R c → Prog C R α)

namespace Prog

variable {C : Type} {R : C → Type} {α β σ π : Type}

/-- Continue a program with another that depends on its result. -/
protected def bind : Prog C R α → (α → Prog C R β) → Prog C R β
  | .ret a, f => f a
  | .call c k, f => .call c fun r => (k r).bind f

instance : Monad (Prog C R) where
  pure := .ret
  bind := Prog.bind

/-- The program that issues one command and returns its reply. -/
def issue (c : C) : Prog C R (R c) := .call c .ret

/-- Run a program alone against a state, `exec` answering its commands. -/
def runWith (exec : (c : C) → σ → R c × σ) : Prog C R α → σ → α × σ
  | .ret a, s => (a, s)
  | .call c k, s => (k (exec c s).1).runWith exec (exec c s).2

/-- What a control point does next: return, or issue a command and move to the
control point that its reply selects. -/
inductive Head (C : Type) (R : C → Type) (α π : Type) : Type
  /-- The program has returned. -/
  | ret (a : α)
  /-- The program issues a command. -/
  | call (c : C) (k : R c → π)

/-- The machine `next`, started at a control point, is the given program. -/
inductive Presents (next : π → Head C R α π) : π → Prog C R α → Prop
  /-- A control point that returns presents a returned value. -/
  | ret {p : π} {a : α} : next p = .ret a → Presents next p (.ret a)
  /-- A control point that issues a command presents the command together with
  the continuations its successors present. -/
  | call {p : π} {c : C} {k : R c → π} {g : R c → Prog C R α} : next p = .call c k →
      (∀ r, Presents next (k r) (g r)) → Presents next p (.call c g)

/-- One step of a machine against a state; a returned machine stays where it is. -/
def stepWith (next : π → Head C R α π) (exec : (c : C) → σ → R c × σ) (p : π) (s : σ) : π × σ :=
  match next p with
  | .ret _ => (p, s)
  | .call c k => (k (exec c s).1, (exec c s).2)

/-- Enough steps of a machine compute what the presented program computes, and
leave the machine at a control point that returns it. -/
theorem Presents.runWith_eq {next : π → Head C R α π} {p : π} {g : Prog C R α}
    (h : Presents next p g) (exec : (c : C) → σ → R c × σ) (s : σ) :
    ∃ n q, (fun x => stepWith next exec x.1 x.2)^[n] (p, s) = (q, (g.runWith exec s).2) ∧
      next q = .ret (g.runWith exec s).1 := by
  induction h generalizing s with
  | @ret p a hp => exact ⟨0, p, rfl, hp⟩
  | @call p c k g hp _ ih =>
    obtain ⟨n, q, hrun, hq⟩ := ih (exec c s).1 (exec c s).2
    refine ⟨n + 1, q, ?_, hq⟩
    have hstep : stepWith next exec p s = (k (exec c s).1, (exec c s).2) := by
      simp only [stepWith, hp]
    simpa only [Function.iterate_succ, Function.comp_apply, hstep, runWith] using hrun

end Prog
