import UdsPolicy.General.Programs

/-!
# Observed runs

A run of a program that is alone with its state, together with the commands it
has issued: the state before each of them, and the reply. The answers may depend
on how many commands have gone before, so that a command can fail the second time
it is issued. An invariant over control points, past and state that every command
keeps holds at every moment of the run.
-/

namespace Prog

variable {C : Type} {R : C → Type} {α σ π : Type}

/-- A command of a run. -/
structure Event (C : Type) (R : C → Type) (σ : Type) where
  /-- The state before the command. -/
  before : σ
  /-- The command. -/
  call : C
  /-- The reply to it. -/
  reply : R call

/-- A state and the commands that have led to it, oldest first. -/
structure Observed (C : Type) (R : C → Type) (σ : Type) where
  /-- The state. -/
  state : σ
  /-- The commands. -/
  events : List (Event C R σ)

/-- Answer a command and record it; `exec n` answers after `n` commands. -/
def observe (exec : ℕ → (c : C) → σ → R c × σ) (c : C) (o : Observed C R σ) :
    R c × Observed C R σ :=
  ((exec o.events.length c o.state).1,
    { state := (exec o.events.length c o.state).2
      events := o.events ++ [⟨o.state, c, (exec o.events.length c o.state).1⟩] })

/-- After the commands `past`, the state was `s`. -/
def Observed.Visits (o : Observed C R σ) (past : List (Event C R σ)) (s : σ) : Prop :=
  (past = o.events ∧ s = o.state) ∨ ∃ e post, o.events = past ++ e :: post ∧ s = e.before

variable {exec : ℕ → (c : C) → σ → R c × σ} {c : C} {o : Observed C R σ}
  {past : List (Event C R σ)} {s : σ}

/-- The moments of a run are those before its last command and the one after it. -/
theorem visits_observe (h : (observe exec c o).2.Visits past s) :
    o.Visits past s ∨
      past = (observe exec c o).2.events ∧ s = (observe exec c o).2.state := by
  rcases h with hend | ⟨e, post, hevents, rfl⟩
  · exact .inr hend
  · left
    rcases List.eq_nil_or_concat post with rfl | ⟨post, last, rfl⟩
    · obtain ⟨hpast, he⟩ := List.append_inj' hevents rfl
      obtain rfl := List.head_eq_of_cons_eq he
      exact .inl ⟨hpast.symm, rfl⟩
    · rw [List.concat_eq_append, ← List.cons_append, ← List.append_assoc] at hevents
      obtain ⟨hpast, -⟩ := List.append_inj' hevents rfl
      exact .inr ⟨e, post, hpast, rfl⟩

/-- **Control-point rule.** An invariant that every command keeps holds at every moment of an
observed run, and at its end at a control point that returns the result. -/
theorem Presents.observed {next : π → Head C R α π} {p : π} {g : Prog C R α}
    (h : Presents next p g) {I : π → List (Event C R σ) → σ → Prop}
    (hstep : ∀ p c k past s, next p = .call c k → I p past s →
      I (k (exec past.length c s).1) (past ++ [⟨s, c, (exec past.length c s).1⟩])
        (exec past.length c s).2)
    (ho : I p o.events o.state) (hpast : ∀ past s, o.Visits past s → ∃ q, I q past s) :
    (∃ q, next q = .ret (g.runWith (observe exec) o).1 ∧
        I q (g.runWith (observe exec) o).2.events (g.runWith (observe exec) o).2.state) ∧
      ∀ past s, (g.runWith (observe exec) o).2.Visits past s → ∃ q, I q past s := by
  induction h generalizing o with
  | @ret p a hp => exact ⟨⟨p, hp, ho⟩, hpast⟩
  | @call p c k g hp _ ih =>
    have hnext := hstep p c k o.events o.state hp ho
    refine ih (exec o.events.length c o.state).1 hnext fun past s hvisits => ?_
    rcases visits_observe hvisits with hbefore | ⟨rfl, rfl⟩
    · exact hpast past s hbefore
    · exact ⟨_, hnext⟩

end Prog
