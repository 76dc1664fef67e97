import Mathlib.Data.Nat.Notation
import Mathlib.Data.Option.Basic

/-!
# Runs of a labelled partial step function

A system is given by `step : σ → α → Option σ`: `none` means that the action is
not available in that state. A schedule is a list of actions, and `run` performs
it. `EveryStep` says that a relation holds at each step a schedule takes; it
carries assumptions about schedules into invariants, and invariants into
conclusions about every step. Nothing here depends on a particular system.
-/

namespace Runs

variable {σ τ α β : Type*} {step : σ → α → Option σ}

/-- Perform a schedule from a state; `none` if some action is not available when
its turn comes. -/
def run (step : σ → α → Option σ) (s : σ) : List α → Option σ
  | [] => some s
  | a :: as => (step s a).bind fun t => run step t as

/-- The relation `P` holds between the two ends of every step that the schedule takes. -/
def EveryStep (step : σ → α → Option σ) (P : σ → α → σ → Prop) (s : σ) : List α → Prop
  | [] => True
  | a :: as => ∀ t, step s a = some t → P s a t ∧ EveryStep step P t as

/-- A condition that can be checked on one step can be checked along a schedule. -/
def EveryStep.decide {P : σ → α → σ → Prop} [∀ s a t, Decidable (P s a t)] (s : σ) :
    (as : List α) → Decidable (EveryStep step P s as)
  | [] => .isTrue trivial
  | a :: as =>
    match hstep : step s a with
    | none => .isTrue fun _ ht => nomatch hstep.symm.trans ht
    | some t =>
      have : Decidable (EveryStep step P t as) := EveryStep.decide t as
      decidable_of_iff (P s a t ∧ EveryStep step P t as)
        ⟨fun h _ hu => Option.some.inj (hstep.symm.trans hu) ▸ h, fun h => h t hstep⟩

instance {P : σ → α → σ → Prop} [∀ s a t, Decidable (P s a t)] (s : σ) (as : List α) :
    Decidable (EveryStep step P s as) :=
  EveryStep.decide s as

@[simp] theorem run_nil (s : σ) : run step s [] = some s := rfl

/-- A schedule is performed by performing its first action and then the rest. -/
theorem run_cons {s u : σ} {a : α} {as : List α} :
    run step s (a :: as) = some u ↔ ∃ t, step s a = some t ∧ run step t as = some u := by
  simp [run, Option.bind_eq_some_iff]

/-- Performing one schedule after another is performing their concatenation. -/
theorem run_append {s u : σ} {as bs : List α} :
    run step s (as ++ bs) = some u ↔ ∃ t, run step s as = some t ∧ run step t bs = some u := by
  induction as generalizing s with
  | nil => simp
  | cons a as ih =>
    simp only [List.cons_append, run_cons, ih]
    constructor
    · rintro ⟨t, hstep, v, hrun, hrest⟩
      exact ⟨v, ⟨t, hstep, hrun⟩, hrest⟩
    · rintro ⟨v, ⟨t, hstep, hrun⟩, hrest⟩
      exact ⟨t, hstep, v, hrun, hrest⟩

/-- A condition on every step, from the first step and the rest. -/
theorem EveryStep.cons {P : σ → α → σ → Prop} {s t : σ} {a : α} {as : List α}
    (hstep : step s a = some t) (hP : P s a t) (hrest : EveryStep step P t as) :
    EveryStep step P s (a :: as) := by
  intro u hu
  obtain rfl : t = u := Option.some.inj (hstep.symm.trans hu)
  exact ⟨hP, hrest⟩

/-- A relation that holds of every step of a system holds of every step of a schedule. -/
theorem everyStep_of_forall {P : σ → α → σ → Prop} (h : ∀ s a t, step s a = some t → P s a t)
    (s : σ) (as : List α) : EveryStep step P s as := by
  induction as generalizing s with
  | nil => trivial
  | cons a as ih => exact fun t hstep => ⟨h s a t hstep, ih t⟩

/-- A condition on every step of a concatenation holds on each of the two parts. -/
theorem everyStep_append {P : σ → α → σ → Prop} {s t : σ} {as bs : List α}
    (h : EveryStep step P s (as ++ bs)) (hrun : run step s as = some t) :
    EveryStep step P s as ∧ EveryStep step P t bs := by
  induction as generalizing s with
  | nil =>
    obtain rfl : s = t := by simpa using hrun
    exact ⟨trivial, h⟩
  | cons a as ih =>
    obtain ⟨u, hstep, hrest⟩ := run_cons.mp hrun
    refine ⟨fun v hv => ?_, (ih (h u hstep).2 hrest).2⟩
    obtain rfl : u = v := Option.some.inj (hstep.symm.trans hv)
    exact ⟨(h u hstep).1, (ih (h u hstep).2 hrest).1⟩

/-- Two conditions on every step. -/
theorem EveryStep.and {P Q : σ → α → σ → Prop} {s : σ} {as : List α} (hP : EveryStep step P s as)
    (hQ : EveryStep step Q s as) : EveryStep step (fun s a t => P s a t ∧ Q s a t) s as := by
  induction as generalizing s with
  | nil => trivial
  | cons a as ih =>
    intro t hstep
    obtain ⟨hPt, hPs⟩ := hP t hstep
    obtain ⟨hQt, hQs⟩ := hQ t hstep
    exact ⟨⟨hPt, hQt⟩, ih hPs hQs⟩

/-- A condition on every step together with a condition on every action of the schedule. -/
theorem EveryStep.and_forall_mem {P : σ → α → σ → Prop} {Q : α → Prop} {s : σ} {as : List α}
    (hP : EveryStep step P s as) (hQ : ∀ a ∈ as, Q a) :
    EveryStep step (fun s a t => P s a t ∧ Q a) s as := by
  induction as generalizing s with
  | nil => trivial
  | cons a as ih =>
    intro t hstep
    obtain ⟨hPt, hPs⟩ := hP t hstep
    obtain ⟨hQa, hQs⟩ := List.forall_mem_cons.mp hQ
    exact ⟨⟨hPt, hQa⟩, ih hPs hQs⟩

/-- **Invariant rule.** A predicate that every admitted step preserves holds at the
end of every schedule whose steps are all admitted. -/
theorem run_invariant {I : σ → Prop} {P : σ → α → σ → Prop}
    (hpres : ∀ s a t, I s → P s a t → step s a = some t → I t)
    {s t : σ} {as : List α} (hs : I s) (hP : EveryStep step P s as)
    (hrun : run step s as = some t) : I t := by
  induction as generalizing s with
  | nil =>
    obtain rfl : s = t := by simpa using hrun
    exact hs
  | cons a as ih =>
    obtain ⟨u, hstep, hrest⟩ := run_cons.mp hrun
    obtain ⟨hPu, hPs⟩ := hP u hstep
    exact ih (hpres s a u hs hPu hstep) hPs hrest

/-- The invariant rule for a predicate that every step preserves. -/
theorem run_invariant_of_forall {I : σ → Prop} (hpres : ∀ s a t, I s → step s a = some t → I t)
    {s t : σ} {as : List α} (hs : I s) (hrun : run step s as = some t) : I t :=
  run_invariant (P := fun _ _ _ => True) (fun s a t hI _ => hpres s a t hI) hs
    (everyStep_of_forall (fun _ _ _ _ => trivial) s as) hrun

/-- **History rule.** A relation between the schedule so far and the state it leads to, which
every step preserves, holds at the end of every schedule. -/
theorem run_history {I : List α → σ → Prop}
    (hpres : ∀ as s a t, I as s → step s a = some t → I (as ++ [a]) t)
    {s t : σ} {as : List α} (hs : I [] s) (hrun : run step s as = some t) : I as t := by
  have hfrom (past : List α) (as : List α) (s : σ) (hpast : I past s)
      (hrun : run step s as = some t) : I (past ++ as) t := by
    induction as generalizing past s with
    | nil =>
      obtain rfl : s = t := by simpa using hrun
      rwa [List.append_nil]
    | cons a as ih =>
      obtain ⟨u, hstep, hrest⟩ := run_cons.mp hrun
      have hnext := ih (past ++ [a]) u (hpres past s a u hpast hstep) hrest
      rwa [List.append_assoc] at hnext
  exact hfrom [] as s hs hrun

/-- **Step-condition rule.** Under an invariant that steps meeting `P` preserve, a
condition `P` on every step gives every consequence `Q` it has at a single step. -/
theorem EveryStep.imp {I : σ → Prop} {P Q : σ → α → σ → Prop}
    (hpres : ∀ s a t, I s → P s a t → step s a = some t → I t)
    (himp : ∀ s a t, I s → step s a = some t → P s a t → Q s a t)
    {s : σ} {as : List α} (hs : I s) (hP : EveryStep step P s as) : EveryStep step Q s as := by
  induction as generalizing s with
  | nil => trivial
  | cons a as ih =>
    intro t hstep
    obtain ⟨hPt, hPs⟩ := hP t hstep
    exact ⟨himp s a t hs hstep hPt, ih (hpres s a t hs hPt hstep) hPs⟩

/-- **Counting rule.** Where a measure pays for every counted action, there are no more of them
than the measure has lost. -/
theorem countP_add_le {I : σ → Prop} {P : σ → α → σ → Prop} {m : σ → ℕ} {p : α → Bool}
    (hpres : ∀ s a t, I s → P s a t → step s a = some t → I t)
    (hpays : ∀ s a t, I s → P s a t → step s a = some t → (p a).toNat + m t ≤ m s)
    {s t : σ} {as : List α} (hs : I s) (hP : EveryStep step P s as)
    (hrun : run step s as = some t) : as.countP p + m t ≤ m s := by
  induction as generalizing s with
  | nil =>
    obtain rfl : s = t := by simpa using hrun
    simp
  | cons a as ih =>
    obtain ⟨u, hstep, hrest⟩ := run_cons.mp hrun
    obtain ⟨hPu, hPs⟩ := hP u hstep
    have hpaid := hpays s a u hs hPu hstep
    have hle := ih (hpres s a u hs hPu hstep) hPs hrest
    cases ha : p a with
    | false =>
      rw [List.countP_cons_of_neg (by simp [ha])]
      omega
    | true =>
      rw [ha, Bool.toNat_true] at hpaid
      rw [List.countP_cons_of_pos ha]
      omega

/-- **Crossing rule.** What holds at the end of a schedule and did not hold at its beginning has
come to hold at some step. -/
theorem exists_crossing {Q : σ → Prop} {s t : σ} {as : List α} (hs : ¬Q s) (ht : Q t)
    (hrun : run step s as = some t) :
    ∃ before a after u v, as = before ++ a :: after ∧ run step s before = some u ∧
      step u a = some v ∧ ¬Q u ∧ Q v := by
  induction as generalizing s with
  | nil =>
    obtain rfl : s = t := by simpa using hrun
    exact absurd ht hs
  | cons a as ih =>
    obtain ⟨v, hstep, hrest⟩ := run_cons.mp hrun
    by_cases hv : Q v
    · exact ⟨[], a, as, s, v, rfl, rfl, hstep, hs, hv⟩
    · obtain ⟨before, b, after, u, u', rfl, hbefore, hcross⟩ := ih hv hrest
      exact ⟨a :: before, b, after, u, u', rfl, run_cons.mpr ⟨v, hstep, hbefore⟩, hcross⟩

end Runs
