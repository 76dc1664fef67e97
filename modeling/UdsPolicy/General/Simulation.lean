import UdsPolicy.General.Runs

/-!
# A system that does what a simpler one does

Some steps of a system are steps of a simpler one, and its other steps cannot be
seen there. Then what is seen of a run is a run of the simpler system, and
whatever holds of the runs of the simpler system holds of what is seen. Where one
step of a system takes several of the other, `Leads` says where these go, and
what they come to on the way.
-/

namespace Runs

variable {σ τ α β : Type*} {step : σ → α → Option σ} {step' : τ → β → Option τ}
  {label : σ → α → Option β} {abs : σ → τ} {I : σ → Prop} {P : σ → α → σ → Prop}

/-- What is seen of a schedule, performed from a state. -/
def seen (step : σ → α → Option σ) (label : σ → α → Option β) (s : σ) : List α → List β
  | [] => []
  | a :: as => (label s a).toList ++ (step s a).elim [] fun t => seen step label t as

/-- From `t`, what is seen of an action leads to `t'`; nothing leads nowhere else. -/
def Follows (step' : τ → β → Option τ) (t : τ) (b : Option β) (t' : τ) : Prop :=
  run step' t b.toList = some t'

theorem follows_none {t : τ} : Follows step' t none t := rfl

theorem follows_some {t t' : τ} {b : β} (h : step' t b = some t') : Follows step' t (some b) t' :=
  run_cons.mpr ⟨t', h, rfl⟩

/-- **Simulation rule.** Where every step follows what is seen of it, what is seen of a run is a
run of the simpler system. -/
theorem run_seen (hpres : ∀ s a t, I s → P s a t → step s a = some t → I t)
    (hfollows : ∀ s a t, I s → P s a t → step s a = some t →
      Follows step' (abs s) (label s a) (abs t))
    {s t : σ} {as : List α} (hs : I s) (hP : EveryStep step P s as)
    (hrun : run step s as = some t) :
    run step' (abs s) (seen step label s as) = some (abs t) := by
  induction as generalizing s with
  | nil =>
    obtain rfl : s = t := by simpa using hrun
    rfl
  | cons a as ih =>
    obtain ⟨u, hstep, hrest⟩ := run_cons.mp hrun
    obtain ⟨hPu, hPs⟩ := hP u hstep
    have hlater := ih (hpres s a u hs hPu hstep) hPs hrest
    have hnow := hfollows s a u hs hPu hstep
    simp only [seen, hstep, Option.elim_some]
    exact run_append.mpr ⟨abs u, hnow, hlater⟩

/-- **Transfer rule.** What the simpler system preserves, what is seen preserves. -/
theorem Follows.invariant {J : τ → Prop} {t t' : τ} {b : Option β}
    (h : Follows step' t b t') (ht : J t) (hpres : ∀ c u, b = some c → step' t c = some u → J u) :
    J t' := by
  cases b with
  | none =>
    obtain rfl : t = t' := by simpa [Follows] using h
    exact ht
  | some b =>
    obtain ⟨u, hstep, hrest⟩ := run_cons.mp h
    obtain rfl : u = t' := by simpa using hrest
    exact hpres b u rfl hstep

/-! ### Several steps for one -/

section Leads

variable {step : σ → α → Option σ} {P P' Q : σ → Prop} {s t : σ} {a : α}

/-- Some steps, which come to states in `Q` only, lead to a state in `P`. -/
def Leads (step : σ → α → Option σ) (Q P : σ → Prop) (s : σ) : Prop :=
  ∃ as t, run step s as = some t ∧ EveryStep step (fun _ _ u => Q u) s as ∧ P t

theorem leads_refl (h : P s) : Leads step Q P s := ⟨[], s, rfl, trivial, h⟩

theorem leads_cons (hstep : step s a = some t) (ht : Q t) (h : Leads step Q P t) :
    Leads step Q P s := by
  obtain ⟨as, u, hrun, hall, hu⟩ := h
  exact ⟨a :: as, u, run_cons.mpr ⟨t, hstep, hrun⟩, .cons hstep ht hall, hu⟩

/-- **Sequence rule.** Steps may be followed by more steps from where they lead. -/
theorem Leads.trans (h : Leads step Q P s) (h' : ∀ t, P t → Leads step Q P' t) :
    Leads step Q P' s := by
  obtain ⟨as, t, hrun, hall, ht⟩ := h
  induction as generalizing s with
  | nil =>
    obtain rfl : s = t := by simpa using hrun
    exact h' s ht
  | cons a as ih =>
    obtain ⟨u, hstep, hrest⟩ := run_cons.mp hrun
    obtain ⟨hu, hlater⟩ := hall u hstep
    exact leads_cons hstep hu (ih hrest hlater)

end Leads

end Runs
