import Mathlib.Logic.Relation
import UdsPolicy.General.Simulation

/-!
# Histories with surroundings that do not stand still

A history is performed while its surroundings change as they like between any two
of its events. It can be cut at any place, and an event in it is performed in a
state that the surroundings have led to.
-/

/-- The events of a history are performed one after another, and the surroundings take any
number of steps before each of them and at the end. -/
inductive Accompanied {σ E : Type*} (own : σ → E → σ → Prop) (env : σ → σ → Prop) :
    σ → List E → σ → Prop
  /-- Nothing happens any more. -/
  | nil (s : σ) : Accompanied own env s [] s
  /-- The surroundings take a step. -/
  | env {s t u : σ} {past : List E} :
      env s t → Accompanied own env t past u → Accompanied own env s past u
  /-- The next event is performed. -/
  | own {s t u : σ} {e : E} {past : List E} :
      own s e t → Accompanied own env t past u → Accompanied own env s (e :: past) u

namespace Accompanied

open Relation (ReflTransGen)

variable {σ E : Type*} {own : σ → E → σ → Prop} {env : σ → σ → Prop} {s t u : σ} {e : E}
  {past past' : List E}

/-- Without an event, only the surroundings have changed. -/
theorem surroundings (h : Accompanied own env s [] u) : ReflTransGen env s u := by
  generalize hnil : ([] : List E) = past at h
  induction h with
  | nil s => exact .refl
  | env hstep _ ih => exact .head hstep (ih hnil)
  | own => cases hnil

theorem of_surroundings (h : ReflTransGen env s u) : Accompanied own env s [] u := by
  induction h using ReflTransGen.head_induction_on with
  | refl => exact .nil u
  | head hstep _ ih => exact .env hstep ih

/-- Two histories, one after the other. -/
theorem append (h : Accompanied own env s past t) (h' : Accompanied own env t past' u) :
    Accompanied own env s (past ++ past') u := by
  induction h with
  | nil s => exact h'
  | env hstep _ ih => exact .env hstep (ih h')
  | own hown _ ih => exact .own hown (ih h')

/-- **Cut.** A history is performed by performing its beginning and then the rest. -/
theorem cut (h : Accompanied own env s (past ++ past') u) :
    ∃ t, Accompanied own env s past t ∧ Accompanied own env t past' u := by
  generalize hall : past ++ past' = all at h
  induction h generalizing past with
  | nil s =>
    obtain ⟨rfl, rfl⟩ := List.append_eq_nil_iff.mp hall
    exact ⟨s, .nil s, .nil s⟩
  | env hstep _ ih =>
    obtain ⟨t, hpast, hpast'⟩ := ih hall
    exact ⟨t, .env hstep hpast, hpast'⟩
  | @own s _ _ _ _ hown hrest ih =>
    cases past with
    | nil =>
      rw [List.nil_append] at hall
      subst hall
      exact ⟨s, .nil s, .own hown hrest⟩
    | cons e past =>
      obtain ⟨rfl, htail⟩ := List.cons.inj hall
      obtain ⟨t, hpast, hpast'⟩ := ih htail
      exact ⟨t, .own hown hpast, hpast'⟩

/-- **Inversion.** The first event is performed in a state that the surroundings have led to. -/
theorem first (h : Accompanied own env s (e :: past) u) :
    ∃ t t', ReflTransGen env s t ∧ own t e t' ∧ Accompanied own env t' past u := by
  generalize hall : e :: past = all at h
  induction h with
  | nil s => cases hall
  | env hstep _ ih =>
    obtain ⟨t, t', hsurroundings, hown⟩ := ih hall
    exact ⟨t, t', .head hstep hsurroundings, hown⟩
  | @own s t _ _ _ hown hrest _ =>
    cases hall
    exact ⟨s, t, .refl, hown, hrest⟩

/-- Events that change nothing can be left out. -/
theorem filter {p : E → Bool} (hp : ∀ s e t, own s e t → p e = false → s = t)
    (h : Accompanied own env s past u) : Accompanied own env s (past.filter p) u := by
  induction h with
  | nil s => exact .nil s
  | env hstep _ ih => exact .env hstep ih
  | @own s t _ e _ hown _ ih =>
    cases he : p e with
    | true =>
      rw [List.filter_cons_of_pos he]
      exact .own hown ih
    | false =>
      obtain rfl := hp s e t hown he
      rw [List.filter_cons_of_neg (by simp [he])]
      exact ih

/-- **Relation rule.** What the surroundings and the events of a history keep holds between the
two ends of it. -/
theorem relates {R : σ → σ → Prop} {p : E → Prop} (hrefl : ∀ s, R s s)
    (htrans : ∀ s t u, R s t → R t u → R s u) (henv : ∀ s t, env s t → R s t)
    (hown : ∀ s e t, p e → own s e t → R s t) (h : Accompanied own env s past u)
    (hpast : ∀ e ∈ past, p e) : R s u := by
  induction h with
  | nil s => exact hrefl s
  | env hstep _ ih => exact htrans _ _ _ (henv _ _ hstep) (ih hpast)
  | own hstep _ ih =>
    obtain ⟨hfirst, hrest⟩ := List.forall_mem_cons.mp hpast
    exact htrans _ _ _ (hown _ _ _ hfirst hstep) (ih hrest)

/-- **Simulation rule.** Where another system can follow every step of the surroundings and every
event of a history, it can follow the whole of it. What relates the two may depend on what has
been done so far. -/
theorem follows {τ α : Type*} {step : τ → α → Option τ} {R : List E → σ → τ → Prop}
    {Q : τ → Prop} {all : List E} {t : τ}
    (henv : ∀ past s s' t, env s s' → R past s t → Runs.Leads step Q (R past s') t)
    (hown : ∀ past e rest s s' t, all = past ++ e :: rest → own s e s' → R past s t →
      Runs.Leads step Q (R (past ++ [e]) s') t)
    (h : Accompanied own env s all u) (ht : R [] s t) : Runs.Leads step Q (R all u) t := by
  have hfrom (past rest : List E) (s : σ) (t : τ) (hall : all = past ++ rest)
      (hrest : Accompanied own env s rest u) (ht : R past s t) :
      Runs.Leads step Q (R all u) t := by
    clear h
    induction hrest generalizing past t with
    | nil s =>
      rw [List.append_nil] at hall
      rw [hall]
      exact Runs.leads_refl ht
    | env hstep _ ih => exact (henv _ _ _ _ hstep ht).trans fun t' ht' => ih past t' hall ht'
    | @own _ _ _ e _ hstep _ ih =>
      refine (hown _ _ _ _ _ _ hall hstep ht).trans fun t' ht' => ih (past ++ [e]) t' ?_ ht'
      rw [hall, List.append_assoc]
      rfl
  exact hfrom [] all s t rfl h ht

end Accompanied
