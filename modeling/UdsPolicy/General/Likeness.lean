import Mathlib.Data.List.Forall2
import Mathlib.Logic.Function.Basic
import UdsPolicy.General.Conduct

/-!
# Programs that look alike

An observer sees something of every command and something of every reply. Two
programs look alike if their commands do, as long as the replies do: whatever the
observer does not see in the replies then has no influence on anything that is
seen. The rules follow the way the programs are put together, and lead from the
programs to any two of their runs.
-/

namespace Prog

variable {C A B : Type} {R : C → Type} {α α' β β' : Type}

/-- The two programs look alike, and what they return is related by `Q`; `ask` is what is seen
of a command, and `hear` what is seen of a reply. -/
inductive Alike (ask : C → A) (hear : (c : C) → R c → B) (Q : α → α' → Prop) :
    Prog C R α → Prog C R α' → Prop
  /-- Both return. -/
  | ret {a : α} {a' : α'} : Q a a' → Alike ask hear Q (.ret a) (.ret a')
  /-- Both issue a command that looks the same, and go on alike after replies that do. -/
  | call {c c' : C} {k : R c → Prog C R α} {k' : R c' → Prog C R α'} : ask c = ask c' →
      (∀ r r', hear c r = hear c' r' → Alike ask hear Q (k r) (k' r')) →
      Alike ask hear Q (.call c k) (.call c' k')

section Rules

variable {ask : C → A} {hear : (c : C) → R c → B} {P : α → α' → Prop} {Q : β → β' → Prop}
  {g h : Prog C R α} {g' h' : Prog C R α'}

/-- **Sequence rule.** -/
theorem Alike.bind {f : α → Prog C R β} {f' : α' → Prog C R β'} (hg : Alike ask hear P g g')
    (hf : ∀ a a', P a a' → Alike ask hear Q (f a) (f' a')) :
    Alike ask hear Q (g >>= f) (g' >>= f') := by
  induction hg with
  | ret ha => exact hf _ _ ha
  | call hask _ ih => exact .call hask fun r r' hsame => ih r r' hsame

/-- A program looks like itself if everything is seen of the replies to its commands. -/
theorem alike_self {K : C → Prop} (hg : Only K g)
    (hhear : ∀ c, K c → Function.Injective (hear c)) : Alike ask hear (· = ·) g g := by
  induction g with
  | ret a => exact .ret rfl
  | call c k ih =>
    refine .call rfl fun r r' hsame => ?_
    obtain rfl := hhear c hg.1 hsame
    exact ih r (conducts_of_only (hg.2 r))

/-- **Loop rule.** -/
theorem alike_repeatWhile {cond : β → Bool} {body : β → Prog C R β} {n : ℕ} {b : β}
    (hbody : ∀ b, Alike ask hear (· = ·) (body b) (body b)) :
    Alike ask hear (· = ·) (repeatWhile cond body n b) (repeatWhile cond body n b) := by
  induction n generalizing b with
  | zero => exact .ret rfl
  | succ n ih =>
    unfold repeatWhile
    split
    · refine (hbody b).bind ?_
      rintro b' _ rfl
      exact ih
    · exact .ret rfl

/-- **Runs.** If whenever the same has been asked the same has been heard, then the same has been
asked all the time, and what is left of the two programs looks alike. -/
theorem Alike.runs {run run' : List (Done C R)} (hg : Alike ask hear P g g')
    (hrun : Issues g run h) (hrun' : Issues g' run' h')
    (hsame : List.Forall₂ (fun e e' => ask (Done.call e) = ask (Done.call e') →
      hear e.call e.reply = hear e'.call e'.reply) run run') :
    List.Forall₂ (fun e e' => ask (Done.call e) = ask (Done.call e')) run run' ∧
      Alike ask hear P h h' := by
  induction hg generalizing run run' with
  | ret ha =>
    cases hrun
    cases hrun'
    exact ⟨.nil, .ret ha⟩
  | call hask hk ih =>
    cases hrun with
    | refl =>
      cases hsame
      cases hrun'
      exact ⟨.nil, .call hask hk⟩
    | step hrest =>
      cases hrun' with
      | refl => cases hsame
      | step hrest' =>
        obtain ⟨hheard, hlater⟩ := List.forall₂_cons.mp hsame
        obtain ⟨hasked, hleft⟩ := ih _ _ (hheard hask) hrest hrest' hlater
        exact ⟨.cons hask hasked, hleft⟩

end Rules

end Prog
