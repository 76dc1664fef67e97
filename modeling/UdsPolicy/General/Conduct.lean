import UdsPolicy.General.Programs

/-!
# Histories, and what a program does after them

Whoever answers a program's commands, what it has done so far is a history: the
commands it has issued, with the replies to them. A program conducts itself by
`P` if it issues a command only after a history that `P` permits for it. Every
safety property of runs is of this form, and the rules below follow the way a
program is put together. A part that is written over fewer commands is embedded
by interpreting each of them.
-/

namespace Prog

variable {C D : Type} {R : C → Type} {S : D → Type} {α β : Type}

/-- A command that has been answered. -/
structure Done (C : Type) (R : C → Type) where
  /-- The command. -/
  call : C
  /-- The reply to it. -/
  reply : R call

/-- The program can issue some commands with these replies, and then goes on as another. -/
inductive Issues : Prog C R α → List (Done C R) → Prog C R α → Prop
  /-- It has issued nothing so far. -/
  | refl (g : Prog C R α) : Issues g [] g
  /-- It issues its next command, and goes on with the reply. -/
  | step {c : C} {k : R c → Prog C R α} {r : R c} {past : List (Done C R)} {h : Prog C R α} :
      Issues (k r) past h → Issues (.call c k) (⟨c, r⟩ :: past) h

/-- From a history on, the program issues a command only where `P` permits it, and what it
returns is related to the history by `Q`. -/
def Conducts (P : List (Done C R) → C → Prop) (Q : α → List (Done C R) → Prop) :
    List (Done C R) → Prog C R α → Prop
  | past, .ret a => Q a past
  | past, .call c k => P past c ∧ ∀ r, Conducts P Q (past ++ [⟨c, r⟩]) (k r)

section Rules

variable {P P' : List (Done C R) → C → Prop} {Q Q' : α → List (Done C R) → Prop}
  {past : List (Done C R)} {g h : Prog C R α} {f : α → Prog C R β}

@[simp] theorem conducts_ret {a : α} : Conducts P Q past (.ret a) ↔ Q a past := Iff.rfl

@[simp] theorem conducts_pure {a : α} : Conducts P Q past (pure a) ↔ Q a past := Iff.rfl

/-- A weaker property, and a weaker relation for the result. -/
theorem Conducts.mono (hg : Conducts P Q past g) (hP : ∀ past c, P past c → P' past c)
    (hQ : ∀ a past, Q a past → Q' a past) : Conducts P' Q' past g := by
  induction g generalizing past with
  | ret a => exact hQ a past hg
  | call c k ih => exact ⟨hP past c hg.1, fun r => ih r (hg.2 r)⟩

/-- A weaker relation for the result. -/
theorem Conducts.imp (hg : Conducts P Q past g) (hQ : ∀ a past, Q a past → Q' a past) :
    Conducts P Q' past g :=
  hg.mono (fun _ _ h => h) hQ

/-- **Sequence rule.** What follows starts from the history that the first part leaves. -/
theorem conducts_bind {Q : β → List (Done C R) → Prop} : Conducts P Q past (g >>= f) ↔
    Conducts P (fun a past => Conducts P Q past (f a)) past g := by
  induction g generalizing past with
  | ret a => exact Iff.rfl
  | call c k ih =>
    show (P past c ∧ ∀ r, Conducts P Q _ (k r >>= f)) ↔ P past c ∧ ∀ r, Conducts P _ _ (k r)
    simp only [ih]

/-- A command, and what follows it. -/
theorem conducts_issue_bind {c : C} {f : R c → Prog C R α} : Conducts P Q past (issue c >>= f) ↔
    P past c ∧ ∀ r, Conducts P Q (past ++ [⟨c, r⟩]) (f r) :=
  Iff.rfl

/-- **Soundness.** A run of the program only issues commands that are permitted, and what is
left of the program conducts itself from the longer history. -/
theorem Conducts.sound (hg : Conducts P Q past g) {run : List (Done C R)} (hrun : Issues g run h) :
    Conducts P Q (past ++ run) h ∧
      ∀ before e after, run = before ++ e :: after → P (past ++ before) e.call := by
  induction hrun generalizing past with
  | refl g =>
    rw [List.append_nil]
    exact ⟨hg, fun before e after h => by simp at h⟩
  | @step c k r run h _ ih =>
    obtain ⟨hrest, hall⟩ := ih (hg.2 r)
    rw [List.append_assoc] at hrest
    refine ⟨hrest, fun before e after heq => ?_⟩
    cases before with
    | nil =>
      obtain ⟨rfl, -⟩ := List.cons.inj heq
      rw [List.append_nil]
      exact hg.1
    | cons e' before =>
      obtain ⟨rfl, htail⟩ := List.cons.inj heq
      have hlater := hall before e after htail
      rwa [List.append_assoc] at hlater

/-- **Trace rule.** What the history is longer by is a complete run. -/
theorem Conducts.traced (hg : Conducts P Q past g) : Conducts P
    (fun a past' => Q a past' ∧ ∃ run, past' = past ++ run ∧ Issues g run (.ret a)) past g := by
  induction g generalizing past with
  | ret a => exact ⟨hg, [], (List.append_nil past).symm, .refl _⟩
  | call c k ih =>
    refine ⟨hg.1, fun r => (ih r (hg.2 r)).imp ?_⟩
    rintro a past' ⟨hQ, run, rfl, hrun⟩
    exact ⟨hQ, ⟨c, r⟩ :: run, List.append_assoc .., .step hrun⟩

/-- What a completed run returns is related to its history. -/
theorem Conducts.result {a : α} {run : List (Done C R)} (hg : Conducts P Q [] g)
    (hrun : Issues g run (.ret a)) : Q a run :=
  (hg.sound hrun).1

end Rules

/-! ### Parts that issue few kinds of commands -/

/-- The program issues no other commands than those in `K`. -/
def Only (K : C → Prop) (g : Prog C R α) : Prop := Conducts (fun _ => K) (fun _ _ => True) [] g

section Parts

variable {K K' : C → Prop} {P : List (Done C R) → C → Prop} {past : List (Done C R)}
  {g : Prog C R α} {f : α → Prog C R β}

/-- Where commands are permitted whatever has gone before, the history does not matter. -/
theorem conducts_of_only {past' : List (Done C R)}
    (hg : Conducts (fun _ => K) (fun _ _ => True) past g) :
    Conducts (fun _ => K) (fun _ _ => True) past' g := by
  induction g generalizing past past' with
  | ret a => trivial
  | call c k ih => exact ⟨hg.1, fun r => ih r (hg.2 r)⟩

theorem only_pure {a : α} : Only K (pure a : Prog C R α) := trivial

theorem only_issue {c : C} (hc : K c) : Only K (issue c : Prog C R (R c)) := ⟨hc, fun _ => trivial⟩

theorem Only.bind (hg : Only K g) (hf : ∀ a, Only K (f a)) : Only K (g >>= f) := by
  apply conducts_bind.mpr
  exact Conducts.imp hg fun a _ _ => conducts_of_only (hf a)

theorem Only.mono (hg : Only K g) (hK : ∀ c, K c → K' c) : Only K' g :=
  Conducts.mono hg (fun _ => hK) fun _ _ h => h

/-- **Part rule.** A part whose commands are permitted at all of its moments conducts itself, and
makes the history longer by commands of its kinds. -/
theorem Only.conducts (hg : Only K g)
    (hP : ∀ part c, (∀ e ∈ part, K (Done.call e)) → K c → P (past ++ part) c) :
    Conducts P (fun _ past' => ∃ part, past' = past ++ part ∧ ∀ e ∈ part, K (Done.call e))
      past g := by
  have hfrom (part : List (Done C R)) (hpart : ∀ e ∈ part, K (Done.call e)) (g : Prog C R α)
      (hg : Only K g) :
      Conducts P (fun _ past' => ∃ part, past' = past ++ part ∧ ∀ e ∈ part, K (Done.call e))
        (past ++ part) g := by
    induction g generalizing part with
    | ret a => exact ⟨part, rfl, hpart⟩
    | call c k ih =>
      refine ⟨hP part c hpart hg.1, fun r => ?_⟩
      rw [List.append_assoc]
      apply ih r
      · intro e he
        rcases List.mem_append.mp he with he | he
        · exact hpart e he
        · obtain rfl := List.mem_singleton.mp he
          exact hg.1
      · exact conducts_of_only (hg.2 r)
  have hall := hfrom [] nofun g hg
  rwa [List.append_nil] at hall

end Parts

/-- A program over the commands `C`, each of them interpreted by a program over `D`. -/
def interpret (i : (c : C) → Prog D S (R c)) : Prog C R α → Prog D S α
  | .ret a => .ret a
  | .call c k => (i c).bind fun r => (k r).interpret i

section Interpretation

variable {i : (c : C) → Prog D S (R c)} {K : D → Prop} {g : Prog C R α}

/-- An interpreted program issues what the interpretations of its commands issue. -/
theorem only_interpret (hi : ∀ c, Only K (i c)) : Only K (g.interpret i) := by
  induction g with
  | ret a => trivial
  | call c k ih => exact (hi c).bind ih

end Interpretation

/-! ### Loops -/

/-- Repeat `body` while `cond` holds; `none` if that takes more than `n` turns. -/
def repeatWhile (cond : β → Bool) (body : β → Prog C R β) : ℕ → β → Prog C R (Option β)
  | 0, _ => .ret none
  | n + 1, b => if cond b then (body b).bind (repeatWhile cond body n) else .ret (some b)

/-- Complete turns of a loop, one after another, that lead from one value to another. -/
inductive Laps (cond : β → Bool) (body : β → Prog C R β) : β → List (List (Done C R)) → β → Prop
  /-- No turn at all. -/
  | nil (b : β) : Laps cond body b [] b
  /-- A first turn, and the others. -/
  | cons {b b' b'' : β} {lap : List (Done C R)} {laps : List (List (Done C R))} :
      cond b = true → Issues (body b) lap (.ret b') → Laps cond body b' laps b'' →
      Laps cond body b (lap :: laps) b''

/-- **Loop rule.** Where every turn keeps what is known at its start, the loop conducts itself as
its turns do. -/
theorem conducts_repeatWhile {P : List (Done C R) → C → Prop} {I : β → List (Done C R) → Prop}
    {cond : β → Bool} {body : β → Prog C R β} {past : List (Done C R)}
    (hbody : ∀ b past, cond b = true → I b past → Conducts P I past (body b)) (n : ℕ) (b : β)
    (h : I b past) : Conducts P (fun _ _ => True) past (repeatWhile cond body n b) := by
  induction n generalizing b past with
  | zero => trivial
  | succ n ih =>
    unfold repeatWhile
    split
    · rename_i hcond
      apply conducts_bind.mpr
      exact (hbody b past hcond h).imp fun b' past' h' => ih b' h'
    · trivial

/-- A loop issues what its turns issue. -/
theorem only_repeatWhile {K : C → Prop} {cond : β → Bool} {body : β → Prog C R β}
    (hbody : ∀ b, Only K (body b)) (n : ℕ) (b : β) : Only K (repeatWhile cond body n b) :=
  conducts_repeatWhile (fun b _ _ _ => conducts_of_only (hbody b)) n b trivial

section Loops

variable {past : List (Done C R)} {cond : β → Bool} {body : β → Prog C R β} {n : ℕ} {b : β}
  {g h : Prog C R α}

/-- The run of a sequence is in the first part, or has gone through it into the second. -/
theorem issues_bind {f : α → Prog C R β} {h : Prog C R β} (hrun : Issues (g.bind f) past h) :
    (∃ c k, Issues g past (.call c k) ∧ h = (Prog.call c k).bind f) ∨
      ∃ a first second, past = first ++ second ∧ Issues g first (.ret a) ∧
        Issues (f a) second h := by
  induction g generalizing past with
  | ret a => exact .inr ⟨a, [], past, rfl, .refl _, hrun⟩
  | call c k ih =>
    change Issues (.call c fun r => (k r).bind f) past h at hrun
    cases hrun with
    | refl => exact .inl ⟨c, k, .refl _, rfl⟩
    | step hrest =>
      rcases ih _ hrest with ⟨c', k', hfirst, rfl⟩ | ⟨a, first, second, rfl, hfirst, hsecond⟩
      · exact .inl ⟨c', k', .step hfirst, rfl⟩
      · exact .inr ⟨a, _ :: first, second, rfl, .step hfirst, hsecond⟩

/-- **Loop decomposition.** A run of a loop is a number of complete turns, followed by what has
been done of another turn if the loop has not ended. It has given up only after `n` turns. -/
theorem issues_repeatWhile {h : Prog C R (Option β)}
    (hrun : Issues (repeatWhile cond body n b) past h) :
    ∃ laps b' part, past = laps.flatten ++ part ∧ Laps cond body b laps b' ∧
      ((∃ c k, cond b' = true ∧ Issues (body b') part (.call c k) ∧ ∀ o, h ≠ .ret o) ∨
        part = [] ∧ (h = .ret none ∧ laps.length = n ∨ h = .ret (some b') ∧ cond b' = false)) := by
  induction n generalizing b past with
  | zero =>
    cases hrun
    exact ⟨[], b, [], rfl, .nil b, .inr ⟨rfl, .inl ⟨rfl, rfl⟩⟩⟩
  | succ n ih =>
    unfold repeatWhile at hrun
    split at hrun
    · rename_i hcond
      rcases issues_bind hrun with ⟨c, k, hpart, rfl⟩ | ⟨b', lap, rest, rfl, hlap, hrest⟩
      · exact ⟨[], b, past, rfl, .nil b, .inl ⟨c, k, hcond, hpart, nofun⟩⟩
      · obtain ⟨laps, b'', part, rfl, hlaps, hend⟩ := ih hrest
        refine ⟨lap :: laps, b'', part, ?_, .cons hcond hlap hlaps, ?_⟩
        · rw [List.flatten_cons, List.append_assoc]
        · rw [List.length_cons, Nat.add_right_cancel_iff]
          exact hend
    · rename_i hcond
      cases hrun
      exact ⟨[], b, [], rfl, .nil b, .inr ⟨rfl, .inr ⟨rfl, by simpa using hcond⟩⟩⟩

/-- Every lap is a complete turn. -/
theorem Laps.complete {b' : β} {laps : List (List (Done C R))} (h : Laps cond body b laps b') :
    ∀ lap ∈ laps, ∃ b₁ b₂, Issues (body b₁) lap (.ret b₂) := by
  induction h with
  | nil => exact nofun
  | cons _ hlap _ ih => exact List.forall_mem_cons.mpr ⟨⟨_, _, hlap⟩, ih⟩

/-- Runs are continued by runs of what is left. -/
theorem Issues.append {past' : List (Done C R)} {h' : Prog C R α} (hrun : Issues g past h)
    (hrest : Issues h past' h') : Issues g (past ++ past') h' := by
  induction hrun with
  | refl => exact hrest
  | step _ ih => exact .step (ih hrest)

/-- Where every command has a reply, every run can be completed. -/
theorem Issues.completed (hreply : ∀ c, Nonempty (R c)) (hrun : Issues g past h) :
    ∃ rest a, Issues g (past ++ rest) (.ret a) := by
  have hall (h : Prog C R α) : ∃ rest a, Issues h rest (.ret a) := by
    induction h with
    | ret a => exact ⟨[], a, .refl _⟩
    | call c k ih =>
      obtain ⟨r⟩ := hreply c
      obtain ⟨rest, a, hrest⟩ := ih r
      exact ⟨⟨c, r⟩ :: rest, a, .step hrest⟩
  obtain ⟨rest, a, hrest⟩ := hall h
  exact ⟨rest, a, hrun.append hrest⟩

end Loops

/-! ### Places in a history -/

section Places

variable {β : Type} {p : β → Bool}

/-- A list splits at its only element of a kind in one way only. -/
theorem eq_of_split {l₁ l₂ m₁ m₂ : List β} {x y : β} (h : l₁ ++ x :: l₂ = m₁ ++ y :: m₂)
    (hx : p x = true) (hm₁ : ∀ z ∈ m₁, p z = false) (hm₂ : ∀ z ∈ m₂, p z = false) :
    l₁ = m₁ ∧ x = y ∧ l₂ = m₂ := by
  induction l₁ generalizing m₁ with
  | nil =>
    cases m₁ with
    | nil => simpa using h
    | cons z m₁ =>
      obtain ⟨rfl, -⟩ := List.cons.inj h
      have hnot := hm₁ x List.mem_cons_self
      rw [hx] at hnot
      cases hnot
  | cons z l₁ ih =>
    cases m₁ with
    | nil =>
      obtain ⟨rfl, rfl⟩ := List.cons.inj h
      have hnot := hm₂ x (by simp)
      rw [hx] at hnot
      cases hnot
    | cons z' m₁ =>
      obtain ⟨rfl, htail⟩ := List.cons.inj h
      obtain ⟨rfl, rfl, rfl⟩ := ih htail fun w hw => hm₁ w (List.mem_cons_of_mem _ hw)
      exact ⟨rfl, rfl, rfl⟩

/-- An element of a concatenation is in one of the lists. -/
theorem exists_mem_of_flatten_eq {ls : List (List β)} {before after : List β} {x : β}
    (h : ls.flatten = before ++ x :: after) :
    ∃ earlier l₁ l₂, l₁ ++ x :: l₂ ∈ ls ∧ before = earlier ++ l₁ := by
  induction ls generalizing before with
  | nil => simp at h
  | cons l ls ih =>
    rw [List.flatten_cons] at h
    rcases List.append_eq_append_iff.mp h with ⟨rest, rfl, hrest⟩ | ⟨rest, rfl, hrest⟩
    · obtain ⟨earlier, l₁, l₂, hmem, rfl⟩ := ih hrest
      exact ⟨l ++ earlier, l₁, l₂, List.mem_cons_of_mem _ hmem, (List.append_assoc ..).symm⟩
    · cases rest with
      | nil =>
        have hfirst : ls.flatten = [] ++ x :: after := hrest.symm
        obtain ⟨earlier, l₁, l₂, hmem, hnil⟩ := ih hfirst
        refine ⟨before ++ earlier, l₁, l₂, List.mem_cons_of_mem _ (by simpa using hmem), ?_⟩
        rw [List.append_assoc, ← hnil, List.append_nil]
      | cons y rest =>
        obtain ⟨rfl, rfl⟩ := List.cons.inj hrest
        exact ⟨[], before, rest, List.mem_cons_self, rfl⟩

end Places

end Prog
