import Mathlib.Logic.Function.Basic
import Mathlib.Tactic.TypeStar
import Mathlib.Data.Nat.Notation

/-!
# Tenancy of a name

Agents compete for one name. An agent that finds the name free makes a new thing
and puts it under the name; while it holds the thing it is the tenant. A thing
that nobody holds any more may be left under the name, and an agent that has
probed the name and found nobody behind it may clear it away. The moves below
are those of disciplined agents: what is cleared away is unheld, and what a
tenant takes down is its own. Breaches are the three ways of breaking the
discipline. Disciplined moves keep every tenant under the name.
-/

namespace Tenancy

variable {A : Type*}

/-- Where an agent stands. -/
inductive Phase
  /-- Neither holding a thing nor about to clear one away. -/
  | away
  /-- Has found nobody behind the name, when `mark` things had been made. -/
  | cleared (mark : ℕ)
  /-- Holds the thing `i`, which it has put under the name and not taken down. -/
  | tenant (i : ℕ)
  /-- Still holds the thing `i` after giving up the name. -/
  | leaving (i : ℕ)
  deriving DecidableEq, Repr

/-- The thing an agent holds. -/
def Phase.thing : Phase → Option ℕ
  | .tenant i | .leaving i => some i
  | .away | .cleared _ => none

@[simp] theorem Phase.thing_away : Phase.away.thing = none := rfl
@[simp] theorem Phase.thing_cleared (m : ℕ) : (Phase.cleared m).thing = none := rfl
@[simp] theorem Phase.thing_tenant (i : ℕ) : (Phase.tenant i).thing = some i := rfl
@[simp] theorem Phase.thing_leaving (i : ℕ) : (Phase.leaving i).thing = some i := rfl

/-- The thing under the name, the holder of each thing (`some none` is an outsider), the
number of things made, and the phases. -/
structure State (A : Type*) where
  /-- The thing under the name. -/
  sign : Option ℕ
  /-- Who holds a thing. -/
  holder : ℕ → Option (Option A)
  /-- How many things have been made. -/
  made : ℕ
  /-- Where the agents stand. -/
  phase : A → Phase

namespace State

/-- Nobody holds what the name shows. -/
def Unheld (s : State A) : Prop := ∀ i, s.sign = some i → s.holder i = none

/-- What the agents' phases and the holders of things have to do with each other in every
reachable state, disciplined or not. -/
structure Sound (s : State A) : Prop where
  /-- Only things already made are under the name. -/
  sign_lt : ∀ {i}, s.sign = some i → i < s.made
  /-- Only things already made are held. -/
  holder_lt : ∀ {i}, s.holder i ≠ none → i < s.made
  /-- An agent holds exactly the thing that its phase says. -/
  holder_iff : ∀ {i a}, s.holder i = some (some a) ↔ (s.phase a).thing = some i
  /-- An agent that has probed the name has seen everything made before. -/
  mark_le : ∀ {a m}, s.phase a = .cleared m → m ≤ s.made
  /-- What was under the name at a probe and still is there, nobody holds. -/
  cleared : ∀ {a m i}, s.phase a = .cleared m → s.sign = some i → i < m → s.holder i = none

/-- Every tenant's thing is the one under the name. -/
def Housed (s : State A) : Prop := ∀ a i, s.phase a = .tenant i → s.sign = some i

/-- Whatever the name shows is held by its tenant or by nobody. -/
def Attended (s : State A) : Prop :=
  ∀ i, s.sign = some i → s.holder i ≠ none → ∃ a, s.phase a = .tenant i

/-- At most one agent is a tenant when all tenants are under the name. -/
theorem Housed.unique {s : State A} (h : s.Housed) (hs : s.Sound) {a b : A} {i j : ℕ}
    (ha : s.phase a = .tenant i) (hb : s.phase b = .tenant j) : a = b := by
  have hij : i = j := Option.some.inj ((h a i ha).symm.trans (h b j hb))
  subst j
  have hholda : s.holder i = some (some a) := hs.holder_iff.mpr (by rw [ha]; rfl)
  have hholdb : s.holder i = some (some b) := hs.holder_iff.mpr (by rw [hb]; rfl)
  exact Option.some.inj (Option.some.inj (hholda.symm.trans hholdb))

/-- Take down whatever is under the name. -/
def clear (s : State A) : State A := { s with sign := none }

/-- Taking down the sign keeps a sound state sound. -/
theorem Sound.clear {s : State A} (h : s.Sound) : s.clear.Sound where
  sign_lt hi := by cases hi
  holder_lt hi := h.holder_lt hi
  holder_iff := h.holder_iff
  mark_le := h.mark_le
  cleared _ hi := by cases hi

/-- Let go of a thing. -/
def release (s : State A) (i : ℕ) : State A :=
  { s with holder := Function.update s.holder i none }

/-- An outsider letting go of its thing keeps a sound state sound. -/
theorem Sound.outsiderQuits {s : State A} {i : ℕ} (h : s.Sound)
    (hi : s.holder i = some none) : (s.release i).Sound where
  sign_lt := h.sign_lt
  holder_lt {j} hj := by
    by_cases hij : j = i
    · subst j
      simp [State.release] at hj
    · exact h.holder_lt (by simpa [State.release, hij] using hj)
  holder_iff {j b} := by
    by_cases hij : j = i
    · subst hij
      have hne : (s.phase b).thing ≠ some j := fun hb => by
        simp [h.holder_iff.mpr hb] at hi
      simp [State.release, hne]
    · simpa [State.release, hij] using h.holder_iff
  mark_le := h.mark_le
  cleared {b m j} hm hj hlt := by
    have := h.cleared hm hj hlt
    simp only [State.release, Function.update_apply]
    split <;> simp [this]

end State

section Moves

variable [DecidableEq A]

/-- Change an agent's phase. -/
def State.enter (s : State A) (a : A) (p : Phase) : State A :=
  { s with phase := Function.update s.phase a p }

/-- Entering the phase one is in changes nothing. -/
theorem State.enter_self {s : State A} {a : A} {p : Phase} (h : s.phase a = p) :
    s.enter a p = s := by
  subst h
  simp [State.enter]

/-- Make a thing, hold it and put it under the name. -/
def State.settle (s : State A) (a : A) : State A :=
  { sign := some s.made
    holder := Function.update s.holder s.made (some (some a))
    made := s.made + 1
    phase := Function.update s.phase a (.tenant s.made) }

/-- The moves of disciplined agents, and of outsiders that only let go of things. -/
inductive Move : State A → State A → Prop
  | stay (s : State A) : Move s s
  | probe {s : State A} (a : A) : s.phase a = .away → s.Unheld →
      Move s (s.enter a (.cleared s.made))
  | forget {s : State A} (a : A) {m : ℕ} : s.phase a = .cleared m → Move s (s.enter a .away)
  | evict {s : State A} (a : A) {m : ℕ} : s.phase a = .cleared m → s.Unheld →
      Move s (s.clear.enter a .away)
  | settle {s : State A} (a : A) : s.phase a = .away → s.sign = none → Move s (s.settle a)
  | vacate {s : State A} (a : A) {i : ℕ} : s.phase a = .tenant i → (∀ j, s.sign = some j → j = i) →
      Move s (s.clear.enter a (.leaving i))
  | abandon {s : State A} (a : A) {i : ℕ} : s.phase a = .tenant i → Move s (s.enter a (.leaving i))
  | quit {s : State A} (a : A) {i : ℕ} : (s.phase a).thing = some i →
      Move s ((s.release i).enter a .away)
  | outsiderQuits {s : State A} {i : ℕ} : s.holder i = some none → Move s (s.release i)

/-- The breaches of the discipline: an outsider takes the sign down, a stale probe clears
away a held thing, or a tenant takes down what is not its own. -/
inductive Breach : State A → State A → Prop
  | strip (s : State A) : Breach s s.clear
  | evict {s : State A} (a : A) {m : ℕ} : s.phase a = .cleared m → ¬s.Unheld →
      Breach s (s.clear.enter a .away)
  | vacate {s : State A} (a : A) {i j : ℕ} : s.phase a = .tenant i → s.sign = some j → j ≠ i →
      Breach s (s.clear.enter a (.leaving i))

namespace State

variable {s : State A} {a : A} {i : ℕ} {p : Phase}

/-- A change between two phases that hold the same thing keeps a sound state sound, if a
new mark is justified by a probe. -/
theorem Sound.enter (h : s.Sound) (hthing : p.thing = (s.phase a).thing)
    (hmark : ∀ m, p = .cleared m → m ≤ s.made ∧ ∀ i, s.sign = some i → i < m → s.holder i = none) :
    (s.enter a p).Sound where
  sign_lt := h.sign_lt
  holder_lt := h.holder_lt
  holder_iff {i b} := by
    by_cases hb : b = a
    · subst b
      simpa [State.enter, hthing] using h.holder_iff
    · simpa [State.enter, hb] using h.holder_iff
  mark_le {b m} hm := by
    by_cases hb : b = a
    · subst b
      exact (hmark m (by simpa [State.enter] using hm)).1
    · exact h.mark_le (by simpa [State.enter, hb] using hm)
  cleared {b m i} hm hi hlt := by
    by_cases hb : b = a
    · subst b
      exact (hmark m (by simpa [State.enter] using hm)).2 i hi hlt
    · exact h.cleared (a := b) (by simpa [State.enter, hb] using hm) hi hlt

/-- Letting go of a thing keeps a sound state sound, once no agent claims to hold it. -/
theorem Sound.quit (h : s.Sound) (hi : (s.phase a).thing = some i) :
    ((s.release i).enter a .away).Sound where
  sign_lt := h.sign_lt
  holder_lt {j} hj := by
    by_cases hij : j = i
    · subst j
      simp [State.release, State.enter] at hj
    · exact h.holder_lt (by simpa [State.release, State.enter, hij] using hj)
  holder_iff {j b} := by
    have hown := h.holder_iff (i := j) (a := b)
    have hmine := h.holder_iff.mpr hi
    by_cases hb : b = a <;> by_cases hij : j = i
    · simp [State.release, State.enter, hb, hij]
    · subst b
      have hne : i ≠ j := fun h => hij h.symm
      simp [State.release, State.enter, hij, hown, hi, hne]
    · subst j
      -- The thing had one holder, so no other agent's phase names it.
      have hne : (s.phase b).thing ≠ some i := fun hbi => hb <|
        Option.some.inj (Option.some.inj ((h.holder_iff.mpr hbi).symm.trans hmine))
      simp [State.release, State.enter, hb, hne]
    · simp [State.release, State.enter, hb, hij, hown]
  mark_le {b m} hm := by
    by_cases hb : b = a
    · subst b
      simp [State.enter] at hm
    · exact h.mark_le (a := b) (by simpa [State.enter, State.release, hb] using hm)
  cleared {b m j} hm hj hlt := by
    by_cases hb : b = a
    · subst b
      simp [State.enter] at hm
    · have := h.cleared (a := b) (by simpa [State.enter, State.release, hb] using hm) hj hlt
      simp only [State.enter, State.release, Function.update_apply]
      split <;> simp [this]

/-- Making a new thing keeps a sound state sound: nobody has seen or held it before. -/
theorem Sound.settle (h : s.Sound) (ha : s.phase a = .away) : (s.settle a).Sound where
  sign_lt hi := by
    obtain rfl := Option.some.inj hi
    exact Nat.lt_succ_self _
  holder_lt {j} hj := by
    by_cases hij : j = s.made
    · subst j
      exact Nat.lt_succ_self _
    · exact Nat.lt_succ_of_lt (h.holder_lt (by simpa [State.settle, hij] using hj))
  holder_iff {j b} := by
    have hfresh : s.holder s.made = none := by
      by_contra hne
      exact Nat.lt_irrefl _ (h.holder_lt hne)
    have hown := h.holder_iff (i := j) (a := b)
    by_cases hb : b = a <;> by_cases hij : j = s.made
    · simp [State.settle, hb, hij]
    · subst b
      have hne : s.made ≠ j := fun h => hij h.symm
      simp [State.settle, hij, hown, ha, hne]
    · subst j
      have hab : a ≠ b := fun h => hb h.symm
      simp [State.settle, hb, hab, ← hown, hfresh]
    · simp [State.settle, hb, hij, hown]
  mark_le {b m} hm := by
    by_cases hb : b = a
    · subst b
      simp [State.settle] at hm
    · exact Nat.le_succ_of_le (h.mark_le (a := b) (by simpa [State.settle, hb] using hm))
  cleared {b m j} hm hj hlt := by
    obtain rfl := Option.some.inj hj
    by_cases hb : b = a
    · subst b
      simp [State.settle] at hm
    · have := h.mark_le (a := b) (by simpa [State.settle, hb] using hm)
      exact absurd hlt (Nat.not_lt.mpr this)

end State

open State

/-- Disciplined moves keep a sound state sound. -/
theorem Move.sound {s t : State A} (h : s.Sound) (hm : Move s t) : t.Sound := by
  cases hm with
  | stay => exact h
  | probe a ha hfree =>
    refine h.enter (by rw [ha]; rfl) fun m hm => ?_
    obtain rfl : s.made = m := by simpa using hm
    exact ⟨Nat.le_refl _, fun i hi _ => hfree i hi⟩
  | forget a ha => exact h.enter (by rw [ha]; rfl) (by simp)
  | evict a ha _ => exact h.clear.enter (by rw [State.clear, ha]; rfl) (by simp)
  | settle a ha _ => exact h.settle ha
  | vacate a ha _ => exact h.clear.enter (by rw [State.clear, ha]; rfl) (by simp)
  | abandon a ha => exact h.enter (by rw [ha]; rfl) (by simp)
  | quit a hi => exact h.quit hi
  | outsiderQuits hi => exact h.outsiderQuits hi

/-- Breaches keep a sound state sound as well. -/
theorem Breach.sound {s t : State A} (h : s.Sound) (hm : Breach s t) : t.Sound := by
  cases hm with
  | strip => exact h.clear
  | evict a ha _ => exact h.clear.enter (by rw [State.clear, ha]; rfl) (by simp)
  | vacate a ha _ _ => exact h.clear.enter (by rw [State.clear, ha]; rfl) (by simp)

/-- What an agent holds after a move it held before, or has just made. -/
theorem Move.thing {s t : State A} (hm : Move s t) {b : A} {i : ℕ}
    (hi : (t.phase b).thing = some i) : (s.phase b).thing = some i ∨ i = s.made := by
  have henter {u : State A} {a : A} {p : Phase} (hu : u.phase = s.phase)
      (hp : p.thing = some i → (s.phase a).thing = some i)
      (hi : ((u.enter a p).phase b).thing = some i) : (s.phase b).thing = some i := by
    by_cases hb : b = a
    · subst b
      exact hp (by simpa [State.enter] using hi)
    · simpa [State.enter, hb, hu] using hi
  cases hm with
  | stay | outsiderQuits _ => exact .inl hi
  | probe a ha _ | forget a ha => exact .inl (henter rfl (by simp) hi)
  | evict a ha _ => exact .inl (henter (u := s.clear) rfl (by simp) hi)
  | settle a ha _ =>
    by_cases hb : b = a
    · subst b
      exact .inr (by simpa [State.settle, eq_comm] using hi)
    · exact .inl (by simpa [State.settle, hb] using hi)
  | vacate a ha _ => exact .inl (henter (u := s.clear) rfl (by simp [ha]) hi)
  | abandon a ha => exact .inl (henter rfl (by simp [ha]) hi)
  | @quit a j ha => exact .inl (henter (u := s.release j) rfl (by simp) hi)

/-- What an agent holds after a breach it held before. -/
theorem Breach.thing {s t : State A} (hm : Breach s t) {b : A} {i : ℕ}
    (hi : (t.phase b).thing = some i) : (s.phase b).thing = some i := by
  cases hm with
  | strip => exact hi
  | evict a ha _ =>
    by_cases hb : b = a
    · subst b
      simp [State.enter] at hi
    · simpa [State.enter, State.clear, hb] using hi
  | vacate a ha _ _ =>
    by_cases hb : b = a
    · subst b
      simpa [State.enter, ha] using hi
    · simpa [State.enter, State.clear, hb] using hi

/-- **Tenancy.** Disciplined moves keep every tenant under the name. -/
theorem Move.housed {s t : State A} (hs : s.Sound) (h : s.Housed) (hm : Move s t) : t.Housed := by
  intro b j hb
  cases hm with
  | stay => exact h b j hb
  | probe a ha _ | forget a ha | abandon a ha =>
    by_cases hba : b = a
    · subst b
      simp [State.enter] at hb
    · exact h b j (by simpa [State.enter, hba] using hb)
  | evict a ha hfree =>
    by_cases hba : b = a
    · subst b
      simp [State.enter] at hb
    · have hb' : s.phase b = .tenant j := by simpa [State.enter, State.clear, hba] using hb
      -- A tenant's thing is under the name and held, so it is not cleared away.
      have hheld := hs.holder_iff.mpr (show (s.phase b).thing = some j by rw [hb']; rfl)
      simp [hfree j (h b j hb')] at hheld
  | settle a ha hfree =>
    by_cases hba : b = a
    · subst b
      have : s.made = j := by simpa [State.settle] using hb
      exact congrArg some this
    · have := h b j (by simpa [State.settle, hba] using hb)
      simp [hfree] at this
  | @vacate a i ha hown =>
    by_cases hba : b = a
    · subst b
      simp [State.enter] at hb
    · have hb' : s.phase b = .tenant j := by simpa [State.enter, State.clear, hba] using hb
      exact absurd (h.unique hs hb' ha) hba
  | quit a hi =>
    by_cases hba : b = a
    · subst b
      simp [State.enter] at hb
    · exact h b j (by simpa [State.enter, State.release, hba] using hb)
  | outsiderQuits _ => exact h b j hb

/-- Disciplined moves keep the name attended, as long as nobody gives up a name that still
shows its own thing. -/
theorem Move.attended {s t : State A} (h : s.Attended) (hm : Move s t)
    (hleave : ∀ a i, s.phase a = .tenant i → t.phase a = .leaving i → t.sign ≠ some i) :
    t.Attended := by
  intro i hsign hheld
  have hother {u : State A} {a : A} {p : Phase} (hu : u.phase = s.phase)
      (hne : s.phase a ≠ .tenant i) (hb : ∃ b, s.phase b = .tenant i) :
      ∃ b, (u.enter a p).phase b = .tenant i := by
    obtain ⟨b, hb⟩ := hb
    have hba : b ≠ a := by
      rintro rfl
      exact hne hb
    exact ⟨b, by simp [State.enter, hba, hu, hb]⟩
  cases hm with
  | stay => exact h i hsign hheld
  | probe a ha _ | forget a ha => exact hother rfl (by simp [ha]) (h i hsign hheld)
  | evict | vacate => cases hsign
  | settle a ha _ =>
    obtain rfl := Option.some.inj hsign
    exact ⟨a, by simp [State.settle]⟩
  | @abandon a j ha =>
    refine hother rfl ?_ (h i hsign hheld)
    rw [ha]
    rintro hji
    cases hji
    exact hleave a i ha (by simp [State.enter]) hsign
  | @quit a j ha =>
    have hij : i ≠ j := by
      rintro rfl
      simp [State.enter, State.release] at hheld
    have hold : s.holder i ≠ none := by simpa [State.enter, State.release, hij] using hheld
    refine hother (u := s.release j) rfl ?_ (h i hsign hold)
    intro hai
    rw [hai] at ha
    exact hij (Option.some.inj ha)
  | @outsiderQuits j hj =>
    have hij : i ≠ j := by
      rintro rfl
      simp [State.release] at hheld
    exact h i hsign (by simpa [State.release, hij] using hheld)

end Moves

end Tenancy
