import Mathlib.Logic.Function.Basic
import Mathlib.Data.List.Nodup
import Mathlib.Data.Nat.Notation
import Mathlib.Tactic.TypeStar

/-!
# Things in somebody's hands

Things are made one after another, and numbered in this order. Each of them is in
the hands of its maker until it is given away or thrown away, and nobody has more
than one at a time. Then nothing is in two hands, nothing is given away or thrown
away twice, and nothing is lost from sight.
-/

/-- Who has what in hand, and what has become of the other things. -/
structure Custody (A : Type*) where
  /-- What each holder has in hand. -/
  held : A → Option ℕ
  /-- How many things have been made. -/
  made : ℕ
  /-- What has been given away, oldest first. -/
  given : List ℕ
  /-- What has been thrown away, oldest first. -/
  lost : List ℕ

namespace Custody

variable {A : Type*} [DecidableEq A]

/-- A new thing is made. -/
def make (s : Custody A) (a : A) : Custody A :=
  { s with held := Function.update s.held a (some s.made), made := s.made + 1 }

/-- What somebody has in hand is given away. -/
def give (s : Custody A) (a : A) (i : ℕ) : Custody A :=
  { s with held := Function.update s.held a none, given := s.given ++ [i] }

/-- What somebody has in hand is thrown away. -/
def lose (s : Custody A) (a : A) (i : ℕ) : Custody A :=
  { s with held := Function.update s.held a none, lost := s.lost ++ [i] }

/-- Everything that has been made is in exactly one place. -/
structure Sound (s : Custody A) : Prop where
  /-- What is in hand has been made. -/
  made_of_held : ∀ a i, s.held a = some i → i < s.made
  /-- What has been given or thrown away has been made. -/
  made_of_gone : ∀ i ∈ s.given ++ s.lost, i < s.made
  /-- Nothing is in two hands. -/
  alone : ∀ a b i, s.held a = some i → s.held b = some i → a = b
  /-- What is in hand has not gone. -/
  kept : ∀ a i, s.held a = some i → i ∉ s.given ++ s.lost
  /-- Nothing goes twice. -/
  once : (s.given ++ s.lost).Nodup
  /-- Nothing is lost from sight. -/
  accounted : ∀ i < s.made, i ∈ s.given ++ s.lost ∨ ∃ a, s.held a = some i

variable {s : Custody A} {a b : A} {i j : ℕ}

omit [DecidableEq A] in
/-- Before anything has been made. -/
theorem sound_empty : (⟨fun _ => none, 0, [], []⟩ : Custody A).Sound where
  made_of_held := nofun
  made_of_gone := nofun
  alone := nofun
  kept := nofun
  once := List.nodup_nil
  accounted i hi := absurd hi (Nat.not_lt_zero i)

theorem held_update {x : Option ℕ} (h : Function.update s.held a x b = some j) :
    b = a ∧ x = some j ∨ b ≠ a ∧ s.held b = some j := by
  by_cases hb : b = a
  · subst b
    exact .inl ⟨rfl, by simpa using h⟩
  · exact .inr ⟨hb, by simpa [hb] using h⟩

/-- The next thing has not been made, and so it is nowhere. -/
theorem Sound.make (h : s.Sound) (ha : s.held a = none) : (s.make a).Sound where
  made_of_held b j hb := by
    show j < s.made + 1
    rcases held_update hb with ⟨-, hj⟩ | ⟨-, hj⟩
    · cases hj
      omega
    · have hmade := h.made_of_held b j hj
      omega
  made_of_gone j hj := Nat.lt_succ_of_lt (h.made_of_gone j hj)
  alone b c j hb hc := by
    rcases held_update hb with ⟨rfl, hj⟩ | ⟨-, hj⟩
    · rcases held_update hc with ⟨rfl, -⟩ | ⟨-, hk⟩
      · rfl
      · cases hj
        have hmade := h.made_of_held c _ hk
        omega
    · rcases held_update hc with ⟨rfl, hk⟩ | ⟨-, hk⟩
      · cases hk
        have hmade := h.made_of_held b _ hj
        omega
      · exact h.alone b c j hj hk
  kept b j hb hgone := by
    rcases held_update hb with ⟨-, hj⟩ | ⟨-, hj⟩
    · cases hj
      have hmade := h.made_of_gone _ hgone
      omega
    · exact h.kept b j hj hgone
  once := h.once
  accounted j hj := by
    have hj : j < s.made + 1 := hj
    by_cases hlast : j = s.made
    · subst j
      exact .inr ⟨a, Function.update_self ..⟩
    · rcases h.accounted j (by omega) with hgone | ⟨b, hb⟩
      · exact .inl hgone
      · have hne : b ≠ a := by
          rintro rfl
          rw [ha] at hb
          cases hb
        exact .inr ⟨b, by simpa [Custody.make, hne] using hb⟩

/-- What somebody has in hand goes, one way or the other. -/
theorem Sound.go {given lost : List ℕ} (h : s.Sound) (ha : s.held a = some i)
    (hperm : (given ++ lost).Perm (s.given ++ s.lost ++ [i])) :
    (⟨Function.update s.held a none, s.made, given, lost⟩ : Custody A).Sound where
  made_of_held b j hb := by
    rcases held_update hb with ⟨-, hj⟩ | ⟨-, hj⟩
    · cases hj
    · exact h.made_of_held b j hj
  made_of_gone j hj := by
    rcases List.mem_append.mp (hperm.mem_iff.mp hj) with hj | hj
    · exact h.made_of_gone j hj
    · obtain rfl := List.mem_singleton.mp hj
      exact h.made_of_held a j ha
  alone b c j hb hc := by
    rcases held_update hb with ⟨-, hj⟩ | ⟨-, hj⟩
    · cases hj
    · rcases held_update hc with ⟨-, hk⟩ | ⟨-, hk⟩
      · cases hk
      · exact h.alone b c j hj hk
  kept b j hb hgone := by
    rcases held_update hb with ⟨-, hj⟩ | ⟨hne, hj⟩
    · cases hj
    · rcases List.mem_append.mp (hperm.mem_iff.mp hgone) with hgone | hgone
      · exact h.kept b j hj hgone
      · obtain rfl := List.mem_singleton.mp hgone
        exact hne (h.alone b a j hj ha)
  once := by
    apply hperm.nodup_iff.mpr
    apply List.nodup_append.mpr
    refine ⟨h.once, List.nodup_singleton i, fun x hx y hy hxy => ?_⟩
    obtain rfl := List.mem_singleton.mp hy
    subst hxy
    exact h.kept a x ha hx
  accounted j hj := by
    rcases h.accounted j hj with hgone | ⟨b, hb⟩
    · exact .inl (hperm.mem_iff.mpr (List.mem_append_left _ hgone))
    · by_cases hba : b = a
      · subst b
        rw [ha] at hb
        obtain rfl := Option.some.inj hb
        exact .inl (hperm.mem_iff.mpr (List.mem_append_right _ List.mem_cons_self))
      · exact .inr ⟨b, by simpa [hba] using hb⟩

theorem Sound.give (h : s.Sound) (ha : s.held a = some i) : (s.give a i).Sound := by
  apply h.go ha
  rw [List.append_assoc, List.append_assoc]
  exact List.Perm.append_left _ List.perm_append_comm

theorem Sound.lose (h : s.Sound) (ha : s.held a = some i) : (s.lose a i).Sound := by
  apply h.go ha
  rw [List.append_assoc]

end Custody
