import Mathlib.Algebra.Ring.Nat
import Mathlib.Data.Int.Notation
import Mathlib.Data.List.Basic

/-!
# Reading a text back from its parts

A line is written by putting texts and separators one after another. What can be
read back depends on where the separators do not occur: these lemmas cut a text
at the first or the last place of a separator, and say how two texts with a
marker inside can agree when nothing is known of what stands around the marker.
Decimal numerals are texts without separators that determine their number.
-/

namespace Text

section Cuts

variable {α : Type*} {x : α} {a b s t : List α}

/-- The first separator cuts a text in one way. -/
theorem cut_first (ha : x ∉ a) (hb : x ∉ b) (h : a ++ x :: s = b ++ x :: t) : a = b ∧ s = t := by
  induction a generalizing b with
  | nil =>
    cases b with
    | nil => exact ⟨rfl, List.tail_eq_of_cons_eq h⟩
    | cons y b =>
      have hxy : x = y := List.head_eq_of_cons_eq h
      exact absurd hxy (List.ne_of_not_mem_cons hb)
  | cons y a ih =>
    cases b with
    | nil =>
      have hyx : y = x := List.head_eq_of_cons_eq h
      exact absurd hyx.symm (List.ne_of_not_mem_cons ha)
    | cons z b =>
      obtain ⟨rfl, hrest⟩ := List.cons.inj h
      have ha' := List.not_mem_of_not_mem_cons ha
      have hb' := List.not_mem_of_not_mem_cons hb
      obtain ⟨rfl, hs⟩ := ih ha' hb' hrest
      exact ⟨rfl, hs⟩

/-- The last separator cuts a text in one way. -/
theorem cut_last (hs : x ∉ s) (ht : x ∉ t) (h : a ++ x :: s = b ++ x :: t) : a = b ∧ s = t := by
  have hreverse : s.reverse ++ x :: a.reverse = t.reverse ++ x :: b.reverse := by
    have := congrArg List.reverse h
    simpa using this
  have hs' : x ∉ s.reverse := by simpa using hs
  have ht' : x ∉ t.reverse := by simpa using ht
  obtain ⟨hst, hab⟩ := cut_first hs' ht' hreverse
  exact ⟨List.reverse_injective hab, List.reverse_injective hst⟩

/-- A marker: a separator, a text without it, and the separator again. -/
def marker (x : α) (mid : List α) : List α := x :: (mid ++ [x])

variable {mid mid₁ mid₂ head head₁ head₂ tail₁ tail₂ rest : List α}

/-- If a text with a marker at its beginning has a head before another separator, then the
head is empty, or reaches past the marker, or takes of the marker all but its last letter. -/
theorem head_of_marker (hmid : x ∉ mid) (h : marker x mid ++ tail₁ = head ++ x :: rest) :
    head = [] ∨ marker x mid <+: head ∨ head = x :: mid := by
  rcases List.append_eq_append_iff.mp h with ⟨c, rfl, -⟩ | ⟨c, hmarker, hrest⟩
  · exact .inr (.inl (List.prefix_append _ c))
  · cases c with
    | nil =>
      rw [List.append_nil] at hmarker
      exact .inr (.inl (hmarker ▸ List.prefix_rfl))
    | cons y c =>
      obtain rfl : x = y := List.head_eq_of_cons_eq hrest
      cases head with
      | nil => exact .inl rfl
      | cons y head =>
        obtain ⟨rfl, hinside⟩ := List.cons.inj hmarker
        -- The only separator left inside the marker is its last letter.
        obtain ⟨rfl, -⟩ := (List.append_cons_inj_of_notMem hmid List.not_mem_nil).mp hinside
        exact .inr (.inr rfl)

/-- Two texts with a marker inside agree only if their heads agree, or one head begins with
the other one and its marker, or one head is the other one and a marker without its end. -/
theorem heads_of_markers (hmid₁ : x ∉ mid₁) (hmid₂ : x ∉ mid₂)
    (h : head₁ ++ marker x mid₁ ++ tail₁ = head₂ ++ marker x mid₂ ++ tail₂) :
    head₁ = head₂ ∨ head₁ ++ marker x mid₁ <+: head₂ ∨ head₂ ++ marker x mid₂ <+: head₁ ∨
      head₂ = head₁ ++ x :: mid₁ ∨ head₁ = head₂ ++ x :: mid₂ := by
  rw [List.append_assoc, List.append_assoc] at h
  rcases List.append_eq_append_iff.mp h with ⟨c, rfl, hrest⟩ | ⟨c, rfl, hrest⟩
  · rcases head_of_marker hmid₁ hrest with rfl | hpast | rfl
    · exact .inl (List.append_nil _).symm
    · exact .inr (.inl ((List.prefix_append_right_inj head₁).mpr hpast))
    · exact .inr (.inr (.inr (.inl rfl)))
  · rcases head_of_marker hmid₂ hrest with rfl | hpast | rfl
    · exact .inl (List.append_nil _)
    · exact .inr (.inr (.inl ((List.prefix_append_right_inj head₂).mpr hpast)))
    · exact .inr (.inr (.inr (.inr rfl)))

/-- If a text ending with two letters begins a longer one, and the second part of that has
neither the first letter nor the other one at its beginning, the text begins the first part. -/
theorem prefix_of_prefix_append {y : α} (hy : y ∉ t) (hx : t.head? ≠ some x)
    (h : s ++ [y, x] <+: a ++ t) : s ++ [y, x] <+: a := by
  obtain ⟨rest, hrest⟩ := h
  rcases List.append_eq_append_iff.mp hrest with ⟨c, rfl, -⟩ | ⟨c, hsplit, rfl⟩
  · exact List.prefix_append _ c
  · have hyc : y ∉ c := fun h => hy (List.mem_append_left _ h)
    -- What the text takes of the second part ends with its two letters, or is the last one.
    rcases List.append_eq_append_iff.mp hsplit with ⟨d, rfl, hend⟩ | ⟨d, -, rfl⟩
    · rcases d with _ | ⟨y', _ | ⟨x', d⟩⟩
      · obtain rfl : [y, x] = c := hend
        exact absurd List.mem_cons_self hyc
      · obtain ⟨rfl, rfl⟩ : y = y' ∧ [x] = c := List.cons.inj hend
        exact absurd rfl hx
      · have hnil : d ++ c = [] := ((List.cons.inj (List.cons.inj hend).2).2).symm
        have hc : c = [] := (List.append_eq_nil_iff.mp hnil).2
        have hall : s ++ [y, x] = s ++ y' :: x' :: d := by rw [hsplit, hc, List.append_nil]
        exact hall ▸ List.prefix_rfl
    · exact absurd (List.mem_append_right _ List.mem_cons_self) hyc

end Cuts

section Numerals

/-- The letters of decimal numerals. -/
def IsNumeral (c : Char) : Prop := c = '-' ∨ c.isDigit = true

instance : DecidablePred IsNumeral := fun c => inferInstanceAs (Decidable (c = '-' ∨ _))

variable {c : Char}

theorem isDigit_of_mem_nat {n : ℕ} (hc : c ∈ (toString n).toList) : c.isDigit = true := by
  have hdigits : c ∈ Nat.toDigits 10 n := by simpa [Nat.toString_eq_repr] using hc
  exact Nat.isDigit_of_mem_toDigits (by omega) (by omega) hdigits

theorem isNumeral_of_mem_nat {n : ℕ} (hc : c ∈ (toString n).toList) : IsNumeral c :=
  .inr (isDigit_of_mem_nat hc)

theorem isNumeral_of_mem_int {z : ℤ} (hc : c ∈ (toString z).toList) : IsNumeral c := by
  cases z with
  | ofNat n => exact isNumeral_of_mem_nat hc
  | negSucc n =>
    have hlist : c = '-' ∨ c ∈ (toString (n + 1)).toList := by
      simpa [toString, Int.repr] using hc
    rcases hlist with hminus | hdigit
    · exact .inl hminus
    · exact isNumeral_of_mem_nat hdigit

/-- A numeral determines its number. -/
theorem toString_nat_inj {m n : ℕ} (h : toString m = toString n) : m = n := by
  have hdigits : Nat.toDigits 10 m = Nat.toDigits 10 n := by
    simpa [Nat.toString_eq_repr] using congrArg String.toList h
  simpa using congrArg (Nat.ofDigitChars 10 · 0) hdigits

theorem toString_ofNat_ne_negSucc (m n : ℕ) :
    toString (Int.ofNat m) ≠ toString (Int.negSucc n) := by
  intro h
  have hminus : '-' ∈ (toString m).toList := by
    have hright : '-' ∈ (toString (Int.negSucc n)).toList := by simp [toString, Int.repr]
    exact h ▸ hright
  exact absurd (isDigit_of_mem_nat hminus) (by decide)

/-- A signed numeral determines its number. -/
theorem toString_int_inj {y z : ℤ} (h : toString y = toString z) : y = z := by
  cases y with
  | ofNat m =>
    cases z with
    | ofNat n => exact congrArg Int.ofNat (toString_nat_inj h)
    | negSucc n => exact absurd h (toString_ofNat_ne_negSucc m n)
  | negSucc m =>
    cases z with
    | ofNat n => exact absurd h.symm (toString_ofNat_ne_negSucc n m)
    | negSucc n =>
      have hsucc : toString (m + 1) = toString (n + 1) := by
        have hlist := congrArg String.toList h
        simp only [toString, Int.repr, String.toList_append] at hlist
        exact String.toList_inj.mp (List.append_cancel_left hlist)
      have := toString_nat_inj hsucc
      congr 1
      omega

/-- A number below a power of ten has a short numeral. -/
theorem length_toString_nat_le {n k : ℕ} (hk : 0 < k) (hn : n < 10 ^ k) :
    (toString n).length ≤ k := by
  rw [Nat.toString_eq_repr]
  exact (Nat.length_repr_le_iff hk).mpr hn

/-- A sign adds one letter. -/
theorem length_toString_int_le {z : ℤ} {k : ℕ} (hk : 0 < k) (hz : z.natAbs < 10 ^ k) :
    (toString z).length ≤ k + 1 := by
  cases z with
  | ofNat n =>
    have hn := length_toString_nat_le hk hz
    exact Nat.le_succ_of_le hn
  | negSucc n =>
    have hn : (toString (n + 1)).length ≤ k := length_toString_nat_le hk hz
    have hsplit : (toString (Int.negSucc n)).length = 1 + (toString (n + 1)).length :=
      String.length_append ..
    omega

end Numerals

end Text
