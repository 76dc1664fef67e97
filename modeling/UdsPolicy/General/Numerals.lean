import Mathlib.Data.Nat.Notation

/-!
# Reading unsigned decimal numerals into bounded integers

The parser of the standard library of Rust for unsigned integers: an optional
plus sign, then one digit or more, accumulated with a check for overflow at every
multiplication and at every addition. The accumulator only grows, so the checks
together ask whether the value of the whole numeral is in range, and the parser
accepts exactly the numerals whose value is.
-/

namespace Numeral

/-- Why a text is not a numeral in range. -/
inductive ParseIntError
  | empty | invalidDigit | posOverflow
  deriving DecidableEq, Repr

/-- `char::to_digit(10)`. -/
def toDigit (c : Char) : Option ℕ := if c.isDigit then some (c.toNat - '0'.toNat) else none

/-- `checked_mul` of an integer type with the values below `bound`. -/
def checkedMul (bound a b : ℕ) : Option ℕ := if a * b < bound then some (a * b) else none

/-- `checked_add` of an integer type with the values below `bound`. -/
def checkedAdd (bound a b : ℕ) : Option ℕ := if a + b < bound then some (a + b) else none

/-- The loop over the digits. A letter that is no digit is reported before the overflow of
the multiplication that precedes it. -/
def accumulate (bound result : ℕ) : List Char → Except ParseIntError ℕ
  | [] => .ok result
  | c :: digits =>
    match toDigit c with
    | none => .error .invalidDigit
    | some x =>
      match checkedMul bound result 10 with
      | none => .error .posOverflow
      | some shifted =>
        match checkedAdd bound shifted x with
        | none => .error .posOverflow
        | some next => accumulate bound next digits

/-- `str::parse` for the unsigned integer type with the values below `bound`. -/
def parse (bound : ℕ) (s : String) : Except ParseIntError ℕ :=
  match s.toList with
  | [] => .error .empty
  | c :: rest =>
    if rest = [] ∧ (c = '+' ∨ c = '-') then .error .invalidDigit
    else if c = '+' then accumulate bound 0 rest
    else accumulate bound 0 (c :: rest)

/-- A text is a decimal numeral for `n`: one digit or more, after a plus sign or not. -/
def Denotes (s : String) (n : ℕ) : Prop :=
  ∃ digits : List Char, (s.toList = digits ∨ s.toList = '+' :: digits) ∧ digits ≠ [] ∧
    (∀ c ∈ digits, c.isDigit = true) ∧ Nat.ofDigitChars 10 digits 0 = n

variable {bound result n : ℕ} {digits : List Char} {s : String}

/-- The value of a numeral is at least what was accumulated before its digits. -/
theorem le_ofDigitChars (digits : List Char) (result : ℕ) :
    result ≤ Nat.ofDigitChars 10 digits result := by
  induction digits generalizing result with
  | nil => simp
  | cons c digits ih =>
    rw [Nat.ofDigitChars_cons]
    have hrest := ih (10 * result + (c.toNat - '0'.toNat))
    omega

/-- One turn of the loop: the checks of the multiplication and the addition are one check of
their outcome. -/
theorem accumulate_cons (bound result : ℕ) (c : Char) (digits : List Char) :
    accumulate bound result (c :: digits) =
      if c.isDigit = true then
        if 10 * result + (c.toNat - '0'.toNat) < bound then
          accumulate bound (10 * result + (c.toNat - '0'.toNat)) digits
        else .error .posOverflow
      else .error .invalidDigit := by
  by_cases hdigit : c.isDigit = true
  · simp only [accumulate, toDigit, checkedMul, checkedAdd, if_pos hdigit, Nat.mul_comm result 10]
    by_cases hmul : 10 * result < bound
    · simp only [if_pos hmul]
      by_cases hadd : 10 * result + (c.toNat - '0'.toNat) < bound
      · simp only [if_pos hadd]
      · simp only [if_neg hadd]
    · have hadd : ¬10 * result + (c.toNat - '0'.toNat) < bound := by omega
      simp only [if_neg hmul, if_neg hadd]
  · simp only [accumulate, toDigit, if_neg hdigit]

/-- **The loop.** Its checks succeed exactly when every letter is a digit and the value of
the numeral is in range. -/
theorem accumulate_eq_ok (hresult : result < bound) :
    accumulate bound result digits = .ok n ↔
      (∀ c ∈ digits, c.isDigit = true) ∧ Nat.ofDigitChars 10 digits result = n ∧ n < bound := by
  induction digits generalizing result with
  | nil =>
    simp only [accumulate, Nat.ofDigitChars_nil, Except.ok.injEq, List.not_mem_nil,
      false_implies, implies_true, true_and]
    constructor
    · rintro rfl
      exact ⟨rfl, hresult⟩
    · rintro ⟨rfl, -⟩
      rfl
  | cons c digits ih =>
    rw [accumulate_cons, List.forall_mem_cons, Nat.ofDigitChars_cons]
    by_cases hdigit : c.isDigit = true
    · rw [if_pos hdigit]
      by_cases hnext : 10 * result + (c.toNat - '0'.toNat) < bound
      · rw [if_pos hnext, ih hnext]
        simp only [hdigit, true_and]
      · rw [if_neg hnext]
        constructor
        · rintro ⟨⟩
        · rintro ⟨-, rfl, hlt⟩
          have hle := le_ofDigitChars digits (10 * result + (c.toNat - '0'.toNat))
          omega
    · rw [if_neg hdigit]
      simp [hdigit]

/-- What a text with a first letter denotes. -/
theorem denotes_iff {c : Char} {rest : List Char} (hs : s.toList = c :: rest) :
    Denotes s n ↔
      if c = '+' then
        rest ≠ [] ∧ (∀ x ∈ rest, x.isDigit = true) ∧ Nat.ofDigitChars 10 rest 0 = n
      else (∀ x ∈ c :: rest, x.isDigit = true) ∧ Nat.ofDigitChars 10 (c :: rest) 0 = n := by
  unfold Denotes
  rw [hs]
  by_cases hc : c = '+'
  · subst hc
    rw [if_pos rfl]
    constructor
    · rintro ⟨digits, rfl | hrest, hne, hdigits, hvalue⟩
      · -- A sign is no digit.
        have hsign : '+'.isDigit = true := hdigits '+' List.mem_cons_self
        cases hsign
      · obtain ⟨-, rfl⟩ := List.cons.inj hrest
        exact ⟨hne, hdigits, hvalue⟩
    · rintro ⟨hne, hdigits, hvalue⟩
      exact ⟨rest, .inr rfl, hne, hdigits, hvalue⟩
  · rw [if_neg hc]
    constructor
    · rintro ⟨digits, rfl | hrest, -, hdigits, hvalue⟩
      · exact ⟨hdigits, hvalue⟩
      · exact absurd (List.cons.inj hrest).1 hc
    · rintro ⟨hdigits, hvalue⟩
      exact ⟨c :: rest, .inl rfl, List.cons_ne_nil _ _, hdigits, hvalue⟩

/-- **The parser.** It accepts exactly the numerals whose value is in range. -/
theorem parse_eq_ok (hbound : 0 < bound) : parse bound s = .ok n ↔ Denotes s n ∧ n < bound := by
  unfold parse
  cases hs : s.toList with
  | nil =>
    constructor
    · rintro ⟨⟩
    · rintro ⟨⟨digits, rfl | hsign, hne, -⟩, -⟩
      · exact absurd hs hne
      · rw [hs] at hsign
        cases hsign
  | cons c rest =>
    rw [denotes_iff hs]
    by_cases hplus : c = '+'
    · subst hplus
      by_cases hrest : rest = []
      · simp [hrest]
      · simp only [hrest, false_and, if_false, if_true, accumulate_eq_ok hbound, ne_eq,
          not_false_eq_true, true_and, and_assoc]
    · by_cases hminus : rest = [] ∧ c = '-'
      · obtain ⟨rfl, rfl⟩ := hminus
        simp
      · have hsigned : ¬(rest = [] ∧ (c = '+' ∨ c = '-')) := by
          rintro ⟨hrest, hc | hc⟩
          · exact hplus hc
          · exact hminus ⟨hrest, hc⟩
        simp only [if_neg hsigned, if_neg hplus, accumulate_eq_ok hbound, and_assoc]

/-- A text is a numeral for one number at most. -/
theorem Denotes.unique {m : ℕ} (hn : Denotes s n) (hm : Denotes s m) : n = m := by
  have hrange : 0 < n + m + 1 := by omega
  have hparse := (parse_eq_ok hrange).mpr ⟨hn, by omega⟩
  have hparse' := (parse_eq_ok hrange).mpr ⟨hm, by omega⟩
  exact Except.ok.inj (hparse.symm.trans hparse')

/-- The parser into an integer type whose values are those below `bound`. -/
theorem parse_map_eq_ok {α : Type} {ofNat : ℕ → α} {toNat : α → ℕ} {v : α}
    (hlt : ∀ v, toNat v < bound) (hof : ∀ v, ofNat (toNat v) = v)
    (hto : ∀ n, n < bound → toNat (ofNat n) = n) :
    (parse bound s).map ofNat = .ok v ↔ Denotes s (toNat v) := by
  have hbound : 0 < bound := Nat.zero_lt_of_lt (hlt v)
  constructor
  · intro h
    cases hparse : parse bound s with
    | error e =>
      rw [hparse] at h
      cases h
    | ok n =>
      rw [hparse] at h
      obtain ⟨hn, hrange⟩ := (parse_eq_ok hbound).mp hparse
      obtain rfl : ofNat n = v := Except.ok.inj h
      rwa [hto n hrange]
  · intro h
    rw [(parse_eq_ok hbound).mpr ⟨h, hlt v⟩]
    exact congrArg Except.ok (hof v)

/-- `str::parse::<u32>`. -/
def parseU32 (s : String) : Except ParseIntError UInt32 := (parse UInt32.size s).map .ofNat

/-- `str::parse::<u64>`. -/
def parseU64 (s : String) : Except ParseIntError UInt64 := (parse UInt64.size s).map .ofNat

/-- `str::parse::<u32>` accepts the numerals of the values of `u32`. -/
theorem parseU32_eq_ok {v : UInt32} : parseU32 s = .ok v ↔ Denotes s v.toNat :=
  parse_map_eq_ok UInt32.toNat_lt (fun _ => UInt32.ofNat_toNat)
    fun _ hrange => UInt32.toNat_ofNat_of_lt' hrange

/-- `str::parse::<u64>` accepts the numerals of the values of `u64`. -/
theorem parseU64_eq_ok {v : UInt64} : parseU64 s = .ok v ↔ Denotes s v.toNat :=
  parse_map_eq_ok UInt64.toNat_lt (fun _ => UInt64.ofNat_toNat)
    fun _ hrange => UInt64.toNat_ofNat_of_lt' hrange

/-- A sign, leading zeros and the ends of the range. -/
example : parseU32 "+007" = .ok 7 ∧ parseU32 "4294967295" = .ok 4294967295 ∧
    parseU32 "4294967296" = .error .posOverflow ∧ parseU32 "-1" = .error .invalidDigit ∧
    parseU32 "+" = .error .invalidDigit ∧ parseU32 "" = .error .empty :=
  ⟨rfl, rfl, rfl, rfl, rfl, rfl⟩

end Numeral
