import Mathlib.Data.Nat.Notation

/-!
# Durations of the standard library

`std::time::Duration` is a number of whole seconds in 64 bits and a number of
nanoseconds that is less than a second. Every duration is a number of
nanoseconds, and conversions and products are statements about that number.
-/

/-- `std::time::Duration`. -/
structure Duration where
  /-- The whole seconds. -/
  secs : UInt64
  /-- The nanoseconds beyond them. -/
  nanos : UInt32
  /-- They are less than a second. -/
  nanos_lt : nanos.toNat < 1000000000
  deriving DecidableEq, Repr

namespace Duration

/-- How many nanoseconds a duration is. -/
def toNanos (d : Duration) : ℕ := 1000000000 * d.secs.toNat + d.nanos.toNat

/-- One nanosecond more than the longest duration. -/
def limit : ℕ := 1000000000 * UInt64.size

/-- `Duration::as_micros`, whose `u128` holds every outcome. -/
def asMicros (d : Duration) : ℕ := 1000000 * d.secs.toNat + d.nanos.toNat / 1000

/-- The microseconds beyond whole seconds fit in 32 bits as nanoseconds. -/
theorem toNat_subsecMicros (micros : UInt64) :
    ((micros % 1000000).toUInt32 * 1000).toNat = micros.toNat % 1000000 * 1000 := by
  rw [UInt32.toNat_mul, UInt64.toNat_toUInt32, UInt64.toNat_mod]
  show micros.toNat % 1000000 % 4294967296 * 1000 % 4294967296 = _
  omega

/-- `Duration::from_micros`. -/
def fromMicros (micros : UInt64) : Duration where
  secs := micros / 1000000
  nanos := (micros % 1000000).toUInt32 * 1000
  nanos_lt := by
    rw [toNat_subsecMicros]
    omega

/-- `Duration::checked_mul`. -/
def checkedMul (d : Duration) (rhs : UInt32) : Option Duration :=
  let totalNanos := d.nanos.toNat * rhs.toNat
  let secs := d.secs.toNat * rhs.toNat + totalNanos / 1000000000
  if secs < UInt64.size then
    some
      { secs := .ofNat secs
        nanos := .ofNat (totalNanos % 1000000000)
        nanos_lt := by
          have hlt : totalNanos % 1000000000 < 1000000000 := Nat.mod_lt _ (by decide)
          rw [UInt32.toNat_ofNat_of_lt' (Nat.lt_trans hlt (by decide))]
          exact hlt }
  else none

variable {d : Duration}

/-- Microseconds are counted down. -/
theorem asMicros_eq (d : Duration) : d.asMicros = d.toNanos / 1000 := by
  unfold asMicros toNanos
  omega

@[simp] theorem toNanos_fromMicros (micros : UInt64) :
    (fromMicros micros).toNanos = micros.toNat * 1000 := by
  have hsecs : (micros / 1000000).toNat = micros.toNat / 1000000 := UInt64.toNat_div _ _
  simp only [toNanos, fromMicros, toNat_subsecMicros, hsecs]
  omega

/-- A product that is in range is the product of the nanoseconds. -/
theorem checkedMul_eq_some {rhs : UInt32} (h : d.toNanos * rhs.toNat < limit) :
    ∃ e, d.checkedMul rhs = some e ∧ e.toNanos = d.toNanos * rhs.toNat := by
  have hproduct : d.toNanos * rhs.toNat =
      1000000000 * (d.secs.toNat * rhs.toNat) + d.nanos.toNat * rhs.toNat := by
    unfold toNanos
    rw [Nat.add_mul, Nat.mul_assoc]
  unfold limit at h
  have hsecs : d.secs.toNat * rhs.toNat + d.nanos.toNat * rhs.toNat / 1000000000 <
      UInt64.size := by omega
  have hnanos : d.nanos.toNat * rhs.toNat % 1000000000 < UInt32.size := by
    have : UInt32.size = 4294967296 := rfl
    omega
  refine ⟨_, if_pos hsecs, ?_⟩
  simp only [toNanos, UInt64.toNat_ofNat_of_lt' hsecs, UInt32.toNat_ofNat_of_lt' hnanos]
  unfold toNanos at hproduct
  omega

end Duration
