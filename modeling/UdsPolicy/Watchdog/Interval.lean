import UdsPolicy.General.Duration
import UdsPolicy.General.Numerals

/-!
# How often to pet the watchdog

The service manager passes the watchdog's window in microseconds, and the process
it is meant for, as decimal numerals. A daemon for which both are right pets at
half the window. Half of the smallest window is nothing, and an interval of
nothing is no interval.
-/

namespace UdsPolicy

open Numeral (Denotes parseU32 parseU64 parseU32_eq_ok parseU64_eq_ok)

/-- The interval at which the daemon should pet the watchdog, from the two variables of its
environment and its process id. -/
def heartbeatFrom (watchdogUsec watchdogPid : Option String) (currentPid : UInt32) :
    Option Duration := do
  -- Only a watchdog aimed at this process is honoured; an unset pid is ours.
  if let some pid := watchdogPid then
    if (parseU32 pid).toOption ≠ some currentPid then
      none
  let usec ← (parseU64 (← watchdogUsec)).toOption
  if usec > 0 then some (.fromMicros (usec / 2)) else none

/-- The interval from the environment; a variable that is no text counts as unset. -/
def heartbeatInterval (var : String → Option String) (processId : UInt32) : Option Duration :=
  heartbeatFrom (var "WATCHDOG_USEC") (var "WATCHDOG_PID") processId

/-- The watchdog is meant for this process. -/
def AimedHere (watchdogPid : Option String) (currentPid : UInt32) : Prop :=
  ∀ pid, watchdogPid = some pid → Denotes pid currentPid.toNat

/-- The watchdog's window is `w` microseconds. -/
def Window (watchdogUsec : Option String) (w : UInt64) : Prop :=
  ∃ usec, watchdogUsec = some usec ∧ Denotes usec w.toNat

variable {watchdogUsec watchdogPid : Option String} {currentPid : UInt32} {d : Duration}
  {w : UInt64}

/-- A variable is a numeral for one window at most. -/
theorem Window.unique {w' : UInt64} (h : Window watchdogUsec w) (h' : Window watchdogUsec w') :
    w = w' := by
  obtain ⟨usec, rfl, hw⟩ := h
  obtain ⟨usec', husec, hw'⟩ := h'
  obtain rfl := Option.some.inj husec
  exact UInt64.toNat_inj.mp (hw.unique hw')

/-- The parser has a value exactly for a numeral. -/
theorem toOption_parseU64 {s : String} : (parseU64 s).toOption = some w ↔ Denotes s w.toNat := by
  rw [← parseU64_eq_ok]
  cases parseU64 s <;> simp [Except.toOption]

/-- The check of the process id passes exactly for a watchdog that is meant for it. -/
theorem toOption_parseU32 {s : String} {v : UInt32} :
    (parseU32 s).toOption = some v ↔ Denotes s v.toNat := by
  rw [← parseU32_eq_ok]
  cases parseU32 s <;> simp [Except.toOption]

/-- A watchdog meant for this process is treated as one without a process id. -/
theorem heartbeatFrom_of_aimed (haimed : AimedHere watchdogPid currentPid) :
    heartbeatFrom watchdogUsec watchdogPid currentPid =
      heartbeatFrom watchdogUsec none currentPid := by
  cases watchdogPid with
  | none => rfl
  | some pid =>
    have hpid : (parseU32 pid).toOption = some currentPid := toOption_parseU32.mpr (haimed pid rfl)
    simp only [heartbeatFrom, hpid, ne_eq, not_true_eq_false, if_false]

/-- A watchdog meant for another process is none. -/
theorem heartbeatFrom_of_not_aimed (haimed : ¬AimedHere watchdogPid currentPid) :
    heartbeatFrom watchdogUsec watchdogPid currentPid = none := by
  cases watchdogPid with
  | none =>
    refine absurd (fun pid hpid => ?_) haimed
    cases hpid
  | some pid =>
    have hpid : (parseU32 pid).toOption ≠ some currentPid := by
      intro hpid
      refine haimed fun pid' hpid' => ?_
      obtain rfl := Option.some.inj hpid'
      exact toOption_parseU32.mp hpid
    simp only [heartbeatFrom, if_pos hpid]
    rfl

/-- **The interval.** It is half of a positive window, for a watchdog meant for this process. -/
theorem heartbeatFrom_eq_some : heartbeatFrom watchdogUsec watchdogPid currentPid = some d ↔
    AimedHere watchdogPid currentPid ∧
      ∃ w, Window watchdogUsec w ∧ 0 < w ∧ d = .fromMicros (w / 2) := by
  by_cases haimed : AimedHere watchdogPid currentPid
  · rw [heartbeatFrom_of_aimed haimed]
    cases watchdogUsec with
    | none =>
      constructor
      · rintro ⟨⟩
      · rintro ⟨-, w, ⟨usec, ⟨⟩, -⟩, -⟩
    | some usec =>
      show ((parseU64 usec).toOption.bind fun usec =>
        if usec > 0 then some (Duration.fromMicros (usec / 2)) else none) = some d ↔ _
      simp only [Option.bind_eq_some_iff, toOption_parseU64]
      constructor
      · rintro ⟨w, hw, hd⟩
        by_cases hpos : w > 0
        · rw [if_pos hpos] at hd
          exact ⟨haimed, w, ⟨usec, rfl, hw⟩, hpos, (Option.some.inj hd).symm⟩
        · rw [if_neg hpos] at hd
          cases hd
      · rintro ⟨-, w, ⟨usec', husec, hw⟩, hpos, rfl⟩
        obtain rfl := Option.some.inj husec
        exact ⟨w, hw, if_pos hpos⟩
  · rw [heartbeatFrom_of_not_aimed haimed]
    simp [haimed]

/-- The interval of a watchdog, when there is one, is half of its window. -/
theorem interval_eq (h : heartbeatFrom watchdogUsec watchdogPid currentPid = some d)
    (hw : Window watchdogUsec w) : 0 < w ∧ d.toNanos = w.toNat / 2 * 1000 := by
  obtain ⟨-, w', hw', hpos, rfl⟩ := heartbeatFrom_eq_some.mp h
  obtain rfl := hw.unique hw'
  refine ⟨hpos, ?_⟩
  have hhalf : (w / 2).toNat = w.toNat / 2 := UInt64.toNat_div _ _
  rw [Duration.toNanos_fromMicros, hhalf]

/-- Three intervals are a duration. -/
theorem ceiling_eq (h : heartbeatFrom watchdogUsec watchdogPid currentPid = some d) :
    ∃ c, d.checkedMul 3 = some c ∧ c.toNanos = d.toNanos * 3 := by
  obtain ⟨-, w, hw, -⟩ := heartbeatFrom_eq_some.mp h
  obtain ⟨-, hd⟩ := interval_eq h hw
  have hlt : w.toNat < UInt64.size := w.toNat_lt
  have hlimit : d.toNanos * 3 < Duration.limit := by
    unfold Duration.limit
    omega
  exact Duration.checkedMul_eq_some hlimit

/-- The interval is there exactly when a watchdog is meant for this process, and then it is
one that a heartbeat can sleep and a loop be judged by. -/
structure PetsInTime (watchdogUsec watchdogPid : Option String) (currentPid : UInt32) : Prop where
  /-- There is an interval exactly for a positive window that is meant for this process. -/
  defined : (∃ d, heartbeatFrom watchdogUsec watchdogPid currentPid = some d) ↔
    AimedHere watchdogPid currentPid ∧ ∃ w, Window watchdogUsec w ∧ 0 < w
  /-- It is something, at most half of the window, and a microsecond less at most. -/
  usable : ∀ d w, heartbeatFrom watchdogUsec watchdogPid currentPid = some d →
    Window watchdogUsec w → 0 < d.toNanos ∧ 2 * d.toNanos ≤ w.toNat * 1000 ∧
      w.toNat * 1000 < 2 * d.toNanos + 2000
  /-- Three intervals are a ceiling of more than nothing. -/
  ceiling : ∀ d, heartbeatFrom watchdogUsec watchdogPid currentPid = some d →
    ∃ c, d.checkedMul 3 = some c ∧ 0 < c.toNanos

/-- **Intervals.** The interval is as it should be exactly where the watchdog is not one of a
single microsecond that is meant for this process. -/
theorem pets_in_time_iff (watchdogUsec watchdogPid : Option String) (currentPid : UInt32) :
    PetsInTime watchdogUsec watchdogPid currentPid ↔
      (AimedHere watchdogPid currentPid → ¬Window watchdogUsec 1) := by
  constructor
  · rintro ⟨hdefined, husable, -⟩ haimed hone
    obtain ⟨d, hd⟩ := hdefined.mpr ⟨haimed, 1, hone, by decide⟩
    obtain ⟨-, hnanos⟩ := interval_eq hd hone
    have hpos := (husable d 1 hd hone).1
    have hhalf : (1 : UInt64).toNat / 2 = 0 := rfl
    omega
  · intro hother
    have hhalf : ∀ d w, heartbeatFrom watchdogUsec watchdogPid currentPid = some d →
        Window watchdogUsec w → 2 ≤ w.toNat ∧ d.toNanos = w.toNat / 2 * 1000 := by
      intro d w hd hw
      obtain ⟨hpos, hnanos⟩ := interval_eq hd hw
      refine ⟨?_, hnanos⟩
      have hne : w.toNat ≠ 1 := by
        intro hone
        obtain rfl : w = 1 := UInt64.toNat_inj.mp hone
        exact hother (heartbeatFrom_eq_some.mp hd).1 hw
      have hpos : 0 < w.toNat := UInt64.lt_iff_toNat_lt.mp hpos
      omega
    refine ⟨⟨?_, ?_⟩, fun d w hd hw => ?_, fun d hd => ?_⟩
    · rintro ⟨d, hd⟩
      obtain ⟨haimed, w, hw, hpos, -⟩ := heartbeatFrom_eq_some.mp hd
      exact ⟨haimed, w, hw, hpos⟩
    · rintro ⟨haimed, w, hw, hpos⟩
      exact ⟨_, heartbeatFrom_eq_some.mpr ⟨haimed, w, hw, hpos, rfl⟩⟩
    · obtain ⟨hle, hnanos⟩ := hhalf d w hd hw
      omega
    · obtain ⟨-, w, hw, -⟩ := heartbeatFrom_eq_some.mp hd
      obtain ⟨hle, hnanos⟩ := hhalf d w hd hw
      obtain ⟨c, hc, hceiling⟩ := ceiling_eq hd
      exact ⟨c, hc, by omega⟩

/-- A window of one microsecond gives a heartbeat that does not sleep. -/
theorem one_microsecond_spins :
    heartbeatFrom (some "1") none 42 = some (.fromMicros 0) ∧ ¬PetsInTime (some "1") none 42 := by
  have hinterval : heartbeatFrom (some "1") none 42 = some (.fromMicros 0) := rfl
  refine ⟨hinterval, fun h => ?_⟩
  obtain ⟨c, hc, hpos⟩ := h.ceiling _ hinterval
  obtain rfl : Duration.fromMicros 0 = c := Option.some.inj hc
  exact absurd hpos (by decide)

end UdsPolicy
