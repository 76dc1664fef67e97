import UdsPolicy.Watchdog.Heartbeat
import UdsPolicy.Watchdog.Interval

/-!
# Arming the accept timeout

A serve loop that is judged by its idle ticks has to turn while idle, so its
listener's receive timeout is set to the interval of the heartbeat. The timeout
passes through three representations: a duration, 64-bit microseconds, and the
timeval of the system call, which comes from a library with a range of its own.
A timeout of zero is no timeout.
-/

namespace UdsPolicy

/-- A listener, by its receive timeout. -/
structure Listener where
  /-- The socket option `SO_RCVTIMEO`. -/
  receiveTimeout : TimeVal
  deriving DecidableEq, Repr

/-- The microseconds after which a blocking `accept` returns; the kernel reads zero as no
timeout. -/
def Listener.acceptBound (l : Listener) : Option ℕ :=
  if l.receiveTimeout.micros = 0 then none else some l.receiveTimeout.micros.toNat

/-- `setsockopt` with `ReceiveTimeout`, which may fail. -/
def setsockopt (fault : Option IoError) (l : Listener) (tv : TimeVal) :
    Except IoError Unit × Listener :=
  match fault with
  | some e => (.error e, l)
  | none => (.ok (), { l with receiveTimeout := tv })

/-- `i64::try_from`. -/
def i64TryFrom (n : ℕ) : Option Int64 := if n ≤ i64Max then some (.ofNat n) else none

theorem i64TryFrom_eq_none {n : ℕ} (h : i64Max < n) : i64TryFrom n = none := by
  rw [i64TryFrom, if_neg (Nat.not_le.mpr h)]

/-- Numbers in range are converted as they are. -/
theorem i64TryFrom_eq_some {n : ℕ} (h : n ≤ i64Max) :
    ∃ micros : Int64, i64TryFrom n = some micros ∧ micros.toInt = n := by
  have hlt : n < 2 ^ 63 := by
    unfold i64Max at h
    omega
  exact ⟨.ofNat n, by rw [i64TryFrom, if_pos h], Int64.toInt_ofNat_of_lt hlt⟩

/-- A number that is converted keeps its value. -/
theorem toInt_of_i64TryFrom {n : ℕ} {micros : Int64} (h : i64TryFrom n = some micros) :
    micros.toInt = n := by
  by_cases hle : n ≤ i64Max
  · obtain ⟨micros', hsome, hint⟩ := i64TryFrom_eq_some hle
    obtain rfl : micros = micros' := Option.some.inj (h.symm.trans hsome)
    exact hint
  · rw [i64TryFrom_eq_none (Nat.not_le.mp hle)] at h
    cases h

/-- What `Socket::set_accept_timeout` takes from elsewhere. -/
structure TimeLibrary where
  /-- `TimeVal::microseconds`, whose panic is `none`. -/
  microseconds : Int64 → Option TimeVal
  /-- The text of a number that `i64::try_from` finds too large. -/
  outOfRange : String

/-- The error of a timeout that is no 64-bit number of microseconds. -/
def timeoutOutOfRange (lib : TimeLibrary) : IoError :=
  ⟨.other 0, s!"timeout out of range: {lib.outOfRange}"⟩

/-- Seconds that the timevals of the library have at most. -/
def maxSeconds : ℤ := i64Max / 1000000 - 1

/-- What is promised of `TimeVal::microseconds`. -/
structure TimeLibrary.Documented (lib : TimeLibrary) : Prop where
  /-- It panics unless the whole seconds are in range. -/
  panics : ∀ n, lib.microseconds n = none ↔
    ¬(-maxSeconds ≤ n.toInt / 1000000 ∧ n.toInt / 1000000 ≤ maxSeconds)
  /-- Otherwise it represents the microseconds exactly. -/
  exact : ∀ n tv, lib.microseconds n = some tv → tv.micros = n.toInt

/-- `Socket::set_accept_timeout`: bound the listener's blocking `accept`. A panic is `none`. -/
def setAcceptTimeout (lib : TimeLibrary) (fault : Option IoError)
    (l : Listener) (timeout : Duration) : Option (Except IoError Unit × Listener) :=
  match i64TryFrom timeout.asMicros with
  | none => some (.error (timeoutOutOfRange lib), l)
  | some micros => (lib.microseconds micros).map fun tv => setsockopt fault l tv

/-- The message about an accept timeout that could not be set. -/
def timeoutUnavailable (error : IoError) : String :=
  s!"echod: watchdog accept timeout unavailable: {error.text}"

/-- What `serve` does with an interval before it starts the heartbeat: arm the accept timeout,
and judge idle ticks only if that worked. Returns the ceilings and the lines to the journal. -/
def armWatchdog (lib : TimeLibrary) (fault : Option IoError) (l : Listener)
    (interval : Duration) : Option (Liveness × Listener × List String) := do
  let (outcome, l) ← setAcceptTimeout lib fault l interval
  match outcome with
  | .ok _ =>
    let ceiling ← interval.checkedMul 3
    return (Liveness.new.withIdleTickCeiling ceiling.toNanos, l, [])
  | .error error => return (Liveness.new, l, [timeoutUnavailable error])

section Arming

variable {lib : TimeLibrary} {fault : Option IoError} {l l' : Listener}
  {t : Duration}

/-- A timeout beyond 64-bit microseconds is an error. -/
theorem setAcceptTimeout_beyond (fault : Option IoError) (l : Listener) (h : i64Max < t.asMicros) :
    setAcceptTimeout lib fault l t = some (.error (timeoutOutOfRange lib), l) := by
  simp only [setAcceptTimeout, i64TryFrom_eq_none h]

/-- Where 64-bit microseconds exceed the seconds of the library, it panics. -/
theorem setAcceptTimeout_panics (hlib : lib.Documented) (h : t.asMicros ≤ i64Max) :
    setAcceptTimeout lib fault l t = none ↔ 9223372036854000000 ≤ t.asMicros := by
  obtain ⟨micros, hwithin, hint⟩ := i64TryFrom_eq_some h
  simp only [setAcceptTimeout, hwithin, Option.map_eq_none_iff, hlib.panics, hint, maxSeconds,
    i64Max]
  omega

/-- Otherwise the listener is given the microseconds of the timeout. -/
theorem setAcceptTimeout_within (hlib : lib.Documented) (fault : Option IoError)
    (l : Listener) (h : t.asMicros < 9223372036854000000) :
    ∃ tv : TimeVal, tv.micros = t.asMicros ∧
      setAcceptTimeout lib fault l t = some (setsockopt fault l tv) := by
  have hle : t.asMicros ≤ i64Max := by
    unfold i64Max
    omega
  obtain ⟨micros, hwithin, hint⟩ := i64TryFrom_eq_some hle
  cases htv : lib.microseconds micros with
  | none =>
    have hpanic : setAcceptTimeout lib fault l t = none := by
      simp only [setAcceptTimeout, hwithin, htv, Option.map_none]
    have hlarge := (setAcceptTimeout_panics hlib hle).mp hpanic
    omega
  | some tv =>
    refine ⟨tv, (hlib.exact _ tv htv).trans hint, ?_⟩
    simp only [setAcceptTimeout, hwithin, htv, Option.map_some]

/-- For every listener, and whatever the system call returns, `Socket::set_accept_timeout`
bounds a blocking `accept` by the timeout or says that it has not. -/
structure Arms (lib : TimeLibrary) (t : Duration) : Prop where
  /-- It does not panic. -/
  returns : ∀ fault l, setAcceptTimeout lib fault l t ≠ none
  /-- If it succeeds for more than nothing, a blocking `accept` returns, within a microsecond
  of the timeout. -/
  bounded : ∀ fault l l', setAcceptTimeout lib fault l t = some (.ok (), l') →
    0 < t.toNanos → ∃ b, l'.acceptBound = some b ∧ 0 < b ∧ b * 1000 ≤ t.toNanos ∧
      t.toNanos < b * 1000 + 1000
  /-- If it fails, the listener is what it was. -/
  kept : ∀ fault l l' e, setAcceptTimeout lib fault l t = some (.error e, l') → l' = l

/-- The timeouts that pass through the three representations: nothing or a microsecond at
least, and either within the seconds of the library or beyond 64-bit microseconds. -/
def Passes (t : Duration) : Prop :=
  (0 < t.toNanos → 1000 ≤ t.toNanos) ∧
    (t.toNanos < 9223372036854000000000 ∨ 9223372036854775808000 ≤ t.toNanos)

/-- A success leaves the microseconds of the timeout in the listener. -/
theorem acceptBound_of_ok (hlib : lib.Documented)
    (hok : setAcceptTimeout lib fault l t = some (.ok (), l')) :
    l'.acceptBound = if t.asMicros = 0 then none else some t.asMicros := by
  by_cases hbeyond : i64Max < t.asMicros
  · rw [setAcceptTimeout_beyond fault l hbeyond] at hok
    cases hok
  · by_cases hwithin : t.asMicros < 9223372036854000000
    · obtain ⟨tv, hmicros, hset⟩ := setAcceptTimeout_within hlib fault l hwithin
      rw [hset] at hok
      cases fault with
      | some e => cases hok
      | none =>
        cases hok
        simp only [Listener.acceptBound, hmicros, Int.natCast_eq_zero, Int.toNat_natCast]
    · rw [(setAcceptTimeout_panics hlib (by omega)).mpr (by omega)] at hok
      cases hok

/-- A failure leaves the listener as it was. -/
theorem setAcceptTimeout_kept {e : IoError}
    (herror : setAcceptTimeout lib fault l t = some (.error e, l')) : l' = l := by
  unfold setAcceptTimeout at herror
  split at herror
  · cases herror
    rfl
  · obtain ⟨tv, -, hset⟩ := Option.map_eq_some_iff.mp herror
    cases fault with
    | some e =>
      cases hset
      rfl
    | none => cases hset

/-- **Timeouts.** Exactly those timeouts are armed that pass through. -/
theorem arms_iff (hlib : lib.Documented) : Arms lib t ↔ Passes t := by
  have hmicros := t.asMicros_eq
  have hmax : i64Max = 9223372036854775807 := rfl
  constructor
  · rintro ⟨hreturns, hbounded, -⟩
    have hrange : t.asMicros < 9223372036854000000 ∨ i64Max < t.asMicros := by
      by_contra hgap
      have hle : t.asMicros ≤ i64Max := by omega
      exact hreturns none ⟨⟨0, 0⟩⟩ ((setAcceptTimeout_panics hlib hle).mpr (by omega))
    refine ⟨fun hpos => ?_, by omega⟩
    by_contra hsmall
    -- Less than a microsecond is handed to the kernel as no timeout.
    have hwithin : t.asMicros < 9223372036854000000 := by omega
    obtain ⟨tv, -, hset⟩ := setAcceptTimeout_within hlib none ⟨⟨0, 0⟩⟩ hwithin
    obtain ⟨b, hb, -⟩ := hbounded none _ ⟨tv⟩ hset hpos
    rw [acceptBound_of_ok hlib hset, if_pos (by omega)] at hb
    cases hb
  · rintro ⟨hsmall, hrange⟩
    refine ⟨fun fault l hpanic => ?_, fun fault l l' hok hpos => ?_,
      fun fault l l' e herror => setAcceptTimeout_kept herror⟩
    · by_cases hbeyond : i64Max < t.asMicros
      · rw [setAcceptTimeout_beyond fault l hbeyond] at hpanic
        cases hpanic
      · have hlarge := (setAcceptTimeout_panics hlib (by omega)).mp hpanic
        omega
    · have hleast := hsmall hpos
      have hbound := acceptBound_of_ok hlib hok
      rw [if_neg (by omega)] at hbound
      exact ⟨t.asMicros, hbound, by omega, by omega, by omega⟩

/-- What `serve` has done when it starts the heartbeat: it has armed the accept timeout and
judges idle ticks by three intervals, or it judges no idle ticks and says why. -/
theorem armWatchdog_cases {liveness : Liveness} {lines : List String}
    (hserve : armWatchdog lib fault l t = some (liveness, l', lines)) :
    (∃ c, t.checkedMul 3 = some c ∧ liveness = Liveness.new.withIdleTickCeiling c.toNanos ∧
      setAcceptTimeout lib fault l t = some (.ok (), l')) ∨
    (liveness = Liveness.new ∧ l' = l ∧ lines ≠ []) := by
  unfold armWatchdog at hserve
  obtain ⟨⟨outcome, l₁⟩, hset, hserve⟩ := Option.bind_eq_some_iff.mp hserve
  cases outcome with
  | ok _ =>
    obtain ⟨c, hc, hserve⟩ := Option.bind_eq_some_iff.mp hserve
    cases hserve
    exact .inl ⟨c, hc, rfl, hset⟩
  | error e =>
    cases hserve
    exact .inr ⟨rfl, setAcceptTimeout_kept hset, List.cons_ne_nil _ _⟩

end Arming

section Intervals

variable {watchdogUsec watchdogPid : Option String} {currentPid : UInt32} {d : Duration}
  {w : UInt64} {lib : TimeLibrary}

/-- The interval is the one that the heartbeat's statements speak of. -/
theorem toNanos_eq_petInterval (h : heartbeatFrom watchdogUsec watchdogPid currentPid = some d)
    (hw : Window watchdogUsec w) : d.toNanos = petInterval w.toNat :=
  (interval_eq h hw).2

/-- The loop that judges idle ticks has the ceilings of the heartbeat's statements, and its
blocking `accept` returns after one interval. -/
structure Paired (interval : Duration) (liveness : Liveness) (l : Listener) : Prop where
  /-- The ceilings. -/
  liveness_eq : liveness = Daemon.liveness interval.toNanos
  /-- The timeout of the listener. -/
  bounded : ∃ b, l.acceptBound = some b ∧ 0 < b ∧ b * 1000 = interval.toNanos

/-- An interval of a microsecond or more is never judged by without a timeout. -/
theorem paired_of_armWatchdog {fault : Option IoError} {l l' : Listener} {liveness : Liveness}
    {lines : List String} {ceiling : ℕ} (hlib : lib.Documented)
    (h : heartbeatFrom watchdogUsec watchdogPid currentPid = some d) (hw : Window watchdogUsec w)
    (hleast : 2 ≤ w.toNat)
    (hserve : armWatchdog lib fault l d = some (liveness, l', lines))
    (hceiling : liveness.idleTickCeiling = some ceiling) : Paired d liveness l' := by
  rcases armWatchdog_cases hserve with ⟨c, hc, rfl, hok⟩ | ⟨rfl, -, -⟩
  · obtain ⟨c', hc', hnanos⟩ := ceiling_eq h
    obtain rfl : c = c' := Option.some.inj (hc.symm.trans hc')
    obtain ⟨-, hd⟩ := interval_eq h hw
    have hmicros := d.asMicros_eq
    have hbound := acceptBound_of_ok hlib hok
    rw [if_neg (by omega)] at hbound
    exact ⟨by rw [hnanos]; rfl, d.asMicros, hbound, by omega, by omega⟩
  · cases hceiling

/-- **Arming.** `Socket::set_accept_timeout` bounds a blocking `accept` exactly for the
timeouts that pass through the three representations. Of the heartbeat's intervals for windows
of two microseconds or more these are the ones below a window of 18446744073708 seconds; and
for all of them `serve` judges idle ticks only with the accept timeout armed. -/
theorem arms_exactly (hlib : lib.Documented) :
    (∀ t, Arms lib t ↔ Passes t) ∧
      ∀ watchdogUsec watchdogPid currentPid d w,
        heartbeatFrom watchdogUsec watchdogPid currentPid = some d → Window watchdogUsec w →
        2 ≤ w.toNat → (Arms lib d ↔ w.toNat < 18446744073708000000) ∧
          ∀ fault l l' liveness lines ceiling,
            armWatchdog lib fault l d = some (liveness, l', lines) →
            liveness.idleTickCeiling = some ceiling → Paired d liveness l' := by
  refine ⟨fun t => arms_iff hlib, fun watchdogUsec watchdogPid currentPid d w h hw hleast => ?_⟩
  refine ⟨?_, fun fault l l' liveness lines ceiling hserve hceiling =>
    paired_of_armWatchdog hlib h hw hleast hserve hceiling⟩
  obtain ⟨-, hd⟩ := interval_eq h hw
  have hlt : w.toNat < 18446744073709551616 := w.toNat_lt
  rw [arms_iff hlib]
  constructor
  · rintro ⟨-, hrange⟩
    omega
  · intro hsmall
    exact ⟨fun _ => by omega, by omega⟩

end Intervals

/-- `TimeVal::microseconds`: whole seconds by floor division, and the rest. -/
def timeValMicroseconds (n : Int64) : Option TimeVal :=
  if -maxSeconds ≤ n.toInt / 1000000 ∧ n.toInt / 1000000 ≤ maxSeconds then
    some ⟨n.toInt / 1000000, n.toInt % 1000000⟩
  else none

/-- A library that keeps its promises. -/
def timeLibrary : TimeLibrary :=
  ⟨timeValMicroseconds, "out of range integral type conversion attempted"⟩

theorem timeLibrary_documented : timeLibrary.Documented where
  panics n := by
    show timeValMicroseconds n = none ↔ _
    unfold timeValMicroseconds
    split <;> simp [*]
  exact n tv h := by
    replace h : timeValMicroseconds n = some tv := h
    unfold timeValMicroseconds at h
    split at h
    · obtain rfl := Option.some.inj h
      exact Int.mul_ediv_add_emod n.toInt 1000000
    · cases h

/-- The window of a minute gives an interval that is armed. -/
theorem arms_exactly_half_minute :
    heartbeatFrom (some "60000000") none 42 = some (.fromMicros 30000000) ∧
      Arms timeLibrary (.fromMicros 30000000) := by
  have hinterval : heartbeatFrom (some "60000000") none 42 = some (.fromMicros 30000000) := rfl
  have hwindow : Window (some "60000000") 60000000 :=
    ⟨_, rfl, Numeral.parseU64_eq_ok.mp rfl⟩
  have harms := (arms_exactly timeLibrary_documented).2 _ _ _ _ _ hinterval hwindow (by decide)
  exact ⟨hinterval, harms.1.mpr (by decide)⟩

/-- Half a microsecond is no timeout at all, and the interval of the largest window panics. -/
theorem timeouts_lost :
    ¬Arms timeLibrary ⟨0, 500, by decide⟩ ∧
      heartbeatFrom (some "18446744073709551615") none 42 =
        some (.fromMicros 9223372036854775807) ∧
      ¬Arms timeLibrary (.fromMicros 9223372036854775807) := by
  refine ⟨fun h => ?_, rfl, fun h => ?_⟩
  · obtain ⟨b, hb, -⟩ := h.bounded none ⟨⟨0, 0⟩⟩ ⟨⟨0, 0⟩⟩ rfl (by decide)
    cases hb
  · exact h.returns none ⟨⟨0, 0⟩⟩ rfl

end UdsPolicy
