import UdsPolicy.Watchdog.Heartbeat

/-!
# Under the service manager

The service manager kills a daemon that it has not heard of for longer than the
watchdog window. What it hears is the message that the daemon is ready, and then
the pets of the heartbeat thread. A daemon whose loop keeps its pace is never
killed, however long its calls take; and a loop that has stopped is not kept
alive by the heartbeat: the daemon is killed a bounded time after the last stamp.
-/

namespace UdsPolicy

open Runs (EveryStep)

/-- A daemon, with what the service manager knows of it. -/
structure Supervised where
  /-- The two threads of the daemon, the clock and the pets. -/
  daemon : Daemon
  /-- When the daemon has said that it is ready. -/
  readyAt : ℕ
  /-- When the daemon has been killed, if it has. -/
  killedAt : Option ℕ

/-- What happens next. -/
inductive SupervisedAction
  /-- Time passes, or a thread of the daemon takes a step. -/
  | daemon (act : DaemonAction)
  /-- The service manager kills the daemon. -/
  | kill

namespace Supervised

/-- When the service manager has last heard of the daemon. -/
def lastHeard (s : Supervised) : ℕ := s.daemon.pets.getLast?.getD s.readyAt

/-- The watchdog window, in nanoseconds. -/
def window (usec : ℕ) : ℕ := usec * 1000

/-- One action, or `none` if it cannot happen here: a daemon is killed only if nothing has been
heard of it for longer than the window, and does nothing afterwards. -/
def step (usec : ℕ) (limit : Option ℕ) (s : Supervised) : SupervisedAction → Option Supervised
  | .daemon act =>
    match s.killedAt with
    | none =>
      (s.daemon.step (petInterval usec) limit act).map fun daemon => { s with daemon := daemon }
    | some _ => none
  | .kill =>
    match s.killedAt with
    | none =>
      if s.lastHeard + window usec < s.daemon.now then
        some { s with killedAt := some s.daemon.now }
      else none
    | some _ => none

/-- The record is made at `t₀`, the daemon says at `readyAt` that it is ready, and the heartbeat
and the loop start at `t₁`. -/
def start (t₀ readyAt t₁ : ℕ) : Supervised := ⟨.start t₀ t₁, readyAt, none⟩

/-- The heartbeat is not late: what follows its sleep up to the check takes `late` at most, the
overrun of the sleep included. -/
def InTime (usec late : ℕ) (s : Supervised) : Prop :=
  s.daemon.now ≤ s.daemon.heart.since + petInterval usec + late

instance (usec late : ℕ) (s : Supervised) : Decidable (s.InTime usec late) :=
  inferInstanceAs (Decidable (_ ≤ _))

/-- The service manager is not late: it kills the daemon within `slack` of the end of the window. -/
def Prompt (usec slack : ℕ) (s : Supervised) : Prop :=
  s.killedAt = none → s.daemon.now ≤ s.lastHeard + window usec + slack

instance (usec slack : ℕ) (s : Supervised) : Decidable (s.Prompt usec slack) :=
  inferInstanceAs (Decidable (_ = _ → _ ≤ _))

/-- The longest that a loop may go without a stamp, in either of its states. -/
def ceiling (usec : ℕ) : ℕ := max (petInterval usec * 3) tenMinutes

variable {usec late slack t₁ : ℕ} {limit : Option ℕ} {s s' : Supervised} {act : SupervisedAction}

/-- What an action does. -/
theorem step_cases (hstep : s.step usec limit act = some s') :
    (∃ act' d, act = .daemon act' ∧ s.killedAt = none ∧
      s.daemon.step (petInterval usec) limit act' = some d ∧ s' = { s with daemon := d }) ∨
    (act = .kill ∧ s.killedAt = none ∧ s.lastHeard + window usec < s.daemon.now ∧
      s' = { s with killedAt := some s.daemon.now }) := by
  cases act with
  | daemon act' =>
    simp only [step] at hstep
    split at hstep
    · rename_i halive
      obtain ⟨d, hd, rfl⟩ := Option.map_eq_some_iff.mp hstep
      exact .inl ⟨act', d, rfl, halive, hd, rfl⟩
    · cases hstep
  | kill =>
    simp only [step] at hstep
    split at hstep
    · rename_i halive
      split at hstep
      · rename_i hlate
        cases hstep
        exact .inr ⟨rfl, halive, hlate, rfl⟩
      · cases hstep
    · cases hstep

/-- Nobody changes when the daemon has said that it is ready. -/
theorem readyAt_of_step (hstep : s.step usec limit act = some s') : s'.readyAt = s.readyAt := by
  rcases step_cases hstep with ⟨_, _, -, -, -, rfl⟩ | ⟨-, -, -, rfl⟩ <;> rfl

/-! ### A loop that keeps its pace -/

/-- What is known of a daemon whose loop keeps its pace. -/
structure Kept (usec late t₁ : ℕ) (s : Supervised) : Prop where
  /-- The record is in step with the loop. -/
  recorded : s.daemon.Recorded
  /-- The pets are regular. -/
  regular : s.daemon.Regular (petInterval usec + petInterval usec) t₁
  /-- The heartbeat is in time. -/
  inTime : s.InTime usec late
  /-- The daemon has not been killed. -/
  alive : s.killedAt = none

/-- The service manager has heard of the daemon within the window. -/
theorem Kept.now_le (h : Kept usec late t₁ s) (hready : t₁ + late ≤ s.readyAt + petInterval usec)
    (hlate : late ≤ petInterval usec) : s.daemon.now ≤ s.lastHeard + window usec := by
  have hlast := h.regular.last
  have hintime : s.daemon.now ≤ s.daemon.heart.since + petInterval usec + late := h.inTime
  have hwindow : petInterval usec + petInterval usec ≤ window usec := Daemon.two_intervals_le usec
  rw [List.getLast?_cons, Option.some.injEq] at hlast
  unfold lastHeard
  cases hpets : s.daemon.pets.getLast? with
  | none =>
    rw [hpets, Option.getD_none] at hlast
    rw [Option.getD_none]
    omega
  | some last =>
    rw [hpets, Option.getD_some] at hlast
    rw [Option.getD_some]
    omega

/-- **Step lemma.** A daemon whose loop keeps its pace is not killed. -/
theorem Kept.step (h : Kept usec late t₁ s) (hready : t₁ + late ≤ s.readyAt + petInterval usec)
    (hlate : late ≤ petInterval usec) (hstep : s.step usec limit act = some s')
    (hpaced : s'.daemon.Paced (petInterval usec)) (hintime : s'.InTime usec late) :
    Kept usec late t₁ s' := by
  rcases step_cases hstep with ⟨act', d, rfl, halive, hd, rfl⟩ | ⟨rfl, -, hkill, rfl⟩
  · have hnow : s.daemon.now ≤ s.daemon.heart.since + petInterval usec + late := h.inTime
    refine ⟨h.recorded.step hd, h.regular.step hd ?_ fun _ => ?_, hintime, halive⟩
    · exact Daemon.checksPet_of_paced h.recorded hd hpaced
    · omega
  · have hheard := h.now_le hready hlate
    omega

/-! ### A loop that has stopped -/

/-- What is known of the pets, whatever the loop does. -/
structure Heard (usec late : ℕ) (s : Supervised) : Prop where
  /-- The record is in step with the loop. -/
  recorded : s.daemon.Recorded
  /-- A sample is taken after a whole sleep. -/
  sampled : ∀ since sample, s.daemon.heart = .sampled since sample →
    since + petInterval usec ≤ sample
  /-- The last stamp lies in the past. -/
  stamped : s.daemon.stampedAt ≤ s.daemon.now
  /-- No pet comes long after the last stamp. -/
  heard : s.lastHeard ≤ max s.readyAt (s.daemon.stampedAt + ceiling usec + late)

/-- The loop stamps the present, if it stamps. -/
theorem loop_stamps {interval : ℕ} {d d' : Daemon} {accepted : Except IoError Caller}
    (hstep : d.step interval limit (.loop accepted) = some d') :
    d'.now = d.now ∧ (d'.stampedAt = d.stampedAt ∨ d'.stampedAt = d.now) := by
  obtain ⟨now, loop, activity, heart, pets, stampedAt⟩ := d
  cases loop with
  | returned served =>
    simp only [Daemon.step, LoopPc.next] at hstep
    split at hstep <;> cases hstep
    exact ⟨rfl, .inl rfl⟩
  | callStarted | callFinished | tick =>
    cases hstep
    exact ⟨rfl, .inr rfl⟩
  | accept | answer | eprintln =>
    cases hstep
    exact ⟨rfl, .inl rfl⟩

/-- **Step lemma.** No pet comes long after the last stamp. -/
theorem Heard.step (h : Heard usec late s) (hstep : s.step usec limit act = some s')
    (hintime : s.InTime usec late) : Heard usec late s' := by
  rcases step_cases hstep with ⟨act', d, rfl, -, hd, rfl⟩ | ⟨rfl, -, -, rfl⟩
  · have hrecorded := h.recorded.step hd
    have hstamped := h.stamped
    have hheard := h.heard
    cases act' with
    | pass t =>
      cases hd
      exact ⟨hrecorded, h.sampled, Nat.le_add_right_of_le hstamped, hheard⟩
    | loop accepted =>
      obtain ⟨hheart, hpets⟩ := Daemon.loop_keeps_heart hd
      obtain ⟨hnow, hstamp⟩ := loop_stamps hd
      refine ⟨hrecorded, ?_, ?_, ?_⟩
      · show ∀ since sample, d.heart = _ → _
        rw [hheart]
        exact h.sampled
      · show d.stampedAt ≤ d.now
        omega
      · simp only [lastHeard, hpets] at hheard ⊢
        omega
    | wake =>
      obtain ⟨since, -, hslept, rfl⟩ := Daemon.wake_eq_some hd
      refine ⟨hrecorded, fun since' sample hheart => ?_, hstamped, hheard⟩
      cases hheart
      exact hslept
    | check =>
      obtain ⟨since, sample, hheart, rfl⟩ := Daemon.check_eq_some hd
      refine ⟨hrecorded, fun _ _ hsleeping => ?_, hstamped, ?_⟩
      · cases hsleeping
      have hslept := h.sampled since sample hheart
      have hnow : s.daemon.now ≤ s.daemon.heart.since + petInterval usec + late := hintime
      rw [hheart] at hnow
      have hnow : s.daemon.now ≤ since + petInterval usec + late := hnow
      simp only [lastHeard] at hheard ⊢
      split
      · rename_i halive
        have hfresh := h.recorded.isAlive_iff.mp halive
        have hceiling : (if s.daemon.loop.answering then tenMinutes else petInterval usec * 3) ≤
            ceiling usec := by
          unfold ceiling
          split <;> omega
        rw [List.getLast?_concat, Option.getD_some]
        omega
      · exact hheard
  · exact ⟨h.recorded, h.sampled, h.stamped, h.heard⟩

/-- **Supervision.** A daemon is watched with a window of `usec` microseconds and arms its accept
timeout with half of it. While the loop keeps its pace and the heartbeat is not later than half
of the window, with its start counted in, the service manager never kills the daemon. And
whatever the loop does: as long as the heartbeat and the service manager are in time, a daemon
that has not been killed has stamped no longer ago than the ceiling of its loop and the window,
or has said that it is ready no longer ago than the window. -/
theorem supervised_daemon (usec : ℕ) (limit : Option ℕ) (t₀ readyAt t₁ late slack : ℕ)
    (as : List SupervisedAction) (s : Supervised)
    (hrun : Runs.run (step usec limit) (start t₀ readyAt t₁) as = some s) :
    (t₁ + late ≤ readyAt + petInterval usec → late ≤ petInterval usec →
      EveryStep (step usec limit) (fun _ _ s' => s'.daemon.Paced (petInterval usec) ∧
        s'.InTime usec late) (start t₀ readyAt t₁) as → s.killedAt = none) ∧
    (t₀ ≤ t₁ → (start t₀ readyAt t₁).Prompt usec slack →
      EveryStep (step usec limit) (fun _ _ s' => s'.InTime usec late ∧ s'.Prompt usec slack)
        (start t₀ readyAt t₁) as →
      s.killedAt = none → s.daemon.now ≤
        max readyAt (s.daemon.stampedAt + ceiling usec + late) + window usec + slack) := by
  have hbegins : (start t₀ readyAt t₁).InTime usec late := by
    show t₁ ≤ t₁ + petInterval usec + late
    omega
  refine ⟨fun hready hlate hall => ?_, fun htimes hprompt hall halive => ?_⟩
  · have hstart : Kept usec late t₁ (start t₀ readyAt t₁) ∧
        (start t₀ readyAt t₁).readyAt = readyAt :=
      ⟨⟨Daemon.start_recorded t₀ t₁, ⟨.singleton _, rfl⟩, hbegins, rfl⟩, rfl⟩
    have hpres : ∀ s act s', Kept usec late t₁ s ∧ s.readyAt = readyAt →
        s'.daemon.Paced (petInterval usec) ∧ s'.InTime usec late → step usec limit s act = some s' →
        Kept usec late t₁ s' ∧ s'.readyAt = readyAt := by
      rintro s act s' ⟨hkept, rfl⟩ ⟨hpaced, hintime⟩ hstep
      exact ⟨hkept.step hready hlate hstep hpaced hintime, readyAt_of_step hstep⟩
    exact (Runs.run_invariant hpres hstart hall hrun).1.alive
  · have hstart : Heard usec late (start t₀ readyAt t₁) :=
      ⟨Daemon.start_recorded t₀ t₁, nofun, htimes, Nat.le_max_left ..⟩
    have hpres : ∀ s act s', (Heard usec late s ∧ s.InTime usec late ∧ s.Prompt usec slack) ∧
          s.readyAt = readyAt →
        s'.InTime usec late ∧ s'.Prompt usec slack → step usec limit s act = some s' →
        (Heard usec late s' ∧ s'.InTime usec late ∧ s'.Prompt usec slack) ∧
          s'.readyAt = readyAt := by
      rintro s act s' ⟨⟨hheard, hintime, -⟩, rfl⟩ ⟨hintime', hprompt'⟩ hstep
      exact ⟨⟨hheard.step hstep hintime, hintime', hprompt'⟩, readyAt_of_step hstep⟩
    obtain ⟨⟨hheard, -, hlast⟩, rfl⟩ :=
      Runs.run_invariant hpres ⟨⟨hstart, hbegins, hprompt⟩, rfl⟩ hall hrun
    have hnow := hlast halive
    have hpets := hheard.heard
    omega

/-- An idle loop under a window of two seconds turns, is petted for, and is left alive. -/
theorem supervised_daemon_idle : ∃ s, Runs.run (step 2000000 none) (start 0 0 0)
    (Daemon.idleTurn.map .daemon) = some s ∧ s.daemon.pets = [1000000000] ∧ s.killedAt = none ∧
      s.daemon.now ≤ 1000000000 + ceiling 2000000 + window 2000000 := by
  have hall : EveryStep (step 2000000 none) (fun _ _ s' => s'.daemon.Paced (petInterval 2000000) ∧
      s'.InTime 2000000 0 ∧ s'.Prompt 2000000 0) (start 0 0 0) (Daemon.idleTurn.map .daemon) :=
    .cons rfl (by decide) (.cons rfl (by decide) (.cons rfl (by decide) (.cons rfl (by decide)
      (.cons rfl (by decide) (.cons rfl (by decide) trivial)))))
  obtain ⟨s, hrun, hpets, hstamped⟩ : ∃ s, Runs.run (step 2000000 none) (start 0 0 0)
      (Daemon.idleTurn.map .daemon) = some s ∧ s.daemon.pets = [1000000000] ∧
      s.daemon.stampedAt = 1000000000 := ⟨_, rfl, rfl, rfl⟩
  obtain ⟨hkept, hheard⟩ := supervised_daemon 2000000 none 0 0 0 0 0 _ s hrun
  have halive := hkept (by decide) (by decide)
    (hall.imp (fun _ _ _ _ _ _ => trivial) (fun _ _ _ _ _ h => ⟨h.1, h.2.1⟩) trivial)
  have hnow := hheard (Nat.le_refl 0) (by decide)
    (hall.imp (fun _ _ _ _ _ _ => trivial) (fun _ _ _ _ _ h => h.2) trivial) halive
  rw [hstamped] at hnow
  refine ⟨s, hrun, hpets, halive, ?_⟩
  omega

end Supervised

end UdsPolicy
