import Mathlib.Data.List.Chain
import UdsPolicy.General.Runs
import UdsPolicy.Watchdog.Serve

/-!
# The heartbeat pets while the loop is busy, and stops when it is wedged

The record always says when the loop stamped last, and whether a call has been
in flight since. A check looks at the record with a clock sample that is not
later than the present, so a loop that keeps its pace is never judged wedged; and
a sample that lies too far after the last stamp is judged wedged in either state.
How far pets lie apart depends on two delays: that of the sleep, and that of the
check after it.
-/

namespace UdsPolicy

open Runs (EveryStep)

/-- Half the watchdog window of `usec` microseconds, as `heartbeat_from` computes it, in
nanoseconds. -/
def petInterval (usec : ℕ) : ℕ := usec / 2 * 1000

/-- Ten minutes. -/
def tenMinutes : ℕ := 600 * 10 ^ 9

namespace Daemon

variable {interval : ℕ} {limit : Option ℕ} {d d' : Daemon} {act : DaemonAction}

/-- The loop keeps its pace: at most three intervals since its last stamp while no call is in
flight, and at most ten minutes since a call has started. -/
def Paced (interval : ℕ) (d : Daemon) : Prop :=
  d.now ≤ d.stampedAt + if d.loop.answering then tenMinutes else interval * 3

instance (interval : ℕ) (d : Daemon) : Decidable (d.Paced interval) :=
  inferInstanceAs (Decidable (_ ≤ _))

/-- A sleep that ends has lasted at most `overshoot` longer than asked. -/
def SleepsInTime (interval overshoot : ℕ) (d : Daemon) (act : DaemonAction) (_ : Daemon) : Prop :=
  act = .wake → ∀ since, d.heart = .sleeping since → d.now ≤ since + interval + overshoot

/-- A check comes at most `delay` after its sample. -/
def ChecksInTime (delay : ℕ) (d : Daemon) (act : DaemonAction) (_ : Daemon) : Prop :=
  act = .check → ∀ since sample, d.heart = .sampled since sample → d.now ≤ sample + delay

instance (interval overshoot : ℕ) (d : Daemon) (act : DaemonAction) (d' : Daemon) :
    Decidable (d.SleepsInTime interval overshoot act d') :=
  match act, hheart : d.heart with
  | .wake, .sleeping since => decidable_of_iff (d.now ≤ since + interval + overshoot)
      ⟨fun h _ _ hs => by cases hheart.symm.trans hs; exact h, fun h => h rfl since hheart⟩
  | .wake, .sampled _ _ => .isTrue fun _ _ hs => nomatch hheart.symm.trans hs
  | .pass _, _ | .loop _, _ | .check, _ => .isTrue nofun

instance (delay : ℕ) (d : Daemon) (act : DaemonAction) (d' : Daemon) :
    Decidable (d.ChecksInTime delay act d') :=
  match act, hheart : d.heart with
  | .check, .sampled since sample => decidable_of_iff (d.now ≤ sample + delay)
      ⟨fun h _ _ _ hs => by cases hheart.symm.trans hs; exact h, fun h => h rfl since sample hheart⟩
  | .check, .sleeping _ => .isTrue fun _ _ _ hs => nomatch hheart.symm.trans hs
  | .pass _, _ | .loop _, _ | .wake, _ => .isTrue nofun

/-- A check pets. -/
def ChecksPet (d : Daemon) (act : DaemonAction) (d' : Daemon) : Prop :=
  act = .check → d'.pets = d.pets ++ [d.now]

/-- A check whose sample lies too far after the time of the last stamp does not pet. -/
def SilentWhenWedged (interval : ℕ) (d : Daemon) (act : DaemonAction) (d' : Daemon) : Prop :=
  act = .check → ∀ since sample t, d.heart = .sampled since sample → d.stampedAt ≤ t →
    t + max (interval * 3) tenMinutes < sample → d'.pets = d.pets

/-- What the record says about the loop. -/
structure Recorded (d : Daemon) : Prop where
  /-- A call in flight is bounded and started at the last stamp; without one, the last stamp
  was a turn. -/
  record : ∃ state, d.activity = ⟨⟨state, false⟩⟩ ∧
    if d.loop.answering then state.inFlight = some ⟨.bounded, d.stampedAt, d.stampedAt⟩
    else state = ⟨d.stampedAt, none⟩
  /-- A sample is not later than the present. -/
  sample_le : ∀ since sample, d.heart = .sampled since sample → sample ≤ d.now

/-- What waking does. -/
theorem wake_eq_some (hstep : d.step interval limit .wake = some d') :
    ∃ since, d.heart = .sleeping since ∧ since + interval ≤ d.now ∧
      d' = { d with heart := .sampled since d.now } := by
  simp only [Daemon.step] at hstep
  split at hstep
  · rename_i since hheart
    split at hstep
    · rename_i hslept
      cases hstep
      exact ⟨since, hheart, hslept, rfl⟩
    · cases hstep
  · cases hstep

/-- What a check does. -/
theorem check_eq_some (hstep : d.step interval limit .check = some d') :
    ∃ since sample, d.heart = .sampled since sample ∧ d' = { d with
      heart := .sleeping d.now
      pets :=
        if d.activity.isAlive sample (liveness interval) then d.pets ++ [d.now] else d.pets } := by
  simp only [Daemon.step] at hstep
  split at hstep
  · cases hstep
  · rename_i since sample hheart
    cases hstep
    exact ⟨since, sample, hheart, rfl⟩

theorem start_recorded (t₀ t₁ : ℕ) : (start t₀ t₁).Recorded :=
  ⟨⟨_, rfl, rfl⟩, nofun⟩

/-- **Step lemma.** Every action keeps the record in step with the loop. -/
theorem Recorded.step (h : d.Recorded) (hstep : d.step interval limit act = some d') :
    d'.Recorded := by
  obtain ⟨now, loop, activity, heart, pets, stampedAt⟩ := d
  obtain ⟨⟨state, rfl, hrecord⟩, hsample⟩ := h
  cases act with
  | pass t =>
    cases hstep
    refine ⟨⟨state, rfl, hrecord⟩, fun since sample hheart => ?_⟩
    have hle : sample ≤ now := hsample since sample hheart
    exact Nat.le_add_right_of_le hle
  | wake =>
    obtain ⟨since, -, -, rfl⟩ := wake_eq_some hstep
    refine ⟨⟨state, rfl, hrecord⟩, fun since' sample hheart => ?_⟩
    cases hheart
    exact Nat.le_refl _
  | check =>
    obtain ⟨since, sample, -, rfl⟩ := check_eq_some hstep
    exact ⟨⟨state, rfl, hrecord⟩, nofun⟩
  | loop accepted =>
    cases loop with
    | accept served =>
      cases hstep
      refine ⟨⟨state, rfl, ?_⟩, hsample⟩
      rcases accepted with ⟨kind, text⟩ | caller
      · cases kind <;> exact hrecord
      · exact hrecord
    | callStarted served caller =>
      cases hstep
      exact ⟨⟨_, rfl, rfl⟩, hsample⟩
    | answer served caller =>
      cases hstep
      exact ⟨⟨state, rfl, hrecord⟩, hsample⟩
    | callFinished served =>
      cases hstep
      exact ⟨⟨_, rfl, rfl⟩, hsample⟩
    | eprintln served line =>
      cases hstep
      exact ⟨⟨state, rfl, hrecord⟩, hsample⟩
    | tick served =>
      cases hstep
      obtain rfl : state = ⟨stampedAt, none⟩ := hrecord
      exact ⟨⟨_, rfl, rfl⟩, hsample⟩
    | returned served =>
      simp only [Daemon.step, LoopPc.next] at hstep
      split at hstep
      · cases hstep
        exact ⟨⟨state, rfl, hrecord⟩, hsample⟩
      · cases hstep

/-- A check answers whether the sample lies within the ceiling of the loop's state. -/
theorem Recorded.isAlive_iff (h : d.Recorded) {sample : ℕ} :
    d.activity.isAlive sample (liveness interval) = true ↔
      sample - d.stampedAt ≤ if d.loop.answering then tenMinutes else interval * 3 := by
  obtain ⟨state, hactivity, hrecord⟩ := h.record
  rw [hactivity]
  split at hrecord
  · rename_i hanswering
    rw [ServeActivity.isAlive_bounded hrecord, if_pos hanswering]
    exact decide_eq_true_iff
  · rename_i hidle
    subst hrecord
    rw [ServeActivity.isAlive_idle rfl, if_neg hidle]
    exact decide_eq_true_iff

/-- A loop that keeps its pace is not judged wedged, even by an old sample. -/
theorem checksPet_of_paced (h : d.Recorded) (hstep : d.step interval limit act = some d')
    (hpaced : d'.Paced interval) : d.ChecksPet act d' := by
  rintro rfl
  obtain ⟨since, sample, hheart, rfl⟩ := check_eq_some hstep
  have hle := h.sample_le since sample hheart
  have halive : d.activity.isAlive sample (liveness interval) = true := by
    rw [h.isAlive_iff]
    have hnow : d.now ≤ d.stampedAt + if d.loop.answering then tenMinutes else interval * 3 :=
      hpaced
    omega
  simp only [if_pos halive]

/-- A sample beyond both ceilings is judged wedged. -/
theorem silent_when_wedged (h : d.Recorded) (hstep : d.step interval limit act = some d') :
    d.SilentWhenWedged interval act d' := by
  rintro rfl since sample t hheart hstamped hlate
  obtain ⟨since', sample', hheart', rfl⟩ := check_eq_some hstep
  cases hheart.symm.trans hheart'
  have hdead : ¬d.activity.isAlive sample (liveness interval) = true := by
    rw [h.isAlive_iff]
    split <;> omega
  simp only [if_neg hdead]

/-- The loop does not touch the heartbeat. -/
theorem loop_keeps_heart {accepted : Except IoError Caller}
    (hstep : d.step interval limit (.loop accepted) = some d') :
    d'.heart = d.heart ∧ d'.pets = d.pets := by
  obtain ⟨now, loop, activity, heart, pets, stampedAt⟩ := d
  cases loop with
  | returned served =>
    simp only [Daemon.step, LoopPc.next] at hstep
    split at hstep <;> cases hstep
    exact ⟨rfl, rfl⟩
  | _ =>
    cases hstep
    exact ⟨rfl, rfl⟩

/-- The pets so far, from the start of the heartbeat to the beginning of its last sleep, are
no further apart than `gap`. -/
structure Regular (gap t₁ : ℕ) (d : Daemon) : Prop where
  /-- Each pet comes within `gap` of the one before. -/
  gaps : List.IsChain (fun x y => y ≤ x + gap) (t₁ :: d.pets)
  /-- The last sleep began at the last pet. -/
  last : (t₁ :: d.pets).getLast? = some d.heart.since

/-- **Step lemma.** Checks that pet in time keep the pets regular. -/
theorem Regular.step {gap t₁ : ℕ} (h : d.Regular gap t₁)
    (hstep : d.step interval limit act = some d') (hpets : d.ChecksPet act d')
    (hintime : act = .check → d.now ≤ d.heart.since + gap) : d'.Regular gap t₁ := by
  cases act with
  | check =>
    obtain ⟨since, sample, hheart, rfl⟩ := check_eq_some hstep
    have hpet := hpets rfl
    constructor
    · rw [hpet, ← List.cons_append]
      refine h.gaps.append (.singleton _) fun x hx y hy => ?_
      rw [h.last] at hx
      cases hx
      cases hy
      exact hintime rfl
    · rw [hpet, ← List.cons_append, List.getLast?_concat]
      rfl
  | pass t =>
    cases hstep
    exact ⟨h.gaps, h.last⟩
  | wake =>
    obtain ⟨since, hheart, -, rfl⟩ := wake_eq_some hstep
    refine ⟨h.gaps, ?_⟩
    have hlast := h.last
    rw [hheart] at hlast
    exact hlast
  | loop accepted =>
    obtain ⟨hheart, hsame⟩ := loop_keeps_heart hstep
    exact ⟨by rw [hsame]; exact h.gaps, by rw [hsame, hheart]; exact h.last⟩

/-- What is known of a heartbeat whose sleeps are in time. -/
structure Rested (interval overshoot : ℕ) (d : Daemon) : Prop where
  /-- A sample is taken at most `overshoot` after the end of a sleep. -/
  sample_le : ∀ since sample, d.heart = .sampled since sample →
    sample ≤ since + interval + overshoot

/-- **Step lemma.** If sleeps end in time, samples are taken in time. -/
theorem Rested.step {overshoot : ℕ} (h : d.Rested interval overshoot)
    (hstep : d.step interval limit act = some d')
    (hsleeps : d.SleepsInTime interval overshoot act d') : d'.Rested interval overshoot := by
  cases act with
  | pass t =>
    cases hstep
    exact ⟨h.sample_le⟩
  | wake =>
    obtain ⟨since, hheart, -, rfl⟩ := wake_eq_some hstep
    refine ⟨fun since' sample hsampled => ?_⟩
    cases hsampled
    exact hsleeps rfl since hheart
  | check =>
    obtain ⟨since, sample, -, rfl⟩ := check_eq_some hstep
    refine ⟨fun since' sample' hsleeping => ?_⟩
    cases hsleeping
  | loop accepted =>
    obtain ⟨hheart, -⟩ := loop_keeps_heart hstep
    exact ⟨by rw [hheart]; exact h.sample_le⟩

/-- A check that comes in time after a sleep in time is not late. -/
theorem Rested.now_le {overshoot delay : ℕ} (h : d.Rested interval overshoot)
    (hstep : d.step interval limit .check = some d')
    (hchecks : d.ChecksInTime delay .check d') :
    d.now ≤ d.heart.since + (interval + overshoot + delay) := by
  obtain ⟨since, sample, hheart, -⟩ := check_eq_some hstep
  have hsample := h.sample_le since sample hheart
  have hnow := hchecks rfl since sample hheart
  rw [hheart]
  show d.now ≤ since + (interval + overshoot + delay)
  omega

/-- The interval times two is within the watchdog window. -/
theorem two_intervals_le (usec : ℕ) : petInterval usec + petInterval usec ≤ usec * 1000 := by
  unfold petInterval
  omega

/-- **Heartbeat.** With the accept timeout armed to half the watchdog window, and for every
run of the two threads: while the loop keeps its pace every check pets, and then pets are no
further apart than the interval, the overshoot of a sleep and the delay of a check together,
which is within the window if the last two make up one interval at most; and a check whose
sample is more than three intervals and more than ten minutes after the loop's last stamp does
not pet. -/
theorem heartbeat_tracks_loop (usec overshoot delay : ℕ) (limit : Option ℕ) (t₀ t₁ : ℕ)
    (as : List DaemonAction) :
    let interval := petInterval usec
    let step := Daemon.step interval limit
    (EveryStep step (fun _ _ d' => d'.Paced interval) (start t₀ t₁) as →
      EveryStep step ChecksPet (start t₀ t₁) as ∧
      (EveryStep step (SleepsInTime interval overshoot) (start t₀ t₁) as →
        EveryStep step (ChecksInTime delay) (start t₀ t₁) as →
        ∀ d', Runs.run step (start t₀ t₁) as = some d' →
          List.IsChain (fun x y => y ≤ x + (interval + overshoot + delay)) (t₁ :: d'.pets) ∧
          (overshoot + delay ≤ interval →
            List.IsChain (fun x y => y ≤ x + usec * 1000) (t₁ :: d'.pets)))) ∧
    EveryStep step (SilentWhenWedged interval) (start t₀ t₁) as := by
  intro interval step
  have hpres : ∀ d act d', d.Recorded → True → step d act = some d' → d'.Recorded :=
    fun _ _ _ h _ hstep => h.step hstep
  have hstart := start_recorded t₀ t₁
  refine ⟨fun hpaced => ?_, ?_⟩
  · have hpets : EveryStep step ChecksPet (start t₀ t₁) as :=
      EveryStep.imp (fun d act d' h _ hstep => hpres d act d' h trivial hstep)
        (fun _ _ _ h hstep hpaced => checksPet_of_paced h hstep hpaced) hstart hpaced
    refine ⟨hpets, fun hsleeps hchecks d' hrun => ?_⟩
    have hkeep : ∀ d act d',
        Regular (interval + overshoot + delay) t₁ d ∧ d.Rested interval overshoot →
        d.ChecksPet act d' ∧ d.SleepsInTime interval overshoot act d' ∧
          d.ChecksInTime delay act d' → step d act = some d' →
        Regular (interval + overshoot + delay) t₁ d' ∧ d'.Rested interval overshoot := by
      rintro d act d' ⟨hregular, hrested⟩ ⟨hpet, hsleep, hcheck⟩ hstep
      refine ⟨hregular.step hstep hpet ?_, hrested.step hstep hsleep⟩
      rintro rfl
      exact hrested.now_le hstep hcheck
    have hbegin : Regular (interval + overshoot + delay) t₁ (start t₀ t₁) ∧
        (start t₀ t₁).Rested interval overshoot :=
      ⟨⟨.singleton _, rfl⟩, ⟨nofun⟩⟩
    have hregular := Runs.run_invariant hkeep hbegin (hpets.and (hsleeps.and hchecks)) hrun
    refine ⟨hregular.1.gaps, fun hlate => hregular.1.gaps.imp fun x y hgap => ?_⟩
    have hwindow : interval + interval ≤ usec * 1000 := two_intervals_le usec
    omega
  · have hall : EveryStep step (fun _ _ _ => True) (start t₀ t₁) as :=
      Runs.everyStep_of_forall (fun _ _ _ _ => trivial) _ _
    exact EveryStep.imp hpres (fun _ _ _ h hstep _ => silent_when_wedged h hstep) hstart hall

/-- The loop performs its next operation; an `accept` has run into its timeout. -/
def idle : DaemonAction :=
  .loop (.error ⟨.wouldBlock, "Resource temporarily unavailable (os error 11)"⟩)

/-- An idle loop turns through one accept timeout before the first check of the heartbeat. -/
def idleTurn : List DaemonAction := [idle, .pass (petInterval 2000000), idle, .wake, idle, .check]

/-- It turns through one more. -/
def nextTurn : List DaemonAction := [idle, .pass (petInterval 2000000), idle, idle]

/-- The second sleep lasts a quarter of a second too long, and its check comes half a second later
than its sample. -/
def lateCheck : List DaemonAction :=
  idleTurn ++ nextTurn ++ [idle, .pass 250000000, .wake, .pass 500000000, .check]

/-- The first check pets although its sample is older than the loop's tick, and the second one,
which is late, still pets within the window. -/
theorem heartbeat_tracks_loop_late : ∃ d, Runs.run (Daemon.step (petInterval 2000000) none)
    (start 0 0) lateCheck = some d ∧ d.pets = [1000000000, 2750000000] ∧
      List.IsChain (fun x y => y ≤ x + 2000000 * 1000) (0 :: d.pets) := by
  have hpets := ((heartbeat_tracks_loop 2000000 250000000 500000000 none 0 0 lateCheck).1
    (by decide)).2 (by decide) (by decide)
  exact ⟨_, rfl, rfl, (hpets _ rfl).2 (by decide)⟩

/-- The second sleep lasts one interval too long, and its check comes half a second later than its
sample. -/
def laterCheck : List DaemonAction :=
  idleTurn ++ nextTurn ++ nextTurn ++ [.wake, idle, .pass 500000000, .check]

/-- The loop keeps its pace and no sleep lasts more than one interval too long, yet two pets lie
two and a half seconds apart, with a window of two seconds. -/
theorem pets_beyond_window :
    EveryStep (Daemon.step (petInterval 2000000) none)
      (fun _ _ d' => d'.Paced (petInterval 2000000)) (start 0 0) laterCheck ∧
    EveryStep (Daemon.step (petInterval 2000000) none)
      (SleepsInTime (petInterval 2000000) (petInterval 2000000)) (start 0 0) laterCheck ∧
    ∃ d, Runs.run (Daemon.step (petInterval 2000000) none) (start 0 0) laterCheck = some d ∧
      d.pets = [1000000000, 3500000000] ∧
      ¬List.IsChain (fun x y => y ≤ x + 2000000 * 1000) d.pets :=
  ⟨by decide, by decide, _, rfl, rfl, by decide⟩

end Daemon

end UdsPolicy
