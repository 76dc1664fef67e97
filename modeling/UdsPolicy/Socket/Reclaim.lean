import UdsPolicy.Socket.Ownership

/-!
# Concurrent binds of one path

A reclaim proves a socket stale by connecting to it and then unlinks by path.
Between the two, another daemon that has made the same finding may have removed
the stale socket, bound its own in its place and returned. The unlink then
removes the entry of a live socket, and both daemons end with a socket. The
condition under which this does not happen is that every socket made at the path
since the probe has lost its listener again when the unlink comes.
-/

namespace UdsPolicy

open Runs (EveryStep)

namespace World

variable {w w' : World} {a : Agent} {act : Action}

/-- Somebody listens on an inode. -/
def Live (w : World) (i : ℕ) : Prop := (w.kernel.inode i).listener.isSome

/-- A step of a bind removes the entry of a live socket only in the clean-up of its own
failed bind, and then it is the socket that this bind has made. -/
def SparesLive (w : World) (act : Action) (w' : World) : Prop :=
  match act with
  | .step a _ =>
    match w.agents a with
    | .binding _ _ pc => ∀ j, w.kernel.socketAt = some j → w.Live j →
        w'.kernel.socketAt = some j ∨ ∃ error, pc = .cleanUp j error
    | _ => True
  | _ => True

/-- A reclaim comes to its unlink when nobody listens on a socket made at the path since
its probe. -/
def UnlinksProbed (w : World) (act : Action) : Prop :=
  match act with
  | .step a none =>
    match w.agents a with
    | .binding _ _ .removeStale =>
      ∀ j, w.kernel.socketAt = some j → w.probed a ≤ j → ¬w.Live j
    | _ => True
  | _ => True

/-- Every socket that has been bound and not dropped is the one that the path names, it is
live, and it is the only one. -/
structure Owned (w : World) : Prop where
  /-- The path names the socket. -/
  named : ∀ {a socket}, (w.agents a).socket? = some socket →
    w.kernel.socketAt = some socket.listener
  /-- Its agent listens on it. -/
  live : ∀ {a socket}, (w.agents a).socket? = some socket →
    (w.kernel.inode socket.listener).listener = some (.agent a)
  /-- No other agent has a socket. -/
  unique : ∀ {a b}, (w.agents a).socket?.isSome → (w.agents b).socket?.isSome → a = b

theorem not_live_iff {i : ℕ} : ¬w.Live i ↔ w.tenancy.holder i = none := by
  simp [Live, tenancy, Kernel.holders]

/-- What the tenancy says about sockets. -/
theorem owned_of_housed (hs : w.tenancy.Sound) (hh : w.tenancy.Housed) : w.Owned where
  named h := hh _ _ (phase_of_socket h)
  live h := listener_of_thing hs (by rw [phase_of_socket h]; rfl)
  unique ha hb := by
    obtain ⟨s, hs'⟩ := Option.isSome_iff_exists.mp ha
    obtain ⟨t, ht⟩ := Option.isSome_iff_exists.mp hb
    exact hh.unique hs (phase_of_socket hs') (phase_of_socket ht)

/-- Where tenants are under the name and the reclaim meets its condition, everything
that is removed by path is unheld or the remover's own. -/
theorem disciplined_of_unlinksProbed (hs : w.tenancy.Sound) (hh : w.tenancy.Housed)
    (hprobed : w.UnlinksProbed act) (hact : act ≠ .removeEntry) : w.Disciplined act := by
  unfold Disciplined
  split
  · exact absurd rfl hact
  · rename_i a
    split
    · rename_i hag
      intro j hj
      by_cases hlt : j < w.probed a
      · have hphase : w.tenancy.phase a = .cleared (w.probed a) := phase_of_binding hag
        exact hs.cleared hphase hj hlt
      · have hdead : ¬w.Live j := by
          simp only [UnlinksProbed, hag] at hprobed
          exact hprobed j hj (Nat.not_lt.mp hlt)
        exact not_live_iff.mp hdead
    · rename_i i error hag
      intro j hj
      have hown := hh a i (phase_of_binding hag)
      exact Option.some.inj (hj.symm.trans hown)
    · rename_i socket hag
      intro j hj
      have hown := hh a socket.listener (phase_of_dropping hag)
      exact Option.some.inj (hj.symm.trans hown)
    · trivial
  · trivial

/-- **Step lemma.** A step that meets the condition keeps every tenant under the path. -/
theorem step_sound_housed (h : w.tenancy.Sound ∧ w.tenancy.Housed)
    (hact : w.UnlinksProbed act ∧ act ≠ .removeEntry) (hstep : w.step act = some w') :
    w'.tenancy.Sound ∧ w'.tenancy.Housed := by
  have hdisciplined := disciplined_of_unlinksProbed h.1 h.2 hact.1 hact.2
  rcases step_stepsAs hstep with hmove | ⟨hnot, -⟩
  · exact ⟨hmove.sound h.1, hmove.housed h.1 h.2⟩
  · exact absurd hdisciplined hnot

/-- A step that meets the condition spares live sockets. -/
theorem sparesLive_of_unlinksProbed (h : w.tenancy.Sound ∧ w.tenancy.Housed)
    (hstep : w.step act = some w') (hact : w.UnlinksProbed act ∧ act ≠ .removeEntry) :
    w.SparesLive act w' := by
  have hdisciplined := disciplined_of_unlinksProbed h.1 h.2 hact.1 hact.2
  unfold SparesLive
  split
  · rename_i a fault
    split
    · rename_i process config pc hag
      intro j hj hlive
      obtain ⟨c, succ, hnext, -, rfl⟩ := step_of_binding hag hstep
      by_cases hunlink : fault = none ∧ c = .removeFile
      · obtain ⟨rfl, rfl⟩ := hunlink
        cases pc with
        | removeStale =>
          simp only [Disciplined, hag] at hdisciplined
          exact absurd (hdisciplined j hj) (fun hnone => not_live_iff.mpr hnone hlive)
        | cleanUp i error =>
          simp only [Disciplined, hag] at hdisciplined
          exact .inr ⟨error, by rw [hdisciplined j hj]⟩
        | _ => cases hnext
      · refine .inl (Kernel.exec_socketAt hj fun hnone hc => hunlink ⟨hnone, hc⟩)
    · trivial
  · trivial

/-- A reclaim that comes to its unlink when the condition fails removes a live socket. -/
theorem unlinksProbed_of_sparesLive (hstep : w.step act = some w')
    (hspares : w.SparesLive act w') : w.UnlinksProbed act := by
  unfold UnlinksProbed
  split
  · rename_i a
    split
    · rename_i hag
      intro j hj _ hlive
      simp only [SparesLive, hag] at hspares
      obtain ⟨c, succ, hnext, -, rfl⟩ := step_of_binding hag hstep
      cases hnext
      have hgone (process : Process) :
          (w.kernel.exec a process none .removeFile).2.socketAt = none := by
        simp only [Kernel.exec, Kernel.perform, Kernel.removeFile, (Kernel.target_of_socketAt hj).1]
        rfl
      rcases hspares j hj hlive with hkept | ⟨error, hpc⟩
      · exact absurd ((hgone _).symm.trans hkept) (by simp)
      · cases hpc
    · trivial
  · trivial

/-- **Concurrent binds.** In every run that no outsider interferes with, the steps of the
binds spare live sockets if and only if every reclaim unlinks under its condition; and then
each socket that has been bound and not dropped is live, the only one, and the one that
the path names. -/
theorem concurrent_binds {as : List Action} (hinit : w.Initial)
    (hact : ∀ act ∈ as, act ≠ .removeEntry) :
    (EveryStep step (fun w act _ => w.UnlinksProbed act) w as ↔ EveryStep step SparesLive w as) ∧
      (EveryStep step (fun w act _ => w.UnlinksProbed act) w as →
        ∀ w', w.run as = some w' → w'.Owned) := by
  have hpres : ∀ (w : World) act w', w.tenancy.Sound ∧ w.tenancy.Housed →
      w.UnlinksProbed act ∧ act ≠ .removeEntry → w.step act = some w' →
      w'.tenancy.Sound ∧ w'.tenancy.Housed := fun _ _ _ h hact hstep =>
    step_sound_housed h hact hstep
  have hstart := And.intro hinit.sound hinit.housed
  refine ⟨⟨fun hprobed => ?_, fun hspares => ?_⟩, fun hprobed w' hrun => ?_⟩
  · exact (hprobed.and_forall_mem hact).imp hpres
      (fun _ _ _ h hstep hact => sparesLive_of_unlinksProbed h hstep hact) hstart
  · refine EveryStep.imp (I := fun _ => True) (fun _ _ _ _ _ _ => trivial) ?_ trivial hspares
    intro w act w' _ hstep hspares
    exact unlinksProbed_of_sparesLive hstep hspares
  · obtain ⟨hs, hh⟩ := Runs.run_invariant hpres hstart (hprobed.and_forall_mem hact) hrun
    exact owned_of_housed hs hh

/-- A world in which a crashed daemon has left its socket behind. -/
def leftBehind : World where
  kernel :=
    { entry := some (.node (.socket 0))
      inode := fun _ => ⟨⟨0o755, 0, 0⟩, none, []⟩
      nextIno := 1
      directoryGroup := none
      connections := 0
      groupGid := fun _ => none
      stderr := [] }
  agents := fun _ => .idle
  probed := fun _ => 0
  accepted := []

theorem leftBehind_initial : leftBehind.Initial where
  idle _ := rfl
  existing i hi := by
    obtain rfl : 0 = i := Option.some.inj hi
    exact Nat.one_pos
  listening _ hi := absurd rfl hi
  strangers _ _ hi := by cases hi
  accepted := rfl

/-- Two daemons start, and both find the left-behind socket stale before either unlinks it.
The first goes on until its bind has returned. -/
def bothProbe : List Action :=
  [.start 0 rootProcess (.new "d" "/s"), .start 1 rootProcess (.new "d" "/s")] ++
    [.step 0 none, .step 0 none, .step 0 none] ++ [.step 1 none, .step 1 none, .step 1 none] ++
    [.step 0 none, .step 0 none, .step 0 none]

/-- Then the second daemon unlinks, binds and sets the mode. -/
def race : List Action := bothProbe ++ [.step 1 none, .step 1 none, .step 1 none]

/-- The second daemon's unlink takes the first one's live socket away, and in the end both
have a socket and listen. -/
theorem race_takes_live_socket :
    leftBehind.Initial ∧ (∀ act ∈ race, act ≠ .removeEntry) ∧
      ¬EveryStep step SparesLive leftBehind race ∧
      ∃ w, leftBehind.run race = some w ∧ (w.agents 0).socket? = some ⟨1, .new "d" "/s"⟩ ∧
        (w.agents 1).socket? = some ⟨2, .new "d" "/s"⟩ ∧ w.Live 1 ∧ w.Live 2 ∧ ¬w.Owned := by
  refine ⟨leftBehind_initial, ?_, ?_, ?_⟩
  · intro act hact
    rintro rfl
    simp [race, bothProbe] at hact
  · intro h
    have hunlink := (Runs.everyStep_append h rfl).2 _ rfl
    rcases hunlink.1 1 rfl rfl with hkept | ⟨error, hpc⟩
    · cases hkept
    · cases hpc
  · refine ⟨_, rfl, rfl, rfl, rfl, rfl, fun h => ?_⟩
    exact absurd (h.unique (a := 0) (b := 1) rfl rfl) (by decide)

/-- Two daemons start, both find the left-behind socket stale and both unlink it, before one of
them goes on. -/
def bothUnlink : List Action :=
  [.start 0 rootProcess (.new "d" "/s"), .start 1 rootProcess (.new "d" "/s")] ++
    [.step 0 none, .step 1 none, .step 0 none, .step 1 none, .step 0 none, .step 1 none] ++
    [.step 0 none, .step 1 none, .step 0 none, .step 0 none]

/-- The first unlink finds what was there at its probe, and the second finds nothing. -/
theorem bothUnlink_unlinksProbed :
    EveryStep step (fun w act _ => w.UnlinksProbed act) leftBehind bothUnlink := by
  refine .cons rfl trivial (.cons rfl trivial ?_)
  refine .cons rfl trivial (.cons rfl trivial (.cons rfl trivial (.cons rfl trivial ?_)))
  refine .cons rfl trivial (.cons rfl trivial ?_)
  refine .cons rfl (fun j hj hmade => ?_) (.cons rfl (fun j hj => ?_) ?_)
  · obtain rfl : 0 = j := Option.some.inj hj
    exact absurd hmade (by decide)
  · cases hj
  · exact .cons rfl trivial (.cons rfl trivial trivial)

/-- The second daemon is turned away, and the first one's socket is the only one. -/
theorem concurrent_binds_both :
    ∃ w, leftBehind.run bothUnlink = some w ∧ EveryStep step SparesLive leftBehind bothUnlink ∧
      w.Owned ∧ (w.agents 0).socket? = some ⟨1, .new "d" "/s"⟩ ∧
      ∃ error, w.agents 1 = .refused error := by
  have hbinds := @concurrent_binds _ bothUnlink leftBehind_initial (by simp [bothUnlink])
  refine ⟨_, rfl, hbinds.1.mp bothUnlink_unlinksProbed, ?_, rfl, _, rfl⟩
  exact hbinds.2 bothUnlink_unlinksProbed _ rfl

end World

end UdsPolicy
