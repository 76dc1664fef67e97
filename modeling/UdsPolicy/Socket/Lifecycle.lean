import UdsPolicy.Socket.Drop

/-!
# Binds and drops that take turns

When binds and drops do not overlap and nobody else touches the path, a process
may still be killed between any two operations. In every such run at most one
socket is live and the path names it. A bind that begins while a socket is live
is refused and changes nothing, and a bind that begins while none is live ends
with a socket, whatever the crashes before it have left behind.
-/

namespace UdsPolicy

open Runs (EveryStep)
open Tenancy (Phase)

namespace BindPc

/-- The operations about the group, whose outcome is left open. -/
def aboutGroup : BindPc → Bool
  | .groupFromName .. | .chown .. => true
  | _ => false

/-- The control points up to the probe. -/
def probing : BindPc → Bool
  | .exists_ | .symlinkMetadata | .connect => true
  | _ => false

/-- How many operations a bind has left at most. -/
def rank : BindPc → ℕ
  | .exists_ => 9
  | .symlinkMetadata => 8
  | .connect => 7
  | .removeStale => 6
  | .bindListener => 5
  | .setPermissions _ => 4
  | .groupFromName _ _ => 3
  | .chown _ _ _ => 2
  | .eprintln _ _ | .cleanUp _ _ | .closeListener _ _ => 1
  | .returned _ => 0

end BindPc

/-- How many operations an agent has left in its bind at most. -/
def AgentState.left : AgentState → ℕ
  | .binding _ _ pc => pc.rank
  | _ => 0

theorem AgentState.left_afterBind_le (process : Process) (config : SocketConfig) (pc : BindPc) :
    (AgentState.afterBind process config pc).left ≤ pc.rank := by
  cases pc with
  | returned result => cases result <;> exact Nat.le_refl 0
  | _ => exact Nat.le_refl _

namespace World

variable {w w' : World} {a b : Agent} {act : Action} {process : Process} {config : SocketConfig}
  {pc pc' : BindPc} {fault : Option IoError}

/-- Binds and drops begin only when nobody else is in the middle of one, nobody else touches
the path, and only the operations about the group fail for outside reasons. -/
def InTurn (w : World) (act : Action) : Prop :=
  match act with
  | .start _ _ _ | .beginDrop _ => w.AtRest
  | .step a (some _) => ∃ process config pc, w.agents a = .binding process config pc ∧ pc.aboutGroup
  | .strangerCloses _ | .removeEntry => False
  | .step _ none | .kill _ | .clientConnects _ | .accept _ _ => True

/-- What the path is known to name at a control point of a bind that nobody interferes with.
The clean-up of a failed bind is never reached. -/
def Ready (w : World) (a : Agent) : BindPc → Prop
  | .symlinkMetadata | .connect => w.kernel.entry ≠ none
  | .removeStale => w.kernel.entry ≠ none ∧ w.kernel.nextIno ≤ w.probed a
  | .bindListener => w.kernel.entry = none
  | .cleanUp _ _ | .closeListener _ _ | .returned _ => False
  | _ => True

/-- The invariant of runs in which binds and drops take turns. -/
structure Orderly (w : World) : Prop where
  /-- The tenancy is sound. -/
  sound : w.tenancy.Sound
  /-- Every tenant is under the path. -/
  housed : w.tenancy.Housed
  /-- A live socket under the path has its tenant. -/
  attended : w.tenancy.Attended
  /-- The path names a socket or nothing. -/
  sockets : ∀ e, w.kernel.entry = some e → ∃ i, e = .node (.socket i)
  /-- At most one agent is in the middle of a bind or a drop. -/
  alone : ∀ a b, (w.agents a).busy = true → (w.agents b).busy = true → a = b
  /-- A bind knows what the path names. -/
  ready : ∀ a process config pc, w.agents a = .binding process config pc → w.Ready a pc

/-- The steps of a bind that nobody interferes with. -/
inductive Goes (w : World) (config : SocketConfig) : BindPc → BindPc → Prop
  | free : w.kernel.entry = none → Goes w config .exists_ .bindListener
  | taken : w.kernel.entry ≠ none → Goes w config .exists_ .symlinkMetadata
  | isSocket : Goes w config .symlinkMetadata .connect
  | live {i : ℕ} : w.kernel.socketAt = some i → w.Live i →
      Goes w config .connect (.returned (.error (.alreadyActive config.socketPath)))
  | stale {i : ℕ} : w.kernel.socketAt = some i → ¬w.Live i → Goes w config .connect .removeStale
  | unlinked : Goes w config .removeStale .bindListener
  | bound : Goes w config .bindListener (.setPermissions w.kernel.nextIno)
  | modeSet {i : ℕ} : Goes w config (.setPermissions i) (.returned (.ok ⟨i, config⟩))
  | groupAsked {i : ℕ} {group : String} : Goes w config (.setPermissions i) (.groupFromName i group)
  | resolved {i : ℕ} {group : String} {gid : UInt32} :
      Goes w config (.groupFromName i group) (.chown i group gid)
  | unresolved {i : ℕ} {group line : String} :
      Goes w config (.groupFromName i group) (.eprintln i line)
  | given {i : ℕ} {group : String} {gid : UInt32} :
      Goes w config (.chown i group gid) (.returned (.ok ⟨i, config⟩))
  | notGiven {i : ℕ} {group line : String} {gid : UInt32} :
      Goes w config (.chown i group gid) (.eprintln i line)
  | reported {i : ℕ} {line : String} :
      Goes w config (.eprintln i line) (.returned (.ok ⟨i, config⟩))

/-- Every step brings a bind closer to its return. -/
theorem Goes.rank_lt (h : w.Goes config pc pc') : pc'.rank < pc.rank := by
  cases h <;> simp [BindPc.rank]

/-- The effect of a step on what the path names: the unlink frees it, the bind takes it, and
nothing else touches it. -/
structure Leaves (w : World) (pc : BindPc) (k : Kernel) : Prop where
  /-- The unlink frees the path. -/
  freed : pc = .removeStale → k.entry = none
  /-- Only the unlink and the bind change the entry. -/
  kept : pc ≠ .removeStale → pc ≠ .bindListener → k.entry = w.kernel.entry
  /-- Only the bind makes an inode. -/
  made : pc ≠ .bindListener → k.nextIno = w.kernel.nextIno

theorem leaves_of_sameDirectory {k : Kernel} (hk : w.kernel.SameDirectory k)
    (hpc : pc ≠ .removeStale) : w.Leaves pc k :=
  ⟨fun h => absurd h hpc, fun _ _ => hk.entry, fun _ => hk.nextIno⟩

/-- Only the operations about the group fail for outside reasons. -/
theorem InTurn.fault_eq_none (hact : w.InTurn (.step a fault))
    (h : ∀ process config pc, w.agents a = .binding process config pc → pc.aboutGroup = false) :
    fault = none := by
  cases fault with
  | none => rfl
  | some e =>
    obtain ⟨process, config, pc, hag, hgroup⟩ := hact
    rw [h process config pc hag] at hgroup
    cases hgroup

/-- **Bind step.** What one step of a bind does in an orderly world. -/
theorem Orderly.bind_goes (h : w.Orderly) (hag : w.agents a = .binding process config pc)
    (hact : w.InTurn (.step a fault)) (hstep : w.step (.step a fault) = some w') :
    ∃ pc' k, w' = w.afterBindStep a process config pc (pc', k) ∧ w.Goes config pc pc' ∧
      w.Leaves pc k := by
  have hready := h.ready a process config pc hag
  have hnone (hgroup : pc.aboutGroup = false) : fault = none := by
    refine hact.fault_eq_none fun _ _ _ hag' => ?_
    cases hag.symm.trans hag'
    exact hgroup
  obtain ⟨c, succ, hnext, -, rfl⟩ := step_of_binding hag hstep
  refine ⟨_, _, rfl, ?_⟩
  cases pc with
  | exists_ =>
    cases hnext
    obtain rfl := hnone rfl
    refine ⟨?_, leaves_of_sameDirectory (.refl _) (by simp)⟩
    cases hentry : w.kernel.entry with
    | none =>
      simp only [Kernel.exec, Kernel.perform, Kernel.target, hentry]
      exact .free hentry
    | some e =>
      obtain ⟨i, rfl⟩ := h.sockets e hentry
      simp only [Kernel.exec, Kernel.perform, Kernel.target, hentry]
      exact .taken (by simp [hentry])
  | symlinkMetadata =>
    cases hnext
    obtain rfl := hnone rfl
    refine ⟨?_, leaves_of_sameDirectory (.refl _) (by simp)⟩
    obtain ⟨e, hentry⟩ := Option.ne_none_iff_exists'.mp hready
    obtain ⟨i, rfl⟩ := h.sockets e hentry
    simp only [Kernel.exec, Kernel.perform, Kernel.symlinkMetadata, hentry]
    exact .isSocket
  | connect =>
    cases hnext
    obtain rfl := hnone rfl
    refine ⟨?_, leaves_of_sameDirectory (w.kernel.sameDirectory_connect _) (by simp)⟩
    obtain ⟨e, hentry⟩ := Option.ne_none_iff_exists'.mp hready
    obtain ⟨i, rfl⟩ := h.sockets e hentry
    have hsocket : w.kernel.socketAt = some i := by simp only [Kernel.socketAt, hentry]
    simp only [Kernel.exec, Kernel.perform, Kernel.connect, (Kernel.target_of_socketAt hsocket).2]
    by_cases hlive : (w.kernel.inode i).listener.isSome = true
    · rw [if_pos hlive]
      exact .live hsocket hlive
    · rw [if_neg hlive]
      exact .stale hsocket hlive
  | removeStale =>
    cases hnext
    obtain rfl := hnone rfl
    obtain ⟨e, hentry⟩ := Option.ne_none_iff_exists'.mp hready.1
    obtain ⟨i, rfl⟩ := h.sockets e hentry
    simp only [Kernel.exec, Kernel.perform, Kernel.removeFile, hentry]
    exact ⟨.unlinked, fun _ => rfl, fun hpc => absurd rfl hpc, fun _ => rfl⟩
  | bindListener =>
    cases hnext
    obtain rfl := hnone rfl
    have hentry : w.kernel.entry = none := hready
    simp only [Kernel.exec, Kernel.perform, Kernel.bindListener, hentry]
    refine ⟨.bound, fun hpc => ?_, fun _ hpc => absurd rfl hpc, fun hpc => absurd rfl hpc⟩
    cases hpc
  | setPermissions i =>
    cases hnext
    obtain rfl := hnone rfl
    refine ⟨?_, leaves_of_sameDirectory (w.kernel.sameDirectory_setAttributes _) (by simp)⟩
    have hsocket : w.kernel.socketAt = some i := h.housed a i (phase_of_binding hag)
    simp only [Kernel.exec, Kernel.perform, Kernel.setAttributes,
      (Kernel.target_of_socketAt hsocket).2]
    obtain ⟨daemon, path, mode, _ | group, timeout⟩ := config
    · exact .modeSet
    · exact .groupAsked
  | groupFromName i group =>
    cases hnext
    refine ⟨?_, leaves_of_sameDirectory (w.kernel.exec_sameDirectory _ _ _ fun _ => rfl) (by simp)⟩
    rcases (w.kernel.exec a process fault (.groupFromName group)).1 with e | _ | gid
    · exact .unresolved
    · exact .unresolved
    · exact .resolved
  | chown i group gid =>
    cases hnext
    refine ⟨?_, leaves_of_sameDirectory (w.kernel.exec_sameDirectory _ _ _ fun _ => rfl) (by simp)⟩
    rcases (w.kernel.exec a process fault (.chown gid)).1 with e | _
    · exact .notGiven
    · exact .given
  | eprintln i line =>
    cases hnext
    obtain rfl := hnone rfl
    exact ⟨.reported, leaves_of_sameDirectory ⟨rfl, rfl, rfl⟩ (by simp)⟩
  | cleanUp | closeListener | returned => exact hready.elim

/-- What the next control point of a bind has to know, the step has established. -/
theorem ready_of_goes {k : Kernel} (hready : w.Ready a pc) (hgoes : w.Goes config pc pc')
    (hleaves : w.Leaves pc k) (hreturned : ∀ result, pc' ≠ .returned result) :
    (w.afterBindStep a process config pc (pc', k)).Ready a pc' := by
  have hkept : pc ≠ .removeStale → pc ≠ .bindListener → k.entry = w.kernel.entry := hleaves.kept
  cases hgoes with
  | free hfree => exact (hkept (by simp) (by simp)).trans hfree
  | taken htaken =>
    intro hnone
    exact htaken ((hkept (by simp) (by simp)).symm.trans hnone)
  | isSocket =>
    intro hnone
    exact hready ((hkept (by simp) (by simp)).symm.trans hnone)
  | stale hsocket hlive =>
    refine ⟨fun hnone => hready ((hkept (by simp) (by simp)).symm.trans hnone), ?_⟩
    have hmade := hleaves.made (by simp)
    simp [afterBindStep, hmade]
  | unlinked => exact hleaves.freed rfl
  | live | modeSet | given | reported => exact absurd rfl (hreturned _)
  | bound | groupAsked | resolved | unresolved | notGiven => trivial

/-- A step of a bind in an orderly world does not give up the path. -/
theorem Goes.phase_ne_leaving (hgoes : w.Goes config pc pc') {mark i : ℕ} :
    (AgentState.afterBind process config pc').phase mark ≠ .leaving i := by
  cases hgoes <;> simp [AgentState.afterBind, AgentState.phase, BindPc.phase]

/-- An agent that is not in the middle of a bind or a drop has no operation to perform. -/
theorem busy_of_step_isSome (h : w.step (.step a fault) = some w') : (w.agents a).busy = true := by
  simp only [step] at h
  split at h
  · rename_i hag
    rw [hag]
    rfl
  · rename_i hag
    rw [hag]
    rfl
  · cases h

/-- Only an agent that may begin, or that is under way already, comes to be under way. -/
theorem busy_of_step (hact : w.InTurn act) (hstep : w.step act = some w')
    (ha : act.agent? = some a) (hbusy : (w'.agents a).busy = true) :
    w.AtRest ∨ (w.agents a).busy = true := by
  cases act with
  | start b process config => exact .inl hact
  | beginDrop b => exact .inl hact
  | step b fault =>
    cases ha
    exact .inr (busy_of_step_isSome hstep)
  | kill b =>
    cases ha
    cases hstep
    simp [setAgent, AgentState.busy] at hbusy
  | strangerCloses | removeEntry | clientConnects | accept => cases ha

/-- While somebody is under way, everybody else's actions leave the entry and the inodes. -/
theorem Orderly.entry_of_other (h : w.Orderly) (hact : w.InTurn act) (hstep : w.step act = some w')
    (hbusy : (w.agents a).busy = true) (ha : act.agent? ≠ some a) :
    w'.kernel.entry = w.kernel.entry ∧ w'.kernel.nextIno = w.kernel.nextIno := by
  have hrest (hrest : w.AtRest) : False := by
    rw [hrest a] at hbusy
    cases hbusy
  cases act with
  | start | beginDrop => exact (hrest hact).elim
  | step b fault =>
    have hb : (w.agents b).busy = true := busy_of_step_isSome hstep
    exact absurd (congrArg some (h.alone b a hb hbusy)) ha
  | kill b => exact step_entry_of_background hstep (.inl ⟨b, rfl⟩)
  | strangerCloses | removeEntry => exact hact.elim
  | clientConnects c => exact step_entry_of_background hstep (.inr (.inl ⟨c, rfl⟩))
  | accept b faults => exact step_entry_of_background hstep (.inr (.inr ⟨b, faults, rfl⟩))

/-- A reclaim in an orderly world meets its condition: nothing is made since the probe. -/
theorem Orderly.unlinksProbed (h : w.Orderly) : w.UnlinksProbed act := by
  unfold UnlinksProbed
  split
  · split
    · rename_i a _ process config hag
      intro j hj hmade
      have hlt : j < w.kernel.nextIno := h.sound.sign_lt hj
      have hready : w.kernel.nextIno ≤ w.probed a := (h.ready a process config _ hag).2
      omega
    · trivial
  · trivial

/-- Whoever gives up the path in an orderly world has freed it. -/
theorem Orderly.freed_of_leaving (h : w.Orderly) (hact : w.InTurn act)
    (hstep : w.step act = some w') {i : ℕ} (htenant : w.tenancy.phase a = .tenant i)
    (hleaving : w'.tenancy.phase a = .leaving i) : w'.kernel.entry = none := by
  have hactor : act.agent? = some a := by
    by_contra hother
    obtain ⟨hagents, hprobed⟩ := step_agents_of_ne hstep hother
    have hsame : w'.tenancy.phase a = w.tenancy.phase a := by
      simp only [tenancy, hagents, hprobed]
    rw [hsame, htenant] at hleaving
    cases hleaving
  cases act with
  | start b process config =>
    cases hactor
    simp only [World.step] at hstep
    split at hstep <;> cases hstep <;>
      simp [tenancy_setAgent, Tenancy.State.enter, AgentState.phase, BindPc.phase] at hleaving
  | beginDrop b =>
    cases hactor
    simp only [World.step] at hstep
    split at hstep <;> cases hstep
    simp [tenancy_setAgent, Tenancy.State.enter, AgentState.phase] at hleaving
  | kill b =>
    cases hactor
    cases hstep
    simp [tenancy_setAgent, Tenancy.State.enter, AgentState.phase] at hleaving
  | step b fault =>
    cases hactor
    cases hag : w.agents a with
    | binding process config pc =>
      obtain ⟨pc', k, rfl, hgoes, -⟩ := h.bind_goes hag hact hstep
      rw [tenancy_afterBindStep] at hleaving
      simp only [Function.update_self] at hleaving
      exact absurd hleaving hgoes.phase_ne_leaving
    | dropping process socket pc =>
      cases pc with
      | removeFile =>
        obtain rfl : fault = none := by
          refine hact.fault_eq_none fun _ _ _ hag' => ?_
          cases hag.symm.trans hag'
        rw [entry_of_dropUnlink hag hstep]
        cases hentry : w.kernel.entry with
        | none => simp only [Kernel.exec, Kernel.perform, Kernel.removeFile, hentry]
        | some e =>
          obtain ⟨j, rfl⟩ := h.sockets e hentry
          simp only [Kernel.exec, Kernel.perform, Kernel.removeFile, hentry]
      | close =>
        rw [phase_of_dropping hag] at htenant
        cases htenant
      | returned =>
        rw [phase_of_dropping hag] at htenant
        cases htenant
    | idle | refused | holding =>
      simp only [World.step, hag] at hstep
      cases hstep
  | strangerCloses | removeEntry | clientConnects | accept => cases hactor

/-- What a bind knows about the path does not depend on anything but the path. -/
theorem ready_congr (hready : w.Ready a pc) (hentry : w'.kernel.entry = w.kernel.entry)
    (hmade : w'.kernel.nextIno = w.kernel.nextIno) (hprobed : w'.probed a = w.probed a) :
    w'.Ready a pc := by
  cases pc <;> simp only [Ready, hentry, hmade, hprobed] at hready ⊢ <;> exact hready

/-- After every action, every bind knows what the path names. -/
theorem Orderly.ready_step (h : w.Orderly) (hact : w.InTurn act) (hstep : w.step act = some w')
    (hag : w'.agents a = .binding process config pc) : w'.Ready a pc := by
  by_cases hactor : act.agent? = some a
  · cases act with
    | start b process' config' =>
      cases hactor
      simp only [World.step] at hstep
      split at hstep <;> cases hstep <;> simp only [setAgent, Function.update_self] at hag <;>
        cases hag <;> trivial
    | beginDrop b =>
      cases hactor
      simp only [World.step] at hstep
      split at hstep <;> cases hstep
      simp [setAgent] at hag
    | kill b =>
      cases hactor
      cases hstep
      simp [setAgent] at hag
    | step b fault =>
      cases hactor
      cases hold : w.agents a with
      | binding process' config' pc₀ =>
        obtain ⟨pc', k, rfl, hgoes, hleaves⟩ := h.bind_goes hold hact hstep
        simp only [afterBindStep, Function.update_self] at hag
        have hreturned : ∀ result, pc' ≠ .returned result := by
          rintro (error | socket) rfl <;> cases hag
        have hpc : AgentState.afterBind process' config' pc' = .binding process' config' pc' := by
          cases pc' with
          | returned result => exact absurd rfl (hreturned result)
          | _ => rfl
        rw [hpc] at hag
        cases hag
        exact ready_of_goes (h.ready a _ _ _ hold) hgoes hleaves hreturned
      | dropping process' socket pc₀ =>
        simp only [World.step, hold] at hstep
        obtain ⟨out, -, rfl⟩ := Option.map_eq_some_iff.mp hstep
        simp only [afterDropStep, Function.update_self] at hag
        obtain ⟨pc', k⟩ := out
        cases pc' <;> cases hag
      | idle | refused | holding =>
        simp only [World.step, hold] at hstep
        cases hstep
    | strangerCloses | removeEntry | clientConnects | accept => cases hactor
  · obtain ⟨hagents, hprobed⟩ := step_agents_of_ne hstep hactor
    rw [hagents] at hag
    have hbusy : (w.agents a).busy = true := by
      rw [hag]
      rfl
    obtain ⟨hentry, hmade⟩ := h.entry_of_other hact hstep hbusy hactor
    exact ready_congr (h.ready a _ _ _ hag) hentry hmade hprobed

/-- **Step lemma.** Actions that take turns keep the world orderly. -/
theorem Orderly.step (h : w.Orderly) (hact : w.InTurn act) (hstep : w.step act = some w') :
    w'.Orderly := by
  have hne : act ≠ .removeEntry := by
    rintro rfl
    exact hact
  have hdisciplined := disciplined_of_unlinksProbed h.sound h.housed h.unlinksProbed hne
  have hmove : Tenancy.Move w.tenancy w'.tenancy := by
    rcases step_stepsAs hstep with hmove | ⟨hnot, -⟩
    · exact hmove
    · exact absurd hdisciplined hnot
  have hattended : w'.tenancy.Attended := by
    refine hmove.attended h.attended fun a i htenant hleaving hsign => ?_
    have hfreed := h.freed_of_leaving hact hstep htenant hleaving
    simp [tenancy, Kernel.socketAt, hfreed] at hsign
  refine ⟨hmove.sound h.sound, hmove.housed h.sound h.housed, hattended, ?_, ?_, ?_⟩
  · intro e he
    rcases step_renames hstep with ⟨hsame | hnone, -⟩ | ⟨hnew, -⟩
    · exact h.sockets e (hsame.symm.trans he)
    · rw [hnone] at he
      cases he
    · rw [hnew] at he
      exact ⟨_, (Option.some.inj he).symm⟩
  · -- An agent that does not act is as busy as before.
    have hbefore {a : Agent} (ha : act.agent? ≠ some a) (hbusy : (w'.agents a).busy = true) :
        (w.agents a).busy = true := by
      rwa [(step_agents_of_ne hstep ha).1] at hbusy
    have hactor {a b : Agent} (ha : act.agent? = some a) (hb : act.agent? ≠ some b)
        (hbusya : (w'.agents a).busy = true) (hbusyb : (w'.agents b).busy = true) : a = b := by
      rcases busy_of_step hact hstep ha hbusya with hrest | hbusy
      · have := hbefore hb hbusyb
        rw [hrest b] at this
        cases this
      · exact h.alone a b hbusy (hbefore hb hbusyb)
    intro a b hbusya hbusyb
    by_cases ha : act.agent? = some a <;> by_cases hb : act.agent? = some b
    · exact Option.some.inj (ha.symm.trans hb)
    · exact hactor ha hb hbusya hbusyb
    · exact (hactor hb ha hbusyb hbusya).symm
    · exact h.alone a b (hbefore ha hbusya) (hbefore hb hbusyb)
  · exact fun _ _ _ _ hag => h.ready_step hact hstep hag

/-- A world before any agent has started, in which the path names nothing or a socket that
nobody listens on. -/
structure Deserted (w : World) : Prop extends w.Initial where
  /-- What the path names has been left behind. -/
  stale : ∀ e, w.kernel.entry = some e → ∃ i, e = .node (.socket i) ∧ ¬w.Live i

theorem Deserted.orderly (h : w.Deserted) : w.Orderly where
  sound := h.sound
  housed := h.housed
  attended i hsign hheld := by
    obtain ⟨j, hj, hdead⟩ := h.stale _ (Kernel.target_of_socketAt hsign).1
    cases hj
    exact absurd (not_live_iff.mp hdead) hheld
  sockets e he := by
    obtain ⟨i, hi, -⟩ := h.stale e he
    exact ⟨i, hi⟩
  alone a b ha := by
    rw [h.idle a] at ha
    cases ha
  ready a process config pc hag := by
    rw [h.idle a] at hag
    cases hag

/-- Every world that a run in turn reaches is orderly. -/
theorem Deserted.run_orderly {as : List Action} (h : w.Deserted)
    (hturn : EveryStep World.step (fun w act _ => w.InTurn act) w as) (hrun : w.run as = some w') :
    w'.Orderly := by
  have hpres : ∀ (v : World) act v', v.Orderly → v.InTurn act → v.step act = some v' → v'.Orderly :=
    fun _ _ _ hv hact hstep => hv.step hact hstep
  exact Runs.run_invariant hpres h.orderly hturn hrun

/-! ### One attempt to bind -/

/-- Whether an action performs an operation of the given agent. -/
def isStepOf (a : Agent) : Action → Bool
  | .step b _ => b == a
  | _ => false

theorem eq_step_of_isStepOf (hown : isStepOf a act = true) : ∃ fault, act = .step a fault := by
  cases act with
  | step b fault => exact ⟨fault, by rw [show b = a by simpa [isStepOf] using hown]⟩
  | _ => cases hown

/-- The actions that can happen during an attempt of an agent, whose own process survives. -/
def Meanwhile (a : Agent) (act : Action) : Prop :=
  match act with
  | .start _ _ _ | .beginDrop _ => False
  | .kill b => b ≠ a
  | _ => True

/-- Nobody else is in the middle of a bind or a drop. -/
def NoOther (w : World) (a : Agent) : Prop := ∀ b, b ≠ a → (w.agents b).busy = false

/-- During an attempt an agent other than the one that binds stays as it is, or dies. -/
theorem NoOther.other (h : w.NoOther a) (hmean : Meanwhile a act) (hstep : w.step act = some w')
    (hb : b ≠ a) : w'.agents b = w.agents b ∨ act = .kill b ∧ w'.agents b = .idle := by
  by_cases hactor : act.agent? = some b
  · cases act with
    | start | beginDrop => exact hmean.elim
    | kill c =>
      cases hactor
      cases hstep
      exact .inr ⟨rfl, by simp [setAgent]⟩
    | step c fault =>
      cases hactor
      have hbusy := busy_of_step_isSome hstep
      rw [h b hb] at hbusy
      cases hbusy
    | strangerCloses | removeEntry | clientConnects | accept => cases hactor
  · exact .inl (step_agents_of_ne hstep hactor).1

theorem NoOther.step (h : w.NoOther a) (hmean : Meanwhile a act) (hstep : w.step act = some w') :
    w'.NoOther a := by
  intro b hb
  rcases h.other hmean hstep hb with hsame | ⟨-, hidle⟩
  · rw [hsame]
    exact h b hb
  · rw [hidle]
    rfl

/-- During an attempt, whatever is not a step of the agent leaves it and the path alone. -/
theorem NoOther.background (h : w.NoOther a) (hmean : Meanwhile a act) (hact : w.InTurn act)
    (hstep : w.step act = some w') (hown : isStepOf a act = false) :
    w'.agents a = w.agents a ∧ w'.kernel.entry = w.kernel.entry := by
  cases act with
  | start | beginDrop => exact hmean.elim
  | strangerCloses | removeEntry => exact hact.elim
  | step b fault =>
    have hb : b ≠ a := by simpa [isStepOf] using hown
    have hbusy := busy_of_step_isSome hstep
    rw [h b hb] at hbusy
    cases hbusy
  | kill b =>
    have hb : some b ≠ some a := fun hba => hmean (Option.some.inj hba)
    exact ⟨(step_agents_of_ne hstep hb).1, (step_entry_of_background hstep (.inl ⟨b, rfl⟩)).1⟩
  | clientConnects c =>
    exact ⟨(step_agents_of_ne hstep (by simp [Action.agent?])).1,
      (step_entry_of_background hstep (.inr (.inl ⟨c, rfl⟩))).1⟩
  | accept b faults =>
    exact ⟨(step_agents_of_ne hstep (by simp [Action.agent?])).1,
      (step_entry_of_background hstep (.inr (.inr ⟨b, faults, rfl⟩))).1⟩

/-- What an attempt keeps while it is under way and after it has returned. -/
structure Attempt (a : Agent) (process : Process) (config : SocketConfig) (w : World) : Prop where
  /-- The world is orderly. -/
  orderly : w.Orderly
  /-- Nobody else is under way. -/
  noOther : w.NoOther a
  /-- The agent is on its way, has a socket, or has been refused because one is live. -/
  outcome : (∃ pc, w.agents a = .binding process config pc) ∨
    (∃ i, w.agents a = .holding process ⟨i, config⟩) ∨
    w.agents a = .refused (.alreadyActive config.socketPath)

/-- The states of an agent after a step of its bind in an orderly world. -/
theorem Goes.afterBind (h : w.Goes config pc pc') (process : Process) :
    AgentState.afterBind process config pc' = .binding process config pc' ∨
      (∃ i, AgentState.afterBind process config pc' = .holding process ⟨i, config⟩) ∨
      AgentState.afterBind process config pc' = .refused (.alreadyActive config.socketPath) ∧
        pc = .connect ∧ ∃ i, w.kernel.socketAt = some i ∧ w.Live i := by
  cases h with
  | live hsocket hlive => exact .inr (.inr ⟨rfl, rfl, _, hsocket, hlive⟩)
  | modeSet | given | reported => exact .inr (.inl ⟨_, rfl⟩)
  | _ => exact .inl rfl

/-- A step of the attempt itself is a step of its bind. -/
theorem Attempt.own_step (h : Attempt a process config w) (hact : w.InTurn act)
    (hstep : w.step act = some w') (hown : isStepOf a act = true) :
    ∃ pc pc' k, w.agents a = .binding process config pc ∧
      w' = w.afterBindStep a process config pc (pc', k) ∧ w.Goes config pc pc' ∧ w.Leaves pc k := by
  obtain ⟨fault, rfl⟩ := eq_step_of_isStepOf hown
  have hbusy := busy_of_step_isSome hstep
  rcases h.outcome with ⟨pc, hag⟩ | ⟨i, hag⟩ | hag
  · obtain ⟨pc', k, hw', hgoes, hleaves⟩ := h.orderly.bind_goes hag hact hstep
    exact ⟨pc, pc', k, hag, hw', hgoes, hleaves⟩
  · rw [hag] at hbusy
    cases hbusy
  · rw [hag] at hbusy
    cases hbusy

/-- **Step lemma.** An attempt stays an attempt. -/
theorem Attempt.step (h : Attempt a process config w) (hact : w.InTurn act)
    (hmean : Meanwhile a act) (hstep : w.step act = some w') : Attempt a process config w' := by
  refine ⟨h.orderly.step hact hstep, h.noOther.step hmean hstep, ?_⟩
  by_cases hown : isStepOf a act = true
  · obtain ⟨pc, pc', k, hag, rfl, hgoes, -⟩ := h.own_step hact hstep hown
    simp only [afterBindStep, Function.update_self]
    rcases hgoes.afterBind process with hon | hheld | ⟨hrefused, -⟩
    · exact .inl ⟨pc', hon⟩
    · exact .inr (.inl hheld)
    · exact .inr (.inr hrefused)
  · have hother : isStepOf a act = false := by simpa using hown
    rw [(h.noOther.background hmean hact hstep hother).1]
    exact h.outcome

/-- An attempt begins in an orderly world at rest. -/
theorem attempt_of_start (h : w.Orderly) (hrest : w.AtRest)
    (hstep : w.step (.start a process config) = some w') :
    Attempt a process config w' ∧ w'.agents a = .binding process config .exists_ ∧
      w'.kernel = w.kernel ∧ (w.agents a).socket? = none ∧
      ∀ b, b ≠ a → w'.agents b = w.agents b := by
  have hstart : w' = w.setAgent a (.binding process config .exists_) ∧
      (w.agents a).socket? = none := by
    simp only [World.step] at hstep
    split at hstep
    · rename_i hag
      cases hstep
      exact ⟨rfl, by rw [hag]; rfl⟩
    · rename_i hag
      cases hstep
      exact ⟨rfl, by rw [hag]; rfl⟩
    · cases hstep
  have hturn : w.InTurn (.start a process config) := hrest
  have horderly : w'.Orderly := h.step hturn hstep
  obtain ⟨rfl, hnone⟩ := hstart
  have hothers (b : Agent) (hb : b ≠ a) :
      (w.setAgent a (.binding process config .exists_)).agents b = w.agents b := by
    simp [setAgent, hb]
  have hbinding : (w.setAgent a (.binding process config .exists_)).agents a =
      .binding process config .exists_ := by
    simp [setAgent]
  refine ⟨⟨horderly, fun b hb => ?_, .inl ⟨_, hbinding⟩⟩, hbinding, rfl, hnone, hothers⟩
  rw [hothers b hb]
  exact hrest b

/-! ### What an attempt comes to -/

section Outcome

variable {w₀ w₁ w₂ : World} {bs : List Action}

/-- Nobody else has a socket or is on the way to one. -/
def Unopposed (a : Agent) (w : World) : Prop :=
  ∀ b, b ≠ a → (w.agents b).socket? = none ∧ (w.agents b).busy = false

/-- An agent that neither has a socket nor is under way is away. -/
theorem phase_of_out (hsocket : (w.agents b).socket? = none) (hbusy : (w.agents b).busy = false) :
    w.tenancy.phase b = .away := by
  cases hag : w.agents b with
  | idle | refused => simp only [tenancy, hag, AgentState.phase]
  | binding | dropping =>
    rw [hag] at hbusy
    cases hbusy
  | holding =>
    rw [hag] at hsocket
    cases hsocket

/-- An unopposed attempt is not refused. -/
theorem Attempt.unopposed_step (h : Attempt a process config w) (hun : Unopposed a w)
    (hgood : w.agents a ≠ .refused (.alreadyActive config.socketPath)) (hact : w.InTurn act)
    (hmean : Meanwhile a act) (hstep : w.step act = some w') :
    Unopposed a w' ∧ w'.agents a ≠ .refused (.alreadyActive config.socketPath) := by
  constructor
  · intro b hb
    rcases h.noOther.other hmean hstep hb with hsame | ⟨-, hidle⟩
    · rw [hsame]
      exact hun b hb
    · rw [hidle]
      exact ⟨rfl, rfl⟩
  · by_cases hown : isStepOf a act = true
    · obtain ⟨pc, pc', k, hag, rfl, hgoes, -⟩ := h.own_step hact hstep hown
      simp only [afterBindStep, Function.update_self]
      rcases hgoes.afterBind process with hon | ⟨i, hheld⟩ | ⟨-, rfl, i, hsocket, hlive⟩
      · rw [hon]
        simp
      · rw [hheld]
        simp
      · -- A live socket under the path would have a tenant, and there is none.
        exfalso
        have hheld : w.tenancy.holder i ≠ none := fun hnone => not_live_iff.mpr hnone hlive
        obtain ⟨b, hb⟩ := h.orderly.attended i hsocket hheld
        by_cases hba : b = a
        · subst b
          rw [phase_of_binding hag] at hb
          cases hb
        · rw [phase_of_out (hun b hba).1 (hun b hba).2] at hb
          cases hb
    · have hother : isStepOf a act = false := by simpa using hown
      rw [(h.noOther.background hmean hact hstep hother).1]
      exact hgood

/-- Another agent has a socket, the path names what it named, and the attempt has come no
further than its probe. -/
structure Opposed (a : Agent) (process : Process) (config : SocketConfig) (b : Agent)
    (socket : Socket) (entry : Option Entry) (w : World) : Prop where
  /-- The other agent has its socket. -/
  opponent : (w.agents b).socket? = some socket
  /-- The entry is what it was. -/
  entry_eq : w.kernel.entry = entry
  /-- The agent is before its probe or has been refused. -/
  outcome : (∃ pc, w.agents a = .binding process config pc ∧ pc.probing = true) ∨
    w.agents a = .refused (.alreadyActive config.socketPath)

/-- An opposed attempt is refused at its probe, and changes nothing. -/
theorem Attempt.opposed_step {socket : Socket} {entry : Option Entry}
    (h : Attempt a process config w) (hop : Opposed a process config b socket entry w)
    (hb : b ≠ a) (hact : w.InTurn act) (hmean : Meanwhile a act) (hkill : act ≠ .kill b)
    (hstep : w.step act = some w') : Opposed a process config b socket entry w' := by
  have hopponent : (w'.agents b).socket? = some socket := by
    rcases h.noOther.other hmean hstep hb with hsame | ⟨hkilled, -⟩
    · rw [hsame]
      exact hop.opponent
    · exact absurd hkilled hkill
  by_cases hown : isStepOf a act = true
  · obtain ⟨pc, pc', k, hag, rfl, hgoes, hleaves⟩ := h.own_step hact hstep hown
    have hprobing : pc.probing = true := by
      rcases hop.outcome with ⟨pc₁, hag₁, hprobing⟩ | hrefused
      · cases hag.symm.trans hag₁
        exact hprobing
      · cases hag.symm.trans hrefused
    have hnamed : w.kernel.socketAt = some socket.listener :=
      h.orderly.housed b _ (phase_of_socket hop.opponent)
    have hlive : w.Live socket.listener := by
      have hlisten := listener_of_thing h.orderly.sound (a := b) (i := socket.listener) (by
        rw [phase_of_socket hop.opponent]; rfl)
      simp only [Live, hlisten, Option.isSome_some]
    have hkept : k.entry = w.kernel.entry := by
      apply hleaves.kept
      · rintro rfl
        cases hprobing
      · rintro rfl
        cases hprobing
    refine ⟨hopponent, hkept.trans hop.entry_eq, ?_⟩
    simp only [afterBindStep, Function.update_self]
    cases hgoes with
    | free hfree =>
      rw [(Kernel.target_of_socketAt hnamed).1] at hfree
      cases hfree
    | taken | isSocket => exact .inl ⟨_, rfl, rfl⟩
    | live => exact .inr rfl
    | stale hsocket hdead =>
      obtain rfl := Option.some.inj (hnamed.symm.trans hsocket)
      exact absurd hlive hdead
    | _ => cases hprobing
  · have hother : isStepOf a act = false := by simpa using hown
    obtain ⟨hsame, hentry⟩ := h.noOther.background hmean hact hstep hother
    refine ⟨hopponent, hentry.trans hop.entry_eq, ?_⟩
    rw [hsame]
    exact hop.outcome

/-- An attempt that is under way can go on. -/
theorem Attempt.can_step (h : Attempt a process config w)
    (hag : w.agents a = .binding process config pc) : (w.step (.step a none)).isSome = true := by
  have hready := h.orderly.ready a process config pc hag
  cases pc with
  | cleanUp | closeListener | returned => exact hready.elim
  | _ => simp [World.step, hag, advance, BindPc.next]

/-- What an attempt has left pays for each of its operations. -/
theorem Attempt.pays (h : Attempt a process config w) (hact : w.InTurn act)
    (hmean : Meanwhile a act) (hstep : w.step act = some w') :
    (isStepOf a act).toNat + (w'.agents a).left ≤ (w.agents a).left := by
  cases hown : isStepOf a act with
  | true =>
    obtain ⟨pc, pc', k, hag, rfl, hgoes, -⟩ := h.own_step hact hstep hown
    have hlt := hgoes.rank_lt
    have hle := AgentState.left_afterBind_le process config pc'
    have hleft : (w.agents a).left = pc.rank := by rw [hag]; rfl
    simp only [afterBindStep, Function.update_self, hleft, Bool.toNat_true]
    omega
  | false =>
    rw [(h.noOther.background hmean hact hstep hown).1, Bool.toNat_false]
    omega

/-- What has come of an attempt to bind that began in `w` when the schedule `bs` has led to
`w'`. The process of the agent has not died meanwhile. -/
structure Concludes (w : World) (a : Agent) (process : Process) (config : SocketConfig)
    (bs : List Action) (w' : World) : Prop where
  /-- The attempt goes on, and it returns after at most nine operations. -/
  returns : (w'.agents a).busy = true →
    bs.countP (isStepOf a) < 9 ∧ (w'.step (.step a none)).isSome = true
  /-- If no socket was live, its result is a socket. -/
  taken : (∀ b, (w.agents b).socket? = none) → (w'.agents a).busy = false →
    ∃ i, w'.agents a = .holding process ⟨i, config⟩
  /-- If a socket was live and its process has not died since, the attempt has left the path
  as it was, and its result is a refusal. -/
  refused : ∀ b, ((w.agents b).socket?).isSome = true → (∀ act ∈ bs, act ≠ .kill b) →
    w'.kernel.entry = w.kernel.entry ∧
      ((w'.agents a).busy = false → w'.agents a = .refused (.alreadyActive config.socketPath))

/-- **Attempts.** Every attempt to bind in an orderly world at rest concludes. -/
theorem Orderly.concludes (h : w.Orderly) (hrest : w.AtRest)
    (hstart : w.step (.start a process config) = some w₁)
    (hturn : EveryStep World.step (fun w act _ => w.InTurn act) w₁ bs)
    (hmean : ∀ act ∈ bs, Meanwhile a act) (hrun : w₁.run bs = some w₂) :
    w.Concludes a process config bs w₂ := by
  obtain ⟨hattempt, hbegun, hkernel, hnone, hothers⟩ := attempt_of_start h hrest hstart
  have hturns := hturn.and_forall_mem hmean
  have hpres : ∀ (v : World) act v', Attempt a process config v →
      v.InTurn act ∧ Meanwhile a act → v.step act = some v' → Attempt a process config v' :=
    fun _ _ _ hv hact hstep => hv.step hact.1 hact.2 hstep
  have hend : Attempt a process config w₂ := Runs.run_invariant hpres hattempt hturns hrun
  refine ⟨fun hbusy => ?_, fun hdead hreturned => ?_, fun b hlive hkill => ?_⟩
  · rcases hend.outcome with ⟨pc, hag⟩ | ⟨i, hag⟩ | hag
    · refine ⟨?_, hend.can_step hag⟩
      have hcount := Runs.countP_add_le (m := fun v : World => (v.agents a).left)
        (p := isStepOf a) hpres (fun _ _ _ hv hact hstep => hv.pays hact.1 hact.2 hstep)
        hattempt hturns hrun
      have hfirst : (w₁.agents a).left = 9 := by rw [hbegun]; rfl
      have hleft : 0 < (w₂.agents a).left := by
        have hready := hend.orderly.ready a process config pc hag
        rw [hag]
        cases pc with
        | returned => exact hready.elim
        | _ => simp [AgentState.left, BindPc.rank]
      omega
    · rw [hag] at hbusy
      cases hbusy
    · rw [hag] at hbusy
      cases hbusy
  · -- Nobody else has a socket when the attempt begins, nor gets one.
    have hun : Unopposed a w₁ := by
      intro b hb
      rw [hothers b hb]
      exact ⟨hdead b, hrest b⟩
    have hinv : ∀ (v : World) act v', Attempt a process config v ∧ Unopposed a v ∧
          v.agents a ≠ .refused (.alreadyActive config.socketPath) →
        v.InTurn act ∧ Meanwhile a act → v.step act = some v' →
        Attempt a process config v' ∧ Unopposed a v' ∧
          v'.agents a ≠ .refused (.alreadyActive config.socketPath) :=
      fun v act v' hv hact hstep => ⟨hpres v act v' hv.1 hact hstep,
        hv.1.unopposed_step hv.2.1 hv.2.2 hact.1 hact.2 hstep⟩
    have hgood := Runs.run_invariant hinv ⟨hattempt, hun, by rw [hbegun]; simp⟩ hturns hrun
    rcases hend.outcome with ⟨pc, hag⟩ | hheld | hag
    · rw [hag] at hreturned
      cases hreturned
    · exact hheld
    · exact absurd hag hgood.2.2
  · obtain ⟨socket, hsocket⟩ := Option.isSome_iff_exists.mp hlive
    have hb : b ≠ a := by
      rintro rfl
      rw [hsocket] at hnone
      cases hnone
    have hinv : ∀ (v : World) act v', Attempt a process config v ∧
          Opposed a process config b socket w.kernel.entry v →
        (v.InTurn act ∧ Meanwhile a act) ∧ act ≠ .kill b → v.step act = some v' →
        Attempt a process config v' ∧ Opposed a process config b socket w.kernel.entry v' :=
      fun v act v' hv hact hstep => ⟨hpres v act v' hv.1 hact.1 hstep,
        hv.1.opposed_step hv.2 hb hact.1.1 hact.1.2 hact.2 hstep⟩
    have hbegin : Opposed a process config b socket w.kernel.entry w₁ :=
      ⟨by rw [hothers b hb]; exact hsocket, by rw [hkernel], .inl ⟨_, hbegun, rfl⟩⟩
    have hop := (Runs.run_invariant hinv ⟨hattempt, hbegin⟩ (hturns.and_forall_mem hkill) hrun).2
    refine ⟨hop.entry_eq, fun hreturned => ?_⟩
    rcases hop.outcome with ⟨pc, hag, -⟩ | hrefused
    · rw [hag] at hreturned
      cases hreturned
    · exact hrefused

end Outcome

/-- **Turns.** In every run of binds, drops and deaths in which binds and drops take turns,
starting from a path that names nothing or a socket left behind: every socket that has been
bound and not dropped is live, the only one, and the one that the path names; and every
attempt to bind concludes. -/
theorem binds_in_turn {as : List Action} (hdeserted : w.Deserted)
    (hturn : EveryStep step (fun w act _ => w.InTurn act) w as) (hrun : w.run as = some w') :
    w'.Owned ∧
      ∀ a process config bs w₁ w₂, w'.AtRest → w'.step (.start a process config) = some w₁ →
        EveryStep step (fun w act _ => w.InTurn act) w₁ bs → (∀ act ∈ bs, Meanwhile a act) →
        w₁.run bs = some w₂ → w'.Concludes a process config bs w₂ := by
  have horderly := hdeserted.run_orderly hturn hrun
  refine ⟨owned_of_housed horderly.sound horderly.housed, ?_⟩
  intro a process config bs w₁ w₂ hrest hstart hturns hmean hend
  exact horderly.concludes hrest hstart hturns hmean hend

theorem leftBehind_deserted : leftBehind.Deserted where
  toInitial := leftBehind_initial
  stale e he := by
    obtain rfl := Option.some.inj he
    exact ⟨0, rfl, by simp [Live, leftBehind]⟩

/-- The first daemon reclaims the left-behind socket and drops its own. It binds the path again and
is killed while it holds its socket. -/
def crash : List Action :=
  .start 0 rootProcess (.new "d" "/s") :: List.replicate 6 (.step 0 none) ++ dropWhole 0 ++
    bindFree 0 ++ [.kill 0]

/-- The second daemon then binds the path, in spite of what the crash has left. -/
theorem binds_in_turn_after_crash :
    ∃ w w₁ w₂ i, leftBehind.run crash = some w ∧ w.kernel.socketAt = some 2 ∧
      w.step (.start 1 rootProcess (.new "d" "/s")) = some w₁ ∧
      w₁.run (List.replicate 6 (.step 1 none)) = some w₂ ∧
      w₂.agents 1 = .holding rootProcess ⟨i, .new "d" "/s"⟩ := by
  have hrest {w : World} (h0 : (w.agents 0).busy = false)
      (h : ∀ a, (w.agents (a + 1)).busy = false) : w.AtRest
    | 0 => h0
    | a + 1 => h a
  have hturn : EveryStep step (fun w act _ => w.InTurn act) leftBehind crash := by
    refine .cons rfl (hrest rfl fun _ => rfl) (.cons rfl trivial (.cons rfl trivial ?_))
    refine .cons rfl trivial (.cons rfl trivial (.cons rfl trivial (.cons rfl trivial ?_)))
    -- The drop, the second bind and the death.
    refine .cons rfl (hrest rfl fun _ => rfl) (.cons rfl trivial (.cons rfl trivial ?_))
    refine .cons rfl (hrest rfl fun _ => rfl) (.cons rfl trivial (.cons rfl trivial ?_))
    exact .cons rfl trivial (.cons rfl trivial trivial)
  have hconcludes := (binds_in_turn leftBehind_deserted hturn rfl).2 1 rootProcess (.new "d" "/s")
    (List.replicate 6 (.step 1 none)) _ _ (hrest rfl fun _ => rfl) rfl
    (.cons rfl trivial (.cons rfl trivial (.cons rfl trivial (.cons rfl trivial
      (.cons rfl trivial (.cons rfl trivial trivial)))))) (by simp [Meanwhile]) rfl
  obtain ⟨i, hheld⟩ := hconcludes.taken (fun b => by cases b <;> rfl) rfl
  exact ⟨_, _, _, i, rfl, rfl, rfl, rfl, hheld⟩

end World

end UdsPolicy
