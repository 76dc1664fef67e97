import UdsPolicy.General.Tenancy
import UdsPolicy.Socket.Directory

/-!
# The socket path as a tenancy

A daemon's use of its path is a tenancy: the name is the path, the things are
the socket inodes, and an inode is held while somebody listens on it. Every
action of a world is a move or a breach of that tenancy, and the actions that
can be breaches are named: an outsider's removal of the entry, and the removals
by path in the reclaim, in the clean-up of a failed bind and in the drop.
-/

namespace UdsPolicy

open Tenancy (Phase Move Breach)

/-- The phase of an agent in `Socket::bind`. A probe that was refused clears the path for
removal, and a bound listener is a tenancy until the clean-up has given the path up. -/
def BindPc.phase (mark : ℕ) : BindPc → Phase
  | .removeStale => .cleared mark
  | .setPermissions i | .cleanUp i _ | .groupFromName i _ | .chown i _ _ | .eprintln i _ =>
    .tenant i
  | .closeListener i _ => .leaving i
  | .exists_ | .symlinkMetadata | .connect | .bindListener | .returned _ => .away

/-- The phase of an agent. -/
def AgentState.phase (mark : ℕ) : AgentState → Phase
  | .idle | .refused _ | .dropping _ _ .returned => .away
  | .binding _ _ pc => pc.phase mark
  | .holding _ socket | .dropping _ socket .removeFile => .tenant socket.listener
  | .dropping _ socket .close => .leaving socket.listener

/-- The tenancy that a world amounts to. -/
def World.tenancy (w : World) : Tenancy.State Agent where
  sign := w.kernel.socketAt
  holder := w.kernel.holders
  made := w.kernel.nextIno
  phase := fun a => (w.agents a).phase (w.probed a)

/-- What an agent's phase holds is the listener it has open. -/
theorem AgentState.thing_phase (mark : ℕ) (s : AgentState) : (s.phase mark).thing = s.listener := by
  cases s with
  | binding process config pc => cases pc <;> rfl
  | dropping process socket pc => cases pc <;> rfl
  | _ => rfl

namespace World

variable {w w' : World} {a : Agent} {process : Process} {config : SocketConfig}
  {fault : Option IoError}

/-- What may be removed by path without a breach of the tenancy: a reclaim may remove what
nobody listens on, a clean-up and a drop the socket of the same agent. -/
def Disciplined (w : World) : Action → Prop
  | .removeEntry => False
  | .step a none =>
    match w.agents a with
    | .binding _ _ .removeStale => w.tenancy.Unheld
    | .binding _ _ (.cleanUp i _) => ∀ j, w.kernel.socketAt = some j → j = i
    | .dropping _ socket .removeFile => ∀ j, w.kernel.socketAt = some j → j = socket.listener
    | _ => True
  | _ => True

/-- A step of the world as a step of the tenancy: a move, or a breach that is only possible
where the action is not disciplined. -/
def StepsAs (w : World) (act : Action) (w' : World) : Prop :=
  Move w.tenancy w'.tenancy ∨ ¬w.Disciplined act ∧ Breach w.tenancy w'.tenancy

/-! ### Steps of `Socket::bind` -/

/-- The mark of an agent after a step at a control point. -/
def markAfter (w : World) (a : Agent) : BindPc → ℕ
  | .connect => w.kernel.nextIno
  | _ => w.probed a

section BindSteps

variable {pc pc' : BindPc} {k : Kernel}

/-- The tenancy after a step of a bind. -/
theorem tenancy_afterBindStep :
    (w.afterBindStep a process config pc (pc', k)).tenancy =
      { sign := k.socketAt, holder := k.holders, made := k.nextIno
        phase := Function.update w.tenancy.phase a
          ((AgentState.afterBind process config pc').phase (w.markAfter a pc)) } := by
  have hphase : (w.afterBindStep a process config pc (pc', k)).tenancy.phase =
      Function.update w.tenancy.phase a
        ((AgentState.afterBind process config pc').phase (w.markAfter a pc)) := by
    funext b
    by_cases hb : b = a
    · subst b
      cases pc <;> simp [tenancy, afterBindStep, markAfter]
    · cases pc <;> simp [tenancy, afterBindStep, hb]
  rw [← hphase]
  rfl

/-- A step of a bind that leaves the directory alone only changes the agent's phase. -/
theorem tenancy_afterBindStep_same (hk : w.kernel.SameDirectory k) :
    (w.afterBindStep a process config pc (pc', k)).tenancy =
      w.tenancy.enter a ((AgentState.afterBind process config pc').phase (w.markAfter a pc)) := by
  rw [tenancy_afterBindStep, hk.socketAt, hk.holders, hk.nextIno]
  rfl

/-- A step of a bind that removes the entry clears the name. -/
theorem tenancy_afterBindStep_remove :
    (w.afterBindStep a process config pc (pc', { w.kernel with entry := none })).tenancy =
      w.tenancy.clear.enter a
        ((AgentState.afterBind process config pc').phase (w.markAfter a pc)) := by
  rw [tenancy_afterBindStep]
  rfl

variable (hag : w.agents a = .binding process config pc)
include hag

theorem phase_of_binding : w.tenancy.phase a = pc.phase (w.probed a) := by
  simp only [tenancy, hag, AgentState.phase]

/-- A step that changes neither the directory nor the phase is no move. -/
theorem quiet_move (hk : w.kernel.SameDirectory k)
    (hphase : (AgentState.afterBind process config pc').phase (w.markAfter a pc) =
      pc.phase (w.probed a)) :
    Move w.tenancy (w.afterBindStep a process config pc (pc', k)).tenancy := by
  rw [tenancy_afterBindStep_same hk, hphase, Tenancy.State.enter_self (phase_of_binding hag)]
  exact .stay _

end BindSteps

/-- A refused connection is a probe, and every other outcome of `connect` is no move. -/
theorem connect_move {out : BindPc × Kernel} (hag : w.agents a = .binding process config .connect)
    (hadv : advance (BindPc.next config) w.kernel a process fault .connect = some out) :
    Move w.tenancy (w.afterBindStep a process config .connect out).tenancy := by
  obtain ⟨c, succ, hnext, hfail, rfl⟩ := advance_eq_some.mp hadv
  cases hnext
  have hk := w.kernel.exec_sameDirectory a process fault (c := .connect) fun _ => rfl
  rcases hreply : (w.kernel.exec a process fault .connect).1 with ⟨kind, text⟩ | _
  · cases kind with
    | connectionRefused =>
      rw [tenancy_afterBindStep_same hk]
      refine .probe a (phase_of_binding hag) fun i hi => ?_
      cases fault with
      | none => exact Kernel.holders_of_refused hreply hi
      | some e =>
        -- The kernel refuses only where nobody listens, so no fault is a refusal.
        cases hreply
        simp [Syscall.mayFail] at hfail
    | _ => exact quiet_move hag hk rfl
  · exact quiet_move hag hk rfl

/-- The removal of a stale entry evicts what is under the path at that moment. -/
theorem removeStale_stepsAs {out : BindPc × Kernel}
    (hag : w.agents a = .binding process config .removeStale)
    (hadv : advance (BindPc.next config) w.kernel a process fault .removeStale = some out) :
    w.StepsAs (.step a fault) (w.afterBindStep a process config .removeStale out) := by
  obtain ⟨c, succ, hnext, -, rfl⟩ := advance_eq_some.mp hadv
  cases hnext
  have hgiveUp (e : IoError) : Move w.tenancy (w.afterBindStep a process config .removeStale
      (.returned (.error (.io e)), w.kernel)).tenancy := by
    rw [tenancy_afterBindStep_same (.refl _)]
    exact .forget a (phase_of_binding hag)
  cases fault with
  | some e => exact .inl (hgiveUp e)
  | none =>
    rcases w.kernel.removeFile_cases with ⟨e, hremove⟩ | hremove
    · simp only [Kernel.exec, Kernel.perform, hremove]
      exact .inl (hgiveUp e)
    · simp only [Kernel.exec, Kernel.perform, hremove, StepsAs, tenancy_afterBindStep_remove]
      by_cases hfree : w.tenancy.Unheld
      · exact .inl (.evict a (phase_of_binding hag) hfree)
      · exact .inr ⟨by simpa [Disciplined, hag] using hfree,
          .evict a (phase_of_binding hag) hfree⟩

/-- A successful `UnixListener::bind` settles under a free path. -/
theorem bindListener_move {out : BindPc × Kernel}
    (hag : w.agents a = .binding process config .bindListener)
    (hadv : advance (BindPc.next config) w.kernel a process fault .bindListener = some out) :
    Move w.tenancy (w.afterBindStep a process config .bindListener out).tenancy := by
  obtain ⟨c, succ, hnext, -, rfl⟩ := advance_eq_some.mp hadv
  cases hnext
  cases fault with
  | some e => exact quiet_move hag (.refl _) rfl
  | none =>
    rcases w.kernel.bindListener_cases a process with
      ⟨e, hbind⟩ | ⟨hentry, k, hbind, hk, hmade, hheld⟩
    · simp only [Kernel.exec, Kernel.perform, hbind]
      exact quiet_move hag (.refl _) rfl
    · simp only [Kernel.exec, Kernel.perform, hbind]
      have hsign : w.tenancy.sign = none := by simp [tenancy, Kernel.socketAt, hentry]
      have hsettle : (w.afterBindStep a process config .bindListener
          (.setPermissions w.kernel.nextIno, k)).tenancy = w.tenancy.settle a := by
        simp only [tenancy_afterBindStep, Kernel.socketAt, hk, hmade, hheld]
        rfl
      exact hsettle ▸ .settle a (phase_of_binding hag) hsign

/-- The clean-up of a failed bind gives the path up, removing whatever it names. -/
theorem cleanUp_stepsAs {i : ℕ} {error : IoError} {out : BindPc × Kernel}
    (hag : w.agents a = .binding process config (.cleanUp i error))
    (hadv : advance (BindPc.next config) w.kernel a process fault (.cleanUp i error) = some out) :
    w.StepsAs (.step a fault) (w.afterBindStep a process config (.cleanUp i error) out) := by
  obtain ⟨c, succ, hnext, -, rfl⟩ := advance_eq_some.mp hadv
  cases hnext
  have habandon : Move w.tenancy (w.afterBindStep a process config (.cleanUp i error)
      (.closeListener i error, w.kernel)).tenancy := by
    rw [tenancy_afterBindStep_same (.refl _)]
    exact .abandon a (phase_of_binding hag)
  cases fault with
  | some e => exact .inl habandon
  | none =>
    rcases w.kernel.removeFile_cases with ⟨e, hremove⟩ | hremove
    · simp only [Kernel.exec, Kernel.perform, hremove]
      exact .inl habandon
    · simp only [Kernel.exec, Kernel.perform, hremove, StepsAs, tenancy_afterBindStep_remove]
      by_cases hown : ∀ j, w.kernel.socketAt = some j → j = i
      · exact .inl (.vacate a (phase_of_binding hag) hown)
      · obtain ⟨j, hj, hne⟩ := by simpa only [not_forall, exists_prop] using hown
        exact .inr ⟨by simpa [Disciplined, hag] using hown,
          .vacate a (phase_of_binding hag) hj hne⟩

/-- An operation that leaves the directory alone, whose replies all keep the phase, is no move. -/
theorem quietStep_stepsAs {pc : BindPc} {out : BindPc × Kernel} {c : Syscall}
    {succ : c.Reply → BindPc} (hag : w.agents a = .binding process config pc)
    (hnext : BindPc.next config pc = .call c succ) (hc : c.touchesDirectory = false)
    (hphase : ∀ reply, (AgentState.afterBind process config (succ reply)).phase (w.markAfter a pc) =
      pc.phase (w.probed a))
    (hadv : advance (BindPc.next config) w.kernel a process fault pc = some out) :
    w.StepsAs (.step a fault) (w.afterBindStep a process config pc out) := by
  obtain ⟨c', succ', hnext', -, rfl⟩ := advance_eq_some.mp hadv
  cases hnext.symm.trans hnext'
  exact .inl (quiet_move hag (w.kernel.exec_sameDirectory a process fault fun _ => hc) (hphase _))

/-- Every step of `Socket::bind` is a step of the tenancy. -/
theorem bindStep_stepsAs {pc : BindPc} {out : BindPc × Kernel}
    (hag : w.agents a = .binding process config pc)
    (hadv : advance (BindPc.next config) w.kernel a process fault pc = some out) :
    w.StepsAs (.step a fault) (w.afterBindStep a process config pc out) := by
  cases pc with
  | connect => exact .inl (connect_move hag hadv)
  | removeStale => exact removeStale_stepsAs hag hadv
  | bindListener => exact .inl (bindListener_move hag hadv)
  | cleanUp i error => exact cleanUp_stepsAs hag hadv
  | closeListener i error =>
    obtain ⟨c, succ, hnext, hfail, rfl⟩ := advance_eq_some.mp hadv
    cases hnext
    cases fault with
    | some e => cases hfail
    | none =>
      left
      simp only [Kernel.exec, Kernel.perform, tenancy_afterBindStep, Kernel.close_holders]
      exact .quit a (by rw [phase_of_binding hag]; rfl)
  | exists_ =>
    refine quietStep_stepsAs hag rfl rfl (fun found => ?_) hadv
    cases found <;> rfl
  | symlinkMetadata =>
    refine quietStep_stepsAs hag rfl rfl (fun reply => ?_) hadv
    rcases reply with error | metadata
    · rfl
    · cases metadata <;> rfl
  | setPermissions i =>
    refine quietStep_stepsAs hag rfl rfl (fun reply => ?_) hadv
    rcases reply with error | _
    · rfl
    · obtain ⟨_, _, _, _ | group, _⟩ := config <;> rfl
  | groupFromName i group =>
    refine quietStep_stepsAs hag rfl rfl (fun reply => ?_) hadv
    rcases reply with error | _ | gid <;> rfl
  | chown i group gid =>
    refine quietStep_stepsAs hag rfl rfl (fun reply => ?_) hadv
    rcases reply with error | _ <;> rfl
  | eprintln i line => exact quietStep_stepsAs hag rfl rfl (fun _ => rfl) hadv
  | returned result =>
    obtain ⟨c, succ, hnext, -, -⟩ := advance_eq_some.mp hadv
    cases hnext

/-! ### Steps of a drop -/

/-- The tenancy after a step of a drop. -/
theorem tenancy_afterDropStep {socket : Socket} {pc : DropPc} {k : Kernel} :
    (w.afterDropStep a process socket (pc, k)).tenancy =
      { sign := k.socketAt, holder := k.holders, made := k.nextIno
        phase := Function.update w.tenancy.phase a
          ((AgentState.afterDrop process socket pc).phase (w.probed a)) } := by
  have hphase : (w.afterDropStep a process socket (pc, k)).tenancy.phase =
      Function.update w.tenancy.phase a
        ((AgentState.afterDrop process socket pc).phase (w.probed a)) := by
    funext b
    by_cases hb : b = a
    · subst b
      simp [tenancy, afterDropStep]
    · simp [tenancy, afterDropStep, hb]
  rw [← hphase]
  rfl

theorem phase_of_dropping {socket : Socket} {pc : DropPc}
    (hag : w.agents a = .dropping process socket pc) :
    w.tenancy.phase a = (AgentState.dropping process socket pc).phase (w.probed a) := by
  simp only [tenancy, hag]

/-- Every step of a drop is a step of the tenancy. -/
theorem dropStep_stepsAs {socket : Socket} {pc : DropPc} {out : DropPc × Kernel}
    (hag : w.agents a = .dropping process socket pc)
    (hadv : advance (DropPc.next socket) w.kernel a process fault pc = some out) :
    w.StepsAs (.step a fault) (w.afterDropStep a process socket out) := by
  obtain ⟨c, succ, hnext, hfail, rfl⟩ := advance_eq_some.mp hadv
  have hphase := phase_of_dropping hag
  cases pc with
  | removeFile =>
    cases hnext
    have habandon : Move w.tenancy
        (w.afterDropStep a process socket (.close, w.kernel)).tenancy := by
      rw [tenancy_afterDropStep]
      exact .abandon a hphase
    cases fault with
    | some e => exact .inl habandon
    | none =>
      rcases w.kernel.removeFile_cases with ⟨e, hremove⟩ | hremove
      · simp only [Kernel.exec, Kernel.perform, hremove]
        exact .inl habandon
      · simp only [Kernel.exec, Kernel.perform, hremove, StepsAs, tenancy_afterDropStep]
        by_cases hown : ∀ j, w.kernel.socketAt = some j → j = socket.listener
        · exact .inl (.vacate a hphase hown)
        · obtain ⟨j, hj, hne⟩ := by simpa only [not_forall, exists_prop] using hown
          exact .inr ⟨by simpa [Disciplined, hag] using hown, .vacate a hphase hj hne⟩
  | close =>
    cases hnext
    cases fault with
    | some e => cases hfail
    | none =>
      left
      simp only [Kernel.exec, Kernel.perform, tenancy_afterDropStep, Kernel.close_holders]
      exact .quit a (by rw [hphase]; rfl)
  | returned => cases hnext

/-! ### The other actions -/

/-- Changing an agent's state changes its phase. -/
theorem tenancy_setAgent {s : AgentState} :
    (w.setAgent a s).tenancy = w.tenancy.enter a (s.phase (w.probed a)) := by
  have hphase : (w.setAgent a s).tenancy.phase =
      Function.update w.tenancy.phase a (s.phase (w.probed a)) := by
    funext b
    by_cases hb : b = a
    · subst b
      simp [tenancy, setAgent]
    · simp [tenancy, setAgent, hb]
  simp only [Tenancy.State.enter, ← hphase]
  rfl

/-- A new state in the same phase is no move. -/
theorem tenancy_setAgent_self {s : AgentState}
    (hphase : s.phase (w.probed a) = (w.agents a).phase (w.probed a)) :
    (w.setAgent a s).tenancy = w.tenancy := by
  rw [tenancy_setAgent, hphase]
  exact Tenancy.State.enter_self rfl

/-- A change of the kernel that the directory does not show is no move. -/
theorem tenancy_of_sameDirectory {k : Kernel} {accepted : List (Agent × Connection × Caller)}
    (hk : w.kernel.SameDirectory k) :
    ({ w with kernel := k, accepted := accepted } : World).tenancy = w.tenancy := by
  simp only [tenancy, hk.socketAt, hk.holders, hk.nextIno]

/-- The death of a process closes what its agent had open, and leaves the entry. -/
theorem kill_move : Move w.tenancy ({ w with kernel := w.closeOf a }.setAgent a .idle).tenancy := by
  rw [tenancy_setAgent]
  have hthing : (w.tenancy.phase a).thing = (w.agents a).listener := AgentState.thing_phase _ _
  cases hopen : (w.agents a).listener with
  | some i =>
    have hclose : ({ w with kernel := w.closeOf a } : World).tenancy = w.tenancy.release i := by
      simp only [tenancy, closeOf, hopen, Kernel.close_holders]
      rfl
    rw [hclose]
    exact .quit a (hthing.trans hopen)
  | none =>
    simp only [closeOf, hopen]
    cases hphase : w.tenancy.phase a with
    | away =>
      rw [show (AgentState.idle.phase (w.probed a)) = w.tenancy.phase a from hphase.symm,
        Tenancy.State.enter_self rfl]
      exact .stay _
    | cleared m => exact .forget a hphase
    | tenant i | leaving i =>
      rw [hphase, hopen] at hthing
      cases hthing

/-- Accepting a connection changes neither the entry nor who listens. -/
theorem runAccept_tenancy {socket : Socket} {faults : Syscall → Option IoError} :
    (w.runAccept a process socket faults).tenancy = w.tenancy := by
  have hquiet := w.kernel.exec_sameDirectory a process (faults (.accept socket.listener))
    (c := .accept socket.listener) fun _ => rfl
  obtain ⟨returned, haccept, -⟩ : ∃ returned, w.runAccept a process socket faults = _ ∧ _ :=
    runAccept_eq rfl
  rw [haccept]
  exact tenancy_of_sameDirectory hquiet

/-- **Worlds are tenancies.** Every action is a move, or it is a breach and one of the
actions that remove by path. -/
theorem step_stepsAs {act : Action} (h : w.step act = some w') : w.StepsAs act w' := by
  cases act with
  | start a process config =>
    have hstart (hphase : Phase.away = (w.agents a).phase (w.probed a))
        (h : some (w.setAgent a (.binding process config .exists_)) = some w') :
        Move w.tenancy w'.tenancy := by
      obtain rfl := Option.some.inj h
      have hsame : (w.setAgent a (.binding process config .exists_)).tenancy = w.tenancy :=
        tenancy_setAgent_self hphase
      exact hsame ▸ .stay _
    simp only [step] at h
    split at h
    · rename_i hag
      exact .inl (hstart (by rw [hag]; rfl) h)
    · rename_i hag
      exact .inl (hstart (by rw [hag]; rfl) h)
    · cases h
  | step a fault =>
    simp only [step] at h
    split at h
    · rename_i hag
      obtain ⟨out, hadv, rfl⟩ := Option.map_eq_some_iff.mp h
      exact bindStep_stepsAs hag hadv
    · rename_i hag
      obtain ⟨out, hadv, rfl⟩ := Option.map_eq_some_iff.mp h
      exact dropStep_stepsAs hag hadv
    · cases h
  | beginDrop a =>
    simp only [step] at h
    split at h
    · rename_i hag
      obtain rfl := Option.some.inj h
      left
      rw [tenancy_setAgent_self (by rw [hag]; rfl)]
      exact .stay _
    · cases h
  | kill a =>
    obtain rfl := Option.some.inj h
    exact .inl kill_move
  | strangerCloses i =>
    simp only [step] at h
    split at h
    · rename_i hholder
      obtain rfl := Option.some.inj h
      left
      have hclose : ({ w with kernel := w.kernel.close i } : World).tenancy =
          w.tenancy.release i := by
        simp only [tenancy, Kernel.close_holders]
        rfl
      rw [hclose]
      refine .outsiderQuits ?_
      simp only [tenancy, Kernel.holders, hholder]
      rfl
    · cases h
  | removeEntry =>
    obtain rfl := Option.some.inj h
    rcases w.kernel.removeFile_cases with ⟨e, hremove⟩ | hremove
    · rw [hremove]
      exact .inl (.stay _)
    · rw [hremove]
      exact .inr ⟨id, .strip _⟩
  | clientConnects c =>
    obtain rfl := Option.some.inj h
    left
    rw [tenancy_of_sameDirectory (w.kernel.sameDirectory_clientConnects c)]
    exact .stay _
  | accept a faults =>
    simp only [step] at h
    split at h
    · obtain rfl := Option.some.inj h
      left
      rw [runAccept_tenancy]
      exact .stay _
    · cases h

/-- The tenancy stays sound, whoever removes what. -/
theorem step_sound {act : Action} (hs : w.tenancy.Sound) (h : w.step act = some w') :
    w'.tenancy.Sound := by
  rcases step_stepsAs h with hmove | ⟨-, hbreach⟩
  · exact hmove.sound hs
  · exact hbreach.sound hs

/-- Before anything has happened nobody is a tenant. -/
theorem Initial.phase (h : w.Initial) (a : Agent) : w.tenancy.phase a = .away := by
  simp only [tenancy, h.idle, AgentState.phase]

/-- Before anything has happened the tenancy is sound. -/
theorem Initial.sound (h : w.Initial) : w.tenancy.Sound where
  sign_lt hi := h.existing _ hi
  holder_lt {i} hi := by
    refine h.listening i fun hnone => hi ?_
    simp only [tenancy, Kernel.holders, hnone]
    rfl
  holder_iff {i a} := by
    rw [h.phase]
    constructor
    · intro hheld
      obtain ⟨holder, hlisten, hagent⟩ := Option.map_eq_some_iff.mp hheld
      cases holder with
      | stranger => cases hagent
      | agent b =>
        cases hagent
        exact absurd hlisten (h.strangers i a)
    · intro hthing
      cases hthing
  mark_le ha := by
    rw [h.phase] at ha
    cases ha
  cleared ha := by
    rw [h.phase] at ha
    cases ha

/-- Before anything has happened all tenants, of which there are none, are under the path. -/
theorem Initial.housed (h : w.Initial) : w.tenancy.Housed := by
  intro a i ha
  rw [h.phase] at ha
  cases ha

/-- An agent that holds a listener is its only holder. -/
theorem listener_of_thing (hs : w.tenancy.Sound) {i : ℕ}
    (hi : (w.tenancy.phase a).thing = some i) :
    (w.kernel.inode i).listener = some (.agent a) := by
  obtain ⟨holder, hlisten, hagent⟩ := Option.map_eq_some_iff.mp (hs.holder_iff.mpr hi)
  cases holder with
  | stranger => cases hagent
  | agent b =>
    cases hagent
    exact hlisten

/-- An agent with a socket is the tenant of its inode. -/
theorem phase_of_socket {socket : Socket} (h : (w.agents a).socket? = some socket) :
    w.tenancy.phase a = .tenant socket.listener := by
  unfold AgentState.socket? at h
  split at h
  · rename_i hag
    cases h
    simp only [tenancy, hag, AgentState.phase]
  · cases h

end World

end UdsPolicy
