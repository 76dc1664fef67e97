import UdsPolicy.Socket.World

/-!
# What operations and actions do to the directory

The entry at the path, the inodes and who listens on them make up the directory.
Three operations can change it: the unlink, the bind and the close of a listener.
Everything else, failures included, is invisible there.
-/

namespace UdsPolicy

/-- The agent that holds a listener, if it is one. -/
def Holder.agent? : Holder → Option Agent
  | .stranger => none
  | .agent a => some a

namespace Kernel

/-- Who listens on each inode. -/
def holders (k : Kernel) : ℕ → Option (Option Agent) :=
  fun i => (k.inode i).listener.map Holder.agent?

/-- Two states of the kernel agree on the entry, the listeners and the existing inodes. -/
structure SameDirectory (k k' : Kernel) : Prop where
  /-- The path names the same. -/
  entry : k'.entry = k.entry
  /-- The same processes listen on the same inodes. -/
  holders : k'.holders = k.holders
  /-- The same inodes exist. -/
  nextIno : k'.nextIno = k.nextIno

theorem SameDirectory.refl (k : Kernel) : SameDirectory k k := ⟨rfl, rfl, rfl⟩

/-- Changing an inode without changing who listens on it is invisible in the directory. -/
theorem sameDirectory_modifyInode (k : Kernel) (i : ℕ) {f : Inode → Inode}
    (hf : ∀ n, (f n).listener = n.listener) : SameDirectory k (k.modifyInode i f) := by
  refine ⟨rfl, ?_, rfl⟩
  funext j
  by_cases hj : j = i
  · subst j
    simp [holders, modifyInode, hf]
  · simp [holders, modifyInode, hj]

theorem sameDirectory_enqueue (k : Kernel) (i : ℕ) (c : Cred) :
    SameDirectory k (k.enqueue i c) := by
  have hqueue := k.sameDirectory_modifyInode i
    (f := fun n => { n with backlog := n.backlog ++ [⟨k.connections, c⟩] }) fun _ => rfl
  exact ⟨hqueue.entry, hqueue.holders, hqueue.nextIno⟩

theorem sameDirectory_connect (k : Kernel) (c : Cred) : SameDirectory k (k.connect c).2 := by
  unfold connect
  split
  · exact .refl k
  · split
    · exact k.sameDirectory_enqueue _ c
    · exact .refl k
  · exact .refl k

theorem sameDirectory_setAttributes (k : Kernel) (f : Access → Access) :
    SameDirectory k (k.setAttributes f).2 := by
  unfold setAttributes
  split
  · exact .refl k
  · dsimp only
    exact sameDirectory_modifyInode k _ fun _ => rfl
  · exact .refl k

theorem sameDirectory_accept (k : Kernel) (i : ℕ) : SameDirectory k (k.accept i).2 := by
  unfold accept
  split
  · exact .refl k
  · dsimp only
    exact sameDirectory_modifyInode k _ fun _ => rfl

theorem sameDirectory_clientConnects (k : Kernel) (c : Cred) :
    SameDirectory k (k.clientConnects c) := by
  unfold clientConnects
  split
  · split
    · exact sameDirectory_connect k c
    · exact .refl k
  · exact .refl k

/-- Closing a listener only takes its holder away. -/
theorem close_holders (k : Kernel) (i : ℕ) :
    (k.close i).holders = Function.update k.holders i none := by
  funext j
  by_cases hj : j = i
  · subst j
    simp [holders, close, modifyInode]
  · simp [holders, close, modifyInode, hj]

/-- `unlink(2)` either fails and changes nothing, or leaves the path free. -/
theorem removeFile_cases (k : Kernel) :
    (∃ e, k.removeFile = (.error e, k)) ∨ k.removeFile = (.ok (), { k with entry := none }) := by
  unfold removeFile
  split
  · exact .inl ⟨_, rfl⟩
  · exact .inl ⟨_, rfl⟩
  · exact .inr rfl

/-- `UnixListener::bind` either fails and changes nothing, or the path was free and now
names a new inode that the caller listens on. -/
theorem bindListener_cases (k : Kernel) (a : Agent) (p : Process) :
    (∃ e, k.bindListener a p = (.error e, k)) ∨
      k.entry = none ∧ ∃ k', k.bindListener a p = (.ok k.nextIno, k') ∧
        k'.entry = some (.node (.socket k.nextIno)) ∧ k'.nextIno = k.nextIno + 1 ∧
        k'.holders = Function.update k.holders k.nextIno (some (some a)) := by
  unfold bindListener
  split
  · exact .inl ⟨_, rfl⟩
  · rename_i hentry
    refine .inr ⟨hentry, _, rfl, rfl, rfl, ?_⟩
    funext j
    by_cases hj : j = k.nextIno
    · subst j
      simp [holders, Holder.agent?]
    · simp [holders, hj]

/-- The socket under the path is what the path leads to. -/
theorem target_of_socketAt {k : Kernel} {i : ℕ} (h : k.socketAt = some i) :
    k.entry = some (.node (.socket i)) ∧ k.target = some (.socket i) := by
  unfold socketAt at h
  split at h
  · rename_i hentry
    cases h
    exact ⟨hentry, by simp [target, hentry, Entry.resolve]⟩
  · cases h

/-- A refused connection shows that nobody listens on the socket under the path. -/
theorem holders_of_refused {k : Kernel} {c : Cred} {e : IoError} {i : ℕ}
    (h : (k.connect c).1 = .error e) (hi : k.socketAt = some i) : k.holders i = none := by
  simp only [connect, (target_of_socketAt hi).2] at h
  split at h
  · cases h
  · rename_i hnone
    simpa [holders] using hnone

theorem SameDirectory.socketAt {k k' : Kernel} (h : k.SameDirectory k') :
    k'.socketAt = k.socketAt := by
  simp only [Kernel.socketAt, h.entry]

end Kernel

/-- The attributes of a socket after the mode has been set and before the group has been. -/
def modedAccess (directoryGroup : Option UInt32) (p : Process) (c : SocketConfig) : Access :=
  (Kernel.createdAccess directoryGroup p).chmod p.cred c.socketMode

/-- The operations that can change the entry, the listeners or the existing inodes. -/
def Syscall.touchesDirectory : Syscall → Bool
  | .removeFile | .bindListener | .close _ => true
  | _ => false

/-- All other operations are invisible in the directory, and so is every failure. -/
theorem Kernel.exec_sameDirectory (k : Kernel) (a : Agent) (p : Process) (fault : Option IoError)
    {c : Syscall} (h : fault = none → c.touchesDirectory = false) :
    SameDirectory k (k.exec a p fault c).2 := by
  cases fault with
  | some e => exact .refl k
  | none =>
    have h := h rfl
    cases c with
    | removeFile | bindListener | close => simp [Syscall.touchesDirectory] at h
    | connect => exact sameDirectory_connect k _
    | setPermissions mode => exact sameDirectory_setAttributes k _
    | chown gid => exact sameDirectory_setAttributes k _
    | accept i => exact sameDirectory_accept k i
    | eprintln line => exact ⟨rfl, rfl, rfl⟩
    | exists_ | symlinkMetadata | groupFromName | peerCredentials | setReadTimeout =>
      exact .refl k

namespace Kernel

/-- No operation but an unlink takes a socket's entry away. -/
theorem exec_socketAt {k : Kernel} {a : Agent} {p : Process} {fault : Option IoError}
    {c : Syscall} {j : ℕ} (hj : k.socketAt = some j) (hc : fault = none → c ≠ .removeFile) :
    (k.exec a p fault c).2.socketAt = some j := by
  by_cases htouch : fault = none → c.touchesDirectory = false
  · rw [(k.exec_sameDirectory a p fault htouch).socketAt]
    exact hj
  · obtain ⟨rfl, htouch⟩ := by simpa using htouch
    cases c with
    | removeFile => exact absurd rfl (hc rfl)
    | close i => exact hj
    | bindListener =>
      rcases k.bindListener_cases a p with ⟨e, hbind⟩ | ⟨hentry, -⟩
      · simp only [exec, perform, hbind]
        exact hj
      · simp [socketAt, hentry] at hj
    | _ => simp [Syscall.touchesDirectory] at htouch

/-- What no operation changes: the group database, and the group of the directory. -/
structure SameSurroundings (k k' : Kernel) : Prop where
  /-- The same groups have the same ids. -/
  groupGid : k'.groupGid = k.groupGid
  /-- What is created gets the same group. -/
  directoryGroup : k'.directoryGroup = k.directoryGroup

theorem SameSurroundings.refl (k : Kernel) : SameSurroundings k k := ⟨rfl, rfl⟩

theorem SameSurroundings.trans {k k' k'' : Kernel} (h : k.SameSurroundings k')
    (h' : k'.SameSurroundings k'') : k.SameSurroundings k'' :=
  ⟨h'.groupGid.trans h.groupGid, h'.directoryGroup.trans h.directoryGroup⟩

theorem connect_surroundings (k : Kernel) (c : Cred) : k.SameSurroundings (k.connect c).2 := by
  unfold connect
  split
  · exact .refl k
  · split
    · exact ⟨rfl, rfl⟩
    · exact .refl k
  · exact .refl k

theorem clientConnects_surroundings (k : Kernel) (c : Cred) :
    k.SameSurroundings (k.clientConnects c) := by
  unfold clientConnects
  split
  · split
    · exact k.connect_surroundings c
    · exact .refl k
  · exact .refl k

theorem exec_surroundings (k : Kernel) (a : Agent) (p : Process) (fault : Option IoError)
    (c : Syscall) : k.SameSurroundings (k.exec a p fault c).2 := by
  cases fault with
  | some e => exact .refl k
  | none =>
    cases c with
    | connect => exact k.connect_surroundings p.cred
    | removeFile | bindListener | setPermissions | chown | accept =>
      simp only [exec, perform, removeFile, bindListener, setAttributes, accept]
      split <;> exact ⟨rfl, rfl⟩
    | _ => exact ⟨rfl, rfl⟩

/-- What a step can do to the entry: leave it, take it away, or make it a new socket. -/
def Renames (k k' : Kernel) : Prop :=
  (k'.entry = k.entry ∨ k'.entry = none) ∧ k'.nextIno = k.nextIno ∨
    k'.entry = some (.node (.socket k.nextIno)) ∧ k'.nextIno = k.nextIno + 1

theorem Renames.refl (k : Kernel) : Renames k k := .inl ⟨.inl rfl, rfl⟩

theorem SameDirectory.renames {k k' : Kernel} (h : k.SameDirectory k') : Renames k k' :=
  .inl ⟨.inl h.entry, h.nextIno⟩

theorem removeFile_renames (k : Kernel) : Renames k k.removeFile.2 := by
  rcases k.removeFile_cases with ⟨e, hremove⟩ | hremove
  · rw [hremove]
    exact .refl k
  · rw [hremove]
    exact .inl ⟨.inr rfl, rfl⟩

/-- Every operation leaves the entry, takes it away, or makes it a new socket. -/
theorem exec_renames (k : Kernel) (a : Agent) (p : Process) (fault : Option IoError)
    (c : Syscall) : Renames k (k.exec a p fault c).2 := by
  by_cases htouch : fault = none → c.touchesDirectory = false
  · exact (k.exec_sameDirectory a p fault htouch).renames
  · obtain ⟨rfl, htouch⟩ := by simpa using htouch
    cases c with
    | removeFile => exact k.removeFile_renames
    | close i => exact .inl ⟨.inl rfl, rfl⟩
    | bindListener =>
      rcases k.bindListener_cases a p with ⟨e, hbind⟩ | ⟨-, k', hbind, hentry, hmade, -⟩
      · simp only [exec, perform, hbind]
        exact .refl k
      · simp only [exec, perform, hbind]
        exact .inr ⟨hentry, hmade⟩
    | _ => simp [Syscall.touchesDirectory] at htouch

end Kernel

/-- What a step of a program at a control point is: an operation, its reply and its effect. -/
theorem advance_eq_some {α π : Type} {next : π → Prog.Head Syscall Syscall.Reply α π} {k : Kernel}
    {a : Agent} {p : Process} {fault : Option IoError} {pc : π} {out : π × Kernel} :
    advance next k a p fault pc = some out ↔
      ∃ c succ, next pc = .call c succ ∧ fault.all c.mayFail = true ∧
        out = (succ (k.exec a p fault c).1, (k.exec a p fault c).2) := by
  cases hnext : next pc with
  | ret r => simp [advance, hnext]
  | call c succ =>
    simp only [advance, hnext]
    constructor
    · intro h
      by_cases hfail : fault.all c.mayFail = true
      · exact ⟨c, succ, rfl, hfail, by simpa [hfail, eq_comm] using h⟩
      · simp [hfail] at h
    · rintro ⟨c', succ', hcall, hfail, rfl⟩
      cases hcall
      exact if_pos hfail

namespace World

variable {w w' : World} {a : Agent} {act : Action} {process : Process} {fault : Option IoError}

/-- **Inversion.** A step of an agent in a bind is the operation at its control point. -/
theorem step_of_binding {config : SocketConfig} {pc : BindPc}
    (hag : w.agents a = .binding process config pc) (hstep : w.step (.step a fault) = some w') :
    ∃ c succ, pc.next config = .call c succ ∧ fault.all c.mayFail = true ∧
      w' = w.afterBindStep a process config pc
        (succ (w.kernel.exec a process fault c).1, (w.kernel.exec a process fault c).2) := by
  simp only [step, hag] at hstep
  obtain ⟨out, hadv, rfl⟩ := Option.map_eq_some_iff.mp hstep
  obtain ⟨c, succ, hnext, hfail, rfl⟩ := advance_eq_some.mp hadv
  exact ⟨c, succ, hnext, hfail, rfl⟩

/-- **Inversion.** A step of an agent in a drop is the operation at its control point. -/
theorem step_of_dropping {socket : Socket} {pc : DropPc}
    (hag : w.agents a = .dropping process socket pc) (hstep : w.step (.step a fault) = some w') :
    ∃ c succ, pc.next socket = .call c succ ∧ fault.all c.mayFail = true ∧
      w' = w.afterDropStep a process socket
        (succ (w.kernel.exec a process fault c).1, (w.kernel.exec a process fault c).2) := by
  simp only [step, hag] at hstep
  obtain ⟨out, hadv, rfl⟩ := Option.map_eq_some_iff.mp hstep
  obtain ⟨c, succ, hnext, hfail, rfl⟩ := advance_eq_some.mp hadv
  exact ⟨c, succ, hnext, hfail, rfl⟩

/-- Running `Socket::accept` does what its `accept(2)` does, and returns at most the
connection that this gives, and nothing if the deadline is one of nothing. -/
theorem runAccept_eq {process : Process} {socket : Socket} {faults : Syscall → Option IoError}
    {reply : Except IoError Connection} {k : Kernel}
    (hreply : w.kernel.exec a process (faults (.accept socket.listener)) (.accept socket.listener) =
      (reply, k)) :
    ∃ returned, w.runAccept a process socket faults =
        { w with kernel := k, accepted := w.accepted ++ returned } ∧
      ∀ x ∈ returned, x.1 = a ∧ reply = .ok x.2.1 ∧ socket.config.requestReadTimeout ≠ some 0 := by
  simp only [runAccept, Socket.accept_eq, Prog.runWith, hreply]
  cases reply with
  | error e => exact ⟨[], by simp [Prog.runWith]⟩
  | ok stream =>
    -- Reading the peer and setting the deadline leave the kernel's state as it is.
    have hpeer : (k.exec a process (faults (.peerCredentials stream))
        (.peerCredentials stream)).2 = k := by
      cases faults (.peerCredentials stream) <;> rfl
    have hdeadline : ∀ c, c = .setReadTimeout stream socket.config.requestReadTimeout →
        (k.exec a process (faults c) c).2 = k := by
      rintro _ rfl
      cases faults (.setReadTimeout stream socket.config.requestReadTimeout) <;> rfl
    simp only [Prog.runWith, hpeer, hdeadline _ rfl]
    have hzero (fault : Option IoError) (hrefused : socket.config.requestReadTimeout = some 0) :
        ∃ e, (k.exec a process fault
          (.setReadTimeout stream socket.config.requestReadTimeout)).1 = .error e := by
      rw [hrefused]
      cases fault <;> exact ⟨_, rfl⟩
    cases hset : (k.exec a process _
      (.setReadTimeout stream socket.config.requestReadTimeout)).1 with
    | error e => exact ⟨[], by simp [Prog.runWith]⟩
    | ok _ =>
      refine ⟨[_], rfl, fun x hx => ?_⟩
      obtain rfl := List.mem_singleton.mp hx
      refine ⟨rfl, rfl, fun hrefused => ?_⟩
      obtain ⟨e, he⟩ := hzero _ hrefused
      cases hset.symm.trans he

/-- Every action leaves the entry, takes it away, or makes it a new socket. -/
theorem step_renames (h : w.step act = some w') : w.kernel.Renames w'.kernel := by
  cases act with
  | start a process config =>
    simp only [step] at h
    split at h <;> cases h <;> exact .refl _
  | step a fault =>
    simp only [step] at h
    split at h
    · obtain ⟨out, hadv, rfl⟩ := Option.map_eq_some_iff.mp h
      obtain ⟨c, succ, -, -, rfl⟩ := advance_eq_some.mp hadv
      exact w.kernel.exec_renames ..
    · obtain ⟨out, hadv, rfl⟩ := Option.map_eq_some_iff.mp h
      obtain ⟨c, succ, -, -, rfl⟩ := advance_eq_some.mp hadv
      exact w.kernel.exec_renames ..
    · cases h
  | beginDrop a =>
    simp only [step] at h
    split at h <;> cases h
    exact .refl _
  | kill a =>
    cases h
    show w.kernel.Renames (w.closeOf a)
    unfold closeOf
    split
    · exact .inl ⟨.inl rfl, rfl⟩
    · exact .refl _
  | strangerCloses i =>
    simp only [step] at h
    split at h <;> cases h
    exact .inl ⟨.inl rfl, rfl⟩
  | removeEntry =>
    cases h
    exact w.kernel.removeFile_renames
  | clientConnects c =>
    cases h
    exact (w.kernel.sameDirectory_clientConnects c).renames
  | accept a faults =>
    simp only [step] at h
    split at h
    · rename_i process socket hag
      cases h
      obtain ⟨returned, haccept, -⟩ : ∃ returned, w.runAccept a process socket faults = _ ∧ _ :=
        runAccept_eq rfl
      rw [haccept]
      exact w.kernel.exec_renames ..
    · cases h

/-- An action leaves every agent alone but the one that acts. -/
theorem step_agents_of_ne (h : w.step act = some w') {b : Agent} (hb : act.agent? ≠ some b) :
    w'.agents b = w.agents b ∧ w'.probed b = w.probed b := by
  have hset {v : World} {a : Agent} {s : AgentState} (ha : b ≠ a) :
      (v.setAgent a s).agents b = v.agents b := by
    simp [setAgent, ha]
  cases act with
  | start a process config =>
    have ha : b ≠ a := fun hba => hb (hba ▸ rfl)
    simp only [step] at h
    split at h <;> cases h <;> exact ⟨hset ha, rfl⟩
  | step a fault =>
    have ha : b ≠ a := fun hba => hb (hba ▸ rfl)
    simp only [step] at h
    split at h
    · obtain ⟨out, -, rfl⟩ := Option.map_eq_some_iff.mp h
      refine ⟨by simp [afterBindStep, ha], ?_⟩
      simp only [afterBindStep]
      split <;> simp [ha]
    · obtain ⟨out, -, rfl⟩ := Option.map_eq_some_iff.mp h
      exact ⟨by simp [afterDropStep, ha], rfl⟩
    · cases h
  | beginDrop a =>
    have ha : b ≠ a := fun hba => hb (hba ▸ rfl)
    simp only [step] at h
    split at h <;> cases h
    exact ⟨hset ha, rfl⟩
  | kill a =>
    have ha : b ≠ a := fun hba => hb (hba ▸ rfl)
    cases h
    exact ⟨hset ha, rfl⟩
  | strangerCloses i =>
    simp only [step] at h
    split at h <;> cases h
    exact ⟨rfl, rfl⟩
  | removeEntry | clientConnects c =>
    cases h
    exact ⟨rfl, rfl⟩
  | accept a faults =>
    simp only [step] at h
    split at h
    · rename_i process socket _
      cases h
      obtain ⟨returned, haccept, -⟩ : ∃ returned, w.runAccept a process socket faults = _ ∧ _ :=
        runAccept_eq rfl
      rw [haccept]
      exact ⟨rfl, rfl⟩
    · cases h

/-- The death of a process and what clients do leave the entry and the inodes. -/
theorem step_entry_of_background (h : w.step act = some w')
    (hact : (∃ a, act = .kill a) ∨ (∃ c, act = .clientConnects c) ∨
      ∃ a faults, act = .accept a faults) :
    w'.kernel.entry = w.kernel.entry ∧ w'.kernel.nextIno = w.kernel.nextIno := by
  rcases hact with ⟨a, rfl⟩ | ⟨c, rfl⟩ | ⟨a, faults, rfl⟩
  · cases h
    show (w.closeOf a).entry = _ ∧ (w.closeOf a).nextIno = _
    unfold closeOf
    split <;> exact ⟨rfl, rfl⟩
  · cases h
    have hk := w.kernel.sameDirectory_clientConnects c
    exact ⟨hk.entry, hk.nextIno⟩
  · simp only [step] at h
    split at h
    · rename_i process socket _
      cases h
      have hk := w.kernel.exec_sameDirectory a process (faults (.accept socket.listener))
        (c := .accept socket.listener) fun _ => rfl
      obtain ⟨returned, haccept, -⟩ : ∃ returned, w.runAccept a process socket faults = _ ∧ _ :=
        runAccept_eq rfl
      rw [haccept]
      exact ⟨hk.entry, hk.nextIno⟩
    · cases h

end World

end UdsPolicy
