import UdsPolicy.General.Observation
import UdsPolicy.Socket.Directory

/-!
# What one bind leaves at the path

A bind that nobody interferes with, against every state of the path and every
failure of its calls. `Known` says for each control point of the bind what the
path, the inodes and the calls so far have to do with the state that the bind has
found; every call keeps it, and the outcome is read off where the bind returns.
The mode is set before the group is, and a change of the group takes two bits of
the mode away: the socket ends with the mode that was asked for exactly if those
bits, and the bits that no mode has, are not asked for.
-/

namespace UdsPolicy

open Prog (Presents observe)

/-- The calls of a run, each with the state before it and its reply. -/
abbrev Past := List (Prog.Event Syscall Syscall.Reply Kernel)

/-- A run so far. -/
abbrev SysRun := Prog.Observed Syscall Syscall.Reply Kernel

/-- Answer the call number `n`, which fails for the outside reason `faults n` if there is one. -/
def Kernel.answer (a : Agent) (p : Process) (faults : ℕ → Option IoError) (n : ℕ) (c : Syscall)
    (k : Kernel) : c.Reply × Kernel :=
  k.exec a p (faults n) c

/-- Run `Socket::bind` alone, from a state that nobody else changes meanwhile. -/
def bindAlone (a : Agent) (p : Process) (faults : ℕ → Option IoError) (config : SocketConfig)
    (k : Kernel) : Except BindError Socket × SysRun :=
  (Socket.bind config : Sys _).runWith (observe (Kernel.answer a p faults)) ⟨k, []⟩

namespace Past

/-- The connect probe has returned `ECONNREFUSED`. -/
def Refused (past : Past) : Prop :=
  ∃ before error, ⟨before, .connect, .error error⟩ ∈ past ∧ error.kind = .connectionRefused

/-- `UnixListener::bind` has created the inode `i`. -/
def Created (past : Past) (i : ℕ) : Prop := ∃ before, ⟨before, .bindListener, .ok i⟩ ∈ past

/-- `set_permissions` has succeeded. -/
def ModeSet (past : Past) : Prop := ∃ before mode, ⟨before, .setPermissions mode, .ok ()⟩ ∈ past

/-- The unlink that follows a failed `set_permissions` has failed as well. -/
def CleanUpFailed (past : Past) : Prop :=
  ∃ earlier before mode error before' error' later, past =
    earlier ++ ⟨before, .setPermissions mode, .error error⟩ ::
      ⟨before', .removeFile, .error error'⟩ :: later

/-- The requested group has resolved to `gid`, and the `chown` to it has succeeded. -/
def Given (config : SocketConfig) (past : Past) (gid : UInt32) : Prop :=
  (∃ group before, config.socketGroup = some group ∧
    ⟨before, .groupFromName group, .ok (some gid)⟩ ∈ past) ∧
  ∃ before, ⟨before, .chown gid, .ok ()⟩ ∈ past

/-- The configured group has been looked up, and if it has resolved, the socket's group has been
changed to it. -/
def Asked (config : SocketConfig) (past : Past) : Prop :=
  ∀ group, config.socketGroup = some group → ∃ before reply,
    ⟨before, .groupFromName group, reply⟩ ∈ past ∧
      ∀ gid, reply = .ok (some gid) → ∃ before' reply', ⟨before', .chown gid, reply'⟩ ∈ past

/-- The lookups that have not failed have found what the group database has. -/
def Answered (db : String → Option UInt32) (past : Past) : Prop :=
  ∀ before group found, ⟨before, .groupFromName group, .ok found⟩ ∈ past → found = db group

/-- The group has been asked for, or the socket been given to one. -/
def Grouped (past : Past) : Prop :=
  ∃ e ∈ past, (∃ name, e.call = .groupFromName name) ∨ ∃ gid, e.call = .chown gid

end Past

/-- The errors that say that the path was left alone. -/
def BindError.leftAlone : BindError → Bool
  | .alreadyActive _ | .notASocket _ | .unverifiable _ _ => true
  | .io _ => false

namespace Kernel

/-- The path is exactly as it was: the same entry, and the same inodes with the same
listeners, modes, owners and groups. -/
structure Untouched (k k' : Kernel) : Prop where
  /-- The entry. -/
  entry : k'.entry = k.entry
  /-- The inodes that exist. -/
  nextIno : k'.nextIno = k.nextIno
  /-- Who listens on them. -/
  listener : ∀ i, (k'.inode i).listener = (k.inode i).listener
  /-- Who may connect to them. -/
  access : ∀ i, (k'.inode i).access = (k.inode i).access

/-- The path names the socket inode `i`, which the agent listens on. -/
structure Names (k : Kernel) (i : ℕ) (a : Agent) : Prop where
  /-- The entry is the inode. -/
  entry : k.entry = some (.node (.socket i))
  /-- The inode's listener is the agent's. -/
  listener : (k.inode i).listener = some (.agent a)

end Kernel

/-- What a bind that nobody interferes with leaves, from the state `k` that it has found, but for
the mode. -/
structure BindLeaves (k : Kernel) (a : Agent) (p : Process) (config : SocketConfig)
    (out : Except BindError Socket × SysRun) : Prop where
  /-- At every moment, if the entry that was there is not there any more, then it was a socket
  itself and the probe has been refused before. -/
  reclaimed : ∀ past k', out.2.Visits past k' → ∀ e, k.entry = some e → k'.entry ≠ some e →
    (∃ i, e = .node (.socket i)) ∧ Past.Refused past
  /-- Three of the errors leave the path exactly as it was. -/
  untouched : ∀ error, out.1 = .error error → error.leftAlone = true → k.Untouched out.2.state
  /-- No error leaves a socket that this bind has created, unless the clean-up has failed. -/
  cleaned : ∀ error i, out.1 = .error error → Past.Created out.2.events i →
    out.2.state.entry = some (.node (.socket i)) → Past.CleanUpFailed out.2.events
  /-- A success leaves a fresh inode of the returned listener at the path. -/
  bound : ∀ socket, out.1 = .ok socket → socket.config = config ∧
    k.nextIno ≤ socket.listener ∧ out.2.state.Names socket.listener a
  /-- The group that was asked for is looked up, and tried if it resolves. -/
  asked : (∃ socket, out.1 = .ok socket) → Past.Asked config out.2.events
  /-- The lookup finds what the group database has, unless it fails. -/
  answered : Past.Answered k.groupGid out.2.events
  /-- The socket's group is the requested one, if that has resolved and been given. -/
  given : ∀ socket gid, out.1 = .ok socket → Past.Given config out.2.events gid →
    (out.2.state.inode socket.listener).access.group = gid
  /-- Otherwise it is the one it was created with. -/
  own : ∀ socket, out.1 = .ok socket → (∀ gid, ¬Past.Given config out.2.events gid) →
    (out.2.state.inode socket.listener).access.group = k.directoryGroup.getD p.cred.gid
  /-- It succeeds exactly if `set_permissions` does. -/
  succeeds : (∃ socket, out.1 = .ok socket) ↔ Past.ModeSet out.2.events
  /-- Whatever the group lookup and the `chown` return, there is no error any more. -/
  grouped : Past.Grouped out.2.events → ∃ socket, out.1 = .ok socket

/-- All that a bind has to leave. -/
structure BindOutcome (k : Kernel) (a : Agent) (p : Process) (config : SocketConfig)
    (out : Except BindError Socket × SysRun) : Prop extends BindLeaves k a p config out where
  /-- A success leaves the socket with its mode. -/
  mode : ∀ socket, out.1 = .ok socket →
    (out.2.state.inode socket.listener).access.mode = config.socketMode

/-- The mode is one that neither the `chmod` takes bits from nor the change of group after it, in a
directory with the given group, if any, and with the given group database. -/
structure SocketConfig.KeepsMode (config : SocketConfig) (p : Process)
    (directoryGroup : Option UInt32) (db : String → Option UInt32) : Prop where
  /-- A mode has twelve bits. -/
  twelve : config.socketMode ≤ 0o7777
  /-- The set-group-ID bit is for the superuser and for members of the group. -/
  setgid : config.socketMode &&& 0o2000 = 0 ∨ p.cred.uid = 0 ∨
    p.cred.inGroup (directoryGroup.getD p.cred.gid) = true
  /-- A change of group takes the set-user-ID bit, and the set-group-ID bit if the group may
  execute. -/
  given : ∀ group gid, config.socketGroup = some group → db group = some gid →
    config.socketMode &&& 0o4000 = 0 ∧
      (config.socketMode &&& 0o2000 = 0 ∨ config.socketMode &&& 0o010 = 0)

namespace Kernel

variable {k k' : Kernel} {a : Agent} {p : Process} {i : ℕ} {fault : Option IoError}

theorem Untouched.refl (k : Kernel) : k.Untouched k :=
  ⟨rfl, rfl, fun _ => rfl, fun _ => rfl⟩

theorem Untouched.trans {k'' : Kernel} (h : k.Untouched k') (h' : k'.Untouched k'') :
    k.Untouched k'' where
  entry := h'.entry.trans h.entry
  nextIno := h'.nextIno.trans h.nextIno
  listener i := (h'.listener i).trans (h.listener i)
  access i := (h'.access i).trans (h.access i)

/-- A connection waits in the backlog, which is all that a probe changes. -/
theorem untouched_connect (k : Kernel) (c : Cred) : k.Untouched (k.connect c).2 := by
  unfold connect
  split
  · exact .refl k
  · split
    · rename_i j _ _
      refine ⟨rfl, rfl, fun i => ?_, fun i => ?_⟩ <;>
        by_cases hi : i = j <;> simp [enqueue, modifyInode, hi]
    · exact .refl k
  · exact .refl k

/-- The probe leaves the path as it was, however it ends. -/
theorem untouched_exec_connect (k : Kernel) (a : Agent) (p : Process) (fault : Option IoError) :
    k.Untouched (k.exec a p fault .connect).2 := by
  cases fault with
  | none => exact k.untouched_connect p.cred
  | some e => exact .refl k

/-- An unlink fails and changes nothing, or frees the path. -/
theorem exec_removeFile_cases (k : Kernel) (a : Agent) (p : Process) (fault : Option IoError) :
    (∃ e, k.exec a p fault .removeFile = (.error e, k)) ∨
      k.exec a p fault .removeFile = (.ok (), { k with entry := none }) := by
  cases fault with
  | none => exact k.removeFile_cases
  | some e => exact .inl ⟨e, rfl⟩

/-- `UnixListener::bind` fails and changes nothing, or puts a new inode at the free path. -/
theorem exec_bindListener_cases (k : Kernel) (a : Agent) (p : Process) (fault : Option IoError) :
    (∃ e, k.exec a p fault .bindListener = (.error e, k)) ∨
      k.entry = none ∧ ∃ k', k.exec a p fault .bindListener = (.ok k.nextIno, k') ∧
        k'.Names k.nextIno a ∧
        (k'.inode k.nextIno).access = createdAccess k.directoryGroup p := by
  cases fault with
  | some e => exact .inl ⟨e, rfl⟩
  | none =>
    simp only [exec, perform, bindListener]
    split
    · exact .inl ⟨_, rfl⟩
    · rename_i hentry
      refine .inr ⟨hentry, _, rfl, ⟨rfl, ?_⟩, ?_⟩ <;> simp

/-- A change of attributes reaches the socket inode that the path names. -/
theorem Names.setAttributes (h : k.Names i a) (f : Access → Access) :
    ∃ k', k.setAttributes f = (.ok (), k') ∧ k'.Names i a ∧
      (k'.inode i).access = f (k.inode i).access := by
  have htarget : k.target = some (.socket i) := by simp only [target, h.entry]; rfl
  refine ⟨k.modifyInode i fun n => { n with access := f n.access },
    by simp only [Kernel.setAttributes, htarget], ⟨h.entry, ?_⟩, ?_⟩
  · simpa [modifyInode] using h.listener
  · simp [modifyInode]

/-- A change of mode fails and changes nothing, or is a `chmod` of the socket. -/
theorem Names.exec_setPermissions_cases (h : k.Names i a) (b : Agent) (p : Process)
    (fault : Option IoError) (mode : UInt32) :
    (∃ e, k.exec b p fault (.setPermissions mode) = (.error e, k)) ∨
      ∃ k', k.exec b p fault (.setPermissions mode) = (.ok (), k') ∧ k'.Names i a ∧
        (k'.inode i).access = (k.inode i).access.chmod p.cred mode := by
  cases fault with
  | some e => exact .inl ⟨e, rfl⟩
  | none => exact .inr (h.setAttributes fun access => access.chmod p.cred mode)

/-- A change of group fails and changes nothing, or reaches the socket. -/
theorem Names.exec_chown_cases (h : k.Names i a) (b : Agent) (p : Process)
    (fault : Option IoError) (gid : UInt32) :
    (∃ e, k.exec b p fault (.chown gid) = (.error e, k)) ∨
      ∃ k', k.exec b p fault (.chown gid) = (.ok (), k') ∧ k'.Names i a ∧
        (k'.inode i).access = (k.inode i).access.chgrp gid := by
  cases fault with
  | some e => exact .inl ⟨e, rfl⟩
  | none => exact .inr (h.setAttributes fun access => access.chgrp gid)

/-- Metadata of a socket are those of an entry that is a socket itself. -/
theorem socket_of_metadata {metadata : FileType}
    (h : k.exec a p fault .symlinkMetadata = (.ok metadata, k'))
    (hsocket : metadata.isSocket = true) :
    ∃ i, k.entry = some (.node (.socket i)) := by
  cases fault with
  | some e => cases h
  | none =>
    have hread : k.symlinkMetadata = .ok metadata := congrArg Prod.fst h
    unfold symlinkMetadata at hread
    cases hentry : k.entry with
    | none =>
      rw [hentry] at hread
      cases hread
    | some entry =>
      rw [hentry] at hread
      cases hread
      rcases entry with ⟨_ | _ | i⟩ | target
      · cases hsocket
      · cases hsocket
      · exact ⟨i, rfl⟩
      · cases hsocket

end Kernel

/-- The calls of a bind in the order in which they are made, as far as it matters. -/
def Syscall.stage : Syscall → ℕ
  | .bindListener => 1
  | .setPermissions _ => 2
  | .groupFromName _ => 3
  | .chown _ => 4
  | _ => 0

namespace Past

/-- No call of stage `n` or later has been made. -/
def Upto (n : ℕ) (past : Past) : Prop := ∀ e ∈ past, e.call.stage < n

variable {past : Past} {e : Prog.Event Syscall Syscall.Reply Kernel} {n m : ℕ}
  {config : SocketConfig} {i : ℕ} {gid : UInt32}

/-- A call other than the last has been made before it. -/
theorem mem_of_mem_snoc {x : Prog.Event Syscall Syscall.Reply Kernel} (h : x ∈ past ++ [e])
    (hne : x ≠ e) : x ∈ past :=
  (List.mem_append.mp h).resolve_right fun hlast => hne (List.mem_singleton.mp hlast)

theorem Upto.mono (h : Upto n past) (hle : n ≤ m) : Upto m past :=
  fun e he => Nat.lt_of_lt_of_le (h e he) hle

theorem Upto.snoc (h : Upto n past) (he : e.call.stage < n) : Upto n (past ++ [e]) := by
  intro x hx
  rcases List.mem_append.mp hx with hx | hx
  · exact h x hx
  · rw [List.mem_singleton.mp hx]
    exact he

theorem Refused.snoc (h : Refused past) : Refused (past ++ [e]) := by
  obtain ⟨before, error, hmem, hkind⟩ := h
  exact ⟨before, error, List.mem_append_left _ hmem, hkind⟩

theorem ModeSet.snoc (h : ModeSet past) : ModeSet (past ++ [e]) := by
  obtain ⟨before, mode, hmem⟩ := h
  exact ⟨before, mode, List.mem_append_left _ hmem⟩

/-- Only a `set_permissions` that succeeds sets the mode. -/
theorem not_modeSet_snoc (h : ¬ModeSet past)
    (hne : ∀ before mode, ⟨before, .setPermissions mode, .ok ()⟩ ≠ e) : ¬ModeSet (past ++ [e]) := by
  rintro ⟨before, mode, hmem⟩
  exact h ⟨before, mode, mem_of_mem_snoc hmem (hne before mode)⟩

theorem CleanUpFailed.snoc (h : CleanUpFailed past) : CleanUpFailed (past ++ [e]) := by
  obtain ⟨earlier, before, mode, error, before', error', later, rfl⟩ := h
  exact ⟨earlier, before, mode, error, before', error', later ++ [e], by simp⟩

theorem Asked.snoc (h : Asked config past) : Asked config (past ++ [e]) := by
  intro group hconfig
  obtain ⟨before, reply, hmem, hchown⟩ := h group hconfig
  refine ⟨before, reply, List.mem_append_left _ hmem, fun gid hgid => ?_⟩
  obtain ⟨before', reply', hmem'⟩ := hchown gid hgid
  exact ⟨before', reply', List.mem_append_left _ hmem'⟩

/-- Nothing has been created before the listener is bound. -/
theorem Upto.not_created (h : Upto 1 past) : ¬Created past i := by
  rintro ⟨before, hmem⟩
  have hlt : 1 < 1 := h _ hmem
  omega

/-- The mode has not been set before the call that sets it. -/
theorem Upto.not_modeSet (h : Upto 2 past) : ¬ModeSet past := by
  rintro ⟨before, mode, hmem⟩
  have hlt : 2 < 2 := h _ hmem
  omega

theorem Upto.not_grouped (h : Upto 3 past) : ¬Grouped past := by
  rintro ⟨⟨before, call, reply⟩, hmem, ⟨name, rfl⟩ | ⟨gid, rfl⟩⟩
  · have hlt : 3 < 3 := h _ hmem
    omega
  · have hlt : 4 < 3 := h _ hmem
    omega

theorem Upto.not_chown {reply : Except IoError Unit} (h : Upto 4 past) :
    ¬∃ before, ⟨before, .chown gid, reply⟩ ∈ past := by
  rintro ⟨before, hmem⟩
  have hlt : 4 < 4 := h _ hmem
  omega

/-- Nothing has been given to a group before the `chown`. -/
theorem Upto.not_given (h : Upto 4 past) : ¬Given config past gid :=
  fun hgiven => h.not_chown hgiven.2

end Past

/-- If anything was at the path, it was a socket and the probe has been refused: the entry may
be gone. -/
def Reclaimable (k₀ : Kernel) (past : Past) : Prop :=
  ∀ e, k₀.entry = some e → (∃ i, e = .node (.socket i)) ∧ Past.Refused past

/-- The bind has put a fresh inode of its own at the path. -/
structure Fresh (k₀ : Kernel) (a : Agent) (past : Past) (k : Kernel) (i : ℕ) : Prop where
  /-- The inode did not exist. -/
  fresh : k₀.nextIno ≤ i
  /-- The path names it, and the agent listens on it. -/
  names : k.Names i a
  /-- What was there before could be reclaimed. -/
  reclaimable : Reclaimable k₀ past

/-- What is known at each control point of a bind that has found the path in the state `k₀`,
of the calls so far and the present state. -/
def Known (k₀ : Kernel) (a : Agent) (p : Process) (config : SocketConfig) :
    BindPc → Past → Kernel → Prop
  | .exists_, past, k | .symlinkMetadata, past, k => k₀.Untouched k ∧ Past.Upto 1 past
  | .connect, past, k =>
    k₀.Untouched k ∧ Past.Upto 1 past ∧ ∃ i, k₀.entry = some (.node (.socket i))
  | .removeStale, past, k =>
    k₀.Untouched k ∧ Past.Upto 1 past ∧ Reclaimable k₀ past
  | .bindListener, past, k =>
    k.nextIno = k₀.nextIno ∧ Past.Upto 1 past ∧
      (k.entry = k₀.entry ∨ k.entry = none ∧ Reclaimable k₀ past)
  | .setPermissions i, past, k =>
    Fresh k₀ a past k i ∧ Past.Upto 2 past ∧
      (k.inode i).access = Kernel.createdAccess k₀.directoryGroup p
  | .cleanUp _ error, past, _ =>
    Reclaimable k₀ past ∧ Past.Upto 3 past ∧ ¬Past.ModeSet past ∧
      ∃ earlier before mode, past = earlier ++ [⟨before, .setPermissions mode, .error error⟩]
  | .closeListener _ _, past, k =>
    Reclaimable k₀ past ∧ Past.Upto 3 past ∧ ¬Past.ModeSet past ∧
      (k.entry = none ∨ Past.CleanUpFailed past)
  | .groupFromName i group, past, k =>
    Fresh k₀ a past k i ∧ Past.Upto 3 past ∧ Past.ModeSet past ∧
      (k.inode i).access = modedAccess k₀.directoryGroup p config ∧ config.socketGroup = some group
  | .chown i group gid, past, k =>
    Fresh k₀ a past k i ∧ Past.Upto 4 past ∧ Past.ModeSet past ∧
      (k.inode i).access = modedAccess k₀.directoryGroup p config ∧
      config.socketGroup = some group ∧
      ∃ before, ⟨before, .groupFromName group, .ok (some gid)⟩ ∈ past
  | .eprintln i _, past, k =>
    Fresh k₀ a past k i ∧ Past.ModeSet past ∧
      (k.inode i).access = modedAccess k₀.directoryGroup p config ∧ Past.Asked config past ∧
      ∀ gid, ¬Past.Given config past gid
  | .returned (.ok socket), past, k =>
    socket.config = config ∧ Fresh k₀ a past k socket.listener ∧ Past.ModeSet past ∧
      Past.Asked config past ∧
      (∀ gid, Past.Given config past gid → (k.inode socket.listener).access =
        (modedAccess k₀.directoryGroup p config).chgrp gid) ∧
      ((∀ gid, ¬Past.Given config past gid) →
        (k.inode socket.listener).access = modedAccess k₀.directoryGroup p config)
  | .returned (.error error), past, k =>
    (error.leftAlone = true → k₀.Untouched k) ∧
      (k.entry = k₀.entry ∨ Reclaimable k₀ past) ∧
      (∀ i, Past.Created past i → k.entry = some (.node (.socket i)) → Past.CleanUpFailed past) ∧
      ¬Past.ModeSet past ∧ ¬Past.Grouped past

section Steps

variable {k₀ k : Kernel} {a : Agent} {p : Process} {config : SocketConfig} {past : Past}
  {pc : BindPc} {c : Syscall} {succ : c.Reply → BindPc} {fault : Option IoError} {i : ℕ}
  {e : Prog.Event Syscall Syscall.Reply Kernel}

theorem Reclaimable.snoc (h : Reclaimable k₀ past) : Reclaimable k₀ (past ++ [e]) :=
  fun entry hentry => ⟨(h entry hentry).1, (h entry hentry).2.snoc⟩

theorem Fresh.snoc (h : Fresh k₀ a past k i) : Fresh k₀ a (past ++ [e]) k i :=
  ⟨h.fresh, h.names, h.reclaimable.snoc⟩

/-- An error before anything has been created has changed nothing that it denies. -/
theorem known_error {error : BindError} (huntouched : error.leftAlone = true → k₀.Untouched k)
    (hentry : k.entry = k₀.entry ∨ Reclaimable k₀ past) (hcreated : ∀ i, ¬Past.Created past i)
    (hupto : Past.Upto 2 past) : Known k₀ a p config (.returned (.error error)) past k :=
  ⟨huntouched, hentry, fun i hi _ => absurd hi (hcreated i), hupto.not_modeSet,
    (hupto.mono (by omega)).not_grouped⟩

/-- **Step lemma.** What is known at a control point, the call and its reply there give what
is known at the next one. -/
theorem Known.step (h : Known k₀ a p config pc past k) (hsame : k₀.SameSurroundings k)
    (hnext : pc.next config = .call c succ) {reply : c.Reply} {k' : Kernel}
    (hexec : k.exec a p fault c = (reply, k')) :
    Known k₀ a p config (succ reply) (past ++ [⟨k, c, reply⟩]) k' := by
  cases pc with
  | exists_ =>
    cases hnext
    obtain ⟨hk, hupto⟩ := h
    obtain rfl : k = k' := by cases fault <;> exact congrArg Prod.snd hexec
    have hquiet : Past.Upto 1 (past ++ [⟨k, .exists_, reply⟩]) := hupto.snoc Nat.one_pos
    cases reply with
    | false => exact ⟨hk.nextIno, hquiet, .inl hk.entry⟩
    | true => exact ⟨hk, hquiet⟩
  | symlinkMetadata =>
    cases hnext
    obtain ⟨hk, hupto⟩ := h
    obtain rfl : k = k' := by cases fault <;> exact congrArg Prod.snd hexec
    have hquiet : Past.Upto 1 (past ++ [⟨k, .symlinkMetadata, reply⟩]) := hupto.snoc Nat.one_pos
    rcases reply with error | metadata
    · exact known_error (fun _ => hk) (.inl hk.entry) (fun _ => hquiet.not_created)
        (hquiet.mono (by omega))
    · by_cases hsocket : metadata.isSocket = true
      · simp only [if_pos hsocket]
        obtain ⟨i, hi⟩ := k.socket_of_metadata hexec hsocket
        exact ⟨hk, hquiet, i, hk.entry.symm.trans hi⟩
      · simp only [if_neg hsocket]
        exact known_error (fun _ => hk) (.inl hk.entry) (fun _ => hquiet.not_created)
          (hquiet.mono (by omega))
  | connect =>
    cases hnext
    obtain ⟨hk, hupto, i, hi⟩ := h
    have hk' : k₀.Untouched k' := by
      refine hk.trans ?_
      have hconnect := k.untouched_exec_connect a p fault
      rwa [hexec] at hconnect
    have hquiet : Past.Upto 1 (past ++ [⟨k, .connect, reply⟩]) := hupto.snoc Nat.one_pos
    have hleft {error : BindError} : Known k₀ a p config (.returned (.error error))
        (past ++ [⟨k, .connect, reply⟩]) k' :=
      known_error (fun _ => hk') (.inl hk'.entry) (fun _ => hquiet.not_created)
        (hquiet.mono (by omega))
    rcases reply with error | _
    · by_cases hrefused : error.kind = .connectionRefused
      · simp only [if_pos hrefused]
        refine ⟨hk', hquiet, fun e he => ?_⟩
        obtain rfl := Option.some.inj (hi.symm.trans he)
        exact ⟨⟨i, rfl⟩, k, error, List.mem_append_right _ List.mem_cons_self, hrefused⟩
      · by_cases hgone : error.kind = .notFound
        · simp only [if_neg hrefused, if_pos hgone]
          exact ⟨hk'.nextIno, hquiet, .inl hk'.entry⟩
        · simp only [if_neg hrefused, if_neg hgone]
          exact hleft
    · exact hleft
  | removeStale =>
    cases hnext
    obtain ⟨hk, hupto, hreclaim⟩ := h
    have hquiet : Past.Upto 1 (past ++ [⟨k, .removeFile, reply⟩]) := hupto.snoc Nat.one_pos
    rcases k.exec_removeFile_cases a p fault with ⟨error, hremove⟩ | hremove
    · cases hexec.symm.trans hremove
      exact known_error (fun _ => hk) (.inl hk.entry) (fun _ => hquiet.not_created)
        (hquiet.mono (by omega))
    · cases hexec.symm.trans hremove
      exact ⟨hk.nextIno, hquiet, .inr ⟨rfl, hreclaim.snoc⟩⟩
  | bindListener =>
    cases hnext
    obtain ⟨hmade, hupto, hentry⟩ := h
    have hquiet : Past.Upto 2 (past ++ [⟨k, .bindListener, reply⟩]) :=
      (hupto.mono (by omega)).snoc (Nat.lt_succ_self 1)
    rcases k.exec_bindListener_cases a p fault with
      ⟨error, hbind⟩ | ⟨hfree, k₁, hbind, hnames, hacc⟩
    · cases hexec.symm.trans hbind
      refine known_error nofun (hentry.imp_right fun h => h.2.snoc) (fun i => ?_) hquiet
      rintro ⟨before, hmem⟩
      exact hupto.not_created ⟨before, Past.mem_of_mem_snoc hmem nofun⟩
    · cases hexec.symm.trans hbind
      refine ⟨⟨Nat.le_of_eq hmade.symm, hnames, ?_⟩, hquiet, ?_⟩
      · rcases hentry with hsame | ⟨-, hreclaim⟩
        · intro e he
          rw [← hsame, hfree] at he
          cases he
        · exact hreclaim.snoc
      · rw [hacc, hsame.directoryGroup]
  | setPermissions i =>
    cases hnext
    obtain ⟨hfresh, hupto, hcreated⟩ := h
    have hquiet : Past.Upto 3 (past ++ [⟨k, .setPermissions config.socketMode, reply⟩]) :=
      (hupto.mono (by omega)).snoc (Nat.lt_succ_self 2)
    rcases hfresh.names.exec_setPermissions_cases a p fault config.socketMode with
      ⟨error, hset⟩ | ⟨k₁, hset, hnames, hacc⟩
    · cases hexec.symm.trans hset
      have hmode := Past.not_modeSet_snoc hupto.not_modeSet
        (e := ⟨k, .setPermissions config.socketMode, .error error⟩) fun _ _ => nofun
      exact ⟨hfresh.reclaimable.snoc, hquiet, hmode, past, k, config.socketMode, rfl⟩
    · cases hexec.symm.trans hset
      have hmode : Past.ModeSet (past ++ [⟨k, .setPermissions config.socketMode, .ok ()⟩]) :=
        ⟨k, _, List.mem_append_right _ List.mem_cons_self⟩
      have hfresh' : Fresh k₀ a (past ++ [⟨k, .setPermissions config.socketMode, .ok ()⟩]) k' i :=
        ⟨hfresh.fresh, hnames, hfresh.reclaimable.snoc⟩
      have hmoded : (k'.inode i).access = modedAccess k₀.directoryGroup p config := by
        rw [hacc, hcreated]
        rfl
      cases hconfig : config.socketGroup with
      | none =>
        refine ⟨rfl, hfresh', hmode, fun group hsome => ?_, fun gid hgiven => ?_, fun _ => hmoded⟩
        · rw [hconfig] at hsome
          cases hsome
        · obtain ⟨⟨group, -, hsome, -⟩, -⟩ := hgiven
          rw [hconfig] at hsome
          cases hsome
      | some group => exact ⟨hfresh', hquiet, hmode, hmoded, hconfig⟩
  | cleanUp i error =>
    cases hnext
    obtain ⟨hreclaim, hupto, hmode, earlier, before, mode, rfl⟩ := h
    have hquiet : Past.Upto 3 (earlier ++ [⟨before, .setPermissions mode, .error error⟩] ++
        [⟨k, .removeFile, reply⟩]) := hupto.snoc (by decide : 0 < 3)
    have hmode' : ¬Past.ModeSet (earlier ++ [⟨before, .setPermissions mode, .error error⟩] ++
        [⟨k, .removeFile, reply⟩]) := Past.not_modeSet_snoc hmode fun _ _ => nofun
    refine ⟨hreclaim.snoc, hquiet, hmode', ?_⟩
    rcases k.exec_removeFile_cases a p fault with ⟨error', hremove⟩ | hremove
    · cases hexec.symm.trans hremove
      exact .inr ⟨earlier, before, mode, error, k, error', [], by simp⟩
    · cases hexec.symm.trans hremove
      exact .inl rfl
  | closeListener i error =>
    cases hnext
    obtain ⟨hreclaim, hupto, hmode, hclean⟩ := h
    have hquiet : Past.Upto 3 (past ++ [⟨k, .close i, reply⟩]) := hupto.snoc (by decide : 0 < 3)
    have hentry : k'.entry = k.entry := by cases fault <;> cases hexec <;> rfl
    have hmode' : ¬Past.ModeSet (past ++ [⟨k, .close i, reply⟩]) :=
      Past.not_modeSet_snoc hmode fun _ _ => nofun
    refine ⟨nofun, .inr hreclaim.snoc, fun j _ hj => ?_, hmode', hquiet.not_grouped⟩
    rcases hclean with hfree | hfailed
    · rw [hentry, hfree] at hj
      cases hj
    · exact hfailed.snoc
  | groupFromName i group =>
    cases hnext
    obtain ⟨hfresh, hupto, hmode, hmoded, hconfig⟩ := h
    obtain rfl : k = k' := by cases fault <;> exact congrArg Prod.snd hexec
    have hlast : ⟨k, .groupFromName group, reply⟩ ∈
        past ++ [(⟨k, .groupFromName group, reply⟩ : Prog.Event Syscall Syscall.Reply Kernel)] :=
      List.mem_append_right _ List.mem_cons_self
    have hquiet : Past.Upto 4 (past ++ [⟨k, .groupFromName group, reply⟩]) :=
      (hupto.mono (by omega)).snoc (Nat.lt_succ_self 3)
    have hgiven (gid : UInt32) :
        ¬Past.Given config (past ++ [⟨k, .groupFromName group, reply⟩]) gid := hquiet.not_given
    -- There is nothing to give the socket to, unless the lookup finds a group.
    have hasked (hnone : ∀ gid, reply ≠ .ok (some gid)) :
        Past.Asked config (past ++ [⟨k, .groupFromName group, reply⟩]) := by
      intro group' hconfig'
      obtain rfl : group = group' := Option.some.inj (hconfig.symm.trans hconfig')
      exact ⟨k, reply, hlast, fun gid hgid => absurd hgid (hnone gid)⟩
    rcases reply with error | _ | gid
    · exact ⟨hfresh.snoc, hmode.snoc, hmoded, hasked (fun _ hgid => by cases hgid), hgiven⟩
    · exact ⟨hfresh.snoc, hmode.snoc, hmoded, hasked (fun _ hgid => by cases hgid), hgiven⟩
    · exact ⟨hfresh.snoc, hquiet, hmode.snoc, hmoded, hconfig, k, hlast⟩
  | chown i group gid =>
    cases hnext
    obtain ⟨hfresh, hupto, hmode, hmoded, hconfig, before, hresolved⟩ := h
    have hasked : Past.Asked config (past ++ [⟨k, .chown gid, reply⟩]) := by
      intro group' hconfig'
      obtain rfl : group = group' := Option.some.inj (hconfig.symm.trans hconfig')
      refine ⟨before, .ok (some gid), List.mem_append_left _ hresolved, fun gid' hgid => ?_⟩
      obtain rfl : gid = gid' := Option.some.inj (Except.ok.inj hgid)
      exact ⟨k, reply, List.mem_append_right _ List.mem_cons_self⟩
    rcases hfresh.names.exec_chown_cases a p fault gid with
      ⟨error, hchown⟩ | ⟨k₁, hchown, hnames, hacc⟩
    · cases hexec.symm.trans hchown
      refine ⟨hfresh.snoc, hmode.snoc, hmoded, hasked, fun gid' hgiven => ?_⟩
      obtain ⟨-, before', hmem⟩ := hgiven
      exact hupto.not_chown ⟨before', Past.mem_of_mem_snoc hmem nofun⟩
    · cases hexec.symm.trans hchown
      refine ⟨rfl, ⟨hfresh.fresh, hnames, hfresh.reclaimable.snoc⟩, hmode.snoc, hasked, ?_, ?_⟩
      · rintro gid' ⟨-, before', hmem⟩
        rw [hacc, hmoded]
        -- Only the last call is a `chown`.
        rcases List.mem_append.mp hmem with hmem | hmem
        · exact absurd ⟨before', hmem⟩ hupto.not_chown
        · cases List.mem_singleton.mp hmem
          rfl
      · refine fun hnot => absurd ?_ (hnot gid)
        exact ⟨⟨group, before, hconfig, List.mem_append_left _ hresolved⟩, k,
          List.mem_append_right _ List.mem_cons_self⟩
  | eprintln i line =>
    cases hnext
    obtain ⟨hfresh, hmode, hmoded, hasked, hgiven⟩ := h
    have hnot (gid : UInt32) : ¬Past.Given config (past ++ [⟨k, .eprintln line, reply⟩]) gid := by
      rintro ⟨⟨group, before, hconfig, hmem⟩, before', hmem'⟩
      exact hgiven gid ⟨⟨group, before, hconfig, Past.mem_of_mem_snoc hmem nofun⟩, before',
        Past.mem_of_mem_snoc hmem' nofun⟩
    have hinode : k'.entry = k.entry ∧ k'.inode = k.inode := by
      cases fault <;> cases hexec <;> exact ⟨rfl, rfl⟩
    refine ⟨rfl, ⟨hfresh.fresh, ⟨?_, ?_⟩, hfresh.reclaimable.snoc⟩, hmode.snoc, hasked.snoc, ?_, ?_⟩
    · exact hinode.1.trans hfresh.names.entry
    · rw [hinode.2]
      exact hfresh.names.listener
    · exact fun gid h => absurd h (hnot gid)
    · rw [hinode.2]
      exact fun _ => hmoded
  | returned result => cases hnext

/-- Wherever a bind is, an entry that is gone has been a socket that the probe was refused by. -/
theorem Known.reclaimed (h : Known k₀ a p config pc past k) {entry : Entry}
    (hbefore : k₀.entry = some entry) (hgone : k.entry ≠ some entry) :
    (∃ i, entry = .node (.socket i)) ∧ Past.Refused past := by
  have hkept : k.entry ≠ k₀.entry := by
    rw [hbefore]
    exact hgone
  cases pc with
  | exists_ | symlinkMetadata | connect => exact absurd h.1.entry hkept
  | removeStale => exact h.2.2 entry hbefore
  | bindListener =>
    rcases h.2.2 with hsame | ⟨-, hreclaim⟩
    · exact absurd hsame hkept
    · exact hreclaim entry hbefore
  | setPermissions | groupFromName | chown | eprintln => exact h.1.reclaimable entry hbefore
  | cleanUp | closeListener => exact h.1 entry hbefore
  | returned result =>
    rcases result with error | socket
    · rcases h.2.1 with hsame | hreclaim
      · exact absurd hsame hkept
      · exact hreclaim entry hbefore
    · exact h.2.1.reclaimable entry hbefore

end Steps

/-- What is known at every moment of a bind: what belongs to the control point, what no call
changes, and what the lookups have found. -/
structure Standing (k₀ : Kernel) (a : Agent) (p : Process) (config : SocketConfig) (pc : BindPc)
    (past : Past) (k : Kernel) : Prop where
  /-- What is known at the control point. -/
  known : Known k₀ a p config pc past k
  /-- The group database and the group of the directory are what they were. -/
  surroundings : k₀.SameSurroundings k
  /-- The lookups have found what the database has. -/
  answered : Past.Answered k₀.groupGid past

/-- Before the first call nothing has happened. -/
theorem Standing.first (k : Kernel) (a : Agent) (p : Process) (config : SocketConfig) :
    Standing k a p config .exists_ [] k where
  known := ⟨.refl k, fun _ he => by cases he⟩
  surroundings := .refl k
  answered _ _ _ hmem := by cases hmem

theorem Standing.step {k₀ k : Kernel} {a : Agent} {p : Process} {config : SocketConfig}
    {past : Past} {pc : BindPc} {c : Syscall} {succ : c.Reply → BindPc} {fault : Option IoError}
    (h : Standing k₀ a p config pc past k) (hnext : pc.next config = .call c succ) :
    Standing k₀ a p config (succ (k.exec a p fault c).1)
      (past ++ [⟨k, c, (k.exec a p fault c).1⟩]) (k.exec a p fault c).2 := by
  have hsame := h.surroundings
  refine ⟨h.known.step hsame hnext rfl, hsame.trans (k.exec_surroundings a p fault c),
    fun before group found hmem => ?_⟩
  rcases List.mem_append.mp hmem with hmem | hmem
  · exact h.answered before group found hmem
  · obtain ⟨rfl, rfl, hreply⟩ := Prog.Event.mk.inj (List.mem_singleton.mp hmem)
    rw [← hsame.groupGid]
    cases fault with
    | some e => cases hreply
    | none => exact Except.ok.inj (eq_of_heq hreply)

/-- **Run lemma.** What is known holds at every moment of a bind that nobody interferes with,
and at the end at the control point that has returned its result. -/
theorem standing_bindAlone (a : Agent) (p : Process) (faults : ℕ → Option IoError)
    (config : SocketConfig) (k : Kernel) :
    Standing k a p config (.returned (bindAlone a p faults config k).1)
        (bindAlone a p faults config k).2.events (bindAlone a p faults config k).2.state ∧
      ∀ past k', (bindAlone a p faults config k).2.Visits past k' →
        ∃ pc, Standing k a p config pc past k' := by
  have hstep (pc : BindPc) (c : Syscall) (succ : c.Reply → BindPc) (past : Past) (k' : Kernel)
      (hnext : pc.next config = .call c succ) (hstanding : Standing k a p config pc past k') :
      Standing k a p config (succ (Kernel.answer a p faults past.length c k').1)
        (past ++ [⟨k', c, (Kernel.answer a p faults past.length c k').1⟩])
        (Kernel.answer a p faults past.length c k').2 :=
    hstanding.step hnext
  have hbegin : ∀ past k', (⟨k, []⟩ : SysRun).Visits past k' →
      ∃ pc, Standing k a p config pc past k' := by
    rintro past k' (⟨rfl, rfl⟩ | ⟨e, post, hevents, -⟩)
    · exact ⟨.exists_, .first _ a p config⟩
    · simp at hevents
  have hrun := (bind_presents config).observed hstep (.first k a p config) hbegin
  obtain ⟨⟨pc, hreturned, hstanding⟩, hmoments⟩ := hrun
  refine ⟨?_, hmoments⟩
  cases pc with
  | returned result =>
    cases hreturned
    exact hstanding
  | _ => cases hreturned

/-- A bind that nobody interferes with, whatever the path names and whichever of its calls fail,
removes nothing but a socket whose probe was refused, leaves nothing behind when it fails, and on
success leaves its own fresh socket at the path with the group that was asked for; the group
cannot make it fail. -/
theorem bind_leaves (a : Agent) (p : Process) (faults : ℕ → Option IoError)
    (config : SocketConfig) (k : Kernel) :
    BindLeaves k a p config (bindAlone a p faults config k) := by
  obtain ⟨⟨hend, -, hanswered⟩, hmoments⟩ := standing_bindAlone a p faults config k
  generalize bindAlone a p faults config k = out at hend hanswered hmoments
  obtain ⟨result, run⟩ := out
  refine ⟨fun past k' hvisits e he hgone => ?_, ?_, ?_, ?_, ?_, hanswered, ?_, ?_, ?_, ?_⟩
  · obtain ⟨pc, hstanding⟩ := hmoments past k' hvisits
    exact hstanding.known.reclaimed he hgone
  · rintro error rfl hleft
    exact hend.1 hleft
  · rintro error i rfl hcreated hentry
    exact hend.2.2.1 i hcreated hentry
  · rintro socket rfl
    obtain ⟨hconfig, hfresh, -⟩ := hend
    exact ⟨hconfig, hfresh.fresh, hfresh.names⟩
  · rintro ⟨socket, rfl⟩
    obtain ⟨-, -, -, hasked, -⟩ := hend
    exact hasked
  · rintro socket gid rfl hgiven
    obtain ⟨-, -, -, -, haccess, -⟩ := hend
    rw [haccess gid hgiven]
    rfl
  · rintro socket rfl hnot
    obtain ⟨-, -, -, -, -, haccess⟩ := hend
    rw [haccess hnot]
    rfl
  · rcases result with error | socket
    · refine ⟨fun hok => ?_, fun hmode => absurd hmode hend.2.2.2.1⟩
      obtain ⟨socket, hok⟩ := hok
      cases hok
    · exact ⟨fun _ => hend.2.2.1, fun _ => ⟨socket, rfl⟩⟩
  · intro hgrouped
    rcases result with error | socket
    · exact absurd hgrouped hend.2.2.2.2
    · exact ⟨socket, rfl⟩

section Mode

variable {p : Process} {config : SocketConfig} {dir : Option UInt32} {db : String → Option UInt32}

/-- The mode that the `chmod` leaves is the one that was asked for. -/
theorem mode_modedAccess_iff : (modedAccess dir p config).mode = config.socketMode ↔
    config.socketMode ≤ 0o7777 ∧ (config.socketMode &&& 0o2000 = 0 ∨ p.cred.uid = 0 ∨
      p.cred.inGroup (dir.getD p.cred.gid) = true) :=
  Access.mode_chmod_iff _ p.cred config.socketMode

/-- A mode that is kept is the mode in the end, whether a group has been given or not. -/
theorem SocketConfig.KeepsMode.mode (h : config.KeepsMode p dir db) {group : String} {gid : UInt32}
    (hconfig : config.socketGroup = some group) (hgid : db group = some gid) :
    (modedAccess dir p config).mode = config.socketMode ∧
      ((modedAccess dir p config).chgrp gid).mode = config.socketMode := by
  have hmoded : (modedAccess dir p config).mode = config.socketMode :=
    mode_modedAccess_iff.mpr ⟨h.twelve, h.setgid⟩
  have hgiven := h.given group gid hconfig hgid
  rw [← hmoded] at hgiven
  refine ⟨hmoded, Eq.trans ?_ hmoded⟩
  exact (Access.mode_chgrp_iff (hmoded ▸ h.twelve) gid).mpr hgiven

/-- A free path in a directory with the given group, if any, and with the given group database. -/
def freePathIn (dir : Option UInt32) (db : String → Option UInt32) : Kernel :=
  { (World.freePath none).kernel with directoryGroup := dir, groupGid := db }

/-- The operations that give a bound socket to a group, in their order. -/
theorem giveSocketToGroup_eq (config : SocketConfig) (listener : ℕ) (group : String) :
    (do ExceptT.lift (giveSocketToGroup config.socketPath group config.daemon)
        return ⟨listener, config⟩ : ExceptT BindError Sys Socket) =
      (.call (.groupFromName group) fun
        | .ok (some gid) => .call (.chown gid) fun
          | .ok _ => .ret (.ok ⟨listener, config⟩)
          | .error error =>
            .call (.eprintln (couldNotGive config.socketPath group config.daemon error)) fun _ =>
              .ret (.ok ⟨listener, config⟩)
        | .ok none =>
          .call (.eprintln (noSuchGroup config.socketPath group config.daemon)) fun _ =>
            .ret (.ok ⟨listener, config⟩)
        | .error error =>
          .call (.eprintln (couldNotResolve group config.daemon error)) fun _ =>
            .ret (.ok ⟨listener, config⟩) : Sys (Except BindError Socket)) := by
  refine congrArg (Prog.call _) (funext fun reply => ?_)
  rcases reply with error | _ | gid
  · rfl
  · rfl
  · refine congrArg (Prog.call _) (funext fun reply => ?_)
    cases reply <;> rfl

/-- What a bind of a free path, none of whose calls fails, leaves. -/
theorem bindAlone_freePathIn (a : Agent) (p : Process) (config : SocketConfig)
    (dir : Option UInt32) (db : String → Option UInt32) :
    ∃ run, bindAlone a p (fun _ => none) config (freePathIn dir db) = (.ok ⟨0, config⟩, run) ∧
      (run.state.inode 0).access =
        match config.socketGroup.bind db with
        | none => modedAccess dir p config
        | some gid => (modedAccess dir p config).chgrp gid := by
  cases hconfig : config.socketGroup with
  | none =>
    obtain ⟨daemon, path, mode, group, timeout⟩ := config
    cases hconfig
    exact ⟨_, rfl, rfl⟩
  | some group =>
    -- The socket is bound and has its mode when the group is asked for.
    obtain ⟨run, hrun, hdb, hnames, hmoded⟩ : ∃ run : SysRun,
        bindAlone a p (fun _ => none) config (freePathIn dir db) =
          Prog.runWith (observe (Kernel.answer a p fun _ => none))
            (do ExceptT.lift (giveSocketToGroup config.socketPath group config.daemon)
                return ⟨0, config⟩ : ExceptT BindError Sys Socket) run ∧
        run.state.groupGid group = db group ∧ run.state.Names 0 a ∧
        (run.state.inode 0).access = modedAccess dir p config := by
      obtain ⟨daemon, path, mode, _, timeout⟩ := config
      cases hconfig
      exact ⟨_, rfl, rfl, ⟨rfl, rfl⟩, rfl⟩
    rw [hrun, giveSocketToGroup_eq]
    cases hgid : db group with
    | none => simp [Prog.runWith, observe, Kernel.answer, Kernel.exec, Kernel.perform, *]
    | some gid =>
      obtain ⟨k', hchown, -, hgiven⟩ := hnames.setAttributes fun access => access.chgrp gid
      simp [Prog.runWith, observe, Kernel.answer, Kernel.exec, Kernel.perform, *]

/-- **Outcome.** Whatever the path names and whichever of its calls fail, a bind that nobody
interferes with leaves what it has to leave, but for the mode; and it leaves the mode too in every
case, if and only if the mode is one that is kept. -/
theorem bind_outcome_iff (a : Agent) (p : Process) (config : SocketConfig)
    (dir : Option UInt32) (db : String → Option UInt32) :
    (∀ faults k, BindLeaves k a p config (bindAlone a p faults config k)) ∧
      ((∀ faults k, k.directoryGroup = dir → k.groupGid = db →
        BindOutcome k a p config (bindAlone a p faults config k)) ↔ config.KeepsMode p dir db) := by
  refine ⟨fun faults k => bind_leaves a p faults config k, fun h => ?_,
    fun h faults k hdir hdb => ?_⟩
  · -- The bind of a free path shows what is taken away.
    obtain ⟨run, hrun, haccess⟩ := bindAlone_freePathIn a p config dir db
    have hmode := (h (fun _ => none) (freePathIn dir db) rfl rfl).mode ⟨0, config⟩
    rw [hrun] at hmode
    replace hmode : (run.state.inode 0).access.mode = config.socketMode := hmode rfl
    rw [haccess] at hmode
    have hmoded : (modedAccess dir p config).mode = config.socketMode := by
      cases hgid : config.socketGroup.bind db with
      | none =>
        rw [hgid] at hmode
        exact hmode
      | some gid =>
        rw [hgid] at hmode
        exact Access.mode_chmod_of_chgrp hmode
    obtain ⟨htwelve, hsetgid⟩ := mode_modedAccess_iff.mp hmoded
    refine ⟨htwelve, hsetgid, fun group gid hconfig hgid => ?_⟩
    rw [hconfig, Option.bind_some, hgid] at hmode
    rw [← hmoded]
    exact (Access.mode_chgrp_iff (hmoded ▸ htwelve) gid).mp (hmode.trans hmoded.symm)
  · refine ⟨bind_leaves a p faults config k, fun socket hok => ?_⟩
    obtain ⟨⟨hend, -, hanswered⟩, -⟩ := standing_bindAlone a p faults config k
    rw [hok] at hend
    obtain ⟨-, -, -, -, hgiven, hown⟩ := hend
    by_cases hnot : ∀ gid, ¬Past.Given config (bindAlone a p faults config k).2.events gid
    · rw [hown hnot, hdir]
      exact mode_modedAccess_iff.mpr ⟨h.twelve, h.setgid⟩
    · obtain ⟨gid, hgid⟩ := not_forall_not.mp hnot
      rw [hgiven gid hgid, hdir]
      obtain ⟨⟨group, before, hconfig, hresolved⟩, -⟩ := hgid
      have hfound := hanswered before group (some gid) hresolved
      exact (h.mode hconfig (hdb ▸ hfound.symm)).2

end Mode

/-- A daemon that asks for a group. -/
def staffConfig : SocketConfig :=
  (SocketConfig.new "exampled" "/run/example").withSocketGroup "staff"

/-- A socket of mode `0o660` is given to the group that was asked for. -/
theorem bind_outcome_iff_staff :
    ∃ socket run, bindAlone 0 World.rootProcess (fun _ => none) staffConfig
        (World.freePath (some 50)).kernel = (.ok socket, run) ∧
      BindOutcome (World.freePath (some 50)).kernel 0 World.rootProcess staffConfig
        (.ok socket, run) ∧
      (∃ before, ⟨before, .chown 50, .ok ()⟩ ∈ run.events) ∧
      (run.state.inode socket.listener).access = ⟨0o660, 0, 50⟩ := by
  have hkeeps : staffConfig.KeepsMode World.rootProcess none fun _ => some 50 :=
    ⟨by decide, by decide, fun _ _ _ _ => by decide⟩
  obtain ⟨-, hiff⟩ :=
    bind_outcome_iff 0 World.rootProcess staffConfig none fun _ => some 50
  have hout := hiff.mpr hkeeps (fun _ => none) (World.freePath (some 50)).kernel rfl rfl
  obtain ⟨socket, run, hrun, hchown, haccess⟩ : ∃ socket run,
      bindAlone 0 World.rootProcess (fun _ => none) staffConfig (World.freePath (some 50)).kernel =
        (.ok socket, run) ∧
      (∃ before, ⟨before, .chown 50, .ok ()⟩ ∈ run.events) ∧
      (run.state.inode socket.listener).access = ⟨0o660, 0, 50⟩ :=
    ⟨_, _, rfl, ⟨_, .tail _ (.tail _ (.tail _ (.tail _ (.head _))))⟩, by decide⟩
  rw [hrun] at hout
  exact ⟨socket, run, hrun, hout, hchown, haccess⟩

/-- A set-user-ID bit is set and then lost, when the socket is given to the group. -/
theorem setuid_lost :
    let config : SocketConfig := staffConfig.withSocketMode 0o4770
    ∃ socket run, bindAlone 0 World.rootProcess (fun _ => none) config
        (World.freePath (some 50)).kernel = (.ok socket, run) ∧
      (run.state.inode socket.listener).access = ⟨0o770, 0, 50⟩ ∧
      ¬BindOutcome (World.freePath (some 50)).kernel 0 World.rootProcess config
        (.ok socket, run) := by
  intro config
  obtain ⟨socket, run, hrun, haccess⟩ : ∃ socket run,
      bindAlone 0 World.rootProcess (fun _ => none) config (World.freePath (some 50)).kernel =
        (.ok socket, run) ∧
      (run.state.inode socket.listener).access = ⟨0o770, 0, 50⟩ := ⟨_, _, rfl, by decide⟩
  refine ⟨socket, run, hrun, haccess, fun h => ?_⟩
  have hmode := h.mode socket rfl
  rw [haccess] at hmode
  revert hmode
  decide

end UdsPolicy
