import UdsPolicy.Socket.Directory

/-!
# Who gets in while the socket is being set up

A socket can be connected to from the moment it is bound, with the mode that the
umask leaves. Its own mode is set next, and its group last. A connection made in
one of the two windows waits in the backlog and is accepted like any other. Every
connection comes from a client that the final mode, owner and group admit
exactly when neither of the earlier settings admits more, or when no connection
is accepted at all because the read deadline is one of nothing.
-/

namespace UdsPolicy

open Runs (EveryStep)

/-- The attributes when bind has returned: the group is the requested one if it has been given,
and otherwise the one that the socket was created with. -/
def finalAccess (p : Process) (c : SocketConfig) (directoryGroup given : Option UInt32) : Access :=
  match c.socketGroup, given with
  | some _, some gid => (modedAccess directoryGroup p c).chgrp gid
  | _, _ => modedAccess directoryGroup p c

/-- The clients that one of the settings before the group's admits. -/
def Early (p : Process) (c : SocketConfig) (directoryGroup : Option UInt32) (x : Cred) : Prop :=
  (Kernel.createdAccess directoryGroup p).mayWrite x = true ∨
    (modedAccess directoryGroup p c).mayWrite x = true

/-- The path names a socket with the given attributes, on which only certain clients wait. -/
structure Stage (k : Kernel) (i : ℕ) (access : Access) (P : Cred → Prop) : Prop where
  /-- The path names the socket. -/
  entry : k.entry = some (.node (.socket i))
  /-- Its attributes. -/
  access_eq : (k.inode i).access = access
  /-- Who waits on it. -/
  backlog : ∀ x ∈ (k.inode i).backlog, P x.peer

namespace Stage

variable {k : Kernel} {i : ℕ} {access : Access} {P Q : Cred → Prop}

theorem target (h : Stage k i access P) : k.target = some (.socket i) := by
  simp only [Kernel.target, h.entry]
  rfl

theorem mono (h : Stage k i access P) (hPQ : ∀ x, P x → Q x) : Stage k i access Q :=
  ⟨h.entry, h.access_eq, fun x hx => hPQ x.peer (h.backlog x hx)⟩

/-- A client joins only those whom the attributes admit. -/
theorem clientConnects (h : Stage k i access P) (hP : ∀ x, access.mayWrite x = true → P x)
    (c : Cred) : Stage (k.clientConnects c) i access P := by
  unfold Kernel.clientConnects Kernel.connect
  simp only [h.target]
  split
  · rename_i hmay
    split
    · refine ⟨h.entry, by simp [Kernel.enqueue, Kernel.modifyInode, h.access_eq], fun x hx => ?_⟩
      simp only [Kernel.enqueue, Kernel.modifyInode, Function.update_self, List.mem_append,
        List.mem_singleton] at hx
      rcases hx with hx | rfl
      · exact h.backlog x hx
      · exact hP c (h.access_eq ▸ hmay)
    · exact h
  · exact h

/-- A change of attributes reaches the socket and leaves the waiting clients. -/
theorem setAttributes (h : Stage k i access P) (f : Access → Access) :
    (k.setAttributes f).1 = .ok () ∧ Stage (k.setAttributes f).2 i (f access) P := by
  simp only [Kernel.setAttributes, h.target]
  refine ⟨trivial, h.entry, by simp [Kernel.modifyInode, h.access_eq], fun x hx => ?_⟩
  exact h.backlog x (by simpa [Kernel.modifyInode] using hx)

/-- Accepting takes a client who waits. -/
theorem accept (h : Stage k i access P) :
    Stage (k.accept i).2 i access P ∧ ∀ x, (k.accept i).1 = .ok x → P x.peer := by
  unfold Kernel.accept
  cases hwait : (k.inode i).backlog with
  | nil => exact ⟨h, nofun⟩
  | cons c rest =>
    refine ⟨⟨h.entry, by simp [Kernel.modifyInode, h.access_eq], fun x hx => ?_⟩, fun x hx => ?_⟩
    · have hx : x ∈ rest := by simpa [Kernel.modifyInode] using hx
      exact h.backlog x (by rw [hwait]; exact List.mem_cons_of_mem _ hx)
    · obtain rfl : c = x := by simpa using hx
      exact h.backlog c (by rw [hwait]; exact List.mem_cons_self)

end Stage

namespace World

variable {w w' : World} {a : Agent} {p : Process} {c : SocketConfig} {dir : Option UInt32}
  {act : Action}

/-- The actions around one agent's bind: its own, and what clients do. -/
def AroundBind (a : Agent) (p : Process) (c : SocketConfig) : Action → Prop
  | .start b p' c' => b = a ∧ p' = p ∧ c' = c
  | .step b _ => b = a
  | .clientConnects _ | .accept _ _ => True
  | .beginDrop _ | .kill _ | .strangerCloses _ | .removeEntry => False

/-- What is known at a control point of the bind about who waits on the socket. -/
def Waiting (p : Process) (c : SocketConfig) (dir : Option UInt32) (k : Kernel) : BindPc → Prop
  | .setPermissions i => Stage k i (Kernel.createdAccess dir p) (Early p c dir)
  | .groupFromName i _ | .chown i _ _ | .eprintln i _ =>
    Stage k i (modedAccess dir p c) (Early p c dir)
  | _ => True

/-- What is known in each state of the agent about who waits on its socket. -/
def Known (p : Process) (c : SocketConfig) (dir : Option UInt32) (k : Kernel) : AgentState → Prop
  | .idle | .refused _ => True
  | .binding p' c' pc => p' = p ∧ c' = c ∧ Waiting p c dir k pc
  | .holding _ socket => socket.config = c ∧ ∃ access : Access,
      Stage k socket.listener access fun x => Early p c dir x ∨ access.mayWrite x = true
  | .dropping .. => False

/-- The invariant of runs around one agent's bind. -/
structure Admitting (a : Agent) (p : Process) (c : SocketConfig) (dir : Option UInt32)
    (w : World) : Prop where
  /-- Nobody else does anything. -/
  others : ∀ b, b ≠ a → w.agents b = .idle
  /-- The directory is what it was. -/
  directory : w.kernel.directoryGroup = dir
  /-- Who waits is known. -/
  known : Known p c dir w.kernel (w.agents a)
  /-- Who has been accepted was waiting, and the deadline is not one of nothing. -/
  accepted : ∀ x ∈ w.accepted, c.requestReadTimeout ≠ some 0 ∧
    ∃ p' socket, w.agents a = .holding p' socket ∧ (Early p c dir x.2.1.peer ∨
      (w.kernel.inode socket.listener).access.mayWrite x.2.1.peer = true)

/-- Before anything has happened nobody waits. -/
theorem Initial.admitting (h : w.Initial) (hdir : w.kernel.directoryGroup = dir) :
    Admitting a p c dir w where
  others b _ := h.idle b
  directory := hdir
  known := by
    rw [h.idle a]
    trivial
  accepted x hx := by
    rw [h.accepted] at hx
    cases hx

/-- **Step lemma.** An operation of the bind keeps account of who waits. -/
theorem known_of_advance {pc : BindPc} {fault : Option IoError} {out : BindPc × Kernel}
    (hdir : w.kernel.directoryGroup = dir) (h : Waiting p c dir w.kernel pc)
    (hadv : advance (BindPc.next c) w.kernel a p fault pc = some out) :
    Known p c dir out.2 (.afterBind p c out.1) := by
  obtain ⟨call, succ, hnext, hfail, rfl⟩ := advance_eq_some.mp hadv
  have hheld {k : Kernel} {i : ℕ} {access : Access} (hstage : Stage k i access (Early p c dir)) :
      Known p c dir k (.afterBind p c (.returned (.ok ⟨i, c⟩))) :=
    ⟨rfl, access, hstage.mono fun _ => .inl⟩
  cases pc with
  | exists_ =>
    cases hnext
    cases (w.kernel.exec a p fault .exists_).1 <;> exact ⟨rfl, rfl, trivial⟩
  | symlinkMetadata =>
    cases hnext
    rcases (w.kernel.exec a p fault .symlinkMetadata).1 with error | metadata
    · trivial
    · cases metadata <;> trivial
  | connect =>
    cases hnext
    rcases (w.kernel.exec a p fault .connect).1 with ⟨kind, text⟩ | _
    · cases kind <;> trivial
    · trivial
  | removeStale =>
    cases hnext
    rcases (w.kernel.exec a p fault .removeFile).1 with error | _
    · trivial
    · exact ⟨rfl, rfl, trivial⟩
  | bindListener =>
    cases hnext
    cases fault with
    | some e => trivial
    | none =>
      simp only [Kernel.exec, Kernel.perform, Kernel.bindListener]
      split
      · trivial
      · exact ⟨rfl, rfl, rfl, by simp [hdir], by simp⟩
  | setPermissions i =>
    cases hnext
    have hstage : Stage w.kernel i (Kernel.createdAccess dir p) (Early p c dir) := h
    cases fault with
    | some e => exact ⟨rfl, rfl, trivial⟩
    | none =>
      obtain ⟨hok, hmoded⟩ := hstage.setAttributes fun s => s.chmod p.cred c.socketMode
      simp only [Kernel.exec, Kernel.perform, hok]
      obtain ⟨daemon, path, mode, _ | group, timeout⟩ := c
      · exact hheld hmoded
      · exact ⟨rfl, rfl, hmoded⟩
  | groupFromName i group =>
    cases hnext
    have hkernel : (w.kernel.exec a p fault (.groupFromName group)).2 = w.kernel := by
      cases fault <;> rfl
    rw [hkernel]
    rcases (w.kernel.exec a p fault (.groupFromName group)).1 with e | _ | gid <;>
      exact ⟨rfl, rfl, h⟩
  | chown i group gid =>
    cases hnext
    have hstage : Stage w.kernel i (modedAccess dir p c) (Early p c dir) := h
    cases fault with
    | some e => exact ⟨rfl, rfl, hstage⟩
    | none =>
      obtain ⟨hok, hgiven⟩ := hstage.setAttributes fun s => s.chgrp gid
      simp only [Kernel.exec, Kernel.perform, hok]
      exact hheld hgiven
  | eprintln i line =>
    cases hnext
    have hstage : Stage w.kernel i (modedAccess dir p c) (Early p c dir) := h
    cases fault with
    | some e => cases hfail
    | none => exact hheld ⟨hstage.entry, hstage.access_eq, hstage.backlog⟩
  | cleanUp i error =>
    cases hnext
    exact ⟨rfl, rfl, trivial⟩
  | closeListener i error =>
    cases hnext
    trivial
  | returned result => cases hnext

/-- A client that connects is one whom the attributes of the moment admit. -/
theorem known_clientConnects {state : AgentState} (h : Known p c dir w.kernel state) (x : Cred) :
    Known p c dir (w.kernel.clientConnects x) state := by
  have hstage {i : ℕ} {access : Access} {P : Cred → Prop} (h : Stage w.kernel i access P)
      (hP : ∀ x, access.mayWrite x = true → P x) :
      Stage (w.kernel.clientConnects x) i access P := h.clientConnects hP x
  cases state with
  | idle | refused => trivial
  | dropping => exact h
  | holding p' socket =>
    obtain ⟨hc, access, hwait⟩ := h
    exact ⟨hc, access, hstage hwait fun _ => .inr⟩
  | binding p' c' pc =>
    obtain ⟨hp, hc, hwait⟩ := h
    refine ⟨hp, hc, ?_⟩
    cases pc with
    | setPermissions i => exact hstage hwait fun _ => .inl
    | groupFromName | chown | eprintln => exact hstage hwait fun _ => .inr
    | _ => trivial

/-- **Step lemma.** The actions around the bind keep account of who waits and who has been
accepted. -/
theorem Admitting.step (h : Admitting a p c dir w) (hact : AroundBind a p c act)
    (hstep : w.step act = some w') : Admitting a p c dir w' := by
  -- Nobody has been accepted while there is no socket.
  have hnone (hag : ∀ p' socket, w.agents a ≠ .holding p' socket) (x) : x ∉ w.accepted := by
    intro hx
    obtain ⟨-, p', socket, hheld, -⟩ := h.accepted x hx
    exact hag p' socket hheld
  cases act with
  | start b p' c' =>
    obtain ⟨rfl, rfl, rfl⟩ := hact
    have hgo (hag : ∀ p' socket, w.agents b ≠ .holding p' socket) :
        Admitting b p' c' dir (w.setAgent b (.binding p' c' .exists_)) := by
      refine ⟨fun d hd => ?_, h.directory, ?_, fun x hx => absurd hx (hnone hag x)⟩
      · simpa [setAgent, hd] using h.others d hd
      · simp only [setAgent, Function.update_self]
        exact ⟨rfl, rfl, trivial⟩
    simp only [World.step] at hstep
    split at hstep
    · rename_i hag
      cases hstep
      exact hgo (by simp [hag])
    · rename_i hag
      cases hstep
      exact hgo (by simp [hag])
    · cases hstep
  | step b fault =>
    obtain rfl : b = a := hact
    have hknown := h.known
    simp only [World.step] at hstep
    split at hstep
    · rename_i p' c' pc hag
      obtain ⟨out, hadv, rfl⟩ := Option.map_eq_some_iff.mp hstep
      rw [hag] at hknown
      obtain ⟨rfl, rfl, hwait⟩ := hknown
      refine ⟨fun d hd => ?_, ?_, ?_, fun x hx => absurd hx (hnone (by simp [hag]) x)⟩
      · simpa [afterBindStep, hd] using h.others d hd
      · obtain ⟨call, succ, -, -, rfl⟩ := advance_eq_some.mp hadv
        exact (w.kernel.exec_surroundings b p' fault call).directoryGroup.trans h.directory
      · simp only [afterBindStep, Function.update_self]
        exact known_of_advance h.directory hwait hadv
    · rename_i hag
      rw [hag] at hknown
      exact hknown.elim
    · cases hstep
  | clientConnects x =>
    cases hstep
    have hsame := w.kernel.clientConnects_surroundings x
    refine ⟨h.others, hsame.directoryGroup.trans h.directory, known_clientConnects h.known x,
      fun y hy => ?_⟩
    obtain ⟨hdeadline, p', socket, hag, hadmitted⟩ := h.accepted y hy
    have hknown := h.known
    rw [hag] at hknown
    obtain ⟨-, access, hwait⟩ := hknown
    have hafter := hwait.clientConnects (fun _ => .inr) x
    refine ⟨hdeadline, p', socket, hag, ?_⟩
    rw [hwait.access_eq] at hadmitted
    show Early p c dir y.2.1.peer ∨
      ((w.kernel.clientConnects x).inode socket.listener).access.mayWrite y.2.1.peer = true
    rw [hafter.access_eq]
    exact hadmitted
  | accept b faults =>
    simp only [World.step] at hstep
    split at hstep
    · rename_i p' socket hag
      cases hstep
      obtain rfl : b = a := by
        by_contra hba
        rw [h.others b hba] at hag
        cases hag
      have hknown := h.known
      rw [hag] at hknown
      obtain ⟨hconfig, access, hwait⟩ := hknown
      -- Who is accepted now was waiting, and nobody else's waiting ends.
      have hexec : ∃ reply k, w.kernel.exec b p' (faults (.accept socket.listener))
            (.accept socket.listener) = (reply, k) ∧
          (Stage k socket.listener access fun x => Early p c dir x ∨ access.mayWrite x = true) ∧
          ∀ x, reply = .ok x → Early p c dir x.peer ∨ access.mayWrite x.peer = true := by
        cases faults (.accept socket.listener) with
        | some e => exact ⟨_, _, rfl, hwait, fun _ hreply => by cases hreply⟩
        | none => exact ⟨_, _, rfl, hwait.accept⟩
      obtain ⟨reply, k, hreply, hstage, hfrom⟩ := hexec
      obtain ⟨returned, haccept, hreturned⟩ := runAccept_eq hreply
      have hsame := w.kernel.exec_surroundings b p' (faults (.accept socket.listener))
        (.accept socket.listener)
      rw [hreply] at hsame
      rw [haccept]
      refine ⟨h.others, hsame.directoryGroup.trans h.directory, ?_, fun x hx => ?_⟩
      · show Known p c dir k (w.agents b)
        rw [hag]
        exact ⟨hconfig, access, hstage⟩
      · rcases List.mem_append.mp hx with hx | hx
        · obtain ⟨hdeadline, _, _, hag', hadmitted⟩ := h.accepted x hx
          cases hag.symm.trans hag'
          refine ⟨hdeadline, p', socket, hag, ?_⟩
          show Early p c dir x.2.1.peer ∨
            (k.inode socket.listener).access.mayWrite x.2.1.peer = true
          rw [hstage.access_eq]
          rw [hwait.access_eq] at hadmitted
          exact hadmitted
        · obtain ⟨-, hok, hdeadline⟩ := hreturned x hx
          refine ⟨hconfig ▸ hdeadline, p', socket, hag, ?_⟩
          show Early p c dir x.2.1.peer ∨
            (k.inode socket.listener).access.mayWrite x.2.1.peer = true
          rw [hstage.access_eq]
          exact hfrom _ hok
    · cases hstep
  | beginDrop | kill | strangerCloses | removeEntry => exact hact.elim

/-- Whoever has been accepted could write to the socket at one of the three settings, and the
deadline is not one of nothing. -/
theorem accepted_of_run {as : List Action} {p' : Process} {socket : Socket} (hinit : w.Initial)
    (hdir : w.kernel.directoryGroup = dir) (hact : ∀ act ∈ as, AroundBind a p c act)
    (hrun : w.run as = some w') (hag : w'.agents a = .holding p' socket) :
    ∀ x ∈ w'.accepted, c.requestReadTimeout ≠ some 0 ∧ (Early p c dir x.2.1.peer ∨
      (w'.kernel.inode socket.listener).access.mayWrite x.2.1.peer = true) := by
  have hpres : ∀ (v : World) act v', Admitting a p c dir v → True ∧ AroundBind a p c act →
      v.step act = some v' → Admitting a p c dir v' :=
    fun _ _ _ hv hact hstep => hv.step hact.2 hstep
  have hsteps : EveryStep World.step (fun _ act _ => True ∧ AroundBind a p c act) w as :=
    (Runs.everyStep_of_forall (fun _ _ _ _ => trivial) w as).and_forall_mem hact
  have hend := Runs.run_invariant hpres (hinit.admitting hdir) hsteps hrun
  intro x hx
  obtain ⟨hdeadline, p'', socket', hag', hadmitted⟩ := hend.accepted x hx
  cases hag.symm.trans hag'
  exact ⟨hdeadline, hadmitted⟩

/-- However clients interleave with the bind in a directory with the given group, if any, once
the bind has returned with the given outcome of the group's change, everybody accepted may write
to the socket. -/
def AdmitsOnlyFinal (p : Process) (c : SocketConfig) (dir given : Option UInt32) : Prop :=
  ∀ (w w' : World) (a : Agent) (as : List Action) (socket : Socket), w.Initial →
    w.kernel.directoryGroup = dir → (∀ act ∈ as, AroundBind a p c act) → w.run as = some w' →
    w'.agents a = .holding p socket →
    (w'.kernel.inode socket.listener).access = finalAccess p c dir given →
    ∀ x ∈ w'.accepted, (finalAccess p c dir given).mayWrite x.2.1.peer = true

/-- A world with a free path in a directory with the given group, if any, and a group database
that knows every group by one id, or none. -/
def freePathIn (dir given : Option UInt32) : World :=
  { freePath given with kernel := { (freePath given).kernel with directoryGroup := dir } }

theorem freePathIn_initial (dir given : Option UInt32) : (freePathIn dir given).Initial :=
  ⟨(freePath_initial given).idle, (freePath_initial given).existing,
    (freePath_initial given).listening, (freePath_initial given).strangers, rfl⟩

/-- The steps of a bind of a free path after the mode has been set. -/
def groupSteps (c : SocketConfig) : List Action :=
  match c.socketGroup with
  | some _ => [.step 0 none, .step 0 none]
  | none => []

/-- A client connects before the mode is set. -/
def beforeMode (p : Process) (c : SocketConfig) (x : Cred) : List Action :=
  [.start 0 p c, .step 0 none, .step 0 none] ++ .clientConnects x ::
    (.step 0 none :: groupSteps c)

/-- A client connects after the mode has been set and before the group is. -/
def beforeGroup (p : Process) (c : SocketConfig) (x : Cred) : List Action :=
  [.start 0 p c, .step 0 none, .step 0 none, .step 0 none] ++ .clientConnects x :: groupSteps c

/-- A client whom the attributes of the moment admit joins the queue. -/
theorem clientConnects_eq {k : Kernel} {i : ℕ} {x : Cred} (htarget : k.target = some (.socket i))
    (hx : (k.inode i).access.mayWrite x = true) : k.clientConnects x = (k.connect x).2 := by
  simp only [Kernel.clientConnects, htarget]
  exact if_pos hx

/-- Unless the deadline is one of nothing, who waits is accepted. -/
theorem accept_waiting {socket : Socket} {conn : Connection} {rest : List Connection}
    (hag : w.agents a = .holding p socket)
    (hwait : (w.kernel.inode socket.listener).backlog = conn :: rest)
    (hdeadline : socket.config.requestReadTimeout ≠ some 0) :
    ∃ w', w.step (.accept a fun _ => none) = some w' ∧ w'.agents = w.agents ∧
      (w'.kernel.inode socket.listener).access = (w.kernel.inode socket.listener).access ∧
      (a, conn, .ofCredentials (.ok conn.peer)) ∈ w'.accepted := by
  obtain ⟨tv, htv⟩ := exists_readTimeVal hdeadline
  simp only [step, hag, runAccept, Socket.accept_eq, Prog.runWith, Kernel.exec, Kernel.perform,
    Kernel.accept, hwait, htv, Except.map]
  exact ⟨_, rfl, rfl, by simp [Kernel.modifyInode], by simp⟩

/-- A client admitted in either window is in the queue when the bind has returned. -/
theorem early_waits {given : Option UInt32} {x : Cred} (hx : Early p c dir x) :
    ∃ as w', (∀ act ∈ as, AroundBind 0 p c act) ∧ (freePathIn dir given).run as = some w' ∧
      w'.agents 0 = .holding p ⟨0, c⟩ ∧
      (w'.kernel.inode 0).access = finalAccess p c dir given ∧
      (w'.kernel.inode 0).backlog = [⟨0, x⟩] := by
  have hstep {w : World} (htarget : w.kernel.target = some (.socket 0))
      (hmay : (w.kernel.inode 0).access.mayWrite x = true) :
      w.step (.clientConnects x) = some { w with kernel := (w.kernel.connect x).2 } := by
    simp only [World.step, clientConnects_eq htarget hmay]
  rcases hx with hx | hx
  · refine ⟨beforeMode p c x, ?_⟩
    obtain ⟨daemon, path, mode, _ | group, timeout⟩ := c
    · exact ⟨_, by simp [beforeMode, groupSteps, AroundBind],
        Runs.run_append.mpr ⟨_, rfl, Runs.run_cons.mpr ⟨_, hstep rfl hx, rfl⟩⟩, rfl, rfl, rfl⟩
    · cases given <;>
        exact ⟨_, by simp [beforeMode, groupSteps, AroundBind],
          Runs.run_append.mpr ⟨_, rfl, Runs.run_cons.mpr ⟨_, hstep rfl hx, rfl⟩⟩, rfl, rfl, rfl⟩
  · refine ⟨beforeGroup p c x, ?_⟩
    obtain ⟨daemon, path, mode, _ | group, timeout⟩ := c
    · exact ⟨_, by simp [beforeGroup, groupSteps, AroundBind],
        Runs.run_append.mpr ⟨_, rfl, Runs.run_cons.mpr ⟨_, hstep rfl hx, rfl⟩⟩, rfl, rfl, rfl⟩
    · cases given <;>
        exact ⟨_, by simp [beforeGroup, groupSteps, AroundBind],
          Runs.run_append.mpr ⟨_, rfl, Runs.run_cons.mpr ⟨_, hstep rfl hx, rfl⟩⟩, rfl, rfl, rfl⟩

/-- A client admitted in either window is accepted after the bind has returned, unless the
deadline is one of nothing. -/
theorem early_accepted {given : Option UInt32} {x : Cred} (hx : Early p c dir x)
    (hdeadline : c.requestReadTimeout ≠ some 0) :
    ∃ as w', (∀ act ∈ as, AroundBind 0 p c act) ∧ (freePathIn dir given).run as = some w' ∧
      w'.agents 0 = .holding p ⟨0, c⟩ ∧
      (w'.kernel.inode 0).access = finalAccess p c dir given ∧
      ∃ y ∈ w'.accepted, y.2.1.peer = x := by
  obtain ⟨as, w', hact, hrun, hag, haccess, hwait⟩ := @early_waits p c dir given x hx
  obtain ⟨w'', hstep, hagents, hkept, hmem⟩ := accept_waiting hag hwait hdeadline
  refine ⟨as ++ [.accept 0 fun _ => none], w'', fun act hmem => ?_,
    Runs.run_append.mpr ⟨w', hrun, Runs.run_cons.mpr ⟨w'', hstep, rfl⟩⟩, hagents ▸ hag,
    hkept.trans haccess, _, hmem, rfl⟩
  rcases List.mem_append.mp hmem with hmem | hmem
  · exact hact act hmem
  · rw [List.mem_singleton.mp hmem]
    trivial

/-- **Admission.** However clients interleave with the bind, everybody accepted may write to
the socket as it finally is, if and only if nobody is accepted, because the read deadline is one
of nothing, or neither the mode that the umask leaves nor the mode without the group admits more
than the final setting. -/
theorem admits_only_final_iff (p : Process) (c : SocketConfig) (dir given : Option UInt32) :
    AdmitsOnlyFinal p c dir given ↔ c.requestReadTimeout = some 0 ∨
      (Kernel.createdAccess dir p).BitsWithin (finalAccess p c dir given) ∧
        (modedAccess dir p c).BitsWithin (finalAccess p c dir given) := by
  have howner : (finalAccess p c dir given).owner = p.cred.uid := by
    unfold finalAccess
    split <;> rfl
  rw [← Access.within_iff_bitsWithin howner.symm, ← Access.within_iff_bitsWithin howner.symm]
  constructor
  · intro h
    refine or_iff_not_imp_left.mpr fun hdeadline => ?_
    have hearly (x : Cred) (hx : Early p c dir x) :
        (finalAccess p c dir given).mayWrite x = true := by
      obtain ⟨as, w', hact, hrun, hag, haccess, y, hy, rfl⟩ :=
        @early_accepted p c dir given x hx hdeadline
      exact h _ _ 0 as ⟨0, c⟩ (freePathIn_initial dir given) rfl hact hrun hag haccess y hy
    exact ⟨fun x hx => hearly x (.inl hx), fun x hx => hearly x (.inr hx)⟩
  · rintro hcond w w' a as socket hinit hdir hact hrun hag haccess x hx
    obtain ⟨hdeadline, hadmitted⟩ := accepted_of_run hinit hdir hact hrun hag x hx
    obtain ⟨hcreated, hmoded⟩ := hcond.resolve_left hdeadline
    rcases hadmitted with (hearly | hearly) | hfinal
    · exact hcreated _ hearly
    · exact hmoded _ hearly
    · rw [← haccess]
      exact hfinal

/-- With an empty umask and the default mode, a stranger who connects before the mode is set is
accepted, although the socket's final mode keeps strangers out. -/
theorem stranger_admitted :
    let stranger : Cred := ⟨7, 1000, 1000, []⟩
    let config : SocketConfig := .new "d" "/s"
    (finalAccess rootProcess config none none).mayWrite stranger = false ∧
      ¬AdmitsOnlyFinal rootProcess config none none := by
  intro stranger config
  have hrefused : (finalAccess rootProcess config none none).mayWrite stranger = false := by decide
  refine ⟨hrefused, fun h => ?_⟩
  have hearly : Early rootProcess config none stranger := .inl (by decide)
  obtain ⟨as, w', hact, hrun, hag, haccess, y, hy, hyx⟩ :=
    @early_accepted _ _ _ none _ hearly (by decide)
  have := h _ _ 0 as ⟨0, config⟩ (freePathIn_initial none none) rfl hact hrun hag haccess y hy
  rw [hyx, hrefused] at this
  cases this

end World

end UdsPolicy
