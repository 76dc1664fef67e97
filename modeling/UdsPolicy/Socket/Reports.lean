import UdsPolicy.Socket.Outcome

/-!
# What the journal says about the socket's group

A daemon asks for a group so that the members of the group can connect. Whether
they can is not to be seen from the result of `Socket::bind`, which is a success
all the same; it is to be seen from the journal. A bind that nobody interferes
with writes nothing, or one line with what has gone wrong, and the members of the
group can connect exactly if it has written nothing.
-/

namespace UdsPolicy

open Prog (Presents)

/-- What a line about a group has to do with the calls so far. -/
inductive GroupTrouble (config : SocketConfig) (group : String) (past : Past) : String → Prop
  /-- The group has resolved, and the `chown` to it has failed. -/
  | notGiven (before : Kernel) (gid : UInt32) (error : IoError) :
      ⟨before, .chown gid, .error error⟩ ∈ past →
      GroupTrouble config group past (couldNotGive config.socketPath group config.daemon error)
  /-- There is no such group. -/
  | absent (before : Kernel) :
      ⟨before, .groupFromName group, .ok none⟩ ∈ past →
      GroupTrouble config group past (noSuchGroup config.socketPath group config.daemon)
  /-- The lookup has failed. -/
  | unresolved (before : Kernel) (error : IoError) :
      ⟨before, .groupFromName group, .error error⟩ ∈ past →
      GroupTrouble config group past (couldNotResolve group config.daemon error)

/-- What the journal says about a socket that has been bound, and the attributes that decide who
may connect to it. -/
inductive GroupReport (k : Kernel) (p : Process) (config : SocketConfig) (past : Past) :
    List String → Access → Prop
  /-- No group has been asked for. -/
  | unasked : config.socketGroup = none →
      GroupReport k p config past [] (modedAccess k.directoryGroup p config)
  /-- The socket has been given to the group, of which nothing is said. -/
  | given (group : String) (gid : UInt32) :
      config.socketGroup = some group → k.groupGid group = some gid →
      GroupReport k p config past [] ((modedAccess k.directoryGroup p config).chgrp gid)
  /-- The socket keeps its own group, of which one line is written. -/
  | kept (group line : String) :
      config.socketGroup = some group → GroupTrouble config group past line →
      GroupReport k p config past [line] (modedAccess k.directoryGroup p config)

/-- The members of the group are let in by its bit of the mode, and by nothing else. -/
structure SocketConfig.ByGroup (config : SocketConfig) : Prop where
  /-- The group's write bit, `0o020`. -/
  group : config.socketMode.toNat.testBit 4 = true
  /-- The write bit of everybody else, `0o002`. -/
  other : config.socketMode.toNat.testBit 1 = false

/-- A client that belongs to the group `gid`, and whom the socket as it is created does not let in:
in a directory with the given group, if any, it has that group, and otherwise the daemon's. -/
structure Process.FrontEnd (p : Process) (directoryGroup : Option UInt32) (gid : UInt32)
    (c : Cred) : Prop where
  /-- It belongs to the group. -/
  member : c.inGroup gid = true
  /-- It is not the superuser. -/
  notRoot : c.uid ≠ 0
  /-- It is not the daemon's user. -/
  notOwner : c.uid ≠ p.cred.uid
  /-- It does not belong to the group that the socket is created with. -/
  notOwnGroup : c.inGroup (directoryGroup.getD p.cred.gid) = false

namespace Past

/-- The line that a call writes. -/
def lineOf : Syscall → Option String
  | .eprintln line => some line
  | _ => none

/-- The lines that have been written to standard error. -/
def written (past : Past) : List String := past.filterMap fun e => lineOf e.call

variable {past : Past} {k : Kernel} {c : Syscall} {reply : c.Reply}

theorem written_snoc : written (past ++ [⟨k, c, reply⟩]) = written past ++ (lineOf c).toList := by
  unfold written
  rw [List.filterMap_append]
  cases h : lineOf c <;> simp [h]

/-- A call that is no line leaves the journal as it was. -/
theorem written_snoc_quiet (hpast : written past = []) (hc : lineOf c = none) :
    written (past ++ [⟨k, c, reply⟩]) = [] := by
  rw [written_snoc, hpast, hc]
  rfl

end Past

/-- What has been said at each control point of a bind, beside what is known there: nothing
before the group has failed, and then the one line. -/
def Said (k₀ : Kernel) (p : Process) (config : SocketConfig) : BindPc → Past → Kernel → Prop
  | .chown _ group gid, past, _ => past.written = [] ∧ k₀.groupGid group = some gid
  | .eprintln _ line, past, _ =>
    past.written = [] ∧ ∃ group, config.socketGroup = some group ∧
      GroupTrouble config group past line
  | .returned (.ok socket), past, k =>
    GroupReport k₀ p config past past.written (k.inode socket.listener).access
  | _, past, _ => past.written = []

section Steps

variable {k₀ k : Kernel} {a : Agent} {p : Process} {config : SocketConfig} {past : Past}
  {pc : BindPc} {c : Syscall} {succ : c.Reply → BindPc} {fault : Option IoError}
  {group line : String} {e : Prog.Event Syscall Syscall.Reply Kernel}

theorem GroupTrouble.snoc (h : GroupTrouble config group past line) :
    GroupTrouble config group (past ++ [e]) line := by
  cases h with
  | notGiven before gid error hmem => exact .notGiven before gid error (List.mem_append_left _ hmem)
  | absent before hmem => exact .absent before (List.mem_append_left _ hmem)
  | unresolved before error hmem => exact .unresolved before error (List.mem_append_left _ hmem)

/-- **Step lemma.** What has been said at a control point, the call and its reply there give what
has been said at the next one. -/
theorem Said.step (h : Said k₀ p config pc past k) (hstanding : Standing k₀ a p config pc past k)
    (hnext : pc.next config = .call c succ) {reply : c.Reply} {k' : Kernel}
    (hexec : k.exec a p fault c = (reply, k')) :
    Said k₀ p config (succ reply) (past ++ [⟨k, c, reply⟩]) k' := by
  obtain ⟨hknown, hsame, -⟩ := hstanding
  cases pc with
  | exists_ =>
    cases hnext
    have hquiet : Past.written (past ++ [⟨k, .exists_, reply⟩]) = [] :=
      Past.written_snoc_quiet h rfl
    cases reply with
    | false => exact hquiet
    | true => exact hquiet
  | symlinkMetadata =>
    cases hnext
    have hquiet : Past.written (past ++ [⟨k, .symlinkMetadata, reply⟩]) = [] :=
      Past.written_snoc_quiet h rfl
    rcases reply with error | metadata
    · exact hquiet
    · by_cases hsocket : metadata.isSocket = true
      · simp only [if_pos hsocket]
        exact hquiet
      · simp only [if_neg hsocket]
        exact hquiet
  | connect =>
    cases hnext
    have hquiet : Past.written (past ++ [⟨k, .connect, reply⟩]) = [] :=
      Past.written_snoc_quiet h rfl
    rcases reply with error | _
    · by_cases hrefused : error.kind = .connectionRefused
      · simp only [if_pos hrefused]
        exact hquiet
      · by_cases hgone : error.kind = .notFound
        · simp only [if_neg hrefused, if_pos hgone]
          exact hquiet
        · simp only [if_neg hrefused, if_neg hgone]
          exact hquiet
    · exact hquiet
  | removeStale =>
    cases hnext
    have hquiet : Past.written (past ++ [⟨k, .removeFile, reply⟩]) = [] :=
      Past.written_snoc_quiet h rfl
    cases reply with
    | error error => exact hquiet
    | ok _ => exact hquiet
  | bindListener =>
    cases hnext
    have hquiet : Past.written (past ++ [⟨k, .bindListener, reply⟩]) = [] :=
      Past.written_snoc_quiet h rfl
    cases reply with
    | error error => exact hquiet
    | ok _ => exact hquiet
  | setPermissions i =>
    cases hnext
    obtain ⟨hfresh, -, hcreated⟩ := hknown
    have hquiet : Past.written (past ++ [⟨k, .setPermissions config.socketMode, reply⟩]) = [] :=
      Past.written_snoc_quiet h rfl
    rcases hfresh.names.exec_setPermissions_cases a p fault config.socketMode with
      ⟨error, hset⟩ | ⟨k₁, hset, -, hacc⟩
    · cases hexec.symm.trans hset
      exact hquiet
    · cases hexec.symm.trans hset
      cases hconfig : config.socketGroup with
      | some group => exact hquiet
      | none =>
        show GroupReport k₀ p config _ _ (k'.inode i).access
        rw [hquiet, hacc, hcreated]
        exact .unasked hconfig
  | cleanUp i error =>
    cases hnext
    exact Past.written_snoc_quiet h rfl
  | closeListener i error =>
    cases hnext
    exact Past.written_snoc_quiet h rfl
  | groupFromName i group =>
    cases hnext
    obtain ⟨-, -, -, -, hconfig⟩ := hknown
    have hquiet : Past.written (past ++ [⟨k, .groupFromName group, reply⟩]) = [] :=
      Past.written_snoc_quiet h rfl
    have hlast : ⟨k, .groupFromName group, reply⟩ ∈
        past ++ [(⟨k, .groupFromName group, reply⟩ : Prog.Event Syscall Syscall.Reply Kernel)] :=
      List.mem_append_right _ List.mem_cons_self
    rcases reply with error | _ | gid
    · exact ⟨hquiet, group, hconfig, .unresolved k error hlast⟩
    · exact ⟨hquiet, group, hconfig, .absent k hlast⟩
    · refine ⟨hquiet, ?_⟩
      cases fault with
      | some e => cases hexec
      | none =>
        rw [← hsame.groupGid]
        exact Except.ok.inj (congrArg Prod.fst hexec)
  | chown i group gid =>
    cases hnext
    obtain ⟨hsaid, hresolved⟩ := h
    obtain ⟨hfresh, -, -, hmoded, hconfig, -⟩ := hknown
    have hquiet : Past.written (past ++ [⟨k, .chown gid, reply⟩]) = [] :=
      Past.written_snoc_quiet hsaid rfl
    rcases hfresh.names.exec_chown_cases a p fault gid with
      ⟨error, hchown⟩ | ⟨k₁, hchown, -, hacc⟩
    · cases hexec.symm.trans hchown
      refine ⟨hquiet, group, hconfig, .notGiven k gid error ?_⟩
      exact List.mem_append_right _ List.mem_cons_self
    · cases hexec.symm.trans hchown
      show GroupReport k₀ p config _ _ (k'.inode i).access
      rw [hquiet, hacc, hmoded]
      exact .given group gid hconfig hresolved
  | eprintln i line =>
    cases hnext
    obtain ⟨hsaid, group, hconfig, htrouble⟩ := h
    obtain ⟨-, -, hmoded, -⟩ := hknown
    have hwritten : Past.written (past ++ [⟨k, .eprintln line, reply⟩]) = [line] := by
      rw [Past.written_snoc, hsaid]
      rfl
    have hinodes : k'.inode = k.inode := by cases fault <;> cases hexec <;> rfl
    show GroupReport k₀ p config _ _ (k'.inode i).access
    rw [hwritten, hinodes, hmoded]
    exact .kept group line hconfig htrouble.snoc
  | returned result => cases hnext

end Steps

section Silence

variable {k : Kernel} {p : Process} {config : SocketConfig} {past : Past} {lines : List String}
  {access : Access} {group : String} {gid : UInt32} {c : Cred}

/-- **Run lemma.** What has been said holds at the end of a bind that nobody interferes with. -/
theorem said_bindAlone (a : Agent) (p : Process) (faults : ℕ → Option IoError)
    (config : SocketConfig) (k : Kernel) :
    Said k p config (.returned (bindAlone a p faults config k).1)
      (bindAlone a p faults config k).2.events (bindAlone a p faults config k).2.state := by
  have hstep (pc : BindPc) (c : Syscall) (succ : c.Reply → BindPc) (past : Past) (k' : Kernel)
      (hnext : pc.next config = .call c succ)
      (h : Standing k a p config pc past k' ∧ Said k p config pc past k') :
      Standing k a p config (succ (Kernel.answer a p faults past.length c k').1)
          (past ++ [⟨k', c, (Kernel.answer a p faults past.length c k').1⟩])
          (Kernel.answer a p faults past.length c k').2 ∧
        Said k p config (succ (Kernel.answer a p faults past.length c k').1)
          (past ++ [⟨k', c, (Kernel.answer a p faults past.length c k').1⟩])
          (Kernel.answer a p faults past.length c k').2 :=
    ⟨h.1.step hnext, h.2.step h.1 hnext rfl⟩
  have hfirst := Standing.first k a p config
  have hbegin : ∀ past k', (⟨k, []⟩ : SysRun).Visits past k' →
      ∃ pc, Standing k a p config pc past k' ∧ Said k p config pc past k' := by
    rintro past k' (⟨rfl, rfl⟩ | ⟨e, post, hevents, -⟩)
    · exact ⟨.exists_, hfirst, rfl⟩
    · simp at hevents
  obtain ⟨⟨pc, hreturned, -, hsaid⟩, -⟩ :=
    (bind_presents config).observed hstep (o := ⟨k, []⟩) ⟨hfirst, rfl⟩ hbegin
  cases pc with
  | returned result =>
    cases hreturned
    exact hsaid
  | _ => cases hreturned

/-- A front end is not let in before the socket has been given to its group, and is let in
afterwards. -/
theorem Process.FrontEnd.mayWrite {dir : Option UInt32} (hc : p.FrontEnd dir gid c)
    (hmode : config.ByGroup) :
    (modedAccess dir p config).mayWrite c = false ∧
      ((modedAccess dir p config).chgrp gid).mayWrite c = true := by
  obtain ⟨-, hgroup, hother⟩ :=
    Access.write_chmod (Kernel.createdAccess dir p) p.cred config.socketMode
  obtain ⟨-, hgroup', -⟩ := Access.write_chgrp (modedAccess dir p config) gid
  constructor
  · rw [Access.mayWrite_class hc.notRoot hc.notOwner]
    have hnot : c.inGroup (modedAccess dir p config).group = false := hc.notOwnGroup
    rw [hnot]
    exact hother.trans hmode.other
  · rw [Access.mayWrite_class hc.notRoot hc.notOwner]
    have hin : c.inGroup ((modedAccess dir p config).chgrp gid).group = true := hc.member
    rw [hin]
    exact (hgroup'.trans hgroup).trans hmode.group

/-- The front ends of a group can connect exactly if nothing has been said. -/
theorem GroupReport.mayWrite_iff (h : GroupReport k p config past lines access)
    (hgroup : config.socketGroup = some group) (hgid : k.groupGid group = some gid)
    (hc : p.FrontEnd k.directoryGroup gid c) (hmode : config.ByGroup) :
    access.mayWrite c = true ↔ lines = [] := by
  cases h with
  | unasked hnone =>
    rw [hgroup] at hnone
    cases hnone
  | given group' gid' hgroup' hgid' =>
    obtain rfl : group = group' := Option.some.inj (hgroup.symm.trans hgroup')
    obtain rfl : gid = gid' := Option.some.inj (hgid.symm.trans hgid')
    exact iff_of_true (hc.mayWrite hmode).2 rfl
  | kept group' line hgroup' htrouble =>
    rw [(hc.mayWrite hmode).1]
    exact iff_of_false nofun (List.cons_ne_nil _ _)

/-- A client's connection is taken into the queue exactly if the client may write to the socket. -/
theorem Kernel.Names.clientConnects_iff {i : ℕ} {a : Agent} (h : k.Names i a) :
    ((k.clientConnects c).inode i).backlog = (k.inode i).backlog ++ [⟨k.connections, c⟩] ↔
      (k.inode i).access.mayWrite c = true := by
  have htarget : k.target = some (.socket i) := by simp only [Kernel.target, h.entry]; rfl
  simp only [Kernel.clientConnects, htarget]
  split
  · rename_i hmay
    simp [Kernel.connect, htarget, h.listener, Kernel.enqueue, Kernel.modifyInode, hmay]
  · rename_i hmay
    simp [hmay]

/-- **Silence.** A bind that nobody interferes with, whatever the path names and whichever of its
calls fail: if it fails, it has written nothing. If it succeeds, it has written nothing or one
line, which says what has kept the group from the socket; and of the front ends that the group
was asked for, every one can connect if nothing has been written, and none otherwise. -/
theorem silence_means_reachable {a : Agent} {faults : ℕ → Option IoError}
    {result : Except BindError Socket} {run : SysRun}
    (hrun : bindAlone a p faults config k = (result, run)) :
    (∀ error, result = .error error → Past.written run.events = []) ∧
    ∀ socket, result = .ok socket →
      GroupReport k p config run.events (Past.written run.events)
          (run.state.inode socket.listener).access ∧
        ∀ group gid c, config.socketGroup = some group → k.groupGid group = some gid →
          config.ByGroup → p.FrontEnd k.directoryGroup gid c →
          (((run.state.clientConnects c).inode socket.listener).backlog =
            (run.state.inode socket.listener).backlog ++ [⟨run.state.connections, c⟩] ↔
              Past.written run.events = []) := by
  have hsaid := said_bindAlone a p faults config k
  have hknown := (standing_bindAlone a p faults config k).1.known
  rw [hrun] at hsaid hknown
  refine ⟨?_, ?_⟩
  · rintro error rfl
    exact hsaid
  · rintro socket rfl
    refine ⟨hsaid, fun group gid c hgroup hgid hmode hc => ?_⟩
    obtain ⟨-, hfresh, -⟩ := hknown
    rw [hfresh.names.clientConnects_iff]
    exact GroupReport.mayWrite_iff hsaid hgroup hgid hc hmode

/-- A member of the group 50. -/
def staffMember : Cred := ⟨7, 1000, 1000, [50]⟩

theorem staffMember_frontEnd : World.rootProcess.FrontEnd none 50 staffMember :=
  ⟨by decide, by decide, by decide, by decide⟩

/-- The bind of a daemon that asks for a group, whose call number `n` fails if `n` is given. -/
def bindStaff (n : Option ℕ) : Except BindError Socket × SysRun :=
  bindAlone 0 World.rootProcess
    (fun i => if n = some i then some ⟨.other 1, "Operation not permitted (os error 1)"⟩ else none)
    staffConfig (World.freePath (some 50)).kernel

/-- A member of the group can connect when the `chown` has succeeded, and cannot when it has
failed, which is the fourth call after `exists`. -/
theorem silence_means_reachable_staff :
    (∃ socket run, bindStaff none = (.ok socket, run) ∧ Past.written run.events = [] ∧
      ((run.state.clientConnects staffMember).inode socket.listener).backlog =
        (run.state.inode socket.listener).backlog ++ [⟨run.state.connections, staffMember⟩]) ∧
    ∃ socket run, bindStaff (some 4) = (.ok socket, run) ∧ Past.written run.events ≠ [] ∧
      ((run.state.clientConnects staffMember).inode socket.listener).backlog ≠
        (run.state.inode socket.listener).backlog ++ [⟨run.state.connections, staffMember⟩] := by
  have hmode : staffConfig.ByGroup := ⟨by decide, by decide⟩
  obtain ⟨socket, run, hrun, hquiet⟩ : ∃ socket run, bindStaff none = (.ok socket, run) ∧
      Past.written run.events = [] := ⟨_, _, rfl, rfl⟩
  obtain ⟨socket', run', hrun', hloud⟩ : ∃ socket run, bindStaff (some 4) = (.ok socket, run) ∧
      Past.written run.events ≠ [] := ⟨_, _, rfl, List.cons_ne_nil _ _⟩
  have hreach := ((silence_means_reachable hrun).2 socket rfl).2 "staff" 50 staffMember rfl rfl
    hmode staffMember_frontEnd
  have hreach' := ((silence_means_reachable hrun').2 socket' rfl).2 "staff" 50 staffMember rfl rfl
    hmode staffMember_frontEnd
  refine ⟨⟨socket, run, hrun, hquiet, hreach.mpr hquiet⟩, socket', run', hrun', hloud, fun h => ?_⟩
  exact hloud (hreach'.mp h)

end Silence

end UdsPolicy
