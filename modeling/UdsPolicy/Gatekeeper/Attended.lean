import UdsPolicy.Gatekeeper.Mediation
import UdsPolicy.Gatekeeper.Startup

/-!
# The daemon and its clients

A run of the daemon whose system calls the kernel answers, while clients try to
connect at any moment. Nobody else touches the path. Then the order of the startup
is an order of what clients can see: whoever has been told that the daemon is ready
can connect to it until it stops.
-/

namespace UdsPolicy

open Prog (Done Issues Laps)

/-- The kernel has answered the system calls of a history, and these clients have tried to
connect meanwhile, in this order. -/
inductive Attended (a : Agent) (p : Process) :
    Kernel → List GateDone → List Cred → Kernel → Prop
  | nil (k : Kernel) : Attended a p k [] [] k
  /-- A client tries to connect. -/
  | client {k k' : Kernel} {past : List GateDone} {arrivals : List Cred} (c : Cred) :
      Attended a p (k.clientConnects c) past arrivals k' → Attended a p k past (c :: arrivals) k'
  /-- The daemon performs a system call, which may fail. -/
  | own {k k' : Kernel} {past : List GateDone} {arrivals : List Cred} (c : Syscall)
      (fault : Option IoError) : fault.all c.mayFail = true →
      Attended a p (k.exec a p fault c).2 past arrivals k' →
      Attended a p k (⟨.sys c, (k.exec a p fault c).1⟩ :: past) arrivals k'
  /-- The daemon does something else. -/
  | other {k k' : Kernel} {past : List GateDone} {arrivals : List Cred} (e : GateDone) :
      (∀ c, e.call ≠ .sys c) → Attended a p k past arrivals k' →
      Attended a p k (e :: past) arrivals k'

namespace Kernel

/-- The path names a socket that the agent listens on, with these attributes. -/
structure Open (k : Kernel) (l : ℕ) (a : Agent) (access : Access) : Prop extends k.Names l a where
  /-- Who may connect. -/
  access : (k.inode l).access = access

variable {k k' : Kernel} {l : ℕ} {a : Agent} {p : Process} {access : Access}

theorem Open.of_untouched (h : k.Open l a access) (hk : k.Untouched k') : k'.Open l a access where
  entry := hk.entry.trans h.entry
  listener := (hk.listener l).trans h.listener
  access := (hk.access l).trans h.access

/-- Whether a client is let in or not, the path is as it was. -/
theorem untouched_clientConnects (k : Kernel) (c : Cred) : k.Untouched (k.clientConnects c) := by
  unfold clientConnects
  split
  · split
    · exact k.untouched_connect c
    · exact .refl k
  · exact .refl k

theorem untouched_accept (k : Kernel) (i : ℕ) : k.Untouched (k.accept i).2 := by
  unfold accept
  split
  · exact .refl k
  · refine ⟨rfl, rfl, fun j => ?_, fun j => ?_⟩ <;>
      by_cases hj : j = i <;> simp [modifyInode, hj]

/-- An operation that leaves the socket alone leaves the path as it was. -/
theorem untouched_exec (k : Kernel) (a : Agent) (p : Process) (fault : Option IoError)
    {c : Syscall} (hc : (GateCall.sys c).keepsSocket = true) :
    k.Untouched (k.exec a p fault c).2 := by
  cases fault with
  | some e => exact .refl k
  | none =>
    cases c with
    | removeFile | bindListener | close | setPermissions | chown => cases hc
    | connect => exact k.untouched_connect p.cred
    | accept i => exact k.untouched_accept i
    | eprintln line => exact ⟨rfl, rfl, fun _ => rfl, fun _ => rfl⟩
    | exists_ | symlinkMetadata | groupFromName | peerCredentials | setReadTimeout =>
      exact .refl k

/-- A client that may write joins the queue, and another one does not. -/
theorem Open.clientConnects_cases (h : k.Open l a access) (c : Cred) :
    access.mayWrite c = true ∧ (k.clientConnects c).connections = k.connections + 1 ∧
        ((k.clientConnects c).inode l).backlog = (k.inode l).backlog ++ [⟨k.connections, c⟩] ∨
      access.mayWrite c = false ∧ k.clientConnects c = k := by
  have htarget : k.target = some (.socket l) := by simp only [target, h.entry]; rfl
  simp only [clientConnects, htarget, h.access]
  split
  · rename_i hmay
    exact .inl ⟨hmay, by simp [connect, htarget, h.listener, enqueue, modifyInode]⟩
  · rename_i hmay
    exact .inr ⟨Bool.eq_false_iff.mpr hmay, rfl⟩

end Kernel

namespace Attended

variable {a : Agent} {p : Process} {k k' k'' : Kernel} {past past' : List GateDone}
  {arrivals : List Cred} {l : ℕ} {mode : UInt32}

/-- The history can be cut anywhere. -/
theorem split (h : Attended a p k (past ++ past') arrivals k'') : ∃ before after k',
    arrivals = before ++ after ∧ Attended a p k past before k' ∧
      Attended a p k' past' after k'' := by
  generalize hall : past ++ past' = all at h
  induction h generalizing past with
  | nil k =>
    obtain ⟨rfl, rfl⟩ := List.append_eq_nil_iff.mp hall
    exact ⟨[], [], k, rfl, .nil k, .nil k⟩
  | @client k _ _ _ c _ ih =>
    obtain ⟨before, after, k', rfl, hpast, hpast'⟩ := ih hall
    exact ⟨c :: before, after, k', rfl, .client c hpast, hpast'⟩
  | @own k _ _ _ c fault hfail hrest ih =>
    cases past with
    | nil =>
      rw [List.nil_append] at hall
      subst hall
      exact ⟨[], _, k, rfl, .nil k, .own c fault hfail hrest⟩
    | cons e past =>
      obtain ⟨rfl, htail⟩ := List.cons.inj hall
      obtain ⟨before, after, k', rfl, hpast, hpast'⟩ := ih htail
      exact ⟨before, after, k', rfl, .own c fault hfail hpast, hpast'⟩
  | @other k _ _ _ e hother hrest ih =>
    cases past with
    | nil =>
      rw [List.nil_append] at hall
      subst hall
      exact ⟨[], _, k, rfl, .nil k, .other e hother hrest⟩
    | cons e past =>
      obtain ⟨rfl, htail⟩ := List.cons.inj hall
      obtain ⟨before, after, k', rfl, hpast, hpast'⟩ := ih htail
      exact ⟨before, after, k', rfl, .other _ hother hpast, hpast'⟩

/-- A history that leaves the socket alone leaves the path as it was. -/
theorem untouched (h : Attended a p k past arrivals k')
    (hpast : ∀ e ∈ past, e.call.keepsSocket = true) : k.Untouched k' := by
  induction h with
  | nil k => exact .refl k
  | client c _ ih => exact (Kernel.untouched_clientConnects _ c).trans (ih hpast)
  | own c fault _ _ ih =>
    obtain ⟨hfirst, hrest⟩ := List.forall_mem_cons.mp hpast
    exact (Kernel.untouched_exec _ a p fault hfirst).trans (ih hrest)
  | other e _ _ ih => exact ih (List.forall_mem_cons.mp hpast).2

/-- The first system call of a history is answered after some clients have tried to connect. -/
theorem first {c : Syscall} {r : c.Reply}
    (h : Attended a p k (⟨.sys c, r⟩ :: past) arrivals k'') : ∃ k' fault after,
      (k.Untouched k' ∧ k.SameSurroundings k') ∧ fault.all c.mayFail = true ∧
      r = (k'.exec a p fault c).1 ∧
      Attended a p (k'.exec a p fault c).2 past after k'' := by
  generalize hall : (⟨.sys c, r⟩ :: past : List GateDone) = all at h
  induction h with
  | nil k => cases hall
  | client x _ ih =>
    obtain ⟨k', fault, after, ⟨hk', hsame⟩, hfirst⟩ := ih hall
    exact ⟨k', fault, after, ⟨(Kernel.untouched_clientConnects _ x).trans hk',
      (Kernel.clientConnects_surroundings _ x).trans hsame⟩, hfirst⟩
  | @own k _ _ arrivals c' fault hfail hrest ih =>
    cases hall
    exact ⟨k, fault, arrivals, ⟨.refl k, .refl k⟩, hfail, rfl, hrest⟩
  | other e hother _ ih =>
    cases hall
    exact absurd rfl (hother c)

/-- Nothing that is done or tried changes the group of the directory. -/
theorem surroundings (h : Attended a p k past arrivals k') : k.SameSurroundings k' := by
  induction h with
  | nil k => exact .refl k
  | client c _ ih => exact (Kernel.clientConnects_surroundings _ c).trans ih
  | own c fault _ _ ih => exact (Kernel.exec_surroundings _ a p fault c).trans ih
  | other e _ _ ih => exact ih

/-- The kernel's side of a held socket: it is open, with the mode that was asked for and with
the owner and the group that it was created with. -/
theorem open_of_holding (h : Attended a p k past arrivals k') (hpast : Holding mode past l) :
    k'.Open l a ((Kernel.createdAccess k.directoryGroup p).chmod p.cred mode) := by
  obtain ⟨before, since, rfl, hsince⟩ := hpast
  obtain ⟨_, _, k₁, -, h₀, h₁⟩ := h.split
  obtain ⟨k₂, fault, _, ⟨-, hk₂⟩, -, hbind, h₂⟩ := h₁.first
  have hgroup : k₂.directoryGroup = k.directoryGroup :=
    hk₂.directoryGroup.trans h₀.surroundings.directoryGroup
  rcases k₂.exec_bindListener_cases a p fault with ⟨e, hfails⟩ | ⟨-, k₃, hbinds, hnames, haccess⟩
  · rw [hfails] at hbind
    cases hbind
  · rw [hbinds] at hbind h₂
    obtain rfl : l = k₂.nextIno := Except.ok.inj hbind
    obtain ⟨k₄, fault', _, ⟨hk₄, -⟩, -, hmode, h₄⟩ := h₂.first
    have hopen : k₃.Open k₂.nextIno a (Kernel.createdAccess k.directoryGroup p) :=
      ⟨hnames, hgroup ▸ haccess⟩
    have hopen := hopen.of_untouched hk₄
    rcases hopen.toNames.exec_setPermissions_cases a p fault' mode with
      ⟨e, hfails⟩ | ⟨k₅, hsets, hnames₅, haccess₅⟩
    · rw [hfails] at hmode
      cases hmode
    · rw [hsets] at h₄
      have hopen₅ : k₅.Open k₂.nextIno a
          ((Kernel.createdAccess k.directoryGroup p).chmod p.cred mode) := by
        refine ⟨hnames₅, ?_⟩
        rw [haccess₅, hopen.access]
      exact hopen₅.of_untouched (h₄.untouched hsince)

end Attended

/-! ### From the announcement to the drop -/

/-- The attributes of the daemon's socket, in a directory with the given group, if any. -/
def openAccess (directoryGroup : Option UInt32) (p : Process) : Access :=
  ⟨0o660, p.cred.uid, directoryGroup.getD p.cred.gid⟩

/-- They are what a `chmod` to `0o660` leaves. -/
theorem chmod_createdAccess (directoryGroup : Option UInt32) (p : Process) :
    (Kernel.createdAccess directoryGroup p).chmod p.cred 0o660 = openAccess directoryGroup p := by
  unfold Access.chmod
  split <;> rfl

/-- A timeout that has been set is that of the interval, and its ceiling is three of them. -/
theorem timeoutSet_exact {lib : TimeLibrary} (hlib : lib.Documented) {past : List GateDone} {l : ℕ}
    {interval : Duration} {window : UInt64} (hwatched : ToldWindow past interval window)
    (hset : TimeoutSet lib past l interval) :
    ∃ tv : TimeVal, ⟨.setReceiveTimeout l tv, .ok ()⟩ ∈ past ∧ tv.micros = interval.asMicros ∧
      (2 ≤ window.toNat → 0 < tv.micros) := by
  obtain ⟨micros, tv, hmicros, htv, hmem⟩ := hset
  have hexact : tv.micros = interval.asMicros :=
    (hlib.exact micros tv htv).trans (toInt_of_i64TryFrom hmicros)
  refine ⟨tv, hmem, hexact, fun hwindow => ?_⟩
  obtain ⟨watchdogUsec, watchdogPid, currentPid, -, -, -, hinterval, hw⟩ := hwatched
  have hnanos := (interval_eq hinterval hw).2
  have hmicros := interval.asMicros_eq
  omega

section Open

variable {lib : TimeLibrary} {socketPath : String} {limit : Option ℕ} {n : ℕ}
  {a : Agent} {p : Process} {k k' : Kernel} {run before after : List GateDone} {g : Gate ServeEnd}
  {arrivals : List Cred}

/-- After the drop, the path is free unless the unlink has failed, and nobody listens any more. -/
theorem freed_of_drop {l : ℕ} {reply : Except IoError Unit}
    (hk : Attended a p k (before ++ [⟨.sys .removeFile, reply⟩, ⟨.sys (.close l), ()⟩])
      arrivals k') :
    (k'.inode l).listener = none ∧ (reply = .ok () → k'.entry = none) := by
  obtain ⟨_, _, k₁, -, -, h₁⟩ := hk.split
  obtain ⟨k₂, fault, _, -, -, hremove, h₂⟩ := h₁.first
  obtain ⟨k₃, fault', _, ⟨hk₃, -⟩, hfail, -, h₄⟩ := h₂.first
  obtain rfl : fault' = none := by
    cases fault' with
    | none => rfl
    | some e => cases hfail
  have hrest : (k₃.close l).Untouched k' := h₄.untouched fun _ he => absurd he List.not_mem_nil
  refine ⟨?_, ?_⟩
  · rw [hrest.listener]
    simp [Kernel.close, Kernel.modifyInode]
  · rintro rfl
    rw [hrest.entry]
    show k₃.entry = none
    rw [hk₃.entry]
    rcases k₂.exec_removeFile_cases a p fault with ⟨e, hfails⟩ | hremoves
    · rw [hfails] at hremove
      cases hremove
    · rw [hremoves]

/-- **Open from the announcement to the drop.** The daemon runs from its start, clients try to
connect, and nobody else touches the path. At the moment of the first and only message of the
serve thread, which says that it is ready, of the start of the heartbeat, and of every
`accept`, the path names the daemon's own listening socket, with the mode and the owner that it
is meant to have. The heartbeat and the first `accept` come after the announcement. The heartbeat
has the interval that the environment asks for, and judges idle ticks by three of them, only if
the accept timeout has been set to one, which is more than nothing for every window but the
smallest. When the daemon returns or panics after a bind, the listener that it has bound is closed,
and the path is free unless the unlink has failed. -/
theorem open_when_announced (hlib : lib.Documented)
    (hrun : Issues (serve lib socketPath limit n) run g) :
    (∀ before e after k' arrivals, run = before ++ e :: after →
      Attended a p k before arrivals k' →
      (∀ address message, e.call = .manager (.sendTo address message) → message = "READY=1" ∧
        (∃ l, k'.Open l a (openAccess k.directoryGroup p)) ∧ ∀ d ∈ before, d.call.sends = false) ∧
      (∀ interval liveness, e.call = .spawnHeartbeat interval liveness →
        Announced before ∧ (∀ d ∈ before, d.call.spawns = false) ∧
        ∃ window l, ToldWindow before interval window ∧
          k'.Open l a (openAccess k.directoryGroup p) ∧
          (liveness.idleTickCeiling ≠ none →
            liveness.idleTickCeiling = some (interval.toNanos * 3) ∧
            ∃ tv : TimeVal, ⟨.setReceiveTimeout l tv, .ok ()⟩ ∈ before ∧
              tv.micros = interval.asMicros ∧ (2 ≤ window.toNat → 0 < tv.micros))) ∧
      ∀ l, e.call = .sys (.accept l) →
        Announced before ∧ k'.Open l a (openAccess k.directoryGroup p)) ∧
    ∀ ended k' arrivals, g = .ret ended → ended = .returned ∨ ended = .panicked →
      Attended a p k run arrivals k' → ∃ l, ⟨.sys .bindListener, .ok l⟩ ∈ run ∧
        (k'.inode l).listener = none ∧
        (k'.entry = none ∨ ∃ e, ⟨.sys .removeFile, .error e⟩ ∈ run) := by
  refine ⟨fun before e after k' arrivals hsplit hk => ?_, fun ended k' arrivals hg hended hk => ?_⟩
  · have hordered := ((@conducts_serve lib socketPath limit n).sound hrun).2 before e after hsplit
    rw [List.nil_append] at hordered
    have hopen {l : ℕ} (hl : Holding 0o660 before l) :
        k'.Open l a (openAccess k.directoryGroup p) :=
      chmod_createdAccess k.directoryGroup p ▸ hk.open_of_holding hl
    refine ⟨fun address message he => ?_, fun interval liveness he => ?_, fun l he => ?_⟩
    · rw [he] at hordered
      obtain ⟨hmessage, ⟨l, hl⟩, hfirst⟩ := hordered
      exact ⟨hmessage, ⟨l, hopen hl⟩, hfirst⟩
    · rw [he] at hordered
      obtain ⟨htold, hfirst, ⟨window, hwatched⟩, l, hl, hceiling⟩ := hordered
      refine ⟨htold, hfirst, window, l, hwatched, hopen hl, fun hsome => ?_⟩
      obtain ⟨hset, ceiling, hthree, hjudged⟩ := hceiling hsome
      refine ⟨?_, timeoutSet_exact hlib hwatched hset⟩
      obtain ⟨_, _, _, -, -, -, hinterval, -⟩ := hwatched
      obtain ⟨ceiling', hthree', hnanos⟩ := ceiling_eq hinterval
      obtain rfl : ceiling = ceiling' := Option.some.inj (hthree.symm.trans hthree')
      rw [hjudged, hnanos]
    · rw [he] at hordered
      exact ⟨hordered.1, hopen hordered.2⟩
  · subst hg
    obtain ⟨before, l, reply, hholding, rfl⟩ :=
      (@conducts_serve lib socketPath limit n).result hrun hended
    obtain ⟨hlistener, hentry⟩ := freed_of_drop hk
    refine ⟨l, ?_, hlistener, ?_⟩
    · obtain ⟨early, since, rfl, -⟩ := hholding
      simp
    · cases reply with
      | ok _ => exact .inl (hentry rfl)
      | error e => exact .inr ⟨e, by simp⟩

/-- A daemon that is watched takes a free path, tells the service manager, arms the accept timeout
and starts the heartbeat. -/
def watchedStart : List GateDone :=
  [⟨.sys .exists_, false⟩, ⟨.sys .bindListener, .ok 7⟩, ⟨.sys (.setPermissions 0o660), .ok ()⟩,
    ⟨.socketPair, .ok rootStream⟩, ⟨.sys (.peerCredentials rootStream), .ok rootPeer⟩,
    ⟨.newActivity, ()⟩, ⟨.manager (.var "NOTIFY_SOCKET"), some "@systemd"⟩,
    ⟨.manager .unbound, .ok ()⟩, ⟨.manager (.sendTo (.abstractName "systemd") "READY=1"), .ok ()⟩,
    ⟨.manager (.var "WATCHDOG_USEC"), some "60000000"⟩, ⟨.manager (.var "WATCHDOG_PID"), none⟩,
    ⟨.manager .processId, (4711 : UInt32)⟩, ⟨.setReceiveTimeout 7 ⟨30, 0⟩, .ok ()⟩,
    ⟨.spawnHeartbeat ⟨30, 0, by decide⟩ (Liveness.new.withIdleTickCeiling (90 * 10 ^ 9)), .ok ()⟩,
    line (servingOn "/tmp/gatekeeper.sock")]

/-- It finds nobody there, then serves root, and drops its socket. -/
def watchedRun : List GateDone :=
  watchedStart ++
    [⟨.sys (.accept 7), .error ⟨.wouldBlock, "Resource temporarily unavailable (os error 11)"⟩⟩,
      stamped .tick] ++
    rootRun "hello".toUTF8 ++ [⟨.sys .removeFile, .ok ()⟩, ⟨.sys (.close 7), ()⟩]

theorem watchedRun_issues :
    Issues (serve timeLibrary "/tmp/gatekeeper.sock" (some 1) 9) watchedRun (.ret .returned) :=
  .step <| .step <| .step <| .step <| .step <| .step <| .step <| .step <| .step <| .step <|
    .step <| .step <| .step <| .step <| .step <| .step <| .step <| .step <| .step <| .step <|
    .step <| .step <| .step <| .step <| .step <| .step <| .step <| .step <| .step <| .step <|
    .step <| .step <| .step <| .step <| .step <| .refl _

/-- A free path, with the inode `7` for the next socket. -/
def freeSeven : Kernel := { (World.freePath none).kernel with nextIno := 7 }

/-- The kernel's side of the start, in which root tries to connect before the mode is set. -/
theorem watchedStart_attended : ∃ k', Attended 0 World.rootProcess freeSeven
    (watchedRun.take 13) [rootPeer] k' :=
  ⟨_, .own .exists_ none rfl <| .own .bindListener none rfl <| .client rootPeer <|
    .own (.setPermissions 0o660) none rfl <| .other _ nofun <|
    .own (.peerCredentials rootStream) none rfl <| .other _ nofun <| .other _ nofun <|
    .other _ nofun <| .other _ nofun <| .other _ nofun <| .other _ nofun <| .other _ nofun <|
    .other _ nofun <| .nil _⟩

/-- The kernel's side of the whole run, in which root connects when the loop has turned once. -/
theorem watchedRun_attended : ∃ k', Attended 0 World.rootProcess freeSeven watchedRun
    [rootPeer] k' :=
  ⟨_, .own .exists_ none rfl <| .own .bindListener none rfl <|
    .own (.setPermissions 0o660) none rfl <| .other _ nofun <|
    .own (.peerCredentials rootStream) none rfl <| .other _ nofun <| .other _ nofun <|
    .other _ nofun <| .other _ nofun <| .other _ nofun <| .other _ nofun <| .other _ nofun <|
    .other _ nofun <| .other _ nofun <| .own (.eprintln _) none rfl <|
    .own (.accept 7) none rfl <| .other _ nofun <| .client rootPeer <|
    .own (.accept 7) none rfl <| .own (.peerCredentials rootStream) none rfl <|
    .own (.setReadTimeout rootStream _) none rfl <| .other _ nofun <| .other _ nofun <|
    .other _ nofun <| .own (.eprintln _) none rfl <| .other _ nofun <| .other _ nofun <|
    .other _ nofun <| .own (.eprintln _) none rfl <| .other _ nofun <|
    .own (.eprintln _) none rfl <| .other _ nofun <| .other _ nofun <| .other _ nofun <|
    .own .removeFile none rfl <| .own (.close 7) none rfl <| .nil _⟩

/-- The socket is open when the heartbeat is started, thirty seconds are armed, and in the end the
listener is closed and the path free. -/
theorem open_when_announced_watched :
    (∃ k' tv, Attended 0 World.rootProcess freeSeven (watchedRun.take 13) [rootPeer] k' ∧
      k'.Open 7 0 (openAccess none World.rootProcess) ∧
      ⟨.setReceiveTimeout 7 tv, .ok ()⟩ ∈ watchedRun.take 13 ∧ tv.micros = 30000000) ∧
    ∃ k', Attended 0 World.rootProcess freeSeven watchedRun [rootPeer] k' ∧
      (k'.inode 7).listener = none ∧ k'.entry = none := by
  have hl {l : ℕ} (hmem : (⟨.sys .bindListener, .ok l⟩ : GateDone) ∈ watchedRun) : l = 7 := by
    simpa [watchedRun, watchedStart, rootRun, stamped, line] using hmem
  refine ⟨?_, ?_⟩
  · obtain ⟨k', hk⟩ := watchedStart_attended
    obtain ⟨-, hspawn, -⟩ := (open_when_announced timeLibrary_documented watchedRun_issues).1
      _ _ (watchedRun.drop 14) k' _ rfl hk
    obtain ⟨-, -, window, l, -, hopen, harmed⟩ := hspawn _ _ rfl
    obtain ⟨-, tv, hset, hmicros, -⟩ := harmed (Option.some_ne_none _)
    obtain ⟨rfl, -⟩ : l = 7 ∧ tv = ⟨30, 0⟩ := by
      simpa [watchedRun, watchedStart, rootRun, stamped, line] using List.mem_of_mem_take hset
    exact ⟨k', tv, hk, hopen, hset, hmicros⟩
  · obtain ⟨k', hk⟩ := watchedRun_attended
    obtain ⟨l, hmem, hlistener, hentry⟩ :=
      (open_when_announced timeLibrary_documented watchedRun_issues).2 _ k' _ rfl (.inl rfl) hk
    obtain rfl := hl hmem
    refine ⟨k', hk, hlistener, hentry.resolve_right ?_⟩
    rintro ⟨e, he⟩
    simp [watchedRun, watchedStart, rootRun, stamped, line] at he

end Open

end UdsPolicy
