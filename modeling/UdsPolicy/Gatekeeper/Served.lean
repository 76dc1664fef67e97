import UdsPolicy.Gatekeeper.Attended
import UdsPolicy.Gatekeeper.Secrecy

/-!
# Whose requests are read

The daemon admits the user that it runs as, whom it learns from the kernel when it
starts. So it reads the requests of this user only and answers nobody else with
more than a refusal, for as long as it runs and whatever fails. If it could not
learn who it is, it admits root instead.
-/

namespace UdsPolicy

open Prog (Conducts Issues Only conducts_bind conducts_issue_bind only_issue only_pure)

/-- The daemon could not learn which user it runs as. -/
def Unlearned (past : List GateDone) : Prop :=
  (∃ e, ⟨.socketPair, .error e⟩ ∈ past) ∨ ∃ here e early later,
    past = early ++ [⟨.socketPair, .ok here⟩, ⟨.sys (.peerCredentials here), .error e⟩] ++ later

/-- The daemon takes this for the user that it runs as. -/
inductive Learned (past : List GateDone) : UInt32 → Prop
  /-- The kernel has said so about a socket of its own. -/
  | own (here : Connection) (cred : Cred) (early later : List GateDone) :
      past = early ++ [⟨.socketPair, .ok here⟩, ⟨.sys (.peerCredentials here), .ok cred⟩] ++
        later → Learned past cred.uid
  /-- It could not learn who it is. -/
  | root : Unlearned past → Learned past 0

/-- A connection of the user that the daemon takes for its own. -/
def OwnUser (past : List GateDone) (stream : Connection) : Prop :=
  ∃ cred, ⟨.sys (.peerCredentials stream), .ok cred⟩ ∈ past ∧ Learned past cred.uid

/-- What the daemon may read and write: the requests of its own user and the answers to them, and
refusals. -/
def Entitled (past : List GateDone) : GateCall → Prop
  | .readToEnd stream => OwnUser past stream
  | .writeln stream text => (∃ denial, text = refusal denial) ∨ OwnUser past stream
  | _ => True

/-- What may be done on a stream, if its caller is allowed to or not. -/
def Handles (stream : Connection) (allowed : Prop) : GateCall → Prop
  | .readToEnd stream' => stream' = stream ∧ allowed
  | .writeln stream' text => stream' = stream ∧ ((∃ denial, text = refusal denial) ∨ allowed)
  | _ => True

section Served

variable {past part : List GateDone} {c : GateCall} {uid : UInt32} {stream : Connection}
  {allowed : Prop}

theorem Unlearned.append (h : Unlearned past) (part : List GateDone) :
    Unlearned (past ++ part) := by
  rcases h with ⟨e, hmem⟩ | ⟨here, e, early, later, rfl⟩
  · exact .inl ⟨e, List.mem_append_left _ hmem⟩
  · exact .inr ⟨here, e, early, later ++ part, List.append_assoc ..⟩

theorem Learned.append (h : Learned past uid) (part : List GateDone) :
    Learned (past ++ part) uid := by
  cases h with
  | own here cred early later hpast =>
    refine .own here cred early (later ++ part) ?_
    rw [hpast, List.append_assoc]
  | root h => exact .root (h.append part)

theorem entitled_of_quiet (hc : c.quiet) : Entitled past c := by
  cases c with
  | readToEnd => cases hc.1
  | writeln => cases hc.2
  | _ => trivial

theorem handles_of_records (h : c.records = true) : Handles stream allowed c := by
  cases c with
  | readToEnd | writeln => cases h
  | _ => trivial

/-- What is done on a stream is permitted, if only its own user is allowed to. -/
theorem Handles.entitled (h : Handles stream allowed c) (hown : allowed → OwnUser past stream) :
    Entitled past c := by
  cases c with
  | readToEnd stream' =>
    obtain ⟨rfl, hallowed⟩ := h
    exact hown hallowed
  | writeln stream' text =>
    obtain ⟨rfl, htext⟩ := h
    exact htext.imp_right hown
  | _ => trivial

/-- A part that moves no bytes is permitted. -/
theorem conducts_quiet {β : Type} {g : Gate β} (h : Only GateCall.quiet g) :
    Conducts Entitled (fun _ past' => ∃ part, past' = past ++ part) past g := by
  refine Conducts.imp (h.conducts fun part c _ hc => entitled_of_quiet hc) ?_
  rintro _ _ ⟨part, rfl, -⟩
  exact ⟨part, rfl⟩

theorem Learned.conducts {β : Type} {g : Gate β} (h : Learned past uid)
    (hg : Only GateCall.quiet g) :
    Conducts Entitled (fun _ past' => Learned past' uid) past g := by
  refine (conducts_quiet hg).imp ?_
  rintro _ _ ⟨part, rfl⟩
  exact h.append part

/-- The daemon takes for its own user whom the kernel names, or root. -/
theorem conducts_nixUid : Conducts Entitled (fun uid past' => Learned past' uid) past nixUid := by
  refine conducts_issue_bind.mpr ⟨trivial, fun reply => ?_⟩
  cases reply with
  | error e => exact .root (.inl ⟨e, by simp⟩)
  | ok here =>
    refine ⟨trivial, fun answer => ?_⟩
    cases answer with
    | error e =>
      refine .root (.inr ⟨here, e, past, [], ?_⟩)
      simp
    | ok cred =>
      refine .own here cred past [] ?_
      simp

variable {α : Type} [Authorizer α] {authorizer : α} {socket : Socket} {caller : Caller}

/-- Answering reads and writes on the one stream, and does more than refuse if the caller is
allowed to. -/
theorem only_answer_handles :
    Only (Handles stream (authorize authorizer change caller = .ok ()))
      (answer authorizer stream caller) := by
  have hrecords {c : GateCall} (h : c.records = true) :
      Handles stream (authorize authorizer change caller = .ok ()) c :=
    handles_of_records h
  unfold answer
  cases hverdict : authorize authorizer change caller with
  | error denial =>
    rw [hverdict] at hrecords
    refine ((only_onNames _).mono fun _ => hrecords).bind fun shown => ?_
    refine ((only_eprintln _).mono fun _ => hrecords).bind fun _ => ?_
    refine Only.bind (only_issue ⟨rfl, .inl ⟨denial, rfl⟩⟩) fun _ => only_issue trivial
  | ok _ =>
    rw [hverdict] at hrecords
    refine (only_beginSteps.mono fun _ => hrecords).bind fun audit => ?_
    refine Only.bind ?_ fun outcome => ?_
    · refine Only.bind (only_issue ⟨rfl, rfl⟩) fun reply => ?_
      cases reply with
      | error e => exact only_pure
      | ok said =>
        refine Only.bind (only_issue ⟨rfl, .inr rfl⟩) fun reply => ?_
        cases reply with
        | error e => exact only_pure
        | ok _ =>
          refine ((only_onNames _).mono fun _ => hrecords).bind fun shown => ?_
          exact ((only_eprintln _).mono fun _ => hrecords).bind fun _ => only_pure
    · refine (only_finishSteps.mono fun _ => hrecords).bind fun _ => only_issue trivial

/-- The gate of the daemon allows a caller whom the kernel has named, if it is its own user. -/
theorem ownUser_of_allowed {answer : Except IoError Cred}
    (hallowed : authorize (PeerGate.forUids [uid]) change (.ofCredentials answer) = .ok ()) :
    ∃ cred, answer = .ok cred ∧ cred.uid = uid := by
  have hadmits := PeerGate.authorize_eq_ok.mp hallowed
  cases answer with
  | error e => cases hadmits
  | ok cred =>
    refine ⟨cred, rfl, ?_⟩
    rcases hadmits with huid | hgid
    · simpa [PeerGate.forUids] using huid
    · cases hgid

/-- Whoever is accepted comes with an answer of the kernel. -/
theorem Learned.conducts_accept (h : Learned past uid) :
    Conducts Entitled (fun result past' => Learned past' uid ∧
        ∀ stream caller, result = .ok (stream, caller) → ∃ answer,
          caller = .ofCredentials answer ∧ ⟨.sys (.peerCredentials stream), answer⟩ ∈ past')
      past (onSocket (ExceptT.run socket.accept)) := by
  have haccept : ExceptT.run socket.accept = _ := Socket.accept_eq socket
  rw [haccept]
  refine ⟨trivial, fun reply => ?_⟩
  have hfirst := h.append [⟨.sys (.accept socket.listener), reply⟩]
  cases reply with
  | error e => exact ⟨hfirst, nofun⟩
  | ok stream =>
    refine ⟨trivial, fun answer => ⟨trivial, fun reply => ?_⟩⟩
    have hlater := (hfirst.append [⟨.sys (.peerCredentials stream), answer⟩]).append
      [⟨.sys (.setReadTimeout stream socket.config.requestReadTimeout), reply⟩]
    cases reply with
    | error e => exact ⟨hlater, nofun⟩
    | ok _ =>
      refine ⟨hlater, fun stream' caller hresult => ?_⟩
      cases hresult
      exact ⟨answer, rfl, by simp⟩

/-- **Step lemma.** A turn reads and writes what it may. -/
theorem Learned.conducts_turn (h : Learned past uid) {served : ℕ} :
    Conducts Entitled (fun _ past' => Learned past' uid) past
      (turn (PeerGate.forUids [uid]) socket served) := by
  have htick (past' : List GateDone) (served' : ℕ) (h : Learned past' uid) :
      Conducts Entitled (fun _ past' => Learned past' uid) past'
        (gate (.stamp .tick) >>= fun _ => pure served') :=
    conducts_issue_bind.mpr ⟨trivial, fun r => h.append [⟨.stamp .tick, r⟩]⟩
  apply conducts_bind.mpr
  refine h.conducts_accept.imp ?_
  rintro result past₁ ⟨h₁, hanswered⟩
  rcases result with e | ⟨stream, caller⟩
  · show Conducts _ _ _ (if _ then _ else _)
    split
    · refine conducts_issue_bind.mpr ⟨trivial, fun r => htick _ served ?_⟩
      exact h₁.append [⟨.sys (.eprintln (acceptFailed e)), r⟩]
    · exact htick past₁ served h₁
  · obtain ⟨answer, rfl, hmem⟩ := hanswered stream caller rfl
    refine conducts_issue_bind.mpr ⟨trivial, fun r => ?_⟩
    have h₂ := h₁.append [⟨.stamp (.callStarted .bounded), r⟩]
    have hmem₂ := List.mem_append_left [⟨.stamp (.callStarted .bounded), r⟩] hmem
    apply conducts_bind.mpr
    refine Conducts.imp (only_answer_handles.conducts fun part c _ hc => hc.entitled ?_) ?_
    · intro hallowed
      obtain ⟨cred, rfl, rfl⟩ := ownUser_of_allowed hallowed
      exact ⟨cred, List.mem_append_left _ hmem₂, h₂.append part⟩
    · rintro _ _ ⟨part, rfl, -⟩
      refine conducts_issue_bind.mpr ⟨trivial, fun r => htick _ (servedNext served) ?_⟩
      exact (h₂.append part).append [⟨.stamp .callFinished, r⟩]

variable {lib : TimeLibrary} {socketPath : String} {limit : Option ℕ} {n : ℕ}

theorem only_quiet_startHeartbeat {interval : Option Duration} :
    Only GateCall.quiet (startHeartbeat lib socket interval) := by
  cases interval with
  | none => exact only_pure
  | some interval =>
    refine Only.bind ?_ fun armed => ?_
    · unfold Socket.setAcceptTimeoutSteps
      split
      · exact only_pure
      · split
        · exact only_pure
        · exact Only.bind (only_issue ⟨rfl, rfl⟩) fun _ => only_pure
    · rcases armed with _ | error | _
      · exact only_pure
      · refine Only.bind (only_issue ⟨rfl, rfl⟩) fun _ => ?_
        exact Only.bind (only_issue ⟨rfl, rfl⟩) fun _ => only_pure
      · cases interval.checkedMul 3 with
        | none => exact only_pure
        | some ceiling => exact Only.bind (only_issue ⟨rfl, rfl⟩) fun _ => only_pure

theorem conducts_serveOn_entitled :
    Conducts Entitled (fun _ _ => True) past
      (serveOn lib socketPath limit n socket) := by
  apply conducts_bind.mpr
  refine conducts_nixUid.imp fun uid past₁ h => ?_
  refine conducts_issue_bind.mpr ⟨trivial, fun r => ?_⟩
  have h := h.append [⟨.newActivity, r⟩]
  apply conducts_bind.mpr
  refine (h.conducts only_quiet_onManager).imp fun _ past₂ h => ?_
  apply conducts_bind.mpr
  refine (h.conducts only_quiet_onManager).imp fun interval past₃ h => ?_
  apply conducts_bind.mpr
  refine (h.conducts only_quiet_startHeartbeat).imp fun started past₄ h => ?_
  cases started with
  | false => trivial
  | true =>
    refine conducts_issue_bind.mpr ⟨trivial, fun r => ?_⟩
    have h := h.append [⟨.sys (.eprintln (servingOn socketPath)), r⟩]
    apply conducts_bind.mpr
    refine Conducts.imp (Prog.conducts_repeatWhile (I := fun _ past => Learned past uid)
      (fun served past _ h => h.conducts_turn) n 0 h) ?_
    intro ended past₅ _
    cases ended with
    | none => trivial
    | some served => trivial

/-- **Run lemma.** The daemon reads and writes what it may. -/
theorem conducts_serve_entitled :
    Conducts Entitled (fun _ _ => True) [] (serve lib socketPath limit n) := by
  apply conducts_bind.mpr
  refine (conducts_quiet only_quiet_onSocket).imp ?_
  intro bound past₁ _
  cases bound with
  | error e => trivial
  | ok socket =>
    apply conducts_bind.mpr
    refine conducts_serveOn_entitled.imp ?_
    intro ended past₂ _
    have hdrop (ended : ServeEnd) : Conducts Entitled (fun _ _ => True) past₂
        (onSocket socket.drop >>= fun _ => pure ended) := by
      apply conducts_bind.mpr
      exact (conducts_quiet only_quiet_onSocket).imp fun _ _ _ => trivial
    cases ended with
    | running => trivial
    | refused error => exact hdrop (.refused error)
    | panicked => exact hdrop .panicked
    | returned => exact hdrop .returned

/-- A kernel that names a peer names the right one. -/
theorem Kernel.peer_eq_of_exec {k : Kernel} {a : Agent} {p : Process} {fault : Option IoError}
    {cred : Cred} (h : .ok cred = (k.exec a p fault (.peerCredentials stream)).1) :
    cred = stream.peer := by
  cases fault with
  | none => exact Except.ok.inj h
  | some e => cases h

/-- The kernel tells the truth about the peers of connections. -/
theorem Attended.peer_eq {a : Agent} {p : Process} {k k' : Kernel} {arrivals : List Cred}
    (h : Attended a p k past arrivals k') {cred : Cred}
    (hmem : ⟨.sys (.peerCredentials stream), .ok cred⟩ ∈ past) : cred = stream.peer := by
  obtain ⟨before, after, rfl⟩ := List.append_of_mem hmem
  obtain ⟨_, _, _, -, -, hrest⟩ := h.split
  obtain ⟨k₁, fault, _, -, -, hreply, -⟩ := hrest.first
  exact Kernel.peer_eq_of_exec hreply

/-- **Whose requests are read.** The daemon runs from its start, whatever fails and whoever
connects, on a kernel that reports its own user of a pair of sockets that it makes. It reads
requests of its own user only, and tells nobody else more than a refusal. Only if the kernel
would not say which user that is does it take root for it. -/
theorem only_own_user_served {a : Agent} {p : Process} {k k' : Kernel} {run : List GateDone}
    {g : Gate ServeEnd} {arrivals : List Cred}
    (hrun : Issues (serve lib socketPath limit n) run g)
    (hk : Attended a p k run arrivals k')
    (hpair : ∀ here, ⟨.socketPair, .ok here⟩ ∈ run → here.peer.uid = p.cred.uid) :
    (∀ before stream reply after, run = before ++ ⟨.readToEnd stream, reply⟩ :: after →
      stream.peer.uid = p.cred.uid ∨ stream.peer.uid = 0 ∧ Unlearned before) ∧
    ∀ before stream text reply after, run = before ++ ⟨.writeln stream text, reply⟩ :: after →
      (∃ denial, text = refusal denial) ∨
        stream.peer.uid = p.cred.uid ∨ stream.peer.uid = 0 ∧ Unlearned before := by
  have hown {before after : List GateDone} {e : GateDone} {stream : Connection}
      (hsplit : run = before ++ e :: after) (h : OwnUser before stream) :
      stream.peer.uid = p.cred.uid ∨ stream.peer.uid = 0 ∧ Unlearned before := by
    have hpast {d : GateDone} (hd : d ∈ before) : d ∈ run :=
      hsplit ▸ List.mem_append_left _ hd
    obtain ⟨cred, hcred, hlearned⟩ := h
    obtain rfl := hk.peer_eq (hpast hcred)
    generalize stream.peer.uid = uid at hlearned ⊢
    cases hlearned with
    | root hunlearned => exact .inr ⟨rfl, hunlearned⟩
    | own here self early later hbefore =>
      left
      have hpaired : ⟨.socketPair, .ok here⟩ ∈ run := hpast (by simp [hbefore])
      have hasked : ⟨.sys (.peerCredentials here), .ok self⟩ ∈ run := hpast (by simp [hbefore])
      rw [hk.peer_eq hasked]
      exact hpair here hpaired
  have hentitled := (conducts_serve_entitled.sound hrun).2
  refine ⟨fun before stream reply after hsplit => ?_,
    fun before stream text reply after hsplit => ?_⟩
  · exact hown hsplit (hentitled before _ after hsplit)
  · exact (hentitled before _ after hsplit).imp_right (hown hsplit)

/-- The kernel's side of a run that serves root, which connects as soon as it can. -/
theorem rootServed_attended : ∃ k', Attended 0 World.rootProcess
    freeSeven (rootServed "hello".toUTF8) [rootPeer] k' :=
  ⟨_, .own .exists_ none rfl <| .own .bindListener none rfl <|
    .own (.setPermissions 0o660) none rfl <| .client rootPeer <| .other _ nofun <|
    .own (.peerCredentials rootStream) none rfl <| .other _ nofun <| .other _ nofun <|
    .other _ nofun <| .other _ nofun <| .other _ nofun <| .own (.eprintln _) none rfl <|
    .own (.accept 7) none rfl <| .own (.peerCredentials rootStream) none rfl <|
    .own (.setReadTimeout rootStream _) none rfl <| .other _ nofun <|
    .other _ nofun <| .other _ nofun <| .own (.eprintln _) none rfl <| .other _ nofun <|
    .other _ nofun <| .other _ nofun <| .own (.eprintln _) none rfl <| .other _ nofun <|
    .own (.eprintln _) none rfl <| .other _ nofun <| .other _ nofun <| .other _ nofun <|
    .own .removeFile none rfl <| .own (.close 7) none rfl <| .nil _⟩

/-- Root's daemon reads what root says. -/
theorem only_own_user_served_root : ∃ before after,
    rootServed "hello".toUTF8 = before ++ ⟨.readToEnd rootStream, .ok "hello".toUTF8⟩ :: after ∧
      (rootStream.peer.uid = World.rootProcess.cred.uid ∨
        rootStream.peer.uid = 0 ∧ Unlearned before) := by
  obtain ⟨k', hk⟩ := rootServed_attended
  refine ⟨(rootServed "hello".toUTF8).take 18, (rootServed "hello".toUTF8).drop 19, rfl, ?_⟩
  refine (only_own_user_served (rootServed_issues _) hk ?_).1 _ _ _ _ rfl
  intro here hhere
  simp [rootServed, rootRun, stamped, line] at hhere
  rw [hhere]
  rfl

end Served

end UdsPolicy
