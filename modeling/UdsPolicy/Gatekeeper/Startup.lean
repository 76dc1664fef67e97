import UdsPolicy.Gatekeeper.Story
import UdsPolicy.Socket.Directory
import UdsPolicy.Socket.Outcome

/-!
# From the bind to the drop

The service manager is told that the daemon is ready when its socket can be
connected to, and not before: at that moment the path names a socket that this
process listens on, with the mode that was asked for, and so it stays until the
socket is dropped, however many clients connect and whatever else fails. The
heartbeat starts after that, at the interval that the environment asks for, and
judges idle ticks, by three intervals, only if the accept timeout has been set to
one.
-/

namespace UdsPolicy

open Prog (Done Issues Conducts Only conducts_bind only_issue only_pure only_interpret
  only_repeatWhile)

/-- Whether an operation leaves alone what the path names, who listens there, and who may
connect. -/
def GateCall.keepsSocket : GateCall → Bool
  | .sys .removeFile | .sys .bindListener | .sys (.close _) => false
  | .sys (.setPermissions _) | .sys (.chown _) => false
  | _ => true

/-- The socket has been bound and given its mode, and nothing has been done to it since. -/
def Holding (mode : UInt32) (past : List GateDone) (l : ℕ) : Prop :=
  ∃ before since, past = before ++ ⟨.sys .bindListener, .ok l⟩ ::
      ⟨.sys (.setPermissions mode), .ok ()⟩ :: since ∧
    ∀ e ∈ since, e.call.keepsSocket = true

/-- Whether an operation hands a message to the service manager. -/
def GateCall.sends : GateCall → Bool
  | .manager (.sendTo _ _) => true
  | _ => false

/-- Whether an operation starts the heartbeat. -/
def GateCall.spawns : GateCall → Bool
  | .spawnHeartbeat _ _ => true
  | _ => false

/-- The service manager has been told, as far as it could be: `notify_ready` has returned. -/
def Announced (past : List GateDone) : Prop :=
  ∃ before part after, past = before ++ part ++ after ∧
    Issues (onManager notifyReady) part (.ret ())

/-- The environment has been read, and it asks for this interval, half of a window. -/
def ToldWindow (past : List GateDone) (interval : Duration) (window : UInt64) : Prop :=
  ∃ watchdogUsec watchdogPid currentPid, ⟨.manager (.var "WATCHDOG_USEC"), watchdogUsec⟩ ∈ past ∧
    ⟨.manager (.var "WATCHDOG_PID"), watchdogPid⟩ ∈ past ∧
    ⟨.manager .processId, currentPid⟩ ∈ past ∧
    heartbeatFrom watchdogUsec watchdogPid currentPid = some interval ∧
    Window watchdogUsec window

/-- The accept timeout of a listener has been set to the timeval of an interval. -/
def TimeoutSet (lib : TimeLibrary) (past : List GateDone) (l : ℕ) (interval : Duration) : Prop :=
  ∃ micros tv, i64TryFrom interval.asMicros = some micros ∧ lib.microseconds micros = some tv ∧
    ⟨.setReceiveTimeout l tv, .ok ()⟩ ∈ past

/-- What has to have happened before an operation of the serve thread. -/
def Ordered (lib : TimeLibrary) (mode : UInt32) (past : List GateDone) : GateCall → Prop
  | .manager (.sendTo _ message) =>
    message = "READY=1" ∧ (∃ l, Holding mode past l) ∧ ∀ e ∈ past, e.call.sends = false
  | .spawnHeartbeat interval liveness =>
    Announced past ∧ (∀ e ∈ past, e.call.spawns = false) ∧
      (∃ window, ToldWindow past interval window) ∧
      ∃ l, Holding mode past l ∧ (liveness.idleTickCeiling ≠ none → TimeoutSet lib past l interval ∧
        ∃ ceiling, interval.checkedMul 3 = some ceiling ∧
          liveness.idleTickCeiling = some ceiling.toNanos)
  | .sys (.accept l) => Announced past ∧ Holding mode past l
  | _ => True

section Holding

variable {lib : TimeLibrary} {mode : UInt32} {past part : List GateDone} {l : ℕ}
  {interval : Duration} {window : UInt64}

theorem Holding.append (h : Holding mode past l)
    (hpart : ∀ e ∈ part, e.call.keepsSocket = true) : Holding mode (past ++ part) l := by
  obtain ⟨before, since, rfl, hsince⟩ := h
  refine ⟨before, since ++ part, by simp, fun e he => ?_⟩
  rcases List.mem_append.mp he with he | he
  · exact hsince e he
  · exact hpart e he

theorem Announced.append (h : Announced past) : Announced (past ++ part) := by
  obtain ⟨before, told, after, rfl, htold⟩ := h
  exact ⟨before, told, after ++ part, by simp, htold⟩

theorem ToldWindow.append (h : ToldWindow past interval window) :
    ToldWindow (past ++ part) interval window := by
  obtain ⟨watchdogUsec, watchdogPid, currentPid, husec, hpid, hid, hinterval⟩ := h
  exact ⟨watchdogUsec, watchdogPid, currentPid, List.mem_append_left _ husec,
    List.mem_append_left _ hpid, List.mem_append_left _ hid, hinterval⟩

end Holding

/-- An operation that can be performed at any time and changes nothing that the order is about. -/
structure GateCall.Plain (c : GateCall) : Prop where
  /-- It can be performed at any time. -/
  anytime : ∀ lib mode past, Ordered lib mode past c
  /-- It leaves the socket alone. -/
  keeps : c.keepsSocket = true
  /-- It hands over no message. -/
  silent : c.sends = false
  /-- It starts no heartbeat. -/
  still : c.spawns = false

section Order

variable {lib : TimeLibrary} {mode : UInt32} {past : List GateDone} {l : ℕ} {β : Type} {g : Gate β}

/-- A part of plain operations only makes the history longer. -/
theorem conducts_of_plain (hg : Only GateCall.Plain g) : Conducts (Ordered lib mode)
    (fun _ past' => ∃ part, past' = past ++ part ∧ ∀ e ∈ part, (Done.call e).Plain) past g :=
  hg.conducts fun _ _ _ hc => hc.anytime lib mode _

theorem plain_eprintln (text : String) : (GateCall.sys (.eprintln text)).Plain :=
  ⟨fun _ _ _ => trivial, rfl, rfl, rfl⟩

/-- An operation that is in order, and what follows it. -/
theorem conducts_gate {Q : β → List GateDone → Prop} {c : GateCall} {f : c.Reply → Gate β}
    (hc : Ordered lib mode past c)
    (h : ∀ r, Conducts (Ordered lib mode) Q (past ++ [⟨c, r⟩]) (f r)) :
    Conducts (Ordered lib mode) Q past (gate c >>= f) :=
  Prog.conducts_issue_bind.mpr ⟨hc, h⟩

/-- The history of a socket that has just been bound. -/
def JustBound (mode : UInt32) (past : List GateDone) (l : ℕ) : Prop :=
  ∃ before, past = before ++ [⟨.sys .bindListener, .ok l⟩, ⟨.sys (.setPermissions mode), .ok ()⟩]

/-- What a bind without a group has done, if it has succeeded: nothing but operations of the
socket code, the last of which have bound the socket and given it its mode. -/
def BoundBy (mode : UInt32) (result : Except BindError Socket) (past : List GateDone) : Prop :=
  (∀ e ∈ past, e.call.sends = false ∧ e.call.spawns = false) ∧
    ∀ socket, result = .ok socket → JustBound mode past socket.listener

/-- A history of operations of the socket code. -/
def OnlySys (past : List GateDone) : Prop := ∀ e ∈ past, ∃ c, e.call = .sys c

theorem OnlySys.concat (h : OnlySys past) (c : Syscall) (r : c.Reply) :
    OnlySys (past ++ [⟨.sys c, r⟩]) := by
  intro e he
  rcases List.mem_append.mp he with he | he
  · exact h e he
  · obtain rfl := List.mem_singleton.mp he
    exact ⟨c, rfl⟩

theorem OnlySys.boundBy {result : Except BindError Socket} (h : OnlySys past)
    (hresult : ∀ socket, result = .ok socket → JustBound mode past socket.listener) :
    BoundBy mode result past := by
  refine ⟨fun e he => ?_, hresult⟩
  obtain ⟨c, hc⟩ := h e he
  rw [hc]
  exact ⟨rfl, rfl⟩

variable {path : String}

/-- From `UnixListener::bind` on. -/
theorem conducts_bindFreePath (h : OnlySys past) : Conducts (Ordered lib 0o660) (BoundBy 0o660) past
    (onSocket (ExceptT.run (Socket.bindFreePath (.new daemon path)))) := by
  refine ⟨trivial, fun reply => ?_⟩
  cases reply with
  | error e => exact (h.concat _ _).boundBy nofun
  | ok listener =>
    refine ⟨trivial, fun reply => ?_⟩
    cases reply with
    | error e =>
      refine ⟨trivial, fun _ => ⟨trivial, fun _ => ?_⟩⟩
      exact ((((h.concat _ _).concat _ _).concat _ _).concat _ _).boundBy nofun
    | ok _ =>
      refine ((h.concat _ _).concat _ _).boundBy ?_
      rintro socket ⟨rfl⟩
      refine ⟨past, ?_⟩
      rw [List.append_assoc]
      rfl

/-- `Socket::bind` for a daemon without a group. -/
theorem conducts_bindSocket : Conducts (Ordered lib 0o660) (BoundBy 0o660) []
    (onSocket (ExceptT.run (Socket.bind (.new daemon path)))) := by
  have hstart : OnlySys [] := fun _ he => absurd he List.not_mem_nil
  refine ⟨trivial, fun found => ?_⟩
  cases found with
  | false => exact conducts_bindFreePath (hstart.concat .exists_ false)
  | true =>
    have hfound := hstart.concat .exists_ true
    refine ⟨trivial, fun reply => ?_⟩
    rcases reply with error | metadata
    · exact (hfound.concat .symlinkMetadata _).boundBy nofun
    have hmetadata := hfound.concat .symlinkMetadata (.ok metadata)
    cases metadata with
    | file | directory | symlink => exact hmetadata.boundBy nofun
    | socket =>
      refine ⟨trivial, fun reply => ?_⟩
      have hconnect := hmetadata.concat .connect reply
      rcases reply with ⟨kind, text⟩ | _
      · cases kind with
        | connectionRefused =>
          refine ⟨trivial, fun reply => ?_⟩
          have hremove := hconnect.concat .removeFile reply
          cases reply with
          | error error => exact hremove.boundBy nofun
          | ok _ => exact conducts_bindFreePath hremove
        | notFound => exact conducts_bindFreePath hconnect
        | _ => exact hconnect.boundBy nofun
      · exact hconnect.boundBy nofun

/-! ### After the bind -/

/-- A socket is held, and the service manager has not been told yet. -/
structure Bound (mode : UInt32) (l : ℕ) (past : List GateDone) : Prop where
  /-- The socket is held. -/
  holding : Holding mode past l
  /-- No message has been sent. -/
  silent : ∀ e ∈ past, e.call.sends = false
  /-- The heartbeat has not been started. -/
  still : ∀ e ∈ past, e.call.spawns = false

theorem BoundBy.bound {socket : Socket} (h : BoundBy mode (.ok socket) past) :
    Bound mode socket.listener past := by
  obtain ⟨hquiet, hbound⟩ := h
  obtain ⟨before, rfl⟩ := hbound socket rfl
  exact ⟨⟨before, [], rfl, fun _ he => absurd he List.not_mem_nil⟩,
    fun e he => (hquiet e he).1, fun e he => (hquiet e he).2⟩

theorem Bound.append {part : List GateDone} (h : Bound mode l past)
    (hpart : ∀ e ∈ part, e.call.Plain) : Bound mode l (past ++ part) where
  holding := h.holding.append fun e he => (hpart e he).keeps
  silent e he := (List.mem_append.mp he).elim (h.silent e) fun he => (hpart e he).silent
  still e he := (List.mem_append.mp he).elim (h.still e) fun he => (hpart e he).still

theorem Bound.concat (h : Bound mode l past) {c : GateCall} (hc : c.Plain) (r : c.Reply) :
    Bound mode l (past ++ [⟨c, r⟩]) :=
  h.append fun _ he => List.mem_singleton.mp he ▸ hc

/-- A part of plain operations keeps what is known of a bound socket. -/
theorem Bound.plain (h : Bound mode l past) (hg : Only GateCall.Plain g) :
    Conducts (Ordered lib mode) (fun _ => Bound mode l) past g := by
  refine (conducts_of_plain hg).imp ?_
  rintro _ _ ⟨part, rfl, hpart⟩
  exact h.append hpart

theorem plain_nixUid : Only GateCall.Plain nixUid := by
  have hpair : GateCall.socketPair.Plain := ⟨fun _ _ _ => trivial, rfl, rfl, rfl⟩
  refine (only_issue hpair).bind fun reply => ?_
  cases reply with
  | error e => exact only_pure
  | ok here =>
    refine Only.bind ?_ fun _ => only_pure
    exact only_issue (C := GateCall) ⟨fun _ _ _ => trivial, rfl, rfl, rfl⟩

theorem plain_var (name : String) : (GateCall.manager (.var name)).Plain :=
  ⟨fun _ _ _ => trivial, rfl, rfl, rfl⟩

/-- The first message to the service manager leaves the socket alone. -/
theorem Bound.conducts_sendTo {address : SocketAddr} (h : Bound mode l past) :
    Conducts (Ordered lib mode)
      (fun _ past' => Holding mode past' l ∧ ∀ e ∈ past', e.call.spawns = false) past
    (gate (.manager (.sendTo address "READY=1")) >>= fun _ => pure ()) := by
  refine ⟨⟨rfl, ⟨l, h.holding⟩, h.silent⟩, fun reply => ⟨h.holding.append ?_, fun e he => ?_⟩⟩
  · intro e he
    obtain rfl := List.mem_singleton.mp he
    rfl
  · rcases List.mem_append.mp he with he | he
    · exact h.still e he
    · obtain rfl := List.mem_singleton.mp he
      rfl

/-- `notify_ready`, which may find nobody to tell. -/
theorem Bound.conducts_notifyReady (h : Bound mode l past) : Conducts (Ordered lib mode)
    (fun _ past' => Holding mode past' l ∧ ∀ e ∈ past', e.call.spawns = false) past
    (onManager notifyReady) := by
  refine ⟨trivial, fun value => ?_⟩
  have hvalue := h.concat (plain_var "NOTIFY_SOCKET") value
  cases value with
  | none => exact ⟨hvalue.holding, hvalue.still⟩
  | some socketPath =>
    show Conducts _ _ _ (onManager (notifyTo socketPath "READY=1"))
    unfold notifyTo
    split
    · exact ⟨hvalue.holding, hvalue.still⟩
    · refine ⟨trivial, fun reply => ?_⟩
      have hunbound : (GateCall.manager .unbound).Plain := ⟨fun _ _ _ => trivial, rfl, rfl, rfl⟩
      have hopened := hvalue.concat hunbound reply
      cases reply with
      | error e => exact ⟨hopened.holding, hopened.still⟩
      | ok _ =>
        cases hstrip : stripAt socketPath with
        | some name =>
          cases hname : SocketAddr.fromAbstractName name with
          | error e =>
            simp only [hname]
            exact ⟨hopened.holding, hopened.still⟩
          | ok address =>
            simp only [hname]
            exact hopened.conducts_sendTo
        | none =>
          cases hpath : SocketAddr.sockaddrUn socketPath with
          | error e => exact ⟨hopened.holding, hopened.still⟩
          | ok address => exact hopened.conducts_sendTo

/-- A socket is held, and the service manager has been told. -/
structure Told (mode : UInt32) (l : ℕ) (past : List GateDone) : Prop where
  /-- The socket is held. -/
  holding : Holding mode past l
  /-- The service manager has been told. -/
  announced : Announced past

theorem Told.append {part : List GateDone} (h : Told mode l past)
    (hpart : ∀ e ∈ part, e.call.keepsSocket = true) : Told mode l (past ++ part) :=
  ⟨h.holding.append hpart, h.announced.append⟩

theorem Told.concat (h : Told mode l past) {c : GateCall} (hc : c.keepsSocket = true)
    (r : c.Reply) : Told mode l (past ++ [⟨c, r⟩]) :=
  h.append fun _ he => List.mem_singleton.mp he ▸ hc

/-- What is known after `notify_ready`. -/
theorem Bound.told (h : Bound mode l past) : Conducts (Ordered lib mode)
    (fun _ past' => Told mode l past' ∧ ∀ e ∈ past', e.call.spawns = false) past
    (onManager notifyReady) := by
  refine h.conducts_notifyReady.traced.imp ?_
  rintro _ _ ⟨⟨hholding, hstill⟩, part, rfl, hrun⟩
  exact ⟨⟨hholding, past, part, [], (List.append_nil _).symm, hrun⟩, hstill⟩

/-- What is known when the heartbeat can be started. -/
structure Startable (mode : UInt32) (l : ℕ) (past : List GateDone) : Prop
    extends Told mode l past where
  /-- It has not been started yet. -/
  still : ∀ e ∈ past, e.call.spawns = false

theorem Startable.append {part : List GateDone} (h : Startable mode l past)
    (hpart : ∀ e ∈ part, e.call.Plain) : Startable mode l (past ++ part) where
  toTold := h.toTold.append fun e he => (hpart e he).keeps
  still e he := (List.mem_append.mp he).elim (h.still e) fun he => (hpart e he).still

theorem Startable.concat (h : Startable mode l past) {c : GateCall} (hc : c.Plain) (r : c.Reply) :
    Startable mode l (past ++ [⟨c, r⟩]) :=
  h.append fun _ he => List.mem_singleton.mp he ▸ hc

/-- The interval is read from the environment. -/
theorem Startable.readHeartbeatInterval (h : Startable mode l past) : Conducts (Ordered lib mode)
    (fun interval past' => Startable mode l past' ∧
      ∀ d, interval = some d → ∃ window, ToldWindow past' d window)
    past (onManager readHeartbeatInterval) := by
  have hid : (GateCall.manager .processId).Plain := ⟨fun _ _ _ => trivial, rfl, rfl, rfl⟩
  refine ⟨trivial, fun watchdogUsec => ⟨trivial, fun watchdogPid =>
    ⟨trivial, fun currentPid => ?_⟩⟩⟩
  have husec := h.concat (plain_var "WATCHDOG_USEC") watchdogUsec
  have hread := (husec.concat (plain_var "WATCHDOG_PID") watchdogPid).concat hid currentPid
  refine ⟨hread, fun d hd => ?_⟩
  obtain ⟨-, window, hwindow, -⟩ := heartbeatFrom_eq_some.mp hd
  exact ⟨window, watchdogUsec, watchdogPid, currentPid, by simp, by simp, by simp, hd, hwindow⟩

variable {socket : Socket} {interval : Duration} {window : UInt64}

/-- The heartbeat is started, with a ceiling for idle ticks only if the timeout has been set. -/
theorem Startable.spawn {liveness : Liveness} (h : Startable mode l past)
    (hwatched : ToldWindow past interval window)
    (hceiling : liveness.idleTickCeiling ≠ none → TimeoutSet lib past l interval ∧
      ∃ ceiling, interval.checkedMul 3 = some ceiling ∧
        liveness.idleTickCeiling = some ceiling.toNanos) :
    Conducts (Ordered lib mode) (fun _ => Told mode l) past
      (gate (.spawnHeartbeat interval liveness) >>= fun reply => pure reply.isOk) :=
  ⟨⟨h.announced, h.still, ⟨window, hwatched⟩, l, h.holding, hceiling⟩,
    fun reply => h.toTold.concat rfl reply⟩

/-- Without an accept timeout, the heartbeat is started without a ceiling for idle ticks. -/
theorem Startable.spawn_unarmed {error : IoError} (h : Startable mode l past)
    (hwatched : ToldWindow past interval window) :
    Conducts (Ordered lib mode) (fun _ => Told mode l) past
      (eprintln (timeoutUnavailable error) >>= fun _ =>
        gate (.spawnHeartbeat interval .new) >>= fun reply => pure reply.isOk) := by
  refine ⟨trivial, fun _ => ?_⟩
  have hlater := h.concat (plain_eprintln (timeoutUnavailable error)) ()
  exact hlater.spawn hwatched.append fun hceiling => absurd rfl hceiling

/-- Setting the accept timeout is plain, and its success is on the record. -/
theorem Startable.setAcceptTimeout (h : Startable mode socket.listener past)
    (hwatched : ToldWindow past interval window) :
    Conducts (Ordered lib mode) (fun armed past' => Startable mode socket.listener past' ∧
        ToldWindow past' interval window ∧
        (armed = some (.ok ()) → TimeoutSet lib past' socket.listener interval))
      past (socket.setAcceptTimeoutSteps lib interval) := by
  unfold Socket.setAcceptTimeoutSteps
  split
  · exact ⟨h, hwatched, nofun⟩
  · rename_i micros hmicros
    split
    · exact ⟨h, hwatched, nofun⟩
    · rename_i tv htv
      have hplain : (GateCall.setReceiveTimeout socket.listener tv).Plain :=
        ⟨fun _ _ _ => trivial, rfl, rfl, rfl⟩
      refine ⟨trivial, fun reply => ⟨h.concat hplain reply, hwatched.append, ?_⟩⟩
      rintro ⟨rfl⟩
      exact ⟨micros, tv, hmicros, htv, by simp⟩

theorem Startable.conducts_startHeartbeat {interval : Option Duration}
    (h : Startable mode socket.listener past)
    (hwatched : ∀ d, interval = some d → ∃ window, ToldWindow past d window) :
    Conducts (Ordered lib mode) (fun _ => Told mode socket.listener) past
      (startHeartbeat lib socket interval) := by
  cases interval with
  | none => exact h.toTold
  | some interval =>
    obtain ⟨window, hwatched⟩ := hwatched interval rfl
    apply conducts_bind.mpr
    refine (h.setAcceptTimeout hwatched).imp ?_
    rintro armed past' ⟨hlater, hwatched, harmed⟩
    rcases armed with _ | error | _
    · exact hlater.toTold
    · exact hlater.spawn_unarmed hwatched
    · cases hceiling : interval.checkedMul 3 with
      | none => exact hlater.toTold
      | some ceiling => exact hlater.spawn hwatched fun _ => ⟨harmed rfl, ceiling, hceiling, rfl⟩

/-! ### The loop and the drop -/

/-- What the loop does: it accepts on its listener, and everything else is plain. -/
def GateCall.Serving (l : ℕ) (c : GateCall) : Prop := c = .sys (.accept l) ∨ c.Plain

theorem GateCall.Serving.keeps {c : GateCall} (h : c.Serving l) : c.keepsSocket = true := by
  rcases h with rfl | h
  · rfl
  · exact h.keeps

theorem serving_plain {c : GateCall} (hany : ∀ lib mode past, Ordered lib mode past c)
    (hquiet : c.keepsSocket = true ∧ c.sends = false ∧ c.spawns = false) : c.Serving l :=
  .inr ⟨hany, hquiet.1, hquiet.2.1, hquiet.2.2⟩

theorem serving_answers {c : GateCall} (h : c.answers = true) : c.Serving l := by
  cases c with
  | sys c =>
    cases c with
    | eprintln text => exact .inr (plain_eprintln text)
    | _ => cases h
  | name | now | readToEnd | writeln | hangUp =>
    exact serving_plain (fun _ _ _ => trivial) ⟨rfl, rfl, rfl⟩
  | _ => cases h

theorem serving_accepts {c : GateCall} (h : c.accepts l = true) : c.Serving l := by
  cases c with
  | sys c =>
    cases c with
    | accept i =>
      obtain rfl : i = l := beq_iff_eq.mp h
      exact .inl rfl
    | peerCredentials | setReadTimeout => exact serving_plain (fun _ _ _ => trivial) ⟨rfl, rfl, rfl⟩
    | _ => cases h
  | _ => cases h

theorem serving_turn {α : Type} [Authorizer α] {authorizer : α} {served : ℕ} :
    Only (GateCall.Serving socket.listener) (turn authorizer socket served) :=
  only_turn (fun _ => serving_accepts) (fun _ => serving_answers)
    fun _ => serving_plain (fun _ _ _ => trivial) ⟨rfl, rfl, rfl⟩

/-- Nothing that the loop does is out of order. -/
theorem Told.serving (h : Told mode l past) (hg : Only (GateCall.Serving l) g) :
    Conducts (Ordered lib mode) (fun _ => Told mode l) past g := by
  refine Conducts.imp (hg.conducts fun part c hpart hc => ?_) ?_
  · rcases hc with rfl | hc
    · have htold := h.append fun e he => (hpart e he).keeps
      exact ⟨htold.announced, htold.holding⟩
    · exact hc.anytime lib mode _
  · rintro _ _ ⟨part, rfl, hpart⟩
    exact h.append fun e he => (hpart e he).keeps

variable {socketPath : String} {limit : Option ℕ} {n : ℕ}

theorem Bound.conducts_serveOn (h : Bound mode socket.listener past) :
    Conducts (Ordered lib mode) (fun _ past' => Holding mode past' socket.listener) past
      (serveOn lib socketPath limit n socket) := by
  apply conducts_bind.mpr
  refine (h.plain plain_nixUid).imp fun uid past₁ h => ?_
  have hactivity : GateCall.newActivity.Plain := ⟨fun _ _ _ => trivial, rfl, rfl, rfl⟩
  refine conducts_gate trivial fun _ => ?_
  have h := h.concat hactivity ()
  apply conducts_bind.mpr
  refine h.told.imp fun _ past₂ ⟨htold, hstill⟩ => ?_
  have h : Startable mode socket.listener past₂ := ⟨htold, hstill⟩
  apply conducts_bind.mpr
  refine h.readHeartbeatInterval.imp fun interval past₃ ⟨h, hwatched⟩ => ?_
  apply conducts_bind.mpr
  refine (h.conducts_startHeartbeat hwatched).imp fun started past₄ h => ?_
  cases started with
  | false => exact h.holding
  | true =>
    refine conducts_gate trivial fun _ => ?_
    have h := h.concat (c := .sys (.eprintln (servingOn socketPath))) rfl ()
    apply conducts_bind.mpr
    refine (h.serving (only_repeatWhile (fun _ => serving_turn) n 0)).imp ?_
    intro ended past₅ h
    cases ended with
    | none => exact h.holding
    | some served => exact h.holding

/-- **Order of the startup.** Every operation of the daemon is in order, and what it has done
when it returns, after a bind that has succeeded, ends with the drop of the socket. -/
theorem conducts_serve : Conducts (Ordered lib 0o660)
    (fun ended past' => ended = .returned ∨ ended = .panicked →
      ∃ before l reply, Holding 0o660 before l ∧
        past' = before ++ [⟨.sys .removeFile, reply⟩, ⟨.sys (.close l), ()⟩])
    [] (serve lib socketPath limit n) := by
  apply conducts_bind.mpr
  refine conducts_bindSocket.imp fun bound past₁ h => ?_
  cases bound with
  | error e => exact nofun
  | ok socket =>
    apply conducts_bind.mpr
    refine h.bound.conducts_serveOn.imp fun ended past₂ h => ?_
    cases ended with
    | running => exact nofun
    | refused error =>
      exact ⟨trivial, fun reply => ⟨trivial, fun _ => nofun⟩⟩
    | returned | panicked =>
      refine ⟨trivial, fun reply => ⟨trivial, fun _ _ => ?_⟩⟩
      exact ⟨past₂, socket.listener, reply, h, List.append_assoc ..⟩

end Order

end UdsPolicy
