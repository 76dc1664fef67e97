import UdsPolicy.General.Conduct
import UdsPolicy.General.Lossy
import UdsPolicy.Audit.Operation
import UdsPolicy.Authorization
import UdsPolicy.NameCache
import UdsPolicy.Socket.Bind
import UdsPolicy.Watchdog.Arming
import UdsPolicy.Watchdog.Notify
import UdsPolicy.Watchdog.Verdict

/-!
# The example daemon

The whole of the serve thread: it takes the socket, tells the service manager,
arms the watchdog, and answers one connection after another. The code of the
policy layer that it calls is the code modelled elsewhere, embedded with all of
its operations, so that a history of this program has every system call in it,
every line of the journal, every look into the name cache and every stamp.
-/

namespace UdsPolicy

/-- The operations of the serve thread. -/
inductive GateCall
  /-- An operation of the socket code, or a line to standard error. -/
  | sys (c : Syscall)
  /-- An operation of `name_for_uid`. -/
  | name (c : NameCall)
  /-- An operation of the client of the service manager. -/
  | manager (c : ManagerCall)
  /-- `Instant::now`. -/
  | now
  /-- `ServeActivity::new`. -/
  | newActivity
  /-- A stamp into the record that the heartbeat reads. -/
  | stamp (s : Stamp)
  /-- `UnixStream::pair`, by the first of its ends. -/
  | socketPair
  /-- `setsockopt` with `ReceiveTimeout` on a listener. -/
  | setReceiveTimeout (listener : ℕ) (timeout : TimeVal)
  /-- `std::thread::spawn` of the heartbeat. -/
  | spawnHeartbeat (interval : Duration) (liveness : Liveness)
  /-- `read_to_end`. -/
  | readToEnd (stream : Connection)
  /-- `writeln!` to a stream. -/
  | writeln (stream : Connection) (text : String)
  /-- The end of a stream's scope. -/
  | hangUp (stream : Connection)

/-- What each operation returns. A thread that could not be started is an error. -/
abbrev GateCall.Reply : GateCall → Type
  | .sys c => c.Reply
  | .name c => c.Reply
  | .manager c => c.Reply
  | .now => ℕ
  | .newActivity | .stamp _ | .hangUp _ => Unit
  | .socketPair => Except IoError Connection
  | .setReceiveTimeout _ _ | .spawnHeartbeat _ _ | .writeln _ _ => Except IoError Unit
  | .readToEnd _ => Except IoError ByteArray

/-- Programs over the operations of the serve thread. -/
abbrev Gate := Prog GateCall GateCall.Reply

/-- Perform one operation of the serve thread. -/
def gate (c : GateCall) : Gate c.Reply := Prog.issue c

/-- Socket code as a part of the serve thread. -/
def onSocket {α : Type} (g : Sys α) : Gate α := g.interpret fun c => gate (.sys c)

/-- A look at the name cache as a part of the serve thread. -/
def onNames {α : Type} (g : Naming α) : Gate α := g.interpret fun c => gate (.name c)

/-- A message to the service manager as a part of the serve thread. -/
def onManager {α : Type} (g : Managed α) : Gate α := g.interpret fun c => gate (.manager c)

/-- A line to standard error. -/
def eprintln (line : String) : Gate Unit := gate (.sys (.eprintln line))

/-- `Display for Caller`, with the operations it takes. -/
def Caller.shown (caller : Caller) : Naming String :=
  match caller with
  | .peer _ uid _ => return caller.displayAs (← nameForUidSteps uid)
  | _ => return caller.displayAs none

namespace Operation

/-- `Operation::begin`, with the operations it takes. -/
def beginSteps (service : String) (call : Call) (caller : Caller) : Gate Operation := do
  let started ← gate .now
  match call.authorization with
  | .unprivileged => return ⟨service, none, started⟩
  | .policy action =>
    let label := labelOf call action (← onNames caller.shown)
    eprintln (beginLine service label)
    return ⟨service, some label, started⟩

/-- `Operation::finish`, with the operations it takes. -/
def finishSteps (o : Operation) (failure : Option String) : Gate Unit := do
  match o.label with
  | none => return
  | some label =>
    let now ← gate .now
    let millis := elapsedMillis o.started now
    match failure with
    | none => eprintln (okLine o.service label millis)
    | some reason => eprintln (failedLine o.service label millis reason)

end Operation

/-- The daemon's name. -/
def daemon : String := "echod"

/-- The action that `change` is gated by. -/
def changeAction : String := "org.example.thing.change"

/-- The one thing the daemon can be asked to do. -/
def change : Call := .gated "Thing" "Change" changeAction

/-- Why a request has failed that could not be read. -/
def unreadRequest (error : IoError) : String := s!"the request could not be read: {error.text}"

/-- Why a request has failed that could not be answered. -/
def unwrittenReply (error : IoError) : String := s!"the reply could not be written: {error.text}"

/-- What the client gets back. -/
def replyTo (said : ByteArray) : String := s!"{change.display} said: {Utf8.lossy said}"

/-- What the client is told that is refused. -/
def refusal (denial : Denial) : String := s!"refused: {denial.reason}"

/-- The message about a reply. -/
def answeredLine (shown : String) : String := s!"{daemon}: answered {shown}"

/-- The message about a refusal. -/
def refusedLine (shown : String) (denial : Denial) : String :=
  s!"{daemon}: refused {change.display} for {shown}: {denial.reason}"

/-- The placeholder protocol: read what the client sent, say it back. -/
def exchange (stream : Connection) (caller : Caller) : Gate (Except String Unit) := do
  match ← gate (.readToEnd stream) with
  | .error error => return .error (unreadRequest error)
  | .ok said =>
    match ← gate (.writeln stream (replyTo said)) with
    | .error error => return .error (unwrittenReply error)
    | .ok _ =>
      -- Nothing from the payload reaches the journal; the caller does.
      eprintln (answeredLine (← onNames caller.shown))
      return .ok ()

/-- The failure that an outcome is reported with. -/
def failureOf : Except String Unit → Option String
  | .ok _ => none
  | .error reason => some reason

/-- Authorize, audit, and answer one connection, whose stream ends here. -/
def answer {α : Type} [Authorizer α] (authorizer : α) (stream : Connection) (caller : Caller) :
    Gate Unit := do
  match authorize authorizer change caller with
  | .error denial =>
    -- The refusal is decided before a byte of the request is read.
    eprintln (refusedLine (← onNames caller.shown) denial)
    let _gone ← gate (.writeln stream (refusal denial))
    gate (.hangUp stream)
  | .ok _ =>
    let audit ← Operation.beginSteps daemon change caller
    let outcome ← exchange stream caller
    audit.finishSteps (failureOf outcome)
    gate (.hangUp stream)

/-- One turn of the loop in `serve`. Returns how many connections have been served. -/
def turn {α : Type} [Authorizer α] (authorizer : α) (socket : Socket) (served : ℕ) : Gate ℕ := do
  let served ←
    match ← onSocket (ExceptT.run socket.accept) with
    | .ok (stream, caller) =>
      gate (.stamp (.callStarted .bounded))
      answer authorizer stream caller
      gate (.stamp .callFinished)
      pure (servedNext served)
    | .error error =>
      -- A timeout is the expected wakeup of an idle loop.
      if error.kind ≠ .wouldBlock ∧ error.kind ≠ .timedOut then
        eprintln (acceptFailed error)
      pure served
  gate (.stamp .tick)
  return served

/-- The loop in `serve`, for `n` turns at most. -/
def acceptLoop {α : Type} [Authorizer α] (authorizer : α) (socket : Socket) (limit : Option ℕ)
    (n : ℕ) : Gate (Option ℕ) :=
  Prog.repeatWhile (fun served => limit.all fun max => served < max) (turn authorizer socket) n 0

/-- This process's own user id, or root's if the kernel would not say. -/
def nixUid : Gate UInt32 := do
  match ← gate .socketPair with
  | .error _ => return 0
  | .ok here => return ((← onSocket (Caller.ofSocket here)).uid).getD 0

/-- `Socket::set_accept_timeout` with the operation it takes. A panic is `none`. -/
def Socket.setAcceptTimeoutSteps (lib : TimeLibrary) (socket : Socket)
    (timeout : Duration) : Gate (Option (Except IoError Unit)) :=
  match i64TryFrom timeout.asMicros with
  | none => return some (.error (timeoutOutOfRange lib))
  | some micros =>
    match lib.microseconds micros with
    | none => return none
    | some tv => return some (← gate (.setReceiveTimeout socket.listener tv))

/-- What `serve` does when the service manager watches the daemon: arm the accept timeout, and
start the heartbeat, which judges idle ticks only if that worked. A panic is `false`. -/
def startHeartbeat (lib : TimeLibrary) (socket : Socket) :
    Option Duration → Gate Bool
  | none => return true
  | some interval => do
    match ← socket.setAcceptTimeoutSteps lib interval with
    | none => return false
    | some (.ok _) =>
      match interval.checkedMul 3 with
      | none => return false
      | some ceiling =>
        let liveness := Liveness.new.withIdleTickCeiling ceiling.toNanos
        return (← gate (.spawnHeartbeat interval liveness)).isOk
    | some (.error error) =>
      eprintln (timeoutUnavailable error)
      return (← gate (.spawnHeartbeat interval .new)).isOk

/-- How `serve` ends, if it does. -/
inductive ServeEnd
  | refused (error : BindError)
  | panicked
  | returned
  | running

/-- The message about the start. -/
def servingOn (socketPath : String) : String := s!"{daemon}: serving on {socketPath}"

/-- What `serve` does with the socket it has taken, for `n` turns of the loop at most. -/
def serveOn (lib : TimeLibrary) (socketPath : String) (limit : Option ℕ)
    (n : ℕ) (socket : Socket) : Gate ServeEnd := do
  let authorizer := PeerGate.forUids [← nixUid]
  gate .newActivity
  onManager notifyReady
  if ← startHeartbeat lib socket (← onManager readHeartbeatInterval) then
    eprintln (servingOn socketPath)
    match ← acceptLoop authorizer socket limit n with
    | some _ => return .returned
    | none => return .running
  else
    return .panicked

/-- Bind, then answer connections until something stops the process. The socket is dropped when
the function returns, and also when it panics. -/
def serve (lib : TimeLibrary) (socketPath : String) (limit : Option ℕ)
    (n : ℕ) : Gate ServeEnd := do
  match ← onSocket (ExceptT.run (Socket.bind (.new daemon socketPath))) with
  | .error error => return .refused error
  | .ok socket =>
    match ← serveOn lib socketPath limit n socket with
    | .running => return .running
    | ended =>
      onSocket socket.drop
      return ended

end UdsPolicy
