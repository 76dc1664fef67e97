import UdsPolicy.General.Runs
import UdsPolicy.Socket.Bind

/-!
# Daemons, clients and an operator around one path

A world is the kernel's state together with every agent's place in the code. One
action performs one operation of one agent, or is something that happens to the
path from outside: a process is killed, an operator or a cleaner removes the
entry, a client connects. Schedules of actions are the interleavings that the
statements about the socket range over.
-/

namespace UdsPolicy

/-- Where an agent is in its use of the socket. -/
inductive AgentState
  /-- Not started, killed, or done. -/
  | idle
  /-- In `Socket::bind`. -/
  | binding (process : Process) (config : SocketConfig) (pc : BindPc)
  /-- `Socket::bind` has returned an error. -/
  | refused (error : BindError)
  /-- `Socket::bind` has returned a socket, which has not been dropped. -/
  | holding (process : Process) (socket : Socket)
  /-- In the drop of its socket. -/
  | dropping (process : Process) (socket : Socket) (pc : DropPc)

namespace AgentState

/-- The state after a step of `Socket::bind`, which may have been its return. -/
def afterBind (process : Process) (config : SocketConfig) : BindPc → AgentState
  | .returned (.ok socket) => .holding process socket
  | .returned (.error error) => .refused error
  | pc => .binding process config pc

/-- The state after a step of the drop, which may have been its last. -/
def afterDrop (process : Process) (socket : Socket) : DropPc → AgentState
  | .returned => .idle
  | pc => .dropping process socket pc

/-- The listener that `Socket::bind` holds at a control point. -/
def bindListener : BindPc → Option ℕ
  | .setPermissions i | .cleanUp i _ | .closeListener i _ | .groupFromName i _
  | .chown i _ _ | .eprintln i _ => some i
  | _ => none

/-- The listener whose descriptor an agent has open. -/
def listener : AgentState → Option ℕ
  | .binding _ _ pc => bindListener pc
  | .holding _ socket | .dropping _ socket .removeFile | .dropping _ socket .close =>
    some socket.listener
  | .idle | .refused _ | .dropping _ _ .returned => none

/-- The socket that an agent has bound and not begun to drop. -/
def socket? : AgentState → Option Socket
  | .holding _ socket => some socket
  | _ => none

/-- Whether an agent is in the middle of a bind or a drop. -/
def busy : AgentState → Bool
  | .binding .. | .dropping .. => true
  | _ => false

end AgentState

/-- The kernel's state and the agents' places in the code. -/
structure World where
  /-- The path, the inodes and the group database. -/
  kernel : Kernel
  /-- Where each agent is. -/
  agents : Agent → AgentState
  /-- How many inodes existed when an agent last probed the path. Nothing reads it; it is
  there to state what has happened since the probe. -/
  probed : Agent → ℕ
  /-- What `Socket::accept` has returned, oldest first. -/
  accepted : List (Agent × Connection × Caller)

/-- What can happen next. -/
inductive Action
  /-- An agent calls `Socket::bind`. -/
  | start (a : Agent) (process : Process) (config : SocketConfig)
  /-- An agent performs the next operation of its bind or drop. -/
  | step (a : Agent) (fault : Option IoError)
  /-- An agent begins to drop its socket. -/
  | beginDrop (a : Agent)
  /-- An agent's process dies, or its bind panics because a message cannot be written; the kernel
  closes what it had open. -/
  | kill (a : Agent)
  /-- A listener that is none of the agents closes. -/
  | strangerCloses (i : ℕ)
  /-- An operator or a cleaner removes the entry. -/
  | removeEntry
  /-- A client calls `connect(2)`, which fails without write permission. -/
  | clientConnects (c : Cred)
  /-- An agent calls `Socket::accept`, whose operations may fail. -/
  | accept (a : Agent) (faults : Syscall → Option IoError)

/-- The agent whose place in the code an action can change. -/
def Action.agent? : Action → Option Agent
  | .start a _ _ | .step a _ | .beginDrop a | .kill a => some a
  | .strangerCloses _ | .removeEntry | .clientConnects _ | .accept _ _ => none

/-- One operation at a control point. There is none once the program has returned, and
none for a failure that the operation cannot have. -/
def advance {α π : Type} (next : π → Prog.Head Syscall Syscall.Reply α π) (k : Kernel) (a : Agent)
    (p : Process) (fault : Option IoError) (pc : π) : Option (π × Kernel) :=
  match next pc with
  | .ret _ => none
  | .call c succ =>
    if fault.all c.mayFail then some (succ (k.exec a p fault c).1, (k.exec a p fault c).2)
    else none

namespace Kernel

/-- A client's `connect(2)`: a listening inode takes the connection if the client may write
to it, and otherwise nothing changes. -/
def clientConnects (k : Kernel) (c : Cred) : Kernel :=
  match k.target with
  | some (.socket i) => if (k.inode i).access.mayWrite c then (k.connect c).2 else k
  | _ => k

end Kernel

namespace World

/-- Change an agent's state. -/
def setAgent (w : World) (a : Agent) (s : AgentState) : World :=
  { w with agents := Function.update w.agents a s }

/-- The world after an operation of `Socket::bind` at the control point `pc`. -/
def afterBindStep (w : World) (a : Agent) (process : Process) (config : SocketConfig) (pc : BindPc)
    (out : BindPc × Kernel) : World :=
  { w with
    kernel := out.2
    agents := Function.update w.agents a (.afterBind process config out.1)
    probed :=
      match pc with
      | .connect => Function.update w.probed a w.kernel.nextIno
      | _ => w.probed }

/-- The world after an operation of a drop. -/
def afterDropStep (w : World) (a : Agent) (process : Process) (socket : Socket)
    (out : DropPc × Kernel) : World :=
  { w with
    kernel := out.2
    agents := Function.update w.agents a (.afterDrop process socket out.1) }

/-- Close whatever listener an agent has open, as the death of its process does. -/
def closeOf (w : World) (a : Agent) : Kernel :=
  match (w.agents a).listener with
  | some i => w.kernel.close i
  | none => w.kernel

/-- Run `Socket::accept` to its end. -/
def runAccept (w : World) (a : Agent) (process : Process) (socket : Socket)
    (faults : Syscall → Option IoError) : World :=
  let exec := fun c k => Kernel.exec k a process (faults c) c
  match (socket.accept : Sys _).runWith exec w.kernel with
  | (.ok (stream, caller), k) =>
    { w with kernel := k, accepted := w.accepted ++ [(a, stream, caller)] }
  | (.error _, k) => { w with kernel := k }

/-- One action, or `none` if it cannot happen here. -/
def step (w : World) : Action → Option World
  | .start a process config =>
    match w.agents a with
    | .idle | .refused _ => some (w.setAgent a (.binding process config .exists_))
    | _ => none
  | .step a fault =>
    match w.agents a with
    | .binding process config pc =>
      (advance (BindPc.next config) w.kernel a process fault pc).map
        (w.afterBindStep a process config pc)
    | .dropping process socket pc =>
      (advance (DropPc.next socket) w.kernel a process fault pc).map
        (w.afterDropStep a process socket)
    | _ => none
  | .beginDrop a =>
    match w.agents a with
    | .holding process socket => some (w.setAgent a (.dropping process socket .removeFile))
    | _ => none
  | .kill a => some ({ w with kernel := w.closeOf a }.setAgent a .idle)
  | .strangerCloses i =>
    match (w.kernel.inode i).listener with
    | some .stranger => some { w with kernel := w.kernel.close i }
    | _ => none
  | .removeEntry => some { w with kernel := w.kernel.removeFile.2 }
  | .clientConnects c => some { w with kernel := w.kernel.clientConnects c }
  | .accept a faults =>
    match w.agents a with
    | .holding process socket => some (w.runAccept a process socket faults)
    | _ => none

/-- Nobody is in the middle of a bind or a drop. -/
def AtRest (w : World) : Prop := ∀ a, (w.agents a).busy = false

/-- A schedule performed from a world. -/
abbrev run (w : World) (as : List Action) : Option World := Runs.run World.step w as

/-- A world before any agent has started. The path may name anything, and strangers may be
listening. -/
structure Initial (w : World) : Prop where
  /-- No agent has started. -/
  idle : ∀ a, w.agents a = .idle
  /-- A socket under the path is an existing inode. -/
  existing : ∀ i, w.kernel.socketAt = some i → i < w.kernel.nextIno
  /-- Only existing inodes have listeners. -/
  listening : ∀ i, (w.kernel.inode i).listener ≠ none → i < w.kernel.nextIno
  /-- Whoever listens is a stranger. -/
  strangers : ∀ i a, (w.kernel.inode i).listener ≠ some (.agent a)
  /-- Nothing has been accepted. -/
  accepted : w.accepted = []

/-- A daemon started as root with an empty umask. -/
def rootProcess : Process := ⟨⟨1, 0, 0, []⟩, 0⟩

/-- A world with a free path and a group database that knows every group by one id, or none. -/
def freePath (given : Option UInt32) : World where
  kernel :=
    { entry := none
      inode := fun _ => ⟨⟨0o755, 0, 0⟩, none, []⟩
      nextIno := 0
      directoryGroup := none
      connections := 0
      groupGid := fun _ => given
      stderr := [] }
  agents := fun _ => .idle
  probed := fun _ => 0
  accepted := []

theorem freePath_initial (given : Option UInt32) : (freePath given).Initial where
  idle _ := rfl
  existing i hi := by cases hi
  listening _ hi := absurd rfl hi
  strangers _ _ hi := by cases hi
  accepted := rfl

end World

end UdsPolicy
