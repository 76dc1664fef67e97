import Mathlib.Data.Int.Notation
import Mathlib.Logic.Function.Basic
import UdsPolicy.General.Access

/-!
# The kernel's side of one socket path

Everything that happens to a daemon's socket happens to one directory entry and
to the inodes that the entry has named. An inode outlives the entry that named
it, a listener outlives neither its process nor a `close`, and inodes are never
reused: they are numbered in the order of their creation. A system call can fail
for reasons that are not part of this state, such as permissions on the directory
or an unreachable directory service. Such a failure is passed in as a `fault` and
has no effect.
-/

namespace UdsPolicy

/-- One use of `Socket::bind` and of the `Socket` it returns. A process that binds
twice is two agents, and its death is the death of both. -/
abbrev Agent := ℕ

/-- The error kinds that the code distinguishes, and all the others. -/
inductive ErrorKind
  | notFound | connectionRefused | addrInUse | isADirectory | wouldBlock | timedOut
  | other (code : ℕ)
  deriving DecidableEq, Repr

/-- An error of the standard library: its kind and its text. -/
structure IoError where
  /-- The kind that callers match on. -/
  kind : ErrorKind
  /-- The text that `Display` prints. -/
  text : String
  deriving DecidableEq, Repr

/-- What a path leads to when no symbolic link is left to follow. -/
inductive Node
  | file | directory
  | socket (ino : ℕ)
  deriving DecidableEq, Repr

/-- A directory entry: a node, or a symbolic link with the node it leads to, if any. -/
inductive Entry
  | node (n : Node)
  | symlink (target : Option Node)
  deriving DecidableEq, Repr

/-- The node behind an entry, links followed. -/
def Entry.resolve : Entry → Option Node
  | .node n => some n
  | .symlink target => target

/-- The file types that `symlink_metadata` distinguishes. -/
inductive FileType
  | file | directory | symlink | socket
  deriving DecidableEq, Repr

/-- The type of the entry itself, links not followed. -/
def Entry.fileType : Entry → FileType
  | .node .file => .file
  | .node .directory => .directory
  | .node (.socket _) => .socket
  | .symlink _ => .symlink

/-- `FileTypeExt::is_socket`. -/
def FileType.isSocket : FileType → Bool
  | .socket => true
  | _ => false

/-- The process behind a listener: one of the agents, or some other process that was
listening before any of them started. -/
inductive Holder
  | stranger
  | agent (a : Agent)
  deriving DecidableEq, Repr

/-- A connection, which is also the stream that the accepting side has of it. -/
structure Connection where
  /-- How many connections were made before it. -/
  serial : ℕ
  /-- The credentials of the process that made it. -/
  peer : Cred
  deriving DecidableEq, Repr

/-- A socket inode. -/
structure Inode where
  /-- Who may connect. -/
  access : Access
  /-- Who listens, if anybody. -/
  listener : Option Holder
  /-- Connections made and not yet accepted, oldest first. -/
  backlog : List Connection

/-- The attributes of a daemon process that its system calls depend on. -/
structure Process where
  /-- Its credentials. -/
  cred : Cred
  /-- Its file mode creation mask. -/
  umask : UInt32

/-- The state of the path, of the inodes and of the group database. -/
structure Kernel where
  /-- What the path names. -/
  entry : Option Entry
  /-- The inodes, of which those below `nextIno` exist. -/
  inode : ℕ → Inode
  /-- The serial number of the next inode. -/
  nextIno : ℕ
  /-- The group of the directory, if what is created there gets it: the directory has the
  set-group-ID bit. -/
  directoryGroup : Option UInt32
  /-- How many connections have been made. -/
  connections : ℕ
  /-- The group ids that the name service has for group names. -/
  groupGid : String → Option UInt32
  /-- What has been written to standard error. -/
  stderr : List String

namespace Kernel

/-- The node that the path leads to. -/
def target (k : Kernel) : Option Node := k.entry.bind Entry.resolve

/-- The socket inode that the entry itself is. -/
def socketAt (k : Kernel) : Option ℕ :=
  match k.entry with
  | some (.node (.socket i)) => some i
  | _ => none

/-- Change one inode. -/
def modifyInode (k : Kernel) (i : ℕ) (f : Inode → Inode) : Kernel :=
  { k with inode := Function.update k.inode i (f (k.inode i)) }

/-- `symlink_metadata`, reduced to the file type. -/
def symlinkMetadata (k : Kernel) : Except IoError FileType :=
  match k.entry with
  | none => .error ⟨.notFound, "No such file or directory (os error 2)"⟩
  | some e => .ok e.fileType

/-- A new connection joins the queue of a listener. -/
def enqueue (k : Kernel) (i : ℕ) (c : Cred) : Kernel :=
  { k.modifyInode i fun n => { n with backlog := n.backlog ++ [⟨k.connections, c⟩] } with
    connections := k.connections + 1 }

/-- `connect(2)` with its permission check left to the caller: a listening socket takes
the connection, and whatever has no listener refuses it. -/
def connect (k : Kernel) (c : Cred) : Except IoError Unit × Kernel :=
  match k.target with
  | none => (.error ⟨.notFound, "No such file or directory (os error 2)"⟩, k)
  | some (.socket i) =>
    if (k.inode i).listener.isSome then (.ok (), k.enqueue i c)
    else (.error ⟨.connectionRefused, "Connection refused (os error 111)"⟩, k)
  | some _ => (.error ⟨.connectionRefused, "Connection refused (os error 111)"⟩, k)

/-- `unlink(2)`: whatever the path names at this moment is removed, except a directory. -/
def removeFile (k : Kernel) : Except IoError Unit × Kernel :=
  match k.entry with
  | none => (.error ⟨.notFound, "No such file or directory (os error 2)"⟩, k)
  | some (.node .directory) => (.error ⟨.isADirectory, "Is a directory (os error 21)"⟩, k)
  | some _ => (.ok (), { k with entry := none })

/-- A created inode has mode `0777` without the bits of the mask, and belongs to its creator and
to the group of the creator, or to that of the directory. -/
def createdAccess (directoryGroup : Option UInt32) (p : Process) : Access :=
  ⟨0o777 &&& ~~~p.umask, p.cred.uid, directoryGroup.getD p.cred.gid⟩

/-- `UnixListener::bind`: create the socket inode and listen on it, unless the path names
something already. -/
def bindListener (k : Kernel) (a : Agent) (p : Process) : Except IoError ℕ × Kernel :=
  match k.entry with
  | some _ => (.error ⟨.addrInUse, "Address already in use (os error 98)"⟩, k)
  | none => (.ok k.nextIno,
      { k with
        entry := some (.node (.socket k.nextIno))
        inode := Function.update k.inode k.nextIno
          ⟨createdAccess k.directoryGroup p, some (.agent a), []⟩
        nextIno := k.nextIno + 1 })

/-- A change of attributes by path, links followed. Only those of sockets are recorded. -/
def setAttributes (k : Kernel) (f : Access → Access) : Except IoError Unit × Kernel :=
  match k.target with
  | none => (.error ⟨.notFound, "No such file or directory (os error 2)"⟩, k)
  | some (.socket i) => (.ok (), k.modifyInode i fun n => { n with access := f n.access })
  | some _ => (.ok (), k)

/-- `accept(2)`: the oldest connection in the backlog. An empty backlog makes a listener with a
receive timeout report that it would block. -/
def accept (k : Kernel) (i : ℕ) : Except IoError Connection × Kernel :=
  match (k.inode i).backlog with
  | [] => (.error ⟨.wouldBlock, "Resource temporarily unavailable (os error 11)"⟩, k)
  | c :: rest => (.ok c, k.modifyInode i fun n => { n with backlog := rest })

/-- Close a listener. The inode stays, and pending connections are reset. -/
def close (k : Kernel) (i : ℕ) : Kernel :=
  k.modifyInode i fun n => { n with listener := none, backlog := [] }

end Kernel

/-- The timeval of `SO_RCVTIMEO`. -/
structure TimeVal where
  /-- Seconds. -/
  sec : ℤ
  /-- Microseconds beyond them. -/
  usec : ℤ
  deriving DecidableEq, Repr

/-- How many microseconds a timeval is. -/
def TimeVal.micros (tv : TimeVal) : ℤ := 1000000 * tv.sec + tv.usec

/-- `i64::MAX`. -/
def i64Max : ℕ := 9223372036854775807

/-- The error of a deadline of nothing. -/
def zeroTimeout : IoError := ⟨.other 22, "cannot set a 0 duration timeout"⟩

/-- The timeval that `UnixStream::set_read_timeout` hands to the kernel, for a deadline in
nanoseconds. -/
def readTimeVal : Option ℕ → Except IoError TimeVal
  | none => .ok ⟨0, 0⟩
  | some nanos =>
    let sec := min (nanos / 1000000000) i64Max
    let usec := nanos % 1000000000 / 1000
    if nanos = 0 then .error zeroTimeout
    -- Less than a microsecond would be no timeout at all.
    else if sec = 0 ∧ usec = 0 then .ok ⟨0, 1⟩
    else .ok ⟨sec, usec⟩

/-- Only a deadline of nothing is refused. -/
theorem exists_readTimeVal {timeout : Option ℕ} (h : timeout ≠ some 0) :
    ∃ tv, readTimeVal timeout = .ok tv := by
  cases timeout with
  | none => exact ⟨_, rfl⟩
  | some nanos =>
    have hpos : nanos ≠ 0 := fun hzero => h (congrArg some hzero)
    simp only [readTimeVal, if_neg hpos]
    split <;> exact ⟨_, rfl⟩

/-- The operations that the socket code performs: the calls on the path, the group lookup,
the message to the journal, the release of the listener, and the calls on a connection. -/
inductive Syscall
  | exists_ | symlinkMetadata | connect | removeFile | bindListener
  | setPermissions (mode : UInt32)
  | groupFromName (name : String)
  | chown (gid : UInt32)
  | eprintln (line : String)
  | close (ino : ℕ)
  | accept (ino : ℕ)
  | peerCredentials (stream : Connection)
  | setReadTimeout (stream : Connection) (timeout : Option ℕ)
  deriving DecidableEq, Repr

/-- What each operation returns. -/
abbrev Syscall.Reply : Syscall → Type
  | .exists_ => Bool
  | .symlinkMetadata => Except IoError FileType
  | .connect | .removeFile | .setPermissions _ | .chown _ | .setReadTimeout _ _ =>
    Except IoError Unit
  | .bindListener => Except IoError ℕ
  | .accept _ => Except IoError Connection
  | .peerCredentials _ => Except IoError Cred
  | .groupFromName _ => Except IoError (Option UInt32)
  | .eprintln _ | .close _ => Unit

/-- The reply to an operation that fails for a reason outside the modelled state. Writing
to the journal and closing a descriptor report no failure. -/
def Syscall.failed : (c : Syscall) → IoError → c.Reply
  | .exists_, _ => false
  | .symlinkMetadata, e => .error e
  | .connect, e | .removeFile, e | .setPermissions _, e | .chown _, e => .error e
  | .setReadTimeout _ _, e => .error e
  | .bindListener, e => .error e
  | .accept _, e => .error e
  | .peerCredentials _, e => .error e
  | .groupFromName _, e => .error e
  | .eprintln _, _ | .close _, _ => ()

/-- The failures that an operation may have for reasons outside the modelled state. The
refusal of a connection is not one: the kernel refuses exactly when nobody listens. A message
that cannot be written is not one either: the macro panics, which ends the process, and a process
can end at any moment. -/
def Syscall.mayFail : Syscall → IoError → Bool
  | .connect, e => e.kind != .connectionRefused
  | .eprintln _, _ | .close _, _ => false
  | _, _ => true

/-- The reply to an operation and its effect, when no outside reason makes it fail. -/
def Kernel.perform (k : Kernel) (a : Agent) (p : Process) : (c : Syscall) → c.Reply × Kernel
  | .exists_ => (k.target.isSome, k)
  | .symlinkMetadata => (k.symlinkMetadata, k)
  | .connect => k.connect p.cred
  | .removeFile => k.removeFile
  | .bindListener => k.bindListener a p
  | .setPermissions mode => k.setAttributes fun s => s.chmod p.cred mode
  | .groupFromName name => (.ok (k.groupGid name), k)
  | .chown gid => k.setAttributes fun s => s.chgrp gid
  | .eprintln line => ((), { k with stderr := k.stderr ++ [line] })
  | .close i => ((), k.close i)
  | .accept i => k.accept i
  | .peerCredentials stream => (.ok stream.peer, k)
  | .setReadTimeout _ timeout => ((readTimeVal timeout).map fun _ => (), k)

/-- Answer an operation: with the given failure, or by performing it. -/
def Kernel.exec (k : Kernel) (a : Agent) (p : Process) (fault : Option IoError) (c : Syscall) :
    c.Reply × Kernel :=
  match fault with
  | some e => (c.failed e, k)
  | none => k.perform a p c

end UdsPolicy
