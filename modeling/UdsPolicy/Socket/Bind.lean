import Mathlib.Algebra.Ring.Nat
import UdsPolicy.General.Programs
import UdsPolicy.Caller
import UdsPolicy.Socket.Kernel

/-!
# Taking, using and giving up the socket

The socket code as programs over the operations of `Syscall`, and the control
points at which `Socket::bind` can be interrupted. `bind_presents` and
`drop_presents` say that the control points are exactly those of the programs,
so that statements about interleaved control points are statements about the
code.
-/

namespace UdsPolicy

/-- Everything about the socket that a daemon might want to differ on. -/
structure SocketConfig where
  /-- The daemon's name, which prefixes its log lines. -/
  daemon : String
  /-- Where the socket lives. -/
  socketPath : String
  /-- The socket's file mode. -/
  socketMode : UInt32
  /-- The group to give the socket to, if any. -/
  socketGroup : Option String
  /-- The read deadline put on each accepted stream, in nanoseconds. -/
  requestReadTimeout : Option ℕ
  deriving DecidableEq, Repr

namespace SocketConfig

/-- Mode `0o660`, no group, and a 30-second read deadline on each accepted connection. -/
def new (daemon socketPath : String) : SocketConfig :=
  ⟨daemon, socketPath, 0o660, none, some (30 * 10 ^ 9)⟩

/-- Give the socket to a group. -/
def withSocketGroup (c : SocketConfig) (group : String) : SocketConfig :=
  { c with socketGroup := some group }

/-- Use a different file mode. -/
def withSocketMode (c : SocketConfig) (mode : UInt32) : SocketConfig :=
  { c with socketMode := mode }

/-- Change the read deadline put on each accepted connection. -/
def withRequestReadTimeout (c : SocketConfig) (timeout : Option ℕ) : SocketConfig :=
  { c with requestReadTimeout := timeout }

end SocketConfig

/-- Why a socket could not be taken. -/
inductive BindError
  /-- Something is listening on that path already, and answered. -/
  | alreadyActive (path : String)
  /-- The path exists and is not a socket. -/
  | notASocket (path : String)
  /-- The path exists, is a socket, and could not be shown to be stale. -/
  | unverifiable (path : String) (error : IoError)
  /-- Everything else. -/
  | io (error : IoError)
  deriving DecidableEq, Repr

/-- `Display for BindError`. -/
def BindError.display : BindError → String
  | .alreadyActive path => s!"a daemon is already serving {path}"
  | .notASocket path => s!"{path} exists and is not a socket, so it was left alone"
  | .unverifiable path error =>
    s!"{path} exists and could not be verified stale, so it was left alone: {error.text}"
  | .io error => error.text

/-- A bound socket: the inode its listener listens on, and its configuration. -/
structure Socket where
  /-- The listener, by the inode that `UnixListener::bind` created for it. -/
  listener : ℕ
  /-- The configuration it was bound with. -/
  config : SocketConfig
  deriving DecidableEq, Repr

/-- Programs over the operations of the socket code. -/
abbrev Sys := Prog Syscall Syscall.Reply

/-- Perform one operation. -/
def call (c : Syscall) : Sys c.Reply := Prog.issue c

/-- Perform one operation in a program that may return early. -/
def sys {ε : Type} (c : Syscall) : ExceptT ε Sys c.Reply := ExceptT.lift (call c)

/-- The `?` operator: go on with a value, or return the error in the caller's error type. -/
def orReturn {ε β : Type} (into : IoError → ε) (r : Except IoError β) : ExceptT ε Sys β :=
  match r with
  | .ok b => pure b
  | .error e => throw (into e)

/-- Remove a socket only once it has been shown that nothing is behind it. -/
def reclaimStaleSocket (socketPath : String) : ExceptT BindError Sys Unit := do
  let metadata ← orReturn .io (← sys .symlinkMetadata)
  if !metadata.isSocket then
    throw (.notASocket socketPath)
  match ← sys .connect with
  | .ok _ => throw (.alreadyActive socketPath)
  | .error error =>
    if error.kind = .connectionRefused then
      orReturn .io (← sys .removeFile)
    -- Someone unlinked it between the metadata read and the connect.
    else if error.kind = .notFound then
      pure ()
    else
      throw (.unverifiable socketPath error)

/-- Resolve the numeric group id of a group; `ok none` is an absent group. -/
def lookupGroupGid (name : String) : Sys (Except IoError (Option UInt32)) :=
  call (.groupFromName name)

/-- The message about a group that the socket could not be given to. -/
def couldNotGive (socketPath group daemon : String) (error : IoError) : String :=
  s!"{daemon}: could not give {socketPath} to the {group} group, " ++
    s!"so unprivileged clients cannot connect: {error.text}"

/-- The message about a group that does not exist. -/
def noSuchGroup (socketPath group daemon : String) : String :=
  s!"{daemon}: there is no {group} group on this host, so {socketPath} keeps its own " ++
    "group and only root can connect"

/-- The message about a group lookup that failed. -/
def couldNotResolve (group daemon : String) (error : IoError) : String :=
  s!"{daemon}: could not resolve the {group} group, so the socket keeps its " ++
    s!"own group and unprivileged clients cannot connect: {error.text}"

/-- Align the socket's group with the one unprivileged clients belong to. None of the
outcomes is fatal, and all but success are reported. -/
def giveSocketToGroup (socketPath group daemon : String) : Sys Unit := do
  match ← lookupGroupGid group with
  | .ok (some gid) =>
    match ← call (.chown gid) with
    | .ok _ => pure ()
    | .error error => call (.eprintln (couldNotGive socketPath group daemon error))
  | .ok none => call (.eprintln (noSuchGroup socketPath group daemon))
  | .error error => call (.eprintln (couldNotResolve group daemon error))

namespace Socket

/-- The part of `Socket::bind` after the path has been found or made free: bind, set the
mode, hand the socket to the group. -/
def bindFreePath (config : SocketConfig) : ExceptT BindError Sys Socket := do
  let listener ← orReturn .io (← sys .bindListener)
  match ← sys (.setPermissions config.socketMode) with
  | .error error =>
    let _cleanup ← sys .removeFile
    -- Returning drops the local listener.
    sys (.close listener)
    throw (.io error)
  | .ok _ =>
    match config.socketGroup with
    | some group => ExceptT.lift (giveSocketToGroup config.socketPath group config.daemon)
    | none => pure ()
    return ⟨listener, config⟩

/-- Take the socket: reclaim a stale one, bind, set the mode, hand it to the group. -/
def bind (config : SocketConfig) : ExceptT BindError Sys Socket := do
  if ← sys .exists_ then
    reclaimStaleSocket config.socketPath
  bindFreePath config

/-- `Drop for Socket`: unlink the path, whether or not that succeeds, and then drop the
fields, which closes the listener. -/
def drop (self : Socket) : Sys Unit := do
  let _alreadyGone ← call .removeFile
  call (.close self.listener)

end Socket

/-- What a caller is on the kernel's answer about the peer. A failure is carried. -/
def Caller.ofCredentials : Except IoError Cred → Caller
  | .ok cred => .peer cred.pid cred.uid cred.gid
  | .error error => .unreadable error.text

/-- Read the peer of an accepted connection. -/
def Caller.ofSocket (stream : Connection) : Sys Caller :=
  return .ofCredentials (← call (.peerCredentials stream))

/-- Accept one connection, and answer who is on it. -/
def Socket.accept (self : Socket) : ExceptT IoError Sys (Connection × Caller) := do
  let stream ← orReturn id (← sys (.accept self.listener))
  -- The caller is read before the first byte of the request.
  let caller ← ExceptT.lift (Caller.ofSocket stream)
  orReturn id (← sys (.setReadTimeout stream self.config.requestReadTimeout))
  return (stream, caller)

/-- The operations of `Socket::accept` in their order. -/
theorem Socket.accept_eq (self : Socket) :
    (self.accept : Sys _) = .call (.accept self.listener) fun
      | .error error => .ret (.error error)
      | .ok stream => .call (.peerCredentials stream) fun cred =>
        .call (.setReadTimeout stream self.config.requestReadTimeout) fun
          | .error error => .ret (.error error)
          | .ok _ => .ret (.ok (stream, .ofCredentials cred)) := by
  refine congrArg (Prog.call _) (funext fun reply => ?_)
  cases reply with
  | error error => rfl
  | ok stream =>
    refine congrArg (Prog.call _) (funext fun cred => ?_)
    refine congrArg (Prog.call _) (funext fun reply => ?_)
    cases reply <;> rfl

/-- The control points of `Socket::bind`, each named after what it does next. Those after
`UnixListener::bind` carry the listener. -/
inductive BindPc
  | exists_ | symlinkMetadata | connect | removeStale | bindListener
  | setPermissions (listener : ℕ)
  | cleanUp (listener : ℕ) (error : IoError)
  | closeListener (listener : ℕ) (error : IoError)
  | groupFromName (listener : ℕ) (group : String)
  | chown (listener : ℕ) (group : String) (gid : UInt32)
  | eprintln (listener : ℕ) (line : String)
  | returned (result : Except BindError Socket)

namespace BindPc

open Prog (Head)

/-- What `Socket::bind` does at each control point. -/
def next (config : SocketConfig) :
    BindPc → Head Syscall Syscall.Reply (Except BindError Socket) BindPc
  | .exists_ => .call .exists_ fun found => if found then .symlinkMetadata else .bindListener
  | .symlinkMetadata => .call .symlinkMetadata fun
    | .error e => .returned (.error (.io e))
    | .ok metadata =>
      if metadata.isSocket then .connect
      else .returned (.error (.notASocket config.socketPath))
  | .connect => .call .connect fun
    | .ok _ => .returned (.error (.alreadyActive config.socketPath))
    | .error e =>
      if e.kind = .connectionRefused then .removeStale
      else if e.kind = .notFound then .bindListener
      else .returned (.error (.unverifiable config.socketPath e))
  | .removeStale => .call .removeFile fun
    | .error e => .returned (.error (.io e))
    | .ok _ => .bindListener
  | .bindListener => .call .bindListener fun
    | .error e => .returned (.error (.io e))
    | .ok listener => .setPermissions listener
  | .setPermissions listener => .call (.setPermissions config.socketMode) fun
    | .error e => .cleanUp listener e
    | .ok _ =>
      match config.socketGroup with
      | some group => .groupFromName listener group
      | none => .returned (.ok ⟨listener, config⟩)
  | .cleanUp listener e => .call .removeFile fun _ => .closeListener listener e
  | .closeListener listener e => .call (.close listener) fun _ => .returned (.error (.io e))
  | .groupFromName listener group => .call (.groupFromName group) fun
    | .ok (some gid) => .chown listener group gid
    | .ok none => .eprintln listener (noSuchGroup config.socketPath group config.daemon)
    | .error e => .eprintln listener (couldNotResolve group config.daemon e)
  | .chown listener group gid => .call (.chown gid) fun
    | .ok _ => .returned (.ok ⟨listener, config⟩)
    | .error e => .eprintln listener (couldNotGive config.socketPath group config.daemon e)
  | .eprintln listener line => .call (.eprintln line) fun _ => .returned (.ok ⟨listener, config⟩)
  | .returned result => .ret result

end BindPc

open Prog

/-- The control points from the group lookup on are those of `giveSocketToGroup`. -/
theorem groupFromName_presents (config : SocketConfig) (listener : ℕ) (group : String) :
    Presents (BindPc.next config) (.groupFromName listener group)
      (do ExceptT.lift (giveSocketToGroup config.socketPath group config.daemon)
          return ⟨listener, config⟩ : ExceptT BindError Sys Socket) := by
  refine .call rfl fun reply => ?_
  rcases reply with error | _ | gid
  · exact .call rfl fun _ => .ret rfl
  · exact .call rfl fun _ => .ret rfl
  · refine .call rfl fun reply => ?_
    cases reply with
    | error error => exact .call rfl fun _ => .ret rfl
    | ok _ => exact .ret rfl

/-- The control points from `UnixListener::bind` on are those of `Socket.bindFreePath`. -/
theorem bindFreePath_presents (config : SocketConfig) :
    Presents (BindPc.next config) .bindListener (Socket.bindFreePath config) := by
  refine .call rfl fun reply => ?_
  cases reply with
  | error error => exact .ret rfl
  | ok listener =>
    refine .call rfl fun reply => ?_
    cases reply with
    | error error => exact .call rfl fun _ => .call rfl fun _ => .ret rfl
    | ok _ =>
      obtain ⟨daemon, path, mode, _ | group, timeout⟩ := config
      · exact .ret rfl
      · exact groupFromName_presents _ listener group

/-- **The control points are the code.** Started at `exists`, the machine issues the
operations of `Socket::bind`, in its order and for every reply. -/
theorem bind_presents (config : SocketConfig) :
    Presents (BindPc.next config) .exists_ (Socket.bind config) := by
  refine .call rfl fun found => ?_
  cases found with
  | false => exact bindFreePath_presents config
  | true =>
    refine .call rfl fun reply => ?_
    rcases reply with error | metadata
    · exact .ret rfl
    cases metadata with
    | file | directory | symlink => exact .ret rfl
    | socket =>
      refine .call rfl fun reply => ?_
      rcases reply with ⟨kind, text⟩ | _
      · cases kind with
        | connectionRefused =>
          refine .call rfl fun reply => ?_
          cases reply with
          | error error => exact .ret rfl
          | ok _ => exact bindFreePath_presents config
        | notFound => exact bindFreePath_presents config
        | _ => exact .ret rfl
      · exact .ret rfl

/-- The control points of the drop of a `Socket`. -/
inductive DropPc
  | removeFile | close | returned
  deriving DecidableEq

/-- What the drop of a `Socket` does at each control point. -/
def DropPc.next (socket : Socket) : DropPc → Head Syscall Syscall.Reply Unit DropPc
  | .removeFile => .call .removeFile fun _ => .close
  | .close => .call (.close socket.listener) fun _ => .returned
  | .returned => .ret ()

/-- Started at `removeFile`, the machine issues the operations of the drop. -/
theorem drop_presents (socket : Socket) :
    Presents (DropPc.next socket) .removeFile socket.drop :=
  .call rfl fun _ => .call rfl fun _ => .ret rfl

end UdsPolicy
