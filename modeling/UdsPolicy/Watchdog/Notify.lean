import UdsPolicy.General.Conduct
import UdsPolicy.Socket.Kernel
import UdsPolicy.Watchdog.Interval

/-!
# Messages to the service manager

A message is one datagram to the socket that a variable of the environment names:
a path, or after an `@` a name in the abstract namespace. A value names one socket
at most, and no two values name the same one. Whatever goes wrong is swallowed,
so that the only thing a message can do is to arrive there.
-/

namespace UdsPolicy

/-- How many bytes the path of a Unix socket address has room for, `sizeof(sun_path)`. -/
def sunPathLen : ℕ := 108

/-- The address of a Unix datagram socket. -/
inductive SocketAddr
  /-- A path, which is followed by a zero byte. -/
  | pathname (path : String)
  /-- A name in the abstract namespace, which follows a zero byte. -/
  | abstractName (name : String)
  deriving DecidableEq, Repr

/-- An address is well formed if it fits into the space that there is for it, and a path is not
mistaken for anything else. -/
def SocketAddr.WellFormed : SocketAddr → Prop
  | .pathname path => '\x00' ∉ path.toList ∧ path.utf8ByteSize < sunPathLen
  | .abstractName name => name.utf8ByteSize < sunPathLen

/-- `SocketAddr::from_abstract_name`. -/
def SocketAddr.fromAbstractName (name : String) : Except IoError SocketAddr :=
  if name.utf8ByteSize + 1 > sunPathLen then
    .error ⟨.other 22, "abstract socket name must be shorter than SUN_LEN"⟩
  else .ok (.abstractName name)

/-- The address of a path, as `send_to` makes it. -/
def SocketAddr.sockaddrUn (path : String) : Except IoError SocketAddr :=
  if '\x00' ∈ path.toList then
    .error ⟨.other 22, "paths must not contain interior null bytes"⟩
  else if path.utf8ByteSize ≥ sunPathLen then
    .error ⟨.other 22, "path must be shorter than SUN_LEN"⟩
  else .ok (.pathname path)

/-- The operations of the client of the service manager. -/
inductive ManagerCall
  /-- Read a variable of the environment; one that is no text counts as unset. -/
  | var (name : String)
  /-- `std::process::id`. -/
  | processId
  /-- `UnixDatagram::unbound`. -/
  | unbound
  /-- `sendto(2)`. -/
  | sendTo (address : SocketAddr) (message : String)
  deriving DecidableEq

/-- What each operation returns. -/
abbrev ManagerCall.Reply : ManagerCall → Type
  | .var _ => Option String
  | .processId => UInt32
  | .unbound | .sendTo _ _ => Except IoError Unit

/-- Programs over the operations of the client. -/
abbrev Managed := Prog ManagerCall ManagerCall.Reply

/-- Perform one operation of the client. -/
def manager (c : ManagerCall) : Managed c.Reply := Prog.issue c

/-- `strip_prefix('@')`. -/
def stripAt (s : String) : Option String :=
  match s.toList with
  | '@' :: name => some (String.ofList name)
  | _ => none

/-- Send a message to an explicit socket path. -/
def notifyTo (socketPath message : String) : Managed Unit := do
  if socketPath.isEmpty then
    return
  match ← manager .unbound with
  | .error _ => return
  | .ok _ =>
    match stripAt socketPath with
    | some name =>
      -- A leading `@` selects the abstract namespace.
      match SocketAddr.fromAbstractName name with
      | .ok address =>
        let _result ← manager (.sendTo address message)
      | .error _ => return
    | none =>
      match SocketAddr.sockaddrUn socketPath with
      | .ok address =>
        let _result ← manager (.sendTo address message)
      | .error _ => return

/-- Best-effort send of a single message to the socket of the service manager. -/
def notify (message : String) : Managed Unit := do
  match ← manager (.var "NOTIFY_SOCKET") with
  | none => return
  | some socketPath => notifyTo socketPath message

/-- Tell the service manager that the daemon has finished startup. -/
def notifyReady : Managed Unit := notify "READY=1"

/-- Pet the watchdog. -/
def pet : Managed Unit := notify "WATCHDOG=1"

/-- The interval at which to pet the watchdog, from the environment of the process. -/
def readHeartbeatInterval : Managed (Option Duration) := do
  let watchdogUsec ← manager (.var "WATCHDOG_USEC")
  let watchdogPid ← manager (.var "WATCHDOG_PID")
  return heartbeatFrom watchdogUsec watchdogPid (← manager .processId)

/-- The environment of the process answers the reads of the interval. -/
theorem readHeartbeatInterval_runWith (var : String → Option String) (processId : UInt32)
    (send : (c : ManagerCall) → c.Reply) :
    (readHeartbeatInterval.runWith (fun c s => match c with
      | .var name => (var name, s)
      | .processId => (processId, s)
      | c => (send c, s)) ()).1 = heartbeatInterval var processId :=
  rfl

/-! ### What a value of the variable names -/

/-- The text that stands for an address. -/
def SocketAddr.text : SocketAddr → String
  | .pathname path => path
  | .abstractName name => "@" ++ name

/-- A value of the variable names an address: the address is well formed, its text is the value,
and a path is neither empty nor begins with an `@`. -/
def Designates (value : String) (address : SocketAddr) : Prop :=
  address.WellFormed ∧ address.text = value ∧
    ∀ path, address = .pathname path → path ≠ "" ∧ stripAt path = none

/-- The address that `notify_to` sends to, if any. -/
def addressOf (value : String) : Option SocketAddr :=
  if value.isEmpty then none
  else
    match stripAt value with
    | some name => (SocketAddr.fromAbstractName name).toOption
    | none => (SocketAddr.sockaddrUn value).toOption

section Addresses

variable {value name : String} {address address' : SocketAddr}

/-- What follows the `@`. -/
theorem stripAt_eq_some : stripAt value = some name ↔ value = "@" ++ name := by
  unfold stripAt
  constructor
  · intro h
    split at h
    · rename_i rest hvalue
      obtain rfl := Option.some.inj h
      rw [← String.toList_inj, hvalue]
      simp
    · cases h
  · rintro rfl
    simp

/-- `from_abstract_name` accepts the names that fit. -/
theorem fromAbstractName_eq_ok : SocketAddr.fromAbstractName name = .ok address ↔
    address = .abstractName name ∧ address.WellFormed := by
  unfold SocketAddr.fromAbstractName
  split
  · rename_i hlong
    constructor
    · nofun
    · rintro ⟨rfl, hfits⟩
      have hlt : name.utf8ByteSize < sunPathLen := hfits
      omega
  · rename_i hshort
    constructor
    · rintro ⟨rfl⟩
      refine ⟨rfl, ?_⟩
      show name.utf8ByteSize < sunPathLen
      omega
    · rintro ⟨rfl, -⟩
      rfl

/-- `send_to` accepts the paths that fit and have no zero in them. -/
theorem sockaddrUn_eq_ok : SocketAddr.sockaddrUn value = .ok address ↔
    address = .pathname value ∧ address.WellFormed := by
  unfold SocketAddr.sockaddrUn
  split
  · rename_i hzero
    constructor
    · nofun
    · rintro ⟨rfl, hnone, -⟩
      exact absurd hzero hnone
  · rename_i hzero
    split
    · rename_i hlong
      constructor
      · nofun
      · rintro ⟨rfl, -, hlt⟩
        omega
    · rename_i hshort
      constructor
      · rintro ⟨rfl⟩
        exact ⟨rfl, hzero, Nat.lt_of_not_ge hshort⟩
      · rintro ⟨rfl, -⟩
        rfl

theorem toOption_eq_some {ε α : Type} {x : Except ε α} {a : α} :
    x.toOption = some a ↔ x = .ok a := by
  cases x <;> simp [Except.toOption]

/-- The address that is sent to is the one that the value names. -/
theorem addressOf_eq_some : addressOf value = some address ↔ Designates value address := by
  unfold addressOf
  split
  · rename_i hempty
    have hvalue : value = "" := by simpa using hempty
    subst hvalue
    constructor
    · nofun
    · rintro ⟨-, htext, hpath⟩
      cases address with
      | pathname path => exact absurd htext (hpath path rfl).1
      | abstractName name => simp [SocketAddr.text, ← String.toList_inj] at htext
  · rename_i hempty
    have hvalue : value ≠ "" := by simpa using hempty
    split
    · rename_i name hstrip
      rw [toOption_eq_some, fromAbstractName_eq_ok]
      have htext := stripAt_eq_some.mp hstrip
      constructor
      · rintro ⟨rfl, hfits⟩
        exact ⟨hfits, htext.symm, nofun⟩
      · rintro ⟨hfits, hsame, hpath⟩
        refine ⟨?_, hfits⟩
        cases address with
        | pathname path =>
          obtain rfl : path = value := hsame
          rw [(hpath path rfl).2] at hstrip
          cases hstrip
        | abstractName name' =>
          have hat : "@" ++ name' = "@" ++ name := hsame.trans htext
          rw [(String.append_right_inj _).mp hat]
    · rename_i hstrip
      rw [toOption_eq_some, sockaddrUn_eq_ok]
      constructor
      · rintro ⟨rfl, hfits⟩
        refine ⟨hfits, rfl, fun path hpath => ?_⟩
        obtain rfl := SocketAddr.pathname.inj hpath
        exact ⟨hvalue, hstrip⟩
      · rintro ⟨hfits, hsame, -⟩
        refine ⟨?_, hfits⟩
        cases address with
        | pathname path =>
          obtain rfl : path = value := hsame
          rfl
        | abstractName name =>
          have hsome := stripAt_eq_some.mpr hsame.symm
          rw [hsome] at hstrip
          cases hstrip

/-- A value names one address at most. -/
theorem Designates.unique (h : Designates value address) (h' : Designates value address') :
    address = address' :=
  Option.some.inj ((addressOf_eq_some.mpr h).symm.trans (addressOf_eq_some.mpr h'))

end Addresses

/-! ### What a message does -/

open Prog (Done Issues Conducts)

/-- The datagrams that have been handed to the kernel, oldest first. -/
def datagrams (past : List (Done ManagerCall ManagerCall.Reply)) : List (SocketAddr × String) :=
  past.filterMap fun e =>
    match e.call with
    | .sendTo address message => some (address, message)
    | _ => none

/-- What a value of the variable is worth: the address it names. -/
def addressIn (value : Option String) : Option SocketAddr := value.bind addressOf

/-- A message that has been sent: the variable was read, and one datagram with the message has
gone to the address that its value names, or none if it names none or there was no socket. -/
def Sent (message : String) (past : List (Done ManagerCall ManagerCall.Reply)) : Prop :=
  ∃ value rest, past = ⟨.var "NOTIFY_SOCKET", value⟩ :: rest ∧
    (datagrams past = [] ∧ (addressIn value = none ∨ ∃ e, ⟨.unbound, .error e⟩ ∈ rest) ∨
      ∃ address, addressIn value = some address ∧ datagrams past = [(address, message)])

/-- **Delivery.** A completed `notify` has sent its message. -/
theorem conducts_notify (message : String) :
    Conducts (fun _ _ => True) (fun _ past => Sent message past) [] (notify message) := by
  refine ⟨trivial, fun value => ?_⟩
  cases value with
  | none => exact ⟨none, [], rfl, .inl ⟨rfl, .inl rfl⟩⟩
  | some socketPath =>
    show Conducts _ _ _ (notifyTo socketPath message)
    unfold notifyTo
    split
    · rename_i hempty
      exact ⟨some socketPath, [], rfl, .inl ⟨rfl, .inl (by simp [addressIn, addressOf, hempty])⟩⟩
    · rename_i hempty
      refine ⟨trivial, fun reply => ?_⟩
      cases reply with
      | error e => exact ⟨some socketPath, _, rfl, .inl ⟨rfl, .inr ⟨e, by simp⟩⟩⟩
      | ok _ =>
        have haddress : addressIn (some socketPath) = _ := if_neg hempty
        cases hstrip : stripAt socketPath with
        | some name =>
          simp only [hstrip] at haddress ⊢
          cases hname : SocketAddr.fromAbstractName name with
          | error e =>
            rw [hname] at haddress
            exact ⟨some socketPath, _, rfl, .inl ⟨rfl, .inl haddress⟩⟩
          | ok address =>
            rw [hname] at haddress
            exact ⟨trivial, fun _ => ⟨some socketPath, _, rfl, .inr ⟨address, haddress, rfl⟩⟩⟩
        | none =>
          simp only [hstrip] at haddress ⊢
          cases hpath : SocketAddr.sockaddrUn socketPath with
          | error e =>
            rw [hpath] at haddress
            exact ⟨some socketPath, _, rfl, .inl ⟨rfl, .inl haddress⟩⟩
          | ok address =>
            rw [hpath] at haddress
            exact ⟨trivial, fun _ => ⟨some socketPath, _, rfl, .inr ⟨address, haddress, rfl⟩⟩⟩

/-- No two values name the same address. -/
theorem Designates.value_unique {value value' : String} {address : SocketAddr}
    (h : Designates value address) (h' : Designates value' address) : value = value' :=
  h.2.1.symm.trans h'.2.1

/-- **Advisory messages.** However its operations turn out, a message sends one datagram at most.
It carries the message to the one address that the variable of the environment names, which no
other value names; and there is none only if the variable names no address or there was no
socket to send from. -/
theorem notify_reaches {message : String} {past : List (Done ManagerCall ManagerCall.Reply)}
    (h : Issues (notify message) past (.ret ())) :
    ∃ value, past.head? = some ⟨.var "NOTIFY_SOCKET", value⟩ ∧
      (datagrams past = [] ∧ ((∀ v address, value = some v → ¬Designates v address) ∨
          ∃ e, ⟨.unbound, .error e⟩ ∈ past) ∨
        ∃ v address, value = some v ∧ Designates v address ∧ datagrams past = [(address, message)] ∧
          (∀ address', Designates v address' → address' = address) ∧
          ∀ v', Designates v' address → v' = v) := by
  obtain ⟨value, rest, rfl, hsent⟩ := (conducts_notify message).result h
  refine ⟨value, rfl, ?_⟩
  rcases hsent with ⟨hnothing, hwhy⟩ | ⟨address, haddress, hone⟩
  · refine .inl ⟨hnothing, ?_⟩
    rcases hwhy with hnone | ⟨e, he⟩
    · refine .inl fun v address hv hnames => ?_
      subst hv
      rw [addressIn, Option.bind_some, addressOf_eq_some.mpr hnames] at hnone
      cases hnone
    · exact .inr ⟨e, List.mem_cons_of_mem _ he⟩
  · obtain ⟨v, hv, hof⟩ := Option.bind_eq_some_iff.mp haddress
    have hnames := addressOf_eq_some.mp hof
    exact .inr ⟨v, address, hv, hnames, hone, fun _ h' => h'.unique hnames,
      fun _ h' => h'.value_unique hnames⟩

/-- A pet for a name in the abstract namespace, whose receiver has gone away. -/
def petted : List (Done ManagerCall ManagerCall.Reply) :=
  [⟨.var "NOTIFY_SOCKET", some "@systemd"⟩, ⟨.unbound, .ok ()⟩,
    ⟨.sendTo (.abstractName "systemd") "WATCHDOG=1",
      .error ⟨.connectionRefused, "Connection refused (os error 111)"⟩⟩]

theorem notify_reaches_petted :
    ∃ v address, datagrams petted = [(address, "WATCHDOG=1")] ∧ Designates v address := by
  have hrun : Issues pet petted (.ret ()) := .step (.step (.step (.refl _)))
  obtain ⟨value, hvalue, hnone | ⟨v, address, -, hnames, hone, -⟩⟩ := notify_reaches hrun
  · cases hnone.1
  · exact ⟨v, address, hone, hnames⟩

end UdsPolicy
