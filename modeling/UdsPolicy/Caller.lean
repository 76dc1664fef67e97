import Mathlib.Logic.Function.Basic
import UdsPolicy.Call

/-!
# Callers, account names and the name cache

A caller is the kernel's answer about the peer of a connection, or the reason
why there is none. Its rendering names the account behind a peer's uid, which
comes from the name service through a process-wide cache. The name service is a
parameter: one lookup either fails, finds no account, or finds one.
-/

namespace UdsPolicy

/-- How much of an account name reaches the journal. -/
def maxCallerNameChars : ℕ := 64

/-- The party a dispatched call is attributed to. -/
inductive Caller
  /-- The peer of a connected socket, as the kernel reports it. -/
  | peer (pid : Int32) (uid gid : UInt32)
  /-- A socket whose peer could not be read, and why. -/
  | unreadable (reason : String)
  /-- No socket at all. -/
  | inProcess
  deriving DecidableEq, Repr

/-- `.replace(['\n', '\r'], " ")` on characters. -/
def flatten (s : List Char) : List Char :=
  s.map fun c => if c = '\n' ∨ c = '\r' then ' ' else c

/-- The first `n` characters of a text, line breaks replaced by blanks. -/
def boundAndFlatten (n : ℕ) (s : String) : String :=
  String.ofList (flatten (s.toList.take n))

/-- Bound and flatten an account name. -/
def sanitize (name : String) : String := boundAndFlatten maxCallerNameChars name

/-- An entry of the account database, reduced to what is read of it. -/
structure User where
  /-- The account name. -/
  name : String
  deriving DecidableEq, Repr

/-- The outcome of one `User::from_uid`: a failed lookup, no such account, or an account. -/
abbrev Lookup := Except String (Option User)

/-- The uid-to-name cache. An absent key is a uid never resolved, and `some none` is a
remembered absence. -/
abbrev NameCache := UInt32 → Option (Option String)

/-- A lookup as it is remembered: a failure is not, and names are sanitized. -/
def lookedUp (outcome : Lookup) : Option (Option String) :=
  match outcome with
  | .error _ => none
  | .ok user => some (user.map fun found => sanitize found.name)

/-- The account name for a uid, through the cache; `lookup` answers if the name service
is asked. Returns the name and the cache afterwards. -/
def nameForUid (lookup : UInt32 → Lookup) (uid : UInt32) (names : NameCache) :
    Option String × NameCache :=
  match names uid with
  | some cached => (cached, names)
  | none =>
    -- The outer `none` is a failed lookup, which is not remembered; an inner one is.
    match lookedUp (lookup uid) with
    | none => (none, names)
    | some resolved => (resolved, Function.update names uid (some resolved))

/-- Every remembered name has been sanitized. -/
def NameCache.Sanitized (names : NameCache) : Prop :=
  ∀ uid name, names uid = some (some name) → ∃ given, name = sanitize given

section Sanitized

variable {lookup : UInt32 → Lookup} {uid : UInt32} {names : NameCache} {name : String}

theorem NameCache.empty_sanitized : NameCache.Sanitized fun _ => none :=
  nofun

/-- A name that a lookup gives has been sanitized. -/
theorem sanitize_of_lookedUp {outcome : Lookup} (h : lookedUp outcome = some (some name)) :
    ∃ given, name = sanitize given := by
  cases outcome with
  | error e => cases h
  | ok user =>
    obtain ⟨found, -, rfl⟩ := Option.map_eq_some_iff.mp (Option.some.inj h)
    exact ⟨found.name, rfl⟩

/-- Remembering a sanitized name keeps the names sanitized. -/
theorem NameCache.Sanitized.update (hnames : names.Sanitized) {resolved : Option String}
    (hresolved : ∀ name, resolved = some name → ∃ given, name = sanitize given) :
    NameCache.Sanitized (Function.update names uid (some resolved)) := by
  intro u name hname
  by_cases hu : u = uid
  · subst u
    have hself : resolved = some name := by simpa using hname
    exact hresolved name hself
  · exact hnames u name (by simpa [hu] using hname)

/-- What `name_for_uid` returns has been sanitized. -/
theorem sanitize_of_nameForUid (hnames : names.Sanitized)
    (h : (nameForUid lookup uid names).1 = some name) : ∃ given, name = sanitize given := by
  unfold nameForUid at h
  cases hcached : names uid with
  | some cached =>
    simp only [hcached] at h
    exact hnames uid name (hcached.trans (congrArg some h))
  | none =>
    cases hlooked : lookedUp (lookup uid) with
    | none => simp [hcached, hlooked] at h
    | some resolved =>
      simp only [hcached, hlooked] at h
      exact sanitize_of_lookedUp (hlooked.trans (congrArg some h))

end Sanitized

namespace Caller

/-- The peer's user id, when there is one. -/
def uid : Caller → Option UInt32
  | .peer _ uid _ => some uid
  | _ => none

/-- The peer's group id, when there is one. -/
def gid : Caller → Option UInt32
  | .peer _ _ gid => some gid
  | _ => none

/-- The peer's process id, when there is one. -/
def pid : Caller → Option Int32
  | .peer pid _ _ => some pid
  | _ => none

/-- The account name behind the peer's uid, memoised. -/
def accountName (lookup : UInt32 → Lookup) (c : Caller) (names : NameCache) :
    Option String × NameCache :=
  match c with
  | .peer _ uid _ => nameForUid lookup uid names
  | _ => (none, names)

/-- `Display for Caller`, for a given answer about the account name. -/
def displayAs (name : Option String) : Caller → String
  | .peer pid uid gid =>
    match name with
    | some name => s!"{name}(uid {uid} gid {gid} pid {pid})"
    | none => s!"uid {uid} gid {gid} pid {pid}"
  | .unreadable reason => s!"unreadable ({reason})"
  | .inProcess => "in-process"

section Concatenations

variable {name reason : String} {pid : Int32} {uid gid : UInt32}

/-- The numbers of a peer. -/
def numbers (pid : Int32) (uid gid : UInt32) : String :=
  "uid " ++ toString uid ++ " gid " ++ toString gid ++ " pid " ++ toString pid

/-! The renderings as concatenations. -/

theorem displayAs_named :
    (peer pid uid gid).displayAs (some name) = name ++ "(" ++ numbers pid uid gid ++ ")" := by
  simp only [displayAs, numbers, ← String.toList_inj, String.toList_append]
  simp [toString]

theorem displayAs_unnamed : (peer pid uid gid).displayAs none = numbers pid uid gid := rfl

theorem displayAs_unreadable {name : Option String} :
    (unreadable reason).displayAs name = "unreadable (" ++ reason ++ ")" :=
  rfl

theorem displayAs_inProcess {name : Option String} : inProcess.displayAs name = "in-process" := rfl

end Concatenations

/-- `Display for Caller`. -/
def display (lookup : UInt32 → Lookup) (c : Caller) (names : NameCache) : String × NameCache :=
  let (name, names) := c.accountName lookup names
  (c.displayAs name, names)

/-- The account name of a caller has been sanitized. -/
theorem sanitize_of_accountName {lookup : UInt32 → Lookup} {c : Caller} {names : NameCache}
    {name : String} (hnames : names.Sanitized) (h : (c.accountName lookup names).1 = some name) :
    ∃ given, name = sanitize given := by
  cases c with
  | peer pid uid gid => exact sanitize_of_nameForUid hnames h
  | unreadable reason => cases h
  | inProcess => cases h

end Caller

end UdsPolicy
