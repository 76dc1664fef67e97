import Mathlib.Data.Finset.Insert
import Mathlib.Data.Finset.Dedup
import UdsPolicy.Caller

/-!
# The gate between a named call and the code that runs it

A daemon consults its authorizer for every call, with the caller that the kernel
reported. The gate on peers keeps two sets of ids and says what becomes of a
caller that could not be read. Its decision depends on the caller's identity
alone, and the sets hold exactly the ids that were listed, in whatever way the
gate came about. What becomes of an unreadable caller depends on the constructor.
-/

namespace UdsPolicy

/-- Why a call was refused. -/
structure Denial where
  /-- The explanation, which reaches the client. -/
  reason : String
  deriving DecidableEq, Repr

/-- Decides whether a caller may make a call. -/
class Authorizer (α : Type) where
  /-- Allow or refuse a call for a caller. -/
  authorize : α → Call → Caller → Except Denial Unit

export Authorizer (authorize)

/-- Reaching the socket is the whole gate. -/
structure AllowSocketPeers
  deriving DecidableEq, Repr

instance : Authorizer AllowSocketPeers where
  authorize _ _ _ := .ok ()

/-- Refuses everything, naming the action id it would have needed. -/
structure DenyAll
  deriving DecidableEq, Repr

instance : Authorizer DenyAll where
  authorize _ call _ :=
    match call.authorization with
    | .policy action => .error ⟨s!"authorization required for {action} before {call.display}"⟩
    | .unprivileged => .error ⟨s!"this daemon is not accepting calls: {call.display}"⟩

/-- Every refusal names the call and, where one would have been needed, the action id. -/
theorem DenyAll.refuses (call : Call) (caller : Caller) :
    ∃ denial, authorize DenyAll.mk call caller = .error denial ∧
      call.display.toList <:+: denial.reason.toList ∧
      ∀ action, call.action = some action → action.toList <:+: denial.reason.toList := by
  cases h : call.authorization with
  | policy action =>
    refine ⟨⟨"authorization required for " ++ action ++ " before " ++ call.display⟩, ?_, ?_, ?_⟩
    · simp only [authorize, h]
      rfl
    · exact ⟨("authorization required for " ++ action ++ " before ").toList, [], by simp⟩
    · intro action' haction
      obtain rfl : action = action' := by simpa [Call.action, h] using haction
      exact ⟨"authorization required for ".toList, (" before " ++ call.display).toList, by simp⟩
  | unprivileged =>
    refine ⟨⟨"this daemon is not accepting calls: " ++ call.display⟩, ?_, ?_, ?_⟩
    · simp only [authorize, h]
      rfl
    · exact ⟨"this daemon is not accepting calls: ".toList, [], by simp⟩
    · intro action haction
      simp [Call.action, h] at haction

/-- Allows only callers whose kernel-reported uid or gid is on a list. -/
structure PeerGate where
  /-- User ids that may call. -/
  allowedUids : Finset UInt32
  /-- Group ids that may call. -/
  allowedGids : Finset UInt32
  /-- Whether a caller the kernel would not report is refused. -/
  rejectUnreadableCaller : Bool

namespace PeerGate

/-- The derived `Default`: each field has the default of its type. -/
def default : PeerGate := ⟨∅, ∅, false⟩

/-- A gate that admits `uids`, refuses unreadable callers, and names no groups. -/
def forUids (uids : List UInt32) : PeerGate := ⟨uids.toFinset, ∅, true⟩

/-- A gate that admits `gids`, refuses unreadable callers, and names no users. -/
def forGids (gids : List UInt32) : PeerGate := ⟨∅, gids.toFinset, true⟩

/-- The refusal of a peer. -/
def mayNotCall (uid gid : UInt32) (call : Call) : Denial :=
  ⟨s!"uid {uid} gid {gid} may not call {call.display}"⟩

/-- The refusal of a caller that could not be read. -/
def unidentified (reason : String) : Denial :=
  ⟨s!"the caller could not be identified ({reason}), " ++
    "and this daemon does not serve unidentified callers"⟩

instance : Authorizer PeerGate where
  authorize gate call caller :=
    match caller with
    | .peer _ uid gid =>
      if uid ∈ gate.allowedUids ∨ gid ∈ gate.allowedGids then .ok ()
      else .error (mayNotCall uid gid call)
    -- The daemon calling itself has passed every gate there is.
    | .inProcess => .ok ()
    | .unreadable reason =>
      if gate.rejectUnreadableCaller then .error (unidentified reason) else .ok ()

end PeerGate

/-- What a gate may look at in a caller. -/
inductive Identity
  | peer (uid gid : UInt32)
  | unreadable
  | inProcess
  deriving DecidableEq, Repr

/-- The identity of a caller: neither its pid nor the reason why it could not be read. -/
def Caller.identity : Caller → Identity
  | .peer _ uid gid => .peer uid gid
  | .unreadable _ => .unreadable
  | .inProcess => .inProcess

namespace PeerGate

/-- Whom a gate admits. -/
def Admits (gate : PeerGate) : Identity → Prop
  | .peer uid gid => uid ∈ gate.allowedUids ∨ gid ∈ gate.allowedGids
  | .unreadable => gate.rejectUnreadableCaller = false
  | .inProcess => True

/-- A gate decides by the identity of the caller. -/
theorem authorize_eq_ok {gate : PeerGate} {call : Call} {caller : Caller} :
    authorize gate call caller = .ok () ↔ gate.Admits caller.identity := by
  cases caller with
  | peer pid uid gid =>
    simp only [authorize, Admits, Caller.identity]
    split <;> simp [*]
  | unreadable reason =>
    simp only [authorize, Admits, Caller.identity]
    split <;> simp [*]
  | inProcess => exact iff_of_true rfl trivial

/-- An id inserted into one of the sets of a gate. -/
inductive Listing
  | uid (u : UInt32)
  | gid (g : UInt32)
  deriving DecidableEq, Repr

/-- Insert an id into `allowed_uids` or `allowed_gids`. -/
def list (gate : PeerGate) : Listing → PeerGate
  | .uid u => { gate with allowedUids := insert u gate.allowedUids }
  | .gid g => { gate with allowedGids := insert g gate.allowedGids }

/-- The constructors of gates. -/
inductive Origin
  | default
  | forUids (uids : List UInt32)
  | forGids (gids : List UInt32)
  deriving DecidableEq, Repr

/-- How a gate comes about: a constructor, and the ids inserted into its sets afterwards. -/
structure Source where
  /-- The constructor. -/
  origin : Origin
  /-- The ids inserted afterwards, oldest first. -/
  inserted : List Listing
  deriving DecidableEq, Repr

/-- The gate that a constructor gives. -/
def Origin.gate : Origin → PeerGate
  | .default => PeerGate.default
  | .forUids uids => PeerGate.forUids uids
  | .forGids gids => PeerGate.forGids gids

/-- The ids that a constructor is given. -/
def Origin.listings : Origin → List Listing
  | .default => []
  | .forUids uids => uids.map .uid
  | .forGids gids => gids.map .gid

namespace Source

/-- The gate that comes about. -/
def gate (s : Source) : PeerGate := s.inserted.foldl PeerGate.list s.origin.gate

/-- The ids that somebody has listed, in the order of listing. -/
def listings (s : Source) : List Listing := s.origin.listings ++ s.inserted

end Source

/-- The sets of a gate hold exactly the ids that have been listed. -/
structure Represents (gate : PeerGate) (listings : List Listing) : Prop where
  /-- The user ids. -/
  uids : ∀ u, u ∈ gate.allowedUids ↔ .uid u ∈ listings
  /-- The group ids. -/
  gids : ∀ g, g ∈ gate.allowedGids ↔ .gid g ∈ listings

variable {gate : PeerGate} {listings : List Listing}

/-- Each constructor lists the ids that it is given. -/
theorem Origin.represents (o : Origin) : o.gate.Represents o.listings := by
  cases o <;> constructor <;>
    simp [gate, Origin.listings, PeerGate.default, PeerGate.forUids, PeerGate.forGids]

/-- An insertion lists one more id. -/
theorem Represents.list (h : gate.Represents listings) (l : Listing) :
    (gate.list l).Represents (listings ++ [l]) := by
  cases l <;> constructor <;> intro id <;>
    simp [PeerGate.list, h.uids, h.gids, or_comm]

/-- Insertions list the inserted ids, and leave alone what becomes of unreadable callers. -/
theorem Represents.foldl (h : gate.Represents listings) (ls : List Listing) :
    (ls.foldl PeerGate.list gate).Represents (listings ++ ls) ∧
      (ls.foldl PeerGate.list gate).rejectUnreadableCaller = gate.rejectUnreadableCaller := by
  induction ls generalizing gate listings with
  | nil => exact ⟨by simpa using h, rfl⟩
  | cons l ls ih =>
    obtain ⟨hrest, hreject⟩ := ih (h.list l)
    refine ⟨by simpa using hrest, hreject.trans ?_⟩
    cases l <;> rfl

/-- Every gate holds exactly the ids that were listed. -/
theorem Source.represents (s : Source) : s.gate.Represents s.listings :=
  (s.origin.represents.foldl s.inserted).1

/-- Only the derived `Default` serves unreadable callers. -/
theorem Source.rejectUnreadableCaller_eq (s : Source) :
    s.gate.rejectUnreadableCaller = false ↔ s.origin = .default := by
  rw [gate, (s.origin.represents.foldl s.inserted).2]
  cases s.origin <;> simp [Origin.gate, PeerGate.default, PeerGate.forUids, PeerGate.forGids]

/-- Somebody has listed the caller's uid among the uids or its gid among the gids. -/
def Listed (listings : List Listing) : Identity → Prop
  | .peer uid gid => .uid uid ∈ listings ∨ .gid gid ∈ listings
  | .unreadable | .inProcess => False

/-- The gate does not degrade to admitting, for a call, a caller from the socket that nobody
has listed. -/
structure NeverDegrades (s : Source) (call : Call) (caller : Caller) : Prop where
  /-- Whoever is admitted is the daemon itself or has been listed. -/
  listed : authorize s.gate call caller = .ok () →
    caller = .inProcess ∨ Listed s.listings caller.identity
  /-- A gate that lists nobody refuses every caller from the socket. -/
  empty : s.listings = [] → caller ≠ .inProcess →
    ∃ denial, authorize s.gate call caller = .error denial
  /-- The verdict depends on nothing but the ids of the caller. -/
  by_identity : ∀ call' caller', Caller.identity caller' = caller.identity →
    (authorize s.gate call' caller' = .ok () ↔ authorize s.gate call caller = .ok ())

/-- Whom a gate admits, in terms of how it came about. -/
theorem Source.admits_iff (s : Source) (caller : Caller) :
    s.gate.Admits caller.identity ↔ caller = .inProcess ∨ Listed s.listings caller.identity ∨
      s.origin = .default ∧ ∃ reason, caller = .unreadable reason := by
  cases caller with
  | peer pid uid gid => simp [Admits, Caller.identity, Listed, s.represents.uids, s.represents.gids]
  | unreadable reason =>
    simp [Admits, Caller.identity, Listed, s.rejectUnreadableCaller_eq]
  | inProcess => simp [Admits, Caller.identity]

/-- **Gate.** A gate degrades exactly where it has been made by the derived `Default` and the
caller could not be read. -/
theorem never_degrades_iff (s : Source) (call : Call) (caller : Caller) :
    NeverDegrades s call caller ↔
      (s.origin = .default → ∀ reason, caller ≠ .unreadable reason) := by
  constructor
  · rintro ⟨hlisted, -, -⟩ horigin reason rfl
    have hadmits : s.gate.Admits (Caller.unreadable reason).identity :=
      (s.admits_iff _).mpr (.inr (.inr ⟨horigin, reason, rfl⟩))
    rcases hlisted (authorize_eq_ok.mpr hadmits) with hself | hlisted
    · cases hself
    · exact hlisted
  · intro hreadable
    have hadmits : authorize s.gate call caller = .ok () →
        caller = .inProcess ∨ Listed s.listings caller.identity := by
      rw [authorize_eq_ok, s.admits_iff]
      rintro (hself | hlisted | ⟨horigin, reason, hunreadable⟩)
      · exact .inl hself
      · exact .inr hlisted
      · exact absurd hunreadable (hreadable horigin reason)
    refine ⟨hadmits, fun hempty houtside => ?_, fun call' caller' hsame => ?_⟩
    · cases hverdict : authorize s.gate call caller with
      | error denial => exact ⟨denial, rfl⟩
      | ok _ =>
        rcases hadmits hverdict with hself | hlisted
        · exact absurd hself houtside
        · rw [hempty] at hlisted
          cases hidentity : caller.identity <;> simp [hidentity, Listed] at hlisted
    · rw [authorize_eq_ok, authorize_eq_ok, hsame]

/-- The empty gate serves a caller that the kernel would not report. -/
theorem empty_gate_degrades :
    ¬NeverDegrades ⟨.default, []⟩ (.unprivileged "Thing" "Read")
      (.unreadable "Socket operation on non-socket") := by
  intro h
  obtain ⟨denial, hdenied⟩ := h.empty rfl (by decide)
  cases hdenied

end PeerGate

end UdsPolicy
