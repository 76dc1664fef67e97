import Mathlib.Data.Nat.Notation

/-!
# Calls

A call is data: the contract's own names for the noun and the verb, and a tag
that says whether the call is gated and under which action id. The policy layer
compares the tag and prints the action id, and interprets neither.
-/

namespace UdsPolicy

/-- Whether a call is served to anyone who reached the socket, or gated. -/
inductive Authorization
  /-- Reaching the socket is the whole gate. -/
  | unprivileged
  /-- Gated under an action id. -/
  | policy (action : String)
  deriving DecidableEq, Repr

/-- One thing the daemon can be asked to do. -/
structure Call where
  /-- The noun the call acts on. -/
  object : String
  /-- The verb. -/
  method : String
  /-- Whether the call is gated, and under which action id. -/
  authorization : Authorization
  deriving DecidableEq, Repr

namespace Call

/-- A call that reaching the socket is enough to make. -/
def unprivileged (object method : String) : Call := ⟨object, method, .unprivileged⟩

/-- A call gated under `action`. -/
def gated (object method action : String) : Call := ⟨object, method, .policy action⟩

/-- The action id a call is gated by, if it is gated. -/
def action (c : Call) : Option String :=
  match c.authorization with
  | .policy action => some action
  | .unprivileged => none

/-- `Display for Call`. -/
def display (c : Call) : String := s!"{c.object}.{c.method}"

end Call

end UdsPolicy
