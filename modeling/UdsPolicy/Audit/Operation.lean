import UdsPolicy.Caller

/-!
# Audited operations

An operation is begun for every call and audited only for the gated ones. It
announces itself with one journal line before the work runs and reports its
outcome with another one, and both carry the label it was begun with: the call,
the action it is gated by, and the caller. A line is the text that is written
before the line feed, and times are in nanoseconds.
-/

namespace UdsPolicy

/-- How much of a daemon-supplied failure description reaches the journal. -/
def maxFailureChars : ℕ := 256

/-- Bound and flatten a string the daemon produced. -/
def bound (value : String) : String := boundAndFlatten maxFailureChars value

/-- An operation in flight. -/
structure Operation where
  /-- The daemon's name in the journal. -/
  service : String
  /-- The line an audited operation announced itself with; `none` for a read. -/
  label : Option String
  /-- When the operation was begun. -/
  started : ℕ
  deriving DecidableEq, Repr

/-- The label of a call, for a given rendering of the caller. -/
def labelOf (call : Call) (action rendered : String) : String :=
  s!"{call.display} action={action} by={rendered}"

/-- The operation, the policy it is gated by, and who asked for it. -/
def describe (lookup : UInt32 → Lookup) (call : Call) (action : String) (caller : Caller)
    (names : NameCache) : String × NameCache :=
  let (rendered, names) := caller.display lookup names
  (labelOf call action rendered, names)

/-- The announcement of an operation. -/
def beginLine (service label : String) : String := s!"{service}: audit: begin {label}"

/-- The report of a success. -/
def okLine (service label : String) (millis : ℕ) : String :=
  s!"{service}: audit: ok {label} ({millis}ms)"

/-- The report of a failure. -/
def failedLine (service label : String) (millis : ℕ) (reason : String) : String :=
  s!"{service}: audit: failed {label} ({millis}ms): {bound reason}"

section Concatenations

variable {service label rendered action reason : String} {call : Call} {millis : ℕ}

/-! The texts as concatenations. -/

theorem labelOf_eq : labelOf call action rendered =
    call.object ++ "." ++ call.method ++ " action=" ++ action ++ " by=" ++ rendered :=
  rfl

theorem beginLine_eq : beginLine service label = service ++ ": audit: begin " ++ label := rfl

theorem okLine_eq : okLine service label millis =
    service ++ ": audit: ok " ++ label ++ " (" ++ toString millis ++ "ms)" :=
  rfl

theorem failedLine_eq : failedLine service label millis reason =
    service ++ ": audit: failed " ++ label ++ " (" ++ toString millis ++ "ms): " ++ bound reason :=
  rfl

end Concatenations

/-- What beginning an operation gives: the operation, the lines written, and the name cache. -/
structure Begun where
  /-- The operation. -/
  operation : Operation
  /-- The lines written. -/
  lines : List String
  /-- The name cache afterwards. -/
  names : NameCache

namespace Operation

/-- Begin auditing a call, announcing it now if it changes something. -/
def begin (lookup : UInt32 → Lookup) (service : String) (call : Call) (caller : Caller)
    (now : ℕ) (names : NameCache) : Begun :=
  match call.authorization with
  | .unprivileged => ⟨⟨service, none, now⟩, [], names⟩
  | .policy action =>
    let (label, names) := describe lookup call action caller names
    ⟨⟨service, some label, now⟩, [beginLine service label], names⟩

/-- Whether the operation writes journal lines at all. -/
def isAudited (o : Operation) : Bool := o.label.isSome

/-- The whole milliseconds between two times. -/
def elapsedMillis (started now : ℕ) : ℕ := (now - started) / 1000000

/-- Report the outcome, with `none` for success: the lines written. -/
def finish (o : Operation) (failure : Option String) (now : ℕ) : List String :=
  match o.label with
  | none => []
  | some label =>
    match failure with
    | none => [okLine o.service label (elapsedMillis o.started now)]
    | some reason => [failedLine o.service label (elapsedMillis o.started now) reason]

variable {lookup : UInt32 → Lookup} {service action : String} {call : Call} {caller : Caller}
  {now : ℕ} {names : NameCache}

/-- The label of an operation shows the account name that the lookup and the cache give. -/
theorem describe_fst : (describe lookup call action caller names).1 =
    labelOf call action (caller.displayAs (caller.accountName lookup names).1) :=
  rfl

theorem begin_unprivileged (hcall : call.authorization = .unprivileged) :
    begin lookup service call caller now names = ⟨⟨service, none, now⟩, [], names⟩ := by
  simp only [begin, hcall]

theorem begin_policy (hcall : call.authorization = .policy action) :
    begin lookup service call caller now names =
      ⟨⟨service, some (describe lookup call action caller names).1, now⟩,
        [beginLine service (describe lookup call action caller names).1],
        (describe lookup call action caller names).2⟩ := by
  simp only [begin, hcall]

end Operation

end UdsPolicy
