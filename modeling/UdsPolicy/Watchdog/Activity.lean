import Mathlib.Algebra.Ring.Nat
import Mathlib.Data.Nat.Notation

/-!
# Busy or wedged

The serve loop stamps what it is doing into a shared record, and the heartbeat
thread asks the record whether the loop is alive. Instants and durations are in
nanoseconds, and the subtraction of instants saturates at zero as in the source.
-/

namespace UdsPolicy

/-- The shape of a call that is holding the serve thread. -/
inductive InFlight
  /-- A call expected to return. -/
  | bounded
  /-- A call that holds the connection open by design. -/
  | streaming
  deriving DecidableEq, Repr

/-- When the accept loop counts as wedged rather than busy. -/
structure Liveness where
  /-- How stale the loop's tick may go while no call is in flight. -/
  idleTickCeiling : Option ℕ
  /-- The longest a bounded call may run. -/
  longestBoundedCall : ℕ
  /-- How long a streaming call may go without stamping progress. -/
  longestSilentStream : Option ℕ
  deriving DecidableEq, Repr

namespace Liveness

/-- Ten minutes for a bounded call, and no other ceiling. -/
def new : Liveness := ⟨none, 600 * 10 ^ 9, none⟩

/-- Expect the accept loop to turn at least this often while idle. -/
def withIdleTickCeiling (l : Liveness) (ceiling : ℕ) : Liveness :=
  { l with idleTickCeiling := some ceiling }

/-- Set the ceiling on a bounded call. -/
def withLongestBoundedCall (l : Liveness) (ceiling : ℕ) : Liveness :=
  { l with longestBoundedCall := ceiling }

/-- Require an open stream to stamp progress at least this often. -/
def withSilentStreamCeiling (l : Liveness) (ceiling : ℕ) : Liveness :=
  { l with longestSilentStream := some ceiling }

end Liveness

/-- The call in flight. -/
structure InFlightState where
  /-- Its shape. -/
  kind : InFlight
  /-- When it started. -/
  startedAt : ℕ
  /-- When it last made progress. -/
  lastProgress : ℕ
  deriving DecidableEq, Repr

/-- What the lock protects. -/
structure ActivityState where
  /-- When the loop last turned. -/
  lastTick : ℕ
  /-- The call in flight, if any. -/
  inFlight : Option InFlightState
  deriving DecidableEq, Repr

/-- A mutex: its value, and whether a holder has panicked. -/
structure Mutex (α : Type) where
  /-- The protected value. -/
  value : α
  /-- A poisoned mutex refuses to be locked. -/
  poisoned : Bool
  deriving DecidableEq, Repr

namespace Mutex

variable {α : Type}

/-- `Mutex::lock`. -/
def lock (m : Mutex α) : Option α := if m.poisoned then none else some m.value

/-- Change the value under the lock; a poisoned mutex stays as it is. -/
def update (m : Mutex α) (f : α → α) : Mutex α :=
  match m.lock with
  | some value => { m with value := f value }
  | none => m

end Mutex

/-- What the accept loop is doing, as seen by the heartbeat thread. -/
structure ServeActivity where
  /-- The shared record. -/
  state : Mutex ActivityState
  deriving DecidableEq, Repr

namespace ServeActivity

/-- A record of a loop that has just started and is idle. -/
def new (now : ℕ) : ServeActivity := ⟨⟨⟨now, none⟩, false⟩⟩

/-- The accept loop completed a turn. -/
def tick (a : ServeActivity) (now : ℕ) : ServeActivity :=
  ⟨a.state.update fun state => { state with lastTick := now }⟩

/-- A call is about to run on the serve thread. -/
def callStarted (a : ServeActivity) (kind : InFlight) (now : ℕ) : ServeActivity :=
  ⟨a.state.update fun state => { state with inFlight := some ⟨kind, now, now⟩ }⟩

/-- A streaming call made progress. Nothing happens when nothing is in flight. -/
def progressed (a : ServeActivity) (now : ℕ) : ServeActivity :=
  ⟨a.state.update fun state =>
    { state with
      inFlight := state.inFlight.map fun inFlight => { inFlight with lastProgress := now } }⟩

/-- The call returned. -/
def callFinished (a : ServeActivity) (now : ℕ) : ServeActivity :=
  ⟨a.state.update fun _ => ⟨now, none⟩⟩

/-- Whether the accept loop counts as alive at `now`. -/
def isAlive (a : ServeActivity) (now : ℕ) (liveness : Liveness) : Bool :=
  match a.state.lock with
  | none => false
  | some state =>
    match state.inFlight with
    | none => liveness.idleTickCeiling.all fun ceiling => now - state.lastTick ≤ ceiling
    | some inFlight =>
      match inFlight.kind with
      | .bounded => now - inFlight.startedAt ≤ liveness.longestBoundedCall
      | .streaming =>
        liveness.longestSilentStream.all fun ceiling => now - inFlight.lastProgress ≤ ceiling

section Verdicts

variable {state : ActivityState} {now start progress : ℕ} {liveness : Liveness}

theorem lock_healthy : (⟨state, false⟩ : Mutex ActivityState).lock = some state := rfl

/-- An idle loop is judged by its latest turn. -/
theorem isAlive_idle (h : state.inFlight = none) :
    isAlive ⟨⟨state, false⟩⟩ now liveness =
      liveness.idleTickCeiling.all fun ceiling => decide (now - state.lastTick ≤ ceiling) := by
  simp only [isAlive, lock_healthy, h]

/-- A bounded call is judged by its start. -/
theorem isAlive_bounded (h : state.inFlight = some ⟨.bounded, start, progress⟩) :
    isAlive ⟨⟨state, false⟩⟩ now liveness = decide (now - start ≤ liveness.longestBoundedCall) := by
  simp only [isAlive, lock_healthy, h]

/-- A streaming call is judged by its latest progress. -/
theorem isAlive_streaming (h : state.inFlight = some ⟨.streaming, start, progress⟩) :
    isAlive ⟨⟨state, false⟩⟩ now liveness =
      liveness.longestSilentStream.all fun ceiling => decide (now - progress ≤ ceiling) := by
  simp only [isAlive, lock_healthy, h]

end Verdicts

end ServeActivity

end UdsPolicy
