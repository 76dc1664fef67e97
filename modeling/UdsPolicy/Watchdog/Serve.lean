import Mathlib.Algebra.Ring.Nat
import UdsPolicy.General.Programs
import UdsPolicy.Caller
import UdsPolicy.Socket.Kernel
import UdsPolicy.Watchdog.Activity

/-!
# The serve loop and its heartbeat

The example daemon's loop and the heartbeat thread share the activity record and
nothing else. One turn of the loop is a program over the operations it performs;
`serveTurn_presents` says that the control points below are those of the
program. Time passes between any two operations, and the heartbeat samples the
clock in one step and looks at the record in a later one.
-/

namespace UdsPolicy

/-- The operations of one turn of the loop. -/
inductive ServeCall
  | accept | callStarted
  | answer (caller : Caller)
  | callFinished
  | eprintln (line : String)
  | tick

/-- What each operation returns. -/
abbrev ServeCall.Reply : ServeCall → Type
  | .accept => Except IoError Caller
  | _ => Unit

/-- `usize::saturating_add(1)`. -/
def servedNext (served : ℕ) : ℕ := min (served + 1) (2 ^ 64 - 1)

/-- The message about an `accept` that failed. -/
def acceptFailed (error : IoError) : String := s!"echod: accept failed: {error.text}"

/-- Programs over the operations of the loop. -/
abbrev Serving := Prog ServeCall ServeCall.Reply

/-- Perform one operation of the loop. -/
def perform (c : ServeCall) : Serving c.Reply := Prog.issue c

/-- One turn of the loop in `serve`: accept, answer if somebody has connected, tick. Returns
how many connections have been served. -/
def serveTurn (served : ℕ) : Serving ℕ := do
  let served ←
    match ← perform .accept with
    | .ok caller =>
      perform .callStarted
      perform (.answer caller)
      perform .callFinished
      pure (servedNext served)
    | .error error =>
      -- A timeout is the expected wakeup of an idle loop.
      if error.kind ≠ .wouldBlock ∧ error.kind ≠ .timedOut then
        perform (.eprintln (acceptFailed error))
      pure served
  perform .tick
  return served

/-- The control points of a turn, each named after what it does next. -/
inductive LoopPc
  | accept (served : ℕ)
  | callStarted (served : ℕ) (caller : Caller)
  | answer (served : ℕ) (caller : Caller)
  | callFinished (served : ℕ)
  | eprintln (served : ℕ) (line : String)
  | tick (served : ℕ)
  | returned (served : ℕ)

namespace LoopPc

open Prog (Head)

/-- What a turn does at each control point. -/
def next : LoopPc → Head ServeCall ServeCall.Reply ℕ LoopPc
  | .accept served => .call .accept fun
    | .ok caller => .callStarted served caller
    | .error error =>
      if error.kind ≠ .wouldBlock ∧ error.kind ≠ .timedOut then
        .eprintln served (acceptFailed error)
      else .tick served
  | .callStarted served caller => .call .callStarted fun _ => .answer served caller
  | .answer served caller => .call (.answer caller) fun _ => .callFinished served
  | .callFinished served => .call .callFinished fun _ => .tick (servedNext served)
  | .eprintln served line => .call (.eprintln line) fun _ => .tick served
  | .tick served => .call .tick fun _ => .returned served
  | .returned served => .ret served

/-- Whether a call is in flight. -/
def answering : LoopPc → Bool
  | .answer _ _ | .callFinished _ => true
  | _ => false

end LoopPc

open Prog in
/-- Started at `accept`, the machine issues the operations of a turn. -/
theorem serveTurn_presents (served : ℕ) :
    Presents LoopPc.next (.accept served) (serveTurn served) := by
  refine .call rfl fun reply => ?_
  cases reply with
  | ok caller =>
    exact .call rfl fun _ => .call rfl fun _ => .call rfl fun _ => .call rfl fun _ => .ret rfl
  | error error =>
    obtain ⟨kind, text⟩ := error
    cases kind with
    | wouldBlock | timedOut => exact .call rfl fun _ => .ret rfl
    | _ => exact .call rfl fun _ => .call rfl fun _ => .ret rfl

/-- Where the heartbeat thread is. -/
inductive HeartPc
  /-- Asleep since a certain time. -/
  | sleeping (since : ℕ)
  /-- Awake, with a sample of the clock, and about to look at the record. -/
  | sampled (since sample : ℕ)

/-- When the last sleep began. -/
def HeartPc.since : HeartPc → ℕ
  | .sleeping since | .sampled since _ => since

/-- The two threads, the clock and the watchdog. -/
structure Daemon where
  /-- The clock. -/
  now : ℕ
  /-- Where the loop is. -/
  loop : LoopPc
  /-- The shared record. -/
  activity : ServeActivity
  /-- Where the heartbeat is. -/
  heart : HeartPc
  /-- When the watchdog has been petted, oldest first. -/
  pets : List ℕ
  /-- When the loop thread last stamped. Nothing reads it; statements refer to it. -/
  stampedAt : ℕ

/-- What happens next. -/
inductive DaemonAction
  /-- Time passes. -/
  | pass (d : ℕ)
  /-- The loop performs its next operation; an `accept` returns the given result. -/
  | loop (accepted : Except IoError Caller)
  /-- The heartbeat's sleep ends, and it samples the clock. -/
  | wake
  /-- The heartbeat looks at the record, pets or not, and goes back to sleep. -/
  | check

/-- The reply to an operation of the loop. -/
def ServeCall.reply (accepted : Except IoError Caller) : (c : ServeCall) → c.Reply
  | .accept => accepted
  | .callStarted | .answer _ | .callFinished | .eprintln _ | .tick => ()

namespace Daemon

/-- The effect of an operation of the loop on the record. -/
def perform (d : Daemon) : ServeCall → Daemon
  | .callStarted =>
    { d with activity := d.activity.callStarted .bounded d.now, stampedAt := d.now }
  | .callFinished => { d with activity := d.activity.callFinished d.now, stampedAt := d.now }
  | .tick => { d with activity := d.activity.tick d.now, stampedAt := d.now }
  | .accept | .answer _ | .eprintln _ => d

/-- The ceilings that the daemon sets when its accept timeout is armed. -/
def liveness (interval : ℕ) : Liveness := Liveness.new.withIdleTickCeiling (interval * 3)

/-- One action, or `none` if it cannot happen here. -/
def step (interval : ℕ) (limit : Option ℕ) (d : Daemon) : DaemonAction → Option Daemon
  | .pass t => some { d with now := d.now + t }
  | .loop accepted =>
    match d.loop.next with
    | .call c succ => some { d.perform c with loop := succ (c.reply accepted) }
    | .ret served =>
      -- The loop's condition, before the next turn.
      if limit.all fun max => served < max then some { d with loop := .accept served } else none
  | .wake =>
    match d.heart with
    | .sleeping since =>
      if since + interval ≤ d.now then some { d with heart := .sampled since d.now } else none
    | .sampled _ _ => none
  | .check =>
    match d.heart with
    | .sleeping _ => none
    | .sampled _ sample =>
      some { d with
        heart := .sleeping d.now
        pets :=
          if d.activity.isAlive sample (liveness interval) then d.pets ++ [d.now] else d.pets }

/-- The record is made at `t₀`, and the heartbeat thread and the loop start at `t₁`. -/
def start (t₀ t₁ : ℕ) : Daemon where
  now := t₁
  loop := .returned 0
  activity := .new t₀
  heart := .sleeping t₁
  pets := []
  stampedAt := t₀

end Daemon

end UdsPolicy
