import Mathlib.Data.List.Induction
import UdsPolicy.Watchdog.Activity

/-!
# The verdict, computed from the trace

A trace of stamps says by itself whether a call is open, when it started and
when anything of interest was last stamped. The record keeps just as much of the
trace as the verdict needs, whatever the order of the stamps and however early
the clock was sampled for the query.
-/

namespace UdsPolicy

/-- The stamping operations. -/
inductive Stamp
  | tick
  | callStarted (kind : InFlight)
  | progressed
  | callFinished
  deriving DecidableEq, Repr

namespace Stamp

/-- The operation on the record. -/
def apply (now : ℕ) : Stamp → ServeActivity → ServeActivity
  | .tick, a => a.tick now
  | .callStarted kind, a => a.callStarted kind now
  | .progressed, a => a.progressed now
  | .callFinished, a => a.callFinished now

/-- Whether a stamp says that the loop has turned. -/
def isTurn : Stamp → Bool
  | .tick | .callFinished => true
  | _ => false

/-- Whether a stamp reports progress. -/
def isProgressed : Stamp → Bool
  | .progressed => true
  | _ => false

/-- Whether a stamp starts or ends a call. -/
def isBoundary : Stamp → Bool
  | .callStarted _ | .callFinished => true
  | _ => false

end Stamp

/-- A stamp and the time at which it is made. -/
structure Event where
  /-- When the stamp is made. -/
  time : ℕ
  /-- What is stamped. -/
  stamp : Stamp
  deriving DecidableEq, Repr

namespace Trace

/-- The record after a trace. -/
def record (a : ServeActivity) (trace : List Event) : ServeActivity :=
  trace.foldl (fun a e => e.stamp.apply e.time a) a

/-- The times of those events of a trace that satisfy a test. -/
def times (p : Stamp → Bool) (trace : List Event) : List ℕ :=
  (trace.filter fun e => p e.stamp).map Event.time

/-- The latest of a time and some more. -/
def latest (t : ℕ) (ts : List ℕ) : ℕ := ts.foldl max t

theorem times_cons_of_pos {p : Stamp → Bool} {e : Event} (h : p e.stamp = true)
    (trace : List Event) : times p (e :: trace) = e.time :: times p trace := by
  simp [times, h]

theorem times_cons_of_neg {p : Stamp → Bool} {e : Event} (h : p e.stamp = false)
    (trace : List Event) : times p (e :: trace) = times p trace := by
  simp [times, h]

/-- The latest of an early time and others is the latest of the others. -/
theorem latest_cons_of_le {t u : ℕ} (h : t ≤ u) (us : List ℕ) :
    latest t (u :: us) = latest u us := by
  simp only [latest, List.foldl_cons, Nat.max_eq_right h]

/-- The call that is open after a trace: it started at `start`, and since then there has been
no other start and no finish but the `later` events. -/
def Open (trace : List Event) (kind : InFlight) (start : ℕ) (later : List Event) : Prop :=
  (∃ before, trace = before ++ ⟨start, .callStarted kind⟩ :: later) ∧
    ∀ e ∈ later, e.stamp.isBoundary = false

/-- No call has started since the last one finished. -/
def Idle (trace : List Event) : Prop :=
  ∀ before e later kind, trace = before ++ e :: later → e.stamp = .callStarted kind →
    ∃ f ∈ later, f.stamp = .callFinished

/-! ### The record as a function of the trace -/

section Record

variable {trace later more : List Event} {s : ActivityState} {t now start : ℕ}
  {kind : InFlight} {liveness : Liveness}

/-- A stamp on the state under a lock that is not poisoned. -/
def stampState (e : Event) (s : ActivityState) : ActivityState :=
  (e.stamp.apply e.time ⟨⟨s, false⟩⟩).state.value

/-- Stamping does not poison the lock, so the record is a function of the state. -/
theorem record_eq :
    record ⟨⟨s, false⟩⟩ trace = ⟨⟨trace.foldl (fun s e => stampState e s) s, false⟩⟩ := by
  induction trace generalizing s with
  | nil => rfl
  | cons e trace ih =>
    have hstamp : e.stamp.apply e.time ⟨⟨s, false⟩⟩ = ⟨⟨stampState e s, false⟩⟩ := by
      obtain ⟨time, stamp⟩ := e
      cases stamp <;> rfl
    simp only [record, List.foldl_cons, hstamp] at ih ⊢
    exact ih

/-- The state after a trace. -/
def stateAfter (s : ActivityState) (trace : List Event) : ActivityState :=
  trace.foldl (fun s e => stampState e s) s

@[simp] theorem stateAfter_cons (e : Event) :
    stateAfter s (e :: trace) = stateAfter (stampState e s) trace := rfl

theorem stateAfter_append (s : ActivityState) (trace more : List Event) :
    stateAfter s (trace ++ more) = stateAfter (stateAfter s trace) more :=
  List.foldl_append

/-- In a trace whose times do not decrease, the last turn is the latest one. -/
theorem lastTick_stateAfter (hmono : (s.lastTick :: trace.map Event.time).Pairwise (· ≤ ·)) :
    (stateAfter s trace).lastTick = latest s.lastTick (times Stamp.isTurn trace) := by
  induction trace generalizing s with
  | nil => rfl
  | cons e trace ih =>
    obtain ⟨time, stamp⟩ := e
    simp only [List.map_cons, List.pairwise_cons, List.mem_cons, forall_eq_or_imp] at hmono
    obtain ⟨⟨hle, hrest⟩, hlater, hpairs⟩ := hmono
    have hsame : (s.lastTick :: trace.map Event.time).Pairwise (· ≤ ·) :=
      List.pairwise_cons.mpr ⟨hrest, hpairs⟩
    have hturned : (time :: trace.map Event.time).Pairwise (· ≤ ·) :=
      List.pairwise_cons.mpr ⟨hlater, hpairs⟩
    rw [stateAfter_cons]
    cases stamp with
    | tick | callFinished =>
      rw [ih hturned, times_cons_of_pos rfl, latest_cons_of_le hle]
      rfl
    | callStarted | progressed =>
      rw [times_cons_of_neg rfl]
      exact ih hsame

/-- While a call is open only its progress changes, and the last progress is the latest. -/
theorem inFlight_stateAfter {f : InFlightState} (hf : s.inFlight = some f)
    (hlater : ∀ e ∈ later, e.stamp.isBoundary = false)
    (hmono : (f.lastProgress :: later.map Event.time).Pairwise (· ≤ ·)) :
    (stateAfter s later).inFlight =
      some { f with lastProgress := latest f.lastProgress (times Stamp.isProgressed later) } := by
  induction later generalizing s f with
  | nil => exact hf
  | cons e later ih =>
    obtain ⟨time, stamp⟩ := e
    obtain ⟨hstamp, hrestLater⟩ := List.forall_mem_cons.mp hlater
    simp only [List.map_cons, List.pairwise_cons, List.mem_cons, forall_eq_or_imp] at hmono
    obtain ⟨⟨hle, hrest⟩, hnext, hpairs⟩ := hmono
    rw [stateAfter_cons]
    cases stamp with
    | callStarted | callFinished => cases hstamp
    | tick =>
      have htick : (stampState ⟨time, .tick⟩ s).inFlight = some f := hf
      rw [ih htick hrestLater (List.pairwise_cons.mpr ⟨hrest, hpairs⟩), times_cons_of_neg rfl]
    | progressed =>
      have hprogress : (stampState ⟨time, .progressed⟩ s).inFlight =
          some { f with lastProgress := time } := by
        show s.inFlight.map _ = _
        rw [hf]
        rfl
      rw [ih hprogress hrestLater (List.pairwise_cons.mpr ⟨hnext, hpairs⟩), times_cons_of_pos rfl,
        latest_cons_of_le hle]

/-- Where an event of a longer trace stands: it is the last one, or it stands in the trace. -/
theorem append_eq_split {trace before later : List Event} {e x : Event}
    (h : trace ++ [x] = before ++ e :: later) :
    e = x ∧ later = [] ∨ ∃ later', later = later' ++ [x] ∧ trace = before ++ e :: later' := by
  rcases List.eq_nil_or_concat later with rfl | ⟨later', last, rfl⟩
  · obtain ⟨-, hlast⟩ := List.append_inj' h rfl
    exact .inl ⟨(List.singleton_inj.mp hlast).symm, rfl⟩
  · rw [List.concat_eq_append, ← List.cons_append, ← List.append_assoc] at h
    obtain ⟨htrace, hlast⟩ := List.append_inj' h rfl
    rw [List.concat_eq_append, ← List.singleton_inj.mp hlast]
    exact .inr ⟨later', rfl, htrace⟩

/-- A call that is open is not finished. -/
theorem not_idle_of_open (h : Open trace kind start later) : ¬Idle trace := by
  intro hidle
  obtain ⟨⟨before, htrace⟩, hlater⟩ := h
  obtain ⟨f, hf, hfinished⟩ := hidle before _ later kind htrace rfl
  have := hlater f hf
  rw [hfinished] at this
  cases this

/-- Every trace leaves the loop idle, with nothing in flight, or leaves a call open. -/
theorem idle_or_open (hs : s.inFlight = none) (trace : List Event) :
    Idle trace ∧ (stateAfter s trace).inFlight = none ∨
      ∃ kind start later, Open trace kind start later := by
  induction trace using List.reverseRecOn with
  | nil =>
    refine .inl ⟨fun before e later kind htrace => ?_, hs⟩
    simp at htrace
  | append_singleton trace e ih =>
    obtain ⟨time, stamp⟩ := e
    have hafter : stateAfter s (trace ++ [⟨time, stamp⟩]) =
        stampState ⟨time, stamp⟩ (stateAfter s trace) := stateAfter_append s trace _
    -- A stamp that is no boundary leaves the trace as it found it.
    have hcontinue (hstamp : stamp.isBoundary = false)
        (hflight : (stateAfter s trace).inFlight = none →
          (stampState ⟨time, stamp⟩ (stateAfter s trace)).inFlight = none) :
        Idle (trace ++ [⟨time, stamp⟩]) ∧
          (stateAfter s (trace ++ [⟨time, stamp⟩])).inFlight = none ∨
          ∃ kind start later, Open (trace ++ [⟨time, stamp⟩]) kind start later := by
      rcases ih with ⟨hidle, hnone⟩ | ⟨kind, start, later, ⟨before, rfl⟩, hlater⟩
      · refine .inl ⟨fun before e later kind hsplit hstarted => ?_, hafter ▸ hflight hnone⟩
        rcases append_eq_split hsplit with ⟨rfl, -⟩ | ⟨later', rfl, htrace⟩
        · obtain rfl : stamp = .callStarted kind := hstarted
          cases hstamp
        · obtain ⟨f, hf, hfinished⟩ := hidle before e later' kind htrace hstarted
          exact ⟨f, List.mem_append_left _ hf, hfinished⟩
      · refine .inr ⟨kind, start, later ++ [⟨time, stamp⟩], ⟨before, by simp⟩, ?_⟩
        intro e he
        rcases List.mem_append.mp he with he | he
        · exact hlater e he
        · obtain rfl := List.mem_singleton.mp he
          exact hstamp
    cases stamp with
    | tick => exact hcontinue rfl id
    | progressed =>
      refine hcontinue rfl fun hnone => ?_
      show (stateAfter s trace).inFlight.map _ = none
      rw [hnone]
      rfl
    | callStarted kind => exact .inr ⟨kind, time, [], ⟨trace, rfl⟩, nofun⟩
    | callFinished =>
      refine .inl ⟨fun before e later kind htrace hstarted => ?_, hafter ▸ rfl⟩
      rcases append_eq_split htrace with ⟨rfl, -⟩ | ⟨later', rfl, -⟩
      · cases hstarted
      · exact ⟨_, List.mem_append_right _ (List.mem_singleton.mpr rfl), rfl⟩

/-- The call that the record has in flight is the one that is open in the trace. -/
theorem inFlight_of_open (h : Open trace kind start later)
    (hmono : (trace.map Event.time).Pairwise (· ≤ ·)) :
    (stateAfter s trace).inFlight =
      some ⟨kind, start, latest start (times Stamp.isProgressed later)⟩ := by
  obtain ⟨⟨before, rfl⟩, hlater⟩ := h
  rw [stateAfter_append, stateAfter_cons]
  have hstarted : (stampState ⟨start, .callStarted kind⟩ (stateAfter s before)).inFlight =
      some ⟨kind, start, start⟩ := rfl
  rw [List.map_append, List.map_cons, List.pairwise_append] at hmono
  exact inFlight_stateAfter hstarted hlater hmono.2.1

/-- An answer that depends on an optional ceiling. -/
theorem all_ceiling_iff {c : Option ℕ} {d : ℕ} :
    c.all (fun ceiling => decide (d ≤ ceiling)) = true ↔
      ∀ ceiling, c = some ceiling → d ≤ ceiling := by
  cases c <;> simp

/-- An idle loop is judged by its latest turn. -/
theorem isAlive_of_idle (hmono : (t :: trace.map Event.time).Pairwise (· ≤ ·)) (h : Idle trace) :
    (record (.new t) trace).isAlive now liveness = true ↔
      ∀ ceiling, liveness.idleTickCeiling = some ceiling →
        now - latest t (times Stamp.isTurn trace) ≤ ceiling := by
  have hflight : (stateAfter ⟨t, none⟩ trace).inFlight = none := by
    rcases idle_or_open (s := ⟨t, none⟩) rfl trace with ⟨-, hnone⟩ | ⟨kind, start, later, hopen⟩
    · exact hnone
    · exact absurd h (not_idle_of_open hopen)
  have htick := lastTick_stateAfter (s := ⟨t, none⟩) hmono
  have hverdict : (record (.new t) trace).isAlive now liveness =
      liveness.idleTickCeiling.all fun ceiling =>
        decide (now - (stateAfter ⟨t, none⟩ trace).lastTick ≤ ceiling) := by
    rw [ServeActivity.new, record_eq]
    exact ServeActivity.isAlive_idle hflight
  rw [hverdict, htick]
  exact all_ceiling_iff

/-- A bounded call is judged by its start, whatever has been stamped since. -/
theorem isAlive_of_bounded (hmono : (t :: trace.map Event.time).Pairwise (· ≤ ·))
    (h : Open trace .bounded start later) :
    (record (.new t) trace).isAlive now liveness = true ↔
      now - start ≤ liveness.longestBoundedCall := by
  have hflight := inFlight_of_open (s := ⟨t, none⟩) h (List.pairwise_cons.mp hmono).2
  have hverdict : (record (.new t) trace).isAlive now liveness =
      decide (now - start ≤ liveness.longestBoundedCall) := by
    rw [ServeActivity.new, record_eq]
    exact ServeActivity.isAlive_bounded hflight
  rw [hverdict]
  exact decide_eq_true_iff

/-- A streaming call is judged by its latest progress. -/
theorem isAlive_of_streaming (hmono : (t :: trace.map Event.time).Pairwise (· ≤ ·))
    (h : Open trace .streaming start later) :
    (record (.new t) trace).isAlive now liveness = true ↔
      ∀ ceiling, liveness.longestSilentStream = some ceiling →
        now - latest start (times Stamp.isProgressed later) ≤ ceiling := by
  have hflight := inFlight_of_open (s := ⟨t, none⟩) h (List.pairwise_cons.mp hmono).2
  have hverdict : (record (.new t) trace).isAlive now liveness =
      liveness.longestSilentStream.all fun ceiling =>
        decide (now - latest start (times Stamp.isProgressed later) ≤ ceiling) := by
    rw [ServeActivity.new, record_eq]
    exact ServeActivity.isAlive_streaming hflight
  rw [hverdict]
  exact all_ceiling_iff

/-- A call stays open as long as no call starts or finishes. -/
theorem Open.append (h : Open trace kind start later)
    (hmore : ∀ e ∈ more, e.stamp.isBoundary = false) :
    Open (trace ++ more) kind start (later ++ more) := by
  obtain ⟨⟨before, rfl⟩, hlater⟩ := h
  refine ⟨⟨before, by simp⟩, fun e he => ?_⟩
  rcases List.mem_append.mp he with he | he
  · exact hlater e he
  · exact hmore e he

/-- **Verdict.** Whatever the order of the stamps, and also for a clock sample older than they
are, the record gives the answer that the trace alone determines. An idle loop is judged by
its latest turn, a bounded call by its start and a streaming call by its latest progress;
and a bounded call that is judged wedged stays so until it finishes or another starts. -/
theorem isAlive_eq_verdict (t₀ : ℕ) (trace : List Event) (now : ℕ) (liveness : Liveness)
    (hmono : (t₀ :: trace.map Event.time).Pairwise (· ≤ ·)) :
    (Idle trace ∨ ∃ kind start later, Open trace kind start later) ∧
      (Idle trace → ((record (.new t₀) trace).isAlive now liveness = true ↔
        ∀ ceiling, liveness.idleTickCeiling = some ceiling →
          now - latest t₀ (times Stamp.isTurn trace) ≤ ceiling)) ∧
      (∀ start later, Open trace .bounded start later →
        ((record (.new t₀) trace).isAlive now liveness = true ↔
          now - start ≤ liveness.longestBoundedCall)) ∧
      (∀ start later, Open trace .streaming start later →
        ((record (.new t₀) trace).isAlive now liveness = true ↔
          ∀ ceiling, liveness.longestSilentStream = some ceiling →
            now - latest start (times Stamp.isProgressed later) ≤ ceiling)) ∧
      ∀ start later, Open trace .bounded start later →
        (record (.new t₀) trace).isAlive now liveness = false →
        ∀ more now', (∀ e ∈ more, e.stamp.isBoundary = false) →
          (t₀ :: (trace ++ more).map Event.time).Pairwise (· ≤ ·) → now ≤ now' →
          (record (.new t₀) (trace ++ more)).isAlive now' liveness = false := by
  refine ⟨?_, isAlive_of_idle hmono, fun _ _ => isAlive_of_bounded hmono,
    fun _ _ => isAlive_of_streaming hmono, ?_⟩
  · rcases idle_or_open (s := ⟨t₀, none⟩) rfl trace with ⟨hidle, -⟩ | hopen
    · exact .inl hidle
    · exact .inr hopen
  · intro start later hopen hwedged more now' hmore hmono' hle
    have hlate : ¬now - start ≤ liveness.longestBoundedCall := by
      rw [← isAlive_of_bounded hmono hopen, hwedged]
      simp
    rw [← Bool.not_eq_true, isAlive_of_bounded hmono' (hopen.append hmore)]
    omega

/-- A tick and a report of progress do not extend a bounded call of eleven minutes. -/
theorem isAlive_eq_verdict_wedged :
    (record (.new 0) [⟨1, .callStarted .bounded⟩, ⟨5, .tick⟩, ⟨9, .progressed⟩]).isAlive
      (660 * 10 ^ 9) .new = false := by
  have hverdict := (isAlive_eq_verdict 0
    [⟨1, .callStarted .bounded⟩, ⟨5, .tick⟩, ⟨9, .progressed⟩] (660 * 10 ^ 9) .new
    (by decide)).2.2.1
  rw [← Bool.not_eq_true, hverdict 1 [⟨5, .tick⟩, ⟨9, .progressed⟩] ⟨⟨[], rfl⟩, by decide⟩]
  decide

end Record

end Trace

end UdsPolicy
