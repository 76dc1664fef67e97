import UdsPolicy.General.Accompanied
import UdsPolicy.Gatekeeper.Mediation
import UdsPolicy.Watchdog.Heartbeat

/-!
# The serve loop beside its heartbeat

The loop with all of its operations, while time passes and the heartbeat wakes and
looks at the record between any two of them. This is a run of the two-threaded
daemon in which accepting and answering a connection are one step each, so whatever
holds of the daemon holds of the program. Whenever the loop waits for a client or
for the name service, a call is in flight, and the heartbeat gives it ten minutes.
-/

namespace UdsPolicy

open Prog (Conducts Issues conducts_bind conducts_issue_bind)
open Runs (EveryStep Leads leads_refl leads_cons)

/-- What the loop and the heartbeat share, and what the watchdog has heard. -/
structure Watched where
  /-- The clock. -/
  now : ℕ
  /-- The shared record. -/
  activity : ServeActivity
  /-- Where the heartbeat is. -/
  heart : HeartPc
  /-- When the watchdog has been petted, oldest first. -/
  pets : List ℕ
  /-- When the loop last stamped. Nothing reads it; statements refer to it. -/
  stampedAt : ℕ

namespace Watched

/-- The record is made at `t₀`, and the heartbeat and the loop start at `t₁`. -/
def start (t₀ t₁ : ℕ) : Watched := ⟨t₁, .new t₀, .sleeping t₁, [], t₀⟩

/-- The daemon, with its loop at a control point. -/
def daemon (w : Watched) (loop : LoopPc) : Daemon :=
  ⟨w.now, loop, w.activity, w.heart, w.pets, w.stampedAt⟩

/-- Time passes, or the heartbeat takes a step. -/
inductive Beside (interval : ℕ) (w : Watched) : Watched → Prop
  /-- Time passes. -/
  | passes (d : ℕ) : Beside interval w { w with now := w.now + d }
  /-- The heartbeat's sleep ends, and it samples the clock. -/
  | wakes (since : ℕ) : w.heart = .sleeping since → since + interval ≤ w.now →
      Beside interval w { w with heart := .sampled since w.now }
  /-- The heartbeat looks at the record, pets or not, and goes back to sleep. -/
  | checks (since sample : ℕ) : w.heart = .sampled since sample → Beside interval w
      { w with
        heart := .sleeping w.now
        pets :=
          if w.activity.isAlive sample (Daemon.liveness interval) then w.pets ++ [w.now]
          else w.pets }

/-- What an operation of the loop does to the record. -/
def perform (w : Watched) (e : GateDone) : Watched :=
  match e.call with
  | .stamp s => { w with activity := s.apply w.now w.activity, stampedAt := w.now }
  | _ => w

/-- Whether a call is in flight. -/
def busy (w : Watched) : Bool := w.activity.state.value.inFlight.isSome

/-- The loop keeps its pace. -/
def Paced (interval : ℕ) (w : Watched) : Prop :=
  w.now ≤ w.stampedAt + if w.busy then tenMinutes else interval * 3

/-- The heartbeat is not late. -/
def InTime (interval : ℕ) (w : Watched) : Prop := w.now ≤ w.heart.since + interval + interval

end Watched

/-- What the two threads of a daemon share. -/
def Daemon.watched (d : Daemon) : Watched := ⟨d.now, d.activity, d.heart, d.pets, d.stampedAt⟩

/-- The loop performs a history while time passes and the heartbeat takes its steps, and `P` holds
all the time. -/
abbrev Beating (interval : ℕ) (P : Watched → Prop) :=
  Accompanied (fun w e w' => w' = w.perform e ∧ P w') fun w w' => w.Beside interval w' ∧ P w'

/-! ### Where the loop is -/

/-- Where the loop is, and how many connections it has served. -/
inductive LoopPhase
  /-- No call is in flight, and the turn has not stamped. -/
  | idle (served : ℕ)
  /-- A call is in flight. -/
  | calling (served : ℕ)
  /-- The call has returned, and the turn ends. -/
  | called (served : ℕ)

/-- What an operation changes. -/
def LoopPhase.after (phase : LoopPhase) (c : GateCall) : LoopPhase :=
  match c, phase with
  | .stamp (.callStarted _), .idle served => .calling served
  | .stamp .callFinished, .calling served => .called (servedNext served)
  | .stamp .tick, .called served => .idle served
  | _, phase => phase

/-- Where the loop is after a history. -/
def phaseOf (past : List GateDone) : LoopPhase :=
  past.foldl (fun phase e => phase.after e.call) (.idle 0)

/-- Whether an operation waits for a client or for the name service. -/
def GateCall.waits : GateCall → Bool
  | .readToEnd _ | .writeln _ _ | .name (.fromUid _) => true
  | _ => false

/-- Whether an operation stamps. -/
def GateCall.stamps : GateCall → Bool
  | .stamp _ => true
  | _ => false

/-- The condition of the loop. -/
def goesOn (limit : Option ℕ) (served : ℕ) : Bool := limit.all fun max => served < max

/-- Where the loop must be for an operation. -/
def InPhase (limit : Option ℕ) (past : List GateDone) (c : GateCall) : Prop :=
  match c with
  | .stamp (.callStarted kind) =>
    kind = .bounded ∧ ∃ served, phaseOf past = .idle served ∧ goesOn limit served = true
  | .stamp .callFinished => ∃ served, phaseOf past = .calling served
  | .stamp .tick => (∃ served, phaseOf past = .called served) ∨
      ∃ served, phaseOf past = .idle served ∧ goesOn limit served = true
  | .stamp .progressed => False
  | c => c.waits = true → ∃ served, phaseOf past = .calling served

section Phases

variable {limit : Option ℕ} {past part : List GateDone} {c : GateCall} {served : ℕ}

theorem phaseOf_concat (r : c.Reply) : phaseOf (past ++ [⟨c, r⟩]) = (phaseOf past).after c := by
  unfold phaseOf
  rw [List.foldl_append]
  rfl

/-- Only a stamp tells where the loop is. -/
theorem LoopPhase.after_of_not_stamps {phase : LoopPhase} (hc : c.stamps = false) :
    phase.after c = phase := by
  cases c with
  | stamp s => cases hc
  | _ => rfl

theorem phaseOf_append (hpart : ∀ e ∈ part, e.call.stamps = false) :
    phaseOf (past ++ part) = phaseOf past := by
  induction part generalizing past with
  | nil => rw [List.append_nil]
  | cons e part ih =>
    obtain ⟨he, hpart⟩ := List.forall_mem_cons.mp hpart
    have hall : past ++ e :: part = (past ++ [e]) ++ part := by simp
    rw [hall, ih hpart]
    obtain ⟨c, r⟩ := e
    rw [phaseOf_concat]
    exact LoopPhase.after_of_not_stamps he

/-- Apart from stamps, only what waits is tied to a phase. -/
theorem inPhase_of_not_stamps (hc : c.stamps = false)
    (hwaits : c.waits = true → ∃ served, phaseOf past = .calling served) :
    InPhase limit past c := by
  cases c with
  | stamp s => cases hc
  | _ => exact hwaits

/-- What waits does so while a call is in flight. -/
theorem InPhase.calling (h : InPhase limit past c) (hwaits : c.waits = true) :
    ∃ served, phaseOf past = .calling served := by
  cases c with
  | stamp s => cases hwaits
  | _ => exact h hwaits

/-- A part that does not stamp leaves the loop where it is. -/
theorem conducts_of_not_stamps {β : Type} {g : Gate β} {K : GateCall → Prop}
    (hg : Prog.Only K g) (hstamps : ∀ c, K c → c.stamps = false)
    (hwaits : ∀ c, K c → c.waits = true → ∃ served, phaseOf past = .calling served) :
    Conducts (InPhase limit) (fun _ past' => phaseOf past' = phaseOf past) past g := by
  refine Conducts.imp (hg.conducts fun part c hpart hc => ?_) ?_
  · refine inPhase_of_not_stamps (hstamps c hc) ?_
    rw [phaseOf_append fun e he => hstamps _ (hpart e he)]
    exact hwaits c hc
  · rintro _ _ ⟨part, rfl, hpart⟩
    exact phaseOf_append fun e he => hstamps _ (hpart e he)

theorem not_stamps_of_accepts {l : ℕ} (h : c.accepts l = true) :
    c.stamps = false ∧ c.waits = false := by
  cases c with
  | sys => exact ⟨rfl, rfl⟩
  | _ => cases h

theorem not_stamps_of_answers (h : c.answers = true) : c.stamps = false := by
  cases c with
  | stamp => cases h
  | _ => rfl

variable {α : Type} [Authorizer α] {authorizer : α} {socket : Socket}

/-- **Step lemma.** A turn stamps in order, and only waits while a call is in flight. -/
theorem conducts_turn_inPhase (hphase : phaseOf past = .idle served)
    (hgoes : goesOn limit served = true) :
    Conducts (InPhase limit) (fun served' past' => phaseOf past' = .idle served') past
      (turn authorizer socket served) := by
  have htick (past' : List GateDone) (served' : ℕ) (hready : InPhase limit past' (.stamp .tick))
      (hnext : (phaseOf past').after (.stamp .tick) = .idle served') :
      Conducts (InPhase limit) (fun served past => phaseOf past = .idle served) past'
        (gate (.stamp .tick) >>= fun _ => pure served') := by
    refine conducts_issue_bind.mpr ⟨hready, fun r => ?_⟩
    show phaseOf _ = _
    rw [phaseOf_concat, hnext]
  apply conducts_bind.mpr
  refine Conducts.imp (conducts_of_not_stamps only_accept (fun c hc => (not_stamps_of_accepts hc).1)
    fun c hc hwaits => ?_) ?_
  · rw [(not_stamps_of_accepts hc).2] at hwaits
    cases hwaits
  · intro result past₁ hsame
    rw [hphase] at hsame
    rcases result with e | ⟨stream, caller⟩
    · have hidle (past' : List GateDone) (h : phaseOf past' = .idle served) :
          Conducts (InPhase limit) (fun served past => phaseOf past = .idle served) past'
            (gate (.stamp .tick) >>= fun _ => pure served) :=
        htick past' served (.inr ⟨served, h, hgoes⟩) (by rw [h]; rfl)
      show Conducts _ _ _ (if _ then _ else _)
      split
      · refine conducts_issue_bind.mpr ⟨nofun, fun r => hidle _ ?_⟩
        rw [phaseOf_concat, hsame]
        rfl
      · exact hidle past₁ hsame
    · refine conducts_issue_bind.mpr ⟨⟨rfl, served, hsame, hgoes⟩, fun r => ?_⟩
      have hcalling : phaseOf (past₁ ++ [⟨.stamp (.callStarted .bounded), r⟩]) =
          .calling served := by
        rw [phaseOf_concat, hsame]
        rfl
      apply conducts_bind.mpr
      refine Conducts.imp (conducts_of_not_stamps only_answer
        (fun c hc => not_stamps_of_answers hc) fun _ _ _ => ⟨served, hcalling⟩) ?_
      intro _ past₂ hanswered
      rw [hcalling] at hanswered
      refine conducts_issue_bind.mpr
        ⟨⟨served, hanswered⟩, fun r => htick _ (servedNext served) ?_ ?_⟩
      · refine .inl ⟨servedNext served, ?_⟩
        rw [phaseOf_concat, hanswered]
        rfl
      · rw [phaseOf_concat, hanswered]
        rfl

/-- **Run lemma.** The loop stamps in order, and only waits while a call is in flight. -/
theorem inPhase_of_run {n : ℕ} {run : List GateDone} {h : Gate (Option ℕ)}
    (hrun : Issues (acceptLoop authorizer socket limit n) run h) (before after : List GateDone)
    (e : GateDone) (hsplit : run = before ++ e :: after) : InPhase limit before e.call := by
  have hloop : Conducts (InPhase limit) (fun _ _ => True) []
      (acceptLoop authorizer socket limit n) :=
    Prog.conducts_repeatWhile
      (fun served past hgoes hphase => conducts_turn_inPhase hphase hgoes) n 0 rfl
  exact (hloop.sound hrun).2 before e after hsplit

end Phases

/-! ### The daemon that the program is -/

/-- The control points of the daemon's loop, by the phases of the program. -/
inductive LoopPhase.At : LoopPhase → LoopPc → Prop
  | idle (served : ℕ) : At (.idle served) (.returned served)
  | calling (served : ℕ) (caller : Caller) : At (.calling served) (.answer served caller)
  | called (served : ℕ) : At (.called served) (.tick served)

section Refinement

variable {interval n t₀ t₁ served : ℕ} {limit : Option ℕ} {P : Watched → Prop} {w w' : Watched}
  {loop : LoopPc} {past run : List GateDone} {e : GateDone} {d d' : Daemon} {act : DaemonAction}

/-- The clock and the heartbeat are those of the daemon. -/
theorem Watched.Beside.steps (h : w.Beside interval w') (limit : Option ℕ) (loop : LoopPc) :
    ∃ act, (w.daemon loop).step interval limit act = some (w'.daemon loop) := by
  cases h with
  | passes d => exact ⟨.pass d, rfl⟩
  | wakes since hheart hslept =>
    refine ⟨.wake, ?_⟩
    simp only [Daemon.step, Watched.daemon, hheart, if_pos hslept]
  | checks since sample hheart =>
    refine ⟨.check, ?_⟩
    simp only [Daemon.step, Watched.daemon, hheart]

/-- The daemon begins a turn where the program does. -/
theorem Watched.enters (w : Watched) (hgoes : goesOn limit served = true)
    (accepted : Except IoError Caller) :
    (w.daemon (.returned served)).step interval limit (.loop accepted) =
      some (w.daemon (.accept served)) :=
  if_pos hgoes

/-- What the daemon has to show of the program: its record at the control point of its phase. -/
def Shows (P : Watched → Prop) (past : List GateDone) (w : Watched) (d : Daemon) : Prop :=
  P w ∧ ∃ loop, (phaseOf past).At loop ∧ d = w.daemon loop

/-- **Step lemma.** A stamp of the program is some steps of the daemon, and everything else that
the program does is none. -/
theorem leads_of_perform (hphase : InPhase limit past e.call) (h : Shows P past w d)
    (hP : P (w.perform e)) :
    Leads (Daemon.step interval limit) (fun d => P d.watched)
      (Shows P (past ++ [e]) (w.perform e)) d := by
  obtain ⟨hw, loop, hat, rfl⟩ := h
  obtain ⟨c, r⟩ := e
  have hnext (loop' : LoopPc) (h : ((phaseOf past).after c).At loop') :
      Shows P (past ++ [⟨c, r⟩]) (w.perform ⟨c, r⟩) ((w.perform ⟨c, r⟩).daemon loop') := by
    refine ⟨hP, loop', ?_, rfl⟩
    rw [phaseOf_concat]
    exact h
  cases c with
  | stamp s =>
    cases s with
    | callStarted kind =>
      obtain ⟨rfl, served, hserved, hgoes⟩ := hphase
      rw [hserved] at hat hnext
      cases hat
      refine leads_cons (w.enters hgoes (.ok .inProcess)) hw ?_
      refine leads_cons (a := .loop (.ok .inProcess)) rfl hw ?_
      refine leads_cons (a := .loop (.ok .inProcess)) rfl hP ?_
      exact leads_refl (hnext _ (.calling served .inProcess))
    | callFinished =>
      obtain ⟨served, hserved⟩ := hphase
      rw [hserved] at hat hnext
      cases hat
      refine leads_cons (a := .loop (.ok .inProcess)) rfl hw ?_
      refine leads_cons (a := .loop (.ok .inProcess)) rfl hP ?_
      exact leads_refl (hnext _ (.called (servedNext served)))
    | tick =>
      rcases hphase with ⟨served, hserved⟩ | ⟨served, hserved, hgoes⟩
      · rw [hserved] at hat hnext
        cases hat
        refine leads_cons (a := .loop (.ok .inProcess)) rfl hP ?_
        exact leads_refl (hnext _ (.idle served))
      · rw [hserved] at hat hnext
        cases hat
        refine leads_cons (w.enters hgoes (.ok .inProcess)) hw ?_
        refine leads_cons (a := .loop (.error ⟨.timedOut, "timed out"⟩)) rfl hw ?_
        refine leads_cons (a := .loop (.ok .inProcess)) rfl hP ?_
        exact leads_refl (hnext _ (.idle served))
    | progressed => exact hphase.elim
  | _ => exact leads_refl (hnext loop hat)

/-- **Refinement.** What the program does is what the daemon does. -/
theorem leads_of_beating (hrun : ∀ before after e, run = before ++ e :: after →
      InPhase limit before e.call)
    (hk : Beating interval P (.start t₀ t₁) run w) (hP : P (.start t₀ t₁)) :
    Leads (Daemon.step interval limit) (fun d => P d.watched) (Shows P run w)
      (.start t₀ t₁) := by
  refine hk.follows (fun past w w' d hstep h => ?_) (fun past e rest w w' d hall hstep h => ?_)
    ⟨hP, .returned 0, .idle 0, rfl⟩
  · obtain ⟨hw, loop, hat, rfl⟩ := h
    obtain ⟨act, hact⟩ := hstep.1.steps limit loop
    exact leads_cons hact hstep.2 (leads_refl ⟨hstep.2, loop, hat, rfl⟩)
  · obtain ⟨rfl, hw'⟩ := hstep
    exact leads_of_perform (hrun past rest e hall) h hw'

/-- A call is in flight in the record when it is in the loop. -/
theorem Daemon.Recorded.busy (h : d.Recorded) : d.watched.busy = d.loop.answering := by
  obtain ⟨state, hactivity, hrecord⟩ := h.record
  have hbusy : d.watched.busy = state.inFlight.isSome := by
    show d.activity.state.value.inFlight.isSome = _
    rw [hactivity]
  rw [hbusy]
  split at hrecord
  · rename_i hanswering
    rw [hrecord, hanswering]
    rfl
  · rename_i hidle
    rw [hrecord, Bool.eq_false_iff.mpr hidle]
    rfl

/-- **Step lemma.** A daemon that keeps its pace pets regularly. -/
theorem Daemon.Regular.paced
    (h : d.Recorded ∧ d.Regular (interval + interval) t₁ ∧ d.watched.InTime interval)
    (hd' : d'.watched.Paced interval ∧ d'.watched.InTime interval)
    (hstep : d.step interval limit act = some d') :
    d'.Recorded ∧ d'.Regular (interval + interval) t₁ ∧ d'.watched.InTime interval := by
  obtain ⟨hrecorded, hregular, hintime⟩ := h
  have hrecorded' := hrecorded.step hstep
  have hpaced : d'.Paced interval := by
    have hwatched := hd'.1
    unfold Watched.Paced at hwatched
    rw [hrecorded'.busy] at hwatched
    exact hwatched
  have hpets := Daemon.checksPet_of_paced hrecorded hstep hpaced
  have hnow : d.now ≤ d.heart.since + (interval + interval) := by
    rw [← Nat.add_assoc]
    exact hintime
  exact ⟨hrecorded', hregular.step hstep hpets fun _ => hnow, hd'.2⟩

variable {α : Type} [Authorizer α] {authorizer : α} {socket : Socket} {h : Gate (Option ℕ)}

/-- **The program is the daemon.** The loop runs with all of its operations and whatever replies,
while time passes and the heartbeat takes its steps. Then the daemon has a run that shows the same
record, heartbeat and pets, and comes to no other states than the program does. At every moment
the heartbeat judges the loop by its last stamp, with ten minutes for a call in flight and three
intervals otherwise; and whenever the loop waits for a client or for the name service, a call is
in flight. So if the loop keeps its pace and the heartbeat is in time, the pets are regular. -/
theorem loop_refines_daemon (hrun : Issues (acceptLoop authorizer socket limit n) run h)
    (hk : Beating interval P (.start t₀ t₁) run w) (hP : P (.start t₀ t₁)) :
    Leads (Daemon.step interval limit) (fun d => P d.watched)
        (fun d => d.watched = w ∧ d.loop.answering = w.busy) (.start t₀ t₁) ∧
      (∀ before after v, run = before ++ after → Beating interval P (.start t₀ t₁) before v →
        (∀ sample, v.activity.isAlive sample (Daemon.liveness interval) = true ↔
          sample - v.stampedAt ≤ if v.busy then tenMinutes else interval * 3) ∧
        ∀ e rest, after = e :: rest → e.call.waits = true → v.busy = true) ∧
      ((∀ v, P v → v.Paced interval ∧ v.InTime interval) →
        List.IsChain (fun x y => y ≤ x + interval + interval) (t₁ :: w.pets)) := by
  have hphase := inPhase_of_run hrun
  have hrecorded (d : Daemon) (as : List DaemonAction)
      (hd : Runs.run (Daemon.step interval limit) (.start t₀ t₁) as = some d) : d.Recorded :=
    Runs.run_invariant_of_forall (fun _ _ _ h hstep => h.step hstep)
      (Daemon.start_recorded t₀ t₁) hd
  obtain ⟨as, d, hd, hall, -, loop, hat, rfl⟩ := leads_of_beating hphase hk hP
  refine ⟨⟨as, _, hd, hall, rfl, ?_⟩, fun before after v hsplit hv => ?_, fun hpaced => ?_⟩
  · exact (hrecorded _ as hd).busy.symm
  · have hbefore (past rest : List GateDone) (e : GateDone) (hpast : before = past ++ e :: rest) :
        InPhase limit past e.call := by
      refine hphase past (rest ++ after) e ?_
      rw [hsplit, hpast, List.append_assoc, List.cons_append]
    obtain ⟨as', d', hd', -, -, loop', hat', rfl⟩ := leads_of_beating hbefore hv hP
    have hbusy : v.busy = loop'.answering := (hrecorded _ as' hd').busy
    refine ⟨fun sample => ?_, fun e rest hafter hwaits => ?_⟩
    · have hverdict : v.activity.isAlive sample (Daemon.liveness interval) = true ↔
          sample - v.stampedAt ≤ if loop'.answering then tenMinutes else interval * 3 :=
        (hrecorded _ as' hd').isAlive_iff
      rw [hverdict, hbusy]
    · rw [hafter] at hsplit
      obtain ⟨served, hcalling⟩ := (hphase before rest e hsplit).calling hwaits
      rw [hcalling] at hat'
      cases hat'
      exact hbusy
  · have hbegin : (Daemon.start t₀ t₁).Recorded ∧
        (Daemon.start t₀ t₁).Regular (interval + interval) t₁ ∧
        (Daemon.start t₀ t₁).watched.InTime interval :=
      ⟨Daemon.start_recorded t₀ t₁, ⟨.singleton _, rfl⟩, (hpaced _ hP).2⟩
    have hend := Runs.run_invariant
      (fun _ _ _ h hd' hstep => Daemon.Regular.paced h (hpaced _ hd') hstep) hbegin hall hd
    refine hend.2.1.gaps.imp fun x y hgap => ?_
    rw [Nat.add_assoc]
    exact hgap

end Refinement

/-- A daemon with a window of two seconds that is in time. -/
def Watched.UpToDate (w : Watched) : Prop := w.Paced 1000000000 ∧ w.InTime 1000000000

instance (w : Watched) : Decidable w.UpToDate :=
  inferInstanceAs (Decidable ((_ ≤ _) ∧ _ ≤ _))

/-- The heartbeat wakes and checks while the request of root is awaited. -/
theorem rootRun_beating : ∃ w, Beating 1000000000 Watched.UpToDate (.start 0 0)
    (rootRun "hello".toUTF8) w ∧ w.pets = [1000000000] :=
  ⟨_, .own ⟨rfl, by decide⟩ <| .own ⟨rfl, by decide⟩ <| .own ⟨rfl, by decide⟩ <|
    .own ⟨rfl, by decide⟩ <| .own ⟨rfl, by decide⟩ <| .own ⟨rfl, by decide⟩ <|
    .own ⟨rfl, by decide⟩ <| .env ⟨.passes 1000000000, by decide⟩ <|
    .env ⟨.wakes 0 rfl (by decide), by decide⟩ <|
    .env ⟨.checks 0 1000000000 rfl, by decide⟩ <| .own ⟨rfl, by decide⟩ <|
    .own ⟨rfl, by decide⟩ <| .own ⟨rfl, by decide⟩ <| .own ⟨rfl, by decide⟩ <|
    .own ⟨rfl, by decide⟩ <| .own ⟨rfl, by decide⟩ <| .own ⟨rfl, by decide⟩ <|
    .own ⟨rfl, by decide⟩ <| .own ⟨rfl, by decide⟩ <| .nil _, rfl⟩

/-- It pets in time, and so does the daemon that accepts and answers root in one step each. -/
theorem loop_refines_daemon_root : ∃ as d,
    Runs.run (Daemon.step 1000000000 (some 1)) (.start 0 0) as = some d ∧
      d.pets = [1000000000] ∧
      List.IsChain (fun x y => y ≤ x + 1000000000 + 1000000000) (0 :: d.pets) := by
  obtain ⟨w, hk, hpets⟩ := rootRun_beating
  obtain ⟨⟨as, d, hd, -, rfl, -⟩, -, hregular⟩ :=
    loop_refines_daemon (rootRun_issues "hello".toUTF8) hk (by decide)
  exact ⟨as, d, hd, hpets, hregular fun v hv => hv⟩

end UdsPolicy
