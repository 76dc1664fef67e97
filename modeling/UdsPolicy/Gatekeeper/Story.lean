import UdsPolicy.Gatekeeper.Program

/-!
# The story of a connection

Looks at the name cache and at the clock aside, there are only a few things that
a turn of the serve loop can do. It finds nobody, or it tells one of five stories
about one connection, in which the order of the system calls, the stamps, the
lines of the journal and the bytes on the stream is fixed. A run of the loop is
a number of such turns, and the beginning of one more.
-/

namespace UdsPolicy

open Prog (Done Issues Only Conducts Laps conducts_bind only_issue only_pure only_interpret)

/-- An operation of the serve thread with its reply. -/
abbrev GateDone := Done GateCall GateCall.Reply

/-- Whether an operation can be noticed outside the process. -/
def GateCall.outward : GateCall → Bool
  | .name _ | .now => false
  | _ => true

/-- What can be noticed of a history. -/
def outward (past : List GateDone) : List GateDone := past.filter fun e => e.call.outward

@[simp] theorem outward_append (past past' : List GateDone) :
    outward (past ++ past') = outward past ++ outward past' :=
  List.filter_append ..

theorem outward_concat {past : List GateDone} {e : GateDone} (h : e.call.outward = true) :
    outward (past ++ [e]) = outward past ++ [e] := by
  simp [outward, h]

theorem outward_concat_inward {past : List GateDone} {e : GateDone} (h : e.call.outward = false) :
    outward (past ++ [e]) = outward past := by
  simp [outward, h]

/-- A line that has been written to standard error. -/
def line (text : String) : GateDone := ⟨.sys (.eprintln text), ()⟩

/-- A stamp that has been made. -/
def stamped (s : Stamp) : GateDone := ⟨.stamp s, ()⟩

/-- The line about an `accept` that has failed for another reason than the timeout. -/
def complaint (e : IoError) : List GateDone :=
  if e.kind ≠ .wouldBlock ∧ e.kind ≠ .timedOut then [line (acceptFailed e)] else []

/-- The label of the change that a caller asks for, by the name of its account. -/
def changeLabel (caller : Caller) (name : Option String) : String :=
  labelOf change changeAction (caller.displayAs name)

section Stories

variable {α : Type} [Authorizer α]

/-- What is done on a connection before anything is decided. -/
def opening (timeout : Option ℕ) (stream : Connection) (cred : Except IoError Cred) :
    List GateDone :=
  [⟨.sys (.peerCredentials stream), cred⟩, ⟨.sys (.setReadTimeout stream timeout), .ok ()⟩,
    stamped (.callStarted .bounded)]

/-- What is done when everything has been said. -/
def closing (stream : Connection) : List GateDone :=
  [⟨.hangUp stream, ()⟩, stamped .callFinished, stamped .tick]

/-- What happens between the two. -/
inductive Decided (authorizer : α) (stream : Connection) (cred : Except IoError Cred) :
    List GateDone → Prop
  /-- The authorizer refuses, and the client is told so, if it is still there. -/
  | refused (denial : Denial) (name : Option String) (gone : Except IoError Unit) :
      authorize authorizer change (.ofCredentials cred) = .error denial →
      Decided authorizer stream cred
        [line (refusedLine ((Caller.ofCredentials cred).displayAs name) denial),
          ⟨.writeln stream (refusal denial), gone⟩]
  /-- The request cannot be read. -/
  | unread (name : Option String) (e : IoError) (millis : ℕ) :
      authorize authorizer change (.ofCredentials cred) = .ok () →
      Decided authorizer stream cred
        [line (beginLine daemon (changeLabel (.ofCredentials cred) name)),
          ⟨.readToEnd stream, .error e⟩,
          line (failedLine daemon (changeLabel (.ofCredentials cred) name) millis
            (unreadRequest e))]
  /-- The request has been read, and the reply cannot be written. -/
  | unanswered (name : Option String) (said : ByteArray) (e : IoError) (millis : ℕ) :
      authorize authorizer change (.ofCredentials cred) = .ok () →
      Decided authorizer stream cred
        [line (beginLine daemon (changeLabel (.ofCredentials cred) name)),
          ⟨.readToEnd stream, .ok said⟩, ⟨.writeln stream (replyTo said), .error e⟩,
          line (failedLine daemon (changeLabel (.ofCredentials cred) name) millis
            (unwrittenReply e))]
  /-- The request has been read, and the reply written. -/
  | answered (name name' : Option String) (said : ByteArray) (millis : ℕ) :
      authorize authorizer change (.ofCredentials cred) = .ok () →
      Decided authorizer stream cred
        [line (beginLine daemon (changeLabel (.ofCredentials cred) name)),
          ⟨.readToEnd stream, .ok said⟩, ⟨.writeln stream (replyTo said), .ok ()⟩,
          line (answeredLine ((Caller.ofCredentials cred).displayAs name')),
          line (okLine daemon (changeLabel (.ofCredentials cred) name) millis)]

/-- What can be noticed of a complete turn. -/
inductive Turn (authorizer : α) (socket : Socket) : List GateDone → Prop
  /-- Nobody is there, or `accept` fails. -/
  | idle (e : IoError) : Turn authorizer socket
      ([⟨.sys (.accept socket.listener), .error e⟩] ++ complaint e ++ [stamped .tick])
  /-- The read deadline of a connection cannot be set, and it is given up. -/
  | unbounded (stream : Connection) (cred : Except IoError Cred) (e : IoError) :
      Turn authorizer socket
      ([⟨.sys (.accept socket.listener), .ok stream⟩, ⟨.sys (.peerCredentials stream), cred⟩,
        ⟨.sys (.setReadTimeout stream socket.config.requestReadTimeout), .error e⟩] ++
        complaint e ++ [stamped .tick])
  /-- A connection is refused or served. -/
  | served (stream : Connection) (cred : Except IoError Cred) (decided : List GateDone) :
      Decided authorizer stream cred decided → Turn authorizer socket
        (⟨.sys (.accept socket.listener), .ok stream⟩ ::
          opening socket.config.requestReadTimeout stream cred ++ decided ++ closing stream)

end Stories

/-! ### Parts that do few things -/

/-- What is done to accept a connection. -/
def GateCall.accepts (l : ℕ) : GateCall → Bool
  | .sys (.accept i) => i == l
  | .sys (.peerCredentials _) | .sys (.setReadTimeout _ _) => true
  | _ => false

/-- What is done to keep the journal. -/
def GateCall.records : GateCall → Bool
  | .sys (.eprintln _) | .name _ | .now => true
  | _ => false

/-- What is done to answer a connection. -/
def GateCall.answers : GateCall → Bool
  | .readToEnd _ | .writeln _ _ | .hangUp _ => true
  | c => c.records

theorem GateCall.answers_of_records {c : GateCall} (h : c.records = true) : c.answers = true := by
  cases c with
  | readToEnd | writeln | hangUp => rfl
  | _ => exact h

section Parts

variable {α : Type} [Authorizer α] {authorizer : α} {socket : Socket} {stream : Connection}
  {caller : Caller}

theorem only_accept : Only (fun c => GateCall.accepts socket.listener c = true)
    (onSocket (ExceptT.run socket.accept)) := by
  have haccept : ExceptT.run socket.accept = _ := Socket.accept_eq socket
  rw [haccept]
  refine ⟨beq_self_eq_true _, fun reply => ?_⟩
  cases reply with
  | error e => trivial
  | ok stream =>
    refine ⟨rfl, fun cred => ⟨rfl, fun reply => ?_⟩⟩
    cases reply with
    | error e => trivial
    | ok _ => trivial

theorem only_onNames {β : Type} (g : Naming β) :
    Only (fun c => GateCall.records c = true) (onNames g) :=
  only_interpret fun _ => only_issue rfl

theorem only_eprintln (text : String) :
    Only (fun c => GateCall.records c = true) (eprintln text) :=
  only_issue rfl

theorem only_beginSteps {service : String} {call : Call} :
    Only (fun c => GateCall.records c = true) (Operation.beginSteps service call caller) := by
  refine Only.bind (only_issue rfl) fun started => ?_
  cases call.authorization with
  | unprivileged => exact only_pure
  | policy action =>
    exact (only_onNames _).bind fun shown => (only_eprintln _).bind fun _ => only_pure

theorem only_finishSteps {o : Operation} {failure : Option String} :
    Only (fun c => GateCall.records c = true) (o.finishSteps failure) := by
  unfold Operation.finishSteps
  cases o.label with
  | none => exact only_pure
  | some label =>
    refine Only.bind (only_issue rfl) fun now => ?_
    cases failure with
    | none => exact only_eprintln _
    | some reason => exact only_eprintln _

theorem only_exchange : Only (fun c => GateCall.answers c = true) (exchange stream caller) := by
  refine Only.bind (only_issue rfl) fun reply => ?_
  cases reply with
  | error e => exact only_pure
  | ok said =>
    refine Only.bind (only_issue rfl) fun reply => ?_
    cases reply with
    | error e => exact only_pure
    | ok _ =>
      refine Only.mono ?_ fun _ => GateCall.answers_of_records
      exact (only_onNames _).bind fun shown => (only_eprintln _).bind fun _ => only_pure

/-- Answering neither accepts nor stamps. -/
theorem only_answer :
    Only (fun c => GateCall.answers c = true) (answer authorizer stream caller) := by
  unfold answer
  cases authorize authorizer change caller with
  | error denial =>
    refine ((only_onNames _).mono fun _ => GateCall.answers_of_records).bind fun shown => ?_
    refine ((only_eprintln _).mono fun _ => GateCall.answers_of_records).bind fun _ => ?_
    exact Only.bind (only_issue rfl) fun _ => only_issue rfl
  | ok _ =>
    refine (only_beginSteps.mono fun _ => GateCall.answers_of_records).bind fun audit => ?_
    refine only_exchange.bind fun outcome => ?_
    refine (only_finishSteps.mono fun _ => GateCall.answers_of_records).bind fun _ => ?_
    exact only_issue rfl

/-- A turn accepts, answers and stamps. -/
theorem only_turn {K : GateCall → Prop} {served : ℕ}
    (haccepts : ∀ c, c.accepts socket.listener = true → K c)
    (hanswers : ∀ c, c.answers = true → K c) (hstamps : ∀ s, K (.stamp s)) :
    Only K (turn authorizer socket served) := by
  have htick (served : ℕ) : Only K (gate (.stamp .tick) >>= fun _ => pure served) :=
    Only.bind (only_issue (hstamps .tick)) fun _ => only_pure
  refine (only_accept.mono haccepts).bind fun result => ?_
  rcases result with e | ⟨stream, caller⟩
  · show Only _ (if _ then _ else _)
    split
    · exact (only_issue (hanswers _ rfl)).bind fun _ => htick served
    · exact htick served
  · refine Only.bind (only_issue (hstamps _)) fun _ => (only_answer.mono hanswers).bind fun _ => ?_
    exact Only.bind (only_issue (hstamps _)) fun _ => htick (servedNext served)

end Parts

/-! ### The turns of the program -/

section Program

variable {α : Type} [Authorizer α] {authorizer : α} {socket : Socket} {stream : Connection}
  {caller : Caller} {past : List GateDone}

/-- A program leaves a history that is related to its result. -/
abbrev Leaves {β : Type} (Q : β → List GateDone → Prop) (past : List GateDone) (g : Gate β) :
    Prop :=
  Conducts (fun _ _ => True) Q past g

/-- An operation, and what follows it. -/
theorem leaves_gate {β : Type} {Q : β → List GateDone → Prop} {c : GateCall}
    {f : c.Reply → Gate β} (h : ∀ r, Leaves Q (past ++ [⟨c, r⟩]) (f r)) :
    Leaves Q past (gate c >>= f) :=
  Prog.conducts_issue_bind.mpr ⟨trivial, h⟩

/-- A caller is shown with some name, and nothing is to be noticed of it. -/
theorem leaves_shown : Leaves
    (fun shown past' => (∃ name, shown = caller.displayAs name) ∧ outward past' = outward past)
    past (onNames caller.shown) := by
  cases caller with
  | peer pid uid gid =>
    refine ⟨trivial, fun cached => ?_⟩
    have hread : outward (past ++ [⟨.name (.readCache uid), cached⟩]) = outward past :=
      outward_concat_inward rfl
    cases cached with
    | some cached => exact ⟨⟨cached, rfl⟩, hread⟩
    | none =>
      refine ⟨trivial, fun outcome => ?_⟩
      cases outcome with
      | error error => exact ⟨⟨none, rfl⟩, by simp [outward, GateCall.outward]⟩
      | ok user =>
        exact ⟨trivial, fun _ => ⟨⟨_, rfl⟩, by simp [outward, GateCall.outward]⟩⟩
  | unreadable reason => exact ⟨⟨none, rfl⟩, rfl⟩
  | inProcess => exact ⟨⟨none, rfl⟩, rfl⟩

/-- Beginning to audit the change writes its announcement. -/
theorem leaves_beginSteps : Leaves
    (fun audit past' => ∃ name started,
      audit = ⟨daemon, some (changeLabel caller name), started⟩ ∧
      outward past' = outward past ++ [line (beginLine daemon (changeLabel caller name))])
    past (Operation.beginSteps daemon change caller) := by
  refine leaves_gate fun started => ?_
  apply conducts_bind.mpr
  refine leaves_shown.imp ?_
  rintro _ past' ⟨⟨name, rfl⟩, hsame⟩
  refine leaves_gate fun _ => ⟨name, started, rfl, ?_⟩
  rw [outward_concat rfl, hsame, outward_concat_inward rfl]
  rfl

/-- The line about an outcome. -/
def outcomeLine (service label : String) (millis : ℕ) : Option String → String
  | none => okLine service label millis
  | some reason => failedLine service label millis reason

/-- Finishing an audited operation writes its outcome. -/
theorem leaves_finishSteps {service label : String} {started : ℕ} {failure : Option String} : Leaves
    (fun _ past' => ∃ millis,
      outward past' = outward past ++ [line (outcomeLine service label millis failure)])
    past (Operation.finishSteps ⟨service, some label, started⟩ failure) := by
  refine leaves_gate fun now => ?_
  cases failure with
  | none =>
    refine ⟨trivial, fun _ => ⟨Operation.elapsedMillis started now, ?_⟩⟩
    rw [outward_concat rfl, outward_concat_inward rfl]
    rfl
  | some reason =>
    refine ⟨trivial, fun _ => ⟨Operation.elapsedMillis started now, ?_⟩⟩
    rw [outward_concat rfl, outward_concat_inward rfl]
    rfl

/-- What an exchange does, by its outcome. -/
inductive Exchanged (stream : Connection) (caller : Caller) :
    Except String Unit → List GateDone → Prop
  | unread (e : IoError) : Exchanged stream caller (.error (unreadRequest e))
      [⟨.readToEnd stream, .error e⟩]
  | unanswered (said : ByteArray) (e : IoError) :
      Exchanged stream caller (.error (unwrittenReply e))
        [⟨.readToEnd stream, .ok said⟩, ⟨.writeln stream (replyTo said), .error e⟩]
  | answered (said : ByteArray) (name : Option String) : Exchanged stream caller (.ok ())
      [⟨.readToEnd stream, .ok said⟩, ⟨.writeln stream (replyTo said), .ok ()⟩,
        line (answeredLine (caller.displayAs name))]

/-- The placeholder protocol does one of these things. -/
theorem leaves_exchange : Leaves
    (fun outcome past' => ∃ exchanged, Exchanged stream caller outcome exchanged ∧
      outward past' = outward past ++ exchanged)
    past (exchange stream caller) := by
  refine leaves_gate fun reply => ?_
  cases reply with
  | error e => exact ⟨_, .unread e, outward_concat rfl⟩
  | ok said =>
    refine leaves_gate fun reply => ?_
    cases reply with
    | error e =>
      refine ⟨_, .unanswered said e, ?_⟩
      rw [outward_concat rfl, outward_concat rfl, List.append_assoc]
      rfl
    | ok _ =>
      apply conducts_bind.mpr
      refine leaves_shown.imp ?_
      rintro _ past' ⟨⟨name, rfl⟩, hsame⟩
      refine leaves_gate fun _ => ⟨_, .answered said name, ?_⟩
      rw [outward_concat rfl, hsame, outward_concat rfl, outward_concat rfl]
      simp [line]

/-- What is decided about a connection is done before its stream ends. -/
theorem leaves_answer {cred : Except IoError Cred} : Leaves
    (fun _ past' => ∃ decided, Decided authorizer stream cred decided ∧
      outward past' = outward past ++ decided ++ [⟨.hangUp stream, ()⟩])
    past (answer authorizer stream (.ofCredentials cred)) := by
  unfold answer
  cases hverdict : authorize authorizer change (.ofCredentials cred) with
  | error denial =>
    apply conducts_bind.mpr
    refine leaves_shown.imp ?_
    rintro _ past' ⟨⟨name, rfl⟩, hsame⟩
    refine leaves_gate fun _ => leaves_gate fun gone => leaves_gate fun _ => ?_
    refine ⟨_, .refused denial name gone hverdict, ?_⟩
    rw [outward_concat rfl, outward_concat rfl, outward_concat rfl, hsame]
    simp [line]
  | ok _ =>
    apply conducts_bind.mpr
    refine leaves_beginSteps.imp ?_
    rintro _ past₁ ⟨name, started, rfl, hbegun⟩
    apply conducts_bind.mpr
    refine leaves_exchange.imp ?_
    rintro outcome past₂ ⟨exchanged, hexchanged, hmoved⟩
    apply conducts_bind.mpr
    refine leaves_finishSteps.imp ?_
    rintro _ past₃ ⟨millis, hfinished⟩
    refine leaves_gate fun _ => ?_
    have hall : outward (past₃ ++ [⟨.hangUp stream, ()⟩]) = _ := outward_concat rfl
    rw [hfinished, hmoved, hbegun] at hall
    cases hexchanged with
    | unread e =>
      refine ⟨_, .unread name e millis hverdict, ?_⟩
      simpa [failureOf, outcomeLine] using hall
    | unanswered said e =>
      refine ⟨_, .unanswered name said e millis hverdict, ?_⟩
      simpa [failureOf, outcomeLine] using hall
    | answered said name' =>
      refine ⟨_, .answered name name' said millis hverdict, ?_⟩
      simpa [failureOf, outcomeLine] using hall

/-- What `Socket::accept` does, by its result. -/
inductive Accepted (socket : Socket) : Except IoError (Connection × Caller) → List GateDone → Prop
  | failed (e : IoError) :
      Accepted socket (.error e) [⟨.sys (.accept socket.listener), .error e⟩]
  | unbounded (stream : Connection) (cred : Except IoError Cred) (e : IoError) :
      Accepted socket (.error e) [⟨.sys (.accept socket.listener), .ok stream⟩,
        ⟨.sys (.peerCredentials stream), cred⟩,
        ⟨.sys (.setReadTimeout stream socket.config.requestReadTimeout), .error e⟩]
  | accepted (stream : Connection) (cred : Except IoError Cred) :
      Accepted socket (.ok (stream, .ofCredentials cred))
        [⟨.sys (.accept socket.listener), .ok stream⟩, ⟨.sys (.peerCredentials stream), cred⟩,
          ⟨.sys (.setReadTimeout stream socket.config.requestReadTimeout), .ok ()⟩]

theorem leaves_accept : Leaves
    (fun result past' => ∃ accepted, Accepted socket result accepted ∧
      outward past' = outward past ++ accepted)
    past (onSocket (ExceptT.run socket.accept)) := by
  have haccept : ExceptT.run socket.accept = _ := Socket.accept_eq socket
  rw [haccept]
  refine ⟨trivial, fun reply => ?_⟩
  cases reply with
  | error e => exact ⟨_, .failed e, outward_concat rfl⟩
  | ok stream =>
    refine ⟨trivial, fun cred => ⟨trivial, fun reply => ?_⟩⟩
    cases reply with
    | error e =>
      refine ⟨_, .unbounded stream cred e, ?_⟩
      rw [outward_concat rfl, outward_concat rfl, outward_concat rfl]
      simp
    | ok _ =>
      refine ⟨_, .accepted stream cred, ?_⟩
      rw [outward_concat rfl, outward_concat rfl, outward_concat rfl]
      simp

/-- Whether an operation says that a call has returned. -/
def GateCall.finishes : GateCall → Bool
  | .stamp .callFinished => true
  | _ => false

/-- How many connections have been served after a turn. -/
def servedAfter (lap : List GateDone) (served : ℕ) : ℕ :=
  if lap.any fun e => e.call.finishes then servedNext served else served

/-- A failed `accept` is complained about, unless it is a timeout. -/
theorem leaves_complaint {β : Type} {Q : β → List GateDone → Prop} {e : IoError} {g : Gate β}
    (h : ∀ past', outward past' = outward past ++ complaint e → Leaves Q past' g) :
    Leaves Q past
      (if e.kind ≠ .wouldBlock ∧ e.kind ≠ .timedOut then eprintln (acceptFailed e) >>= fun _ => g
        else g) := by
  unfold complaint at h
  split
  · rename_i hkind
    rw [if_pos hkind] at h
    exact leaves_gate fun _ => h _ (outward_concat rfl)
  · rename_i hkind
    rw [if_neg hkind] at h
    exact h past (List.append_nil _).symm

/-- A turn without a connection that could be served adds to no count. -/
theorem servedAfter_complaint {before : List GateDone} {e : IoError} {served : ℕ}
    (h : ∀ d ∈ before, d.call.finishes = false) :
    servedAfter (before ++ complaint e ++ [stamped .tick]) served = served := by
  apply if_neg
  unfold complaint
  simp only [List.any_append, Bool.or_eq_true, List.any_eq_true, not_or, not_exists, not_and]
  refine ⟨⟨fun d hd => by simp [h d hd], fun d hd => ?_⟩, fun d hd => ?_⟩
  · split at hd
    · obtain rfl := List.mem_singleton.mp hd
      exact Bool.false_ne_true
    · cases hd
  · obtain rfl := List.mem_singleton.mp hd
    exact Bool.false_ne_true

/-- A turn with a served connection adds to the count. -/
theorem servedAfter_closing {before : List GateDone} {served : ℕ} :
    servedAfter (before ++ closing stream) served = servedNext served :=
  if_pos (by simp [closing, stamped, GateCall.finishes])

/-- **Turn.** What a complete turn of the loop does is one of the turns listed above. -/
theorem leaves_turn {served : ℕ} : Leaves
    (fun served' past' => ∃ lap, Turn authorizer socket lap ∧ outward past' = outward past ++ lap ∧
      served' = servedAfter lap served)
    past (turn authorizer socket served) := by
  apply conducts_bind.mpr
  apply conducts_bind.mpr
  refine leaves_accept.imp ?_
  rintro result past₁ ⟨accepted, haccepted, houtward⟩
  cases haccepted with
  | failed e =>
    refine leaves_complaint (g := gate (.stamp .tick) >>= fun _ => pure served) ?_
    intro past₂ hcomplaint
    refine leaves_gate fun _ => ⟨_, .idle e, ?_, (servedAfter_complaint ?_).symm⟩
    · rw [outward_concat rfl, hcomplaint, houtward]
      simp [stamped]
    · simp [GateCall.finishes]
  | unbounded stream cred e =>
    refine leaves_complaint (g := gate (.stamp .tick) >>= fun _ => pure served) ?_
    intro past₂ hcomplaint
    refine leaves_gate fun _ => ⟨_, .unbounded stream cred e, ?_, (servedAfter_complaint ?_).symm⟩
    · rw [outward_concat rfl, hcomplaint, houtward]
      simp [stamped]
    · simp [GateCall.finishes]
  | accepted stream cred =>
    refine leaves_gate fun _ => ?_
    apply conducts_bind.mpr
    refine leaves_answer.imp ?_
    rintro _ past₂ ⟨decided, hdecided, hanswer⟩
    refine leaves_gate fun _ => leaves_gate fun _ => ?_
    refine ⟨_, .served stream cred decided hdecided, ?_, servedAfter_closing.symm⟩
    rw [outward_concat rfl, outward_concat rfl, hanswer, outward_concat rfl, houtward]
    simp [opening, closing, stamped]

end Program

end UdsPolicy
