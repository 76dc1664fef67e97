import UdsPolicy.General.Likeness
import UdsPolicy.Gatekeeper.Mediation

/-!
# What becomes of a payload

An observer who sees everything but the bytes on some of the streams cannot tell
what those bytes are: two runs whose environments answer alike, apart from the
requests on these streams, look alike from the bind of the socket on. With all
streams unseen this says that no payload reaches the journal, the name service
or anything else; with one stream seen, that no client has a part in the reply to
another.
-/

namespace UdsPolicy

open Prog (Done Issues Alike Only alike_self alike_repeatWhile)

/-- The streams whose bytes are not seen. -/
abbrev Unseen := Connection → Bool

/-- What is seen of an operation: of a reply on an unseen stream, only that it is one. -/
def GateCall.asked (unseen : Unseen) : GateCall → GateCall
  | .writeln stream text => .writeln stream (if unseen stream then "" else text)
  | c => c

/-- What is seen of the reply to an operation: of a request on an unseen stream, only whether it
could be read. -/
def heard (unseen : Unseen) : (c : GateCall) → c.Reply → GateDone
  | .readToEnd stream, reply =>
    ⟨.readToEnd stream, if unseen stream then reply.map fun _ => ByteArray.empty else reply⟩
  | .writeln stream text, reply => ⟨GateCall.asked unseen (.writeln stream text), reply⟩
  | c, reply => ⟨c, reply⟩

/-- An operation that moves no bytes. -/
def GateCall.quiet (c : GateCall) : Prop := c.reads = false ∧ c.writes = false

section Alike

variable {unseen : Unseen} {β : Type} {g : Gate β} {stream : Connection} {caller : Caller}

/-- Everything is seen of a reply to an operation that moves no bytes. -/
theorem heard_injective {c : GateCall} (hc : c.quiet) : Function.Injective (heard unseen c) := by
  intro r r' hsame
  cases c with
  | readToEnd => cases hc.1
  | writeln => cases hc.2
  | _ =>
    cases hsame
    rfl

/-- Two programs look alike to the observer. -/
abbrev LooksLike (unseen : Unseen) {β : Type} (g g' : Gate β) : Prop :=
  Alike (GateCall.asked unseen) (heard unseen) (· = ·) g g'

/-- A program that moves no bytes looks like itself. -/
theorem looksLike_of_quiet (hg : Only GateCall.quiet g) : LooksLike unseen g g :=
  alike_self hg fun _ hc => heard_injective hc

theorem only_quiet_onSocket {g : Sys β} : Only GateCall.quiet (onSocket g) :=
  Prog.only_interpret fun _ => Prog.only_issue ⟨rfl, rfl⟩

theorem only_quiet_onNames {g : Naming β} : Only GateCall.quiet (onNames g) :=
  Prog.only_interpret fun _ => Prog.only_issue ⟨rfl, rfl⟩

theorem only_quiet_onManager {g : Managed β} : Only GateCall.quiet (onManager g) :=
  Prog.only_interpret fun _ => Prog.only_issue ⟨rfl, rfl⟩

/-- An operation that moves no bytes, and what follows it. -/
theorem looksLike_gate {c : GateCall} {f f' : c.Reply → Gate β} (hc : c.quiet)
    (hf : ∀ r, LooksLike unseen (f r) (f' r)) :
    LooksLike unseen (gate c >>= f) (gate c >>= f') := by
  refine .call rfl fun r r' hsame => ?_
  obtain rfl := heard_injective hc hsame
  exact hf r

/-- A part that looks like itself, and what follows it. -/
theorem LooksLike.bind {γ : Type} {g : Gate γ} {f : γ → Gate β} (hg : LooksLike unseen g g)
    (hf : ∀ a, LooksLike unseen (f a) (f a)) : LooksLike unseen (g >>= f) (g >>= f) := by
  refine Alike.bind hg ?_
  rintro a _ rfl
  exact hf a

/-- What has been heard of two requests: the same failure, or that there are two, which are the
same if the stream is seen. -/
theorem heard_read {r r' : Except IoError ByteArray}
    (h : heard unseen (.readToEnd stream) r = heard unseen (.readToEnd stream) r') :
    (∃ e, r = .error e ∧ r' = .error e) ∨
      ∃ said said', r = .ok said ∧ r' = .ok said' ∧ (unseen stream = false → said = said') := by
  have hreply := eq_of_heq (Done.mk.inj h).2
  cases hstream : unseen stream with
  | false =>
    simp only [hstream, Bool.false_eq_true, if_false] at hreply
    subst hreply
    cases r with
    | error e => exact .inl ⟨e, rfl, rfl⟩
    | ok said => exact .inr ⟨said, said, rfl, rfl, fun _ => rfl⟩
  | true =>
    simp only [hstream, if_true] at hreply
    cases r with
    | error e =>
      cases r' with
      | error e' =>
        obtain rfl : e = e' := Except.error.inj hreply
        exact .inl ⟨e, rfl, rfl⟩
      | ok said' => cases hreply
    | ok said =>
      cases r' with
      | error e' => cases hreply
      | ok said' => exact .inr ⟨said, said', rfl, rfl, nofun⟩

/-- A reply on an unseen stream looks the same whatever it says, and nothing follows from it but
whether it could be written. -/
theorem looksLike_exchange :
    LooksLike unseen (exchange stream caller) (exchange stream caller) := by
  refine .call rfl fun r r' hsame => ?_
  rcases heard_read hsame with ⟨e, rfl, rfl⟩ | ⟨said, said', rfl, rfl, hsaid⟩
  · exact .ret rfl
  · have hasked : GateCall.asked unseen (.writeln stream (replyTo said)) =
        GateCall.asked unseen (.writeln stream (replyTo said')) := by
      cases hstream : unseen stream with
      | false => rw [hsaid hstream]
      | true => simp only [GateCall.asked, hstream, if_true]
    refine .call hasked fun r r' hsame => ?_
    obtain rfl := eq_of_heq (Done.mk.inj hsame).2
    cases r with
    | error e => exact .ret rfl
    | ok _ =>
      refine (looksLike_of_quiet only_quiet_onNames).bind fun shown => ?_
      exact looksLike_gate ⟨rfl, rfl⟩ fun _ => .ret rfl

variable {α : Type} [Authorizer α] {authorizer : α} {socket : Socket}

/-- Auditing an operation moves no bytes. -/
theorem looksLike_beginSteps {service : String} {call : Call} : LooksLike unseen
    (Operation.beginSteps service call caller) (Operation.beginSteps service call caller) := by
  refine looksLike_gate ⟨rfl, rfl⟩ fun started => ?_
  cases call.authorization with
  | unprivileged => exact .ret rfl
  | policy action =>
    refine (looksLike_of_quiet only_quiet_onNames).bind fun shown => ?_
    exact looksLike_gate ⟨rfl, rfl⟩ fun _ => .ret rfl

theorem looksLike_finishSteps {o : Operation} {failure : Option String} :
    LooksLike unseen (o.finishSteps failure) (o.finishSteps failure) := by
  unfold Operation.finishSteps
  cases o.label with
  | none => exact .ret rfl
  | some label =>
    refine looksLike_gate ⟨rfl, rfl⟩ fun now => ?_
    cases failure with
    | none => exact looksLike_gate ⟨rfl, rfl⟩ fun _ => .ret rfl
    | some reason => exact looksLike_gate ⟨rfl, rfl⟩ fun _ => .ret rfl

/-- A refusal says nothing about the request, and an answer only that it was read. -/
theorem looksLike_answer :
    LooksLike unseen (answer authorizer stream caller) (answer authorizer stream caller) := by
  unfold answer
  cases authorize authorizer change caller with
  | error denial =>
    refine (looksLike_of_quiet only_quiet_onNames).bind fun shown => ?_
    refine looksLike_gate ⟨rfl, rfl⟩ fun _ => .call rfl fun r r' hsame => ?_
    exact looksLike_gate ⟨rfl, rfl⟩ fun _ => .ret rfl
  | ok _ =>
    refine looksLike_beginSteps.bind fun audit => ?_
    refine looksLike_exchange.bind fun outcome => ?_
    refine looksLike_finishSteps.bind fun _ => ?_
    exact looksLike_gate ⟨rfl, rfl⟩ fun _ => .ret rfl

theorem looksLike_complaint {e : IoError} (hg : LooksLike unseen g g) : LooksLike unseen
    (if e.kind ≠ .wouldBlock ∧ e.kind ≠ .timedOut then eprintln (acceptFailed e) >>= fun _ => g
      else g)
    (if e.kind ≠ .wouldBlock ∧ e.kind ≠ .timedOut then eprintln (acceptFailed e) >>= fun _ => g
      else g) := by
  split
  · exact looksLike_gate ⟨rfl, rfl⟩ fun _ => hg
  · exact hg

/-- A turn lets nothing but a reply depend on a request. -/
theorem looksLike_turn {served : ℕ} :
    LooksLike unseen (turn authorizer socket served) (turn authorizer socket served) := by
  have htick (served : ℕ) : LooksLike unseen (gate (.stamp .tick) >>= fun _ => pure served)
      (gate (.stamp .tick) >>= fun _ => pure served) :=
    looksLike_gate ⟨rfl, rfl⟩ fun _ => .ret rfl
  refine (looksLike_of_quiet only_quiet_onSocket).bind fun accepted => ?_
  cases accepted with
  | error e =>
    exact looksLike_complaint (g := gate (.stamp .tick) >>= fun _ => pure served) (htick served)
  | ok accepted =>
    refine looksLike_gate ⟨rfl, rfl⟩ fun _ => ?_
    refine looksLike_answer.bind fun _ => ?_
    exact looksLike_gate ⟨rfl, rfl⟩ fun _ => htick (servedNext served)

/-- Nothing before the loop moves any bytes. -/
theorem looksLike_nixUid : LooksLike unseen nixUid nixUid := by
  refine looksLike_gate ⟨rfl, rfl⟩ fun pair => ?_
  cases pair with
  | error e => exact .ret rfl
  | ok here => exact (looksLike_of_quiet only_quiet_onSocket).bind fun _ => .ret rfl

variable {lib : TimeLibrary} {interval : Duration} {socketPath : String}
  {limit : Option ℕ} {n : ℕ}

theorem looksLike_setAcceptTimeoutSteps :
    LooksLike unseen (socket.setAcceptTimeoutSteps lib interval)
      (socket.setAcceptTimeoutSteps lib interval) := by
  unfold Socket.setAcceptTimeoutSteps
  cases i64TryFrom interval.asMicros with
  | none => exact .ret rfl
  | some micros =>
    cases hmicros : lib.microseconds micros with
    | none => simpa only [hmicros] using .ret rfl
    | some tv =>
      simp only [hmicros]
      exact looksLike_gate ⟨rfl, rfl⟩ fun _ => .ret rfl

theorem looksLike_startHeartbeat {interval : Option Duration} :
    LooksLike unseen (startHeartbeat lib socket interval)
      (startHeartbeat lib socket interval) := by
  cases interval with
  | none => exact .ret rfl
  | some interval =>
    refine looksLike_setAcceptTimeoutSteps.bind fun outcome => ?_
    cases outcome with
    | none => exact .ret rfl
    | some outcome =>
      cases outcome with
      | error e =>
        refine looksLike_gate ⟨rfl, rfl⟩ fun _ => ?_
        exact looksLike_gate ⟨rfl, rfl⟩ fun _ => .ret rfl
      | ok _ =>
        cases interval.checkedMul 3 with
        | none => exact .ret rfl
        | some ceiling => exact looksLike_gate ⟨rfl, rfl⟩ fun _ => .ret rfl

theorem looksLike_serveOn : LooksLike unseen (serveOn lib socketPath limit n socket)
    (serveOn lib socketPath limit n socket) := by
  refine looksLike_nixUid.bind fun uid => ?_
  refine looksLike_gate ⟨rfl, rfl⟩ fun _ => ?_
  refine (looksLike_of_quiet only_quiet_onManager).bind fun _ => ?_
  refine (looksLike_of_quiet only_quiet_onManager).bind fun interval => ?_
  refine looksLike_startHeartbeat.bind fun started => ?_
  cases started with
  | false => exact .ret rfl
  | true =>
    refine looksLike_gate ⟨rfl, rfl⟩ fun _ => ?_
    refine (alike_repeatWhile fun _ => looksLike_turn).bind ?_
    rintro ended _ rfl
    cases ended with
    | none => exact .ret rfl
    | some served => exact .ret rfl

theorem looksLike_serve : LooksLike unseen (serve lib socketPath limit n)
    (serve lib socketPath limit n) := by
  refine (looksLike_of_quiet only_quiet_onSocket).bind fun bound => ?_
  cases bound with
  | error e => exact .ret rfl
  | ok socket =>
    refine looksLike_serveOn.bind fun ended => ?_
    cases ended with
    | running => exact .ret rfl
    | _ => exact (looksLike_of_quiet only_quiet_onSocket).bind fun _ => .ret rfl

end Alike

/-- What is seen of an operation and its reply. -/
def observed (unseen : Unseen) (e : GateDone) : GateDone := heard unseen e.call e.reply

/-- Two environments have answered alike: whenever the same was asked of them, what is seen of
their replies is the same. -/
def AnsweredAlike (unseen : Unseen) (run run' : List GateDone) : Prop :=
  List.Forall₂ (fun e e' => e.call.asked unseen = e'.call.asked unseen →
    observed unseen e = observed unseen e') run run'

/-- The lines that have been written to standard error. -/
def journal (run : List GateDone) : List String :=
  run.filterMap fun e =>
    match e.call with
    | .sys (.eprintln line) => some line
    | _ => none

/-- The whole journal is seen. -/
theorem journal_observed (unseen : Unseen) (run : List GateDone) :
    journal (run.map (observed unseen)) = journal run := by
  unfold journal
  rw [List.filterMap_map]
  congr 1
  funext e
  obtain ⟨c, reply⟩ := e
  cases c <;> rfl

/-- **Payloads.** Two runs of the daemon from its start, whose environments have answered alike
apart from the requests on the unseen streams, look alike in everything but the replies on
these streams: the same system calls, the same looks at the name cache, the same stamps and
the same lines of the journal in the same order; and so does what the daemon does next. -/
theorem payloads_kept_apart {unseen : Unseen} {lib : TimeLibrary}
    {socketPath : String} {limit : Option ℕ} {n : ℕ} {run run' : List GateDone}
    {g g' : Gate ServeEnd} (hrun : Issues (serve lib socketPath limit n) run g)
    (hrun' : Issues (serve lib socketPath limit n) run' g')
    (hsame : AnsweredAlike unseen run run') :
    run.map (observed unseen) = run'.map (observed unseen) ∧ journal run = journal run' ∧
      ((∃ ended, g = .ret ended ∧ g' = .ret ended) ∨
        ∃ c k c' k', g = .call c k ∧ g' = .call c' k' ∧ c.asked unseen = c'.asked unseen) := by
  obtain ⟨hasked, hleft⟩ := looksLike_serve.runs hrun hrun' hsame
  have hseen : run.map (observed unseen) = run'.map (observed unseen) := by
    clear hrun hrun' hleft
    induction hasked with
    | nil => rfl
    | cons hask _ ih =>
      obtain ⟨hheard, hlater⟩ := List.forall₂_cons.mp hsame
      rw [List.map_cons, List.map_cons, hheard hask, ih hlater]
  refine ⟨hseen, ?_, ?_⟩
  · rw [← journal_observed unseen run, hseen, journal_observed]
  · cases hleft with
    | ret hended => exact .inl ⟨_, rfl, hended ▸ rfl⟩
    | call hask _ => exact .inr ⟨_, _, _, _, rfl, rfl, hask⟩

/-- A run of the daemon from its start that serves one connection, of root. -/
def rootServed (said : ByteArray) : List GateDone :=
  [⟨.sys .exists_, false⟩, ⟨.sys .bindListener, .ok 7⟩, ⟨.sys (.setPermissions 0o660), .ok ()⟩,
    ⟨.socketPair, .ok rootStream⟩, ⟨.sys (.peerCredentials rootStream), .ok rootPeer⟩,
    ⟨.newActivity, ()⟩, ⟨.manager (.var "NOTIFY_SOCKET"), none⟩,
    ⟨.manager (.var "WATCHDOG_USEC"), none⟩, ⟨.manager (.var "WATCHDOG_PID"), none⟩,
    ⟨.manager .processId, (4711 : UInt32)⟩, line (servingOn "/tmp/gatekeeper.sock")] ++
  rootRun said ++ [⟨.sys .removeFile, .ok ()⟩, ⟨.sys (.close 7), ()⟩]

theorem rootServed_issues (said : ByteArray) :
    Issues (serve timeLibrary "/tmp/gatekeeper.sock" (some 1) 2) (rootServed said)
      (.ret .returned) :=
  .step (.step (.step (.step (.step (.step (.step (.step (.step (.step (.step (.step (.step
    (.step (.step (.step (.step (.step (.step (.step (.step (.step (.step (.step (.step (.step
    (.step (.step (.step (.refl _)))))))))))))))))))))))))))))

/-- The environments of two such runs answer alike. -/
theorem rootServed_alike (said said' : ByteArray) :
    AnsweredAlike (fun _ => true) (rootServed said) (rootServed said') := by
  have hseen : (rootServed said).map (observed fun _ => true) =
      (rootServed said').map (observed fun _ => true) := rfl
  rw [← List.forall₂_eq_eq_eq, List.forall₂_map_left_iff, List.forall₂_map_right_iff] at hseen
  refine List.Forall₂.imp (fun e e' h => ?_) hseen
  exact fun _ => h

/-- Whatever root says, the journal is the same. -/
theorem payloads_kept_apart_root :
    journal (rootServed "hello".toUTF8) = journal (rootServed "goodbye".toUTF8) :=
  (payloads_kept_apart (rootServed_issues _) (rootServed_issues _) (rootServed_alike _ _)).2.1

end UdsPolicy
