import UdsPolicy.Gatekeeper.Story

/-!
# Every run of the serve loop

A run of the loop is a sequence of complete turns and the beginning of one more,
so what has come before an operation can be read off the turn that it is in. In
particular no byte of a request is read before the kernel has been asked who is
there, the deadline has been set, the authorizer has agreed and the journal has
been told; and the loop stops after exactly as many connections as it was asked
to serve.
-/

namespace UdsPolicy

open Prog (Done Issues Laps eq_of_split exists_mem_of_flatten_eq)

/-- Every operation has some reply. -/
theorem GateCall.reply_nonempty (c : GateCall) : Nonempty c.Reply := by
  cases c with
  | sys c =>
    cases c with
    | exists_ => exact ⟨true⟩
    | eprintln | close => exact ⟨()⟩
    | _ => exact ⟨.error ⟨.notFound, ""⟩⟩
  | name c =>
    cases c with
    | readCache => exact ⟨none⟩
    | fromUid => exact ⟨.error ""⟩
    | insert => exact ⟨()⟩
  | manager c =>
    cases c with
    | var => exact ⟨none⟩
    | processId => exact ⟨(0 : UInt32)⟩
    | unbound | sendTo => exact ⟨.ok ()⟩
  | now => exact ⟨(0 : ℕ)⟩
  | newActivity | stamp | hangUp => exact ⟨()⟩
  | _ => exact ⟨.error ⟨.notFound, ""⟩⟩

/-! ### An exchange with root -/

/-- A process of root. -/
def rootPeer : Cred := ⟨4711, 0, 0, []⟩

/-- The first connection, on which it is the peer. -/
def rootStream : Connection := ⟨0, rootPeer⟩

/-- The one connection of a loop that serves one: root says something. -/
def rootRun (said : ByteArray) : List GateDone :=
  [⟨.sys (.accept 7), .ok rootStream⟩, ⟨.sys (.peerCredentials rootStream), .ok rootPeer⟩,
    ⟨.sys (.setReadTimeout rootStream (some (30 * 10 ^ 9))), .ok ()⟩,
    stamped (.callStarted .bounded), ⟨.now, (5 : ℕ)⟩, ⟨.name (.readCache 0), some (some "root")⟩,
    line (beginLine daemon (changeLabel (.peer 4711 0 0) (some "root"))),
    ⟨.readToEnd rootStream, .ok said⟩, ⟨.writeln rootStream (replyTo said), .ok ()⟩,
    ⟨.name (.readCache 0), some (some "root")⟩,
    line (answeredLine ((Caller.peer 4711 0 0).displayAs (some "root"))), ⟨.now, (6 : ℕ)⟩,
    line (okLine daemon (changeLabel (.peer 4711 0 0) (some "root")) 0),
    ⟨.hangUp rootStream, ()⟩, stamped .callFinished, stamped .tick]

/-- The socket of the daemon. -/
def rootSocket : Socket := ⟨7, .new daemon "/tmp/gatekeeper.sock"⟩

theorem rootRun_issues (said : ByteArray) :
    Issues (acceptLoop (PeerGate.forUids [0]) rootSocket (some 1) 2) (rootRun said)
      (.ret (some 1)) :=
  .step (.step (.step (.step (.step (.step (.step (.step (.step (.step (.step (.step (.step
    (.step (.step (.step (.refl _))))))))))))))))

section Runs

variable {α : Type} [Authorizer α] {authorizer : α} {socket : Socket} {limit : Option ℕ} {n : ℕ}
  {run : List GateDone} {h : Gate (Option ℕ)}

/-- Whether a turn has served a connection. -/
def serves (lap : List GateDone) : Bool := lap.any fun e => e.call.finishes

/-- A completed turn is one of those listed. -/
theorem turn_of_issues {lap : List GateDone} {served served' : ℕ}
    (hrun : Issues (turn authorizer socket served) lap (.ret served')) :
    Turn authorizer socket (outward lap) ∧
      served' = if serves (outward lap) then servedNext served else served := by
  obtain ⟨lap', hturn, houtward, hserved⟩ := leaves_turn.result hrun
  obtain rfl : outward lap = lap' := houtward
  exact ⟨hturn, hserved⟩

/-- What has been done of a turn can be completed to one of those listed. -/
theorem turn_of_part {part : List GateDone} {served : ℕ} {g : Gate ℕ}
    (hrun : Issues (turn authorizer socket served) part g) :
    ∃ rest, Turn authorizer socket (outward part ++ rest) := by
  obtain ⟨rest, served', hall⟩ := hrun.completed GateCall.reply_nonempty
  have hturn := (turn_of_issues hall).1
  rw [outward_append] at hturn
  exact ⟨outward rest, hturn⟩

/-- Every lap of the loop is one of the turns listed. -/
theorem turns_of_laps {cond : ℕ → Bool} {served served' : ℕ} {laps : List (List GateDone)}
    (hlaps : Laps cond (turn authorizer socket) served laps served') :
    ∀ lap ∈ laps.map outward, Turn authorizer socket lap := by
  intro lap hlap
  obtain ⟨lap', hmem, rfl⟩ := List.mem_map.mp hlap
  obtain ⟨_, _, hrun⟩ := hlaps.complete lap' hmem
  exact (turn_of_issues hrun).1

/-- A loop with a limit counts the connections that its turns have served. -/
theorem count_of_laps {cond : ℕ → Bool} {served served' max : ℕ} {laps : List (List GateDone)}
    (hmax : max < 2 ^ 64) (hcond : ∀ served, cond served = true → served < max)
    (hlaps : Laps cond (turn authorizer socket) served laps served') (hserved : served ≤ max) :
    served' = served + (laps.map outward).countP serves ∧ served' ≤ max := by
  induction hlaps with
  | nil served => exact ⟨rfl, hserved⟩
  | @cons served served₁ served₂ lap laps hgoes hlap _ ih =>
    have hlt := hcond served hgoes
    have hnext := (turn_of_issues hlap).2
    unfold servedNext at hnext
    rw [List.map_cons, List.countP_cons]
    split at hnext
    · rename_i hserves
      rw [if_pos hserves]
      have hrest := ih (by omega)
      omega
    · rename_i hserves
      rw [if_neg hserves]
      have hrest := ih (by omega)
      omega

/-- The operations of some laps are those of their turns. -/
theorem outward_flatten (laps : List (List GateDone)) (part : List GateDone) :
    outward (laps.flatten ++ part) = (laps.map outward).flatten ++ outward part := by
  rw [outward_append, outward, List.filter_flatten]
  rfl

/-- A run of the loop can be completed to a sequence of turns. -/
theorem turns_of_run (hrun : Issues (acceptLoop authorizer socket limit n) run h) :
    ∃ (turns : List (List GateDone)) (rest : List GateDone),
      turns.flatten = outward run ++ rest ∧ ∀ lap ∈ turns, Turn authorizer socket lap := by
  obtain ⟨laps, served', part, rfl, hlaps, hend⟩ := Prog.issues_repeatWhile hrun
  rw [outward_flatten]
  rcases hend with ⟨c, k, -, hpart, -⟩ | ⟨rfl, -⟩
  · obtain ⟨rest, hturn⟩ := turn_of_part hpart
    refine ⟨laps.map outward ++ [outward part ++ rest], rest, by simp, fun lap hlap => ?_⟩
    rcases List.mem_append.mp hlap with hlap | hlap
    · exact turns_of_laps hlaps lap hlap
    · obtain rfl := List.mem_singleton.mp hlap
      exact hturn
  · exact ⟨laps.map outward, [], by simp [outward], turns_of_laps hlaps⟩

/-- **Connections in turn.** Whatever the replies to its operations, what can be noticed of a run
of the loop is a sequence of complete turns and the beginning of one more. A loop without a limit
goes on; a loop with a limit serves no more connections than that, and has returned with no turn
begun exactly when it has served as many, unless these were its last turns. -/
theorem connections_in_turn (hrun : Issues (acceptLoop authorizer socket limit n) run h) :
    ∃ (turns : List (List GateDone)) (part : List GateDone), outward run = turns.flatten ++ part ∧
      (∀ lap ∈ turns, Turn authorizer socket lap) ∧
      (part = [] ∨ ∃ rest, Turn authorizer socket (part ++ rest)) ∧
      (∀ served, h = .ret (some served) → part = [] ∧ limit ≠ none) ∧
      ∀ max, limit = some max → max < 2 ^ 64 →
        turns.countP serves ≤ max ∧ (part ≠ [] → turns.countP serves < max) ∧
        (∀ served, h = .ret (some served) → turns.countP serves = max) ∧
        (turns.countP serves = max → turns.length < n → h = .ret (some max)) := by
  obtain ⟨laps, served', part, rfl, hlaps, hend⟩ := Prog.issues_repeatWhile hrun
  refine ⟨laps.map outward, outward part, outward_flatten laps part, turns_of_laps hlaps,
    ?_, ?_, ?_⟩
  · rcases hend with ⟨c, k, -, hpart, -⟩ | ⟨rfl, -⟩
    · exact .inr (turn_of_part hpart)
    · exact .inl rfl
  · rintro served rfl
    rcases hend with ⟨c, k, -, -, hgoes⟩ | ⟨rfl, hnone | ⟨hsome, hcond⟩⟩
    · exact absurd rfl (hgoes _)
    · cases hnone.1
    · refine ⟨rfl, ?_⟩
      rintro rfl
      cases hcond
  · rintro max rfl hmax
    have hcond (served : ℕ) (h : (some max).all (fun max => decide (served < max)) = true) :
        served < max := by simpa using h
    obtain ⟨hcount, hle⟩ := count_of_laps hmax hcond hlaps (Nat.zero_le _)
    refine ⟨by omega, fun hpart => ?_, ?_, fun hall hturns => ?_⟩
    · rcases hend with ⟨c, k, hgoes, -, -⟩ | ⟨rfl, -⟩
      · have hlt := hcond _ hgoes
        omega
      · exact absurd rfl hpart
    · rintro served rfl
      rcases hend with ⟨c, k, -, -, hgoes⟩ | ⟨rfl, hnone | ⟨hsome, hstops⟩⟩
      · exact absurd rfl (hgoes _)
      · cases hnone.1
      · have hge : ¬served' < max := by simpa using hstops
        omega
    · rcases hend with ⟨c, k, hgoes, -, -⟩ | ⟨rfl, ⟨-, hturns'⟩ | ⟨rfl, -⟩⟩
      · have hlt := hcond _ hgoes
        omega
      · rw [List.length_map] at hturns
        omega
      · have hserved : served' = max := by omega
        rw [hserved]

/-- A loop with a limit of one has served one connection. -/
theorem connections_in_turn_root : ∃ (turns : List (List GateDone)) (part : List GateDone),
    outward (rootRun "hello".toUTF8) = turns.flatten ++ part ∧ part = [] ∧
      turns.countP serves = 1 := by
  obtain ⟨turns, part, houtward, -, -, hend, hcount⟩ := connections_in_turn (rootRun_issues _)
  exact ⟨turns, part, houtward, (hend 1 rfl).1, (hcount 1 rfl (by decide)).2.2.1 1 rfl⟩

end Runs

/-! ### Bytes on a stream -/

/-- Whether an operation reads a request. -/
def GateCall.reads : GateCall → Bool
  | .readToEnd _ => true
  | _ => false

/-- Whether an operation writes to a stream. -/
def GateCall.writes : GateCall → Bool
  | .writeln _ _ => true
  | _ => false

section Bytes

variable {α : Type} [Authorizer α] {authorizer : α} {socket : Socket} {limit : Option ℕ} {n : ℕ}
  {run : List GateDone} {h : Gate (Option ℕ)} {stream : Connection} {text : String}
  {before after l₁ l₂ : List GateDone}

/-- What is done on a connection before anything is decided about it, from `accept` on. -/
def accepting (socket : Socket) (stream : Connection) (cred : Except IoError Cred) :
    List GateDone :=
  ⟨.sys (.accept socket.listener), .ok stream⟩ ::
    opening socket.config.requestReadTimeout stream cred

/-- A complaint is a line. -/
theorem not_reads_complaint {e : IoError} :
    ∀ d ∈ complaint e, d.call.reads = false ∧ d.call.writes = false := by
  intro d hd
  unfold complaint at hd
  split at hd
  · obtain rfl := List.mem_singleton.mp hd
    exact ⟨rfl, rfl⟩
  · cases hd

/-- A turn without a connection that could be served moves no bytes. -/
theorem not_moves_idle {before : List GateDone} {e : IoError}
    (hbefore : ∀ d ∈ before, d.call.reads = false ∧ d.call.writes = false) :
    ∀ d ∈ before ++ complaint e ++ [stamped .tick],
      d.call.reads = false ∧ d.call.writes = false := by
  intro d hd
  simp only [List.mem_append, List.mem_singleton] at hd
  rcases hd with (hd | hd) | rfl
  · exact hbefore d hd
  · exact not_reads_complaint d hd
  · exact ⟨rfl, rfl⟩

/-- Where an operation stands in a turn, if it is the only one of its kind in what is decided. -/
theorem eq_of_served {p : GateCall → Bool} {stream' : Connection} {cred : Except IoError Cred}
    (d₁ d₂ : List GateDone) {x y : GateDone}
    (h : l₁ ++ x :: l₂ = accepting socket stream' cred ++ (d₁ ++ y :: d₂) ++ closing stream')
    (hx : p x.call = true)
    (haround : ∀ z ∈ accepting socket stream' cred ++ closing stream', p z.call = false)
    (hd : ∀ z ∈ d₁ ++ d₂, p z.call = false) :
    l₁ = accepting socket stream' cred ++ d₁ ∧ x = y := by
  have hsplit : l₁ ++ x :: l₂ =
      (accepting socket stream' cred ++ d₁) ++ y :: (d₂ ++ closing stream') := by
    rw [h]
    simp
  obtain ⟨hl₁, hxy, -⟩ := eq_of_split (p := fun z => p z.call) hsplit hx
    (fun z hz => by
      rcases List.mem_append.mp hz with hz | hz
      · exact haround z (List.mem_append_left _ hz)
      · exact hd z (List.mem_append_left _ hz))
    (fun z hz => by
      rcases List.mem_append.mp hz with hz | hz
      · exact hd z (List.mem_append_right _ hz)
      · exact haround z (List.mem_append_right _ hz))
  exact ⟨hl₁, hxy⟩

/-- Around what is decided, no bytes are moved. -/
theorem not_moves_around {stream' : Connection} {cred : Except IoError Cred} :
    ∀ z ∈ accepting socket stream' cred ++ closing stream',
      z.call.reads = false ∧ z.call.writes = false := by
  simp [accepting, opening, closing, stamped, GateCall.reads, GateCall.writes]

/-- In a turn, a request is read right after the announcement of the change. -/
theorem turn_of_read {reply : Except IoError ByteArray}
    (hturn : Turn authorizer socket (l₁ ++ ⟨.readToEnd stream, reply⟩ :: l₂)) :
    ∃ cred name, authorize authorizer change (.ofCredentials cred) = .ok () ∧
      l₁ = accepting socket stream cred ++
        [line (beginLine daemon (changeLabel (.ofCredentials cred) name))] := by
  generalize hlap : l₁ ++ ⟨.readToEnd stream, reply⟩ :: l₂ = lap at hturn
  have hmem : ⟨.readToEnd stream, reply⟩ ∈ lap := by simp [← hlap]
  cases hturn with
  | idle e =>
    have hnone := not_moves_idle (by simp [GateCall.reads, GateCall.writes]) _ hmem
    cases hnone.1
  | unbounded stream' cred e =>
    have hnone := not_moves_idle (by simp [GateCall.reads, GateCall.writes]) _ hmem
    cases hnone.1
  | served stream' cred decided hdecided =>
    have haround (z : GateDone) (hz : z ∈ accepting socket stream' cred ++ closing stream') :
        z.call.reads = false := (not_moves_around z hz).1
    cases hdecided with
    | refused denial name gone hverdict =>
      simp [opening, closing, line, stamped] at hmem
    | unread name e millis hverdict =>
      obtain ⟨rfl, heq⟩ := eq_of_served [_] [_] hlap rfl haround (by simp [line, GateCall.reads])
      cases heq
      exact ⟨cred, name, hverdict, rfl⟩
    | unanswered name said e millis hverdict =>
      obtain ⟨rfl, heq⟩ := eq_of_served [_] [_, _] hlap rfl haround (by simp [line, GateCall.reads])
      cases heq
      exact ⟨cred, name, hverdict, rfl⟩
    | answered name name' said millis hverdict =>
      obtain ⟨rfl, heq⟩ :=
        eq_of_served [_] [_, _, _] hlap rfl haround (by simp [line, GateCall.reads])
      cases heq
      exact ⟨cred, name, hverdict, rfl⟩

/-- In a turn, what is written to a client is its refusal, or what has just been read from it. -/
theorem turn_of_write {reply : Except IoError Unit}
    (hturn : Turn authorizer socket (l₁ ++ ⟨.writeln stream text, reply⟩ :: l₂)) :
    ∃ cred name,
      (∃ denial, authorize authorizer change (.ofCredentials cred) = .error denial ∧
        text = refusal denial ∧ l₁ = accepting socket stream cred ++
          [line (refusedLine ((Caller.ofCredentials cred).displayAs name) denial)]) ∨
      ∃ said, authorize authorizer change (.ofCredentials cred) = .ok () ∧ text = replyTo said ∧
        l₁ = accepting socket stream cred ++
          [line (beginLine daemon (changeLabel (.ofCredentials cred) name)),
            ⟨.readToEnd stream, .ok said⟩] := by
  generalize hlap : l₁ ++ ⟨.writeln stream text, reply⟩ :: l₂ = lap at hturn
  have hmem : ⟨.writeln stream text, reply⟩ ∈ lap := by simp [← hlap]
  cases hturn with
  | idle e =>
    have hnone := not_moves_idle (by simp [GateCall.reads, GateCall.writes]) _ hmem
    cases hnone.2
  | unbounded stream' cred e =>
    have hnone := not_moves_idle (by simp [GateCall.reads, GateCall.writes]) _ hmem
    cases hnone.2
  | served stream' cred decided hdecided =>
    have haround (z : GateDone) (hz : z ∈ accepting socket stream' cred ++ closing stream') :
        z.call.writes = false := (not_moves_around z hz).2
    cases hdecided with
    | refused denial name gone hverdict =>
      obtain ⟨rfl, heq⟩ := eq_of_served [_] [] hlap rfl haround (by simp [line, GateCall.writes])
      cases heq
      exact ⟨cred, name, .inl ⟨denial, hverdict, rfl, rfl⟩⟩
    | unread name e millis hverdict =>
      simp [opening, closing, line, stamped] at hmem
    | unanswered name said e millis hverdict =>
      obtain ⟨rfl, heq⟩ :=
        eq_of_served [_, _] [_] hlap rfl haround (by simp [line, GateCall.writes])
      cases heq
      exact ⟨cred, name, .inr ⟨said, hverdict, rfl, rfl⟩⟩
    | answered name name' said millis hverdict =>
      obtain ⟨rfl, heq⟩ :=
        eq_of_served [_, _] [_, _] hlap rfl haround (by simp [line, GateCall.writes])
      cases heq
      exact ⟨cred, name, .inr ⟨said, hverdict, rfl, rfl⟩⟩

/-- What comes before an operation in a run of the loop is in earlier turns, or comes before it
in its turn. -/
theorem turn_of_run {e : GateDone} (hrun : Issues (acceptLoop authorizer socket limit n) run h)
    (he : outward run = before ++ e :: after) :
    ∃ earlier l₁ l₂, before = earlier ++ l₁ ∧ Turn authorizer socket (l₁ ++ e :: l₂) := by
  obtain ⟨turns, rest, hturns, hall⟩ := turns_of_run hrun
  rw [he, List.append_assoc, List.cons_append] at hturns
  obtain ⟨earlier, l₁, l₂, hmem, hbefore⟩ := exists_mem_of_flatten_eq hturns
  exact ⟨earlier, l₁, l₂, hbefore, hall _ hmem⟩

/-- **Complete mediation.** In every run of the loop, with every authorizer and whatever the
replies, a request is read only right after its connection has been accepted, the kernel has
been asked who is there, the read deadline has been set, the authorizer has admitted the
caller that the kernel reported, and the journal has been told; and what is written to a client
is either its refusal, before a byte has been read, or what has just been read from it. -/
theorem bytes_mediated (hrun : Issues (acceptLoop authorizer socket limit n) run h) :
    (∀ before after stream reply, outward run = before ++ ⟨.readToEnd stream, reply⟩ :: after →
      ∃ earlier cred name, authorize authorizer change (.ofCredentials cred) = .ok () ∧
        before = earlier ++ accepting socket stream cred ++
          [line (beginLine daemon (changeLabel (.ofCredentials cred) name))]) ∧
    ∀ before after stream text reply,
      outward run = before ++ ⟨.writeln stream text, reply⟩ :: after → ∃ earlier cred name,
        (∃ denial, authorize authorizer change (.ofCredentials cred) = .error denial ∧
          text = refusal denial ∧ before = earlier ++ accepting socket stream cred ++
            [line (refusedLine ((Caller.ofCredentials cred).displayAs name) denial)]) ∨
        ∃ said, authorize authorizer change (.ofCredentials cred) = .ok () ∧
          text = replyTo said ∧ before = earlier ++ accepting socket stream cred ++
            [line (beginLine daemon (changeLabel (.ofCredentials cred) name)),
              ⟨.readToEnd stream, .ok said⟩] := by
  refine ⟨fun before after stream reply he => ?_, fun before after stream text reply he => ?_⟩
  · obtain ⟨earlier, l₁, l₂, rfl, hturn⟩ := turn_of_run hrun he
    obtain ⟨cred, name, hverdict, rfl⟩ := turn_of_read hturn
    exact ⟨earlier, cred, name, hverdict, (List.append_assoc ..).symm⟩
  · obtain ⟨earlier, l₁, l₂, rfl, hturn⟩ := turn_of_run hrun he
    obtain ⟨cred, name, ⟨denial, hverdict, htext, rfl⟩ | ⟨said, hverdict, htext, rfl⟩⟩ :=
      turn_of_write hturn
    · exact ⟨earlier, cred, name, .inl ⟨denial, hverdict, htext, (List.append_assoc ..).symm⟩⟩
    · exact ⟨earlier, cred, name, .inr ⟨said, hverdict, htext, (List.append_assoc ..).symm⟩⟩

/-- Root is read from when it has been admitted. -/
theorem bytes_mediated_root : ∃ cred : Except IoError Cred,
    authorize (PeerGate.forUids [0]) change (.ofCredentials cred) = .ok () ∧
      ⟨.sys (.peerCredentials rootStream), cred⟩ ∈ rootRun "hello".toUTF8 := by
  have hread : outward (rootRun "hello".toUTF8) =
      (outward (rootRun "hello".toUTF8)).take 5 ++ ⟨.readToEnd rootStream, .ok "hello".toUTF8⟩ ::
        (outward (rootRun "hello".toUTF8)).drop 6 := rfl
  obtain ⟨earlier, cred, name, hverdict, hbefore⟩ :=
    (bytes_mediated (rootRun_issues _)).1 _ _ _ _ hread
  have hmem : ⟨.sys (.peerCredentials rootStream), cred⟩ ∈
      (outward (rootRun "hello".toUTF8)).take 5 := by
    rw [hbefore]
    simp [accepting, opening]
  exact ⟨cred, hverdict, List.mem_of_mem_filter (List.mem_of_mem_take hmem)⟩

end Bytes

end UdsPolicy
