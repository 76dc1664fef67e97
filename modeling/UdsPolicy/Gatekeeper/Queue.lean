import UdsPolicy.Gatekeeper.Attended

/-!
# The queue of connections

The kernel queues the connections that are made while the loop is busy. The loop
takes them in the order in which they were made, loses none, takes none twice, and
has dealt with each of them before it takes the next: it has been hung up, or given
up because its read deadline could not be set.
-/

namespace UdsPolicy

open Prog (Issues)

/-- The connection that an operation takes from the queue. -/
def GateDone.taken : GateDone → Option Connection
  | ⟨.sys (.accept _), .ok stream⟩ => some stream
  | _ => none

/-- The connections that have been taken. -/
def taken (past : List GateDone) : List Connection := past.filterMap GateDone.taken

/-- The connection that an operation ends: its stream is hung up, or it is given up because its
read deadline cannot be set. -/
def GateDone.settled : GateDone → Option Connection
  | ⟨.hangUp stream, _⟩ => some stream
  | ⟨.sys (.setReadTimeout stream _), .error _⟩ => some stream
  | _ => none

/-- The connections that have been dealt with. -/
def settled (past : List GateDone) : List Connection := past.filterMap GateDone.settled

/-- The connections of these clients, the first of them after `n` others. -/
def numbered : ℕ → List Cred → List Connection
  | _, [] => []
  | n, c :: arrivals => ⟨n, c⟩ :: numbered (n + 1) arrivals

/-- The operations of the loop: of the system calls, only a few. -/
def GateCall.loops (l : ℕ) : GateCall → Bool
  | .sys (.accept i) => i == l
  | .sys (.peerCredentials _) | .sys (.setReadTimeout _ _) | .sys (.eprintln _) => true
  | .sys _ => false
  | _ => true

section Queue

variable {α : Type} [Authorizer α] {authorizer : α} {socket : Socket} {limit : Option ℕ} {n : ℕ}
  {a : Agent} {p : Process} {k k' : Kernel} {past run lap part : List GateDone}
  {h : Gate (Option ℕ)} {arrivals : List Cred} {access : Access} {l : ℕ}

/-- What cannot be noticed takes no connection. -/
theorem taken_outward : taken (outward past) = taken past := by
  unfold taken outward
  rw [List.filterMap_filter]
  congr 1
  funext e
  obtain ⟨c, reply⟩ := e
  cases c <;> rfl

/-- What cannot be noticed ends no connection. -/
theorem settled_outward : settled (outward past) = settled past := by
  unfold settled outward
  rw [List.filterMap_filter]
  congr 1
  funext e
  obtain ⟨c, reply⟩ := e
  cases c <;> rfl

@[simp] theorem taken_append (past past' : List GateDone) :
    taken (past ++ past') = taken past ++ taken past' :=
  List.filterMap_append

@[simp] theorem settled_append (past past' : List GateDone) :
    settled (past ++ past') = settled past ++ settled past' :=
  List.filterMap_append

/-- A complaint is a line. -/
theorem complaint_quiet {e : IoError} : taken (complaint e) = [] ∧ settled (complaint e) = [] := by
  unfold complaint
  split <;> exact ⟨rfl, rfl⟩

/-- What is decided about a connection neither takes nor ends one. -/
theorem Decided.quiet {stream : Connection} {cred : Except IoError Cred} {decided : List GateDone}
    (h : Decided authorizer stream cred decided) : taken decided = [] ∧ settled decided = [] := by
  cases h <;> exact ⟨rfl, rfl⟩

/-- A complete turn deals with the connection that it takes. -/
theorem Turn.settled_eq_taken (hturn : Turn authorizer socket lap) : settled lap = taken lap := by
  cases hturn with
  | idle e =>
    rw [settled_append, settled_append, taken_append, taken_append, complaint_quiet.1,
      complaint_quiet.2]
    rfl
  | unbounded stream cred e =>
    rw [settled_append, settled_append, taken_append, taken_append, complaint_quiet.1,
      complaint_quiet.2]
    rfl
  | served stream cred decided hdecided =>
    rw [settled_append, settled_append, taken_append, taken_append, hdecided.quiet.1,
      hdecided.quiet.2]
    rfl

/-- A turn begins with `accept`, and only takes a connection there. -/
theorem Turn.begins (hturn : Turn authorizer socket lap) : ∃ reply rest,
    lap = ⟨.sys (.accept socket.listener), reply⟩ :: rest ∧ taken rest = [] := by
  cases hturn with
  | idle e =>
    refine ⟨.error e, complaint e ++ [stamped .tick], rfl, ?_⟩
    rw [taken_append, complaint_quiet.1]
    rfl
  | unbounded stream cred e =>
    refine ⟨.ok stream, [⟨.sys (.peerCredentials stream), cred⟩,
      ⟨.sys (.setReadTimeout stream socket.config.requestReadTimeout), .error e⟩] ++ complaint e ++
        [stamped .tick], rfl, ?_⟩
    rw [taken_append, taken_append, complaint_quiet.1]
    rfl
  | served stream cred decided hdecided =>
    refine ⟨.ok stream, opening socket.config.requestReadTimeout stream cred ++ decided ++
      closing stream, rfl, ?_⟩
    rw [taken_append, taken_append, hdecided.quiet.1]
    rfl

/-- Only a system call takes a connection. -/
theorem taken_other {e : GateDone} (hother : ∀ c, e.call ≠ .sys c) : taken [e] = [] := by
  obtain ⟨c, reply⟩ := e
  cases c with
  | sys c => exact absurd rfl (hother c)
  | _ => rfl

/-- `accept` takes the first connection of the queue, if it takes any. -/
theorem Kernel.taken_exec_accept (k : Kernel) (a : Agent) (p : Process) (fault : Option IoError)
    (l : ℕ) :
    (k.inode l).backlog = taken [⟨.sys (.accept l), (k.exec a p fault (.accept l)).1⟩] ++
      ((k.exec a p fault (.accept l)).2.inode l).backlog := by
  cases fault with
  | some e => rfl
  | none =>
    simp only [Kernel.exec, Kernel.perform, Kernel.accept]
    split
    · rename_i hnone
      simp [taken, GateDone.taken, hnone]
    · rename_i c rest hsome
      simp [taken, GateDone.taken, Kernel.modifyInode, hsome]

/-- An operation of the loop makes no connections. -/
theorem Kernel.connections_exec (k : Kernel) (a : Agent) (p : Process) (fault : Option IoError)
    {c : Syscall} (hc : GateCall.loops l (.sys c) = true) :
    (k.exec a p fault c).2.connections = k.connections := by
  cases fault with
  | some e => rfl
  | none =>
    cases c with
    | accept i =>
      simp only [exec, perform, accept]
      split <;> rfl
    | peerCredentials | setReadTimeout | eprintln => rfl
    | _ => cases hc

/-- **Queue.** The connections that have been taken, followed by those that wait, are those that
waited, followed by those of the clients that may connect. -/
theorem Attended.queue (hk : Attended a p k past arrivals k') (hopen : k.Open l a access)
    (hpast : ∀ e ∈ past, e.call.loops l = true) :
    taken past ++ (k'.inode l).backlog = (k.inode l).backlog ++
      numbered k.connections (arrivals.filter fun c => access.mayWrite c) := by
  induction hk with
  | nil k => simp [taken, numbered]
  | @client k _ _ arrivals c hrest ih =>
    have hlater := ih (hopen.of_untouched (k.untouched_clientConnects c)) hpast
    rw [hlater]
    rcases hopen.clientConnects_cases c with ⟨hmay, hmade, hjoins⟩ | ⟨hmay, hsame⟩
    · rw [hmade, hjoins, List.append_assoc, List.filter_cons_of_pos hmay]
      rfl
    · rw [hsame, List.filter_cons_of_neg (by simp [hmay])]
  | @own k _ past arrivals c fault hfail hrest ih =>
    obtain ⟨hfirst, hpast⟩ := List.forall_mem_cons.mp hpast
    have hlater := ih (hopen.of_untouched (k.untouched_exec a p fault ?_)) hpast
    · rw [k.connections_exec a p fault hfirst] at hlater
      cases c with
      | peerCredentials | setReadTimeout | eprintln =>
        cases fault with
        | none => exact hlater
        | some e => exact hlater
      | accept i =>
        obtain rfl : i = l := beq_iff_eq.mp hfirst
        rw [k.taken_exec_accept a p fault i, List.append_assoc, ← hlater, ← List.append_assoc,
          ← taken_append]
        rfl
      | _ => cases hfirst
    · cases c <;> first | rfl | cases hfirst
  | other e hother hrest ih =>
    obtain ⟨-, hpast⟩ := List.forall_mem_cons.mp hpast
    have hnone : taken [e] = [] := taken_other hother
    rw [← List.singleton_append, taken_append, hnone]
    exact ih hopen hpast

/-- The loop performs no other system calls. -/
theorem loops_of_run (hrun : Issues (acceptLoop authorizer socket limit n) run h) :
    ∀ e ∈ run, e.call.loops socket.listener = true := by
  have hturn (served : ℕ) : Prog.Only (fun c => GateCall.loops socket.listener c = true)
      (turn authorizer socket served) := by
    refine only_turn (fun c hc => ?_) (fun c hc => ?_) fun _ => rfl
    · cases c with
      | sys c =>
        cases c with
        | accept => exact hc
        | peerCredentials | setReadTimeout => rfl
        | _ => cases hc
      | _ => cases hc
    · cases c with
      | sys c =>
        cases c with
        | eprintln => rfl
        | _ => cases hc
      | _ => rfl
  intro e he
  obtain ⟨before, after, hsplit⟩ := List.append_of_mem he
  exact (Prog.Conducts.sound (Prog.only_repeatWhile hturn n 0) hrun).2 before e after hsplit

/-- Complete turns deal with the connections that they take. -/
theorem settled_flatten {turns : List (List GateDone)}
    (hturns : ∀ lap ∈ turns, Turn authorizer socket lap) :
    settled turns.flatten = taken turns.flatten := by
  induction turns with
  | nil => rfl
  | cons lap turns ih =>
    obtain ⟨hlap, hturns⟩ := List.forall_mem_cons.mp hturns
    rw [List.flatten_cons, settled_append, taken_append, hlap.settled_eq_taken, ih hturns]

/-- A turn that has begun has at most one connection to deal with. -/
theorem Turn.pending {rest : List GateDone} (hturn : Turn authorizer socket (part ++ rest)) :
    ∃ pending, taken part = settled part ++ pending ∧ pending.length ≤ 1 := by
  obtain ⟨reply, later, hlap, hlater⟩ := hturn.begins
  cases part with
  | nil => exact ⟨[], rfl, Nat.zero_le 1⟩
  | cons e part =>
    rw [List.cons_append] at hlap
    obtain ⟨rfl, rfl⟩ := List.cons.inj hlap
    have hsettled := hturn.settled_eq_taken
    rw [taken_append] at hlater
    obtain ⟨hpart, hrest⟩ := List.append_eq_nil_iff.mp hlater
    rw [taken_append, settled_append, hrest, List.append_nil] at hsettled
    refine ⟨settled rest, hsettled.symm, ?_⟩
    have hone : (taken (⟨.sys (.accept socket.listener), reply⟩ :: part)).length ≤ 1 := by
      rw [← List.singleton_append, taken_append, hpart]
      cases reply with
      | error e => exact Nat.zero_le 1
      | ok stream => exact Nat.le_refl 1
    rw [← hsettled, List.length_append] at hone
    omega

/-- **Connections in order.** The kernel answers a run of the loop while clients try to connect,
and nobody else touches the path. Whatever fails, the connections that the loop has taken,
followed by those that still wait, are exactly those that waited at the start, followed by those
of the clients that may connect, in the order of their arrival; and all that have been taken
have been dealt with in this order, except the last one while its turn lasts. -/
theorem served_in_order (hrun : Issues (acceptLoop authorizer socket limit n) run h)
    (hk : Attended a p k run arrivals k') (hopen : k.Open socket.listener a access) :
    taken run ++ (k'.inode socket.listener).backlog =
        (k.inode socket.listener).backlog ++
          numbered k.connections (arrivals.filter fun c => access.mayWrite c) ∧
      ∃ pending, taken run = settled run ++ pending ∧ pending.length ≤ 1 ∧
        ∀ ended, h = .ret ended → pending = [] := by
  refine ⟨hk.queue hopen (loops_of_run hrun), ?_⟩
  obtain ⟨laps, served', part, rfl, hlaps, hend⟩ := Prog.issues_repeatWhile hrun
  rw [← taken_outward, ← settled_outward, outward_flatten, taken_append, settled_append,
    settled_flatten (turns_of_laps hlaps)]
  rcases hend with ⟨c, k, -, hpart, hgoes⟩ | ⟨rfl, -⟩
  · obtain ⟨rest, hturn⟩ := turn_of_part hpart
    obtain ⟨pending, hpending, hone⟩ := hturn.pending
    refine ⟨pending, ?_, hone, fun ended hended => absurd hended (hgoes ended)⟩
    rw [hpending, List.append_assoc]
  · exact ⟨[], (List.append_nil _).symm, Nat.zero_le 1, fun _ _ => rfl⟩

/-- The daemon's socket is open, and a connection of root waits. -/
def rootWaiting : Kernel where
  entry := some (.node (.socket 7))
  inode := fun _ => ⟨openAccess none World.rootProcess, some (.agent 0), [rootStream]⟩
  nextIno := 8
  directoryGroup := none
  connections := 1
  groupGid := fun _ => none
  stderr := []

/-- Root connects again while its first connection is served. -/
theorem rootWaiting_attended : ∃ k', Attended 0 World.rootProcess rootWaiting
    (rootRun "hello".toUTF8) [rootPeer] k' :=
  ⟨_, .own (.accept 7) none rfl <| .own (.peerCredentials rootStream) none rfl <|
    .own (.setReadTimeout rootStream _) none rfl <| .client rootPeer <| .other _ nofun <|
    .other _ nofun <| .other _ nofun <| .own (.eprintln _) none rfl <| .other _ nofun <|
    .other _ nofun <| .other _ nofun <| .own (.eprintln _) none rfl <| .other _ nofun <|
    .own (.eprintln _) none rfl <| .other _ nofun <| .other _ nofun <| .other _ nofun <| .nil _⟩

/-- The first connection has been dealt with, and the second one waits. -/
theorem served_in_order_root : ∃ k', Attended 0 World.rootProcess rootWaiting
    (rootRun "hello".toUTF8) [rootPeer] k' ∧
      settled (rootRun "hello".toUTF8) ++ (k'.inode 7).backlog =
        [⟨0, rootPeer⟩, ⟨1, rootPeer⟩] := by
  obtain ⟨k', hk⟩ := rootWaiting_attended
  have hopen : rootWaiting.Open 7 0 (openAccess none World.rootProcess) := ⟨⟨rfl, rfl⟩, rfl⟩
  obtain ⟨hqueue, pending, htaken, -, hend⟩ := served_in_order (rootRun_issues _) hk hopen
  refine ⟨k', hk, ?_⟩
  rw [hend (some 1) rfl, List.append_nil] at htaken
  rw [← htaken]
  exact hqueue

end Queue

end UdsPolicy
