import UdsPolicy.General.Conduct
import UdsPolicy.General.Custody
import UdsPolicy.General.Runs
import UdsPolicy.Socket.Bind
import UdsPolicy.Watchdog.Arming

/-!
# The deadline of a stream is its own

A stream that is accepted inherits the receive timeout of its listener, which may
have been set for the watchdog, and may be changed at any moment. Any number of
threads accept on one listener while clients connect. Each stream that one of them
hands out has been in the hands of this thread alone, has the read deadline of the
configuration, and comes with the kernel's answer about its own peer.
-/

namespace UdsPolicy

/-! ### `Socket::accept`, whatever a stream is -/

/-- The operations of `Socket::accept`. A stream that is not returned is closed. -/
inductive AcceptCall (σ : Type)
  | accept
  | peerCredentials (stream : σ)
  | setReadTimeout (stream : σ) (timeout : Option ℕ)
  | close (stream : σ)

/-- What each operation returns. -/
abbrev AcceptCall.Reply {σ : Type} : AcceptCall σ → Type
  | .accept => Except IoError σ
  | .peerCredentials _ => Except IoError Cred
  | .setReadTimeout _ _ => Except IoError Unit
  | .close _ => Unit

/-- Programs over these operations. -/
abbrev Accepting (σ : Type) := Prog (AcceptCall σ) AcceptCall.Reply

/-- Perform one of these operations. -/
def onStream {σ : Type} (c : AcceptCall σ) : Accepting σ c.Reply := Prog.issue c

/-- `Socket::accept` with a read deadline, over streams of any kind. -/
def acceptStream {σ : Type} (timeout : Option ℕ) :
    Accepting σ (Except IoError (σ × Caller)) := do
  match ← onStream (.accept : AcceptCall σ) with
  | .error error => return .error error
  | .ok stream =>
    let cred ← onStream (.peerCredentials stream)
    match ← onStream (.setReadTimeout stream timeout) with
    | .error error =>
      onStream (.close stream)
      return .error error
    | .ok _ => return .ok (stream, .ofCredentials cred)

/-- An operation on the streams of a listener of the kernel. -/
def AcceptCall.onListener (listener : ℕ) : (c : AcceptCall Connection) → Sys c.Reply
  | .accept => call (.accept listener)
  | .peerCredentials stream => call (.peerCredentials stream)
  | .setReadTimeout stream timeout => call (.setReadTimeout stream timeout)
  | .close _ => pure ()

/-- `Socket::accept` is the program for the streams of its listener. -/
theorem accept_eq_acceptStream (socket : Socket) : ExceptT.run socket.accept =
    (acceptStream socket.config.requestReadTimeout).interpret
      (AcceptCall.onListener socket.listener) := by
  have haccept : ExceptT.run socket.accept = _ := Socket.accept_eq socket
  rw [haccept]
  refine congrArg (Prog.call _) (funext fun reply => ?_)
  cases reply with
  | error error => rfl
  | ok stream =>
    refine congrArg (Prog.call _) (funext fun cred => ?_)
    refine congrArg (Prog.call _) (funext fun reply => ?_)
    cases reply <;> rfl

/-- The control points of `Socket::accept`, each named after what it does next. -/
inductive AcceptPc (σ : Type)
  | accept
  | peerCredentials (stream : σ)
  | setReadTimeout (stream : σ) (cred : Except IoError Cred)
  | close (stream : σ) (error : IoError)
  | returned (result : Except IoError (σ × Caller))

namespace AcceptPc

open Prog (Head)

/-- What `Socket::accept` does at each control point. -/
def next {σ : Type} (timeout : Option ℕ) :
    AcceptPc σ → Head (AcceptCall σ) AcceptCall.Reply (Except IoError (σ × Caller)) (AcceptPc σ)
  | .accept => .call .accept fun
    | .error error => .returned (.error error)
    | .ok stream => .peerCredentials stream
  | .peerCredentials stream => .call (.peerCredentials stream) fun cred =>
    .setReadTimeout stream cred
  | .setReadTimeout stream cred => .call (.setReadTimeout stream timeout) fun
    | .error error => .close stream error
    | .ok _ => .returned (.ok (stream, .ofCredentials cred))
  | .close stream error => .call (.close stream) fun _ => .returned (.error error)
  | .returned result => .ret result

/-- The stream that a thread has in its hands. -/
def stream {σ : Type} : AcceptPc σ → Option σ
  | .peerCredentials stream | .setReadTimeout stream _ | .close stream _ => some stream
  | .accept | .returned _ => none

end AcceptPc

open Prog in
/-- Started at `accept`, the machine issues the operations of `Socket::accept`. -/
theorem acceptStream_presents {σ : Type} (timeout : Option ℕ) :
    Presents (AcceptPc.next timeout) (.accept : AcceptPc σ) (acceptStream timeout) := by
  refine .call rfl fun reply => ?_
  cases reply with
  | error error => exact .ret rfl
  | ok stream =>
    refine .call rfl fun cred => .call rfl fun reply => ?_
    cases reply with
    | error error => exact .call rfl fun _ => .ret rfl
    | ok _ => exact .ret rfl

/-! ### Deadlines -/

/-- The microseconds after which a blocking call returns; the kernel reads zero as no timeout. -/
def TimeVal.bound (tv : TimeVal) : Option ℕ :=
  if tv.micros = 0 then none else some tv.micros.toNat

/-- A stream has the deadline that was asked for: none, or one that is not nothing, to the
microsecond, as far as the seconds fit into 64 bits. -/
def TimeVal.Keeps (tv : TimeVal) : Option ℕ → Prop
  | none => tv.bound = none
  | some nanos => 0 < nanos ∧ ∃ b, tv.bound = some b ∧ 0 < b ∧ b * 1000 ≤ max nanos 1000 ∧
    (nanos / 1000000000 ≤ i64Max → nanos < b * 1000 + 1000)

/-- `set_read_timeout` gives a stream the deadline that was asked for. -/
theorem keeps_of_readTimeVal {timeout : Option ℕ} {tv : TimeVal}
    (h : readTimeVal timeout = .ok tv) : tv.Keeps timeout := by
  cases timeout with
  | none =>
    cases h
    rfl
  | some nanos =>
    have hmax : i64Max = 9223372036854775807 := rfl
    simp only [readTimeVal] at h
    split at h
    · cases h
    · rename_i hpos
      split at h
      · rename_i hsmall
        cases h
        exact ⟨by omega, 1, rfl, Nat.one_pos, by omega, fun hfits => by omega⟩
      · rename_i hlarge
        cases h
        have hmicros : TimeVal.micros ⟨(min (nanos / 1000000000) i64Max : ℕ),
            (nanos % 1000000000 / 1000 : ℕ)⟩ =
            (1000000 * min (nanos / 1000000000) i64Max + nanos % 1000000000 / 1000 : ℕ) := by
          simp only [TimeVal.micros]
          omega
        refine ⟨by omega, 1000000 * min (nanos / 1000000000) i64Max + nanos % 1000000000 / 1000,
          ?_, by omega, by omega, fun hfits => by omega⟩
        unfold TimeVal.bound
        rw [hmicros, if_neg (by omega), Int.toNat_natCast]

/-! ### Threads that accept on one listener -/

/-- An answer about a peer: who it is, or that this could not be read. -/
def Tells (answer : Except IoError Cred) (cred : Cred) : Prop :=
  answer = .ok cred ∨ ∃ e, answer = .error e

/-- A stream that has been accepted. -/
structure Stream where
  /-- Its peer. -/
  cred : Cred
  /-- The socket option `SO_RCVTIMEO`. -/
  receiveTimeout : TimeVal

/-- One listener, the streams that have been accepted from it, and the threads that accept. -/
structure Listening where
  /-- The listener's own options. -/
  listener : Listener
  /-- Connections made and not yet accepted, oldest first. -/
  backlog : List Cred
  /-- The streams that have been accepted, by their descriptors. -/
  stream : ℕ → Stream
  /-- The next descriptor. -/
  nextStream : ℕ
  /-- Where each thread is in `Socket::accept`, if it is there. -/
  threads : ℕ → Option (AcceptPc ℕ)
  /-- What the calls of `Socket::accept` have returned, oldest first. -/
  handedOut : List (ℕ × Caller)
  /-- The streams that have been closed again, oldest first. -/
  closed : List ℕ

/-- What can happen next. -/
inductive ListeningAction
  /-- A client connects. -/
  | connect (c : Cred)
  /-- Some thread calls `Socket::set_accept_timeout`, whose system call may fail. -/
  | setAcceptTimeout (timeout : Duration) (fault : Option IoError)
  /-- A thread calls `Socket::accept`. -/
  | call (thread : ℕ)
  /-- A thread performs the next operation of its `Socket::accept`, which may fail. -/
  | step (thread : ℕ) (fault : Option IoError)

namespace Listening

/-- Answer an operation. A stream is accepted with the options of the listener. -/
def exec (s : Listening) (fault : Option IoError) : (c : AcceptCall ℕ) → c.Reply × Listening
  | .accept =>
    match fault, s.backlog with
    | some e, _ => (.error e, s)
    | none, [] => (.error ⟨.wouldBlock, "Resource temporarily unavailable (os error 11)"⟩, s)
    | none, c :: rest =>
      (.ok s.nextStream,
        { s with
          backlog := rest
          stream := Function.update s.stream s.nextStream ⟨c, s.listener.receiveTimeout⟩
          nextStream := s.nextStream + 1 })
  | .peerCredentials fd =>
    match fault with
    | some e => (.error e, s)
    | none => (.ok (s.stream fd).cred, s)
  | .setReadTimeout fd timeout =>
    match readTimeVal timeout, fault with
    | .error e, _ => (.error e, s)
    | .ok _, some e => (.error e, s)
    | .ok tv, none =>
      (.ok (), { s with stream := Function.update s.stream fd ⟨(s.stream fd).cred, tv⟩ })
  | .close fd => ((), { s with closed := s.closed ++ [fd] })

/-- A thread goes on at a control point, or returns. -/
def goOn (s : Listening) (thread : ℕ) : AcceptPc ℕ → Listening
  | .returned (.ok given) =>
    { s with
      threads := Function.update s.threads thread none
      handedOut := s.handedOut ++ [given] }
  | .returned (.error _) => { s with threads := Function.update s.threads thread none }
  | pc => { s with threads := Function.update s.threads thread (some pc) }

/-- One action, or `none` if it cannot happen here. A panic leaves the listener as it is. -/
def step (lib : TimeLibrary) (timeout : Option ℕ) (s : Listening) :
    ListeningAction → Option Listening
  | .connect c => some { s with backlog := s.backlog ++ [c] }
  | .setAcceptTimeout t fault =>
    match setAcceptTimeout lib fault s.listener t with
    | none => some s
    | some (_, listener) => some { s with listener := listener }
  | .call thread =>
    match s.threads thread with
    | none => some (s.goOn thread .accept)
    | some _ => none
  | .step thread fault =>
    match s.threads thread with
    | none => none
    | some pc =>
      match pc.next timeout with
      | .ret _ => none
      | .call c succ => some ((s.exec fault c).2.goOn thread (succ (s.exec fault c).1))

/-- A listener before anything has been accepted from it. -/
structure Initial (s : Listening) : Prop where
  /-- Nothing has been accepted. -/
  nextStream : s.nextStream = 0
  /-- No thread is in `Socket::accept`. -/
  threads : ∀ thread, s.threads thread = none
  /-- Nothing has been returned. -/
  handedOut : s.handedOut = []
  /-- Nothing has been closed. -/
  closed : s.closed = []

/-- A thread has a stream in its hands, which it has accepted and not yet returned or closed. -/
def Holds (s : Listening) (thread fd : ℕ) : Prop :=
  ∃ pc, s.threads thread = some pc ∧ pc.stream = some fd

/-- The streams, as things in the hands of threads. -/
def custody (s : Listening) : Custody ℕ where
  held thread := (s.threads thread).bind AcceptPc.stream
  made := s.nextStream
  given := s.handedOut.map Prod.fst
  lost := s.closed

/-- What a thread does with the next operation of its `Socket::accept`. -/
inductive Stepped (timeout : Option ℕ) (s : Listening) (thread : ℕ) : Listening → Prop
  /-- There is no stream. -/
  | failed : s.threads thread = some .accept →
      Stepped timeout s thread { s with threads := Function.update s.threads thread none }
  /-- It has accepted a stream. -/
  | accepted (c : Cred) (rest : List Cred) :
      s.threads thread = some .accept → s.backlog = c :: rest →
      Stepped timeout s thread
        { s with
          backlog := rest
          stream := Function.update s.stream s.nextStream ⟨c, s.listener.receiveTimeout⟩
          nextStream := s.nextStream + 1
          threads := Function.update s.threads thread (some (.peerCredentials s.nextStream)) }
  /-- It has asked for the peer. -/
  | asked (fd : ℕ) (answer : Except IoError Cred) :
      s.threads thread = some (.peerCredentials fd) → Tells answer (s.stream fd).cred →
      Stepped timeout s thread
        { s with threads := Function.update s.threads thread (some (.setReadTimeout fd answer)) }
  /-- It could not set the deadline. -/
  | refused (fd : ℕ) (answer : Except IoError Cred) (e : IoError) :
      s.threads thread = some (.setReadTimeout fd answer) →
      Stepped timeout s thread
        { s with threads := Function.update s.threads thread (some (.close fd e)) }
  /-- It has set the deadline, and hands the stream out. -/
  | handedOut (fd : ℕ) (answer : Except IoError Cred) (tv : TimeVal) :
      s.threads thread = some (.setReadTimeout fd answer) → readTimeVal timeout = .ok tv →
      Stepped timeout s thread
        { s with
          stream := Function.update s.stream fd ⟨(s.stream fd).cred, tv⟩
          threads := Function.update s.threads thread none
          handedOut := s.handedOut ++ [(fd, .ofCredentials answer)] }
  /-- It has closed the stream. -/
  | closed (fd : ℕ) (e : IoError) : s.threads thread = some (.close fd e) →
      Stepped timeout s thread
        { s with
          threads := Function.update s.threads thread none
          closed := s.closed ++ [fd] }

section Steps

variable {lib : TimeLibrary} {timeout : Option ℕ} {s s' : Listening}
  {thread : ℕ} {fault : Option IoError}

theorem stepped_of_step (h : s.step lib timeout (.step thread fault) = some s') :
    Stepped timeout s thread s' := by
  simp only [step] at h
  split at h
  · cases h
  · rename_i pc hpc
    cases pc with
    | accept =>
      obtain rfl := Option.some.inj h
      simp only [exec]
      split
      · exact .failed hpc
      · exact .failed hpc
      · rename_i c rest hbacklog
        exact .accepted c rest hpc hbacklog
    | peerCredentials fd =>
      obtain rfl := Option.some.inj h
      cases fault with
      | some e => exact .asked fd _ hpc (.inr ⟨e, rfl⟩)
      | none => exact .asked fd _ hpc (.inl rfl)
    | setReadTimeout fd answer =>
      obtain rfl := Option.some.inj h
      simp only [exec]
      split
      · exact .refused fd answer _ hpc
      · exact .refused fd answer _ hpc
      · rename_i tv htv
        exact .handedOut fd answer tv hpc htv
    | close fd e =>
      obtain rfl := Option.some.inj h
      exact .closed fd e hpc
    | returned result => cases h

/-- A thread that goes on holds what its control point holds. -/
theorem held_update (s : Listening) (thread : ℕ) (x : Option (AcceptPc ℕ)) :
    (fun j => (Function.update s.threads thread x j).bind AcceptPc.stream) =
      Function.update s.custody.held thread (x.bind AcceptPc.stream) :=
  funext fun j => Function.apply_update (fun _ => fun pc => Option.bind pc AcceptPc.stream)
    s.threads thread x j

theorem holds_iff {fd : ℕ} : s.Holds thread fd ↔ s.custody.held thread = some fd :=
  Option.bind_eq_some_iff.symm

theorem held_eq {pc : AcceptPc ℕ} (h : s.threads thread = some pc) :
    s.custody.held thread = pc.stream := by
  simp only [custody, h, Option.bind_some]

/-- A thread that goes on with the stream that it has, or without one as before. -/
theorem held_keep {pc : AcceptPc ℕ} {x : Option (AcceptPc ℕ)} (h : s.threads thread = some pc)
    (hx : x.bind AcceptPc.stream = pc.stream) :
    (fun j => (Function.update s.threads thread x j).bind AcceptPc.stream) = s.custody.held := by
  rw [held_update, hx, ← held_eq h, Function.update_eq_self]

/-- **Step lemma.** A step of a thread keeps every stream in one place. -/
theorem Stepped.sound (h : Stepped timeout s thread s') (hs : s.custody.Sound) :
    s'.custody.Sound := by
  cases h with
  | failed hpc =>
    have hkeep := held_keep (x := none) hpc rfl
    simp only [custody, hkeep]
    exact hs
  | accepted c rest hpc hbacklog =>
    have hmake := held_update s thread (some (.peerCredentials s.nextStream))
    simp only [custody, hmake]
    exact hs.make (held_eq hpc)
  | asked fd answer hpc htells =>
    have hkeep := held_keep (x := some (.setReadTimeout fd answer)) hpc rfl
    simp only [custody, hkeep]
    exact hs
  | refused fd answer e hpc =>
    have hkeep := held_keep (x := some (.close fd e)) hpc rfl
    simp only [custody, hkeep]
    exact hs
  | handedOut fd answer tv hpc htv =>
    have hgive := held_update s thread none
    simp only [custody, hgive, List.map_append]
    exact hs.give (held_eq hpc)
  | closed fd e hpc =>
    have hlose := held_update s thread none
    simp only [custody, hlose]
    exact hs.lose (held_eq hpc)

/-- What is known of the streams. -/
structure Kept (timeout : Option ℕ) (s : Listening) : Prop where
  /-- Every stream is in one place. -/
  sound : s.custody.Sound
  /-- A thread that has asked has been told about the stream that it holds. -/
  told : ∀ thread fd answer, s.threads thread = some (.setReadTimeout fd answer) →
    Tells answer (s.stream fd).cred
  /-- A stream that has been handed out has its deadline, and comes with its peer. -/
  handedOut : ∀ fd caller, (fd, caller) ∈ s.handedOut →
    readTimeVal timeout = .ok (s.stream fd).receiveTimeout ∧
      ∃ answer, Tells answer (s.stream fd).cred ∧ caller = .ofCredentials answer

theorem Initial.kept (h : s.Initial) : Kept timeout s where
  sound := by
    have hheld : s.custody.held = fun _ => none :=
      funext fun thread => by simp only [custody, h.threads, Option.bind_none]
    have hcustody : s.custody = ⟨fun _ => none, 0, [], []⟩ := by
      rw [← hheld]
      simp only [custody, h.nextStream, h.handedOut, h.closed, List.map_nil]
    rw [hcustody]
    exact Custody.sound_empty
  told thread fd answer hpc := by
    rw [h.threads] at hpc
    cases hpc
  handedOut fd caller hmem := by
    rw [h.handedOut] at hmem
    cases hmem

/-- What has been handed out is not what a thread holds. -/
theorem Kept.ne_of_held (h : Kept timeout s) {fd fd' : ℕ} {caller : Caller} {pc : AcceptPc ℕ}
    (hpc : s.threads thread = some pc) (hfd : pc.stream = some fd')
    (hmem : (fd, caller) ∈ s.handedOut) : fd ≠ fd' := by
  rintro rfl
  refine h.sound.kept thread fd ((held_eq hpc).trans hfd) ?_
  exact List.mem_append_left _ (List.mem_map.mpr ⟨_, hmem, rfl⟩)

/-- The next descriptor is nobody's. -/
theorem Kept.ne_nextStream (h : Kept timeout s) {fd : ℕ}
    (hfd : (∃ caller, (fd, caller) ∈ s.handedOut) ∨
      ∃ thread pc, s.threads thread = some pc ∧ pc.stream = some fd) : fd ≠ s.nextStream := by
  have hlt : fd < s.nextStream := by
    rcases hfd with ⟨caller, hmem⟩ | ⟨thread, pc, hpc, hstream⟩
    · apply h.sound.made_of_gone
      exact List.mem_append_left _ (List.mem_map.mpr ⟨_, hmem, rfl⟩)
    · exact h.sound.made_of_held thread fd ((held_eq hpc).trans hstream)
  omega

/-- Where another thread is, or where this one has gone. -/
theorem threads_update {x : Option (AcceptPc ℕ)} {j : ℕ} {pc : AcceptPc ℕ}
    (h : Function.update s.threads thread x j = some pc) :
    x = some pc ∨ s.threads j = some pc := by
  by_cases hj : j = thread
  · subst j
    exact .inl (by simpa using h)
  · exact .inr (by simpa [hj] using h)

/-- **Step lemma.** What is known of the streams is known after a step of a thread. -/
theorem Kept.stepped (h : Kept timeout s) (hstep : Stepped timeout s thread s') :
    Kept timeout s' := by
  refine ⟨hstep.sound h.sound, ?_, ?_⟩
  · intro j fd answer hj
    cases hstep with
    | accepted c rest hpc hbacklog =>
      rcases threads_update hj with hnew | hold
      · cases hnew
      · have hne := h.ne_nextStream (.inr ⟨j, _, hold, rfl⟩)
        simpa [hne] using h.told j fd answer hold
    | asked fd' answer' hpc htells =>
      rcases threads_update hj with hnew | hold
      · cases hnew
        exact htells
      · exact h.told j fd answer hold
    | handedOut fd' answer' tv hpc htv =>
      rcases threads_update hj with hnew | hold
      · cases hnew
      · have htold := h.told j fd answer hold
        by_cases hfd : fd = fd'
        · subst fd'
          simpa using htold
        · simpa [hfd] using htold
    | failed | refused | closed =>
      rcases threads_update hj with hnew | hold
      · cases hnew
      · exact h.told j fd answer hold
  · intro fd caller hmem
    cases hstep with
    | accepted c rest hpc hbacklog =>
      have hne := h.ne_nextStream (.inl ⟨caller, hmem⟩)
      simpa [hne] using h.handedOut fd caller hmem
    | handedOut fd' answer' tv hpc htv =>
      rcases List.mem_append.mp hmem with hmem | hmem
      · have hne := h.ne_of_held hpc rfl hmem
        simpa [hne] using h.handedOut fd caller hmem
      · cases List.mem_singleton.mp hmem
        have htold := h.told thread fd answer' hpc
        simp only [Function.update_self]
        exact ⟨htv, answer', htold, rfl⟩
    | failed | asked | refused | closed => exact h.handedOut fd caller hmem

/-- **Step lemma.** What is known of the streams is known after every action. -/
theorem Kept.step (h : Kept timeout s) {act : ListeningAction}
    (hstep : s.step lib timeout act = some s') : Kept timeout s' := by
  cases act with
  | connect c =>
    cases hstep
    exact ⟨h.sound, h.told, h.handedOut⟩
  | setAcceptTimeout t fault =>
    simp only [Listening.step] at hstep
    split at hstep
    · cases hstep
      exact h
    · cases hstep
      exact ⟨h.sound, h.told, h.handedOut⟩
  | call j =>
    simp only [Listening.step] at hstep
    split at hstep
    · rename_i hidle
      cases hstep
      have hheld : (s.goOn j .accept).custody.held = s.custody.held := by
        have hupdate := held_update s j (some .accept)
        have hnone : s.custody.held j = none := by simp only [custody, hidle, Option.bind_none]
        simp only [goOn, custody] at hupdate hnone ⊢
        rw [hupdate]
        exact Function.update_eq_self_iff.mpr hnone.symm
      refine ⟨?_, fun thread fd answer hpc => ?_, h.handedOut⟩
      · have hsame : (s.goOn j .accept).custody = s.custody := by
          simp only [custody, Custody.mk.injEq] at hheld ⊢
          exact ⟨hheld, rfl, rfl, rfl⟩
        rw [hsame]
        exact h.sound
      · rcases threads_update hpc with hnew | hold
        · cases hnew
        · exact h.told thread fd answer hold
    · cases hstep
  | step thread fault => exact h.stepped (stepped_of_step hstep)

/-- The peers of the streams that have been accepted, oldest first. -/
def peers (s : Listening) : List Cred := (List.range s.nextStream).map fun fd => (s.stream fd).cred

/-- A stream that is accepted is the first in the queue. -/
theorem Stepped.order (h : Stepped timeout s thread s') :
    s'.peers ++ s'.backlog = s.peers ++ s.backlog := by
  cases h with
  | accepted c rest hpc hbacklog =>
    have hold : (List.range s.nextStream).map (fun fd => (Function.update s.stream s.nextStream
        ⟨c, s.listener.receiveTimeout⟩ fd).cred) = s.peers := by
      apply List.map_congr_left
      intro fd hfd
      have hlt := List.mem_range.mp hfd
      have hne : fd ≠ s.nextStream := by omega
      simp only [Function.update_of_ne hne]
    simp only [peers, List.range_succ, List.map_append, hold, hbacklog]
    simp
  | handedOut fd answer tv hpc htv =>
    have hsame : (fun fd' => (Function.update s.stream fd ⟨(s.stream fd).cred, tv⟩ fd').cred) =
        fun fd' => (s.stream fd').cred := by
      funext fd'
      by_cases hfd : fd' = fd
      · subst fd'
        simp
      · simp [hfd]
    simp only [peers, hsame]
  | failed | asked | refused | closed => rfl

end Steps

/-- The clients that have connected, oldest first. -/
def arrivals (as : List ListeningAction) : List Cred :=
  as.filterMap fun
    | .connect c => some c
    | _ => none

/-- **Deadlines.** Any number of threads accept on a listener, whose own timeout is set at any
moments to whatever it may be, while clients connect and any operation may fail. Every stream
that has been handed out has the deadline of the configuration and comes with what the kernel
has said about its own peer; no stream is handed out or closed twice, or both; every other stream
is in the hands of exactly one thread; and they are accepted in the order in which their clients
have connected. -/
theorem deadlines_kept {lib : TimeLibrary} {timeout : Option ℕ}
    {s₀ s : Listening} {as : List ListeningAction} (hinit : s₀.Initial)
    (hrun : Runs.run (step lib timeout) s₀ as = some s) :
    (∀ fd caller, (fd, caller) ∈ s.handedOut → (s.stream fd).receiveTimeout.Keeps timeout ∧
      ∃ answer, Tells answer (s.stream fd).cred ∧ caller = .ofCredentials answer) ∧
    (s.handedOut.map Prod.fst ++ s.closed).Nodup ∧
    (∀ fd < s.nextStream, fd ∈ s.handedOut.map Prod.fst ++ s.closed ∨ ∃ thread, s.Holds thread fd) ∧
    (∀ thread fd, s.Holds thread fd → fd < s.nextStream ∧
      fd ∉ s.handedOut.map Prod.fst ++ s.closed ∧
      ∀ thread', s.Holds thread' fd → thread' = thread) ∧
    s.peers ++ s.backlog = s₀.backlog ++ arrivals as := by
  have hpres : ∀ as s act s', Kept timeout s ∧ s.peers ++ s.backlog = s₀.backlog ++ arrivals as →
      step lib timeout s act = some s' →
      Kept timeout s' ∧ s'.peers ++ s'.backlog = s₀.backlog ++ arrivals (as ++ [act]) := by
    rintro as s act s' ⟨hkept, horder⟩ hstep
    refine ⟨hkept.step hstep, ?_⟩
    have harrivals : arrivals (as ++ [act]) = arrivals as ++ arrivals [act] :=
      List.filterMap_append
    rw [harrivals, ← List.append_assoc, ← horder]
    cases act with
    | connect c =>
      cases hstep
      exact (List.append_assoc ..).symm
    | setAcceptTimeout t fault =>
      simp only [Listening.step] at hstep
      split at hstep <;> cases hstep <;> exact (List.append_nil _).symm
    | call thread =>
      simp only [Listening.step] at hstep
      split at hstep <;> cases hstep
      exact (List.append_nil _).symm
    | step thread fault =>
      exact (stepped_of_step hstep).order.trans (List.append_nil _).symm
  have hfirst : s₀.peers ++ s₀.backlog = s₀.backlog ++ arrivals [] := by
    simp [peers, arrivals, hinit.nextStream]
  obtain ⟨hkept, horder⟩ := Runs.run_history hpres ⟨hinit.kept, hfirst⟩ hrun
  refine ⟨fun fd caller hmem => ?_, hkept.sound.once, fun fd hfd => ?_, fun thread fd hholds => ?_,
    horder⟩
  · obtain ⟨htv, htells⟩ := hkept.handedOut fd caller hmem
    exact ⟨keeps_of_readTimeVal htv, htells⟩
  · refine (hkept.sound.accounted fd hfd).imp_right ?_
    rintro ⟨thread, hheld⟩
    exact ⟨thread, holds_iff.mpr hheld⟩
  · have hheld := holds_iff.mp hholds
    exact ⟨hkept.sound.made_of_held thread fd hheld, hkept.sound.kept thread fd hheld,
      fun thread' h => hkept.sound.alone thread' thread fd (holds_iff.mp h) hheld⟩

/-- A listener with a timeout of one second. -/
def armed : Listening where
  listener := ⟨⟨1, 0⟩⟩
  backlog := []
  stream := fun _ => ⟨⟨0, 0, 0, []⟩, ⟨0, 0⟩⟩
  nextStream := 0
  threads := fun _ => none
  handedOut := []
  closed := []

/-- Two threads accept; the first of them is overtaken, and the timeout is set meanwhile. -/
def twoAccept : List ListeningAction :=
  [.connect ⟨7, 1000, 1000, []⟩, .connect ⟨8, 1001, 1001, []⟩, .call 0, .call 1, .step 0 none,
    .step 1 none, .setAcceptTimeout (.fromMicros 2000000) none, .step 1 none, .step 1 none,
    .step 0 none, .step 0 none]

/-- Both streams have the deadline of thirty seconds. -/
theorem deadlines_kept_armed : ∃ s,
    Runs.run (step timeLibrary (SocketConfig.new "exampled" "/run/example").requestReadTimeout)
      armed twoAccept = some s ∧
    s.handedOut = [(1, .peer 8 1001 1001), (0, .peer 7 1000 1000)] ∧
    (s.stream 0).receiveTimeout.Keeps (some (30 * 10 ^ 9)) ∧
    (s.stream 1).receiveTimeout.Keeps (some (30 * 10 ^ 9)) := by
  obtain ⟨s, hrun, hgiven⟩ : ∃ s, Runs.run (step timeLibrary
      (SocketConfig.new "exampled" "/run/example").requestReadTimeout) armed twoAccept = some s ∧
      s.handedOut = [(1, .peer 8 1001 1001), (0, .peer 7 1000 1000)] := ⟨_, rfl, rfl⟩
  obtain ⟨hall, -⟩ := deadlines_kept ⟨rfl, fun _ => rfl, rfl, rfl⟩ hrun
  refine ⟨s, hrun, hgiven, ?_, ?_⟩
  · exact (hall 0 (.peer 7 1000 1000) (by rw [hgiven]; decide)).1
  · exact (hall 1 (.peer 8 1001 1001) (by rw [hgiven]; decide)).1

end Listening

end UdsPolicy
