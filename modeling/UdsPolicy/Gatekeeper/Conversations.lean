import UdsPolicy.General.Accompanied
import UdsPolicy.Gatekeeper.Queue
import UdsPolicy.Socket.Deadlines

/-!
# What each client gets back

Any number of clients connect, send what they like in as many pieces as they like,
and say that they have finished, while the loop serves one connection after the
other. Whatever fails, a client gets back nothing, or the beginning of the one
answer that is owed to it: its refusal, or the echo of exactly what it has sent
itself. If nothing fails it gets back the whole answer.
-/

namespace UdsPolicy

open Prog (Issues Laps)
open Relation (ReflTransGen)

/-- A connection: who has made it, and what has gone over it in either direction. -/
structure Talk where
  /-- The client. -/
  cred : Cred
  /-- What the client has sent. -/
  request : ByteArray
  /-- Whether the client has shut down its side. -/
  finished : Bool
  /-- What has been written to the client. -/
  reply : List UInt8

/-- The connections that have been made, in their order. -/
structure Switchboard where
  /-- The connections. -/
  talk : ℕ → Talk
  /-- How many of them have been made. -/
  made : ℕ
  /-- How many of them have been accepted. -/
  taken : ℕ

/-- The bytes of a line. -/
def lineBytes (text : String) : List UInt8 := (text ++ "\n").toUTF8.data.toList

namespace Switchboard

/-- Something goes over a connection. -/
def modify (s : Switchboard) (i : ℕ) (f : Talk → Talk) : Switchboard :=
  { s with talk := Function.update s.talk i (f (s.talk i)) }

/-- Something is written to a client. -/
def write (s : Switchboard) (i : ℕ) (bytes : List UInt8) : Switchboard :=
  s.modify i fun talk => { talk with reply := talk.reply ++ bytes }

/-- A client does something. -/
inductive ClientStep (s : Switchboard) : Switchboard → Prop
  /-- It connects. -/
  | connects (cred : Cred) : ClientStep s
      { s with
        talk := Function.update s.talk s.made ⟨cred, .empty, false, []⟩
        made := s.made + 1 }
  /-- It sends something. -/
  | sends (i : ℕ) (bytes : ByteArray) : (s.talk i).finished = false →
      ClientStep s (s.modify i fun talk => { talk with request := talk.request ++ bytes })
  /-- It shuts down its side. -/
  | finishes (i : ℕ) : ClientStep s (s.modify i fun talk => { talk with finished := true })

end Switchboard

/-- Whether an operation has to do with a connection. -/
def GateCall.converses : GateCall → Bool
  | .sys (.accept _) | .sys (.peerCredentials _) | .readToEnd _ | .writeln _ _ => true
  | _ => false

/-- What an operation of the loop does, and which replies it can have. It acts on the connection
that its stream belongs to, whichever that is. Reading goes on until the client has finished; of
what could not be written, a part may have been. -/
inductive Switchboard.Answers (s : Switchboard) : GateDone → Switchboard → Prop
  | accepted (l : ℕ) : s.taken < s.made →
      s.Answers ⟨.sys (.accept l), .ok ⟨s.taken, (s.talk s.taken).cred⟩⟩
        { s with taken := s.taken + 1 }
  | notAccepted (l : ℕ) (e : IoError) : s.Answers ⟨.sys (.accept l), .error e⟩ s
  | peer (stream : Connection) (answer : Except IoError Cred) :
      Tells answer (s.talk stream.serial).cred →
      s.Answers ⟨.sys (.peerCredentials stream), answer⟩ s
  | read (stream : Connection) : (s.talk stream.serial).finished = true →
      s.Answers ⟨.readToEnd stream, .ok (s.talk stream.serial).request⟩ s
  | notRead (stream : Connection) (e : IoError) : s.Answers ⟨.readToEnd stream, .error e⟩ s
  | written (stream : Connection) (text : String) :
      s.Answers ⟨.writeln stream text, .ok ()⟩ (s.write stream.serial (lineBytes text))
  | notWritten (stream : Connection) (text : String) (e : IoError) (part : List UInt8) :
      part <+: lineBytes text →
      s.Answers ⟨.writeln stream text, .error e⟩ (s.write stream.serial part)
  | other (e : GateDone) : e.call.converses = false → s.Answers e s

/-- The loop and its clients. -/
abbrev Conversed := Accompanied Switchboard.Answers Switchboard.ClientStep

/-- Nothing has been accepted, and nobody has been written to. -/
structure Switchboard.Fresh (s : Switchboard) : Prop where
  /-- Nothing has been accepted. -/
  taken : s.taken = 0
  /-- Nothing has been written. -/
  reply : ∀ i < s.made, (s.talk i).reply = []

section Owed

variable {α : Type} [Authorizer α]

/-- The answer that is owed to a client. -/
inductive Owed (authorizer : α) (talk : Talk) : List UInt8 → Prop
  /-- Its refusal, if the authorizer refuses whom the kernel has named. -/
  | refused (answer : Except IoError Cred) (denial : Denial) : Tells answer talk.cred →
      authorize authorizer change (.ofCredentials answer) = .error denial →
      Owed authorizer talk (lineBytes (refusal denial))
  /-- The echo of what it has sent until it has finished. -/
  | echoed (answer : Except IoError Cred) : Tells answer talk.cred →
      authorize authorizer change (.ofCredentials answer) = .ok () → talk.finished = true →
      Owed authorizer talk (lineBytes (replyTo talk.request))

/-- A client has got back nothing, or the beginning of what is owed to it. -/
def Hears (authorizer : α) (talk : Talk) : Prop :=
  talk.reply = [] ∨ ∃ whole, Owed authorizer talk whole ∧ talk.reply <+: whole

/-- A client has got back all that is owed to it. -/
def Heard (authorizer : α) (talk : Talk) : Prop := Owed authorizer talk talk.reply

end Owed

/-! ### What clients do -/

/-- A client has done something: it is the same one, it has not been written to, and if it had
finished before it has done nothing. -/
structure Talk.Kept (talk talk' : Talk) : Prop where
  /-- It is the same client. -/
  cred : talk'.cred = talk.cred
  /-- It has not been written to. -/
  reply : talk'.reply = talk.reply
  /-- If it had finished, it has done nothing. -/
  finished : talk.finished = true → talk' = talk

theorem Talk.Kept.refl (talk : Talk) : talk.Kept talk := ⟨rfl, rfl, fun _ => rfl⟩

theorem Talk.Kept.trans {talk talk' talk'' : Talk} (h : talk.Kept talk') (h' : talk'.Kept talk'') :
    talk.Kept talk'' where
  cred := h'.cred.trans h.cred
  reply := h'.reply.trans h.reply
  finished hend := by
    have hsame := h.finished hend
    rw [← hsame] at hend
    exact (h'.finished hend).trans hsame

namespace Switchboard

variable {s t u : Switchboard} {i j : ℕ} {f : Talk → Talk}

/-- Only clients have done something: nobody has been accepted or written to. -/
structure Quiet (s t : Switchboard) : Prop where
  /-- Nobody has been accepted. -/
  taken : t.taken = s.taken
  /-- Connections have been made. -/
  made : s.made ≤ t.made
  /-- The others are kept. -/
  kept : ∀ i < s.made, (s.talk i).Kept (t.talk i)
  /-- The new ones have not been written to. -/
  fresh : ∀ i < t.made, s.made ≤ i → (t.talk i).reply = []

theorem Quiet.refl (s : Switchboard) : s.Quiet s :=
  ⟨rfl, Nat.le_refl _, fun i _ => .refl (s.talk i), fun i hi hle => by omega⟩

theorem Quiet.trans (h : s.Quiet t) (h' : t.Quiet u) : s.Quiet u where
  taken := h'.taken.trans h.taken
  made := Nat.le_trans h.made h'.made
  kept i hi := (h.kept i hi).trans (h'.kept i (Nat.lt_of_lt_of_le hi h.made))
  fresh i hi hle := by
    by_cases ht : i < t.made
    · rw [(h'.kept i ht).reply]
      exact h.fresh i ht hle
    · exact h'.fresh i hi (by omega)

@[simp] theorem modify_self : (s.modify i f).talk i = f (s.talk i) := Function.update_self ..

theorem modify_of_ne (h : j ≠ i) : (s.modify i f).talk j = s.talk j := Function.update_of_ne h ..

/-- What one client does is kept by the others. -/
theorem quiet_modify (hf : (s.talk i).Kept (f (s.talk i))) : s.Quiet (s.modify i f) := by
  refine ⟨rfl, Nat.le_refl _, fun j hj => ?_, fun j hj hle => ?_⟩
  · by_cases hi : j = i
    · subst j
      rw [modify_self]
      exact hf
    · rw [modify_of_ne hi]
      exact .refl _
  · have hj : j < s.made := hj
    omega

/-- A client's step leaves alone what the loop has done. -/
theorem ClientStep.quiet (h : s.ClientStep t) : s.Quiet t := by
  cases h with
  | connects cred =>
    refine ⟨rfl, Nat.le_succ _, fun i hi => ?_, fun i hi hle => ?_⟩
    · have hne : i ≠ s.made := by omega
      simp only [Function.update_of_ne hne]
      exact .refl _
    · have hi : i < s.made + 1 := hi
      obtain rfl : i = s.made := by omega
      simp only [Function.update_self]
  | sends i bytes hopen =>
    refine quiet_modify ⟨rfl, rfl, fun hend => ?_⟩
    rw [hopen] at hend
    cases hend
  | finishes i =>
    refine quiet_modify ⟨rfl, rfl, fun hend => ?_⟩
    simp only [← hend]

theorem quiet_of_surroundings (h : ReflTransGen ClientStep s t) : s.Quiet t := by
  induction h with
  | refl => exact .refl s
  | tail _ hstep ih => exact ih.trans hstep.quiet

end Switchboard

section Owed

variable {α : Type} [Authorizer α] {authorizer : α} {talk talk' : Talk} {whole : List UInt8}

/-- What is owed to a client does not change with what it does. -/
theorem Owed.kept (h : Owed authorizer talk whole) (hkept : talk.Kept talk') :
    Owed authorizer talk' whole := by
  cases h with
  | refused answer denial htells hverdict =>
    rw [← hkept.cred] at htells
    exact .refused answer denial htells hverdict
  | echoed answer htells hverdict hend =>
    rw [hkept.finished hend]
    exact .echoed answer htells hverdict hend

theorem Hears.kept (h : Hears authorizer talk) (hkept : talk.Kept talk') :
    Hears authorizer talk' := by
  unfold Hears
  rw [hkept.reply]
  refine h.imp_right ?_
  rintro ⟨whole, howed, hprefix⟩
  exact ⟨whole, howed.kept hkept, hprefix⟩

theorem Heard.kept (h : Heard authorizer talk) (hkept : talk.Kept talk') :
    Heard authorizer talk' := by
  unfold Heard
  rw [hkept.reply]
  exact Owed.kept h hkept

/-- A line is not nothing. -/
theorem lineBytes_ne_nil (text : String) : lineBytes text ≠ [] := by
  intro h
  have hsize : (text ++ "\n").toUTF8.size = 0 := by
    show (text ++ "\n").toUTF8.data.size = 0
    rw [← Array.length_toList]
    exact congrArg List.length h
  have hlength : (text ++ "\n").utf8ByteSize = 0 := hsize
  rw [String.utf8ByteSize_append] at hlength
  have hnewline : "\n".utf8ByteSize = 1 := rfl
  omega

/-- Who has got everything has got something. -/
theorem Heard.reply_ne_nil (h : Heard authorizer talk) : talk.reply ≠ [] := by
  unfold Heard at h
  intro hnil
  rw [hnil] at h
  generalize hwhole : ([] : List UInt8) = whole at h
  cases h with
  | refused => exact lineBytes_ne_nil _ hwhole.symm
  | echoed => exact lineBytes_ne_nil _ hwhole.symm

end Owed

/-! ### What the loop does -/

/-- Whether an event takes a connection or writes to a client. -/
def GateDone.moves : GateDone → Bool
  | ⟨.sys (.accept _), .ok _⟩ | ⟨.writeln _ _, _⟩ => true
  | _ => false

/-- Whether an event is the failure of an operation on a stream. -/
def GateDone.failed : GateDone → Bool
  | ⟨.sys (.setReadTimeout _ _), .error _⟩ | ⟨.readToEnd _, .error _⟩ => true
  | ⟨.writeln _ _, .error _⟩ => true
  | _ => false

namespace Switchboard

variable {s t u : Switchboard} {past : List GateDone} {e : GateDone}

/-- An event that neither takes a connection nor writes changes nothing. -/
theorem Answers.eq_of_not_moves (h : s.Answers e t) (he : e.moves = false) : s = t := by
  cases h with
  | accepted | written | notWritten => cases he
  | notAccepted | peer | read | notRead | other => rfl

/-- What cannot be noticed changes nothing. -/
theorem conversed_outward (h : Conversed s past t) : Conversed s (outward past) t := by
  refine h.filter fun s e t hown he => hown.eq_of_not_moves ?_
  obtain ⟨c, reply⟩ := e
  cases c with
  | name | now => rfl
  | _ => cases he

/-- A part in which no connection is taken and nobody is written to. -/
theorem quiet_of_conversed (h : Conversed s past t) (hpast : ∀ e ∈ past, e.moves = false) :
    s.Quiet t := by
  refine h.relates Quiet.refl (fun _ _ _ => .trans) (fun _ _ => ClientStep.quiet) ?_ hpast
  intro s e t he hown
  obtain rfl := hown.eq_of_not_moves he
  exact .refl s

/-- As many connections have been accepted as have been taken. -/
theorem taken_of_conversed (h : Conversed s past t) :
    t.taken = s.taken + (UdsPolicy.taken past).length := by
  induction h with
  | nil s => rfl
  | env hstep _ ih => rw [ih, hstep.quiet.taken]
  | @own s t u e past hown _ ih =>
    rw [← List.singleton_append, taken_append, List.length_append, ih]
    have hfirst : t.taken = s.taken + (UdsPolicy.taken [e]).length := by
      cases hown with
      | accepted | notAccepted | peer | read | notRead | written | notWritten => rfl
      | other _ he =>
        obtain ⟨c, reply⟩ := e
        cases c with
        | sys c =>
          cases c with
          | accept => cases he
          | _ => rfl
        | _ => rfl
    omega

/-- A connection that is accepted is the next one. -/
theorem Answers.of_accept {l : ℕ} {stream : Connection}
    (h : s.Answers ⟨.sys (.accept l), .ok stream⟩ t) :
    stream.serial = s.taken ∧ s.taken < s.made ∧ t = { s with taken := s.taken + 1 } := by
  generalize he : (⟨.sys (.accept l), .ok stream⟩ : GateDone) = e at h
  cases h with
  | accepted l hmore =>
    cases he
    exact ⟨rfl, hmore, rfl⟩
  | other _ hother =>
    subst he
    cases hother
  | _ => cases he

/-- An answer about a peer is about the client whose stream it is. -/
theorem Answers.of_peer {stream : Connection} {answer : Except IoError Cred}
    (h : s.Answers ⟨.sys (.peerCredentials stream), answer⟩ t) :
    t = s ∧ Tells answer (s.talk stream.serial).cred := by
  generalize he : (⟨.sys (.peerCredentials stream), answer⟩ : GateDone) = e at h
  cases h with
  | peer stream answer htells =>
    cases he
    exact ⟨rfl, htells⟩
  | other _ hother =>
    subst he
    cases hother
  | _ => cases he

/-- What has been read is what the client has sent until it has finished. -/
theorem Answers.of_read {stream : Connection} {said : ByteArray}
    (h : s.Answers ⟨.readToEnd stream, .ok said⟩ t) :
    t = s ∧ (s.talk stream.serial).finished = true ∧ said = (s.talk stream.serial).request := by
  generalize he : (⟨.readToEnd stream, .ok said⟩ : GateDone) = e at h
  cases h with
  | read stream hend =>
    cases he
    exact ⟨rfl, hend, rfl⟩
  | other _ hother =>
    subst he
    cases hother
  | _ => cases he

/-- What has been written is the beginning of the line, and all of it if that has succeeded. -/
theorem Answers.of_write {stream : Connection} {text : String} {reply : Except IoError Unit}
    (h : s.Answers ⟨.writeln stream text, reply⟩ t) : ∃ part, t = s.write stream.serial part ∧
      part <+: lineBytes text ∧ (reply = .ok () → part = lineBytes text) := by
  generalize he : (⟨.writeln stream text, reply⟩ : GateDone) = e at h
  cases h with
  | written stream text =>
    cases he
    exact ⟨_, rfl, List.prefix_refl _, fun _ => rfl⟩
  | notWritten stream text e part hpart =>
    cases he
    exact ⟨part, rfl, hpart, nofun⟩
  | other _ hother =>
    subst he
    cases hother
  | _ => cases he

/-- The connection that has just been accepted is the next one, and it comes with an answer about
its client. -/
theorem taken_of_accepting {socket : Socket} {stream : Connection} {answer : Except IoError Cred}
    (h : Conversed s (accepting socket stream answer) t)
    (hwaiting : ∀ i < s.made, s.taken ≤ i → (s.talk i).reply = []) :
    stream.serial = s.taken ∧ t.taken = s.taken + 1 ∧ t.taken ≤ t.made ∧
      Tells answer (t.talk stream.serial).cred ∧ (t.talk stream.serial).reply = [] := by
  obtain ⟨s₁, s₂, hsurroundings, haccept, hopening⟩ := h.first
  have hquiet := quiet_of_surroundings hsurroundings
  obtain ⟨hserial, hmore, rfl⟩ := haccept.of_accept
  obtain ⟨s₃, s₄, hsurroundings', hpeer, hrest⟩ := hopening.first
  have hquiet' := quiet_of_surroundings hsurroundings'
  obtain ⟨rfl, htells⟩ := hpeer.of_peer
  have hlater : s₄.Quiet t := quiet_of_conversed hrest (by simp [stamped, GateDone.moves])
  have htaken₁ : s₁.taken = s.taken := hquiet.taken
  have hmade₁ : s.taken < s₁.made := by omega
  have hmade₄ : s.taken < s₄.made := Nat.lt_of_lt_of_le hmade₁ hquiet'.made
  have htaken₄ : s₄.taken = s.taken + 1 := hquiet'.taken.trans (congrArg (· + 1) htaken₁)
  have htaken : t.taken = s.taken + 1 := hlater.taken.trans htaken₄
  have hserial : stream.serial = s.taken := hserial.trans htaken₁
  have hreply₁ : (s₁.talk s.taken).reply = [] := by
    by_cases hold : s.taken < s.made
    · rw [(hquiet.kept _ hold).reply]
      exact hwaiting _ hold (Nat.le_refl _)
    · exact hquiet.fresh _ hmade₁ (by omega)
  have hkept := (hquiet'.kept s.taken hmade₁).trans (hlater.kept s.taken hmade₄)
  rw [hserial] at htells ⊢
  refine ⟨rfl, htaken, htaken ▸ Nat.lt_of_lt_of_le hmade₄ hlater.made, ?_, ?_⟩
  · rw [(hlater.kept s.taken hmade₄).cred]
    exact htells
  · rw [hkept.reply]
    exact hreply₁

end Switchboard

/-! ### Every run of the loop -/

section Runs

variable {α : Type} [Authorizer α] {authorizer : α} {socket : Socket} {limit : Option ℕ} {n : ℕ}
  {run past after earlier lap : List GateDone} {h : Gate (Option ℕ)} {s t u : Switchboard}
  {stream : Connection} {text : String} {e : GateDone} {i : ℕ}

/-- What is known of the connections. -/
structure Kept (authorizer : α) (s : Switchboard) : Prop where
  /-- Those that have been accepted have been made. -/
  taken_le : s.taken ≤ s.made
  /-- The others have not been written to. -/
  waiting : ∀ i < s.made, s.taken ≤ i → (s.talk i).reply = []
  /-- Nobody has got back anything but what is owed. -/
  hears : ∀ i < s.made, Hears authorizer (s.talk i)

theorem Kept.quiet (hs : Kept authorizer s) (hquiet : s.Quiet t) : Kept authorizer t where
  taken_le := by
    rw [hquiet.taken]
    exact Nat.le_trans hs.taken_le hquiet.made
  waiting i hi hle := by
    rw [hquiet.taken] at hle
    by_cases hold : i < s.made
    · rw [(hquiet.kept i hold).reply]
      exact hs.waiting i hold hle
    · exact hquiet.fresh i hi (by omega)
  hears i hi := by
    by_cases hold : i < s.made
    · exact (hs.hears i hold).kept (hquiet.kept i hold)
    · exact .inl (hquiet.fresh i hi (by omega))

/-- A line is owed to the client behind a stream, which is the one that has been accepted last and
has not got back anything. -/
structure Due (authorizer : α) (s : Switchboard) (stream : Connection) (text : String) : Prop where
  /-- The stream is the one that has been accepted last. -/
  last : stream.serial + 1 = s.taken
  /-- The line is owed. -/
  owed : Owed authorizer (s.talk stream.serial) (lineBytes text)
  /-- Nothing has been written so far. -/
  reply : (s.talk stream.serial).reply = []

/-- **Mediation.** Whatever is written is owed to the client that it is written to. -/
theorem due_of_write {reply : Except IoError Unit}
    (hrun : Issues (acceptLoop authorizer socket limit n) run h)
    (he : outward run = past ++ ⟨.writeln stream text, reply⟩ :: after)
    (hk : Conversed s past t)
    (hkept : ∀ earlier rest u, past = earlier ++ rest → Conversed s earlier u →
      Kept authorizer u) : Due authorizer t stream text := by
  obtain ⟨earlier, l₁, l₂, rfl, hturn⟩ := turn_of_run hrun he
  obtain ⟨t₀, hearlier, hlap⟩ := hk.cut
  have hkept₀ := hkept earlier _ t₀ rfl hearlier
  obtain ⟨answer, name, ⟨denial, hverdict, rfl, rfl⟩ | ⟨said, hverdict, rfl, rfl⟩⟩ :=
    turn_of_write hturn
  · obtain ⟨t₁, haccepting, hrest⟩ := hlap.cut
    obtain ⟨hserial, htaken, hle, htells, hreply⟩ :=
      Switchboard.taken_of_accepting haccepting hkept₀.waiting
    have hquiet : t₁.Quiet t :=
      Switchboard.quiet_of_conversed hrest (by simp [line, GateDone.moves])
    have hsame := hquiet.kept stream.serial (by omega)
    refine ⟨by rw [hquiet.taken]; omega, ?_, hsame.reply.trans hreply⟩
    exact Owed.kept (.refused answer denial htells hverdict) hsame
  · obtain ⟨t₁, haccepting, hrest⟩ := hlap.cut
    obtain ⟨hserial, htaken, hle, htells, hreply⟩ :=
      Switchboard.taken_of_accepting haccepting hkept₀.waiting
    obtain ⟨t₂, t₃, hsurroundings, hline, hread⟩ := hrest.first
    obtain rfl := hline.eq_of_not_moves rfl
    obtain ⟨t₄, t₅, hsurroundings', hanswer, hend⟩ := hread.first
    obtain ⟨rfl, hfinished, rfl⟩ := hanswer.of_read
    have hquiet := (Switchboard.quiet_of_surroundings hsurroundings).trans
      (Switchboard.quiet_of_surroundings hsurroundings')
    have hlater := Switchboard.quiet_of_surroundings hend.surroundings
    have hmade := hquiet.made
    have hsame := hquiet.kept stream.serial (by omega)
    have hsame' := hlater.kept stream.serial (by omega)
    refine ⟨by rw [hlater.taken, hquiet.taken]; omega, ?_, ?_⟩
    · refine Owed.kept (.echoed answer ?_ hverdict hfinished) hsame'
      rw [hsame.cred]
      exact htells
    · rw [hsame'.reply, hsame.reply]
      exact hreply

/-- What has been written is no part of what is owed. -/
theorem Owed.write {talk : Talk} {whole bytes : List UInt8} (howed : Owed authorizer talk whole) :
    Owed authorizer { talk with reply := bytes } whole := by
  cases howed with
  | refused answer denial htells hverdict => exact .refused answer denial htells hverdict
  | echoed answer htells hverdict hend => exact .echoed answer htells hverdict hend

/-- Where a line is due, a part of it may have been written. -/
theorem Kept.write {part : List UInt8} (hs : Kept authorizer s)
    (hdue : Due authorizer s stream text) (hpart : part <+: lineBytes text) :
    Kept authorizer (s.write stream.serial part) where
  taken_le := hs.taken_le
  waiting i hi hle := by
    have hle : s.taken ≤ i := hle
    have hlast := hdue.last
    unfold Switchboard.write
    rw [Switchboard.modify_of_ne (by omega)]
    exact hs.waiting i hi hle
  hears i hi := by
    unfold Switchboard.write
    by_cases hwritten : i = stream.serial
    · subst i
      rw [Switchboard.modify_self, hdue.reply, List.nil_append]
      exact .inr ⟨_, hdue.owed.write, hpart⟩
    · rw [Switchboard.modify_of_ne hwritten]
      exact hs.hears i hi

/-- **Step lemma.** What is known of the connections is known after an event of the loop, which
only writes what is due. -/
theorem Kept.answers (hs : Kept authorizer s) (hown : s.Answers e t)
    (hdue : ∀ stream text reply, e = ⟨.writeln stream text, reply⟩ →
      Due authorizer s stream text) :
    Kept authorizer t := by
  cases hown with
  | accepted l hmore =>
    exact ⟨hmore, fun i hi hle => hs.waiting i hi (Nat.le_of_succ_le hle), hs.hears⟩
  | written stream text => exact hs.write (hdue _ _ _ rfl) (List.prefix_refl _)
  | notWritten stream text e part hpart => exact hs.write (hdue _ _ _ rfl) hpart
  | notAccepted | peer | read | notRead | other => exact hs

theorem Switchboard.Fresh.kept (hfresh : s.Fresh) : Kept authorizer s where
  taken_le := by
    rw [hfresh.taken]
    exact Nat.zero_le _
  waiting i hi _ := hfresh.reply i hi
  hears i hi := .inl (hfresh.reply i hi)

/-- **Run lemma.** What is known of the connections is known at every moment of a run. -/
theorem kept_of_run (hrun : Issues (acceptLoop authorizer socket limit n) run h)
    (hfresh : s.Fresh) (he : outward run = past ++ after) (hk : Conversed s past t) :
    Kept authorizer t := by
  induction hlength : past.length using Nat.strong_induction_on generalizing past after t with
  | h length ih =>
    rcases List.eq_nil_or_concat past with rfl | ⟨init, e, rfl⟩
    · exact hfresh.kept.quiet (Switchboard.quiet_of_surroundings hk.surroundings)
    · rw [List.concat_eq_append] at *
      obtain ⟨t₁, hinit, hlast⟩ := hk.cut
      obtain ⟨t₂, t₃, hsurroundings, hown, hend⟩ := hlast.first
      have hquiet := Switchboard.quiet_of_surroundings hsurroundings
      have hbefore : Conversed s init t₂ := by
        have hall := hinit.append (.of_surroundings hsurroundings)
        rwa [List.append_nil] at hall
      rw [List.append_assoc, List.singleton_append] at he
      -- The induction hypothesis is for all the moments before the last event.
      have hearlier (earlier rest : List GateDone) (u : Switchboard)
          (hpast : init = earlier ++ rest) (hu : Conversed s earlier u) : Kept authorizer u := by
        have hall : outward run = earlier ++ (rest ++ e :: after) := by
          rw [he, hpast, List.append_assoc]
        refine ih earlier.length ?_ hall hu rfl
        rw [← hlength, hpast, List.length_append, List.length_append]
        simp only [List.length_singleton]
        omega
      have hkept := hearlier init [] t₂ (List.append_nil _).symm hbefore
      refine Kept.quiet (hkept.answers hown ?_)
        (Switchboard.quiet_of_surroundings hend.surroundings)
      rintro stream text reply rfl
      exact due_of_write hrun he hbefore hearlier

/-- Whatever is written in a run is owed to the client that it is written to. -/
theorem due_of_run {reply : Except IoError Unit}
    (hrun : Issues (acceptLoop authorizer socket limit n) run h) (hfresh : s.Fresh)
    (he : outward run = past ++ ⟨.writeln stream text, reply⟩ :: after)
    (hk : Conversed s past t) : Due authorizer t stream text := by
  refine due_of_write hrun he hk fun earlier rest u hsplit hu => ?_
  exact kept_of_run hrun hfresh (by rw [he, hsplit, List.append_assoc]) hu

/-- Whoever is written to has not got back everything. -/
theorem Heard.write {part : List UInt8} (hheard : Heard authorizer (s.talk i))
    (hdue : Due authorizer s stream text) :
    Heard authorizer ((s.write stream.serial part).talk i) := by
  have hne : i ≠ stream.serial := by
    rintro rfl
    exact hheard.reply_ne_nil hdue.reply
  unfold Switchboard.write
  rw [Switchboard.modify_of_ne hne]
  exact hheard

/-- **Step lemma.** Who has got back everything is not written to again. -/
theorem Heard.answers (hheard : Heard authorizer (s.talk i)) (hown : s.Answers e t)
    (hdue : ∀ stream text reply, e = ⟨.writeln stream text, reply⟩ →
      Due authorizer s stream text) :
    Heard authorizer (t.talk i) := by
  cases hown with
  | written stream text => exact hheard.write (hdue _ _ _ rfl)
  | notWritten stream text e part hpart => exact hheard.write (hdue _ _ _ rfl)
  | accepted | notAccepted | peer | read | notRead | other => exact hheard

/-- **Run lemma.** Who has got back everything is not written to again. -/
theorem heard_of_conversed (hrun : Issues (acceptLoop authorizer socket limit n) run h)
    (hfresh : s.Fresh) {more : List GateDone} (he : outward run = past ++ more ++ after)
    (hpast : Conversed s past t) (hmore : Conversed t more u) (hi : i < t.made)
    (hheard : Heard authorizer (t.talk i)) : i < u.made ∧ Heard authorizer (u.talk i) := by
  induction hmore generalizing past with
  | nil t => exact ⟨hi, hheard⟩
  | @env t t' u more hstep _ ih =>
    have hquiet := hstep.quiet
    have hlater : Conversed s past t' := by
      have hall := hpast.append (.env hstep (.nil t'))
      rwa [List.append_nil] at hall
    exact ih he hlater (Nat.lt_of_lt_of_le hi hquiet.made) (hheard.kept (hquiet.kept i hi))
  | @own t t' u e more hown _ ih =>
    have hlater : Conversed s (past ++ [e]) t' := hpast.append (.own hown (.nil t'))
    refine ih (by rw [he]; simp) hlater ?_ ?_
    · cases hown <;> exact hi
    · refine hheard.answers hown ?_
      rintro stream text reply rfl
      rw [List.append_assoc, List.cons_append] at he
      exact due_of_run hrun hfresh he hpast

/-- A turn without a failure takes no connection, or ends with what is written to the one that it
has taken. -/
theorem Turn.speaks (hturn : Turn authorizer socket lap) (hnone : ∀ e ∈ lap, e.failed = false) :
    (∀ e ∈ lap, e.moves = false) ∨ ∃ l₁ l₂ stream text,
      lap = l₁ ++ ⟨.writeln stream text, .ok ()⟩ :: l₂ ∧ ∀ e ∈ l₂, e.moves = false := by
  cases hturn with
  | idle e =>
    refine .inl fun d hd => ?_
    simp only [List.mem_append, List.mem_singleton] at hd
    rcases hd with (rfl | hd) | rfl
    · rfl
    · unfold complaint at hd
      split at hd
      · obtain rfl := List.mem_singleton.mp hd
        rfl
      · cases hd
    · rfl
  | unbounded stream cred e =>
    have hfailed := hnone ⟨.sys (.setReadTimeout stream socket.config.requestReadTimeout), .error e⟩
      (by simp)
    cases hfailed
  | served stream cred decided hdecided =>
    right
    cases hdecided with
    | refused denial name gone hverdict =>
      cases gone with
      | error e =>
        have hfailed := hnone ⟨.writeln stream (refusal denial), .error e⟩ (by simp)
        cases hfailed
      | ok _ =>
        refine ⟨accepting socket stream cred ++
            [line (refusedLine ((Caller.ofCredentials cred).displayAs name) denial)],
          closing stream, stream, refusal denial, by simp [accepting], ?_⟩
        simp [closing, stamped, GateDone.moves]
    | unread name e millis hverdict =>
      have hfailed := hnone ⟨.readToEnd stream, .error e⟩ (by simp)
      cases hfailed
    | unanswered name said e millis hverdict =>
      have hfailed := hnone ⟨.writeln stream (replyTo said), .error e⟩ (by simp)
      cases hfailed
    | answered name name' said millis hverdict =>
      refine ⟨accepting socket stream cred ++
          [line (beginLine daemon (changeLabel (.ofCredentials cred) name)),
            ⟨.readToEnd stream, .ok said⟩],
        [line (answeredLine ((Caller.ofCredentials cred).displayAs name')),
          line (okLine daemon (changeLabel (.ofCredentials cred) name) millis)] ++ closing stream,
        stream, replyTo said, by simp [accepting], ?_⟩
      simp [closing, stamped, line, GateDone.moves]

/-- A turn takes one connection at most. -/
theorem Turn.taken_length_le {part rest : List GateDone}
    (hturn : Turn authorizer socket (part ++ rest)) : (taken part).length ≤ 1 := by
  obtain ⟨reply, later, hlap, hlater⟩ := hturn.begins
  have hall : (taken (part ++ rest)).length ≤ 1 := by
    rw [hlap, ← List.singleton_append, taken_append, hlater, List.append_nil]
    cases reply with
    | error e => exact Nat.zero_le 1
    | ok stream => exact Nat.le_refl 1
  rw [taken_append, List.length_append] at hall
  omega

/-- **Step lemma.** After a turn without a failure, the connection that it has taken has got back
everything, if all had before. -/
theorem heard_of_turn (hrun : Issues (acceptLoop authorizer socket limit n) run h)
    (hfresh : s.Fresh) (he : outward run = past ++ lap ++ after)
    (hturn : Turn authorizer socket lap) (hnone : ∀ e ∈ lap, e.failed = false)
    (hpast : Conversed s past t) (hlap : Conversed t lap u)
    (hheard : ∀ i < t.taken, Heard authorizer (t.talk i)) :
    ∀ i < u.taken, Heard authorizer (u.talk i) := by
  have hkept : Kept authorizer t :=
    kept_of_run hrun hfresh (by rw [he, List.append_assoc]) hpast
  rcases hturn.speaks hnone with hnothing | ⟨l₁, l₂, stream, text, rfl, hnothing⟩
  · have hquiet := Switchboard.quiet_of_conversed hlap hnothing
    intro i hi
    rw [hquiet.taken] at hi
    exact (hheard i hi).kept (hquiet.kept i (Nat.lt_of_lt_of_le hi hkept.taken_le))
  · obtain ⟨t₁, hl₁, hrest⟩ := hlap.cut
    obtain ⟨t₂, t₃, hsurroundings, hwrite, hend⟩ := hrest.first
    have hspeaking : Conversed t l₁ t₂ := by
      have hall := hl₁.append (.of_surroundings hsurroundings)
      rwa [List.append_nil] at hall
    have hall : outward run =
        (past ++ l₁) ++ ⟨.writeln stream text, .ok ()⟩ :: (l₂ ++ after) := by
      rw [he]
      simp
    have hdue : Due authorizer t₂ stream text :=
      due_of_run hrun hfresh hall (hpast.append hspeaking)
    obtain ⟨part, rfl, -, hwhole⟩ := hwrite.of_write
    obtain rfl := hwhole rfl
    have hquiet := Switchboard.quiet_of_conversed hend hnothing
    have htaken : u.taken = t₂.taken := hquiet.taken
    have hone := hturn.taken_length_le
    have htaken₂ := Switchboard.taken_of_conversed hspeaking
    intro i hi
    have hlast := hdue.last
    by_cases hwritten : i = stream.serial
    · -- The answer has just been written to this client.
      subst i
      have hle := (kept_of_run hrun hfresh hall (hpast.append hspeaking)).taken_le
      refine Heard.kept ?_ (hquiet.kept _ (by show stream.serial < t₂.made; omega))
      unfold Switchboard.write
      rw [Switchboard.modify_self, hdue.reply, List.nil_append]
      exact hdue.owed.write
    · have hold : i < t.taken := by omega
      have hmade := Nat.lt_of_lt_of_le hold hkept.taken_le
      exact (heard_of_conversed hrun hfresh he hpast hlap hmade (hheard i hold)).2

/-- **Run lemma.** After some turns without a failure, all the connections that have been taken
have got back everything. -/
theorem heard_of_turns (hrun : Issues (acceptLoop authorizer socket limit n) run h)
    (hfresh : s.Fresh) {turns : List (List GateDone)}
    (he : outward run = past ++ turns.flatten ++ after)
    (hturns : ∀ lap ∈ turns, Turn authorizer socket lap)
    (hnone : ∀ e ∈ turns.flatten, e.failed = false)
    (hpast : Conversed s past t) (hmore : Conversed t turns.flatten u)
    (hheard : ∀ i < t.taken, Heard authorizer (t.talk i)) :
    ∀ i < u.taken, Heard authorizer (u.talk i) := by
  induction turns generalizing past t with
  | nil =>
    have hkept : Kept authorizer t :=
      kept_of_run hrun hfresh (by rw [he, List.append_assoc]) hpast
    have hquiet := Switchboard.quiet_of_surroundings hmore.surroundings
    intro i hi
    rw [hquiet.taken] at hi
    exact (hheard i hi).kept (hquiet.kept i (Nat.lt_of_lt_of_le hi hkept.taken_le))
  | cons lap turns ih =>
    obtain ⟨hturn, hturns⟩ := List.forall_mem_cons.mp hturns
    rw [List.flatten_cons] at he hnone hmore
    obtain ⟨hlap, hlater⟩ := List.forall_mem_append.mp hnone
    obtain ⟨t₁, htaken, hrest⟩ := hmore.cut
    rw [← List.append_assoc] at he
    refine ih he hturns hlater (hpast.append htaken) hrest ?_
    rw [List.append_assoc] at he
    exact heard_of_turn hrun hfresh he hturn hlap hpast htaken hheard

end Runs

/-- Nobody has connected. -/
def rootAlone : Switchboard := ⟨fun _ => ⟨rootPeer, .empty, false, []⟩, 0, 0⟩

/-- Root connects, says something and finishes; while this is read it connects again, and says
something else. -/
theorem rootAlone_conversed : ∃ t, Conversed rootAlone (rootRun "hello".toUTF8) t ∧
    t.made = 2 ∧ t.taken = 1 ∧ (t.talk 0).reply = lineBytes (replyTo "hello".toUTF8) ∧
    (t.talk 1).request = "bye".toUTF8 :=
  ⟨_, .env (.connects rootPeer) <| .own (.accepted 7 (by decide)) <|
    .own (.peer rootStream _ (.inl rfl)) <| .env (.sends 0 "hello".toUTF8 rfl) <|
    .own (.other _ rfl) <| .own (.other _ rfl) <| .own (.other _ rfl) <| .own (.other _ rfl) <|
    .own (.other _ rfl) <| .env (.finishes 0) <| .env (.connects rootPeer) <|
    .env (.sends 1 "bye".toUTF8 rfl) <| .own (.read rootStream rfl) <|
    .own (.written rootStream _) <| .own (.other _ rfl) <| .own (.other _ rfl) <|
    .own (.other _ rfl) <| .own (.other _ rfl) <| .own (.other _ rfl) <| .own (.other _ rfl) <|
    .own (.other _ rfl) <| .nil _, rfl, rfl, rfl, rfl⟩

/-- The echo of a text is that text. -/
theorem replyTo_toUTF8 (text : String) : replyTo text.toUTF8 = "Thing.Change said: " ++ text := by
  unfold replyTo
  rw [Utf8.lossy_toUTF8]
  rfl

end UdsPolicy
