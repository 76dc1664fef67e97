import UdsPolicy.Gatekeeper.Mediation

/-!
# One name for an account

The serve thread with the name cache. Whatever the name service answers, and
however often it fails, the daemon finds out about an account at most once: from
then on it does not ask again, and every line of the journal that names the account
names it alike.
-/

namespace UdsPolicy

open Prog (Conducts Issues conducts_bind conducts_issue_bind)

/-- What an operation does to the name cache. -/
def GateCall.remember (c : GateCall) (names : NameCache) : NameCache :=
  match c with
  | .name (.insert uid resolved) => Function.update names uid (some resolved)
  | _ => names

/-- Who is asking after an operation. -/
def GateDone.asked (e : GateDone) (caller : Option Caller) : Option Caller :=
  match e with
  | ⟨.sys (.peerCredentials _), cred⟩ => some (.ofCredentials cred)
  | _ => caller

/-- What the name cache holds after a history. -/
def remembered (names : NameCache) (past : List GateDone) : NameCache :=
  past.foldl (fun names e => e.call.remember names) names

/-- If the cache has been read, it has answered with what it holds. -/
def GateDone.Truthful (names : NameCache) : GateDone → Prop
  | ⟨.name (.readCache uid), reply⟩ => reply = names uid
  | _ => True

/-- The cache has always answered with what it held. -/
def Truthful (names : NameCache) : List GateDone → Prop
  | [] => True
  | e :: past => e.Truthful names ∧ Truthful (e.call.remember names) past

/-- A lookup has found out about a uid. -/
def FoundOut (past : List GateDone) (uid : UInt32) (resolved : Option String) : Prop :=
  ∃ outcome, ⟨.name (.fromUid uid), outcome⟩ ∈ past ∧ lookedUp outcome = some resolved

/-- The caller whose connection has been accepted last, as the kernel has reported it. -/
def asking (past : List GateDone) : Option Caller :=
  past.foldl (fun caller e => e.asked caller) none

/-- A caller goes without a name, or by the name that the cache holds. -/
def NamedIn (names : NameCache) (past : List GateDone) (caller : Caller)
    (name : Option String) : Prop :=
  ∀ uid, caller.uid = some uid → name = none ∨ remembered names past uid = some name

/-- The lines in which a caller is shown, by the name of its account. -/
inductive Mentions (caller : Caller) (name : Option String) : String → Prop
  | refused (denial : Denial) :
      Mentions caller name (refusedLine (caller.displayAs name) denial)
  | begun : Mentions caller name (beginLine daemon (changeLabel caller name))
  | answered : Mentions caller name (answeredLine (caller.displayAs name))
  | ended (millis : ℕ) (failure : Option String) :
      Mentions caller name (outcomeLine daemon (changeLabel caller name) millis failure)

/-- What is permitted to the loop: it asks about nobody that it has found out about, it remembers
what it has found out, and it names the caller that is asking by what it remembers. -/
def Permits (names : NameCache) (past : List GateDone) (c : GateCall) : Prop :=
  Truthful names past →
    match c with
    | .name (.fromUid uid) =>
      remembered names past uid = none ∧ ∀ resolved, ¬FoundOut past uid resolved
    | .name (.insert uid resolved) =>
      remembered names past uid = none ∧ FoundOut past uid resolved
    | .sys (.eprintln text) => (∃ e, text = acceptFailed e) ∨
        ∃ caller name, asking past = some caller ∧ NamedIn names past caller name ∧
          Mentions caller name text
    | _ => True

/-- What has been found out is remembered. -/
def Informed (names : NameCache) (past : List GateDone) : Prop :=
  ∀ uid resolved, FoundOut past uid resolved → remembered names past uid = some resolved

/-- A history has become longer, for the same caller, and nothing has been forgotten. -/
structure Grows (names : NameCache) (past past' : List GateDone) : Prop where
  /-- The cache has been truthful before. -/
  truthful : Truthful names past' → Truthful names past
  /-- What was remembered is remembered. -/
  kept : Truthful names past' → ∀ uid resolved, remembered names past uid = some resolved →
    remembered names past' uid = some resolved
  /-- What has been found out is remembered, if it was before. -/
  informed : Truthful names past' → Informed names past → Informed names past'
  /-- Who is asking is asking. -/
  asked : asking past' = asking past

section Naming

variable {names : NameCache} {past past' past'' part : List GateDone} {c : GateCall}
  {uid : UInt32} {caller : Caller} {name resolved : Option String}

/-- The cache does what it does in `name_for_uid`. -/
theorem exec_name (lookup : UInt32 → Lookup) (c : NameCall) :
    GateDone.Truthful names ⟨.name c, (c.exec lookup names).1⟩ ∧
      (GateCall.name c).remember names = (c.exec lookup names).2 := by
  cases c with
  | readCache uid => exact ⟨rfl, rfl⟩
  | fromUid uid => exact ⟨trivial, rfl⟩
  | insert uid resolved => exact ⟨trivial, rfl⟩

theorem remembered_concat (r : c.Reply) :
    remembered names (past ++ [⟨c, r⟩]) = c.remember (remembered names past) := by
  unfold remembered
  rw [List.foldl_append]
  rfl

theorem asking_concat (e : GateDone) : asking (past ++ [e]) = e.asked (asking past) := by
  unfold asking
  rw [List.foldl_append]
  rfl

theorem Truthful.of_append (h : Truthful names (past ++ part)) : Truthful names past := by
  induction past generalizing names with
  | nil => trivial
  | cons e past ih => exact ⟨h.1, ih h.2⟩

theorem Truthful.read {reply : Option (Option String)}
    (h : Truthful names (past ++ [⟨.name (.readCache uid), reply⟩])) :
    reply = remembered names past uid := by
  induction past generalizing names with
  | nil => exact h.1
  | cons e past ih => exact ih h.2

theorem Grows.refl (past : List GateDone) : Grows names past past :=
  ⟨fun h => h, fun _ _ _ h => h, fun _ h => h, rfl⟩

theorem Grows.trans (h : Grows names past past') (h' : Grows names past' past'') :
    Grows names past past'' where
  truthful htruth := h.truthful (h'.truthful htruth)
  kept htruth uid resolved hknown :=
    h'.kept htruth uid resolved (h.kept (h'.truthful htruth) uid resolved hknown)
  informed htruth hknown := h'.informed htruth (h.informed (h'.truthful htruth) hknown)
  asked := h'.asked.trans h.asked

/-- Only a lookup that does not fail adds to what has been found out. -/
theorem foundOut_concat {e : GateDone}
    (he : ∀ uid outcome, e = ⟨.name (.fromUid uid), outcome⟩ → lookedUp outcome = none) :
    FoundOut (past ++ [e]) uid resolved ↔ FoundOut past uid resolved := by
  constructor
  · rintro ⟨outcome, hmem, hfound⟩
    rcases List.mem_append.mp hmem with hmem | hmem
    · exact ⟨outcome, hmem, hfound⟩
    · have hfailed := he uid outcome (List.mem_singleton.mp hmem).symm
      rw [hfailed] at hfound
      cases hfound
  · rintro ⟨outcome, hmem, hfound⟩
    exact ⟨outcome, List.mem_append_left _ hmem, hfound⟩

/-- Whatever neither finds out nor inserts leaves what is known as it was. -/
theorem informed_concat (r : c.Reply)
    (hc : ∀ uid outcome, (⟨c, r⟩ : GateDone) = ⟨.name (.fromUid uid), outcome⟩ →
      lookedUp outcome = none)
    (hsame : c.remember (remembered names past) = remembered names past)
    (hinformed : Informed names past) : Informed names (past ++ [⟨c, r⟩]) := by
  intro uid resolved hfound
  rw [remembered_concat, hsame]
  exact hinformed uid resolved ((foundOut_concat hc).mp hfound)

/-- If nobody else asks either, everything is as it was. -/
theorem grows_concat (r : c.Reply)
    (hc : ∀ uid outcome, (⟨c, r⟩ : GateDone) = ⟨.name (.fromUid uid), outcome⟩ →
      lookedUp outcome = none)
    (hsame : c.remember (remembered names past) = remembered names past)
    (hasked : GateDone.asked ⟨c, r⟩ (asking past) = asking past) :
    Grows names past (past ++ [⟨c, r⟩]) where
  truthful h := h.of_append
  kept _ uid resolved hknown := by
    rw [remembered_concat, hsame]
    exact hknown
  informed _ := informed_concat r hc hsame
  asked := (asking_concat _).trans hasked

/-- The operations of a call that finds out about a uid. -/
def findsOut (uid : UInt32) (outcome : Lookup) (resolved : Option String) : List GateDone :=
  [⟨.name (.readCache uid), none⟩, ⟨.name (.fromUid uid), outcome⟩,
    ⟨.name (.insert uid resolved), ()⟩]

theorem remembered_findsOut {outcome : Lookup} :
    remembered names (past ++ findsOut uid outcome resolved) =
      Function.update (remembered names past) uid (some resolved) := by
  unfold remembered
  rw [List.foldl_append]
  rfl

theorem Truthful.of_findsOut {outcome : Lookup}
    (h : Truthful names (past ++ findsOut uid outcome resolved)) :
    Truthful names past ∧ remembered names past uid = none := by
  have hall : Truthful names (past ++ [⟨.name (.readCache uid), none⟩] ++
      (findsOut uid outcome resolved).tail) := by
    rw [List.append_assoc]
    exact h
  exact ⟨hall.of_append.of_append, hall.of_append.read.symm⟩

/-- What has been found out is remembered, and nothing else changes. -/
theorem grows_findsOut {outcome : Lookup} (hfound : lookedUp outcome = some resolved) :
    Grows names past (past ++ findsOut uid outcome resolved) where
  truthful h := h.of_findsOut.1
  kept htruth uid' resolved' hknown := by
    have hne : uid' ≠ uid := by
      rintro rfl
      rw [htruth.of_findsOut.2] at hknown
      cases hknown
    rw [remembered_findsOut, Function.update_of_ne hne]
    exact hknown
  informed htruth hinformed uid' resolved' hfound' := by
    obtain ⟨outcome', hmem, hlooked⟩ := hfound'
    rw [remembered_findsOut]
    rcases List.mem_append.mp hmem with hmem | hmem
    · have hknown := hinformed uid' resolved' ⟨outcome', hmem, hlooked⟩
      have hne : uid' ≠ uid := by
        rintro rfl
        rw [htruth.of_findsOut.2] at hknown
        cases hknown
      rw [Function.update_of_ne hne]
      exact hknown
    · simp only [findsOut, List.mem_cons, List.not_mem_nil, or_false] at hmem
      rcases hmem with hmem | hmem | hmem
      · cases hmem
      · cases hmem
        rw [Function.update_self, ← hlooked, hfound]
      · cases hmem
  asked := by
    unfold asking
    rw [List.foldl_append]
    rfl

theorem Grows.informs (h : Grows names past past')
    (hinformed : Truthful names past → Informed names past) :
    Truthful names past' → Informed names past' :=
  fun htruth => h.informed htruth (hinformed (h.truthful htruth))

theorem NamedIn.grows (h : NamedIn names past caller name) (hgrows : Grows names past past')
    (htruth : Truthful names past') : NamedIn names past' caller name := by
  intro uid huid
  exact (h uid huid).imp_right (hgrows.kept htruth uid name)

/-- **Lookup.** A caller is shown by the name that the cache holds afterwards, if by any. -/
theorem conducts_shown (hinformed : Truthful names past → Informed names past) :
    Conducts (Permits names) (fun shown past' => Grows names past past' ∧
      ∃ name, shown = caller.displayAs name ∧
        (Truthful names past' → NamedIn names past' caller name))
      past (onNames caller.shown) := by
  cases caller with
  | unreadable reason => exact ⟨.refl past, none, rfl, fun _ _ _ => .inl rfl⟩
  | inProcess => exact ⟨.refl past, none, rfl, fun _ _ _ => .inl rfl⟩
  | peer pid uid gid =>
    refine ⟨fun _ => trivial, fun reply => ?_⟩
    have hread : Grows names past (past ++ [⟨.name (.readCache uid), reply⟩]) :=
      grows_concat reply (fun _ _ h => by cases h) rfl rfl
    cases reply with
    | some cached =>
      refine ⟨hread, cached, rfl, fun htruth uid' huid => .inr ?_⟩
      cases huid
      rw [remembered_concat]
      exact htruth.read.symm
    | none =>
      have hunknown (htruth : Truthful names (past ++ [⟨.name (.readCache uid), none⟩])) :
          remembered names past uid = none := htruth.read.symm
      refine ⟨fun htruth => ⟨?_, fun resolved hfound => ?_⟩, fun outcome => ?_⟩
      · rw [remembered_concat]
        exact hunknown htruth
      · have hknown := hinformed htruth.of_append uid resolved
          ((foundOut_concat fun _ _ h => by cases h).mp hfound)
        rw [hunknown htruth] at hknown
        cases hknown
      · cases outcome with
        | error error =>
          refine ⟨hread.trans (grows_concat _ ?_ rfl rfl), none, rfl, fun _ _ _ => .inl rfl⟩
          intro _ _ h
          cases h
          rfl
        | ok user =>
          refine ⟨fun htruth => ⟨?_, .ok user, by simp, rfl⟩, fun _ => ?_⟩
          · rw [remembered_concat, remembered_concat]
            exact hunknown htruth.of_append
          · rw [List.append_assoc, List.append_assoc]
            have hfound : lookedUp (.ok user) = some (user.map fun found => sanitize found.name) :=
              rfl
            refine ⟨grows_findsOut hfound, _, rfl, fun _ uid' huid => .inr ?_⟩
            cases huid
            exact (congrFun remembered_findsOut uid).trans (Function.update_self ..)

/-- Whether an operation has nothing to do with callers and their names. -/
def GateCall.nameless : GateCall → Bool
  | .name _ | .sys (.eprintln _) | .sys (.peerCredentials _) => false
  | _ => true

theorem grows_nameless (hc : c.nameless = true) (r : c.Reply) :
    Grows names past (past ++ [⟨c, r⟩]) := by
  cases c with
  | name => cases hc
  | sys c =>
    cases c with
    | peerCredentials => cases hc
    | _ => exact grows_concat r (fun _ _ h => by cases h) rfl rfl
  | _ => exact grows_concat r (fun _ _ h => by cases h) rfl rfl

theorem permits_nameless (hc : c.nameless = true) : Permits names past c := by
  intro _
  cases c with
  | name => cases hc
  | sys c =>
    cases c with
    | eprintln => cases hc
    | _ => trivial
  | _ => trivial

section Parts

variable {β : Type} {Q : β → List GateDone → Prop}

/-- An operation that has nothing to do with callers, and what follows it. -/
theorem conducts_nameless {f : c.Reply → Gate β} (hc : c.nameless = true)
    (h : ∀ r, Grows names past (past ++ [⟨c, r⟩]) →
      Conducts (Permits names) Q (past ++ [⟨c, r⟩]) (f r)) :
    Conducts (Permits names) Q past (gate c >>= f) :=
  conducts_issue_bind.mpr ⟨permits_nameless hc, fun r => h r (grows_nameless hc r)⟩

/-- A line that shows the caller, and what follows it. -/
theorem conducts_mentions {text : String} {f : Unit → Gate β}
    (hasking : asking past = some caller) (htext : Mentions caller name text)
    (hnamed : Truthful names past → NamedIn names past caller name)
    (h : ∀ r, Grows names past (past ++ [⟨.sys (.eprintln text), r⟩]) →
      Conducts (Permits names) Q (past ++ [⟨.sys (.eprintln text), r⟩]) (f r)) :
    Conducts (Permits names) Q past (eprintln text >>= f) := by
  refine conducts_issue_bind.mpr ⟨fun htruth => .inr ?_, fun r => h r ?_⟩
  · exact ⟨caller, name, hasking, hnamed htruth, htext⟩
  · exact grows_concat r (fun _ _ h => by cases h) rfl rfl

end Parts

variable {stream : Connection} {started : ℕ} {failure : Option String}

theorem conducts_beginSteps (hasking : asking past = some caller)
    (hinformed : Truthful names past → Informed names past) :
    Conducts (Permits names) (fun audit past' => Grows names past past' ∧
      ∃ name started, audit = ⟨daemon, some (changeLabel caller name), started⟩ ∧
        (Truthful names past' → NamedIn names past' caller name))
      past (Operation.beginSteps daemon change caller) := by
  refine conducts_nameless rfl fun started hnow => ?_
  apply conducts_bind.mpr
  refine (conducts_shown (hnow.informs hinformed)).imp ?_
  rintro _ past₁ ⟨hshown, name, rfl, hnamed⟩
  have hasking₁ : asking past₁ = some caller := (hnow.trans hshown).asked.trans hasking
  refine conducts_mentions hasking₁ .begun hnamed fun _ hline => ?_
  refine ⟨hnow.trans (hshown.trans hline), name, started, rfl, fun htruth => ?_⟩
  exact (hnamed (hline.truthful htruth)).grows hline htruth

theorem conducts_finishSteps (hasking : asking past = some caller)
    (hnamed : Truthful names past → NamedIn names past caller name) :
    Conducts (Permits names) (fun _ past' => Grows names past past') past
      (Operation.finishSteps ⟨daemon, some (changeLabel caller name), started⟩ failure) := by
  refine conducts_nameless rfl fun now hnow => ?_
  have hlater (htruth : Truthful names (past ++ [⟨.now, now⟩])) :
      NamedIn names (past ++ [⟨.now, now⟩]) caller name :=
    (hnamed (hnow.truthful htruth)).grows hnow htruth
  have hended : Mentions caller name (outcomeLine daemon (changeLabel caller name)
      (Operation.elapsedMillis started now) failure) := .ended _ failure
  have hasking' := hnow.asked.trans hasking
  cases failure with
  | none =>
    exact conducts_mentions (f := pure) hasking' hended hlater fun _ hline => hnow.trans hline
  | some reason =>
    exact conducts_mentions (f := pure) hasking' hended hlater fun _ hline => hnow.trans hline

theorem conducts_exchange (hasking : asking past = some caller)
    (hinformed : Truthful names past → Informed names past) :
    Conducts (Permits names) (fun _ past' => Grows names past past') past
      (exchange stream caller) := by
  refine conducts_nameless rfl fun reply hread => ?_
  cases reply with
  | error e => exact hread
  | ok said =>
    refine conducts_nameless rfl fun reply hwrite => ?_
    cases reply with
    | error e => exact hread.trans hwrite
    | ok _ =>
      apply conducts_bind.mpr
      have hmoved := hread.trans hwrite
      refine (conducts_shown (hmoved.informs hinformed)).imp ?_
      rintro _ past₁ ⟨hshown, name, rfl, hnamed⟩
      have hasking₁ := (hmoved.trans hshown).asked.trans hasking
      refine conducts_mentions hasking₁ .answered hnamed fun _ hline => ?_
      exact hmoved.trans (hshown.trans hline)

variable {α : Type} [Authorizer α] {authorizer : α} {socket : Socket} {served : ℕ}

theorem conducts_answer (hasking : asking past = some caller)
    (hinformed : Truthful names past → Informed names past) :
    Conducts (Permits names) (fun _ past' => Grows names past past') past
      (answer authorizer stream caller) := by
  unfold answer
  cases authorize authorizer change caller with
  | error denial =>
    apply conducts_bind.mpr
    refine (conducts_shown hinformed).imp ?_
    rintro _ past₁ ⟨hshown, name, rfl, hnamed⟩
    have hasking₁ := hshown.asked.trans hasking
    refine conducts_mentions hasking₁ (.refused denial) hnamed fun _ hline => ?_
    refine conducts_nameless rfl fun _ hwrite => conducts_nameless (f := pure) rfl fun _ hend => ?_
    exact hshown.trans (hline.trans (hwrite.trans hend))
  | ok _ =>
    apply conducts_bind.mpr
    refine (conducts_beginSteps hasking hinformed).imp ?_
    rintro _ past₁ ⟨hbegun, name, started, rfl, hnamed⟩
    apply conducts_bind.mpr
    have hasking₁ := hbegun.asked.trans hasking
    refine (conducts_exchange hasking₁ (hbegun.informs hinformed)).imp ?_
    intro outcome past₂ hmoved
    apply conducts_bind.mpr
    refine (conducts_finishSteps (hmoved.asked.trans hasking₁) fun htruth => ?_).imp ?_
    · exact (hnamed (hmoved.truthful htruth)).grows hmoved htruth
    · intro _ past₃ hfinished
      refine conducts_nameless (f := pure) rfl fun _ hend => ?_
      exact hbegun.trans (hmoved.trans (hfinished.trans hend))

/-- Whoever is accepted is asking. -/
theorem conducts_accept (hinformed : Truthful names past → Informed names past) :
    Conducts (Permits names) (fun result past' => (Truthful names past' → Informed names past') ∧
        ∀ stream caller, result = .ok (stream, caller) → asking past' = some caller)
      past (onSocket (ExceptT.run socket.accept)) := by
  have haccept : ExceptT.run socket.accept = _ := Socket.accept_eq socket
  rw [haccept]
  refine ⟨permits_nameless rfl, fun reply => ?_⟩
  have hfirst : Grows names past (past ++ [⟨.sys (.accept socket.listener), reply⟩]) :=
    grows_nameless rfl reply
  cases reply with
  | error e => exact ⟨hfirst.informs hinformed, nofun⟩
  | ok stream =>
    refine ⟨fun _ => trivial, fun cred => ⟨permits_nameless rfl, fun reply => ?_⟩⟩
    have hnext : Grows names (past ++ [⟨.sys (.accept socket.listener), .ok stream⟩] ++
        [⟨.sys (.peerCredentials stream), cred⟩]) _ :=
      grows_nameless (c := .sys (.setReadTimeout stream socket.config.requestReadTimeout)) rfl reply
    have hlater := hnext.informs fun htruth => informed_concat cred (fun _ _ h => by cases h) rfl
      (hfirst.informs hinformed htruth.of_append)
    cases reply with
    | error e => exact ⟨hlater, nofun⟩
    | ok _ =>
      refine ⟨hlater, fun stream' caller hresult => ?_⟩
      cases hresult
      exact hnext.asked.trans (asking_concat _)

/-- **Step lemma.** A turn does what is permitted, and forgets nothing. -/
theorem conducts_turn_permits (hinformed : Truthful names past → Informed names past) :
    Conducts (Permits names) (fun _ past' => Truthful names past' → Informed names past') past
      (turn authorizer socket served) := by
  have htick (past' : List GateDone) (served' : ℕ)
      (hinformed' : Truthful names past' → Informed names past') :
      Conducts (Permits names) (fun _ past' => Truthful names past' → Informed names past') past'
        (gate (.stamp .tick) >>= fun _ => pure served') :=
    conducts_nameless rfl fun _ hnext => hnext.informs hinformed'
  apply conducts_bind.mpr
  refine (conducts_accept hinformed).imp ?_
  rintro result past₁ ⟨hinformed₁, hasking₁⟩
  rcases result with e | ⟨stream, caller⟩
  · show Conducts _ _ _ (if _ then _ else _)
    split
    · refine conducts_issue_bind.mpr ⟨fun _ => .inl ⟨e, rfl⟩, fun r => htick _ served ?_⟩
      exact (grows_concat r (fun _ _ h => by cases h) rfl rfl).informs hinformed₁
    · exact htick past₁ served hinformed₁
  · refine conducts_nameless rfl fun _ hstarted => ?_
    apply conducts_bind.mpr
    refine (conducts_answer (hstarted.asked.trans (hasking₁ stream caller rfl))
      (hstarted.informs hinformed₁)).imp ?_
    intro _ past₂ hanswered
    refine conducts_nameless rfl fun _ hfinished => htick _ (servedNext served) ?_
    exact (hstarted.trans (hanswered.trans hfinished)).informs hinformed₁

variable {limit : Option ℕ} {n : ℕ} {run before after : List GateDone} {h : Gate (Option ℕ)}
  {text : String}

/-- **Run lemma.** The loop does what is permitted. -/
theorem permits_of_run (hrun : Issues (acceptLoop authorizer socket limit n) run h)
    (names : NameCache) (before after : List GateDone) (e : GateDone)
    (hsplit : run = before ++ e :: after) : Permits names before e.call := by
  have hloop : Conducts (Permits names) (fun _ _ => True) []
      (acceptLoop authorizer socket limit n) := by
    refine Prog.conducts_repeatWhile (I := fun _ past => Truthful names past → Informed names past)
      (fun served past _ hinformed => conducts_turn_permits hinformed) n 0 ?_
    rintro _ uid resolved ⟨outcome, hmem, -⟩
    cases hmem
  exact (hloop.sound hrun).2 before e after hsplit

/-- What is remembered is remembered until the end. -/
theorem remembered_of_run (hall : ∀ before after e, before ++ e :: after = run →
      Permits names before e.call) (htruth : Truthful names run) (hsplit : before ++ after = run)
    (hknown : remembered names before uid = some resolved) :
    remembered names run uid = some resolved := by
  induction after generalizing before with
  | nil =>
    rw [← hsplit, List.append_nil]
    exact hknown
  | cons e after ih =>
    have hnext : before ++ [e] ++ after = run := by
      rw [← hsplit]
      simp
    refine ih hnext ?_
    have hpermits := hall before after e hsplit
    have htruth' : Truthful names before := (hsplit ▸ htruth).of_append
    obtain ⟨c, r⟩ := e
    rw [remembered_concat]
    cases c with
    | name c =>
      cases c with
      | insert uid' resolved' =>
        have hne : uid ≠ uid' := by
          rintro rfl
          rw [(hpermits htruth').1] at hknown
          cases hknown
        exact (Function.update_of_ne hne ..).trans hknown
      | _ => exact hknown
    | _ => exact hknown

/-- What is remembered has been found out, or was remembered at the start. -/
theorem foundOut_of_run (hall : ∀ before after e, before ++ e :: after = run →
      Permits names before e.call) (htruth : Truthful names run)
    (hknown : remembered names run uid = some resolved) :
    names uid = some resolved ∨ FoundOut run uid resolved := by
  induction run using List.reverseRecOn with
  | nil => exact .inl hknown
  | append_singleton run e ih =>
    have hearlier : remembered names run uid = some resolved →
        names uid = some resolved ∨ FoundOut (run ++ [e]) uid resolved := by
      intro hknown
      refine (ih (fun before after e' hsplit => ?_) htruth.of_append hknown).imp_right ?_
      · exact hall before (after ++ [e]) e' (by rw [← hsplit]; simp)
      · rintro ⟨outcome, hmem, hfound⟩
        exact ⟨outcome, List.mem_append_left _ hmem, hfound⟩
    have hpermits := hall run [] e rfl htruth.of_append
    obtain ⟨c, r⟩ := e
    rw [remembered_concat] at hknown
    cases c with
    | name c =>
      cases c with
      | insert uid' resolved' =>
        by_cases huid : uid = uid'
        · subst huid
          obtain ⟨-, outcome, hmem, hfound⟩ := hpermits
          have hsame : Function.update (remembered names run) uid (some resolved') uid =
              some resolved := hknown
          rw [Function.update_self, Option.some.injEq] at hsame
          subst hsame
          exact .inr ⟨outcome, List.mem_append_left _ hmem, hfound⟩
        · exact hearlier ((Function.update_of_ne huid ..).symm.trans hknown)
      | _ => exact hearlier hknown
    | _ => exact hearlier hknown

/-- **One name for an account.** The loop runs with a name cache that holds anything at the
start. Whatever the name service answers, and however often it fails, it is only asked about
accounts of which the cache holds nothing, and never again about one that it has found out about.
Every line shows the caller that is asking, by the name that the cache holds at the end of the
run, or by no name at all; and the cache holds what it held at the start and what the name service
has answered. -/
theorem accounts_named_once (hrun : Issues (acceptLoop authorizer socket limit n) run h)
    (htruth : Truthful names run) :
    (∀ before uid outcome after, run = before ++ ⟨.name (.fromUid uid), outcome⟩ :: after →
      remembered names before uid = none ∧ (lookedUp outcome ≠ none →
        ∀ outcome', ⟨.name (.fromUid uid), outcome'⟩ ∉ after)) ∧
    (∀ before text after, run = before ++ line text :: after →
      (∃ e, text = acceptFailed e) ∨ ∃ caller name,
        asking before = some caller ∧ Mentions caller name text ∧
        ∀ uid, caller.uid = some uid → name = none ∨ remembered names run uid = some name) ∧
    ∀ uid resolved, remembered names run uid = some resolved →
      names uid = some resolved ∨ FoundOut run uid resolved := by
  have hpermits := permits_of_run hrun names
  have hall (before after : List GateDone) (e : GateDone) (hsplit : before ++ e :: after = run) :
      Permits names before e.call := hpermits before after e hsplit.symm
  have hearlier (before after : List GateDone) (hsplit : run = before ++ after) :
      Truthful names before := by
    rw [hsplit] at htruth
    exact htruth.of_append
  refine ⟨fun before uid outcome after hsplit => ?_, fun before text after hsplit => ?_,
    fun uid resolved hknown => foundOut_of_run hall htruth hknown⟩
  · refine ⟨(hpermits _ _ _ hsplit (hearlier _ _ hsplit)).1, fun hfound outcome' hmem => ?_⟩
    obtain ⟨resolved, hresolved⟩ := Option.ne_none_iff_exists'.mp hfound
    obtain ⟨between, rest, rfl⟩ := List.append_of_mem hmem
    have hsplit' : run = (before ++ ⟨.name (.fromUid uid), outcome⟩ :: between) ++
        ⟨.name (.fromUid uid), outcome'⟩ :: rest := by
      rw [hsplit]
      simp
    refine (hpermits _ _ _ hsplit' (hearlier _ _ hsplit')).2 resolved ?_
    exact ⟨outcome, by simp, hresolved⟩
  · refine (hpermits _ _ _ hsplit (hearlier _ _ hsplit)).imp_right ?_
    rintro ⟨caller, name, hasking, hnamed, hmentions⟩
    refine ⟨caller, name, hasking, hmentions, fun uid huid => ?_⟩
    refine (hnamed uid huid).imp_right fun hknown => ?_
    exact remembered_of_run hall htruth hsplit.symm hknown

end Naming

/-- The one connection of a loop whose cache is empty: the name service is asked about root when
its request is announced. -/
def rootNamed : List GateDone :=
  [⟨.sys (.accept 7), .ok rootStream⟩, ⟨.sys (.peerCredentials rootStream), .ok rootPeer⟩,
    ⟨.sys (.setReadTimeout rootStream (some (30 * 10 ^ 9))), .ok ()⟩,
    stamped (.callStarted .bounded), ⟨.now, (5 : ℕ)⟩, ⟨.name (.readCache 0), none⟩,
    ⟨.name (.fromUid 0), .ok (some ⟨"root"⟩)⟩, ⟨.name (.insert 0 (some (sanitize "root"))), ()⟩,
    line (beginLine daemon (changeLabel (.peer 4711 0 0) (some (sanitize "root")))),
    ⟨.readToEnd rootStream, .ok "hello".toUTF8⟩,
    ⟨.writeln rootStream (replyTo "hello".toUTF8), .ok ()⟩,
    ⟨.name (.readCache 0), some (some (sanitize "root"))⟩,
    line (answeredLine ((Caller.peer 4711 0 0).displayAs (some (sanitize "root"))))]

theorem rootNamed_issues : ∃ h,
    Issues (acceptLoop (PeerGate.forUids [0]) rootSocket (some 1) 2) rootNamed h :=
  ⟨_, .step (.step (.step (.step (.step (.step (.step (.step (.step (.step (.step (.step (.step
    (.refl _)))))))))))))⟩

/-- The name service is asked once, and its answer is remembered. -/
theorem accounts_named_once_root : Truthful (fun _ => none) rootNamed ∧
    remembered (fun _ => none) rootNamed 0 = some (some (sanitize "root")) ∧
    FoundOut rootNamed 0 (some (sanitize "root")) := by
  obtain ⟨h, hrun⟩ := rootNamed_issues
  have htruth : Truthful (fun _ => none) rootNamed :=
    ⟨trivial, trivial, trivial, trivial, trivial, rfl, trivial, trivial, trivial, trivial, trivial,
      rfl, trivial, trivial⟩
  have hknown : remembered (fun _ => none) rootNamed 0 = some (some (sanitize "root")) := rfl
  refine ⟨htruth, hknown, ?_⟩
  exact ((accounts_named_once hrun htruth).2.2 0 _ hknown).resolve_left nofun

end UdsPolicy
