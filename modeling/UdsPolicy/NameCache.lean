import UdsPolicy.General.Programs
import UdsPolicy.General.Runs
import UdsPolicy.Caller

/-!
# The name cache under racing threads

A call of `name_for_uid` reads the cache under its lock, asks the name service
with no lock held, and inserts what it has learned under the lock again. Any
number of calls may be between any two of these steps. As long as the successful
lookups of a uid agree, the cache only ever holds that answer, and a call returns
it unless its own lookup has failed.
-/

namespace UdsPolicy

open Runs (EveryStep)

/-- The three operations of `name_for_uid`. -/
inductive NameCall
  | readCache (uid : UInt32)
  | fromUid (uid : UInt32)
  | insert (uid : UInt32) (resolved : Option String)

/-- What each operation returns. -/
abbrev NameCall.Reply : NameCall → Type
  | .readCache _ => Option (Option String)
  | .fromUid _ => Lookup
  | .insert _ _ => Unit

/-- Programs over the operations of `name_for_uid`. -/
abbrev Naming := Prog NameCall NameCall.Reply

/-- Perform one operation. -/
def name (c : NameCall) : Naming c.Reply := Prog.issue c

/-- `name_for_uid`, with the places at which other threads can come in between. -/
def nameForUidSteps (uid : UInt32) : Naming (Option String) := do
  match ← name (.readCache uid) with
  | some cached => return cached
  | none =>
    match lookedUp (← name (.fromUid uid)) with
    | none => return none
    | some resolved =>
      name (.insert uid resolved)
      return resolved

/-- An operation on the cache, the name service answering `lookup`. -/
def NameCall.exec (lookup : UInt32 → Lookup) : (c : NameCall) → NameCache → c.Reply × NameCache
  | .readCache uid, names => (names uid, names)
  | .fromUid uid, names => (lookup uid, names)
  | .insert uid resolved, names => ((), Function.update names uid (some resolved))

/-- The operations of `name_for_uid` in their order. -/
theorem nameForUidSteps_eq (uid : UInt32) :
    nameForUidSteps uid = .call (.readCache uid) fun
      | some cached => .ret cached
      | none => .call (.fromUid uid) fun outcome =>
        match lookedUp outcome with
        | none => .ret none
        | some resolved => .call (.insert uid resolved) fun _ => .ret resolved := by
  refine congrArg (Prog.call _) (funext fun cached => ?_)
  cases cached with
  | some cached => rfl
  | none =>
    refine congrArg (Prog.call _) (funext fun outcome => ?_)
    cases outcome <;> rfl

/-- Performed without interruption, the three steps are `nameForUid`. -/
theorem nameForUid_eq_runWith (lookup : UInt32 → Lookup) (uid : UInt32) (names : NameCache) :
    nameForUid lookup uid names = (nameForUidSteps uid).runWith (NameCall.exec lookup) names := by
  rw [nameForUidSteps_eq, nameForUid]
  simp only [Prog.runWith, NameCall.exec]
  cases names uid with
  | some cached => rfl
  | none =>
    simp only [Prog.runWith, NameCall.exec]
    cases lookup uid <;> rfl

/-- The control points of a call. -/
inductive NamePc
  | readCache
  | fromUid
  | insert (resolved : Option String)
  | returned (result : Option String)
  deriving DecidableEq

namespace NamePc

open Prog (Head)

/-- What a call does at each control point. -/
def next (uid : UInt32) : NamePc → Head NameCall NameCall.Reply (Option String) NamePc
  | .readCache => .call (.readCache uid) fun
    | some cached => .returned cached
    | none => .fromUid
  | .fromUid => .call (.fromUid uid) fun outcome =>
    match lookedUp outcome with
    | none => .returned none
    | some resolved => .insert resolved
  | .insert resolved => .call (.insert uid resolved) fun _ => .returned resolved
  | .returned result => .ret result

end NamePc

open Prog in
/-- Started at the read of the cache, the machine issues the operations of `name_for_uid`. -/
theorem nameForUid_presents (uid : UInt32) :
    Presents (NamePc.next uid) .readCache (nameForUidSteps uid) := by
  refine .call rfl fun cached => ?_
  cases cached with
  | some cached => exact .ret rfl
  | none =>
    refine .call rfl fun outcome => ?_
    cases outcome with
    | error e => exact .ret rfl
    | ok user => exact .call rfl fun _ => .ret rfl

/-- Left alone, the machine goes through the control points to what `nameForUid` gives. -/
theorem nameForUid_alone (lookup : UInt32 → Lookup) (uid : UInt32) (names : NameCache) :
    ∃ n q, (fun x => Prog.stepWith (NamePc.next uid) (NameCall.exec lookup) x.1 x.2)^[n]
        (.readCache, names) = (q, (nameForUid lookup uid names).2) ∧
      NamePc.next uid q = .ret (nameForUid lookup uid names).1 := by
  rw [nameForUid_eq_runWith]
  exact (nameForUid_presents uid).runWith_eq (NameCall.exec lookup) names

/-- One call under way. Nothing reads what it has seen and what its lookup gave; statements
refer to them. -/
structure NameThread where
  /-- The uid asked for. -/
  uid : UInt32
  /-- Where the call is. -/
  pc : NamePc
  /-- What the cache held for the uid when the call read it. -/
  seen : Option (Option String)
  /-- What the call's own lookup gave, if it made one. -/
  own : Option Lookup

/-- A call that has returned. -/
structure Answered where
  /-- The uid asked for. -/
  uid : UInt32
  /-- What the cache held for the uid when the call read it. -/
  seen : Option (Option String)
  /-- What the call's own lookup gave, if it made one. -/
  own : Option Lookup
  /-- What the call returned. -/
  result : Option String

/-- The cache, the threads that are in a call, and the calls that have returned. -/
structure Resolver where
  /-- The cache. -/
  names : NameCache
  /-- The call that each thread is in, if any. -/
  thread : ℕ → Option NameThread
  /-- The calls that have returned, oldest first. -/
  answered : List Answered

/-- What happens next. -/
inductive NameAction
  /-- A thread calls `name_for_uid`. -/
  | begin (t : ℕ) (uid : UInt32)
  /-- A thread takes the next step of its call; a lookup gives the outcome. -/
  | step (t : ℕ) (outcome : Lookup)

namespace NameThread

/-- The call after an operation. -/
def after (c : NameThread) (names : NameCache) (outcome : Lookup) (call : NameCall) (pc : NamePc) :
    NameThread :=
  match call with
  | .readCache uid => { c with pc := pc, seen := names uid }
  | .fromUid _ => { c with pc := pc, own := some outcome }
  | .insert _ _ => { c with pc := pc }

end NameThread

namespace Resolver

/-- Nothing has been resolved, and no thread is in a call. -/
def empty : Resolver := ⟨fun _ => none, fun _ => none, []⟩

/-- One action, or `none` if it cannot happen here. -/
def step (r : Resolver) : NameAction → Option Resolver
  | .begin t uid =>
    match r.thread t with
    | none =>
      some { r with thread := Function.update r.thread t (some ⟨uid, .readCache, none, none⟩) }
    | some _ => none
  | .step t outcome =>
    match r.thread t with
    | none => none
    | some c =>
      match c.pc.next c.uid with
      | .ret result => some
          { r with
            thread := Function.update r.thread t none
            answered := r.answered ++ [⟨c.uid, c.seen, c.own, result⟩] }
      | .call call succ =>
        let (reply, names) := call.exec (fun _ => outcome) r.names
        some
          { r with
            names := names
            thread := Function.update r.thread t
              (some (c.after r.names outcome call (succ reply))) }

section Answers

variable {answer : UInt32 → Option User} {r r' : Resolver} {act : NameAction} {t : ℕ}
  {c : NameThread} {uid : UInt32} {outcome : Lookup}

/-- The name behind a uid, as it is remembered and returned. -/
def nameOf (answer : UInt32 → Option User) (uid : UInt32) : Option String :=
  (answer uid).map fun found => sanitize found.name

/-- A lookup that succeeds gives the uid's one answer. -/
def Consistent (answer : UInt32 → Option User) (r : Resolver) (act : NameAction) : Prop :=
  ∀ t user c, act = .step t (.ok user) → r.thread t = some c → c.pc = .fromUid → user = answer c.uid

/-- What a call has returned, by what it saw in the cache and what its own lookup gave. -/
inductive Right (answer : UInt32 → Option User) : Answered → Prop
  /-- The call found its answer in the cache, and made no lookup. -/
  | remembered (uid : UInt32) :
      Right answer ⟨uid, some (nameOf answer uid), none, nameOf answer uid⟩
  /-- The call found nothing in the cache, and its own lookup failed. -/
  | failed (uid : UInt32) (error : String) : Right answer ⟨uid, none, some (.error error), none⟩
  /-- The call found nothing in the cache, and its own lookup succeeded. -/
  | resolved (uid : UInt32) :
      Right answer ⟨uid, none, some (.ok (answer uid)), nameOf answer uid⟩

/-- What is known about a call at each of its control points. -/
def OnTrack (answer : UInt32 → Option User) (c : NameThread) : Prop :=
  match c.pc with
  | .readCache | .fromUid => c.seen = none ∧ c.own = none
  | .insert resolved =>
    c.seen = none ∧ c.own = some (.ok (answer c.uid)) ∧ resolved = nameOf answer c.uid
  | .returned result => Right answer ⟨c.uid, c.seen, c.own, result⟩

/-- The invariant: the cache holds right answers only, and every call is on its track. -/
structure Agrees (answer : UInt32 → Option User) (r : Resolver) : Prop where
  /-- An entry is its uid's answer. -/
  names : ∀ uid v, r.names uid = some v → v = nameOf answer uid
  /-- Every call under way is on its track. -/
  thread : ∀ t c, r.thread t = some c → OnTrack answer c
  /-- Every call that has returned has returned what it should. -/
  answered : ∀ c ∈ r.answered, Right answer c

theorem empty_agrees : Agrees answer empty :=
  ⟨nofun, nofun, nofun⟩

/-- What an operation of a call does to the call and to the cache. -/
inductive Goes (names : NameCache) (outcome : Lookup) :
    NameThread → NameThread → NameCache → Prop
  | hit {uid : UInt32} {v : Option String} {seen own} : names uid = some v →
      Goes names outcome ⟨uid, .readCache, seen, own⟩ ⟨uid, .returned v, some v, own⟩ names
  | miss {uid : UInt32} {seen own} : names uid = none →
      Goes names outcome ⟨uid, .readCache, seen, own⟩ ⟨uid, .fromUid, none, own⟩ names
  | failed {uid : UInt32} {seen own} : lookedUp outcome = none →
      Goes names outcome ⟨uid, .fromUid, seen, own⟩ ⟨uid, .returned none, seen, some outcome⟩ names
  | found {uid : UInt32} {v : Option String} {seen own} : lookedUp outcome = some v →
      Goes names outcome ⟨uid, .fromUid, seen, own⟩ ⟨uid, .insert v, seen, some outcome⟩ names
  | inserted {uid : UInt32} {v : Option String} {seen own} :
      Goes names outcome ⟨uid, .insert v, seen, own⟩ ⟨uid, .returned v, seen, own⟩
        (Function.update names uid (some v))

/-- What an action does. -/
inductive Stepped (r : Resolver) : NameAction → Resolver → Prop
  | begun {t : ℕ} {uid : UInt32} : Stepped r (.begin t uid)
      { r with thread := Function.update r.thread t (some ⟨uid, .readCache, none, none⟩) }
  | ended {t : ℕ} {outcome : Lookup} {c : NameThread} {result : Option String} :
      r.thread t = some c → c.pc = .returned result → Stepped r (.step t outcome)
        { r with
          thread := Function.update r.thread t none
          answered := r.answered ++ [⟨c.uid, c.seen, c.own, result⟩] }
  | goes {t : ℕ} {outcome : Lookup} {c c' : NameThread} {names : NameCache} :
      r.thread t = some c → Goes r.names outcome c c' names → Stepped r (.step t outcome)
        { r with names := names, thread := Function.update r.thread t (some c') }

/-- **Step specification.** Every action does one of these things. -/
theorem stepped_of_step (h : r.step act = some r') : Stepped r act r' := by
  cases act with
  | begin t uid =>
    simp only [step] at h
    split at h <;> cases h
    exact .begun
  | step t outcome =>
    simp only [step] at h
    split at h
    · cases h
    · rename_i c hthread
      obtain ⟨uid, pc, seen, own⟩ := c
      cases pc with
      | readCache =>
        cases h
        apply Stepped.goes hthread
        cases hnames : r.names uid with
        | some v =>
          simp only [NameCall.exec, NameThread.after, hnames]
          exact .hit hnames
        | none =>
          simp only [NameCall.exec, NameThread.after, hnames]
          exact .miss hnames
      | fromUid =>
        cases h
        apply Stepped.goes hthread
        cases hlooked : lookedUp outcome with
        | some v =>
          simp only [NameCall.exec, NameThread.after, hlooked]
          exact .found hlooked
        | none =>
          simp only [NameCall.exec, NameThread.after, hlooked]
          exact .failed hlooked
      | insert v =>
        cases h
        exact .goes hthread .inserted
      | returned result =>
        cases h
        exact .ended hthread rfl

/-- An operation of a call on its track keeps it there, and keeps the cache right. -/
theorem onTrack_of_goes {names : NameCache} {c' : NameThread}
    (hnames : ∀ uid v, r.names uid = some v → v = nameOf answer uid) (hc : OnTrack answer c)
    (houtcome : c.pc = .fromUid → ∀ user, outcome = .ok user → user = answer c.uid)
    (h : Goes r.names outcome c c' names) :
    OnTrack answer c' ∧ ∀ uid v, names uid = some v → v = nameOf answer uid := by
  cases h with
  | @hit uid v seen own hheld =>
    obtain ⟨-, rfl⟩ : seen = none ∧ own = none := hc
    obtain rfl := hnames uid v hheld
    exact ⟨.remembered uid, hnames⟩
  | miss hheld =>
    obtain ⟨-, rfl⟩ := hc
    exact ⟨⟨rfl, rfl⟩, hnames⟩
  | @failed uid seen own hlooked =>
    obtain ⟨rfl, -⟩ : seen = none ∧ own = none := hc
    cases outcome with
    | error e => exact ⟨.failed uid e, hnames⟩
    | ok user => cases hlooked
  | @found uid v seen own hlooked =>
    obtain ⟨rfl, -⟩ : seen = none ∧ own = none := hc
    cases outcome with
    | error e => cases hlooked
    | ok user =>
      obtain rfl := houtcome rfl user rfl
      exact ⟨⟨rfl, rfl, (Option.some.inj hlooked).symm⟩, hnames⟩
  | @inserted uid v seen own =>
    obtain ⟨rfl, rfl, rfl⟩ :
      seen = none ∧ own = some (.ok (answer uid)) ∧ v = nameOf answer uid := hc
    refine ⟨.resolved uid, fun u w hw => ?_⟩
    by_cases hu : u = uid
    · subst u
      simpa [eq_comm] using hw
    · exact hnames u w (by simpa [hu] using hw)

/-- **Step lemma.** As long as successful lookups agree, the invariant is kept. -/
theorem Agrees.step (h : Agrees answer r) (hact : Consistent answer r act)
    (hstep : r.step act = some r') : Agrees answer r' := by
  cases stepped_of_step hstep with
  | @begun t uid =>
    refine ⟨h.names, fun s c hc => ?_, h.answered⟩
    by_cases hs : s = t
    · subst s
      obtain rfl : _ = c := by simpa using hc
      exact ⟨rfl, rfl⟩
    · exact h.thread s c (by simpa [hs] using hc)
  | @ended t outcome c result hthread hpc =>
    refine ⟨h.names, fun s c' hc => ?_, fun x hx => ?_⟩
    · by_cases hs : s = t
      · subst s
        simp at hc
      · exact h.thread s c' (by simpa [hs] using hc)
    · rcases List.mem_append.mp hx with hx | hx
      · exact h.answered x hx
      · obtain rfl := List.mem_singleton.mp hx
        have htrack := h.thread t c hthread
        simpa only [OnTrack, hpc] using htrack
  | @goes t outcome c c' names hthread hgoes =>
    have houtcome (hpc : c.pc = .fromUid) (user : Option User) (hok : outcome = .ok user) :
        user = answer c.uid := hact t user c (by rw [hok]) hthread hpc
    obtain ⟨htrack, hright⟩ := onTrack_of_goes h.names (h.thread t c hthread) houtcome hgoes
    refine ⟨hright, fun s d hd => ?_, h.answered⟩
    by_cases hs : s = t
    · subst s
      obtain rfl : c' = d := by simpa using hd
      exact htrack
    · exact h.thread s d (by simpa [hs] using hd)

/-- As long as successful lookups agree, no entry is removed or changed. -/
theorem Agrees.names_kept (h : Agrees answer r) (hstep : r.step act = some r') {v : Option String}
    (hv : r.names uid = some v) : r'.names uid = some v := by
  cases stepped_of_step hstep with
  | begun | ended => exact hv
  | @goes t outcome c c' names hthread hgoes =>
    cases hgoes with
    | @inserted u w seen own =>
      obtain ⟨-, -, rfl⟩ : seen = none ∧ own = some (.ok (answer u)) ∧ w = nameOf answer u :=
        h.thread t _ hthread
      by_cases hu : uid = u
      · subst u
        simp [h.names uid v hv]
      · simpa [hu] using hv
    | _ => exact hv

/-- A failed lookup leaves the cache as it is, and its call goes on to return no name. -/
def FailureForgotten (r : Resolver) (act : NameAction) (r' : Resolver) : Prop :=
  ∀ t error c, act = .step t (.error error) → r.thread t = some c → c.pc = .fromUid →
    r'.names = r.names ∧ ∃ c', r'.thread t = some c' ∧ c'.pc = .returned none

theorem failureForgotten_of_step (hstep : r.step act = some r') : FailureForgotten r act r' := by
  intro t error c hact hthread hpc
  cases stepped_of_step hstep with
  | begun => cases hact
  | ended hthread' hpc' =>
    cases hact
    cases hthread.symm.trans hthread'
    cases hpc.symm.trans hpc'
  | goes hthread' hgoes =>
    cases hact
    cases hthread.symm.trans hthread'
    cases hgoes with
    | failed => exact ⟨rfl, _, Function.update_self .., rfl⟩
    | found hlooked => cases hlooked
    | hit | miss | inserted => cases hpc

/-- An insert puts the call's name into the cache. -/
theorem names_of_insert {v : Option String} (hthread : r.thread t = some c)
    (hpc : c.pc = .insert v) (hstep : r.step (.step t outcome) = some r') :
    r'.names c.uid = some v := by
  obtain ⟨uid, pc, seen, own⟩ := c
  obtain rfl : pc = .insert v := hpc
  cases stepped_of_step hstep with
  | ended hthread' hpc' =>
    cases hthread.symm.trans hthread'
    cases hpc'
  | goes hthread' hgoes =>
    cases hthread.symm.trans hthread'
    cases hgoes
    simp

/-- A call that reads the cache when its uid has an entry returns the entry and makes no
lookup, whatever the name service would say. -/
theorem Agrees.hit (h : Agrees answer r) {v : Option String} (hthread : r.thread t = some c)
    (hpc : c.pc = .readCache) (hv : r.names c.uid = some v)
    (hstep : r.step (.step t outcome) = some r') :
    ∃ c', r'.thread t = some c' ∧ c'.pc = .returned v ∧ c'.own = none := by
  obtain ⟨uid, pc, seen, own⟩ := c
  obtain rfl : pc = .readCache := hpc
  obtain ⟨-, rfl⟩ : seen = none ∧ own = none := h.thread t _ hthread
  cases stepped_of_step hstep with
  | ended hthread' hpc' =>
    cases hthread.symm.trans hthread'
    cases hpc'
  | goes hthread' hgoes =>
    cases hthread.symm.trans hthread'
    cases hgoes with
    | hit hheld =>
      cases hv.symm.trans hheld
      exact ⟨_, Function.update_self .., rfl, rfl⟩
    | miss hmissing => cases hv.symm.trans hmissing

/-- Two calls for one uid return the same, unless the lookup of one of them has failed. -/
theorem Right.agree {x y : Answered} (hx : Right answer x) (hy : Right answer y)
    (huid : x.uid = y.uid) (hfx : ∀ error, x.own ≠ some (.error error))
    (hfy : ∀ error, y.own ≠ some (.error error)) : x.result = y.result := by
  have hresult {z : Answered} (hz : Right answer z) (hfz : ∀ error, z.own ≠ some (.error error)) :
      z.result = nameOf answer z.uid := by
    cases hz with
    | remembered | resolved => rfl
    | failed uid error => exact absurd rfl (hfz error)
  rw [hresult hx hfx, hresult hy hfy, huid]

/-- Every name that is remembered, or is about to be, has been sanitized. -/
structure Clean (r : Resolver) : Prop where
  /-- The cache holds sanitized names. -/
  names : r.names.Sanitized
  /-- A call inserts sanitized names. -/
  thread : ∀ t c resolved, r.thread t = some c → c.pc = .insert resolved →
    ∀ name, resolved = some name → ∃ given, name = sanitize given

/-- **Step lemma.** Whatever the lookups give, only sanitized names are remembered. -/
theorem Clean.step (h : Clean r) (hstep : r.step act = some r') : Clean r' := by
  cases stepped_of_step hstep with
  | @begun t uid =>
    refine ⟨h.names, fun s c resolved hc hpc => ?_⟩
    by_cases hs : s = t
    · subst s
      obtain rfl : _ = c := by simpa using hc
      cases hpc
    · exact h.thread s c resolved (by simpa [hs] using hc) hpc
  | @ended t outcome c result hthread hpc =>
    refine ⟨h.names, fun s c' resolved hc => ?_⟩
    by_cases hs : s = t
    · subst s
      simp at hc
    · exact h.thread s c' resolved (by simpa [hs] using hc)
  | @goes t outcome c c' names hthread hgoes =>
    have hothers (s : ℕ) (hs : s ≠ t) (d : NameThread) (resolved : Option String)
        (hd : Function.update r.thread t (some c') s = some d) (hpc : d.pc = .insert resolved) :
        ∀ name, resolved = some name → ∃ given, name = sanitize given :=
      h.thread s d resolved (by simpa [hs] using hd) hpc
    cases hgoes with
    | hit | miss | failed =>
      refine ⟨h.names, fun s d resolved hd hpc => ?_⟩
      by_cases hs : s = t
      · subst s
        obtain rfl : _ = d := by simpa using hd
        cases hpc
      · exact hothers s hs d resolved hd hpc
    | @found uid v seen own hlooked =>
      refine ⟨h.names, fun s d resolved hd hpc name hname => ?_⟩
      by_cases hs : s = t
      · subst s
        obtain rfl : _ = d := by simpa using hd
        cases hpc
        subst hname
        exact sanitize_of_lookedUp hlooked
      · exact hothers s hs d resolved hd hpc name hname
    | @inserted uid v seen own =>
      refine ⟨h.names.update (h.thread t _ v hthread rfl), fun s d resolved hd hpc => ?_⟩
      by_cases hs : s = t
      · subst s
        obtain rfl : _ = d := by simpa using hd
        cases hpc
      · exact hothers s hs d resolved hd hpc

/-- However many threads resolve names and whatever the lookups give, the cache holds
sanitized names only. -/
theorem sanitized_of_run {as : List NameAction} (hrun : Runs.run step empty as = some r) :
    r.names.Sanitized := by
  have hpres : ∀ r act r', Clean r → Resolver.step r act = some r' → Clean r' :=
    fun _ _ _ h hstep => h.step hstep
  have hstart : Clean empty := ⟨NameCache.empty_sanitized, nofun⟩
  exact (Runs.run_invariant_of_forall hpres hstart hrun).names

/-- **Racing calls.** Let any number of threads call `name_for_uid`, interleave in any way and
have any lookups fail, as long as those that succeed agree for each uid. Then the cache only
ever holds sanitized answers, which stay; a failed lookup leaves it alone; every call returns
its uid's answer, or no name if its own lookup failed; a call that reads the cache after an
insert for its uid returns what was inserted without a lookup; and calls for one uid agree
unless one of their lookups failed. -/
theorem racing_calls (answer : UInt32 → Option User) (as : List NameAction)
    (hagree : EveryStep step (fun r act _ => Consistent answer r act) empty as) :
    (∀ r, Runs.run step empty as = some r →
      (∀ uid v, r.names uid = some v → v = nameOf answer uid) ∧
      (∀ x ∈ r.answered, Right answer x) ∧
      ∀ x ∈ r.answered, ∀ y ∈ r.answered, x.uid = y.uid →
        (∀ error, x.own ≠ some (.error error)) → (∀ error, y.own ≠ some (.error error)) →
        x.result = y.result) ∧
    EveryStep step (fun r act r' => (∀ uid v, r.names uid = some v → r'.names uid = some v) ∧
      FailureForgotten r act r') empty as ∧
    ∀ as₁ t outcome as₂ r₁ r₂ c v, as = as₁ ++ .step t outcome :: as₂ →
      Runs.run step empty as₁ = some r₁ → r₁.thread t = some c → c.pc = .insert v →
      Runs.run step empty as = some r₂ →
      ∀ t' d outcome' r₃, r₂.thread t' = some d → d.pc = .readCache → d.uid = c.uid →
        r₂.step (.step t' outcome') = some r₃ →
        ∃ d', r₃.thread t' = some d' ∧ d'.pc = .returned v ∧ d'.own = none := by
  have hpres : ∀ r act r', Agrees answer r → Consistent answer r act → step r act = some r' →
      Agrees answer r' := fun _ _ _ h hact hstep => h.step hact hstep
  have hstart : Agrees answer empty := empty_agrees
  refine ⟨fun r hrun => ?_, ?_, ?_⟩
  · have h := Runs.run_invariant hpres hstart hagree hrun
    refine ⟨h.names, h.answered, fun x hx y hy huid hfx hfy => ?_⟩
    exact (h.answered x hx).agree (h.answered y hy) huid hfx hfy
  · refine EveryStep.imp hpres (fun r act r' h hstep _ => ⟨fun uid v hv => ?_, ?_⟩) hstart hagree
    · exact h.names_kept hstep hv
    · exact failureForgotten_of_step hstep
  · intro as₁ t outcome as₂ r₁ r₂ c v has hrun₁ hthread hpc hrun₂ t' d out r₃ hd hdpc huid hstep
    have h₂ := Runs.run_invariant hpres hstart hagree hrun₂
    subst has
    obtain ⟨hbefore, hafter⟩ := Runs.everyStep_append hagree hrun₁
    have h₁ := Runs.run_invariant hpres hstart hbefore hrun₁
    obtain ⟨r, hrun, hrest⟩ := Runs.run_append.mp hrun₂
    cases hrun₁.symm.trans hrun
    obtain ⟨r', hinsert, hrest⟩ := Runs.run_cons.mp hrest
    obtain ⟨hact, hlater⟩ := hafter r' hinsert
    -- The inserted name is still there when the other call reads the cache.
    have hkeep : ∀ s act s', Agrees answer s ∧ s.names c.uid = some v → Consistent answer s act →
        step s act = some s' → Agrees answer s' ∧ s'.names c.uid = some v :=
      fun s act s' h hact hstep => ⟨h.1.step hact hstep, h.1.names_kept hstep h.2⟩
    have hheld := (Runs.run_invariant hkeep
      ⟨h₁.step hact hinsert, names_of_insert hthread hpc hinsert⟩ hlater hrest).2
    exact h₂.hit hd hdpc (huid ▸ hheld) hstep

/-- Two threads race for one uid, and the lookup of one of them fails. -/
def race : List NameAction :=
  [.begin 0 7, .begin 1 7, .step 0 (.error ""), .step 1 (.error ""),
    .step 0 (.ok (some ⟨"echo\nd"⟩)), .step 1 (.error "unreachable"), .step 0 (.error ""),
    .step 0 (.error ""), .step 1 (.error "")]

/-- The other thread returns the name, sanitized. -/
theorem racing_calls_race : ∃ r, Runs.run step empty race = some r ∧
    r.answered.map Answered.result = [some "echo d", none] ∧
    ∀ x ∈ r.answered, Right (fun _ => some ⟨"echo\nd"⟩) x := by
  have hfails {r : Resolver} {t : ℕ} {error : String} :
      Consistent (fun _ => some ⟨"echo\nd"⟩) r (.step t (.error error)) := by
    rintro _ _ _ ⟨⟩
  have hbegins {r : Resolver} {t : ℕ} {uid : UInt32} :
      Consistent (fun _ => some ⟨"echo\nd"⟩) r (.begin t uid) := by
    rintro _ _ _ ⟨⟩
  have hagree : EveryStep step (fun r act _ => Consistent (fun _ => some ⟨"echo\nd"⟩) r act)
      empty race := by
    refine .cons rfl hbegins (.cons rfl hbegins (.cons rfl hfails (.cons rfl hfails ?_)))
    refine .cons rfl ?_ (.cons rfl hfails (.cons rfl hfails ?_))
    · rintro _ _ _ ⟨⟩ _ _
      rfl
    · exact .cons rfl hfails (.cons rfl hfails trivial)
  exact ⟨_, rfl, by decide, (((racing_calls _ race hagree).1 _ rfl).2).1⟩

end Answers

end Resolver

end UdsPolicy
