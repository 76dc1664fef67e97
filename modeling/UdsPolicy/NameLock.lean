import UdsPolicy.General.Simulation
import UdsPolicy.NameCache

/-!
# The lock of the name cache

The steps of `name_for_uid` with the lock that they take: it is locked to read, and
released before the name service is asked; it is locked again to insert. A thread
that holds it keeps the others out, and one that panics leaves it poisoned, which
the others ignore. Seen from outside the lock, the threads do what the model
without a lock does; and the name service, however slow, keeps nobody waiting.
-/

namespace UdsPolicy

open Prog (Presents)
open Runs (EveryStep Follows)

/-- The operations of `name_for_uid`, those on the lock included. -/
inductive LockCall
  /-- `Mutex::lock`, which says whether the mutex is poisoned. -/
  | lock
  | get (uid : UInt32)
  | unlock
  | fromUid (uid : UInt32)
  | insert (uid : UInt32) (resolved : Option String)

/-- What each operation returns. -/
abbrev LockCall.Reply : LockCall → Type
  | .lock => Bool
  | .get _ => Option (Option String)
  | .unlock | .insert _ _ => Unit
  | .fromUid _ => Lookup

/-- Programs over these operations. -/
abbrev Locking := Prog LockCall LockCall.Reply

/-- Perform one operation. -/
def locking (c : LockCall) : Locking c.Reply := Prog.issue c

/-- `name_for_uid`, with the lock. -/
def nameForUidLocked (uid : UInt32) : Locking (Option String) := do
  -- A poisoned mutex is locked all the same.
  let _poisoned ← locking .lock
  let cached ← locking (.get uid)
  locking .unlock
  match cached with
  | some cached => return cached
  | none =>
    match lookedUp (← locking (.fromUid uid)) with
    | none => return none
    | some resolved =>
      let _poisoned ← locking .lock
      locking (.insert uid resolved)
      locking .unlock
      return resolved

/-- The operations in their order. -/
theorem nameForUidLocked_eq (uid : UInt32) :
    nameForUidLocked uid = .call .lock fun _ => .call (.get uid) fun
      | some cached => .call .unlock fun _ => .ret cached
      | none => .call .unlock fun _ => .call (.fromUid uid) fun outcome =>
        match lookedUp outcome with
        | none => .ret none
        | some resolved => .call .lock fun _ => .call (.insert uid resolved) fun _ =>
          .call .unlock fun _ => .ret resolved := by
  refine congrArg (Prog.call _) (funext fun _ => congrArg (Prog.call _) (funext fun cached => ?_))
  cases cached with
  | some cached => rfl
  | none =>
    refine congrArg (Prog.call _) (funext fun _ => ?_)
    refine congrArg (Prog.call _) (funext fun outcome => ?_)
    cases outcome <;> rfl

/-- An operation on the cache, for one thread alone. -/
def LockCall.exec (lookup : UInt32 → Lookup) (poisoned : Bool) :
    (c : LockCall) → NameCache → c.Reply × NameCache
  | .lock, names => (poisoned, names)
  | .unlock, names => ((), names)
  | .get uid, names => (names uid, names)
  | .fromUid uid, names => (lookup uid, names)
  | .insert uid resolved, names => ((), Function.update names uid (some resolved))

/-- Performed without interruption, the steps are `nameForUid`, be the mutex poisoned or not. -/
theorem nameForUidLocked_runWith (lookup : UInt32 → Lookup) (poisoned : Bool) (uid : UInt32)
    (names : NameCache) :
    (nameForUidLocked uid).runWith (LockCall.exec lookup poisoned) names =
      nameForUid lookup uid names := by
  rw [nameForUidLocked_eq, nameForUid]
  simp only [Prog.runWith, LockCall.exec]
  cases names uid with
  | some cached => rfl
  | none =>
    simp only [Prog.runWith, LockCall.exec]
    cases lookup uid <;> rfl

/-- The control points of a call. -/
inductive LockPc
  | lockRead
  | get
  | unlockHit (cached : Option String)
  | unlockMiss
  | fromUid
  | lockInsert (resolved : Option String)
  | insert (resolved : Option String)
  | unlockInserted (resolved : Option String)
  | returned (result : Option String)
  deriving DecidableEq

namespace LockPc

open Prog (Head)

/-- The control point that a read of the cache leads to. -/
def afterGet : Option (Option String) → LockPc
  | some cached => .unlockHit cached
  | none => .unlockMiss

/-- What a call does at each control point. -/
def next (uid : UInt32) : LockPc → Head LockCall LockCall.Reply (Option String) LockPc
  | .lockRead => .call .lock fun _ => .get
  | .get => .call (.get uid) afterGet
  | .unlockHit cached => .call .unlock fun _ => .returned cached
  | .unlockMiss => .call .unlock fun _ => .fromUid
  | .fromUid => .call (.fromUid uid) fun outcome =>
    match lookedUp outcome with
    | none => .returned none
    | some resolved => .lockInsert resolved
  | .lockInsert resolved => .call .lock fun _ => .insert resolved
  | .insert resolved => .call (.insert uid resolved) fun _ => .unlockInserted resolved
  | .unlockInserted resolved => .call .unlock fun _ => .returned resolved
  | .returned result => .ret result

/-- Whether the lock is held at a control point. -/
def inside : LockPc → Bool
  | .get | .unlockHit _ | .unlockMiss | .insert _ | .unlockInserted _ => true
  | _ => false

/-- Whether what is done at a control point is seen without the lock. -/
def visible : LockPc → Bool
  | .get | .fromUid | .insert _ | .returned _ => true
  | _ => false

/-- Where the call is in the model without a lock. -/
def unlocked : LockPc → NamePc
  | .lockRead | .get => .readCache
  | .unlockMiss | .fromUid => .fromUid
  | .lockInsert resolved | .insert resolved => .insert resolved
  | .unlockHit result | .unlockInserted result | .returned result => .returned result

end LockPc

/-- Started at the first lock, the machine issues the operations of `name_for_uid`. -/
theorem nameForUidLocked_presents (uid : UInt32) :
    Presents (LockPc.next uid) .lockRead (nameForUidLocked uid) := by
  refine .call rfl fun _ => .call rfl fun cached => ?_
  cases cached with
  | some cached => exact .call rfl fun _ => .ret rfl
  | none =>
    refine .call rfl fun _ => .call rfl fun outcome => ?_
    cases outcome with
    | error e => exact .ret rfl
    | ok user => exact .call rfl fun _ => .call rfl fun _ => .call rfl fun _ => .ret rfl

/-- One call under way, with what it has seen and what its lookup gave. -/
structure LockedThread where
  /-- The uid asked for. -/
  uid : UInt32
  /-- Where the call is. -/
  pc : LockPc
  /-- What the cache held for the uid when the call read it. -/
  seen : Option (Option String)
  /-- What the call's own lookup gave, if it made one. -/
  own : Option Lookup
  /-- The thread has panicked. -/
  gone : Bool

/-- The cache, its lock, the threads, and the calls that have returned. -/
structure LockedResolver where
  /-- The cache. -/
  names : NameCache
  /-- The thread that holds the lock. -/
  holder : Option ℕ
  /-- A holder has panicked. -/
  poisoned : Bool
  /-- The call that each thread is in, if any. -/
  thread : ℕ → Option LockedThread
  /-- The calls that have returned, oldest first. -/
  answered : List Answered

/-- What happens next. -/
inductive LockAction
  /-- A thread calls `name_for_uid`. -/
  | begin (t : ℕ) (uid : UInt32)
  /-- A thread takes the next step of its call; a lookup gives the outcome. -/
  | step (t : ℕ) (outcome : Lookup)
  /-- A thread panics in its call; unwinding releases the lock, and poisons it. -/
  | panic (t : ℕ)

namespace LockedThread

/-- The call after an operation. -/
def after (c : LockedThread) (names : NameCache) (outcome : Lookup) (call : LockCall)
    (pc : LockPc) : LockedThread :=
  match call with
  | .get uid => { c with pc := pc, seen := names uid }
  | .fromUid _ => { c with pc := pc, own := some outcome }
  | _ => { c with pc := pc }

/-- The call in the model without a lock. -/
def unlocked (c : LockedThread) : NameThread := ⟨c.uid, c.pc.unlocked, c.seen, c.own⟩

end LockedThread

namespace LockedResolver

/-- Nothing has been resolved, nobody holds the lock, and no thread is in a call. -/
def empty : LockedResolver := ⟨fun _ => none, none, false, fun _ => none, []⟩

/-- An operation of a thread, if it need not wait for the lock. -/
def perform (r : LockedResolver) (t : ℕ) (outcome : Lookup) :
    (c : LockCall) → Option (c.Reply × LockedResolver)
  | .lock => if r.holder = none then some (r.poisoned, { r with holder := some t }) else none
  | .unlock => some ((), { r with holder := none })
  | .get uid => some (r.names uid, r)
  | .fromUid _ => some (outcome, r)
  | .insert uid resolved =>
    some ((), { r with names := Function.update r.names uid (some resolved) })

/-- Change what is known of a thread. -/
def setThread (r : LockedResolver) (t : ℕ) (c : Option LockedThread) : LockedResolver :=
  { r with thread := Function.update r.thread t c }

/-- One action, or `none` if it cannot happen here. -/
def step (r : LockedResolver) : LockAction → Option LockedResolver
  | .begin t uid =>
    match r.thread t with
    | none => some (r.setThread t (some ⟨uid, .lockRead, none, none, false⟩))
    | some _ => none
  | .step t outcome =>
    match r.thread t with
    | none => none
    | some c =>
      if c.gone then none
      else
        match c.pc.next c.uid with
        | .ret result => some
            { r.setThread t none with answered := r.answered ++ [⟨c.uid, c.seen, c.own, result⟩] }
        | .call call succ => (r.perform t outcome call).map fun out =>
            out.2.setThread t (some (c.after r.names outcome call (succ out.1)))
  | .panic t =>
    match r.thread t with
    | none => none
    | some c =>
      if c.gone then none
      else some
        { r.setThread t (some { c with gone := true }) with
          holder := if r.holder = some t then none else r.holder
          poisoned := r.poisoned || r.holder == some t }

/-- The model without a lock: a thread that has panicked never takes another step there. -/
def unlocked (r : LockedResolver) : Resolver :=
  ⟨r.names, fun t => (r.thread t).map LockedThread.unlocked, r.answered⟩

/-- What is seen of an action without the lock. -/
def label (r : LockedResolver) : LockAction → Option NameAction
  | .begin t uid => some (.begin t uid)
  | .step t outcome =>
    if (r.thread t).any fun c => c.pc.visible then some (.step t outcome) else none
  | .panic _ => none

section Steps

variable {r r' : LockedResolver} {act : LockAction} {t : ℕ} {outcome : Lookup} {c c' : LockedThread}

/-- What an operation of a call does: it takes the lock, gives it back, or does what the model
without a lock does. -/
inductive Steps (r : LockedResolver) (t : ℕ) (outcome : Lookup) (c : LockedThread) :
    LockedThread → LockedResolver → Prop
  | enters {pc : LockPc} : r.holder = none → c.pc.inside = false → pc.inside = true →
      c.pc.visible = false → pc.unlocked = c.pc.unlocked →
      Steps r t outcome c { c with pc := pc } { r with holder := some t }
  | leaves {pc : LockPc} : c.pc.inside = true → pc.inside = false →
      c.pc.visible = false → pc.unlocked = c.pc.unlocked →
      Steps r t outcome c { c with pc := pc } { r with holder := none }
  | works {c' : LockedThread} {names : NameCache} : c'.pc.inside = c.pc.inside →
      c'.gone = c.gone → c.pc.visible = true →
      Resolver.Goes r.names outcome c.unlocked c'.unlocked names →
      Steps r t outcome c c' { r with names := names }

/-- Every operation does one of these things. -/
theorem steps_of_next {call : LockCall} {succ : call.Reply → LockPc}
    {out : call.Reply × LockedResolver}
    (hnext : c.pc.next c.uid = .call call succ) (hout : r.perform t outcome call = some out) :
    Steps r t outcome c (c.after r.names outcome call (succ out.1)) out.2 := by
  obtain ⟨uid, pc, seen, own, gone⟩ := c
  cases pc with
  | lockRead | lockInsert resolved =>
    cases hnext
    simp only [perform] at hout
    split at hout
    · rename_i hfree
      cases hout
      exact .enters hfree rfl rfl rfl rfl
    · cases hout
  | unlockHit cached | unlockMiss | unlockInserted resolved =>
    cases hnext
    cases hout
    exact .leaves rfl rfl rfl rfl
  | get =>
    cases hnext
    cases hout
    cases hnames : r.names uid with
    | some v =>
      simp only [LockedThread.after, hnames]
      exact .works rfl rfl rfl (.hit hnames)
    | none =>
      simp only [LockedThread.after, hnames]
      exact .works rfl rfl rfl (.miss hnames)
  | fromUid =>
    cases hnext
    cases hout
    cases hlooked : lookedUp outcome with
    | some v =>
      simp only [LockedThread.after, hlooked]
      exact .works rfl rfl rfl (.found hlooked)
    | none =>
      simp only [LockedThread.after, hlooked]
      exact .works rfl rfl rfl (.failed hlooked)
  | insert resolved =>
    cases hnext
    cases hout
    exact .works rfl rfl rfl .inserted
  | returned result => cases hnext

/-- What an action does. -/
inductive Stepped (r : LockedResolver) : LockAction → LockedResolver → Prop
  | begun {t : ℕ} {uid : UInt32} : r.thread t = none →
      Stepped r (.begin t uid) (r.setThread t (some ⟨uid, .lockRead, none, none, false⟩))
  | ended {t : ℕ} {outcome : Lookup} {c : LockedThread} {result : Option String} :
      r.thread t = some c → c.gone = false → c.pc = .returned result → Stepped r (.step t outcome)
        { r.setThread t none with answered := r.answered ++ [⟨c.uid, c.seen, c.own, result⟩] }
  | goes {t : ℕ} {outcome : Lookup} {c c' : LockedThread} {r' : LockedResolver} :
      r.thread t = some c → c.gone = false → Steps r t outcome c c' r' →
      Stepped r (.step t outcome) (r'.setThread t (some c'))
  | unwound {t : ℕ} {c : LockedThread} : r.thread t = some c → c.gone = false →
      Stepped r (.panic t)
        { r.setThread t (some { c with gone := true }) with
          holder := if r.holder = some t then none else r.holder
          poisoned := r.poisoned || r.holder == some t }

/-- **Step specification.** Every action does one of these things. -/
theorem stepped_of_step (h : r.step act = some r') : Stepped r act r' := by
  cases act with
  | begin t uid =>
    simp only [step] at h
    split at h
    · rename_i hfree
      cases h
      exact .begun hfree
    · cases h
  | step t outcome =>
    simp only [step] at h
    split at h
    · cases h
    · rename_i c hthread
      split at h
      · cases h
      · rename_i hgone
        have hgone : c.gone = false := by simpa using hgone
        cases hnext : c.pc.next c.uid with
        | ret result =>
          rw [hnext] at h
          cases h
          have hpc : c.pc = .returned result := by
            cases hpc : c.pc <;> rw [hpc] at hnext <;> cases hnext
            rfl
          exact .ended hthread hgone hpc
        | call call succ =>
          rw [hnext] at h
          obtain ⟨out, hout, rfl⟩ := Option.map_eq_some_iff.mp h
          exact .goes hthread hgone (steps_of_next hnext hout)
  | panic t =>
    simp only [step] at h
    split at h
    · cases h
    · rename_i c hthread
      split at h
      · cases h
      · rename_i hgone
        cases h
        exact .unwound hthread (by simpa using hgone)

/-! ### The model without the lock -/

theorem unlocked_setThread (r : LockedResolver) (t : ℕ) (c : Option LockedThread) :
    (r.setThread t c).unlocked =
      { r.unlocked with
        thread := Function.update r.unlocked.thread t (c.map LockedThread.unlocked) } := by
  have hthread : (fun s => (Function.update r.thread t c s).map LockedThread.unlocked) =
      Function.update (fun s => (r.thread s).map LockedThread.unlocked) t
        (c.map LockedThread.unlocked) := by
    funext s
    by_cases hs : s = t
    · subst s
      simp
    · simp [hs]
  simp only [unlocked, setThread, hthread]

/-- What leaves a call where it is cannot be seen. -/
theorem unlocked_setThread_self (hthread : r.thread t = some c) (hsame : c'.unlocked = c.unlocked) :
    (r.setThread t (some c')).unlocked = r.unlocked := by
  have hheld : r.unlocked.thread t = some c.unlocked := by simp [unlocked, hthread]
  rw [unlocked_setThread, Option.map_some, hsame, ← hheld, Function.update_eq_self]

/-- What a call can do, the model without a lock does. -/
theorem step_of_goes {s : Resolver} {d d' : NameThread} {names : NameCache}
    (hthread : s.thread t = some d) (hgoes : Resolver.Goes s.names outcome d d' names) :
    s.step (.step t outcome) =
      some { s with names := names, thread := Function.update s.thread t (some d') } := by
  simp only [Resolver.step, hthread]
  cases hgoes with
  | hit hheld | miss hheld => simp [NamePc.next, NameCall.exec, NameThread.after, hheld]
  | failed hlooked | found hlooked => simp [NamePc.next, NameCall.exec, NameThread.after, hlooked]
  | inserted => rfl

/-- **Step lemma.** What is seen of an action is a step without the lock. -/
theorem follows_of_step (hstep : r.step act = some r') :
    Follows Resolver.step r.unlocked (r.label act) r'.unlocked := by
  cases stepped_of_step hstep with
  | @begun t uid hfree =>
    have hnone : r.unlocked.thread t = none := by simp [unlocked, hfree]
    apply Runs.follows_some
    simp only [Resolver.step, hnone, unlocked_setThread]
    rfl
  | @ended t outcome c result hthread hgone hpc =>
    have hheld : r.unlocked.thread t = some c.unlocked := by simp [unlocked, hthread]
    have hlabel : r.label (.step t outcome) = some (.step t outcome) := by
      simp [label, hthread, hpc, LockPc.visible]
    have hnext : c.unlocked.pc.next c.unlocked.uid = .ret result := by
      simp only [LockedThread.unlocked, hpc]
      rfl
    rw [hlabel]
    apply Runs.follows_some
    simp only [Resolver.step, hheld, hnext]
    show _ = some (⟨r.names, (r.setThread t none).unlocked.thread, _⟩ : Resolver)
    rw [unlocked_setThread]
    rfl
  | @goes t outcome c c' r₁ hthread hgone hsteps =>
    have hheld : r.unlocked.thread t = some c.unlocked := by simp [unlocked, hthread]
    cases hsteps with
    | @enters pc _ _ _ hhidden hsame | @leaves pc _ _ hhidden hsame =>
      have hlabel : r.label (.step t outcome) = none := by simp [label, hthread, hhidden]
      have hcall : ({ c with pc := pc } : LockedThread).unlocked = c.unlocked := by
        simp only [LockedThread.unlocked, hsame]
      have hunseen : (r.setThread t (some { c with pc := pc })).unlocked = r.unlocked :=
        unlocked_setThread_self hthread hcall
      rw [hlabel]
      show Follows Resolver.step r.unlocked none (r.setThread t (some { c with pc := pc })).unlocked
      rw [hunseen]
      exact Runs.follows_none
    | works _ _ hvisible hgoes =>
      have hlabel : r.label (.step t outcome) = some (.step t outcome) := by
        simp [label, hthread, hvisible]
      rw [hlabel, unlocked_setThread]
      exact Runs.follows_some (step_of_goes hheld hgoes)
  | @unwound t c hthread hgone =>
    have hsame : (r.setThread t (some { c with gone := true })).unlocked = r.unlocked :=
      unlocked_setThread_self hthread rfl
    show Follows Resolver.step r.unlocked none
      (r.setThread t (some { c with gone := true })).unlocked
    rw [hsame]
    exact Runs.follows_none

/-! ### One holder at a time -/

/-- A thread is between locking and unlocking. -/
def Inside (r : LockedResolver) (t : ℕ) : Prop :=
  ∃ c, r.thread t = some c ∧ c.gone = false ∧ c.pc.inside = true

/-- The thread that holds the lock is the one that is inside. -/
def Exclusive (r : LockedResolver) : Prop := ∀ t, r.holder = some t ↔ r.Inside t

theorem inside_setThread {s : ℕ} {c : Option LockedThread} : (r.setThread t c).Inside s ↔
    if s = t then ∃ d, c = some d ∧ d.gone = false ∧ d.pc.inside = true else r.Inside s := by
  unfold Inside setThread
  by_cases hs : s = t
  · subst s
    simp
  · simp [hs]

/-- **Step lemma.** There is one holder at a time. -/
theorem Exclusive.step (h : r.Exclusive) (hstep : r.step act = some r') : r'.Exclusive := by
  intro s
  have hs := h s
  cases stepped_of_step hstep with
  | @begun t uid hfree =>
    have hout : ¬r.Inside t := by simp [Inside, hfree]
    show r.holder = some s ↔ _
    rw [inside_setThread]
    split
    · subst s
      simpa [hout, LockPc.inside] using hs
    · exact hs
  | @ended t outcome c result hthread hgone hpc =>
    have hout : ¬r.Inside t := by simp [Inside, hthread, hpc, LockPc.inside]
    show r.holder = some s ↔ (r.setThread t none).Inside s
    rw [inside_setThread]
    split
    · subst s
      simpa [hout] using hs
    · exact hs
  | @goes t outcome c c' r₁ hthread hgone hsteps =>
    rw [inside_setThread]
    cases hsteps with
    | @enters pc hfree _ hinside =>
      split
      · subst s
        simp [setThread, hgone, hinside]
      · rename_i hne
        have hout : ¬r.Inside s := by
          rw [← hs, hfree]
          nofun
        have hne : t ≠ s := fun heq => hne heq.symm
        simp only [setThread, Option.some.injEq, hne, false_iff]
        exact hout
    | @leaves pc hinside houtside =>
      have hheld : r.holder = some t := (h t).mpr ⟨c, hthread, hgone, hinside⟩
      split
      · subst s
        simp [setThread, houtside]
      · rename_i hne
        have hout : ¬r.Inside s := by
          rw [← hs, hheld, Option.some.injEq]
          exact fun heq => hne heq.symm
        simp only [setThread, reduceCtorEq, false_iff]
        exact hout
    | @works _ names hsame hstays =>
      show r.holder = some s ↔ _
      split
      · subst s
        simp only [hs, Inside, hthread, Option.some.injEq, exists_eq_left', hsame, hstays]
      · exact hs
  | @unwound t c hthread hgone =>
    show (if r.holder = some t then none else r.holder) = some s ↔ (r.setThread t _).Inside s
    rw [inside_setThread]
    split
    · rename_i hheld
      split
      · simp
      · rename_i hne
        have hout : ¬r.Inside s := by
          rw [← hs, hheld, Option.some.injEq]
          exact fun heq => hne heq.symm
        simp [hout]
    · rename_i hother
      split
      · subst s
        simp [hother]
      · exact hs

/-! ### Runs -/

theorem empty_exclusive : Exclusive empty := fun t => by simp [Inside, empty]

/-- A lookup that succeeds gives the uid's one answer. -/
def Consistent (answer : UInt32 → Option User) (r : LockedResolver) (act : LockAction) : Prop :=
  ∀ t user c, act = .step t (.ok user) → r.thread t = some c → c.pc = .fromUid → user = answer c.uid

variable {answer : UInt32 → Option User}

/-- Consistent lookups are consistent without the lock. -/
theorem Consistent.unlocked {b : NameAction} (h : Consistent answer r act)
    (hb : r.label act = some b) : Resolver.Consistent answer r.unlocked b := by
  rintro t user d rfl hd hpc
  cases act with
  | begin s uid => cases hb
  | panic s => cases hb
  | step s outcome =>
    simp only [label] at hb
    split at hb
    · rename_i hvisible
      cases hb
      obtain ⟨c, hthread, rfl⟩ := Option.map_eq_some_iff.mp hd
      rw [hthread, Option.any_some] at hvisible
      have hpc : c.pc = .fromUid := by
        cases hat : c.pc <;> simp_all [LockedThread.unlocked, LockPc.unlocked, LockPc.visible]
      exact h t user c rfl hthread hpc
    · cases hb

/-- **The lock refines.** Let any number of threads call `name_for_uid`, take its lock in any
order, and panic anywhere in it. Then what is seen of them without the lock is a run of the
model without it; whoever holds the lock is the one thread between locking and unlocking, and
is not waiting for the name service; and as long as successful lookups agree for each uid, the
cache only holds right answers and every call that has returned has returned what it should. -/
theorem locked_resolver_refines {as : List LockAction} (hrun : Runs.run step empty as = some r) :
    Runs.run Resolver.step Resolver.empty (Runs.seen step label empty as) = some r.unlocked ∧
      (∀ t, r.holder = some t ↔ r.Inside t) ∧
      (∀ t c, r.holder = some t → r.thread t = some c → c.pc ≠ .fromUid) ∧
      ∀ answer, EveryStep step (fun r act _ => Consistent answer r act) empty as →
        (∀ uid v, r.names uid = some v → v = Resolver.nameOf answer uid) ∧
        ∀ x ∈ r.answered, Resolver.Right answer x := by
  have hexclusive : r.Exclusive := Runs.run_invariant_of_forall
    (fun _ _ _ h hstep => h.step hstep) empty_exclusive hrun
  refine ⟨?_, hexclusive, fun t c hheld hthread hpc => ?_, fun answer hagree => ?_⟩
  · exact Runs.run_seen (I := fun _ => True) (P := fun _ _ _ => True) (fun _ _ _ _ _ _ => trivial)
      (fun _ _ _ _ _ hstep => follows_of_step hstep) trivial
      (Runs.everyStep_of_forall (fun _ _ _ _ => trivial) _ _) hrun
  · obtain ⟨d, hd, -, hinside⟩ := (hexclusive t).mp hheld
    cases hthread.symm.trans hd
    rw [hpc] at hinside
    cases hinside
  · have hpres : ∀ r act r', Resolver.Agrees answer r.unlocked → Consistent answer r act →
        step r act = some r' → Resolver.Agrees answer r'.unlocked :=
      fun r act r' h hact hstep => (follows_of_step hstep).invariant h
        fun _ _ hb hseen => h.step (hact.unlocked hb) hseen
    have hall := Runs.run_invariant hpres Resolver.empty_agrees hagree hrun
    exact ⟨hall.names, hall.answered⟩

/-! ### Slow lookups -/

/-- Threads take steps one after another, none of which is a lookup. -/
inductive Walks : LockedResolver → List ℕ → LockedResolver → Prop
  | nil (r : LockedResolver) : Walks r [] r
  | cons {r r₁ r' : LockedResolver} {t : ℕ} {ts : List ℕ} {c : LockedThread} :
      r.thread t = some c → c.pc ≠ .fromUid → (∀ outcome, r.step (.step t outcome) = some r₁) →
      Walks r₁ ts r' → Walks r (t :: ts) r'

theorem Walks.append {r₁ : LockedResolver} {ts ts' : List ℕ} (h : Walks r ts r₁)
    (h' : Walks r₁ ts' r') : Walks r (ts ++ ts') r' := by
  induction h with
  | nil => exact h'
  | cons hthread hpc hstep _ ih => exact .cons hthread hpc hstep (ih h')

section Calls

variable (outcome) (hthread : r.thread t = some c) (hgone : c.gone = false)
include hthread hgone

/-- A call locks, if nobody holds the lock. -/
theorem step_lock {succ : Bool → LockPc} (hnext : c.pc.next c.uid = .call .lock succ)
    (hfree : r.holder = none) : r.step (.step t outcome) =
      some ({ r with holder := some t }.setThread t (some { c with pc := succ r.poisoned })) := by
  simp [step, hthread, hgone, hnext, perform, hfree, LockedThread.after]

/-- A call unlocks. -/
theorem step_unlock {succ : Unit → LockPc} (hnext : c.pc.next c.uid = .call .unlock succ) :
    r.step (.step t outcome) =
      some ({ r with holder := none }.setThread t (some { c with pc := succ () })) := by
  simp [step, hthread, hgone, hnext, perform, LockedThread.after]

/-- A call reads the cache. -/
theorem step_get {uid : UInt32} {succ : Option (Option String) → LockPc}
    (hnext : c.pc.next c.uid = .call (.get uid) succ) : r.step (.step t outcome) =
      some (r.setThread t (some { c with pc := succ (r.names uid), seen := r.names uid })) := by
  simp [step, hthread, hgone, hnext, perform, LockedThread.after]

/-- A call inserts what it has learned. -/
theorem step_insert {uid : UInt32} {resolved : Option String} {succ : Unit → LockPc}
    (hnext : c.pc.next c.uid = .call (.insert uid resolved) succ) : r.step (.step t outcome) =
      some ({ r with names := Function.update r.names uid (some resolved) }.setThread t
        (some { c with pc := succ () })) := by
  simp [step, hthread, hgone, hnext, perform, LockedThread.after]

/-- A call returns. -/
theorem step_return {result : Option String} (hnext : c.pc.next c.uid = .ret result) :
    r.step (.step t outcome) = some
      { r.setThread t none with answered := r.answered ++ [⟨c.uid, c.seen, c.own, result⟩] } := by
  simp [step, hthread, hgone, hnext]

end Calls

@[simp] theorem thread_setThread : (r.setThread t (some c)).thread t = some c :=
  Function.update_self ..

/-- What a thread does to the others and to the cache on its way out of the lock: nothing, but
that it may put something into the cache. -/
structure Frees (r : LockedResolver) (t : ℕ) (r' : LockedResolver) : Prop where
  /-- The lock is free. -/
  holder : r'.holder = none
  /-- The other threads are where they were. -/
  thread : ∀ u, u ≠ t → r'.thread u = r.thread u
  /-- No call has returned. -/
  answered : r'.answered = r.answered
  /-- Nothing has been taken out of the cache. -/
  names : ∀ uid, r.names uid ≠ none → r'.names uid ≠ none

/-- A thread that is about to unlock does so. -/
theorem walks_of_unlock {succ : Unit → LockPc} (hthread : r.thread t = some c)
    (hgone : c.gone = false) (hnext : c.pc.next c.uid = .call .unlock succ) :
    ∃ r', Walks r [t] r' ∧ Frees r t r' := by
  have hpc : c.pc ≠ .fromUid := by
    intro hpc
    rw [hpc] at hnext
    cases hnext
  have hunlock (outcome : Lookup) := step_unlock outcome hthread hgone hnext
  refine ⟨_, .cons hthread hpc hunlock (.nil _), ?_⟩
  exact ⟨rfl, fun u hu => Function.update_of_ne hu .., rfl, fun _ hu => hu⟩

/-- The holder gives the lock back within two steps. -/
theorem Inside.frees (h : r.Inside t) : ∃ ts r', Walks r ts r' ∧ ts.length ≤ 2 ∧
    (∀ u ∈ ts, u = t) ∧ Frees r t r' := by
  obtain ⟨⟨uid, pc, seen, own, gone⟩, hthread, rfl, hinside⟩ := h
  cases pc with
  | unlockHit cached | unlockMiss | unlockInserted resolved =>
    obtain ⟨r', hwalks, hfrees⟩ := walks_of_unlock hthread rfl rfl
    exact ⟨[t], r', hwalks, by simp, by simp, hfrees⟩
  | get =>
    have hget (outcome : Lookup) := step_get outcome hthread rfl rfl
    have hunlock : ∃ succ, (LockPc.afterGet (r.names uid)).next uid = .call .unlock succ := by
      cases r.names uid <;> exact ⟨_, rfl⟩
    obtain ⟨succ, hnext⟩ := hunlock
    obtain ⟨r', hwalks, hfrees⟩ :=
      walks_of_unlock
        (r := r.setThread t (some ⟨uid, .afterGet (r.names uid), r.names uid, own, false⟩))
        thread_setThread rfl hnext
    refine ⟨[t, t], r', .cons hthread nofun hget hwalks, by simp, by simp, ?_⟩
    refine ⟨hfrees.holder, fun u hu => ?_, hfrees.answered, hfrees.names⟩
    rw [hfrees.thread u hu]
    exact Function.update_of_ne hu ..
  | insert resolved =>
    have hinsert (outcome : Lookup) := step_insert outcome hthread rfl rfl
    obtain ⟨r', hwalks, hfrees⟩ :=
      walks_of_unlock (c := ⟨uid, .unlockInserted resolved, seen, own, false⟩)
        thread_setThread rfl rfl
    refine ⟨[t, t], r', .cons hthread nofun hinsert hwalks, by simp, by simp, ?_⟩
    refine ⟨hfrees.holder, fun u hu => ?_, hfrees.answered, fun u hu => hfrees.names u ?_⟩
    · rw [hfrees.thread u hu]
      exact Function.update_of_ne hu ..
    · show Function.update r.names uid (some resolved) u ≠ none
      by_cases heq : u = uid
      · simp [heq]
      · simpa [heq] using hu
  | lockRead | fromUid | lockInsert resolved | returned result => cases hinside

/-- With the lock free, a call for a uid in the cache returns after four steps. -/
theorem walks_of_cached (hfree : r.holder = none) (hthread : r.thread t = some c)
    (hgone : c.gone = false) (hpc : c.pc = .lockRead) {v : Option String}
    (hv : r.names c.uid = some v) :
    ∃ r', Walks r [t, t, t, t] r' ∧ r'.answered = r.answered ++ [⟨c.uid, some v, c.own, v⟩] := by
  obtain ⟨uid, pc, seen, own, gone⟩ := c
  obtain rfl : pc = .lockRead := hpc
  obtain rfl : gone = false := hgone
  have hv : r.names uid = some v := hv
  -- It locks, reads, unlocks and returns.
  obtain ⟨r₁, hlock, hthread₁, hv₁, hanswered₁⟩ : ∃ r₁,
      (∀ outcome, r.step (.step t outcome) = some r₁) ∧
      r₁.thread t = some ⟨uid, .get, seen, own, false⟩ ∧ r₁.names uid = some v ∧
      r₁.answered = r.answered :=
    ⟨_, fun outcome => step_lock outcome hthread rfl rfl hfree, thread_setThread, hv, rfl⟩
  obtain ⟨r₂, hget, hthread₂, hanswered₂⟩ : ∃ r₂,
      (∀ outcome, r₁.step (.step t outcome) = some r₂) ∧
      r₂.thread t = some ⟨uid, .unlockHit v, some v, own, false⟩ ∧ r₂.answered = r₁.answered := by
    refine ⟨_, fun outcome => step_get outcome hthread₁ rfl rfl, ?_, rfl⟩
    simp [hv₁, LockPc.afterGet]
  obtain ⟨r₃, hunlock, hthread₃, hanswered₃⟩ : ∃ r₃,
      (∀ outcome, r₂.step (.step t outcome) = some r₃) ∧
      r₃.thread t = some ⟨uid, .returned v, some v, own, false⟩ ∧ r₃.answered = r₂.answered :=
    ⟨_, fun outcome => step_unlock outcome hthread₂ rfl rfl, thread_setThread, rfl⟩
  have hreturn (outcome : Lookup) := step_return outcome hthread₃ rfl rfl
  refine ⟨_, .cons hthread nofun hlock <| .cons hthread₁ nofun hget <|
    .cons hthread₂ nofun hunlock <| .cons hthread₃ nofun hreturn <| .nil _, ?_⟩
  show r₃.answered ++ _ = _
  rw [hanswered₃, hanswered₂, hanswered₁]

/-- **Slow lookups keep nobody waiting.** In every state that any number of threads can reach,
wherever some have panicked and however many wait for the name service, a call that is about to
read the cache for a uid which the cache knows returns after at most six steps, of its own and of
the thread that holds the lock, none of which is a lookup. -/
theorem slow_lookups_block_nobody {as : List LockAction} (hrun : Runs.run step empty as = some r)
    (hthread : r.thread t = some c) (hgone : c.gone = false) (hpc : c.pc = .lockRead)
    (hcached : r.names c.uid ≠ none) :
    ∃ ts r' v, Walks r ts r' ∧ ts.length ≤ 6 ∧ (∀ s ∈ ts, s = t ∨ r.holder = some s) ∧
      r'.answered = r.answered ++ [⟨c.uid, some v, c.own, v⟩] := by
  have hexclusive : r.Exclusive := Runs.run_invariant_of_forall
    (fun _ _ _ h hstep => h.step hstep) empty_exclusive hrun
  cases hholder : r.holder with
  | none =>
    obtain ⟨v, hv⟩ := Option.ne_none_iff_exists'.mp hcached
    obtain ⟨r', hwalks, hanswered⟩ := walks_of_cached hholder hthread hgone hpc hv
    exact ⟨[t, t, t, t], r', v, hwalks, by simp, by simp, hanswered⟩
  | some s =>
    obtain ⟨ts, r₁, hwalks, hlength, hall, hfrees⟩ := ((hexclusive s).mp hholder).frees
    have hne : t ≠ s := by
      rintro rfl
      obtain ⟨d, hd, -, hinside⟩ := (hexclusive t).mp hholder
      cases hthread.symm.trans hd
      rw [hpc] at hinside
      cases hinside
    obtain ⟨v, hv⟩ := Option.ne_none_iff_exists'.mp (hfrees.names _ hcached)
    obtain ⟨r', hrest, hanswered⟩ :=
      walks_of_cached hfrees.holder ((hfrees.thread t hne).trans hthread) hgone hpc hv
    refine ⟨ts ++ [t, t, t, t], r', v, hwalks.append hrest, ?_, fun u hu => ?_, ?_⟩
    · rw [List.length_append]
      simpa using hlength
    · rcases List.mem_append.mp hu with hu | hu
      · exact .inr (by rw [hall u hu])
      · exact .inl (by simpa using hu)
    · rw [hanswered, hfrees.answered]

/-- A thread panics under the lock, another one resolves a name all the same, a third one waits
for the name service, and a fourth one asks for the name. -/
def slowService : List LockAction :=
  [.begin 0 7, .step 0 (.error ""), .panic 0, .begin 1 7, .step 1 (.error ""), .step 1 (.error ""),
    .step 1 (.error ""), .step 1 (.ok (some ⟨"echod"⟩)), .step 1 (.error ""), .step 1 (.error ""),
    .step 1 (.error ""), .step 1 (.error ""), .begin 2 9, .step 2 (.error ""), .step 2 (.error ""),
    .step 2 (.error ""), .begin 3 7]

/-- Without the lock, nothing is seen of the panic but that its thread goes no further. -/
theorem locked_resolver_refines_slow : ∃ r, Runs.run step empty slowService = some r ∧
    r.poisoned = true ∧
    Runs.run Resolver.step Resolver.empty (Runs.seen step label empty slowService) =
      some r.unlocked := by
  obtain ⟨r, hrun, hpoisoned⟩ : ∃ r, Runs.run step empty slowService = some r ∧
    r.poisoned = true := ⟨_, rfl, rfl⟩
  exact ⟨r, hrun, hpoisoned, (locked_resolver_refines hrun).1⟩

/-- The fourth thread gets the name while the third one waits. -/
theorem slow_lookups_block_nobody_slow : ∃ r, Runs.run step empty slowService = some r ∧
    (r.thread 2).map LockedThread.pc = some .fromUid ∧ ∃ ts r' v, Walks r ts r' ∧ ts.length ≤ 6 ∧
      r'.answered = r.answered ++ [⟨7, some v, none, v⟩] := by
  obtain ⟨r, hrun, hwaits, hthread, hcached⟩ : ∃ r, Runs.run step empty slowService = some r ∧
      (r.thread 2).map LockedThread.pc = some .fromUid ∧
      r.thread 3 = some ⟨7, .lockRead, none, none, false⟩ ∧ r.names 7 = some (some "echod") :=
    ⟨_, rfl, rfl, rfl, rfl⟩
  obtain ⟨ts, r', v, hwalks, hlength, -, hanswered⟩ :=
    slow_lookups_block_nobody hrun hthread rfl rfl (by simp [hcached])
  exact ⟨r, hrun, hwaits, ts, r', v, hwalks, hlength, hanswered⟩

end Steps

end LockedResolver

end UdsPolicy
