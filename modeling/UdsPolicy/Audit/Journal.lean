import UdsPolicy.General.Runs
import UdsPolicy.Audit.Operation

/-!
# The journal of many operations

Operations are begun, finished and dropped in any order, while time passes and
the name cache changes under them. Every operation keeps the label that it was
begun with, so its lines pair up whatever the account is called by then. The
journal of the model says of each line whose it is; nothing reads that but the
statements.
-/

namespace UdsPolicy

/-- How an operation has ended, if it has. -/
inductive Ending
  /-- The operation is in flight. -/
  | running
  /-- The operation was finished with this outcome at this time. -/
  | finished (failure : Option String) (now : ℕ)
  /-- The operation was dropped without being finished. -/
  | dropped
  deriving DecidableEq

/-- An operation, with what it was begun for. -/
structure Record where
  /-- The daemon's name. -/
  service : String
  /-- The call. -/
  call : Call
  /-- Who asked. -/
  caller : Caller
  /-- The operation that was begun. -/
  operation : Operation
  /-- How it has ended. -/
  ending : Ending

/-- The name cache, the time, the operations so far, and the journal with the owner of each
line, oldest first. -/
structure Trail where
  /-- The name cache. -/
  names : NameCache
  /-- The time. -/
  clock : ℕ
  /-- The operations that have been begun. -/
  records : ℕ → Option Record
  /-- The lines written. -/
  journal : List (ℕ × String)

/-- What happens next. -/
inductive TrailAction
  /-- An operation is begun; `lookup` is what the name service answers now. -/
  | begin (i : ℕ) (service : String) (call : Call) (caller : Caller) (lookup : UInt32 → Lookup)
  /-- An operation is finished. -/
  | finish (i : ℕ) (failure : Option String)
  /-- An operation is dropped without being finished. -/
  | drop (i : ℕ)
  /-- The name cache changes. -/
  | names (names : NameCache)
  /-- Time passes. -/
  | wait (nanos : ℕ)

/-- The operation that an action is about, if any. -/
def TrailAction.operation? : TrailAction → Option ℕ
  | .begin i _ _ _ _ | .finish i _ | .drop i => some i
  | .names _ | .wait _ => none

namespace Trail

/-- Nothing has been written, and no operation has been begun. -/
def empty : Trail := ⟨fun _ => none, 0, fun _ => none, []⟩

/-- The trail after an operation has written some lines. -/
def write (w : Trail) (i : ℕ) (r : Record) (lines : List String) : Trail :=
  { w with
    records := Function.update w.records i (some r)
    journal := w.journal ++ lines.map (i, ·) }

/-- One action, or `none` if it cannot happen here: an operation is begun once, and finishing
or dropping it consumes it. -/
def step (w : Trail) : TrailAction → Option Trail
  | .begin i service call caller lookup =>
    match w.records i with
    | some _ => none
    | none =>
      let begun := Operation.begin lookup service call caller w.clock w.names
      some { w.write i ⟨service, call, caller, begun.operation, .running⟩ begun.lines with
        names := begun.names }
  | .finish i failure =>
    match w.records i with
    | some ⟨service, call, caller, operation, .running⟩ =>
      some (w.write i ⟨service, call, caller, operation, .finished failure w.clock⟩
        (operation.finish failure w.clock))
    | _ => none
  | .drop i =>
    match w.records i with
    | some ⟨service, call, caller, operation, .running⟩ =>
      some (w.write i ⟨service, call, caller, operation, .dropped⟩ [])
    | _ => none
  | .names names => some { w with names := names }
  | .wait nanos => some { w with clock := w.clock + nanos }

/-- The lines of one operation, oldest first. -/
def linesOf (w : Trail) (i : ℕ) : List String :=
  (w.journal.filter (·.1 = i)).map (·.2)

section Lines

/-- The lines of an operation are those that the journal has for it. -/
theorem mem_linesOf {w : Trail} {i : ℕ} {line : String} :
    line ∈ w.linesOf i ↔ (i, line) ∈ w.journal := by
  simp [linesOf]

variable {w w' : Trail} {act : TrailAction} {i j : ℕ} {r : Record} {lines : List String}

@[simp] theorem records_write_self : (w.write i r lines).records i = some r := by
  simp [write]

theorem records_write_of_ne (h : j ≠ i) : (w.write i r lines).records j = w.records j := by
  simp [write, h]

/-- An operation's own lines are added to its lines. -/
@[simp] theorem linesOf_write_self :
    (w.write i r lines).linesOf i = w.linesOf i ++ lines := by
  have hall : ((lines.map fun line => (i, line)).filter (·.1 = i)) =
      lines.map fun line => (i, line) := by
    refine List.filter_eq_self.mpr fun x hx => ?_
    obtain ⟨line, -, rfl⟩ := List.mem_map.mp hx
    simp
  simp only [linesOf, write, List.filter_append, hall, List.map_append, List.map_map]
  simp [Function.comp_def]

/-- The lines of the other operations are left alone. -/
theorem linesOf_write_of_ne (h : j ≠ i) : (w.write i r lines).linesOf j = w.linesOf j := by
  have hnone : ((lines.map fun line => (i, line)).filter (·.1 = j)) = [] := by
    refine List.filter_eq_nil_iff.mpr fun x hx => ?_
    obtain ⟨line, -, rfl⟩ := List.mem_map.mp hx
    simpa using h.symm
  simp only [linesOf, write, List.filter_append, hnone, List.append_nil]

end Lines

end Trail

namespace Record

/-- What an operation with this label should have reported of its outcome, word for word. -/
def outcome (r : Record) (label : String) : List String :=
  match r.ending with
  | .running | .dropped => []
  | .finished none now =>
    [r.service ++ ": audit: ok " ++ label ++ " (" ++
      toString ((now - r.operation.started) / 1000000) ++ "ms)"]
  | .finished (some reason) now =>
    [r.service ++ ": audit: failed " ++ label ++ " (" ++
      toString ((now - r.operation.started) / 1000000) ++ "ms): " ++ boundAndFlatten 256 reason]

/-- The lines an operation should have, word for word: none for an unprivileged call; for a gated
one a single announcement with a label that names the call, its action and the caller, and then at
most one outcome with the very same label. -/
def Accounts (r : Record) (lines : List String) : Prop :=
  match r.call.authorization with
  | .unprivileged => lines = []
  | .policy action =>
    ∃ name label, label = r.call.object ++ "." ++ r.call.method ++ " action=" ++ action ++
        " by=" ++ r.caller.displayAs name ∧
      lines = (r.service ++ ": audit: begin " ++ label) :: r.outcome label

/-- The operation is the one that was begun for the call, and the lines are those it should
have with the label it holds. -/
def Paired (r : Record) (lines : List String) : Prop :=
  match r.call.authorization with
  | .unprivileged => r.operation.label = none ∧ lines = []
  | .policy action =>
    ∃ name label, label = labelOf r.call action (r.caller.displayAs name) ∧
      r.operation.service = r.service ∧ r.operation.label = some label ∧
      lines = beginLine r.service label :: r.outcome label

section Paired

variable {r : Record} {lines : List String} {service : String} {call : Call} {caller : Caller}
  {operation : Operation} {lookup : UInt32 → Lookup} {names : NameCache} {now : ℕ}

theorem Paired.accounts (h : r.Paired lines) : r.Accounts lines := by
  unfold Paired at h
  unfold Accounts
  cases hcall : r.call.authorization with
  | unprivileged =>
    rw [hcall] at h
    exact h.2
  | policy action =>
    rw [hcall] at h
    obtain ⟨name, label, hname, -, -, hlines⟩ := h
    exact ⟨name, label, hname, hlines⟩

/-- An operation is audited if and only if its call is gated. -/
theorem Paired.isAudited (h : r.Paired lines) : r.operation.isAudited = r.call.action.isSome := by
  unfold Paired at h
  unfold Call.action Operation.isAudited
  cases hcall : r.call.authorization with
  | unprivileged =>
    rw [hcall] at h
    simp only [h.1, Option.isSome_none]
  | policy action =>
    rw [hcall] at h
    obtain ⟨name, label, -, -, hlabel, -⟩ := h
    simp only [hlabel, Option.isSome_some]

/-- What `begin` writes is what the new operation should have. -/
theorem paired_begin (lookup : UInt32 → Lookup) (service : String) (call : Call) (caller : Caller)
    (now : ℕ) (names : NameCache) :
    let begun := Operation.begin lookup service call caller now names
    Paired ⟨service, call, caller, begun.operation, .running⟩ begun.lines := by
  intro begun
  unfold Paired
  cases hcall : call.authorization with
  | unprivileged =>
    have hbegun : begun = _ := Operation.begin_unprivileged hcall
    rw [hbegun]
    exact ⟨rfl, rfl⟩
  | policy action =>
    have hbegun : begun = _ := Operation.begin_policy hcall
    rw [hbegun]
    exact ⟨_, _, Operation.describe_fst, rfl, rfl, rfl⟩

/-- What `finish` writes completes the lines of an operation in flight. -/
theorem Paired.finish {failure : Option String}
    (h : Paired ⟨service, call, caller, operation, .running⟩ lines) :
    Paired ⟨service, call, caller, operation, .finished failure now⟩
      (lines ++ operation.finish failure now) := by
  unfold Paired at h ⊢
  cases hcall : call.authorization with
  | unprivileged =>
    simp only [hcall] at h ⊢
    obtain ⟨hlabel, rfl⟩ := h
    refine ⟨hlabel, ?_⟩
    simp only [Operation.finish, hlabel, List.append_nil]
  | policy action =>
    simp only [hcall] at h ⊢
    obtain ⟨name, label, hname, hservice, hlabel, rfl⟩ := h
    refine ⟨name, label, hname, hservice, hlabel, ?_⟩
    have hends : operation.finish failure now =
        outcome ⟨service, call, caller, operation, .finished failure now⟩ label := by
      cases failure with
      | none => simp only [Operation.finish, hlabel, hservice, okLine_eq, Operation.elapsedMillis,
          outcome]
      | some reason => simp only [Operation.finish, hlabel, hservice, failedLine_eq, bound,
          maxFailureChars, Operation.elapsedMillis, outcome]
    rw [hends]
    rfl

/-- Dropping an operation in flight leaves its announcement alone. -/
theorem Paired.drop (h : Paired ⟨service, call, caller, operation, .running⟩ lines) :
    Paired ⟨service, call, caller, operation, .dropped⟩ lines :=
  h

end Paired

end Record

namespace Trail

section Pairing

variable {w w' : Trail} {act : TrailAction} {i j : ℕ} {r : Record} {lines : List String}

/-- What an action does. -/
inductive Moved (w : Trail) : TrailAction → Trail → Prop
  | begun {i : ℕ} {service : String} {call : Call} {caller : Caller} {lookup : UInt32 → Lookup} :
      w.records i = none → Moved w (.begin i service call caller lookup)
        { w.write i ⟨service, call, caller,
              (Operation.begin lookup service call caller w.clock w.names).operation, .running⟩
            (Operation.begin lookup service call caller w.clock w.names).lines with
          names := (Operation.begin lookup service call caller w.clock w.names).names }
  | finished {i : ℕ} {failure : Option String} {service : String} {call : Call} {caller : Caller}
      {operation : Operation} :
      w.records i = some ⟨service, call, caller, operation, .running⟩ →
      Moved w (.finish i failure)
        (w.write i ⟨service, call, caller, operation, .finished failure w.clock⟩
          (operation.finish failure w.clock))
  | dropped {i : ℕ} {service : String} {call : Call} {caller : Caller} {operation : Operation} :
      w.records i = some ⟨service, call, caller, operation, .running⟩ →
      Moved w (.drop i) (w.write i ⟨service, call, caller, operation, .dropped⟩ [])
  | names {names : NameCache} : Moved w (.names names) { w with names := names }
  | wait {nanos : ℕ} : Moved w (.wait nanos) { w with clock := w.clock + nanos }

/-- **Step specification.** Every action does one of these things. -/
theorem moved_of_step (h : w.step act = some w') : Moved w act w' := by
  cases act with
  | begin i service call caller lookup =>
    simp only [step] at h
    split at h
    · cases h
    · rename_i hfresh
      cases h
      exact .begun hfresh
  | finish i failure =>
    simp only [step] at h
    split at h
    · rename_i hrunning
      cases h
      exact .finished hrunning
    · cases h
  | drop i =>
    simp only [step] at h
    split at h
    · rename_i hrunning
      cases h
      exact .dropped hrunning
    · cases h
  | names names =>
    cases h
    exact .names
  | wait nanos =>
    cases h
    exact .wait

/-- The invariant: the lines of every operation are those it should have. -/
structure Kept (w : Trail) : Prop where
  /-- What has not been begun has no lines. -/
  fresh : ∀ i, w.records i = none → w.linesOf i = []
  /-- What has been begun has the lines it should have. -/
  begun : ∀ i r, w.records i = some r → r.Paired (w.linesOf i)

/-- Writing lines that complete those of their operation keeps the invariant. -/
theorem Kept.write (h : Kept w) (hr : r.Paired (w.linesOf i ++ lines)) :
    Kept (w.write i r lines) := by
  refine ⟨fun j hj => ?_, fun j s hj => ?_⟩
  · by_cases hji : j = i
    · subst j
      simp at hj
    · rw [records_write_of_ne hji] at hj
      rw [linesOf_write_of_ne hji]
      exact h.fresh j hj
  · by_cases hji : j = i
    · subst j
      rw [records_write_self] at hj
      rw [linesOf_write_self]
      exact Option.some.inj hj ▸ hr
    · rw [records_write_of_ne hji] at hj
      rw [linesOf_write_of_ne hji]
      exact h.begun j s hj

/-- **Step lemma.** Every action keeps the invariant. -/
theorem Kept.step (h : Kept w) (hstep : w.step act = some w') : Kept w' := by
  cases moved_of_step hstep with
  | @begun i service call caller lookup hfresh =>
    have hlines := Record.paired_begin lookup service call caller w.clock w.names
    have hkept : Kept (w.write i _ _) := h.write (by rw [h.fresh i hfresh]; exact hlines)
    exact ⟨hkept.fresh, hkept.begun⟩
  | finished hrunning => exact h.write (h.begun _ _ hrunning).finish
  | dropped hrunning =>
    apply h.write
    rw [List.append_nil]
    exact (h.begun _ _ hrunning).drop
  | names => exact ⟨h.fresh, h.begun⟩
  | wait => exact ⟨h.fresh, h.begun⟩

/-- The record of an operation tells what the schedule did with it: by whom and for what it was
begun, and whether and with which outcome it was finished. -/
def Tells (as : List TrailAction) (i : ℕ) : Option Record → Prop
  | none =>
    (∀ service call caller lookup, .begin i service call caller lookup ∉ as) ∧
      ∀ failure, .finish i failure ∉ as
  | some r =>
    (∀ service call caller, (∃ lookup, .begin i service call caller lookup ∈ as) ↔
      service = r.service ∧ call = r.call ∧ caller = r.caller) ∧
      ∀ failure, .finish i failure ∈ as ↔ ∃ now, r.ending = .finished failure now

/-- What happens to other operations changes nothing about this one. -/
theorem Tells.other {as : List TrailAction} {o : Option Record} (h : Tells as i o)
    (hact : act.operation? ≠ some i) : Tells (as ++ [act]) i o := by
  have hbegin {service call caller lookup} : .begin i service call caller lookup ∈ as ++ [act] ↔
      .begin i service call caller lookup ∈ as := by
    have hne : TrailAction.begin i service call caller lookup ≠ act := fun h => hact (h ▸ rfl)
    simp [hne]
  have hfinish {failure} : .finish i failure ∈ as ++ [act] ↔ .finish i failure ∈ as := by
    have hne : TrailAction.finish i failure ≠ act := fun h => hact (h ▸ rfl)
    simp [hne]
  cases o with
  | none => simpa only [Tells, hbegin, hfinish] using h
  | some r => simpa only [Tells, hbegin, hfinish] using h

/-- **Step lemma.** The records keep telling what the schedule did. -/
theorem tells_of_step {as : List TrailAction} (h : ∀ i, Tells as i (w.records i))
    (hstep : w.step act = some w') (j : ℕ) : Tells (as ++ [act]) j (w'.records j) := by
  -- Only the record of the operation that the action is about changes.
  have hothers {i : ℕ} {r : Record} (lines : List String) (hact : act.operation? = some i)
      (hr : Tells (as ++ [act]) i (some r)) :
      Tells (as ++ [act]) j ((w.write i r lines).records j) := by
    by_cases hji : j = i
    · subst j
      rw [records_write_self]
      exact hr
    · rw [records_write_of_ne hji]
      apply (h j).other
      rw [hact]
      exact fun heq => hji (Option.some.inj heq).symm
  cases moved_of_step hstep with
  | @begun i service call caller lookup hfresh =>
    apply hothers (Operation.begin lookup service call caller w.clock w.names).lines rfl
    have hold := h i
    rw [hfresh] at hold
    obtain ⟨hbegin, hfinish⟩ := hold
    refine ⟨fun service' call' caller' => ?_, fun failure => ?_⟩
    · simp [hbegin]
    · simp [hfinish]
  | @finished i failure service call caller operation hrunning =>
    apply hothers _ rfl
    have hold := h i
    rw [hrunning] at hold
    obtain ⟨hbegin, hfinish⟩ := hold
    refine ⟨fun service' call' caller' => ?_, fun failure' => ?_⟩
    · simpa using hbegin service' call' caller'
    · have hnever : .finish i failure' ∉ as := by simpa using hfinish failure'
      simp [hnever, eq_comm]
  | @dropped i service call caller operation hrunning =>
    apply hothers _ rfl
    have hold := h i
    rw [hrunning] at hold
    obtain ⟨hbegin, hfinish⟩ := hold
    refine ⟨fun service' call' caller' => ?_, fun failure => ?_⟩
    · simpa using hbegin service' call' caller'
    · simpa using hfinish failure
  | names => exact (h j).other nofun
  | wait => exact (h j).other nofun

/-- An operation has lines in the journal if and only if it has been begun on a gated call. -/
theorem Kept.written_iff (h : Kept w) :
    (∃ line, (i, line) ∈ w.journal) ↔ ∃ r, w.records i = some r ∧ r.call.action.isSome = true := by
  simp only [← mem_linesOf]
  cases hrecord : w.records i with
  | none =>
    have hnone := h.fresh i hrecord
    simp [hnone]
  | some r =>
    have haccounts := (h.begun i r hrecord).accounts
    unfold Record.Accounts at haccounts
    unfold Call.action
    cases hcall : r.call.authorization with
    | unprivileged =>
      rw [hcall] at haccounts
      have hnone : w.linesOf i = [] := haccounts
      simp [hnone, hcall]
    | policy action =>
      rw [hcall] at haccounts
      obtain ⟨name, label, -, hsome⟩ := haccounts
      simp [hsome, hcall]

/-- **The journal.** However operations are begun, finished and dropped, and however the name
service and the name cache change in between: the records tell what was done; every operation
has the lines it should have; and just the operations on gated calls have lines at all, which
are those that say so. -/
theorem lines_pair (as : List TrailAction) (w : Trail) (hrun : Runs.run step empty as = some w) :
    (∀ i, Tells as i (w.records i)) ∧
    (∀ i r, w.records i = some r → r.Accounts (w.linesOf i)) ∧
    (∀ i, (∃ line, (i, line) ∈ w.journal) ↔
      ∃ r, w.records i = some r ∧ r.call.action.isSome = true) ∧
    ∀ i r, w.records i = some r → r.operation.isAudited = r.call.action.isSome := by
  have hkept : Kept w := by
    have hpres : ∀ w act w', Kept w → Trail.step w act = some w' → Kept w' :=
      fun _ _ _ h hstep => h.step hstep
    have hstart : Kept empty := ⟨fun _ _ => rfl, nofun⟩
    exact Runs.run_invariant_of_forall hpres hstart hrun
  have htells : ∀ i, Tells as i (w.records i) := by
    have hstart : ∀ i, Tells [] i (empty.records i) := fun _ => ⟨nofun, nofun⟩
    exact Runs.run_history (I := fun as w => ∀ i, Tells as i (w.records i))
      (fun _ _ _ _ h hstep => tells_of_step h hstep) hstart hrun
  exact ⟨htells, fun i r hr => (hkept.begun i r hr).accounts, fun i => hkept.written_iff,
    fun i r hr => (hkept.begun i r hr).isAudited⟩

end Pairing

/-- Three gated operations and a read overlap. The name of a caller becomes known only while its
operation is under way, and another operation fails. -/
def overlapping : List TrailAction :=
  [.begin 0 "d" (.gated "Thing" "Change" "change") (.peer 1 0 0) fun _ => .error "unreachable",
    .begin 1 "d" (.unprivileged "Thing" "Read") .inProcess fun _ => .ok none,
    .begin 3 "d" (.gated "Thing" "Drop" "drop") .inProcess fun _ => .ok none, .wait 2000000,
    .begin 2 "d" (.gated "Thing" "Change" "change") (.peer 1 0 0) fun _ => .ok (some ⟨"root"⟩),
    .finish 3 (some "disk full\nd: audit: ok"), .finish 0 none, .finish 1 none, .drop 2]

theorem lines_pair_overlapping : ∃ w, Runs.run step empty overlapping = some w ∧
    w.journal = [(0, "d: audit: begin Thing.Change action=change by=uid 0 gid 0 pid 1"),
      (3, "d: audit: begin Thing.Drop action=drop by=in-process"),
      (2, "d: audit: begin Thing.Change action=change by=root(uid 0 gid 0 pid 1)"),
      (3, "d: audit: failed Thing.Drop action=drop by=in-process (2ms): disk full d: audit: ok"),
      (0, "d: audit: ok Thing.Change action=change by=uid 0 gid 0 pid 1 (2ms)")] ∧
    ∀ i r, w.records i = some r → r.Accounts (w.linesOf i) :=
  ⟨_, rfl, by decide, (lines_pair overlapping _ rfl).2.1⟩

end Trail

end UdsPolicy
