import UdsPolicy.Socket.Lifecycle

/-!
# Entries that vanish under a bind

A bind looks at the path up to four times before it takes it, and others may unlink
the socket at the path between any two of these looks: a predecessor in its drop,
or another daemon that reclaims the same stale socket. The connect probe treats a
missing entry as the free path that was wanted. The metadata read, the unlink of a
stale socket and the change of mode need the entry, and fail without it.
-/

namespace UdsPolicy

open Runs (EveryStep)

namespace BindPc

/-- The control points up to `UnixListener::bind`. -/
def beforeBound : BindPc → Bool
  | .exists_ | .symlinkMetadata | .connect | .removeStale | .bindListener => true
  | _ => false

/-- The control points whose operation fails with an error when the path names nothing. -/
def needsEntry : BindPc → Bool
  | .symlinkMetadata | .removeStale | .setPermissions _ => true
  | _ => false

end BindPc

namespace World

variable {w w' w₁ w₂ : World} {a : Agent} {act : Action} {process : Process}
  {config : SocketConfig} {pc : BindPc} {fault : Option IoError} {bs : List Action}

/-- What may happen during an attempt of an agent: its own process survives, only its
operations about the group fail for outside reasons, and nobody else makes a socket at the
path. The others may unlink what the path names. -/
structure Overlaps (a : Agent) (w : World) (act : Action) (w' : World) : Prop where
  /-- The agent's operations do not fail for outside reasons. -/
  own : ∀ error, act = .step a (some error) →
    ∃ process config pc, w.agents a = .binding process config pc ∧ pc.aboutGroup = true
  /-- All that the agent does is go on. -/
  survives : act.agent? = some a → isStepOf a act = true
  /-- Nobody else creates an entry. -/
  unmade : isStepOf a act = false → w'.kernel.nextIno = w.kernel.nextIno

/-- Nobody else takes the entry away when the agent's next operation needs it. -/
def KeepsNeeded (a : Agent) (w : World) (act : Action) (w' : World) : Prop :=
  isStepOf a act = false → ∀ process config pc, w.agents a = .binding process config pc →
    pc.needsEntry = true → w.kernel.entry ≠ none → w'.kernel.entry ≠ none

/-- What has come of an attempt that was at its beginning in `w` when the schedule `bs` has led
to `w'`, whatever has become of the entry meanwhile. -/
structure Takes (w : World) (a : Agent) (process : Process) (config : SocketConfig)
    (bs : List Action) (w' : World) : Prop where
  /-- The attempt goes on, and it returns after at most nine operations. -/
  returns : (w'.agents a).busy = true →
    bs.countP (isStepOf a) < 9 ∧ (w'.step (.step a none)).isSome = true
  /-- Its result is a socket, or the refusal that there is a live one. -/
  result : (w'.agents a).busy = false → (∃ i, w'.agents a = .holding process ⟨i, config⟩) ∨
    w'.agents a = .refused (.alreadyActive config.socketPath)
  /-- It is refused only if its probe has reached a live socket. -/
  probed : w'.agents a = .refused (.alreadyActive config.socketPath) →
    ∃ before fault after v i, bs = before ++ .step a fault :: after ∧ w.run before = some v ∧
      v.agents a = .binding process config .connect ∧ v.kernel.socketAt = some i ∧ v.Live i
  /-- If the path was free at any moment before `UnixListener::bind`, it gets a socket. -/
  freed : ∀ before after v pc, bs = before ++ after → w.run before = some v →
    v.agents a = .binding process config pc → pc.beforeBound = true → v.kernel.entry = none →
    (w'.agents a).busy = false → ∃ i, w'.agents a = .holding process ⟨i, config⟩

end World

/-! ### While nobody takes the entry away when it is needed -/

namespace Kernel

variable {k k' : Kernel} {a : Agent} {process : Process} {config : SocketConfig} {pc pc' : BindPc}
  {fault : Option IoError} {c : Syscall} {succ : c.Reply → BindPc}

/-- The path names a socket or nothing. -/
def OnlySocket (k : Kernel) : Prop := ∀ e, k.entry = some e → ∃ i, e = .node (.socket i)

/-- What a bind relies on at a control point. The clean-up is never reached. -/
def Suits (k : Kernel) : BindPc → Prop
  | .symlinkMetadata | .removeStale => k.entry ≠ none
  | .bindListener => k.entry = none
  | .setPermissions i => k.entry = some (.node (.socket i))
  | .cleanUp _ _ | .closeListener _ _ | .returned _ => False
  | _ => True

/-- What one operation of a bind does that finds what it relies on. -/
structure Advances (k k' : Kernel) (config : SocketConfig) (pc pc' : BindPc) : Prop where
  /-- The bind comes closer to its return. -/
  rank_lt : pc'.rank < pc.rank
  /-- The path still names a socket or nothing. -/
  onlySocket : k'.OnlySocket
  /-- Until `UnixListener::bind` a free path stays free. -/
  free : pc'.beforeBound = true → k.entry = none → k'.entry = none
  /-- The next operation finds what it relies on, or the bind has returned. -/
  suits : k'.Suits pc' ∨ (∃ i, pc' = .returned (.ok ⟨i, config⟩)) ∨
    pc' = .returned (.error (.alreadyActive config.socketPath)) ∧ pc = .connect ∧
      ∃ i, k.socketAt = some i ∧ (k.inode i).listener.isSome = true

theorem OnlySocket.cases (h : k.OnlySocket) :
    k.entry = none ∨ ∃ i, k.entry = some (.node (.socket i)) := by
  cases hentry : k.entry with
  | none => exact .inl rfl
  | some e =>
    obtain ⟨i, rfl⟩ := h e hentry
    exact .inr ⟨i, rfl⟩

theorem OnlySocket.of_entry (h : k.OnlySocket) (hentry : k'.entry = k.entry ∨ k'.entry = none) :
    k'.OnlySocket := by
  intro e he
  rcases hentry with hsame | hnone
  · exact h e (hsame.symm.trans he)
  · rw [hnone] at he
    cases he

/-- An operation that leaves the entry advances the bind if what comes next suits. -/
theorem OnlySocket.advances (h : k.OnlySocket) (hentry : k'.entry = k.entry)
    (hrank : pc'.rank < pc.rank)
    (hsuits : k'.Suits pc' ∨ (∃ i, pc' = .returned (.ok ⟨i, config⟩)) ∨
      pc' = .returned (.error (.alreadyActive config.socketPath)) ∧ pc = .connect ∧
        ∃ i, k.socketAt = some i ∧ (k.inode i).listener.isSome = true) :
    k.Advances k' config pc pc' :=
  ⟨hrank, h.of_entry (.inl hentry), fun _ hnone => hentry.trans hnone, hsuits⟩

/-- **Operation lemma.** An operation of a bind that finds what it relies on advances it. -/
theorem Suits.advances (h : k.Suits pc) (honly : k.OnlySocket)
    (hnone : pc.aboutGroup = false → fault = none) (hnext : pc.next config = .call c succ)
    {reply : c.Reply} (hexec : k.exec a process fault c = (reply, k')) :
    k.Advances k' config pc (succ reply) := by
  cases pc with
  | exists_ =>
    cases hnext
    obtain rfl := hnone rfl
    cases hexec
    rcases honly.cases with hfree | ⟨i, hi⟩
    · simp only [target, hfree]
      show k.Advances k config .exists_ .bindListener
      exact honly.advances rfl (by simp [BindPc.rank]) (.inl hfree)
    · simp only [target, hi]
      show k.Advances k config .exists_ .symlinkMetadata
      exact honly.advances rfl (by simp [BindPc.rank]) (.inl (by simp [Suits, hi]))
  | symlinkMetadata =>
    cases hnext
    obtain rfl := hnone rfl
    cases hexec
    rcases honly.cases with hfree | ⟨i, hi⟩
    · exact absurd hfree h
    · simp only [symlinkMetadata, hi]
      show k.Advances k config .symlinkMetadata .connect
      exact honly.advances rfl (by simp [BindPc.rank]) (.inl trivial)
  | connect =>
    cases hnext
    obtain rfl := hnone rfl
    rcases honly.cases with hfree | ⟨i, hi⟩
    · -- The probe finds nothing: the path is free.
      simp only [exec, perform, connect, target, hfree] at hexec
      cases hexec
      exact honly.advances rfl (by simp [BindPc.rank]) (.inl hfree)
    · have hsocket : k.socketAt = some i := by simp only [socketAt, hi]
      simp only [exec, perform, connect, (target_of_socketAt hsocket).2] at hexec
      by_cases hlive : (k.inode i).listener.isSome = true
      · rw [if_pos hlive] at hexec
        cases hexec
        exact honly.advances rfl (by simp [BindPc.rank]) (.inr (.inr ⟨rfl, rfl, i, hsocket, hlive⟩))
      · rw [if_neg hlive] at hexec
        cases hexec
        exact honly.advances rfl (by simp [BindPc.rank]) (.inl (by simp [Suits, hi]))
  | removeStale =>
    cases hnext
    obtain rfl := hnone rfl
    rcases honly.cases with hfree | ⟨i, hi⟩
    · exact absurd hfree h
    · simp only [exec, perform, removeFile, hi] at hexec
      cases hexec
      exact ⟨by simp [BindPc.rank], honly.of_entry (.inr rfl), fun _ _ => rfl, .inl rfl⟩
  | bindListener =>
    cases hnext
    obtain rfl := hnone rfl
    have hfree : k.entry = none := h
    simp only [exec, perform, bindListener, hfree] at hexec
    cases hexec
    refine ⟨by simp [BindPc.rank], fun e he => ?_, fun hbefore _ => ?_, .inl rfl⟩
    · exact ⟨k.nextIno, (Option.some.inj he).symm⟩
    · cases hbefore
  | setPermissions i =>
    cases hnext
    obtain rfl := hnone rfl
    have hi : k.entry = some (.node (.socket i)) := h
    have htarget : k.target = some (.socket i) := by simp only [target, hi]; rfl
    simp only [exec, perform, setAttributes, htarget] at hexec
    cases hexec
    obtain ⟨daemon, path, mode, _ | group, timeout⟩ := config
    · exact honly.advances rfl (by simp [BindPc.rank]) (.inr (.inl ⟨i, rfl⟩))
    · exact honly.advances rfl (by simp [BindPc.rank]) (.inl trivial)
  | groupFromName i group =>
    cases hnext
    have hentry : k'.entry = k.entry := by
      have hsame := (k.exec_sameDirectory a process fault (c := .groupFromName group) fun _ => rfl)
      rw [hexec] at hsame
      exact hsame.entry
    rcases reply with error | _ | gid <;>
      exact honly.advances hentry (by simp [BindPc.rank]) (.inl trivial)
  | chown i group gid =>
    cases hnext
    have hentry : k'.entry = k.entry := by
      have hsame := (k.exec_sameDirectory a process fault (c := .chown gid) fun _ => rfl)
      rw [hexec] at hsame
      exact hsame.entry
    rcases reply with error | _
    · exact honly.advances hentry (by simp [BindPc.rank]) (.inl trivial)
    · exact honly.advances hentry (by simp [BindPc.rank]) (.inr (.inl ⟨i, rfl⟩))
  | eprintln i line =>
    cases hnext
    obtain rfl := hnone rfl
    cases hexec
    exact honly.advances rfl (by simp [BindPc.rank]) (.inr (.inl ⟨i, rfl⟩))
  | cleanUp | closeListener | returned => exact h.elim

/-- What others do to the entry leaves what an operation relies on, as long as they do not take
away an entry that it needs. -/
theorem Suits.of_entry (h : k.Suits pc) (hentry : k'.entry = k.entry ∨ k'.entry = none)
    (hneeded : pc.needsEntry = true → k.entry ≠ none → k'.entry ≠ none) : k'.Suits pc := by
  cases pc with
  | symlinkMetadata | removeStale => exact hneeded rfl h
  | bindListener =>
    rcases hentry with hsame | hnone
    · exact hsame.trans h
    · exact hnone
  | setPermissions i =>
    have hi : k.entry = some (.node (.socket i)) := h
    rcases hentry with hsame | hnone
    · exact hsame.trans hi
    · exact absurd hnone (hneeded rfl (by simp [hi]))
  | cleanUp | closeListener | returned => exact h.elim
  | exists_ | connect | groupFromName | chown | eprintln => trivial

/-- A bind that has not returned is under way. -/
theorem Suits.afterBind (h : k.Suits pc) (process : Process) (config : SocketConfig) :
    AgentState.afterBind process config pc = .binding process config pc := by
  cases pc with
  | returned result => exact h.elim
  | _ => rfl

end Kernel

theorem BindPc.beforeBound_iff {pc : BindPc} : pc.beforeBound = true ↔ 5 ≤ pc.rank := by
  cases pc <;> simp [beforeBound, rank]

namespace World

variable {w w' w₁ w₂ : World} {a : Agent} {act : Action} {process : Process}
  {config : SocketConfig} {pc : BindPc} {fault : Option IoError} {bs : List Action}

/-- Whatever is not a step of the agent leaves its place in the code, and leaves the entry or
takes it away. -/
theorem Overlaps.other (h : Overlaps a w act w') (hstep : w.step act = some w')
    (hother : isStepOf a act = false) :
    w'.agents a = w.agents a ∧
      (w'.kernel.entry = w.kernel.entry ∨ w'.kernel.entry = none) := by
  have hactor : act.agent? ≠ some a := by
    intro hsame
    have hown := h.survives hsame
    rw [hother] at hown
    cases hown
  refine ⟨(step_agents_of_ne hstep hactor).1, ?_⟩
  rcases step_renames hstep with ⟨hentry, -⟩ | ⟨-, hmade⟩
  · exact hentry
  · have hunmade := h.unmade hother
    omega

/-- Only the operations about the group fail for outside reasons. -/
theorem Overlaps.fault_eq_none (h : Overlaps a w (.step a fault) w')
    (hag : w.agents a = .binding process config pc) (hgroup : pc.aboutGroup = false) :
    fault = none := by
  cases fault with
  | none => rfl
  | some e =>
    obtain ⟨_, _, _, hag', hpc⟩ := h.own e rfl
    cases hag.symm.trans hag'
    rw [hgroup] at hpc
    cases hpc

/-- What an attempt keeps while nobody takes the entry away when it is needed. -/
structure Undisturbed (a : Agent) (process : Process) (config : SocketConfig) (w : World) :
    Prop where
  /-- The path names a socket or nothing. -/
  onlySocket : w.kernel.OnlySocket
  /-- The attempt is on its way and finds what it relies on, or it has a socket, or it has been
  refused because one is live. -/
  outcome : (∃ pc, w.agents a = .binding process config pc ∧ w.kernel.Suits pc) ∨
    (∃ i, w.agents a = .holding process ⟨i, config⟩) ∨
    w.agents a = .refused (.alreadyActive config.socketPath)

/-- A step of the agent is an operation of its bind. -/
theorem Undisturbed.own_step (h : Undisturbed a process config w) (hact : Overlaps a w act w')
    (hstep : w.step act = some w') (hown : isStepOf a act = true) :
    ∃ pc pc', w.agents a = .binding process config pc ∧
      w'.agents a = .afterBind process config pc' ∧
      w.kernel.Advances w'.kernel config pc pc' := by
  obtain ⟨fault, rfl⟩ := eq_step_of_isStepOf hown
  have hbusy := busy_of_step_isSome hstep
  rcases h.outcome with ⟨pc, hag, hsuits⟩ | ⟨i, hag⟩ | hag
  · have hnone := hact.fault_eq_none hag
    obtain ⟨c, succ, hnext, -, rfl⟩ := step_of_binding hag hstep
    exact ⟨pc, succ (w.kernel.exec a process fault c).1, hag, by simp [afterBindStep],
      hsuits.advances h.onlySocket hnone hnext rfl⟩
  · rw [hag] at hbusy
    cases hbusy
  · rw [hag] at hbusy
    cases hbusy

/-- **Step lemma.** An attempt is not disturbed by an action that leaves the entry when it is
needed. -/
theorem Undisturbed.step (h : Undisturbed a process config w) (hact : Overlaps a w act w')
    (hkeeps : KeepsNeeded a w act w') (hstep : w.step act = some w') :
    Undisturbed a process config w' := by
  by_cases hown : isStepOf a act = true
  · obtain ⟨pc, pc', -, hag', hadv⟩ := h.own_step hact hstep hown
    refine ⟨hadv.onlySocket, ?_⟩
    rw [hag']
    rcases hadv.suits with hsuits | ⟨i, rfl⟩ | ⟨rfl, -⟩
    · exact .inl ⟨pc', hsuits.afterBind process config, hsuits⟩
    · exact .inr (.inl ⟨i, rfl⟩)
    · exact .inr (.inr rfl)
  · have hother : isStepOf a act = false := by simpa using hown
    obtain ⟨hsame, hentry⟩ := hact.other hstep hother
    refine ⟨h.onlySocket.of_entry hentry, ?_⟩
    rw [hsame]
    rcases h.outcome with ⟨pc, hag, hsuits⟩ | hreturned
    · exact .inl ⟨pc, hag, hsuits.of_entry hentry (hkeeps hother _ _ _ hag)⟩
    · exact .inr hreturned

/-- An attempt that is under way can go on. -/
theorem Undisturbed.can_step (h : Undisturbed a process config w)
    (hbusy : (w.agents a).busy = true) :
    0 < (w.agents a).left ∧ (w.step (.step a none)).isSome = true := by
  rcases h.outcome with ⟨pc, hag, hsuits⟩ | ⟨i, hag⟩ | hag
  · cases pc with
    | cleanUp | closeListener | returned => exact hsuits.elim
    | _ => simp [World.step, hag, advance, BindPc.next, AgentState.left, BindPc.rank]
  · rw [hag] at hbusy
    cases hbusy
  · rw [hag] at hbusy
    cases hbusy

/-- What an attempt has left pays for each of its operations. -/
theorem Undisturbed.pays (h : Undisturbed a process config w) (hact : Overlaps a w act w')
    (hstep : w.step act = some w') :
    (isStepOf a act).toNat + (w'.agents a).left ≤ (w.agents a).left := by
  cases hown : isStepOf a act with
  | true =>
    obtain ⟨pc, pc', hag, hag', hadv⟩ := h.own_step hact hstep hown
    have hlt := hadv.rank_lt
    have hle := AgentState.left_afterBind_le process config pc'
    have hleft : (w.agents a).left = pc.rank := by rw [hag]; rfl
    rw [hag', hleft, Bool.toNat_true]
    omega
  | false =>
    rw [(hact.other hstep hown).1, Bool.toNat_false]
    omega

/-- A step that is refused has been a probe, and a live socket has answered it. -/
theorem Undisturbed.probe (h : Undisturbed a process config w) (hact : Overlaps a w act w')
    (hstep : w.step act = some w')
    (hbefore : w.agents a ≠ .refused (.alreadyActive config.socketPath))
    (hafter : w'.agents a = .refused (.alreadyActive config.socketPath)) :
    ∃ fault i, act = .step a fault ∧ w.agents a = .binding process config .connect ∧
      w.kernel.socketAt = some i ∧ w.Live i := by
  cases hown : isStepOf a act with
  | true =>
    obtain ⟨fault, rfl⟩ := eq_step_of_isStepOf hown
    obtain ⟨pc, pc', hag, hag', hadv⟩ := h.own_step hact hstep hown
    rw [hag'] at hafter
    rcases hadv.suits with hsuits | ⟨i, rfl⟩ | ⟨rfl, rfl, i, hi, hlive⟩
    · rw [hsuits.afterBind] at hafter
      cases hafter
    · cases hafter
    · exact ⟨fault, i, rfl, hag, hi, hlive⟩
  | false => exact absurd ((hact.other hstep hown).1.symm.trans hafter) hbefore

/-- The path has been free before the attempt took it, and the attempt has not been refused. -/
def Freed (a : Agent) (process : Process) (config : SocketConfig) (w : World) : Prop :=
  (∃ pc, w.agents a = .binding process config pc ∧
    (pc.beforeBound = true → w.kernel.entry = none)) ∨
    ∃ i, w.agents a = .holding process ⟨i, config⟩

/-- Once the path is free, the attempt takes it. -/
theorem Freed.step (hfreed : Freed a process config w) (h : Undisturbed a process config w)
    (hact : Overlaps a w act w') (hstep : w.step act = some w') :
    Freed a process config w' := by
  cases hown : isStepOf a act with
  | true =>
    obtain ⟨pc, pc', hag, hag', hadv⟩ := h.own_step hact hstep hown
    have hfree : pc.beforeBound = true → w.kernel.entry = none := by
      rcases hfreed with ⟨pc₀, hag₀, hfree⟩ | ⟨i, hag₀⟩
      · cases hag.symm.trans hag₀
        exact hfree
      · cases hag.symm.trans hag₀
    unfold Freed
    rw [hag']
    rcases hadv.suits with hsuits | ⟨i, rfl⟩ | ⟨-, rfl, i, hi, -⟩
    · refine .inl ⟨pc', hsuits.afterBind process config, fun hbefore => ?_⟩
      have hrank := BindPc.beforeBound_iff.mp hbefore
      have hlt := hadv.rank_lt
      exact hadv.free hbefore (hfree (BindPc.beforeBound_iff.mpr (by omega)))
    · exact .inr ⟨i, rfl⟩
    · -- A probe that is answered has not found the path free.
      rw [(Kernel.target_of_socketAt hi).1] at hfree
      cases hfree rfl
  | false =>
    obtain ⟨hsame, hentry⟩ := hact.other hstep hown
    unfold Freed
    rw [hsame]
    rcases hfreed with ⟨pc, hag, hfree⟩ | hheld
    · refine .inl ⟨pc, hag, fun hbefore => ?_⟩
      rcases hentry with hkept | hnone
      · exact hkept.trans (hfree hbefore)
      · exact hnone
    · exact .inr hheld

/-- **Run lemma.** An attempt that nobody takes the entry away from when it is needed takes the
path, unless its probe reaches a live socket. -/
theorem Undisturbed.takes (h : Undisturbed a process config w)
    (hbegun : w.agents a = .binding process config .exists_)
    (hover : EveryStep World.step (Overlaps a) w bs)
    (hkeeps : EveryStep World.step (KeepsNeeded a) w bs) (hrun : w.run bs = some w') :
    w.Takes a process config bs w' := by
  have hpres : ∀ (v : World) act v', Undisturbed a process config v →
      Overlaps a v act v' ∧ KeepsNeeded a v act v' → v.step act = some v' →
      Undisturbed a process config v' :=
    fun v act v' hv hact hstep => hv.step hact.1 hact.2 hstep
  have hboth := hover.and hkeeps
  have hend := Runs.run_invariant hpres h hboth hrun
  refine ⟨fun hbusy => ?_, fun hreturned => ?_, fun hrefused => ?_, ?_⟩
  · obtain ⟨hleft, hstep⟩ := hend.can_step hbusy
    refine ⟨?_, hstep⟩
    have hcount := Runs.countP_add_le (m := fun v : World => (v.agents a).left)
      (p := isStepOf a) hpres (fun v act v' hv hact hstep => hv.pays hact.1 hstep) h hboth hrun
    have hnine : (w.agents a).left = 9 := by rw [hbegun]; rfl
    omega
  · rcases hend.outcome with ⟨pc, hag, -⟩ | hresult
    · rw [hag] at hreturned
      cases hreturned
    · exact hresult
  · have hstart : w.agents a ≠ .refused (.alreadyActive config.socketPath) := by
      rw [hbegun]
      simp
    obtain ⟨before, act, after, v, v', rfl, hbefore, hstep, hnot, hnow⟩ :=
      Runs.exists_crossing
        (Q := fun v : World => v.agents a = .refused (.alreadyActive config.socketPath))
        hstart hrefused hrun
    obtain ⟨hfirst, hlast⟩ := Runs.everyStep_append hboth hbefore
    have hv := Runs.run_invariant hpres h hfirst hbefore
    obtain ⟨fault, i, rfl, hag, hi, hlive⟩ := hv.probe (hlast v' hstep).1.1 hstep hnot hnow
    exact ⟨before, fault, after, v, i, rfl, hbefore, hag, hi, hlive⟩
  · rintro before after v pc rfl hbefore hag hpc hnone hreturned
    obtain ⟨u, hu, hafter⟩ := Runs.run_append.mp hrun
    obtain rfl : v = u := Option.some.inj (hbefore.symm.trans hu)
    obtain ⟨hfirst, hlast⟩ := Runs.everyStep_append hboth hbefore
    have hv := Runs.run_invariant hpres h hfirst hbefore
    have hfreed : Freed a process config v := .inl ⟨pc, hag, fun _ => hnone⟩
    have hstays : ∀ (v : World) act v',
        Undisturbed a process config v ∧ Freed a process config v →
        Overlaps a v act v' ∧ KeepsNeeded a v act v' → v.step act = some v' →
        Undisturbed a process config v' ∧ Freed a process config v' :=
      fun v act v' hv hact hstep =>
        ⟨hpres v act v' hv.1 hact hstep, hv.2.step hv.1 hact.1 hstep⟩
    rcases (Runs.run_invariant hstays ⟨hv, hfreed⟩ hlast hafter).2 with ⟨pc', hag', -⟩ | hheld
    · rw [hag'] at hreturned
      cases hreturned
    · exact hheld

end World

/-! ### When somebody does -/

namespace Kernel

variable {k k' : Kernel} {a : Agent} {process : Process} {config : SocketConfig} {pc : BindPc}
  {c : Syscall} {succ : c.Reply → BindPc}

/-- A missing entry makes the bind fail or has made it fail: it is at an operation that needs
the entry, or in the clean-up after such an operation, or it returns the error. -/
def Misses (k : Kernel) : BindPc → Prop
  | .symlinkMetadata | .removeStale | .setPermissions _ => k.entry = none
  | .cleanUp _ error | .closeListener _ error | .returned (.error (.io error)) =>
    error.kind = .notFound
  | _ => False

/-- **Operation lemma.** A bind that misses the entry goes on to its error. -/
theorem Misses.next (h : k.Misses pc) (hnext : pc.next config = .call c succ) {reply : c.Reply}
    (hexec : k.exec a process none c = (reply, k')) : k'.Misses (succ reply) := by
  cases pc with
  | symlinkMetadata =>
    cases hnext
    have hnone : k.entry = none := h
    simp only [exec, perform, symlinkMetadata, hnone] at hexec
    cases hexec
    rfl
  | removeStale =>
    cases hnext
    have hnone : k.entry = none := h
    simp only [exec, perform, removeFile, hnone] at hexec
    cases hexec
    rfl
  | setPermissions i =>
    cases hnext
    have hnone : k.entry = none := h
    have htarget : k.target = none := by simp only [target, hnone, Option.bind_none]
    simp only [exec, perform, setAttributes, htarget] at hexec
    cases hexec
    rfl
  | cleanUp i error =>
    cases hnext
    exact h
  | closeListener i error =>
    cases hnext
    exact h
  | returned => cases hnext
  | exists_ | connect | bindListener | groupFromName | chown | eprintln => exact h.elim

end Kernel

namespace World

variable {w w' w₁ w₂ : World} {a : Agent} {act : Action} {process : Process}
  {config : SocketConfig} {pc : BindPc} {fault : Option IoError} {bs : List Action}

/-- The attempt fails, or has failed, because it misses the entry. -/
def Lost (a : Agent) (process : Process) (config : SocketConfig) (w : World) : Prop :=
  ∃ pc, w.agents a = .afterBind process config pc ∧ w.kernel.Misses pc

/-- Whoever takes the entry away when it is needed makes the attempt fail. -/
theorem lost_of_taken (hact : Overlaps a w act w') (hstep : w.step act = some w')
    (hother : isStepOf a act = false) (hag : w.agents a = .binding process config pc)
    (hneeds : pc.needsEntry = true) (htaken : w'.kernel.entry = none) :
    Lost a process config w' := by
  refine ⟨pc, ?_, ?_⟩
  · rw [(hact.other hstep hother).1, hag]
    cases pc <;> first | rfl | cases hneeds
  · cases pc <;> first | exact htaken | cases hneeds

/-- **Step lemma.** A lost attempt stays lost. -/
theorem Lost.step (h : Lost a process config w) (hact : Overlaps a w act w')
    (hstep : w.step act = some w') : Lost a process config w' := by
  obtain ⟨pc, hag, hmisses⟩ := h
  cases hown : isStepOf a act with
  | true =>
    obtain ⟨fault, rfl⟩ := eq_step_of_isStepOf hown
    have hbusy := busy_of_step_isSome hstep
    have hbinding : w.agents a = .binding process config pc := by
      cases pc with
      | returned result =>
        rw [hag] at hbusy
        cases result <;> cases hbusy
      | _ => exact hag
    have hgroup : pc.aboutGroup = false := by
      cases pc with
      | groupFromName | chown => exact hmisses.elim
      | _ => rfl
    obtain rfl := hact.fault_eq_none hbinding hgroup
    obtain ⟨c, succ, hnext, -, rfl⟩ := step_of_binding hbinding hstep
    exact ⟨succ (w.kernel.exec a process none c).1, by simp [afterBindStep],
      hmisses.next hnext rfl⟩
  | false =>
    obtain ⟨hsame, hentry⟩ := hact.other hstep hown
    refine ⟨pc, hsame.trans hag, ?_⟩
    have hnone (hfree : w.kernel.entry = none) : w'.kernel.entry = none := by
      rcases hentry with hkept | hnone
      · exact hkept.trans hfree
      · exact hnone
    cases pc with
    | symlinkMetadata | removeStale | setPermissions => exact hnone hmisses
    | returned result =>
      rcases result with error | socket
      · cases error <;> exact hmisses
      · exact hmisses
    | _ => exact hmisses

/-- A lost attempt that has returned has returned the error that the path names nothing. -/
theorem Lost.refused (h : Lost a process config w) (hreturned : (w.agents a).busy = false) :
    ∃ error, w.agents a = .refused (.io error) ∧ error.kind = .notFound := by
  obtain ⟨pc, hag, hmisses⟩ := h
  rw [hag] at hreturned ⊢
  cases pc with
  | returned result =>
    rcases result with error | socket
    · cases error with
      | io error => exact ⟨error, rfl, hmisses⟩
      | alreadyActive | notASocket | unverifiable => exact hmisses.elim
    · exact hmisses.elim
  | _ => cases hreturned

/-- **Run lemma.** In the run of an attempt that has not returned the error, nobody has taken the
entry away when it was needed. -/
theorem keepsNeeded_of_run (hover : EveryStep World.step (Overlaps a) w bs)
    (hrun : w.run bs = some w') (hreturned : (w'.agents a).busy = false)
    (hgood : ∀ error, w'.agents a = .refused (.io error) → error.kind ≠ .notFound) :
    EveryStep World.step (KeepsNeeded a) w bs := by
  induction bs generalizing w with
  | nil => trivial
  | cons act bs ih =>
    obtain ⟨v, hstep, hrest⟩ := Runs.run_cons.mp hrun
    obtain ⟨hact, hovers⟩ := hover v hstep
    refine .cons hstep (fun hother process config pc hag hneeds hentry htaken => ?_)
      (ih hovers hrest)
    have hlost := lost_of_taken hact hstep hother hag hneeds htaken
    have hpres : ∀ (v : World) act v', Lost a process config v → Overlaps a v act v' →
        v.step act = some v' → Lost a process config v' :=
      fun _ _ _ hv hact hstep => hv.step hact hstep
    obtain ⟨error, hrefused, hkind⟩ :=
      (Runs.run_invariant hpres hlost hovers hrest).refused hreturned
    exact hgood error hrefused hkind

/-- **Vanishing entries.** An attempt to bind a path that names a socket or nothing, while others
may unlink it but nobody else binds it: if no other takes the entry away between the existence
check and the metadata read, between the refused probe and the unlink, or between the
attempt's own `UnixListener::bind` and the change of mode, then it returns, its result is a
socket or the refusal by a live one, and it is a socket if the path was free before. Every
attempt that has returned in this way has met the condition. -/
theorem vanishing_entry {process : Process} {config : SocketConfig}
    (honly : ∀ e, w.kernel.entry = some e → ∃ i, e = .node (.socket i))
    (hstart : w.step (.start a process config) = some w₁)
    (hover : EveryStep step (Overlaps a) w₁ bs) (hrun : w₁.run bs = some w₂) :
    (EveryStep step (KeepsNeeded a) w₁ bs → w₁.Takes a process config bs w₂) ∧
      ((w₂.agents a).busy = false → w₁.Takes a process config bs w₂ →
        EveryStep step (KeepsNeeded a) w₁ bs) := by
  obtain rfl : w₁ = w.setAgent a (.binding process config .exists_) := by
    simp only [World.step] at hstart
    split at hstart <;> cases hstart <;> rfl
  have hbegun : (w.setAgent a (.binding process config .exists_)).agents a =
      .binding process config .exists_ := by
    simp only [setAgent, Function.update_self]
  have hstarted : Undisturbed a process config (w.setAgent a (.binding process config .exists_)) :=
    ⟨honly, .inl ⟨_, hbegun, trivial⟩⟩
  refine ⟨fun hkeeps => hstarted.takes hbegun hover hkeeps hrun, fun hreturned htakes => ?_⟩
  refine keepsNeeded_of_run hover hrun hreturned fun error hrefused => ?_
  rcases htakes.result hreturned with ⟨i, hheld⟩ | hactive
  · rw [hheld] at hrefused
    cases hrefused
  · rw [hactive] at hrefused
    cases hrefused

/-- The agent's own operations overlap its attempt. -/
theorem overlaps_own : Overlaps a w (.step a none) w' where
  own error h := by cases h
  survives _ := by simp [isStepOf]
  unmade h := by simp [isStepOf] at h

/-- So do the actions of others that create nothing. -/
theorem overlaps_other (hactor : act.agent? ≠ some a)
    (hmade : w'.kernel.nextIno = w.kernel.nextIno) : Overlaps a w act w' where
  own error h := by
    rw [h] at hactor
    exact absurd rfl hactor
  survives h := absurd h hactor
  unmade _ := hmade

theorem keepsNeeded_own : KeepsNeeded a w (.step a fault) w' := by
  intro hother
  simp [isStepOf] at hother

/-- The first daemon has a socket and begins to drop it. -/
def leaving : List Action := bindFree 0 ++ [.beginDrop 0]

/-- The first daemon has found the left-behind socket stale. -/
def probedFirst : List Action := .start 0 rootProcess (.new "d" "/s") ::
  List.replicate 3 (.step 0 none)

/-- The second daemon starts after the schedule `before`; its attempt overlaps with the schedule
`bs`, and returns that the path names nothing. -/
def NotFoundAfter (w : World) (before bs : List Action) : Prop :=
  ∃ v w₁ w₂, w.run before = some v ∧ v.step (.start 1 rootProcess (.new "d" "/s")) = some w₁ ∧
    EveryStep step (Overlaps 1) w₁ bs ∧ w₁.run bs = some w₂ ∧
    w₂.agents 1 = .refused (.io ⟨.notFound, "No such file or directory (os error 2)"⟩) ∧
    ¬w₁.Takes 1 rootProcess (.new "d" "/s") bs w₂

/-- The predecessor unlinks after the existence check; another daemon reclaims the same stale
socket after the probe; another daemon's reclaim takes the new socket before the change of mode. -/
theorem entry_vanishes :
    NotFoundAfter (freePath none) leaving [.step 1 none, .step 0 none, .step 1 none] ∧
      NotFoundAfter leftBehind probedFirst
        (List.replicate 3 (.step 1 none) ++ [.step 0 none, .step 1 none]) ∧
      NotFoundAfter leftBehind probedFirst
        (List.replicate 5 (.step 1 none) ++ .step 0 none :: List.replicate 3 (.step 1 none)) := by
  have hfails {w₁ w₂ : World} {bs : List Action}
      (hrefused : w₂.agents 1 =
        .refused (.io ⟨.notFound, "No such file or directory (os error 2)"⟩)) :
      ¬w₁.Takes 1 rootProcess (.new "d" "/s") bs w₂ := by
    intro h
    rcases h.result (by rw [hrefused]; rfl) with ⟨i, hheld⟩ | hactive
    · rw [hheld] at hrefused
      cases hrefused
    · rw [hactive] at hrefused
      cases hrefused
  have hother {w w' : World} (hmade : w'.kernel.nextIno = w.kernel.nextIno) :
      Overlaps 1 w (.step 0 none) w' := overlaps_other (by decide) hmade
  refine ⟨⟨_, _, _, rfl, rfl, ?_, rfl, rfl, hfails rfl⟩,
    ⟨_, _, _, rfl, rfl, ?_, rfl, rfl, hfails rfl⟩, ⟨_, _, _, rfl, rfl, ?_, rfl, rfl, hfails rfl⟩⟩
  · refine .cons rfl overlaps_own (.cons rfl (hother rfl) ?_)
    exact .cons rfl overlaps_own trivial
  · refine .cons rfl overlaps_own (.cons rfl overlaps_own (.cons rfl overlaps_own ?_))
    exact .cons rfl (hother rfl) (.cons rfl overlaps_own trivial)
  · refine .cons rfl overlaps_own (.cons rfl overlaps_own (.cons rfl overlaps_own ?_))
    refine .cons rfl overlaps_own (.cons rfl overlaps_own (.cons rfl (hother rfl) ?_))
    exact .cons rfl overlaps_own (.cons rfl overlaps_own (.cons rfl overlaps_own trivial))

/-- The second daemon's attempt, in which the predecessor unlinks before the probe. -/
def unlinkedAtProbe : List Action :=
  [.step 1 none, .step 1 none, .step 0 none] ++ List.replicate 3 (.step 1 none)

/-- The probe finds out that the path is free, and the attempt takes it. -/
theorem vanishing_entry_at_probe :
    ∃ v w₁ w₂ i, (freePath none).run leaving = some v ∧
      v.step (.start 1 rootProcess (.new "d" "/s")) = some w₁ ∧
      w₁.run unlinkedAtProbe = some w₂ ∧ w₂.agents 1 = .holding rootProcess ⟨i, .new "d" "/s"⟩ := by
  have hother {w w' : World} (hmade : w'.kernel.nextIno = w.kernel.nextIno) :
      Overlaps 1 w (.step 0 none) w' := overlaps_other (by decide) hmade
  have hprobe {w w' : World} {process : Process} {config : SocketConfig}
      (hag : w.agents 1 = .binding process config .connect) :
      KeepsNeeded 1 w (.step 0 none) w' := by
    intro _ _ _ _ hag' hneeds
    cases hag.symm.trans hag'
    cases hneeds
  obtain ⟨v, w₁, w₂, u, hv, hstart, hrun, hover, hneeded, honly, hprefix, hag, hnone, hreturned⟩ :
      ∃ v w₁ w₂ u, (freePath none).run leaving = some v ∧
        v.step (.start 1 rootProcess (.new "d" "/s")) = some w₁ ∧
        w₁.run unlinkedAtProbe = some w₂ ∧
        EveryStep step (Overlaps 1) w₁ unlinkedAtProbe ∧
        EveryStep step (KeepsNeeded 1) w₁ unlinkedAtProbe ∧
        (∀ e, v.kernel.entry = some e → ∃ i, e = .node (.socket i)) ∧
        w₁.run [.step 1 none, .step 1 none, .step 0 none] = some u ∧
        u.agents 1 = .binding rootProcess (.new "d" "/s") .connect ∧ u.kernel.entry = none ∧
        (w₂.agents 1).busy = false := by
    refine ⟨_, _, _, _, rfl, rfl, rfl, ?_, ?_, ?_, rfl, rfl, rfl, rfl⟩
    · refine .cons rfl overlaps_own (.cons rfl overlaps_own (.cons rfl (hother rfl) ?_))
      exact .cons rfl overlaps_own (.cons rfl overlaps_own (.cons rfl overlaps_own trivial))
    · refine .cons rfl keepsNeeded_own (.cons rfl keepsNeeded_own (.cons rfl (hprobe rfl) ?_))
      refine .cons rfl keepsNeeded_own (.cons rfl keepsNeeded_own ?_)
      exact .cons rfl keepsNeeded_own trivial
    · exact fun e he => ⟨0, (Option.some.inj he).symm⟩
  have htakes := (vanishing_entry honly hstart hover hrun).1 hneeded
  obtain ⟨i, hheld⟩ := htakes.freed _ _ u .connect rfl hprefix hag rfl hnone hreturned
  exact ⟨v, w₁, w₂, i, hv, hstart, hrun, hheld⟩

end World

end UdsPolicy
