import UdsPolicy.Socket.Reclaim

/-!
# What the drop of a socket unlinks

A `Socket` remembers its path, not its inode, and its drop unlinks the path. If
the entry has been removed from outside and another daemon has bound the path
since, the entry that goes is the other daemon's. Inodes are numbered in the
order in which they are bound at the path, so the condition for the drop to
remove nothing but its own entry is that its own inode is the last one bound.
-/

namespace UdsPolicy

open Runs (EveryStep)

namespace World

variable {w w' : World} {a : Agent} {act : Action}

/-- The socket whose drop an action comes to the unlink of, and how the unlink fails. -/
def dropUnlink (w : World) : Action → Option (Socket × Option IoError)
  | .step a fault =>
    match w.agents a with
    | .dropping _ socket .removeFile => some (socket, fault)
    | _ => none
  | _ => none

/-- A drop leaves the entry as it is, unless the entry is the socket's own. -/
def DropsOwn (w : World) (act : Action) (w' : World) : Prop :=
  ∀ socket fault, w.dropUnlink act = some (socket, fault) →
    w'.kernel.entry = w.kernel.entry ∨ w.kernel.socketAt = some socket.listener

/-- A drop leaves the entry of every other socket that has not been dropped. -/
def SparesOthers (w : World) (act : Action) (w' : World) : Prop :=
  ∀ socket fault, w.dropUnlink act = some (socket, fault) →
    ∀ b other, (w.agents b).socket? = some other → w.kernel.socketAt = some other.listener →
      w'.kernel.socketAt = some other.listener

/-- A drop comes to its unlink when the path names nothing, or nothing has been bound at the
path since the socket's own bind. -/
def UnlinksLast (w : World) (act : Action) : Prop :=
  ∀ socket, w.dropUnlink act = some (socket, none) →
    w.kernel.entry = none ∨ w.kernel.nextIno = socket.listener + 1

theorem dropUnlink_eq_some {socket : Socket} {fault : Option IoError} :
    w.dropUnlink act = some (socket, fault) ↔
      ∃ a process, act = .step a fault ∧ w.agents a = .dropping process socket .removeFile := by
  constructor
  · intro h
    unfold dropUnlink at h
    split at h
    · split at h
      · rename_i hag
        cases h
        exact ⟨_, _, rfl, hag⟩
      · cases h
    · cases h
  · rintro ⟨a, process, rfl, hag⟩
    simp only [dropUnlink, hag]

/-- What the inode numbers say in every run that began with `made` inodes: once a socket has
been bound, the path names the last one bound or nothing. -/
structure Numbered (made : ℕ) (w : World) : Prop where
  /-- Inodes are not reused. -/
  le_nextIno : made ≤ w.kernel.nextIno
  /-- The path names the last socket bound, if any. -/
  last : made < w.kernel.nextIno → ∀ e, w.kernel.entry = some e →
    ∃ j, e = .node (.socket j) ∧ w.kernel.nextIno = j + 1
  /-- What the agents hold has been bound in this run. -/
  le_thing : ∀ a i, (w.tenancy.phase a).thing = some i → made ≤ i

theorem Initial.numbered (h : w.Initial) : w.Numbered w.kernel.nextIno where
  le_nextIno := Nat.le_refl _
  last hlt := absurd hlt (Nat.lt_irrefl _)
  le_thing a i hi := by
    rw [h.phase] at hi
    cases hi

/-- **Step lemma.** Every action keeps the inode numbers in order. -/
theorem Numbered.step {made : ℕ} (h : w.Numbered made) (hstep : w.step act = some w') :
    w'.Numbered made := by
  have hmade := h.le_nextIno
  have hthing {a : Agent} {i : ℕ} (hi : (w'.tenancy.phase a).thing = some i) : made ≤ i := by
    have hheld : (w.tenancy.phase a).thing = some i ∨ i = w.kernel.nextIno := by
      rcases step_stepsAs hstep with hmove | ⟨-, hbreach⟩
      · exact hmove.thing hi
      · exact .inl (hbreach.thing hi)
    rcases hheld with hheld | rfl
    · exact h.le_thing a i hheld
    · exact hmade
  rcases step_renames hstep with ⟨hentry, hnext⟩ | ⟨hentry, hnext⟩
  · refine ⟨by omega, fun hlt e he => ?_, fun _ _ => hthing⟩
    rcases hentry with hsame | hnone
    · rw [hnext] at hlt ⊢
      exact h.last hlt e (hsame.symm.trans he)
    · rw [hnone] at he
      cases he
  · refine ⟨by omega, fun _ e he => ?_, fun _ _ => hthing⟩
    rw [hentry] at he
    cases he
    exact ⟨_, rfl, hnext⟩

section Unlink

variable {made : ℕ} {process : Process} {socket : Socket} {fault : Option IoError}

/-- When a drop comes to its unlink, the path names the last socket bound or nothing. -/
theorem Numbered.last_of_dropping (h : w.Numbered made) (hs : w.tenancy.Sound)
    (hag : w.agents a = .dropping process socket .removeFile) {e : Entry}
    (he : w.kernel.entry = some e) : ∃ j, e = .node (.socket j) ∧ w.kernel.nextIno = j + 1 := by
  have hthing : (w.tenancy.phase a).thing = some socket.listener := by
    rw [phase_of_dropping hag]
    rfl
  have hle := h.le_thing a _ hthing
  have hlt : socket.listener < w.kernel.nextIno := by
    apply hs.holder_lt
    rw [hs.holder_iff.mpr hthing]
    exact Option.some_ne_none _
  exact h.last (by omega) e he

/-- The unlink of a drop leaves the entry when it fails, and else leaves no entry. -/
theorem entry_of_dropUnlink (hag : w.agents a = .dropping process socket .removeFile)
    (hstep : w.step (.step a fault) = some w') :
    w'.kernel = (w.kernel.exec a process fault .removeFile).2 := by
  obtain ⟨c, succ, hnext, -, rfl⟩ := step_of_dropping hag hstep
  cases hnext
  rfl

/-- A drop that comes to its unlink under the condition leaves all but its own entry. -/
theorem dropsOwn_of_unlinksLast (h : w.Numbered made) (hs : w.tenancy.Sound)
    (hstep : w.step act = some w') (hlast : w.UnlinksLast act) : w.DropsOwn act w' := by
  intro socket fault hunlink
  obtain ⟨a, process, rfl, hag⟩ := dropUnlink_eq_some.mp hunlink
  rw [entry_of_dropUnlink hag hstep]
  cases fault with
  | some e => exact .inl rfl
  | none =>
    cases hentry : w.kernel.entry with
    | none =>
      left
      simp only [Kernel.exec, Kernel.perform, Kernel.removeFile, hentry]
    | some e =>
      right
      obtain ⟨j, rfl, hmade⟩ := h.last_of_dropping hs hag hentry
      rcases hlast socket hunlink with hnone | hown
      · rw [hentry] at hnone
        cases hnone
      · have hj : j = socket.listener := by omega
        simp only [Kernel.socketAt, hentry, hj]

/-- A drop that comes to its unlink when the condition fails takes away an entry that is not
its own. -/
theorem unlinksLast_of_dropsOwn (h : w.Numbered made) (hs : w.tenancy.Sound)
    (hstep : w.step act = some w') (hown : w.DropsOwn act w') : w.UnlinksLast act := by
  intro socket hunlink
  obtain ⟨a, process, rfl, hag⟩ := dropUnlink_eq_some.mp hunlink
  cases hentry : w.kernel.entry with
  | none => exact .inl rfl
  | some e =>
    right
    obtain ⟨j, rfl, hmade⟩ := h.last_of_dropping hs hag hentry
    have hj : w.kernel.socketAt = some socket.listener := by
      rcases hown socket none hunlink with hsame | hj
      · rw [entry_of_dropUnlink hag hstep, hentry] at hsame
        simp [Kernel.exec, Kernel.perform, Kernel.removeFile, hentry] at hsame
      · exact hj
    simp only [Kernel.socketAt, hentry, Option.some.injEq] at hj
    omega

/-- A drop that leaves all but its own entry leaves the entries of the other sockets. -/
theorem sparesOthers_of_dropsOwn (hs : w.tenancy.Sound) (hown : w.DropsOwn act w') :
    w.SparesOthers act w' := by
  intro socket fault hunlink b other hother hnamed
  rcases hown socket fault hunlink with hsame | hmine
  · simpa only [Kernel.socketAt, hsame] using hnamed
  · -- The path names the dropped socket, which no other agent holds.
    obtain ⟨a, process, rfl, hag⟩ := dropUnlink_eq_some.mp hunlink
    have hsame : other.listener = socket.listener := Option.some.inj (hnamed.symm.trans hmine)
    have hlista := listener_of_thing hs (a := a) (i := socket.listener) (by
      rw [phase_of_dropping hag]; rfl)
    have hlistb := listener_of_thing hs (a := b) (i := other.listener) (by
      rw [phase_of_socket hother]; rfl)
    rw [hsame, hlista] at hlistb
    cases hlistb
    rw [hag] at hother
    cases hother

end Unlink

/-- **Drops.** In every run the drops remove no entries but their own sockets' if and only
if each of them comes to its unlink under its condition; and then they leave the entries
of the other sockets. -/
theorem drops_remove_own {as : List Action} (hinit : w.Initial) :
    (EveryStep step (fun w act _ => w.UnlinksLast act) w as ↔ EveryStep step DropsOwn w as) ∧
      (EveryStep step (fun w act _ => w.UnlinksLast act) w as →
        EveryStep step SparesOthers w as) := by
  have hpres : ∀ (v : World) act v', v.tenancy.Sound ∧ v.Numbered w.kernel.nextIno → True →
      v.step act = some v' → v'.tenancy.Sound ∧ v'.Numbered w.kernel.nextIno :=
    fun _ _ _ h _ hstep => ⟨step_sound h.1 hstep, h.2.step hstep⟩
  have hstart := And.intro hinit.sound hinit.numbered
  refine ⟨⟨fun hlast => ?_, fun hown => ?_⟩, fun hlast => ?_⟩
  · refine EveryStep.imp (fun v act v' h _ hstep => hpres v act v' h trivial hstep) ?_ hstart hlast
    exact fun v act v' h hstep hlast => dropsOwn_of_unlinksLast h.2 h.1 hstep hlast
  · refine EveryStep.imp (fun v act v' h _ hstep => hpres v act v' h trivial hstep) ?_ hstart hown
    exact fun v act v' h hstep hown => unlinksLast_of_dropsOwn h.2 h.1 hstep hown
  · refine EveryStep.imp (fun v act v' h _ hstep => hpres v act v' h trivial hstep) ?_ hstart hlast
    exact fun v act v' h hstep hlast =>
      sparesOthers_of_dropsOwn h.1 (dropsOwn_of_unlinksLast h.2 h.1 hstep hlast)

/-- Nothing else happens while a bind or a drop is under way. -/
def Atomic (w : World) (act : Action) : Prop :=
  match act with
  | .step _ _ => True
  | _ => w.AtRest

/-- A whole bind of a free path. -/
def bindFree (a : Agent) : List Action :=
  [.start a rootProcess (.new "d" "/s"), .step a none, .step a none, .step a none]

/-- A whole drop. -/
def dropWhole (a : Agent) : List Action := [.beginDrop a, .step a none, .step a none]

/-- A temp-file cleaner removes the first daemon's entry, and the second daemon binds. -/
def takenOver : List Action := bindFree 0 ++ [.removeEntry] ++ bindFree 1 ++ [.beginDrop 0]

/-- When the first daemon then drops its socket, the second daemon's live socket loses its
entry. -/
theorem taken_over_loses_entry :
    (freePath none).Initial ∧
      EveryStep step (fun w act _ => w.Atomic act) (freePath none)
        (takenOver ++ [.step 0 none]) ∧
      ¬EveryStep step SparesOthers (freePath none) (takenOver ++ [.step 0 none]) ∧
      ¬EveryStep step DropsOwn (freePath none) (takenOver ++ [.step 0 none]) ∧
      ∃ w, (freePath none).run (takenOver ++ [.step 0 none]) = some w ∧
        (w.agents 1).socket? = some ⟨1, .new "d" "/s"⟩ ∧ w.Live 1 ∧ w.kernel.entry = none := by
  refine ⟨(freePath_initial none), ?_, ?_, ?_, ?_⟩
  · have hrest {w : World} (h0 : (w.agents 0).busy = false) (h1 : (w.agents 1).busy = false)
        (h : ∀ a, (w.agents (a + 2)).busy = false) : w.AtRest
      | 0 => h0
      | 1 => h1
      | a + 2 => h a
    refine .cons rfl (hrest rfl rfl fun _ => rfl) ?_
    refine .cons rfl trivial (.cons rfl trivial (.cons rfl trivial ?_))
    refine .cons rfl (hrest rfl rfl fun _ => rfl) (.cons rfl (hrest rfl rfl fun _ => rfl) ?_)
    refine .cons rfl trivial (.cons rfl trivial (.cons rfl trivial ?_))
    exact .cons rfl (hrest rfl rfl fun _ => rfl) (.cons rfl trivial trivial)
  · intro h
    have hunlink := (Runs.everyStep_append h rfl).2 _ rfl
    have hkept := hunlink.1 _ none rfl 1 ⟨1, .new "d" "/s"⟩ rfl rfl
    cases hkept
  · intro h
    have hunlink := (Runs.everyStep_append h rfl).2 _ rfl
    rcases hunlink.1 _ none rfl with hsame | hown
    · cases hsame
    · cases hown
  · exact ⟨_, rfl, rfl, rfl, rfl⟩

/-- The second daemon binds after a cleaner has removed the first one's entry. It drops its socket
while the first one holds its own, and then the first one drops. -/
def dropsInTurn : List Action :=
  bindFree 0 ++ [.removeEntry] ++ bindFree 1 ++ dropWhole 1 ++ dropWhole 0

/-- The second daemon unlinks what it has bound last, and the first one finds nothing. -/
theorem drops_remove_own_in_turn :
    EveryStep step DropsOwn (freePath none) dropsInTurn ∧
      EveryStep step SparesOthers (freePath none) dropsInTurn ∧
      ∃ w, (freePath none).run (bindFree 0 ++ [.removeEntry] ++ bindFree 1) = some w ∧
        (w.agents 0).socket? = some ⟨0, .new "d" "/s"⟩ ∧
        (w.agents 1).socket? = some ⟨1, .new "d" "/s"⟩ := by
  have hno {w : World} {act : Action} (h : w.dropUnlink act = none) : w.UnlinksLast act := by
    intro socket hunlink
    rw [h] at hunlink
    cases hunlink
  have hlast : EveryStep step (fun w act _ => w.UnlinksLast act) (freePath none) dropsInTurn := by
    refine .cons rfl (hno rfl) (.cons rfl (hno rfl) (.cons rfl (hno rfl) (.cons rfl (hno rfl) ?_)))
    refine .cons rfl (hno rfl) (.cons rfl (hno rfl) (.cons rfl (hno rfl) (.cons rfl (hno rfl) ?_)))
    refine .cons rfl (hno rfl) (.cons rfl (hno rfl) (.cons rfl (fun socket hunlink => ?_) ?_))
    · cases hunlink
      exact .inr rfl
    · refine .cons rfl (hno rfl) (.cons rfl (hno rfl) (.cons rfl (fun socket hunlink => ?_) ?_))
      · cases hunlink
        exact .inl rfl
      · exact .cons rfl (hno rfl) trivial
  have hdrops := @drops_remove_own _ dropsInTurn (freePath_initial none)
  exact ⟨hdrops.1.mp hlast, hdrops.2 hlast, _, rfl, rfl, rfl⟩

end World

end UdsPolicy
