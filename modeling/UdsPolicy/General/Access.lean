import Mathlib.Data.Nat.Notation
import Mathlib.Tactic.TypeStar

/-!
# Write permission by mode bits

The kernel decides whether a process may write to an inode from the inode's
mode, owner and group and from the credentials of the process. The class of the
process (owner, group member or other) selects one bit of the mode. This file
also says, bit by bit, when one setting of an inode admits no writer that
another setting of it refuses.
-/

/-- The credentials of a process: what the kernel reports about a peer, together
with the supplementary groups that permission checks consult. -/
structure Cred where
  /-- The process id. -/
  pid : Int32
  /-- The effective user id. -/
  uid : UInt32
  /-- The effective group id. -/
  gid : UInt32
  /-- The supplementary groups. -/
  groups : List UInt32
  deriving DecidableEq, Repr

/-- Whether a process belongs to a group, by its effective or a supplementary one. -/
def Cred.inGroup (c : Cred) (g : UInt32) : Bool := c.gid == g || c.groups.contains g

/-- The attributes of an inode that decide who may write to it. -/
structure Access where
  /-- The permission bits. -/
  mode : UInt32
  /-- The owning user. -/
  owner : UInt32
  /-- The owning group. -/
  group : UInt32
  deriving DecidableEq, Repr

namespace Access

/-- The owner's write bit, `0o200`. -/
def ownerWrite (a : Access) : Bool := a.mode.toNat.testBit 7

/-- The group's write bit, `0o020`. -/
def groupWrite (a : Access) : Bool := a.mode.toNat.testBit 4

/-- The write bit of everybody else, `0o002`. -/
def otherWrite (a : Access) : Bool := a.mode.toNat.testBit 1

/-- Write permission: the superuser always has it, and of the three classes the
first that a process falls into decides for it. -/
def mayWrite (a : Access) (c : Cred) : Bool :=
  if c.uid = 0 then true
  else if c.uid = a.owner then a.ownerWrite
  else if c.inGroup a.group then a.groupWrite
  else a.otherWrite

/-- `chmod(2)` by a process: there are twelve bits, and the set-group-ID bit is only set by the
superuser and by members of the group. -/
def chmod (a : Access) (c : Cred) (mode : UInt32) : Access :=
  { a with mode := mode &&& if c.uid = 0 ∨ c.inGroup a.group then 0o7777 else 0o5777 }

/-- `chown(2)` with another group: it takes the set-user-ID bit away, and from what the group may
execute the set-group-ID bit too, whoever calls it. -/
def chgrp (a : Access) (group : UInt32) : Access :=
  { a with mode := a.mode &&& if a.mode &&& 0o010 = 0 then 0o3777 else 0o1777, group := group }

/-- Every writer that `a` admits is admitted by `b`. -/
def Within (a b : Access) : Prop := ∀ c, a.mayWrite c = true → b.mayWrite c = true

/-- `Within` for two settings with one owner, decided on the write bits. Processes can be
members of either group alone, so settings with different groups compare crosswise. -/
def BitsWithin (a b : Access) : Prop :=
  (a.owner ≠ 0 → a.ownerWrite = true → b.ownerWrite = true) ∧
  if a.group = b.group then
    (a.groupWrite = true → b.groupWrite = true) ∧ (a.otherWrite = true → b.otherWrite = true)
  else a.groupWrite = true ∨ a.otherWrite = true → b.groupWrite = true ∧ b.otherWrite = true

instance (a b : Access) : Decidable (a.BitsWithin b) := by
  unfold BitsWithin
  infer_instance

/-- No write bit is taken away by a change of mode. -/
theorem write_chmod (a : Access) (c : Cred) (mode : UInt32) :
    (a.chmod c mode).ownerWrite = mode.toNat.testBit 7 ∧
      (a.chmod c mode).groupWrite = mode.toNat.testBit 4 ∧
      (a.chmod c mode).otherWrite = mode.toNat.testBit 1 := by
  simp only [ownerWrite, groupWrite, otherWrite, chmod, UInt32.toNat_and, Nat.testBit_and]
  split <;> simp +decide

/-- No write bit is taken away by a change of group. -/
theorem write_chgrp (a : Access) (group : UInt32) :
    (a.chgrp group).ownerWrite = a.ownerWrite ∧ (a.chgrp group).groupWrite = a.groupWrite ∧
      (a.chgrp group).otherWrite = a.otherWrite := by
  simp only [ownerWrite, groupWrite, otherWrite, chgrp, UInt32.toNat_and, Nat.testBit_and]
  split <;> simp +decide

/-- A mask leaves a word alone if it takes away no bit of it. -/
theorem and_eq_self_iff (m mask : UInt32) : m &&& mask = m ↔ m &&& ~~~mask = 0 := by
  rw [← UInt32.toBitVec_inj, ← UInt32.toBitVec_inj]
  simp only [UInt32.toBitVec_and, UInt32.toBitVec_not, BitVec.eq_of_getElem_eq_iff]
  simp

theorem and_or_eq_zero_iff (m a b : UInt32) : m &&& (a ||| b) = 0 ↔ m &&& a = 0 ∧ m &&& b = 0 := by
  simp only [← UInt32.toBitVec_inj, UInt32.toBitVec_and, UInt32.toBitVec_or,
    BitVec.eq_of_getElem_eq_iff]
  simp
  grind

/-- The mask of the twelve bits leaves alone what has no further ones. -/
theorem and_twelve_iff (m : UInt32) : m &&& 0o7777 = m ↔ m ≤ 0o7777 := by
  have hmod : m.toNat &&& 4095 = m.toNat % 4096 := Nat.and_two_pow_sub_one_eq_mod _ 12
  rw [← UInt32.toNat_inj, UInt32.toNat_and, UInt32.le_iff_toNat_le]
  show m.toNat &&& 4095 = _ ↔ _ ≤ 4095
  omega

/-- A mask without some of the twelve bits leaves alone what has none of these. -/
theorem and_mask_iff (m : UInt32) {mask bits : UInt32} (hmask : ~~~mask = ~~~0o7777 ||| bits) :
    m &&& mask = m ↔ m ≤ 0o7777 ∧ m &&& bits = 0 := by
  rw [and_eq_self_iff, hmask, and_or_eq_zero_iff, ← and_eq_self_iff, and_twelve_iff]

/-- `chmod` sets the mode that it is given, if that has no further bits, and the set-group-ID bit
only for those who may set it. -/
theorem mode_chmod_iff (a : Access) (c : Cred) (mode : UInt32) :
    (a.chmod c mode).mode = mode ↔
      mode ≤ 0o7777 ∧ (mode &&& 0o2000 = 0 ∨ c.uid = 0 ∨ c.inGroup a.group = true) := by
  simp only [chmod]
  split
  · rename_i hmay
    rw [and_twelve_iff]
    exact ⟨fun hle => ⟨hle, .inr hmay⟩, And.left⟩
  · rename_i hmay
    rw [@and_mask_iff mode _ 0o2000 (by decide)]
    simp [hmay]

/-- A change of group leaves a mode with neither the set-user-ID bit nor, beside the group's
right to execute, the set-group-ID bit. -/
theorem mode_chgrp_iff {a : Access} (hmode : a.mode ≤ 0o7777) (group : UInt32) :
    (a.chgrp group).mode = a.mode ↔
      a.mode &&& 0o4000 = 0 ∧ (a.mode &&& 0o2000 = 0 ∨ a.mode &&& 0o010 = 0) := by
  simp only [chgrp]
  split
  · rename_i hexec
    rw [@and_mask_iff a.mode _ 0o4000 (by decide)]
    simp [hmode, hexec]
  · rename_i hexec
    rw [@and_mask_iff a.mode _ (0o4000 ||| 0o2000) (by decide), and_or_eq_zero_iff]
    simp [hmode, hexec]

/-- A mode that both changes together leave alone is left alone by the first. -/
theorem mode_chmod_of_chgrp {a : Access} {c : Cred} {mode group : UInt32}
    (h : ((a.chmod c mode).chgrp group).mode = mode) : (a.chmod c mode).mode = mode := by
  have htwice (mask mask' : UInt32) (h : mode &&& mask &&& mask' = mode) :
      mode &&& mask = mode := by
    calc
      mode &&& mask = mode &&& mask &&& mask' &&& mask := by rw [h]
      _ = mode &&& mask &&& mask' := by
        rw [UInt32.and_assoc (mode &&& mask), UInt32.and_comm mask', ← UInt32.and_assoc,
          UInt32.and_assoc mode mask mask, UInt32.and_self]
      _ = mode := h
  exact htwice _ _ h

/-- The superuser may always write. -/
theorem mayWrite_root {a : Access} {c : Cred} (h : c.uid = 0) : a.mayWrite c = true := by
  simp [mayWrite, h]

/-- The owner is judged by the owner's bit. -/
theorem mayWrite_owner {a : Access} {c : Cred} (h : c.uid ≠ 0) (ho : c.uid = a.owner) :
    a.mayWrite c = a.ownerWrite := by
  simp [mayWrite, ← ho, h]

/-- A process other than the owner is judged by its membership in the group. -/
theorem mayWrite_class {a : Access} {c : Cred} (h : c.uid ≠ 0) (ho : c.uid ≠ a.owner) :
    a.mayWrite c = if c.inGroup a.group then a.groupWrite else a.otherWrite := by
  simp [mayWrite, h, ho]

/-- There is a user who is neither the superuser nor a given user. -/
theorem exists_other_user (owner : UInt32) : ∃ u : UInt32, u ≠ 0 ∧ u ≠ owner := by
  by_cases h : owner = 1
  · exact ⟨2, by decide, by rw [h]; decide⟩
  · exact ⟨1, by decide, fun h' => h h'.symm⟩

/-- There is a group that is neither of two given ones. -/
theorem exists_other_group (g g' : UInt32) : ∃ x : UInt32, x ≠ g ∧ x ≠ g' := by
  by_cases h0 : (0 : UInt32) ≠ g ∧ (0 : UInt32) ≠ g'
  · exact ⟨0, h0⟩
  · by_cases h1 : (1 : UInt32) ≠ g ∧ (1 : UInt32) ≠ g'
    · exact ⟨1, h1⟩
    · refine ⟨2, ?_, ?_⟩ <;> rintro rfl <;> simp at h0 h1
      all_goals exact absurd (h0.trans h1.symm) (by decide)

/-- Processes of every class exist: an outsider to the owner can be made a member of
either of two different groups, of both and of neither. -/
theorem exists_cred (owner g g' : UInt32) (m m' : Bool) (hg : g = g' → m = m') :
    ∃ c : Cred, c.uid ≠ 0 ∧ c.uid ≠ owner ∧ c.inGroup g = m ∧ c.inGroup g' = m' := by
  obtain ⟨u, hu0, huo⟩ := exists_other_user owner
  obtain ⟨x, hx, hx'⟩ := exists_other_group g g'
  refine ⟨⟨0, u, x, (if m then [g] else []) ++ if m' then [g'] else []⟩, hu0, huo, ?_, ?_⟩
  all_goals
    by_cases heq : g = g'
    · subst heq
      obtain rfl := hg rfl
      cases m <;> simp [Cred.inGroup, hx]
    · have heq' : g' ≠ g := fun h => heq h.symm
      cases m <;> cases m' <;> simp [Cred.inGroup, hx, hx', heq, heq']

/-- For two settings of one inode, the write bits decide which of them is the wider. -/
theorem within_iff_bitsWithin {a b : Access} (howner : a.owner = b.owner) :
    a.Within b ↔ a.BitsWithin b := by
  constructor
  · intro h
    refine ⟨fun h0 hbit => ?_, ?_⟩
    · have hc : (⟨0, a.owner, 0, []⟩ : Cred).uid = b.owner := howner
      have := h ⟨0, a.owner, 0, []⟩ (by rw [mayWrite_owner h0 rfl]; exact hbit)
      rwa [mayWrite_owner h0 hc] at this
    · -- A process of the wanted classes carries the bit of `a` over to the bit of `b`.
      have hclass (m m' : Bool) (hg : a.group = b.group → m = m')
          (hbit : (if m then a.groupWrite else a.otherWrite) = true) :
          (if m' then b.groupWrite else b.otherWrite) = true := by
        obtain ⟨c, h0, ho, hm, hm'⟩ := exists_cred a.owner a.group b.group m m' hg
        have := h c (by rw [mayWrite_class h0 ho, hm]; exact hbit)
        rwa [mayWrite_class h0 (howner ▸ ho), hm'] at this
      split
      · exact ⟨hclass true true fun _ => rfl, hclass false false fun _ => rfl⟩
      · rename_i hne
        rintro (hbit | hbit)
        · exact ⟨hclass true true (absurd · hne) hbit, hclass true false (absurd · hne) hbit⟩
        · exact ⟨hclass false true (absurd · hne) hbit, hclass false false (absurd · hne) hbit⟩
  · rintro ⟨hown, hcls⟩ c hc
    by_cases h0 : c.uid = 0
    · exact mayWrite_root h0
    by_cases ho : c.uid = a.owner
    · rw [mayWrite_owner h0 ho] at hc
      rw [mayWrite_owner h0 (howner ▸ ho)]
      exact hown (ho ▸ h0) hc
    · rw [mayWrite_class h0 ho] at hc
      rw [mayWrite_class h0 (howner ▸ ho)]
      split at hcls
      · rename_i heq
        rw [← heq]
        split at hc <;> simp_all
      · have hboth : b.groupWrite = true ∧ b.otherWrite = true :=
          hcls (by split at hc <;> simp_all)
        split <;> simp [hboth.1, hboth.2]

end Access
