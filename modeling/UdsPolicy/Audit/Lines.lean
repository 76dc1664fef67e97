import Mathlib.Data.Set.Defs
import UdsPolicy.General.Text
import UdsPolicy.Audit.Operation

/-!
# One bounded line for each event

Account names and failure texts reach the journal bounded and flattened. The
reason of an unreadable caller is written as it is: the lines are single and
bounded exactly as far as the reasons are.
-/

namespace UdsPolicy

/-- A text without line breaks. -/
def Flat (s : String) : Prop := '\n' ∉ s.toList ∧ '\r' ∉ s.toList

instance (s : String) : Decidable (Flat s) := inferInstanceAs (Decidable (_ ∧ _))

section Texts

variable {s t service label rendered action reason name : String} {call : Call} {millis n : ℕ}
  {pid : Int32} {uid gid : UInt32}

@[simp] theorem flat_append : Flat (s ++ t) ↔ Flat s ∧ Flat t := by
  simp only [Flat, String.toList_append, List.mem_append, not_or]
  exact and_and_and_comm

theorem flat_of_isNumeral (h : ∀ c ∈ s.toList, Text.IsNumeral c) : Flat s :=
  ⟨fun hc => absurd (h _ hc) (by decide), fun hc => absurd (h _ hc) (by decide)⟩

theorem flat_nat : Flat (toString n) :=
  flat_of_isNumeral fun _ hc => Text.isNumeral_of_mem_nat hc

theorem flat_uint32 : Flat (toString uid) :=
  flat_of_isNumeral fun _ hc => Text.isNumeral_of_mem_nat hc

theorem flat_int32 : Flat (toString pid) :=
  flat_of_isNumeral fun _ hc => Text.isNumeral_of_mem_int hc

/-- What has been bounded and flattened has no line breaks. -/
theorem flat_boundAndFlatten : Flat (boundAndFlatten n s) := by
  have hnever {x : Char} (hx : x = '\n' ∨ x = '\r') : x ∉ (boundAndFlatten n s).toList := by
    intro hmem
    simp only [boundAndFlatten, flatten, String.toList_ofList, List.mem_map] at hmem
    obtain ⟨c, -, hc⟩ := hmem
    split at hc
    · rw [← hc] at hx
      exact absurd hx (by decide)
    · rename_i hkept
      rw [← hc] at hx
      exact hkept hx
  exact ⟨hnever (.inl rfl), hnever (.inr rfl)⟩

/-- What has been bounded and flattened is no longer than the bound. -/
theorem length_boundAndFlatten : (boundAndFlatten n s).length ≤ n := by
  simp only [boundAndFlatten, flatten, ← String.length_toList, String.toList_ofList,
    List.length_map, List.length_take]
  omega

/-- A flat text within the bound stays as it is. -/
theorem boundAndFlatten_of_flat (hflat : Flat s) (hlength : s.length ≤ n) :
    boundAndFlatten n s = s := by
  have htake : s.toList.take n = s.toList :=
    List.take_of_length_le (by rw [String.length_toList]; exact hlength)
  have hkeep : ∀ c ∈ s.toList, (if c = '\n' ∨ c = '\r' then ' ' else c) = c := by
    intro c hc
    apply if_neg
    rintro (rfl | rfl)
    · exact hflat.1 hc
    · exact hflat.2 hc
  unfold boundAndFlatten flatten
  rw [htake, List.map_congr_left hkeep, List.map_id', String.ofList_toList]

theorem flat_beginLine : Flat (beginLine service label) ↔ Flat service ∧ Flat label := by
  have htext : Flat ": audit: begin " := by decide
  rw [beginLine_eq]
  simp only [flat_append, htext, and_true]

theorem flat_okLine : Flat (okLine service label millis) ↔ Flat service ∧ Flat label := by
  have htext : Flat ": audit: ok " := by decide
  have hopen : Flat " (" := by decide
  have hclose : Flat "ms)" := by decide
  rw [okLine_eq]
  simp only [flat_append, flat_nat, htext, hopen, hclose, and_true]

theorem flat_failedLine :
    Flat (failedLine service label millis reason) ↔ Flat service ∧ Flat label := by
  have htext : Flat ": audit: failed " := by decide
  have hopen : Flat " (" := by decide
  have hclose : Flat "ms): " := by decide
  have hbound : Flat (bound reason) := flat_boundAndFlatten
  rw [failedLine_eq]
  simp only [flat_append, flat_nat, htext, hopen, hclose, hbound, and_true]

theorem flat_labelOf : Flat (labelOf call action rendered) ↔
    Flat call.object ∧ Flat call.method ∧ Flat action ∧ Flat rendered := by
  have hdot : Flat "." := by decide
  have haction : Flat " action=" := by decide
  have hby : Flat " by=" := by decide
  rw [labelOf_eq]
  simp only [flat_append, hdot, haction, hby, and_true, and_assoc]

theorem length_beginLine :
    (beginLine service label).length = service.length + 15 + label.length := by
  rw [beginLine_eq]
  simp only [String.length_append]
  rfl

theorem length_okLine : (okLine service label millis).length =
    service.length + 12 + label.length + 2 + (toString millis).length + 3 := by
  rw [okLine_eq]
  simp only [String.length_append]
  rfl

theorem length_failedLine : (failedLine service label millis reason).length =
    service.length + 16 + label.length + 2 + (toString millis).length + 5 +
      (bound reason).length := by
  rw [failedLine_eq]
  simp only [String.length_append]
  rfl

theorem length_labelOf : (labelOf call action rendered).length =
    call.object.length + 1 + call.method.length + 8 + action.length + 4 + rendered.length := by
  rw [labelOf_eq]
  simp only [String.length_append]
  rfl

end Texts

namespace Caller

variable {lookup : UInt32 → Lookup} {names : NameCache} {name reason : String}
  {pid : Int32} {uid gid : UInt32}

theorem flat_numbers : Flat (numbers pid uid gid) := by
  have huid : Flat "uid " := by decide
  have hgid : Flat " gid " := by decide
  have hpid : Flat " pid " := by decide
  simp only [numbers, flat_append, flat_uint32, flat_int32, huid, hgid, hpid, and_true]

theorem length_uint32_le : (toString uid).length ≤ 10 :=
  Text.length_toString_nat_le (by omega) (by have := uid.toNat_lt; omega)

theorem length_int32_le : (toString pid).length ≤ 11 := by
  apply Text.length_toString_int_le (k := 10) (by omega)
  have hlow := pid.le_toInt
  have hhigh := pid.toInt_lt
  omega

theorem length_numbers_le : (numbers pid uid gid).length ≤ 45 := by
  have hlength : (numbers pid uid gid).length = 4 + (toString uid).length + 5 +
      (toString gid).length + 5 + (toString pid).length := by
    simp only [numbers, String.length_append]
    rfl
  have huid : (toString uid).length ≤ 10 := length_uint32_le
  have hgid : (toString gid).length ≤ 10 := length_uint32_le
  have hpid : (toString pid).length ≤ 11 := length_int32_le
  omega

theorem flat_unreadable : Flat ((unreadable reason).displayAs none) ↔ Flat reason := by
  have hopen : Flat "unreadable (" := by decide
  have hclose : Flat ")" := by decide
  rw [displayAs_unreadable]
  simp only [flat_append, hopen, hclose, true_and, and_true]

theorem length_unreadable : ((unreadable reason).displayAs none).length = reason.length + 13 := by
  rw [displayAs_unreadable]
  simp only [String.length_append]
  have hopen : "unreadable (".length = 12 := rfl
  have hclose : ")".length = 1 := rfl
  omega

/-- The rendering of a peer with a sanitized name is flat and bounded. -/
theorem named_flat_and_bounded :
    Flat ((peer pid uid gid).displayAs (some (sanitize name))) ∧
      ((peer pid uid gid).displayAs (some (sanitize name))).length ≤ 111 := by
  have hopen : Flat "(" := by decide
  have hclose : Flat ")" := by decide
  have hname : Flat (sanitize name) := flat_boundAndFlatten
  have hbound : (sanitize name).length ≤ 64 := length_boundAndFlatten
  have hnumbers : (numbers pid uid gid).length ≤ 45 := length_numbers_le
  rw [displayAs_named]
  constructor
  · simp only [flat_append, hname, hopen, flat_numbers, hclose, and_true]
  · have hlength : (sanitize name ++ "(" ++ numbers pid uid gid ++ ")").length =
        (sanitize name).length + 1 + (numbers pid uid gid).length + 1 := by
      simp only [String.length_append]
      rfl
    omega

/-- Whatever the name service says, the rendering of a caller is flat and bounded if the reason
of an unreadable caller is. -/
theorem display_flat_and_bounded {c : Caller} {most : ℕ} (hnames : names.Sanitized)
    (hflat : ∀ reason, c = .unreadable reason → Flat reason)
    (hmost : ∀ reason, c = .unreadable reason → reason.length ≤ most) :
    Flat (c.display lookup names).1 ∧ (c.display lookup names).1.length ≤ 111 + most := by
  change Flat (c.displayAs (c.accountName lookup names).1) ∧
    (c.displayAs (c.accountName lookup names).1).length ≤ 111 + most
  cases c with
  | peer pid uid gid =>
    cases hname : ((peer pid uid gid).accountName lookup names).1 with
    | some name =>
      obtain ⟨given, rfl⟩ := sanitize_of_accountName hnames hname
      obtain ⟨hline, hbound⟩ := @named_flat_and_bounded given pid uid gid
      exact ⟨hline, by omega⟩
    | none =>
      have hbound : (numbers pid uid gid).length ≤ 45 := length_numbers_le
      exact ⟨flat_numbers, by rw [displayAs_unnamed]; omega⟩
  | unreadable reason =>
    have hlength : ((unreadable reason).displayAs none).length = reason.length + 13 :=
      length_unreadable
    have hreason := hmost reason rfl
    refine ⟨flat_unreadable.mpr (hflat reason rfl), ?_⟩
    change ((unreadable reason).displayAs none).length ≤ 111 + most
    omega
  | inProcess =>
    have hflat : Flat "in-process" := by decide
    have hlength : "in-process".length = 10 := rfl
    exact ⟨hflat, by rw [displayAs_inProcess]; omega⟩

end Caller

namespace Operation

/-- One line, without a line break, of at most the given length. -/
def IsOneLine (lines : List String) (length : ℕ) : Prop :=
  ∃ line, lines = [line] ∧ Flat line ∧ line.length ≤ length

/-- Both events of a gated operation for this caller are one flat line each, no longer than the
constant texts, the digits of the elapsed time, and the given room. -/
def OneBoundedLine (room : ℕ) (caller : Caller) : Prop :=
  ∀ (lookup : UInt32 → Lookup) (names : NameCache) (service object method action : String)
    (started now : ℕ) (failure : Option String), names.Sanitized →
    Flat service → Flat object → Flat method → Flat action →
    let begun := begin lookup service (.gated object method action) caller started names
    let most := service.length + object.length + method.length + action.length +
      (toString (elapsedMillis started now)).length + room
    IsOneLine begun.lines most ∧ IsOneLine (begun.operation.finish failure now) most

variable {lookup : UInt32 → Lookup} {names : NameCache}
  {service object method action reason : String} {caller : Caller} {started now most room : ℕ}
  {failure : Option String}

/-- The lines of a gated operation are as flat and as bounded as the rendering of its caller. -/
theorem oneBoundedLine_of_display
    (h : ∀ (lookup : UInt32 → Lookup) (names : NameCache), names.Sanitized →
      Flat (caller.display lookup names).1 ∧ (caller.display lookup names).1.length ≤ most) :
    OneBoundedLine (most + 292) caller := by
  intro lookup names service object method action started now failure hnames hs ho hm ha
  obtain ⟨hrendered, hlength⟩ := h lookup names hnames
  have hcall : (Call.gated object method action).authorization = .policy action := rfl
  rw [begin_policy hcall]
  have hlabel : Flat (describe lookup (.gated object method action) action caller names).1 :=
    flat_labelOf.mpr ⟨ho, hm, ha, hrendered⟩
  have hlabelLength : (describe lookup (.gated object method action) action caller names).1.length =
      object.length + 1 + method.length + 8 + action.length + 4 +
        (caller.display lookup names).1.length :=
    length_labelOf
  constructor
  · refine ⟨_, rfl, flat_beginLine.mpr ⟨hs, hlabel⟩, ?_⟩
    rw [length_beginLine, hlabelLength]
    omega
  · cases failure with
    | none =>
      refine ⟨_, rfl, flat_okLine.mpr ⟨hs, hlabel⟩, ?_⟩
      rw [length_okLine, hlabelLength]
      dsimp only
      omega
    | some reason =>
      have hreason : (bound reason).length ≤ 256 := length_boundAndFlatten
      refine ⟨_, rfl, flat_failedLine.mpr ⟨hs, hlabel⟩, ?_⟩
      rw [length_failedLine, hlabelLength]
      dsimp only
      omega

/-- If the announcements for an unreadable caller are flat and bounded, so is its reason. -/
theorem reason_of_oneBoundedLine (h : OneBoundedLine room (.unreadable reason)) :
    Flat reason ∧ reason.length ≤ room + 1 := by
  have hempty : Flat "" := by decide
  obtain ⟨⟨line, hline, hflat, hlength⟩, -⟩ := h (fun _ => .ok none) (fun _ => none) "" "" "" "" 0 0
    none NameCache.empty_sanitized hempty hempty hempty hempty
  obtain rfl := (List.cons.inj hline).1
  have hreason := (flat_labelOf.mp (flat_beginLine.mp hflat).2).2.2.2
  refine ⟨Caller.flat_unreadable.mp hreason, ?_⟩
  have hunreadable : ((Caller.unreadable reason).displayAs none).length = reason.length + 13 :=
    Caller.length_unreadable
  have hlabel : (labelOf (.gated "" "" "") "" ((Caller.unreadable reason).displayAs none)).length =
      "".length + 1 + "".length + 8 + "".length + 4 +
        ((Caller.unreadable reason).displayAs none).length :=
    length_labelOf
  rw [length_beginLine] at hlength
  change _ + (labelOf (.gated "" "" "") "" ((Caller.unreadable reason).displayAs none)).length ≤ _
    at hlength
  rw [hlabel, hunreadable] at hlength
  have hdigit : (toString (elapsedMillis 0 0)).length = 1 := by decide
  have hnothing : "".length = 0 := rfl
  omega

/-- **One bounded line for each event.** For a set of callers there is a room in which the
lines of all their operations are single, flat and bounded, if and only if the reasons of the
unreadable callers among them are flat and have a common bound. -/
theorem one_bounded_line_iff (callers : Set Caller) :
    (∃ room, ∀ caller ∈ callers, OneBoundedLine room caller) ↔
      (∀ reason, .unreadable reason ∈ callers → Flat reason) ∧
        ∃ most, ∀ reason, .unreadable reason ∈ callers → reason.length ≤ most := by
  constructor
  · rintro ⟨room, h⟩
    have hreason (reason : String) (hmem : .unreadable reason ∈ callers) :
        Flat reason ∧ reason.length ≤ room + 1 := reason_of_oneBoundedLine (h _ hmem)
    exact ⟨fun reason hmem => (hreason reason hmem).1,
      room + 1, fun reason hmem => (hreason reason hmem).2⟩
  · rintro ⟨hflat, most, hmost⟩
    refine ⟨111 + most + 292, fun caller hcaller => oneBoundedLine_of_display ?_⟩
    intro lookup names hnames
    refine Caller.display_flat_and_bounded hnames (fun reason hc => ?_) (fun reason hc => ?_)
    · exact hflat reason (hc ▸ hcaller)
    · exact hmost reason (hc ▸ hcaller)

/-- A reason with a line break makes two lines of an announcement. -/
theorem unreadable_forges_line :
    let reason := "a\nexampled: ok"
    let begun := begin (fun _ => .ok none) "exampled" (.gated "Thing" "Change" "change")
      (.unreadable reason) 0 fun _ => none
    begun.lines =
        ["exampled: audit: begin Thing.Change action=change by=unreadable (a\nexampled: ok)"] ∧
      ¬∃ room, ∀ caller, OneBoundedLine room caller := by
  intro reason begun
  refine ⟨by decide, fun ⟨room, h⟩ => ?_⟩
  have hflat := (reason_of_oneBoundedLine (h (.unreadable reason))).1
  exact absurd hflat (by decide)

end Operation

end UdsPolicy
