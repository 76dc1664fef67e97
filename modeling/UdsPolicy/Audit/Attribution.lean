import UdsPolicy.General.Text
import UdsPolicy.Audit.Lines

/-!
# What a line says about its caller

A line is put together without quoting, so it is read back by its separators.
The numbers of a peer contain no parenthesis and stand at the end of its
rendering, and nobody else's text follows an announcement or a success. An
account name can therefore imitate nothing but an unreadable caller there. A
failure text follows the elapsed time, and there a name can also swallow the
rendering of somebody else together with an elapsed time.
-/

namespace UdsPolicy

namespace Caller

/-- The callers are of one variant and, if they are peers, have the same numbers. -/
def SameParty : Caller → Caller → Prop
  | .peer pid uid gid, .peer pid' uid' gid' => uid = uid' ∧ gid = gid' ∧ pid = pid'
  | .unreadable _, .unreadable _ => True
  | .inProcess, .inProcess => True
  | _, _ => False

theorem SameParty.symm {c d : Caller} (h : SameParty c d) : SameParty d c := by
  cases c with
  | peer pid uid gid =>
    cases d with
    | peer pid' uid' gid' =>
      obtain ⟨huid, hgid, hpid⟩ := h
      exact ⟨huid.symm, hgid.symm, hpid.symm⟩
    | unreadable reason => exact h
    | inProcess => exact h
  | unreadable reason => cases d <;> exact h
  | inProcess => cases d <;> exact h

/-- An account name with which a peer reads as an unreadable caller. -/
def ReadsUnreadable (name : String) : Prop :=
  name = "unreadable " ∨ "unreadable (".toList <+: name.toList

/-- The caller is unreadable, and the account name makes its peer read as that. -/
def ReadsAs (name : Option String) (c : Caller) : Prop :=
  (∃ reason, c = .unreadable reason) ∧ ∃ n, name = some n ∧ ReadsUnreadable n

/-- The callers are one party, or one of them is unreadable and the other one reads as that. -/
def SameOrPosing (c : Caller) (n : Option String) (d : Caller) (m : Option String) : Prop :=
  SameParty c d ∨ ReadsAs n d ∨ ReadsAs m c

theorem SameOrPosing.symm {c d : Caller} {n m : Option String} (h : SameOrPosing c n d m) :
    SameOrPosing d m c n := by
  rcases h with h | h | h
  · exact .inl h.symm
  · exact .inr (.inr h)
  · exact .inr (.inl h)

/-- The account name begins with the rendering of a caller, followed by an elapsed time. -/
def Swallows (name : Option String) (rendered : String) : Prop :=
  ∃ n millis, name = some n ∧
    (rendered ++ " (" ++ toString (millis : ℕ) ++ "ms): ").toList <+: n.toList

section Renderings

variable {pid pid' : Int32} {uid uid' gid gid' : UInt32} {name name' reason : String}
  {c d : Caller} {n m : Option String} {x : Char} {millis : ℕ}

/-- The letters of a peer's numbers. -/
theorem mem_numbers (hx : x ∈ (numbers pid uid gid).toList) :
    Text.IsNumeral x ∨ x ∈ ['u', 'i', 'd', 'g', 'p', ' '] := by
  have huid : "uid ".toList ⊆ ['u', 'i', 'd', 'g', 'p', ' '] := by decide
  have hgid : " gid ".toList ⊆ ['u', 'i', 'd', 'g', 'p', ' '] := by decide
  have hpid : " pid ".toList ⊆ ['u', 'i', 'd', 'g', 'p', ' '] := by decide
  simp only [numbers, String.toList_append, List.mem_append] at hx
  rcases hx with ((((hx | hx) | hx) | hx) | hx) | hx
  · exact .inr (huid hx)
  · exact .inl (Text.isNumeral_of_mem_nat hx)
  · exact .inr (hgid hx)
  · exact .inl (Text.isNumeral_of_mem_nat hx)
  · exact .inr (hpid hx)
  · exact .inl (Text.isNumeral_of_mem_int hx)

theorem notMem_numbers (h : ¬(Text.IsNumeral x ∨ x ∈ ['u', 'i', 'd', 'g', 'p', ' '])) :
    x ∉ (numbers pid uid gid).toList :=
  fun hx => h (mem_numbers hx)

theorem blank_notMem_nat {k : ℕ} : ' ' ∉ (toString k).toList :=
  fun h => absurd (Text.isNumeral_of_mem_nat h) (by decide)

/-- The numbers of a peer can be read back. -/
theorem numbers_inj (h : numbers pid uid gid = numbers pid' uid' gid') :
    uid = uid' ∧ gid = gid' ∧ pid = pid' := by
  have hlist : "uid ".toList ++ ((toString uid).toList ++ ' ' :: ("gid ".toList ++
        ((toString gid).toList ++ ' ' :: ("pid ".toList ++ (toString pid).toList)))) =
      "uid ".toList ++ ((toString uid').toList ++ ' ' :: ("gid ".toList ++
        ((toString gid').toList ++ ' ' :: ("pid ".toList ++ (toString pid').toList)))) := by
    have hgid : " gid ".toList = ' ' :: "gid ".toList := by decide
    have hpid : " pid ".toList = ' ' :: "pid ".toList := by decide
    have hparts := congrArg String.toList h
    simpa only [numbers, String.toList_append, List.append_assoc, hgid, hpid,
      List.cons_append] using hparts
  obtain ⟨huid, hrest⟩ :=
    Text.cut_first blank_notMem_nat blank_notMem_nat (List.append_cancel_left hlist)
  obtain ⟨hgid, hrest⟩ :=
    Text.cut_first blank_notMem_nat blank_notMem_nat (List.append_cancel_left hrest)
  have hpid := List.append_cancel_left hrest
  refine ⟨UInt32.toNat_inj.mp ?_, UInt32.toNat_inj.mp ?_, Int32.toInt_inj.mp ?_⟩
  · exact Text.toString_nat_inj (String.toList_inj.mp huid)
  · exact Text.toString_nat_inj (String.toList_inj.mp hgid)
  · exact Text.toString_int_inj (String.toList_inj.mp hpid)

/-! The letters of the renderings. -/

theorem toList_named : ((peer pid uid gid).displayAs (some name)).toList =
    name.toList ++ '(' :: ((numbers pid uid gid).toList ++ [')']) := by
  simp [displayAs_named]

theorem toList_unnamed :
    ((peer pid uid gid).displayAs none).toList = (numbers pid uid gid).toList :=
  rfl

theorem toList_unreadable : ((unreadable reason).displayAs n).toList =
    "unreadable ".toList ++ '(' :: (reason.toList ++ [')']) := by
  simp [displayAs_unreadable]

theorem toList_inProcess : (inProcess.displayAs n).toList = "in-process".toList := rfl

/-- A text that begins like an unreadable caller and continues after a name with a parenthesis
has a name that reads as an unreadable caller. -/
theorem readsUnreadable_of_append {s t : List Char}
    (h : name.toList ++ '(' :: s = "unreadable ".toList ++ '(' :: t) : ReadsUnreadable name := by
  have hopen : "unreadable (".toList = "unreadable ".toList ++ ['('] := by decide
  rcases List.append_eq_append_iff.mp h with ⟨c, htext, hrest⟩ | ⟨c, hname, hrest⟩
  · cases c with
    | nil =>
      rw [List.append_nil] at htext
      exact .inl (String.toList_inj.mp htext.symm)
    | cons y c =>
      obtain rfl : '(' = y := List.head_eq_of_cons_eq hrest
      have hparen : '(' ∈ "unreadable ".toList := by
        rw [htext]
        exact List.mem_append_right _ List.mem_cons_self
      exact absurd hparen (by decide)
  · cases c with
    | nil =>
      rw [List.append_nil] at hname
      exact .inl (String.toList_inj.mp hname)
    | cons y c =>
      obtain rfl : '(' = y := List.head_eq_of_cons_eq hrest
      refine .inr ⟨c, ?_⟩
      rw [hopen, hname, List.append_assoc]
      rfl

theorem toList_numbers : (numbers pid uid gid).toList =
    'u' :: 'i' :: 'd' :: ' ' :: ((toString uid).toList ++ " gid ".toList ++
      (toString gid).toList ++ " pid ".toList ++ (toString pid).toList) := by
  have huid : "uid ".toList = ['u', 'i', 'd', ' '] := by decide
  simp only [numbers, String.toList_append, huid, List.cons_append, List.nil_append]

theorem open_notMem_numbers : '(' ∉ (numbers pid uid gid).toList := notMem_numbers (by decide)

theorem open_mem_named : '(' ∈ ((peer pid uid gid).displayAs (some name)).toList := by
  rw [toList_named]
  exact List.mem_append_right _ List.mem_cons_self

theorem open_mem_unreadable : '(' ∈ ((unreadable reason).displayAs n).toList := by
  rw [toList_unreadable]
  exact List.mem_append_right _ List.mem_cons_self

/-- What is rendered like the numbers alone is a peer with these numbers. -/
theorem party_of_unnamed (h : (peer pid uid gid).displayAs none = d.displayAs m) :
    SameParty (peer pid uid gid) d := by
  have hopen : '(' ∉ (d.displayAs m).toList := by
    rw [← h, toList_unnamed]
    exact open_notMem_numbers
  cases d with
  | peer pid' uid' gid' =>
    cases m with
    | none => exact numbers_inj h
    | some name => exact absurd open_mem_named hopen
  | unreadable reason => exact absurd open_mem_unreadable hopen
  | inProcess =>
    have hletter : 'o' ∉ (numbers pid uid gid).toList := notMem_numbers (by decide)
    rw [← toList_unnamed, h, toList_inProcess] at hletter
    exact absurd (by decide) hletter

/-- What is rendered like an in-process caller is one. -/
theorem party_of_inProcess (h : inProcess.displayAs n = d.displayAs m) :
    SameParty inProcess d := by
  have hopen : '(' ∉ (d.displayAs m).toList := by
    rw [← h, toList_inProcess]
    decide
  cases d with
  | peer pid uid gid =>
    cases m with
    | none => exact absurd (party_of_unnamed h.symm) id
    | some name => exact absurd open_mem_named hopen
  | unreadable reason => exact absurd open_mem_unreadable hopen
  | inProcess => trivial

/-- What is rendered like a peer with a name is a peer with the same numbers, or an unreadable
caller that the name reads as. -/
theorem party_of_named (h : (peer pid uid gid).displayAs (some name) = d.displayAs m) :
    SameOrPosing (peer pid uid gid) (some name) d m := by
  have hlist := congrArg String.toList h
  cases d with
  | peer pid' uid' gid' =>
    cases m with
    | none => exact .inl (party_of_unnamed h.symm).symm
    | some name' =>
      rw [toList_named, toList_named] at hlist
      have hnumbers {p : Int32} {u g : UInt32} : '(' ∉ (numbers p u g).toList ++ [')'] := by
        simp [open_notMem_numbers]
      obtain ⟨-, hsame⟩ := Text.cut_last hnumbers hnumbers hlist
      exact .inl (numbers_inj (String.toList_inj.mp (List.append_cancel_right hsame)))
  | unreadable reason =>
    rw [toList_named, toList_unreadable] at hlist
    exact .inr (.inl ⟨⟨reason, rfl⟩, name, rfl, readsUnreadable_of_append hlist⟩)
  | inProcess => exact .inl (party_of_inProcess h.symm).symm

/-- Equal renderings are of the same party, or of an unreadable caller and of a peer whose name
reads as one. -/
theorem sameOrPosing_of_displayAs_eq (h : c.displayAs n = d.displayAs m) :
    SameOrPosing c n d m := by
  cases c with
  | peer pid uid gid =>
    cases n with
    | none => exact .inl (party_of_unnamed h)
    | some name => exact party_of_named h
  | unreadable reason =>
    cases d with
    | peer pid uid gid =>
      cases m with
      | none => exact absurd (party_of_unnamed h.symm) id
      | some name => exact (party_of_named h.symm).symm
    | unreadable reason' => exact .inl trivial
    | inProcess => exact absurd (party_of_inProcess h.symm) id
  | inProcess => exact .inl (party_of_inProcess h)

/-! The marker between a caller and a failure text. -/

/-- An opening parenthesis and an elapsed time. -/
def elapsedText (millis : ℕ) : List Char := '(' :: ((toString millis).toList ++ "ms):".toList)

theorem blank_notMem_elapsedText : ' ' ∉ elapsedText millis := by
  have hclose : ' ' ∉ "ms):".toList := by decide
  simp only [elapsedText, List.mem_cons, List.mem_append, blank_notMem_nat, hclose, or_false]
  decide

theorem marker_elapsedText : Text.marker ' ' (elapsedText millis) =
    (" (" ++ toString millis ++ "ms): ").toList := by
  have hopen : " (".toList = [' ', '('] := by decide
  have hclose : "ms): ".toList = "ms):".toList ++ [' '] := by decide
  simp only [Text.marker, elapsedText, String.toList_append, hopen, hclose, List.append_assoc,
    List.cons_append, List.nil_append]

/-- No rendering ends with a colon. -/
theorem displayAs_ne_colon {s : List Char} : (c.displayAs n).toList ≠ s ++ [':'] := by
  intro h
  have hlast := congrArg List.getLast? h
  rw [List.getLast?_concat] at hlast
  cases c with
  | peer pid uid gid =>
    cases n with
    | none =>
      have hcolon : ':' ∉ (numbers pid uid gid).toList := notMem_numbers (by decide)
      rw [toList_unnamed] at hlast
      exact hcolon (List.mem_of_getLast? hlast)
    | some name =>
      rw [toList_named, ← List.cons_append, ← List.append_assoc, List.getLast?_concat] at hlast
      cases hlast
  | unreadable reason =>
    rw [toList_unreadable, ← List.cons_append, ← List.append_assoc, List.getLast?_concat] at hlast
    cases hlast
  | inProcess => revert hlast; rw [toList_inProcess]; decide

/-- A name that begins a rendering together with its numbers does so within the account name. -/
theorem marker_prefix_of_named {s : List Char}
    (h : s ++ Text.marker ' ' (elapsedText millis) <+:
      ((peer pid uid gid).displayAs (some name)).toList) :
    s ++ Text.marker ' ' (elapsedText millis) <+: name.toList := by
  have hcolon : ':' ∉ '(' :: ((numbers pid uid gid).toList ++ [')']) := by
    have hnumbers : ':' ∉ (numbers pid uid gid).toList := notMem_numbers (by decide)
    simp [hnumbers]
  have hmarker : s ++ Text.marker ' ' (elapsedText millis) =
      (s ++ ' ' :: '(' :: ((toString millis).toList ++ "ms)".toList)) ++ [':', ' '] := by
    have hclose : "ms):".toList = "ms)".toList ++ [':'] := by decide
    simp only [Text.marker, elapsedText, hclose, List.append_assoc, List.cons_append,
      List.nil_append]
  rw [toList_named] at h
  rw [hmarker] at h ⊢
  exact Text.prefix_of_prefix_append hcolon (by simp) h

/-- A rendering that begins with another one and an elapsed time is of the same party, or one of
the two account names misleads. -/
theorem party_of_marker_prefix
    (h : (c.displayAs n).toList ++ Text.marker ' ' (elapsedText millis) <+:
      (d.displayAs m).toList) :
    SameParty c d ∨ ReadsAs n d ∨ Swallows m (c.displayAs n) := by
  have hopen : '(' ∈ (d.displayAs m).toList := by
    refine h.subset (List.mem_append_right _ ?_)
    simp [Text.marker, elapsedText]
  cases d with
  | peer pid uid gid =>
    cases m with
    | none => exact absurd hopen open_notMem_numbers
    | some name =>
      have hname := marker_prefix_of_named h
      rw [marker_elapsedText, ← String.toList_append, ← String.append_assoc,
        ← String.append_assoc] at hname
      exact .inr (.inr ⟨name, millis, rfl, hname⟩)
  | unreadable reason =>
    obtain ⟨rest, hrest⟩ := h
    rw [toList_unreadable] at hrest
    cases c with
    | peer pid uid gid =>
      cases n with
      | none =>
        rw [toList_unnamed, toList_numbers] at hrest
        simp at hrest
      | some name =>
        rw [toList_named, List.append_assoc, List.append_assoc] at hrest
        exact .inr (.inl ⟨⟨reason, rfl⟩, name, rfl, readsUnreadable_of_append hrest⟩)
    | unreadable reason' => exact .inl trivial
    | inProcess =>
      rw [toList_inProcess] at hrest
      simp at hrest
  | inProcess => exact absurd hopen (by rw [toList_inProcess]; decide)

/-- Two renderings that are followed by elapsed times and whatever texts agree only if they are
of the same party, or if an account name misleads. -/
theorem party_of_failed {i j : ℕ} {s t : List Char}
    (h : (c.displayAs n).toList ++ Text.marker ' ' (elapsedText i) ++ s =
      (d.displayAs m).toList ++ Text.marker ' ' (elapsedText j) ++ t) :
    SameOrPosing c n d m ∨ Swallows m (c.displayAs n) ∨ Swallows n (d.displayAs m) := by
  have hcolon (k : ℕ) (u : List Char) : u ++ ' ' :: elapsedText k =
      (u ++ ' ' :: '(' :: ((toString k).toList ++ "ms)".toList)) ++ [':'] := by
    have hclose : "ms):".toList = "ms)".toList ++ [':'] := by decide
    simp only [elapsedText, hclose, List.append_assoc, List.cons_append]
  rcases Text.heads_of_markers blank_notMem_elapsedText blank_notMem_elapsedText h with
    heq | hpre | hpre | hend | hend
  · exact .inl (sameOrPosing_of_displayAs_eq (String.toList_inj.mp heq))
  · rcases party_of_marker_prefix hpre with hsame | hreads | hswallows
    · exact .inl (.inl hsame)
    · exact .inl (.inr (.inl hreads))
    · exact .inr (.inl hswallows)
  · rcases party_of_marker_prefix hpre with hsame | hreads | hswallows
    · exact .inl (.inl hsame.symm)
    · exact .inl (.inr (.inr hreads))
    · exact .inr (.inr hswallows)
  · rw [hcolon] at hend
    exact absurd hend displayAs_ne_colon
  · rw [hcolon] at hend
    exact absurd hend displayAs_ne_colon

/-! Both exceptions are real. -/

/-- A peer whose name reads as an unreadable caller is rendered like one. -/
theorem exists_unreadable_of_readsUnreadable (h : ReadsUnreadable name) :
    ∃ reason, (peer pid uid gid).displayAs (some name) = (unreadable reason).displayAs none := by
  rcases h with rfl | ⟨rest, hrest⟩
  · refine ⟨numbers pid uid gid, ?_⟩
    rw [displayAs_named, displayAs_unreadable]
    rfl
  · refine ⟨String.ofList rest ++ "(" ++ numbers pid uid gid, ?_⟩
    have hname : name = "unreadable (" ++ String.ofList rest := by
      have htail : (String.ofList rest).toList = rest := String.toList_ofList
      rw [← String.toList_inj, String.toList_append, htail, hrest]
    rw [displayAs_named, displayAs_unreadable, hname]
    simp only [String.append_assoc]

/-- A failure of a peer whose name swallows a caller is reported like a failure of that caller. -/
theorem exists_failed_of_swallows {given service action : String} {call : Call}
    (h : Swallows (some (sanitize given)) (c.displayAs n)) :
    ∃ millis reason, failedLine service (labelOf call action (c.displayAs n)) millis reason =
      failedLine service
        (labelOf call action ((peer pid uid gid).displayAs (some (sanitize given)))) 0 "" := by
  obtain ⟨name, millis, hsome, rest, hrest⟩ := h
  have hname : sanitize given =
      c.displayAs n ++ " (" ++ toString millis ++ "ms): " ++ String.ofList rest := by
    have htail : (String.ofList rest).toList = rest := String.toList_ofList
    rw [← String.toList_inj, String.toList_append, htail, hrest, Option.some.inj hsome]
  have hflat : Flat (sanitize given) := flat_boundAndFlatten
  have hlength : (sanitize given).length ≤ 64 := length_boundAndFlatten
  rw [hname, flat_append] at hflat
  have hlengthRest : (String.ofList rest).length ≤ 64 := by
    rw [hname, String.length_append] at hlength
    omega
  let reason := String.ofList rest ++ ("(" ++ numbers pid uid gid ++ ") (0ms): ")
  have hreasonFlat : Flat reason := by
    have hopen : Flat "(" := by decide
    have hclose : Flat ") (0ms): " := by decide
    simp only [reason, flat_append, flat_numbers, hflat.2, hopen, hclose, and_true]
  have hreasonLength : reason.length ≤ 256 := by
    have hnumbers : (numbers pid uid gid).length ≤ 45 := length_numbers_le
    have hopen : "(".length = 1 := rfl
    have hclose : ") (0ms): ".length = 9 := rfl
    simp only [reason, String.length_append]
    omega
  have hbound : bound reason = reason := boundAndFlatten_of_flat hreasonFlat hreasonLength
  have hempty : bound "" = "" := by decide
  have hzero : toString 0 = "0" := rfl
  have hclose : ")" ++ (" (" ++ ("0" ++ ("ms): " ++ ""))) = ") (0ms): " := by decide
  refine ⟨millis, reason, ?_⟩
  rw [failedLine_eq, failedLine_eq, hbound, hempty, labelOf_eq, labelOf_eq, displayAs_named, hname,
    hzero]
  simp only [reason, String.append_assoc, ← hclose]

end Renderings

end Caller

/-- An operation on a gated call, with all that its lines depend on. -/
structure Audited where
  /-- Who asked. -/
  caller : Caller
  /-- What the name service answers when the operation is begun. -/
  lookup : UInt32 → Lookup
  /-- The name cache when the operation is begun. -/
  names : NameCache
  /-- When the operation is begun. -/
  started : ℕ
  /-- When the operation is finished. -/
  finished : ℕ
  /-- The failure text, for when it fails. -/
  reason : String

namespace Audited

variable {service object method action : String} {x y : Audited}

/-- What beginning the operation gives. -/
def begun (x : Audited) (service : String) (call : Call) : Begun :=
  Operation.begin x.lookup service call x.caller x.started x.names

/-- The lines of the announcement. -/
def announced (x : Audited) (service : String) (call : Call) : List String :=
  (x.begun service call).lines

/-- The lines of a success. -/
def succeeded (x : Audited) (service : String) (call : Call) : List String :=
  (x.begun service call).operation.finish none x.finished

/-- The lines of a failure. -/
def failed (x : Audited) (service : String) (call : Call) : List String :=
  (x.begun service call).operation.finish (some x.reason) x.finished

/-- The account name of the caller. -/
def name (x : Audited) : Option String := (x.caller.accountName x.lookup x.names).1

/-- The rendering of the caller. -/
def rendered (x : Audited) : String := x.caller.displayAs x.name

/-- What stands in a label before the caller. -/
def upToCaller (object method action : String) : String :=
  object ++ "." ++ method ++ " action=" ++ action ++ " by="

/-- The operation and its label. -/
theorem begun_eq :
    let label := labelOf (.gated object method action) action x.rendered
    (x.begun service (.gated object method action)).operation =
        ⟨service, some label, x.started⟩ ∧
      (x.begun service (.gated object method action)).lines = [beginLine service label] :=
  ⟨rfl, rfl⟩

theorem label_eq : labelOf (.gated object method action) action x.rendered =
    upToCaller object method action ++ x.rendered :=
  rfl

theorem announced_eq : x.announced service (.gated object method action) =
    [service ++ ": audit: begin " ++ upToCaller object method action ++ x.rendered] := by
  rw [announced, begun_eq.2, beginLine_eq, label_eq, ← String.append_assoc]

theorem succeeded_eq : x.succeeded service (.gated object method action) =
    [service ++ ": audit: ok " ++ upToCaller object method action ++ x.rendered ++ " (" ++
      toString (Operation.elapsedMillis x.started x.finished) ++ "ms)"] := by
  rw [succeeded, begun_eq.1]
  simp only [Operation.finish, okLine_eq, label_eq, String.append_assoc]

theorem failed_eq : x.failed service (.gated object method action) =
    [service ++ ": audit: failed " ++ upToCaller object method action ++ x.rendered ++ " (" ++
      toString (Operation.elapsedMillis x.started x.finished) ++ "ms): " ++ bound x.reason] := by
  rw [failed, begun_eq.1]
  simp only [Operation.finish, failedLine_eq, label_eq, String.append_assoc]

/-- Equal reports of success are of callers that are rendered alike. -/
theorem rendered_of_succeeded (h : x.succeeded service (.gated object method action) =
    y.succeeded service (.gated object method action)) : x.rendered = y.rendered := by
  have hdigits (k : ℕ) : '(' ∉ (toString k).toList ++ "ms)".toList := by
    have hnat : '(' ∉ (toString k).toList :=
      fun h => absurd (Text.isNumeral_of_mem_nat h) (by decide)
    have hclose : '(' ∉ "ms)".toList := by decide
    exact List.not_mem_append hnat hclose
  have hopen : " (".toList = [' ', '('] := by decide
  have hlist := congrArg String.toList (List.cons.inj (succeeded_eq ▸ succeeded_eq ▸ h)).1
  simp only [String.toList_append, hopen, List.append_assoc, List.append_cancel_left_eq] at hlist
  have hcut : (x.rendered.toList ++ [' ']) ++ '(' :: ((toString (Operation.elapsedMillis x.started
        x.finished)).toList ++ "ms)".toList) =
      (y.rendered.toList ++ [' ']) ++ '(' :: ((toString (Operation.elapsedMillis y.started
        y.finished)).toList ++ "ms)".toList) := by
    simpa only [List.append_assoc, List.cons_append, List.nil_append] using hlist
  have hblank := (Text.cut_last (hdigits _) (hdigits _) hcut).1
  exact String.toList_inj.mp (List.append_cancel_right hblank)

/-- Equal reports of failure agree from the renderings of the callers on. -/
theorem rendered_of_failed (h : x.failed service (.gated object method action) =
    y.failed service (.gated object method action)) :
    x.rendered.toList ++ Text.marker ' ' (Caller.elapsedText (Operation.elapsedMillis x.started
        x.finished)) ++ (bound x.reason).toList =
      y.rendered.toList ++ Text.marker ' ' (Caller.elapsedText (Operation.elapsedMillis y.started
        y.finished)) ++ (bound y.reason).toList := by
  have hlist := congrArg String.toList (List.cons.inj (failed_eq ▸ failed_eq ▸ h)).1
  simp only [String.toList_append, List.append_assoc, List.append_cancel_left_eq] at hlist
  simpa only [Caller.marker_elapsedText, String.toList_append, List.append_assoc] using hlist

/-- **Attribution.** Two operations on one call with equal announcements or equal reports of
success are of the same party, unless one caller is unreadable and the other one a peer whose
account name reads as that. With equal reports of failure, this or one of the account names
begins with the whole rendering of the other caller, followed by an elapsed time. -/
theorem lines_attribute (service object method action : String) (x y : Audited) :
    let call := Call.gated object method action
    (x.announced service call = y.announced service call →
      x.caller.SameOrPosing x.name y.caller y.name) ∧
    (x.succeeded service call = y.succeeded service call →
      x.caller.SameOrPosing x.name y.caller y.name) ∧
    (x.failed service call = y.failed service call →
      x.caller.SameOrPosing x.name y.caller y.name ∨
        Caller.Swallows y.name x.rendered ∨ Caller.Swallows x.name y.rendered) := by
  intro call
  refine ⟨fun h => ?_, fun h => ?_, fun h => ?_⟩
  · rw [announced_eq, announced_eq] at h
    have hrendered : x.rendered = y.rendered := by simpa using h
    exact Caller.sameOrPosing_of_displayAs_eq hrendered
  · exact Caller.sameOrPosing_of_displayAs_eq (rendered_of_succeeded h)
  · exact Caller.party_of_failed (rendered_of_failed h)

/-- A peer of root, on a host where the account has the given name. -/
def ofRoot (name : String) (started : ℕ) (reason : String) : Audited :=
  ⟨.peer 1 0 0, fun _ => .ok (some ⟨name⟩), fun _ => none, started, 7000000, reason⟩

/-- A peer on a host that does not know its account. -/
def ofStranger (reason : String) : Audited :=
  ⟨.peer 2 3 4, fun _ => .ok none, fun _ => none, 2000000, 7000000, reason⟩

/-- A caller that could not be read, for a reason that looks like the numbers of root's peer. -/
def ofNobody : Audited :=
  ⟨.unreadable "uid 0 gid 0 pid 1", fun _ => .ok none, fun _ => none, 0, 7000000, ""⟩

/-- A peer and an unreadable caller have the same announcement and the same success, and two
peers with different numbers have the same failure. -/
theorem names_mislead :
    let call := Call.gated "Thing" "Change" "change"
    ((ofRoot "unreadable " 0 "").announced "d" call = ofNobody.announced "d" call ∧
      (ofRoot "unreadable " 0 "").succeeded "d" call = ofNobody.succeeded "d" call ∧
      ¬Caller.SameParty (ofRoot "unreadable " 0 "").caller ofNobody.caller) ∧
    (ofRoot "uid 3 gid 4 pid 2 (5ms): " 0 "boom").failed "d" call =
      (ofStranger "(uid 0 gid 0 pid 1) (7ms): boom").failed "d" call ∧
    ¬Caller.SameParty (ofRoot "uid 3 gid 4 pid 2 (5ms): " 0 "boom").caller
      (ofStranger "(uid 0 gid 0 pid 1) (7ms): boom").caller := by
  intro call
  refine ⟨⟨by decide, by decide, id⟩, by decide, ?_⟩
  rintro ⟨huid, -⟩
  exact absurd huid (by decide)

end Audited

end UdsPolicy
