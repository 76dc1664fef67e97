import Mathlib.Data.Nat.Notation

/-!
# Bytes read as text

`String::from_utf8_lossy` of the standard library reads bytes as UTF-8 and puts
U+FFFD for every maximal part of them that begins a character and does not finish
it. Text that has been encoded is read as it was.
-/

namespace Utf8

/-- What is put for bytes that are no character. -/
def replacement : Char := Char.ofNat 0xFFFD

/-- The byte at an index, or zero. -/
def safeGet (b : ByteArray) (i : ℕ) : UInt8 := b[i]?.getD 0

/-- A byte that goes on with a character. -/
def isContinuation (b : UInt8) : Bool := 0x80 ≤ b && b ≤ 0xBF

/-- Whether the second byte of a character of three or four bytes may follow the first. -/
def mayFollow (first second : UInt8) : Bool :=
  if first = 0xE0 then 0xA0 ≤ second && second ≤ 0xBF
  else if first = 0xED then 0x80 ≤ second && second ≤ 0x9F
  else if first = 0xF0 then 0x90 ≤ second && second ≤ 0xBF
  else if first = 0xF4 then 0x80 ≤ second && second ≤ 0x8F
  else isContinuation second

/-- How many of the first bytes belong together although they are no character. -/
def invalidLength (b : ByteArray) : ℕ :=
  let first := safeGet b 0
  if 0xE0 ≤ first ∧ first ≤ 0xEF ∧ mayFollow first (safeGet b 1) then 2
  else if 0xF0 ≤ first ∧ first ≤ 0xF4 ∧ mayFollow first (safeGet b 1) then
    if isContinuation (safeGet b 2) then 3 else 2
  else 1

/-- The characters of some bytes, of which there are at most as many as the first argument. -/
def lossyFrom : ℕ → ByteArray → List Char
  | 0, _ => []
  | n + 1, b =>
    if b.size = 0 then []
    else
      match b.utf8DecodeChar? 0 with
      | some c => c :: lossyFrom n (b.extract c.utf8Size b.size)
      | none => replacement :: lossyFrom n (b.extract (invalidLength b) b.size)

/-- `String::from_utf8_lossy`. -/
def lossy (b : ByteArray) : String := .ofList (lossyFrom b.size b)

/-- Encoded characters are read back. -/
theorem lossyFrom_utf8Encode {cs : List Char} {n : ℕ} (h : cs.utf8Encode.size ≤ n) :
    lossyFrom n cs.utf8Encode = cs := by
  induction cs generalizing n with
  | nil => cases n <;> simp [lossyFrom]
  | cons c cs ih =>
    have hsize : [c].utf8Encode.size = c.utf8Size := by simp [List.utf8Encode_singleton]
    have hpos := c.utf8Size_pos
    have hcons : (c :: cs).utf8Encode = [c].utf8Encode ++ cs.utf8Encode := List.utf8Encode_cons
    have htotal : (c :: cs).utf8Encode.size = c.utf8Size + cs.utf8Encode.size := by
      rw [hcons, ByteArray.size_append, hsize]
    obtain ⟨n, rfl⟩ : ∃ m, n = m + 1 := ⟨n - 1, by omega⟩
    have hrest : (c :: cs).utf8Encode.extract c.utf8Size (c :: cs).utf8Encode.size =
        cs.utf8Encode := by
      rw [htotal, hcons]
      exact ByteArray.extract_append_eq_right hsize.symm (by rw [hsize])
    rw [lossyFrom, if_neg (by omega), List.utf8DecodeChar?_utf8Encode_cons]
    simp only [hrest]
    rw [ih (by omega)]

/-- **Round trip.** Text that has been encoded is read as it was. -/
theorem lossy_toUTF8 (s : String) : lossy s.toUTF8 = s := by
  obtain ⟨cs, rfl⟩ := s.exists_eq_ofList
  rw [String.toUTF8_eq_toByteArray, String.toByteArray_ofList, lossy,
    lossyFrom_utf8Encode (Nat.le_refl _)]

end Utf8
