import Mathlib.Data.List.TakeWhile
import StudyDB.Sqlite.Value

/-! How SQLite reads UTF-8 text. The reader takes all continuation bytes that
follow a lead byte, and gives the replacement character for some code points that
text may well have. Proved: what it makes of the bytes of a text. -/

namespace StudyDB.Sqlite

/-! ### The reader -/

/-- The bytes of a text, as a C string. -/
def textBytes (cs : List Char) : List UInt8 := cs.flatMap String.utf8EncodeChar

/-- `sqlite3Utf8Trans1`: the bits of a code point in its lead byte. -/
def leadBits (b : ℕ) : ℕ :=
  if b < 0xE0 then b - 0xC0
  else if b < 0xF0 then b - 0xE0
  else if b < 0xF8 then b - 0xF0
  else if b < 0xFC then b - 0xF8
  else if b < 0xFE then b - 0xFC
  else 0

def isContinuation (b : UInt8) : Prop := 0x80 ≤ b.toNat ∧ b.toNat < 0xC0

instance (b : UInt8) : Decidable (isContinuation b) := inferInstanceAs (Decidable (_ ∧ _))

/-- The continuation bytes in front, shifted in. -/
def readContinuation (c : ℕ) : List UInt8 → ℕ × List UInt8
  | [] => (c, [])
  | b :: s => if isContinuation b then readContinuation (c * 64 + b.toNat % 64) s else (c, b :: s)

/-- Overlong encodings, surrogates and the last two code points of the first plane
are replaced. -/
def replaced (c : ℕ) : ℕ :=
  if c < 0x80 ∨ (0xD800 ≤ c ∧ c < 0xE000) ∨ c = 0xFFFE ∨ c = 0xFFFF then 0xFFFD else c

/-- `sqlite3Utf8Read`: the code point in front, zero at the end, and the rest. -/
def utf8Read : List UInt8 → ℕ × List UInt8
  | [] => (0, [])
  | b :: s =>
    if b.toNat < 0xC0 then (b.toNat, s)
    else (replaced (readContinuation (leadBits b.toNat) s).1, (readContinuation (leadBits b.toNat) s).2)

theorem length_readContinuation_le (c : ℕ) (s : List UInt8) : (readContinuation c s).2.length ≤ s.length := by
  induction s generalizing c with
  | nil => exact le_rfl
  | cons b s ih =>
    rw [readContinuation]
    split_ifs
    · exact (ih _).trans (by simp)
    · exact le_rfl

/-- Reading a byte leaves fewer. -/
theorem length_utf8Read_cons (b : UInt8) (s : List UInt8) : (utf8Read (b :: s)).2.length ≤ s.length := by
  rw [utf8Read]
  split_ifs
  · exact le_rfl
  · exact length_readContinuation_le _ s

/-- The code points that are read one after the other. -/
def utf8ReadAll : List UInt8 → List ℕ
  | [] => []
  | b :: s => (utf8Read (b :: s)).1 :: utf8ReadAll (utf8Read (b :: s)).2
termination_by s => s.length
decreasing_by exact Nat.lt_succ_of_le (length_utf8Read_cons b s)

/-! ### Texts -/

/-- What the reader makes of a character. -/
def readChar (c : Char) : ℕ := if c.toNat = 0xFFFE ∨ c.toNat = 0xFFFF then 0xFFFD else c.toNat

/-- The text does not go on with a continuation byte. -/
def AtBoundary (s : List UInt8) : Prop := ∀ b ∈ s.head?, ¬isContinuation b

@[simp] theorem textBytes_nil : textBytes [] = [] := rfl

@[simp] theorem textBytes_cons (c : Char) (cs : List Char) :
    textBytes (c :: cs) = String.utf8EncodeChar c ++ textBytes cs := rfl

theorem readContinuation_of_boundary {s : List UInt8} (h : AtBoundary s) (c : ℕ) :
    readContinuation c s = (c, s) := by
  cases s with
  | nil => rfl
  | cons b s => rw [readContinuation, if_neg (h b rfl)]

theorem readContinuation_cons {n : ℕ} (h : n < 64) (c : ℕ) (s : List UInt8) :
    readContinuation c (UInt8.ofNat (n + 0x80) :: s) = readContinuation (c * 64 + n) s := by
  have hb : (UInt8.ofNat (n + 0x80)).toNat = n + 0x80 := by
    rw [UInt8.toNat_ofNat']
    omega
  rw [readContinuation, if_pos (by rw [isContinuation, hb]; omega), hb, show (n + 0x80) % 64 = n by omega]

theorem utf8Read_lead {n : ℕ} (h : 0xC0 ≤ n ∧ n < 0x100) (s : List UInt8) :
    utf8Read (UInt8.ofNat n :: s) =
      (replaced (readContinuation (leadBits n) s).1, (readContinuation (leadBits n) s).2) := by
  have hb : (UInt8.ofNat n).toNat = n := by
    rw [UInt8.toNat_ofNat']
    omega
  rw [utf8Read, if_neg (by rw [hb]; omega), hb]

theorem toNat_lt_or (c : Char) : c.toNat < 0xD800 ∨ (0xE000 ≤ c.toNat ∧ c.toNat < 0x110000) := by
  have h : c.val.toNat.isValidChar := c.valid
  have hval : c.val.toNat = c.toNat := rfl
  rw [hval, Nat.isValidChar] at h
  omega

/-- Of the code points of characters two are replaced. -/
theorem replaced_toNat {c : Char} (h : 0x80 ≤ c.toNat) : replaced c.toNat = readChar c := by
  have hc := toNat_lt_or c
  rw [replaced, readChar]
  split_ifs <;> omega

/-- The reader reads one character of a text. -/
theorem utf8Read_encode (c : Char) {s : List UInt8} (h : AtBoundary s) :
    utf8Read (String.utf8EncodeChar c ++ s) = (readChar c, s) := by
  have hc := toNat_lt_or c
  have hval : c.val.toNat = c.toNat := rfl
  unfold String.utf8EncodeChar
  simp only [hval]
  split_ifs with h₁ h₂ h₃
  · have hb : (UInt8.ofNat c.toNat).toNat = c.toNat := by
      rw [UInt8.toNat_ofNat']
      omega
    have hchar : readChar c = c.toNat := by
      rw [readChar, if_neg (by omega)]
    rw [List.cons_append, List.nil_append, utf8Read, if_pos (by omega), hb, hchar]
  · rw [List.cons_append, utf8Read_lead (by omega), List.cons_append, readContinuation_cons (by omega),
      List.nil_append, readContinuation_of_boundary h, ← replaced_toNat (by omega)]
    rw [leadBits, if_pos (by omega)]
    congr 2
    omega
  · rw [List.cons_append, utf8Read_lead (by omega), List.cons_append, readContinuation_cons (by omega),
      List.cons_append, readContinuation_cons (by omega),
      List.nil_append, readContinuation_of_boundary h, ← replaced_toNat (by omega)]
    rw [leadBits, if_neg (by omega), if_pos (by omega)]
    congr 2
    omega
  · rw [List.cons_append, utf8Read_lead (by omega), List.cons_append, readContinuation_cons (by omega),
      List.cons_append, readContinuation_cons (by omega), List.cons_append, readContinuation_cons (by omega),
      List.nil_append, readContinuation_of_boundary h, ← replaced_toNat (by omega)]
    rw [leadBits, if_neg (by omega), if_neg (by omega), if_pos (by omega)]
    congr 2
    omega

/-- A character starts with no continuation byte. -/
theorem atBoundary_encode (c : Char) (s : List UInt8) : AtBoundary (String.utf8EncodeChar c ++ s) := by
  have hval : c.val.toNat = c.toNat := rfl
  unfold String.utf8EncodeChar
  simp only [hval]
  split_ifs <;>
  · intro b hb
    obtain rfl := Option.some.inj hb
    rw [isContinuation, UInt8.toNat_ofNat']
    omega

theorem atBoundary_textBytes (cs : List Char) : AtBoundary (textBytes cs) := by
  cases cs with
  | nil => exact fun b hb => nomatch hb
  | cons c cs => exact atBoundary_encode c _

/-- The reader reads the first character of a text. -/
@[simp] theorem utf8Read_textBytes_cons (c : Char) (cs : List Char) :
    utf8Read (textBytes (c :: cs)) = (readChar c, textBytes cs) :=
  utf8Read_encode c (atBoundary_textBytes cs)

theorem textBytes_cons_eq (c : Char) (cs : List Char) : ∃ b s, textBytes (c :: cs) = b :: s := by
  cases h : String.utf8EncodeChar c with
  | nil => exact absurd h String.utf8EncodeChar_ne_nil
  | cons b s => exact ⟨b, s ++ textBytes cs, by rw [textBytes_cons, h, List.cons_append]⟩

/-- The reader reads the characters of a text one after the other. -/
theorem utf8ReadAll_textBytes (cs : List Char) : utf8ReadAll (textBytes cs) = cs.map readChar := by
  induction cs with
  | nil => rw [textBytes_nil, utf8ReadAll, List.map_nil]
  | cons c cs ih =>
    obtain ⟨b, s, hs⟩ := textBytes_cons_eq c cs
    have hread := utf8Read_textBytes_cons c cs
    rw [hs] at hread ⊢
    rw [utf8ReadAll, hread, ih, List.map_cons]

end StudyDB.Sqlite
