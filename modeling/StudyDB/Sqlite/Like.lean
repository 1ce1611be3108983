import Mathlib.Data.List.Infix
import StudyDB.Sqlite.Utf8

/-! The LIKE operator without an escape character, as SQLite's `patternCompare`
evaluates it: backtracking over the bytes of a text, for the code points of a
pattern. -/

namespace StudyDB.Sqlite

/-! ### The matcher -/

/-- How a comparison ends; `noWildcardMatch` tells that no later start can match. -/
inductive Outcome where
  | isMatch | noMatch | noWildcardMatch
  deriving DecidableEq, Repr

def matchAll : ℕ := 0x25

def matchOne : ℕ := 0x5F

/-- `sqlite3Tolower`. -/
def toLower (c : ℕ) : ℕ := if 0x41 ≤ c ∧ c ≤ 0x5A then c + 0x20 else c

/-- `sqlite3Toupper`. -/
def toUpper (c : ℕ) : ℕ := if 0x61 ≤ c ∧ c ≤ 0x7A then c - 0x20 else c

/-- A code point of the pattern takes the one that is read from the text. -/
def Takes (c c' : ℕ) : Prop :=
  c = c' ∨ (toLower c = toLower c' ∧ c < 0x80 ∧ c' < 0x80) ∨ (c = matchOne ∧ c' ≠ 0)

instance (c c' : ℕ) : Decidable (Takes c c') := inferInstanceAs (Decidable (_ ∨ _))

section Search
variable (rest : List UInt8 → Outcome)

/-- Tries the rest of the pattern after each of the bytes that `strcspn` stops at. -/
def searchByte (stop : UInt8 → Bool) : List UInt8 → Outcome
  | [] => .noWildcardMatch
  | b :: s =>
    if stop b then
      match rest s with
      | .noMatch => searchByte stop s
      | outcome => outcome
    else searchByte stop s

/-- Tries the rest of the pattern after each time that the code point is read. -/
def searchCode (c : ℕ) : List UInt8 → Outcome
  | [] => .noWildcardMatch
  | b :: s =>
    if (utf8Read (b :: s)).1 = 0 then .noWildcardMatch
    else if (utf8Read (b :: s)).1 = c then
      match rest (utf8Read (b :: s)).2 with
      | .noMatch => searchCode c (utf8Read (b :: s)).2
      | outcome => outcome
    else searchCode c (utf8Read (b :: s)).2
termination_by s => s.length
decreasing_by all_goals exact Nat.lt_succ_of_le (length_utf8Read_cons b s)

end Search

mutual

/-- `patternCompare`. -/
def patternCompare : List ℕ → List UInt8 → Outcome
  | [], s => if s = [] then .isMatch else .noMatch
  | c :: p, s =>
    if c = matchAll then compareAfterAll p s
    else if Takes c (utf8Read s).1 then patternCompare p (utf8Read s).2
    else .noMatch

/-- What is done after a `matchAll`: more of them are skipped, and with each
`matchOne` a character; then the next code point is searched for. -/
def compareAfterAll : List ℕ → List UInt8 → Outcome
  | [], _ => .isMatch
  | c :: p, s =>
    if c = matchAll then compareAfterAll p s
    else if c = matchOne then
      if (utf8Read s).1 = 0 then .noWildcardMatch else compareAfterAll p (utf8Read s).2
    else if c ≤ 0x80 then searchByte (patternCompare p) (fun b => b.toNat = toUpper c ∨ b.toNat = toLower c) s
    else searchCode (patternCompare p) c s

end

/-- `SQLITE_MAX_LIKE_PATTERN_LENGTH`, in bytes. -/
def maxPatternLength : ℕ := 50000

/-- A comparison of texts: an error on a pattern that is too long, else NULL or a
truth value. -/
def likeText (pattern : String) (text : Option String) : Option (Option Bool) :=
  if maxPatternLength < pattern.utf8ByteSize then none
  else some (text.map fun t => decide (patternCompare (utf8ReadAll (textBytes (cString pattern).toList))
    (textBytes (cString t).toList) = .isMatch))

/-- `likeFunc`, as it is compiled here: a BLOB is like nothing. -/
def likeFunc (pattern : String) (v : SQLValue) : Option (Option Bool) :=
  if v.isBlob then some (some false) else likeText pattern v.columnText

theorem likeFunc_text (pattern t : String) : likeFunc pattern (.text t) = likeText pattern (some (cString t)) :=
  if_neg Bool.false_ne_true

theorem likeText_some {pattern t : String} {truth : Option Bool} (h : likeText pattern (some t) = some truth) :
    ∃ b, truth = some b := by
  rw [likeText] at h
  split_ifs at h
  exact ⟨_, (Option.some.inj h).symm⟩

/-- Only a pattern that is too long raises an error, and not on a BLOB. -/
theorem isSome_likeFunc_iff {pattern : String} {v : SQLValue} :
    (likeFunc pattern v).isSome = true ↔ v.isBlob = true ∨ pattern.utf8ByteSize ≤ maxPatternLength := by
  rw [likeFunc]
  split_ifs with hblob
  · simp [hblob]
  · rw [likeText]
    split_ifs with hlen
    · simp [hblob, hlen]
    · simp [Nat.not_lt.mp hlen]

/-! ### Bytes of characters -/

theorem encode_of_lt {c : Char} (h : c.toNat < 0x80) : String.utf8EncodeChar c = [UInt8.ofNat c.toNat] := by
  have hval : c.val.toNat = c.toNat := rfl
  rw [String.utf8EncodeChar]
  simp only [hval]
  rw [if_pos (by omega)]

theorem le_of_mem_encode {c : Char} (h : 0x80 ≤ c.toNat) : ∀ b ∈ String.utf8EncodeChar c, 0x80 ≤ b.toNat := by
  have hval : c.val.toNat = c.toNat := rfl
  intro b hb
  unfold String.utf8EncodeChar at hb
  simp only [hval] at hb
  split_ifs at hb
  · omega
  all_goals
    simp only [List.mem_cons, List.not_mem_nil, or_false] at hb
    rcases hb with rfl | rfl | rfl | rfl <;> rw [UInt8.toNat_ofNat'] <;> omega

/-! ### Patterns without wildcards -/

/-- A character that a pattern takes for itself, also when the reader replaces some
characters of the text. -/
def Literal (c : Char) : Prop := c ∉ ['\x00', '%', '_', '\uFFFD', '\uFFFE', '\uFFFF']

theorem Literal.toNat_ne {c d : Char} (h : Literal c) (hd : d ∈ ['\x00', '%', '_', '\uFFFD', '\uFFFE', '\uFFFF']) :
    c.toNat ≠ d.toNat := fun heq => h (Char.ext (UInt32.toNat_inj.mp heq) ▸ hd)

theorem Literal.readChar_eq {c : Char} (h : Literal c) : readChar c = c.toNat := by
  have hE : c.toNat ≠ 0xFFFE := h.toNat_ne (d := '\uFFFE') (by simp)
  have hF : c.toNat ≠ 0xFFFF := h.toNat_ne (d := '\uFFFF') (by simp)
  rw [readChar, if_neg (by omega)]

theorem toNat_toLower (c : Char) : c.toLower.toNat = toLower c.toNat := by
  have hle : c.val ≥ 'A'.val ∧ c.val ≤ 'Z'.val ↔ 0x41 ≤ c.toNat ∧ c.toNat ≤ 0x5A := Iff.rfl
  unfold Char.toLower
  split_ifs with h
  · have h' := hle.mp h
    change (c.val + 0x20).toNat = _
    have hval : c.val.toNat = c.toNat := rfl
    rw [UInt32.toNat_add, hval, toLower, if_pos h']
    exact Nat.mod_eq_of_lt (by change c.toNat + 32 < 2 ^ 32; omega)
  · rw [toLower, if_neg (hle.not.mp h)]

/-- Characters are the same up to ASCII case if their code points are. -/
theorem toLower_eq_iff {c d : Char} : c.toLower = d.toLower ↔ toLower c.toNat = toLower d.toNat := by
  rw [← toNat_toLower, ← toNat_toLower]
  exact ⟨congrArg Char.toNat, fun h => Char.ext (UInt32.toNat_inj.mp h)⟩

/-- A literal character takes exactly the characters that are the same up to case. -/
theorem Literal.takes_iff {c : Char} (h : Literal c) (d : Char) :
    Takes (readChar c) (readChar d) ↔ c.toLower = d.toLower := by
  have h0 : c.toNat ≠ 0 := h.toNat_ne (d := '\x00') (by simp)
  have hone : c.toNat ≠ 0x5F := h.toNat_ne (d := '_') (by simp)
  have hD : c.toNat ≠ 0xFFFD := h.toNat_ne (d := '\uFFFD') (by simp)
  have hE : c.toNat ≠ 0xFFFE := h.toNat_ne (d := '\uFFFE') (by simp)
  have hF : c.toNat ≠ 0xFFFF := h.toNat_ne (d := '\uFFFF') (by simp)
  rw [toLower_eq_iff, h.readChar_eq, Takes, readChar, matchOne]
  unfold toLower
  split_ifs <;> omega

/-- The end of the text is not taken. -/
theorem not_takes_zero {c : ℕ} (h : c ≠ 0) : ¬Takes c 0 := by
  rintro (h0 | ⟨h0, -⟩ | ⟨-, h0⟩)
  · exact h h0
  · unfold toLower at h0
    split_ifs at h0 <;> omega
  · exact h0 rfl

/-- A pattern of literal characters before the last wildcard is a prefix. -/
theorem patternCompare_literal {w : List Char} (hw : ∀ c ∈ w, Literal c) (t : List Char) :
    patternCompare (w.map readChar ++ [matchAll]) (textBytes t) =
      if w.map Char.toLower <+: t.map Char.toLower then .isMatch else .noMatch := by
  induction w generalizing t with
  | nil => simp [patternCompare, compareAfterAll]
  | cons c w ih =>
    have hc : Literal c := hw c List.mem_cons_self
    have hall : readChar c ≠ matchAll := by
      rw [hc.readChar_eq]
      exact hc.toNat_ne (d := '%') (by simp)
    have hrest := ih fun c' hc' => hw c' (List.mem_cons_of_mem c hc')
    rw [List.map_cons, List.cons_append, patternCompare, if_neg hall]
    cases t with
    | nil =>
      have h0 : readChar c ≠ 0 := by
        rw [hc.readChar_eq]
        exact hc.toNat_ne (d := '\x00') (by simp)
      rw [textBytes_nil, utf8Read, if_neg (not_takes_zero h0), if_neg (by simp)]
    | cons d t =>
      simp only [utf8Read_textBytes_cons, hc.takes_iff, hrest, List.map_cons, List.cons_prefix_cons]
      split_ifs <;> tauto

/-- A search that tries the rest after each character that is the first of the
pattern up to case finds the places where the pattern stands. -/
theorem search_eq_ite {c : Char} {w : List Char} {f rest : List Char → Outcome}
    (hnil : f [] = .noWildcardMatch)
    (hcons : ∀ d t, d ≠ '\x00' → f (d :: t) =
      if c.toLower = d.toLower then match rest t with | .noMatch => f t | outcome => outcome else f t)
    (hrest : ∀ t, rest t = if w.map Char.toLower <+: t.map Char.toLower then .isMatch else .noMatch)
    {t : List Char} (ht : '\x00' ∉ t) :
    f t = if (c :: w).map Char.toLower <:+: t.map Char.toLower then .isMatch else .noWildcardMatch := by
  induction t with
  | nil => simp [hnil]
  | cons d t ih =>
    rw [List.mem_cons, not_or] at ht
    rw [hcons d t (Ne.symm ht.1), hrest, ih ht.2]
    simp only [List.map_cons, List.infix_cons_iff, List.cons_prefix_cons]
    split_ifs <;> simp_all

/-- `strcspn` passes over the bytes of characters that are not in ASCII. -/
theorem searchByte_append {rest : List UInt8 → Outcome} {stop : UInt8 → Bool} {bs : List UInt8}
    (h : ∀ b ∈ bs, stop b = false) (s : List UInt8) : searchByte rest stop (bs ++ s) = searchByte rest stop s := by
  induction bs with
  | nil => rfl
  | cons b bs ih =>
    rw [List.cons_append, searchByte, h b List.mem_cons_self]
    exact ih fun b' hb' => h b' (List.mem_cons_of_mem b hb')

/-- The bytes that a search for an ASCII letter stops at. -/
theorem stops_iff {c d : Char} (hc : c.toNat < 0x80) :
    d.toNat = toUpper c.toNat ∨ d.toNat = toLower c.toNat ↔ c.toLower = d.toLower := by
  rw [toLower_eq_iff]
  unfold toUpper toLower
  split_ifs <;> omega

theorem searchByte_cons (rest : List UInt8 → Outcome) {c : Char} (hc : c.toNat < 0x80) (d : Char) (t : List Char) :
    searchByte rest (fun b => b.toNat = toUpper c.toNat ∨ b.toNat = toLower c.toNat) (textBytes (d :: t)) =
      if c.toLower = d.toLower then
        match rest (textBytes t) with
        | .noMatch => searchByte rest (fun b => b.toNat = toUpper c.toNat ∨ b.toNat = toLower c.toNat) (textBytes t)
        | outcome => outcome
      else searchByte rest (fun b => b.toNat = toUpper c.toNat ∨ b.toNat = toLower c.toNat) (textBytes t) := by
  rw [textBytes_cons]
  by_cases hd : d.toNat < 0x80
  · have hb : (UInt8.ofNat d.toNat).toNat = d.toNat := by
      rw [UInt8.toNat_ofNat']
      omega
    rw [encode_of_lt hd, List.cons_append, List.nil_append, searchByte]
    simp only [hb, stops_iff hc, decide_eq_true_eq]
  · have hne : ¬c.toLower = d.toLower := by
      rw [← stops_iff hc]
      unfold toUpper toLower
      split_ifs <;> omega
    rw [if_neg hne, searchByte_append]
    intro b hb
    have hle := le_of_mem_encode (Nat.le_of_not_lt hd) b hb
    rw [decide_eq_false_iff_not]
    unfold toUpper toLower
    split_ifs <;> omega

theorem readChar_ne_zero {c : Char} (h : c ≠ '\x00') : readChar c ≠ 0 := by
  have hc : c.toNat ≠ 0 := fun h0 => h (Char.ext (UInt32.toNat_inj.mp h0))
  rw [readChar]
  split_ifs
  · omega
  · exact hc

theorem searchCode_cons (rest : List UInt8 → Outcome) (n : ℕ) {d : Char} (hd : d ≠ '\x00') (t : List Char) :
    searchCode rest n (textBytes (d :: t)) =
      if readChar d = n then
        match rest (textBytes t) with
        | .noMatch => searchCode rest n (textBytes t)
        | outcome => outcome
      else searchCode rest n (textBytes t) := by
  have h0 : readChar d ≠ 0 := readChar_ne_zero hd
  have hread := utf8Read_textBytes_cons d t
  obtain ⟨b, s, hs⟩ := textBytes_cons_eq d t
  rw [hs] at hread ⊢
  rw [searchCode, hread, if_neg h0]

/-- A pattern of literal characters between two wildcards stands somewhere in the
text. A first character U+0080 is excepted: it is searched for as a byte, which
many characters have. -/
theorem compareAfterAll_literal {c : Char} {w t : List Char} (hw : ∀ d ∈ c :: w, Literal d) (hc : c ≠ '\u0080')
    (ht : '\x00' ∉ t) :
    compareAfterAll ((c :: w).map readChar ++ [matchAll]) (textBytes t) =
      if (c :: w).map Char.toLower <:+: t.map Char.toLower then .isMatch else .noWildcardMatch := by
  have hlit : Literal c := hw c List.mem_cons_self
  have hrest := patternCompare_literal fun d hd => hw d (List.mem_cons_of_mem c hd)
  have hall : c.toNat ≠ matchAll := hlit.toNat_ne (d := '%') (by simp)
  have hone : c.toNat ≠ matchOne := hlit.toNat_ne (d := '_') (by simp)
  have h80 : c.toNat ≠ 0x80 := fun h => hc (Char.ext (UInt32.toNat_inj.mp h))
  rw [List.map_cons, List.cons_append, compareAfterAll, hlit.readChar_eq, if_neg hall, if_neg hone]
  by_cases hle : c.toNat ≤ 0x80
  · rw [if_pos hle]
    exact search_eq_ite (f := fun t => searchByte _ _ (textBytes t)) rfl
      (fun d t _ => searchByte_cons _ (by omega) d t) hrest ht
  · rw [if_neg hle]
    refine search_eq_ite (f := fun t => searchCode _ _ (textBytes t)) ?_ (fun d t hd => ?_) hrest ht
    · simp only [textBytes_nil, searchCode]
    · have hD : c.toNat ≠ 0xFFFD := hlit.toNat_ne (d := '\uFFFD') (by simp)
      have hE : c.toNat ≠ 0xFFFE := hlit.toNat_ne (d := '\uFFFE') (by simp)
      have hF : c.toNat ≠ 0xFFFF := hlit.toNat_ne (d := '\uFFFF') (by simp)
      have hiff : readChar d = c.toNat ↔ c.toLower = d.toLower := by
        rw [toLower_eq_iff, readChar]
        unfold toLower
        split_ifs <;> omega
      simp only [searchCode_cons _ _ hd, hiff]

/-! ### Patterns with wildcards -/

/-- A text that fits a pattern without backtracking: nothing stands for a `%`, and
one character for each other one. -/
inductive Fits : List Char → List Char → Prop
  | nil : Fits [] []
  | all {p t : List Char} : Fits p t → Fits ('%' :: p) t
  | one {p t : List Char} {d : Char} (hd : d ≠ '\x00') : Fits p t → Fits ('_' :: p) (d :: t)
  | char {p t : List Char} {c d : Char} (hc : c ≠ '%') (hd : d ≠ '\x00') (h : readChar c = readChar d) :
      Fits p t → Fits (c :: p) (d :: t)

theorem readChar_ne {c d : Char} (h : c ≠ d) (hd : d.toNat < 0x80) : readChar c ≠ d.toNat := by
  have hc : c.toNat ≠ d.toNat := fun heq => h (Char.ext (UInt32.toNat_inj.mp heq))
  rw [readChar]
  split_ifs
  · omega
  · exact hc

/-- U+0080 is found at the second byte of a character of two bytes that has it. -/
theorem searchByte_u0080 (rest : List UInt8 → Outcome) {n : ℕ} (hn : n % 256 ≠ 0x80) (s : List UInt8)
    (h : rest s = .isMatch) :
    searchByte rest (fun b => b.toNat = toUpper 0x80 ∨ b.toNat = toLower 0x80) (UInt8.ofNat n :: 0x80 :: s) =
      .isMatch := by
  simp [searchByte, toUpper, toLower, UInt8.toNat_ofNat', hn, h]

/-- The matcher takes every text that fits at its first try. -/
theorem Fits.isMatch {p t : List Char} (h : Fits p t) :
    patternCompare (p.map readChar) (textBytes t) = .isMatch ∧
      compareAfterAll (p.map readChar) (textBytes t) = .isMatch := by
  induction h with
  | nil => exact ⟨rfl, rfl⟩
  | all h ih =>
    have hread : readChar '%' = matchAll := rfl
    rw [List.map_cons, patternCompare, compareAfterAll, if_pos hread]
    exact ⟨ih.2, ih.2⟩
  | @one p t d hd h ih =>
    have hread : readChar '_' = matchOne := rfl
    have hall : readChar '_' ≠ matchAll := by decide
    have htakes : Takes (readChar '_') (readChar d) := .inr (.inr ⟨hread, readChar_ne_zero hd⟩)
    rw [List.map_cons, patternCompare, compareAfterAll, utf8Read_textBytes_cons, if_neg hall, if_neg hall,
      if_pos hread, if_pos htakes, if_neg (readChar_ne_zero hd)]
    exact ih
  | @char p t c d hc hd heq h ih =>
    have hall : readChar c ≠ matchAll := readChar_ne (d := '%') hc (by decide)
    have htakes : Takes (readChar c) (readChar d) := .inl heq
    refine ⟨?_, ?_⟩
    · rw [List.map_cons, patternCompare, utf8Read_textBytes_cons, if_neg hall, if_pos htakes]
      exact ih.1
    · rw [List.map_cons, compareAfterAll, if_neg hall, utf8Read_textBytes_cons, if_neg (readChar_ne_zero hd)]
      split_ifs with hone hle
      · exact ih.2
      · have hcd : c.toNat = d.toNat ∧ readChar c = c.toNat := by
          unfold readChar at heq hle ⊢
          split_ifs at heq hle ⊢ <;> omega
        obtain rfl : c = d := Char.ext (UInt32.toNat_inj.mp hcd.1)
        rw [hcd.2] at hle ⊢
        by_cases hlt : c.toNat < 0x80
        · rw [searchByte_cons _ hlt, if_pos rfl, ih.1]
        · obtain rfl : c = '\u0080' := Char.ext (UInt32.toNat_inj.mp (show c.toNat = 0x80 by omega))
          exact searchByte_u0080 _ (by decide) _ ih.1
      · rw [searchCode_cons _ _ hd, if_pos heq.symm, ih.1]

/-- U+0080 is also found in U+0100. -/
theorem Fits.isMatch_u0080 {p t : List Char} (h : Fits p t) :
    compareAfterAll (('\u0080' :: p).map readChar) (textBytes ('\u0100' :: t)) = .isMatch := by
  rw [List.map_cons, compareAfterAll, if_neg (by decide), if_neg (by decide), if_pos (by decide)]
  exact searchByte_u0080 (n := 0xC4) _ (by decide) _ h.isMatch.1

end StudyDB.Sqlite
