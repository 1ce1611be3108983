import StudyDB.Data.Decimal
import StudyDB.Sqlite.Token

/-! Texts that are read as the same tokens before any rest that a blank, a comma or a
closing parenthesis begins. Proved: words, numbers, strings and operators are such texts,
and so is what blanks, commas and parentheses put together out of them. -/

namespace StudyDB.Sqlite

theorem tokenize_of_space {c : Char} {s rest : List Char} (h : getSpace c s = some rest) :
    tokenize (c :: s) = tokenize rest := by
  rw [tokenize]
  split
  · rename_i heq
    rw [Option.some.inj (heq.symm.trans h)]
  · rename_i heq
    cases heq.symm.trans h

theorem tokenize_of_token {c : Char} {s : List Char} (h : getSpace c s = none) :
    tokenize (c :: s) = (getToken c s).1 :: tokenize (getToken c s).2 := by
  rw [tokenize]
  split
  · rename_i heq
    cases heq.symm.trans h
  · rfl

/-- What no word, number or parameter goes on with. -/
def Delimited (rest : List Char) : Prop := ∀ c ∈ rest.head?, c = ' ' ∨ c = ')' ∨ c = ','

/-- What is delimited is empty, or begins in one of three ways. -/
theorem Delimited.cases {rest : List Char} (h : Delimited rest) :
    rest = [] ∨ ∃ s, rest = ' ' :: s ∨ rest = ')' :: s ∨ rest = ',' :: s := by
  cases rest with
  | nil => exact .inl rfl
  | cons c s => exact .inr ⟨s, by rcases h c rfl with rfl | rfl | rfl <;> simp⟩

/-- Read as the same tokens wherever it stands. -/
structure Lexes (cs : List Char) (ts : List Token) : Prop where
  dark : ∃ c s, cs = c :: s ∧ isSpace c = false
  nulFree : '\x00' ∉ cs
  tokens : ∀ rest, Delimited rest → tokenize (cs ++ rest) = ts ++ tokenize rest

theorem Lexes.tokenize_eq {cs : List Char} {ts : List Token} (h : Lexes cs ts) : tokenize cs = ts := by
  have hnil : tokenize [] = [] := by rw [tokenize]
  have htokens := h.tokens [] (by simp [Delimited])
  rwa [List.append_nil, hnil, List.append_nil] at htokens

/-- A blank before what is dark. -/
theorem tokenize_blank {c : Char} (hc : isSpace c = false) (s : List Char) :
    tokenize (' ' :: c :: s) = tokenize (c :: s) := by
  have hspace : getSpace ' ' (c :: s) = some (c :: s) := by
    rw [getSpace.eq_def, if_pos (by decide), List.dropWhile_cons_of_neg (by simp [hc])]
  exact tokenize_of_space hspace

/-- A token that begins with a character and does not go on. -/
theorem lexes_of_getToken {c : Char} {s : List Char} {t : Token} (hc : isSpace c = false) (hnul : '\x00' ∉ c :: s)
    (h : ∀ rest, Delimited rest → getSpace c (s ++ rest) = none ∧ getToken c (s ++ rest) = (t, rest)) :
    Lexes (c :: s) [t] where
  dark := ⟨c, s, rfl, hc⟩
  nulFree := hnul
  tokens rest hrest := by
    obtain ⟨hspace, htoken⟩ := h rest hrest
    rw [List.cons_append, tokenize_of_token hspace, htoken]
    rfl

/-! ### Words -/

theorem dropWhile_eq_self {p : Char → Bool} {s : List Char} (h : ∀ c ∈ s.head?, p c = false) :
    s.dropWhile p = s := by
  cases s with
  | nil => rfl
  | cons c s => exact List.dropWhile_cons_of_neg (by simp [h c rfl])

theorem takeWhile_eq_nil {p : Char → Bool} {s : List Char} (h : ∀ c ∈ s.head?, p c = false) :
    s.takeWhile p = [] := by
  cases s with
  | nil => rfl
  | cons c s => exact List.takeWhile_cons_of_neg (by simp [h c rfl])

/-- Characters of one kind, up to one of another kind. -/
theorem takeWhile_append_of_head {p : Char → Bool} {s rest : List Char} (hs : s.all p = true)
    (hrest : ∀ c ∈ rest.head?, p c = false) :
    (s ++ rest).takeWhile p = s ∧ (s ++ rest).dropWhile p = rest := by
  rw [List.all_eq_true] at hs
  rw [List.takeWhile_append_of_pos hs, List.dropWhile_append_of_pos hs, takeWhile_eq_nil hrest,
    dropWhile_eq_self hrest, List.append_nil]
  exact ⟨rfl, rfl⟩

/-- What a word may begin with. -/
def beginsWord (c : Char) : Bool := isKeywordChar c || 0x80 ≤ c.toNat

/-- The token of a word. -/
def wordToken (word : List Char) : Token := if word.all isKeywordChar then keywordCode word else .id word

/-- What a word does not go on with: the quote would make a BLOB of an `x`. -/
def EndsWord (rest : List Char) : Prop := ∀ c ∈ rest.head?, isIdChar c = false ∧ c ≠ '\''

theorem isAlpha_eq (c : Char) : c.isAlpha =
    (decide ('A'.val ≤ c.val ∧ c.val ≤ 'Z'.val) || (decide ('a'.val ≤ c.val) && decide (c.val ≤ 'z'.val))) := rfl

theorem not_isDigit_of_beginsWord {c : Char} (hc : beginsWord c = true) : c.isDigit = false := by
  simp only [beginsWord, isKeywordChar, isAlpha_eq, Char.isDigit, Char.toNat, ge_iff_le,
    Bool.or_eq_true, Bool.and_eq_true, decide_eq_true_eq, Bool.and_eq_false_iff, decide_eq_false_iff_not,
    UInt32.le_iff_toNat_le, Char.ext_iff, UInt32.toNat_inj.symm] at hc ⊢
  simp at hc ⊢
  omega

theorem getBlob_eq_getWord (c : Char) {s : List Char} (h : ∀ d ∈ s.head?, d ≠ '\'') :
    getBlob c s = getWord c s := by
  unfold getBlob
  split
  · exact absurd rfl (h _ rfl)
  · rfl

theorem getToken_word {c : Char} {s rest : List Char} (hc : beginsWord c = true) (hs : s.all isIdChar = true)
    (hrest : EndsWord rest) : getToken c (s ++ rest) = (wordToken (c :: s), rest) := by
  obtain ⟨htake, hdrop⟩ := takeWhile_append_of_head hs fun d hd => (hrest d hd).1
  have hword : getWord c (s ++ rest) = (wordToken (c :: s), rest) := by
    rw [getWord, htake, hdrop]
    rfl
  have hne : ∀ d, beginsWord d = false → c ≠ d := fun d hd => by
    rintro rfl
    cases hc.symm.trans hd
  have hquote : ¬(c = '\'' ∨ c = '"' ∨ c.toNat = 0x60) := by
    rintro (heq | heq | heq)
    · exact hne '\'' (by decide) heq
    · exact hne '"' (by decide) heq
    · exact hne '\x60' (by decide) (Char.toNat_inj.mp heq)
  have hvariable : c ∉ ['$', '@', ':', '#'] := by
    simpa using ⟨hne '$' (by decide), hne '@' (by decide), hne ':' (by decide), hne '#' (by decide)⟩
  have hblob : ∀ d ∈ (s ++ rest).head?, d ≠ '\'' := by
    cases s with
    | nil => exact fun d hd => (hrest d hd).2
    | cons d s =>
      have hd : isIdChar d = true := List.all_eq_true.mp hs d List.mem_cons_self
      rintro e he rfl
      cases he
      exact absurd hd (by decide)
  have hbegins : isKeywordChar c = true ∨ 0x80 ≤ c.toNat := by simpa [beginsWord] using hc
  rw [getToken, if_neg hquote, if_neg (hne '[' (by decide)), if_neg (hne '.' (by decide)),
    if_neg (by simp [not_isDigit_of_beginsWord hc]), if_neg (hne '?' (by decide)), if_neg hvariable,
    getBlob_eq_getWord c hblob, hword, if_pos hbegins, ite_self]

theorem getSpace_of_dark {c : Char} {s : List Char} (hc : isSpace c = false) (hminus : c ≠ '-') (hslash : c ≠ '/') :
    getSpace c s = none := by
  unfold getSpace
  rw [if_neg (by simp [hc])]
  split
  · exact absurd rfl hminus
  · exact absurd rfl hslash
  · rfl

theorem ne_of_beginsWord {c d : Char} (hc : beginsWord c = true) (hd : beginsWord d = false) : c ≠ d := by
  rintro rfl
  cases hc.symm.trans hd

theorem not_isSpace_of_beginsWord {c : Char} (hc : beginsWord c = true) : isSpace c = false := by
  simp only [beginsWord, isKeywordChar, isSpace, isAlpha_eq, Char.toNat, Bool.or_eq_true, Bool.and_eq_true,
    decide_eq_true_eq, Bool.or_eq_false_iff, Bool.and_eq_false_iff, decide_eq_false_iff_not, UInt32.le_iff_toNat_le, Char.ext_iff, UInt32.toNat_inj.symm] at hc ⊢
  simp at hc ⊢
  omega

theorem tokenize_word {c : Char} {s rest : List Char} (hc : beginsWord c = true) (hs : s.all isIdChar = true)
    (hrest : EndsWord rest) : tokenize (c :: s ++ rest) = wordToken (c :: s) :: tokenize rest := by
  have hnone : getSpace c (s ++ rest) = none :=
    getSpace_of_dark (not_isSpace_of_beginsWord hc) (ne_of_beginsWord hc (by decide))
      (ne_of_beginsWord hc (by decide))
  rw [List.cons_append, tokenize_of_token hnone, getToken_word hc hs hrest]

theorem Delimited.endsWord {rest : List Char} (h : Delimited rest) : EndsWord rest := fun c hc => by
  rcases h c hc with rfl | rfl | rfl <;> decide

/-- The words that are read as one token. -/
def isWord : List Char → Bool
  | [] => false
  | c :: s => beginsWord c && s.all isIdChar

theorem isIdChar_of_beginsWord {c : Char} (hc : beginsWord c = true) : isIdChar c = true := by
  simp only [beginsWord, isKeywordChar, isIdChar, Char.isAlphanum, Bool.or_eq_true, decide_eq_true_eq] at hc ⊢
  tauto

theorem all_isIdChar_of_isWord {word : List Char} (h : isWord word = true) : ∀ c ∈ word, isIdChar c = true := by
  cases word with
  | nil => cases h
  | cons c s =>
    rw [isWord, Bool.and_eq_true] at h
    rintro d (_ | ⟨_, hd⟩)
    · exact isIdChar_of_beginsWord h.1
    · exact List.all_eq_true.mp h.2 d hd

theorem tokenize_isWord {word rest : List Char} (h : isWord word = true) (hrest : EndsWord rest) :
    tokenize (word ++ rest) = wordToken word :: tokenize rest := by
  cases word with
  | nil => cases h
  | cons c s =>
    rw [isWord, Bool.and_eq_true] at h
    exact tokenize_word h.1 h.2 hrest

theorem lexes_word {word : List Char} (h : isWord word = true) : Lexes word [wordToken word] where
  dark := by
    cases word with
    | nil => cases h
    | cons c s => exact ⟨c, s, rfl, not_isSpace_of_beginsWord (Bool.and_eq_true _ _ ▸ h).1⟩
  nulFree := fun hmem => absurd (all_isIdChar_of_isWord h _ hmem) (by decide)
  tokens rest hrest := tokenize_isWord h hrest.endsWord

/-- The words that are names, because they are no keywords. -/
def isName (word : List Char) : Bool := isWord word && wordToken word = .id word

theorem isWord_of_isName {word : List Char} (h : isName word = true) : isWord word = true :=
  (Bool.and_eq_true _ _ ▸ h).1

theorem wordToken_of_isName {word : List Char} (h : isName word = true) : wordToken word = .id word :=
  of_decide_eq_true (Bool.and_eq_true _ _ ▸ h).2

theorem lexes_keyword {word : List Char} {t : Token} (h : isWord word = true) (ht : wordToken word = t) :
    Lexes word [t] :=
  ht ▸ lexes_word h

theorem lexes_name {word : List Char} (h : isName word = true) : Lexes word [.id word] :=
  lexes_keyword (isWord_of_isName h) (wordToken_of_isName h)

/-- A name does not begin with a digit. -/
theorem head_of_isName {word : List Char} (h : isName word = true) : ∀ c ∈ word.head?, c.isDigit = false := by
  have hword := isWord_of_isName h
  cases word with
  | nil => cases hword
  | cons c s =>
    rintro d hd
    cases hd
    exact not_isDigit_of_beginsWord (Bool.and_eq_true _ _ ▸ hword).1

/-! ### Numbers -/

theorem getNumber_decimal {c : Char} {s rest : List Char} (hs : s.all Char.isDigit = true) (hrest : Delimited rest) :
    getNumber.decimal c (s ++ rest) = (.term (.integer (c :: s)), rest) := by
  have hdigit : ∀ d ∈ rest.head?, d.isDigit = false := fun d hd => by
    rcases hrest d hd with rfl | rfl | rfl <;> decide
  have hfraction : readFraction rest = ([], rest) := by
    unfold readFraction
    split
    · rcases hrest _ rfl with h | h | h <;> cases h
    · rfl
  have hexponent : readExponent rest = ([], rest) := by
    unfold readExponent
    split
    · rename_i e d s
      rw [if_neg]
      rcases hrest e rfl with rfl | rfl | rfl <;> simp
    · rfl
  have hend : rest.head?.any isIdChar = false := by
    cases h : rest.head? with
    | none => rfl
    | some d => exact (hrest.endsWord d h).1
  obtain ⟨htake, hdrop⟩ := takeWhile_append_of_head hs hdigit
  simp only [getNumber.decimal, htake, hdrop, hfraction, hexponent, endNumber, hend]
  rfl

theorem getNumber_eq_decimal {c : Char} {s rest : List Char} (hs : s.all Char.isDigit = true)
    (hrest : Delimited rest) : getNumber c (s ++ rest) = getNumber.decimal c (s ++ rest) := by
  have hhead : ∀ x ∈ (s ++ rest).head?, ¬(x = 'x' ∨ x = 'X') := by
    cases s with
    | nil =>
      intro x hx
      rcases hrest x hx with rfl | rfl | rfl <;> decide
    | cons d s =>
      have hd : d.isDigit = true := List.all_eq_true.mp hs d List.mem_cons_self
      rintro x hx hhex
      cases hx
      rcases hhex with rfl | rfl <;> exact absurd hd (by decide)
  unfold getNumber
  split
  · rename_i x d s' heq
    exact if_neg fun hhex => hhead x (heq ▸ rfl) hhex.2.1
  · rfl

theorem not_isSpace_of_isDigit {c : Char} (hc : c.isDigit = true) : isSpace c = false := by
  simp only [isSpace, Char.isDigit, Char.toNat, ge_iff_le, Bool.and_eq_true, decide_eq_true_eq, Bool.or_eq_false_iff,
    Bool.and_eq_false_iff, decide_eq_false_iff_not, UInt32.le_iff_toNat_le, Char.ext_iff, UInt32.toNat_inj.symm] at hc ⊢
  simp at hc ⊢
  omega

theorem getToken_digits {c : Char} {s rest : List Char} (hc : c.isDigit = true) (hs : s.all Char.isDigit = true)
    (hrest : Delimited rest) : getToken c (s ++ rest) = (.term (.integer (c :: s)), rest) := by
  have hne : ∀ d, d.isDigit = false → c ≠ d := fun d => Decimal.ne_of_isDigit hc
  have hquote : ¬(c = '\'' ∨ c = '"' ∨ c.toNat = 0x60) := by
    rintro (heq | heq | heq)
    · exact hne '\'' (by decide) heq
    · exact hne '"' (by decide) heq
    · exact hne '\x60' (by decide) (Char.toNat_inj.mp heq)
  rw [getToken, if_neg hquote, if_neg (hne '[' (by decide)), if_neg (hne '.' (by decide)), if_pos hc,
    getNumber_eq_decimal hs hrest, getNumber_decimal hs hrest]

theorem lexes_digits {ds : List Char} (hne : ds ≠ []) (hds : ∀ c ∈ ds, c.isDigit = true) :
    Lexes ds [.term (.integer ds)] := by
  obtain ⟨c, s, rfl⟩ := List.exists_cons_of_ne_nil hne
  have hc := hds c List.mem_cons_self
  have hs : s.all Char.isDigit = true := List.all_eq_true.mpr fun d hd => hds d (List.mem_cons_of_mem c hd)
  have hspace := not_isSpace_of_isDigit hc
  have hnone : ∀ t, getSpace c t = none := fun t =>
    getSpace_of_dark hspace (Decimal.ne_of_isDigit hc (by decide)) (Decimal.ne_of_isDigit hc (by decide))
  refine ⟨⟨c, s, rfl, hspace⟩, fun hmem => absurd (hds _ hmem) (by decide), fun rest hrest => ?_⟩
  rw [List.cons_append, tokenize_of_token (hnone _), getToken_digits hc hs hrest]
  rfl

/-! ### Strings -/

/-- A text as it stands between quotes. -/
def doubled (delim : Char) (s : List Char) : List Char := s.flatMap fun c => if c = delim then [delim, delim] else [c]

theorem readQuoted_doubled (delim : Char) (s : List Char) {rest : List Char} (hrest : rest.head? ≠ some delim) :
    readQuoted delim (doubled delim s ++ delim :: rest) = some (s, rest) := by
  induction s with
  | nil =>
    cases rest with
    | nil => simp [doubled, readQuoted]
    | cons d rest =>
      have hd : d ≠ delim := fun h => hrest (h ▸ rfl)
      simp [doubled, readQuoted, hd]
  | cons c s ih =>
    rw [doubled, List.flatMap_cons, ← doubled]
    split_ifs with h
    · have hcons : [delim, delim] ++ doubled delim s ++ delim :: rest =
          delim :: delim :: (doubled delim s ++ delim :: rest) := by simp
      rw [hcons, h]
      simp [readQuoted, ih]
    · have hcons : [c] ++ doubled delim s ++ delim :: rest = c :: (doubled delim s ++ delim :: rest) := by simp
      rw [hcons, readQuoted.eq_def]
      simp [ih, h]

theorem lexes_string {s : List Char} (hs : '\x00' ∉ s) :
    Lexes ('\'' :: doubled '\'' s ++ ['\'']) [.term (.string s)] where
  dark := ⟨'\'', _, rfl, rfl⟩
  nulFree := by
    simp only [doubled, List.cons_append, List.mem_cons, List.mem_append, List.mem_flatMap, not_or]
    refine ⟨by decide, ?_, by decide⟩
    rintro ⟨c, hc, hmem⟩
    split_ifs at hmem
    · exact absurd hmem (by decide)
    · exact hs (List.mem_singleton.mp hmem ▸ hc)
  tokens rest hrest := by
    have hquoted : getQuoted '\'' (doubled '\'' s ++ '\'' :: rest) = (.term (.string s), rest) := by
      have hhead : rest.head? ≠ some '\'' := fun h => by
        rcases hrest _ h with heq | heq | heq <;> exact absurd heq (by decide)
      rw [getQuoted, readQuoted_doubled '\'' s hhead]
      rfl
    have htext : '\'' :: doubled '\'' s ++ ['\''] ++ rest = '\'' :: (doubled '\'' s ++ '\'' :: rest) := by simp
    rw [htext, tokenize_of_token (getSpace_of_dark rfl (by decide) (by decide)), getToken, if_pos (.inl rfl), hquoted]
    rfl

/-! ### Parameters -/

theorem readVariable_word (letter : Bool) {name rest : List Char} (hname : name.all isIdChar = true)
    (hrest : Delimited rest) : readVariable letter (name ++ rest) = (letter || !name.isEmpty, name, rest) := by
  induction name generalizing letter with
  | nil =>
    have hids : isIdChar ' ' = false ∧ isIdChar ')' = false ∧ isIdChar ',' = false := by decide
    rcases hrest.cases with rfl | ⟨s, rfl | rfl | rfl⟩ <;> simp [readVariable, hids]
  | cons c name ih =>
    rw [List.all_cons, Bool.and_eq_true] at hname
    rw [List.cons_append, readVariable.eq_def]
    simp [hname.1, ih true hname.2]

/-- A parameter that has a name. -/
theorem lexes_variable {c : Char} (hc : c = ':' ∨ c = '$' ∨ c = '@') {name : List Char} (hne : name ≠ [])
    (hname : name.all isIdChar = true) : Lexes (c :: name) [.variable (c :: name)] := by
  have hnul : '\x00' ∉ name := fun hmem => absurd (List.all_eq_true.mp hname _ hmem) (by decide)
  have hread : ∀ rest, Delimited rest → getVariable c (name ++ rest) = (.variable (c :: name), rest) := by
    intro rest hrest
    rw [getVariable, readVariable_word false hname hrest]
    simp [hne]
  rcases hc with rfl | rfl | rfl
  · exact lexes_of_getToken rfl (by simp [hnul]) fun rest hrest => ⟨rfl, hread rest hrest⟩
  · exact lexes_of_getToken rfl (by simp [hnul]) fun rest hrest => ⟨rfl, hread rest hrest⟩
  · exact lexes_of_getToken rfl (by simp [hnul]) fun rest hrest => ⟨rfl, hread rest hrest⟩

/-- A parameter that has a number, or none. -/
theorem lexes_question {ds : List Char} (hds : ∀ c ∈ ds, c.isDigit = true) :
    Lexes ('?' :: ds) [.variable ('?' :: ds)] := by
  have hnul : '\x00' ∉ ds := fun hmem => absurd (hds _ hmem) (by decide)
  refine lexes_of_getToken rfl (by simp [hnul]) fun rest hrest => ⟨rfl, ?_⟩
  have hdigit : ∀ d ∈ rest.head?, d.isDigit = false := fun d hd => by
    rcases hrest d hd with rfl | rfl | rfl <;> decide
  obtain ⟨htake, hdrop⟩ := takeWhile_append_of_head (List.all_eq_true.mpr hds) hdigit
  have htoken : getToken '?' (ds ++ rest) =
      (.variable ('?' :: (ds ++ rest).takeWhile Char.isDigit), (ds ++ rest).dropWhile Char.isDigit) := rfl
  rw [htoken, htake, hdrop]

/-! ### Putting texts together -/

theorem tokenize_lp (s : List Char) : tokenize ('(' :: s) = .lp :: tokenize s := tokenize_of_token rfl

theorem tokenize_rp (s : List Char) : tokenize (')' :: s) = .rp :: tokenize s := tokenize_of_token rfl

theorem tokenize_comma (s : List Char) : tokenize (',' :: s) = .comma :: tokenize s := tokenize_of_token rfl

theorem delimited_cons {c : Char} (hc : c = ' ' ∨ c = ')' ∨ c = ',') (s : List Char) : Delimited (c :: s) := by
  rintro d hd
  cases hd
  exact hc

theorem endsWord_lp (s : List Char) : EndsWord ('(' :: s) := by
  rintro c hc
  cases hc
  decide

namespace Lexes
variable {cs ds : List Char} {ts us : List Token}

theorem tokenize_blank (h : Lexes cs ts) (rest : List Char) :
    tokenize (' ' :: (cs ++ rest)) = tokenize (cs ++ rest) := by
  obtain ⟨c, s, rfl, hc⟩ := h.dark
  exact Sqlite.tokenize_blank hc _

theorem blank (hc : Lexes cs ts) (hd : Lexes ds us) : Lexes (cs ++ ' ' :: ds) (ts ++ us) where
  dark := by
    obtain ⟨c, s, rfl, hspace⟩ := hc.dark
    exact ⟨c, _, rfl, hspace⟩
  nulFree := by simp [hc.nulFree, hd.nulFree]
  tokens rest hrest := by
    rw [List.append_assoc, List.cons_append, hc.tokens _ (delimited_cons (.inl rfl) _), hd.tokenize_blank,
      hd.tokens rest hrest, List.append_assoc]

theorem comma (hc : Lexes cs ts) (hd : Lexes ds us) : Lexes (cs ++ ',' :: ' ' :: ds) (ts ++ .comma :: us) where
  dark := by
    obtain ⟨c, s, rfl, hspace⟩ := hc.dark
    exact ⟨c, _, rfl, hspace⟩
  nulFree := by simp [hc.nulFree, hd.nulFree]
  tokens rest hrest := by
    rw [List.append_assoc, List.cons_append, List.cons_append, hc.tokens _ (delimited_cons (.inr (.inr rfl)) _),
      tokenize_comma, hd.tokenize_blank, hd.tokens rest hrest, List.append_assoc]
    rfl

theorem parentheses (h : Lexes cs ts) : Lexes ('(' :: cs ++ [')']) (.lp :: ts ++ [.rp]) where
  dark := ⟨'(', _, rfl, rfl⟩
  nulFree := by simp [h.nulFree]
  tokens rest _ := by
    have htext : '(' :: cs ++ [')'] ++ rest = '(' :: (cs ++ ')' :: rest) := by simp
    rw [htext, tokenize_lp, h.tokens _ (delimited_cons (.inr (.inl rfl)) _), tokenize_rp]
    simp

/-- A word with parentheses behind it. -/
theorem call {f : List Char} (hf : isWord f = true) (h : Lexes cs ts) :
    Lexes (f ++ '(' :: cs ++ [')']) (wordToken f :: .lp :: ts ++ [.rp]) where
  dark := by
    obtain ⟨c, s, rfl, hspace⟩ := (lexes_word hf).dark
    exact ⟨c, _, rfl, hspace⟩
  nulFree := by simp [(lexes_word hf).nulFree, h.nulFree]
  tokens rest hrest := by
    have htext : f ++ '(' :: cs ++ [')'] ++ rest = f ++ '(' :: (cs ++ ')' :: rest) := by simp
    rw [htext, tokenize_isWord hf (endsWord_lp _), tokenize_lp, h.tokens _ (delimited_cons (.inr (.inl rfl)) _),
      tokenize_rp]
    simp

theorem callNone {f : List Char} (hf : isWord f = true) : Lexes (f ++ ['('] ++ [')']) [wordToken f, .lp, .rp] where
  dark := by
    obtain ⟨c, s, rfl, hspace⟩ := (lexes_word hf).dark
    exact ⟨c, _, rfl, hspace⟩
  nulFree := by simp [(lexes_word hf).nulFree]
  tokens rest _ := by
    have htext : f ++ ['('] ++ [')'] ++ rest = f ++ '(' :: ')' :: rest := by simp
    rw [htext, tokenize_isWord hf (endsWord_lp _), tokenize_lp, tokenize_rp]
    rfl

/-- A name with another one behind it. -/
theorem dot {name : List Char} (hn : isName name = true) (h : Lexes cs ts)
    (hcs : ∀ c ∈ cs.head?, c.isDigit = false) :
    Lexes (name ++ '.' :: cs) (.id name :: .dot :: ts) where
  dark := by
    obtain ⟨c, s, rfl, hspace⟩ := (lexes_name hn).dark
    exact ⟨c, _, rfl, hspace⟩
  nulFree := by simp [(lexes_name hn).nulFree, h.nulFree]
  tokens rest hrest := by
    have hdot : getDot (cs ++ rest) = (.dot, cs ++ rest) := by
      obtain ⟨c, s, rfl, _⟩ := h.dark
      rw [getDot, if_neg (by simpa using hcs c rfl)]
    have hends : EndsWord ('.' :: (cs ++ rest)) := by
      rintro c hc
      cases hc
      decide
    have htoken : getToken '.' (cs ++ rest) = (.dot, cs ++ rest) := hdot
    rw [List.append_assoc, List.cons_append, tokenize_isWord (isWord_of_isName hn) hends, wordToken_of_isName hn,
      tokenize_of_token rfl, htoken, h.tokens rest hrest]
    rfl

/-- A prefix operator. -/
theorem prefixed {c : Char} {t : Token} (hc : isSpace c = false) (hnul : c ≠ '\x00') (h : Lexes cs ts)
    (hspace : ∀ rest, getSpace c (cs ++ rest) = none) (ht : ∀ s, getToken c s = (t, s)) :
    Lexes (c :: cs) (t :: ts) where
  dark := ⟨c, cs, rfl, hc⟩
  nulFree := by simp [h.nulFree, hnul.symm]
  tokens rest hrest := by
    rw [List.cons_append, tokenize_of_token (hspace rest), ht, h.tokens rest hrest]
    rfl

theorem plus (h : Lexes cs ts) : Lexes ('+' :: cs) (.op .plus :: ts) :=
  h.prefixed rfl (by decide) (fun _ => rfl) fun _ => rfl

theorem bitNot (h : Lexes cs ts) : Lexes ('~' :: cs) (.bitNot :: ts) :=
  h.prefixed rfl (by decide) (fun _ => rfl) fun _ => rfl

/-- Two of them would begin a comment. -/
theorem minus (h : Lexes cs ts) (hcs : cs.head? ≠ some '-') : Lexes ('-' :: cs) (.op .minus :: ts) := by
  refine h.prefixed rfl (by decide) (fun rest => ?_) fun _ => rfl
  obtain ⟨c, s, rfl, _⟩ := h.dark
  have hc : c ≠ '-' := fun heq => hcs (heq ▸ rfl)
  unfold getSpace
  rw [if_neg (by decide)]
  split <;> simp_all

end Lexes

end StudyDB.Sqlite
