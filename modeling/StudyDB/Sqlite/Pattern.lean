import StudyDB.Data.Wildcard
import StudyDB.Sqlite.Contains

/-! Any LIKE pattern. Proved: the backtracking matcher, which gives up as soon as what
follows a `%` can match at no later place, accepts the texts that are like the pattern,
for every text exactly if the pattern searches for no U+0080. -/

namespace StudyDB.Sqlite

/-! ### Patterns and texts -/

/-- Characters that LIKE does not tell apart. -/
def Same (c d : Char) : Prop := c.toLower = d.toLower ∨ readChar c = readChar d

instance (c d : Char) : Decidable (Same c d) := inferInstanceAs (Decidable (_ ∨ _))

/-- The wildcards of LIKE. -/
def wildcards : Wildcards Char where
  all := '%'
  one := '_'
  one_ne_all := by decide
  same := Same

/-- A text is like a pattern. -/
abbrev Like (p t : List Char) : Prop := wildcards.Like p t

/-- A pattern, or the part of one that follows a `%`, in which U+0080 is looked for
next to a `%`. -/
def searchesU0080 : Bool → List Char → Bool
  | _, [] => false
  | afterAll, c :: p =>
    if c = '%' then searchesU0080 true p
    else if c = '_' then searchesU0080 afterAll p
    else afterAll && c = '\u0080' || searchesU0080 false p

theorem toNat_ne {c d : Char} (h : c ≠ d) : c.toNat ≠ d.toNat := fun heq => h (Char.ext (UInt32.toNat_inj.mp heq))

theorem same_iff {c : Char} (hc : c ≠ '\x00') (hone : c ≠ '_') (d : Char) :
    Takes (readChar c) (readChar d) ↔ Same c d := by
  have h0 : c.toNat ≠ 0 := toNat_ne hc
  have h1 : c.toNat ≠ 0x5F := toNat_ne hone
  rw [Same, toLower_eq_iff, Takes, readChar, readChar, matchOne]
  unfold toLower
  split_ifs <;> omega

theorem same_iff_of_lt {c : Char} (hc : c.toNat < 0x80) (d : Char) : Same c d ↔ c.toLower = d.toLower := by
  rw [Same, toLower_eq_iff, readChar, readChar]
  unfold toLower
  split_ifs <;> omega

theorem same_iff_of_le {c : Char} (hc : 0x80 ≤ c.toNat) (d : Char) : Same c d ↔ readChar d = readChar c := by
  rw [Same, toLower_eq_iff, readChar, readChar]
  unfold toLower
  split_ifs <;> omega

/-- U+0080 is the same as no other character. -/
theorem eq_of_same_u0080 {d : Char} (h : Same '\u0080' d) : d = '\u0080' := by
  have hread : readChar d = 0x80 := (same_iff_of_le (by decide) d).mp h
  refine Char.ext (UInt32.toNat_inj.mp (show d.toNat = 0x80 from ?_))
  rw [readChar] at hread
  split_ifs at hread
  · omega
  · exact hread

/-! ### The search after a wildcard -/

/-- What a comparison tells: whether the text is like the pattern, and perhaps that no
end of the text is. -/
structure Tells (p t : List Char) (outcome : Outcome) : Prop where
  isMatch : outcome = .isMatch ↔ Like p t
  noWildcardMatch : outcome = .noWildcardMatch → ∀ s, s <:+ t → ¬Like p s

/-- A comparison after a `%` tells whether some end is like the rest, and never asks for
a later start. -/
structure TellsAfterAll (p t : List Char) (outcome : Outcome) : Prop where
  isMatch : outcome = .isMatch ↔ Like ('%' :: p) t
  ne_noMatch : outcome ≠ .noMatch

theorem Tells.of_iff {p t : List Char} {outcome : Outcome} (h : outcome = .isMatch ↔ Like p t)
    (hne : outcome ≠ .noWildcardMatch) : Tells p t outcome := ⟨h, fun heq => absurd heq hne⟩

/-- After a `%`, no end that fails lets a later one succeed. -/
theorem TellsAfterAll.tells {p t : List Char} {outcome : Outcome} (h : TellsAfterAll p t outcome) :
    Tells ('%' :: p) t outcome := by
  refine ⟨h.isMatch, fun heq s hs hp => ?_⟩
  have hlike : Like ('%' :: p) t := by
    obtain ⟨s', hs', hp'⟩ := Wildcards.like_all_iff_suffix.mp hp
    exact Wildcards.like_all_iff_suffix.mpr ⟨s', hs'.trans hs, hp'⟩
  rw [← h.isMatch, heq] at hlike
  cases hlike

theorem patternCompare_all_cons (p : List Char) (s : List UInt8) :
    patternCompare (('%' :: p).map readChar) s = compareAfterAll (p.map readChar) s := by
  have hread : readChar '%' = matchAll := rfl
  rw [List.map_cons, patternCompare, if_pos hread]

theorem compareAfterAll_all_cons (p : List Char) (s : List UInt8) :
    compareAfterAll (('%' :: p).map readChar) s = compareAfterAll (p.map readChar) s := by
  have hread : readChar '%' = matchAll := rfl
  rw [List.map_cons, compareAfterAll, if_pos hread]

theorem patternCompare_one_cons (p : List Char) {d : Char} (hd : d ≠ '\x00') (t : List Char) :
    patternCompare (('_' :: p).map readChar) (textBytes (d :: t)) = patternCompare (p.map readChar) (textBytes t) := by
  have hall : readChar '_' ≠ matchAll := by decide
  have htakes : Takes (readChar '_') (readChar d) := .inr (.inr ⟨rfl, readChar_ne_zero hd⟩)
  rw [List.map_cons, patternCompare, if_neg hall, utf8Read_textBytes_cons, if_pos htakes]

theorem compareAfterAll_one_cons (p : List Char) {d : Char} (hd : d ≠ '\x00') (t : List Char) :
    compareAfterAll (('_' :: p).map readChar) (textBytes (d :: t)) = compareAfterAll (p.map readChar) (textBytes t) := by
  have hall : readChar '_' ≠ matchAll := by decide
  have hone : readChar '_' = matchOne := rfl
  rw [List.map_cons, compareAfterAll, if_neg hall, if_pos hone, utf8Read_textBytes_cons, if_neg (readChar_ne_zero hd)]

theorem compareAfterAll_letter_eq {c : Char} (hall : c ≠ '%') (hone : c ≠ '_') (p : List Char) (s : List UInt8) :
    compareAfterAll ((c :: p).map readChar) s =
      if readChar c ≤ 0x80 then
        searchByte (patternCompare (p.map readChar))
          (fun b => b.toNat = toUpper (readChar c) ∨ b.toNat = toLower (readChar c)) s
      else searchCode (patternCompare (p.map readChar)) (readChar c) s := by
  have hall' : readChar c ≠ matchAll := readChar_ne (d := '%') hall (by decide)
  have hone' : readChar c ≠ matchOne := readChar_ne (d := '_') hone (by decide)
  rw [List.map_cons, compareAfterAll, if_neg hall', if_neg hone']

/-- What follows a letter is tried after each place where the letter stands; U+0080 is
excepted, since the search for bytes stops at it in the midst of a character. -/
theorem compareAfterAll_letter_cons {c d : Char} {p t : List Char} (h80 : c ≠ '\u0080') (hall : c ≠ '%')
    (hone : c ≠ '_') (hd : d ≠ '\x00') :
    compareAfterAll ((c :: p).map readChar) (textBytes (d :: t)) =
      if Same c d then
        match patternCompare (p.map readChar) (textBytes t) with
        | .noMatch => compareAfterAll ((c :: p).map readChar) (textBytes t)
        | outcome => outcome
      else compareAfterAll ((c :: p).map readChar) (textBytes t) := by
  have hne : c.toNat ≠ 0x80 := toNat_ne h80
  simp only [compareAfterAll_letter_eq hall hone]
  by_cases hlt : c.toNat < 0x80
  · have hread : readChar c = c.toNat := by
      rw [readChar, if_neg (by omega)]
    have hle : c.toNat ≤ 0x80 := by omega
    simp only [hread, if_pos hle]
    exact (searchByte_cons _ hlt d t).trans (if_congr (same_iff_of_lt hlt d).symm rfl rfl)
  · have hread : ¬readChar c ≤ 0x80 := by
      rw [readChar]
      split_ifs <;> omega
    simp only [if_neg hread]
    exact (searchCode_cons _ _ hd t).trans (if_congr (same_iff_of_le (Nat.le_of_not_lt hlt) d).symm rfl rfl)

theorem compareAfterAll_letter_nil {c : Char} (p : List Char) (hall : c ≠ '%') (hone : c ≠ '_') :
    compareAfterAll ((c :: p).map readChar) (textBytes []) = .noWildcardMatch := by
  rw [compareAfterAll_letter_eq hall hone, textBytes_nil, searchByte, searchCode, ite_self]

/-! ### The matcher, by the first character of the pattern -/

section Cons
variable {c : Char} {p : List Char}

theorem patternCompare_one (h : ∀ t, '\x00' ∉ t → Tells p t (patternCompare (p.map readChar) (textBytes t)))
    {t : List Char} (ht : '\x00' ∉ t) :
    Tells ('_' :: p) t (patternCompare (('_' :: p).map readChar) (textBytes t)) := by
  cases t with
  | nil =>
    have hnil : patternCompare (('_' :: p).map readChar) (textBytes []) = .noMatch := rfl
    rw [hnil]
    exact .of_iff (iff_of_false (by decide) Wildcards.not_like_one_nil) (by decide)
  | cons d t =>
    rw [List.mem_cons, not_or] at ht
    have htells := h t ht.2
    rw [patternCompare_one_cons p (Ne.symm ht.1)]
    exact ⟨htells.isMatch.trans Wildcards.like_one_cons_iff.symm, fun heq s hs =>
      Wildcards.not_like_cons_of_suffix wildcards.one_ne_all (htells.noWildcardMatch heq) hs⟩

theorem compareAfterAll_one
    (h : ∀ t, '\x00' ∉ t → TellsAfterAll p t (compareAfterAll (p.map readChar) (textBytes t)))
    {t : List Char} (ht : '\x00' ∉ t) :
    TellsAfterAll ('_' :: p) t (compareAfterAll (('_' :: p).map readChar) (textBytes t)) := by
  cases t with
  | nil =>
    have hnil : compareAfterAll (('_' :: p).map readChar) (textBytes []) = .noWildcardMatch := by
      rw [List.map_cons, compareAfterAll]
      rfl
    rw [hnil]
    exact ⟨iff_of_false (by decide) Wildcards.not_like_all_one_nil, by decide⟩
  | cons d t =>
    rw [List.mem_cons, not_or] at ht
    have htells := h t ht.2
    rw [compareAfterAll_one_cons p (Ne.symm ht.1)]
    exact ⟨htells.isMatch.trans Wildcards.like_all_one_cons_iff.symm, htells.ne_noMatch⟩

variable (hall : c ≠ '%') (hone : c ≠ '_')
  (h : ∀ t, '\x00' ∉ t → Tells p t (patternCompare (p.map readChar) (textBytes t)))
include hall hone h

theorem patternCompare_letter (hc : c ≠ '\x00') {t : List Char} (ht : '\x00' ∉ t) :
    Tells (c :: p) t (patternCompare ((c :: p).map readChar) (textBytes t)) := by
  have hall' : readChar c ≠ matchAll := readChar_ne (d := '%') hall (by decide)
  rw [List.map_cons, patternCompare, if_neg hall']
  cases t with
  | nil =>
    rw [textBytes_nil, utf8Read, if_neg (not_takes_zero (readChar_ne_zero hc))]
    exact .of_iff (iff_of_false (by decide) (Wildcards.not_like_letter_nil hall)) (by decide)
  | cons d t =>
    rw [List.mem_cons, not_or] at ht
    have hlike : Like (c :: p) (d :: t) ↔ Same c d ∧ Like p t := Wildcards.like_letter_cons_iff hall hone
    have htells := h t ht.2
    rw [utf8Read_textBytes_cons]
    split_ifs with htakes
    · have hsame : Same c d := (same_iff hc hone d).mp htakes
      exact ⟨htells.isMatch.trans ((and_iff_right hsame).symm.trans hlike.symm), fun heq s hs =>
        Wildcards.not_like_cons_of_suffix hall (htells.noWildcardMatch heq) hs⟩
    · refine .of_iff (iff_of_false (by decide) fun h => htakes ?_) (by decide)
      exact (same_iff hc hone d).mpr (hlike.mp h).1

/-- When the rest tells that it is like no end of the text, the search may end, since
after a later place there are fewer ends. -/
theorem compareAfterAll_letter (h80 : c ≠ '\u0080') {t : List Char} (ht : '\x00' ∉ t) :
    TellsAfterAll (c :: p) t (compareAfterAll ((c :: p).map readChar) (textBytes t)) := by
  induction t with
  | nil =>
    rw [compareAfterAll_letter_nil p hall hone]
    have hnot : ¬Like ('%' :: c :: p) [] := Wildcards.like_all_nil_iff.not.mpr (Wildcards.not_like_letter_nil hall)
    exact ⟨iff_of_false (by decide) hnot, by decide⟩
  | cons d t ih =>
    rw [List.mem_cons, not_or] at ht
    have hlike : Like ('%' :: c :: p) (d :: t) ↔ Same c d ∧ Like p t ∨ Like ('%' :: c :: p) t :=
      Wildcards.like_all_letter_cons_iff hall hone
    have hlater := ih ht.2
    have hnow := h t ht.2
    rw [compareAfterAll_letter_cons h80 hall hone (Ne.symm ht.1)]
    split_ifs with hsame
    · cases ho : patternCompare (p.map readChar) (textBytes t) with
      | isMatch =>
        show TellsAfterAll (c :: p) (d :: t) .isMatch
        exact ⟨iff_of_true rfl (hlike.mpr (.inl ⟨hsame, hnow.isMatch.mp ho⟩)), by decide⟩
      | noMatch =>
        have hnot : ¬Like p t := fun h => absurd (ho.symm.trans (hnow.isMatch.mpr h)) (by decide)
        refine ⟨?_, hlater.ne_noMatch⟩
        rw [hlater.isMatch, hlike]
        exact ⟨.inr, fun h => h.elim (fun h => absurd h.2 hnot) id⟩
      | noWildcardMatch =>
        have hnone := hnow.noWildcardMatch ho
        show TellsAfterAll (c :: p) (d :: t) .noWildcardMatch
        refine ⟨iff_of_false (by decide) fun h => ?_, by decide⟩
        rcases hlike.mp h with ⟨-, h⟩ | h
        · exact hnone t List.suffix_rfl h
        · obtain ⟨s, hs, hp⟩ := Wildcards.like_all_iff_suffix.mp (Wildcards.like_all_of_like_all_letter hall hone h)
          exact hnone s hs hp
    · refine ⟨?_, hlater.ne_noMatch⟩
      rw [hlater.isMatch, hlike]
      exact ⟨.inr, fun h => h.elim (fun h => absurd h.1 hsame) id⟩

end Cons

theorem searchesU0080_letter {c : Char} (hall : c ≠ '%') (hone : c ≠ '_') (afterAll : Bool) (p : List Char) :
    searchesU0080 afterAll (c :: p) = true ↔ afterAll = true ∧ c = '\u0080' ∨ searchesU0080 false p = true := by
  rw [searchesU0080, if_neg hall, if_neg hone, Bool.or_eq_true, Bool.and_eq_true, decide_eq_true_iff]

/-- Before and after a `%`, by induction on the pattern. -/
theorem compare_tells {p : List Char} (hp : '\x00' ∉ p) :
    (¬searchesU0080 false p → ∀ t, '\x00' ∉ t → Tells p t (patternCompare (p.map readChar) (textBytes t))) ∧
    (¬searchesU0080 true p →
      ∀ t, '\x00' ∉ t → TellsAfterAll p t (compareAfterAll (p.map readChar) (textBytes t))) := by
  induction p with
  | nil =>
    refine ⟨fun _ t _ => ?_, fun _ t _ => ?_⟩
    · rw [List.map_nil, patternCompare]
      cases t with
      | nil => exact .of_iff (iff_of_true rfl .nil) (by decide)
      | cons d t =>
        obtain ⟨b, s, hs⟩ := textBytes_cons_eq d t
        rw [hs, if_neg (List.cons_ne_nil b s)]
        exact .of_iff (iff_of_false (by decide) (by simp)) (by decide)
    · rw [List.map_nil, compareAfterAll]
      exact ⟨iff_of_true rfl (Wildcards.like_all t), by decide⟩
  | cons c p ih =>
    rw [List.mem_cons, not_or] at hp
    obtain ⟨ihCompare, ihAfterAll⟩ := ih hp.2
    by_cases hall : c = '%'
    · subst hall
      refine ⟨fun h t ht => ?_, fun h t ht => ?_⟩
      · rw [patternCompare_all_cons]
        exact (ihAfterAll h t ht).tells
      · rw [compareAfterAll_all_cons]
        have htells := ihAfterAll h t ht
        exact ⟨htells.isMatch.trans Wildcards.like_all_all_iff.symm, htells.ne_noMatch⟩
    by_cases hone : c = '_'
    · subst hone
      exact ⟨fun h t ht => patternCompare_one (ihCompare h) ht, fun h t ht => compareAfterAll_one (ihAfterAll h) ht⟩
    · simp only [searchesU0080_letter hall hone, not_or]
      refine ⟨fun h t ht => ?_, fun h t ht => ?_⟩
      · exact patternCompare_letter hall hone (ihCompare h.2) (Ne.symm hp.1) ht
      · have h80 : c ≠ '\u0080' := fun heq => h.1 ⟨trivial, heq⟩
        exact compareAfterAll_letter hall hone (ihCompare h.2) h80 ht

/-! ### Patterns that search for U+0080 -/

theorem Fits.like {p t : List Char} (h : Fits p t) : Like p t := by
  induction h with
  | nil => exact .nil
  | all _ ih => exact .skip ih
  | one _ _ ih => exact .one ih
  | @char p t c d hc _ heq _ ih =>
    by_cases hone : c = '_'
    · subst hone
      exact .one ih
    · exact .letter hc hone (.inr heq) ih

theorem count_standIn (p : List Char) : (p.filterMap standIn).count '\u0080' = p.count '\u0080' := by
  induction p with
  | nil => rfl
  | cons c p ih =>
    rw [List.filterMap_cons]
    unfold standIn at ih ⊢
    split_ifs with hall hone hD hE
    · subst hall
      exact ih
    · subst hone
      exact ih
    · subst hD
      exact ih
    · rcases hE with rfl | rfl <;> exact ih
    · simp only [List.count_cons, ih]

/-- Such a pattern takes U+0100 for U+0080 once. -/
theorem exists_match_of_searches {p : List Char} (hp : '\x00' ∉ p) {afterAll : Bool} (h : searchesU0080 afterAll p) :
    ∃ t, '\x00' ∉ t ∧ t.count '\u0080' < p.count '\u0080' ∧
      (bif afterAll then compareAfterAll else patternCompare) (p.map readChar) (textBytes t) = .isMatch := by
  induction p generalizing afterAll with
  | nil => cases h
  | cons c p ih =>
    rw [List.mem_cons, not_or] at hp
    by_cases hall : c = '%'
    · subst hall
      obtain ⟨t, ht, hlt, hmatch⟩ := @ih hp.2 true h
      refine ⟨t, ht, hlt, ?_⟩
      cases afterAll
      · exact (patternCompare_all_cons p _).trans hmatch
      · exact (compareAfterAll_all_cons p _).trans hmatch
    by_cases hone : c = '_'
    · subst hone
      obtain ⟨t, ht, hlt, hmatch⟩ := ih hp.2 h
      refine ⟨'a' :: t, by simp [ht], hlt, ?_⟩
      cases afterAll
      · exact (patternCompare_one_cons p (by decide) t).trans hmatch
      · exact (compareAfterAll_one_cons p (by decide) t).trans hmatch
    · by_cases h80 : afterAll = true ∧ c = '\u0080'
      · obtain ⟨rfl, rfl⟩ := h80
        refine ⟨'\u0100' :: p.filterMap standIn, ?_, ?_, (fits_standIn hp.2).isMatch_u0080⟩
        · simp only [List.mem_cons, not_or]
          refine ⟨by decide, fun hmem => hp.2 ?_⟩
          obtain ⟨c, hc, hnul⟩ := List.mem_filterMap.mp hmem
          exact mem_standIn hnul rfl ▸ hc
        · rw [List.count_cons_of_ne (by decide), List.count_cons_self, count_standIn]
          exact Nat.lt_succ_self _
      · have hrest := ((searchesU0080_letter hall hone afterAll p).mp h).resolve_left h80
        obtain ⟨t, ht, hlt, hmatch⟩ := ih hp.2 hrest
        rw [cond_false] at hmatch
        refine ⟨c :: t, by simp [ht, hp.1], ?_, ?_⟩
        · simp only [List.count_cons]
          omega
        · cases afterAll
          · have hall' : readChar c ≠ matchAll := readChar_ne (d := '%') hall (by decide)
            rw [List.map_cons, cond_false, patternCompare, utf8Read_textBytes_cons, if_neg hall', if_pos (.inl rfl)]
            exact hmatch
          · have hne : c ≠ '\u0080' := fun heq => h80 ⟨rfl, heq⟩
            rw [cond_true, compareAfterAll_letter_cons hne hall hone (Ne.symm hp.1), if_pos (.inl rfl), hmatch]

/-! ### LIKE -/

/-- A pattern that is not too long, and searches for no U+0080. -/
structure Exact (pattern : String) : Prop where
  length : pattern.utf8ByteSize ≤ maxPatternLength
  searches : ¬searchesU0080 false (cString pattern).toList

/-- A text that is like the pattern, or is taken for it. -/
theorem likeText_eq_true_iff {pattern t : String} (hlen : pattern.utf8ByteSize ≤ maxPatternLength)
    (ht : NulFree t) :
    likeText pattern (some t) = some (some true) ↔
      patternCompare ((cString pattern).toList.map readChar) (textBytes t.toList) = .isMatch := by
  rw [likeText, if_neg (Nat.not_lt.mpr hlen), Option.map_some, utf8ReadAll_textBytes, cString_eq_self_iff.mpr ht,
    Option.some.injEq, Option.some.injEq, decide_eq_true_iff]

theorem Exact.likeText_iff {pattern t : String} (h : Exact pattern) (ht : NulFree t) :
    likeText pattern (some t) = some (some true) ↔ Like (cString pattern).toList t.toList := by
  rw [likeText_eq_true_iff h.length ht]
  exact ((compare_tells (nulFree_cString pattern)).1 h.searches t.toList ht).isMatch

/-- A pattern that is not exact fails on some text. -/
theorem exists_likeText_of_not_exact {pattern : String} (h : ¬Exact pattern) :
    ∃ t, NulFree t ∧ ¬(likeText pattern (some t) = some (some true) ↔ Like (cString pattern).toList t.toList) := by
  have hfree := nulFree_cString pattern
  by_cases hlen : pattern.utf8ByteSize ≤ maxPatternLength
  · have hsearches : searchesU0080 false (cString pattern).toList = true := by
      by_contra hnot
      exact h ⟨hlen, hnot⟩
    obtain ⟨t, ht, hlt, hmatch⟩ := exists_match_of_searches hfree hsearches
    have hnul : NulFree (String.ofList t) := by rwa [NulFree, String.toList_ofList]
    refine ⟨String.ofList t, hnul, fun hiff => ?_⟩
    rw [likeText_eq_true_iff hlen hnul, String.toList_ofList] at hiff
    have hle := (hiff.mp hmatch).count_le (c := '\u0080') (by decide) (by decide) fun d => eq_of_same_u0080
    exact Nat.not_le_of_lt hlt hle
  · have hfits := fits_standIn hfree
    have hnul : '\x00' ∉ (cString pattern).toList.filterMap standIn := fun hmem => by
      obtain ⟨c, hc, hd⟩ := List.mem_filterMap.mp hmem
      exact hfree (mem_standIn hd rfl ▸ hc)
    refine ⟨String.ofList ((cString pattern).toList.filterMap standIn), ?_, fun hiff => ?_⟩
    · rwa [NulFree, String.toList_ofList]
    · have hlike := hiff.mpr (by rw [String.toList_ofList]; exact hfits.like)
      rw [likeText, if_pos (Nat.lt_of_not_le hlen)] at hlike
      cases hlike

end StudyDB.Sqlite
