import StudyDB.Sqlite.Like

/-! A word between two wildcards as a LIKE pattern, which should find the texts that
contain the word. Proved: for which words it finds just these. -/

namespace StudyDB.Sqlite

/-- The characters of `w` stand in `t` one after the other, up to ASCII case. -/
def Contains (w t : String) : Prop := w.toList.map Char.toLower <:+: t.toList.map Char.toLower

instance (w t : String) : Decidable (Contains w t) := inferInstanceAs (Decidable (_ <:+: _))

/-- The pattern as it stands in a statement, which is a C string. -/
def containsPattern (w : String) : String := cString ("%" ++ w ++ "%")

/-- Words that LIKE takes for themselves, as part of a pattern that is not too long. -/
structure Plain (w : String) : Prop where
  literal : ∀ c ∈ w.toList, Literal c
  head : w.toList.head? ≠ some '\u0080'
  length : w.utf8ByteSize + 2 ≤ maxPatternLength

theorem literal_nul {c : Char} (h : Literal c) : c ≠ '\x00' := by
  rintro rfl
  exact h (by simp)

theorem nulFree_of_literal {w : String} (h : ∀ c ∈ w.toList, Literal c) : NulFree w :=
  fun hmem => literal_nul (h _ hmem) rfl

/-- Without U+0000 the pattern is whole. -/
theorem toList_containsPattern {w : String} (h : NulFree w) :
    (containsPattern w).toList = '%' :: (w.toList ++ ['%']) := by
  have hwhole : NulFree ("%" ++ w ++ "%") := by
    rw [NulFree, String.toList_append, String.toList_append]
    simpa [NulFree] using h
  rw [containsPattern, cString_eq_self_iff.mpr hwhole, String.toList_append, String.toList_append]
  rfl

theorem toList_cString_containsPattern {w : String} (h : NulFree w) :
    (cString (containsPattern w)).toList = '%' :: (w.toList ++ ['%']) := by
  rw [containsPattern, cString_cString]
  exact toList_containsPattern h

theorem utf8ByteSize_containsPattern {w : String} (h : NulFree w) :
    (containsPattern w).utf8ByteSize = w.utf8ByteSize + 2 := by
  have hlist := toList_containsPattern h
  have hwhole : containsPattern w = "%" ++ w ++ "%" := by
    rw [← String.toList_inj, hlist, String.toList_append, String.toList_append]
    rfl
  have hone : "%".utf8ByteSize = 1 := by decide
  rw [hwhole, String.utf8ByteSize_append, String.utf8ByteSize_append, hone]
  omega

theorem nulFree_cString (t : String) : NulFree (cString t) := cString_eq_self_iff.mp (cString_cString t)

/-- Plain words are found where they stand. -/
theorem likeText_containsPattern {w : String} (h : Plain w) (hw : w ≠ "") (t : String) :
    likeText (containsPattern w) (some t) = some (some (decide (Contains w (cString t)))) := by
  have hfree := nulFree_of_literal h.literal
  have hlen : ¬maxPatternLength < (containsPattern w).utf8ByteSize := by
    rw [utf8ByteSize_containsPattern hfree]
    exact Nat.not_lt.mpr h.length
  have hcut := toList_cString_containsPattern hfree
  obtain ⟨c, cs, hcs⟩ : ∃ c cs, w.toList = c :: cs := by
    cases hl : w.toList with
    | nil => exact absurd (String.toList_eq_nil_iff.mp hl) hw
    | cons c cs => exact ⟨c, cs, rfl⟩
  have hlit : ∀ d ∈ c :: cs, Literal d := hcs ▸ h.literal
  have hhead : c ≠ '\u0080' := fun heq => h.head (by rw [hcs, heq]; rfl)
  have hread : readChar '%' = matchAll := rfl
  have hiff : compareAfterAll ((c :: cs).map readChar ++ [matchAll]) (textBytes (cString t).toList) = .isMatch ↔
      Contains w (cString t) := by
    rw [compareAfterAll_literal hlit hhead (nulFree_cString t), Contains, hcs]
    split_ifs with hin
    · exact iff_of_true rfl hin
    · exact iff_of_false not_false hin
  rw [likeText, if_neg hlen, Option.map_some, hcut, hcs, utf8ReadAll_textBytes, List.map_cons, patternCompare,
    if_pos hread, List.map_append, List.map_singleton, hread, decide_eq_decide.mpr hiff]

/-! ### Words that are not plain -/

/-- A character that a pattern takes for another one, or that may be left out. -/
def standIn (c : Char) : Option Char :=
  if c = '%' then none
  else if c = '_' then some 'a'
  else if c = '\uFFFD' then some '\uFFFE'
  else if c = '\uFFFE' ∨ c = '\uFFFF' then some '\uFFFD'
  else some c

theorem Fits.append_all {p t : List Char} (h : Fits p t) : Fits (p ++ ['%']) t := by
  induction h with
  | nil => exact .all .nil
  | all _ ih => exact .all ih
  | one hd _ ih => exact .one hd ih
  | char hc hd heq _ ih => exact .char hc hd heq ih

/-- A word fits the text of its stand-ins. -/
theorem fits_standIn {cs : List Char} (h : '\x00' ∉ cs) : Fits cs (cs.filterMap standIn) := by
  induction cs with
  | nil => exact .nil
  | cons c cs ih =>
    rw [List.mem_cons, not_or] at h
    have hrest := ih h.2
    rw [List.filterMap_cons]
    unfold standIn at hrest ⊢
    split_ifs with hall hone hD hE
    · subst hall
      exact .all hrest
    · subst hone
      exact .one (by decide) hrest
    · subst hD
      exact .char (by decide) (by decide) (by decide) hrest
    · rcases hE with rfl | rfl
      · exact .char (by decide) (by decide) (by decide) hrest
      · exact .char (by decide) (by decide) (by decide) hrest
    · exact .char hall (Ne.symm h.1) rfl hrest

theorem mem_standIn {c d : Char} (h : standIn c = some d) (hd : d = '\x00') : c = '\x00' := by
  subst hd
  unfold standIn at h
  split_ifs at h
  · exact absurd (Option.some.inj h) (by decide)
  · exact absurd (Option.some.inj h) (by decide)
  · exact absurd (Option.some.inj h) (by decide)
  · exact Option.some.inj h

/-- Only literal characters stand for themselves. -/
theorem literal_of_standIn {c d : Char} (h : standIn c = some d) (hlower : c.toLower = d.toLower) (h0 : c ≠ '\x00') :
    Literal c := by
  unfold standIn at h
  split_ifs at h with hall hone hD hE
  · obtain rfl := Option.some.inj h
    subst hone
    exact absurd hlower (by decide)
  · obtain rfl := Option.some.inj h
    subst hD
    exact absurd hlower (by decide)
  · obtain rfl := Option.some.inj h
    rcases hE with rfl | rfl
    · exact absurd hlower (by decide)
    · exact absurd hlower (by decide)
  · rw [not_or] at hE
    simp [Literal, h0, hall, hone, hD, hE.1, hE.2]

/-- A word that stands in the text of its stand-ins has only literal characters. -/
theorem literal_of_standsIn {cs : List Char} (h0 : '\x00' ∉ cs)
    (h : cs.map Char.toLower <:+: (cs.filterMap standIn).map Char.toLower) : ∀ c ∈ cs, Literal c := by
  have hle : ((cs.filterMap standIn).map Char.toLower).length ≤ (cs.map Char.toLower).length := by
    rw [List.length_map, List.length_map]
    exact List.length_filterMap_le _ _
  have heq := h.eq_of_length_le hle
  clear h hle
  induction cs with
  | nil => exact fun c hc => nomatch hc
  | cons c cs ih =>
    rw [List.mem_cons, not_or] at h0
    cases hs : standIn c with
    | none =>
      rw [List.filterMap_cons_none hs] at heq
      have hlen := congrArg List.length heq
      have hle := List.length_filterMap_le standIn cs
      simp only [List.length_map, List.length_cons] at hlen
      omega
    | some d =>
      rw [List.filterMap_cons_some hs, List.map_cons, List.map_cons, List.cons.injEq] at heq
      intro c' hc'
      rcases List.mem_cons.mp hc' with rfl | hc'
      · exact literal_of_standIn hs heq.1 (Ne.symm h0.1)
      · exact ih h0.2 heq.2 c' hc'

/-- A text that the matcher takes. -/
theorem likeText_of_isMatch {w : String} {p s : List Char} (hcut : (cString (containsPattern w)).toList = '%' :: p)
    (hlen : ¬maxPatternLength < (containsPattern w).utf8ByteSize) (hfree : '\x00' ∉ s)
    (hmatch : compareAfterAll (p.map readChar) (textBytes s) = .isMatch) :
    likeText (containsPattern w) (some (String.ofList s)) = some (some true) := by
  have hread : readChar '%' = matchAll := rfl
  have hs : NulFree (String.ofList s) := by rwa [NulFree, String.toList_ofList]
  rw [likeText, if_neg hlen, Option.map_some, hcut, cString_eq_self_iff.mpr hs, utf8ReadAll_textBytes, List.map_cons,
    patternCompare, if_pos hread, String.toList_ofList, hmatch]
  rfl

/-- A text that the pattern takes, though the word does not stand in it. -/
theorem exists_ne_of_isMatch {w : String} {p s : List Char} (hcut : (cString (containsPattern w)).toList = '%' :: p)
    (hlen : ¬maxPatternLength < (containsPattern w).utf8ByteSize) (hfree : '\x00' ∉ s)
    (hmatch : compareAfterAll (p.map readChar) (textBytes s) = .isMatch)
    (hnot : ¬w.toList.map Char.toLower <:+: s.map Char.toLower) :
    ∃ t, NulFree t ∧ likeText (containsPattern w) (some t) ≠ some (some (decide (Contains w t))) := by
  have hcontains : ¬Contains w (String.ofList s) := by rwa [Contains, String.toList_ofList]
  refine ⟨String.ofList s, by rwa [NulFree, String.toList_ofList], ?_⟩
  rw [likeText_of_isMatch hcut hlen hfree hmatch]
  simp [hcontains]

/-- The text of stand-ins has no U+0000 where the word has none. -/
theorem nulFree_standIn {cs : List Char} (h : '\x00' ∉ cs) : '\x00' ∉ cs.filterMap standIn := by
  intro hmem
  obtain ⟨c, hc, hs⟩ := List.mem_filterMap.mp hmem
  exact h (mem_standIn hs rfl ▸ hc)

theorem toList_cString (s : String) : (cString s).toList = s.toList.takeWhile fun c => c ≠ '\x00' := by
  rw [cString, String.toList_ofList]

theorem length_cString_lt {w : String} (h : ¬NulFree w) : (cString w).toList.length < w.toList.length := by
  rw [toList_cString]
  refine lt_of_le_of_ne (List.takeWhile_sublist _).length_le fun heq => h ?_
  rw [← cString_eq_self_iff, ← String.toList_inj, toList_cString]
  exact (List.takeWhile_sublist _).eq_of_length heq

/-- A word with U+0000 cuts the pattern short. -/
theorem toList_containsPattern_of_nul {w : String} (h : ¬NulFree w) :
    (cString (containsPattern w)).toList = '%' :: (cString w).toList := by
  have hlt := length_cString_lt h
  rw [toList_cString] at hlt
  have hchars : ("%" ++ w ++ "%").toList = '%' :: (w.toList ++ ['%']) := by
    rw [String.toList_append, String.toList_append]
    rfl
  rw [containsPattern, cString_cString, toList_cString, toList_cString, hchars, List.takeWhile_cons_of_pos (by decide),
    List.takeWhile_append, if_neg hlt.ne]

/-- A pattern that is not too long takes some text. -/
theorem exists_likeText_eq_true {w : String} (hlen : ¬maxPatternLength < (containsPattern w).utf8ByteSize) :
    ∃ t, NulFree t ∧ likeText (containsPattern w) (some t) = some (some true) := by
  by_cases h0 : NulFree w
  · exact ⟨_, by rw [NulFree, String.toList_ofList]; exact nulFree_standIn h0,
      likeText_of_isMatch (toList_cString_containsPattern h0) hlen (nulFree_standIn h0)
        (fits_standIn h0).append_all.isMatch.2⟩
  · have hfree := nulFree_cString w
    exact ⟨_, by rw [NulFree, String.toList_ofList]; exact nulFree_standIn hfree,
      likeText_of_isMatch (toList_containsPattern_of_nul h0) hlen (nulFree_standIn hfree)
        (fits_standIn hfree).isMatch.2⟩

/-- A word that is not plain fails: on some text its pattern raises an error, or is
taken for a text that does not contain the word. -/
theorem exists_likeText_ne {w : String} (h : ¬Plain w) :
    ∃ t, NulFree t ∧ likeText (containsPattern w) (some t) ≠ some (some (decide (Contains w t))) := by
  by_cases hlen : maxPatternLength < (containsPattern w).utf8ByteSize
  · exact ⟨"", by simp [NulFree], by simp [likeText, hlen]⟩
  by_cases h0 : NulFree w
  · have hcut := toList_cString_containsPattern h0
    by_cases hhead : ∃ cs, w.toList = '\u0080' :: cs
    · obtain ⟨cs, hcs⟩ := hhead
      have hfree : '\x00' ∉ cs := fun hmem => h0 (by rw [hcs]; exact List.mem_cons_of_mem _ hmem)
      rw [hcs] at hcut
      refine exists_ne_of_isMatch hcut hlen (s := '\u0100' :: cs.filterMap standIn) ?_
        (fits_standIn hfree).append_all.isMatch_u0080 fun hin => ?_
      · rw [List.mem_cons, not_or]
        exact ⟨by decide, nulFree_standIn hfree⟩
      · have hle := List.length_filterMap_le standIn cs
        have heq := hin.eq_of_length_le (by simpa [hcs] using hle)
        rw [hcs, List.map_cons, List.map_cons, List.cons.injEq] at heq
        exact absurd heq.1 (by decide)
    · refine exists_ne_of_isMatch hcut hlen (nulFree_standIn h0) (fits_standIn h0).append_all.isMatch.2 fun hin => h ?_
      refine ⟨literal_of_standsIn h0 hin, fun heq => hhead ?_, ?_⟩
      · exact ⟨_, (List.cons_head?_tail heq).symm⟩
      · rw [utf8ByteSize_containsPattern h0] at hlen
        exact Nat.not_lt.mp hlen
  · have hfree := nulFree_cString w
    refine exists_ne_of_isMatch (toList_containsPattern_of_nul h0) hlen (nulFree_standIn hfree)
      (fits_standIn hfree).isMatch.2 fun hin => ?_
    have hlt := length_cString_lt h0
    have hle := hin.length_le.trans_eq (List.length_map _)
    have hshort := List.length_filterMap_le standIn (cString w).toList
    rw [List.length_map] at hle
    omega

end StudyDB.Sqlite
