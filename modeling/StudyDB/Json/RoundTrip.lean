import StudyDB.Json.Text

/-! Parsing the text of a value gives the value back. -/

namespace StudyDB.Json

open Decimal (toDigits_cons toDigits_isDigit head_toDigits value_toDigits digits_append sign_print ne_of_isDigit
  print_cons)

/-- What may stand after a value: nothing, a comma or a closing bracket. -/
def Stops (rest : List Char) : Prop := ∀ c ∈ rest.head?, c = ',' ∨ c = ']' ∨ c = '}'

/-- What a value may start with. -/
def Starts (s : List Char) : Prop :=
  ∃ c t, s = c :: t ∧ isSpace c = false ∧ c ≠ ']' ∧ c ≠ '}'

theorem stops_nil : Stops [] := by simp [Stops]

theorem stops_cons {c : Char} (h : c = ',' ∨ c = ']' ∨ c = '}') (s : List Char) : Stops (c :: s) := by
  simpa [Stops] using h

theorem skip_cons {c : Char} (h : isSpace c = false) (s : List Char) : skip (c :: s) = c :: s := by
  simp [skip, h]

theorem skip_of_starts {s : List Char} (h : Starts s) (rest : List Char) : skip (s ++ rest) = s ++ rest := by
  obtain ⟨c, t, rfl, hc, _⟩ := h
  exact skip_cons hc _

/-! ### Strings -/

theorem hexDigit?_digitChar : ∀ n < 16, hexDigit? (Nat.digitChar n) = some n := by decide

/-- The code unit of a control character is read back. -/
theorem codeUnit?_control {n : ℕ} (h : n < 0x20) :
    codeUnit? '0' '0' (Nat.digitChar (n / 16)) (Nat.digitChar (n % 16)) = some n := by
  have h0 : hexDigit? '0' = some 0 := by decide
  simp only [codeUnit?, h0, hexDigit?_digitChar (n / 16) (by omega), hexDigit?_digitChar (n % 16) (by omega),
    Option.bind_eq_bind, Option.bind_some, Option.some.injEq]
  omega

theorem readChars_escape_cons (c : Char) (s : List Char) :
    readChars (escape c ++ s) = (readChars s).map fun r => (c :: r.1, r.2) := by
  unfold escape
  split_ifs with h₁ h₂
  · have hb : backslash ≠ quote := by decide
    have hu : c ≠ 'u' := by rcases h₁ with rfl | rfl <;> decide
    have he : simpleEscape? c = some c := by rcases h₁ with rfl | rfl <;> decide
    rw [List.cons_append, List.cons_append, List.nil_append, readChars.eq_def]
    simp only [hb, if_false, ne_eq, not_true_eq_false]
    split
    · rename_i heq
      exact absurd (List.cons.inj heq).1 hu
    · rename_i heq
      obtain ⟨rfl, rfl⟩ := List.cons.inj heq
      simp [he]
    · rename_i heq
      cases heq
  · have hb : backslash ≠ quote := by decide
    simp only [List.cons_append, List.nil_append]
    rw [readChars.eq_def]
    have hlow : c.toNat < 0xD800 := by omega
    simp [hb, codeUnit?_control h₂, hlow]
  · rw [not_or] at h₁
    rw [List.cons_append, List.nil_append, readChars.eq_def]
    simp [h₁.1, h₁.2, h₂]

theorem readChars_escape (cs rest : List Char) :
    readChars (cs.flatMap escape ++ quote :: rest) = some (cs, rest) := by
  induction cs with
  | nil => rw [List.flatMap_nil, List.nil_append, readChars.eq_def]; rfl
  | cons c cs ih => rw [List.flatMap_cons, List.append_assoc, readChars_escape_cons, ih, Option.map_some]

theorem readString_print (s : String) (rest : List Char) :
    readString (printString s ++ rest) = some (s, rest) := by
  simp [printString, readString, readChars_escape]

theorem starts_printString (s : String) : Starts (printString s) :=
  ⟨quote, _, rfl, by decide, by decide, by decide⟩

/-! ### Numbers -/

theorem not_digit_of_stops {rest : List Char} (h : Stops rest) : ∀ c ∈ rest.head?, c.isDigit = false := by
  intro c hc
  rcases h c hc with rfl | rfl | rfl <;> decide

theorem readWhole_toDigits (n : ℕ) {rest : List Char} (hrest : ∀ c ∈ rest.head?, c.isDigit = false) :
    readWhole (Nat.toDigits 10 n ++ rest) = some (Nat.toDigits 10 n, rest) := by
  rw [readWhole, digits_append (toDigits_isDigit n) hrest]
  split
  · rename_i heq
    exact absurd (Prod.mk.inj heq).1 Nat.toDigits_ne_nil
  · rename_i d ds rest' heq
    have hds := (Prod.mk.inj heq).1
    rcases Nat.eq_zero_or_pos n with rfl | hn
    · rw [Nat.toDigits_zero] at hds
      cases hds
    · exact absurd (by rw [hds]; rfl) (head_toDigits n hn)
  · rfl

theorem readFraction_of_ne {s : List Char} (h : ∀ c ∈ s.head?, c ≠ '.') : readFraction s = some ([], s) := by
  unfold readFraction
  split
  · exact absurd rfl (h '.' rfl)
  · rfl

theorem readExponent_print (e : ℤ) {rest : List Char} (h : Stops rest) :
    readExponent ('e' :: (Decimal.print e ++ rest)) = some (e, rest) := by
  obtain ⟨s, hs, he⟩ := sign_print e rest
  obtain ⟨c, t, ht, _⟩ := toDigits_cons e.natAbs
  have hdigits := digits_append (toDigits_isDigit e.natAbs) (not_digit_of_stops h)
  have hval := value_toDigits e.natAbs
  rw [ht] at hs hval hdigits
  simp only [readExponent, true_or, if_true, hs, hdigits]
  rw [hval, he]

theorem readExponent_of_stops {rest : List Char} (h : Stops rest) : readExponent rest = some (0, rest) := by
  cases rest with
  | nil => rfl
  | cons c s =>
    have hc := h c rfl
    have : ¬(c = 'e' ∨ c = 'E') := by rcases hc with rfl | rfl | rfl <;> decide
    simp [readExponent, this]

theorem readNumber_decimal (m e : ℤ) {t rest : List Char}
    (ht : ∀ c ∈ t.head?, c.isDigit = false ∧ c ≠ '.') (he : readExponent t = some (e, rest)) :
    readNumber (Decimal.print m ++ t) = some (.number m e, rest) := by
  have hwhole := readWhole_toDigits m.natAbs fun c hc => (ht c hc).1
  have hfraction := readFraction_of_ne fun c hc => (ht c hc).2
  by_cases hneg : m < 0
  · have hm : m = -(m.natAbs : ℤ) := by omega
    rw [readNumber, Decimal.print, if_pos hneg]
    generalize m.natAbs = n at hwhole hm ⊢
    subst hm
    simp [hwhole, hfraction, he, value_toDigits]
  · obtain ⟨c, s, hs, hc⟩ := toDigits_cons m.natAbs
    have hhead : (Nat.toDigits 10 m.natAbs ++ t).head? ≠ some '-' := by
      rw [hs]
      simpa using ne_of_isDigit hc (by decide)
    have hm : m = (m.natAbs : ℤ) := by omega
    rw [readNumber, Decimal.print, if_neg hneg, if_neg hhead]
    generalize m.natAbs = n at hwhole hm ⊢
    subst hm
    simp [hwhole, hfraction, he, value_toDigits]

theorem readNumber_print (m e : ℤ) {rest : List Char} (h : Stops rest) :
    readNumber (printNumber m e ++ rest) = some (.number m e, rest) := by
  rw [printNumber, List.append_assoc]
  split_ifs with h0
  · subst h0
    refine readNumber_decimal m 0 (fun c hc => ⟨not_digit_of_stops h c hc, ?_⟩) (readExponent_of_stops h)
    rcases h c hc with rfl | rfl | rfl <;> decide
  · refine readNumber_decimal m e (fun c hc => ?_) (readExponent_print e h)
    obtain rfl := Option.some.inj hc
    decide

theorem readScalar_cons {c : Char} (hn : c ≠ 'n') (ht : c ≠ 't') (hf : c ≠ 'f') (s : List Char) :
    readScalar (c :: s) =
      if c = quote then (readString (c :: s)).map fun r => (.string r.1, r.2) else readNumber (c :: s) := by
  unfold readScalar
  split
  · rename_i heq
    exact absurd (List.cons.inj heq).1 hn
  · rename_i heq
    exact absurd (List.cons.inj heq).1 ht
  · rename_i heq
    exact absurd (List.cons.inj heq).1 hf
  · rename_i heq
    obtain ⟨rfl, rfl⟩ := List.cons.inj heq
    rfl
  · rename_i heq
    cases heq

theorem readScalar_number (m e : ℤ) {rest : List Char} (h : Stops rest) :
    readScalar (printNumber m e ++ rest) = some (.number m e, rest) := by
  obtain ⟨c, t, ht, hc⟩ := print_cons m
  have hne : ∀ d : Char, d.isDigit = false → d ≠ '-' → c ≠ d := by
    rintro d hd hd' rfl
    rcases hc with rfl | hc
    · exact hd' rfl
    · exact ne_of_isDigit hc hd rfl
  have hread := readNumber_print m e h
  rw [printNumber, ht, List.cons_append, List.cons_append] at hread ⊢
  rw [readScalar_cons (hne 'n' (by decide) (by decide)) (hne 't' (by decide) (by decide))
    (hne 'f' (by decide) (by decide)), if_neg (hne quote (by decide) (by decide)), hread]

theorem readScalar_string (s : String) (rest : List Char) :
    readScalar (printString s ++ rest) = some (.string s, rest) := by
  have hread := readString_print s rest
  rw [printString, List.cons_append] at hread ⊢
  rw [readScalar_cons (by decide) (by decide) (by decide), if_pos rfl, hread]
  rfl

/-! ### Brackets -/

section Separated
variable {α : Type*} {close : Char} {item : List Char → Option (α × List Char)} {pr : α → List Char}

/-- The items after the first are read back, when each item is. -/
theorem readSepTail_print (hclose : close = ']' ∨ close = '}') {as : List α}
    (h : ∀ a ∈ as, ∀ rest, Stops rest → item (pr a ++ rest) = some (a, rest)) {n : ℕ}
    (hn : as.length < n) (rest : List Char) :
    readSepTail close item n ((as.flatMap fun a => ',' :: pr a) ++ close :: rest) = some (as, rest) := by
  induction as generalizing n with
  | nil =>
    obtain ⟨n, rfl⟩ := Nat.exists_eq_succ_of_ne_zero (Nat.ne_of_gt hn)
    have hskip : skip (close :: rest) = close :: rest := skip_cons (by rcases hclose with rfl | rfl <;> decide) _
    simp [readSepTail, hskip]
  | cons a as ih =>
    obtain ⟨n, rfl⟩ := Nat.exists_eq_succ_of_ne_zero (Nat.ne_zero_of_lt hn)
    have hne : ',' ≠ close := by rcases hclose with rfl | rfl <;> decide
    have hstop : Stops ((as.flatMap fun a => ',' :: pr a) ++ close :: rest) := by
      cases as with
      | nil => exact stops_cons (.inr hclose) _
      | cons b as => exact stops_cons (.inl rfl) _
    rw [List.flatMap_cons, List.append_assoc, List.cons_append, readSepTail, skip_cons (by decide)]
    simp only [hne, if_false, if_true]
    rw [h a List.mem_cons_self _ hstop]
    simp only [Option.bind_eq_bind, Option.bind_some]
    rw [ih (fun b hb => h b (List.mem_cons_of_mem a hb)) (Nat.lt_of_succ_lt_succ hn)]
    rfl

/-- The items of a bracket are read back, when each item is. -/
theorem readSep_print (hclose : close = ']' ∨ close = '}') {as : List α} (hstarts : ∀ a ∈ as, Starts (pr a))
    (h : ∀ a ∈ as, ∀ rest, Stops rest → item (pr a ++ rest) = some (a, rest)) {n : ℕ}
    (hn : as.length ≤ n) (rest : List Char) :
    readSep close item n (printSep close pr as ++ rest) = some (as, rest) := by
  cases as with
  | nil =>
    have hskip : skip (close :: rest) = close :: rest := skip_cons (by rcases hclose with rfl | rfl <;> decide) _
    simp [readSep, printSep, hskip]
  | cons a as =>
    have hstart := hstarts a List.mem_cons_self
    have hhead : (skip (pr a ++ ((as.flatMap fun b => ',' :: pr b) ++ close :: rest))).head? ≠ some close := by
      rw [skip_of_starts hstart]
      obtain ⟨c, t, hct, _, hne, hne'⟩ := hstart
      rw [hct]
      rcases hclose with rfl | rfl
      · simpa using hne
      · simpa using hne'
    have hstop : Stops ((as.flatMap fun b => ',' :: pr b) ++ close :: rest) := by
      cases as with
      | nil => exact stops_cons (.inr hclose) _
      | cons b as => exact stops_cons (.inl rfl) _
    rw [printSep, List.append_assoc, List.append_assoc, List.singleton_append, readSep, if_neg hhead,
      h a List.mem_cons_self _ hstop]
    simp only [Option.bind_eq_bind, Option.bind_some]
    rw [readSepTail_print hclose (fun b hb => h b (List.mem_cons_of_mem a hb)) hn]
    rfl

/-- A bracket is as long as it has items, and longer than each of them. -/
theorem length_printSep (close : Char) (pr : α → List Char) (as : List α) :
    as.length ≤ (printSep close pr as).length ∧ ∀ a ∈ as, (pr a).length < (printSep close pr as).length := by
  have hflat : ∀ as : List α, as.length ≤ (as.flatMap fun b => ',' :: pr b).length ∧
      ∀ a ∈ as, (pr a).length ≤ (as.flatMap fun b => ',' :: pr b).length := by
    intro as
    induction as with
    | nil => simp
    | cons b as ih =>
      simp only [List.flatMap_cons, List.length_append, List.length_cons, List.forall_mem_cons]
      refine ⟨by omega, by omega, fun a ha => ?_⟩
      have := ih.2 a ha
      omega
  cases as with
  | nil => simp
  | cons a as =>
    obtain ⟨hlen, hitems⟩ := hflat as
    simp only [printSep, List.length_append, List.length_cons, List.length_nil, List.forall_mem_cons]
    refine ⟨by omega, by omega, fun b hb => ?_⟩
    have := hitems b hb
    omega

end Separated

/-! ### Values -/

theorem starts_print (j : Json) : Starts (print j) := by
  cases j with
  | null => exact ⟨'n', _, rfl, by decide⟩
  | bool b => cases b <;> exact ⟨_, _, rfl, by decide⟩
  | number m e =>
    obtain ⟨c, t, ht, hc⟩ := print_cons m
    refine ⟨c, t ++ if e = 0 then [] else 'e' :: Decimal.print e, by rw [print, printNumber, ht]; rfl, ?_⟩
    rcases hc with rfl | hc
    · decide
    · have hne : ∀ d : Char, d.isDigit = false → c ≠ d := fun d hd => ne_of_isDigit hc hd
      refine ⟨?_, hne _ (by decide), hne _ (by decide)⟩
      simp [isSpace, hne ' ' (by decide), hne '\n' (by decide), hne '\t' (by decide), hne '\r' (by decide)]
  | string s => exact starts_printString s
  | array js => exact ⟨'[', _, print_array js, by decide⟩
  | object ms => exact ⟨'{', _, print_object ms, by decide⟩

theorem length_printMember (e : String × Json) : (print e.2).length < (printMember e).length := by
  simp only [printMember, List.length_append, List.length_cons]
  omega

theorem starts_printMember (e : String × Json) : Starts (printMember e) := by
  obtain ⟨c, t, ht, hc⟩ := starts_printString e.1
  exact ⟨c, _, by rw [printMember, ht, List.cons_append], hc⟩

theorem readMember_print {value : List Char → Option (Json × List Char)} {e : String × Json} {rest : List Char}
    (h : value (print e.2 ++ rest) = some (e.2, rest)) :
    readMember value (printMember e ++ rest) = some (e, rest) := by
  rw [readMember, skip_of_starts (starts_printMember e), printMember, List.append_assoc, readString_print]
  simp only [Option.bind_eq_bind, Option.bind_some, List.cons_append]
  rw [skip_cons (by decide)]
  simp [h]

theorem readValue_scalar (n : ℕ) {s : List Char} (hs : Starts s) (h : ∀ c ∈ s.head?, c ≠ '[' ∧ c ≠ '{')
    (rest : List Char) : readValue (n + 1) (s ++ rest) = readScalar (s ++ rest) := by
  rw [readValue, skip_of_starts hs]
  obtain ⟨c, t, rfl, _⟩ := hs
  have hc := h c rfl
  split
  · rename_i heq
    exact absurd (List.cons.inj heq).1 hc.1
  · rename_i heq
    exact absurd (List.cons.inj heq).1 hc.2
  · rfl

/-- A value's text is read back, given as much fuel as the text is long. -/
theorem readValue_print (n : ℕ) : ∀ j : Json, (print j).length ≤ n → ∀ rest, Stops rest →
    readValue n (print j ++ rest) = some (j, rest) := by
  induction n with
  | zero =>
    intro j hj
    obtain ⟨c, t, ht, _⟩ := starts_print j
    rw [ht] at hj
    cases hj
  | succ n ih =>
    intro j hj rest hrest
    cases j with
    | null => rfl
    | bool b => cases b <;> rfl
    | number m e =>
      rw [readValue_scalar n (starts_print _) ?_ rest]
      · exact readScalar_number m e hrest
      · obtain ⟨c, t, ht, hc⟩ := print_cons m
        rw [print, printNumber, ht]
        rintro d hd
        obtain rfl := Option.some.inj hd
        rcases hc with rfl | hc
        · decide
        · exact ⟨ne_of_isDigit hc (by decide), ne_of_isDigit hc (by decide)⟩
    | string s =>
      rw [readValue_scalar n (starts_print _) ?_ rest]
      · exact readScalar_string s rest
      · rintro d hd
        obtain rfl := Option.some.inj hd
        decide
    | array js =>
      rw [print_array] at hj ⊢
      rw [List.cons_append, readValue, skip_cons (by decide)]
      obtain ⟨hlen, hitems⟩ := length_printSep ']' print js
      rw [List.length_cons] at hj
      have hitem : ∀ j ∈ js, ∀ rest, Stops rest → readValue n (print j ++ rest) = some (j, rest) := by
        intro j hmem
        have hlt := hitems j hmem
        exact ih j (by omega)
      have hsep := readSep_print (.inl rfl) (fun j _ => starts_print j) hitem (n := n) (by omega) rest
      simp [hsep]
    | object ms =>
      rw [print_object] at hj ⊢
      rw [List.cons_append, readValue, skip_cons (by decide)]
      obtain ⟨hlen, hitems⟩ := length_printSep '}' printMember ms
      rw [List.length_cons] at hj
      have hmember : ∀ e ∈ ms, ∀ rest, Stops rest →
          readMember (readValue n) (printMember e ++ rest) = some (e, rest) := by
        intro e he rest hrest
        have hlt := hitems e he
        have hlt' := length_printMember e
        exact readMember_print (ih e.2 (by omega) rest hrest)
      have hsep := readSep_print (.inr rfl) (fun e _ => starts_printMember e) hmember (n := n) (by omega) rest
      simp [hsep]

/-- Parsing the text of a value gives the value back. -/
theorem parse_print (j : Json) : parse (print j) = some j := by
  have h := readValue_print _ j (Nat.le_succ _) [] stops_nil
  rw [List.append_nil] at h
  simp [parse, h, skip]

end StudyDB.Json
