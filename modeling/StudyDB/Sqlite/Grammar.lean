import StudyDB.Sqlite.Parser

/-! What the parser reads between two tokens, form by form. Every form exposes tokens
to the operator that waits on its left, and to the token on its right: it is read as a
whole where none of them binds otherwise, and where the stack has room for it. Proved: one
rule for each form, and what the actions of the rules accept. -/

namespace StudyDB.Sqlite

/-! ### Contexts -/

/-- The lowest precedence of the tokens that are shifted behind an operand on top of a
stack. No token has the precedence 12, and no operand may stand where it is 13. -/
def floor : List Sym → ℕ
  | [] => 1
  | .token (.op .and) :: .expr _ :: .betweenOp _ :: .expr _ :: _ => 5
  | .token (.op o) :: .expr _ :: _ => o.precedence + 1
  | .token .is :: .expr _ :: _ | .token .not :: .token .is :: .expr _ :: _ => 5
  | .token .not :: .expr _ :: _ => 13
  | .token .not :: _ => 3
  | .token .bitNot :: _ | .token (.op .plus) :: _ | .token (.op .minus) :: _ => 12
  | .likeOp _ _ :: .expr _ :: _ | .token .escape :: .expr _ :: .likeOp _ _ :: .expr _ :: _ => 5
  | .betweenOp _ :: .expr _ :: _ => 3
  | .token .comma :: _ | .token .lp :: _ | .token .distinct :: .token .lp :: .token (.id _) :: _ => 1
  | _ => 13

theorem Token.precedence_le (t : Token) : t.precedence ≤ 11 := by
  fun_cases Token.precedence t with
  | case1 o => cases o <;> decide
  | _ => omega

theorem binds_of_lt {t : Token} (ht : t ≠ .escape) {n : ℕ} (h : n < t.precedence) : binds (some t) n = true := by
  unfold binds
  split
  · rename_i heq
    cases heq
  · rename_i heq
    exact absurd (Option.some.inj heq) ht
  · rename_i heq
    cases heq
    exact decide_eq_true h

theorem one_le_floor (stack : List Sym) : 1 ≤ floor stack := by
  fun_cases floor stack <;> omega

theorem precedence_lt_floor (o : BinaryOp) (l : Tree) (stack : List Sym) :
    o.precedence < floor (.token (.op o) :: .expr l :: stack) := by
  unfold floor
  split <;> simp_all [BinaryOp.precedence]

theorem three_le_floor_not (stack : List Sym) : 3 ≤ floor (.token .not :: stack) := by
  unfold floor
  split <;> simp_all

theorem eq_not_of_precedence {t : Token} (h : t.precedence = 3) : t = .not := by
  fun_cases Token.precedence t with
  | case1 o => cases o <;> cases h
  | case2 => rfl
  | _ => simp_all [Token.precedence]

/-- The signs, where they are no binary operators. -/
theorem floor_sign {stack : List Sym} (hstack : ∀ l stack', stack ≠ .expr l :: stack') {o : BinaryOp}
    (ho : o = .plus ∨ o = .minus) : floor (.token (.op o) :: stack) = 12 := by
  unfold floor
  rcases ho with rfl | rfl <;> split <;> simp_all

theorem floor_not {stack : List Sym} (h : floor stack ≤ 3) : floor (.token .not :: stack) = 3 := by
  unfold floor
  split
  case h_5 heq =>
    cases heq
    exact absurd (show 5 ≤ 3 from h) (by decide)
  case h_6 heq =>
    cases heq
    exact absurd (show 13 ≤ 3 from h) (by decide)
  all_goals simp_all

theorem floor_op {stack : List Sym} {o : BinaryOp} (h : floor stack ≤ o.precedence) (l : Tree) :
    floor (.token (.op o) :: .expr l :: stack) = o.precedence + 1 := by
  unfold floor
  split
  case h_2 heq =>
    cases heq
    exact absurd (show 3 ≤ 2 from h) (by decide)
  case h_9 hnot heq =>
    cases heq
    exact absurd rfl (hnot l stack)
  case h_10 hnot heq =>
    cases heq
    exact absurd rfl (hnot l stack)
  all_goals simp_all

/-- Behind an operand the tokens that bind tightly enough are shifted. -/
theorem reduceExpr_of_floor {stack : List Sym} {t : Token} (h : floor stack ≤ t.precedence) (ht : t ≠ .escape)
    (r : Tree) : reduceExpr (some t) r stack = none := by
  have hpos := (one_le_floor stack).trans h
  have hcomma : t ≠ .comma := by rintro rfl; exact absurd hpos (by decide)
  have hrp : t ≠ .rp := by rintro rfl; exact absurd hpos (by decide)
  have hle := t.precedence_le
  have hb : ∀ n, n < t.precedence → binds (some t) n = true := fun n => binds_of_lt ht
  unfold reduceExpr
  split
  case h_1 => exact if_pos (hb 4 h)
  case h_2 o l stack _ => exact if_pos (hb _ ((precedence_lt_floor o l stack).trans_le h))
  case h_3 => exact if_pos (hb 4 h)
  case h_4 => exact if_pos (hb 4 h)
  case h_5 stack _ =>
    have hthree := (three_le_floor_not stack).trans h
    rcases Nat.eq_or_lt_of_le hthree with heq | hlt
    · rw [eq_not_of_precedence heq.symm, if_pos (.inr rfl)]
    · exact if_pos (.inl (hb 3 hlt))
  case h_6 => exact absurd (show 12 ≤ 11 from h.trans hle) (by decide)
  case h_7 hstack =>
    rw [floor_sign (fun l stack' hs => hstack l stack' (hs ▸ rfl)) (.inl rfl)] at h
    omega
  case h_8 hstack =>
    rw [floor_sign (fun l stack' hs => hstack l stack' (hs ▸ rfl)) (.inr rfl)] at h
    omega
  case h_9 => exact if_pos (.inl (hb 4 h))
  case h_10 => exact if_pos (hb 4 h)
  case h_11 => exact if_pos (hb 0 hpos)
  case h_12 => exact if_neg (by simp [hcomma, hrp])
  case h_13 => exact if_neg (by simp [hcomma, hrp])
  case h_14 => rfl

/-! ### Where an operand may stand -/

theorem ne_expr_of_floor {stack : List Sym} (h : floor stack ≤ 12) (l : Tree) (stack' : List Sym) :
    stack ≠ .expr l :: stack' := by
  rintro rfl
  exact absurd (show 13 ≤ 12 from h) (by decide)

theorem reduce_of_floor {stack : List Sym} (h : floor stack ≤ 12) (next : Option Token) :
    reduce next stack = none := by
  unfold reduce
  split
  · exact absurd rfl (ne_expr_of_floor h _ _)
  · unfold reduceToken
    split <;> first | rfl | exact absurd (show 13 ≤ 12 from h) (by decide)
  · rfl

theorem beginsList_of_floor {stack : List Sym} (h : floor stack ≤ 12) : beginsList stack = false := by
  unfold beginsList
  split <;> first | rfl | exact absurd (show 13 ≤ 12 from h) (by decide)

theorem reduceId_of_floor {stack : List Sym} (h : floor stack ≤ 12) (next : Option Token) (name : List Char) :
    reduceId next name stack =
      if next = some .lp ∨ next = some .dot then none else some (.expr (.id name) :: stack) := by
  unfold reduceId
  split <;> first | rfl | exact absurd (show 13 ≤ 12 from h) (by decide)

theorem reduceId_dot {stack : List Sym} (h : floor stack ≤ 12) (next : Option Token) (table name : List Char) :
    reduceId next name (.token .dot :: .token (.id table) :: stack) =
      if next = some .dot then none else some (.expr (.column table name) :: stack) := by
  unfold reduceId
  split
  · rename_i heq
    cases heq
  · rename_i heq
    cases heq
    exact absurd (show 13 ≤ 12 from h) (by decide)
  · rename_i heq
    cases heq
    rfl
  · rename_i hnot
    exact absurd rfl (hnot table stack)

theorem reduceParenthesis_vector {stack : List Sym} (h : floor stack ≤ 12) (es : List Tree) :
    reduceParenthesis (.exprs es :: .token .lp :: stack) = some (.expr (.vector es) :: stack) := by
  unfold reduceParenthesis
  split
  case h_1 heq =>
    cases heq
    exact absurd (show 13 ≤ 12 from h) (by decide)
  case h_6 heq =>
    cases heq
    exact absurd (show 13 ≤ 12 from h) (by decide)
  case h_9 heq =>
    cases heq
    rfl
  all_goals simp_all

theorem reduceToken_null {stack : List Sym} (h : floor stack ≤ 12) (next : Option Token) :
    reduceToken next (.term .null) stack = some (.expr (.term .null) :: stack) := by
  simp only [reduceToken]
  split
  · exact absurd (show 13 ≤ 12 from h) (by decide)
  · rfl

/-! ### Heights -/

@[simp] theorem height_expr (e : Tree) (stack : List Sym) : height (.expr e :: stack) = height stack + 1 := rfl

@[simp] theorem height_exprs (es : List Tree) (stack : List Sym) : height (.exprs es :: stack) = height stack + 1 := rfl

@[simp] theorem height_likeOp (isNot : Bool) (k : LikeOp) (stack : List Sym) :
    height (.likeOp isNot k :: stack) = height stack + 1 := rfl

@[simp] theorem height_betweenOp (isNot : Bool) (stack : List Sym) :
    height (.betweenOp isNot :: stack) = height stack + 1 := rfl

@[simp] theorem height_inOp (isNot : Bool) (stack : List Sym) : height (.inOp isNot :: stack) = height stack + 1 := rfl

@[simp] theorem height_id (name : List Char) (stack : List Sym) :
    height (.token (.id name) :: stack) = height stack + 1 := rfl

/-- Only a parenthesis may bring another symbol with it. -/
theorem height_token_le {t : Token} (ht : t ≠ .lp) (stack : List Sym) :
    height (.token t :: stack) ≤ height stack + 1 := by
  rw [height.eq_def (.token t :: stack)]
  split
  case h_1 heq =>
    cases heq
    exact absurd rfl ht
  case h_2 heq =>
    cases heq
    exact Nat.le_succ _
  case h_3 heq =>
    cases heq
    exact Nat.le_succ _
  case h_4 heq =>
    cases heq
    exact Nat.le_refl _
  case h_5 heq => cases heq

theorem height_token_add_le {t : Token} (ht : t ≠ .lp) {stack : List Sym} {n : ℕ} (h : height stack + 1 + n ≤ room) :
    height (.token t :: stack) + n ≤ room :=
  (Nat.add_le_add_right (height_token_le ht stack) n).trans h

theorem height_lp {stack : List Sym} (h : floor stack ≤ 12) : height (.token .lp :: stack) = height stack + 1 := by
  rw [height.eq_def (.token .lp :: stack)]
  split
  case h_1 heq =>
    cases heq
    exact absurd (show 13 ≤ 12 from h) (by decide)
  case h_4 heq =>
    cases heq
    rfl
  all_goals simp_all

theorem shiftHeight_eq {t : Token} (ht : t ≠ .rp) (stack : List Sym) :
    shiftHeight t stack = height (.token t :: stack) := by
  unfold shiftHeight
  split
  · exact absurd rfl ht
  · exact absurd rfl ht
  · exact absurd rfl ht
  · rfl

theorem shiftHeight_le {t : Token} (hlp : t ≠ .lp) (hrp : t ≠ .rp) {stack : List Sym} (hroom : height stack < room) :
    shiftHeight t stack ≤ room :=
  (shiftHeight_eq hrp stack).trans_le ((height_token_le hlp stack).trans hroom)

theorem shiftHeight_lp {stack : List Sym} (h : floor stack ≤ 12) (hroom : height stack < room) :
    shiftHeight .lp stack ≤ room :=
  (height_lp h).trans_le hroom

/-- A token that begins an operand has room where one more symbol has. -/
theorem shiftHeight_of_floor {stack : List Sym} (h : floor stack ≤ 12) {t : Token} (hrp : t ≠ .rp)
    (hroom : height stack < room) : shiftHeight t stack ≤ room := by
  by_cases hlp : t = .lp
  · exact hlp ▸ shiftHeight_lp h hroom
  · exact shiftHeight_le hlp hrp hroom

/-! ### One step -/

theorem steps_shift {stack : List Sym} {t : Token} {rest : List Token} (h : reduce (some t) stack = none)
    (hroom : shiftHeight t stack ≤ room) : parser.Steps (stack, t :: rest) (.token t :: stack, rest) :=
  Relation.ReflTransGen.single (by simp [parser, parserStep, h, hroom])

theorem steps_reduce {stack stack' : List Sym} {rest : List Token} (h : reduce rest.head? stack = some stack') :
    parser.Steps (stack, rest) (stack', rest) :=
  Relation.ReflTransGen.single (by simp [parser, parserStep, h])

/-- A token that the parser shifts, and at once reduces. -/
theorem steps_token {stack stack' : List Sym} {t : Token} {rest : List Token} (h : reduce (some t) stack = none)
    (hroom : shiftHeight t stack ≤ room) (ht : reduceToken rest.head? t stack = some stack') :
    parser.Steps (stack, t :: rest) (stack', rest) :=
  (steps_shift h hroom).trans (steps_reduce ht)

/-! ### Forms -/

/-- Tokens are read as an expression, before the others. -/
def Reads (stack : List Sym) (ts rest : List Token) (e : Tree) : Prop :=
  parser.Steps (stack, ts ++ rest) (.expr e :: stack, rest)

/-- What follows a name. -/
def EndsName (rest : List Token) : Prop := rest.head? ≠ some .lp ∧ rest.head? ≠ some .dot

section Operands
variable {stack : List Sym} {rest : List Token} (h : floor stack ≤ 12) (hroom : height stack < room)
include h hroom

/-- Where an operand may stand, the token that begins one is shifted. -/
theorem steps_operand {t : Token} (ht : t ≠ .rp) (ts : List Token) :
    parser.Steps (stack, t :: ts) (.token t :: stack, ts) :=
  steps_shift (reduce_of_floor h _) (shiftHeight_of_floor h ht hroom)

theorem read_token {t : Token} {e : Tree} (hrp : t ≠ .rp)
    (ht : reduceToken rest.head? t stack = some (.expr e :: stack)) : Reads stack [t] rest e :=
  (steps_operand h hroom hrp _).trans (steps_reduce ht)

theorem read_term (t : Term) : Reads stack [.term t] rest (.term t) := by
  refine read_token h hroom (by simp) ?_
  cases t with
  | null => exact reduceToken_null h _
  | _ => rfl

theorem read_variable (name : List Char) : Reads stack [.variable name] rest (.variable name) :=
  read_token h hroom (by simp) rfl

theorem read_id (hrest : EndsName rest) (name : List Char) : Reads stack [.id name] rest (.id name) :=
  read_token h hroom (by simp) ((reduceId_of_floor h _ _).trans (if_neg (by simpa [EndsName, not_or] using hrest)))

omit hroom in
theorem read_column (hroom : height stack + 3 ≤ room) (hrest : EndsName rest) (table name : List Char) :
    Reads stack [.id table, .dot, .id name] rest (.column table name) := by
  have htable : reduce (some .dot) (.token (.id table) :: stack) = none :=
    (reduceId_of_floor h _ _).trans (if_pos (.inr rfl))
  have hdot : height (.token .dot :: .token (.id table) :: stack) = height stack + 2 := rfl
  exact (steps_operand h (by omega) (by simp) _).trans ((steps_shift htable (shiftHeight_le (by simp) (by simp)
    (by simp; omega))).trans (steps_token rfl (shiftHeight_le (by simp) (by simp) (by omega))
      ((reduceId_dot h _ _ _).trans (if_neg hrest.2))))

omit hroom in
theorem read_schemaColumn (hroom : height stack + 5 ≤ room) (schema table name : List Char) :
    Reads stack [.id schema, .dot, .id table, .dot, .id name] rest (.schemaColumn schema table name) := by
  have hschema : reduce (some .dot) (.token (.id schema) :: stack) = none :=
    (reduceId_of_floor h _ _).trans (if_pos (.inr rfl))
  have htable : reduce (some .dot) (.token (.id table) :: .token .dot :: .token (.id schema) :: stack) = none :=
    (reduceId_dot h _ _ _).trans (if_pos rfl)
  have hdot : height (.token .dot :: .token (.id schema) :: stack) = height stack + 2 := rfl
  have hdots : height (.token .dot :: .token (.id table) :: .token .dot :: .token (.id schema) :: stack) =
      height stack + 4 := rfl
  have hshift : ∀ {t : Token} {stack' : List Sym}, t ≠ .lp → t ≠ .rp → height stack' < height stack + 5 →
      shiftHeight t stack' ≤ room := fun hlp hrp hlt => shiftHeight_le hlp hrp (hlt.trans_le hroom)
  exact (steps_operand h (by omega) (by simp) _).trans
    ((steps_shift hschema (hshift (by simp) (by simp) (by simp))).trans
    ((steps_shift rfl (hshift (by simp) (by simp) (by omega))).trans
    ((steps_shift htable (hshift (by simp) (by simp) (by simp [hdot]))).trans
    (steps_token rfl (hshift (by simp) (by simp) (by omega)) rfl))))

omit hroom in
theorem read_parentheses (hroom : height stack + 3 ≤ room) {ts : List Token} {e : Tree}
    (he : Reads (.token .lp :: stack) ts (.rp :: rest) e) : Reads stack (.lp :: ts ++ [.rp]) rest e := by
  have hlist : reduceExpr (some .rp) e (.token .lp :: stack) = none :=
    if_neg (by simp [beginsList_of_floor h])
  have hclose : shiftHeight .rp (.expr e :: .token .lp :: stack) = height (.token .lp :: stack) + 2 := rfl
  have htokens : .lp :: ts ++ [.rp] ++ rest = .lp :: (ts ++ .rp :: rest) := by simp
  rw [Reads, htokens]
  rw [height_lp h] at hclose
  exact (steps_operand h (by omega) (by simp) _).trans (he.trans (steps_token hlist (by omega) rfl))

theorem read_sign {o : BinaryOp} {u : UnaryOp} (ho : o = .plus ∧ u = .plus ∨ o = .minus ∧ u = .minus)
    {ts : List Token} {e : Tree} (he : Reads (.token (.op o) :: stack) ts rest e) :
    Reads stack (.op o :: ts) rest (.unary u e) := by
  have hreduce : reduceExpr rest.head? e (.token (.op o) :: stack) = some (.expr (.unary u e) :: stack) := by
    have hne := ne_expr_of_floor h
    unfold reduceExpr
    rcases ho with ⟨rfl, rfl⟩ | ⟨rfl, rfl⟩ <;> split <;> simp_all
  exact (steps_operand h hroom (by simp) _).trans (he.trans (steps_reduce hreduce))

theorem read_bitNot {ts : List Token} {e : Tree} (he : Reads (.token .bitNot :: stack) ts rest e) :
    Reads stack (.bitNot :: ts) rest (.unary .bitNot e) :=
  (steps_operand h hroom (by simp) _).trans (he.trans (steps_reduce rfl))

end Operands

theorem read_not {stack : List Sym} {ts rest : List Token} {e : Tree} (h : floor stack ≤ 3)
    (hroom : height stack < room) (hrest : binds rest.head? 3 = false ∧ rest.head? ≠ some .not)
    (he : Reads (.token .not :: stack) ts rest e) :
    Reads stack (.not :: ts) rest (.unary .not e) := by
  have hreduce : reduceExpr rest.head? e (.token .not :: stack) = some (.expr (.unary .not e) :: stack) := by
    unfold reduceExpr
    split
    case h_4 heq =>
      cases heq
      exact absurd (show 5 ≤ 3 from h) (by decide)
    all_goals simp_all
  exact (steps_operand (h.trans (by decide)) hroom (by simp) _).trans (he.trans (steps_reduce hreduce))

/-! ### Operators -/

section Operators
variable {stack : List Sym} {rest : List Token} {l r : Tree}

theorem reduceExpr_binary {o : BinaryOp} (h : floor stack ≤ o.precedence) (next : Option Token) :
    reduceExpr next r (.token (.op o) :: .expr l :: stack) =
      if binds next o.precedence then none else some (.expr (.binary o l r) :: stack) := by
  unfold reduceExpr
  split
  case h_1 heq =>
    cases heq
    exact absurd (show 3 ≤ 2 from h) (by decide)
  case h_2 heq =>
    cases heq
    rfl
  case h_7 hnot heq =>
    cases heq
    exact absurd rfl (hnot l stack)
  case h_8 hnot heq =>
    cases heq
    exact absurd rfl (hnot l stack)
  all_goals simp_all

/-- Behind an operand, whatever is no parenthesis takes one place more. -/
theorem steps_operator {t : Token} (hlp : t ≠ .lp) (hrp : t ≠ .rp) (hroom : height stack + 2 ≤ room)
    (h : reduce (some t) (.expr l :: stack) = none) :
    parser.Steps (.expr l :: stack, t :: rest) (.token t :: .expr l :: stack, rest) :=
  steps_shift h (shiftHeight_le hlp hrp hroom)

theorem read_binary {o : BinaryOp} {ts us : List Token} (h : floor stack ≤ o.precedence)
    (hroom : height stack + 2 ≤ room) (hl : Reads stack ts (.op o :: (us ++ rest)) l)
    (hr : Reads (.token (.op o) :: .expr l :: stack) us rest r) (hrest : binds rest.head? o.precedence = false) :
    Reads stack (ts ++ .op o :: us) rest (.binary o l r) := by
  have hshift : reduce (some (.op o)) (.expr l :: stack) = none := reduceExpr_of_floor h (by simp) l
  have hreduce : reduce rest.head? (.expr r :: .token (.op o) :: .expr l :: stack) =
      some (.expr (.binary o l r) :: stack) :=
    (reduceExpr_binary h _).trans (if_neg (by simp [hrest]))
  rw [Reads, List.append_assoc, List.cons_append]
  exact hl.trans ((steps_operator (by simp) (by simp) hroom hshift).trans (hr.trans (steps_reduce hreduce)))

theorem read_is {ts us : List Token} (h : floor stack ≤ 4) (hroom : height stack + 2 ≤ room)
    (hl : Reads stack ts (.is :: (us ++ rest)) l) (hr : Reads (.token .is :: .expr l :: stack) us rest r)
    (hrest : binds rest.head? 4 = false) :
    Reads stack (ts ++ .is :: us) rest (.is false l r) := by
  have hshift : reduce (some .is) (.expr l :: stack) = none := reduceExpr_of_floor h (by simp) l
  have hreduce : reduce rest.head? (.expr r :: .token .is :: .expr l :: stack) =
      some (.expr (.is false l r) :: stack) :=
    if_neg (by simp [hrest])
  rw [Reads, List.append_assoc, List.cons_append]
  exact hl.trans ((steps_operator (by simp) (by simp) hroom hshift).trans (hr.trans (steps_reduce hreduce)))

theorem read_isNot {ts us : List Token} (h : floor stack ≤ 4) (hroom : height stack + 3 ≤ room)
    (hl : Reads stack ts (.is :: .not :: (us ++ rest)) l)
    (hr : Reads (.token .not :: .token .is :: .expr l :: stack) us rest r) (hrest : binds rest.head? 4 = false) :
    Reads stack (ts ++ .is :: .not :: us) rest (.is true l r) := by
  have hshift : reduce (some .is) (.expr l :: stack) = none := reduceExpr_of_floor h (by simp) l
  have hreduce : reduce rest.head? (.expr r :: .token .not :: .token .is :: .expr l :: stack) =
      some (.expr (.is true l r) :: stack) :=
    if_neg (by simp [hrest])
  rw [Reads, List.append_assoc, List.cons_append, List.cons_append]
  have hnot : shiftHeight .not (.token .is :: .expr l :: stack) ≤ room := shiftHeight_le (by simp) (by simp) hroom
  exact hl.trans ((steps_operator (by simp) (by simp) (by omega) hshift).trans ((steps_shift rfl hnot).trans
    (hr.trans (steps_reduce hreduce))))

theorem read_isNull {ts : List Token} (h : floor stack ≤ 4) (hroom : height stack + 2 ≤ room)
    (hl : Reads stack ts (.isNull :: rest) l) :
    Reads stack (ts ++ [.isNull]) rest (.isNull false l) := by
  have hshift : reduce (some .isNull) (.expr l :: stack) = none := reduceExpr_of_floor h (by simp) l
  rw [Reads, List.append_assoc]
  exact hl.trans ((steps_operator (by simp) (by simp) hroom hshift).trans (steps_reduce rfl))

theorem read_notNull {ts : List Token} (h : floor stack ≤ 4) (hroom : height stack + 2 ≤ room)
    (hl : Reads stack ts (.notNull :: rest) l) :
    Reads stack (ts ++ [.notNull]) rest (.isNull true l) := by
  have hshift : reduce (some .notNull) (.expr l :: stack) = none := reduceExpr_of_floor h (by simp) l
  rw [Reads, List.append_assoc]
  exact hl.trans ((steps_operator (by simp) (by simp) hroom hshift).trans (steps_reduce rfl))

theorem read_collate {ts : List Token} (h : floor stack ≤ 11) (hroom : height stack + 3 ≤ room) (name : List Char)
    (hl : Reads stack ts (.collate :: .id name :: rest) l) :
    Reads stack (ts ++ [.collate, .id name]) rest (.collate l name) := by
  have hshift : reduce (some .collate) (.expr l :: stack) = none := reduceExpr_of_floor h (by simp) l
  rw [Reads, List.append_assoc]
  have hname : shiftHeight (.id name) (.token .collate :: .expr l :: stack) ≤ room :=
    shiftHeight_le (by simp) (by simp) hroom
  exact hl.trans ((steps_operator (by simp) (by simp) (by omega) hshift).trans (steps_token rfl hname rfl))

/-- The words for `NOT` and a token. -/
def notTokens (isNot : Bool) (t : Token) : List Token := if isNot then [.not, t] else [t]

/-- The lowest precedence among them. -/
def notPrecedence (isNot : Bool) : ℕ := if isNot then 3 else 4

theorem endsName_notTokens (isNot : Bool) {t : Token} (hlp : t ≠ .lp) (hdot : t ≠ .dot) (ts : List Token) :
    EndsName (notTokens isNot t ++ ts) := by
  cases isNot <;> simp [notTokens, EndsName, hlp, hdot]

/-- LIKE, BETWEEN and IN are read as operators, with `NOT` or without. -/
theorem steps_notTokens {t : Token} (op : Bool → Sym) (ht : t.precedence = 4)
    (hop : ∀ next stack, reduceToken next t stack = reduceNot op stack) {isNot : Bool}
    (h : floor stack ≤ notPrecedence isNot) (hroom : height stack + 3 ≤ room) :
    parser.Steps (.expr l :: stack, notTokens isNot t ++ rest) (op isNot :: .expr l :: stack, rest) := by
  have hne : ∀ {u : Token}, u.precedence ≠ 4 → t ≠ u := fun hu htu => hu (htu ▸ ht)
  have hescape : t ≠ .escape := hne (by decide)
  have hlp : t ≠ .lp := hne (by decide)
  have hrp : t ≠ .rp := hne (by decide)
  cases isNot with
  | false =>
    have hshift : reduce (some t) (.expr l :: stack) = none := reduceExpr_of_floor (ht ▸ h) hescape l
    exact (steps_operator hlp hrp (by omega) hshift).trans (steps_reduce (hop _ _))
  | true =>
    have hshift : reduce (some .not) (.expr l :: stack) = none := reduceExpr_of_floor h (by simp) l
    have ht' : shiftHeight t (.token .not :: .expr l :: stack) ≤ room := shiftHeight_le hlp hrp hroom
    exact (steps_operator (by simp) (by simp) (by omega) hshift).trans (steps_token rfl ht' (hop _ _))

theorem steps_like {isNot : Bool} {k : LikeOp} (h : floor stack ≤ notPrecedence isNot)
    (hroom : height stack + 3 ≤ room) :
    parser.Steps (.expr l :: stack, notTokens isNot (.like k) ++ rest) (.likeOp isNot k :: .expr l :: stack, rest) :=
  steps_notTokens (fun isNot => .likeOp isNot k) rfl (fun _ _ => rfl) h hroom

theorem read_like {isNot : Bool} {k : LikeOp} {ts us : List Token} (h : floor stack ≤ notPrecedence isNot)
    (hroom : height stack + 3 ≤ room) (hl : Reads stack ts (notTokens isNot (.like k) ++ (us ++ rest)) l)
    (hr : Reads (.likeOp isNot k :: .expr l :: stack) us rest r)
    (hrest : binds rest.head? 4 = false ∧ rest.head? ≠ some .escape) :
    Reads stack (ts ++ notTokens isNot (.like k) ++ us) rest (.like isNot k l r) := by
  have hreduce : reduce rest.head? (.expr r :: .likeOp isNot k :: .expr l :: stack) =
      some (.expr (.like isNot k l r) :: stack) :=
    if_neg (by simp [hrest])
  rw [Reads, List.append_assoc, List.append_assoc]
  exact hl.trans ((steps_like h hroom).trans (hr.trans (steps_reduce hreduce)))

theorem read_likeEscape {isNot : Bool} {k : LikeOp} {ts us vs : List Token} {e : Tree}
    (h : floor stack ≤ notPrecedence isNot) (hroom : height stack + 4 ≤ room)
    (hl : Reads stack ts (notTokens isNot (.like k) ++ (us ++ .escape :: (vs ++ rest))) l)
    (hr : Reads (.likeOp isNot k :: .expr l :: stack) us (.escape :: (vs ++ rest)) r)
    (he : Reads (.token .escape :: .expr r :: .likeOp isNot k :: .expr l :: stack) vs rest e)
    (hrest : binds rest.head? 4 = false) :
    Reads stack (ts ++ notTokens isNot (.like k) ++ us ++ .escape :: vs) rest (.likeEscape isNot k l r e) := by
  have hshift : reduce (some .escape) (.expr r :: .likeOp isNot k :: .expr l :: stack) = none := by
    simp [reduce, reduceExpr]
  have hreduce : reduce rest.head? (.expr e :: .token .escape :: .expr r :: .likeOp isNot k :: .expr l :: stack) =
      some (.expr (.likeEscape isNot k l r e) :: stack) :=
    if_neg (by simp [hrest])
  have hescape : shiftHeight .escape (.expr r :: .likeOp isNot k :: .expr l :: stack) ≤ room :=
    shiftHeight_le (by simp) (by simp) hroom
  rw [Reads, List.append_assoc, List.append_assoc, List.append_assoc]
  exact hl.trans ((steps_like h (by omega)).trans (hr.trans ((steps_shift hshift hescape).trans
    (he.trans (steps_reduce hreduce)))))

theorem read_between {isNot : Bool} {ts us vs : List Token} {e : Tree} (h : floor stack ≤ notPrecedence isNot)
    (hroom : height stack + 4 ≤ room)
    (he : Reads stack ts (notTokens isNot .between ++ (us ++ .op .and :: (vs ++ rest))) e)
    (hl : Reads (.betweenOp isNot :: .expr e :: stack) us (.op .and :: (vs ++ rest)) l)
    (hr : Reads (.token (.op .and) :: .expr l :: .betweenOp isNot :: .expr e :: stack) vs rest r)
    (hrest : binds rest.head? 4 = false) :
    Reads stack (ts ++ notTokens isNot .between ++ us ++ .op .and :: vs) rest (.between isNot e l r) := by
  have hreduce : reduce rest.head? (.expr r :: .token (.op .and) :: .expr l :: .betweenOp isNot :: .expr e :: stack) =
      some (.expr (.between isNot e l r) :: stack) :=
    if_neg (by simp [hrest])
  have hand : shiftHeight (.op .and) (.expr l :: .betweenOp isNot :: .expr e :: stack) ≤ room :=
    shiftHeight_le (by simp) (by simp) hroom
  rw [Reads, List.append_assoc, List.append_assoc, List.append_assoc]
  exact he.trans ((steps_notTokens .betweenOp rfl (fun _ _ => rfl) h (by omega)).trans (hl.trans
    ((steps_shift rfl hand).trans (hr.trans (steps_reduce hreduce)))))

end Operators

/-! ### Lists -/

/-- Tokens are read as a list, behind the parenthesis that opens it. -/
def ReadsList (stack : List Sym) (ts rest : List Token) (es : List Tree) : Prop :=
  parser.Steps (stack, ts ++ rest) (.exprs es :: stack, rest)

/-- What ends an expression of a list. -/
def EndsItem (rest : List Token) : Prop := rest.head? = some .comma ∨ rest.head? = some .rp

/-- The items with commas between them. -/
def commas : List (List Token) → List Token
  | [] => []
  | ts :: tss => ts ++ tss.flatMap (.comma :: ·)

/-- What is read as an item of any list, where so many symbols have room. -/
def ReadsItem (n : ℕ) (ts : List Token) (e : Tree) : Prop :=
  ∀ stack rest, floor stack ≤ 1 → height stack + n ≤ room → EndsItem rest → Reads stack ts rest e

theorem endsItem_flatMap (tss : List (List Token)) {rest : List Token} (hrest : rest.head? = some .rp) :
    EndsItem (tss.flatMap (.comma :: ·) ++ rest) := by
  cases tss with
  | nil => exact .inr hrest
  | cons ts tss => exact .inl rfl

/-- The items behind the first. -/
theorem read_more {stack : List Sym} {rest : List Token} (hrest : rest.head? = some .rp) {n : ℕ}
    (hroom : height stack + 2 + n ≤ room) {items : List (List Token × Tree)}
    (hitems : ∀ i ∈ items, ReadsItem n i.1 i.2) (es : List Tree) :
    parser.Steps (.exprs es :: stack, (items.map Prod.fst).flatMap (.comma :: ·) ++ rest)
      (.exprs (es ++ items.map Prod.snd) :: stack, rest) := by
  induction items generalizing es with
  | nil =>
    rw [List.map_nil, List.map_nil, List.append_nil]
    exact Relation.ReflTransGen.refl
  | cons i items ih =>
    have hends := endsItem_flatMap (items.map Prod.fst) hrest
    have hread := hitems i List.mem_cons_self (.token .comma :: .exprs es :: stack) _ (Nat.le_refl 1) hroom hends
    have hcomma : shiftHeight .comma (.exprs es :: stack) ≤ room :=
      shiftHeight_le (by simp) (by simp) (by simp; omega)
    have hreduce : reduce ((items.map Prod.fst).flatMap (.comma :: ·) ++ rest).head?
        (.expr i.2 :: .token .comma :: .exprs es :: stack) = some (.exprs (es ++ [i.2]) :: stack) :=
      if_neg (by rcases hends with heq | heq <;> rw [heq] <;> decide)
    have htokens : ((i :: items).map Prod.fst).flatMap (.comma :: ·) ++ rest =
        .comma :: (i.1 ++ ((items.map Prod.fst).flatMap (.comma :: ·) ++ rest)) := by simp
    have hes : es ++ (i :: items).map Prod.snd = (es ++ [i.2]) ++ items.map Prod.snd := by simp
    rw [htokens, hes]
    exact (steps_shift rfl hcomma).trans (hread.trans ((steps_reduce hreduce).trans
      (ih (fun j hj => hitems j (List.mem_cons_of_mem i hj)) _)))

/-- A list, where its first item is not taken for an operand. -/
theorem read_list (stack : List Sym) (rest : List Token) (hrest : rest.head? = some .rp) (hstack : floor stack ≤ 1)
    {n : ℕ} (hroom : height stack + 2 + n ≤ room) {i : List Token × Tree} {items : List (List Token × Tree)}
    (hitems : ∀ j ∈ i :: items, ReadsItem n j.1 j.2)
    (hfirst : reduce ((items.map Prod.fst).flatMap (.comma :: ·) ++ rest).head? (.expr i.2 :: stack) =
      some (.exprs [i.2] :: stack)) :
    ReadsList stack (commas ((i :: items).map Prod.fst)) rest ((i :: items).map Prod.snd) := by
  have hread := hitems i List.mem_cons_self stack _ hstack (by omega) (endsItem_flatMap (items.map Prod.fst) hrest)
  rw [ReadsList, List.map_cons, commas, List.append_assoc]
  exact hread.trans ((steps_reduce hfirst).trans
    (read_more hrest hroom (fun j hj => hitems j (List.mem_cons_of_mem i hj)) [i.2]))

section Lists
variable {stack : List Sym} {rest : List Token}

theorem reduce_item {ts : List Token} (hts : EndsItem ts) (hstack : beginsList stack = true) (e : Tree) :
    reduce ts.head? (.expr e :: .token .lp :: stack) = some (.exprs [e] :: .token .lp :: stack) :=
  if_pos (by simpa [EndsItem, hstack] using hts)

/-- A function's name and the parenthesis behind it. -/
theorem steps_function (h : floor stack ≤ 12) (hroom : height stack + 3 ≤ room) (f : List Char) (ts : List Token) :
    parser.Steps (stack, .id f :: .lp :: ts) (.token .lp :: .token (.id f) :: stack, ts) := by
  have hid : reduce (some .lp) (.token (.id f) :: stack) = none := (reduceId_of_floor h _ _).trans (if_pos (.inl rfl))
  exact (steps_operand h (by omega) (by simp) _).trans (steps_shift hid hroom)

/-- The call of a function. -/
theorem read_call (h : floor stack ≤ 12) (f : List Char) {n : ℕ} (hroom : height stack + 5 + n ≤ room)
    {items : List (List Token × Tree)} (hitems : ∀ i ∈ items, ReadsItem n i.1 i.2) :
    Reads stack (.id f :: .lp :: commas (items.map Prod.fst) ++ [.rp]) rest (.call f false (items.map Prod.snd)) := by
  have htokens : .id f :: .lp :: commas (items.map Prod.fst) ++ [.rp] ++ rest =
      .id f :: .lp :: (commas (items.map Prod.fst) ++ .rp :: rest) := by simp
  have hclose : height stack + 5 ≤ room := by omega
  rw [Reads, htokens]
  refine (steps_function h (by omega) f _).trans ?_
  cases items with
  | nil => exact steps_token rfl hclose rfl
  | cons i items =>
    have hlist := read_list (.token .lp :: .token (.id f) :: stack) (.rp :: rest) rfl (Nat.le_refl 1) hroom hitems
      (reduce_item (endsItem_flatMap _ rfl) rfl i.2)
    exact hlist.trans (steps_token rfl hclose rfl)

theorem read_callDistinct (h : floor stack ≤ 12) (f : List Char) {n : ℕ} (hroom : height stack + 5 + n ≤ room)
    {i : List Token × Tree} {items : List (List Token × Tree)} (hitems : ∀ j ∈ i :: items, ReadsItem n j.1 j.2) :
    Reads stack (.id f :: .lp :: .distinct :: commas ((i :: items).map Prod.fst) ++ [.rp]) rest
      (.call f true ((i :: items).map Prod.snd)) := by
  have htokens : .id f :: .lp :: .distinct :: commas ((i :: items).map Prod.fst) ++ [.rp] ++ rest =
      .id f :: .lp :: .distinct :: (commas ((i :: items).map Prod.fst) ++ .rp :: rest) := by simp
  have hends : EndsItem ((items.map Prod.fst).flatMap (.comma :: ·) ++ .rp :: rest) := endsItem_flatMap _ rfl
  have hlist := read_list (.token .distinct :: .token .lp :: .token (.id f) :: stack) (.rp :: rest) rfl
    (Nat.le_refl 1) hroom hitems (if_pos hends)
  have hdistinct : shiftHeight .distinct (.token .lp :: .token (.id f) :: stack) ≤ room :=
    show height stack + 3 ≤ room by omega
  have hclose : height stack + 5 ≤ room := by omega
  rw [Reads, htokens]
  exact (steps_function h (by omega) f _).trans ((steps_shift rfl hdistinct).trans
    (hlist.trans (steps_token rfl hclose rfl)))

theorem read_callAll (h : floor stack ≤ 12) (hroom : height stack + 4 ≤ room) (f : List Char) :
    Reads stack [.id f, .lp, .op .star, .rp] rest (.callAll f) := by
  have hstar : shiftHeight (.op .star) (.token .lp :: .token (.id f) :: stack) ≤ room :=
    show height stack + 3 ≤ room by omega
  exact (steps_function h (by omega) f _).trans ((steps_shift rfl hstar).trans (steps_token rfl hroom rfl))

/-- A row value has two items at least. -/
theorem read_vector (h : floor stack ≤ 12) {n : ℕ} (hroom : height stack + 5 + n ≤ room) {i j : List Token × Tree}
    {items : List (List Token × Tree)} (hitems : ∀ k ∈ i :: j :: items, ReadsItem n k.1 k.2) :
    Reads stack (.lp :: commas ((i :: j :: items).map Prod.fst) ++ [.rp]) rest
      (.vector ((i :: j :: items).map Prod.snd)) := by
  have htokens : .lp :: commas ((i :: j :: items).map Prod.fst) ++ [.rp] ++ rest =
      .lp :: (commas ((i :: j :: items).map Prod.fst) ++ .rp :: rest) := by simp
  have hfirst : reduce (some .comma) (.expr i.2 :: .token .lp :: stack) =
      some (.exprs [i.2] :: .token .lp :: stack) := by
    simp [reduce, reduceExpr]
  have hlp := height_lp h
  have hlist := read_list (.token .lp :: stack) (.rp :: rest) rfl (Nat.le_refl 1) (by omega) hitems hfirst
  have hclose : ∀ es, shiftHeight .rp (.exprs es :: .token .lp :: stack) ≤ room := by
    intro es
    simp only [shiftHeight, beginsList_of_floor h, Bool.false_eq_true, if_false, height_exprs, hlp]
    omega
  rw [Reads, htokens]
  exact (steps_operand h (by omega) (by simp) _).trans
    (hlist.trans (steps_token rfl (hclose _) (reduceParenthesis_vector h _)))

theorem read_in {isNot : Bool} {ts : List Token} {e : Tree} (h : floor stack ≤ notPrecedence isNot) {n : ℕ}
    (hroom : height stack + 5 + n ≤ room) {items : List (List Token × Tree)}
    (hitems : ∀ i ∈ items, ReadsItem n i.1 i.2)
    (he : Reads stack ts (notTokens isNot .in ++ .lp :: (commas (items.map Prod.fst) ++ .rp :: rest)) e) :
    Reads stack (ts ++ notTokens isNot .in ++ .lp :: commas (items.map Prod.fst) ++ [.rp]) rest
      (.in isNot e (items.map Prod.snd)) := by
  have htokens : ts ++ notTokens isNot .in ++ .lp :: commas (items.map Prod.fst) ++ [.rp] ++ rest =
      ts ++ (notTokens isNot .in ++ .lp :: (commas (items.map Prod.fst) ++ .rp :: rest)) := by simp
  have hopen : shiftHeight .lp (.inOp isNot :: .expr e :: stack) ≤ room := show height stack + 3 ≤ room by omega
  have hclose : height stack + 5 ≤ room := by omega
  rw [Reads, htokens]
  refine he.trans ((steps_notTokens .inOp rfl (fun _ _ => rfl) h (by omega)).trans ((steps_shift rfl hopen).trans ?_))
  cases items with
  | nil => exact steps_token rfl hclose rfl
  | cons i items =>
    have hlist := read_list (.token .lp :: .inOp isNot :: .expr e :: stack) (.rp :: rest) rfl (Nat.le_refl 1) hroom
      hitems (reduce_item (endsItem_flatMap _ rfl) rfl i.2)
    exact hlist.trans (steps_token rfl hclose rfl)

end Lists

/-! ### What the actions accept -/

theorem mem_nodesList {t : Tree} {ts : List Tree} : t ∈ nodesList ts ↔ ∃ u ∈ ts, t ∈ u.nodes := by
  induction ts with
  | nil => simp [nodesList]
  | cons u ts ih => simp [nodesList, ih]

/-- No function is called with too many arguments. -/
def CallsFit (ts : List Tree) : Prop :=
  ∀ f distinct arguments, .call f distinct arguments ∈ ts → arguments.length ≤ maxFunctionArg

@[simp] theorem callsFit_append {ts us : List Tree} : CallsFit (ts ++ us) ↔ CallsFit ts ∧ CallsFit us := by
  simp only [CallsFit, List.mem_append, or_imp, forall_and]

@[simp] theorem callsFit_nodesList {ts : List Tree} : CallsFit (nodesList ts) ↔ ∀ t ∈ ts, CallsFit t.nodes := by
  simp only [CallsFit, mem_nodesList]
  exact ⟨fun h t ht f distinct arguments hmem => h f distinct arguments ⟨t, ht, hmem⟩,
    fun h f distinct arguments ⟨t, ht, hmem⟩ => h t ht f distinct arguments hmem⟩

theorem callsFit_singleton {t : Tree} (h : ∀ f distinct arguments, t ≠ .call f distinct arguments) : CallsFit [t] :=
  fun f distinct arguments hmem => absurd (List.mem_singleton.mp hmem).symm (h f distinct arguments)

/-- The parameters can be numbered, from left to right. -/
def Numbered (names : List (List Char)) : Prop := (names.foldlM Variables.assignVarNumber {}).isSome = true

/-- Only the parameters change what the actions keep. -/
theorem foldlM_action {ts : List Tree} (h : CallsFit ts) (v : Variables) :
    ts.foldlM Variables.action v = (ts.filterMap Tree.parameter?).foldlM Variables.assignVarNumber v := by
  induction ts generalizing v with
  | nil => rfl
  | cons t ts ih =>
    have hrest : CallsFit ts := fun f distinct arguments hmem => h f distinct arguments (List.mem_cons_of_mem t hmem)
    have hother : v.action t = some v → (t :: ts).foldlM Variables.action v = ts.foldlM Variables.action v := by
      intro haction
      rw [List.foldlM_cons, haction]
      rfl
    cases t with
    | «variable» name =>
      rw [List.foldlM_cons]
      exact bind_congr fun v' => ih hrest v'
    | call f distinct arguments =>
      have hfits := h f distinct arguments List.mem_cons_self
      rw [hother (if_neg (not_lt.mpr hfits)), ih hrest]
      rfl
    | _ =>
      rw [hother rfl, ih hrest]
      rfl

theorem accepted_of_numbered {t : Tree} (hcalls : CallsFit t.nodes) (h : Numbered t.variables) :
    t.accepted = true := by
  rw [Tree.accepted, foldlM_action hcalls]
  exact h

/-! ### Whole texts -/

/-- What is read with nothing around it is the result of the parser. -/
theorem parse_of_reads {ts : List Token} {e : Tree} (h : Reads [] ts [] e) : parse ts = some e := by
  rw [Reads, List.append_nil] at h
  have hhalted : parser.step ([.expr e], []) = none := rfl
  rw [parse, Machine.run_of_steps h, Machine.run_of_halted hhalted]

end StudyDB.Sqlite
