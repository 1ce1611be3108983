import StudyDB.Sqlite.Value
import StudyDB.WCDB.Expression

/-! Which expressions SQLite reads back as they were written. Operands that are operations
stand in parentheses, but IN does not, neither as an operand nor around the expression that
it tests: it is taken whole only where no operator binds as tightly. The parser of SQLite
has a stack of a fixed height, numbers for parameters up to a largest one, and takes no
more than so many arguments. Proved: the text of a printable expression that it has room
and numbers for is read as its tree. -/

namespace StudyDB.WCDB.Syntax

open Sqlite (Token Term Tree Sym UnaryOp BinaryOp LikeOp doubled commas notTokens notPrecedence binds isName isIdChar
  wordToken Lexes Reads ReadsItem CallsFit Numbered floor room)

/-! ### What an expression exposes -/

def autoLevel (parentheses : Bool) (level : ℕ) : ℕ := if parentheses then 12 else level

/-- The lowest precedence of the operators that an operator on the left might bind
more tightly than, so that it would take their operand. -/
def Expression.level : Expression → ℕ
  | .literalValue _ | .bindParameter _ | .column _ | .function .. | .expressions _ => 12
  | .unary .not _ => 3
  | .unary _ _ => 12
  | .binary o l _ => min o.op.precedence (autoLevel l.parentheses l.level)
  | .null _ e => min 4 (autoLevel e.parentheses e.level)
  | .is _ l _ => min 4 (autoLevel l.parentheses l.level)
  | .like isNot _ l _ => min (notPrecedence isNot) (autoLevel l.parentheses l.level)
  | .likeEscape isNot _ l _ _ => min (notPrecedence isNot) (autoLevel l.parentheses l.level)
  | .between isNot e _ _ => min (notPrecedence isNot) (autoLevel e.parentheses e.level)
  | .in isNot e _ => min (notPrecedence isNot) e.level
  | .collate e _ => min 11 (autoLevel e.parentheses e.level)

/-- The level of an operand. -/
def Expression.operandLevel (e : Expression) : ℕ := autoLevel e.parentheses e.level

/-- Before the next token the expression is whole. -/
def Expression.ends (next : Option Token) : Expression → Bool
  | .unary .not _ => !binds next 3 && next ≠ some .not
  | .binary o _ _ => !binds next o.op.precedence
  | .like .. => !binds next 4 && next ≠ some .escape
  | .is .. | .likeEscape .. | .between .. => !binds next 4
  | _ => true

/-- The level that a prefix operator wants of its operand. -/
def UnaryOperator.level : UnaryOperator → ℕ
  | .not => 3
  | _ => 12

/-! ### What an expression takes of the stack -/

def autoHeight (parentheses : Bool) (height : ℕ) : ℕ := if parentheses then max 3 (height + 1) else height

def LiteralValue.height : LiteralValue → ℕ
  | integer n => if n.toInt < 0 then 2 else 1
  | _ => 1

def Column.height (c : Column) : ℕ := if c.table = "" then 1 else if c.schema = "" then 3 else 5

mutual

/-- As many symbols as the parser has on its stack, at most, while it reads the expression. -/
def Expression.height : Expression → ℕ
  | .literalValue v => v.height
  | .bindParameter _ => 1
  | .column c => c.height
  | .null _ e => max (autoHeight e.parentheses e.height) 2
  | .unary _ e => 1 + autoHeight e.parentheses e.height
  | .binary _ l r => max (autoHeight l.parentheses l.height) (2 + autoHeight r.parentheses r.height)
  | .is _ l r => max (autoHeight l.parentheses l.height) (3 + autoHeight r.parentheses r.height)
  | .like _ _ l r => max (max 3 (autoHeight l.parentheses l.height)) (2 + autoHeight r.parentheses r.height)
  | .likeEscape _ _ l r e =>
    max (max (autoHeight l.parentheses l.height) (2 + autoHeight r.parentheses r.height))
      (4 + autoHeight e.parentheses e.height)
  | .function _ _ _ arguments => 5 + heightList arguments
  | .expressions es => 5 + heightList es
  | .collate e _ => max (autoHeight e.parentheses e.height) 3
  | .between _ e low high =>
    max (max (autoHeight e.parentheses e.height) (2 + autoHeight low.parentheses low.height))
      (4 + autoHeight high.parentheses high.height)
  | .in _ e values => max e.height (5 + heightList values)

/-- The items of a list are read one after the other. -/
def heightList : List Expression → ℕ
  | [] => 0
  | e :: es => max e.height (heightList es)

end

/-- The height of an operand. -/
def Expression.operandHeight (e : Expression) : ℕ := autoHeight e.parentheses e.height

/-- The parser has room for the expression, and numbers for its parameters. -/
structure Fits (e : Expression) : Prop where
  height : e.height ≤ room
  numbered : Numbered e.tree.variables

/-! ### Printable expressions -/

/-- A text that a C string carries. -/
def LiteralValue.Printable : LiteralValue → Prop
  | string s => NulFree s
  | _ => True

def BindParameter.Printable : BindParameter → Prop
  | questionSign _ => True
  | colonSign name | dollarSign name | atSign name => name.toList ≠ [] ∧ name.toList.all isIdChar = true

/-- Every part of it is a name, and no keyword. -/
structure Column.Printable (c : Column) : Prop where
  name : isName c.name.toList = true
  wildcard : c.wildcard = false
  table : c.table ≠ "" → isName c.table.toList = true
  schema : c.table ≠ "" → c.schema ≠ "" → isName c.schema.toList = true

/-- Names are names, the texts are free of U+0000, no function has too many arguments, and
no IN loses what it tests to an operator that binds as tightly. -/
inductive Printable : Expression → Prop
  | literalValue {v : LiteralValue} (h : v.Printable) : Printable (.literalValue v)
  | bindParameter {p : BindParameter} (h : p.Printable) : Printable (.bindParameter p)
  | column {c : Column} (h : c.Printable) : Printable (.column c)
  | null {isNot : Bool} {e : Expression} (he : Printable e) : Printable (.null isNot e)
  | unary {o : UnaryOperator} {e : Expression} (he : Printable e) (level : o.level ≤ e.operandLevel)
      (sign : o = .negative → ∀ n : Int64, e = .literalValue (.integer n) → 0 ≤ n.toInt) : Printable (.unary o e)
  | binary {o : BinaryOperator} {l r : Expression} (hl : Printable l) (hr : Printable r)
      (level : o.op.precedence < r.operandLevel) : Printable (.binary o l r)
  | is {isNot : Bool} {l r : Expression} (hl : Printable l) (hr : Printable r) (level : 4 < r.operandLevel) :
      Printable (.is isNot l r)
  | like {isNot : Bool} {o : LikeOperator} {l r : Expression} (hl : Printable l) (hr : Printable r)
      (level : 4 < r.operandLevel) : Printable (.like isNot o l r)
  | likeEscape {isNot : Bool} {o : LikeOperator} {l r e : Expression} (hl : Printable l) (hr : Printable r)
      (he : Printable e) (level : 4 < r.operandLevel) (escape : 4 < e.operandLevel) :
      Printable (.likeEscape isNot o l r e)
  | function {name : String} {distinct useWildcard : Bool} {arguments : List Expression}
      (hname : isName name.toList = true) (hlength : arguments.length ≤ Sqlite.maxFunctionArg)
      (h : ∀ e ∈ arguments, Printable e) : Printable (.function name distinct useWildcard arguments)
  | functionAll {name : String} {useWildcard : Bool} {arguments : List Expression} (hname : isName name.toList = true)
      (h : isAll arguments = true) : Printable (.function name false useWildcard arguments)
  | expressions {es : List Expression} (hne : es ≠ []) (h : ∀ e ∈ es, Printable e) : Printable (.expressions es)
  | collate {e : Expression} {collation : String} (he : Printable e) (hname : isName collation.toList = true) :
      Printable (.collate e collation)
  | between {isNot : Bool} {e low high : Expression} (he : Printable e) (hlow : Printable low) (hhigh : Printable high)
      (lowLevel : 3 ≤ low.operandLevel) (highLevel : 4 < high.operandLevel) : Printable (.between isNot e low high)
  | in {isNot : Bool} {e : Expression} {values : List Expression} (he : Printable e)
      (ends : e.ends (some (if isNot then .not else .in)) = true) (h : ∀ v ∈ values, Printable v) :
      Printable (.in isNot e values)

/-! ### Words and operators -/

theorem lexes_description (o : BinaryOperator) : Lexes o.description [.op o.op] := by
  cases o
  case and => exact Sqlite.lexes_keyword (by decide) rfl
  case or => exact Sqlite.lexes_keyword (by decide) rfl
  all_goals
    refine Sqlite.lexes_of_getToken rfl (by decide) fun rest hrest => ?_
    rcases hrest.cases with rfl | ⟨s, rfl | rfl | rfl⟩ <;> exact ⟨rfl, rfl⟩

theorem lexes_likeDescription (o : LikeOperator) : Lexes o.description [.like o.op] := by
  have hword : wordToken o.description = .like o.op := by cases o <;> rfl
  exact Sqlite.lexes_keyword (by cases o <;> decide) hword

theorem lexes_not : Lexes "NOT".toList [.not] := Sqlite.lexes_keyword (by decide) rfl

theorem lexes_describleNot (isNot : Bool) {word : List Char} {t : Token} {ts : List Token} (h : Lexes word (t :: ts)) :
    Lexes (describleNot isNot word) (notTokens isNot t ++ ts) := by
  cases isNot with
  | false => exact h
  | true => exact lexes_not.blank h

/-! ### Constants, parameters and columns -/

theorem lexes_digits (n : ℕ) : Lexes (Nat.toDigits 10 n) [.term (.integer (Nat.toDigits 10 n))] :=
  Sqlite.lexes_digits Nat.toDigits_ne_nil (Decimal.toDigits_isDigit n)

theorem head_toDigits_ne (n : ℕ) : (Nat.toDigits 10 n).head? ≠ some '-' := by
  obtain ⟨c, t, ht, hc⟩ := Decimal.toDigits_cons n
  rw [ht]
  rintro heq
  cases heq
  exact absurd hc (by decide)

theorem LiteralValue.Printable.lexes {v : LiteralValue} (h : v.Printable) : Lexes v.describle v.tokens := by
  cases v with
  | string s => exact Sqlite.lexes_string h
  | null => exact Sqlite.lexes_keyword (by decide) rfl
  | integer n =>
    have hdigits := lexes_digits n.toInt.natAbs
    show Lexes (Decimal.print n.toInt) (if n.toInt < 0 then _ else _)
    rw [Decimal.print]
    split_ifs
    · exact hdigits.minus (head_toDigits_ne _)
    · exact hdigits
  | unsignedInteger n => exact lexes_digits n.toNat
  | bool b => cases b <;> exact Sqlite.lexes_keyword (by decide) rfl
  | currentTime => exact Sqlite.lexes_keyword (by decide) rfl
  | currentDate => exact Sqlite.lexes_keyword (by decide) rfl
  | currentTimestamp => exact Sqlite.lexes_keyword (by decide) rfl

theorem BindParameter.Printable.lexes {p : BindParameter} (h : p.Printable) :
    Lexes p.describle [.variable p.describle] := by
  cases p with
  | questionSign n =>
    refine Sqlite.lexes_question fun c hc => ?_
    split_ifs at hc with hpos
    · have hnonneg : ¬n.toInt < 0 := by
        have hlt : (0 : Int32).toInt < n.toInt := Int32.lt_iff_toInt_lt.mp hpos
        exact not_lt.mpr (le_of_lt hlt)
      rw [Decimal.print, if_neg hnonneg] at hc
      exact Decimal.toDigits_isDigit _ c hc
    · cases hc
  | colonSign name => exact Sqlite.lexes_variable (.inl rfl) h.1 h.2
  | dollarSign name => exact Sqlite.lexes_variable (.inr (.inl rfl)) h.1 h.2
  | atSign name => exact Sqlite.lexes_variable (.inr (.inr rfl)) h.1 h.2

theorem Column.Printable.lexes {c : Column} (h : c.Printable) : Lexes c.describle c.tokens := by
  have hname := Sqlite.lexes_name h.name
  have hhead := Sqlite.head_of_isName h.name
  by_cases htable : c.table = ""
  · rw [describle, tokens, h.wildcard, if_pos htable, if_pos htable]
    exact hname
  have hdot := hname.dot (h.table htable) hhead
  by_cases hschema : c.schema = ""
  · simpa [describle, tokens, h.wildcard, htable, hschema] using hdot
  · have hhead' : ∀ d ∈ (c.table.toList ++ '.' :: c.name.toList).head?, d.isDigit = false := by
      obtain ⟨d, s, heq⟩ := List.exists_cons_of_ne_nil (show c.table.toList ≠ [] by simpa using htable)
      have htail := Sqlite.head_of_isName (h.table htable)
      rw [heq] at htail ⊢
      exact htail
    have hdots := hdot.dot (h.schema htable hschema) hhead'
    simpa [describle, tokens, h.wildcard, htable, hschema] using hdots

/-! ### Expressions -/

theorem lexes_autoParentheses (p : Bool) {cs : List Char} {ts : List Token} (h : Lexes cs ts) :
    Lexes (autoParentheses p cs) (autoTokens p ts) := by
  cases p with
  | false => exact h
  | true => exact h.parentheses

theorem tokensList_eq_map (es : List Expression) : tokensList es = es.map Expression.tokens := by
  induction es with
  | nil => rfl
  | cons e es ih => rw [tokensList, ih, List.map_cons]

theorem trees_eq_map (es : List Expression) : trees es = es.map Expression.tree := by
  induction es with
  | nil => rfl
  | cons e es ih => rw [trees, ih, List.map_cons]

/-- A list that is not empty. -/
theorem lexes_describleList {e : Expression} {es : List Expression}
    (h : ∀ e' ∈ e :: es, Lexes e'.describle e'.tokens) :
    Lexes (describleList (e :: es)) (commas (tokensList (e :: es))) := by
  induction es generalizing e with
  | nil => simpa [describleList, tokensList, commas] using h e List.mem_cons_self
  | cons e' es ih =>
    have hrest := ih fun e'' he'' => h e'' (List.mem_cons_of_mem e he'')
    have hcomma := (h e List.mem_cons_self).comma hrest
    simpa [describleList, tokensList, commas] using hcomma

theorem eq_of_isAll {arguments : List Expression} (h : isAll arguments = true) :
    ∃ c : Column, arguments = [.column c] ∧ c.wildcard = true ∧ c.table = "" := by
  unfold isAll at h
  split at h
  · rename_i c
    rw [Bool.and_eq_true, decide_eq_true_eq] at h
    exact ⟨c, rfl, h⟩
  · cases h

theorem head_ne_minus_of_isName {name : List Char} (h : isName name = true) (rest : List Char) :
    (name ++ rest).head? ≠ some '-' := by
  have hword := Sqlite.isWord_of_isName h
  cases name with
  | nil => cases hword
  | cons c s =>
    rintro heq
    cases heq
    rw [Sqlite.isWord, Bool.and_eq_true] at hword
    exact absurd hword.1 (by decide)

theorem Column.Printable.head_ne_minus {c : Column} (h : c.Printable) : c.describle.head? ≠ some '-' := by
  by_cases htable : c.table = ""
  · simpa [describle, h.wildcard, htable] using head_ne_minus_of_isName h.name []
  by_cases hschema : c.schema = ""
  · simpa [describle, h.wildcard, htable, hschema] using head_ne_minus_of_isName (h.table htable) ('.' :: c.name.toList)
  · simpa [describle, h.wildcard, htable, hschema] using
      head_ne_minus_of_isName (h.schema htable hschema) ('.' :: (c.table.toList ++ '.' :: c.name.toList))

theorem LiteralValue.head_ne_minus {v : LiteralValue} (h : ∀ n, v = .integer n → 0 ≤ n.toInt) :
    v.describle.head? ≠ some '-' := by
  cases v with
  | integer n =>
    show (Decimal.print n.toInt).head? ≠ some '-'
    rw [Decimal.print, if_neg (not_lt.mpr (h n rfl))]
    exact head_toDigits_ne _
  | unsignedInteger n => exact head_toDigits_ne _
  | bool b => cases b <;> decide
  | string s => exact fun heq => absurd (Option.some.inj heq) (by decide)
  | null => decide
  | currentTime => decide
  | currentDate => decide
  | currentTimestamp => decide

/-- What a minus sign may stand in front of does not begin with one. -/
theorem Printable.head_ne_minus {e : Expression} (h : Printable e) (level : 12 ≤ e.operandLevel)
    (sign : ∀ n : Int64, e = .literalValue (.integer n) → 0 ≤ n.toInt) :
    (autoParentheses e.parentheses e.describle).head? ≠ some '-' := by
  cases h with
  | @literalValue v h => exact LiteralValue.head_ne_minus fun n hn => sign n (hn ▸ rfl)
  | @bindParameter p h => cases p <;> exact fun heq => absurd (Option.some.inj heq) (by decide)
  | column h => exact h.head_ne_minus
  | function hname _ _ =>
    have hhead := head_ne_minus_of_isName hname
    intro heq
    exact hhead _ ((congrArg List.head? (List.append_assoc _ _ _)).symm.trans heq)
  | functionAll hname _ =>
    have hhead := head_ne_minus_of_isName hname
    intro heq
    exact hhead _ ((congrArg List.head? (List.append_assoc _ _ _)).symm.trans heq)
  | @«in» isNot e values he ends h =>
    have hle : (Expression.in isNot e values).operandLevel ≤ notPrecedence isNot := Nat.min_le_left _ _
    cases isNot with
    | false => exact absurd (level.trans hle) (by decide)
    | true => exact absurd (level.trans hle) (by decide)
  | _ => exact fun heq => absurd (Option.some.inj heq) (by decide)

theorem Printable.lexes {e : Expression} (h : Printable e) : Lexes e.describle e.tokens := by
  induction h with
  | literalValue h => exact h.lexes
  | bindParameter h => exact h.lexes
  | column h => exact h.lexes
  | @null isNot e _ ih =>
    have hop : Lexes ((if isNot then "NOT".toList else "IS".toList) ++ "NULL".toList)
        [if isNot then .notNull else .isNull] := by
      cases isNot <;> exact Sqlite.lexes_keyword (by decide) rfl
    exact (lexes_autoParentheses _ ih).blank hop
  | @unary o e he level sign ih =>
    have hoperand := lexes_autoParentheses e.parentheses ih
    cases o with
    | negative => exact hoperand.minus (he.head_ne_minus level (sign rfl))
    | positive => exact hoperand.plus
    | tilde => exact hoperand.bitNot
    | not => exact lexes_not.blank hoperand
  | @binary o l r _ _ _ ihl ihr =>
    exact (lexes_autoParentheses _ ihl).blank ((lexes_description o).blank (lexes_autoParentheses _ ihr))
  | @is isNot l r _ _ _ ihl ihr =>
    have hop : Lexes "IS".toList [.is] := Sqlite.lexes_keyword (by decide) rfl
    have hr := lexes_autoParentheses r.parentheses ihr
    cases isNot with
    | false => exact (lexes_autoParentheses _ ihl).blank (hop.blank hr)
    | true => exact (lexes_autoParentheses _ ihl).blank (hop.blank (lexes_not.blank hr))
  | @like isNot o l r _ _ _ ihl ihr =>
    have hop := lexes_describleNot isNot (lexes_likeDescription o)
    have h := (lexes_autoParentheses l.parentheses ihl).blank (hop.blank (lexes_autoParentheses r.parentheses ihr))
    rw [List.append_nil, ← List.append_assoc] at h
    exact h
  | @likeEscape isNot o l r e _ _ _ _ _ ihl ihr ihe =>
    have hop := lexes_describleNot isNot (lexes_likeDescription o)
    have hescape : Lexes "ESCAPE".toList [.escape] := Sqlite.lexes_keyword (by decide) rfl
    have h := (lexes_autoParentheses l.parentheses ihl).blank (hop.blank ((lexes_autoParentheses r.parentheses ihr).blank
      (hescape.blank (lexes_autoParentheses e.parentheses ihe))))
    rw [List.append_nil, ← List.append_assoc, ← List.append_assoc] at h
    exact h
  | @function name distinct useWildcard arguments hname _ _ ih =>
    have hword := Sqlite.isWord_of_isName hname
    have htoken := Sqlite.wordToken_of_isName hname
    cases arguments with
    | nil =>
      cases useWildcard with
      | false =>
        have h := Lexes.callNone hword
        rw [htoken] at h
        exact h
      | true =>
        have hstar : Lexes ['*'] [.op .star] := lexes_description .multiply
        have h := hstar.call hword
        rw [htoken] at h
        exact h
    | cons e es =>
      have hlist := lexes_describleList ih
      cases distinct with
      | false =>
        have h := hlist.call hword
        rw [htoken] at h
        exact h
      | true =>
        have hdistinct : Lexes "DISTINCT".toList [.distinct] := Sqlite.lexes_keyword (by decide) rfl
        have h := (hdistinct.blank hlist).call hword
        rw [htoken] at h
        exact h
  | @functionAll name useWildcard arguments hname hall =>
    obtain ⟨c, rfl, hwildcard, htable⟩ := eq_of_isAll hall
    have hstar : Lexes c.describle c.tokens := by
      rw [Column.describle, Column.tokens, hwildcard, if_pos htable, if_pos htable]
      exact lexes_description .multiply
    have h := hstar.call (Sqlite.isWord_of_isName hname)
    have htokens : commas (tokensList [.column c]) = c.tokens := List.append_nil _
    rw [Sqlite.wordToken_of_isName hname, ← htokens] at h
    exact h
  | @expressions es hne _ ih =>
    obtain ⟨e, es, rfl⟩ := List.exists_cons_of_ne_nil hne
    exact (lexes_describleList ih).parentheses
  | @collate e collation _ hname ih =>
    have hop : Lexes "COLLATE".toList [.collate] := Sqlite.lexes_keyword (by decide) rfl
    exact (lexes_autoParentheses _ ih).blank (hop.blank (Sqlite.lexes_name hname))
  | @between isNot e low high _ _ _ _ _ ihe ihlow ihhigh =>
    have hbetween : Lexes "BETWEEN".toList [.between] := Sqlite.lexes_keyword (by decide) rfl
    have hop := lexes_describleNot isNot hbetween
    have hand : Lexes "AND".toList [.op .and] := Sqlite.lexes_keyword (by decide) rfl
    have h := (lexes_autoParentheses e.parentheses ihe).blank (hop.blank
      ((lexes_autoParentheses low.parentheses ihlow).blank (hand.blank (lexes_autoParentheses high.parentheses ihhigh))))
    rw [List.append_nil, ← List.append_assoc, ← List.append_assoc] at h
    exact h
  | @«in» isNot e values _ _ _ ihe ihvalues =>
    have hin : Sqlite.isWord "IN".toList = true := by decide
    have hcall : Lexes ("IN".toList ++ '(' :: describleList values ++ [')'])
        (.in :: (.lp :: commas (tokensList values) ++ [.rp])) := by
      cases values with
      | nil => exact Lexes.callNone hin
      | cons v values => exact (lexes_describleList ihvalues).call hin
    have h := ihe.blank (lexes_describleNot isNot hcall)
    rw [← List.append_assoc, ← List.append_assoc] at h
    exact h

/-! ### Reading -/

theorem LiteralValue.height_pos (v : LiteralValue) : 0 < v.height := by
  fun_cases LiteralValue.height v <;> decide

theorem Column.height_pos (c : Column) : 0 < c.height := by
  rw [height]
  split_ifs <;> decide

theorem Expression.height_pos (e : Expression) : 0 < e.height := by
  fun_cases Expression.height e with
  | case1 v => exact v.height_pos
  | case3 c => exact c.height_pos
  | _ => omega

theorem Expression.operandHeight_pos (e : Expression) : 0 < e.operandHeight := by
  have hpos := e.height_pos
  rw [operandHeight, autoHeight]
  split_ifs <;> omega

theorem one_le_autoLevel (p : Bool) {n : ℕ} (h : 1 ≤ n) : 1 ≤ autoLevel p n := by
  cases p with
  | false => exact h
  | true => exact Nat.le_add_left 1 11

theorem one_le_level (e : Expression) : 1 ≤ e.level := by
  have hnot : ∀ isNot, 1 ≤ notPrecedence isNot := by decide
  have hop : ∀ o : BinaryOperator, 1 ≤ o.op.precedence := fun o => by cases o <;> decide
  have hmin : ∀ {m n p}, 1 ≤ m → 1 ≤ n → 1 ≤ min m (autoLevel p n) := fun hm hn =>
    Nat.le_min.mpr ⟨hm, one_le_autoLevel _ hn⟩
  fun_induction Expression.level e
  all_goals first
    | decide
    | exact hmin (by first | exact hop _ | exact hnot _ | decide) (by assumption)
    | exact Nat.le_min.mpr ⟨hnot _, by assumption⟩

/-- Before what binds nothing, every expression is whole. -/
theorem Expression.ends_of_binds {next : Option Token} (h : ∀ n, binds next n = false) (hnot : next ≠ some .not)
    (hescape : next ≠ some .escape) (e : Expression) : e.ends next = true := by
  unfold Expression.ends
  split <;> simp [h, hnot, hescape]

theorem Expression.ends_of_parentheses {e : Expression} (h : e.parentheses = false) (next : Option Token) :
    e.ends next = true := by
  cases e <;> first | rfl | cases h

/-- Read as a whole, wherever its operators are not in the way. -/
def ReadsTree (e : Expression) : Prop :=
  ∀ stack rest, floor stack ≤ e.level → Sqlite.height stack + e.height ≤ room → Sqlite.EndsName rest →
    e.ends rest.head? = true → Reads stack e.tokens rest e.tree

theorem ReadsTree.operand {e : Expression} (h : ReadsTree e) {stack : List Sym} {rest : List Token}
    (hstack : floor stack ≤ e.operandLevel) (hroom : Sqlite.height stack + e.operandHeight ≤ room)
    (hrest : Sqlite.EndsName rest) : Reads stack (autoTokens e.parentheses e.tokens) rest e.tree := by
  rw [Expression.operandLevel] at hstack
  rw [Expression.operandHeight] at hroom
  cases hp : e.parentheses with
  | false =>
    rw [hp] at hstack hroom
    exact h stack rest hstack hroom hrest (Expression.ends_of_parentheses hp _)
  | true =>
    rw [hp] at hstack hroom
    have hbinds : ∀ n, binds (some .rp) n = false := fun n => decide_eq_false (Nat.not_lt_zero n)
    have hends : e.ends (some .rp) = true := Expression.ends_of_binds hbinds (by decide) (by decide) e
    have hthree : Sqlite.height stack + max 3 (e.height + 1) ≤ room := hroom
    have hlp := Sqlite.height_lp hstack
    exact Sqlite.read_parentheses hstack (by omega)
      (h _ _ (one_le_level e) (by omega) ⟨by simp, by simp⟩ hends)

theorem ReadsTree.item {e : Expression} (h : ReadsTree e) : ReadsItem e.height e.tokens e.tree := by
  intro stack rest hstack hroom hrest
  refine h stack rest (hstack.trans (one_le_level e)) hroom ?_ (Expression.ends_of_binds ?_ ?_ ?_ e)
  all_goals rcases hrest with heq | heq <;> simp [Sqlite.EndsName, heq, binds, Token.precedence]

theorem LiteralValue.reads (v : LiteralValue) {stack : List Sym} {rest : List Token} (hstack : floor stack ≤ 12)
    (hroom : Sqlite.height stack + v.height ≤ room) (hrest : Sqlite.EndsName rest) :
    Reads stack v.tokens rest v.tree := by
  cases v with
  | integer n =>
    show Reads stack (if n.toInt < 0 then _ else _) rest (if n.toInt < 0 then _ else _)
    rw [height] at hroom
    split_ifs at hroom ⊢
    · have hsign : floor (.token (.op .minus) :: stack) = 12 :=
        Sqlite.floor_sign (Sqlite.ne_expr_of_floor hstack) (.inr rfl)
      have hone : Sqlite.height stack + 1 + 1 ≤ room := hroom
      exact Sqlite.read_sign hstack (by omega) (.inr ⟨rfl, rfl⟩)
        (Sqlite.read_term hsign.le (Sqlite.height_token_add_le (by simp) hone) _)
    · exact Sqlite.read_term hstack hroom _
  | bool b => exact Sqlite.read_id hstack hroom hrest _
  | _ => exact Sqlite.read_term hstack hroom _

theorem Column.Printable.reads {c : Column} (h : c.Printable) {stack : List Sym} {rest : List Token}
    (hstack : floor stack ≤ 12) (hroom : Sqlite.height stack + c.height ≤ room) (hrest : Sqlite.EndsName rest) :
    Reads stack c.tokens rest c.tree := by
  simp only [tokens, tree, h.wildcard, Bool.false_eq_true, if_false]
  rw [height] at hroom
  split_ifs at hroom ⊢
  · exact Sqlite.read_id hstack hroom hrest _
  · exact Sqlite.read_column hstack hroom hrest _ _
  · exact Sqlite.read_schemaColumn hstack hroom _ _ _

/-- The items of a list, with what they are read as. -/
def readItems (es : List Expression) : List (List Token × Tree) := es.map fun e => (e.tokens, e.tree)

theorem readItems_fst (es : List Expression) : (readItems es).map Prod.fst = tokensList es := by
  rw [tokensList_eq_map, readItems, List.map_map]
  rfl

theorem readItems_snd (es : List Expression) : (readItems es).map Prod.snd = trees es := by
  rw [trees_eq_map, readItems, List.map_map]
  rfl

theorem height_le_heightList {es : List Expression} {e : Expression} (h : e ∈ es) : e.height ≤ heightList es := by
  induction es with
  | nil => cases h
  | cons e' es ih =>
    rcases List.mem_cons.mp h with rfl | h
    · exact Nat.le_max_left _ _
    · exact (ih h).trans (Nat.le_max_right _ _)

theorem reads_items {es : List Expression} (h : ∀ e ∈ es, ReadsTree e) :
    ∀ i ∈ readItems es, ReadsItem (heightList es) i.1 i.2 := by
  intro i hi
  obtain ⟨e, he, rfl⟩ := List.mem_map.mp hi
  have hle := height_le_heightList he
  exact fun stack rest hstack hroom hrest => (h e he).item stack rest hstack (by omega) hrest

theorem isAll_of_printable {es : List Expression} (h : ∀ e ∈ es, Printable e) : isAll es = false := by
  by_contra hnot
  obtain ⟨c, rfl, hwildcard, _⟩ := eq_of_isAll (Bool.not_eq_false _ ▸ hnot)
  cases h _ List.mem_cons_self with
  | column hc => cases hwildcard.symm.trans hc.wildcard

theorem Printable.reads {e : Expression} (h : Printable e) : ReadsTree e := by
  induction h with
  | @literalValue v h => exact fun stack rest hstack hroom hrest _ => v.reads hstack hroom hrest
  | @bindParameter p h => exact fun stack rest hstack hroom _ _ => Sqlite.read_variable hstack hroom _
  | column h => exact fun stack rest hstack hroom hrest _ => h.reads hstack hroom hrest
  | @null isNot e _ ih =>
    intro stack rest hstack hroom hrest _
    obtain ⟨hfour, hoperand⟩ := Nat.le_min.mp hstack
    have hroom : Sqlite.height stack + max e.operandHeight 2 ≤ room := hroom
    have hleft : Sqlite.height stack + e.operandHeight ≤ room := by omega
    have hop : Sqlite.height stack + 2 ≤ room := by omega
    cases isNot with
    | false => exact Sqlite.read_isNull hfour hop (ih.operand hoperand hleft ⟨by simp, by simp⟩)
    | true => exact Sqlite.read_notNull hfour hop (ih.operand hoperand hleft ⟨by simp, by simp⟩)
  | @unary o e _ level _ ih =>
    intro stack rest hstack hroom hrest hends
    have hroom : Sqlite.height stack + (1 + e.operandHeight) ≤ room := hroom
    have hright : Sqlite.height stack + 1 + e.operandHeight ≤ room := by omega
    have hop : Sqlite.height stack < room := by
      have hpos := e.operandHeight_pos
      omega
    cases o with
    | negative =>
      have hsign := Sqlite.floor_sign (Sqlite.ne_expr_of_floor hstack) (.inr rfl)
      exact Sqlite.read_sign hstack hop (.inr ⟨rfl, rfl⟩)
        (ih.operand (hsign.trans_le level) (Sqlite.height_token_add_le (by simp) hright) hrest)
    | positive =>
      have hsign := Sqlite.floor_sign (Sqlite.ne_expr_of_floor hstack) (.inl rfl)
      exact Sqlite.read_sign hstack hop (.inl ⟨rfl, rfl⟩)
        (ih.operand (hsign.trans_le level) (Sqlite.height_token_add_le (by simp) hright) hrest)
    | tilde =>
      exact Sqlite.read_bitNot hstack hop (ih.operand level (Sqlite.height_token_add_le (by simp) hright) hrest)
    | not =>
      have hnext : binds rest.head? 3 = false ∧ rest.head? ≠ some .not := by
        simpa [Expression.ends] using hends
      exact Sqlite.read_not hstack hop hnext (ih.operand ((Sqlite.floor_not hstack).trans_le level)
        (Sqlite.height_token_add_le (by simp) hright) hrest)
  | @binary o l r _ _ level ihl ihr =>
    intro stack rest hstack hroom hrest hends
    obtain ⟨hop, hoperand⟩ := Nat.le_min.mp hstack
    have hroom : Sqlite.height stack + max l.operandHeight (2 + r.operandHeight) ≤ room := hroom
    have hright : Sqlite.height stack + 1 + 1 + r.operandHeight ≤ room := by omega
    have hnext : binds rest.head? o.op.precedence = false := by simpa [Expression.ends] using hends
    exact Sqlite.read_binary hop (by omega) (ihl.operand hoperand (by omega) ⟨by simp, by simp⟩)
      (ihr.operand ((Sqlite.floor_op hop l.tree).trans_le level) (Sqlite.height_token_add_le (by simp) hright) hrest)
      hnext
  | @is isNot l r _ _ level ihl ihr =>
    intro stack rest hstack hroom hrest hends
    obtain ⟨hop, hoperand⟩ := Nat.le_min.mp hstack
    have hroom : Sqlite.height stack + max l.operandHeight (3 + r.operandHeight) ≤ room := hroom
    have hnext : binds rest.head? 4 = false := by simpa [Expression.ends] using hends
    cases isNot with
    | false =>
      have hright : Sqlite.height stack + 1 + 1 + r.operandHeight ≤ room := by omega
      exact Sqlite.read_is hop (by omega) (ihl.operand hoperand (by omega) ⟨by simp, by simp⟩)
        (ihr.operand level (Sqlite.height_token_add_le (by simp) hright) hrest) hnext
    | true =>
      have hright : Sqlite.height stack + 1 + 1 + (1 + r.operandHeight) ≤ room := by omega
      have hnot : Sqlite.height (.token .is :: .expr l.tree :: stack) + (1 + r.operandHeight) ≤ room :=
        Sqlite.height_token_add_le (by simp) hright
      exact Sqlite.read_isNot hop (by omega) (ihl.operand hoperand (by omega) ⟨by simp, by simp⟩)
        (ihr.operand level (Sqlite.height_token_add_le (by simp) (by omega)) hrest) hnext
  | @like isNot o l r _ _ level ihl ihr =>
    intro stack rest hstack hroom hrest hends
    obtain ⟨hop, hoperand⟩ := Nat.le_min.mp hstack
    have hroom : Sqlite.height stack + max (max 3 l.operandHeight) (2 + r.operandHeight) ≤ room := hroom
    have hright : Sqlite.height stack + 1 + 1 + r.operandHeight ≤ room := by omega
    have hnext : binds rest.head? 4 = false ∧ rest.head? ≠ some .escape := by simpa [Expression.ends] using hends
    have hname := Sqlite.endsName_notTokens isNot (t := .like o.op) (by simp) (by simp)
    exact Sqlite.read_like hop (by omega) (ihl.operand hoperand (by omega) (hname _))
      (ihr.operand level hright hrest) hnext
  | @likeEscape isNot o l r e _ _ _ level escape ihl ihr ihe =>
    intro stack rest hstack hroom hrest hends
    obtain ⟨hop, hoperand⟩ := Nat.le_min.mp hstack
    have hroom : Sqlite.height stack + max (max l.operandHeight (2 + r.operandHeight)) (4 + e.operandHeight) ≤ room :=
      hroom
    have hright : Sqlite.height stack + 1 + 1 + r.operandHeight ≤ room := by omega
    have hescape : Sqlite.height stack + 1 + 1 + 1 + 1 + e.operandHeight ≤ room := by omega
    have hnext : binds rest.head? 4 = false := by simpa [Expression.ends] using hends
    have hname := Sqlite.endsName_notTokens isNot (t := .like o.op) (by simp) (by simp)
    exact Sqlite.read_likeEscape hop (by omega) (ihl.operand hoperand (by omega) (hname _))
      (ihr.operand level hright ⟨by simp, by simp⟩)
      (ihe.operand escape (Sqlite.height_token_add_le (by simp) hescape) hrest) hnext
  | @function name distinct useWildcard arguments _ _ h ih =>
    intro stack rest hstack hroom hrest _
    have hroom : Sqlite.height stack + (5 + heightList arguments) ≤ room := hroom
    have hplaces : Sqlite.height stack + 5 + heightList arguments ≤ room := by omega
    have hall := isAll_of_printable h
    have hitems := reads_items ih
    cases arguments with
    | nil =>
      cases useWildcard with
      | false =>
        cases distinct <;> exact Sqlite.read_call hstack _ hplaces hitems
      | true =>
        cases distinct <;> exact Sqlite.read_callAll hstack (by omega) _
    | cons e es =>
      have htree : (Expression.function name distinct useWildcard (e :: es)).tree =
          .call name.toList distinct (trees (e :: es)) := by
        simp [Expression.tree, hall]
      rw [htree, ← readItems_snd]
      cases distinct with
      | false =>
        show Reads stack (.id name.toList :: .lp :: commas (tokensList (e :: es)) ++ [.rp]) rest _
        rw [← readItems_fst]
        exact Sqlite.read_call hstack _ hplaces hitems
      | true =>
        show Reads stack (.id name.toList :: .lp :: .distinct :: commas (tokensList (e :: es)) ++ [.rp]) rest _
        rw [← readItems_fst]
        exact Sqlite.read_callDistinct hstack _ hplaces hitems
  | @functionAll name useWildcard arguments _ hall =>
    intro stack rest hstack hroom hrest _
    have hroom : Sqlite.height stack + (5 + heightList arguments) ≤ room := hroom
    have hplaces : Sqlite.height stack + 4 ≤ room := by omega
    obtain ⟨c, rfl, hwildcard, htable⟩ := eq_of_isAll hall
    have htree : (Expression.function name false useWildcard [.column c]).tree = .callAll name.toList := by
      simp [Expression.tree, hall]
    have htokens : c.tokens = [.op .star] := by simp [Column.tokens, hwildcard, htable]
    show Reads stack (.id name.toList :: .lp :: (c.tokens ++ []) ++ [.rp]) rest _
    rw [htree, htokens]
    exact Sqlite.read_callAll hstack hplaces _
  | @expressions es hne _ ih =>
    intro stack rest hstack hroom hrest hends
    have hroom : Sqlite.height stack + (5 + heightList es) ≤ room := hroom
    have hplaces : Sqlite.height stack + 5 + heightList es ≤ room := by omega
    have hitems := reads_items ih
    match es, hne, ih, hplaces, hitems with
    | [e], _, ih, hplaces, _ =>
      have hlp := Sqlite.height_lp hstack
      have hone : e.height ≤ heightList [e] := height_le_heightList List.mem_cons_self
      have he := (ih e List.mem_cons_self).item (.token .lp :: stack) (.rp :: rest) (Nat.le_refl 1) (by omega) (.inr rfl)
      show Reads stack (.lp :: (e.tokens ++ []) ++ [.rp]) rest e.tree
      rw [List.append_nil]
      exact Sqlite.read_parentheses hstack (by omega) he
    | e :: e' :: es, _, _, hplaces, hitems =>
      show Reads stack (.lp :: commas (tokensList (e :: e' :: es)) ++ [.rp]) rest (.vector (trees (e :: e' :: es)))
      rw [← readItems_fst, ← readItems_snd]
      exact Sqlite.read_vector hstack hplaces hitems
  | @collate e collation _ _ ih =>
    intro stack rest hstack hroom hrest _
    obtain ⟨hop, hoperand⟩ := Nat.le_min.mp hstack
    have hroom : Sqlite.height stack + max e.operandHeight 3 ≤ room := hroom
    exact Sqlite.read_collate hop (by omega) _ (ih.operand hoperand (by omega) ⟨by simp, by simp⟩)
  | @between isNot e low high _ _ _ lowLevel highLevel ihe ihlow ihhigh =>
    intro stack rest hstack hroom hrest hends
    obtain ⟨hop, hoperand⟩ := Nat.le_min.mp hstack
    have hroom : Sqlite.height stack + max (max e.operandHeight (2 + low.operandHeight)) (4 + high.operandHeight) ≤
        room := hroom
    have hlow : Sqlite.height stack + 1 + 1 + low.operandHeight ≤ room := by omega
    have hhigh : Sqlite.height stack + 1 + 1 + 1 + 1 + high.operandHeight ≤ room := by omega
    have hnext : binds rest.head? 4 = false := by simpa [Expression.ends] using hends
    have hname := Sqlite.endsName_notTokens isNot (t := .between) (by simp) (by simp)
    exact Sqlite.read_between hop (by omega) (ihe.operand hoperand (by omega) (hname _))
      (ihlow.operand lowLevel hlow ⟨by simp, by simp⟩)
      (ihhigh.operand highLevel (Sqlite.height_token_add_le (by simp) hhigh) hrest) hnext
  | @«in» isNot e values _ hends _ ihe ihvalues =>
    intro stack rest hstack hroom hrest _
    obtain ⟨hop, hsubject⟩ := Nat.le_min.mp hstack
    have hroom : Sqlite.height stack + max e.height (5 + heightList values) ≤ room := hroom
    have hitems := reads_items ihvalues
    have hwhole : e.ends (notTokens isNot .in ++ .lp :: (commas ((readItems values).map Prod.fst) ++
        .rp :: rest)).head? = true := by
      cases isNot <;> exact hends
    show Reads stack (e.tokens ++ notTokens isNot .in ++ .lp :: commas (tokensList values) ++ [.rp]) rest
      (.in isNot e.tree (trees values))
    rw [← readItems_fst, ← readItems_snd]
    exact Sqlite.read_in hop (by omega) hitems
      (ihe stack _ hsubject (by omega) (Sqlite.endsName_notTokens isNot (by simp) (by simp) _) hwhole)

/-! ### What the actions accept -/

theorem callsFit_leaf {t : Tree} (hnodes : t.nodes = [t]) (h : ∀ f distinct arguments, t ≠ .call f distinct arguments) :
    CallsFit t.nodes :=
  hnodes ▸ Sqlite.callsFit_singleton h

theorem LiteralValue.callsFit (v : LiteralValue) : CallsFit v.tree.nodes := by
  cases v with
  | integer n =>
    rw [tree]
    split_ifs
    · exact Sqlite.callsFit_append.mpr ⟨callsFit_leaf rfl (by simp), Sqlite.callsFit_singleton (by simp)⟩
    · exact callsFit_leaf rfl (by simp)
  | _ => exact callsFit_leaf rfl (by simp [tree])

theorem Column.callsFit (c : Column) : CallsFit c.tree.nodes := by
  rw [tree]
  split_ifs <;> exact callsFit_leaf rfl (by simp)

theorem callsFit_trees {es : List Expression} (h : ∀ e ∈ es, CallsFit e.tree.nodes) :
    CallsFit (Sqlite.nodesList (trees es)) := by
  rw [trees_eq_map, Sqlite.callsFit_nodesList]
  intro t ht
  obtain ⟨e, he, rfl⟩ := List.mem_map.mp ht
  exact h e he

theorem Printable.callsFit {e : Expression} (h : Printable e) : CallsFit e.tree.nodes := by
  have hnode : ∀ {ts : List Tree} {t : Tree}, CallsFit ts → (∀ f distinct arguments, t ≠ .call f distinct arguments) →
      CallsFit (ts ++ [t]) := fun hts ht => Sqlite.callsFit_append.mpr ⟨hts, Sqlite.callsFit_singleton ht⟩
  have happend : ∀ {ts us : List Tree}, CallsFit ts → CallsFit us → CallsFit (ts ++ us) := fun hts hus =>
    Sqlite.callsFit_append.mpr ⟨hts, hus⟩
  induction h with
  | @literalValue v _ => exact v.callsFit
  | bindParameter _ => exact callsFit_leaf rfl (by simp [Expression.tree])
  | @column c _ => exact c.callsFit
  | null _ ih => exact hnode ih (by simp)
  | unary _ _ _ ih => exact hnode ih (by simp)
  | binary _ _ _ ihl ihr => exact hnode (happend ihl ihr) (by simp)
  | «is» _ _ _ ihl ihr => exact hnode (happend ihl ihr) (by simp)
  | like _ _ _ ihl ihr => exact hnode (happend ihl ihr) (by simp)
  | likeEscape _ _ _ _ _ ihl ihr ihe => exact hnode (happend (happend ihl ihr) ihe) (by simp)
  | function _ hlength _ ih =>
    rw [Expression.tree]
    split_ifs
    · exact callsFit_leaf rfl (by simp)
    · refine happend (callsFit_trees ih) fun f distinct arguments hmem => ?_
      cases List.mem_singleton.mp hmem
      rw [trees_eq_map, List.length_map]
      exact hlength
  | functionAll _ h =>
    rw [Expression.tree, h, Bool.not_false, Bool.true_and, Bool.or_true, if_pos rfl]
    exact callsFit_leaf rfl (by simp)
  | @expressions es _ _ ih =>
    have htrees := callsFit_trees ih
    rw [Expression.tree]
    split
    · rename_i t heq
      rw [heq] at htrees
      exact (Sqlite.callsFit_append.mp htrees).1
    · exact hnode htrees (by simp)
  | collate _ _ ih => exact hnode ih (by simp)
  | between _ _ _ _ _ ihe ihlow ihhigh => exact hnode (happend (happend ihe ihlow) ihhigh) (by simp)
  | «in» _ _ _ ihe ihvalues => exact hnode (happend ihe (callsFit_trees ihvalues)) (by simp)

/-! ### Whole texts -/

/-- A text that is read as tokens, which are read as a tree that is accepted. -/
theorem runParser_of_lexes {cs : List Char} {ts : List Token} {t : Tree} (hl : Lexes cs ts) (hr : Reads [] ts [] t)
    (hcalls : CallsFit t.nodes) (hnumbered : Numbered t.variables) : Sqlite.runParser cs = some t := by
  have htext : cs.takeWhile (fun c => c ≠ '\x00') = cs := by
    rw [List.takeWhile_eq_self_iff]
    exact fun c hc => decide_eq_true fun hnul => hl.nulFree (hnul ▸ hc)
  rw [Sqlite.runParser, htext, hl.tokenize_eq, Sqlite.parse_of_reads hr]
  exact Option.filter_eq_some_iff.mpr ⟨rfl, Sqlite.accepted_of_numbered hcalls hnumbered⟩

/-- SQLite reads a printable expression as what it was written for. -/
theorem runParser_describle {e : Expression} (h : Printable e) (hfits : Fits e) :
    Sqlite.runParser e.describle = some e.tree := by
  have hends : e.ends none = true := Expression.ends_of_binds (fun _ => rfl) (by decide) (by decide) e
  have hroom : Sqlite.height [] + e.height ≤ room := (Nat.zero_add _).trans_le hfits.height
  exact runParser_of_lexes h.lexes (h.reads [] [] (one_le_level e) hroom ⟨by simp, by simp⟩ hends) h.callsFit
    hfits.numbered

/-- An operator that binds at least as tightly takes what an IN on its right tests. -/
theorem runParser_binary_in {o : BinaryOperator} {isNot : Bool} {l e : Expression} {values : List Expression}
    (hl : Printable l) (he : Printable e) (hvalues : ∀ v ∈ values, Printable v)
    (hfits : Fits (.binary o l (.in isNot e values))) (hlevel : o.op.precedence < e.level)
    (hends : e.ends (some (if isNot then .not else .in)) = true) (ho : notPrecedence isNot ≤ o.op.precedence) :
    Sqlite.runParser (Expression.binary o l (.in isNot e values)).describle =
      some (.in isNot (.binary o.op l.tree e.tree) (trees values)) := by
  have hin : Printable (.in isNot e values) := .in he hends hvalues
  have hlexes : Lexes (Expression.binary o l (.in isNot e values)).describle _ :=
    (lexes_autoParentheses _ hl.lexes).blank ((lexes_description o).blank hin.lexes)
  have hroom : max l.operandHeight (2 + max e.height (5 + heightList values)) ≤ room := hfits.height
  have hcalls : CallsFit (Tree.in isNot (.binary o.op l.tree e.tree) (trees values)).nodes := by
    refine Sqlite.callsFit_append.mpr ⟨Sqlite.callsFit_append.mpr ⟨?_, callsFit_trees fun v hv => (hvalues v hv).callsFit⟩,
      Sqlite.callsFit_singleton (by simp)⟩
    exact Sqlite.callsFit_append.mpr ⟨Sqlite.callsFit_append.mpr ⟨hl.callsFit, he.callsFit⟩,
      Sqlite.callsFit_singleton (by simp)⟩
  have hvariables : (Tree.in isNot (.binary o.op l.tree e.tree) (trees values)).variables =
      (Expression.binary o l (.in isNot e values)).tree.variables := by
    simp [Tree.variables, Expression.tree, Tree.nodes, List.filterMap_cons, Tree.parameter?]
  refine runParser_of_lexes hlexes ?_ hcalls (hvariables ▸ hfits.numbered)
  let rest := notTokens isNot .in ++ .lp :: (commas ((readItems values).map Prod.fst) ++ [.rp])
  have hop : floor [] ≤ o.op.precedence := (by cases isNot <;> decide : 1 ≤ notPrecedence isNot).trans ho
  have hname : Sqlite.EndsName rest := Sqlite.endsName_notTokens isNot (by simp) (by simp) _
  -- The operation is reduced before IN, or the NOT of it, is shifted.
  have hbinds : binds rest.head? o.op.precedence = false := by
    cases isNot <;> exact decide_eq_false (Nat.not_lt.mpr ho)
  have hwhole : e.ends rest.head? = true := by cases isNot <;> exact hends
  have hempty : Sqlite.height [] = 0 := rfl
  have hleft : Reads [] (autoTokens l.parentheses l.tokens) (.op o.op :: (e.tokens ++ rest)) l.tree :=
    hl.reads.operand (one_le_autoLevel _ (one_le_level l)) (by omega) ⟨by simp, by simp⟩
  have htwo : Sqlite.height [.expr l.tree] + 1 + e.height ≤ room := by
    rw [Sqlite.height_expr]
    omega
  have hright : Reads [.token (.op o.op), .expr l.tree] e.tokens rest e.tree :=
    he.reads _ rest ((Sqlite.floor_op hop l.tree).trans_le hlevel) (Sqlite.height_token_add_le (by simp) htwo) hname
      hwhole
  have hsubject := Sqlite.read_binary hop (by omega) hleft hright hbinds
  have hfloor : floor [] ≤ notPrecedence isNot := by cases isNot <;> decide
  have hread := Sqlite.read_in hfloor (by omega) (reads_items fun v hv => (hvalues v hv).reads) hsubject
  rw [readItems_fst, readItems_snd] at hread
  have htokens : autoTokens l.parentheses l.tokens ++ ([.op o.op] ++ (Expression.in isNot e values).tokens) =
      autoTokens l.parentheses l.tokens ++ .op o.op :: e.tokens ++ notTokens isNot .in ++
        .lp :: commas (tokensList values) ++ [.rp] := by
    simp [Expression.tokens]
  rw [htokens]
  exact hread

/-- What is written as `1 + (id IN(2))` is read as `(1 + id) IN(2)`. -/
theorem runParser_binary_in_plus :
    Sqlite.runParser (Expression.binary .plus (.literalValue (.integer 1))
        (.in false (.column { name := "id" }) [.literalValue (.integer 2)])).describle =
      some (.in false (.binary .plus (.term (.integer ['1'])) (.id "id".toList)) [.term (.integer ['2'])]) :=
  runParser_binary_in (.literalValue trivial) (.column ⟨by decide, rfl, fun h => absurd rfl h, fun h => absurd rfl h⟩)
    (fun v hv => List.mem_singleton.mp hv ▸ .literalValue trivial) ⟨by decide, rfl⟩ (by decide) rfl (by decide)

end StudyDB.WCDB.Syntax
