import StudyDB.Sqlite.Condition
import StudyDB.WCDB.Printable
import StudyDB.WCDB.Select

/-! WHERE conditions as the text that WCDB hands to SQLite. Proved: whatever texts and
numbers a condition has in it, and however many, it is read back as it was, unless AND and
OR stand too deep in each other. -/

namespace StudyDB.WCDB

open Sqlite (Condition Constant Tree)
open Syntax (Expression Printable Fits)

/-! ### Writing -/

/-- A column by its name alone. -/
def column (name : String) : Expression := .column { name := name }

def constant : Constant → Expression
  | .integer n => .literalValue (.integer n)
  | .text s => .literalValue (.string s)

/-- A string as it becomes a literal. -/
def text (s : String) : Constant := .text (cString s)

/-- The WINQ expression of a condition. -/
def expression : Condition → Expression
  | .equal c v => .binary .equal (column c) (constant v)
  | .like c pattern => .like false .like (column c) (constant (.text pattern))
  | .in isNot c vs => .in isNot (column c) (vs.map constant)
  | .between isNot c low high => .between isNot (column c) (constant low) (constant high)
  | .and a b => .binary .and (expression a) (expression b)
  | .or a b => .binary .or (expression a) (expression b)

/-! ### Reading -/

/-- An integer constant is in range, with one more of the negative ones. -/
def readConstant : Tree → Option Constant
  | .term (.string cs) => some (.text (String.ofList cs))
  | .term (.integer ds) =>
    if ds.all Char.isDigit = true ∧ Decimal.value ds < 2 ^ 63 then some (.integer (Int64.ofInt (Decimal.value ds)))
    else none
  | .unary .minus (.term (.integer ds)) =>
    if ds.all Char.isDigit = true ∧ Decimal.value ds ≤ 2 ^ 63 then
      some (.integer (Int64.ofInt (-Decimal.value ds)))
    else none
  | _ => none

/-- A tree as a condition. -/
def readCondition : Tree → Option Condition
  | .binary .eq (.id c) v => do some (.equal (String.ofList c) (← readConstant v))
  | .like false .like (.id c) pattern => do
    match ← readConstant pattern with
    | .text s => some (.like (String.ofList c) s)
    | .integer _ => none
  | .in isNot (.id c) values => do some (.in isNot (String.ofList c) (← values.mapM readConstant))
  | .between isNot (.id c) low high => do
    some (.between isNot (String.ofList c) (← readConstant low) (← readConstant high))
  | .binary .and a b => do some (.and (← readCondition a) (← readCondition b))
  | .binary .or a b => do some (.or (← readCondition a) (← readCondition b))
  | _ => none

/-- The condition of a WHERE clause. -/
def readWhere (sql : List Char) : Option Condition := (Sqlite.runParser sql).bind readCondition

/-! ### The round trip -/

/-- A text that a C string carries. -/
def LegibleConstant : Constant → Prop
  | .integer _ => True
  | .text s => NulFree s

/-- Columns are names, and texts are free of U+0000. -/
def Legible : Condition → Prop
  | .equal c v => Sqlite.isName c.toList = true ∧ LegibleConstant v
  | .like c pattern => Sqlite.isName c.toList = true ∧ NulFree pattern
  | .in _ c vs => Sqlite.isName c.toList = true ∧ ∀ v ∈ vs, LegibleConstant v
  | .between _ c low high => Sqlite.isName c.toList = true ∧ LegibleConstant low ∧ LegibleConstant high
  | .and a b | .or a b => Legible a ∧ Legible b

theorem legibleConstant_text (s : String) : LegibleConstant (text s) :=
  cString_eq_self_iff.mp (cString_cString s)

theorem readConstant_tree (v : Constant) : readConstant (constant v).tree = some v := by
  cases v with
  | text s => exact congrArg (fun s => some (Constant.text s)) (String.ofList_toList)
  | integer n =>
    have hlow : -2 ^ 63 ≤ n.toInt := n.le_toInt
    have hhigh : n.toInt < 2 ^ 63 := n.toInt_lt
    have hdigits : (Nat.toDigits 10 n.toInt.natAbs).all Char.isDigit = true :=
      List.all_eq_true.mpr (Decimal.toDigits_isDigit _)
    show readConstant (if n.toInt < 0 then _ else _) = some (.integer n)
    split_ifs with hneg
    · have habs : -(n.toInt.natAbs : ℤ) = n.toInt := by omega
      rw [readConstant, Decimal.value_toDigits, if_pos ⟨hdigits, by omega⟩, habs, Int64.ofInt_toInt]
    · have habs : (n.toInt.natAbs : ℤ) = n.toInt := by omega
      rw [readConstant, Decimal.value_toDigits, if_pos ⟨hdigits, by omega⟩, habs, Int64.ofInt_toInt]

theorem printable_column {c : String} (h : Sqlite.isName c.toList = true) : Printable (column c) :=
  .column ⟨h, rfl, fun hne => absurd rfl hne, fun hne => absurd rfl hne⟩

theorem printable_constant {v : Constant} (h : LegibleConstant v) : Printable (constant v) := by
  cases v with
  | integer n => exact .literalValue trivial
  | text s => exact .literalValue h

theorem operandLevel_constant (v : Constant) : (constant v).operandLevel = 12 := by
  cases v <;> rfl

/-- An operand of AND and of OR. -/
theorem three_le_operandLevel (c : Condition) : 3 ≤ (expression c).operandLevel := by
  cases c with
  | «in» isNot c vs =>
    cases isNot with
    | false => exact (by decide : 3 ≤ 4)
    | true => exact Nat.le_refl 3
  | _ => exact (by decide : 3 ≤ 12)

theorem printable_expression {c : Condition} (h : Legible c) : Printable (expression c) := by
  induction c with
  | equal c v =>
    exact .binary (printable_column h.1) (printable_constant h.2) (operandLevel_constant v ▸ (by decide : 4 < 12))
  | like c pattern => exact .like (printable_column h.1) (.literalValue h.2) (by decide : 4 < 12)
  | «in» isNot c vs =>
    refine .in (printable_column h.1) rfl fun v hv => ?_
    obtain ⟨v', hv', rfl⟩ := List.mem_map.mp hv
    exact printable_constant (h.2 v' hv')
  | between isNot c low high =>
    exact .between (printable_column h.1) (printable_constant h.2.1) (printable_constant h.2.2)
      (operandLevel_constant low ▸ (by decide : 3 ≤ 12)) (operandLevel_constant high ▸ (by decide : 4 < 12))
  | and a b iha ihb => exact .binary (iha h.1) (ihb h.2) (three_le_operandLevel b)
  | or a b iha ihb =>
    exact .binary (iha h.1) (ihb h.2) ((by decide : 1 < 3).trans_le (three_le_operandLevel b))

/-! ### What a condition takes of the stack -/

theorem height_constant_le (v : Constant) : (constant v).height ≤ 2 := by
  cases v with
  | integer n =>
    show (if n.toInt < 0 then 2 else 1) ≤ 2
    split_ifs <;> decide
  | text s => exact Nat.le_succ 1

theorem operandHeight_constant_le (v : Constant) : (constant v).operandHeight ≤ 2 := by
  cases v <;> exact height_constant_le _

theorem heightList_constants_le (vs : List Constant) : Syntax.heightList (vs.map constant) ≤ 2 := by
  induction vs with
  | nil => exact Nat.zero_le 2
  | cons v vs ih => exact Nat.max_le.mpr ⟨height_constant_le v, ih⟩

theorem operandHeight_le (e : Expression) : e.operandHeight ≤ max 3 (e.height + 1) := by
  rw [Expression.operandHeight, Syntax.autoHeight]
  split_ifs <;> omega

theorem height_expression_le (c : Condition) : (expression c).height ≤ 7 + 3 * c.depth := by
  have hjoin : ∀ a b : Condition, (expression a).height ≤ 7 + 3 * a.depth → (expression b).height ≤ 7 + 3 * b.depth →
      max (expression a).operandHeight (2 + (expression b).operandHeight) ≤ 7 + 3 * (max a.depth b.depth + 1) := by
    intro a b ha hb
    have hl := operandHeight_le (expression a)
    have hr := operandHeight_le (expression b)
    omega
  induction c with
  | equal c v =>
    have hv := operandHeight_constant_le v
    show max 1 (2 + (constant v).operandHeight) ≤ 7
    omega
  | like c pattern => exact (by decide : 3 ≤ 7)
  | «in» isNot c vs =>
    have hvs := heightList_constants_le vs
    show max 1 (5 + Syntax.heightList (vs.map constant)) ≤ 7
    omega
  | between isNot c low high =>
    have hlow := operandHeight_constant_le low
    have hhigh := operandHeight_constant_le high
    show max (max 1 (2 + (constant low).operandHeight)) (4 + (constant high).operandHeight) ≤ 7
    omega
  | and a b iha ihb => exact hjoin a b iha ihb
  | or a b iha ihb => exact hjoin a b iha ihb

theorem parameters_append {ts us : List Tree} (hts : ts.filterMap Tree.parameter? = [])
    (hus : us.filterMap Tree.parameter? = []) : (ts ++ us).filterMap Tree.parameter? = [] := by
  rw [List.filterMap_append, hts, hus]
  rfl

theorem variables_constant (v : Constant) : (constant v).tree.variables = [] := by
  cases v with
  | integer n =>
    show Tree.variables (if n.toInt < 0 then _ else _) = []
    split_ifs <;> rfl
  | text s => rfl

theorem parameters_constants (vs : List Constant) :
    (Sqlite.nodesList (Syntax.trees (vs.map constant))).filterMap Tree.parameter? = [] := by
  induction vs with
  | nil => rfl
  | cons v vs ih => exact parameters_append (variables_constant v) ih

/-- A condition has no parameters. -/
theorem variables_expression (c : Condition) : (expression c).tree.variables = [] := by
  rw [Tree.variables]
  induction c with
  | equal c v => exact parameters_append (parameters_append rfl (variables_constant v)) rfl
  | like c pattern => rfl
  | «in» isNot c vs => exact parameters_append (parameters_append rfl (parameters_constants vs)) rfl
  | between isNot c low high =>
    exact parameters_append (parameters_append (parameters_append rfl (variables_constant low))
      (variables_constant high)) rfl
  | and a b iha ihb => exact parameters_append (parameters_append iha ihb) rfl
  | or a b iha ihb => exact parameters_append (parameters_append iha ihb) rfl

/-- AND and OR do not stand deeper in each other than the stack of the parser allows for. -/
def Shallow (c : Condition) : Prop := c.depth ≤ 29

theorem fits_expression {c : Condition} (h : Shallow c) : Fits (expression c) where
  height := by
    have hdepth : c.depth ≤ 29 := h
    have hheight := height_expression_le c
    show (expression c).height ≤ 94
    omega
  numbered := by
    rw [variables_expression]
    rfl

/-! ### The condition of the text -/

theorem mapM_readConstant (vs : List Constant) : (Syntax.trees (vs.map constant)).mapM readConstant = some vs := by
  induction vs with
  | nil => rfl
  | cons v vs ih =>
    rw [List.map_cons, Syntax.trees, List.mapM_cons, readConstant_tree, ih]
    rfl

theorem readCondition_tree (c : Condition) : readCondition (expression c).tree = some c := by
  induction c with
  | equal c v =>
    show (readConstant (constant v).tree).bind (fun v => some (Condition.equal (String.ofList c.toList) v)) = _
    rw [readConstant_tree, String.ofList_toList]
    rfl
  | like c pattern =>
    show some (Condition.like (String.ofList c.toList) (String.ofList pattern.toList)) = _
    rw [String.ofList_toList, String.ofList_toList]
  | «in» isNot c vs =>
    show ((Syntax.trees (vs.map constant)).mapM readConstant).bind
      (fun vs => some (Condition.in isNot (String.ofList c.toList) vs)) = _
    rw [mapM_readConstant, String.ofList_toList]
    rfl
  | between isNot c low high =>
    show (readConstant (constant low).tree).bind (fun low => (readConstant (constant high).tree).bind fun high =>
      some (Condition.between isNot (String.ofList c.toList) low high)) = _
    rw [readConstant_tree, readConstant_tree, String.ofList_toList]
    rfl
  | and a b iha ihb =>
    show (readCondition (expression a).tree).bind (fun a => (readCondition (expression b).tree).bind fun b =>
      some (Condition.and a b)) = _
    rw [iha, ihb]
    rfl
  | or a b iha ihb =>
    show (readCondition (expression a).tree).bind (fun a => (readCondition (expression b).tree).bind fun b =>
      some (Condition.or a b)) = _
    rw [iha, ihb]
    rfl

/-- A condition comes back from its text. -/
theorem readWhere_describle {c : Condition} (h : Legible c) (hshallow : Shallow c) :
    readWhere (expression c).describle = some c := by
  rw [readWhere, Syntax.runParser_describle (printable_expression h) (fits_expression hshallow), Option.bind_some,
    readCondition_tree]

/-! ### SELECT -/

/-- The condition that SQLite reads from the text of one; `none` is a syntax error. -/
def sent : Option Condition → Option (Option Condition)
  | none => some none
  | some c => (readWhere (expression c).describle).map some

/-- `getObjects(on:fromTable:where:orderBy:limit:offset:)` on all properties. -/
def TableCodable.getObjectsWhere {α : Type} (T : TableCodable α) (key : Option String) (fault : Bool)
    (condition : Option Condition) (orderBy : List (Sqlite.Row SQLValue) → List (Sqlite.Row SQLValue))
    (limit offset : Option Int64) (rows : List (Sqlite.Row SQLValue)) : Option (List α) := do
  if fault then none
  else
    let found ← Condition.whereRows key (← sent condition) rows
    (limited limit offset (orderBy found)).mapM T.decode

theorem sent_of_legible {condition : Option Condition} (h : ∀ c ∈ condition, Legible c ∧ Shallow c) :
    sent condition = some condition := by
  cases condition with
  | none => rfl
  | some c =>
    obtain ⟨hlegible, hshallow⟩ := h c rfl
    rw [sent, readWhere_describle hlegible hshallow, Option.map_some]

section GetObjectsWhere
variable {α : Type} (T : TableCodable α) (key : Option String)
  (orderBy : List (Sqlite.Row SQLValue) → List (Sqlite.Row SQLValue)) (limit offset : Option Int64)
  (rows : List (Sqlite.Row SQLValue))

/-- The conditions of the searches select through their text what they select. -/
theorem getObjectsWhere_ofExpr (fault : Bool) {condition : Option Sqlite.Expr}
    (h : ∀ e ∈ condition, Legible (.ofExpr e) ∧ Shallow (.ofExpr e)) :
    T.getObjectsWhere key fault (condition.map .ofExpr) orderBy limit offset rows =
      T.select key fault condition orderBy limit offset rows := by
  have hlegible : ∀ c ∈ condition.map Condition.ofExpr, Legible c ∧ Shallow c := fun c hc => by
    obtain ⟨e, he, rfl⟩ := Option.map_eq_some_iff.mp hc
    exact h e he
  rw [TableCodable.getObjectsWhere, TableCodable.select, sent_of_legible hlegible, Option.bind_eq_bind, Option.bind_some,
    Condition.whereRows_ofExpr]
  rfl

/-- A condition without LIKE selects the rows on which it is true. -/
theorem getObjectsWhere_of_total {c : Condition} (h : Legible c) (hshallow : Shallow c) (htotal : c.total = true) :
    T.getObjectsWhere key false (some c) orderBy limit offset rows =
      (limited limit offset (orderBy (rows.filter fun r => c.Holds r))).mapM T.decode := by
  have hlegible : ∀ c' ∈ some c, Legible c' ∧ Shallow c' := fun c' hc => Option.some.inj hc ▸ ⟨h, hshallow⟩
  rw [TableCodable.getObjectsWhere, sent_of_legible hlegible, Option.bind_eq_bind, Option.bind_some,
    Condition.whereRows_of_total htotal]
  rfl

end GetObjectsWhere

end StudyDB.WCDB
