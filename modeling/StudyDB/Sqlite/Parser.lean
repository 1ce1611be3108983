import Mathlib.Algebra.GroupWithZero.Nat
import StudyDB.Data.Machine
import StudyDB.Sqlite.Token

/-! The grammar of expressions, as the parser works through it: tokens are shifted on a
stack, and what a rule has on its right side is reduced as soon as the next token does
not bind more tightly. The stack is full at some height, and the actions of the rules
refuse parameters with too large a number and calls with too many arguments. -/

namespace StudyDB.Sqlite

/-! ### Trees -/

inductive UnaryOp where
  | not | bitNot | plus | minus
  deriving DecidableEq, Repr

/-- An expression as it is read. -/
inductive Tree where
  | id (name : List Char)
  | column (table name : List Char)
  | schemaColumn (schema table name : List Char)
  | term (t : Term)
  | variable (name : List Char)
  | unary (o : UnaryOp) (e : Tree)
  | binary (o : BinaryOp) (l r : Tree)
  | is (isNot : Bool) (l r : Tree)
  | isNull (isNot : Bool) (e : Tree)
  | like (isNot : Bool) (k : LikeOp) (l r : Tree)
  | likeEscape (isNot : Bool) (k : LikeOp) (l r escape : Tree)
  | between (isNot : Bool) (e low high : Tree)
  | in (isNot : Bool) (e : Tree) (values : List Tree)
  | collate (e : Tree) (name : List Char)
  | call (function : List Char) (distinct : Bool) (arguments : List Tree)
  | callAll (function : List Char)
  | vector (values : List Tree)

/-! ### Precedence -/

def BinaryOp.precedence : BinaryOp → ℕ
  | .or => 1
  | .and => 2
  | .eq | .ne => 4
  | .lt | .le | .gt | .ge => 5
  | .bitAnd | .bitOr | .lshift | .rshift => 7
  | .plus | .minus => 8
  | .star | .slash | .rem => 9
  | .concat => 10

/-- The precedence of a token that may follow an expression, else zero. -/
def Token.precedence : Token → ℕ
  | .op o => o.precedence
  | .not => 3
  | .is | .isNull | .notNull | .between | .in | .like _ => 4
  | .escape => 6
  | .collate => 11
  | _ => 0

/-- The next token binds more tightly than a rule, which then has to wait. `ESCAPE` is
waited for by one rule alone. -/
def binds (next : Option Token) (precedence : ℕ) : Bool :=
  match next with
  | none | some .escape => false
  | some t => precedence < t.precedence

/-! ### The parser -/

/-- What the stack holds: tokens, and what rules have made of them. -/
inductive Sym where
  | token (t : Token)
  | expr (e : Tree)
  | exprs (es : List Tree)
  | likeOp (isNot : Bool) (k : LikeOp)
  | betweenOp (isNot : Bool)
  | inOp (isNot : Bool)

/-- A list in parentheses begins behind a function and behind `IN`. -/
def beginsList : List Sym → Bool
  | .token (.id _) :: _ | .inOp _ :: _ => true
  | _ => false

/-- The rules that end with an expression, which lies on the stack. -/
def reduceExpr (next : Option Token) (r : Tree) : List Sym → Option (List Sym)
  | .token (.op .and) :: .expr l :: .betweenOp isNot :: .expr e :: stack =>
    if binds next 4 then none else some (.expr (.between isNot e l r) :: stack)
  | .token (.op o) :: .expr l :: stack =>
    if binds next o.precedence then none else some (.expr (.binary o l r) :: stack)
  | .token .is :: .expr l :: stack =>
    if binds next 4 then none else some (.expr (.is false l r) :: stack)
  | .token .not :: .token .is :: .expr l :: stack =>
    if binds next 4 then none else some (.expr (.is true l r) :: stack)
  | .token .not :: stack =>
    if binds next 3 ∨ next = some .not then none else some (.expr (.unary .not r) :: stack)
  | .token .bitNot :: stack => some (.expr (.unary .bitNot r) :: stack)
  | .token (.op .plus) :: stack => some (.expr (.unary .plus r) :: stack)
  | .token (.op .minus) :: stack => some (.expr (.unary .minus r) :: stack)
  | .likeOp isNot k :: .expr l :: stack =>
    if binds next 4 ∨ next = some .escape then none else some (.expr (.like isNot k l r) :: stack)
  | .token .escape :: .expr p :: .likeOp isNot k :: .expr l :: stack =>
    if binds next 4 then none else some (.expr (.likeEscape isNot k l p r) :: stack)
  | .token .comma :: .exprs es :: stack =>
    if binds next 0 then none else some (.exprs (es ++ [r]) :: stack)
  | .token .lp :: stack =>
    if next = some .comma ∨ next = some .rp ∧ beginsList stack then some (.exprs [r] :: .token .lp :: stack)
    else none
  | .token .distinct :: .token .lp :: .token (.id f) :: stack =>
    if next = some .comma ∨ next = some .rp then
      some (.exprs [r] :: .token .distinct :: .token .lp :: .token (.id f) :: stack)
    else none
  | _ => none

/-- The rules that end with a name. -/
def reduceId (next : Option Token) (name : List Char) : List Sym → Option (List Sym)
  | .token .collate :: .expr e :: stack => some (.expr (.collate e name) :: stack)
  | .token .dot :: .token (.id table) :: .token .dot :: .token (.id schema) :: stack =>
    some (.expr (.schemaColumn schema table name) :: stack)
  | .token .dot :: .token (.id table) :: stack =>
    if next = some .dot then none else some (.expr (.column table name) :: stack)
  | stack => if next = some .lp ∨ next = some .dot then none else some (.expr (.id name) :: stack)

/-- The rules that end with a closing parenthesis. -/
def reduceParenthesis : List Sym → Option (List Sym)
  | .exprs es :: .token .lp :: .token (.id f) :: stack => some (.expr (.call f false es) :: stack)
  | .exprs es :: .token .distinct :: .token .lp :: .token (.id f) :: stack => some (.expr (.call f true es) :: stack)
  | .token .lp :: .token (.id f) :: stack => some (.expr (.call f false []) :: stack)
  | .token .distinct :: .token .lp :: .token (.id f) :: stack => some (.expr (.call f true []) :: stack)
  | .token (.op .star) :: .token .lp :: .token (.id f) :: stack => some (.expr (.callAll f) :: stack)
  | .exprs es :: .token .lp :: .inOp isNot :: .expr e :: stack => some (.expr (.in isNot e es) :: stack)
  | .token .lp :: .inOp isNot :: .expr e :: stack => some (.expr (.in isNot e []) :: stack)
  | .expr e :: .token .lp :: stack => some (.expr e :: stack)
  | .exprs es :: .token .lp :: stack => some (.expr (.vector es) :: stack)
  | _ => none

/-- The rules for a word behind an expression, and perhaps `NOT`. -/
def reduceNot (op : Bool → Sym) : List Sym → Option (List Sym)
  | .token .not :: .expr e :: stack => some (op true :: .expr e :: stack)
  | .expr e :: stack => some (op false :: .expr e :: stack)
  | _ => none

/-- The rules that end with another token. -/
def reduceToken (next : Option Token) (t : Token) (stack : List Sym) : Option (List Sym) :=
  match t with
  | .id name => reduceId next name stack
  | .term .null =>
    match stack with
    | .token .not :: .expr e :: stack => some (.expr (.isNull true e) :: stack)
    | stack => some (.expr (.term .null) :: stack)
  | .term t => some (.expr (.term t) :: stack)
  | .variable name => some (.expr (.variable name) :: stack)
  | .isNull =>
    match stack with
    | .expr e :: stack => some (.expr (.isNull false e) :: stack)
    | _ => none
  | .notNull =>
    match stack with
    | .expr e :: stack => some (.expr (.isNull true e) :: stack)
    | _ => none
  | .like k => reduceNot (fun isNot => .likeOp isNot k) stack
  | .between => reduceNot .betweenOp stack
  | .in => reduceNot .inOp stack
  | .rp => reduceParenthesis stack
  | _ => none

/-- The rule that applies, if any. -/
def reduce (next : Option Token) : List Sym → Option (List Sym)
  | .expr e :: stack => reduceExpr next e stack
  | .token t :: stack => reduceToken next t stack
  | _ => none

/-! ### The height of the stack -/

/-- `YYSTACKDEPTH`, less the entry at the bottom and what lies below the condition of a
SELECT: `SELECT`, whether it is DISTINCT, the columns, the tables and `WHERE`. -/
def room : ℕ := 100 - 6

/-- The symbols on the stack. The rule of a call wants a `distinct` behind the
parenthesis, and an empty one is put there before any token but a star. -/
def height : List Sym → ℕ
  | .token .lp :: .token (.id _) :: stack | .token (.op .star) :: .token .lp :: .token (.id _) :: stack
  | .token .distinct :: .token .lp :: .token (.id _) :: stack => height stack + 3
  | _ :: stack => height stack + 1
  | [] => 0

/-- The symbols once a token is shifted. Before a parenthesis closes an empty list, that
list is on the stack, and before one closes a row value, its last item still is. -/
def shiftHeight (t : Token) (stack : List Sym) : ℕ :=
  match t, stack with
  | .rp, .token .lp :: _ | .rp, .token .distinct :: _ => height stack + 2
  | .rp, .exprs _ :: .token .lp :: below => if beginsList below then height stack + 1 else height stack + 3
  | t, stack => height (.token t :: stack)

/-- A rule, or else the next token, for which there must be room. -/
def parserStep (config : List Sym × List Token) : Option (List Sym × List Token) :=
  match reduce config.2.head? config.1, config.2 with
  | some stack, tokens => some (stack, tokens)
  | none, t :: tokens => if shiftHeight t config.1 ≤ room then some (.token t :: config.1, tokens) else none
  | none, [] => none

/-! ### The parser halts -/

def Sym.weight : Sym → ℕ
  | .token _ => 3
  | .expr _ => 2
  | _ => 1

def stackWeight (stack : List Sym) : ℕ := (stack.map Sym.weight).sum

@[simp] theorem stackWeight_cons (s : Sym) (stack : List Sym) :
    stackWeight (s :: stack) = s.weight + stackWeight stack := by simp [stackWeight]

theorem stackWeight_reduceExpr {next : Option Token} {r : Tree} {stack stack' : List Sym}
    (h : reduceExpr next r stack = some stack') : stackWeight stack' < 2 + stackWeight stack := by
  unfold reduceExpr at h
  split at h
  all_goals
    try split_ifs at h
    all_goals
      cases h
      try
        simp only [stackWeight_cons, Sym.weight]
        omega

theorem stackWeight_reduceId {next : Option Token} {name : List Char} {stack stack' : List Sym}
    (h : reduceId next name stack = some stack') : stackWeight stack' < 3 + stackWeight stack := by
  unfold reduceId at h
  split at h
  all_goals
    try split_ifs at h
    all_goals
      cases h
      simp only [stackWeight_cons, Sym.weight]
      omega

theorem stackWeight_reduceParenthesis {stack stack' : List Sym}
    (h : reduceParenthesis stack = some stack') : stackWeight stack' < 3 + stackWeight stack := by
  unfold reduceParenthesis at h
  split at h
  all_goals
    cases h
    try
      simp only [stackWeight_cons, Sym.weight]
      omega

theorem stackWeight_reduceNot {op : Bool → Sym} (hop : ∀ isNot, (op isNot).weight = 1) {stack stack' : List Sym}
    (h : reduceNot op stack = some stack') : stackWeight stack' < 3 + stackWeight stack := by
  unfold reduceNot at h
  split at h
  · cases h
    simp only [stackWeight_cons, hop]
    simp only [Sym.weight]
    omega
  · cases h
    simp only [stackWeight_cons, hop]
    simp only [Sym.weight]
    omega
  · cases h

theorem stackWeight_reduceToken {next : Option Token} {t : Token} {stack stack' : List Sym}
    (h : reduceToken next t stack = some stack') : stackWeight stack' < 3 + stackWeight stack := by
  unfold reduceToken at h
  split at h
  · exact stackWeight_reduceId h
  · split at h <;> cases h
    all_goals
      simp only [stackWeight_cons, Sym.weight]
      omega
  · cases h
    simp [Sym.weight]
  · cases h
    simp [Sym.weight]
  · split at h <;> cases h
    simp [Sym.weight]
  · split at h <;> cases h
    simp [Sym.weight]
  · exact stackWeight_reduceNot (fun _ => rfl) h
  · exact stackWeight_reduceNot (fun _ => rfl) h
  · exact stackWeight_reduceNot (fun _ => rfl) h
  · exact stackWeight_reduceParenthesis h
  · cases h

/-- Every rule leaves less. -/
theorem stackWeight_reduce {next : Option Token} {stack stack' : List Sym} (h : reduce next stack = some stack') :
    stackWeight stack' < stackWeight stack := by
  unfold reduce at h
  split at h
  · simpa [Sym.weight] using stackWeight_reduceExpr h
  · simpa [Sym.weight] using stackWeight_reduceToken h
  · cases h

/-- The parser: a token weighs more before it is shifted. -/
def parser : Machine (List Sym × List Token) where
  step := parserStep
  measure config := stackWeight config.1 + 4 * config.2.length
  lowers {config config'} h := by
    unfold parserStep at h
    split at h
    · cases h
      exact Nat.add_lt_add_right (stackWeight_reduce (by assumption)) _
    · rename_i t tokens _ htokens
      split_ifs at h
      cases h
      rw [htokens]
      simp [Sym.weight]
      omega
    · cases h

/-- The expression that tokens are, up to the last of them. -/
def parse (tokens : List Token) : Option Tree :=
  match parser.run ([], tokens) with
  | ([.expr e], []) => some e
  | _ => none

/-! ### What the actions of the rules refuse -/

mutual

/-- An expression and what it consists of, in the order of the rules that made them. -/
def Tree.nodes : Tree → List Tree
  | .unary o e => e.nodes ++ [.unary o e]
  | .binary o l r => l.nodes ++ r.nodes ++ [.binary o l r]
  | .is isNot l r => l.nodes ++ r.nodes ++ [.is isNot l r]
  | .isNull isNot e => e.nodes ++ [.isNull isNot e]
  | .like isNot k l r => l.nodes ++ r.nodes ++ [.like isNot k l r]
  | .likeEscape isNot k l r escape => l.nodes ++ r.nodes ++ escape.nodes ++ [.likeEscape isNot k l r escape]
  | .between isNot e low high => e.nodes ++ low.nodes ++ high.nodes ++ [.between isNot e low high]
  | .in isNot e values => e.nodes ++ nodesList values ++ [.in isNot e values]
  | .collate e name => e.nodes ++ [.collate e name]
  | .call f distinct arguments => nodesList arguments ++ [.call f distinct arguments]
  | .vector values => nodesList values ++ [.vector values]
  | t => [t]

def nodesList : List Tree → List Tree
  | [] => []
  | t :: ts => t.nodes ++ nodesList ts

end

/-- `SQLITE_MAX_FUNCTION_ARG`. -/
def maxFunctionArg : ℕ := 127

/-- `SQLITE_MAX_VARIABLE_NUMBER`. -/
def maxVariableNumber : ℕ := 999

/-- The largest number of a parameter, and the names of those that have a number. -/
structure Variables where
  nVar : ℕ := 0
  names : List (List Char) := []
  deriving DecidableEq, Repr

/-- `sqlite3ExprAssignVarNumber`. -/
def Variables.assignVarNumber (v : Variables) (name : List Char) : Option Variables :=
  match name with
  | ['?'] => if v.nVar < maxVariableNumber then some { v with nVar := v.nVar + 1 } else none
  | '?' :: digits =>
    let i := Decimal.value digits
    if i < 1 ∨ maxVariableNumber < i then none else some { v with nVar := max v.nVar i }
  | name =>
    if name ∈ v.names then some v
    else if v.nVar < maxVariableNumber then some { nVar := v.nVar + 1, names := name :: v.names }
    else none

/-- What a rule does with the parameters, unless it refuses what it made. -/
def Variables.action (v : Variables) : Tree → Option Variables
  | .variable name => v.assignVarNumber name
  | .call _ _ arguments => if maxFunctionArg < arguments.length then none else some v
  | _ => some v

/-- The name of a parameter. -/
def Tree.parameter? : Tree → Option (List Char)
  | .variable name => some name
  | _ => none

/-- The parameters, from left to right. -/
def Tree.variables (t : Tree) : List (List Char) := t.nodes.filterMap Tree.parameter?

/-- The actions of all rules find nothing to refuse. -/
def Tree.accepted (t : Tree) : Bool := (t.nodes.foldlM Variables.action {}).isSome

/-- `sqlite3RunParser` on the text of a condition, which ends at the first U+0000. -/
def runParser (sql : List Char) : Option Tree :=
  (parse (tokenize (sql.takeWhile fun c => c ≠ '\x00'))).filter Tree.accepted

end StudyDB.Sqlite
