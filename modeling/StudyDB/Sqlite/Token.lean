import Mathlib.Data.List.Infix
import Mathlib.Data.List.TakeWhile
import Mathlib.Order.Basic
import StudyDB.Sqlite.Value

/-! The tokens of SQL, as `sqlite3GetToken` cuts them out of a text. Proved: it always
takes a character. -/

namespace StudyDB.Sqlite

/-! ### Tokens -/

/-- Operators with two operands, from `OR` to `||`. -/
inductive BinaryOp where
  | or | and | eq | ne | lt | le | gt | ge | bitAnd | bitOr | lshift | rshift | plus | minus | star | slash | rem
  | concat
  deriving DecidableEq, Repr

/-- The words of `LIKE_KW`, and `MATCH`. -/
inductive LikeOp where
  | like | glob | regexp | match
  deriving DecidableEq, Repr

/-- A constant by its text, which for a string is without the quotes. -/
inductive Term where
  | null
  | integer (digits : List Char)
  | float (digits : List Char)
  | string (cs : List Char)
  | blob (digits : List Char)
  | ctime (word : List Char)
  deriving DecidableEq, Repr

inductive Token where
  | op (o : BinaryOp)
  | not | bitNot | is | isNull | notNull | between | in | escape | collate | distinct | lp | rp | comma | dot | semi
  | like (k : LikeOp)
  | term (t : Term)
  | variable (name : List Char)
  | id (name : List Char)
  /-- The other keywords. -/
  | keyword (word : String)
  | illegal
  deriving DecidableEq, Repr

/-! ### Characters -/

/-- `IdChar`: letters, digits, `_`, `$` and what is not in ASCII. -/
def isIdChar (c : Char) : Bool := c.isAlphanum || c = '_' || c = '$' || 0x80 ≤ c.toNat

/-- Of the class `CC_KYWD` or `CC_X`, so that a keyword may have it. -/
def isKeywordChar (c : Char) : Bool := c.isAlpha || c = '_'

/-- `sqlite3Isxdigit`. -/
def isXDigit (c : Char) : Bool := c.isDigit || ('a' ≤ c && c ≤ 'f') || ('A' ≤ c && c ≤ 'F')

/-! ### Keywords -/

/-- The keywords that stand in no expression here. -/
def otherKeywords : List String :=
  ["ABORT", "ACTION", "ADD", "AFTER", "ALL", "ALTER", "ANALYZE", "AS", "ASC", "ATTACH", "AUTOINCREMENT", "BEFORE",
    "BEGIN", "BY", "CASCADE", "CASE", "CAST", "CHECK", "COLUMN", "COMMIT", "CONFLICT", "CONSTRAINT", "CREATE", "CROSS",
    "CURRENT", "DATABASE", "DEFAULT", "DEFERRABLE", "DEFERRED", "DELETE", "DESC", "DETACH", "DO", "DROP", "EACH",
    "ELSE", "END", "EXCEPT", "EXCLUSIVE", "EXISTS", "EXPLAIN", "FAIL", "FILTER", "FOLLOWING", "FOR", "FOREIGN", "FROM",
    "FULL", "GROUP", "HAVING", "IF", "IGNORE", "IMMEDIATE", "INDEX", "INDEXED", "INITIALLY", "INNER", "INSERT",
    "INSTEAD", "INTERSECT", "INTO", "JOIN", "KEY", "LEFT", "LIMIT", "NATURAL", "NO", "NOTHING", "OF", "OFFSET", "ON",
    "ORDER", "OUTER", "OVER", "PARTITION", "PLAN", "PRAGMA", "PRECEDING", "PRIMARY", "QUERY", "RAISE", "RANGE",
    "RECURSIVE", "REFERENCES", "REINDEX", "RELEASE", "RENAME", "REPLACE", "RESTRICT", "RIGHT", "ROLLBACK", "ROW",
    "ROWS", "SAVEPOINT", "SELECT", "SET", "TABLE", "TEMP", "TEMPORARY", "THEN", "TO", "TRANSACTION", "TRIGGER",
    "UNBOUNDED", "UNION", "UNIQUE", "UPDATE", "USING", "VACUUM", "VALUES", "VIEW", "VIRTUAL", "WHEN", "WHERE", "WINDOW",
    "WITH", "WITHOUT"]

/-- The keywords of expressions. -/
def exprKeywords : List (String × Token) :=
  [("OR", .op .or), ("AND", .op .and), ("NOT", .not), ("IS", .is), ("ISNULL", .isNull), ("NOTNULL", .notNull),
    ("NULL", .term .null), ("BETWEEN", .between), ("IN", .in), ("ESCAPE", .escape), ("COLLATE", .collate),
    ("DISTINCT", .distinct), ("LIKE", .like .like), ("GLOB", .like .glob), ("REGEXP", .like .regexp),
    ("MATCH", .like .match), ("CURRENT_TIME", .term (.ctime "CURRENT_TIME".toList)),
    ("CURRENT_DATE", .term (.ctime "CURRENT_DATE".toList)),
    ("CURRENT_TIMESTAMP", .term (.ctime "CURRENT_TIMESTAMP".toList))]

/-- `keywordCode`, which takes capital and small letters as the same. -/
def keywordCode (word : List Char) : Token :=
  let upper := String.ofList (word.map Char.toUpper)
  match exprKeywords.find? fun k => k.1 = upper with
  | some k => k.2
  | none => if upper ∈ otherKeywords then .keyword upper else .id word

/-! ### Reading -/

/-- What follows a comment; one that is not closed takes all. -/
def skipComment : List Char → List Char
  | [] => []
  | '*' :: '/' :: s => s
  | _ :: s => skipComment s

/-- A text up to the delimiter, which is doubled inside. -/
def readQuoted (delim : Char) : List Char → Option (List Char × List Char)
  | [] => none
  | c :: s =>
    if c = delim then
      match s with
      | d :: s' => if d = delim then (readQuoted delim s').map fun r => (delim :: r.1, r.2) else some ([], d :: s')
      | [] => some ([], [])
    else (readQuoted delim s).map fun r => (c :: r.1, r.2)

/-- `CC_QUOTE`. -/
def getQuoted (delim : Char) (s : List Char) : Token × List Char :=
  match readQuoted delim s with
  | some (cs, rest) => (if delim = '\'' then .term (.string cs) else .id cs, rest)
  | none => (.illegal, [])

/-- `CC_QUOTE2`. -/
def getBracketed (s : List Char) : Token × List Char :=
  match s.dropWhile fun d => d ≠ ']' with
  | _ :: rest => (.id (s.takeWhile fun d => d ≠ ']'), rest)
  | [] => (.illegal, [])

def readFraction : List Char → List Char × List Char
  | '.' :: s => ('.' :: s.takeWhile Char.isDigit, s.dropWhile Char.isDigit)
  | s => ([], s)

def readExponent : List Char → List Char × List Char
  | e :: d :: s =>
    if (e = 'e' ∨ e = 'E') ∧ (d.isDigit ∨ (d = '+' ∨ d = '-') ∧ s.head?.any Char.isDigit) then
      (e :: d :: s.takeWhile Char.isDigit, s.dropWhile Char.isDigit)
    else ([], e :: d :: s)
  | s => ([], s)

/-- A number must not go on with letters. -/
def endNumber (t : Term) (s : List Char) : Token × List Char :=
  if s.head?.any isIdChar then (.illegal, s.dropWhile isIdChar) else (.term t, s)

/-- `CC_DIGIT`. -/
def getNumber (c : Char) (s : List Char) : Token × List Char :=
  match s with
  | x :: d :: s' =>
    if c = '0' ∧ (x = 'x' ∨ x = 'X') ∧ isXDigit d then
      (.term (.integer ('0' :: x :: d :: s'.takeWhile isXDigit)), s'.dropWhile isXDigit)
    else decimal c s
  | _ => decimal c s
where
  decimal (c : Char) (s : List Char) : Token × List Char :=
    let whole := c :: s.takeWhile Char.isDigit
    let (fraction, s₁) := readFraction (s.dropWhile Char.isDigit)
    let (exponent, s₂) := readExponent s₁
    endNumber (if fraction = [] ∧ exponent = [] then .integer whole else .float (whole ++ fraction ++ exponent)) s₂

/-- `CC_DOT`. -/
def getDot (s : List Char) : Token × List Char :=
  if s.head?.any Char.isDigit then
    let (exponent, s₁) := readExponent (s.dropWhile Char.isDigit)
    endNumber (.float ('.' :: s.takeWhile Char.isDigit ++ exponent)) s₁
  else (.dot, s)

/-- The name of a parameter, with what may stand in parentheses behind it; whether there
is a letter yet, and whether the name is legal. -/
def readVariable (letter : Bool) : List Char → Bool × List Char × List Char
  | [] => (letter, [], [])
  | c :: s =>
    if isIdChar c then
      let r := readVariable true s
      (r.1, c :: r.2.1, r.2.2)
    else if c = '(' ∧ letter then
      match s.dropWhile fun d => !isSpace d && d ≠ ')' with
      | ')' :: rest => (true, '(' :: (s.takeWhile fun d => !isSpace d && d ≠ ')') ++ [')'], rest)
      | rest => (false, [], rest)
    else
      match c, s with
      | ':', ':' :: s' =>
        let r := readVariable letter s'
        (r.1, ':' :: ':' :: r.2.1, r.2.2)
      | c, s => (letter, [], c :: s)

/-- `CC_DOLLAR` and `CC_VARALPHA`. -/
def getVariable (c : Char) (s : List Char) : Token × List Char :=
  let r := readVariable false s
  (if r.1 then .variable (c :: r.2.1) else .illegal, r.2.2)

/-- `CC_KYWD` and `CC_ID`. -/
def getWord (c : Char) (s : List Char) : Token × List Char :=
  let word := c :: s.takeWhile isIdChar
  (if word.all isKeywordChar then keywordCode word else .id word, s.dropWhile isIdChar)

/-- `CC_X`. -/
def getBlob (c : Char) (s : List Char) : Token × List Char :=
  match s with
  | '\'' :: s' =>
    match s'.dropWhile isXDigit with
    | '\'' :: rest =>
      (if (s'.takeWhile isXDigit).length % 2 = 0 then .term (.blob (s'.takeWhile isXDigit)) else .illegal, rest)
    | rest => (.illegal, (rest.dropWhile fun d => d ≠ '\'').tail)
  | _ => getWord c s

/-- The characters that are operators, or begin one. -/
def getOperator (c : Char) (s : List Char) : Token × List Char :=
  match c, s with
  | '-', s => (.op .minus, s)
  | '(', s => (.lp, s)
  | ')', s => (.rp, s)
  | ';', s => (.semi, s)
  | '+', s => (.op .plus, s)
  | '*', s => (.op .star, s)
  | '/', s => (.op .slash, s)
  | '%', s => (.op .rem, s)
  | '=', '=' :: s => (.op .eq, s)
  | '=', s => (.op .eq, s)
  | '<', '=' :: s => (.op .le, s)
  | '<', '>' :: s => (.op .ne, s)
  | '<', '<' :: s => (.op .lshift, s)
  | '<', s => (.op .lt, s)
  | '>', '=' :: s => (.op .ge, s)
  | '>', '>' :: s => (.op .rshift, s)
  | '>', s => (.op .gt, s)
  | '!', '=' :: s => (.op .ne, s)
  | '|', '|' :: s => (.op .concat, s)
  | '|', s => (.op .bitOr, s)
  | ',', s => (.comma, s)
  | '&', s => (.op .bitAnd, s)
  | '~', s => (.bitNot, s)
  | _, s => (.illegal, s)

/-- Blanks and comments. -/
def getSpace (c : Char) (s : List Char) : Option (List Char) :=
  if isSpace c ∧ c.toNat ≠ 0x0B then some (s.dropWhile isSpace)
  else match c, s with
    | '-', '-' :: s => some (s.dropWhile fun d => d ≠ '\n')
    | '/', '*' :: d :: s => some (skipComment (d :: s))
    | _, _ => none

/-- `sqlite3GetToken`, for the first character of a token and the others. -/
def getToken (c : Char) (s : List Char) : Token × List Char :=
  if c = '\'' ∨ c = '"' ∨ c.toNat = 0x60 then getQuoted c s
  else if c = '[' then getBracketed s
  else if c = '.' then getDot s
  else if c.isDigit then getNumber c s
  else if c = '?' then (.variable (c :: s.takeWhile Char.isDigit), s.dropWhile Char.isDigit)
  else if c ∈ ['$', '@', ':', '#'] then getVariable c s
  else if c = 'x' ∨ c = 'X' then getBlob c s
  else if isKeywordChar c ∨ 0x80 ≤ c.toNat then getWord c s
  else getOperator c s

/-! ### Tokens take characters -/

theorem dropWhile_suffix_of_suffix {p : Char → Bool} {s t : List Char} (h : s <:+ t) : s.dropWhile p <:+ t :=
  (List.dropWhile_suffix p).trans h

theorem suffix_of_dropWhile_eq {p : Char → Bool} {s rest : List Char} {c : Char} (h : s.dropWhile p = c :: rest) :
    rest <:+ s :=
  (List.suffix_cons c rest).trans (h ▸ List.dropWhile_suffix p)

theorem skipComment_suffix (s : List Char) : skipComment s <:+ s := by
  fun_induction skipComment s with
  | case1 => exact List.suffix_rfl
  | case2 s => exact (List.suffix_cons _ _).trans (List.suffix_cons _ _)
  | case3 c s _ ih => exact ih.trans (List.suffix_cons _ _)

theorem readQuoted_suffix {delim : Char} {s cs rest : List Char} (h : readQuoted delim s = some (cs, rest)) :
    rest <:+ s := by
  fun_induction readQuoted delim s generalizing cs rest with
  | case1 => cases h
  | case2 s' ih =>
    obtain ⟨r, hr, heq⟩ := Option.map_eq_some_iff.mp h
    cases heq
    exact ((ih hr).trans (List.suffix_cons _ _)).trans (List.suffix_cons _ _)
  | case3 d s' _ =>
    cases h
    exact List.suffix_cons _ _
  | case4 =>
    cases h
    exact List.nil_suffix
  | case5 c s _ ih =>
    obtain ⟨r, hr, heq⟩ := Option.map_eq_some_iff.mp h
    cases heq
    exact (ih hr).trans (List.suffix_cons _ _)

theorem readFraction_suffix (s : List Char) : (readFraction s).2 <:+ s := by
  fun_cases readFraction s with
  | case1 s => exact dropWhile_suffix_of_suffix (List.suffix_cons _ _)
  | case2 s => exact List.suffix_rfl

theorem readExponent_suffix (s : List Char) : (readExponent s).2 <:+ s := by
  fun_cases readExponent s with
  | case1 e d s => exact dropWhile_suffix_of_suffix ((List.suffix_cons _ _).trans (List.suffix_cons _ _))
  | case2 e d s => exact List.suffix_rfl
  | case3 s => exact List.suffix_rfl

theorem endNumber_suffix (t : Term) (s : List Char) : (endNumber t s).2 <:+ s := by
  unfold endNumber
  split_ifs
  · exact List.dropWhile_suffix _
  · exact List.suffix_rfl

theorem getNumber_suffix (c : Char) (s : List Char) : (getNumber c s).2 <:+ s := by
  have hdecimal : ∀ s, (getNumber.decimal c s).2 <:+ s := fun s =>
    (endNumber_suffix _ _).trans ((readExponent_suffix _).trans
      ((readFraction_suffix _).trans (List.dropWhile_suffix _)))
  unfold getNumber
  split
  · split_ifs
    · exact dropWhile_suffix_of_suffix ((List.suffix_cons _ _).trans (List.suffix_cons _ _))
    · exact hdecimal _
  · exact hdecimal _

theorem getDot_suffix (s : List Char) : (getDot s).2 <:+ s := by
  unfold getDot
  split_ifs
  · exact (endNumber_suffix _ _).trans ((readExponent_suffix _).trans (List.dropWhile_suffix _))
  · exact List.suffix_rfl

theorem getQuoted_suffix (delim : Char) (s : List Char) : (getQuoted delim s).2 <:+ s := by
  unfold getQuoted
  split
  · rename_i h
    exact readQuoted_suffix h
  · exact List.nil_suffix

theorem getBracketed_suffix (s : List Char) : (getBracketed s).2 <:+ s := by
  unfold getBracketed
  split
  · rename_i h
    exact suffix_of_dropWhile_eq h
  · exact List.nil_suffix

theorem readVariable_suffix (letter : Bool) (s : List Char) : (readVariable letter s).2.2 <:+ s := by
  fun_induction readVariable letter s with
  | case1 => exact List.suffix_rfl
  | case2 letter c s _ _ ih => exact ih.trans (List.suffix_cons _ _)
  | case3 letter c s _ _ rest h =>
    exact (suffix_of_dropWhile_eq h).trans (List.suffix_cons _ _)
  | case4 letter c s _ _ rest => exact dropWhile_suffix_of_suffix (List.suffix_cons _ _)
  | case5 letter s _ _ _ ih => exact (ih.trans (List.suffix_cons _ _)).trans (List.suffix_cons _ _)
  | case6 letter c s => exact List.suffix_rfl

theorem getWord_suffix (c : Char) (s : List Char) : (getWord c s).2 <:+ s := List.dropWhile_suffix _

theorem getBlob_suffix (c : Char) (s : List Char) : (getBlob c s).2 <:+ s := by
  unfold getBlob
  split
  · rename_i s'
    have hdigits : s'.dropWhile isXDigit <:+ '\'' :: s' := dropWhile_suffix_of_suffix (List.suffix_cons _ _)
    split
    · rename_i rest h
      exact (suffix_of_dropWhile_eq h).trans (List.suffix_cons _ _)
    · exact ((List.tail_suffix _).trans (List.dropWhile_suffix _)).trans hdigits
  · exact getWord_suffix c s

theorem getOperator_suffix (c : Char) (s : List Char) : (getOperator c s).2 <:+ s := by
  unfold getOperator
  split <;> first | exact List.suffix_rfl | exact List.suffix_cons _ _

theorem getToken_suffix (c : Char) (s : List Char) : (getToken c s).2 <:+ s := by
  unfold getToken
  split_ifs
  · exact getQuoted_suffix c s
  · exact getBracketed_suffix s
  · exact getDot_suffix s
  · exact getNumber_suffix c s
  · exact List.dropWhile_suffix _
  · exact readVariable_suffix false s
  · exact getBlob_suffix c s
  · exact getWord_suffix c s
  · exact getOperator_suffix c s

theorem getSpace_suffix {c : Char} {s rest : List Char} (h : getSpace c s = some rest) : rest <:+ s := by
  unfold getSpace at h
  split_ifs at h
  · cases h
    exact List.dropWhile_suffix _
  · split at h
    · cases h
      exact dropWhile_suffix_of_suffix (List.suffix_cons _ _)
    · cases h
      exact (skipComment_suffix _).trans (List.suffix_cons _ _)
    · cases h

/-- The tokens of a text. -/
def tokenize : List Char → List Token
  | [] => []
  | c :: s =>
    match _ : getSpace c s with
    | some rest => tokenize rest
    | none => (getToken c s).1 :: tokenize (getToken c s).2
termination_by s => s.length
decreasing_by
  · exact Nat.lt_succ_of_le (getSpace_suffix (by assumption)).length_le
  · exact Nat.lt_succ_of_le (getToken_suffix c s).length_le

end StudyDB.Sqlite
