import StudyDB.Sqlite.Grammar
import StudyDB.Sqlite.Lexing

/-! WINQ's expressions, the text that `describle` writes for them, and the tree that they
stand for. -/

namespace StudyDB.WCDB.Syntax

open Sqlite (Token Term Tree UnaryOp BinaryOp LikeOp doubled commas notTokens notPrecedence binds isName isIdChar)

/-! ### Expressions -/

/-- `LiteralValue`, without floating-point numbers. -/
inductive LiteralValue where
  | string (stringValue : String)
  | null
  | integer (integerValue : Int64)
  | unsignedInteger (unsignedIntegerValue : UInt64)
  | bool (boolValue : Bool)
  | currentTime
  | currentDate
  | currentTimestamp

inductive BindParameter where
  | questionSign (n : Int32)
  | colonSign (name : String)
  | dollarSign (name : String)
  | atSign (name : String)

structure Column where
  schema : String := ""
  table : String := ""
  name : String := ""
  wildcard : Bool := false

inductive UnaryOperator where
  | negative | positive | tilde | not
  deriving DecidableEq

inductive BinaryOperator where
  | concatenate | multiply | divide | modulo | plus | minus | leftShift | rightShift | bitwiseAnd | bitwiseOr | less
  | lessOrEqual | greater | greaterOrEqual | equal | notEqual | and | or
  deriving DecidableEq

inductive LikeOperator where
  | like | glob | regExp | match
  deriving DecidableEq

/-- `Expression`, without statements, `CASE`, `CAST`, `RAISE` and windows. -/
inductive Expression where
  | literalValue (v : LiteralValue)
  | bindParameter (p : BindParameter)
  | column (c : Column)
  | null (isNot : Bool) (e : Expression)
  | unary (o : UnaryOperator) (e : Expression)
  | binary (o : BinaryOperator) (l r : Expression)
  | is (isNot : Bool) (l r : Expression)
  | like (isNot : Bool) (o : LikeOperator) (l r : Expression)
  | likeEscape (isNot : Bool) (o : LikeOperator) (l r escape : Expression)
  | function (name : String) (distinct useWildcard : Bool) (arguments : List Expression)
  | expressions (es : List Expression)
  | collate (e : Expression) (collation : String)
  | between (isNot : Bool) (e low high : Expression)
  | in (isNot : Bool) (e : Expression) (values : List Expression)

/-! ### Text -/

def LiteralValue.describle : LiteralValue → List Char
  | string s => '\'' :: doubled '\'' s.toList ++ ['\'']
  | null => "NULL".toList
  | integer n => Decimal.print n.toInt
  | unsignedInteger n => Nat.toDigits 10 n.toNat
  | bool b => if b then "TRUE".toList else "FALSE".toList
  | currentTime => "CURRENT_TIME".toList
  | currentDate => "CURRENT_DATE".toList
  | currentTimestamp => "CURRENT_TIMESTAMP".toList

def BindParameter.describle : BindParameter → List Char
  | questionSign n => '?' :: if 0 < n then Decimal.print n.toInt else []
  | colonSign name => ':' :: name.toList
  | dollarSign name => '$' :: name.toList
  | atSign name => '@' :: name.toList

def Column.describle (c : Column) : List Char :=
  (if c.table = "" then [] else (if c.schema = "" then [] else c.schema.toList ++ ['.']) ++ c.table.toList ++ ['.']) ++
    if c.wildcard then ['*'] else c.name.toList

def UnaryOperator.description : UnaryOperator → List Char
  | negative => "-".toList
  | positive => "+".toList
  | tilde => "~".toList
  | not => "NOT".toList

def BinaryOperator.description : BinaryOperator → List Char
  | concatenate => "||".toList
  | multiply => "*".toList
  | divide => "/".toList
  | modulo => "%".toList
  | plus => "+".toList
  | minus => "-".toList
  | leftShift => "<<".toList
  | rightShift => ">>".toList
  | bitwiseAnd => "&".toList
  | bitwiseOr => "|".toList
  | less => "<".toList
  | lessOrEqual => "<=".toList
  | greater => ">".toList
  | greaterOrEqual => ">=".toList
  | equal => "==".toList
  | notEqual => "!=".toList
  | and => "AND".toList
  | or => "OR".toList

def LikeOperator.description : LikeOperator → List Char
  | .like => "LIKE".toList
  | .glob => "GLOB".toList
  | .regExp => "REGEXP".toList
  | .match => "MATCH".toList

/-- Which operands `streamAutoParenthesesExpression` puts in parentheses. -/
def Expression.parentheses : Expression → Bool
  | .literalValue _ | .bindParameter _ | .column _ | .function .. | .in .. | .expressions _ => false
  | .null .. | .unary .. | .binary .. | .is .. | .like .. | .likeEscape .. | .collate .. | .between .. => true

def autoParentheses (parentheses : Bool) (cs : List Char) : List Char :=
  if parentheses then '(' :: cs ++ [')'] else cs

/-- `NOT` before another word. -/
def describleNot (isNot : Bool) (word : List Char) : List Char := if isNot then "NOT".toList ++ ' ' :: word else word

mutual

def Expression.describle : Expression → List Char
  | .literalValue v => v.describle
  | .bindParameter p => p.describle
  | .column c => c.describle
  | .null isNot e =>
    autoParentheses e.parentheses e.describle ++ ' ' ::
      ((if isNot then "NOT".toList else "IS".toList) ++ "NULL".toList)
  | .unary .not e => UnaryOperator.not.description ++ ' ' :: autoParentheses e.parentheses e.describle
  | .unary o e => o.description ++ autoParentheses e.parentheses e.describle
  | .binary o l r =>
    autoParentheses l.parentheses l.describle ++ ' ' :: (o.description ++ ' ' ::
      autoParentheses r.parentheses r.describle)
  | .is isNot l r =>
    autoParentheses l.parentheses l.describle ++ ' ' :: ("IS".toList ++ ' ' ::
      describleNot isNot (autoParentheses r.parentheses r.describle))
  | .like isNot o l r =>
    autoParentheses l.parentheses l.describle ++ ' ' :: (describleNot isNot o.description ++ ' ' ::
      autoParentheses r.parentheses r.describle)
  | .likeEscape isNot o l r e =>
    autoParentheses l.parentheses l.describle ++ ' ' :: (describleNot isNot o.description ++ ' ' ::
      (autoParentheses r.parentheses r.describle ++ ' ' :: ("ESCAPE".toList ++ ' ' ::
        autoParentheses e.parentheses e.describle)))
  | .function name distinct useWildcard arguments =>
    name.toList ++ '(' :: (if arguments.isEmpty then if useWildcard then ['*'] else []
      else (if distinct then "DISTINCT ".toList else []) ++ describleList arguments) ++ [')']
  | .expressions es => '(' :: describleList es ++ [')']
  | .collate e collation =>
    autoParentheses e.parentheses e.describle ++ ' ' :: ("COLLATE".toList ++ ' ' :: collation.toList)
  | .between isNot e low high =>
    autoParentheses e.parentheses e.describle ++ ' ' :: (describleNot isNot "BETWEEN".toList ++ ' ' ::
      (autoParentheses low.parentheses low.describle ++ ' ' :: ("AND".toList ++ ' ' ::
        autoParentheses high.parentheses high.describle)))
  | .in isNot e values =>
    e.describle ++ ' ' :: describleNot isNot ("IN".toList ++ '(' :: describleList values ++ [')'])

/-- A list of identifiers on a stream. -/
def describleList : List Expression → List Char
  | [] => []
  | [e] => e.describle
  | e :: es => e.describle ++ ',' :: ' ' :: describleList es

end

/-! ### Tokens and trees -/

def LiteralValue.tokens : LiteralValue → List Token
  | string s => [.term (.string s.toList)]
  | null => [.term .null]
  | integer n =>
    if n.toInt < 0 then [.op .minus, .term (.integer (Nat.toDigits 10 n.toInt.natAbs))]
    else [.term (.integer (Nat.toDigits 10 n.toInt.natAbs))]
  | unsignedInteger n => [.term (.integer (Nat.toDigits 10 n.toNat))]
  | bool b => [.id (if b then "TRUE".toList else "FALSE".toList)]
  | currentTime => [.term (.ctime "CURRENT_TIME".toList)]
  | currentDate => [.term (.ctime "CURRENT_DATE".toList)]
  | currentTimestamp => [.term (.ctime "CURRENT_TIMESTAMP".toList)]

/-- A constant. `TRUE` and `FALSE` are names, and a negative number is an expression. -/
def LiteralValue.tree : LiteralValue → Tree
  | string s => .term (.string s.toList)
  | null => .term .null
  | integer n =>
    if n.toInt < 0 then .unary .minus (.term (.integer (Nat.toDigits 10 n.toInt.natAbs)))
    else .term (.integer (Nat.toDigits 10 n.toInt.natAbs))
  | unsignedInteger n => .term (.integer (Nat.toDigits 10 n.toNat))
  | bool b => .id (if b then "TRUE".toList else "FALSE".toList)
  | currentTime => .term (.ctime "CURRENT_TIME".toList)
  | currentDate => .term (.ctime "CURRENT_DATE".toList)
  | currentTimestamp => .term (.ctime "CURRENT_TIMESTAMP".toList)

def Column.tokens (c : Column) : List Token :=
  (if c.table = "" then []
    else (if c.schema = "" then [] else [.id c.schema.toList, .dot]) ++ [.id c.table.toList, .dot]) ++
    [if c.wildcard then .op .star else .id c.name.toList]

def Column.tree (c : Column) : Tree :=
  if c.table = "" then .id c.name.toList
  else if c.schema = "" then .column c.table.toList c.name.toList
  else .schemaColumn c.schema.toList c.table.toList c.name.toList

def UnaryOperator.token : UnaryOperator → Token
  | negative => .op .minus
  | positive => .op .plus
  | tilde => .bitNot
  | not => .not

def UnaryOperator.op : UnaryOperator → UnaryOp
  | negative => .minus
  | positive => .plus
  | tilde => .bitNot
  | not => .not

def BinaryOperator.op : BinaryOperator → BinaryOp
  | concatenate => .concat
  | multiply => .star
  | divide => .slash
  | modulo => .rem
  | plus => .plus
  | minus => .minus
  | leftShift => .lshift
  | rightShift => .rshift
  | bitwiseAnd => .bitAnd
  | bitwiseOr => .bitOr
  | less => .lt
  | lessOrEqual => .le
  | greater => .gt
  | greaterOrEqual => .ge
  | equal => .eq
  | notEqual => .ne
  | and => .and
  | or => .or

def LikeOperator.op : LikeOperator → LikeOp
  | .like => .like
  | .glob => .glob
  | .regExp => .regexp
  | .match => .match

def autoTokens (parentheses : Bool) (ts : List Token) : List Token := if parentheses then .lp :: ts ++ [.rp] else ts

/-- The one argument that is no expression but a star. -/
def isAll : List Expression → Bool
  | [.column c] => c.wildcard && c.table = ""
  | _ => false

mutual

def Expression.tokens : Expression → List Token
  | .literalValue v => v.tokens
  | .bindParameter p => [.variable p.describle]
  | .column c => c.tokens
  | .null isNot e => autoTokens e.parentheses e.tokens ++ [if isNot then .notNull else .isNull]
  | .unary o e => o.token :: autoTokens e.parentheses e.tokens
  | .binary o l r => autoTokens l.parentheses l.tokens ++ .op o.op :: autoTokens r.parentheses r.tokens
  | .is isNot l r =>
    autoTokens l.parentheses l.tokens ++ .is :: ((if isNot then [.not] else []) ++ autoTokens r.parentheses r.tokens)
  | .like isNot o l r =>
    autoTokens l.parentheses l.tokens ++ notTokens isNot (.like o.op) ++ autoTokens r.parentheses r.tokens
  | .likeEscape isNot o l r e =>
    autoTokens l.parentheses l.tokens ++ notTokens isNot (.like o.op) ++ autoTokens r.parentheses r.tokens ++
      .escape :: autoTokens e.parentheses e.tokens
  | .function name distinct useWildcard arguments =>
    .id name.toList :: .lp :: (if arguments.isEmpty then if useWildcard then [.op .star] else []
      else (if distinct then [.distinct] else []) ++ commas (tokensList arguments)) ++ [.rp]
  | .expressions es => .lp :: commas (tokensList es) ++ [.rp]
  | .collate e collation => autoTokens e.parentheses e.tokens ++ [.collate, .id collation.toList]
  | .between isNot e low high =>
    autoTokens e.parentheses e.tokens ++ notTokens isNot .between ++ autoTokens low.parentheses low.tokens ++
      .op .and :: autoTokens high.parentheses high.tokens
  | .in isNot e values => e.tokens ++ notTokens isNot .in ++ .lp :: commas (tokensList values) ++ [.rp]

def tokensList : List Expression → List (List Token)
  | [] => []
  | e :: es => e.tokens :: tokensList es

end

mutual

/-- What an expression means to the one who wrote it. -/
def Expression.tree : Expression → Tree
  | .literalValue v => v.tree
  | .bindParameter p => .variable p.describle
  | .column c => c.tree
  | .null isNot e => .isNull isNot e.tree
  | .unary o e => .unary o.op e.tree
  | .binary o l r => .binary o.op l.tree r.tree
  | .is isNot l r => .is isNot l.tree r.tree
  | .like isNot o l r => .like isNot o.op l.tree r.tree
  | .likeEscape isNot o l r e => .likeEscape isNot o.op l.tree r.tree e.tree
  | .function name distinct useWildcard arguments =>
    if arguments.isEmpty && useWildcard || !distinct && isAll arguments then .callAll name.toList
    else .call name.toList (!arguments.isEmpty && distinct) (trees arguments)
  | .expressions es =>
    match trees es with
    | [t] => t
    | ts => .vector ts
  | .collate e collation => .collate e.tree collation.toList
  | .between isNot e low high => .between isNot e.tree low.tree high.tree
  | .in isNot e values => .in isNot e.tree (trees values)

def trees : List Expression → List Tree
  | [] => []
  | e :: es => e.tree :: trees es

end

end StudyDB.WCDB.Syntax
