import StudyDB.Data.Decimal
import StudyDB.Json.Tree

/-! The text of a JSON value, on lists of characters: a printer that writes no
white space, and a parser of the whole grammar. The parser's fuel bounds the
nesting and the number of items; the length of the text is always enough. -/

namespace StudyDB.Json

def quote : Char := Char.ofNat 0x22

def backslash : Char := Char.ofNat 0x5C

/-! ### Printing -/

/-- How a character stands in a string literal. -/
def escape (c : Char) : List Char :=
  if c = quote ∨ c = backslash then [backslash, c]
  else if c.toNat < 0x20 then
    [backslash, 'u', '0', '0', Nat.digitChar (c.toNat / 16), Nat.digitChar (c.toNat % 16)]
  else [c]

def printString (s : String) : List Char := quote :: (s.toList.flatMap escape ++ [quote])

def printNumber (m e : ℤ) : List Char := Decimal.print m ++ if e = 0 then [] else 'e' :: Decimal.print e

/-- The items of a bracket, separated by commas, and the closing bracket. -/
def printSep {α : Type*} (close : Char) (item : α → List Char) : List α → List Char
  | [] => [close]
  | a :: as => item a ++ (as.flatMap fun b => ',' :: item b) ++ [close]

mutual

def print : Json → List Char
  | .null => ['n', 'u', 'l', 'l']
  | .bool true => ['t', 'r', 'u', 'e']
  | .bool false => ['f', 'a', 'l', 's', 'e']
  | .number m e => printNumber m e
  | .string s => printString s
  | .array [] => ['[', ']']
  | .array (j :: js) => '[' :: (print j ++ printItems js)
  | .object [] => ['{', '}']
  | .object ((k, j) :: ms) => '{' :: (printString k ++ ':' :: (print j ++ printMembers ms))

/-- The items after the first. -/
def printItems : List Json → List Char
  | [] => [']']
  | j :: js => ',' :: (print j ++ printItems js)

/-- The members after the first. -/
def printMembers : List (String × Json) → List Char
  | [] => ['}']
  | (k, j) :: ms => ',' :: (printString k ++ ':' :: (print j ++ printMembers ms))

end

def printMember (e : String × Json) : List Char := printString e.1 ++ ':' :: print e.2

theorem printItems_eq (js : List Json) : printItems js = (js.flatMap fun j => ',' :: print j) ++ [']'] := by
  induction js with
  | nil => rfl
  | cons j js ih => rw [printItems, ih, List.flatMap_cons, List.cons_append, List.cons_append, List.append_assoc]

theorem printMembers_eq (ms : List (String × Json)) :
    printMembers ms = (ms.flatMap fun e => ',' :: printMember e) ++ ['}'] := by
  induction ms with
  | nil => rfl
  | cons e ms ih => simp [printMembers, ih, printMember]

theorem print_array (js : List Json) : print (.array js) = '[' :: printSep ']' print js := by
  cases js with
  | nil => rfl
  | cons j js => rw [print, printItems_eq, printSep, List.append_assoc]

theorem print_object (ms : List (String × Json)) : print (.object ms) = '{' :: printSep '}' printMember ms := by
  cases ms with
  | nil => rfl
  | cons e ms => simp [print, printMembers_eq, printSep, printMember]

/-! ### Parsing -/

def isSpace (c : Char) : Bool := c == ' ' || c == '\n' || c == '\t' || c == '\r'

def skip (s : List Char) : List Char := s.dropWhile isSpace

def hexDigit? (c : Char) : Option ℕ :=
  if '0' ≤ c ∧ c ≤ '9' then some (c.toNat - 48)
  else if 'a' ≤ c ∧ c ≤ 'f' then some (c.toNat - 87)
  else if 'A' ≤ c ∧ c ≤ 'F' then some (c.toNat - 55)
  else none

/-- The code unit written in four hexadecimal digits. -/
def codeUnit? (a b c d : Char) : Option ℕ := do
  some (4096 * (← hexDigit? a) + 256 * (← hexDigit? b) + 16 * (← hexDigit? c) + (← hexDigit? d))

/-- The characters that have an escape of one letter. -/
def simpleEscape? : Char → Option Char
  | 'b' => some '\x08'
  | 'f' => some '\x0c'
  | 'n' => some '\n'
  | 'r' => some '\r'
  | 't' => some '\t'
  | c => if c = quote ∨ c = backslash ∨ c = '/' then some c else none

/-- Characters up to the closing quote. A code point beyond the first plane is
escaped as two code units. -/
def readChars : List Char → Option (List Char × List Char)
  | [] => none
  | c :: s =>
    if c = quote then some ([], s)
    else if c ≠ backslash then if c.toNat < 0x20 then none else (readChars s).map fun r => (c :: r.1, r.2)
    else match s with
      | 'u' :: a :: b :: c :: d :: s => do
        let u ← codeUnit? a b c d
        if u < 0xD800 ∨ 0xE000 ≤ u then (readChars s).map fun r => (Char.ofNat u :: r.1, r.2)
        else match s with
          | e :: 'u' :: a :: b :: c :: d :: s => do
            let v ← codeUnit? a b c d
            if e = backslash ∧ u < 0xDC00 ∧ 0xDC00 ≤ v ∧ v < 0xE000 then
              (readChars s).map fun r => (Char.ofNat (0x10000 + 1024 * (u - 0xD800) + (v - 0xDC00)) :: r.1, r.2)
            else none
          | _ => none
      | e :: s => do
        let e ← simpleEscape? e
        (readChars s).map fun r => (e :: r.1, r.2)
      | [] => none

def readString : List Char → Option (String × List Char)
  | c :: s => if c = quote then (readChars s).map fun r => (String.ofList r.1, r.2) else none
  | [] => none

/-- Digits of a number, without superfluous zeros in front. -/
def readWhole (s : List Char) : Option (List Char × List Char) :=
  match Decimal.digits s with
  | ([], _) => none
  | ('0' :: _ :: _, _) => none
  | r => some r

def readFraction : List Char → Option (List Char × List Char)
  | '.' :: s => match Decimal.digits s with
    | ([], _) => none
    | r => some r
  | s => some ([], s)

def readExponent : List Char → Option (ℤ × List Char)
  | c :: s =>
    if c = 'e' ∨ c = 'E' then
      match Decimal.digits (Decimal.sign s).2 with
      | ([], _) => none
      | (ds, rest) => some ((Decimal.sign s).1 * Decimal.value ds, rest)
    else some (0, c :: s)
  | [] => some (0, [])

def readNumber (s : List Char) : Option (Json × List Char) := do
  let (sgn, s) := if s.head? = some '-' then (-1, s.tail) else (1, s)
  let (whole, s) ← readWhole s
  let (fraction, s) ← readFraction s
  let (e, s) ← readExponent s
  some (.number (sgn * Decimal.value (whole ++ fraction)) (e - fraction.length), s)

/-- A value that is no container. -/
def readScalar : List Char → Option (Json × List Char)
  | 'n' :: 'u' :: 'l' :: 'l' :: s => some (.null, s)
  | 't' :: 'r' :: 'u' :: 'e' :: s => some (.bool true, s)
  | 'f' :: 'a' :: 'l' :: 's' :: 'e' :: s => some (.bool false, s)
  | c :: s => if c = quote then (readString (c :: s)).map fun r => (.string r.1, r.2) else readNumber (c :: s)
  | [] => none

section Separated
variable {α : Type*} (close : Char) (item : List Char → Option (α × List Char))

/-- The items after the first, up to the closing bracket. -/
def readSepTail : ℕ → List Char → Option (List α × List Char)
  | 0, _ => none
  | n + 1, s => match skip s with
    | c :: s =>
      if c = close then some ([], s)
      else if c = ',' then do
        let (a, s) ← item s
        let (as, s) ← readSepTail n s
        some (a :: as, s)
      else none
    | [] => none

/-- The items of a bracket that has been opened. -/
def readSep (n : ℕ) (s : List Char) : Option (List α × List Char) :=
  if (skip s).head? = some close then some ([], (skip s).tail)
  else do
    let (a, s) ← item s
    let (as, s) ← readSepTail close item n s
    some (a :: as, s)

end Separated

def readMember (value : List Char → Option (Json × List Char)) (s : List Char) :
    Option ((String × Json) × List Char) := do
  let (k, s) ← readString (skip s)
  match skip s with
  | ':' :: s => do
    let (j, s) ← value s
    some ((k, j), s)
  | _ => none

def readValue : ℕ → List Char → Option (Json × List Char)
  | 0, _ => none
  | n + 1, s => match skip s with
    | '[' :: s => (readSep ']' (readValue n) n s).map fun r => (.array r.1, r.2)
    | '{' :: s => (readSep '}' (readMember (readValue n)) n s).map fun r => (.object r.1, r.2)
    | s => readScalar s

/-- The value of a whole text. -/
def parse (s : List Char) : Option Json :=
  match readValue (s.length + 1) s with
  | some (j, rest) => if skip rest = [] then some j else none
  | none => none

end StudyDB.Json
