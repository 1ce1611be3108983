import StudyDB.Sqlite.Query
import StudyDB.Sqlite.Utf8

/-! Conditions on integers and texts: equality, LIKE, BETWEEN and IN, with NOT or without,
and what AND and OR join of them. A column has the affinity of the constants that it is
compared with. Proved: texts compare as their characters do. -/

namespace StudyDB.Sqlite

/-! ### Conditions -/

inductive Constant where
  | integer (n : Int64)
  | text (s : String)
  deriving DecidableEq

def Constant.value : Constant → SQLValue
  | integer n => .integer n
  | text s => .text s

inductive Condition where
  | equal (column : String) (c : Constant)
  | like (column pattern : String)
  | in (isNot : Bool) (column : String) (values : List Constant)
  | between (isNot : Bool) (column : String) (low high : Constant)
  | and (a b : Condition)
  | or (a b : Condition)

/-- Integers stand before texts, and these before blobs. -/
def lessEqual : SQLValue → SQLValue → Truth
  | .null, _ | _, .null => none
  | v, w => some (decide (sortKey v ≤ sortKey w))

def equal : SQLValue → SQLValue → Truth
  | .null, _ | _, .null => none
  | v, w => some (decide (v = w))

/-- `IN` a list of constants. -/
def isOneOf (v : SQLValue) (values : List SQLValue) : Truth :=
  if values = [] then some false
  else match v with
    | .null => none
    | v => some (decide (v ∈ values))

/-- `NOT`, if it is there. -/
def negated (isNot : Bool) (t : Truth) : Truth := if isNot then t.not else t

namespace Condition

/-- The value on a row; an operand that decides alone keeps the other one from
being evaluated. -/
def eval (r : Row SQLValue) : Condition → Option Truth
  | .equal c v => some (Sqlite.equal (r c) v.value)
  | .like c pattern => likeFunc pattern (r c)
  | .in isNot c vs => some (negated isNot (isOneOf (r c) (vs.map Constant.value)))
  | .between isNot c low high => some (negated isNot ((lessEqual low.value (r c)).and (lessEqual (r c) high.value)))
  | .and a b => do
    let s ← a.eval r
    if s = some false then some s else some (s.and (← b.eval r))
  | .or a b => do
    let s ← a.eval r
    if s = some true then some s else some (s.or (← b.eval r))

/-- The terms of a conjunction, in their order. -/
def conjuncts : Condition → List Condition
  | .and a b => a.conjuncts ++ b.conjuncts
  | c => [c]

/-- How deep AND and OR stand in each other. -/
def depth : Condition → ℕ
  | .and a b | .or a b => max a.depth b.depth + 1
  | _ => 0

/-- A range of the integer primary key. -/
def isRange (key : Option String) : Condition → Bool
  | .between false c (.integer _) (.integer _) => key = some c
  | _ => false

/-- The terms are tried one after the other, up to the first that is not true. -/
def passes (r : Row SQLValue) : List Condition → Option Bool
  | [] => some true
  | c :: cs => do if (← c.eval r) = some true then passes r cs else some false

/-- A range of the primary key bounds the scan itself. -/
def scanOrder (key : Option String) (terms : List Condition) : List Condition :=
  terms.filter (isRange key) ++ terms.filter fun c => !c.isRange key

/-- WHERE. -/
def whereRows (key : Option String) (condition : Option Condition) (rows : List (Row SQLValue)) :
    Option (List (Row SQLValue)) :=
  filterRows (fun r => passes r (scanOrder key (condition.elim [] conjuncts))) rows

/-- The conditions of the searches that combine filters. -/
def ofExpr : Expr → Condition
  | .like c pattern => .like c pattern
  | .isIn c ns => .in false c (ns.map .integer)
  | .notIn c ns => .in true c (ns.map .integer)
  | .between c low high => .between false c (.integer low) (.integer high)
  | .and a b => .and (ofExpr a) (ofExpr b)
  | .or a b => .or (ofExpr a) (ofExpr b)

end Condition

theorem sortKey_integer_le (n m : Int64) : sortKey (.integer n) ≤ sortKey (.integer m) ↔ n ≤ m := by
  rw [sortKey, sortKey, Prod.Lex.toLex_le_toLex, Int64.le_iff_toInt_le]
  simp only [lt_self_iff_false, true_and, false_or, Prod.Lex.toLex_le_toLex, le_refl, and_true]
  omega

/-- What stands in an earlier class. -/
theorem sortKey_lt_of_class (v w : SQLValue) (h : (ofLex (sortKey v)).1 < (ofLex (sortKey w)).1) :
    sortKey v < sortKey w :=
  Prod.Lex.toLex_lt_toLex.mpr (.inl h)

theorem sortKey_integer_lt_text (n : Int64) (s : String) : sortKey (.integer n) < sortKey (.text s) :=
  sortKey_lt_of_class _ _ (by decide : 1 < 2)

theorem sortKey_integer_lt_blob (n : Int64) (d : Data) : sortKey (.integer n) < sortKey (.blob d) :=
  sortKey_lt_of_class _ _ (by decide : 1 < 3)

theorem sortKey_text_lt_blob (s : String) (d : Data) : sortKey (.text s) < sortKey (.blob d) :=
  sortKey_lt_of_class _ _ (by decide : 2 < 3)

theorem lessEqual_integer_left (v : SQLValue) (n : Int64) : lessEqual (.integer n) v = atLeast v n := by
  cases v with
  | null => rfl
  | integer m => exact congrArg some (decide_eq_decide.mpr (sortKey_integer_le n m))
  | text s => exact congrArg some (decide_eq_true (sortKey_integer_lt_text n s).le)
  | blob d => exact congrArg some (decide_eq_true (sortKey_integer_lt_blob n d).le)

theorem lessEqual_integer_right (v : SQLValue) (n : Int64) : lessEqual v (.integer n) = atMost v n := by
  cases v with
  | null => rfl
  | integer m => exact congrArg some (decide_eq_decide.mpr (sortKey_integer_le m n))
  | text s => exact congrArg some (decide_eq_false (sortKey_integer_lt_text n s).not_ge)
  | blob d => exact congrArg some (decide_eq_false (sortKey_integer_lt_blob n d).not_ge)

theorem isOneOf_integers (v : SQLValue) (ns : List Int64) :
    isOneOf v ((ns.map Constant.integer).map Constant.value) = isIn v ns := by
  cases ns with
  | nil => rfl
  | cons n ns => cases v <;> simp [isOneOf, isIn, Constant.value]

namespace Condition

/-- They have the values that the search gives them. -/
theorem eval_ofExpr (r : Row SQLValue) (e : Expr) : (ofExpr e).eval r = e.eval r := by
  induction e with
  | like c pattern => rfl
  | isIn c ns => rw [ofExpr, eval, isOneOf_integers]; rfl
  | notIn c ns => rw [ofExpr, eval, isOneOf_integers]; rfl
  | between c low high =>
    rw [ofExpr, eval, Constant.value, Constant.value, lessEqual_integer_left, lessEqual_integer_right]
    rfl
  | and a b iha ihb => rw [ofExpr, eval, iha, ihb]; rfl
  | or a b iha ihb => rw [ofExpr, eval, iha, ihb]; rfl

theorem conjuncts_ofExpr (e : Expr) : (ofExpr e).conjuncts = e.conjuncts.map ofExpr := by
  induction e with
  | and a b iha ihb => rw [ofExpr, conjuncts, iha, ihb, Expr.conjuncts, List.map_append]
  | _ => rfl

theorem isRange_ofExpr (key : Option String) (e : Expr) : (ofExpr e).isRange key = e.isRange key := by
  cases e <;> rfl

theorem scanOrder_ofExpr (key : Option String) (terms : List Expr) :
    scanOrder key (terms.map ofExpr) = (Sqlite.scanOrder key terms).map ofExpr := by
  simp only [scanOrder, Sqlite.scanOrder, List.map_append, List.filter_map, Function.comp_def, isRange_ofExpr]

theorem passes_ofExpr (r : Row SQLValue) (terms : List Expr) : passes r (terms.map ofExpr) = Sqlite.passes r terms := by
  induction terms with
  | nil => rfl
  | cons e terms ih => rw [List.map_cons, passes, eval_ofExpr, ih, Sqlite.passes]

/-- They select the rows that the search selects. -/
theorem whereRows_ofExpr (key : Option String) (condition : Option Expr) (rows : List (Row SQLValue)) :
    whereRows key (condition.map ofExpr) rows = Sqlite.whereRows key condition rows := by
  have hterms : (condition.map ofExpr).elim [] conjuncts = (condition.elim [] Expr.conjuncts).map ofExpr := by
    cases condition with
    | none => rfl
    | some e => exact conjuncts_ofExpr e
  unfold whereRows Sqlite.whereRows
  rw [hterms]
  simp only [scanOrder_ofExpr, passes_ofExpr]

/-! ### Conditions that raise no error -/

/-- True of a row. -/
def Holds (r : Row SQLValue) (c : Condition) : Prop := c.eval r = some (some true)

instance (r : Row SQLValue) (c : Condition) : Decidable (c.Holds r) := inferInstanceAs (Decidable (_ = _))

/-- There is no LIKE in it. -/
def total : Condition → Bool
  | .like .. => false
  | .and a b | .or a b => a.total && b.total
  | _ => true

theorem exists_eval {c : Condition} (h : c.total = true) (r : Row SQLValue) : ∃ truth, c.eval r = some truth := by
  induction c with
  | like c pattern => cases h
  | and a b iha ihb =>
    rw [total, Bool.and_eq_true] at h
    obtain ⟨s, hs⟩ := iha h.1
    obtain ⟨t, ht⟩ := ihb h.2
    exact ⟨if s = some false then s else s.and t, by simp only [eval, hs, ht]; split_ifs <;> simp_all⟩
  | or a b iha ihb =>
    rw [total, Bool.and_eq_true] at h
    obtain ⟨s, hs⟩ := iha h.1
    obtain ⟨t, ht⟩ := ihb h.2
    exact ⟨if s = some true then s else s.or t, by simp only [eval, hs, ht]; split_ifs <;> simp_all⟩
  | _ => exact ⟨_, rfl⟩

theorem holds_and_iff (r : Row SQLValue) (a b : Condition) : (and a b).Holds r ↔ a.Holds r ∧ b.Holds r := by
  rw [Holds, Holds, Holds, eval]
  rcases a.eval r with _ | _ | _ | _ <;> rcases b.eval r with _ | _ | _ | _ <;> simp [Truth.and]

theorem holds_iff_conjuncts (r : Row SQLValue) (c : Condition) : c.Holds r ↔ ∀ d ∈ c.conjuncts, d.Holds r := by
  induction c with
  | and a b iha ihb =>
    rw [holds_and_iff, iha, ihb, conjuncts, List.forall_mem_append]
  | _ => exact (List.forall_mem_singleton).symm

theorem total_conjuncts {c : Condition} (h : c.total = true) : ∀ d ∈ c.conjuncts, d.total = true := by
  induction c with
  | and a b iha ihb =>
    rw [total, Bool.and_eq_true] at h
    rw [conjuncts, List.forall_mem_append]
    exact ⟨iha h.1, ihb h.2⟩
  | _ => exact List.forall_mem_singleton.mpr h

theorem passes_of_total {r : Row SQLValue} {terms : List Condition} (h : ∀ d ∈ terms, d.total = true) :
    passes r terms = some (decide (∀ d ∈ terms, d.Holds r)) := by
  induction terms with
  | nil => rfl
  | cons d terms ih =>
    obtain ⟨truth, htruth⟩ := exists_eval (h d List.mem_cons_self) r
    have hd : d.Holds r ↔ truth = some true := by rw [Holds, htruth, Option.some.injEq]
    rw [passes, htruth, Option.bind_eq_bind, Option.bind_some, ih fun e he => h e (List.mem_cons_of_mem d he)]
    split_ifs with htrue <;> simp [hd, htrue]

/-- The rows are kept on which the condition is true. -/
theorem whereRows_of_total {c : Condition} (h : c.total = true) (key : Option String) (rows : List (Row SQLValue)) :
    whereRows key (some c) rows = some (rows.filter fun r => c.Holds r) := by
  refine filterRows_eq fun r _ => ?_
  have hmem : ∀ d, d ∈ scanOrder key c.conjuncts ↔ d ∈ c.conjuncts := fun d => by
    rw [scanOrder, List.mem_append, List.mem_filter, List.mem_filter]
    cases d.isRange key <;> simp
  have hterms : passes r (scanOrder key c.conjuncts) = _ := passes_of_total fun d hd =>
    total_conjuncts h d ((hmem d).mp hd)
  have hholds : (∀ d ∈ scanOrder key c.conjuncts, d.Holds r) ↔ c.Holds r := by
    rw [holds_iff_conjuncts]
    exact forall_congr' fun d => by rw [hmem d]
  exact hterms.trans (congrArg some (decide_eq_decide.mpr hholds))

end Condition

/-! ### Texts -/

/-- The bytes of a smaller character are smaller, whatever follows. -/
theorem encode_lt {c d : Char} (h : c < d) (s t : List UInt8) :
    (String.utf8EncodeChar c ++ s).map UInt8.toNat < (String.utf8EncodeChar d ++ t).map UInt8.toNat := by
  have hc := toNat_lt_or c
  have hd := toNat_lt_or d
  have hlt : c.toNat < d.toNat := h
  have hcval : c.val.toNat = c.toNat := rfl
  have hdval : d.val.toNat = d.toNat := rfl
  have hplane : ∀ n, n / 4096 = n / 64 / 64 ∧ n / 262144 = n / 64 / 64 / 64 := fun n => by omega
  unfold String.utf8EncodeChar
  simp only [hcval, hdval]
  split_ifs
  all_goals
    simp only [List.cons_append, List.nil_append, List.map_cons, List.cons_lt_cons_iff, UInt8.toNat_ofNat',
      (hplane _).1, (hplane _).2]
    omega

theorem toList_loop (bs : ByteArray) (i : ℕ) (r : List UInt8) :
    ByteArray.toList.loop bs i r = r.reverse ++ bs.data.toList.drop i := by
  fun_induction ByteArray.toList.loop bs i r with
  | case1 i r h ih =>
    have hi : i < bs.data.toList.length := h
    have hget : bs.get! i = bs.data.toList[i] := getElem!_pos bs.data i h
    rw [ih, List.reverse_cons, List.append_assoc, List.drop_eq_getElem_cons hi, hget]
    rfl
  | case2 i r h =>
    have hi : bs.data.toList.length ≤ i := Nat.not_lt.mp h
    rw [List.drop_eq_nil_of_le hi, List.append_nil]

theorem toUTF8_toList (s : String) : s.toUTF8.toList = textBytes s.toList := by
  rw [ByteArray.toList, toList_loop, String.toUTF8_eq_toByteArray, ← String.utf8Encode_toList, List.utf8Encode,
    List.toList_data_toByteArray]
  rfl

theorem textBytes_lt {cs ds : List Char} (h : cs < ds) :
    (textBytes cs).map UInt8.toNat < (textBytes ds).map UInt8.toNat := by
  induction cs generalizing ds with
  | nil =>
    cases ds with
    | nil => exact absurd h (lt_irrefl _)
    | cons d ds =>
      obtain ⟨b, s, hs⟩ := textBytes_cons_eq d ds
      rw [hs]
      exact List.nil_lt_cons _ _
  | cons c cs ih =>
    cases ds with
    | nil => exact absurd h (List.not_lt_nil _)
    | cons d ds =>
      rcases List.cons_lt_cons_iff.mp h with hlt | ⟨rfl, hlt⟩
      · exact encode_lt hlt _ _
      · rw [textBytes_cons, textBytes_cons, List.map_append, List.map_append]
        exact List.append_left_lt (ih hlt)

/-- Texts stand in the order of their characters. -/
theorem sortKey_text_le (s t : String) : sortKey (.text s) ≤ sortKey (.text t) ↔ s ≤ t := by
  have hmono : StrictMono fun s : String => (textBytes s.toList).map UInt8.toNat := fun s t h =>
    textBytes_lt (String.lt_iff_toList_lt.mp h)
  rw [sortKey, sortKey, Prod.Lex.toLex_le_toLex, toUTF8_toList, toUTF8_toList]
  simp only [lt_self_iff_false, true_and, false_or, Prod.Lex.toLex_le_toLex]
  exact hmono.le_iff_le

/-! ### What conditions say of a row -/

theorem isOneOf_of_ne_null {v : SQLValue} (hv : v ≠ .null) (values : List SQLValue) :
    isOneOf v values = some (decide (v ∈ values)) := by
  cases values with
  | nil => rfl
  | cons w values => cases v <;> first | exact absurd rfl hv | rfl

theorem isOneOf_null {values : List SQLValue} (h : values ≠ []) : isOneOf .null values = none := if_neg h

theorem Constant.value_ne_null (v : Constant) : v.value ≠ .null := by
  cases v <;> exact fun h => by cases h

namespace Condition
variable {r : Row SQLValue} {c : String}

theorem holds_equal_iff (v : Constant) : (equal c v).Holds r ↔ r c = v.value := by
  rw [Holds, eval, Option.some.injEq]
  cases h : r c <;> cases v <;> simp [Sqlite.equal, Constant.value]

theorem holds_in_iff (vs : List Constant) : (.in false c vs : Condition).Holds r ↔ r c ∈ vs.map Constant.value := by
  have hnull : SQLValue.null ∉ vs.map Constant.value := fun hmem => by
    obtain ⟨v, _, hv⟩ := List.mem_map.mp hmem
    exact v.value_ne_null hv
  rw [Holds, eval, Option.some.injEq, negated, if_neg Bool.false_ne_true]
  by_cases hv : r c = .null
  · rw [hv]
    cases vs with
    | nil => simp [isOneOf]
    | cons v vs => simpa [isOneOf_null] using hnull
  · rw [isOneOf_of_ne_null hv, Option.some.injEq, decide_eq_true_eq]

/-- NULL is outside of an empty list alone. -/
theorem holds_notIn_iff (vs : List Constant) :
    (.in true c vs : Condition).Holds r ↔ vs = [] ∨ r c ≠ .null ∧ r c ∉ vs.map Constant.value := by
  rw [Holds, eval, Option.some.injEq, negated, if_pos rfl]
  by_cases hv : r c = .null
  · rw [hv]
    cases vs with
    | nil => simp [isOneOf]
    | cons v vs => simp [isOneOf_null, Truth.not]
  · rw [isOneOf_of_ne_null hv, Truth.not_some_eq_true, decide_eq_false_iff_not]
    constructor
    · exact fun hmem => .inr ⟨hv, hmem⟩
    · rintro (rfl | ⟨_, hmem⟩)
      · exact List.not_mem_nil
      · exact hmem

/-- Between texts there are only texts. -/
theorem holds_between_text_iff (low high : String) :
    (between false c (.text low) (.text high)).Holds r ↔ ∃ t, r c = .text t ∧ low ≤ t ∧ t ≤ high := by
  rw [Holds, eval, Option.some.injEq, negated, if_neg Bool.false_ne_true, Truth.and_eq_true_iff]
  cases h : r c with
  | null => simp [Constant.value, lessEqual]
  | integer n => simp [Constant.value, lessEqual, (sortKey_integer_lt_text n low).not_ge]
  | text t => simp [Constant.value, lessEqual, sortKey_text_le]
  | blob d => simp [Constant.value, lessEqual, (sortKey_text_lt_blob high d).not_ge]

/-- Between integers there are only integers. -/
theorem holds_between_integer_iff (low high : Int64) :
    (between false c (.integer low) (.integer high)).Holds r ↔
      ∃ n, r c = .integer n ∧ low ≤ n ∧ n ≤ high := by
  rw [Holds, eval, Option.some.injEq, negated, if_neg Bool.false_ne_true, Truth.and_eq_true_iff, Constant.value,
    Constant.value, lessEqual_integer_left, lessEqual_integer_right]
  cases h : r c <;> simp [atLeast, atMost]

end Condition

end StudyDB.Sqlite
