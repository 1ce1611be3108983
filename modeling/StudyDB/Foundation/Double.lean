import StudyDB.Foundation.Codable

/-! Doubles. A finite one is a dyadic number of 53 bits; the two zeros, which are
equal, are one value. In JSON a finite Double stands as the decimal numeral of its
value. A coder for Doubles is a JSON library that carries these numerals too. -/

namespace StudyDB

/-- Dyadic numbers in the range and precision of a Double. -/
def FitsDouble : Dyadic → Prop
  | .zero => True
  | .ofOdd n k _ => n.natAbs < 2 ^ 53 ∧ k ≤ 1074 ∧ n.natAbs < 2 ^ (1024 + k).toNat

instance : DecidablePred FitsDouble
  | .zero => isTrue trivial
  | .ofOdd .. => inferInstanceAs (Decidable (_ ∧ _))

/-- Numbers of 53 bits whose exponents are far from both ends of the range. -/
theorem fitsDouble_ofOdd {n k : ℤ} {hn : n % 2 = 1} (hnat : n.natAbs < 2 ^ 53) (hk : -971 ≤ k ∧ k ≤ 1074) :
    FitsDouble (.ofOdd n k hn) :=
  ⟨hnat, hk.2, Nat.lt_of_lt_of_le hnat (Nat.pow_le_pow_right (by decide) (by omega))⟩

inductive Double where
  | finite (x : Dyadic) (fits : FitsDouble x)
  | infinity (negative : Bool)
  | nan
  deriving DecidableEq

namespace Double

def zero : Double := .finite .zero trivial

def isFinite : Double → Bool
  | .finite .. => true
  | _ => false

end Double

namespace Json

/-! ### Numerals -/

/-- The numeral of a dyadic number. -/
def dyadic : Dyadic → Json
  | .zero => .int 0
  | .ofOdd n k _ => if k ≤ 0 then .int (n * 2 ^ (-k).toNat) else .number (n * 5 ^ k.toNat) (-k)

/-- The dyadic number that a numeral stands for, if it is one. -/
def dyadic? : Json → Option Dyadic
  | .number m e =>
    if 0 ≤ e then some (Dyadic.ofInt (m * 10 ^ e.toNat))
    else if m % 5 ^ (-e).toNat = 0 then some (Dyadic.ofIntWithPrec (m / 5 ^ (-e).toNat) (-e))
    else none
  | _ => none

/-- The numeral of a dyadic number stands for it. -/
@[simp] theorem dyadic?_dyadic (x : Dyadic) : (dyadic x).dyadic? = some x := by
  cases x with
  | zero => rfl
  | ofOdd n k hn =>
    rw [dyadic]
    split_ifs with hk
    · have hshift : n * 2 ^ (-k).toNat = n <<< (-k).toNat := (Int.shiftLeft_eq n _).symm
      have hprec : (0 : ℤ) = k + ((-k).toNat : ℤ) := by omega
      rw [int, dyadic?, if_pos le_rfl, Dyadic.ofOdd_eq_ofIntWithPrec, Dyadic.ofInt, Int.toNat_zero, Int.pow_zero,
        Int.mul_one, hshift, hprec, Dyadic.ofIntWithPrec_shiftLeft_add]
    · have hpos : (0 : ℤ) < 5 ^ k.toNat := Int.pow_pos (by decide)
      rw [dyadic?, if_neg (by omega), Int.neg_neg, Int.mul_emod_left, if_pos rfl,
        Int.mul_ediv_cancel n (Int.ne_of_gt hpos), Dyadic.ofOdd_eq_ofIntWithPrec]

/-! ### What a coder for Doubles carries -/

/-- Carried unchanged: as `Portable`, and finite Doubles. -/
inductive Carried : Json → Prop
  | null : Carried .null
  | bool (b : Bool) : Carried (.bool b)
  | int {n : ℤ} (h : -2 ^ 63 ≤ n ∧ n < 2 ^ 64) : Carried (.int n)
  | double {x : Dyadic} (h : FitsDouble x) : Carried (.dyadic x)
  | string (s : String) : Carried (.string s)
  | array {items : List Json} (h : ∀ j ∈ items, Carried j) : Carried (.array items)
  | object {ms : List (String × Json)} (sorted : ms.Pairwise fun a b => a.1 < b.1)
      (h : ∀ e ∈ ms, Carried e.2) : Carried (.object ms)

theorem Portable.carried {j : Json} (h : j.Portable) : j.Carried := by
  induction h with
  | null => exact .null
  | bool b => exact .bool b
  | int h => exact .int h
  | string s => exact .string s
  | array _ ih => exact .array ih
  | object sorted _ ih => exact .object sorted ih

theorem carried_ofMembers {ms : List (String × Json)} (h : (ms.map Prod.fst).Nodup)
    (hms : ∀ e ∈ ms, e.2.Carried) : (ofMembers ms).Carried := by
  obtain ⟨ms', heq, hperm, hsorted⟩ := ofMembers_sorted h
  rw [heq]
  exact .object hsorted fun e he => hms e (hperm.mem_iff.mp he)

theorem carried_keyed {ms : List (String × Option Json)} (h : (ms.map Prod.fst).Nodup)
    (hms : ∀ e ∈ ms, ∀ j ∈ e.2, j.Carried) : (keyed ms).Carried := by
  obtain ⟨ms', heq, hmem, hsorted⟩ := keyed_sorted h
  rw [heq]
  exact .object hsorted fun e he => hms _ (hmem e he) e.2 rfl

end Json

/-- A JSON library that carries finite Doubles. -/
structure DoubleCoder extends JsonCoder where
  /-- `decode(Double.self)`. -/
  double : Json → Option Double
  double_dyadic : ∀ x fits, double (.dyadic x) = some (.finite x fits)
  carries : ∀ {j : Json}, j.Carried → j.isContainer = true →
    ∃ d, write j = some d ∧ d.IsValidUTF8 ∧ read d = some j

/-- A finite Double under a key is decoded. -/
theorem DoubleCoder.double_keyed (coder : DoubleCoder) {ms : List (String × Option Json)} {k : String} {x : Dyadic}
    (fits : FitsDouble x) (h : (ms.map Prod.fst).Nodup) (hk : ms.lookup k = some (some (.dyadic x))) :
    ((Json.keyed ms).member? k).bind coder.double = some (.finite x fits) := by
  rw [Json.member?_keyed h, hk]
  exact coder.double_dyadic x fits

/-- The coder that writes and reads JSON text; a numeral that no Double equals is
not decoded. -/
def DoubleCoder.text : DoubleCoder where
  toJsonCoder := .text
  double j := j.dyadic?.bind fun x => if fits : FitsDouble x then some (.finite x fits) else none
  double_dyadic x fits := by simp [fits]
  carries {j} _ hc := by
    refine ⟨_, rfl, String.isValidUTF8 _, ?_⟩
    simp [JsonCoder.text, Json.parse_print, Option.filter, hc]

/-- `encode(_: Double)`, which throws on what is not finite. -/
def encodeDouble : Double → Option Json
  | .finite x _ => some (.dyadic x)
  | _ => none

end StudyDB
