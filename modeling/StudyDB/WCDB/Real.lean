import StudyDB.Foundation.Double
import StudyDB.WCDB.Value

/-! Columns of Doubles, and of types that have Doubles in their JSON. A REAL column
holds a number or NULL. -/

namespace StudyDB.WCDB

/-- What a REAL column holds. -/
abbrev RealValue := Option Double

/-- SQLite stores a NaN as NULL. -/
def bindReal : Double → RealValue
  | .nan => none
  | x => some x

def bindRealIfPresent (o : Option Double) : RealValue := o.bind bindReal

theorem bindRealIfPresent_eq {o : Option Double} (h : ∀ x ∈ o, x.isFinite = true) : bindRealIfPresent o = o := by
  cases o with
  | none => rfl
  | some x =>
    cases x with
    | finite => rfl
    | infinity => rfl
    | nan => exact absurd (h .nan rfl) Bool.false_ne_true

namespace Column
variable {α : Type} (C : DoubleCoder) (encode : α → Option Json) (decode : Json → Option α)

/-- `ColumnJSONCodable` of a type whose encoding throws on some values, which are
stored as NULL. -/
def jsonThrowing : Column α :=
  ofValue (fun a => (((encode a).bind C.write).map .blob).getD .null) fun v => (C.read v.dataValue).bind decode

variable {C encode decode}

theorem jsonThrowing_bind_none {a : α} (h : encode a = none) : (jsonThrowing C encode decode).bind a = .null := by
  simp [jsonThrowing, ofValue, h, Value.bind]

/-- A value that is encoded, as a container that the coder carries, is decoded. -/
theorem jsonThrowing_read {a : α} {j : Json} (h : encode a = some j) (hj : j.Carried) (hc : j.isContainer = true) :
    (jsonThrowing C encode decode).bind a ≠ .null ∧
      (jsonThrowing C encode decode).read ((jsonThrowing C encode decode).bind a) = decode j := by
  obtain ⟨d, hd, _, hr⟩ := C.carries hj hc
  simp [jsonThrowing, ofValue, h, hd, Value.bind, Value.scan, Value.dataValue, hr]

/-- A keyed container of such values comes back. -/
theorem jsonThrowing_readIfPresent {a : α} {ms : List (String × Option Json)} (h : encode a = some (.keyed ms))
    (hnodup : (ms.map Prod.fst).Nodup) (hms : ∀ e ∈ ms, ∀ j ∈ e.2, j.Carried) (hdecode : decode (.keyed ms) = some a) :
    (jsonThrowing C encode decode).readIfPresent ((jsonThrowing C encode decode).bind a) = some a := by
  obtain ⟨hnull, hread⟩ : (jsonThrowing C encode decode).bind a ≠ .null ∧
      (jsonThrowing C encode decode).read ((jsonThrowing C encode decode).bind a) = decode (.keyed ms) :=
    jsonThrowing_read h (Json.carried_keyed hnodup hms) rfl
  rw [readIfPresent]
  · exact hread.trans hdecode
  · exact hnull

end Column

end StudyDB.WCDB
