import StudyDB.Sqlite.Join
import StudyDB.WCDB.RowId

/-! `StudentDBWorker`: students and scores in two tables, which are joined by SQL
statements and once more in memory. Proved: exactly for which tables both joins print
the same lines. -/

namespace StudyDB

open Sqlite (RowIdTable)

structure StudentDBModel where
  id : Option Int64 := none
  studentId : Option Int64 := none
  name : Option String := none
  age : Option Int64 := none
  classId : Option Int64 := none

structure ScoreDBModel where
  identifier : Option Int64 := none
  stuId : Option Int64 := none
  score : Option Double := none

/-! ### The tables -/

/-- A row of `Students` beside its id; the column `studentId` is NOT NULL. -/
structure StudentRow where
  studentId : Int64
  name : Option String
  age : Option Int64
  classId : Option Int64

/-- A row of `Score_Table` beside its identifier. -/
structure ScoreRow where
  stuId : Option Int64
  score : WCDB.RealValue

abbrev Students := RowIdTable StudentRow

abbrev Scores := RowIdTable ScoreRow

namespace StudentDBModel

/-- The row that is inserted, if its constraint allows it. -/
def entry? (m : StudentDBModel) : Option (Option Int64 × StudentRow) :=
  m.studentId.map fun studentId =>
    (m.id, { studentId := studentId, name := m.name.map cString, age := m.age, classId := m.classId })

def ofEntry (e : Int64 × StudentRow) : StudentDBModel where
  id := some e.1
  studentId := some e.2.studentId
  name := e.2.name
  age := e.2.age
  classId := e.2.classId

end StudentDBModel

namespace ScoreDBModel

def entry (m : ScoreDBModel) : Option Int64 × ScoreRow :=
  (m.identifier, { stuId := m.stuId, score := WCDB.bindRealIfPresent m.score })

def ofEntry (e : Int64 × ScoreRow) : ScoreDBModel where
  identifier := some e.1
  stuId := e.2.stuId
  score := e.2.score

end ScoreDBModel

namespace StudentDBWorker

/-! ### Adding and counting -/

def getStuCount (fault : Bool) (students : Students) : Option Int64 :=
  if fault then none else some (Int64.ofNat students.entries.length)

def addStus (fault : Bool) (stus : List StudentDBModel) (students : Students) : Bool × Students :=
  WCDB.report students (WCDB.insertOrReplaceRows StudentDBModel.entry? fault stus students)

def addScore (fault : Bool) (list : List ScoreDBModel) (scores : Scores) : Bool × Scores :=
  WCDB.report scores (WCDB.insertOrReplaceRows (fun m => some m.entry) fault list scores)

/-! ### Joins by SQL -/

/-- What is printed of a score and its student. -/
structure Line where
  score : Double
  identifier : Int64
  name : String
  studentId : Int64
  deriving DecidableEq

/-- The columns of a joined row, NULL being read as 0 or as the empty string. -/
def rowLine (sc : Int64 × ScoreRow) (st : Int64 × StudentRow) : Line where
  score := sc.2.score.getD .zero
  identifier := sc.1
  name := st.2.name.getD ""
  studentId := st.2.studentId

/-- `Score_Table JOIN Students on Score_Table.stuId=Students.studentId`. -/
def joined (students : Students) (scores : Scores) : List ((Int64 × ScoreRow) × (Int64 × StudentRow)) :=
  Sqlite.joinOn (fun sc st => Sqlite.sqlEq sc.2.stuId (some st.2.studentId)) scores.entries students.entries

def selectJoinOn1 (students : Students) (scores : Scores) : List Line :=
  (joined students scores).map fun r => rowLine r.1 r.2

def selectJoinOn2 (students : Students) (scores : Scores) : List Line :=
  ((joined students scores).filter fun r => Sqlite.sqlEq r.1.2.stuId (some 345)).map fun r => rowLine r.1 r.2

/-! ### Joins in memory -/

/-- `getObjects` of the scores, all or those of one student. -/
def getScores (stuId : Option Int64) (scores : Scores) : List ScoreDBModel :=
  (scores.entries.filter fun e => stuId.elim true fun id => Sqlite.sqlEq e.2.stuId (some id)).map ScoreDBModel.ofEntry

/-- `getObjects` of the students with `studentId` in a list. -/
def getStudents (ids : List Int64) (students : Students) : List StudentDBModel :=
  (students.entries.filter fun e => e.2.studentId ∈ ids).map StudentDBModel.ofEntry

/-- The line that is printed of two objects. -/
def objectLine (score : ScoreDBModel) (stu : StudentDBModel) : Line where
  score := score.score.getD .zero
  identifier := score.identifier.getD 0
  name := stu.name.getD ""
  studentId := stu.studentId.getD 0

/-- The scores' students are looked up in a dictionary. -/
def joinObjects (stuId : Option Int64) (students : Students) (scores : Scores) : List Line :=
  let scoreList := getScores stuId scores
  let stuIds := scoreList.map fun score => score.stuId.getD 0
  let students := getStudents stuIds students
  let studentsDict : KeyMap Int64 StudentDBModel (.ofDecidableEq Int64) :=
    .ofList (students.map fun stu => (stu.studentId.getD 0, stu))
  let unionList := scoreList.filterMap fun score =>
    (studentsDict.get (score.stuId.getD 0)).map fun stu => (score, stu)
  unionList.map fun item => objectLine item.1 item.2

def selectJoinOn4 : Students → Scores → List Line := joinObjects none

def selectJoinOn5 : Students → Scores → List Line := joinObjects (some 345)

/-! ### Where the joins agree -/

/-- The students with a `studentId`. -/
def withId (k : Int64) (students : Students) : List (Int64 × StudentRow) :=
  students.entries.filter fun e => e.2.studentId = k

/-- The lines that SQL and the dictionary make of one score. -/
def sqlLines (students : Students) (sc : Int64 × ScoreRow) : List Line :=
  (students.entries.filter fun st => Sqlite.sqlEq sc.2.stuId (some st.2.studentId)).map (rowLine sc)

def objectLines (students : Students) (sc : Int64 × ScoreRow) : List Line :=
  ((withId (sc.2.stuId.getD 0) students).getLast?.toList).map (rowLine sc)

/-- The scores that a query reads. -/
def queried (stuId : Option Int64) (scores : Scores) : List (Int64 × ScoreRow) :=
  scores.entries.filter fun e => stuId.elim true fun id => Sqlite.sqlEq e.2.stuId (some id)

/-- A looked up student is the last one with the `studentId`. -/
theorem get_studentsDict {ids : List Int64} {k : Int64} (hk : k ∈ ids) (students : Students) :
    (KeyMap.ofList ((getStudents ids students).map fun stu => (stu.studentId.getD 0, stu)) :
      KeyMap Int64 StudentDBModel (.ofDecidableEq Int64)).get k =
      (withId k students).getLast?.map StudentDBModel.ofEntry := by
  have hfilter : ((getStudents ids students).map fun stu => (stu.studentId.getD 0, stu)).filter
      (fun e => (KeyEq.ofDecidableEq Int64).eqv e.1 k) =
      (withId k students).map fun e => (e.2.studentId, StudentDBModel.ofEntry e) := by
    rw [getStudents, List.map_map, List.filter_map, List.filter_filter, withId]
    congr 1
    refine List.filter_congr fun e _ => ?_
    by_cases he : e.2.studentId = k
    · simp [StudentDBModel.ofEntry, he, hk]
    · simp [StudentDBModel.ofEntry, he]
  rw [KeyMap.get_ofList, hfilter, List.getLast?_map, Option.map_map]
  rfl

theorem joinObjects_eq (stuId : Option Int64) (students : Students) (scores : Scores) :
    joinObjects stuId students scores = (queried stuId scores).flatMap (objectLines students) := by
  rw [joinObjects, List.map_filterMap, getScores, ← queried, List.filterMap_map, List.filterMap_eq_flatMap_toList]
  refine List.flatMap_congr fun sc hsc => ?_
  have hmem : sc.2.stuId.getD 0 ∈ ((queried stuId scores).map ScoreDBModel.ofEntry).map fun score => score.stuId.getD 0 :=
    List.mem_map.mpr ⟨_, List.mem_map_of_mem hsc, rfl⟩
  rw [Function.comp_apply, objectLines]
  rw [show (ScoreDBModel.ofEntry sc).stuId = sc.2.stuId from rfl, get_studentsDict hmem]
  cases (withId (sc.2.stuId.getD 0) students).getLast? <;> rfl

/-- The lines of a join in SQL. -/
theorem map_joined (students : Students) (left : List (Int64 × ScoreRow)) :
    ((Sqlite.joinOn (fun sc st => Sqlite.sqlEq sc.2.stuId (some st.2.studentId)) left students.entries).map fun r =>
      rowLine r.1 r.2) = left.flatMap (sqlLines students) := by
  rw [Sqlite.joinOn, List.map_flatMap]
  exact List.flatMap_congr fun sc _ => List.map_map

theorem selectJoinOn1_eq (students : Students) (scores : Scores) :
    selectJoinOn1 students scores = (queried none scores).flatMap (sqlLines students) := by
  have hall : queried none scores = scores.entries := List.filter_eq_self.mpr fun _ _ => rfl
  rw [selectJoinOn1, joined, map_joined, hall]

theorem selectJoinOn2_eq (students : Students) (scores : Scores) :
    selectJoinOn2 students scores = (queried (some 345) scores).flatMap (sqlLines students) := by
  rw [selectJoinOn2, joined, Sqlite.filter_joinOn _ fun sc : Int64 × ScoreRow => Sqlite.sqlEq sc.2.stuId (some 345),
    map_joined]
  rfl

/-- Both make lines of a score that show its identifier. -/
theorem lines_perm_iff (stuId : Option Int64) (students : Students) (scores : Scores) :
    ((queried stuId scores).flatMap (objectLines students)).Perm ((queried stuId scores).flatMap (sqlLines students)) ↔
      ∀ sc ∈ queried stuId scores, (objectLines students sc).Perm (sqlLines students sc) := by
  have hnodup : ((queried stuId scores).map Prod.fst).Nodup :=
    scores.nodup_ids.sublist (List.filter_sublist.map Prod.fst)
  refine Sqlite.flatMap_perm_iff Prod.fst Line.identifier hnodup (fun sc _ line hline => ?_) fun sc _ line hline => ?_
  · obtain ⟨st, _, rfl⟩ := List.mem_map.mp hline
    rfl
  · obtain ⟨st, _, rfl⟩ := List.mem_map.mp hline
    rfl

/-- The dictionary has one student for a `studentId`, and one for NULL if there is a
student 0. -/
theorem objectLines_perm_iff (students : Students) (sc : Int64 × ScoreRow) :
    (objectLines students sc).Perm (sqlLines students sc) ↔
      (∀ k ∈ sc.2.stuId, (withId k students).length ≤ 1) ∧ (sc.2.stuId = none → withId 0 students = []) := by
  obtain ⟨id, stuId, score⟩ := sc
  cases stuId with
  | none =>
    have hsql : sqlLines students (id, ⟨none, score⟩) = [] :=
      List.map_eq_nil_iff.mpr (List.filter_eq_nil_iff.mpr fun _ _ => Bool.false_ne_true)
    rw [hsql, List.perm_nil]
    simp [objectLines, Option.toList_eq_nil_iff]
  | some k =>
    have hsql : sqlLines students (id, ⟨some k, score⟩) = (withId k students).map (rowLine (id, ⟨some k, score⟩)) := by
      rw [sqlLines, withId]
      congr 1
      refine List.filter_congr fun st _ => ?_
      simp [Sqlite.sqlEq, eq_comm]
    rw [hsql, objectLines]
    constructor
    · intro h
      have hlen := h.length_eq
      rw [List.length_map, List.length_map] at hlen
      refine ⟨fun k' hk' => ?_, fun h => nomatch h⟩
      obtain rfl := Option.some.inj hk'
      rw [← hlen]
      exact Option.length_toList_le
    · rintro ⟨hunique, _⟩
      exact ((Sqlite.getLast?_perm_iff _).mpr (hunique k rfl)).map _

/-- A score refers to at most one student, or to none and there is no student 0. -/
theorem joinObjects_perm_iff (stuId : Option Int64) (students : Students) (scores : Scores) :
    (joinObjects stuId students scores).Perm ((queried stuId scores).flatMap (sqlLines students)) ↔
      ∀ sc ∈ queried stuId scores,
        (∀ k ∈ sc.2.stuId, (withId k students).length ≤ 1) ∧ (sc.2.stuId = none → withId 0 students = []) := by
  rw [joinObjects_eq, lines_perm_iff]
  exact forall₂_congr fun sc _ => objectLines_perm_iff students sc

/-- The join in memory prints the lines of the SQL join exactly if no score refers to
several students with the same `studentId`, and no student is 0 where a score has NULL;
with the condition on 345, exactly if a score of 345 refers to at most one student. -/
theorem selectJoin_perm_iff (students : Students) (scores : Scores) :
    ((selectJoinOn4 students scores).Perm (selectJoinOn1 students scores) ↔
      ∀ sc ∈ scores.entries,
        (∀ k ∈ sc.2.stuId, (withId k students).length ≤ 1) ∧ (sc.2.stuId = none → withId 0 students = [])) ∧
    ((selectJoinOn5 students scores).Perm (selectJoinOn2 students scores) ↔
      ∀ sc ∈ scores.entries, sc.2.stuId = some 345 → (withId 345 students).length ≤ 1) := by
  constructor
  · have hall : queried none scores = scores.entries := List.filter_eq_self.mpr fun _ _ => rfl
    rw [selectJoinOn1_eq, selectJoinOn4, joinObjects_perm_iff, hall]
  · rw [selectJoinOn2_eq, selectJoinOn5, joinObjects_perm_iff]
    have hmem : ∀ sc, sc ∈ queried (some 345) scores ↔ sc ∈ scores.entries ∧ sc.2.stuId = some 345 := fun sc => by
      rw [queried, List.mem_filter]
      refine and_congr_right fun _ => ?_
      cases sc.2.stuId <;> simp [Sqlite.sqlEq]
    constructor
    · exact fun h sc hsc hid => (h sc ((hmem sc).mpr ⟨hsc, hid⟩)).1 345 hid
    · intro h sc hsc
      obtain ⟨hsc, hid⟩ := (hmem sc).mp hsc
      refine ⟨fun k hk => ?_, fun hnone => ?_⟩
      · rw [hid] at hk
        obtain rfl := Option.some.inj hk
        exact h sc hsc hid
      · rw [hid] at hnone
        cases hnone

/-- A score without a student is joined to the student 0 in memory only. -/
theorem null_joins_student_zero :
    let students : Students := ⟨[(1, ⟨0, some "n", none, none⟩)], List.pairwise_singleton _ _, by decide⟩
    let scores : Scores := ⟨[(1, ⟨none, none⟩)], List.pairwise_singleton _ _, by decide⟩
    ¬(selectJoinOn4 students scores).Perm (selectJoinOn1 students scores) := by
  decide

end StudentDBWorker

end StudyDB
