import StudyDB.Data.KeyMap
import StudyDB.WCDB.Value
import Mathlib.Algebra.Order.Ring.Int
import Mathlib.Data.List.Induction

/-! The log of durations, in a debug build: a list of clock readings for each tag, and a
printed line for each call. A call measures from the last or from the first reading of
its tag; the subtraction traps on overflow. Proved: in every run that does not trap the
lists are the readings of the tags' calls and the durations are the differences; a run
traps exactly at a difference that is no Int64. -/

namespace StudyDB.RecordDuration

inductive RecordTimeType where
  | firstTime | preTime

/-- The arguments of a call. -/
structure Call where
  tag : Option String
  logFlag : String := "===>>++>"
  msg : Option String := none
  logType : RecordTimeType := .preTime
  file : String
  function : String
  line : UInt64

def Call.tagStr (c : Call) : String :=
  c.tag.getD (c.file ++ "_" ++ c.function ++ "_" ++ intDescription c.line.toNat)

/-- What a call prints. -/
structure Report where
  tagStr : String
  duration : Int64
  line : String

/-- How often the clock was read, the readings by tag, and what was printed. Tags are
compared as Swift compares strings. -/
structure World (E : KeyEq String) where
  clock : ℕ := 0
  timeRecodDict : KeyMap String (List Int64) E := .empty
  printed : List Report := []

section Code
variable (readings : ℕ → Int64)

def milliseconds_64 (clock : ℕ) : Int64 × ℕ := (readings clock, clock + 1)

/-- The distance and the reading it was taken at; `none` where the subtraction traps. -/
def distanceToNow (self : Int64) (clock : ℕ) : Option ((Int64 × Int64) × ℕ) := do
  let (now, clock) := milliseconds_64 readings clock
  let dis ← int64? (now.toInt - self.toInt)
  return ((dis, now), clock)

/-- The duration since a time of the list, and the list with the new reading. -/
def measure (time : Option Int64) (tagTimeList : List Int64) (clock : ℕ) : Option (Int64 × List Int64 × ℕ) :=
  match time with
  | some time => do
    let ((dis, now), clock) ← distanceToNow readings time clock
    return (dis, tagTimeList ++ [now], clock)
  | none => do
    let (now, clock) := milliseconds_64 readings clock
    return (0, tagTimeList ++ [now], clock)

def Call.text (c : Call) (duration : Int64) : String :=
  match c.msg with
  | some msg =>
    if msg ≠ "" then
      c.logFlag ++ " " ++ c.tagStr ++ " " ++ msg ++ " dis:" ++ intDescription duration.toInt
    else c.logFlag ++ " " ++ c.tagStr ++ " dis:" ++ intDescription duration.toInt
  | none => c.logFlag ++ " " ++ c.tagStr ++ " dis:" ++ intDescription duration.toInt

variable {E : KeyEq String}

def log (w : World E) (c : Call) : Option (World E) := do
  let tagStr := c.tagStr
  let tagTimeList := (w.timeRecodDict.get tagStr).getD []
  let (duration, tagTimeList, clock) ←
    match c.logType with
    | .preTime => measure readings tagTimeList.getLast? tagTimeList w.clock
    | .firstTime => measure readings tagTimeList.head? tagTimeList w.clock
  return {
    clock
    timeRecodDict := w.timeRecodDict.set tagStr tagTimeList
    printed := w.printed ++ [⟨tagStr, duration, c.text duration⟩] }

def run (calls : List Call) (w : World E) : Option (World E) := calls.foldlM (log readings) w

end Code

/-! ### What a call measures -/

/-- The reading that a call measures from. -/
def RecordTimeType.reference : RecordTimeType → List Int64 → Option Int64
  | .preTime, previous => previous.getLast?
  | .firstTime, previous => previous.head?

/-- The exact difference between a call's reading and the one it measures from, 0 if
there is none. -/
def difference (logType : RecordTimeType) (previous : List Int64) (now : Int64) : ℤ :=
  match logType.reference previous with
  | some time => now.toInt - time.toInt
  | none => 0

/-- The time from the first to the last of the readings. -/
def elapsed (times : List Int64) : ℤ :=
  match times.head?, times.getLast? with
  | some first, some last => last.toInt - first.toInt
  | _, _ => 0

theorem difference_firstTime (previous : List Int64) (now : Int64) :
    difference .firstTime previous now = elapsed (previous ++ [now]) := by
  cases previous with
  | nil => simp [difference, RecordTimeType.reference, elapsed]
  | cons first previous =>
    rw [elapsed, List.getLast?_append]
    rfl

/-- Measuring from the last reading each time adds up. -/
theorem elapsed_concat (previous : List Int64) (now : Int64) :
    elapsed (previous ++ [now]) = elapsed previous + difference .preTime previous now := by
  rw [← difference_firstTime]
  cases previous with
  | nil => rfl
  | cons first previous =>
    simp only [difference, RecordTimeType.reference, elapsed, List.head?_cons, List.getLast?_cons]
    omega

/-- What preTime measures at each of the readings of a tag, whatever the types of its calls. -/
def preTimeDifferences (times : List Int64) : List ℤ :=
  times.zipIdx.map fun e => difference .preTime (times.take e.2) e.1

theorem preTimeDifferences_concat (previous : List Int64) (now : Int64) :
    preTimeDifferences (previous ++ [now]) = preTimeDifferences previous ++ [difference .preTime previous now] := by
  have hprevious : (previous.zipIdx.map fun e => difference .preTime ((previous ++ [now]).take e.2) e.1) =
      preTimeDifferences previous := by
    refine List.map_congr_left fun e he => ?_
    have hlt : e.2 < previous.length := by simpa using (List.mem_zipIdx he).2.1
    rw [List.take_append_of_le_length hlt.le]
  rw [preTimeDifferences, List.zipIdx_append, List.map_append, hprevious]
  simp

theorem sum_preTimeDifferences (times : List Int64) : (preTimeDifferences times).sum = elapsed times := by
  induction times using List.reverseRecOn with
  | nil => rfl
  | append_singleton previous now ih =>
    rw [preTimeDifferences_concat, List.sum_append, ih, List.sum_singleton, elapsed_concat]

section Step
variable {E : KeyEq String} (readings : ℕ → Int64)

theorem measure_eq (logType : RecordTimeType) (previous : List Int64) (clock : ℕ) :
    measure readings (logType.reference previous) previous clock =
      (int64? (difference logType previous (readings clock))).map fun duration =>
        (duration, previous ++ [readings clock], clock + 1) := by
  unfold difference measure
  cases logType.reference previous with
  | none => rfl
  | some time =>
    cases h : int64? ((readings clock).toInt - time.toInt) with
    | none => simp [distanceToNow, milliseconds_64, h]
    | some dis => simp [distanceToNow, milliseconds_64, h]

/-- A call reads the clock once, appends the reading to its tag's list and prints the
difference; it traps if that is no Int64. -/
theorem log_eq (w : World E) (c : Call) :
    log readings w c =
      (int64? (difference c.logType ((w.timeRecodDict.get c.tagStr).getD []) (readings w.clock))).map fun duration =>
        { clock := w.clock + 1
          timeRecodDict := w.timeRecodDict.set c.tagStr
            ((w.timeRecodDict.get c.tagStr).getD [] ++ [readings w.clock])
          printed := w.printed ++ [⟨c.tagStr, duration, c.text duration⟩] } := by
  have hlog : log readings w c =
      (measure readings (c.logType.reference ((w.timeRecodDict.get c.tagStr).getD []))
        ((w.timeRecodDict.get c.tagStr).getD []) w.clock).bind fun m =>
          some {
            clock := m.2.2
            timeRecodDict := w.timeRecodDict.set c.tagStr m.2.1
            printed := w.printed ++ [⟨c.tagStr, m.1, c.text m.1⟩] } := by
    unfold log
    cases c.logType <;> rfl
  rw [hlog, measure_eq, Option.bind_map, Option.map_eq_bind]
  rfl

end Step

/-! ### Runs -/

section Runs
variable {E : KeyEq String} (readings : ℕ → Int64)

theorem run_concat (calls : List Call) (c : Call) (w : World E) :
    run readings (calls ++ [c]) w = (run readings calls w).bind fun w' => log readings w' c := by
  simp [run, List.foldlM_append]

/-- The readings taken by the calls for a tag, in the order of the calls. -/
def taken (E : KeyEq String) (tag : String) (calls : List Call) : List Int64 :=
  (calls.zipIdx.filter fun e => E.eqv e.1.tagStr tag).map fun e => readings e.2

theorem taken_concat (tag : String) (calls : List Call) (c : Call) :
    taken readings E tag (calls ++ [c]) =
      if E.eqv c.tagStr tag then taken readings E tag calls ++ [readings calls.length]
      else taken readings E tag calls := by
  rw [taken, List.zipIdx_append, List.filter_append, List.map_append]
  cases h : E.eqv c.tagStr tag <;> simp [taken, h]

/-- Tags that compare equal have one list. -/
theorem taken_congr {a b : String} (h : E.eqv a b = true) (calls : List Call) :
    taken readings E a calls = taken readings E b calls := by
  rw [taken, taken]
  congr 2
  funext e
  rw [E.comm, E.congr_left h, E.comm]

/-- The durations that were printed for a tag. -/
def durationsFor (E : KeyEq String) (tag : String) (reports : List Report) : List ℤ :=
  (reports.filter fun report => E.eqv report.tagStr tag).map fun report => report.duration.toInt

/-- A call of a sequence is the last one or comes before it. -/
theorem concat_prefix_concat_iff {calls pre : List Call} {c c' : Call} :
    pre ++ [c'] <+: calls ++ [c] ↔ (pre = calls ∧ c' = c) ∨ pre ++ [c'] <+: calls := by
  rw [List.prefix_concat_iff]
  refine or_congr_left ⟨fun h => ?_, fun ⟨hpre, hc⟩ => by rw [hpre, hc]⟩
  obtain ⟨hpre, hc⟩ := List.append_inj' h rfl
  exact ⟨hpre, List.singleton_inj.mp hc⟩

/-- What a run of calls leaves behind. -/
structure Recorded (calls : List Call) (w : World E) : Prop where
  clock : w.clock = calls.length
  timeRecodDict : ∀ tag, (w.timeRecodDict.get tag).getD [] = taken readings E tag calls
  printed : w.printed.length = calls.length
  duration : ∀ pre c, pre ++ [c] <+: calls → ∃ report, w.printed[pre.length]? = some report ∧
    report.tagStr = c.tagStr ∧
    report.duration.toInt = difference c.logType (taken readings E c.tagStr pre) (readings pre.length) ∧
    report.line = c.text report.duration
  elapsed : ∀ tag, (∀ c ∈ calls, E.eqv c.tagStr tag = true → c.logType = .preTime) →
    (durationsFor E tag w.printed).sum = elapsed (taken readings E tag calls)

/-- Some call's difference is no Int64. -/
def Overflows (E : KeyEq String) (calls : List Call) : Prop :=
  ∃ pre c, pre ++ [c] <+: calls ∧
    int64? (difference c.logType (taken readings E c.tagStr pre) (readings pre.length)) = none

variable {readings}

theorem Recorded.init : Recorded readings [] ({} : World E) where
  clock := rfl
  timeRecodDict _ := rfl
  printed := rfl
  duration pre c h := absurd (List.prefix_nil.mp h) (by simp)
  elapsed _ _ := rfl

namespace Recorded
variable {calls : List Call} {c : Call} {w w' : World E}

theorem log_eq (h : Recorded readings calls w) :
    log readings w c =
      (int64? (difference c.logType (taken readings E c.tagStr calls) (readings calls.length))).map fun duration =>
        { clock := calls.length + 1
          timeRecodDict := w.timeRecodDict.set c.tagStr (taken readings E c.tagStr calls ++ [readings calls.length])
          printed := w.printed ++ [⟨c.tagStr, duration, c.text duration⟩] } := by
  rw [RecordDuration.log_eq, h.clock, h.timeRecodDict]

theorem log (h : Recorded readings calls w) (hlog : RecordDuration.log readings w c = some w') :
    Recorded readings (calls ++ [c]) w' := by
  rw [h.log_eq] at hlog
  obtain ⟨duration, hduration, rfl⟩ := Option.map_eq_some_iff.mp hlog
  have hexact := toInt_of_int64? hduration
  refine ⟨?clock, ?timeRecodDict, ?printed, ?duration, ?elapsed⟩
  case clock => simp
  case timeRecodDict =>
    intro tag
    rw [KeyMap.get_set, taken_concat]
    by_cases htag : E.eqv c.tagStr tag = true
    · rw [if_pos htag, if_pos htag, Option.getD_some, taken_congr readings htag]
    · rw [if_neg htag, if_neg htag, h.timeRecodDict]
  case printed => simp [h.printed]
  case duration =>
    intro pre c' hpre
    rcases concat_prefix_concat_iff.mp hpre with ⟨rfl, rfl⟩ | hpre
    · exact ⟨⟨c'.tagStr, duration, c'.text duration⟩, by simp [← h.printed], rfl, hexact, rfl⟩
    · obtain ⟨report, hreport, hspec⟩ := h.duration pre c' hpre
      have hlt : pre.length < w.printed.length := (List.getElem?_eq_some_iff.mp hreport).1
      exact ⟨report, (List.getElem?_append_left hlt).trans hreport, hspec⟩
  case elapsed =>
    intro tag htag
    have hold := h.elapsed tag fun c' hc' => htag c' (List.mem_append_left _ hc')
    rw [durationsFor, List.filter_append, List.map_append, List.sum_append, ← durationsFor, hold, taken_concat]
    by_cases hc : E.eqv c.tagStr tag = true
    · have htype : c.logType = .preTime := htag c (by simp) hc
      rw [htype, taken_congr readings hc] at hexact
      rw [if_pos hc, elapsed_concat, ← hexact]
      simp [hc]
    · simp [hc]

/-- A run that does not trap leaves behind what its calls recorded. -/
theorem run {w : World E} (h : RecordDuration.run readings calls {} = some w) : Recorded readings calls w := by
  induction calls using List.reverseRecOn generalizing w with
  | nil =>
    cases h
    exact .init
  | append_singleton calls c ih =>
    rw [run_concat] at h
    obtain ⟨w', hw', hlog⟩ := Option.bind_eq_some_iff.mp h
    exact (ih hw').log hlog

end Recorded

/-- A run traps exactly at a difference that is no Int64. -/
theorem run_eq_none_iff (calls : List Call) :
    run readings calls ({} : World E) = none ↔ Overflows readings E calls := by
  induction calls using List.reverseRecOn with
  | nil => simp [run, Overflows]
  | append_singleton calls c ih =>
    have hsplit : Overflows readings E (calls ++ [c]) ↔ Overflows readings E calls ∨
        int64? (difference c.logType (taken readings E c.tagStr calls) (readings calls.length)) = none := by
      constructor
      · rintro ⟨pre, c', hpre, hc'⟩
        rcases concat_prefix_concat_iff.mp hpre with ⟨rfl, rfl⟩ | hpre
        · exact .inr hc'
        · exact .inl ⟨pre, c', hpre, hc'⟩
      · rintro (⟨pre, c', hpre, hc'⟩ | hc)
        · exact ⟨pre, c', hpre.trans (List.prefix_append _ _), hc'⟩
        · exact ⟨calls, c, List.prefix_refl _, hc⟩
    rw [run_concat, hsplit, ← ih]
    cases hrun : run readings calls ({} : World E) with
    | none => simp
    | some w => simp [(Recorded.run hrun).log_eq]

/-- Every run of calls that does not trap keeps for each tag the readings of its calls,
and prints a line with the difference for each. What preTime measures at a tag's calls adds up to what
firstTime measures at the last of them, and so do the durations that are printed where
its calls are preTime calls. A run traps exactly if one of the differences is no Int64. -/
theorem run_recorded (E : KeyEq String) (readings : ℕ → Int64) (calls : List Call) :
    (∀ w : World E, run readings calls {} = some w → Recorded readings calls w ∧
      ∀ pre c, pre ++ [c] = calls →
        (preTimeDifferences ((w.timeRecodDict.get c.tagStr).getD [])).sum =
            difference .firstTime (taken readings E c.tagStr pre) (readings pre.length) ∧
          ((∀ c' ∈ calls, E.eqv c'.tagStr c.tagStr = true → c'.logType = .preTime) →
            (durationsFor E c.tagStr w.printed).sum =
              difference .firstTime (taken readings E c.tagStr pre) (readings pre.length))) ∧
      (run readings calls ({} : World E) = none ↔ Overflows readings E calls) := by
  refine ⟨fun w hw => ?_, run_eq_none_iff calls⟩
  have h := Recorded.run hw
  refine ⟨h, fun pre c hpre => ?_⟩
  subst hpre
  have hfirst : elapsed (taken readings E c.tagStr (pre ++ [c])) =
      difference .firstTime (taken readings E c.tagStr pre) (readings pre.length) := by
    rw [taken_concat, if_pos (E.refl _), difference_firstTime]
  refine ⟨?_, fun htag => (h.elapsed c.tagStr htag).trans hfirst⟩
  rw [h.timeRecodDict, sum_preTimeDifferences, hfirst]

/-- Two readings that are too far apart: the second call reports nothing. -/
theorem log_traps :
    let readings : ℕ → Int64 := fun n => if n = 0 then Int64.minValue else 1
    let call : Call := { tag := some "a", file := "f", function := "g", line := 1 }
    ¬∃ w : World (.ofDecidableEq String),
      run readings [call, call] {} = some w ∧ Recorded readings [call, call] w := by
  rintro readings call ⟨w, hw, -⟩
  have htrap : run readings [call, call] ({} : World (.ofDecidableEq String)) = none :=
    (run_eq_none_iff _).mpr ⟨[call], call, List.prefix_refl _, by decide⟩
  rw [htrap] at hw
  cases hw

end Runs
end StudyDB.RecordDuration
