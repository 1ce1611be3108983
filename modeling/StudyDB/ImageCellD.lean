/-! The cell that reports which row a gesture was made on. A cell is reused at any
moment, also between the steps of a touch; it takes the row's text when the touch ends.
Proved: in every run of events in their order, the first callback of a touch reports the
text that was displayed when the touch began exactly if it is a tap and the cell
displayed the same text when the touch ended; a long press reports nil. -/

namespace StudyDB

structure ImageCellD where
  data : Option String := none
  touchData : Option String := none
  /-- `descLabel.text`, which the cell displays. -/
  descLabelText : Option String := none

namespace ImageCellD

/-! ### The handlers -/

/-- What happens to a cell, with the time where the handler prints it. -/
inductive Event where
  | updateData (text : String)
  | touchesBegan (now : String)
  | touchesEnded (now : String)
  | containerTapClick (now : String)
  | containerDoubleTapClick (now : String)
  | containerLongPress (now : String)

section Handlers
variable (selfCell : String)

/-- The line that is printed, and the cell afterwards. -/
def updateData (text : String) (c : ImageCellD) : String × ImageCellD :=
  (selfCell ++ " old: " ++ c.data.getD "" ++ " new:" ++ text, { c with data := some text, descLabelText := some text })

def touchesBegan (now : String) (c : ImageCellD) : String × ImageCellD :=
  (selfCell ++ " " ++ now ++ " touchesBegan: " ++ c.data.getD "", { c with touchData := none })

def touchesEnded (now : String) (c : ImageCellD) : String × ImageCellD :=
  (selfCell ++ " " ++ now ++ " touchesEnded: " ++ c.data.getD "", { c with touchData := c.data })

/-- A recogniser's callback reports the touch data and clears it. -/
def callback (name now : String) (c : ImageCellD) : String × ImageCellD :=
  (selfCell ++ " " ++ now ++ " " ++ name ++ ": touchData:" ++ c.touchData.getD "" ++ " data:" ++ c.data.getD "",
    { c with touchData := none })

def containerTapClick : String → ImageCellD → String × ImageCellD := callback selfCell "containerTapClick"

def containerDoubleTapClick : String → ImageCellD → String × ImageCellD := callback selfCell "containerDoubleTapClick"

def containerLongPress : String → ImageCellD → String × ImageCellD := callback selfCell "containerLongPress"

def handle : Event → ImageCellD → String × ImageCellD
  | .updateData text => updateData selfCell text
  | .touchesBegan now => touchesBegan selfCell now
  | .touchesEnded now => touchesEnded selfCell now
  | .containerTapClick now => containerTapClick selfCell now
  | .containerDoubleTapClick now => containerDoubleTapClick selfCell now
  | .containerLongPress now => containerLongPress selfCell now

end Handlers

/-! ### Touches

What an observer of the events knows of the last touch: which texts were displayed when
it began and when it ended, and whether a callback was made for it. -/

inductive Touch where
  | idle
  | down (began : Option String) (fired : Bool)
  | ended (began atEnd : Option String) (fired : Bool)

namespace Touch

/-- The order of events: a touch ends while it is down, a long press is recognised while
it is down, and a tap after it ended. -/
def Allows : Touch → Event → Prop
  | down _ _, .touchesEnded _ => True
  | down _ _, .containerLongPress _ => True
  | ended _ _ _, .containerTapClick _ => True
  | ended _ _ _, .containerDoubleTapClick _ => True
  | _, .updateData _ => True
  | _, .touchesBegan _ => True
  | _, _ => False

/-- The touch after an event, given what the cell displays. -/
def next (displayed : Option String) : Touch → Event → Touch
  | _, .touchesBegan _ => down displayed false
  | down began fired, .touchesEnded _ => ended began displayed fired
  | down began _, .containerLongPress _ => down began true
  | ended began atEnd _, .containerTapClick _ => ended began atEnd true
  | ended began atEnd _, .containerDoubleTapClick _ => ended began atEnd true
  | t, _ => t

/-- No callback was made for the touch. -/
def Unfired : Touch → Prop
  | idle => True
  | down _ fired => fired = false
  | ended _ _ fired => fired = false

/-- The text that was displayed when the touch began. -/
def textAtBegin : Touch → Option String
  | idle => none
  | down began _ => began
  | ended began _ _ => began

/-- The touch is over, and the cell displayed one text when it began and when it ended. -/
def Kept : Touch → Prop
  | ended began atEnd _ => began ≠ none ∧ atEnd = began
  | _ => False

end Touch

/-- One of the three recognisers calls back. -/
def Event.IsCallback : Event → Prop
  | .containerTapClick _ | .containerDoubleTapClick _ | .containerLongPress _ => True
  | _ => False

/-! ### Runs -/

/-- A cell under observation. -/
structure Watched where
  cell : ImageCellD := {}
  touch : Touch := .idle

namespace Watched
variable (selfCell : String)

def next (w : Watched) (e : Event) : Watched where
  cell := (handle selfCell e w.cell).2
  touch := w.touch.next w.cell.descLabelText e

def run (events : List Event) (w : Watched) : Watched := events.foldl (next selfCell) w

/-- The events come in their order. -/
def InOrder : List Event → Watched → Prop
  | [], _ => True
  | e :: events, w => w.touch.Allows e ∧ InOrder events (w.next selfCell e)

/-- What holds of each callback that is the first one for its touch, and of the cell before it. -/
def AtFirstCallbacks (P : Event → Watched → Prop) (events : List Event) : Prop :=
  ∀ pre e, pre ++ [e] <+: events → e.IsCallback → (run selfCell pre {}).touch.Unfired → P e (run selfCell pre {})

/-- The line that the event prints reports a text as the touch data. -/
def Reports (text : String) (e : Event) (c : ImageCellD) : Prop :=
  ∃ now name, (handle selfCell e c).1 =
    selfCell ++ " " ++ now ++ " " ++ name ++ ": touchData:" ++ text ++ " data:" ++ c.data.getD ""

/-- The touch data that is reported is the text that was displayed when the touch began. -/
def Attributed (e : Event) (w : Watched) : Prop :=
  ∃ text, w.cell.touchData = some text ∧ w.touch.textAtBegin = some text ∧ Reports selfCell text e w.cell

@[simp] theorem run_nil (w : Watched) : run selfCell [] w = w := rfl

@[simp] theorem run_cons (e : Event) (events : List Event) (w : Watched) :
    run selfCell (e :: events) w = run selfCell events (w.next selfCell e) := rfl

theorem inOrder_append (pre post : List Event) (w : Watched) :
    InOrder selfCell (pre ++ post) w ↔ InOrder selfCell pre w ∧ InOrder selfCell post (run selfCell pre w) := by
  induction pre generalizing w with
  | nil => simp [InOrder]
  | cons e pre ih => rw [List.cons_append, InOrder, InOrder, ih, run_cons, and_assoc]

/-! ### The touch data -/

/-- Until the callback, a cell holds nil while it is touched, and then the text that it
displayed when the touch ended. -/
structure Invariant (w : Watched) : Prop where
  data_eq : w.cell.data = w.cell.descLabelText
  down : ∀ began fired, w.touch = .down began fired → w.cell.touchData = none
  ended : ∀ began atEnd, w.touch = .ended began atEnd false → w.cell.touchData = atEnd

theorem invariant_init : Invariant {} := ⟨rfl, nofun, nofun⟩

variable {selfCell}

theorem Invariant.next {w : Watched} {e : Event} (h : w.Invariant) (he : w.touch.Allows e) :
    (w.next selfCell e).Invariant := by
  obtain ⟨hdata, hdown, hended⟩ := h
  cases e with
  | updateData text => exact ⟨rfl, hdown, hended⟩
  | touchesBegan now => exact ⟨hdata, fun _ _ _ => rfl, nofun⟩
  | touchesEnded now =>
    obtain ⟨cell, _ | ⟨began, fired⟩ | ⟨began, atEnd, fired⟩⟩ := w
    · exact he.elim
    · refine ⟨hdata, nofun, fun _ _ htouch => ?_⟩
      cases htouch
      exact hdata
    · exact he.elim
  | containerTapClick now =>
    obtain ⟨cell, _ | ⟨began, fired⟩ | ⟨began, atEnd, fired⟩⟩ := w
    · exact he.elim
    · exact he.elim
    · exact ⟨hdata, nofun, nofun⟩
  | containerDoubleTapClick now =>
    obtain ⟨cell, _ | ⟨began, fired⟩ | ⟨began, atEnd, fired⟩⟩ := w
    · exact he.elim
    · exact he.elim
    · exact ⟨hdata, nofun, nofun⟩
  | containerLongPress now =>
    obtain ⟨cell, _ | ⟨began, fired⟩ | ⟨began, atEnd, fired⟩⟩ := w
    · exact he.elim
    · exact ⟨hdata, fun _ _ _ => rfl, nofun⟩
    · exact he.elim

theorem Invariant.run {w : Watched} {events : List Event} (h : w.Invariant) (hevents : InOrder selfCell events w) :
    (run selfCell events w).Invariant := by
  induction events generalizing w with
  | nil => exact h
  | cons e events ih => exact ih (h.next hevents.1) hevents.2

/-- While the touch is down, where a long press is recognised, there is no touch data. -/
theorem Invariant.touchData_eq_none {w : Watched} {now : String} (h : w.Invariant)
    (he : w.touch.Allows (.containerLongPress now)) : w.cell.touchData = none := by
  obtain ⟨cell, _ | ⟨began, fired⟩ | ⟨began, atEnd, fired⟩⟩ := w
  · exact he.elim
  · exact h.down began fired rfl
  · exact he.elim

/-- A callback prints the touch data. -/
theorem reports_touchData {c : ImageCellD} {e : Event} (hcallback : e.IsCallback) {text : String}
    (h : c.touchData = some text) : Reports selfCell text e c := by
  cases e with
  | containerTapClick now => exact ⟨now, "containerTapClick", by simp [handle, containerTapClick, callback, h]⟩
  | containerDoubleTapClick now =>
    exact ⟨now, "containerDoubleTapClick", by simp [handle, containerDoubleTapClick, callback, h]⟩
  | containerLongPress now => exact ⟨now, "containerLongPress", by simp [handle, containerLongPress, callback, h]⟩
  | _ => exact hcallback.elim

/-- The first callback of a touch. -/
theorem Invariant.attributed_iff {w : Watched} {e : Event} (h : w.Invariant) (he : w.touch.Allows e)
    (hcallback : e.IsCallback) (hfirst : w.touch.Unfired) : Attributed selfCell e w ↔ w.touch.Kept := by
  obtain ⟨cell, _ | ⟨began, fired⟩ | ⟨began, atEnd, fired⟩⟩ := w
  case idle => cases e <;> first | exact hcallback.elim | exact he.elim
  case down =>
    have hnil : cell.touchData = none := h.down began fired rfl
    refine iff_of_false ?_ id
    rintro ⟨text, htext, _⟩
    simp [hnil] at htext
  case ended =>
    cases hfirst
    have hatEnd : cell.touchData = atEnd := h.ended began atEnd rfl
    simp only [Attributed, Touch.textAtBegin, Touch.Kept, hatEnd]
    constructor
    · rintro ⟨text, rfl, rfl, _⟩
      exact ⟨nofun, rfl⟩
    · rintro ⟨hbegan, rfl⟩
      obtain ⟨text, rfl⟩ := Option.ne_none_iff_exists'.mp hbegan
      exact ⟨text, rfl, rfl, reports_touchData hcallback hatEnd⟩

/-- In every run, the first callbacks all report the text that was displayed when their
touch began exactly if each is made after a touch at whose end the cell displayed the
text that it displayed at its beginning. -/
theorem attributed_iff_kept {events : List Event} (h : InOrder selfCell events {}) :
    AtFirstCallbacks selfCell (Attributed selfCell) events ↔
      AtFirstCallbacks selfCell (fun _ w => w.touch.Kept) events := by
  refine forall₅_congr fun pre e hprefix hcallback hfirst => ?_
  obtain ⟨post, rfl⟩ := hprefix
  rw [inOrder_append, inOrder_append] at h
  exact (invariant_init.run h.1.1).attributed_iff h.1.2.1 hcallback hfirst

theorem attributed_iff_kept_tap :
    let events := [.updateData "a", .touchesBegan "1", .updateData "b", .touchesEnded "2", .containerTapClick "3"]
    AtFirstCallbacks "cell" (Attributed "cell") events ↔ AtFirstCallbacks "cell" (fun _ w => w.touch.Kept) events :=
  attributed_iff_kept ⟨trivial, trivial, trivial, trivial, trivial, trivial⟩

/-- A long press on a cell that is not reused reports nil. -/
theorem longPress_not_attributed :
    let events := [.updateData "a", .touchesBegan "1", .containerLongPress "2"]
    InOrder "cell" events {} ∧ ¬AtFirstCallbacks "cell" (Attributed "cell") events := by
  refine ⟨⟨trivial, trivial, trivial, trivial⟩, fun h => ?_⟩
  obtain ⟨text, htext, _⟩ :=
    h [.updateData "a", .touchesBegan "1"] (.containerLongPress "2") (List.prefix_refl _) trivial rfl
  cases htext

/-- No long press reports a text. -/
theorem touchData_before_longPress {pre : List Event} {now : String}
    (h : InOrder selfCell (pre ++ [.containerLongPress now]) {}) : (run selfCell pre {}).cell.touchData = none := by
  rw [inOrder_append] at h
  exact (invariant_init.run h.1).touchData_eq_none h.2.1

end Watched
end ImageCellD
end StudyDB
