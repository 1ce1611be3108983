import StudyDB.Message.Worker
import StudyDB.Student.Worker
import StudyDB.WebSite.Worker

/-! The view controller's procedures that seed tables: each counts the rows of a table
and inserts if there are none. An insertion may fail. Proved: while students and scores
fail only together, and messages are not added twice, every run in which no insertion
fails leaves its tables with their seeds, and nothing else. -/

namespace StudyDB

open WCDB (TableCodable)

namespace ViewController

/-- The tables that are seeded. -/
structure Tables where
  students : Students
  scores : Scores
  websites : WebSites
  messages : MessageDB

def Tables.empty : Tables := ⟨.empty, .empty, .empty, .empty⟩

/-! ### The seeds -/

def seedStus : List StudentDBModel :=
  [{ studentId := some 21434, name := some "梅梅", age := some 8 },
    { studentId := some 345, name := some "集美", age := some 19 }]

def seedScores : List ScoreDBModel :=
  [{ stuId := some 21434, score := some (.finite (.ofOdd 5 (-4) rfl) (fitsDouble_ofOdd (by decide) (by decide))) },
    { stuId := some 345, score := some (.finite (.ofOdd 65 0 rfl) (fitsDouble_ofOdd (by decide) (by decide))) }]

def seedSite (name url : String) (alexa : Int64) (country : String) : WebSiteDBModel where
  name := some name
  url := some url
  alexa := some alexa
  country := some country
  marks := some ["a", "b"]
  extra := some (.ofList [("name", "a"), ("age", "10")])

def seedSites : List WebSiteDBModel :=
  [seedSite "Google" "https://www.google.cm/" 1 "USA",
    seedSite "淘宝" "https://www.taobao.com/" 13 "CN",
    seedSite "菜鸟教程" "http://www.runoob.com/" 5000 "USA",
    seedSite "微博" "http://weibo.com/" 20 "CN",
    seedSite "Facebook " "https://www.facebook.com/" 3 "USA",
    seedSite "stackoverflow" "http://stackoverflow.com/" 0 "IND",
    seedSite "Github" "http://Github.com/" 20 "USA"]

/-- The numbers that are drawn for one message. -/
structure Draw where
  messageType : Int32
  msgId : Int64
  flag : Int64
  chatType : Int32
  content : Int64
  refMsgId : Int64
  refContent : Int64
  refType : Int32
  refUid : Int64
  refNickname : Int64

def seedMessage (d : Draw) : AnyMessage :=
  let messageType := MessageType.init? d.messageType
  let msg : AnyMessage := match AnyMessage.model messageType with
    | .video msgVal =>
      .video { msgVal with fileSize := 10, fileName := some "fileName-video", url := some "videoUrl" }
    | .image msgVal =>
      .image { msgVal with
        fileSize := 10, fileName := some "fileName-iamge", url := some "imageUrl", width := 100, height := 200
        thumbFileName := some "thumbFile", thumbUrl := some "image-thumUrl" }
    | msg => msg
  let refMsg : RefMessage :=
    { msgId := some d.refMsgId
      content := some ("refMsg content world " ++ intDescription d.refContent.toInt)
      type := MessageType.init? d.refType
      uid := some d.refUid
      nickname := "refMsg nick name " ++ intDescription d.refNickname.toInt }
  msg.setBase { msg.base with
    msgId := some d.msgId
    flag := some d.flag
    chatType := ChatType.init? d.chatType
    messageType := messageType
    content := some ("msg hello " ++ intDescription d.content.toInt)
    refMsg := some refMsg }

def seedMessages (draws : Fin 10 → Draw) : List AnyMessage := (List.ofFn draws).map seedMessage

/-! ### The procedures -/

/-- A run of a procedure, with the failures of its insertions. -/
inductive Procedure where
  | testStuAddData (faultStus faultScore : Bool)
  | testWebSite (fault : Bool)
  | testMessage (draws : Fin 10 → Draw) (fault : Bool)

section Run
variable (serialization coder : JsonCoder)

/-- What the insertions return, and the tables afterwards. -/
def testStuAddData (faultStus faultScore : Bool) (s : Tables) : List Bool × Tables :=
  if StudentDBWorker.getStuCount false s.students = some 0 then
    let (result, students) := StudentDBWorker.addStus faultStus seedStus s.students
    let (result2, scores) := StudentDBWorker.addScore faultScore seedScores s.scores
    ([result, result2], { s with students := students, scores := scores })
  else ([], s)

def testWebSite (fault : Bool) (s : Tables) : List Bool × Tables :=
  if WebSiteDBWorker.getWebSitesCount false s.websites = some 0 then
    let (result, websites) := WebSiteDBWorker.addWebSites coder fault seedSites s.websites
    ([result], { s with websites := websites })
  else ([], s)

/-- The messages are counted in one table and added to another. -/
def testMessage (draws : Fin 10 → Draw) (fault : Bool) (s : Tables) : List Bool × Tables :=
  if MessageDBWorker.getMsgCount2 false s.messages = some 0 then
    let (result, messages) := MessageDBWorker.addMessages serialization coder fault (seedMessages draws) s.messages
    ([result], { s with messages := messages })
  else ([], s)

def Procedure.run : Procedure → Tables → List Bool × Tables
  | testStuAddData faultStus faultScore => ViewController.testStuAddData faultStus faultScore
  | testWebSite fault => ViewController.testWebSite coder fault
  | testMessage draws fault => ViewController.testMessage serialization coder draws fault

end Run

/-! ### What the seeds leave in empty tables -/

section Rows
variable (serialization coder : JsonCoder)

def stuRows : List StudentRow := seedStus.filterMap fun stu => stu.entry?.map Prod.snd

def scoreRows : List ScoreRow := seedScores.map fun score => score.entry.2

def siteRows : List (Sqlite.Row SQLValue) := seedSites.map (WebSiteDBModel.table coder).row

def messageRows (draws : Fin 10 → Draw) : List (Sqlite.Row SQLValue) :=
  (seedMessages draws).map (MessageDBWorker.rowOf serialization coder .chats)

/-- The tables of a procedure have the rows of its seed, each of them once. -/
def Seeded (s : Tables) : Procedure → Prop
  | .testStuAddData _ _ => s.students.entries.map Prod.snd = stuRows ∧ s.scores.entries.map Prod.snd = scoreRows
  | .testWebSite _ => s.websites.entries.map Prod.snd = siteRows coder
  | .testMessage _ _ => ∃ draws, s.messages .chats = messageRows serialization coder draws

end Rows

variable {serialization coder : JsonCoder} {s : Tables}

/-- A number of rows is zero as an Int64 only if it is zero. -/
theorem ofNat_eq_zero_iff {n : ℕ} (h : n < 2 ^ 63) : Int64.ofNat n = 0 ↔ n = 0 := by
  rw [← Int64.toInt_inj, Int64.toInt_ofNat_of_lt h, Int64.toInt_zero]
  omega

theorem getStuCount_eq_zero_iff (students : Students) :
    StudentDBWorker.getStuCount false students = some 0 ↔ students.entries = [] := by
  rw [StudentDBWorker.getStuCount, if_neg Bool.false_ne_true, Option.some.injEq, ofNat_eq_zero_iff students.length_lt,
    List.length_eq_zero_iff]

theorem getWebSitesCount_eq_zero_iff (websites : WebSites) :
    WebSiteDBWorker.getWebSitesCount false websites = some 0 ↔ websites.entries = [] := by
  rw [WebSiteDBWorker.getWebSitesCount, if_neg Bool.false_ne_true, Option.some.injEq,
    ofNat_eq_zero_iff websites.length_rows_lt, WebSites.rows, List.length_map, List.length_eq_zero_iff]

/-! ### Runs -/

/-- A run that does not leave scores without students or the other way round, and does
not add messages to messages. -/
def Procedure.Safe (s : Tables) : Procedure → Prop
  | testStuAddData faultStus faultScore => s.students.entries = [] → faultStus = faultScore
  | testWebSite _ => True
  | testMessage _ fault => s.messages .chats ≠ [] → fault = true

/-- The tables after any number of safe runs on empty ones. -/
inductive Reached (serialization coder : JsonCoder) : Tables → Prop
  | empty : Reached serialization coder .empty
  | run {s : Tables} {p : Procedure} (reached : Reached serialization coder s) (safe : p.Safe s) :
      Reached serialization coder (p.run serialization coder s).2

/-- Each table is empty or has the rows of its seed, students and scores alike; the
table of the count stays empty. -/
structure Invariant (serialization coder : JsonCoder) (s : Tables) : Prop where
  students : s.students.entries = [] ∧ s.scores.entries = [] ∨
    s.students.entries.map Prod.snd = stuRows ∧ s.scores.entries.map Prod.snd = scoreRows
  websites : s.websites.entries = [] ∨ s.websites.entries.map Prod.snd = siteRows coder
  messages : s.messages .chats = [] ∨ ∃ draws, s.messages .chats = messageRows serialization coder draws
  counted : s.messages .chats2 = []

theorem Invariant.empty : Invariant serialization coder .empty := ⟨.inl ⟨rfl, rfl⟩, .inl rfl, .inl rfl, rfl⟩

/-- Without a failure the first insertions of students and scores both go through. -/
theorem adds_to_empty {students : Students} {scores : Scores} (hstudents : students.entries = [])
    (hscores : scores.entries = []) :
    (StudentDBWorker.addStus false seedStus students).1 = true ∧
      (StudentDBWorker.addScore false seedScores scores).1 = true := by
  obtain rfl : students = .empty := Sqlite.RowIdTable.ext hstudents
  obtain rfl : scores = .empty := Sqlite.RowIdTable.ext hscores
  exact ⟨rfl, rfl⟩

/-- All sites have their places in an empty table. -/
theorem addWebSites_to_empty (coder : JsonCoder) :
    ∃ websites, WebSiteDBWorker.addWebSites coder false seedSites .empty = (true, websites) := by
  have hunit : (WCDB.insertOrReplaceRows (fun site : WebSiteDBModel => some (site.id, ())) false seedSites
      (Sqlite.RowIdTable.empty.map fun _ : Sqlite.Row SQLValue => ())).isSome := by decide
  have hmap := WCDB.insertOrReplaceRows_map (fun _ => ()) WebSiteDBModel.id (WebSiteDBModel.table coder).row false
    seedSites .empty
  rw [hmap, Option.isSome_map] at hunit
  obtain ⟨T, hT⟩ := Option.isSome_iff_exists.mp hunit
  exact ⟨T, by rw [WebSiteDBWorker.addWebSites, hT, WCDB.report]⟩

theorem Invariant.testStuAddData (h : Invariant serialization coder s) {faultStus faultScore : Bool}
    (safe : (Procedure.testStuAddData faultStus faultScore).Safe s) :
    Invariant serialization coder (ViewController.testStuAddData faultStus faultScore s).2 ∧
      ((ViewController.testStuAddData faultStus faultScore s).1.all id = true →
        Seeded serialization coder (ViewController.testStuAddData faultStus faultScore s).2
          (.testStuAddData faultStus faultScore)) := by
  rw [ViewController.testStuAddData]
  rcases h.students with ⟨hstudents, hscores⟩ | hseeded
  · rw [if_pos ((getStuCount_eq_zero_iff _).mpr hstudents)]
    obtain rfl : faultStus = faultScore := safe hstudents
    cases faultStus with
    | true => exact ⟨h, fun hclean => absurd hclean Bool.false_ne_true⟩
    | false =>
      obtain ⟨hstus, hscore⟩ := adds_to_empty hstudents hscores
      have hstuRows : (StudentDBWorker.addStus false seedStus s.students).2.entries.map Prod.snd = stuRows :=
        WCDB.rows_report_of_empty rfl hstudents (Prod.ext hstus rfl)
      have hscoreRows : (StudentDBWorker.addScore false seedScores s.scores).2.entries.map Prod.snd = scoreRows :=
        WCDB.rows_report_of_empty rfl hscores (Prod.ext hscore rfl)
      have hboth := And.intro hstuRows hscoreRows
      exact ⟨⟨.inr hboth, h.websites, h.messages, h.counted⟩, fun _ => hboth⟩
  · have hnonempty : s.students.entries ≠ [] := fun h0 => by
      rw [h0] at hseeded
      cases hseeded.1
    rw [if_neg (mt (getStuCount_eq_zero_iff _).mp hnonempty)]
    exact ⟨h, fun _ => hseeded⟩

theorem Invariant.testWebSite (h : Invariant serialization coder s) (fault : Bool) :
    Invariant serialization coder (ViewController.testWebSite coder fault s).2 ∧
      ((ViewController.testWebSite coder fault s).1.all id = true →
        Seeded serialization coder (ViewController.testWebSite coder fault s).2 (.testWebSite fault)) := by
  rw [ViewController.testWebSite]
  rcases h.websites with hempty | hseeded
  · rw [if_pos ((getWebSitesCount_eq_zero_iff _).mpr hempty)]
    obtain ⟨result, websites, hadd⟩ :
        ∃ result websites, WebSiteDBWorker.addWebSites coder fault seedSites s.websites = (result, websites) :=
      ⟨_, _, rfl⟩
    rw [hadd]
    cases result with
    | false =>
      obtain rfl := WCDB.report_eq_false hadd
      exact ⟨h, fun hclean => absurd hclean Bool.false_ne_true⟩
    | true =>
      have hrows : websites.entries.map Prod.snd = siteRows coder := WCDB.rows_report_of_empty rfl hempty hadd
      exact ⟨⟨h.students, .inr hrows, h.messages, h.counted⟩, fun _ => hrows⟩
  · have hnonempty : s.websites.entries ≠ [] := fun h0 => by
      rw [h0] at hseeded
      cases hseeded
    rw [if_neg (mt (getWebSitesCount_eq_zero_iff _).mp hnonempty)]
    exact ⟨h, fun _ => hseeded⟩

theorem Invariant.testMessage (h : Invariant serialization coder s) {draws : Fin 10 → Draw} {fault : Bool}
    (safe : (Procedure.testMessage draws fault).Safe s) :
    Invariant serialization coder (ViewController.testMessage serialization coder draws fault s).2 ∧
      ((ViewController.testMessage serialization coder draws fault s).1.all id = true →
        Seeded serialization coder (ViewController.testMessage serialization coder draws fault s).2
          (.testMessage draws fault)) := by
  have hcount : MessageDBWorker.getMsgCount2 false s.messages = some 0 := by
    rw [MessageDBWorker.getMsgCount2, MessageDBWorker.count, h.counted]
    rfl
  rw [ViewController.testMessage, if_pos hcount]
  cases fault with
  | true =>
    have hadd : MessageDBWorker.addMessages serialization coder true (seedMessages draws) s.messages =
        (false, s.messages) := rfl
    rw [hadd]
    exact ⟨h, fun hclean => absurd hclean Bool.false_ne_true⟩
  | false =>
    have hempty : s.messages .chats = [] := by
      by_contra hnonempty
      exact Bool.false_ne_true (safe hnonempty)
    have hadd : MessageDBWorker.addMessages serialization coder false (seedMessages draws) s.messages =
        (true, Function.update s.messages .chats (s.messages .chats ++ messageRows serialization coder draws)) :=
      MessageDBWorker.addTo_no_fault .chats (seedMessages draws) s.messages
    have hchats : Function.update s.messages .chats (s.messages .chats ++ messageRows serialization coder draws) .chats =
        messageRows serialization coder draws := by
      rw [Function.update_self, hempty, List.nil_append]
    have hchats2 : Function.update s.messages .chats (s.messages .chats ++ messageRows serialization coder draws)
        .chats2 = [] := by
      rw [Function.update_of_ne (by decide), h.counted]
    rw [hadd]
    exact ⟨⟨h.students, h.websites, .inr ⟨draws, hchats⟩, hchats2⟩, fun _ => ⟨draws, hchats⟩⟩

/-- Without a fault from outside no insertion fails. -/
theorem Invariant.clean (h : Invariant serialization coder s) :
    (ViewController.testStuAddData false false s).1.all id = true ∧
      (ViewController.testWebSite coder false s).1.all id = true ∧
      ∀ draws, (ViewController.testMessage serialization coder draws false s).1.all id = true := by
  refine ⟨?_, ?_, fun draws => ?_⟩
  · rw [ViewController.testStuAddData]
    split_ifs with hcount
    · have hstudents := (getStuCount_eq_zero_iff _).mp hcount
      rcases h.students with ⟨-, hscores⟩ | hseeded
      · obtain ⟨hstus, hscore⟩ := adds_to_empty hstudents hscores
        exact Bool.and_eq_true_iff.mpr ⟨hstus, Bool.and_eq_true_iff.mpr ⟨hscore, rfl⟩⟩
      · rw [hstudents] at hseeded
        cases hseeded.1
    · rfl
  · rw [ViewController.testWebSite]
    split_ifs with hcount
    · have hempty : s.websites = .empty := Sqlite.RowIdTable.ext ((getWebSitesCount_eq_zero_iff _).mp hcount)
      obtain ⟨websites, hadd⟩ := addWebSites_to_empty coder
      rw [hempty, hadd]
      rfl
    · rfl
  · have hcount : MessageDBWorker.getMsgCount2 false s.messages = some 0 := by
      rw [MessageDBWorker.getMsgCount2, MessageDBWorker.count, h.counted]
      rfl
    have hadd : MessageDBWorker.addMessages serialization coder false (seedMessages draws) s.messages = (true, _) :=
      MessageDBWorker.addTo_no_fault .chats (seedMessages draws) s.messages
    rw [ViewController.testMessage, if_pos hcount, hadd]
    rfl

/-- A safe run keeps the invariant, and one in which no insertion fails leaves the
tables with their seeds. -/
theorem Invariant.run (h : Invariant serialization coder s) {p : Procedure} (safe : p.Safe s) :
    Invariant serialization coder (p.run serialization coder s).2 ∧
      ((p.run serialization coder s).1.all id = true → Seeded serialization coder (p.run serialization coder s).2 p) := by
  cases p with
  | testStuAddData faultStus faultScore => exact h.testStuAddData safe
  | testWebSite fault => exact h.testWebSite fault
  | testMessage draws fault => exact h.testMessage safe

theorem Reached.invariant (h : Reached serialization coder s) : Invariant serialization coder s := by
  induction h with
  | empty => exact .empty
  | run _ safe ih => exact (ih.run safe).1

/-- In every sequence of safe runs, a run in which no insertion failed leaves each of
its tables with the rows of its seed, each of them once. -/
theorem seeded_of_reached (h : Reached serialization coder s) {p : Procedure} (safe : p.Safe s)
    (hclean : (p.run serialization coder s).1.all id = true) :
    Seeded serialization coder (p.run serialization coder s).2 p :=
  (h.invariant.run safe).2 hclean

/-- The first runs for messages, sites and students fail. Then messages and students are
added, the run for students is repeated, and the sites follow. -/
theorem seeded_of_reached_repeated :
    let draws : Fin 10 → Draw := fun i => ⟨1, Int64.ofNat i, 0, 0, 1, 2, 3, 0, 4, 5⟩
    let failed := [Procedure.testMessage draws true, .testWebSite true, .testStuAddData true true].foldl
      (fun s p => (p.run .text .text s).2) .empty
    let s := [Procedure.testMessage draws false, .testStuAddData false false].foldl
      (fun s p => (p.run .text .text s).2) failed
    Seeded .text .text ((Procedure.testMessage draws false).run .text .text failed).2 (.testMessage draws false) ∧
      Seeded .text .text ((Procedure.testStuAddData false false).run .text .text s).2 (.testStuAddData false false) ∧
      Seeded .text .text ((Procedure.testWebSite false).run .text .text s).2 (.testWebSite false) := by
  intro draws failed s
  have hfailed : Reached .text .text failed := .run (.run (.run .empty fun _ => rfl) trivial) fun _ => rfl
  have hsafe : (Procedure.testMessage draws false).Safe failed := fun hchats => absurd rfl hchats
  have hs : Reached .text .text s := .run (.run hfailed hsafe) fun _ => rfl
  obtain ⟨hstu, hsite, -⟩ := hs.invariant.clean
  exact ⟨seeded_of_reached hfailed hsafe (hfailed.invariant.clean.2.2 draws),
    seeded_of_reached hs (fun _ => rfl) hstu, seeded_of_reached hs trivial hsite⟩

/-- Scores whose insertion failed are still missing after a run without a failure. -/
theorem scores_stay_missing :
    let s := ((Procedure.testStuAddData false true).run .text .text .empty).2
    let p := Procedure.testStuAddData false false
    (p.run .text .text s).1.all id = true ∧ ¬Seeded .text .text (p.run .text .text s).2 p := by
  intro s p
  refine ⟨rfl, fun ⟨_, hscores⟩ => ?_⟩
  have hempty : (p.run .text .text s).2.scores.entries = [] := rfl
  rw [hempty] at hscores
  cases hscores

end ViewController

end StudyDB
