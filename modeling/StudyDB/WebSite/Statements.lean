import StudyDB.WCDB.Condition
import StudyDB.WebSite.Worker

/-! The searches for web sites, by way of the text of their conditions. Proved: the search
that combines filters finds through the text what it finds without it, whatever its
keyword; and which sites the others find, in every table. -/

namespace StudyDB

open Sqlite (Condition Expr Sorter)
open WCDB (text Legible Shallow)

namespace WebSiteDBWorker
variable (coder : JsonCoder)

/-! ### The search that combines filters -/

/-- `searchWebsites`, whose condition SQLite reads as text. -/
def searchWebsitesText (sorter : Sorter orderKey) (fault : Bool) (f : Filters) (pageSize pageNum : Option Int64)
    (T : WebSites) : Option (Option (List WebSiteDBModel)) := do
  let offset ← offset? pageSize pageNum
  some ((WebSiteDBModel.table coder).getObjectsWhere (some "identifier") fault ((conditions f.exps).map .ofExpr)
    sorter.sort pageSize offset T.rows)

theorem isName_name : Sqlite.isName "name".toList = true := by decide

theorem isName_identifier : Sqlite.isName "identifier".toList = true := by decide

theorem legible_like (words : String) : Legible (.ofExpr (WCDB.like "name" words)) :=
  ⟨isName_name, cString_eq_self_iff.mp (cString_cString words)⟩

theorem legible_integers (isNot : Bool) (ns : List Int64) : Legible (.in isNot "identifier" (ns.map .integer)) := by
  refine ⟨isName_identifier, fun v hv => ?_⟩
  obtain ⟨n, _, rfl⟩ := List.mem_map.mp hv
  trivial

theorem legible_keywordExps (f : Filters) : ∀ e ∈ f.keywordExps, Legible (.ofExpr e) := by
  unfold Filters.keywordExps
  split
  · split
    · rintro e (_ | ⟨_, he⟩)
      · exact ⟨legible_like _, legible_integers false _⟩
      · cases he
    · rintro e (_ | ⟨_, he⟩)
      · exact legible_like _
      · cases he
  · exact fun e he => absurd he List.not_mem_nil

theorem legible_rangeExps (f : Filters) : ∀ e ∈ f.rangeExps, Legible (.ofExpr e) := by
  unfold Filters.rangeExps
  split
  · rintro e (_ | ⟨_, he⟩)
    · exact ⟨isName_identifier, trivial, trivial⟩
    · cases he
  · exact fun e he => absurd he List.not_mem_nil

theorem legible_notInExps (f : Filters) : ∀ e ∈ f.notInExps, Legible (.ofExpr e) := by
  unfold Filters.notInExps
  split
  · rintro e (_ | ⟨_, he⟩)
    · exact legible_integers true _
    · cases he
  · exact fun e he => absurd he List.not_mem_nil

theorem legible_exps (f : Filters) : ∀ e ∈ f.exps, Legible (.ofExpr e) := by
  rw [Filters.exps, List.forall_mem_append, List.forall_mem_append]
  exact ⟨⟨legible_keywordExps f, legible_rangeExps f⟩, legible_notInExps f⟩

theorem legible_foldl {exps : List Expr} (h : ∀ e ∈ exps, Legible (.ofExpr e)) (preExp : Option Expr)
    (hpre : ∀ e ∈ preExp, Legible (.ofExpr e)) :
    ∀ c ∈ exps.foldl (fun conditions exp =>
      match conditions with
      | some preExp => some (.and preExp exp)
      | none => some exp) preExp, Legible (.ofExpr c) := by
  induction exps generalizing preExp with
  | nil => exact hpre
  | cons e exps ih =>
    refine ih (fun e' he' => h e' (List.mem_cons_of_mem e he')) _ fun c hc => ?_
    have he := h e List.mem_cons_self
    cases preExp with
    | none =>
      cases hc
      exact he
    | some preExp =>
      cases hc
      exact ⟨hpre preExp rfl, he⟩

theorem legible_conditions (f : Filters) : ∀ c ∈ conditions f.exps, Legible (.ofExpr c) :=
  legible_foldl (legible_exps f) none fun _ he => absurd he (Option.not_mem_none _)

/-- At most three expressions, of which one is an OR. -/
theorem depth_exps (f : Filters) : f.exps.length ≤ 3 ∧ ∀ e ∈ f.exps, (Condition.ofExpr e).depth ≤ 1 := by
  rw [Filters.exps, Filters.keywordExps, Filters.rangeExps, Filters.notInExps]
  rcases f.words with _ | words <;> rcases f.ins with _ | ins <;> rcases f.idStart with _ | start <;>
    rcases f.idEnd with _ | last <;> rcases f.notIns with _ | notIns <;>
    simp [WCDB.like, Condition.ofExpr, Condition.depth]

theorem depth_foldl {exps : List Expr} (h : ∀ e ∈ exps, (Condition.ofExpr e).depth ≤ 1) (preExp : Option Expr) {n : ℕ}
    (hn : 1 ≤ n) (hpre : ∀ e ∈ preExp, (Condition.ofExpr e).depth ≤ n) :
    ∀ c ∈ exps.foldl (fun conditions exp =>
      match conditions with
      | some preExp => some (.and preExp exp)
      | none => some exp) preExp, (Condition.ofExpr c).depth ≤ n + exps.length := by
  induction exps generalizing preExp n with
  | nil => exact hpre
  | cons e exps ih =>
    have he := h e List.mem_cons_self
    rw [List.length_cons, ← Nat.add_assoc, Nat.add_right_comm]
    refine ih (fun e' he' => h e' (List.mem_cons_of_mem e he')) _ (Nat.le_add_left 1 n) fun c hc => ?_
    cases preExp with
    | none =>
      cases hc
      omega
    | some preExp =>
      cases hc
      have hpre := hpre preExp rfl
      show max (Condition.ofExpr preExp).depth (Condition.ofExpr e).depth + 1 ≤ n + 1
      omega

theorem shallow_conditions (f : Filters) : ∀ c ∈ conditions f.exps, Shallow (.ofExpr c) := by
  intro c hc
  obtain ⟨hlength, hexps⟩ := depth_exps f
  have hdepth := depth_foldl hexps none (Nat.le_refl 1) (fun _ he => absurd he (Option.not_mem_none _)) c hc
  rw [Shallow]
  omega

/-- Whatever the keyword, the text of the condition is read as the condition. -/
theorem searchWebsitesText_eq (sorter : Sorter orderKey) (fault : Bool) (f : Filters)
    (pageSize pageNum : Option Int64) (T : WebSites) :
    searchWebsitesText coder sorter fault f pageSize pageNum T =
      searchWebsites coder sorter fault f pageSize pageNum T := by
  have hlegible : ∀ e ∈ conditions f.exps, Legible (.ofExpr e) ∧ Shallow (.ofExpr e) := fun e he =>
    ⟨legible_conditions f e he, shallow_conditions f e he⟩
  unfold searchWebsitesText searchWebsites
  simp only [WCDB.getObjectsWhere_ofExpr _ _ _ _ _ _ _ hlegible]

/-! ### The other searches -/

def getWebSite (fault : Bool) (name : String) (T : WebSites) : Option WebSiteDBModel :=
  (((WebSiteDBModel.table coder).getObjectsWhere (some "identifier") fault (some (.equal "name" (text name))) id (some 1)
    none T.rows).getD []).head?

def getWebsitesNameBetween (fault : Bool) (begin «end» : String) (T : WebSites) : List WebSiteDBModel :=
  ((WebSiteDBModel.table coder).getObjectsWhere (some "identifier") fault
    (some (.between false "name" (text begin) (text «end»))) id none none T.rows).getD []

def getWebsitesNamesIn (fault : Bool) (names : List String) (T : WebSites) : List WebSiteDBModel :=
  ((WebSiteDBModel.table coder).getObjectsWhere (some "identifier") fault (some (.in false "name" (names.map text))) id
    none none T.rows).getD []

def getWebsitesAlexaBetweenCountryNotIn (fault : Bool) (begin «end» : Int64) (countrys : List String) (T : WebSites) :
    List WebSiteDBModel :=
  ((WebSiteDBModel.table coder).getObjectsWhere (some "identifier") fault
    (some (.and (.between false "alexa" (.integer begin) (.integer «end»)) (.in true "country" (countrys.map text)))) id
    none none T.rows).getD []

/-- The sites of the rows on which a condition is true. -/
theorem getObjectsWhere_getD {c : Condition} (h : Legible c) (hshallow : Shallow c) (htotal : c.total = true)
    (T : WebSites) :
    ((WebSiteDBModel.table coder).getObjectsWhere (some "identifier") false (some c) id none none T.rows).getD [] =
      (T.rows.filter fun r => c.Holds r).map (WebSiteDBModel.ofRow coder) := by
  have hdecode : ∀ r, (WebSiteDBModel.table coder).decode r = some (WebSiteDBModel.ofRow coder r) := fun _ => rfl
  rw [WCDB.getObjectsWhere_of_total _ _ _ _ _ _ h hshallow htotal, WCDB.limited, WCDB.mapM_decode hdecode, Option.getD_some]
  rfl

theorem legible_texts (isNot : Bool) {c : String} (hc : Sqlite.isName c.toList = true) (names : List String) :
    Legible (.in isNot c (names.map text)) := by
  refine ⟨hc, fun v hv => ?_⟩
  obtain ⟨s, _, rfl⟩ := List.mem_map.mp hv
  exact WCDB.legibleConstant_text s

theorem mem_texts {names : List String} {v : SQLValue} :
    v ∈ (names.map text).map Sqlite.Constant.value ↔ ∃ s ∈ names, v = .text (cString s) := by
  rw [List.map_map, List.mem_map]
  exact exists_congr fun s => and_congr_right fun _ => eq_comm

open Classical in
/-- The sites with a name between two texts, as they stand in the order of their code points. -/
theorem getWebsitesNameBetween_eq (begin «end» : String) (T : WebSites) :
    getWebsitesNameBetween coder false begin «end» T =
      (T.rows.filter fun r => ∃ t, r "name" = .text t ∧ cString begin ≤ t ∧ t ≤ cString «end»).map
        (WebSiteDBModel.ofRow coder) := by
  have hlegible : Legible (.between false "name" (text begin) (text «end»)) :=
    ⟨isName_name, WCDB.legibleConstant_text _, WCDB.legibleConstant_text _⟩
  rw [getWebsitesNameBetween, getObjectsWhere_getD coder hlegible (Nat.zero_le _) rfl]
  simp only [text, Condition.holds_between_text_iff]

open Classical in
/-- The sites that have one of the names. -/
theorem getWebsitesNamesIn_eq (names : List String) (T : WebSites) :
    getWebsitesNamesIn coder false names T =
      (T.rows.filter fun r => ∃ s ∈ names, r "name" = .text (cString s)).map (WebSiteDBModel.ofRow coder) := by
  rw [getWebsitesNamesIn, getObjectsWhere_getD coder (legible_texts false isName_name names) (Nat.zero_le _) rfl]
  simp only [Condition.holds_in_iff, mem_texts]

/-- A rank in a range, and a country that is none of a list. What has no country has none
only of an empty list. -/
def RankedOutside (begin «end» : Int64) (countrys : List String) (r : Sqlite.Row SQLValue) : Prop :=
  (∃ n, r "alexa" = .integer n ∧ begin ≤ n ∧ n ≤ «end») ∧
    (countrys = [] ∨ r "country" ≠ .null ∧ ∀ s ∈ countrys, r "country" ≠ .text (cString s))

open Classical in
/-- The sites with a rank in a range, whose country is none of a list. -/
theorem getWebsitesAlexaBetweenCountryNotIn_eq (begin «end» : Int64) (countrys : List String) (T : WebSites) :
    getWebsitesAlexaBetweenCountryNotIn coder false begin «end» countrys T =
      (T.rows.filter fun r => RankedOutside begin «end» countrys r).map (WebSiteDBModel.ofRow coder) := by
  have halexa : Sqlite.isName "alexa".toList = true := by decide
  have hcountry : Sqlite.isName "country".toList = true := by decide
  have hlegible : Legible (.and (.between false "alexa" (.integer begin) (.integer «end»))
      (.in true "country" (countrys.map text))) :=
    ⟨⟨halexa, trivial, trivial⟩, legible_texts true hcountry countrys⟩
  have hholds : ∀ r, (Condition.and (.between false "alexa" (.integer begin) (.integer «end»))
      (.in true "country" (countrys.map text))).Holds r ↔ RankedOutside begin «end» countrys r := by
    intro r
    simp only [Condition.holds_and_iff, Condition.holds_between_integer_iff, Condition.holds_notIn_iff, mem_texts,
      List.map_eq_nil_iff, not_exists, not_and]
    exact Iff.rfl
  have hshallow : Shallow (.and (.between false "alexa" (.integer begin) (.integer «end»))
      (.in true "country" (countrys.map text))) :=
    show 1 ≤ 29 by decide
  rw [getWebsitesAlexaBetweenCountryNotIn, getObjectsWhere_getD coder hlegible hshallow rfl]
  exact congrArg _ (List.filter_congr fun r _ => decide_eq_decide.mpr (hholds r))

/-- The first site of the table that has the name. -/
theorem getWebSite_eq (name : String) (T : WebSites) :
    getWebSite coder false name T =
      (T.rows.find? fun r => r "name" = .text (cString name)).map (WebSiteDBModel.ofRow coder) := by
  have hdecode : ∀ r, (WebSiteDBModel.table coder).decode r = some (WebSiteDBModel.ofRow coder r) := fun _ => rfl
  have hlegible : Legible (.equal "name" (text name)) := ⟨isName_name, WCDB.legibleConstant_text _⟩
  rw [getWebSite, WCDB.getObjectsWhere_of_total _ _ _ _ _ _ hlegible (Nat.zero_le _) rfl, WCDB.mapM_decode hdecode, Option.getD_some]
  have hlimit : ∀ rows : List (Sqlite.Row SQLValue), WCDB.limited (some 1) none (id rows) = rows.take 1 :=
    fun rows => rfl
  rw [hlimit, List.head?_map, List.head?_take, if_neg (by decide), List.head?_filter]
  simp only [Condition.holds_equal_iff, text, Sqlite.Constant.value]

end WebSiteDBWorker

end StudyDB
