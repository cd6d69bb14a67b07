import TamForge.Roadmaps.Proofs.Reloading

/-!
# Validation and its reports

`_validate` catches what the parser means to raise.  The only exception that
gets past it is the missing key of a contract type that is in the vocabulary of
the release and has no block name, and every scheme that is valid but for such a
type raises it.
-/

namespace TamForge.Roadmaps.Parsing

open Evidence Models ProofSupport

variable {tools : TextTools} {config : ReleaseConfig} {files : Files} {markdown : Markdown}
  {sources : TaskSources} {block : SchemeBlock} {scheme : SchemeFile}

/-! ## Block names -/

def Named (contractType : String) : Prop :=
  contractType.startsWith "saturday_" = true ∨ contractType ∈ contractBlocks.map Prod.fst

instance (contractType : String) : Decidable (Named contractType) :=
  inferInstanceAs (Decidable (_ ∨ _))

variable {table : List (String × String)} {key : String}

theorem tableItem_ok (h : key ∈ table.map Prod.fst) : ∃ value, tableItem table key = .ok value := by
  unfold tableItem
  split
  · rename_i hnone
    obtain ⟨item, hitem, hkey⟩ := List.mem_map.mp h
    rw [List.find?_eq_none] at hnone
    exact absurd (decide_eq_true hkey) (hnone item hitem)
  · exact ⟨_, rfl⟩

theorem tableItem_error (h : key ∉ table.map Prod.fst) :
    tableItem table key = .error (.key key) := by
  unfold tableItem
  split
  · rfl
  · rename_i item hfind
    have hkey : item.1 = key := by simpa using List.find?_some hfind
    exact absurd (List.mem_map.mpr ⟨item, List.mem_of_find?_eq_some hfind, hkey⟩) h

theorem blockName_ok (h : Named block.type) : ∃ name, blockName block.type = .ok name := by
  unfold blockName
  split
  · exact ⟨_, rfl⟩
  · rename_i hsaturday
    exact tableItem_ok (h.resolve_left hsaturday)

theorem blockName_error (h : ¬Named block.type) :
    blockName block.type = .error (.key block.type) := by
  rw [Named, not_or] at h
  rw [blockName, if_neg h.1, tableItem_error h.2]

theorem blockRole_ok (h : Named block.type) : ∃ role, blockRole block = .ok role := by
  unfold blockRole
  split
  · exact ⟨_, rfl⟩
  · unfold defaultAiRole
    split
    · exact ⟨_, rfl⟩
    · rename_i hsaturday
      have hkeys : defaultAiRoles.map Prod.fst = contractBlocks.map Prod.fst := rfl
      exact tableItem_ok (hkeys ▸ h.resolve_left hsaturday)

theorem blockExercise_ok (h : Known config block) :
    ∃ exercise, blockExercise config block = .ok exercise := by
  unfold blockExercise
  split
  · exact ⟨_, rfl⟩
  · rename_i hne
    obtain ⟨exercise, hexer⟩ := Option.isSome_iff_exists.mp (h.2 hne)
    rw [hexer]
    exact ⟨_, rfl⟩

theorem blockTask_cases {dayNumber order : Nat} (h : Known sources.config block) :
    (Named block.type → ∃ task, blockTask tools sources dayNumber order block = .ok task) ∧
      (¬Named block.type → blockTask tools sources dayNumber order block =
        .error (.key block.type)) := by
  obtain ⟨contract, hctr⟩ := Option.isSome_iff_exists.mp h.1
  obtain ⟨exercise, hexer⟩ := blockExercise_ok h
  constructor
  · intro hnamed
    obtain ⟨name, hname⟩ := blockName_ok hnamed
    obtain ⟨role, hrole⟩ := blockRole_ok hnamed
    simp only [blockTask, hctr, bind_ok_iff]
    exact ⟨_, exercise, hexer, name, hname, role, hrole, rfl⟩
  · intro hunnamed
    simp only [blockTask, hctr, hexer, blockName_error hunnamed]
    rfl

def MissingKey (failure : ParseFailure) : Prop := ∃ name, failure = .key name

theorem mem_zipIdx_fst {α : Type} {items : List α} {item : α} :
    item ∈ items ↔ ∃ pos, (item, pos) ∈ items.zipIdx 1 := by
  have hmem : item ∈ (items.zipIdx 1).map Prod.fst ↔ item ∈ items := by
    rw [List.zipIdx_map_fst]
  rw [← hmem, List.mem_map, Prod.exists]
  constructor
  · rintro ⟨_, pos, hposn, rfl⟩
    exact ⟨pos, hposn⟩
  · rintro ⟨pos, hposn⟩
    exact ⟨item, pos, hposn, rfl⟩

/-- The tasks of known blocks are there when every type has a name, and
otherwise a key is missing. -/
theorem tasks_cases
    (hknown : ∀ block ∈ scheme.days.flatMap SchemeDay.blocks, Known sources.config block) :
    ((∃ tasks, (scheme.days.zipIdx 1).mapM (dayTasks tools sources) = .ok tasks) ↔
      ∀ block ∈ scheme.days.flatMap SchemeDay.blocks, Named block.type) ∧
    Raises MissingKey ((scheme.days.zipIdx 1).mapM (dayTasks tools sources)) := by
  have hblk : ∀ day ∈ scheme.days, ∀ block ∈ day.blocks, Known sources.config block := by
    intro day hday block hmem
    exact hknown block (List.mem_flatMap.mpr ⟨day, hday, hmem⟩)
  constructor
  · rw [exists_mapM_ok_iff]
    constructor
    · intro hall block hmem
      obtain ⟨day, hday, hmember⟩ := List.mem_flatMap.mp hmem
      obtain ⟨num, hnum⟩ := mem_zipIdx_fst.mp hday
      obtain ⟨order, horder⟩ := mem_zipIdx_fst.mp hmember
      obtain ⟨task, htask⟩ := exists_mapM_ok_iff.mp (hall _ hnum) _ horder
      by_contra hunnamed
      rw [(blockTask_cases (hknown block hmem)).2 hunnamed] at htask
      cases htask
    · intro hnamed day hday
      have hmember := mem_zipIdx_fst.mpr ⟨day.2, hday⟩
      refine exists_mapM_ok_iff.mpr fun block hmem => ?_
      have hin := mem_zipIdx_fst.mpr ⟨block.2, hmem⟩
      exact (blockTask_cases (hblk day.1 hmember block.1 hin)).1
        (hnamed block.1 (List.mem_flatMap.mpr ⟨day.1, hmember, hin⟩))
  · apply raises_mapM
    intro day hday
    apply raises_mapM
    intro block hmem failure hfail
    have hmember := hblk day.1 (mem_zipIdx_fst.mpr ⟨day.2, hday⟩) block.1
      (mem_zipIdx_fst.mpr ⟨block.2, hmem⟩)
    have hcases := @blockTask_cases tools sources block.1 day.2 block.2 hmember
    by_cases hnamed : Named block.1.type
    · obtain ⟨task, htask⟩ := hcases.1 hnamed
      rw [htask] at hfail
      cases hfail
    · rw [hcases.2 hnamed] at hfail
      exact ⟨_, (Except.error.inj hfail).symm⟩

/-! ## The other steps -/

/-- What `_validate` catches: no key is missing. -/
def Caught (failure : ParseFailure) : Prop := ¬MissingKey failure

theorem caught_parse (message : String) : Caught (.parse message) := by
  rintro ⟨name, h⟩
  cases h

theorem caught_value (message : String) : Caught (.value message) := by
  rintro ⟨name, h⟩
  cases h

theorem packageScheme_raises (payload : Bytes) : Raises Caught (packageScheme tools payload) := by
  unfold packageScheme
  split
  · exact raises_error (caught_parse _)
  · unfold parseSchemeText
    split
    · exact raises_error (caught_parse _)
    · split
      · exact raises_error (caught_parse _)
      · exact raises_error (caught_value _)
      · unfold schemeFromPayload
        split
        · apply raises_mapError
          intro error _
          exact caught_parse _
        · exact raises_error (caught_parse _)

theorem decodeMarkdown_raises : Raises Caught (decodeMarkdown tools files) := by
  have hfile : ∀ file ∈ files, Raises Caught (decodeFile tools file) := by
    intro file _
    unfold decodeFile
    split
    · split
      · exact raises_error (caught_parse _)
      · exact raises_ok _
    · exact raises_ok _
  exact (raises_mapM hfile).bind fun _ _ => raises_ok _

theorem validateScheme_raises : Raises Caught (validateScheme tools scheme files config) :=
  decodeMarkdown_raises.bind fun _ _ => raises_ok _

theorem safeLocalTarget_raises (sourcePath tgt : String) :
    Raises Caught (safeLocalTarget tools sourcePath tgt) := by
  unfold safeLocalTarget
  dsimp only
  split
  · exact raises_ok _
  · split
    · exact raises_error (caught_parse _)
    · split
      · exact raises_error (caught_parse _)
      · exact raises_ok _

theorem rootCandidates_raises (tgt : String) : Raises Caught (rootCandidates tools tgt) := by
  unfold rootCandidates
  dsimp only
  split
  · exact raises_error (caught_parse _)
  · split
    · exact raises_ok _
    · exact raises_ok _

theorem linkRoots_raises (tgt : String) (obsidian : Bool) :
    Raises Caught (linkRoots tools tgt obsidian) := by
  unfold linkRoots
  split
  · exact rootCandidates_raises tgt
  · exact raises_ok _

theorem resolveLocalResource_raises (sourcePath tgt : String) (obsidian : Bool) :
    Raises Caught (resolveLocalResource tools sourcePath tgt files obsidian) := by
  apply (linkRoots_raises tgt obsidian).bind
  intro roots _
  apply (safeLocalTarget_raises sourcePath tgt).bind
  intro candidate _
  dsimp only
  split
  · exact raises_ok _
  · exact raises_error (caught_parse _)

theorem addResource_raises (accumulated : Accumulated) (key : String) (kind : ResourceKind)
    (label sourcePath : String) :
    Raises Caught (addResource tools accumulated key kind label sourcePath) := by
  unfold addResource
  dsimp only
  split
  · exact raises_error (caught_parse _)
  · exact raises_ok _

variable {requireLocal : Bool}

theorem resolvedOr_raises {accumulated : Accumulated} {resolved : Except ParseFailure String}
    {next : String → Except ParseFailure Accumulated} (hres : Raises Caught resolved)
    (hnext : ∀ path, Raises Caught (next path)) :
    Raises Caught (resolvedOr requireLocal accumulated resolved next) := by
  unfold resolvedOr
  split
  · exact hnext _
  · split
    · exact raises_error (caught_parse _)
    · exact raises_ok _
  · exact raises_error (hres _ rfl)

theorem resources_raises : Raises Caught (resources tools files markdown requireLocal) := by
  have hwiki : ∀ path before link,
      Raises Caught (addWikiLink tools files requireLocal path before link) := by
    intro path before link
    exact resolvedOr_raises (resolveLocalResource_raises _ _ _)
      fun _ => addResource_raises _ _ _ _ _
  have hmarkdown : ∀ path before link,
      Raises Caught (addMarkdownLink tools files requireLocal path before link) := by
    intro path before link
    unfold addMarkdownLink
    split
    · exact raises_error (caught_value _)
    · split
      · split
        · exact raises_error (caught_parse _)
        · exact addResource_raises _ _ _ _ _
      · exact resolvedOr_raises (resolveLocalResource_raises _ _ _)
          fun _ => addResource_raises _ _ _ _ _
  have hfile : ∀ before file,
      Raises Caught (addFileResources tools files requireLocal before file) := by
    intro before file
    apply (raises_foldlM _ (hwiki file.1)).bind
    intro after _
    exact raises_foldlM _ (hmarkdown file.1)
  exact (raises_foldlM _ hfile).bind fun _ _ => raises_ok _

theorem exitCriteria_raises {required : Bool} :
    Raises Caught (exitCriteria tools markdown required) := by
  unfold exitCriteria
  dsimp only
  split
  · exact raises_error (caught_parse _)
  · exact raises_ok _

variable {payload : Bytes}

theorem parseRoadmapScheme_raises
    (hnamed : ∀ scheme, packageScheme tools payload = .ok scheme →
      validateScheme tools scheme files config = .ok [] →
        ∀ block ∈ scheme.days.flatMap SchemeDay.blocks, Named block.type)
    : Raises Caught (parseRoadmapScheme tools files config payload) := by
  apply (packageScheme_raises payload).bind
  intro scheme hsch
  apply validateScheme_raises.bind
  intro issues hissues
  cases issues with
  | cons issue rest => exact raises_error (caught_parse _)
  | nil =>
    apply decodeMarkdown_raises.bind
    intro markdown _
    let sources : TaskSources := ⟨config, markdown, interviewQueue tools markdown⟩
    obtain ⟨tasks, htasks⟩ := (@tasks_cases tools sources scheme
      (validateScheme_nil hissues).2).1.mpr (hnamed scheme hsch hissues)
    dsimp only
    rw [htasks]
    refine (raises_ok tasks).bind fun _ _ => ?_
    refine resources_raises.bind fun found _ => ?_
    exact exitCriteria_raises.bind fun criteria _ => raises_ok _

theorem parseRoadmapScheme_missing (hsch : packageScheme tools payload = .ok scheme)
    (hissues : validateScheme tools scheme files config = .ok [])
    (hunnamed : ∃ block ∈ scheme.days.flatMap SchemeDay.blocks, ¬Named block.type) :
    ∃ name, parseRoadmapScheme tools files config payload = .error (.key name) := by
  have hdecoded : ∃ markdown, decodeMarkdown tools files = .ok markdown := by
    simp only [validateScheme, bind_ok_iff] at hissues
    obtain ⟨markdown, hmarkdown, -⟩ := hissues
    exact ⟨markdown, hmarkdown⟩
  obtain ⟨markdown, hmarkdown⟩ := hdecoded
  let sources : TaskSources := ⟨config, markdown, interviewQueue tools markdown⟩
  obtain ⟨hiff, hraises⟩ := @tasks_cases tools sources scheme (validateScheme_nil hissues).2
  cases htasks : (scheme.days.zipIdx 1).mapM (dayTasks tools sources) with
  | ok tasks =>
    obtain ⟨block, hmem, hblk⟩ := hunnamed
    exact absurd (hiff.mp ⟨tasks, htasks⟩ block hmem) hblk
  | error failure =>
    obtain ⟨name, rfl⟩ := hraises failure htasks
    refine ⟨name, ?_⟩
    rw [parseRoadmapScheme, hsch]
    show (validateScheme tools scheme files config >>= _) = _
    rw [hissues]
    show (decodeMarkdown tools files >>= _) = _
    rw [hmarkdown]
    show ((scheme.days.zipIdx 1).mapM (dayTasks tools sources) >>= _) = _
    rw [htasks]
    rfl

theorem numberedDay_ok (num : Nat) (day : Json) :
    numberedDay (toString num, day) = .ok ((num : Int), toString num, day) := by
  have hnum : pyInt (.string (toString num)) = .ok (num : Int) := by
    have hread : (toString num).toInt? = some (num : Int) := Nat.toInt?_repr num
    rw [pyInt, hread]
  unfold numberedDay
  rw [hnum]
  rfl

theorem schemeSummary_ok (scheme : SchemeFile) :
    ∃ summary, schemeSummary (some (schemePayload scheme)) = .ok summary := by
  let days : List (String × Json) := (scheme.days.zipIdx 1).map fun day =>
    (toString day.2, .object [("id", .string day.1.id), ("kind", .string day.1.kind.text),
      ("budget_minutes", integer day.1.budgetMinutes)])
  have hnumd : ∀ day ∈ days, ∃ numbered, numberedDay day = .ok numbered := by
    intro day hday
    obtain ⟨source, -, rfl⟩ := List.mem_map.mp hday
    exact ⟨_, numberedDay_ok _ _⟩
  have hbudg : ∀ day ∈ days, ∃ budget, dayBudget day = .ok budget := by
    intro day hday
    obtain ⟨source, -, rfl⟩ := List.mem_map.mp hday
    have hread : memberInt [("id", .string source.1.id), ("kind", .string source.1.kind.text),
        ("budget_minutes", integer source.1.budgetMinutes)] "budget_minutes" =
        .ok (source.1.budgetMinutes : Int) := by
      exact pyInt_integer source.1.budgetMinutes
    simp only [dayBudget, hread]
    exact ⟨_, rfl⟩
  obtain ⟨numbered, hall⟩ := exists_mapM_ok_iff.mpr hnumd
  have hsame : numbered.map Prod.snd = days := by
    have hstep : ∀ day item, numberedDay day = .ok item → item.2 = id day := by
      intro day item hitem
      simp only [numberedDay, bind_ok_iff] at hitem
      obtain ⟨num, -, hitem⟩ := hitem
      cases hitem
      rfl
    simpa using mapM_ok_map hall hstep
  let ordered := numbered.mergeSort fun first second => first.1 ≤ second.1
  have hord : ∀ day ∈ ordered.map Prod.snd, ∃ budget, dayBudget day = .ok budget := by
    intro day hday
    apply hbudg
    rw [← hsame]
    exact ((List.mergeSort_perm _ _).map Prod.snd).mem_iff.mp hday
  obtain ⟨budgets, hbudgets⟩ := exists_mapM_ok_iff.mpr hord
  have hfld : Json.get (schemePayload scheme) "days" = .object days ∧
      Json.get (schemePayload scheme) "program" = .object [("key", .string scheme.program.key),
        ("title", .string scheme.program.title)] := by
    simp [schemePayload, Json.get, Json.item?, days]
  unfold schemeSummary
  dsimp only [Option.getD_some]
  rw [hfld.1, hfld.2]
  dsimp only
  rw [hall]
  refine ⟨_, bind_ok_iff.mpr ⟨numbered, rfl, bind_ok_iff.mpr ⟨budgets, hbudgets, rfl⟩⟩⟩

/-- `_validate` answers exactly when no valid scheme of the package names a
contract type that has no block name. -/
theorem validate_reports_iff (tools : TextTools) (config : ReleaseConfig)
    (package : InspectedRoadmapPackage) :
    (∃ answer, validate tools config package = .ok answer) ↔
      (package.issues = [] → ∀ payload scheme,
        Dict.get? package.files schemeFile = some payload →
        packageScheme tools payload = .ok scheme →
        validateScheme tools scheme package.files config = .ok [] →
          ∀ block ∈ scheme.days.flatMap SchemeDay.blocks, Named block.type) := by
  unfold validate
  by_cases hissues : package.issues = []
  · rw [if_neg (not_not.mpr hissues)]
    unfold parseRoadmap
    cases hfile : Dict.get? package.files schemeFile with
    | none => simp
    | some payload =>
      constructor
      · rintro ⟨answer, hanswer⟩ - payload' scheme hpayload hscheme hvalid
        cases hpayload
        by_contra hunnamed
        push Not at hunnamed
        obtain ⟨name, hname⟩ := parseRoadmapScheme_missing hscheme hvalid hunnamed
        dsimp only at hanswer
        rw [hname] at hanswer
        cases hanswer
      · intro hnamed
        dsimp only
        cases hparse : parseRoadmapScheme tools package.files config payload with
        | ok roadmap =>
          obtain ⟨scheme, hscheme⟩ := (wellParsed hparse).scheme
          obtain ⟨summary, hsummary⟩ := schemeSummary_ok scheme
          dsimp only
          rw [hscheme, hsummary]
          exact ⟨_, rfl⟩
        | error failure =>
          cases failure with
          | parse message => exact ⟨_, rfl⟩
          | value message => exact ⟨_, rfl⟩
          | key name =>
            have hcaught := parseRoadmapScheme_raises (hnamed hissues payload · rfl)
            exact absurd ⟨name, rfl⟩ (hcaught _ hparse)
  · rw [if_pos hissues]
    exact ⟨fun _ hnone => absurd hnone hissues, fun _ => ⟨_, rfl⟩⟩

theorem validate_key {package : InspectedRoadmapPackage} {name : String}
    (hissues : package.issues = []) (hfile : Dict.get? package.files schemeFile = some payload)
    (hparse : parseRoadmapScheme tools package.files config payload = .error (.key name)) :
    validate tools config package = .error (.key name) := by
  have hclean : ¬package.issues ≠ [] := fun hne => hne hissues
  rw [validate, if_neg hclean, parseRoadmap, hfile]
  dsimp only
  rw [hparse]

/-- A plan that uses the contract `interview` of the release. -/
theorem validate_unnamed_contract :
    validate sampleTools sampleConfig ⟨sampleFiles "sunday" "interview", [], none⟩ =
      .error (.key "interview") := by
  have hplan : parseSchemeText sampleTools (samplePlanText "sunday" "interview") =
      .ok (samplePlan .sunday "interview" (by decide)) := by
    decide +kernel
  have hparse : parseRoadmapScheme sampleTools (sampleFiles "sunday" "interview") sampleConfig
      (samplePlanText "sunday" "interview").toUTF8.data.toList = .error (.key "interview") := by
    rw [parse_sample _ _ hplan]
    decide +kernel
  exact validate_key rfl rfl hparse

end TamForge.Roadmaps.Parsing
