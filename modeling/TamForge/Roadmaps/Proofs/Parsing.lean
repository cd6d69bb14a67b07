import TamForge.Evidence.Seed
import TamForge.Roadmaps.Parser

/-!
# What parsing establishes

A scheme without issues has distinct block identifiers, and every block names a
contract and an exercise of the release.  A parsed roadmap therefore has one
item for each key in each of its parts.
-/

namespace TamForge.Roadmaps.Parsing

open Evidence Models ProofSupport

variable {tools : TextTools} {config : ReleaseConfig} {files : Files} {markdown : Markdown}
  {seen : List String} {payload : Bytes} {roadmap : ParsedRoadmap} {sources : TaskSources}

/-! ## Issues -/

def Known (config : ReleaseConfig) (block : SchemeBlock) : Prop :=
  (config.contract? block.type).isSome ∧
    (block.type ≠ "correction" → (config.bundle.exercise block.exerciseType).isSome)

variable {block : SchemeBlock}

theorem blockIssues_nil (h : blockIssues tools files markdown config seen block = []) :
    block.id ∉ seen ∧ Known config block := by
  simp only [blockIssues, List.append_eq_nil_iff] at h
  obtain ⟨⟨⟨hseen, hctr⟩, hexer⟩, -⟩ := h
  have hnew : block.id ∉ seen := by
    intro hmem
    rw [if_pos hmem] at hseen
    cases hseen
  refine ⟨hnew, ?_, ?_⟩
  · by_contra hnone
    rw [Option.not_isSome_iff_eq_none, ← Option.isNone_iff_eq_none] at hnone
    rw [if_pos hnone] at hctr
    cases hctr
  · intro hne
    by_contra hnone
    rw [Option.not_isSome_iff_eq_none, ← Option.isNone_iff_eq_none] at hnone
    rw [if_pos ⟨hne, hnone⟩] at hexer
    cases hexer

variable {blocks : List SchemeBlock}

theorem mem_blocksIssues_seen {id : String} :
    id ∈ (blocksIssues tools files markdown config seen blocks).2 ↔
      id ∈ seen ∨ id ∈ blocks.map SchemeBlock.id := by
  induction blocks generalizing seen with
  | nil => simp [blocksIssues]
  | cons block rest ih =>
    simp only [blocksIssues, ih, List.mem_cons, List.map_cons]
    constructor
    · rintro ((hid | hseen) | hrest)
      · exact Or.inr (Or.inl hid)
      · exact Or.inl hseen
      · exact Or.inr (Or.inr hrest)
    · rintro (hseen | hid | hrest)
      · exact Or.inl (Or.inr hseen)
      · exact Or.inl (Or.inl hid)
      · exact Or.inr hrest

theorem blocksIssues_nil (h : (blocksIssues tools files markdown config seen blocks).1 = []) :
    (blocks.map SchemeBlock.id).Nodup ∧
      ∀ block ∈ blocks, block.id ∉ seen ∧ Known config block := by
  induction blocks generalizing seen with
  | nil => simp
  | cons block rest ih =>
    simp only [blocksIssues, List.append_eq_nil_iff] at h
    obtain ⟨hnew, hknown⟩ := blockIssues_nil h.1
    obtain ⟨hnd, hrest⟩ := ih h.2
    constructor
    · rw [List.map_cons, List.nodup_cons]
      refine ⟨?_, hnd⟩
      intro hmem
      obtain ⟨other, ho, hsame⟩ := List.mem_map.mp hmem
      exact (hrest other ho).1 (hsame ▸ List.mem_cons_self ..)
    · intro other ho
      rcases List.mem_cons.mp ho with rfl | hmem
      · exact ⟨hnew, hknown⟩
      · exact ⟨fun hseen => (hrest other hmem).1 (List.mem_cons_of_mem _ hseen),
          (hrest other hmem).2⟩

theorem daysIssues_nil {days : List SchemeDay}
    (h : daysIssues tools files markdown config seen days = []) :
    ((days.flatMap SchemeDay.blocks).map SchemeBlock.id).Nodup ∧
      ∀ block ∈ days.flatMap SchemeDay.blocks, block.id ∉ seen ∧ Known config block := by
  induction days generalizing seen with
  | nil => simp
  | cons day rest ih =>
    simp only [daysIssues, List.append_eq_nil_iff] at h
    obtain ⟨hnd, hblks⟩ := blocksIssues_nil h.1.1.2
    obtain ⟨hndRest, hrest⟩ := ih h.2
    rw [List.flatMap_cons]
    constructor
    · rw [List.map_append, List.nodup_append]
      refine ⟨hnd, hndRest, ?_⟩
      rintro id hid other ho rfl
      obtain ⟨block, hblk, rfl⟩ := List.mem_map.mp ho
      exact (hrest block hblk).1 (mem_blocksIssues_seen.mpr (Or.inr hid))
    · intro block hblk
      rcases List.mem_append.mp hblk with hday | hmem
      · have hnew := (hblks block hday).1
        exact ⟨fun hseen => hnew (List.mem_cons_of_mem _ hseen), (hblks block hday).2⟩
      · have hnew := (hrest block hmem).1
        refine ⟨?_, (hrest block hmem).2⟩
        intro hseen
        exact hnew (mem_blocksIssues_seen.mpr (Or.inl (List.mem_cons_of_mem _ hseen)))

/-- A scheme that `validate_scheme` accepts. -/
theorem validateScheme_nil {scheme : SchemeFile}
    (h : validateScheme tools scheme files config = .ok []) :
    ((scheme.days.flatMap SchemeDay.blocks).map SchemeBlock.id).Nodup ∧
      ∀ block ∈ scheme.days.flatMap SchemeDay.blocks, Known config block := by
  simp only [validateScheme, bind_ok_iff] at h
  obtain ⟨markdown, -, h⟩ := h
  obtain ⟨-, hdays⟩ := List.append_eq_nil_iff.mp (Except.ok.inj h)
  obtain ⟨hnd, hblks⟩ := daysIssues_nil hdays
  exact ⟨hnd, fun block hblk => (hblks block hblk).2⟩

/-! ## Tasks -/

theorem blockTask_stableId {dayNumber order : Nat} {task : NormalizedTask}
    (h : blockTask tools sources dayNumber order block = .ok task) : task.stableId = block.id := by
  unfold blockTask at h
  split at h
  · simp only [bind_ok_iff] at h
    obtain ⟨exercise, -, name, -, role, -, h⟩ := h
    cases h
    rfl
  · cases h

theorem dayTasks_stableIds {day : SchemeDay × Nat} {tasks : List NormalizedTask}
    (h : dayTasks tools sources day = .ok tasks) :
    tasks.map NormalizedTask.stableId = day.1.blocks.map SchemeBlock.id := by
  have hids : tasks.map NormalizedTask.stableId =
      (day.1.blocks.zipIdx 1).map fun block => block.1.id :=
    mapM_ok_map h fun block _ hblk => blockTask_stableId hblk
  rw [hids, ← List.zipIdx_map_fst 1 day.1.blocks, List.map_map, List.zipIdx_map_fst]
  rfl

theorem tasks_stableIds {days : List (SchemeDay × Nat)} {tasks : List (List NormalizedTask)}
    (h : days.mapM (dayTasks tools sources) = .ok tasks) :
    tasks.flatten.map NormalizedTask.stableId =
      (days.flatMap fun day => day.1.blocks).map SchemeBlock.id := by
  have hall := mapM_ok_iff.mp h
  clear h
  induction hall with
  | nil => rfl
  | cons hday _ ih =>
    rw [List.flatten_cons, List.map_append, ih, dayTasks_stableIds hday, List.flatMap_cons,
      List.map_append]

/-! ## Resources and exit criteria -/

variable {accumulated after : Accumulated} {sourcePath : String}

theorem addResource_nodup {key label : String} {kind : ResourceKind}
    (hnd : (accumulated.map Prod.fst).Nodup)
    (h : addResource tools accumulated key kind label sourcePath = .ok after) :
    (after.map Prod.fst).Nodup := by
  unfold addResource at h
  dsimp only at h
  split at h
  · cases h
  · cases h
    exact Dict.nodup_set hnd

variable {requireLocal : Bool}

theorem resolvedOr_nodup {resolved : Except ParseFailure String}
    {next : String → Except ParseFailure Accumulated} (hnd : (accumulated.map Prod.fst).Nodup)
    (hnext : ∀ path, next path = .ok after → (after.map Prod.fst).Nodup)
    (h : resolvedOr requireLocal accumulated resolved next = .ok after) :
    (after.map Prod.fst).Nodup := by
  unfold resolvedOr at h
  split at h
  · exact hnext _ h
  · split at h
    · cases h
    · cases h
      exact hnd
  · cases h

theorem addMarkdownLink_nodup {link : String × String} (hnd : (accumulated.map Prod.fst).Nodup)
    (h : addMarkdownLink tools files requireLocal sourcePath accumulated link = .ok after) :
    (after.map Prod.fst).Nodup := by
  unfold addMarkdownLink at h
  split at h
  · cases h
  · split at h
    · split at h
      · cases h
      · exact addResource_nodup hnd h
    · exact resolvedOr_nodup hnd (fun path hadd => addResource_nodup hnd hadd) h

theorem addFileResources_nodup {file : String × String} (hnd : (accumulated.map Prod.fst).Nodup)
    (h : addFileResources tools files requireLocal accumulated file = .ok after) :
    (after.map Prod.fst).Nodup := by
  simp only [addFileResources, bind_ok_iff] at h
  obtain ⟨middle, hwiki, hmarkdown⟩ := h
  have hmiddle : (middle.map Prod.fst).Nodup := by
    refine foldlM_invariant (P := fun found : Accumulated => (found.map Prod.fst).Nodup) hwiki
      hnd ?_
    intro before link found hb hlink
    exact resolvedOr_nodup hb (fun path hadd => addResource_nodup hb hadd) hlink
  refine foldlM_invariant (P := fun found : Accumulated => (found.map Prod.fst).Nodup) hmarkdown
    hmiddle ?_
  intro before link found hb hlink
  exact addMarkdownLink_nodup hb hlink

theorem resources_nodup {found : List NormalizedResource}
    (h : resources tools files markdown requireLocal = .ok found) :
    (found.map NormalizedResource.key).Nodup := by
  simp only [resources, bind_ok_iff] at h
  obtain ⟨accumulated, haccumulated, h⟩ := h
  cases h
  have hnd : (accumulated.map Prod.fst).Nodup := by
    refine foldlM_invariant (P := fun found : Accumulated => (found.map Prod.fst).Nodup)
      haccumulated List.nodup_nil ?_
    intro before file after hb hfile
    exact addFileResources_nodup hb hfile
  rw [List.map_map]
  exact ((List.perm_insertionSort _ accumulated).map Prod.fst).nodup_iff.mpr hnd

theorem exitCriteria_nodup {required : Bool} {criteria : List NormalizedExitCriterion}
    (h : exitCriteria tools markdown required = .ok criteria) :
    (criteria.map NormalizedExitCriterion.text).Nodup := by
  have hfile : ∀ (path : String) (texts : List String) (before : List (String × List String)),
      (before.map Prod.fst).Nodup →
        ((texts.foldl (addCriterion path) before).map Prod.fst).Nodup := by
    intro path texts
    induction texts with
    | nil => exact fun _ hb => hb
    | cons text rest ih =>
      intro before hb
      exact ih _ (Dict.nodup_set hb)
  have hfiles : ∀ (content : Markdown) (before : List (String × List String)),
      (before.map Prod.fst).Nodup → ((content.foldl (fun sources file =>
        (criteriaFrom tools required none (visibleLines tools file.2)).foldl
          (addCriterion file.1) sources) before).map Prod.fst).Nodup := by
    intro content
    induction content with
    | nil => exact fun _ hb => hb
    | cons file rest ih =>
      intro before hb
      exact ih _ (hfile _ _ _ hb)
  unfold exitCriteria at h
  dsimp only at h
  split at h
  · cases h
  · cases h
    rw [List.map_map]
    exact ((List.perm_insertionSort _ _).map Prod.fst).nodup_iff.mpr
      (hfiles markdown [] List.nodup_nil)

/-! ## The parsed roadmap -/

structure WellParsed (roadmap : ParsedRoadmap) : Prop where
  schemaVersion : roadmap.schemaVersion = 2
  tasks : (roadmap.tasks.map NormalizedTask.stableId).Nodup
  contracts : roadmap.contracts = roadmap.tasks.map contractOf
  resources : (roadmap.resources.map NormalizedResource.key).Nodup
  exitCriteria : (roadmap.exitCriteria.map NormalizedExitCriterion.text).Nodup
  scheme : ∃ scheme, roadmap.scheme = some (schemePayload scheme)
  normalizedHash : roadmap.normalizedHash = payloadHash roadmap.payloadDict

theorem parseRoadmapScheme_ok
    (h : parseRoadmapScheme tools files config payload = .ok roadmap) :
    ∃ scheme markdown tasks found criteria, packageScheme tools payload = .ok scheme ∧
      validateScheme tools scheme files config = .ok [] ∧
      decodeMarkdown tools files = .ok markdown ∧
      (scheme.days.zipIdx 1).mapM (dayTasks tools
        ⟨config, markdown, interviewQueue tools markdown⟩) = .ok tasks ∧
      resources tools files markdown false = .ok found ∧
      exitCriteria tools markdown false = .ok criteria ∧
      roadmap = assembleRoadmap scheme tasks.flatten found criteria := by
  simp only [parseRoadmapScheme, bind_ok_iff] at h
  obtain ⟨scheme, hsch, issues, hissues, _, hnone, markdown, hmarkdown, tasks, htasks, found,
    hf, criteria, hcriteria, h⟩ := h
  rw [raiseFirst_eq_ok, List.forall_mem_singleton, Bool.not_eq_false', List.isEmpty_iff] at hnone
  subst hnone
  exact ⟨scheme, markdown, tasks, found, criteria, hsch, hissues, hmarkdown, htasks, hf,
    hcriteria, (Except.ok.inj h).symm⟩

theorem wellParsed (h : parseRoadmapScheme tools files config payload = .ok roadmap) :
    WellParsed roadmap := by
  obtain ⟨scheme, markdown, tasks, found, criteria, -, hissues, -, htasks, hf, hcriteria,
    rfl⟩ := parseRoadmapScheme_ok h
  refine ⟨rfl, ?_, rfl, resources_nodup hf, exitCriteria_nodup hcriteria, ⟨scheme, rfl⟩, rfl⟩
  have hids := tasks_stableIds htasks
  have hdays : (scheme.days.zipIdx 1).flatMap (fun day => day.1.blocks) =
      scheme.days.flatMap SchemeDay.blocks := by
    rw [← List.flatMap_map Prod.fst SchemeDay.blocks, List.zipIdx_map_fst]
  rw [hdays] at hids
  show (tasks.flatten.map NormalizedTask.stableId).Nodup
  rw [hids]
  exact (validateScheme_nil hissues).1

/-! ## Sample packages

Plans of one day with one block, with the file that the block is read from. -/

def samplePlanText (restWeekday contractType : String) : String :=
  "schema_version: 1\nprogram:\n  key: drills\n  title: Drills\n" ++
    "rest_weekdays: [" ++ restWeekday ++ "]\n" ++
    "days:\n  - id: day-1\n    kind: weekday\n    budget_minutes: 10\n    blocks:\n" ++
    "      - id: block-1\n        type: " ++ contractType ++ "\n        minutes: 10\n" ++
    "        source:\n          file: plan.md\n          heading: Drill\n" ++
    "        objective: Drill\n        exercise_type: sql_no_ai_timed_assessment\n"

def samplePlan (restWeekday : Weekday) (contractType : String)
    (htype : lengthWithin 1 64 contractType = true) : SchemeFile where
  program := ⟨"drills", "Drills", by decide, by decide⟩
  restWeekdays := [restWeekday]
  days := [{
    id := "day-1"
    kind := .weekday
    budgetMinutes := 10
    blocks := [{
      id := "block-1"
      type := contractType
      minutes := 10
      source := ⟨"plan.md", "Drill", by decide, by decide⟩
      objective := "Drill"
      exerciseType := "sql_no_ai_timed_assessment"
      id_valid := by decide
      type_bounded := htype
      minutes_pos := by decide
      minutes_le := by decide
      objective_bounded := by decide
      exerciseType_bounded := by decide }]
    id_valid := by decide
    budget_le := by decide
    blocks_nonempty := List.cons_ne_nil _ _ }]
  predecessor_bounded := by decide
  days_nonempty := List.cons_ne_nil _ _

def samplePlans : List (String × SchemeFile) :=
  [(samplePlanText "sunday" "technical", samplePlan .sunday "technical" (by decide)),
    (samplePlanText "monday" "technical", samplePlan .monday "technical" (by decide)),
    (samplePlanText "sunday" "interview", samplePlan .sunday "interview" (by decide))]

def separated (separator : Char) (text : String) : List String :=
  ((text.toList.splitOn separator).map String.ofList).filter fun part => part ≠ ""

/-- The parsers on ASCII texts without links, lists and fences, where every plan
is one of the samples. -/
def sampleTools : TextTools where
  Payload := SchemeFile
  safeLoad text :=
    match Dict.get? samplePlans text with
    | none => .error (.yaml "could not find expected ':'")
    | some plan => .ok plan
  isMapping _ := true
  validateScheme := .ok
  undecodable _ := "'utf-8' codec can't decode bytes"
  nfc := id
  lower := String.toLower
  casefold := String.toLower
  splitlines := separated '\n'
  words := separated ' '
  heading line :=
    if line.startsWith "# " then some (1, String.ofList (line.toList.drop 2)) else none
  fence _ := none
  wikiLinks _ := []
  withoutWikiLinks := id
  markdownLinks _ := []
  listItem _ := none
  queueId _ := none
  queueIds _ := []
  urlsplit target := .ok ("", target)

def sampleContract : TaskContractConfig where
  requiredOutput := ["A recording"]
  passCriteria := ["Complete"]
  evidenceRequirements := ["The recording"]
  procedure := [⟨"drill", some 10, "Drill aloud", by decide, by decide, by decide⟩]
  constraints := ["No notes"]
  lists_nonempty := by decide
  texts_bounded := by decide
  procedure_nonempty := List.cons_ne_nil _ _

def sampleConfig : ReleaseConfig where
  bundle := shippedBundle
  roadmapContracts := [("technical", sampleContract), ("interview", sampleContract)]
  contracts_nodup := by decide
  contracts_valid := by decide

def sampleFiles (restWeekday contractType : String) : Files :=
  [("plan.md", "# Drill\n".toUTF8.data.toList),
    (schemeFile, (samplePlanText restWeekday contractType).toUTF8.data.toList)]

theorem decodeUtf8_toUTF8 (text : String) : decodeUtf8 text.toUTF8.data.toList = some text := by
  have hbytes : (⟨text.toUTF8.data.toList.toArray⟩ : ByteArray) = text.toByteArray := by
    rw [Array.toArray_toList]
    rfl
  rw [decodeUtf8, hbytes, String.fromUTF8?, dif_pos text.isValidUTF8]
  rfl

section Samples

variable (restWeekday contractType : String)

theorem decodeMarkdown_sample :
    decodeMarkdown sampleTools (sampleFiles restWeekday contractType) =
      .ok [("plan.md", "# Drill\n")] := by
  have hplan : (sampleTools.lower "plan.md").endsWith ".md" = true := by decide +kernel
  have hsch : ¬(sampleTools.lower schemeFile).endsWith ".md" = true := by decide +kernel
  rw [decodeMarkdown, sampleFiles, List.mapM_cons, List.mapM_cons, List.mapM_nil, decodeFile,
    if_pos hplan, decodeUtf8_toUTF8, decodeFile, if_neg hsch]
  rfl

-- The bytes are decoded here, once and for all samples: the kernel is slow at it.
theorem parse_sample {plan : SchemeFile}
    (hplan : parseSchemeText sampleTools (samplePlanText restWeekday contractType) = .ok plan) :
    parseRoadmapScheme sampleTools (sampleFiles restWeekday contractType) sampleConfig
        (samplePlanText restWeekday contractType).toUTF8.data.toList = (do
      let files := sampleFiles restWeekday contractType
      let markdown := [("plan.md", "# Drill\n")]
      let issues := (if plan.restWeekdayIndexes.length = 7 then
          ["rest_weekdays leave no study weekday"] else []) ++
        daysIssues sampleTools files markdown sampleConfig [] plan.days
      raiseFirst [(!issues.isEmpty, .parse ("; ".intercalate issues))]
      let sources : TaskSources := ⟨sampleConfig, markdown, interviewQueue sampleTools markdown⟩
      let tasks ← (plan.days.zipIdx 1).mapM (dayTasks sampleTools sources)
      let resources ← resources sampleTools files markdown false
      let exitCriteria ← exitCriteria sampleTools markdown false
      return assembleRoadmap plan tasks.flatten resources exitCriteria) := by
  have hissues : validateScheme sampleTools plan (sampleFiles restWeekday contractType)
      sampleConfig = .ok ((if plan.restWeekdayIndexes.length = 7 then
          ["rest_weekdays leave no study weekday"] else []) ++
        daysIssues sampleTools (sampleFiles restWeekday contractType)
          [("plan.md", "# Drill\n")] sampleConfig [] plan.days) := by
    rw [validateScheme, decodeMarkdown_sample]
    rfl
  rw [parseRoadmapScheme, packageScheme, decodeUtf8_toUTF8]
  simp only [hplan]
  change (validateScheme sampleTools plan _ sampleConfig >>= _) = _
  rw [hissues, decodeMarkdown_sample]
  rfl

end Samples

theorem sunday_plan : parseSchemeText sampleTools (samplePlanText "sunday" "technical") =
    .ok (samplePlan .sunday "technical" (by decide)) := by
  decide +kernel

theorem sample_parses :
    (parseRoadmapScheme sampleTools (sampleFiles "sunday" "technical") sampleConfig
      (samplePlanText "sunday" "technical").toUTF8.data.toList).isOk = true := by
  rw [parse_sample _ _ sunday_plan]
  decide +kernel

end TamForge.Roadmaps.Parsing
