import Mathlib.Data.Finset.Card
import TamForge.Roadmaps.Proofs.Parsing

/-!
# What the reviewed diff tells

Each section of a diff says which records differ, and its entries rebuild the
records of the later roadmap.  The scheme is in no section.
-/

namespace TamForge.Roadmaps.Parsing

open Evidence Models ProofSupport

/-- The fields of a payload. -/
abbrev Payload := List (String × Json)

def FieldChange.apply (payload : Payload) (change : FieldChange) : Payload :=
  Dict.set payload change.name change.after

def EntityChange.apply (change : EntityChange) (before : Option Payload) : Option Payload :=
  match change.status with
  | .added => change.after
  | .removed => none
  | .changed => before.map fun payload => change.fields.foldl FieldChange.apply payload
  | .unchanged => before

def DiffSection.apply (changes : DiffSection) (before : List (String × Payload)) :
    List (String × Payload) :=
  changes.entries.filterMap fun entry =>
    (entry.apply (Dict.get? before entry.key)).map fun payload => (entry.key, payload)

/-! ## Fields -/

section Fields

variable {names : List String} {before after : Payload}

theorem get?_eq_get (hnd : (before.map Prod.fst).Nodup) {name : String}
    (hname : name ∈ before.map Prod.fst) :
    Dict.get? before name = some (Json.get before name) := by
  obtain ⟨value, hval⟩ := Option.isSome_iff_exists.mp (Dict.get?_isSome.mpr hname)
  have hget : Json.get before name = (Dict.get? before name).getD .null := by
    rw [← Dict.get?_reverse hnd]
    rfl
  rw [hget, hval, Option.getD_some]

/-- Payloads with the same names are equal when they agree under each of them. -/
theorem eq_of_get (hnd : (before.map Prod.fst).Nodup)
    (hnames : before.map Prod.fst = after.map Prod.fst)
    (h : ∀ name ∈ before.map Prod.fst, Json.get before name = Json.get after name) :
    before = after := by
  apply Dict.eq_of_get? hnames hnd
  intro name
  by_cases hname : name ∈ before.map Prod.fst
  · rw [get?_eq_get hnd hname, get?_eq_get (hnames ▸ hnd) (hnames ▸ hname), h name hname]
  · rw [Dict.get?_eq_none.mpr hname, Dict.get?_eq_none.mpr (hnames ▸ hname)]

def changedNames (before after : Payload) : List String :=
  (Dict.sortedSet (before.map Prod.fst ++ after.map Prod.fst)).filter fun name =>
    Json.get before name != Json.get after name

theorem mem_changedNames (hnames : before.map Prod.fst = after.map Prod.fst) {name : String} :
    name ∈ changedNames before after ↔
      name ∈ before.map Prod.fst ∧ Json.get before name ≠ Json.get after name := by
  rw [changedNames, List.mem_filter, Dict.mem_sortedSet, ← hnames, List.mem_append, or_self,
    bne_iff_ne]

theorem fieldChanges_isEmpty (hnd : (before.map Prod.fst).Nodup)
    (hnames : before.map Prod.fst = after.map Prod.fst) :
    (fieldChanges before after).isEmpty = true ↔ before = after := by
  have hnil : (fieldChanges before after).isEmpty = true ↔ changedNames before after = [] := by
    rw [List.isEmpty_iff]
    exact List.map_eq_nil_iff
  rw [hnil, List.eq_nil_iff_forall_not_mem]
  constructor
  · intro hnone
    apply eq_of_get hnd hnames
    intro name hname
    by_contra hne
    exact hnone name ((mem_changedNames hnames).mpr ⟨hname, hne⟩)
  · rintro rfl name hname
    exact ((mem_changedNames rfl).mp hname).2 rfl

theorem apply_fieldChanges (hnd : (before.map Prod.fst).Nodup)
    (hnames : before.map Prod.fst = after.map Prod.fst) :
    (fieldChanges before after).foldl FieldChange.apply before = after := by
  have hfold : (fieldChanges before after).foldl FieldChange.apply before =
      (changedNames before after).foldl
        (fun payload name => Dict.set payload name (Json.get after name)) before :=
    List.foldl_map
  have hkeys : ((fieldChanges before after).foldl FieldChange.apply before).map Prod.fst =
      before.map Prod.fst := by
    rw [hfold]
    exact Dict.keys_foldl_set fun name hname => ((mem_changedNames hnames).mp hname).1
  apply Dict.eq_of_get? (hkeys.trans hnames) (hkeys ▸ hnd)
  intro name
  rw [hfold, Dict.get?_foldl_set]
  split
  · rename_i hchanged
    have hname := ((mem_changedNames hnames).mp hchanged).1
    exact (get?_eq_get (hnames ▸ hnd) (hnames ▸ hname)).symm
  · rename_i hkept
    by_cases hname : name ∈ before.map Prod.fst
    · have hsame : Json.get before name = Json.get after name := by
        by_contra hne
        exact hkept ((mem_changedNames hnames).mpr ⟨hname, hne⟩)
      rw [get?_eq_get hnd hname, get?_eq_get (hnames ▸ hnd) (hnames ▸ hname), hsame]
    · rw [Dict.get?_eq_none.mpr hname, Dict.get?_eq_none.mpr (hnames ▸ hname)]

end Fields

section Entries

variable {key : String} {before after : Option Payload}

def Alike (before after : Option Payload) : Prop :=
  ∀ first ∈ before, ∀ second ∈ after, (first.map Prod.fst).Nodup ∧
    first.map Prod.fst = second.map Prod.fst

theorem entityChange_key : (entityChange key before after).key = key := by
  cases before <;> cases after <;> rfl

theorem entityChange_apply (halike : Alike before after) (hsome : before.isSome ∨ after.isSome) :
    (entityChange key before after).apply before = after := by
  cases before with
  | none => rfl
  | some first =>
    cases after with
    | none => rfl
    | some second =>
      obtain ⟨hnd, hnames⟩ := halike first rfl second rfl
      unfold entityChange EntityChange.apply
      dsimp only
      by_cases hnil : (fieldChanges first second).isEmpty = true
      · rw [if_pos hnil, (fieldChanges_isEmpty hnd hnames).mp hnil]
      · rw [if_neg hnil]
        exact congrArg some (apply_fieldChanges hnd hnames)

theorem entityChange_unchanged (halike : Alike before after)
    (hsome : before.isSome ∨ after.isSome) :
    (entityChange key before after).status = .unchanged ↔ before = after := by
  cases before with
  | none =>
    cases after with
    | none => simp at hsome
    | some second => simp [entityChange]
  | some first =>
    cases after with
    | none => simp [entityChange]
    | some second =>
      obtain ⟨hnd, hnames⟩ := halike first rfl second rfl
      unfold entityChange
      dsimp only
      rw [Option.some.injEq, ← fieldChanges_isEmpty hnd hnames]
      split <;> simp [*]

end Entries

/-! ## Sections -/

section Sections

variable {α : Type} {key : α → String} {payload : α → Payload} {before after : List α}

/-- Records of one kind: their payloads have the same distinct names, and the key
is part of the payload. -/
structure RecordLaws {α : Type} (key : α → String) (payload : α → Payload) : Prop where
  names_nodup : ∀ item, ((payload item).map Prod.fst).Nodup
  names_eq : ∀ first second, (payload first).map Prod.fst = (payload second).map Prod.fst
  key_eq : ∀ first second, payload first = payload second → key first = key second

def records (key : α → String) (payload : α → Payload) (items : List α) :
    List (String × Payload) :=
  items.map fun item => (key item, payload item)

theorem records_keys (key : α → String) (payload : α → Payload) (items : List α) :
    (records key payload items).map Prod.fst = items.map key := by
  rw [records, List.map_map]
  rfl

theorem records_payloads (key : α → String) (payload : α → Payload) (items : List α) :
    (records key payload items).map Prod.snd = items.map payload := by
  rw [records, List.map_map]
  rfl

theorem keyed_eq (h : (before.map key).Nodup) :
    keyed key payload before = records key payload before := by
  apply Dict.ofItems_eq_self
  rw [← records_keys key payload] at h
  exact h

theorem records_perm (laws : RecordLaws key payload) (hb : (before.map key).Nodup)
    (ha : (after.map key).Nodup) :
    (records key payload before).Perm (records key payload after) ↔
      (before.map payload).Perm (after.map payload) := by
  constructor
  · intro h
    rw [← records_payloads key payload, ← records_payloads key payload]
    exact h.map Prod.snd
  · intro h
    have hmem : ∀ {first second : List α}, (first.map payload).Perm (second.map payload) →
        ∀ record ∈ records key payload first, record ∈ records key payload second := by
      intro first second hperm record hrec
      obtain ⟨item, hitem, rfl⟩ := List.mem_map.mp hrec
      obtain ⟨other, ho, hsame⟩ :=
        List.mem_map.mp (hperm.subset (List.mem_map_of_mem (f := payload) hitem))
      refine List.mem_map.mpr ⟨other, ho, ?_⟩
      rw [hsame, laws.key_eq other item hsame]
    rw [← records_keys key payload] at hb ha
    rw [List.perm_ext_iff_of_nodup hb.of_map ha.of_map]
    exact fun record => ⟨hmem h record, hmem h.symm record⟩

theorem records_alike (laws : RecordLaws key payload) (itemKey : String) :
    Alike (Dict.get? (records key payload before) itemKey)
      (Dict.get? (records key payload after) itemKey) := by
  intro first hfst second hsec
  obtain ⟨item, -, hitem⟩ := List.mem_map.mp (Dict.mem_of_get? hfst)
  obtain ⟨other, -, ho⟩ := List.mem_map.mp (Dict.mem_of_get? hsec)
  obtain ⟨-, rfl⟩ := Prod.mk.inj hitem
  obtain ⟨-, rfl⟩ := Prod.mk.inj ho
  exact ⟨laws.names_nodup item, laws.names_eq item other⟩

def sectionKeys (key : α → String) (before after : List α) : List String :=
  Dict.sortedSet (before.map key ++ after.map key)

theorem diffSection_entries (hb : (before.map key).Nodup) (ha : (after.map key).Nodup) :
    (diffSection before after key payload).entries =
      (sectionKeys key before after).map fun itemKey =>
        entityChange itemKey (Dict.get? (records key payload before) itemKey)
          (Dict.get? (records key payload after) itemKey) := by
  unfold diffSection
  dsimp only
  rw [keyed_eq hb, keyed_eq ha, records_keys, records_keys]
  rfl

theorem mem_sectionKeys (payload : α → Payload) {itemKey : String} :
    itemKey ∈ sectionKeys key before after ↔
      (Dict.get? (records key payload before) itemKey).isSome ∨
      (Dict.get? (records key payload after) itemKey).isSome := by
  rw [sectionKeys, Dict.mem_sortedSet, List.mem_append, Dict.get?_isSome, Dict.get?_isSome,
    records_keys, records_keys]

theorem diffSection_length (hb : (before.map key).Nodup) (ha : (after.map key).Nodup) :
    (diffSection before after key payload).entries.length =
      (before.map key ++ after.map key).toFinset.card := by
  rw [diffSection_entries hb ha, List.length_map, List.card_toFinset]
  exact (List.perm_insertionSort _ _).length_eq

theorem diffSection_unchanged (laws : RecordLaws key payload) (hb : (before.map key).Nodup)
    (ha : (after.map key).Nodup) :
    (∀ entry ∈ (diffSection before after key payload).entries, entry.status = .unchanged) ↔
      (before.map payload).Perm (after.map payload) := by
  rw [← records_perm laws hb ha, diffSection_entries hb ha, List.forall_mem_map]
  have hkeys : ((records key payload before).map Prod.fst).Nodup ∧
      ((records key payload after).map Prod.fst).Nodup := by
    rw [records_keys, records_keys]
    exact ⟨hb, ha⟩
  rw [Dict.perm_iff_get? hkeys.1 hkeys.2]
  have hent : ∀ itemKey ∈ sectionKeys key before after,
      (entityChange itemKey (Dict.get? (records key payload before) itemKey)
        (Dict.get? (records key payload after) itemKey)).status = .unchanged ↔
      Dict.get? (records key payload before) itemKey =
        Dict.get? (records key payload after) itemKey := by
    intro itemKey hmem
    exact entityChange_unchanged (records_alike laws itemKey) ((mem_sectionKeys payload).mp hmem)
  constructor
  · intro hunchanged itemKey
    by_cases hmem : itemKey ∈ sectionKeys key before after
    · exact (hent itemKey hmem).mp (hunchanged itemKey hmem)
    · have hnone := mt (mem_sectionKeys payload).mpr hmem
      rw [not_or, Option.not_isSome_iff_eq_none, Option.not_isSome_iff_eq_none] at hnone
      rw [hnone.1, hnone.2]
  · intro hsame itemKey hmem
    exact (hent itemKey hmem).mpr (hsame itemKey)

theorem diffSection_apply (laws : RecordLaws key payload) (hb : (before.map key).Nodup)
    (ha : (after.map key).Nodup) :
    ((diffSection before after key payload).apply (records key payload before)).Perm
      (records key payload after) := by
  have hentries : (diffSection before after key payload).apply (records key payload before) =
      (sectionKeys key before after).filterMap fun itemKey =>
        (Dict.get? (records key payload after) itemKey).map fun value => (itemKey, value) := by
    rw [DiffSection.apply, diffSection_entries hb ha, List.filterMap_map]
    apply List.filterMap_congr
    intro itemKey hmem
    rw [Function.comp_apply, entityChange_key,
      entityChange_apply (records_alike laws itemKey) ((mem_sectionKeys payload).mp hmem)]
  rw [hentries]
  apply Dict.perm_filterMap_get? (Dict.nodup_sortedSet _)
  · rwa [records_keys]
  · intro itemKey hmem
    exact (mem_sectionKeys payload).mpr (Or.inr (Dict.get?_isSome.mpr hmem))

end Sections

theorem task_laws : RecordLaws NormalizedTask.stableId NormalizedTask.coreDict where
  names_nodup := fun _ => (by decide : (["stable_id", "month", "week", "day", "block", "order",
    "source_path", "source_heading", "exercise_type", "mapping_version", "required",
    "timebox_minutes", "objective", "allowed_ai_role"] : List String).Nodup)
  names_eq := fun _ _ => rfl
  key_eq := fun _ _ h => Json.string.inj (congrArg (Json.get · "stable_id") h)

theorem contract_laws :
    RecordLaws NormalizedTaskContract.stableId NormalizedTaskContract.toDict where
  names_nodup := fun _ => (by decide : (["stable_id", "required_output", "pass_criteria",
    "evidence_requirements", "procedure", "constraints", "correction_selection"] :
      List String).Nodup)
  names_eq := fun _ _ => rfl
  key_eq := fun _ _ h => Json.string.inj (congrArg (Json.get · "stable_id") h)

theorem resource_laws : RecordLaws NormalizedResource.key NormalizedResource.toDict where
  names_nodup := fun _ =>
    (by decide : (["key", "kind", "labels", "source_paths"] : List String).Nodup)
  names_eq := fun _ _ => rfl
  key_eq := fun _ _ h => Json.string.inj (congrArg (Json.get · "key") h)

theorem criterion_laws :
    RecordLaws NormalizedExitCriterion.text NormalizedExitCriterion.toDict where
  names_nodup := fun _ => (by decide : (["text", "source_paths"] : List String).Nodup)
  names_eq := fun _ _ => rfl
  key_eq := fun _ _ h => Json.string.inj (congrArg (Json.get · "text") h)

def joinTask (contracts : List (String × Payload)) (task : String × Payload) : Payload :=
  task.2 ++ ((Dict.get? contracts task.1).getD []).filter fun field => field.1 ≠ "stable_id"

theorem joinTask_perm {roadmap : ParsedRoadmap} (hwell : WellParsed roadmap)
    {tasks contracts : List (String × Payload)}
    (htasks : tasks.Perm (records NormalizedTask.stableId NormalizedTask.coreDict roadmap.tasks))
    (hctrs : contracts.Perm
      (records NormalizedTaskContract.stableId NormalizedTaskContract.toDict roadmap.contracts)) :
    (tasks.map (joinTask contracts)).Perm (roadmap.tasks.map NormalizedTask.toDict) := by
  let written := records NormalizedTaskContract.stableId NormalizedTaskContract.toDict
    roadmap.contracts
  have hkeys : (written.map Prod.fst).Nodup := by
    rw [records_keys, hwell.contracts, List.map_map]
    exact hwell.tasks
  have hsame : ∀ key, Dict.get? contracts key = Dict.get? written key :=
    (Dict.perm_iff_get? ((hctrs.map Prod.fst).nodup_iff.mpr hkeys) hkeys).mp hctrs
  have hjoin : ∀ task ∈ roadmap.tasks,
      joinTask contracts (task.stableId, task.coreDict) = task.toDict := by
    intro task htask
    have hget : Dict.get? written task.stableId = some (contractOf task).toDict := by
      rw [Dict.get?_eq_some hkeys]
      apply List.mem_map.mpr
      refine ⟨contractOf task, ?_, rfl⟩
      rw [hwell.contracts]
      exact List.mem_map_of_mem htask
    rw [joinTask, hsame, hget]
    rfl
  have hmap : (records NormalizedTask.stableId NormalizedTask.coreDict roadmap.tasks).map
      (joinTask contracts) = roadmap.tasks.map NormalizedTask.toDict := by
    rw [records, List.map_map]
    exact List.map_congr_left hjoin
  rw [← hmap]
  exact htasks.map _

/-! ## The claim of the diff -/

structure SameRecords (before after : ParsedRoadmap) : Prop where
  tasks : (before.tasks.map NormalizedTask.toDict).Perm (after.tasks.map NormalizedTask.toDict)
  contracts : (before.contracts.map NormalizedTaskContract.toDict).Perm
    (after.contracts.map NormalizedTaskContract.toDict)
  resources : (before.resources.map NormalizedResource.toDict).Perm
    (after.resources.map NormalizedResource.toDict)
  exitCriteria : (before.exitCriteria.map NormalizedExitCriterion.toDict).Perm
    (after.exitCriteria.map NormalizedExitCriterion.toDict)

def withoutProgramKey (field : String × Json) : String × Json :=
  match field with
  | ("program", .object program) =>
    ("program", .object (program.filter fun item => item.1 ≠ "key"))
  | field => field

def unversioned (scheme : Option (List (String × Json))) : Json :=
  optional (fun fields => .object (fields.map withoutProgramKey)) scheme

structure SamePayload (before after : ParsedRoadmap) : Prop where
  schemaVersion : before.schemaVersion = after.schemaVersion
  scheme : Json.Same (unversioned before.scheme) (unversioned after.scheme)
  records : SameRecords before after

def distinctKeys {α : Type} (key : α → String) (before after : List α) : Nat :=
  (before.map key ++ after.map key).toFinset.card

/-- The diff says whether the payloads are the same, its summary counts every key
once, and its entries rebuild the later records from the earlier ones. -/
structure TellsWholeChange (before after : ParsedRoadmap) : Prop where
  identical : (diffRoadmaps before after).isSemanticallyIdentical = true ↔
    SamePayload before after
  counted : ([ChangeStatus.added, .removed, .changed, .unchanged].map
      (diffRoadmaps before after).summary).sum =
    distinctKeys NormalizedTask.stableId before.tasks after.tasks +
      distinctKeys NormalizedTaskContract.stableId before.contracts after.contracts +
      distinctKeys NormalizedResource.key before.resources after.resources +
      distinctKeys NormalizedExitCriterion.text before.exitCriteria after.exitCriteria
  tasks : (((diffRoadmaps before after).tasks.apply
        (records NormalizedTask.stableId NormalizedTask.coreDict before.tasks)).map
      (joinTask ((diffRoadmaps before after).passContracts.apply
        (records NormalizedTaskContract.stableId NormalizedTaskContract.toDict
          before.contracts)))).Perm (after.tasks.map NormalizedTask.toDict)
  contracts : (((diffRoadmaps before after).passContracts.apply
      (records NormalizedTaskContract.stableId NormalizedTaskContract.toDict
        before.contracts)).map Prod.snd).Perm (after.contracts.map NormalizedTaskContract.toDict)
  resources : (((diffRoadmaps before after).resources.apply
      (records NormalizedResource.key NormalizedResource.toDict before.resources)).map
        Prod.snd).Perm (after.resources.map NormalizedResource.toDict)
  exitCriteria : (((diffRoadmaps before after).exitCriteria.apply
      (records NormalizedExitCriterion.text NormalizedExitCriterion.toDict
        before.exitCriteria)).map Prod.snd).Perm
    (after.exitCriteria.map NormalizedExitCriterion.toDict)

theorem isSemanticallyIdentical_iff (diff : SemanticRoadmapDiff) :
    diff.isSemanticallyIdentical = true ↔
      ∀ changes ∈ diff.sections, ∀ entry ∈ changes.entries, entry.status = .unchanged := by
  have hzero : ∀ status, (diff.summary status == 0) = true ↔
      ∀ changes ∈ diff.sections, ∀ entry ∈ changes.entries, entry.status ≠ status := by
    intro status
    rw [beq_iff_eq, SemanticRoadmapDiff.summary, List.countP_eq_zero, List.forall_mem_flatMap]
    simp only [decide_eq_true_eq]
  simp only [SemanticRoadmapDiff.isSemanticallyIdentical, List.all_cons, List.all_nil,
    Bool.and_eq_true, and_true, hzero]
  constructor
  · rintro ⟨hadded, hremoved, hchanged⟩ changes hchgs entry hent
    cases hst : entry.status with
    | added => exact absurd hst (hadded changes hchgs entry hent)
    | removed => exact absurd hst (hremoved changes hchgs entry hent)
    | changed => exact absurd hst (hchanged changes hchgs entry hent)
    | unchanged => rfl
  · intro hunchanged
    refine ⟨?_, ?_, ?_⟩
    all_goals
      intro changes hchgs entry hent hst
      rw [hunchanged changes hchgs entry hent] at hst
      cases hst

theorem summary_sum (diff : SemanticRoadmapDiff) :
    ([ChangeStatus.added, .removed, .changed, .unchanged].map diff.summary).sum =
      (diff.sections.flatMap DiffSection.entries).length := by
  simp only [List.map_cons, List.map_nil, List.sum_cons, List.sum_nil,
    SemanticRoadmapDiff.summary]
  induction diff.sections.flatMap DiffSection.entries with
  | nil => rfl
  | cons entry rest ih =>
    simp only [List.countP_cons, List.length_cons]
    cases entry.status <;> simp <;> omega

section Parsed

variable {before after : ParsedRoadmap}

theorem WellParsed.contract_keys (h : WellParsed before) :
    (before.contracts.map NormalizedTaskContract.stableId).Nodup := by
  rw [h.contracts, List.map_map]
  exact h.tasks

/-- The diff is identical exactly when the records are the same: a task is its
core payload with its contract. -/
theorem identical_iff (hb : WellParsed before) (ha : WellParsed after) :
    (diffRoadmaps before after).isSemanticallyIdentical = true ↔ SameRecords before after := by
  rw [isSemanticallyIdentical_iff]
  simp only [SemanticRoadmapDiff.sections, List.forall_mem_cons, List.not_mem_nil,
    IsEmpty.forall_iff, implies_true, and_true]
  have htasks := diffSection_unchanged task_laws hb.tasks ha.tasks
  have hctrs := diffSection_unchanged contract_laws hb.contract_keys ha.contract_keys
  have hresources := diffSection_unchanged resource_laws hb.resources ha.resources
  have hcriteria := diffSection_unchanged criterion_laws hb.exitCriteria ha.exitCriteria
  constructor
  · rintro ⟨hsameTasks, hsameCtrs, hsameResources, hsameCriteria⟩
    have hcores := (records_perm task_laws hb.tasks ha.tasks).mpr (htasks.mp hsameTasks)
    have hwr := (records_perm contract_laws hb.contract_keys ha.contract_keys).mpr
      (hctrs.mp hsameCtrs)
    exact {
      tasks := (joinTask_perm hb (List.Perm.refl _) (List.Perm.refl _)).symm.trans
        (joinTask_perm ha hcores hwr)
      contracts := hctrs.mp hsameCtrs
      resources := hresources.mp hsameResources
      exitCriteria := hcriteria.mp hsameCriteria }
  · intro hsame
    refine ⟨htasks.mpr ?_, hctrs.mpr hsame.contracts, hresources.mpr hsame.resources,
      hcriteria.mpr hsame.exitCriteria⟩
    -- The core payload is the first fourteen fields of the task.
    have hcore := hsame.tasks.map (List.take 14)
    rw [List.map_map, List.map_map] at hcore
    exact hcore

theorem diff_counted (hb : WellParsed before) (ha : WellParsed after) :
    ([ChangeStatus.added, .removed, .changed, .unchanged].map
      (diffRoadmaps before after).summary).sum =
    distinctKeys NormalizedTask.stableId before.tasks after.tasks +
      distinctKeys NormalizedTaskContract.stableId before.contracts after.contracts +
      distinctKeys NormalizedResource.key before.resources after.resources +
      distinctKeys NormalizedExitCriterion.text before.exitCriteria after.exitCriteria := by
  rw [summary_sum, List.length_flatMap]
  simp only [SemanticRoadmapDiff.sections, List.map_cons, List.map_nil, List.sum_cons,
    List.sum_nil, diffRoadmaps]
  rw [diffSection_length hb.tasks ha.tasks,
    diffSection_length hb.contract_keys ha.contract_keys,
    diffSection_length hb.resources ha.resources,
    diffSection_length hb.exitCriteria ha.exitCriteria]
  simp only [distinctKeys]
  omega

theorem section_rebuilds {α : Type} {key : α → String} {payload : α → Payload}
    {first second : List α} (laws : RecordLaws key payload) (hfst : (first.map key).Nodup)
    (hsec : (second.map key).Nodup) :
    (((diffSection first second key payload).apply (records key payload first)).map Prod.snd).Perm
      (second.map payload) := by
  rw [← records_payloads key payload]
  exact (diffSection_apply laws hfst hsec).map Prod.snd

/-- The diff tells the whole change exactly when roadmaps with the same records
have the same scheme. -/
theorem tellsWholeChange_iff (hb : WellParsed before) (ha : WellParsed after) :
    TellsWholeChange before after ↔ (SameRecords before after →
      Json.Same (unversioned before.scheme) (unversioned after.scheme)) := by
  constructor
  · intro htells hsame
    exact (htells.identical.mp ((identical_iff hb ha).mpr hsame)).scheme
  · intro hsch
    refine {
      identical := ?_
      counted := diff_counted hb ha
      tasks := ?_
      contracts := section_rebuilds contract_laws hb.contract_keys ha.contract_keys
      resources := section_rebuilds resource_laws hb.resources ha.resources
      exitCriteria := section_rebuilds criterion_laws hb.exitCriteria ha.exitCriteria }
    · rw [identical_iff hb ha]
      constructor
      · intro hsame
        exact ⟨hb.schemaVersion.trans ha.schemaVersion.symm, hsch hsame, hsame⟩
      · exact SamePayload.records
    · exact joinTask_perm ha (diffSection_apply task_laws hb.tasks ha.tasks)
        (diffSection_apply contract_laws hb.contract_keys ha.contract_keys)

end Parsed

/-- The reviewed diff tells the whole change between two parsed roadmaps exactly
when their schemes differ in no more than the version, or some record differs. -/
theorem reviewed_diff_iff {tools tools' : TextTools} {files files' : Files}
    {config config' : ReleaseConfig} {payload payload' : Bytes} {before after : ParsedRoadmap}
    (hbefore : parseRoadmapScheme tools files config payload = .ok before)
    (hafter : parseRoadmapScheme tools' files' config' payload' = .ok after) :
    TellsWholeChange before after ↔
      (Json.Same (unversioned before.scheme) (unversioned after.scheme) ∨
        ¬SameRecords before after) := by
  rw [tellsWholeChange_iff (wellParsed hbefore) (wellParsed hafter), imp_iff_or_not]

def sampleParse (restWeekday : String) : Except ParseFailure ParsedRoadmap :=
  parseRoadmapScheme sampleTools (sampleFiles restWeekday "technical") sampleConfig
    (samplePlanText restWeekday "technical").toUTF8.data.toList

theorem reviewed_diff_sample :
    ∃ roadmap, sampleParse "sunday" = .ok roadmap ∧ TellsWholeChange roadmap roadmap := by
  obtain ⟨roadmap, hparse⟩ := exists_ok_of_isOk sample_parses
  exact ⟨roadmap, hparse, (reviewed_diff_iff hparse hparse).mpr (Or.inl (Json.Same.refl _))⟩

/-- Moving the rest day from Sunday to Monday is no change of the diff. -/
theorem rest_weekday_untold :
    ∃ before after, sampleParse "sunday" = .ok before ∧ sampleParse "monday" = .ok after ∧
      (diffRoadmaps before after).isSemanticallyIdentical = true ∧
      ¬SamePayload before after ∧ ¬TellsWholeChange before after := by
  have hparses : (do
      let before ← sampleParse "sunday"
      let after ← sampleParse "monday"
      return ((diffRoadmaps before after).isSemanticallyIdentical,
        decide (Json.Same (unversioned before.scheme) (unversioned after.scheme)))) =
      .ok (true, false) := by
    have hmonday : parseSchemeText sampleTools (samplePlanText "monday" "technical") =
        .ok (samplePlan .monday "technical" (by decide)) := by
      decide +kernel
    rw [sampleParse, sampleParse, parse_sample _ _ sunday_plan, parse_sample _ _ hmonday]
    decide +kernel
  simp only [bind_ok_iff] at hparses
  obtain ⟨before, hbefore, after, hafter, h⟩ := hparses
  obtain ⟨hidentical, hscheme⟩ := Prod.mk.inj (Except.ok.inj h)
  have hdiffer : ¬SamePayload before after := fun hsame =>
    of_decide_eq_false hscheme hsame.scheme
  exact ⟨before, after, hbefore, hafter, hidentical, hdiffer,
    fun htells => hdiffer (htells.identical.mp hidentical)⟩

end TamForge.Roadmaps.Parsing
