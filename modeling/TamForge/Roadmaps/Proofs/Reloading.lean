import Mathlib
import TamForge.Roadmaps.Proofs.Parsing
import TamForge.Roadmaps.Service

/-!
# Reloading a stored roadmap

Storing a payload as JSON may only reorder the keys of its objects.  What each
reader takes from a stored document is therefore what the writer put under that
key, and `_parsed_from_payload` gives the parsed roadmap back; it rebuilds the
contracts, which in a parsed roadmap are those of the tasks.
-/

namespace TamForge.Roadmaps.Parsing

open Evidence Models ProofSupport

/-! ## Readers of one key -/

def SameItems (fields others : List (String × Json)) : Prop :=
  ∀ key, (Json.item? fields key).map Json.canonical = (Json.item? others key).map Json.canonical

variable {key : String}

section Readers

variable {fields others : List (String × Json)}

theorem member_same {value : Json} (key : String) (h : SameItems fields others)
    (hval : Json.item? fields key = some value) :
    ∃ other, member others key = .ok other ∧ Json.get others key = other ∧
      Json.Same value other := by
  obtain ⟨other, ho, hsame⟩ := Json.exists_item?_of_same h hval
  refine ⟨other, ?_, ?_, hsame⟩
  · rw [member, ho]
  · rw [Json.get, ho, Option.getD_some]

theorem pyInt_integer (value : Int) : pyInt (integer value) = .ok value := by
  have hread : value.repr.toInt? = some value := Int.toInt?_repr value
  rw [integer, pyInt, hread]
  rfl

theorem asInt_integer (value : Int) : asInt (integer value) = some value :=
  Int.toInt?_repr value

theorem memberStr_same {text : String} (h : SameItems fields others)
    (hval : Json.item? fields key = some (.string text)) : memberStr others key = .ok text := by
  obtain ⟨other, hmem, -, hsame⟩ := member_same _ h hval
  rw [Json.same_string] at hsame
  subst hsame
  rw [memberStr, hmem]
  rfl

theorem memberInt_same {value : Int} (h : SameItems fields others)
    (hval : Json.item? fields key = some (integer value)) : memberInt others key = .ok value := by
  obtain ⟨other, hmem, -, hsame⟩ := member_same _ h hval
  rw [integer, Json.same_number] at hsame
  subst hsame
  rw [memberInt, hmem]
  exact pyInt_integer value

theorem memberBool_same {value : Bool} (h : SameItems fields others)
    (hval : Json.item? fields key = some (.bool value)) : memberBool others key = .ok value := by
  obtain ⟨other, hmem, -, hsame⟩ := member_same _ h hval
  rw [Json.same_bool] at hsame
  subst hsame
  rw [memberBool, hmem]
  rfl

theorem optionalStr_same {text : Option String} (key : String) (h : SameItems fields others)
    (hval : Json.item? fields key = some (optional .string text)) :
    optionalStr (Json.get others key) = text := by
  obtain ⟨other, -, hget, hsame⟩ := member_same _ h hval
  rw [hget]
  cases text with
  | none =>
    rw [optional, Json.same_null] at hsame
    subst hsame
    rfl
  | some text =>
    rw [optional, Json.same_string] at hsame
    subst hsame
    rfl

end Readers

/-! ## Lists -/

theorem mapM_same {α : Type} {read : Json → Option α} (write : α → Json) {values : List α}
    {others : List Json}
    (hread : ∀ value other, Json.Same (write value) other → read other = some value)
    (h : List.Forall₂ Json.Same (values.map write) others) : others.mapM read = some values := by
  induction values generalizing others with
  | nil =>
    cases h
    rfl
  | cons value rest ih =>
    cases h with
    | cons hfst hrest => rw [List.mapM_cons, hread _ _ hfst, ih hrest]; rfl

variable {other : Json}

theorem tupleStrings_same {values : List String} (h : Json.Same (strings values) other) :
    tupleStrings other = .ok values := by
  obtain ⟨items, rfl, hitems⟩ := Json.same_array.mp h
  have hread : items.mapM asString = some values := by
    apply mapM_same Json.string _ hitems
    intro value item hitem
    rw [Json.same_string.mp hitem]
    rfl
  rw [tupleStrings, hread]

theorem memberStrings_same {fields others : List (String × Json)} {values : List String}
    (h : SameItems fields others) (hval : Json.item? fields key = some (strings values)) :
    memberStrings others key = .ok values := by
  obtain ⟨other, hmem, -, hsame⟩ := member_same _ h hval
  rw [memberStrings, hmem]
  exact tupleStrings_same hsame

/-! ## Steps and selections -/

theorem storedMinutes_same {minutes : Option Int} (h : Json.Same (optional integer minutes) other) :
    storedMinutes other = some minutes := by
  cases minutes with
  | none =>
    rw [Json.same_null.mp h]
    rfl
  | some value =>
    rw [Json.same_number.mp h]
    show (asInt (integer value)).map some = some (some value)
    rw [asInt_integer]
    rfl

theorem procedureStep_same {step : NormalizedProcedureStep} (h : Json.Same step.toDict other) :
    procedureStep other = some step := by
  obtain ⟨others, rfl, hitems⟩ := Json.Same.object h
  obtain ⟨phase, -, hph, hsamePh⟩ := member_same "phase" hitems rfl
  obtain ⟨minutes, -, hmins, hsameMins⟩ := member_same "minutes" hitems rfl
  obtain ⟨requirement, -, hrequirement, hsameRequirement⟩ :=
    member_same "requirement" hitems rfl
  rw [Json.same_string] at hsamePh hsameRequirement
  subst hsamePh hsameRequirement
  rw [procedureStep, hph, hmins, hrequirement, storedMinutes_same hsameMins]
  rfl

theorem procedure_same {steps : List NormalizedProcedureStep}
    (h : Json.Same (.array (steps.map NormalizedProcedureStep.toDict)) other) :
    procedure other = .ok steps := by
  obtain ⟨items, rfl, hitems⟩ := Json.same_array.mp h
  rw [procedure, mapM_same _ (fun _ _ => procedureStep_same) hitems]

theorem correction_same {selection : Option NormalizedCorrectionSelection}
    (h : Json.Same (optional NormalizedCorrectionSelection.toDict selection) other) :
    correction other = .ok selection := by
  cases selection with
  | none =>
    rw [Json.same_null.mp h]
    rfl
  | some selection =>
    obtain ⟨others, rfl, hitems⟩ := Json.Same.object h
    simp only [correction, bind_ok_iff]
    exact ⟨_, memberStr_same hitems rfl, _, memberInt_same hitems rfl, _,
      memberStrings_same hitems rfl, _, memberBool_same hitems rfl, _,
      memberBool_same hitems rfl, _, memberBool_same hitems rfl, _, memberBool_same hitems rfl,
      _, memberStr_same hitems rfl, rfl⟩

/-! ## Records -/

theorem reloadTask_same {task : NormalizedTask} (h : Json.Same (.object task.toDict) other) :
    reloadTask other = .ok task := by
  obtain ⟨others, rfl, hitems⟩ := Json.Same.object h
  obtain ⟨steps, hsteps, -, hsameSteps⟩ := member_same "procedure" hitems rfl
  obtain ⟨selection, -, hselection, hsameSelection⟩ :=
    member_same "correction_selection" hitems rfl
  have hexer := optionalStr_same "exercise_type" hitems rfl
  have hmapg := optionalStr_same "mapping_version" hitems rfl
  simp only [reloadTask, bind_ok_iff, hselection, hexer, hmapg]
  exact ⟨_, memberStr_same hitems rfl, _, memberInt_same hitems rfl, _,
    memberInt_same hitems rfl, _, memberInt_same hitems rfl, _, memberStr_same hitems rfl, _,
    memberInt_same hitems rfl, _, memberStr_same hitems rfl, _, memberStr_same hitems rfl, _,
    memberBool_same hitems rfl, _, memberInt_same hitems rfl, _, memberStr_same hitems rfl, _,
    memberStrings_same hitems rfl, _, memberStrings_same hitems rfl, _,
    memberStrings_same hitems rfl, _, hsteps, _, procedure_same hsameSteps, _,
    memberStrings_same hitems rfl, _, correction_same hsameSelection, _,
    memberStr_same hitems rfl, rfl⟩

theorem reloadResource_same {resource : NormalizedResource} {others : List (String × Json)}
    (h : SameItems resource.toDict others) : reloadResource others = .ok resource := by
  obtain ⟨kind, hkind, -, hsameKind⟩ := member_same "kind" h rfl
  rw [Json.same_string] at hsameKind
  subst hsameKind
  have hread : (if Json.string resource.kind.text = .string "external" then ResourceKind.external
      else .localFile) = resource.kind := by
    cases resource.kind <;> rfl
  simp only [reloadResource, bind_ok_iff]
  refine ⟨_, memberStr_same h rfl, _, hkind, _, memberStrings_same h rfl, _,
    memberStrings_same h rfl, ?_⟩
  rw [hread]
  rfl

theorem reloadCriterion_same {criterion : NormalizedExitCriterion}
    {others : List (String × Json)} (h : SameItems criterion.toDict others) :
    reloadCriterion others = .ok criterion := by
  simp only [reloadCriterion, bind_ok_iff]
  exact ⟨_, memberStr_same h rfl, _, memberStrings_same h rfl, rfl⟩

theorem mappings_same {α : Type} {read : List (String × Json) → Except ReloadFailure α}
    {write : α → List (String × Json)} {values : List α} {others : List Json}
    (hread : ∀ value fields, SameItems (write value) fields → read fields = .ok value)
    (h : List.Forall₂ Json.Same (values.map fun value => .object (write value)) others) :
    (mappings others).mapM read = .ok values := by
  induction values generalizing others with
  | nil =>
    cases h
    rfl
  | cons value rest ih =>
    cases h with
    | cons hfst hrest =>
      obtain ⟨fields, rfl, hitems⟩ := Json.Same.object hfst
      have hmappings : ∀ items, mappings (.object fields :: items) =
          fields :: mappings items := fun _ => rfl
      rw [hmappings, List.mapM_cons, hread value fields hitems, ih hrest]
      rfl

theorem reloadTasks_same {tasks : List NormalizedTask} {others : List Json}
    (h : List.Forall₂ Json.Same (tasks.map fun task => .object task.toDict) others) :
    others.mapM reloadTask = .ok tasks := by
  rw [List.forall₂_map_left_iff] at h
  exact mapM_ok_iff.mpr (h.flip.imp fun _ _ hsame => reloadTask_same hsame)

/-! ## The roadmap -/

variable {roadmap : ParsedRoadmap}

theorem parsedFromPayload_same {stored : List (String × Json)}
    (hctrs : roadmap.contracts = roadmap.tasks.map contractOf)
    (hsch : ∃ scheme, roadmap.scheme = some scheme)
    (h : Json.Same (.object roadmap.toDict) (.object stored)) :
    ∃ scheme, parsedFromPayload stored = .ok { roadmap with scheme := some scheme } ∧
      Json.get stored "scheme" = .object scheme ∧
      Json.Same (optional .object roadmap.scheme) (.object scheme) := by
  obtain ⟨others, hos, hitems⟩ := Json.Same.object h
  cases hos
  obtain ⟨scheme, hsch⟩ := hsch
  obtain ⟨tasks, -, htasks, hsameTasks⟩ := member_same "tasks" hitems rfl
  obtain ⟨found, -, hf, hsameFound⟩ := member_same "resources" hitems rfl
  obtain ⟨exits, -, hexits, hsameExits⟩ := member_same "exit_criteria" hitems rfl
  obtain ⟨ver, -, hver, hsameVer⟩ := member_same "schema_version" hitems rfl
  obtain ⟨kept, -, hkept, hsameKept⟩ := member_same "scheme" hitems rfl
  obtain ⟨tasks, rfl, htaskItems⟩ := Json.same_array.mp hsameTasks
  obtain ⟨found, rfl, hfoundItems⟩ := Json.same_array.mp hsameFound
  obtain ⟨exits, rfl, hexitItems⟩ := Json.same_array.mp hsameExits
  have hkeptObject : ∃ fields, kept = .object fields := by
    rw [hsch] at hsameKept
    obtain ⟨fields, hfld, -⟩ := Json.Same.object hsameKept
    exact ⟨fields, hfld⟩
  obtain ⟨fields, rfl⟩ := hkeptObject
  refine ⟨fields, ?_, hkept, hsameKept⟩
  have hverInt : asInt ver = some roadmap.schemaVersion := by
    rw [Json.same_number.mp hsameVer]
    exact asInt_integer _
  unfold parsedFromPayload
  rw [htasks, hf, hexits, hver, hkept]
  simp only [bind_ok_iff]
  refine ⟨_, reloadTasks_same htaskItems, _,
    mappings_same (fun _ _ => reloadResource_same) hfoundItems, _,
    mappings_same (fun _ _ => reloadCriterion_same) hexitItems, ?_⟩
  rw [hverInt]
  simp only [bind_ok_iff]
  refine ⟨_, memberStr_same hitems rfl, _, memberStr_same hitems rfl, _, rfl, ?_⟩
  rw [← hctrs]
  rfl

theorem payloadHash_scheme {scheme : List (String × Json)}
    (h : Json.Same (optional .object roadmap.scheme) (.object scheme)) :
    payloadHash { roadmap with scheme := some scheme }.payloadDict =
      payloadHash roadmap.payloadDict := by
  have hsame : Json.Same (.object { roadmap with scheme := some scheme }.payloadDict)
      (.object roadmap.payloadDict) := by
    apply Json.same_fields
    simp only [ParsedRoadmap.payloadDict, List.forall₂_cons, List.Forall₂.nil, and_true]
    simp only [true_and, Json.Same.refl, and_true]
    exact h.symm
  rw [payloadHash, payloadHash, hsame.canonicalPlain]

/-- A stored roadmap reloads as it was parsed, up to the order of the keys of its
scheme, and its payload has the digest of the parse. -/
theorem stored_roadmap_reloads {tools : TextTools} {files : Files} {config : ReleaseConfig}
    {payload : Bytes} {roadmap : ParsedRoadmap} {stored : List (String × Json)}
    (hparse : parseRoadmapScheme tools files config payload = .ok roadmap)
    (hstored : Json.Same (.object roadmap.toDict) (.object stored)) :
    ∃ reloaded, parsedFromPayload stored = .ok reloaded ∧
      { reloaded with scheme := roadmap.scheme } = roadmap ∧
      Json.Same (optional .object roadmap.scheme) (optional .object reloaded.scheme) ∧
      payloadHash reloaded.payloadDict = roadmap.normalizedHash ∧
      (stored = roadmap.toDict → reloaded = roadmap) := by
  have hwell := wellParsed hparse
  obtain ⟨plan, hplan⟩ := hwell.scheme
  obtain ⟨scheme, hreload, hkept, hsame⟩ :=
    parsedFromPayload_same hwell.contracts ⟨_, hplan⟩ hstored
  refine ⟨_, hreload, rfl, hsame, ?_, ?_⟩
  · rw [hwell.normalizedHash]
    exact payloadHash_scheme hsame
  · rintro rfl
    have hget : Json.get roadmap.toDict "scheme" = optional .object roadmap.scheme := rfl
    rw [hget, hplan] at hkept
    have hscheme : roadmap.scheme = some scheme := by
      rw [hplan, Json.object.inj hkept]
    rw [← hscheme]

theorem stored_sample_reloads :
    ∃ roadmap, parseRoadmapScheme sampleTools (sampleFiles "sunday" "technical") sampleConfig
        (samplePlanText "sunday" "technical").toUTF8.data.toList = .ok roadmap ∧
      ∃ reloaded, parsedFromPayload roadmap.toDict = .ok reloaded ∧
        payloadHash reloaded.payloadDict = roadmap.normalizedHash ∧ reloaded = roadmap := by
  obtain ⟨roadmap, hparse⟩ := exists_ok_of_isOk sample_parses
  obtain ⟨reloaded, hreload, -, -, hhash, hsame⟩ :=
    stored_roadmap_reloads hparse (Json.Same.refl _)
  exact ⟨roadmap, hparse, reloaded, hreload, hhash, hsame rfl⟩

end TamForge.Roadmaps.Parsing
