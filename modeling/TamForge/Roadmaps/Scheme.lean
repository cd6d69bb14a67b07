import TamForge.Evidence.Service
import TamForge.ProofSupport.Dicts

/-!
# The scheme of a package

`roadmaps/scheme.py`: the days, blocks, minutes and sources that `roadmap.yaml`
declares, with the bounds of their pydantic models, and the block names that a
contract type stands for.  The vocabulary of contracts comes with the release
configuration.
-/

namespace TamForge.Roadmaps.Parsing

open Evidence Models

/-! ## The release configuration -/

def boundedText (maximumBytes : Nat) (text : String) : Bool :=
  !isBlank text && decide (text.utf8ByteSize ≤ maximumBytes)

structure TaskContractStepConfig where
  phase : String
  minutes : Option Nat
  requirement : String
  phase_valid : Models.slug phase = true
  minutes_bounded : ∀ bound ∈ minutes, 0 < bound ∧ bound ≤ 255
  requirement_bounded : boundedText 1024 requirement = true

structure TaskContractConfig where
  requiredOutput : List String
  passCriteria : List String
  evidenceRequirements : List String
  procedure : List TaskContractStepConfig
  constraints : List String
  lists_nonempty : ∀ texts ∈ [requiredOutput, passCriteria, evidenceRequirements, constraints],
    texts ≠ []
  texts_bounded : ∀ text ∈ requiredOutput ++ passCriteria ++ evidenceRequirements ++ constraints,
    boundedText 1024 text = true
  procedure_nonempty : procedure ≠ []

/-- What a roadmap is parsed against: the scoring bundle and the vocabulary of
contracts, which may be any. -/
structure ReleaseConfig where
  bundle : ConfigBundle
  roadmapContracts : List (String × TaskContractConfig)
  contracts_nodup : (roadmapContracts.map Prod.fst).Nodup
  contracts_valid : ∀ contract ∈ roadmapContracts, Models.slug contract.1 = true

namespace ReleaseConfig

/-- `config.roadmap_contracts.get(type)` -/
def contract? (config : ReleaseConfig) (type : String) : Option TaskContractConfig :=
  (config.roadmapContracts.find? fun contract => contract.1 = type).map Prod.snd

end ReleaseConfig

/-! ## The file -/

inductive Weekday
  | monday | tuesday | wednesday | thursday | friday | saturday | sunday
deriving DecidableEq

def Weekday.index : Weekday → Nat
  | monday => 0
  | tuesday => 1
  | wednesday => 2
  | thursday => 3
  | friday => 4
  | saturday => 5
  | sunday => 6

def aiRoleText : Evidence.AiRole → String
  | .none => "none"
  | .planner => "planner"
  | .tutor => "tutor"
  | .coach => "coach"
  | .interviewer => "interviewer"
  | .reviewer => "reviewer"
  | .analyst => "analyst"

/-- `^[a-z0-9][a-z0-9-]{2,63}$` -/
def schemeId (text : String) : Bool :=
  matchesPattern (fun c => c.isLower || c.isDigit)
    (fun c => c.isLower || c.isDigit || c == '-') 63 text && decide (3 ≤ text.length)

/-- `^[a-z][a-z0-9_-]{1,63}$` -/
def programKey (text : String) : Bool :=
  matchesPattern Char.isLower (fun c => isSlugChar c || c == '-') 63 text &&
    decide (2 ≤ text.length)

/-- `min_length` and `max_length` -/
def lengthWithin (minimum maximum : Nat) (text : String) : Bool :=
  decide (minimum ≤ text.length) && decide (text.length ≤ maximum)

structure SchemeProgram where
  key : String
  title : String
  key_valid : programKey key = true
  title_bounded : lengthWithin 1 128 title = true
deriving DecidableEq

structure SchemeSource where
  file : String
  heading : String
  file_bounded : lengthWithin 1 2048 file = true
  heading_bounded : lengthWithin 1 512 heading = true
deriving DecidableEq

structure SchemeBlock where
  id : String
  type : String
  minutes : Nat
  source : SchemeSource
  objective : String
  required : Bool := true
  exerciseType : String := "official_reading"
  allowedAiRole : Option Evidence.AiRole := none
  id_valid : schemeId id = true
  type_bounded : lengthWithin 1 64 type = true
  minutes_pos : 0 < minutes
  minutes_le : minutes ≤ 255
  objective_bounded : lengthWithin 1 4096 objective = true
  exerciseType_bounded : lengthWithin 1 64 exerciseType = true

instance : DecidableEq SchemeBlock := fun a b =>
  decidable_of_iff (a.id = b.id ∧ a.type = b.type ∧ a.minutes = b.minutes ∧ a.source = b.source ∧
      a.objective = b.objective ∧ a.required = b.required ∧ a.exerciseType = b.exerciseType ∧
      a.allowedAiRole = b.allowedAiRole) (by cases a; cases b; simp)

inductive DayKind
  | weekday | assessment
deriving DecidableEq

def DayKind.text : DayKind → String
  | weekday => "weekday"
  | assessment => "assessment"

structure SchemeDay where
  id : String
  kind : DayKind
  budgetMinutes : Nat
  blocks : List SchemeBlock
  id_valid : schemeId id = true
  budget_le : budgetMinutes ≤ 720
  blocks_nonempty : blocks ≠ []
deriving DecidableEq

structure SchemeFile where
  program : SchemeProgram
  restWeekdays : List Weekday := [.sunday]
  predecessorVersion : Option String := none
  days : List SchemeDay
  predecessor_bounded : ∀ version ∈ predecessorVersion, lengthWithin 1 128 version = true
  days_nonempty : days ≠ []
deriving DecidableEq

def SchemeFile.restWeekdayIndexes (scheme : SchemeFile) : List Nat :=
  ProofSupport.Dict.sortedSet (scheme.restWeekdays.map Weekday.index)

/-! ## Block names -/

def contractBlocks : List (String × String) :=
  [("sql", "sql"), ("technical", "technical_learning"), ("pipeline", "career_pipeline"),
    ("correction", "correction_warmup"), ("case", "tam_case"),
    ("communication", "communication_spoken"), ("close", "daily_close")]

def defaultAiRoles : List (String × String) :=
  [("sql", "tutor"), ("technical", "tutor"), ("pipeline", "planner"), ("correction", "none"),
    ("case", "interviewer"), ("communication", "interviewer"), ("close", "analyst")]

/-- What parsing a package can raise.  The first two are caught by `_validate`: a
`RoadmapParseError`, and another `ValueError`. -/
inductive ParseFailure
  | parse (message : String)
  | value (message : String)
  | key (name : String)
deriving DecidableEq

/-- `table[key]` -/
def tableItem (table : List (String × String)) (key : String) : Except ParseFailure String :=
  match table.find? fun item => item.1 = key with
  | none => .error (.key key)
  | some item => .ok item.2

def blockName (contractType : String) : Except ParseFailure String :=
  if contractType.startsWith "saturday_" then .ok "saturday_assessment"
  else tableItem contractBlocks contractType

def defaultAiRole (contractType : String) : Except ParseFailure String :=
  if contractType.startsWith "saturday_" then .ok "none"
  else tableItem defaultAiRoles contractType

def weekdayMaxMinutes : Nat := 240

def assessmentMaxMinutes : Nat := 120

def maxSchemeBytes : Nat := 2 * 1024 * 1024

end TamForge.Roadmaps.Parsing
