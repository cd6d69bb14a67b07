import TamForge.Memory.Models
import TamForge.ProofSupport.Dicts

/-!
# The Northstar history

`NorthstarEntry` and `NorthstarHistory` of `tamforge_protocol/workspaces.py`: a
record that is only appended to, in which an entry may replace an earlier one
by naming it.
-/

namespace TamForge.Workspaces

open Models ProofSupport
open Memory (isWhiteSpace)

inductive NorthstarEntryKind
  | fact | assumption | decision | risk | unresolvedQuestion
deriving DecidableEq

inductive NorthstarSource
  | scenario | learner | agent

def supersedingSources : List NorthstarSource := [.scenario]

/-- `LearnerText`: 1 to 8192 characters, one of them not white space. -/
def isLearnerText (text : String) : Bool :=
  decide (text.length ≤ 8192) && text.toList.any fun c => !isWhiteSpace c

/-- A validated `NorthstarEntry`. -/
structure NorthstarEntry where
  entryId : Nat
  kind : NorthstarEntryKind
  statement : String
  activityId : Nat
  source : NorthstarSource
  supersedesEntryId : Option Nat
  entry_pos : 0 < entryId
  statement_text : isLearnerText statement = true
  activity_pos : 0 < activityId
  target_pos : ∀ target, supersedesEntryId = some target → 0 < target
  /-- `only_a_scenario_rewrites` -/
  only_a_scenario_rewrites : ∀ target, supersedesEntryId = some target →
    target < entryId ∧ source ∈ supersedingSources

inductive HistoryError
  | tooLong
  | valueError (message : String)

/-- `WorkspaceRuleError`, with the error that it tells of. -/
structure WorkspaceRuleError where
  cause : HistoryError

/-- The limit on `entries`. -/
def maxEntries : Nat := 4096

/-- The variables of the loop of `append_only`. -/
structure Recorded where
  seen : List (Nat × NorthstarEntry)
  superseded : List Nat

/-- The body of the loop of `append_only`. -/
def Recorded.record (state : Recorded) (entry : NorthstarEntry) :
    Except HistoryError Recorded := do
  raiseFirst [((state.seen.map Prod.fst).max?.any fun last => decide (entry.entryId ≤ last),
    .valueError "entries must be recorded in increasing order")]
  match entry.supersedesEntryId with
  | none => return { state with seen := Dict.set state.seen entry.entryId entry }
  | some target =>
    match Dict.get? state.seen target with
    | none => throw (.valueError "an entry can only supersede one already recorded")
    | some old =>
      raiseFirst [
        (old.kind != entry.kind,
          .valueError "an entry can only supersede one of its own kind"),
        (state.superseded.contains target,
          .valueError "an entry has already been superseded")]
      return {
        seen := Dict.set state.seen entry.entryId entry,
        superseded := state.superseded ++ [target] }

def appendOnly (entries : List NorthstarEntry) : Except HistoryError Recorded :=
  entries.foldlM Recorded.record ⟨[], []⟩

/-- The checks of `NorthstarHistory(entries=...)`. -/
def validateEntries (entries : List NorthstarEntry) : Except HistoryError Unit := do
  raiseFirst [(decide (maxEntries < entries.length), .tooLong)]
  let _ ← appendOnly entries

/-- A validated `NorthstarHistory`. -/
structure NorthstarHistory where
  entries : List NorthstarEntry
  valid : validateEntries entries = .ok ()

namespace NorthstarHistory

/-- `NorthstarHistory()` -/
def empty : NorthstarHistory where
  entries := []
  valid := rfl

def supersededIds (history : NorthstarHistory) : List Nat :=
  history.entries.filterMap NorthstarEntry.supersedesEntryId

def current (history : NorthstarHistory) (kind : Option NorthstarEntryKind) :
    List NorthstarEntry :=
  history.entries.filter fun entry =>
    !history.supersededIds.contains entry.entryId && kind.all fun kind => entry.kind == kind

def append (history : NorthstarHistory) (entry : NorthstarEntry) :
    Except WorkspaceRuleError NorthstarHistory :=
  match h : validateEntries (history.entries ++ [entry]) with
  | .ok () => .ok ⟨history.entries ++ [entry], h⟩
  | .error error => .error ⟨error⟩

/-- The history that a caller holds after a call: the new one, or after a refusal
the one it had. -/
def afterCall (history : NorthstarHistory) (entry : NorthstarEntry) : NorthstarHistory :=
  match history.append entry with
  | .ok grown => grown
  | .error _ => history

def afterCalls (history : NorthstarHistory) (calls : List NorthstarEntry) : NorthstarHistory :=
  calls.foldl afterCall history

end NorthstarHistory

end TamForge.Workspaces
