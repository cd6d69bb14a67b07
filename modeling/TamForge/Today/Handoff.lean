import TamForge.Learning.Models

/-!
# The daily handoff

`today/handoff.py`: what a closed day leaves behind, derived from its recorded
activities.
-/

namespace TamForge.Today

open Learning Models

inductive Outcome
  | completed | deferred | unfinished
deriving DecidableEq

inductive Assistance
  | independent | coached

structure HandoffActivityInput where
  activityId : Nat
  stableId : String
  objective : String
  state : ActivityState
  required : Bool
  focusedSeconds : Nat
  coached : Bool
  noteId : Option Nat

structure HandoffBlock where
  activityId : Nat
  stableId : String
  outcome : Outcome
  assistance : Assistance
  focusedMinutes : Nat
  state : ActivityState
  noteId : Option Nat

structure HandoffDraft where
  blocks : List HandoffBlock
  gaps : List String
  nextAction : String
  focusedMinutes : Nat

def stateValue : ActivityState → String
  | .ready => "ready"
  | .active => "active"
  | .paused => "paused"
  | .outputCommitted => "output_committed"
  | .selfReviewComplete => "self_review_complete"
  | .aiProcessing => "ai_processing"
  | .feedbackReady => "feedback_ready"
  | .correctionDue => "correction_due"
  | .demonstrated => "demonstrated"
  | .needsWork => "needs_work"
  | .incomplete => "incomplete"
  | .superseded => "superseded"

def completedStates : List ActivityState :=
  [.selfReviewComplete, .aiProcessing, .feedbackReady, .demonstrated]

def deferredStates : List ActivityState :=
  [.incomplete, .superseded]

def nextActionMaxChars : Nat := 500

def outcomeFor (state : ActivityState) : Outcome :=
  if state ∈ completedStates then .completed
  else if state ∈ deferredStates then .deferred
  else .unfinished

def rstrip (text : String) : String :=
  String.ofList ((text.toList.reverse.dropWhile isSpace).reverse)

def strip (text : String) : String :=
  rstrip (String.ofList (text.toList.dropWhile isSpace))

def clip (text : String) : String :=
  if text.length ≤ nextActionMaxChars then text
  else rstrip (String.ofList (text.toList.take (nextActionMaxChars - 1))) ++ "…"

/-- `_next_action`: the first of its searches that finds something. -/
def nextAction (activities : List HandoffActivityInput) (corrections : List Nat) : String :=
  let committed := (activities.find? fun item => item.state == .outputCommitted).map fun item =>
    clip ("Submit the self-review for " ++ item.stableId ++ ".")
  let required := (activities.find? fun item =>
      item.required && outcomeFor item.state == .unfinished).map fun item =>
    clip ("Finish " ++ item.stableId ++ ": " ++ item.objective)
  let due := (activities.find? fun item =>
      item.state == .correctionDue || item.state == .needsWork).map fun item =>
    clip ("Complete the due correction for " ++ item.stableId ++ ".")
  let correction := corrections.head?.map fun id =>
    "Complete correction " ++ toString id ++ " before starting new work."
  let useful := (activities.find? fun item =>
      !item.required && outcomeFor item.state == .unfinished).map fun item =>
    clip ("Pick up " ++ item.stableId ++ " if time allows: " ++ item.objective)
  (committed <|> required <|> due <|> correction <|> useful).getD
    "Start the first block of the next study day."

def handoffBlock (item : HandoffActivityInput) : HandoffBlock where
  activityId := item.activityId
  stableId := item.stableId
  outcome := outcomeFor item.state
  assistance := if item.coached then .coached else .independent
  focusedMinutes := item.focusedSeconds / 60
  state := item.state
  noteId := item.noteId

def activityGap (item : HandoffActivityInput) : Option String :=
  match outcomeFor item.state with
  | .unfinished =>
    let label := if item.required then "required" else "useful"
    some (item.stableId ++ " (" ++ label ++ ") left " ++ stateValue item.state)
  | .deferred => some (item.stableId ++ " deferred as " ++ stateValue item.state)
  | .completed => none

def buildHandoff (activities : List HandoffActivityInput) (unfinishedRequirement : Option String)
    (pendingCorrectionIds : List Nat) : HandoffDraft :=
  let blocks := activities.map handoffBlock
  let requirement := strip (unfinishedRequirement.getD "")
  { blocks := blocks,
    gaps := activities.filterMap activityGap ++
      (if requirement = "" then [] else [requirement]) ++
      pendingCorrectionIds.map fun id => "correction " ++ toString id ++ " still due",
    nextAction := nextAction activities pendingCorrectionIds,
    focusedMinutes := (blocks.map HandoffBlock.focusedMinutes).sum }

end TamForge.Today
