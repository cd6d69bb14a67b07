import Mathlib.Data.List.Sort
import Mathlib.Order.Defs.LinearOrder
import TamForge.ProofSupport.Decimals

/-!
# The reviewer's scoring contract

The only shape a review may take: scores with reasons, two strengths, two
corrections.
-/

namespace TamForge.Agents

def reviewPromptVersion : String := "v1"

/-- `Field(min_length=low, max_length=high)` -/
def BoundedText (low high : Nat) (text : String) : Prop :=
  low ≤ text.length ∧ text.length ≤ high

instance (low high : Nat) (text : String) : Decidable (BoundedText low high text) :=
  inferInstanceAs (Decidable (_ ∧ _))

structure ScoredReviewDimension where
  slug : String
  score : Rat
  rationale : String
  evidence : String
  slug_bounded : BoundedText 1 64 slug
  score_nonneg : 0 ≤ score
  score_le : score ≤ 20
  rationale_bounded : BoundedText 1 1000 rationale
  evidence_bounded : BoundedText 1 500 evidence

structure ReviewFinding where
  statement : String
  instruction : String := ""
  statement_bounded : BoundedText 1 500 statement
  instruction_bounded : BoundedText 0 500 instruction

structure ReviewOutcome where
  verdict : String
  dimensions : List ScoredReviewDimension
  strengths : List ReviewFinding
  corrections : List ReviewFinding
  nextPractice : String
  verdict_bounded : BoundedText 1 1000 verdict
  dimensions_bounded : 1 ≤ dimensions.length ∧ dimensions.length ≤ 16
  strengths_two : strengths.length = 2
  corrections_two : corrections.length = 2
  nextPractice_bounded : BoundedText 1 500 nextPractice

/-! ## The checks of a review -/

/-- The fields of a `ReviewDimension` that a review is checked against, the
maximum also as `str` prints it. -/
structure ReviewDimension where
  slug : String
  maximum : Rat
  maximumText : String

/-- The keys of `expected`, in order. -/
def expectedSlugs (dimensions : List ReviewDimension) : List String :=
  (dimensions.map ReviewDimension.slug).eraseDups

/-- `expected[slug]`: of two dimensions with one slug the later. -/
def expectedDimension (dimensions : List ReviewDimension) (slug : String) :
    Option ReviewDimension :=
  dimensions.reverse.find? fun item => item.slug == slug

/-- `given` -/
def ReviewOutcome.slugs (outcome : ReviewOutcome) : List String :=
  outcome.dimensions.map ScoredReviewDimension.slug

/-- `sorted` on texts -/
def sortedTexts (texts : List String) : List String :=
  texts.insertionSort (· ≤ ·)

/-- What the loop over the dimensions says of one of them; `expected` has every
slug that gets here. -/
def scoreIssue (dimensions : List ReviewDimension) (item : ScoredReviewDimension) :
    Option String :=
  (expectedDimension dimensions item.slug).bind fun expected =>
    if expected.maximum < item.score then
      some ("dimension " ++ item.slug ++ " exceeds its maximum " ++ expected.maximumText)
    else if item.score ≠ ProofSupport.Decimals.quantizeHalfEven 1 item.score then
      some ("dimension " ++ item.slug ++ " must be scored in half points")
    else none

/-- `marker in text` -/
def containsText (text marker : String) : Bool :=
  text.toList.tails.any fun rest => marker.toList.isPrefixOf rest

/-- The texts that say something was done. -/
def actionMarkers : List String :=
  ["marked as done", "i marked", "i recorded", "i scheduled", "i completed"]

/-- The text of a review that `lowered` is the lower case of. -/
def ReviewOutcome.prose (outcome : ReviewOutcome) : String :=
  " ".intercalate ([outcome.verdict, outcome.nextPractice] ++
    (outcome.strengths ++ outcome.corrections).map ReviewFinding.statement)

/-- `len({f.statement.casefold() for f in findings}) < 2` -/
def repeatsItself (casefold : String → String) (findings : List ReviewFinding) : Bool :=
  decide ((findings.map fun finding => casefold finding.statement).eraseDups.length < 2)

/-- The first error of `model_validate`: the parts of its place, and its text. -/
structure FirstError where
  location : List String
  message : String

/-- `validate_review`, over what `model_validate`, `str.lower` and
`str.casefold` give. -/
def validateReview {Payload : Type} (modelValidate : Payload → Except FirstError ReviewOutcome)
    (lower casefold : String → String) (payload : Payload) (dimensions : List ReviewDimension) :
    List String :=
  match modelValidate payload with
  | .error first =>
    let joined := ".".intercalate first.location
    let location := if joined = "" then "review" else joined
    ["review " ++ location ++ ": " ++ first.message]
  | .ok outcome =>
    if sortedTexts outcome.slugs ≠ sortedTexts (expectedSlugs dimensions) then
      ["the review must score exactly the rubric's dimensions: " ++
        ", ".intercalate (expectedSlugs dimensions)]
    else
      match outcome.dimensions.findSome? (scoreIssue dimensions) with
      | some issue => [issue]
      | none =>
        if actionMarkers.any (containsText (lower outcome.prose)) then
          ["the reviewer cannot claim to have recorded, scheduled or completed anything"]
        else if repeatsItself casefold outcome.corrections then
          ["the two corrections must be distinct"]
        else if repeatsItself casefold outcome.strengths then
          ["the two strengths must be distinct"]
        else []

end TamForge.Agents
