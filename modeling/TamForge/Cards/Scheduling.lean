import TamForge.Models.Dates
import TamForge.ProofSupport.Decimals

/-!
# The pinned review schedule

`new_card_state` and `schedule` of `cards/scheduling.py`, with the columns and
checks of `cards/models.py` that a state is stored in.  The decimals are exact
rationals.
-/

namespace TamForge.Cards

open Models ProofSupport.Decimals

def minimumEasiness : Rat := 13 / 10

def initialEasiness : Rat := 5 / 2

def passingGrade : Int := 3

structure CardState where
  easiness : Rat
  intervalDays : Int
  repetitions : Nat
  dueOn : Date
deriving DecidableEq

structure ReviewOutcome where
  before : CardState
  after : CardState
  grade : Int
  successful : Bool

inductive ScheduleError
  | valueError (message : String)
  | overflowError
deriving DecidableEq

def newCardState (dueOn : Date) : CardState where
  easiness := initialEasiness
  intervalDays := 0
  repetitions := 0
  dueOn := dueOn

def easinessDelta (grade : Int) : Rat := -8 / 10 + 28 / 100 * grade - 2 / 100 * grade * grade

/-- `reviewed_on + timedelta(days=interval)` -/
def addDays (date : Date) (days : Int) : Except ScheduleError Date :=
  if 1 ≤ (date : Int) + days ∧ (date : Int) + days ≤ dateMax then
    .ok ((date : Int) + days).toNat
  else .error .overflowError

def schedule (state : CardState) (grade : Int) (reviewedOn : Date) :
    Except ScheduleError ReviewOutcome := do
  if ¬ (0 ≤ grade ∧ grade ≤ 5) then
    throw (.valueError "grade must be between 0 and 5")
  let easiness := max minimumEasiness (quantizeHalfEven 2 (state.easiness + easinessDelta grade))
  let successful := decide (passingGrade ≤ grade)
  let repetitions := if successful then state.repetitions + 1 else 0
  let interval :=
    if !successful then 1
    else if repetitions = 1 then 1
    else if repetitions = 2 then 6
    else max (roundHalfUp (state.intervalDays * easiness)) (state.intervalDays + 1)
  let dueOn ← addDays reviewedOn interval
  pure ⟨state, ⟨easiness, interval, repetitions, dueOn⟩, grade, successful⟩

/-! ## The table -/

/-- `Numeric(4, 2)` holds at most `99.99`. -/
def maxEasiness : Rat := 9999 / 100

/-- One more than an `Integer` column holds. -/
def integerEnd : Int := 2 ^ 31

/-- The columns and checks of `cards` accept a state, which is due after its
review. -/
structure Storable (reviewedOn : Date) (state : CardState) : Prop where
  easiness_places : HasPlaces 2 state.easiness
  easiness_floor : minimumEasiness ≤ state.easiness
  easiness_le : state.easiness ≤ maxEasiness
  interval_nonneg : 0 ≤ state.intervalDays
  interval_lt : state.intervalDays < integerEnd
  repetitions_lt : (state.repetitions : Int) < integerEnd
  dueOn_le : state.dueOn ≤ dateMax
  due_later : reviewedOn < state.dueOn

/-! ## Runs of reviews -/

structure Review where
  grade : Int
  reviewedOn : Date
  grade_nonneg : 0 ≤ grade
  grade_le : grade ≤ 5
deriving DecidableEq

def reviewed (state : CardState) (review : Review) : Except ScheduleError CardState := do
  let outcome ← schedule state review.grade review.reviewedOn
  pure outcome.after

def replay (dueOn : Date) (reviews : List Review) : Except ScheduleError CardState :=
  reviews.foldlM reviewed (newCardState dueOn)

def streak (reviews : List Review) : Nat :=
  (reviews.reverse.takeWhile fun review => passingGrade ≤ review.grade).length

end TamForge.Cards
