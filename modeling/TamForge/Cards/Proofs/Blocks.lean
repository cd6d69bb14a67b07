import Mathlib.Data.List.TakeWhile
import TamForge.Cards.Importing

/-!
# The blocks of a note

A block runs from a question line to the blank line or the question line that
ends it.  The loop over the lines makes one pair of each block: its question is
the lines before the first answer line, its answer the lines from the last one on.
-/

namespace TamForge.Cards

open Models
open Today (strip rstrip)

/-! ## Lines -/

inductive Line
  | question (rest : String)
  | answer (rest : String)
  | blank
  | text (content : String)
deriving DecidableEq

def classify (raw : String) : Line :=
  let line := rstrip raw
  match questionPrefix line with
  | some rest => .question (strip rest)
  | none =>
    match answerPrefix line with
    | some rest => .answer (strip rest)
    | none => if isBlank line then .blank else .text (strip line)

namespace Line

def isAnswer : Line → Bool
  | answer _ => true
  | question _ | blank | text _ => false

def continues : Line → Bool
  | answer _ | text _ => true
  | question _ | blank => false

def content : Line → String
  | question rest => rest
  | answer rest => rest
  | blank => ""
  | text content => content

end Line

def Reading.read (reading : Reading) : Line → Reading
  | .question rest => ⟨reading.close.pairs, some [rest], none⟩
  | .blank => reading.close
  | .answer rest =>
    match reading.question with
    | some _ => { reading with answer := some [rest] }
    | none => reading
  | .text content =>
    match reading.answer, reading.question with
    | some answer, _ => { reading with answer := some (answer ++ [content]) }
    | none, some question => { reading with question := some (question ++ [content]) }
    | none, none => reading

/-- There is no answer without a question. -/
def Reading.Coherent (reading : Reading) : Prop :=
  reading.question = none → reading.answer = none

variable {reading : Reading} {pairs : List (String × String)} {lines block rest : List Line}

theorem Reading.close_eq (reading : Reading) : reading.close = ⟨reading.close.pairs, none, none⟩ := by
  unfold Reading.close
  split
  · simp only
    split <;> rfl
  · rfl

theorem Reading.Coherent.read (h : reading.Coherent) (line : Line) :
    (reading.read line).Coherent := by
  cases line with
  | question rest => exact fun hnone => by cases hnone
  | blank =>
    intro _
    rw [Reading.read, Reading.close_eq]
  | answer rest =>
    obtain ⟨pairs, question, answer⟩ := reading
    cases question with
    | none => exact h
    | some question => exact fun hnone => by cases hnone
  | text content =>
    obtain ⟨pairs, question, answer⟩ := reading
    cases question with
    | none =>
      cases h rfl
      exact h
    | some question =>
      cases answer <;> exact fun hnone => by cases hnone

theorem skipStars_of_blank {text : List Char} (h : text.all isSpace = true) :
    skipStars text = [] := by
  have hnil : text.dropWhile isSpace = [] := by
    rw [List.dropWhile_eq_nil_iff]
    exact List.all_eq_true.mp h
  simp [skipStars, hnil]

theorem matchPrefix_of_blank {line : String} (initial : Char) (more : List Char)
    (h : isBlank line = true) : matchPrefix initial more line = none := by
  unfold matchPrefix
  rw [skipStars_of_blank h]

theorem Reading.line_eq (h : reading.Coherent) (raw : String) :
    reading.line raw = reading.read (classify raw) := by
  unfold Reading.line classify
  simp only
  cases hques : questionPrefix (rstrip raw) with
  | some rest => rfl
  | none =>
    cases hans : answerPrefix (rstrip raw) with
    | none =>
      simp only
      split
      · rfl
      · rfl
    | some rest =>
      have hblank : isBlank (rstrip raw) = false := by
        by_contra hblank
        rw [answerPrefix, matchPrefix_of_blank _ _ (by simpa using hblank)] at hans
        cases hans
      cases hopen : reading.question with
      | some question => simp [Reading.read, hopen]
      | none => simp [Reading.read, hopen, hblank, h hopen]

theorem foldl_line (h : reading.Coherent) (lines : List String) :
    lines.foldl Reading.line reading = (lines.map classify).foldl Reading.read reading := by
  induction lines generalizing reading with
  | nil => rfl
  | cons raw rest ih =>
    rw [List.map_cons, List.foldl_cons, List.foldl_cons, Reading.line_eq h]
    exact ih (h.read (classify raw))

/-! ## Blocks -/

def blocks : List Line → List (List Line)
  | [] => []
  | .question first :: rest => (.question first :: rest.takeWhile Line.continues) :: blocks rest
  | .answer _ :: rest | .blank :: rest | .text _ :: rest => blocks rest

def questionLines (block : List Line) : List Line := block.takeWhile fun line => !line.isAnswer

def lastAnswer : List Line → List Line
  | [] => []
  | line :: rest =>
    if rest.any Line.isAnswer then lastAnswer rest
    else if line.isAnswer then line :: rest
    else []

def beforeLast : List Line → List Line
  | [] => []
  | line :: rest => if rest.any Line.isAnswer then line :: beforeLast rest else []

def replacedLines (block : List Line) : List Line :=
  beforeLast (block.dropWhile fun line => !line.isAnswer)

def joined (lines : List Line) : String := strip (" ".intercalate (lines.map Line.content))

def blockQuestion (block : List Line) : String := joined (questionLines block)

def blockAnswer (block : List Line) : String := joined (lastAnswer block)

def pairOf (block : List Line) : Option (String × String) :=
  if blockQuestion block ≠ "" ∧ blockAnswer block ≠ "" then
    some (blockQuestion block, blockAnswer block)
  else none

theorem lastAnswer_eq_nil (h : lines.any Line.isAnswer = false) : lastAnswer lines = [] := by
  cases lines with
  | nil => rfl
  | cons line rest =>
    rw [List.any_cons, Bool.or_eq_false_iff] at h
    simp [lastAnswer, h]

theorem beforeLast_append (h : lines.any Line.isAnswer = true) :
    beforeLast lines ++ lastAnswer lines = lines := by
  induction lines with
  | nil => cases h
  | cons line rest ih =>
    unfold beforeLast lastAnswer
    by_cases hrest : rest.any Line.isAnswer = true
    · rw [if_pos hrest, if_pos hrest, List.cons_append, ih hrest]
    · have hline : line.isAnswer = true := by simpa [hrest] using h
      rw [if_neg hrest, if_neg hrest, if_pos hline, List.nil_append]

theorem beforeLast_sublist (lines : List Line) : (beforeLast lines).Sublist lines := by
  induction lines with
  | nil => exact List.Sublist.refl _
  | cons line rest ih =>
    unfold beforeLast
    split
    · exact ih.cons_cons line
    · exact List.nil_sublist _

theorem mem_of_mem_replaced {line : Line} (h : line ∈ replacedLines block) : line ∈ block :=
  (List.dropWhile_sublist _).subset ((beforeLast_sublist _).subset h)

theorem lastAnswer_dropWhile (lines : List Line) :
    lastAnswer (lines.dropWhile fun line => !line.isAnswer) = lastAnswer lines := by
  induction lines with
  | nil => rfl
  | cons line rest ih =>
    by_cases hline : line.isAnswer = true
    · rw [List.dropWhile_cons_of_neg (by simpa using hline)]
    · rw [List.dropWhile_cons_of_pos (by simpa using hline), ih, lastAnswer]
      by_cases hrest : rest.any Line.isAnswer = true
      · rw [if_pos hrest]
      · rw [if_neg hrest, if_neg hline]
        exact lastAnswer_eq_nil (by simpa using hrest)

/-- A line of a block is before the first answer line, replaced, or behind the
last one. -/
theorem mem_block {line : Line} (h : line ∈ block) :
    line ∈ questionLines block ∨ line ∈ replacedLines block ∨ line ∈ lastAnswer block := by
  rw [← List.takeWhile_append_dropWhile (p := fun line : Line => !line.isAnswer) (l := block),
    List.mem_append] at h
  rcases h with hb | hbehind
  · exact Or.inl hb
  have hany : (block.dropWhile fun line => !line.isAnswer).any Line.isAnswer = true := by
    have hhead := List.head?_dropWhile_not (fun line : Line => !line.isAnswer) block
    cases hdrop : block.dropWhile fun line => !line.isAnswer with
    | nil =>
      rw [hdrop] at hbehind
      cases hbehind
    | cons first rest =>
      rw [hdrop] at hhead
      simp only [List.head?_cons] at hhead
      simp_all
  rw [← beforeLast_append hany, List.mem_append, lastAnswer_dropWhile] at hbehind
  exact Or.inr hbehind

/-! ## The loop -/

def contents (lines : List Line) : List String := lines.map Line.content

theorem foldl_read_answered (pairs : List (String × String)) (question answer : List String)
    (h : lines.all Line.continues = true) :
    lines.foldl Reading.read ⟨pairs, some question, some answer⟩ =
      ⟨pairs, some question, some (if lines.any Line.isAnswer then contents (lastAnswer lines)
        else answer ++ contents lines)⟩ := by
  induction lines generalizing answer with
  | nil => simp [contents]
  | cons line rest ih =>
    rw [List.all_cons, Bool.and_eq_true] at h
    cases line with
    | question first => cases h.1
    | blank => cases h.1
    | answer _ | text _ =>
      rw [List.foldl_cons, Reading.read, ih _ h.2]
      by_cases hrest : rest.any Line.isAnswer = true <;>
        simp [hrest, lastAnswer, Line.isAnswer, contents, Line.content]

theorem foldl_read_asked (pairs : List (String × String)) (question : List String)
    (h : lines.all Line.continues = true) :
    lines.foldl Reading.read ⟨pairs, some question, none⟩ =
      ⟨pairs, some (question ++ contents (questionLines lines)),
        if lines.any Line.isAnswer then some (contents (lastAnswer lines)) else none⟩ := by
  induction lines generalizing question with
  | nil => simp [contents, questionLines]
  | cons line rest ih =>
    rw [List.all_cons, Bool.and_eq_true] at h
    cases line with
    | question first => cases h.1
    | blank => cases h.1
    | answer first =>
      rw [List.foldl_cons, Reading.read, foldl_read_answered _ _ _ h.2]
      by_cases hrest : rest.any Line.isAnswer = true <;>
        simp [hrest, lastAnswer, questionLines, Line.isAnswer, contents, Line.content]
    | text content =>
      rw [List.foldl_cons, Reading.read, ih _ h.2]
      by_cases hrest : rest.any Line.isAnswer = true <;>
        simp [hrest, lastAnswer, questionLines, Line.isAnswer, contents, Line.content]

def addPair (pairs : List (String × String)) (pair : Option (String × String)) :
    List (String × String) :=
  match pair with
  | some pair => if pairs.length < maxPairsPerFile then pairs ++ [pair] else pairs
  | none => pairs

theorem close_pairs (pairs : List (String × String)) (ques answer : List String) :
    (Reading.close ⟨pairs, some ques, some answer⟩).pairs =
      addPair pairs (if strip (" ".intercalate ques) ≠ "" ∧
          strip (" ".intercalate answer) ≠ "" then
        some (strip (" ".intercalate ques), strip (" ".intercalate answer)) else none) := by
  unfold Reading.close addPair
  by_cases hques : strip (" ".intercalate ques) = ""
  · simp [hques]
  by_cases hans : strip (" ".intercalate answer) = ""
  · simp [hans]
  by_cases hroom : pairs.length < maxPairsPerFile <;> simp [hques, hans, hroom]

theorem close_block (pairs : List (String × String)) (first : String)
    (h : lines.all Line.continues = true) :
    (lines.foldl Reading.read ⟨pairs, some [first], none⟩).close.pairs =
      addPair pairs (pairOf (.question first :: lines)) := by
  rw [foldl_read_asked _ _ h]
  have hques : questionLines (.question first :: lines) =
      .question first :: questionLines lines := by
    simp [questionLines, Line.isAnswer]
  have hans : lastAnswer (.question first :: lines) = lastAnswer lines := by
    by_cases hany : lines.any Line.isAnswer = true
    · rw [lastAnswer, if_pos hany]
    · rw [lastAnswer, if_neg hany, lastAnswer_eq_nil (by simpa using hany)]
      rfl
  unfold pairOf blockQuestion blockAnswer joined
  rw [hques, hans]
  by_cases hany : lines.any Line.isAnswer = true
  · rw [if_pos hany, close_pairs]
    rfl
  · have hnil : strip (" ".intercalate ([] : List String)) = "" := by decide
    rw [if_neg hany, lastAnswer_eq_nil (by simpa using hany), List.map_nil,
      if_neg fun hboth => hboth.2 hnil]
    rfl

theorem blocks_dropWhile (lines : List Line) :
    blocks (lines.dropWhile Line.continues) = blocks lines := by
  induction lines with
  | nil => rfl
  | cons line rest ih =>
    cases line with
    | question first => rfl
    | blank => rfl
    | answer first => exact ih
    | text content => exact ih

theorem foldl_read_closed (reading : Reading) (lines : List Line)
    (h : ∀ line ∈ lines.head?, line.continues = false) :
    (lines.foldl Reading.read reading).close.pairs =
      (lines.foldl Reading.read ⟨reading.close.pairs, none, none⟩).close.pairs := by
  cases lines with
  | nil => rfl
  | cons line rest =>
    have hclos : ∀ pairs, Reading.close ⟨pairs, none, none⟩ = ⟨pairs, none, none⟩ :=
      fun pairs => rfl
    cases line with
    | question first => rw [List.foldl_cons, List.foldl_cons, Reading.read, Reading.read, hclos]
    | blank =>
      rw [List.foldl_cons, List.foldl_cons, Reading.read, Reading.read, hclos,
        ← Reading.close_eq]
    | answer first => exact absurd (h _ rfl) (by simp [Line.continues])
    | text content => exact absurd (h _ rfl) (by simp [Line.continues])

theorem foldl_read_blocks (lines : List Line) (pairs : List (String × String)) :
    (lines.foldl Reading.read ⟨pairs, none, none⟩).close.pairs =
      ((blocks lines).map pairOf).foldl addPair pairs := by
  induction hlen : lines.length using Nat.strong_induction_on generalizing lines pairs with
  | _ length ih =>
    cases lines with
    | nil => rfl
    | cons line rest =>
      have hrest : rest.length < length := by
        rw [← hlen]
        exact Nat.lt_succ_self _
      cases line with
      | question first =>
        have hall : (rest.takeWhile Line.continues).all Line.continues = true :=
          List.all_takeWhile
        have hhead : ∀ line ∈ (rest.dropWhile Line.continues).head?,
            line.continues = false := by
          intro line hline
          have hnot := List.head?_dropWhile_not Line.continues rest
          rw [hline] at hnot
          exact hnot
        have hshort : (rest.dropWhile Line.continues).length < length :=
          (List.length_dropWhile_le _ rest).trans_lt hrest
        calc ((Line.question first :: rest).foldl Reading.read ⟨pairs, none, none⟩).close.pairs
            = ((rest.takeWhile Line.continues ++ rest.dropWhile Line.continues).foldl
                Reading.read ⟨pairs, some [first], none⟩).close.pairs := by
              rw [List.takeWhile_append_dropWhile]
              rfl
          _ = ((rest.dropWhile Line.continues).foldl Reading.read
                ⟨((rest.takeWhile Line.continues).foldl Reading.read
                  ⟨pairs, some [first], none⟩).close.pairs, none, none⟩).close.pairs := by
              rw [List.foldl_append, foldl_read_closed _ _ hhead]
          _ = ((blocks (rest.dropWhile Line.continues)).map pairOf).foldl addPair
                (addPair pairs (pairOf (.question first ::
                  rest.takeWhile Line.continues))) := by
              rw [close_block pairs first hall]
              exact ih _ hshort _ _ rfl
          _ = ((blocks (Line.question first :: rest)).map pairOf).foldl addPair pairs := by
              rw [blocks_dropWhile, blocks, List.map_cons, List.foldl_cons]
      | answer first =>
        rw [List.foldl_cons, Reading.read, blocks]
        exact ih rest.length hrest rest pairs rfl
      | blank =>
        rw [List.foldl_cons, Reading.read, Reading.close, blocks]
        exact ih rest.length hrest rest pairs rfl
      | text content =>
        rw [List.foldl_cons, Reading.read, blocks]
        exact ih rest.length hrest rest pairs rfl

theorem foldl_addPair (list : List (Option (String × String))) (pairs : List (String × String))
    (h : pairs.length ≤ maxPairsPerFile) :
    list.foldl addPair pairs = (pairs ++ list.filterMap id).take maxPairsPerFile := by
  induction list generalizing pairs with
  | nil => simpa using (List.take_of_length_le h).symm
  | cons pair rest ih =>
    cases pair with
    | none =>
      rw [List.foldl_cons, addPair, ih pairs h]
      simp
    | some pair =>
      rw [List.foldl_cons, addPair]
      by_cases hroom : pairs.length < maxPairsPerFile
      · rw [if_pos hroom, ih _ (by rw [List.length_append]; exact hroom)]
        simp
      · have hfull : pairs.length = maxPairsPerFile := by omega
        rw [if_neg hroom, ih pairs h, List.take_append_of_le_length hfull.ge,
          List.take_append_of_le_length hfull.ge]

def noteLines (text : List Char) : List Line := (splitLines (noteBody text)).map classify

theorem readPairs_eq (lines : List String) :
    readPairs lines =
      ((blocks (lines.map classify)).filterMap pairOf).take maxPairsPerFile := by
  have hcoh : Reading.Coherent ⟨[], none, none⟩ := fun _ => rfl
  rw [readPairs, foldl_line hcoh, foldl_read_blocks, foldl_addPair _ _ (Nat.zero_le _),
    List.nil_append, List.filterMap_map, Function.id_comp]

end TamForge.Cards
