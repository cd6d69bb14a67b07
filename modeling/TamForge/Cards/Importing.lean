import TamForge.Notes.Service
import TamForge.ProofSupport.Dicts

/-!
# Cards from notes and packages

`cards/importing.py`: the front matter and the pairs of a vault note, and the
commands that a package, an approved study note and a proposal of the Coach make.
A text is read as its characters, and `str.lower` is a parameter.
-/

namespace TamForge.Cards

open Models ProofSupport
open Notes (CardCommand)
open Today (strip rstrip)

def defaultSkillSlug : String := "general"

def maxPairsPerFile : Nat := 200

/-! ## Lines -/

/-- The characters at which `str.splitlines` ends a line. -/
def isLineBreak (c : Char) : Bool :=
  let n := c.toNat
  (decide (10 ≤ n) && decide (n ≤ 13)) || (decide (28 ≤ n) && decide (n ≤ 30)) ||
    [133, 8232, 8233].contains n

def splitLinesFrom (line : List Char) : List Char → List (List Char)
  | [] => if line = [] then [] else [line.reverse]
  | '\r' :: '\n' :: rest => line.reverse :: splitLinesFrom [] rest
  | c :: rest =>
    if isLineBreak c then line.reverse :: splitLinesFrom [] rest
    else splitLinesFrom (c :: line) rest

def splitLines (text : List Char) : List String :=
  (splitLinesFrom [] text).map String.ofList

/-! ## Front matter -/

/-- `\r?\n` -/
def newline? : List Char → Option (List Char)
  | '\r' :: '\n' :: rest => some rest
  | '\n' :: rest => some rest
  | _ => none

/-- `\r?\n---(?:\r?\n|\Z)` -/
def closing? (text : List Char) : Option (List Char) :=
  match newline? text with
  | some ('-' :: '-' :: '-' :: rest) =>
    match newline? rest with
    | some body => some body
    | none => if rest = [] then some [] else none
  | _ => none

/-- `(.*?)` before the first closing line, behind the characters that it has, last
first. -/
def scanFrontMatter (inside : List Char) : List Char → Option (List Char × List Char)
  | [] => none
  | c :: rest =>
    match closing? (c :: rest) with
    | some body => some (inside.reverse, body)
    | none => scanFrontMatter (c :: inside) rest

/-- `FRONT_MATTER`: its group and what stands behind the match. -/
def frontMatter (text : List Char) : Option (List Char × List Char) :=
  match text with
  | '-' :: '-' :: '-' :: rest => (newline? rest).bind (scanFrontMatter [])
  | _ => none

/-- `value.strip("'\"")` -/
def stripQuotes (text : String) : String :=
  let isQuote (c : Char) : Bool := c == '\'' || c == '"'
  String.ofList (((text.toList.dropWhile isQuote).reverse.dropWhile isQuote).reverse)

section Notes

variable (lower : String → String)

def frontMatterItem (line : String) : Option (String × String) :=
  let text := line.toList
  if !text.contains ':' || text.head? == some ' ' || text.head? == some '\t' then none
  else
    let key := String.ofList (text.takeWhile fun c => c != ':')
    let value := String.ofList ((text.dropWhile fun c => c != ':').drop 1)
    some (lower (strip key), stripQuotes (strip value))

def parseFrontMatter (text : List Char) : List (String × String) :=
  match frontMatter text with
  | none => []
  | some (inside, _) => Dict.ofItems ((splitLines inside).filterMap (frontMatterItem lower))

def flag (value : Option String) : Bool :=
  value.any fun text => ["true", "yes", "1"].contains (lower (strip text))

/-! ## Pairs -/

/-- A letter of a pattern under `re.IGNORECASE`. -/
def matchesLetter (letter c : Char) : Bool :=
  c.toLower == letter || (letter == 's' && c == 'ſ') || (letter == 'i' && (c == 'İ' || c == 'ı'))

def dropLetters : List Char → List Char → Option (List Char)
  | [], text => some text
  | letter :: letters, c :: rest =>
    if matchesLetter letter c then dropLetters letters rest else none
  | _ :: _, [] => none

/-- `\s*\**\s*` -/
def skipStars (text : List Char) : List Char :=
  ((text.dropWhile isSpace).dropWhile fun c => c == '*').dropWhile isSpace

/-- The group of `^\s*\**\s*X(?:yz)?\s*\**\s*:\s*\**\s*(.*)$`.  White space, stars,
letters and the colon tell each other apart, so that nothing is matched twice. -/
def matchPrefix (initial : Char) (more : List Char) (line : String) : Option String :=
  match skipStars line.toList with
  | [] => none
  | c :: rest =>
    if matchesLetter initial c then
      match skipStars ((dropLetters more rest).getD rest) with
      | ':' :: rest => some (String.ofList (skipStars rest))
      | _ => none
    else none

def questionPrefix : String → Option String :=
  matchPrefix 'q' ['u', 'e', 's', 't', 'i', 'o', 'n']

def answerPrefix : String → Option String :=
  matchPrefix 'a' ['n', 's', 'w', 'e', 'r']

structure FlashcardNote where
  skillSlug : String
  pairs : List (String × String)

/-- The variables of the loop over the lines. -/
structure Reading where
  pairs : List (String × String)
  question : Option (List String)
  answer : Option (List String)

def Reading.close (reading : Reading) : Reading :=
  match reading.question, reading.answer with
  | some question, some answer =>
    let q := strip (" ".intercalate question)
    let a := strip (" ".intercalate answer)
    if q ≠ "" ∧ a ≠ "" ∧ reading.pairs.length < maxPairsPerFile then
      ⟨reading.pairs ++ [(q, a)], none, none⟩
    else ⟨reading.pairs, none, none⟩
  | _, _ => ⟨reading.pairs, none, none⟩

def Reading.line (reading : Reading) (raw : String) : Reading :=
  let line := rstrip raw
  match questionPrefix line with
  | some rest => { reading.close with question := some [strip rest], answer := none }
  | none =>
    match answerPrefix line, reading.question with
    | some rest, some _ => { reading with answer := some [strip rest] }
    | _, _ =>
      if isBlank line then reading.close
      else
        match reading.answer, reading.question with
        | some answer, _ => { reading with answer := some (answer ++ [strip line]) }
        | none, some question =>
          { reading with question := some (question ++ [strip line]) }
        | none, none => reading

def readPairs (lines : List String) : List (String × String) :=
  (lines.foldl Reading.line ⟨[], none, none⟩).close.pairs

def noteBody (text : List Char) : List Char :=
  match frontMatter text with
  | none => text
  | some (_, body) => body

def parseFlashcardNote (text : List Char) : Option FlashcardNote :=
  let front := parseFrontMatter lower text
  if !flag lower (Dict.get? front "flashcard-source") then none
  else
    let skill := strip ((Dict.get? front "skill").getD "")
    some ⟨if slug skill then skill else defaultSkillSlug, readPairs (splitLines (noteBody text))⟩

end Notes

/-! ## Commands -/

/-- A command that a model refuses, with the fields it refuses. -/
structure ValidationError where
  fields : List String

/-- The bounds of `CardCommand`. -/
def validateCommand (command : CardCommand) : Except ValidationError CardCommand :=
  let within (least most : Nat) (text : String) : Bool :=
    decide (least ≤ text.length) && decide (text.length ≤ most)
  let refused := [(within 1 2048 command.question, "question"),
    (within 1 4096 command.answer, "answer"), (slug command.skillSlug, "skill_slug"),
    (within 0 256 command.sourceRef, "source_ref")].filterMap fun field =>
      if field.1 then none else some field.2
  if refused = [] then .ok command else .error ⟨refused⟩

/-- `text[:length]` -/
def cut (length : Nat) (text : String) : String := String.ofList (text.toList.take length)

def bounded (pair : String × String) : String × String := (cut 2048 pair.1, cut 4096 pair.2)

def pairCommand (path skillSlug : String) (pair : String × String) : CardCommand where
  question := (bounded pair).1
  answer := (bounded pair).2
  skillSlug := skillSlug
  sourceKind := "package"
  sourceRef := cut 256 ("package:" ++ path)
  assistance := .independent

def fileNote (lower : String → String) (file : String × Bytes) : Option FlashcardNote :=
  if (lower file.1).endsWith ".md" then
    match String.fromUTF8? ⟨file.2.toArray⟩ with
    | none => none
    | some text => parseFlashcardNote lower text.toList
  else none

def fileCommands (lower : String → String) (file : String × Bytes) :
    Except ValidationError (List CardCommand) :=
  match fileNote lower file with
  | none => .ok []
  | some note => note.pairs.mapM fun pair =>
    validateCommand (pairCommand file.1 note.skillSlug pair)

def packageCardCommands (lower : String → String) (files : List (String × Bytes)) :
    Except ValidationError (List CardCommand) := do
  let commands ← (files.insertionSort fun first second => first.1 ≤ second.1).mapM
    (fileCommands lower)
  pure commands.flatten

def coachCommand (messageId index : Nat) (question answer skillSlug : String) : CardCommand where
  question := (bounded (strip question, strip answer)).1
  answer := (bounded (strip question, strip answer)).2
  skillSlug := skillSlug
  sourceKind := "coach"
  sourceRef := "coach:" ++ toString messageId ++ ":" ++ toString index
  assistance := .coached

def coachCardCommand (messageId index : Nat) (question answer skillSlug : String) :
    Except ValidationError CardCommand :=
  validateCommand (coachCommand messageId index question answer skillSlug)

/-- The checks `question_bounded` and `answer_bounded` of `cards`. -/
structure TableAccepts (command : CardCommand) : Prop where
  question_nonblank : isBtrimBlank command.question = false
  question_octets : command.question.utf8ByteSize ≤ 2048
  answer_nonblank : isBtrimBlank command.answer = false
  answer_octets : command.answer.utf8ByteSize ≤ 4096

end TamForge.Cards
