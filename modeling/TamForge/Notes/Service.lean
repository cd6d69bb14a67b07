import Mathlib.Data.List.SplitOn
import TamForge.Learning.Artifacts
import TamForge.Models.Dates
import TamForge.ProofSupport.Run
import TamForge.Recordings.Schemas
import TamForge.Today.Handoff

/-!
# Study notes as Markdown

`notes/markdown.py`: the document a note is rendered from, its text and its
file name.
-/

namespace TamForge.Notes

open Learning Models Today

inductive NoteStatus
  | draft | approved
deriving DecidableEq

inductive NoteAuthor
  | learner | coach

def NoteAuthor.text : NoteAuthor → String
  | learner => "learner"
  | coach => "coach"

def assistanceText : Assistance → String
  | .independent => "independent"
  | .coached => "coached"

structure NoteQueryItem where
  query : String
  result : String

structure NoteFlashcardItem where
  question : String
  answer : String

/-- What the learner may edit, and what the Coach drafts. -/
structure StudyNoteContent where
  title : String
  rule : String
  explanation : String
  example_ : String
  misconceptions : List String
  validatedQueries : List NoteQueryItem
  sources : List String
  flashcards : List NoteFlashcardItem

structure NoteDocument extends StudyNoteContent where
  stableId : String
  localDate : Date
  status : NoteStatus
  assistance : Assistance
  assessmentStatus : String
  draftedBy : NoteAuthor

/-- A character outside `_UNSAFE`. -/
def isFilenameChar (c : Char) : Bool :=
  c.isAlphanum || c == ' ' || c == '.' || c == '_' || c == '-'

def noteFilename (document : NoteDocument) : String :=
  let safe := strip (String.ofList (document.title.toList.filter isFilenameChar))
  let stem := if safe = "" then document.stableId else safe
  isoformat document.localDate ++ " - " ++ String.ofList (stem.toList.take 120) ++ ".md"

def yamlText (value : String) : String :=
  "\"" ++ String.ofList (value.toList.flatMap fun c =>
    if c = '\\' ∨ c = '"' then ['\\', c] else [c]) ++ "\""

/-- `text or "—"` -/
def orDash (text : String) : String :=
  if text = "" then "—" else text

def bullets (items : List String) : List String :=
  if items = [] then ["- —"] else items.map ("- " ++ ·)

def frontMatter (document : NoteDocument) : List String :=
  let approved := document.status = .approved
  ["---", "type: polished-study-note",
    "status: " ++ if approved then "validated" else "draft",
    "topic: " ++ yamlText document.title,
    "date: " ++ isoformat document.localDate,
    "activity: " ++ yamlText document.stableId,
    "assistance: " ++ assistanceText document.assistance,
    "assessment: " ++ document.assessmentStatus,
    "drafted-by: " ++ document.draftedBy.text,
    "future-app-source: true",
    "flashcard-source: " ++ if approved ∧ document.flashcards ≠ [] then "true" else "false",
    "---"]

def queryLines (item : NoteQueryItem) : List String :=
  ["\x60\x60\x60sql", strip item.query, "\x60\x60\x60", "", "Result: " ++ strip item.result, ""]

def cardLines (item : NoteFlashcardItem) : List String :=
  ["**Q:** " ++ strip item.question, "**A:** " ++ strip item.answer, ""]

def noteBody (document : NoteDocument) : List String :=
  ["# " ++ document.title, "",
    "## Rule", "", orDash (strip document.rule), "",
    "## Explanation", "", orDash (strip document.explanation), "",
    "## Example", "", orDash (strip document.example_), "",
    "## Corrected misconceptions", ""] ++ bullets document.misconceptions ++
  ["", "## Validated queries", ""] ++
  (if document.validatedQueries = [] then ["—", ""]
    else document.validatedQueries.flatMap queryLines) ++
  ["## Sources", ""] ++ bullets document.sources ++
  ["", "## Card-ready Q/A", ""] ++
  (if document.flashcards = [] then ["—", ""] else document.flashcards.flatMap cardLines) ++
  ["## Assistance and assessment", "",
    "- Assistance: " ++ assistanceText document.assistance,
    "- Assessment status: " ++ document.assessmentStatus,
    "- Drafted by: " ++ document.draftedBy.text, ""]

def renderNoteMarkdown (document : NoteDocument) : String :=
  "\n".intercalate (frontMatter document ++ [""] ++ noteBody document)

end TamForge.Notes

/-!
## Notes and coaching on one activity

`StudyNoteService.draft`, `save` and `approve` with `CoachThreadService.send`.
Each is one transaction under the lock of the activity row, so a call is a
function of the rows it finds; when it raises, they stay as they were.
-/

namespace TamForge.Notes

open Learning Models ProofSupport Today

inductive NotesError
  | notFound (message : String)
  | conflict (message : String)
  | unavailable (message : String)
  | validation

/-! ## Rows -/

structure Activity where
  id : Nat
  ownerId : Nat
  stableId : String
  localDate : Date

/-- A row of `study_notes`. -/
structure StudyNote extends StudyNoteContent where
  id : Nat
  status : NoteStatus
  draftedBy : NoteAuthor
  assistance : Assistance
  assessmentStatus : ActivityState
  artifactId : Option Nat
  contentSha256 : Option Digest
  updatedAt : Instant
  approvedAt : Option Instant

/-- A row of `artifacts`, of those that notes are stored as. -/
structure Artifact where
  id : Nat
  objectKey : String
  contentHash : Digest
  contentType : String
  originalFilename : String
  byteSize : Nat
  artifactClass : ArtifactClass
  createdAt : Instant

/-- A row of `activity_artifact_links` of the activity. -/
structure ArtifactLink where
  artifactId : Nat
  linkRole : LinkRole
  createdAt : Instant

/-- A row of `cards`, up to its schedule. -/
structure Card where
  question : String
  answer : String
  contentHash : Digest
  sourceKind : String
  sourceRef : String
  skillSlug : String
  assistance : Assistance

inductive Speaker
  | learner | coach
deriving DecidableEq

structure CoachMessage where
  speaker : Speaker
  text : String
  nextStep : Option String

inductive AssistanceMode
  | none | coachPreparation | hintLadder
deriving DecidableEq

structure CoachThread where
  assistanceMode : AssistanceMode
  messages : List CoachMessage

/-- The rows of one activity, with the artifacts and the cards of its owner. -/
structure Db where
  note : Option StudyNote
  artifacts : List Artifact
  links : List ArtifactLink
  cards : List Card
  thread : Option CoachThread
  nextNoteId : Nat
  nextArtifactId : Nat

/-! ## Shared steps -/

/-- What a call reads of the activity: its state, the text of its latest attempt and the
skill that its exercise trains; and the clock. -/
structure Reads where
  state : ActivityState
  committedAttempt : String
  skillSlug : String
  now : Instant

def wasCoached (db : Db) : Bool :=
  db.thread.any fun thread => thread.messages.any fun message => message.speaker == .coach

def isApproved (db : Db) : Bool :=
  db.note.any fun note => note.status == .approved

/-- `_document_from`, with the status given. -/
def document (activity : Activity) (note : StudyNote) (status : NoteStatus) : NoteDocument where
  toStudyNoteContent := note.toStudyNoteContent
  stableId := activity.stableId
  localDate := activity.localDate
  status := status
  assistance := note.assistance
  assessmentStatus := stateValue note.assessmentStatus
  draftedBy := note.draftedBy

/-- `markdown.encode("utf-8")` of the rendered note. -/
def markdown (activity : Activity) (note : StudyNote) : Bytes :=
  (renderNoteMarkdown (document activity note .approved)).toUTF8.toList

/-- The row that `draft` or `save` adds. -/
def newNote (db : Db) (draftedBy : NoteAuthor) (assistance : Assistance)
    (content : StudyNoteContent) (reads : Reads) : StudyNote where
  toStudyNoteContent := content
  id := db.nextNoteId
  status := .draft
  draftedBy := draftedBy
  assistance := assistance
  assessmentStatus := reads.state
  artifactId := none
  contentSha256 := none
  updatedAt := reads.now
  approvedAt := none

/-- The flush of a note, with the constraint on its title. -/
def writeNote (db : Db) (note : StudyNote) : Except NotesError Db :=
  if isBtrimBlank note.title ∨ 1024 < note.title.utf8ByteSize then
    .error (.unavailable "the notes store is unavailable")
  else
    .ok { db with note := some note, nextNoteId := max db.nextNoteId (note.id + 1) }

/-! ## Drafting and saving -/

inductive CoachError
  | unavailable (message : String)
  | contract (message : String)

def draft (db : Db) (reads : Reads) (answer : Except CoachError StudyNoteContent) :
    Except NotesError Db :=
  if isApproved db then
    .error (.conflict "an approved note is frozen; it cannot be redrafted")
  else if reads.committedAttempt = "" then
    .error (.conflict "commit an attempt before asking for a note")
  else
    match answer with
    | .error (.unavailable message) => .error (.unavailable message)
    | .error (.contract message) => .error (.conflict message)
    | .ok content =>
      let note := db.note.getD (newNote db .coach .coached content reads)
      writeNote db { note with
        toStudyNoteContent := content
        draftedBy := .coach
        assistance := .coached
        assessmentStatus := reads.state
        updatedAt := reads.now }

def save (db : Db) (reads : Reads) (content : StudyNoteContent) : Except NotesError Db :=
  if isApproved db then
    .error (.conflict "an approved note is frozen; it cannot be edited")
  else
    let assistance := if wasCoached db then Assistance.coached else Assistance.independent
    let note := db.note.getD (newNote db .learner assistance content reads)
    writeNote db { note with
      toStudyNoteContent := content
      assessmentStatus := reads.state
      updatedAt := reads.now }

/-! ## Cards -/

/-- `text.split()` -/
def splitWords (text : String) : List String :=
  ((text.toList.splitOnP isSpace).filter fun word => !word.isEmpty).map String.ofList

/-- `card_content_hash`.  `casefold` is `str.casefold`. -/
def cardContentHash (casefold : String → String) (question answer : String) : Digest :=
  let normalized (text : String) : String := casefold (" ".intercalate (splitWords text))
  sha256 (normalized question ++ "\n" ++ normalized answer).toUTF8.toList

structure CardCommand where
  question : String
  answer : String
  skillSlug : String
  sourceKind : String
  sourceRef : String
  assistance : Assistance

/-- `note_card_commands`; a command refuses a skill that is no slug. -/
def noteCardCommands (noteId : Nat) (flashcards : List NoteFlashcardItem) (skillSlug : String)
    (assistance : Assistance) : Except NotesError (List CardCommand) :=
  let bounded (limit : Nat) (text : String) : String :=
    String.ofList ((strip text).toList.take limit)
  let pairs := (flashcards.map fun item => (bounded 2048 item.question, bounded 4096 item.answer))
    |>.filter fun pair => pair.1 != "" && pair.2 != ""
  if pairs ≠ [] ∧ slug skillSlug = false then
    .error .validation
  else
    .ok (pairs.map fun pair => {
      question := pair.1
      answer := pair.2
      skillSlug := skillSlug
      sourceKind := "study_note"
      sourceRef := "note:" ++ toString noteId
      assistance := assistance })

/-- `_upsert`, with the constraints of `cards` on the texts. -/
def upsertCard (casefold : String → String) (cards : List Card) (command : CardCommand) :
    Except NotesError (List Card) :=
  let digest := cardContentHash casefold command.question command.answer
  let question := strip command.question
  let answer := strip command.answer
  if cards.any fun card => card.contentHash = digest then
    .ok cards
  else if isBtrimBlank question ∨ 2048 < question.utf8ByteSize ∨
      isBtrimBlank answer ∨ 4096 < answer.utf8ByteSize then
    .error (.unavailable "the notes store is unavailable")
  else
    .ok (cards ++ [{
      question := question
      answer := answer
      contentHash := digest
      sourceKind := command.sourceKind
      sourceRef := command.sourceRef
      skillSlug := command.skillSlug
      assistance := command.assistance }])

/-! ## Approving -/

/-- The artifact with the digest: the one that is there, or a new one once the object
store has taken the note. -/
def storeArtifact (activity : Activity) (db : Db) (note : StudyNote) (now : Instant)
    (stored : Bool) : Except NotesError (Artifact × Db) :=
  let digest := sha256 (markdown activity note)
  match db.artifacts.find? fun artifact => artifact.contentHash = digest with
  | some artifact => .ok (artifact, db)
  | none =>
    if stored = false then
      .error (.unavailable "the object store refused the note")
    else
      let artifact : Artifact := {
        id := db.nextArtifactId
        objectKey := ArtifactClass.recallNote.text ++ "/" ++ toString activity.ownerId ++
          "/note-" ++ toString note.id ++ "/" ++ Recordings.hexdigest digest
        contentHash := digest
        contentType := "text/markdown"
        originalFilename := noteFilename (document activity note .approved)
        byteSize := (markdown activity note).length
        artifactClass := .recallNote
        createdAt := now }
      .ok (artifact, { db with
        artifacts := db.artifacts ++ [artifact], nextArtifactId := db.nextArtifactId + 1 })

def linkArtifact (db : Db) (artifactId : Nat) (now : Instant) : Db :=
  if db.links.any fun link => link.artifactId = artifactId then db
  else { db with links := db.links ++ [⟨artifactId, .supporting, now⟩] }

def approve (casefold : String → String) (activity : Activity) (db : Db) (reads : Reads)
    (stored : Bool) : Except NotesError Db :=
  match db.note with
  | none => .error (.notFound "there is no study note to approve")
  | some note =>
    if note.status = .approved then
      .ok db
    else if strip note.title = "" ∨ strip note.rule = "" then
      .error (.conflict "a note needs at least a title and a rule to be approved")
    else do
      let note := { note with assessmentStatus := reads.state }
      let (artifact, db) ← storeArtifact activity db note reads.now stored
      let db := linkArtifact db artifact.id reads.now
      let commands ← noteCardCommands note.id note.flashcards reads.skillSlug note.assistance
      let cards ← commands.foldlM (upsertCard casefold) db.cards
      return { db with
        cards := cards
        note := some { note with
          artifactId := some artifact.id
          contentSha256 := some (sha256 (markdown activity note))
          status := .approved
          approvedAt := some reads.now
          updatedAt := reads.now } }

/-! ## Coaching -/

/-- `CoachTurn`, as far as the thread keeps it. -/
structure CoachTurn where
  message : String
  nextStep : String
  hintGiven : Bool

/-- `thread.assistance_mode` after a turn; the Coach only counts before the commit. -/
def assistanceAfter (mode : AssistanceMode) (reads : Reads) (turn : CoachTurn) : AssistanceMode :=
  if reads.committedAttempt ≠ "" then mode
  else if turn.hintGiven then .hintLadder
  else if mode = .none then .coachPreparation
  else mode

def send (db : Db) (reads : Reads) (text : String) (turn : Except CoachError CoachTurn) :
    Except NotesError Db :=
  match turn with
  | .error (.unavailable message) => .error (.unavailable message)
  | .error (.contract message) => .error (.conflict message)
  | .ok turn =>
    let thread := db.thread.getD ⟨.none, []⟩
    .ok { db with thread := some {
      assistanceMode := assistanceAfter thread.assistanceMode reads turn
      messages := thread.messages ++
        [⟨.learner, strip text, none⟩, ⟨.coach, turn.message, some turn.nextStep⟩] } }

/-! ## Runs -/

inductive Call
  | draft (reads : Reads) (answer : Except CoachError StudyNoteContent)
  | save (reads : Reads) (content : StudyNoteContent)
  | approve (reads : Reads) (stored : Bool)
  | send (reads : Reads) (text : String) (turn : Except CoachError CoachTurn)

def perform (casefold : String → String) (activity : Activity) (db : Db) :
    Call → Except NotesError Db
  | .draft reads answer => draft db reads answer
  | .save reads content => save db reads content
  | .approve reads stored => approve casefold activity db reads stored
  | .send reads text turn => send db reads text turn

inductive Event
  | call (call : Call) (outcome : Except NotesError Unit)
  | elsewhere

/-- One call, which commits as `perform` says, raises, or is refused by the database; or
other work of the owner, which adds artifacts and works on cards. -/
inductive Step (casefold : String → String) (activity : Activity) (db : Db) : Event → Db → Prop
  | committed {call : Call} {after : Db} : perform casefold activity db call = .ok after →
      Step casefold activity db (.call call (.ok ())) after
  | raised {call : Call} {error : NotesError} :
      perform casefold activity db call = .error error →
      Step casefold activity db (.call call (.error error)) db
  | refused {call : Call} {error : NotesError} :
      Step casefold activity db (.call call (.error error)) db
  | elsewhere {artifacts : List Artifact} {cards : List Card} {nextArtifactId : Nat} :
      Step casefold activity db .elsewhere { db with
        artifacts := db.artifacts ++ artifacts, cards := cards, nextArtifactId := nextArtifactId }

end TamForge.Notes
