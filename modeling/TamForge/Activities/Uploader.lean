import TamForge.Learning.Proofs.Runs

/-!
# The artifact uploader

`ActivityArtifactUploader` on the main actor: what `upload`, `reconcile`, `cancel`
and the cancellation of a caller do to it, and how the one operation that is
running goes on when what it awaits has answered or failed.
-/

namespace TamForge.Activities

open Learning Learning.ActivityService

inductive UploadState
  | idle | preparing | uploading | confirming | confirmationIndeterminate | complete
  | cancelled | failed
deriving DecidableEq

/-- `ActivityStagedFile`; `fileURL` numbers the copies. -/
structure StagedFile where
  fileURL : Nat
  originalFilename : String
  byteLength : Nat
  sha256 : String
  contentType : String

structure PresignCommand where
  activityId : Nat
  expectedVersion : Nat
  artifactClass : ArtifactClass
  sha256 : String
  byteLength : Nat
  contentType : String
  originalFilename : String
  idempotencyKey : String

structure ConfirmCommand where
  activityId : Nat
  expectedVersion : Nat
  uploadIdempotencyKey : String
  objectKey : String
  idempotencyKey : String

/-- A request of the API: a command and its `Idempotency-Key`. -/
abbrev Request := ActivityService.Command × String

def PresignCommand.request (command : PresignCommand) : Request :=
  (.presignArtifact command.activityId command.expectedVersion command.artifactClass
    command.sha256 command.byteLength command.contentType command.originalFilename,
    command.idempotencyKey)

def ConfirmCommand.request (command : ConfirmCommand) : Request :=
  (.confirmArtifact command.activityId command.expectedVersion command.uploadIdempotencyKey
    command.objectKey, command.idempotencyKey)

structure PendingConfirmation where
  staged : StagedFile
  presign : PresignCommand
  confirm : ConfirmCommand

/-- What the uploader tells apart: a cancellation of any kind, an upload URL that
has expired, and every other error. -/
inductive UploadError
  | cancelled | expiredPresign | failed
deriving DecidableEq

/-! ## Operations -/

/-- What `run` was given. -/
inductive Work
  | upload (activityId expectedVersion : Nat) (artifactClass : ArtifactClass)
  | reconcile (pending : PendingConfirmation)

/-- Where the task of an operation stands. -/
inductive Stage
  | created (work : Work)
  | staging (activityId expectedVersion : Nat) (artifactClass : ArtifactClass)
  | presigning (staged : StagedFile) (command : PresignCommand) (mayRefresh : Bool)
  | uploading (staged : StagedFile) (command : PresignCommand) (objectKey : String)
      (mayRefresh : Bool)
  | confirming (pending : PendingConfirmation)
  /-- `reconcile` awaits the replay of the presign, or the confirmation. -/
  | represigning (pending : PendingConfirmation)
  | reconfirming (pending : PendingConfirmation)
  /-- The task is done and `run` has not gone on yet. -/
  | finished (result : Except UploadError ArtifactResponse)

/-- `isCancelled` is the task's flag, `callerCancelled` that of the task which
awaits `run`.  `confirmation` is the local `pending` of `reconcile` and `finish`. -/
structure Operation where
  stage : Stage
  isCancelled : Bool
  callerCancelled : Bool
  confirmation : Option PendingConfirmation

def Stage.isFinished : Stage → Bool
  | finished _ => true
  | _ => false

/-- `Task.cancel()`; `marked` says whether a task that is done is marked too. -/
def Operation.cancel (op : Operation) (marked : Bool) : Operation :=
  { op with isCancelled := op.isCancelled || !op.stage.isFinished || marked }

structure Uploader where
  state : UploadState
  isRunning : Bool
  pending : Option PendingConfirmation
  operation : Option Operation
  /-- The staged copies that exist. -/
  files : List Nat
  nextFile : Nat

namespace Uploader

def new : Uploader where
  state := .idle
  isRunning := false
  pending := none
  operation := none
  files := []
  nextFile := 0

def blocksMutations (u : Uploader) : Bool :=
  u.isRunning || u.state == .confirmationIndeterminate

def remove (u : Uploader) (staged : StagedFile) : Uploader :=
  { u with files := u.files.filter fun file => file != staged.fileURL }

/-- `if let pending { files.remove(pending.staged) }; pending = nil; state = .cancelled` -/
def abandon (u : Uploader) : Uploader :=
  { (match u.pending with
      | none => u
      | some pending => u.remove pending.staged) with
    pending := none
    state := .cancelled }

def complete (u : Uploader) (pending : PendingConfirmation) : Uploader :=
  { u.remove pending.staged with pending := none, state := .complete }

/-! ## Calls -/

def run (u : Uploader) (work : Work) (callerCancelled : Bool) : Uploader :=
  if callerCancelled then { u with state := .cancelled }
  else { u with
    isRunning := true
    operation := some {
      stage := .created work
      isCancelled := false
      callerCancelled := false
      confirmation := match work with
        | .upload _ _ _ => none
        | .reconcile pending => some pending } }

def upload (u : Uploader) (activityId expectedVersion : Nat) (artifactClass : ArtifactClass)
    (callerCancelled : Bool) : Uploader :=
  if u.blocksMutations then u
  else u.run (.upload activityId expectedVersion artifactClass) callerCancelled

def reconcile (u : Uploader) (callerCancelled : Bool) : Uploader :=
  match u.pending with
  | none => u
  | some pending => if u.isRunning then u else u.run (.reconcile pending) callerCancelled

def cancel (u : Uploader) (marked : Bool) : Uploader :=
  abandon { u with operation := u.operation.map fun op => op.cancel marked }

/-- The caller is cancelled: the handler of `run` cancels the task. -/
def cancelCaller (u : Uploader) (marked : Bool) : Uploader :=
  { u with operation := u.operation.map fun op =>
      { op.cancel marked with callerCancelled := true } }

/-! ## The task -/

def goOn (u : Uploader) (op : Operation) (stage : Stage) : Uploader :=
  { u with operation := some { op with stage := stage } }

def ends (u : Uploader) (op : Operation) (result : Except UploadError ArtifactResponse) :
    Uploader :=
  u.goOn op (.finished result)

/-- The task of `upload` ends behind its `defer`. -/
def leaves (u : Uploader) (op : Operation) (staged : StagedFile)
    (result : Except UploadError ArtifactResponse) : Uploader :=
  (if u.pending.map (fun pending => pending.staged.fileURL) = some staged.fileURL then u
    else u.remove staged).ends op result

/-- `artifact(from:id:artifactClass:)` -/
def artifactFrom (staged : StagedFile) (id : Nat) (artifactClass : ArtifactClass) :
    ArtifactResponse where
  id := id
  sha256 := staged.sha256
  byteLength := staged.byteLength
  contentType := staged.contentType
  originalFilename := staged.originalFilename
  artifactClass := artifactClass

def begins (u : Uploader) (op : Operation) (work : Work) : Uploader × Option Request :=
  if op.isCancelled then (u.ends op (.error .cancelled), none)
  else match work with
    | .upload activityId expectedVersion artifactClass =>
      (goOn { u with state := .preparing } op
        (.staging activityId expectedVersion artifactClass), none)
    | .reconcile pending =>
      (goOn { u with state := .confirming } op (.represigning pending),
        some pending.presign.request)

def staged (u : Uploader) (op : Operation) (activityId expectedVersion : Nat)
    (artifactClass : ArtifactClass) (originalFilename : String) (byteLength : Nat)
    (sha256 contentType idempotencyKey : String) : Uploader × Option Request :=
  let staged : StagedFile :=
    ⟨u.nextFile, originalFilename, byteLength, sha256, contentType⟩
  let u := { u with files := staged.fileURL :: u.files, nextFile := u.nextFile + 1 }
  if op.isCancelled then (u.leaves op staged (.error .cancelled), none)
  else
    let command : PresignCommand := ⟨activityId, expectedVersion, artifactClass, sha256,
      byteLength, contentType, originalFilename, idempotencyKey⟩
    (u.goOn op (.presigning staged command true), some command.request)

/-- `finish`, up to the upload. -/
def finish (u : Uploader) (op : Operation) (staged : StagedFile) (command : PresignCommand)
    (mayRefresh : Bool) (response : ArtifactPresignResponse) : Uploader :=
  if op.isCancelled then u.leaves op staged (.error .cancelled)
  else match response.artifactId with
    | some id => leaves { u with state := .complete } op staged
        (.ok (artifactFrom staged id command.artifactClass))
    | none =>
      match response.upload with
      | none => u.leaves op staged (.error .failed)
      | some _ => goOn { u with state := .uploading } op
          (.uploading staged command response.objectKey mayRefresh)

/-- `finish`, once the bytes are uploaded. -/
def uploaded (u : Uploader) (op : Operation) (staged : StagedFile) (command : PresignCommand)
    (objectKey : String) : Uploader × Option Request :=
  if op.isCancelled then (u.leaves op staged (.error .cancelled), none)
  else
    let pending : PendingConfirmation := {
      staged := staged
      presign := command
      confirm := ⟨command.activityId, command.expectedVersion, command.idempotencyKey,
        objectKey, command.idempotencyKey⟩ }
    (goOn { u with pending := some pending, state := .confirming }
      { op with confirmation := some pending } (.confirming pending), some pending.confirm.request)

def uploadFailed (u : Uploader) (op : Operation) (staged : StagedFile) (command : PresignCommand)
    (mayRefresh : Bool) (error : UploadError) : Uploader × Option Request :=
  if error = .expiredPresign ∧ mayRefresh then
    if op.isCancelled then (u.leaves op staged (.error .cancelled), none)
    else (u.goOn op (.presigning staged command false), some command.request)
  else (u.leaves op staged (.error error), none)

/-- `reconcile`, once the presign was replayed. -/
def represigned (u : Uploader) (op : Operation) (pending : PendingConfirmation)
    (response : ArtifactPresignResponse) : Uploader × Option Request :=
  if op.isCancelled then (u.ends op (.error .cancelled), none)
  else match response.artifactId with
    | some id => ((u.complete pending).ends op
        (.ok (artifactFrom pending.staged id pending.presign.artifactClass)), none)
    | none => (u.goOn op (.reconfirming pending), some pending.confirm.request)

/-- The confirmation was answered; `leaves` is how the task ends. -/
def confirmed (u : Uploader) (op : Operation) (pending : PendingConfirmation)
    (ends : Uploader → Except UploadError ArtifactResponse → Uploader)
    (artifact : ArtifactResponse) : Uploader :=
  if op.isCancelled then ends u (.error .cancelled)
  else ends (u.complete pending) (.ok artifact)

/-- `run`, once its task is done. -/
def resumes (u : Uploader) (op : Operation) (result : Except UploadError ArtifactResponse) :
    Uploader :=
  let u := { u with operation := none, isRunning := false }
  match result with
  | .ok _ => if op.callerCancelled then u.abandon else u
  | .error error =>
    if op.isCancelled || op.callerCancelled || error == .cancelled then u.abandon
    else { u with
      state := if u.pending.isNone then .failed else .confirmationIndeterminate }

end Uploader

/-! ## Events -/

inductive Event
  | upload (activityId expectedVersion : Nat) (artifactClass : ArtifactClass)
      (callerCancelled : Bool)
  | reconcile (callerCancelled : Bool)
  | cancel (marked : Bool)
  | cancelCaller (marked : Bool)
  /-- The task begins. -/
  | begins
  /-- What it awaits answers, or throws. -/
  | staged (originalFilename : String) (byteLength : Nat)
      (sha256 contentType idempotencyKey : String)
  | presigned (response : ArtifactPresignResponse)
  | uploaded
  | confirmed (artifact : ArtifactResponse)
  | fails (error : UploadError)
  /-- `run` goes on. -/
  | resumes

open Uploader in
def advance (u : Uploader) (op : Operation) : Event → Option (Uploader × Option Request)
  | .begins =>
    match op.stage with
    | .created work => some (u.begins op work)
    | _ => none
  | .staged originalFilename byteLength sha256 contentType idempotencyKey =>
    match op.stage with
    | .staging activityId expectedVersion artifactClass =>
      some (u.staged op activityId expectedVersion artifactClass originalFilename byteLength
        sha256 contentType idempotencyKey)
    | _ => none
  | .presigned response =>
    match op.stage with
    | .presigning staged command mayRefresh =>
      some (u.finish op staged command mayRefresh response, none)
    | .represigning pending => some (u.represigned op pending response)
    | _ => none
  | .uploaded =>
    match op.stage with
    | .uploading staged command objectKey _ => some (u.uploaded op staged command objectKey)
    | _ => none
  | .confirmed artifact =>
    match op.stage with
    | .confirming pending =>
      some (u.confirmed op pending (fun u => u.leaves op pending.staged) artifact, none)
    | .reconfirming pending =>
      some (u.confirmed op pending (fun u => u.ends op) artifact, none)
    | _ => none
  | .fails error =>
    match op.stage with
    | .staging _ _ _ => some (u.ends op (.error error), none)
    | .presigning staged _ _ => some (u.leaves op staged (.error error), none)
    | .uploading staged command _ mayRefresh =>
      some (u.uploadFailed op staged command mayRefresh error)
    | .confirming pending => some (u.leaves op pending.staged (.error error), none)
    | .represigning _ | .reconfirming _ => some (u.ends op (.error error), none)
    | .created _ | .finished _ => none
  | .resumes =>
    match op.stage with
    | .finished result => some (u.resumes op result, none)
    | _ => none
  | .upload .. | .reconcile _ | .cancel _ | .cancelCaller _ => none

def act (u : Uploader) : Event → Option (Uploader × Option Request)
  | .upload activityId expectedVersion artifactClass callerCancelled =>
    some (u.upload activityId expectedVersion artifactClass callerCancelled, none)
  | .reconcile callerCancelled => some (u.reconcile callerCancelled, none)
  | .cancel marked => some (u.cancel marked, none)
  | .cancelCaller marked => some (u.cancelCaller marked, none)
  | event => u.operation.bind fun op => advance u op event

end TamForge.Activities

/-!
## Upload sessions

One uploader and the server.  A request that was sent may reach the server at any
time, once, several times or never, also after the uploader stopped waiting for
it; an answer may be lost.  In between the server does whatever it is asked to by
anyone else.
-/

namespace TamForge.Activities

open Learning Learning.ActivityService ProofSupport

/-- `sent` are the requests of the uploader, oldest first; an answer is kept with
the number of the request. -/
structure World where
  uploader : Uploader
  db : Db
  sent : List Request
  answers : List (Nat × Response)

def World.new (db : Db) : World where
  uploader := Uploader.new
  db := db
  sent := []
  answers := []

inductive Action
  | client (event : Event)
  | serve (number : Nat) (env : Env)
  | server (event : ActivityService.Event)

def Answered (w : World) : Event → Prop
  | .presigned response => ∃ number, w.sent.length = number + 1 ∧
      (number, .presign response) ∈ w.answers
  | .confirmed artifact => ∃ number, w.sent.length = number + 1 ∧
      (number, .artifact artifact) ∈ w.answers
  | _ => True

def World.serve (w : World) (ownerId number : Nat) (request : Request) (env : Env) : World :=
  let (outcome, db) := execute env w.db ownerId request.1 request.2
  { w with
    db := db
    answers := match outcome with
      | .ok response => w.answers ++ [(number, response)]
      | .error _ => w.answers }

inductive Step (ownerId : Nat) : World → Action → World → Prop
  | client {w : World} {event : Event} {uploader : Uploader} {request : Option Request}
      (hact : act w.uploader event = some (uploader, request)) (hanswered : Answered w event) :
      Step ownerId w (.client event)
        { w with uploader := uploader, sent := w.sent ++ request.toList }
  | serve {w : World} {number : Nat} {request : Request} (env : Env)
      (hsent : w.sent[number]? = some request) :
      Step ownerId w (.serve number env) (w.serve ownerId number request env)
  | server {w : World} {event : ActivityService.Event} {db : Db}
      (h : ActivityService.Step w.db event db) :
      Step ownerId w (.server event) { w with db := db }

end TamForge.Activities
