import TamForge.ProofSupport.Run

/-!
# Local transcription

`LocalSpeechScheduler` and the functions of `RecordingCoordinator` that drive
it.  The coordinator runs them one at a time; a transcription task suspends
many times and ends with its own last statements, also after it was cancelled.
-/

namespace TamForge.Speech.Local

open ProofSupport

inductive MemoryPressureLevel
  | nominal | warning | critical
deriving DecidableEq

inductive ThermalLevel
  | nominal | fair | serious | critical

structure ResourceState where
  memory : MemoryPressureLevel
  thermal : ThermalLevel

def ResourceState.nominal : ResourceState := ⟨.nominal, .nominal⟩

variable {ι : Type} [DecidableEq ι]

inductive SpeechAdmission (ι : Type)
  | run (recordingId : ι)
  | deferred (reason : String)
  | nothingQueued
  | busy

/-! ## The scheduler -/

structure LocalSpeechScheduler (ι : Type) where
  queue : List ι
  running : Option ι

/-- Why a new job may not start right now. -/
def deferralReason (state : ResourceState) : Option String :=
  match state.memory, state.thermal with
  | .critical, _ => some "Waiting for memory pressure to clear"
  | .warning, _ => some "Waiting for memory pressure to clear"
  | _, .critical => some "Waiting for the Mac to cool down"
  | _, .serious => some "Waiting for the Mac to cool down"
  | _, _ => none

def mustAbort (state : ResourceState) : Bool := state.memory == .critical

namespace LocalSpeechScheduler

def enqueue (scheduler : LocalSpeechScheduler ι) (recordingId : ι) : LocalSpeechScheduler ι :=
  if scheduler.running = some recordingId ∨ recordingId ∈ scheduler.queue then scheduler
  else { scheduler with queue := scheduler.queue ++ [recordingId] }

def admitUnder (scheduler : LocalSpeechScheduler ι) (state : ResourceState) :
    LocalSpeechScheduler ι × SpeechAdmission ι :=
  match scheduler.running, scheduler.queue, deferralReason state with
  | some _, _, _ => (scheduler, .busy)
  | none, [], _ => (scheduler, .nothingQueued)
  | none, _ :: _, some reason => (scheduler, .deferred reason)
  | none, next :: rest, none => (⟨rest, some next⟩, .run next)

def finish (scheduler : LocalSpeechScheduler ι) (recordingId : ι) (requeue : Bool) :
    LocalSpeechScheduler ι :=
  if scheduler.running = some recordingId then
    ⟨if requeue then recordingId :: scheduler.queue else scheduler.queue, none⟩
  else scheduler

def cancel (scheduler : LocalSpeechScheduler ι) (recordingId : ι) : LocalSpeechScheduler ι where
  queue := scheduler.queue.filter fun queued => queued ≠ recordingId
  running := if scheduler.running = some recordingId then none else scheduler.running

end LocalSpeechScheduler

/-! ## The coordinator -/

structure TranscriptionTask (ι : Type) where
  number : Nat
  recordingId : ι
  cancelled : Bool
deriving DecidableEq

/-- What the functions below read and write of the coordinator; `executing` are the
tasks that have not ended, `nextTask` numbers the next one. -/
structure Coordinator (ι : Type) where
  speechScheduler : LocalSpeechScheduler ι
  transcriptionTasks : List (ι × Nat)
  abortedForPressure : List ι
  executing : List (TranscriptionTask ι)
  nextTask : Nat

namespace Coordinator

def initial : Coordinator ι := ⟨⟨[], none⟩, [], [], [], 1⟩

/-- `transcriptionTasks[recordingID]?.cancel()` -/
def cancelTask (coordinator : Coordinator ι) (recordingId : ι) : Coordinator ι :=
  match coordinator.transcriptionTasks.find? fun entry => entry.1 = recordingId with
  | none => coordinator
  | some entry =>
    { coordinator with
      executing := coordinator.executing.map fun task =>
        if task.number = entry.2 then { task with cancelled := true } else task }

/-- `transcriptionTasks[recordingID] = nil` -/
def forgetTask (coordinator : Coordinator ι) (recordingId : ι) : Coordinator ι :=
  { coordinator with
    transcriptionTasks := coordinator.transcriptionTasks.filter fun entry => entry.1 ≠ recordingId }

def runTranscription (coordinator : Coordinator ι) (recordingId : ι) : Coordinator ι :=
  { coordinator with
    transcriptionTasks := (recordingId, coordinator.nextTask) ::
      coordinator.transcriptionTasks.filter fun entry => entry.1 ≠ recordingId
    executing := coordinator.executing ++ [⟨coordinator.nextTask, recordingId, false⟩]
    nextTask := coordinator.nextTask + 1 }

/-- `drainSpeechQueue`, where the monitor answers `current`. -/
def drainSpeechQueue (coordinator : Coordinator ι) (current : ResourceState) : Coordinator ι :=
  match coordinator.speechScheduler.admitUnder current with
  | (scheduler, .run recordingId) =>
    runTranscription { coordinator with speechScheduler := scheduler } recordingId
  | (scheduler, _) => { coordinator with speechScheduler := scheduler }

def endTask (coordinator : Coordinator ι) (task : TranscriptionTask ι) : Coordinator ι :=
  { coordinator.forgetTask task.recordingId with
    executing := coordinator.executing.erase task
    abortedForPressure := coordinator.abortedForPressure.filter fun aborted =>
      aborted ≠ task.recordingId
    speechScheduler := coordinator.speechScheduler.finish task.recordingId
      (coordinator.abortedForPressure.contains task.recordingId) }

/-- What `handleResource` does to a running job under critical memory. -/
def abortRunning (coordinator : Coordinator ι) (recordingId : ι) : Coordinator ι :=
  { coordinator.cancelTask recordingId with
    abortedForPressure := recordingId :: coordinator.abortedForPressure }

/-- What `discardPending` does once the spool is discarded. -/
def discardPending (coordinator : Coordinator ι) (recordingId : ι) : Coordinator ι :=
  { (coordinator.cancelTask recordingId).forgetTask recordingId with
    speechScheduler := coordinator.speechScheduler.cancel recordingId
    abortedForPressure := coordinator.abortedForPressure.filter fun aborted =>
      aborted ≠ recordingId }

end Coordinator

/-! ## Interleavings -/

/-- What runs next on the coordinator, with what the resource monitor answers to
the drain at its end. -/
inductive Event (ι : Type)
  | beginTranscription (recordingId : ι) (current : ResourceState)
  | drainSpeechQueue (current : ResourceState)
  | handleResource (state current : ResourceState)
  | taskEnded (task : TranscriptionTask ι) (current : ResourceState)
  | discardPending (recordingId : ι)

def aborts (coordinator : Coordinator ι) (state : ResourceState) : Option ι :=
  if mustAbort state then coordinator.speechScheduler.running else none

def Event.prepare (coordinator : Coordinator ι) : Event ι → Coordinator ι
  | beginTranscription recordingId _ =>
    { coordinator with speechScheduler := coordinator.speechScheduler.enqueue recordingId }
  | drainSpeechQueue _ => coordinator
  | handleResource state _ =>
    match aborts coordinator state with
    | some recordingId => coordinator.abortRunning recordingId
    | none => coordinator
  | taskEnded task _ => coordinator.endTask task
  | discardPending recordingId => coordinator.discardPending recordingId

def Event.drains (coordinator : Coordinator ι) : Event ι → Option ResourceState
  | beginTranscription _ current => some current
  | drainSpeechQueue current => some current
  | handleResource state current =>
    if (aborts coordinator state).isNone && (deferralReason state).isNone then some current
    else none
  | taskEnded _ current => some current
  | discardPending _ => none

def Event.run (coordinator : Coordinator ι) (event : Event ι) : Coordinator ι :=
  match event.drains coordinator with
  | some current => (event.prepare coordinator).drainSpeechQueue current
  | none => event.prepare coordinator

inductive Step : Coordinator ι → Event ι → Coordinator ι → Prop
  | ran {coordinator : Coordinator ι} {event : Event ι}
      (hends : ∀ task current, event = .taskEnded task current → task ∈ coordinator.executing) :
      Step coordinator event (event.run coordinator)

end TamForge.Speech.Local
