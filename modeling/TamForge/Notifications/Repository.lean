import Mathlib.Data.List.Sort
import TamForge.Notifications.Models
import TamForge.ProofSupport.Run
import TamForge.ProofSupport.Serial

/-!
# Delivery and the status stream

`deliver_outbox` publishes rows of the outbox and makes notifications of some;
`status_event_stream` sends the published rows of one owner to a client, past
the row it sent last.  Rows get their identity when they are inserted and are
seen when their transaction commits, and any number of workers deliver at once.
-/

namespace TamForge.Notifications

open Models ProofSupport

/-- `NOTIFICATION_TYPES` -/
inductive NotificationType
  | feedbackReady | correctionDue | upcomingRealInterview | saturdayAssessment
  | processingFailureRequiresAction
deriving DecidableEq

/-- `SUBJECT_KINDS` -/
inductive SubjectKind
  | activity | correction | interview | studyDay | processingStatus

/-- A row of `notifications`. -/
structure Notification where
  id : Nat
  ownerId : Nat
  notificationType : NotificationType
  subjectKind : SubjectKind
  subjectId : Nat
  createdAt : Instant
  readAt : Option Instant

def eventMapping (eventType aggregateType : String) : Option (NotificationType × SubjectKind) :=
  if eventType = "activity.feedback_ready" ∧ aggregateType = "activity" then
    some (.feedbackReady, .activity)
  else if eventType = "correction.due" ∧ aggregateType = "correction" then
    some (.correctionDue, .correction)
  else if eventType = "interview.upcoming" ∧ aggregateType = "interview" then
    some (.upcomingRealInterview, .interview)
  else if eventType = "study_day.saturday_assessment" ∧ aggregateType = "study_day" then
    some (.saturdayAssessment, .studyDay)
  else if eventType = "processing_status.needs_attention" ∧
      aggregateType = "processing_status" then
    some (.processingFailureRequiresAction, .processingStatus)
  else none

/-- The local dates of the time zones that are known. -/
abbrev Zones := String → Option (Instant → Date)

/-- `validate_notification_candidate` passes. -/
def candidateAllowed (zones : Zones) (kind : NotificationType) (subjectId : Nat)
    (occurredAt : Instant) (timezone : String) : Bool :=
  decide (0 < subjectId) &&
    match zones timezone with
    | none => false
    | some localDate =>
      !(kind == .saturdayAssessment && weekday (localDate occurredAt) != 5) &&
      !(kind == .correctionDue && weekday (localDate occurredAt) == 6)

def notificationCandidateFromEvent (zones : Zones) (event : OutboxEvent) (timezone : String) :
    Option (NotificationType × SubjectKind) :=
  (eventMapping event.eventType event.aggregateType).filter fun mapped =>
    candidateAllowed zones mapped.1 event.payload.subjectId event.occurredAt timezone

/-- The rows that delivery reads and writes. -/
structure Store where
  rows : List OutboxEvent
  notifications : Serial Notification
  timezones : List (Nat × String)

def Store.learnerTimezone (store : Store) (ownerId : Nat) : String :=
  match store.timezones.find? fun setting => setting.1 == ownerId with
  | none => "UTC"
  | some (_, timezone) => if timezone.isEmpty then "UTC" else timezone

/-- `occurred_at`, then `id`. -/
def deliversBefore (first second : OutboxEvent) : Prop :=
  first.occurredAt < second.occurredAt ∨
    (first.occurredAt = second.occurredAt ∧ first.id ≤ second.id)

instance : DecidableRel deliversBefore :=
  fun _ _ => inferInstanceAs (Decidable (_ ∨ _))

def selectBatch (locked : List Nat) (limit : Nat) (rows : List OutboxEvent) : List OutboxEvent :=
  ((rows.filter fun row => row.publishedAt.isNone && !locked.contains row.id).insertionSort
    deliversBefore).take limit

/-- The update of one delivered row. -/
def OutboxEvent.publish (now : Instant) (event : OutboxEvent) : OutboxEvent :=
  { event with attempts := event.attempts + 1, publishedAt := some (max now event.occurredAt) }

/-- The body of the loop over a batch. -/
def deliverEvent (zones : Zones) (now : Instant) (store : Store) (event : OutboxEvent) : Store :=
  let timezone := store.learnerTimezone event.ownerId
  let notifications :=
    match notificationCandidateFromEvent zones event timezone with
    | none => store.notifications
    | some (kind, subject) =>
      (store.notifications.insert fun id => ⟨id, event.ownerId, kind, subject,
        event.payload.subjectId, max now event.occurredAt, none⟩).2
  { store with
    rows := Table.modify OutboxEvent.id store.rows event.id fun _ => event.publish now
    notifications := notifications }

def deliverBatch (zones : Zones) (now : Instant) (batch : List OutboxEvent) (store : Store) :
    Store :=
  batch.foldl (deliverEvent zones now) store

def OutboxEvent.unseen (ownerId afterEventId : Nat) (row : OutboxEvent) : Bool :=
  row.ownerId == ownerId && row.publishedAt.isSome && decide (afterEventId < row.id)

def listStatusEvents (ownerId afterEventId limit : Nat) (rows : List OutboxEvent) :
    List OutboxEvent :=
  ((rows.filter (·.unseen ownerId afterEventId)).insertionSort fun first second =>
    first.id ≤ second.id).take limit

/-! ## Workers and one client -/

structure Batch where
  worker : Nat
  events : List OutboxEvent

/-- The store with the transactions and batches that are open, and the client:
the row it received last and all it received, oldest first. -/
structure Delivery where
  store : Store
  nextId : Nat
  uncommitted : List OutboxEvent
  batches : List Batch
  cursor : Nat
  received : List Nat

def Delivery.locked (delivery : Delivery) : List Nat :=
  delivery.batches.flatMap fun batch => batch.events.map OutboxEvent.id

/-- The client after these rows were sent to it. -/
def Delivery.send (delivery : Delivery) (events : List OutboxEvent) : Delivery :=
  { delivery with
    cursor := (events.getLast?.map OutboxEvent.id).getD delivery.cursor
    received := delivery.received ++ events.map OutboxEvent.id }

/-- One round of the stream for the owner, cut off after `sent` rows when the
connection or the session ends; the client then resumes from the last of them. -/
def Delivery.poll (ownerId sent : Nat) (delivery : Delivery) : Delivery :=
  delivery.send ((listStatusEvents ownerId delivery.cursor 100 delivery.store.rows).take sent)

inductive DeliveryEvent
  | inserted (id : Nat)
  | committed (id : Nat)
  | rolledBack (id : Nat)
  | locked (worker limit : Nat)
  | delivered (worker : Nat)
  | released (worker : Nat)
  | polled (sent : Nat)

inductive DeliveryStep (zones : Zones) (ownerId : Nat) :
    Delivery → DeliveryEvent → Delivery → Prop
  | inserted {delivery : Delivery} {row : OutboxEvent} (identity : row.id = delivery.nextId)
      (unpublished : row.publishedAt = none) :
      DeliveryStep zones ownerId delivery (.inserted row.id)
        { delivery with
          nextId := delivery.nextId + 1
          uncommitted := delivery.uncommitted ++ [row] }
  | committed {delivery : Delivery} {row : OutboxEvent} (open_ : row ∈ delivery.uncommitted) :
      DeliveryStep zones ownerId delivery (.committed row.id)
        { delivery with
          store := { delivery.store with rows := delivery.store.rows ++ [row] }
          uncommitted := delivery.uncommitted.filter fun other => other.id != row.id }
  | rolledBack {delivery : Delivery} {row : OutboxEvent} (open_ : row ∈ delivery.uncommitted) :
      DeliveryStep zones ownerId delivery (.rolledBack row.id)
        { delivery with
          uncommitted := delivery.uncommitted.filter fun other => other.id != row.id }
  | locked {delivery : Delivery} {worker limit : Nat} (positive : 1 ≤ limit)
      (bounded : limit ≤ 100) (idle : ∀ batch ∈ delivery.batches, batch.worker ≠ worker) :
      DeliveryStep zones ownerId delivery (.locked worker limit)
        { delivery with
          batches := delivery.batches ++
            [⟨worker, selectBatch delivery.locked limit delivery.store.rows⟩] }
  | delivered {delivery : Delivery} {batch : Batch} (now : Instant)
      (held : batch ∈ delivery.batches) :
      DeliveryStep zones ownerId delivery (.delivered batch.worker)
        { delivery with
          store := deliverBatch zones now batch.events delivery.store
          batches := delivery.batches.filter fun other => other.worker != batch.worker }
  | released {delivery : Delivery} {batch : Batch} (held : batch ∈ delivery.batches) :
      DeliveryStep zones ownerId delivery (.released batch.worker)
        { delivery with
          batches := delivery.batches.filter fun other => other.worker != batch.worker }
  | polled {delivery : Delivery} (sent : Nat) :
      DeliveryStep zones ownerId delivery (.polled sent) (delivery.poll ownerId sent)

def emptyDelivery (timezones : List (Nat × String)) : Delivery where
  store := ⟨[], .empty, timezones⟩
  nextId := 1
  uncommitted := []
  batches := []
  cursor := 0
  received := []

end TamForge.Notifications
