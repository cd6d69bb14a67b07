import TamForge.Jobs.Proofs.Leases
import TamForge.Transcripts.Service

/-!
# What submissions keep

What one statement of a call can do, and from it the invariant of every run:
rows are only ever added, one for each track; the analysis jobs are those of the
rows; and a call that has stored its content holds a row with that content.
-/

namespace TamForge.Transcripts

open Jobs Models Notifications ProofSupport
open Speech (Track)

variable {recording : Recording} {w w' : World} {e : Event} {now : Instant} {action : Action}
  {db db' : Db} {queue : Jobs.Store} {row other : SpeechTranscript} {job old : BackgroundJob}
  {command : TranscriptSubmitCommand} {phase next : Phase} {call : SubmitCall} {i : Nat}

/-! ## One statement -/

/-- What a statement of a call can do, on a database that answers. -/
inductive Advances (recording : Recording) (db : Db) (now : Instant)
    (command : TranscriptSubmitCommand) : Phase → Phase → Db → Prop
  | refused {error : TranscriptError} :
      content recording command = .error error →
      Advances recording db now command .resolved (.raised (.transcript error)) db
  | conflict {found : Content} {row : SpeechTranscript} :
      content recording command = .ok found → db.byRecordingTrack command.track = some row →
      row.contentHash ≠ found.contentHash →
      Advances recording db now command .resolved (.raised (.transcript .conflict)) db
  | replayed {found : Content} {row : SpeechTranscript} :
      content recording command = .ok found → db.byRecordingTrack command.track = some row →
      row.contentHash = found.contentHash →
      Advances recording db now command .resolved (.stored row true) db
  | selected {found : Content} :
      content recording command = .ok found → db.byRecordingTrack command.track = none →
      Advances recording db now command .resolved (.selected now found) db
  | written {began : Instant} {found : Content} {row : SpeechTranscript} :
      row.track = command.track → row.contentHash = found.contentHash →
      row.id = db.nextTranscriptId → db.byRecordingTrack command.track = none →
      Advances recording db now command (.selected began found) (.stored row false)
        { db with
          transcripts := db.transcripts ++ [row]
          nextTranscriptId := db.nextTranscriptId + 1 }
  | collided {began : Instant} {found : Content} :
      Advances recording db now command (.selected began found) (.collided found) db
  | exhausted {began : Instant} {found : Content} :
      ¬(0 < db.nextTranscriptId ∧ db.nextTranscriptId ≤ bigintMax) →
      Advances recording db now command (.selected began found)
        (.raised (.transcript .unavailable)) db
  | lost {found : Content} :
      Advances recording db now command (.collided found) (.raised (.transcript .conflict)) db
  | reconciled {found : Content} {row : SpeechTranscript} :
      db.byRecordingTrack command.track = some row → row.contentHash = found.contentHash →
      Advances recording db now command (.collided found) (.stored row true) db
  | accepted {row : SpeechTranscript} {replayed : Bool} :
      Advances recording db now command (.stored row replayed) (.accepted row replayed)
        (acceptLineage db)
  | dated {row : SpeechTranscript} {replayed : Bool} :
      Advances recording db now command (.accepted row replayed)
        (.dated row replayed ((db.createdAt? row.id).getD now)) db
  | enqueued {row : SpeechTranscript} {replayed : Bool} {availableAt : Instant}
      {result : EnqueueResult} {queue : Jobs.Store} :
      enqueueSpeechAnalysis recording db.queue now row availableAt = .ok (result, queue) →
      Advances recording db now command (.dated row replayed availableAt)
        (.enqueued row replayed) { db with queue := queue }
  | failed {row : SpeechTranscript} {replayed : Bool} {availableAt : Instant} {error : JobError} :
      enqueueSpeechAnalysis recording db.queue now row availableAt = .error error →
      Advances recording db now command (.dated row replayed availableAt)
        (.raised (if isSqlAlchemyError error then .transcript .unavailable else .job error)) db
  | returned {row : SpeechTranscript} {replayed : Bool} :
      Advances recording db now command (.enqueued row replayed)
        (.returned (toResponse recording db row replayed)) db

theorem advance_spec (recording : Recording) (db : Db) (now : Instant)
    (command : TranscriptSubmitCommand) (h : 0 < phase.remaining) :
    Advances recording db now command phase (advance recording db now command phase).1
      (advance recording db now command phase).2 := by
  cases phase with
  | resolved =>
    simp only [advance]
    cases hcon : content recording command with
    | error error => exact .refused hcon
    | ok found =>
      cases hrow : db.byRecordingTrack command.track with
      | none =>
        simp only [storeSelect, hrow]
        exact .selected hcon hrow
      | some row =>
        by_cases hhash : row.contentHash = found.contentHash
        · simp only [storeSelect, hrow, hhash, ne_eq, not_true_eq_false, if_false]
          exact .replayed hcon hrow hhash
        · simp only [storeSelect, hrow, hhash, ne_eq, not_false_eq_true, if_true]
          exact .conflict hcon hrow hhash
  | selected began found =>
    simp only [advance, storeInsert]
    by_cases hid : 0 < db.nextTranscriptId ∧ db.nextTranscriptId ≤ bigintMax
    · rw [dif_pos hid]
      cases hrow : db.byRecordingTrack command.track with
      | none => exact .written rfl rfl rfl hrow
      | some row => exact .collided
    · rw [dif_neg hid]
      exact .exhausted hid
  | collided found =>
    simp only [advance]
    cases hrow : db.byRecordingTrack command.track with
    | none =>
      simp only [reconcileLostRace, hrow]
      exact .lost
    | some row =>
      by_cases hhash : row.contentHash = found.contentHash
      · simp only [reconcileLostRace, hrow, hhash, ne_eq, not_true_eq_false, if_false]
        exact .reconciled hrow hhash
      · simp only [reconcileLostRace, hrow, hhash, ne_eq, not_false_eq_true, if_true]
        exact .lost
  | stored row replayed => exact .accepted
  | accepted row replayed => exact .dated
  | dated row replayed availableAt =>
    simp only [advance]
    cases henq : enqueueSpeechAnalysis recording db.queue now row availableAt with
    | ok result => exact .enqueued henq
    | error error =>
      have hfailed : Advances recording db now command (.dated row replayed availableAt) _ db :=
        .failed henq
      by_cases hsql : isSqlAlchemyError error = true
      · rw [if_pos hsql] at hfailed
        simpa [hsql] using hfailed
      · rw [if_neg hsql] at hfailed
        simpa [hsql] using hfailed
  | enqueued row replayed => exact .returned
  | returned response => exact absurd h (lt_irrefl 0)
  | raised error => exact absurd h (lt_irrefl 0)
  | crashed => exact absurd h (lt_irrefl 0)

theorem Advances.remaining_lt (h : Advances recording db now command phase next db') :
    next.remaining < phase.remaining := by
  cases h <;> simp [Phase.remaining]

/-! ## Rows -/

theorem mem_of_byRecordingTrack {track : Track} (h : db.byRecordingTrack track = some row) :
    row ∈ db.transcripts ∧ row.track = track :=
  ⟨Table.mem_of_lookup h, Table.key_of_lookup h⟩

def SameContent (recording : Recording) (command : TranscriptSubmitCommand)
    (row : SpeechTranscript) : Prop :=
  row.track = command.track ∧
    ∃ found, content recording command = .ok found ∧ row.contentHash = found.contentHash

/-- A statement adds at most one row, of a free track and under a new identity. -/
theorem Advances.transcripts (h : Advances recording db now command phase next db') :
    (db'.transcripts = db.transcripts ∧ db'.nextTranscriptId = db.nextTranscriptId) ∨
      ∃ row, db'.transcripts = db.transcripts ++ [row] ∧
        db'.nextTranscriptId = db.nextTranscriptId + 1 ∧ row.id = db.nextTranscriptId ∧
        ∀ other ∈ db.transcripts, other.track ≠ row.track := by
  cases h with
  | written htrack _ hid hfree =>
    refine Or.inr ⟨_, rfl, rfl, hid, ?_⟩
    rw [htrack]
    exact Table.lookup_eq_none.mp hfree
  | _ => exact Or.inl ⟨rfl, rfl⟩

/-! ## The analysis job -/

theorem speechIdempotencyKey_inj {recordingId first second : Nat}
    (h : speechIdempotencyKey recordingId first = speechIdempotencyKey recordingId second) :
    first = second := by
  have hchars : ∀ first second : String, ("speech-analysis-r" ++ first ++ "-t" ++ second).toList =
      ("speech-analysis-r" ++ first ++ "-t").toList ++ second.toList :=
    fun _ _ => String.toList_append
  have hlists := (hchars (toString recordingId) (toString first)).symm.trans
    ((congrArg String.toList h).trans (hchars (toString recordingId) (toString second)))
  exact Keys.toString_inj (List.append_cancel_left hlists)

theorem safeKey_speechIdempotencyKey {recordingId transcriptId : Nat}
    (hrecg : recordingId ≤ bigintMax) (htranscript : transcriptId ≤ bigintMax) :
    safeKey (speechIdempotencyKey recordingId transcriptId) = true := by
  have hdigits := Keys.all_toString (p := isKeyChar) fun _ => isKeyChar_of_isDigit
  have hfst := length_identity_le hrecg
  have hsec := length_identity_le htranscript
  refine safeKey_of_chars 's' ("peech-analysis-r".toList ++ (toString recordingId).toList ++
    "-t".toList ++ (toString transcriptId).toList) ?_ (by decide) ?_ ?_
  · have hchars : ∀ first second : String,
        ("speech-analysis-r" ++ first ++ "-t" ++ second).toList =
          's' :: ("peech-analysis-r".toList ++ first.toList ++ "-t".toList ++ second.toList) := by
      intro first second
      have hhead : "speech-analysis-r".toList = 's' :: "peech-analysis-r".toList := by decide
      simp only [String.toList_append, hhead, List.cons_append]
    exact hchars (toString recordingId) (toString transcriptId)
  · simp only [List.all_append, hdigits, Bool.and_true]
    decide
  · have hhead : "peech-analysis-r".toList.length = 16 := by decide
    have hmiddle : "-t".toList.length = 2 := by decide
    rw [List.length_append, List.length_append, List.length_append, hhead, hmiddle]
    omega

/-- The job is the analysis job of the row; only its `available_at` and what the
workers write are left open. -/
structure IsAnalysisOf (recording : Recording) (row : SpeechTranscript) (job : BackgroundJob) :
    Prop where
  key : (job.ownerId, job.idempotencyKey) =
    (recording.ownerId, speechIdempotencyKey recording.id row.id)
  kind : job.kind = speechAnalysisKind
  payload : job.payload = ⟨1, recording.id, some row.id⟩
  priority : job.priority = speechPriority
  maxAttempts : job.maxAttempts = speechMaxAttempts

theorem isAnalysisOf_newJob (id : Nat) (availableAt now : Instant) :
    IsAnalysisOf recording row (newJob id recording.ownerId
      (speechAnalysisCommand recording row availableAt)
      (speechIdempotencyKey recording.id row.id) now) where
  key := rfl
  kind := rfl
  payload := rfl
  priority := rfl
  maxAttempts := rfl

theorem IsAnalysisOf.of_provenance (hold : IsAnalysisOf recording row old)
    (hsame : provenance job = provenance old) : IsAnalysisOf recording row job := by
  simp only [provenance, identity, Prod.mk.injEq] at hsame
  obtain ⟨⟨-, hown, hkey⟩, hkind, hpay, hprio, hmax⟩ := hsame
  refine ⟨?_, hkind.trans hold.kind, hpay.trans hold.payload, hprio.trans hold.priority,
    hmax.trans hold.maxAttempts⟩
  rw [hown, hkey]
  exact hold.key

def Enqueued (recording : Recording) (queue : Jobs.Store) (row : SpeechTranscript) : Prop :=
  ∃ job ∈ queue.jobs, IsAnalysisOf recording row job

def Concerns (recording : Recording) (job : BackgroundJob) : Prop :=
  job.ownerId = recording.ownerId ∧
    (job.kind = speechAnalysisKind ∧ job.payload.subjectId = recording.id ∨
      ∃ transcriptId, job.idempotencyKey = speechIdempotencyKey recording.id transcriptId)

theorem Concerns.of_provenance (h : Concerns recording job)
    (hsame : provenance job = provenance old) : Concerns recording old := by
  simp only [provenance, identity, Prod.mk.injEq] at hsame
  obtain ⟨⟨-, hown, hkey⟩, hkind, hpay, -, -⟩ := hsame
  unfold Concerns at h ⊢
  rw [← hown, ← hkey, ← hkind, ← hpay]
  exact h

theorem Enqueued.step {v v' : Jobs.World} {jobCall : Jobs.Call} (hqueue : QueueInv v)
    (hstep : Jobs.Step v jobCall v') (h : Enqueued recording v.store row) :
    Enqueued recording v'.store row := by
  obtain ⟨old, hmem, hold⟩ := h
  obtain ⟨new, event, hnew, hchg⟩ := hstep.row hqueue (hqueue.keyed.job?_of_mem hmem)
  exact ⟨new, Table.mem_of_lookup hnew, hold.of_provenance hchg.provenance⟩

theorem enqueue_step {availableAt clock : Instant} {res : EnqueueResult} (hclk : clock ≤ now)
    (h : enqueueSpeechAnalysis recording db.queue now row availableAt = .ok (res, queue)) :
    Jobs.Step ⟨db.queue, clock⟩ ⟨now, .enqueue recording.ownerId
      (speechAnalysisCommand recording row availableAt)
      (speechIdempotencyKey recording.id row.id), .enqueued res⟩ ⟨queue, now⟩ := by
  refine ⟨hclk, rfl, Or.inl ?_⟩
  show exec db.queue now _ = _
  rw [exec, JobService.enqueue_ok h]
  rfl

theorem enqueued_of_ok {availableAt : Instant} {res : EnqueueResult}
    (h : enqueueSpeechAnalysis recording db.queue now row availableAt = .ok (res, queue)) :
    Enqueued recording queue row := by
  obtain ⟨-, ⟨job, hjob, hsame, -, rfl⟩ | ⟨-, -, -, job, rfl, -, rfl⟩⟩ :=
    enqueue_ok (JobService.enqueue_ok h)
  · simp only [sameEnqueue, Bool.and_eq_true, beq_iff_eq] at hsame
    obtain ⟨⟨⟨⟨hkind, hpay⟩, hprio⟩, -⟩, hmax⟩ := hsame
    rw [jobByKey?_eq_lookup] at hjob
    have hkey := Table.key_of_lookup hjob
    exact ⟨job, Table.mem_of_lookup hjob, hkey, hkind, hpay, hprio, hmax⟩
  · exact ⟨newJob db.queue.nextJobId recording.ownerId
      (speechAnalysisCommand recording row availableAt)
      (speechIdempotencyKey recording.id row.id) now, by simp [Store.emit],
      isAnalysisOf_newJob db.queue.nextJobId availableAt now⟩

/-! ## The invariant -/

def PhaseInv (recording : Recording) (db : Db) (command : TranscriptSubmitCommand) : Phase → Prop
  | .resolved | .raised _ | .crashed => True
  | .selected _ found | .collided found => content recording command = .ok found
  | .stored row _ => row ∈ db.transcripts ∧ SameContent recording command row
  | .accepted row _ => row ∈ db.transcripts ∧ SameContent recording command row ∧
      db.transcriptLineageAccepted = true
  | .dated row _ availableAt => row ∈ db.transcripts ∧ SameContent recording command row ∧
      db.transcriptLineageAccepted = true ∧ availableAt = row.createdAt
  | .enqueued row _ => row ∈ db.transcripts ∧ SameContent recording command row ∧
      db.transcriptLineageAccepted = true ∧ Enqueued recording db.queue row
  | .returned response => ∃ row ∈ db.transcripts, SameContent recording command row ∧
      db.transcriptLineageAccepted = true ∧ Enqueued recording db.queue row ∧
      response.transcriptId = row.id

/-- Nothing that a call relies on is taken away. -/
structure Extends (recording : Recording) (db db' : Db) : Prop where
  transcripts : ∀ row ∈ db.transcripts, row ∈ db'.transcripts
  lineage : db.transcriptLineageAccepted = true → db'.transcriptLineageAccepted = true
  jobs : ∀ row, Enqueued recording db.queue row → Enqueued recording db'.queue row

theorem PhaseInv.mono (h : PhaseInv recording db command phase) (hdb : Extends recording db db') :
    PhaseInv recording db' command phase := by
  cases phase with
  | resolved => trivial
  | raised error => trivial
  | crashed => trivial
  | selected began found => exact h
  | collided found => exact h
  | stored row replayed => exact ⟨hdb.transcripts row h.1, h.2⟩
  | accepted row replayed =>
    obtain ⟨hrow, hsame, hlin⟩ := h
    exact ⟨hdb.transcripts row hrow, hsame, hdb.lineage hlin⟩
  | dated row replayed availableAt =>
    obtain ⟨hrow, hsame, hlin, havail⟩ := h
    exact ⟨hdb.transcripts row hrow, hsame, hdb.lineage hlin, havail⟩
  | enqueued row replayed =>
    obtain ⟨hrow, hsame, hlin, hjob⟩ := h
    exact ⟨hdb.transcripts row hrow, hsame, hdb.lineage hlin, hdb.jobs row hjob⟩
  | returned response =>
    obtain ⟨row, hrow, hsame, hlin, hjob, hid⟩ := h
    exact ⟨row, hdb.transcripts row hrow, hsame, hdb.lineage hlin, hdb.jobs row hjob, hid⟩

/-- The invariant of a run: both unique constraints of the table hold, new
identities are new, and the analysis jobs are those of the rows. -/
structure WorldInv (recording : Recording) (w : World) : Prop where
  queue : QueueInv ⟨w.db.queue, w.clock⟩
  outbox : OutboxInv w.db.queue
  owner : recording.ownerId ∈ w.db.queue.owners
  tracks : (w.db.transcripts.map SpeechTranscript.track).Nodup
  ids : (w.db.transcripts.map SpeechTranscript.id).Nodup
  fresh : ∀ row ∈ w.db.transcripts, row.id < w.db.nextTranscriptId
  next_pos : 0 < w.db.nextTranscriptId
  jobs : ∀ job ∈ w.db.queue.jobs, Concerns recording job →
    ∃ row ∈ w.db.transcripts, IsAnalysisOf recording row job
  calls : ∀ i call, w.calls i = some call → PhaseInv recording w.db call.command call.phase

theorem worldInv_empty {owners : List Nat} (hown : recording.ownerId ∈ owners)
    (start : Instant) : WorldInv recording (World.empty owners start) where
  queue := queueInv_empty owners start
  outbox := by
    have hrun : QueueRun owners start [] ⟨Jobs.Store.empty owners, start⟩ := Run.refl
    exact hrun.outboxInv
  owner := hown
  tracks := List.nodup_nil
  ids := List.nodup_nil
  fresh := by simp [World.empty]
  next_pos := Nat.one_pos
  jobs := by simp [World.empty, Jobs.Store.empty]
  calls := by simp [World.empty]

theorem WorldInv.row_unique (hinv : WorldInv recording w) (hrow : row ∈ w.db.transcripts)
    (ho : other ∈ w.db.transcripts) (htrack : other.track = row.track) : other = row := by
  have hlook := Table.lookup_of_mem hinv.tracks ho
  rw [htrack, Table.lookup_of_mem hinv.tracks hrow] at hlook
  exact (Option.some.inj hlook).symm

theorem WorldInv.byRecordingTrack (hinv : WorldInv recording w) (hrow : row ∈ w.db.transcripts) :
    w.db.byRecordingTrack row.track = some row :=
  Table.lookup_of_mem hinv.tracks hrow

theorem WorldInv.createdAt? (hinv : WorldInv recording w) (hrow : row ∈ w.db.transcripts) :
    w.db.createdAt? row.id = some row.createdAt := by
  unfold Db.createdAt?
  rw [Table.lookup_of_mem hinv.ids hrow]
  rfl

/-! ## One action -/

@[simp] theorem advanceCall_db (recording : Recording) (w : World) (now : Instant) (i : Nat)
    (call : SubmitCall) : (w.advanceCall recording now i call).db =
      (advance recording w.db now call.command call.phase).2 := rfl

@[simp] theorem advanceCall_calls (recording : Recording) (w : World) (now : Instant) (i : Nat)
    (call : SubmitCall) : (w.advanceCall recording now i call).calls i =
      some ⟨call.command, (advance recording w.db now call.command call.phase).1⟩ := by
  simp [World.advanceCall, World.setCall]

theorem setCall_calls_ne (w : World) {i j : Nat} (call : SubmitCall) (h : j ≠ i) :
    (w.setCall i call).calls j = w.calls j := by
  simp [World.setCall, h]

theorem setCall_calls_self (w : World) (i : Nat) (call : SubmitCall) :
    (w.setCall i call).calls i = some call := by
  simp [World.setCall]

/-- How an action changes the queue: not at all, or by one of its commands.  An
analysis of the recording is enqueued by a call for the row it holds. -/
theorem Acts.queueStep (h : Acts recording w now action w') (hclk : w.clock ≤ now) :
    w'.db.queue = w.db.queue ∨
      ∃ jobCall : Jobs.Call, jobCall.now = now ∧
        Jobs.Step ⟨w.db.queue, w.clock⟩ jobCall ⟨w'.db.queue, now⟩ ∧
        (Foreign recording jobCall.command ∨
          ∃ i call row repl availableAt, w.calls i = some call ∧
            call.phase = .dated row repl availableAt ∧
            jobCall.command = .enqueue recording.ownerId
              (speechAnalysisCommand recording row availableAt)
              (speechIdempotencyKey recording.id row.id)) := by
  cases h with
  | begins _ => exact Or.inl rfl
  | @advances i call hcall hunfin =>
    have hspec := advance_spec recording w.db now call.command hunfin
    rw [advanceCall_db]
    generalize hph : call.phase = phase at hspec ⊢
    generalize (advance recording w.db now call.command phase).1 = next at hspec
    generalize (advance recording w.db now call.command phase).2 = db' at hspec ⊢
    cases hspec with
    | enqueued henq =>
      exact Or.inr ⟨_, rfl, enqueue_step hclk henq, Or.inr
        ⟨i, call, _, _, _, hcall, hph, rfl⟩⟩
    | _ => exact Or.inl rfl
  | fails _ _ => exact Or.inl rfl
  | crashes _ _ => exact Or.inl rfl
  | queue hfar hstep => exact Or.inr ⟨_, rfl, hstep, Or.inl hfar⟩
  | corrects => exact Or.inl rfl
  | skips => exact Or.inl rfl

theorem Acts.transcripts (h : Acts recording w now action w') :
    (w'.db.transcripts = w.db.transcripts ∧
        w.db.nextTranscriptId ≤ w'.db.nextTranscriptId) ∨
      ∃ row, w'.db.transcripts = w.db.transcripts ++ [row] ∧
        w'.db.nextTranscriptId = w.db.nextTranscriptId + 1 ∧ row.id = w.db.nextTranscriptId ∧
        ∀ other ∈ w.db.transcripts, other.track ≠ row.track := by
  cases h with
  | @advances i call _ hunfin =>
    rcases (advance_spec recording w.db now call.command hunfin).transcripts with
      ⟨hrows, hnext⟩ | hnew
    · exact Or.inl ⟨hrows, le_of_eq hnext.symm⟩
    · exact Or.inr hnew
  | skips => exact Or.inl ⟨rfl, Nat.le_succ _⟩
  | _ => exact Or.inl ⟨rfl, le_refl _⟩

theorem Advances.lineage (h : Advances recording db now command phase next db')
    (hlin : db.transcriptLineageAccepted = true) : db'.transcriptLineageAccepted = true := by
  cases h with
  | accepted => rfl
  | _ => exact hlin

theorem Acts.extends (h : Acts recording w now action w') (hclk : w.clock ≤ now)
    (hinv : WorldInv recording w) : Extends recording w.db w'.db where
  transcripts := by
    intro row hrow
    rcases h.transcripts with ⟨hrows, -⟩ | ⟨new, hrows, -⟩
    · rw [hrows]
      exact hrow
    · rw [hrows]
      exact List.mem_append_left _ hrow
  lineage := by
    intro hlin
    cases h with
    | @advances i call _ hunfin =>
      exact (advance_spec recording w.db now call.command hunfin).lineage hlin
    | _ => exact hlin
  jobs := by
    intro row hjob
    rcases h.queueStep hclk with hqueue | ⟨jobCall, -, hstep, -⟩
    · rw [hqueue]
      exact hjob
    · exact hjob.step hinv.queue hstep

theorem Advances.phaseInv (h : Advances recording db now command phase next db')
    (hph : PhaseInv recording db command phase)
    (hdated : ∀ row ∈ db.transcripts, db.createdAt? row.id = some row.createdAt) :
    PhaseInv recording db' command next := by
  cases h with
  | refused _ => trivial
  | conflict _ _ _ => trivial
  | exhausted _ => trivial
  | lost => trivial
  | failed _ => trivial
  | replayed hcon hrow hhash =>
    obtain ⟨hmem, htrack⟩ := mem_of_byRecordingTrack hrow
    exact ⟨hmem, htrack, _, hcon, hhash⟩
  | selected hcon _ => exact hcon
  | written htrack hhash _ _ => exact ⟨by simp, htrack, _, hph, hhash⟩
  | collided => exact hph
  | reconciled hrow hhash =>
    obtain ⟨hmem, htrack⟩ := mem_of_byRecordingTrack hrow
    exact ⟨hmem, htrack, _, hph, hhash⟩
  | accepted => exact ⟨hph.1, hph.2, rfl⟩
  | dated =>
    obtain ⟨hmem, hsame, hlin⟩ := hph
    refine ⟨hmem, hsame, hlin, ?_⟩
    rw [hdated _ hmem]
    rfl
  | enqueued henq =>
    obtain ⟨hmem, hsame, hlin, -⟩ := hph
    exact ⟨hmem, hsame, hlin, enqueued_of_ok henq⟩
  | returned =>
    obtain ⟨hmem, hsame, hlin, hjob⟩ := hph
    exact ⟨_, hmem, hsame, hlin, hjob, rfl⟩

theorem Acts.calls (h : Acts recording w now action w') (hclk : w.clock ≤ now)
    (hinv : WorldInv recording w) (hcall : w'.calls i = some call) :
    PhaseInv recording w'.db call.command call.phase := by
  have hextends := h.extends hclk hinv
  have ho : w.calls i = some call → PhaseInv recording w'.db call.command call.phase :=
    fun hold => (hinv.calls i call hold).mono hextends
  -- only the call that acts is at another phase than before
  cases h with
  | @begins j command _ =>
    by_cases hij : i = j
    · subst hij
      rw [setCall_calls_self] at hcall
      cases hcall
      show PhaseInv recording w.db command (resolve recording)
      unfold resolve
      split <;> trivial
    · rw [setCall_calls_ne w _ hij] at hcall
      exact ho hcall
  | @advances j acting hacting hunfin =>
    by_cases hij : i = j
    · subst hij
      rw [advanceCall_calls] at hcall
      cases hcall
      exact (advance_spec recording w.db now acting.command hunfin).phaseInv
        (hinv.calls i acting hacting) fun row hrow => hinv.createdAt? hrow
    · have hsame : (w.advanceCall recording now j acting).calls i = w.calls i :=
        setCall_calls_ne _ _ hij
      rw [hsame] at hcall
      exact ho hcall
  | @fails j acting _ _ =>
    by_cases hij : i = j
    · subst hij
      rw [setCall_calls_self] at hcall
      cases hcall
      trivial
    · rw [setCall_calls_ne w _ hij] at hcall
      exact ho hcall
  | @crashes j acting _ _ =>
    by_cases hij : i = j
    · subst hij
      rw [setCall_calls_self] at hcall
      cases hcall
      trivial
    · rw [setCall_calls_ne w _ hij] at hcall
      exact ho hcall
  | queue _ _ => exact ho hcall
  | corrects => exact ho hcall
  | skips => exact ho hcall

theorem Acts.jobs (h : Acts recording w now action w') (hclk : w.clock ≤ now)
    (hinv : WorldInv recording w) (hjob : job ∈ w'.db.queue.jobs)
    (hconcerns : Concerns recording job) :
    ∃ row ∈ w'.db.transcripts, IsAnalysisOf recording row job := by
  have hkept := (h.extends hclk hinv).transcripts
  rcases h.queueStep hclk with hqueue | ⟨jobCall, hnow, hstep, hwho⟩
  · rw [hqueue] at hjob
    obtain ⟨row, hrow, hanl⟩ := hinv.jobs job hjob hconcerns
    exact ⟨row, hkept row hrow, hanl⟩
  · rcases hstep.origin hinv.queue hjob with
      ⟨old, hold, hsame⟩ | ⟨owner, command, key, hcmd, hnew⟩
    · obtain ⟨row, hrow, hanl⟩ := hinv.jobs old hold (hconcerns.of_provenance hsame)
      exact ⟨row, hkept row hrow, hanl.of_provenance hsame⟩
    · rcases hwho with
        hfar | ⟨i, call, row, replayed, availableAt, hcall, hph, henq⟩
      · rw [hnew] at hconcerns
        obtain ⟨rfl, hconcerns⟩ := hconcerns
        obtain ⟨hkind, hkey⟩ := hfar command key hcmd
        rcases hconcerns with ⟨hanl, hsubj⟩ | ⟨transcriptId, hreserved⟩
        · exact absurd hsubj (hkind hanl)
        · exact absurd hreserved (hkey transcriptId)
      · rw [henq] at hcmd
        cases hcmd
        have hrow := hinv.calls i call hcall
        rw [hph] at hrow
        refine ⟨row, hkept row hrow.1, ?_⟩
        rw [hnew]
        exact isAnalysisOf_newJob _ _ _

theorem Acts.worldInv (h : Acts recording w now action w') (hclk : w.clock ≤ now)
    (hinv : WorldInv recording w) : WorldInv recording { w' with clock := now } := by
  have hqueue : QueueInv ⟨w'.db.queue, now⟩ ∧ OutboxInv w'.db.queue ∧
      w'.db.queue.owners = w.db.queue.owners := by
    rcases h.queueStep hclk with hsame | ⟨jobCall, -, hstep, -⟩
    · rw [hsame]
      exact ⟨hinv.queue.advance hclk, hinv.outbox, rfl⟩
    · obtain ⟨emitted, heff⟩ := step_effect hinv.queue.keyed hstep
      exact ⟨hstep.queueInv hinv.queue, hstep.outboxInv hinv.queue hinv.outbox, heff.owners⟩
  obtain ⟨hqueueInv, houtbox, howns⟩ := hqueue
  have hrows : (w'.db.transcripts.map SpeechTranscript.track).Nodup ∧
      (w'.db.transcripts.map SpeechTranscript.id).Nodup ∧
      (∀ row ∈ w'.db.transcripts, row.id < w'.db.nextTranscriptId) ∧
      0 < w'.db.nextTranscriptId := by
    rcases h.transcripts with ⟨hsame, hnext⟩ | ⟨new, hadded, hnext, hid, hfree⟩
    · rw [hsame]
      exact ⟨hinv.tracks, hinv.ids, fun row hrow => (hinv.fresh row hrow).trans_le hnext,
        hinv.next_pos.trans_le hnext⟩
    · rw [hadded, hnext]
      refine ⟨Table.nodup_insert hinv.tracks hfree, ?_, ?_, Nat.succ_pos _⟩
      · apply Table.nodup_insert hinv.ids
        intro other ho
        have hlt := hinv.fresh other ho
        omega
      · intro row hrow
        rcases List.mem_append.mp hrow with hold | hnew
        · exact (hinv.fresh row hold).trans (Nat.lt_succ_self _)
        · rw [List.mem_singleton.mp hnew, hid]
          exact Nat.lt_succ_self _
  obtain ⟨htracks, hids, hfresh, hpos⟩ := hrows
  refine ⟨hqueueInv, houtbox, ?_, htracks, hids, hfresh, hpos, ?_, ?_⟩
  · rw [howns]
    exact hinv.owner
  · intro job hjob hconcerns
    exact h.jobs hclk hinv hjob hconcerns
  · intro i call hcall
    exact h.calls hclk hinv hcall

theorem Step.worldInv (h : Step recording w e w') (hinv : WorldInv recording w) :
    WorldInv recording w' := by
  obtain ⟨hclk, after, hacts, rfl⟩ := h
  exact hacts.worldInv hclk hinv

theorem SubmitRun.worldInv {owners : List Nat} {start : Instant}
    {trace : List (Transition World Event)} (hrun : SubmitRun recording owners start trace w) :
    WorldInv recording w :=
  hrun.2.state_invariant (worldInv_empty hrun.1 start) fun _ _ _ hinv hstep => hstep.worldInv hinv

end TamForge.Transcripts
