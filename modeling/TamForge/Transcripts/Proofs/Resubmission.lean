import TamForge.Transcripts.Proofs.Submissions

/-!
# Submitting a transcript again

A resubmission finds the row of its content and replays it, as far as its hook:
the queue compares `available_at` too, and a worker that retries or reclaims the
analysis job moves it.  From then on the enqueue of the same request is a
conflict, which no layer of the submission expects.
-/

namespace TamForge.Transcripts

open Jobs Models Notifications ProofSupport

variable {recording : Recording} {w w' : World} {e : Event} {now : Instant} {action : Action}
  {db db' : Db} {row other : SpeechTranscript} {job old : BackgroundJob}
  {command : TranscriptSubmitCommand} {phase next : Phase} {call : SubmitCall} {i : Nat}
  {trace later : List (Transition World Event)} {owners : List Nat} {start : Instant}

/-! ## The enqueue of a row that has its job -/

theorem enqueueSpeechAnalysis_existing (hinv : WorldInv recording w)
    (hmem : job ∈ w.db.queue.jobs) (hjob : IsAnalysisOf recording row job)
    (availableAt now : Instant) :
    enqueueSpeechAnalysis recording w.db.queue now row availableAt =
      if availableAt = job.availableAt then .ok (⟨response job, true⟩, w.db.queue)
      else .error (.conflict "Idempotency-Key was reused for another job") := by
  have hkey := safeKey_speechIdempotencyKey recording.id_le row.id_le
  have hnonzero : recording.ownerId ≠ 0 := Nat.ne_of_gt recording.owner_pos
  have hf := hinv.queue.jobByKey?_of_job? (hinv.queue.keyed.job?_of_mem hmem)
  obtain ⟨hown, hsafe⟩ := Prod.mk.inj hjob.key
  rw [hown, hsafe] at hf
  have hsame : sameEnqueue job (speechAnalysisCommand recording row availableAt)
      (speechAnalysisCommand recording row availableAt).payload.modelDump = true ↔
        speechAnalysisCommand recording row availableAt =
          { speechAnalysisCommand recording row availableAt with availableAt := job.availableAt } :=
    Jobs.sameEnqueue_iff hjob.kind hjob.payload hjob.priority hjob.maxAttempts
  have hinstant : speechAnalysisCommand recording row availableAt =
      { speechAnalysisCommand recording row availableAt with availableAt := job.availableAt } ↔
        availableAt = job.availableAt := by
    constructor
    · intro hcmd
      exact congrArg EnqueueJobCommand.availableAt hcmd
    · intro havail
      rw [← havail]
      rfl
  simp only [enqueueSpeechAnalysis, JobService.enqueue, hnonzero, if_false, hkey,
    Bool.true_eq_false, enqueue, hinv.owner, not_true_eq_false, hf]
  by_cases havail : availableAt = job.availableAt
  · rw [if_pos havail, if_pos (hsame.mpr (hinstant.mpr havail))]
    rfl
  · rw [if_neg havail, if_neg fun h => havail (hinstant.mp (hsame.mp h))]
    rfl

/-- With identities left, an enqueue goes through, or meets a job whose instant
is another one. -/
theorem enqueueSpeechAnalysis_cases (hinv : WorldInv recording w)
    (row : SpeechTranscript) (hids : w.db.queue.nextJobId ≤ bigintMax) (availableAt now : Instant) :
    ((∃ res queue, enqueueSpeechAnalysis recording w.db.queue now row availableAt =
        .ok (res, queue)) ∧
      ∀ job ∈ w.db.queue.jobs, IsAnalysisOf recording row job → job.availableAt = availableAt) ∨
    ((∃ error, enqueueSpeechAnalysis recording w.db.queue now row availableAt = .error error) ∧
      ∃ job ∈ w.db.queue.jobs, IsAnalysisOf recording row job ∧ job.availableAt ≠ availableAt) := by
  by_cases hsome : ∃ job ∈ w.db.queue.jobs, IsAnalysisOf recording row job
  · obtain ⟨job, hmem, hjob⟩ := hsome
    have hold := enqueueSpeechAnalysis_existing hinv hmem hjob availableAt now
    by_cases havail : availableAt = job.availableAt
    · rw [if_pos havail] at hold
      refine Or.inl ⟨⟨_, _, hold⟩, ?_⟩
      intro other ho hanl
      have hagain := enqueueSpeechAnalysis_existing hinv ho hanl availableAt now
      by_contra hne
      rw [hold, if_neg (Ne.symm hne)] at hagain
      cases hagain
    · rw [if_neg havail] at hold
      exact Or.inr ⟨⟨_, hold⟩, job, hmem, hjob, Ne.symm havail⟩
  · have hfree : w.db.queue.jobByKey? recording.ownerId
        (speechIdempotencyKey recording.id row.id) = none := by
      rw [jobByKey?_eq_lookup, Table.lookup_eq_none]
      intro job hmem hkey
      obtain ⟨hown, hsafe⟩ := Prod.mk.inj hkey
      obtain ⟨other, -, hanl⟩ := hinv.jobs job hmem ⟨hown, Or.inr ⟨row.id, hsafe⟩⟩
      have hid := speechIdempotencyKey_inj
        ((Prod.mk.inj hanl.key).2.symm.trans hsafe)
      refine hsome ⟨job, hmem, ?_, hanl.kind, ?_, hanl.priority, hanl.maxAttempts⟩
      · exact hkey
      · rw [hanl.payload, hid]
    have hpay : validateReferencePayloadV1
        (speechAnalysisCommand recording row availableAt).payload.modelDump = true := by
      refine validateReferencePayloadV1_of_ids (some row.id) ⟨recording.id_pos, recording.id_le⟩ ?_
      rintro id ⟨⟩
      exact ⟨row.id_pos, row.id_le⟩
    refine Or.inl ⟨?_, fun job hmem hjob => absurd ⟨job, hmem, hjob⟩ hsome⟩
    rcases enqueue_admits hinv.queue hinv.outbox hinv.owner recording.owner_pos
      (safeKey_speechIdempotencyKey recording.id_le row.id_le) hpay now with
      ⟨res, queue, henq, -⟩ | ⟨error, -, hjob | hrange⟩
    · exact ⟨res, queue, henq⟩
    · rw [hfree] at hjob
      cases hjob
    · exact absurd hids (not_le.mpr hrange)

/-! ## One analysis job -/

theorem WorldInv.row_of_id (hinv : WorldInv recording w) (hrow : row ∈ w.db.transcripts)
    (ho : other ∈ w.db.transcripts) (hid : other.id = row.id) : other = row := by
  have hlook := Table.lookup_of_mem hinv.ids ho
  rw [hid, Table.lookup_of_mem hinv.ids hrow] at hlook
  exact (Option.some.inj hlook).symm

def analysisJobs (recording : Recording) (db : Db) (transcriptId : Nat) : List BackgroundJob :=
  db.queue.jobs.filter fun job => decide (job.ownerId = recording.ownerId ∧
    job.kind = speechAnalysisKind ∧ job.payload = ⟨1, recording.id, some transcriptId⟩)

theorem WorldInv.analysisJobs (hinv : WorldInv recording w)
    (hjob : Enqueued recording w.db.queue row) :
    (analysisJobs recording w.db row.id).length = 1 := by
  have hkey : ∀ job ∈ w.db.queue.jobs, decide (job.ownerId = recording.ownerId ∧
      job.kind = speechAnalysisKind ∧ job.payload = ⟨1, recording.id, some row.id⟩) = true →
      (job.ownerId, job.idempotencyKey) =
        (recording.ownerId, speechIdempotencyKey recording.id row.id) := by
    intro job hmem hsel
    obtain ⟨hown, hkind, hpay⟩ := of_decide_eq_true hsel
    have hsubj : job.payload.subjectId = recording.id := by rw [hpay]
    obtain ⟨other, -, hanl⟩ := hinv.jobs job hmem ⟨hown, Or.inl ⟨hkind, hsubj⟩⟩
    have hid : other.id = row.id := by
      have hpayloads := hanl.payload.symm.trans hpay
      simpa using hpayloads
    rw [hanl.key, hid]
  obtain ⟨job, hmem, hanl⟩ := hjob
  have hsel : job ∈ Transcripts.analysisJobs recording w.db row.id :=
    List.mem_filter.mpr ⟨hmem, decide_eq_true
      ⟨(Prod.mk.inj hanl.key).1, hanl.kind, hanl.payload⟩⟩
  rcases Table.filter_sub_unique hinv.queue.keys hkey with hnone | ⟨only, -, -, honly⟩
  · have hnil : Transcripts.analysisJobs recording w.db row.id = [] := hnone
    rw [hnil] at hsel
    cases hsel
  · have hone : Transcripts.analysisJobs recording w.db row.id = [only] := honly
    rw [hone]
    rfl

/-! ## The call of one number -/

/-- The database answers the call `i`: the transition neither fails nor stops it,
and the identity columns have not run out. -/
structure Answers (i : Nat) (e : Transition World Event) : Prop where
  completes : e.label.action ≠ .fails i
  survives : e.label.action ≠ .crashes i
  transcriptIds : e.before.db.nextTranscriptId ≤ bigintMax
  jobIds : e.before.db.queue.nextJobId ≤ bigintMax

theorem Acts.call_cases (h : Acts recording w now action w') (hcall : w.calls i = some call) :
    (action ≠ .advances i ∧ w'.calls i = some call) ∨
      (action = .advances i ∧ 0 < call.phase.remaining ∧
        w' = w.advanceCall recording now i call) ∨
      action = .fails i ∨ action = .crashes i := by
  cases h with
  | @begins j command hfree =>
    have hij : i ≠ j := by
      rintro rfl
      rw [hcall] at hfree
      cases hfree
    exact Or.inl ⟨by simp, (setCall_calls_ne w _ hij).trans hcall⟩
  | @advances j acting hacting hunfin =>
    by_cases hij : i = j
    · subst hij
      rw [hcall] at hacting
      cases hacting
      exact Or.inr (Or.inl ⟨rfl, hunfin, rfl⟩)
    · have hsame : (w.advanceCall recording now j acting).calls i = w.calls i :=
        setCall_calls_ne _ _ hij
      have hact : Action.advances j ≠ .advances i := by
        intro heq
        exact hij (Action.advances.inj heq).symm
      exact Or.inl ⟨hact, hsame.trans hcall⟩
  | @fails j acting _ _ =>
    by_cases hij : i = j
    · exact Or.inr (Or.inr (Or.inl (by rw [hij])))
    · exact Or.inl ⟨by simp, (setCall_calls_ne w _ hij).trans hcall⟩
  | @crashes j acting _ _ =>
    by_cases hij : i = j
    · exact Or.inr (Or.inr (Or.inr (by rw [hij])))
    · exact Or.inl ⟨by simp, (setCall_calls_ne w _ hij).trans hcall⟩
  | queue _ _ => exact Or.inl ⟨by simp, hcall⟩
  | corrects => exact Or.inl ⟨by simp, hcall⟩
  | skips => exact Or.inl ⟨by simp, hcall⟩

theorem Acts.call_new (h : Acts recording w now action w') (hnone : w.calls i = none)
    (hcall : w'.calls i = some call) :
    ∃ command, action = .begins i command ∧ call = ⟨command, resolve recording⟩ := by
  have hkept : ∀ {j : Nat} {acting : SubmitCall}, w.calls j = some acting → i ≠ j := by
    rintro j acting hacting rfl
    rw [hnone] at hacting
    cases hacting
  have hold : w.calls i ≠ some call := by simp [hnone]
  cases h with
  | @begins j command _ =>
    by_cases hij : i = j
    · subst hij
      rw [setCall_calls_self] at hcall
      cases hcall
      exact ⟨command, rfl, rfl⟩
    · exact absurd ((setCall_calls_ne w _ hij).symm.trans hcall) hold
  | @advances j acting hacting _ =>
    have hsame : (w.advanceCall recording now j acting).calls i = w.calls i :=
      setCall_calls_ne _ _ (hkept hacting)
    exact absurd (hsame.symm.trans hcall) hold
  | fails hacting _ =>
    exact absurd ((setCall_calls_ne w _ (hkept hacting)).symm.trans hcall) hold
  | crashes hacting _ =>
    exact absurd ((setCall_calls_ne w _ (hkept hacting)).symm.trans hcall) hold
  | queue _ _ => exact absurd hcall hold
  | corrects => exact absurd hcall hold
  | skips => exact absurd hcall hold

/-! ## Another content -/

/-- What `store` raises for a content that is not the stored one. -/
def rejection (recording : Recording) (command : TranscriptSubmitCommand) : TranscriptError :=
  match content recording command with
  | .ok _ => .conflict
  | .error error => error

/-- A call that has written nothing: it is still in `store`, or `store` raised. -/
def Rejecting (recording : Recording) (command : TranscriptSubmitCommand) : Phase → Prop
  | .resolved | .selected _ _ | .collided _ => True
  | .raised error => error = .transcript (rejection recording command)
  | .stored _ _ | .accepted _ _ | .dated _ _ _ | .enqueued _ _ | .returned _ | .crashed => False

/-- A statement that writes, or leaves `store`, is made by a call whose content
is stored. -/
theorem Advances.rejecting (h : Advances recording db now command phase next db')
    (hph : PhaseInv recording db command phase) (hrej : Rejecting recording command phase)
    (hids : 0 < db.nextTranscriptId ∧ db.nextTranscriptId ≤ bigintMax) :
    (∃ row ∈ db'.transcripts, SameContent recording command row) ∨
      (Rejecting recording command next ∧ db' = db) := by
  cases h with
  | refused hcon =>
    refine Or.inr ⟨?_, rfl⟩
    show SubmitError.transcript _ = .transcript (rejection recording command)
    rw [rejection, hcon]
  | conflict hcon _ _ =>
    refine Or.inr ⟨?_, rfl⟩
    show SubmitError.transcript _ = .transcript (rejection recording command)
    rw [rejection, hcon]
  | replayed hcon hrow hhash =>
    obtain ⟨hmem, htrack⟩ := mem_of_byRecordingTrack hrow
    exact Or.inl ⟨_, hmem, htrack, _, hcon, hhash⟩
  | selected _ _ => exact Or.inr ⟨trivial, rfl⟩
  | written htrack hhash _ _ => exact Or.inl ⟨_, by simp, htrack, _, hph, hhash⟩
  | collided => exact Or.inr ⟨trivial, rfl⟩
  | exhausted hrange => exact absurd hids hrange
  | lost =>
    refine Or.inr ⟨?_, rfl⟩
    have hcon : content recording command = .ok _ := hph
    show SubmitError.transcript _ = .transcript (rejection recording command)
    rw [rejection, hcon]
  | reconciled hrow hhash =>
    obtain ⟨hmem, htrack⟩ := mem_of_byRecordingTrack hrow
    exact Or.inl ⟨_, hmem, htrack, _, hph, hhash⟩
  | accepted => exact hrej.elim
  | dated => exact hrej.elim
  | enqueued _ => exact hrej.elim
  | failed _ => exact hrej.elim
  | returned => exact hrej.elim

/-- The call changed nothing with its own statements. -/
def Untouched (i : Nat) (trace : List (Transition World Event)) : Prop :=
  ∀ e ∈ trace, e.label.action = .advances i → e.after.db = e.before.db

theorem Untouched.snoc {t : Transition World Event} (h : Untouched i trace)
    (ht : t.label.action = .advances i → t.after.db = t.before.db) :
    Untouched i (trace ++ [t]) := by
  intro e he hact
  rcases List.mem_append.mp he with hearl | hlast
  · exact h e hearl hact
  · rw [List.mem_singleton.mp hlast] at hact ⊢
    exact ht hact

/-- A call has its content in the table, or it has not got past `store`. -/
def StoredOrRejecting (recording : Recording) (i : Nat) (trace : List (Transition World Event))
    (w : World) : Prop :=
  (w.calls i = none ∧ Untouched i trace) ∨
    ∃ call, w.calls i = some call ∧
      ((∃ row ∈ w.db.transcripts, SameContent recording call.command row) ∨
        (Rejecting recording call.command call.phase ∧ Untouched i trace))

theorem Acts.storedOrRejecting {label : Event} (hsto : recording.state.isStored = true)
    (hacts : Acts recording w label.now label.action w') (hclk : w.clock ≤ label.now)
    (hinv : WorldInv recording w)
    (hanss : Answers i ⟨w, label, { w' with clock := label.now }⟩)
    (h : StoredOrRejecting recording i trace w) :
    StoredOrRejecting recording i (trace ++ [⟨w, label, { w' with clock := label.now }⟩])
      { w' with clock := label.now } := by
  rcases h with ⟨hnone, huntouched⟩ | ⟨call, hcall, hph⟩
  · have ho : label.action ≠ .advances i := by
      intro hact
      rw [hact] at hacts
      cases hacts with
      | advances hacting _ =>
        rw [hnone] at hacting
        cases hacting
    have hsnoc := huntouched.snoc (t := ⟨w, label, { w' with clock := label.now }⟩)
      fun hact => absurd hact ho
    cases ha : w'.calls i with
    | none => exact Or.inl ⟨ha, hsnoc⟩
    | some call =>
      obtain ⟨command, -, rfl⟩ := hacts.call_new hnone ha
      refine Or.inr ⟨_, ha, Or.inr ⟨?_, hsnoc⟩⟩
      simp only [resolve, hsto, if_true]
      trivial
  · have hkept := (hacts.extends hclk hinv).transcripts
    rcases hacts.call_cases hcall with ⟨ho, ha⟩ | ⟨hact, hunfin, rfl⟩ | hfails |
      hcrashes
    · refine Or.inr ⟨call, ha, ?_⟩
      rcases hph with ⟨row, hrow, hsame⟩ | ⟨hrej, huntouched⟩
      · exact Or.inl ⟨row, hkept row hrow, hsame⟩
      · exact Or.inr ⟨hrej, huntouched.snoc fun hact => absurd hact ho⟩
    · refine Or.inr ⟨_, advanceCall_calls recording w label.now i call, ?_⟩
      rcases hph with ⟨row, hrow, hsame⟩ | ⟨hrej, huntouched⟩
      · exact Or.inl ⟨row, hkept row hrow, hsame⟩
      · have hadv := advance_spec recording w.db label.now call.command hunfin
        rcases hadv.rejecting (hinv.calls i call hcall) hrej
          ⟨hinv.next_pos, hanss.transcriptIds⟩ with hrow | ⟨hnext, hdb⟩
        · exact Or.inl hrow
        · exact Or.inr ⟨hnext, huntouched.snoc fun _ => hdb⟩
    · exact absurd hfails hanss.completes
    · exact absurd hcrashes hanss.survives

theorem SubmitRun.storedOrRejecting (hsto : recording.state.isStored = true)
    (hrun : SubmitRun recording owners start trace w) (i : Nat)
    (hanss : ∀ e ∈ trace, Answers i e) : StoredOrRejecting recording i trace w := by
  have key : WorldInv recording w ∧
      ((∀ e ∈ trace, Answers i e) → StoredOrRejecting recording i trace w) := by
    refine hrun.2.invariant (I := fun trace w => WorldInv recording w ∧
      ((∀ e ∈ trace, Answers i e) → StoredOrRejecting recording i trace w))
      ⟨worldInv_empty hrun.1 start, fun _ => Or.inl ⟨rfl, by simp [Untouched]⟩⟩ ?_
    rintro trace s label t ⟨hinv, hearl⟩ hstep
    refine ⟨hstep.worldInv hinv, ?_⟩
    intro hall
    obtain ⟨hclk, after, hacts, rfl⟩ := hstep
    exact hacts.storedOrRejecting hsto hclk hinv (hall _ (by simp))
      (hearl fun e he => hall e (List.mem_append_left _ he))
  exact key.2 hanss

/-! ## The same content -/

/-- The transition enqueues the analysis for the row that the call `i` holds, and
finds that its job has been moved to another instant. -/
def MovedAt (recording : Recording) (i : Nat) (row : SpeechTranscript)
    (e : Transition World Event) : Prop :=
  e.label.action = .advances i ∧
    (∃ call replayed availableAt, e.before.calls i = some call ∧
      call.phase = .dated row replayed availableAt) ∧
    ∃ job ∈ e.before.db.queue.jobs, IsAnalysisOf recording row job ∧
      job.availableAt ≠ row.createdAt

def Replaying (row : SpeechTranscript) : Phase → Prop
  | .resolved => True
  | .stored held replayed | .accepted held replayed | .dated held replayed _
  | .enqueued held replayed => held = row ∧ replayed = true
  | .returned response => response.transcriptId = row.id ∧ response.replayed = true
  | .selected _ _ | .collided _ | .raised _ | .crashed => False

theorem Advances.replaying (h : Advances recording w.db now command phase next db')
    (hinv : WorldInv recording w) (hph : PhaseInv recording w.db command phase)
    (hrow : row ∈ w.db.transcripts) (hsame : SameContent recording command row)
    (hids : w.db.queue.nextJobId ≤ bigintMax) (hrpl : Replaying row phase) :
    (Replaying row next ∧ ∀ replayed availableAt, phase = .dated row replayed availableAt →
        ∀ job ∈ w.db.queue.jobs, IsAnalysisOf recording row job →
          job.availableAt = row.createdAt) ∨
      ((∃ error, next = .raised error) ∧
        (∃ replayed availableAt, phase = .dated row replayed availableAt) ∧
        ∃ job ∈ w.db.queue.jobs, IsAnalysisOf recording row job ∧
          job.availableAt ≠ row.createdAt) := by
  obtain ⟨htrack, stored, hcon, hhash⟩ := hsame
  have hf : w.db.byRecordingTrack command.track = some row := by
    rw [← htrack]
    exact hinv.byRecordingTrack hrow
  cases h with
  | refused href =>
    rw [hcon] at href
    cases href
  | conflict hfst hold hne =>
    rw [hcon] at hfst
    cases hfst
    rw [hf] at hold
    cases hold
    exact absurd hhash hne
  | replayed _ hold _ =>
    rw [hf] at hold
    cases hold
    exact Or.inl ⟨⟨rfl, rfl⟩, by simp⟩
  | selected _ hnone =>
    rw [hf] at hnone
    cases hnone
  | written _ _ _ _ => exact hrpl.elim
  | collided => exact hrpl.elim
  | exhausted _ => exact hrpl.elim
  | lost => exact hrpl.elim
  | reconciled _ _ => exact hrpl.elim
  | accepted => exact Or.inl ⟨hrpl, by simp⟩
  | dated => exact Or.inl ⟨hrpl, by simp⟩
  | @enqueued held replayed availableAt result queue henq =>
    obtain ⟨rfl, rfl⟩ := hrpl
    obtain ⟨-, -, -, rfl⟩ := hph
    refine Or.inl ⟨⟨rfl, rfl⟩, ?_⟩
    rintro replayed availableAt -
    rcases enqueueSpeechAnalysis_cases hinv held hids held.createdAt now with
      ⟨-, hunmoved⟩ | ⟨⟨error, herr⟩, -⟩
    · exact hunmoved
    · rw [henq] at herr
      cases herr
  | @failed held replayed availableAt error herr =>
    obtain ⟨rfl, rfl⟩ := hrpl
    obtain ⟨-, -, -, rfl⟩ := hph
    refine Or.inr ⟨⟨_, rfl⟩, ⟨true, held.createdAt, rfl⟩, ?_⟩
    rcases enqueueSpeechAnalysis_cases hinv held hids held.createdAt now with
      ⟨⟨result, queue, hok⟩, -⟩ | ⟨-, hmov⟩
    · rw [herr] at hok
      cases hok
    · exact hmov
  | returned =>
    obtain ⟨rfl, rfl⟩ := hrpl
    exact Or.inl ⟨⟨rfl, rfl⟩, by simp⟩

/-- A resubmission of the row replays it and its job has not been moved, or it
has raised since the job was. -/
def Resubmitting (recording : Recording) (i : Nat) (command : TranscriptSubmitCommand)
    (row : SpeechTranscript) (later : List (Transition World Event)) (w : World) : Prop :=
  row ∈ w.db.transcripts ∧ ∃ phase, w.calls i = some ⟨command, phase⟩ ∧
    ((Replaying row phase ∧ ∀ e ∈ later, ¬MovedAt recording i row e) ∨
      ((∃ error, phase = .raised error) ∧ ∃ e ∈ later, MovedAt recording i row e))

theorem Acts.resubmitting {label : Event} (hacts : Acts recording w label.now label.action w')
    (hclk : w.clock ≤ label.now) (hinv : WorldInv recording w)
    (hsame : SameContent recording command row)
    (hanss : Answers i ⟨w, label, { w' with clock := label.now }⟩)
    (h : Resubmitting recording i command row later w) :
    Resubmitting recording i command row (later ++ [⟨w, label, { w' with clock := label.now }⟩])
      { w' with clock := label.now } := by
  obtain ⟨hrow, phase, hcall, hph⟩ := h
  refine ⟨(hacts.extends hclk hinv).transcripts row hrow, ?_⟩
  have hsnoc : ∀ {P : Transition World Event → Prop} {t : Transition World Event},
      (∀ e ∈ later, ¬P e) → ¬P t → ∀ e ∈ later ++ [t], ¬P e := by
    intro P t hearl hlast e he
    rcases List.mem_append.mp he with he | he
    · exact hearl e he
    · rw [List.mem_singleton.mp he]
      exact hlast
  rcases hacts.call_cases hcall with ⟨ho, ha⟩ | ⟨hact, hunfin, rfl⟩ | hfails |
    hcrashes
  · refine ⟨phase, ha, ?_⟩
    rcases hph with ⟨hrpl, hunmoved⟩ | ⟨hraised, e, he, hmov⟩
    · exact Or.inl ⟨hrpl, hsnoc hunmoved fun hmov => ho hmov.1⟩
    · exact Or.inr ⟨hraised, e, List.mem_append_left _ he, hmov⟩
  · refine ⟨_, advanceCall_calls recording w label.now i ⟨command, phase⟩, ?_⟩
    rcases hph with ⟨hrpl, hunmoved⟩ | ⟨⟨error, rfl⟩, -⟩
    · have hadv := advance_spec recording w.db label.now command hunfin
      rcases hadv.replaying hinv (hinv.calls i _ hcall) hrow hsame hanss.jobIds
        hrpl with ⟨hnext, hkept⟩ | ⟨hraised, ⟨replayed, availableAt, hdated⟩, hmov⟩
      · refine Or.inl ⟨hnext, hsnoc hunmoved ?_⟩
        rintro ⟨-, ⟨call, replayed, availableAt, hb, hdated⟩, job, hjob, hanl, hne⟩
        have hcalls : some call = some ⟨command, phase⟩ := hb.symm.trans hcall
        cases hcalls
        exact hne (hkept replayed availableAt hdated job hjob hanl)
      · exact Or.inr ⟨hraised, ⟨w, label, _⟩,
          List.mem_append_right _ (List.mem_singleton_self _), hact,
          ⟨⟨command, phase⟩, replayed, availableAt, hcall, hdated⟩, hmov⟩
    · exact absurd hunfin (lt_irrefl 0)
  · exact absurd hfails hanss.completes
  · exact absurd hcrashes hanss.survives

/-- What a resubmission of the row is to come to: it has not raised, and once it
has returned it has replayed the row, the lineage is accepted and the row has one
analysis job. -/
def Retried (recording : Recording) (w : World) (i : Nat) (row : SpeechTranscript) : Prop :=
  ∃ call, w.calls i = some call ∧ (∀ error, call.phase ≠ .raised error) ∧
    ∀ response, call.phase = .returned response →
      response.transcriptId = row.id ∧ response.replayed = true ∧
        w.db.transcriptLineageAccepted = true ∧ (analysisJobs recording w.db row.id).length = 1

theorem Resubmitting.retried_iff (h : Resubmitting recording i command row later w)
    (hinv : WorldInv recording w) :
    Retried recording w i row ↔ ∀ e ∈ later, ¬MovedAt recording i row e := by
  obtain ⟨hrow, phase, hcall, hph⟩ := h
  constructor
  · rintro ⟨call, hcall', hunraised, -⟩
    rw [hcall] at hcall'
    cases hcall'
    rcases hph with ⟨-, hunmoved⟩ | ⟨⟨error, hraised⟩, -⟩
    · exact hunmoved
    · exact absurd hraised (hunraised error)
  · intro hunmoved
    rcases hph with ⟨hrpl, -⟩ | ⟨-, e, he, hmov⟩
    · refine ⟨_, hcall, ?_, ?_⟩
      · rintro error rfl
        exact hrpl
      · rintro response rfl
        obtain ⟨hid, hreplayed⟩ := hrpl
        obtain ⟨other, ho, -, hlin, hjob, hresp⟩ := hinv.calls i _ hcall
        obtain rfl := hinv.row_of_id hrow ho (hresp.symm.trans hid)
        exact ⟨hid, hreplayed, hlin, hinv.analysisJobs hjob⟩
    · exact absurd hmov (hunmoved e he)

/-! ## What moves the job -/

def Requeues (recording : Recording) (row : SpeechTranscript) (e : Transition World Event) : Prop :=
  ∃ old ∈ e.before.db.queue.jobs, ∃ new ∈ e.after.db.queue.jobs,
    IsAnalysisOf recording row old ∧ IsAnalysisOf recording row new ∧
      old.state = .running ∧ new.state = .queued

/-- The job of a row is available since the row was stored, until it goes back
to the queue. -/
def JobsDated (recording : Recording) (trace : List (Transition World Event)) (w : World) : Prop :=
  ∀ row ∈ w.db.transcripts, ∀ job ∈ w.db.queue.jobs, IsAnalysisOf recording row job →
    job.availableAt = row.createdAt ∨ ∃ e ∈ trace, Requeues recording row e

theorem Acts.jobsDated {label : Event} (hacts : Acts recording w label.now label.action w')
    (hclk : w.clock ≤ label.now) (hinv : WorldInv recording w)
    (h : JobsDated recording trace w) :
    JobsDated recording (trace ++ [⟨w, label, { w' with clock := label.now }⟩])
      { w' with clock := label.now } := by
  intro row hrow job hjob hanl
  have ha := hacts.worldInv hclk hinv
  have hkept := (hacts.extends hclk hinv).transcripts
  -- a job that was there has its row from before
  have hearl : ∀ old ∈ w.db.queue.jobs, IsAnalysisOf recording row old →
      old.availableAt = row.createdAt ∨ ∃ e ∈ trace, Requeues recording row e := by
    intro old hold holdAnl
    obtain ⟨hown, hkey⟩ := Prod.mk.inj holdAnl.key
    obtain ⟨other, ho, hotherAnl⟩ := hinv.jobs old hold ⟨hown, Or.inr ⟨row.id, hkey⟩⟩
    have hid := speechIdempotencyKey_inj
      ((Prod.mk.inj hotherAnl.key).2.symm.trans hkey)
    obtain rfl := ha.row_of_id hrow (hkept other ho) hid
    exact h other ho old hold holdAnl
  have hlift : (∃ e ∈ trace, Requeues recording row e) →
      ∃ e ∈ trace ++ [⟨w, label, { w' with clock := label.now }⟩], Requeues recording row e := by
    rintro ⟨e, he, hrequeues⟩
    exact ⟨e, List.mem_append_left _ he, hrequeues⟩
  rcases hacts.queueStep hclk with hqueue | ⟨jobCall, hnow, hstep, hwho⟩
  · have hold : job ∈ w.db.queue.jobs := by
      rw [← hqueue]
      exact hjob
    exact (hearl job hold hanl).imp_right hlift
  · rcases hstep.origin hinv.queue hjob with
      ⟨old, hold, hsame⟩ | ⟨owner, command, key, hcmd, hnew⟩
    · obtain ⟨new, event, hnew, hchg⟩ := hstep.row hinv.queue (hinv.queue.keyed.job?_of_mem hold)
      have hid : new.id = old.id := id_of_job? hnew
      have hids : job.id = old.id := by
        simp only [provenance, identity, Prod.mk.injEq] at hsame
        exact hsame.1.1
      have hf := (hstep.queueInv hinv.queue).keyed.job?_of_mem hjob
      rw [hids] at hf
      cases hnew.symm.trans hf
      have holdAnl := hanl.of_provenance hsame.symm
      rcases hchg.availableAt with havail | ⟨hrun, hqueued⟩
      · rw [havail]
        exact (hearl old hold holdAnl).imp_right hlift
      · exact Or.inr ⟨⟨w, label, _⟩, List.mem_append_right _ (List.mem_singleton_self _), old, hold,
          job, hjob, holdAnl, hanl, hrun, hqueued⟩
    · rcases hwho with
        hfar | ⟨i, call, held, replayed, availableAt, hcall, hph, henq⟩
      · have hkey := hanl.key
        rw [hnew] at hkey
        obtain ⟨rfl, hreserved⟩ := Prod.mk.inj hkey
        exact absurd hreserved ((hfar command key hcmd).2 row.id)
      · rw [henq] at hcmd
        cases hcmd
        have hheld := hinv.calls i call hcall
        rw [hph] at hheld
        obtain ⟨hmem, -, -, rfl⟩ := hheld
        have hkey := hanl.key
        rw [hnew] at hkey
        have hid := speechIdempotencyKey_inj (Prod.mk.inj hkey).2
        obtain rfl := ha.row_of_id hrow (hkept held hmem) hid
        rw [hnew]
        exact Or.inl rfl

theorem SubmitRun.jobsDated (hrun : SubmitRun recording owners start trace w) :
    JobsDated recording trace w := by
  have key : WorldInv recording w ∧ JobsDated recording trace w := by
    refine hrun.2.invariant (I := fun trace w => WorldInv recording w ∧
      JobsDated recording trace w)
      ⟨worldInv_empty hrun.1 start, by simp [JobsDated, World.empty]⟩ ?_
    rintro trace s label t ⟨hinv, hearl⟩ hstep
    refine ⟨hstep.worldInv hinv, ?_⟩
    obtain ⟨hclk, after, hacts, rfl⟩ := hstep
    exact hacts.jobsDated hclk hinv hearl
  exact key.2

end TamForge.Transcripts
