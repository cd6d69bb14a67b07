import Mathlib.Logic.Relation
import TamForge.Jobs.Proofs.Leases
import TamForge.Reports.Schedule

/-!
# When weekly reports are queued

A week has a job as soon as a beat finds it due or a request names it, and keeps
it from then on.  So a run queues every week in time exactly as far as its
beats and requests come in time: a beat looks at the last due week only, and a
request compares the end of its week with the date in UTC.
-/

namespace TamForge.Reports

open Jobs Learning.StudyDayService Models Notifications
open ProofSupport WeeklyReportQueue

variable {zones : Zones} {db db' mid : Db} {now clock : Instant} {ownerId : Nat} {week : Date}
  {job : BackgroundJob} {w w' start : World} {e : Event}

def Reached (zones : Zones) (db : Db) (ownerId : Nat) (week : Date) (now : Instant) : Prop :=
  ∃ zone, zones (timezone db ownerId) = some zone ∧ (zone now).reaches (sundayEvening week)

def weekJobs (db : Db) (ownerId : Nat) (week : Date) : List BackgroundJob :=
  db.queue.jobs.filter fun job => job.kind == weeklyReportJobKind && job.ownerId == ownerId &&
    job.payload.subjectId == week

theorem mem_weekJobs : job ∈ weekJobs db ownerId week ↔ job ∈ db.queue.jobs ∧
    job.kind = weeklyReportJobKind ∧ job.ownerId = ownerId ∧ job.payload.subjectId = week := by
  rw [weekJobs, List.mem_filter]
  simp only [Bool.and_eq_true, beq_iff_eq, and_assoc]

def Covered (db : Db) (ownerId : Nat) (week : Date) : Prop :=
  db.hasReport ownerId week = true ∨
    ∃ job, db.weekJob? ownerId week = some job ∧ job ∈ weekJobs db ownerId week

theorem weeklyReportIdempotencyKey_inj {other : Date} (hweek : 0 < week) (ho : 0 < other)
    (h : weeklyReportIdempotencyKey ownerId week = weeklyReportIdempotencyKey ownerId other) :
    week = other := by
  have hcancel : ∀ head text other : String, head ++ text = head ++ other →
      text.toList = other.toList := by
    intro head text other hsame
    have hchars := congrArg String.toList hsame
    rw [String.toList_append, String.toList_append] at hchars
    exact List.append_cancel_left hchars
  have hequal := hcancel _ _ _ h
  exact isoformat_inj hweek ho hequal

structure Inv (db : Db) (clock : Instant) : Prop where
  queue : QueueInv ⟨db.queue, clock⟩
  owners_pos : ∀ ownerId ∈ db.queue.owners, 0 < ownerId ∧ ownerId ≤ bigintMax
  keyed : ∀ job ∈ db.queue.jobs, job.kind = weeklyReportJobKind →
    job.idempotencyKey = weeklyReportIdempotencyKey job.ownerId job.payload.subjectId
  named : ∀ job ∈ db.queue.jobs, ∀ week, 0 < week →
    job.idempotencyKey = weeklyReportIdempotencyKey job.ownerId week →
    job.kind = weeklyReportJobKind ∧ job.payload.subjectId = week

theorem Inv.advance (hinv : Inv db clock) (hnow : clock ≤ now) : Inv db now :=
  { hinv with queue := hinv.queue.advance hnow }

theorem Inv.weekJob?_mem (hinv : Inv db clock) (hweek : 0 < week)
    (hjob : db.weekJob? ownerId week = some job) : job ∈ weekJobs db ownerId week := by
  rw [Db.weekJob?, jobByKey?_eq_lookup] at hjob
  have hmem := Table.mem_of_lookup hjob
  have hcols := Table.key_of_lookup hjob
  obtain ⟨hown, hkey⟩ := Prod.mk.inj hcols
  rw [← hown] at hkey
  obtain ⟨hkind, hsubj⟩ := hinv.named job hmem week hweek hkey
  exact mem_weekJobs.mpr ⟨hmem, hkind, hown, hsubj⟩

theorem Inv.weekJobs_length (hinv : Inv db clock) : (weekJobs db ownerId week).length ≤ 1 := by
  have hkeys : ((weekJobs db ownerId week).map fun job =>
      (job.ownerId, job.idempotencyKey)).Nodup :=
    hinv.queue.keys.sublist (List.Sublist.map _ List.filter_sublist)
  have hsame : ∀ job ∈ weekJobs db ownerId week, (job.ownerId, job.idempotencyKey) =
      (ownerId, weeklyReportIdempotencyKey ownerId week) := by
    intro job hjob
    obtain ⟨hmem, hkind, hown, hsubj⟩ := mem_weekJobs.mp hjob
    rw [hinv.keyed job hmem hkind, hown, hsubj]
  match hjobs : weekJobs db ownerId week with
  | [] => simp
  | [_] => simp
  | first :: second :: rest =>
    rw [hjobs] at hkeys hsame
    have hfst := hsame first (by simp)
    have hsec := hsame second (by simp)
    simp [hfst, hsec] at hkeys

/-! ## One transaction -/

/-- One transaction on the database.  A job for a week is enqueued only where
`allowed` says so. -/
structure Worked (allowed : Nat → Date → Prop) (now : Instant) (db db' : Db) : Prop where
  settings : db'.settings = db.settings
  reports : ∀ report ∈ db.reports, report ∈ db'.reports
  queue : db'.queue = db.queue ∨ ∃ call : Call, call.now = now ∧
    exec db.queue now call.command = (call.outcome, db'.queue) ∧
    ∀ ownerId command key, call.command = .enqueue ownerId command key →
      (∃ week, ∃ hweek : 0 < week, allowed ownerId week ∧
        command = weeklyCommand week hweek now ∧ key = weeklyReportIdempotencyKey ownerId week) ∨
      command.kind ≠ weeklyReportJobKind ∧ ∀ week, key ≠ weeklyReportIdempotencyKey ownerId week

theorem Db.hasReport_of_subset (hreps : ∀ report ∈ db.reports, report ∈ db'.reports)
    (h : db.hasReport ownerId week = true) : db'.hasReport ownerId week = true := by
  simp only [Db.hasReport, List.any_eq_true] at h ⊢
  obtain ⟨report, hrep, hkey⟩ := h
  exact ⟨report, hreps report hrep, hkey⟩

/-- What transactions keep. -/
structure Kept (allowed : Nat → Date → Prop) (now : Instant) (db db' : Db) : Prop where
  inv : Inv db' now
  settings : db'.settings = db.settings
  owners : db'.queue.owners = db.queue.owners
  covered : ∀ ownerId week, Covered db ownerId week → Covered db' ownerId week
  origin : ∀ ownerId week, weekJobs db' ownerId week ≠ [] →
    weekJobs db ownerId week ≠ [] ∨ allowed ownerId week

variable {allowed : Nat → Date → Prop}

theorem Kept.refl (hinv : Inv db now) : Kept allowed now db db :=
  ⟨hinv, rfl, rfl, fun _ _ h => h, fun _ _ h => Or.inl h⟩

theorem Kept.trans (hfst : Kept allowed now db mid) (hsec : Kept allowed now mid db') :
    Kept allowed now db db' where
  inv := hsec.inv
  settings := hsec.settings.trans hfst.settings
  owners := hsec.owners.trans hfst.owners
  covered := fun ownerId week h => hsec.covered _ _ (hfst.covered ownerId week h)
  origin := by
    intro ownerId week hjobs
    rcases hsec.origin ownerId week hjobs with hmid | hok
    · exact hfst.origin ownerId week hmid
    · exact Or.inr hok

theorem weekJobs_congr (h : db'.queue = db.queue) :
    weekJobs db' ownerId week = weekJobs db ownerId week := by
  unfold weekJobs
  rw [h]

theorem mem_weekJobs_of_provenance {old : BackgroundJob} (hjob : job ∈ db'.queue.jobs)
    (hsame : provenance job = provenance old) (hold : old ∈ weekJobs db ownerId week) :
    job ∈ weekJobs db' ownerId week := by
  obtain ⟨-, hkind, hown, hsubj⟩ := mem_weekJobs.mp hold
  simp only [provenance, identity, Prod.mk.injEq] at hsame
  obtain ⟨⟨-, hown', -⟩, hkind', hpay, -⟩ := hsame
  exact mem_weekJobs.mpr ⟨hjob, hkind'.trans hkind, hown'.trans hown, by rw [hpay, hsubj]⟩

theorem Worked.kept (h : Worked allowed now db db') (hinv : Inv db now) :
    Kept allowed now db db' := by
  rcases h.queue with hqueue | ⟨call, hnow, hexec, henqueues⟩
  · have hinv' : Inv db' now := ⟨by rw [hqueue]; exact hinv.queue, by rw [hqueue]; exact hinv.owners_pos,
      by rw [hqueue]; exact hinv.keyed, by rw [hqueue]; exact hinv.named⟩
    refine ⟨hinv', h.settings, by rw [hqueue], ?_, ?_⟩
    · rintro ownerId week (hrep | ⟨job, hjob, hmem⟩)
      · exact Or.inl (Db.hasReport_of_subset h.reports hrep)
      · refine Or.inr ⟨job, ?_, ?_⟩
        · rw [Db.weekJob?, hqueue]
          exact hjob
        · rw [weekJobs_congr hqueue]
          exact hmem
    · intro ownerId week hjobs
      rw [weekJobs_congr hqueue] at hjobs
      exact Or.inl hjobs
  · have hstep : Jobs.Step ⟨db.queue, now⟩ call ⟨db'.queue, now⟩ :=
      ⟨hnow ▸ le_refl now, hnow.symm, Or.inl (by rw [hnow]; exact hexec)⟩
    obtain ⟨emitted, heff⟩ := step_effect hinv.queue.keyed hstep
    have horig : ∀ job ∈ db'.queue.jobs,
        (∃ old ∈ db.queue.jobs, provenance job = provenance old) ∨
        (∃ ownerId week, ∃ hweek : 0 < week, allowed ownerId week ∧
          job = newJob job.id ownerId (weeklyCommand week hweek now)
            (weeklyReportIdempotencyKey ownerId week) now) ∨
        job.kind ≠ weeklyReportJobKind ∧
          ∀ week, job.idempotencyKey ≠ weeklyReportIdempotencyKey job.ownerId week := by
      intro job hjob
      rcases hstep.origin hinv.queue hjob with hold | ⟨ownerId, command, key, hcmd, hnew⟩
      · exact Or.inl hold
      · rw [hnow] at hnew
        rcases henqueues ownerId command key hcmd with
          ⟨week, hweek, hok, rfl, rfl⟩ | ⟨hkind, hkey⟩
        · exact Or.inr (Or.inl ⟨ownerId, week, hweek, hok, hnew⟩)
        · refine Or.inr (Or.inr ?_)
          rw [hnew]
          exact ⟨hkind, hkey⟩
    have hinv' : Inv db' now := by
      refine ⟨hstep.queueInv hinv.queue, ?_, ?_, ?_⟩
      · rw [heff.owners]
        exact hinv.owners_pos
      · intro job hjob hkind
        rcases horig job hjob with ⟨old, hold, hsame⟩ | ⟨ownerId, week, hweek, -, hnew⟩ | ho
        · simp only [provenance, identity, Prod.mk.injEq] at hsame
          obtain ⟨⟨-, hown, hkey⟩, hkind', hpay, -⟩ := hsame
          rw [hkey, hown, hpay]
          exact hinv.keyed old hold (hkind' ▸ hkind)
        · rw [hnew]
          rfl
        · exact absurd hkind ho.1
      · intro job hjob week hweek hkey
        rcases horig job hjob with ⟨old, hold, hsame⟩ | ⟨ownerId, due, hdue, -, hnew⟩ | ho
        · simp only [provenance, identity, Prod.mk.injEq] at hsame
          obtain ⟨⟨-, hown, hkey'⟩, hkind', hpay, -⟩ := hsame
          rw [hkey', hown] at hkey
          rw [hkind', hpay]
          exact hinv.named old hold week hweek hkey
        · rw [hnew] at hkey ⊢
          have hsame : due = week := weeklyReportIdempotencyKey_inj hdue hweek hkey
          exact ⟨rfl, hsame⟩
        · exact absurd hkey (ho.2 week)
    refine ⟨hinv', h.settings, heff.owners, ?_, ?_⟩
    · rintro ownerId week (hrep | ⟨job, hjob, hmem⟩)
      · exact Or.inl (Db.hasReport_of_subset h.reports hrep)
      · obtain ⟨new, hnew, hsame⟩ := hstep.jobByKey? hinv.queue hjob
        have hmem' : new ∈ db'.queue.jobs := by
          have hlook := hnew
          rw [jobByKey?_eq_lookup] at hlook
          exact Table.mem_of_lookup hlook
        exact Or.inr ⟨new, hnew, mem_weekJobs_of_provenance hmem' hsame hmem⟩
    · intro ownerId week hjobs
      obtain ⟨job, hjob⟩ := List.exists_mem_of_ne_nil _ hjobs
      obtain ⟨hmem, hkind, hown, hsubj⟩ := mem_weekJobs.mp hjob
      rcases horig job hmem with ⟨old, hold, hsame⟩ | ⟨owner, due, hdue, hok, hnew⟩ | ho
      · simp only [provenance, identity, Prod.mk.injEq] at hsame
        obtain ⟨⟨-, hown', -⟩, hkind', hpay, -⟩ := hsame
        refine Or.inl (List.ne_nil_of_mem (a := old) (mem_weekJobs.mpr ⟨hold, ?_, ?_, ?_⟩))
        · exact hkind'.symm.trans hkind
        · exact hown'.symm.trans hown
        · rw [← hpay]
          exact hsubj
      · rw [hnew] at hown hsubj
        obtain rfl : owner = ownerId := hown
        obtain rfl : due = week := hsubj
        exact Or.inr hok
      · exact absurd hkind ho.1

/-! ## The calls -/

def NoConflict (error : JobError) : Prop :=
  ∀ message, error ≠ .conflict message

theorem raises_insertJob (s : Jobs.Store) (job : BackgroundJob) :
    Raises NoConflict (s.insertJob job) := by
  unfold Store.insertJob
  refine Raises.bind (raises_raiseFirst ?_) fun _ _ => Raises.bind (raises_mapError ?_) fun _ _ =>
    Raises.bind (raises_raiseFirst ?_) fun _ _ => raises_ok _
  · simp [NoConflict]
  · simp [Raises, NoConflict]
  · simp [NoConflict]

theorem raises_statusEvent (s : Jobs.Store) (job : BackgroundJob) (event : JobEvent) :
    Raises NoConflict (s.statusEvent job event now) := by
  unfold Store.statusEvent
  refine Raises.bind (raises_raiseFirst ?_) fun _ _ => raises_ok _
  simp [NoConflict]

theorem enqueue_conflict {s : Jobs.Store} {cmd : EnqueueJobCommand} {key message : String}
    (h : JobService.enqueue s now ownerId cmd key = .error (.conflict message)) :
    (s.jobByKey? ownerId key).isSome := by
  unfold JobService.enqueue at h
  split at h
  · cases h
  split at h
  · cases h
  unfold Jobs.enqueue at h
  dsimp only at h
  split at h
  · cases h
  split at h
  · rename_i existing hf
    rw [hf]
    rfl
  · have hraises : Raises NoConflict (s.insertJob (newJob s.nextJobId ownerId cmd key now)) :=
      raises_insertJob s _
    rename_i hfree
    exact absurd rfl ((hraises.bind fun after _ =>
      (raises_statusEvent after _ _).bind fun _ _ => raises_ok _) _ h message)

theorem enqueue_worked {added : Bool} (hinv : Inv db now) (hallowed : allowed ownerId week)
    (h : WeeklyReportQueue.enqueue db now ownerId week = .ok (added, db')) :
    Worked allowed now db db' ∧ Covered db' ownerId week := by
  unfold WeeklyReportQueue.enqueue at h
  split at h
  · rename_i hrep
    cases h
    exact ⟨⟨rfl, fun _ h => h, Or.inl rfl⟩, Or.inl hrep⟩
  split at h
  · rename_i hweek
    have hworked : ∀ {res : EnqueueResult} {queue : Jobs.Store},
        JobService.enqueue db.queue now ownerId (weeklyCommand week hweek now)
          (weeklyReportIdempotencyKey ownerId week) = .ok (res, queue) →
        Worked allowed now db { db with queue := queue } := by
      intro res queue hok
      refine ⟨rfl, fun _ h => h, Or.inr ⟨⟨now, .enqueue ownerId (weeklyCommand week hweek now)
        (weeklyReportIdempotencyKey ownerId week), .enqueued res⟩, rfl, ?_, ?_⟩⟩
      · simp only [exec, transact, JobService.enqueue_ok hok]
      · intro owner cmd key hcmd
        cases hcmd
        exact Or.inl ⟨week, hweek, hallowed, rfl, rfl⟩
    split at h
    · rename_i res queue hok
      cases h
      have hkept := (hworked hok).kept hinv
      refine ⟨hworked hok, ?_⟩
      obtain ⟨-, ⟨job, hjob, -, -, hstore⟩ | ⟨hfree, -, -, job, hjob, -, hstore⟩⟩ :=
        enqueue_ok (JobService.enqueue_ok hok)
      · rw [← hstore] at hjob
        exact Or.inr ⟨job, hjob, hkept.inv.weekJob?_mem hweek hjob⟩
      · have hsto : queue.jobByKey? ownerId (weeklyReportIdempotencyKey ownerId week) =
            some job := by
          rw [hstore]
          have hown : job.ownerId = ownerId := by rw [hjob]; rfl
          have hkey : job.idempotencyKey = weeklyReportIdempotencyKey ownerId week := by
            rw [hjob]
            rfl
          have hself := jobByKey?_append_self job (s := db.queue) (by rw [hown, hkey]; exact hfree)
          rw [hown, hkey] at hself
          exact hself
        exact Or.inr ⟨job, hsto, hkept.inv.weekJob?_mem hweek hsto⟩
    · rename_i hclash
      cases h
      obtain ⟨job, hjob⟩ := Option.isSome_iff_exists.mp (enqueue_conflict hclash)
      exact ⟨⟨rfl, fun _ h => h, Or.inl rfl⟩, Or.inr ⟨job, hjob, hinv.weekJob?_mem hweek hjob⟩⟩
    · cases h
  · cases h

/-- The learner's week is due at `now`. -/
def Due (zones : Zones) (now : Instant) (learners : List LearnerSetting) (ownerId : Nat)
    (week : Date) : Prop :=
  ∃ learner ∈ learners, learner.ownerId = ownerId ∧
    dueWeek zones now learner.timezone (some learner.studyStartDate) = .ok (some week)

/-- The loop of `schedule_due`: it queues due weeks only, and all of them when it
returns. -/
theorem scheduleEach_kept {learners all : List LearnerSetting} (hinv : Inv db now) (queued : Nat)
    (hsub : ∀ learner ∈ learners, learner ∈ all) :
    let result := scheduleEach zones now learners db queued
    Kept (Due zones now all) now db result.2 ∧ ∀ count, result.1 = .ok count →
      ∀ ownerId week, Due zones now learners ownerId week → Covered result.2 ownerId week := by
  induction learners generalizing db queued with
  | nil =>
    refine ⟨Kept.refl hinv, ?_⟩
    rintro count - ownerId week ⟨learner, hlrn, -⟩
    cases hlrn
  | cons learner rest ih =>
    have hrest : ∀ learner ∈ rest, learner ∈ all :=
      fun other ho => hsub other (List.mem_cons_of_mem _ ho)
    simp only [scheduleEach]
    split
    · refine ⟨Kept.refl hinv, ?_⟩
      intro count hcnt
      cases hcnt
    · rename_i hnone
      obtain ⟨hkept, hdue⟩ := ih hinv queued hrest
      refine ⟨hkept, ?_⟩
      rintro count hcnt ownerId week ⟨other, ho, hown, hweek⟩
      rcases List.mem_cons.mp ho with rfl | ho
      · rw [hnone] at hweek
        cases hweek
      · exact hdue count hcnt ownerId week ⟨other, ho, hown, hweek⟩
    · rename_i due hsome
      have hallowed : Due zones now all learner.ownerId due :=
        ⟨learner, hsub learner (by simp), rfl, hsome⟩
      split
      · refine ⟨Kept.refl hinv, ?_⟩
        intro count hcnt
        cases hcnt
      · rename_i added after hok
        obtain ⟨hworked, hcovered⟩ := enqueue_worked hinv hallowed hok
        have hfst := hworked.kept hinv
        obtain ⟨hkept, hdue⟩ := ih hfst.inv (if added then queued + 1 else queued) hrest
        refine ⟨hfst.trans hkept, ?_⟩
        rintro count hcnt ownerId week ⟨other, ho, hown, hweek⟩
        rcases List.mem_cons.mp ho with rfl | ho
        · rw [hsome] at hweek
          cases hweek
          rw [← hown]
          exact hkept.covered _ _ hcovered
        · exact hdue count hcnt ownerId week ⟨other, ho, hown, hweek⟩

theorem scheduleDue_kept (hinv : Inv db now) :
    Kept (Due zones now db.settings) now db (scheduleDue zones db now).2 ∧
      ∀ count, (scheduleDue zones db now).1 = .ok count → ∀ ownerId week,
        Due zones now (db.settings.take scheduleLimit) ownerId week →
        Covered (scheduleDue zones db now).2 ownerId week :=
  scheduleEach_kept hinv 0 fun _ hlrn => List.mem_of_mem_take hlrn

def Requested (zones : Zones) (db : Db) (now : Instant) (requester : Nat)
    (weekStart : Option Date) (ownerId : Nat) (week : Date) : Prop :=
  ownerId = requester ∧ requestedWeek zones db now requester weekStart = .ok week ∧
    week = weekStartOf week ∧ week + 6 ≤ utcDate now

theorem request_kept (hinv : Inv db now) (requester : Nat) (weekStart : Option Date) :
    let result := request zones db now requester weekStart
    Kept (Requested zones db now requester weekStart) now db result.2 ∧
      (result.1 = .ok () → ∀ week, requestedWeek zones db now requester weekStart = .ok week →
        Covered result.2 requester week) := by
  simp only [request]
  split
  · exact ⟨Kept.refl hinv, by simp⟩
  rename_i week hweek
  split
  · exact ⟨Kept.refl hinv, by simp⟩
  rename_i hchk
  split
  · exact ⟨Kept.refl hinv, by simp⟩
  rename_i added after hok
  have hallowed : Requested zones db now requester weekStart requester week := by
    unfold requestChecks at hchk
    split at hchk
    · cases hchk
    rename_i hmonday
    split at hchk
    · cases hchk
    split at hchk
    · cases hchk
    rename_i hend
    exact ⟨rfl, hweek, not_not.mp hmonday, not_lt.mp hend⟩
  obtain ⟨hworked, hcovered⟩ := enqueue_worked hinv hallowed hok
  refine ⟨hworked.kept hinv, ?_⟩
  rintro - other ho
  cases hweek.symm.trans ho
  exact hcovered

def Allowed (zones : Zones) (db : Db) (now : Instant) : Action → Nat → Date → Prop
  | .scheduleDue _ => Due zones now db.settings
  | .request requester weekStart _ => Requested zones db now requester weekStart
  | .store _ | .queue _ _ => fun _ _ => False

theorem Acts.kept {action : Action} (h : Acts zones db now action db') (hinv : Inv db now) :
    Kept (Allowed zones db now action) now db db' := by
  cases h with
  | scheduleDue => exact (scheduleDue_kept hinv).1
  | request requester weekStart => exact (request_kept hinv requester weekStart).1
  | @store report hjob =>
    refine Worked.kept ⟨?_, ?_, ?_⟩ hinv
    · split <;> rfl
    · intro other ho
      split
      · exact ho
      · exact List.mem_append_left _ ho
    · left
      split <;> rfl
  | @queue command outcome queue henqueues hexec =>
    refine Worked.kept ⟨rfl, fun _ h => h, Or.inr ⟨⟨now, command, outcome⟩, rfl, hexec, ?_⟩⟩ hinv
    intro owner enqueued key hcmd
    exact Or.inr (henqueues owner enqueued key hcmd)

theorem dueWeek_reached {timezone : String} {studyStart : Option Date}
    (h : dueWeek zones now timezone studyStart = .ok (some week)) :
    ∃ zone, zones timezone = some zone ∧ (zone now).reaches (sundayEvening week) := by
  unfold dueWeek at h
  dsimp only at h
  split at h
  · cases h
  rename_i zone hzone
  refine ⟨zone, hzone, ?_⟩
  have hweek : ∀ found : Date, (Except.ok (if studyStart.any fun started => found + 6 < started
      then none else some found) : Except ReportsError (Option Date)) = .ok (some week) →
      found = week := by
    intro found hf
    split at hf
    · cases hf
    · cases hf
      rfl
  split at h
  · cases h
  split at h
  · rename_i hreached
    rw [← hweek _ h]
    exact hreached
  split at h
  · cases h
  · rename_i hlate
    rw [← hweek _ h]
    have hstart : weekStartOf (zone now).date ≤ (zone now).date := Nat.sub_le _ _
    have hearl : ∀ week day : Nat, week ≤ day → ¬week ≤ 7 → week - 7 + 6 < day := by omega
    exact Or.inl (hearl _ _ hstart hlate)

theorem Initial.inv (h : Initial w) : Inv w.db w.clock := by
  obtain ⟨owners, start, trace, hrun⟩ := h.queue
  have hqueue := hrun.queueInv
  refine ⟨hqueue, h.owners_pos, fun job hjob hkind => absurd hkind (h.unqueued_kind job hjob), ?_⟩
  intro job hjob week _ hkey
  have hf : w.db.weekJob? job.ownerId week = some job := by
    rw [Db.weekJob?, ← hkey]
    rw [jobByKey?_eq_lookup]
    exact Table.lookup_of_mem hqueue.keys hjob
  rw [h.unqueued] at hf
  cases hf

theorem timezone_of_mem {learner : LearnerSetting}
    (hnd : (db.settings.map LearnerSetting.ownerId).Nodup) (hlrn : learner ∈ db.settings) :
    timezone db learner.ownerId = learner.timezone := by
  have hf := Table.lookup_of_mem hnd hlrn
  have hfind : (db.settings.find? fun setting => setting.ownerId = learner.ownerId) =
      some learner := by
    rw [← hf, Table.lookup]
  rw [timezone, hfind]
  rfl

/-! ## Runs -/

/-- What a run of beats and requests owes to every learner. -/
structure QueuedOnTime (zones : Zones) (trace : List (Transition World Event)) : Prop where
  not_early : ∀ e ∈ trace, ∀ ownerId week, weekJobs e.before.db ownerId week = [] →
    weekJobs e.after.db ownerId week ≠ [] → Reached zones e.before.db ownerId week e.label.now
  once : ∀ e ∈ trace, ∀ ownerId week, (weekJobs e.after.db ownerId week).length ≤ 1
  never_missed : ∀ e ∈ trace, ∀ queued, e.label.action = .scheduleDue (.ok queued) →
    ∀ learner ∈ e.before.db.settings, ∀ due,
      dueWeek zones e.label.now learner.timezone (some learner.studyStartDate) = .ok (some due) →
      ∀ week, weekday week = 0 → weekStartOf learner.studyStartDate ≤ week → week ≤ due →
        Covered e.after.db learner.ownerId week

def Serves (zones : Zones) (ownerId : Nat) (week : Date) (e : Transition World Event) : Prop :=
  (∃ queued, e.label.action = .scheduleDue (.ok queued) ∧
      Due zones e.label.now e.before.db.settings ownerId week) ∨
    ∃ weekStart, e.label.action = .request ownerId weekStart (.ok ()) ∧
      requestedWeek zones e.before.db e.label.now ownerId weekStart = .ok week

/-- The calls of a run come in time.  A request for a week that has ended in UTC has ended
for the learner as well, and no beat finds a week due while an earlier one was
neither due at an earlier beat nor requested. -/
structure Timely (zones : Zones) (trace : List (Transition World Event)) : Prop where
  requests : ∀ e ∈ trace, ∀ requester weekStart outcome,
    e.label.action = .request requester weekStart outcome → ∀ ownerId week,
    Requested zones e.before.db e.label.now requester weekStart ownerId week →
      Reached zones e.before.db ownerId week e.label.now
  beats : ∀ before e after, trace = before ++ e :: after →
    ∀ queued, e.label.action = .scheduleDue (.ok queued) →
    ∀ learner ∈ e.before.db.settings, ∀ due,
      dueWeek zones e.label.now learner.timezone (some learner.studyStartDate) = .ok (some due) →
      ∀ week, weekday week = 0 → weekStartOf learner.studyStartDate ≤ week → week < due →
        ∃ earlier ∈ before, Serves zones learner.ownerId week earlier

structure RunInv (zones : Zones) (start : World) (trace : List (Transition World Event))
    (w : World) : Prop where
  inv : Inv w.db w.clock
  settings : w.db.settings = start.db.settings
  served : ∀ e ∈ trace, ∀ ownerId week, Serves zones ownerId week e → Covered w.db ownerId week

theorem Step.kept (h : Step zones w e w') (hinv : Inv w.db w.clock) :
    Kept (Allowed zones w.db e.now e.action) e.now w.db w'.db :=
  h.2.2.kept (hinv.advance h.1)

theorem Step.serves (h : Step zones w e w') (hinv : Inv w.db w.clock)
    (hfew : w.db.settings.length ≤ scheduleLimit) (hserves : Serves zones ownerId week ⟨w, e, w'⟩) :
    Covered w'.db ownerId week := by
  obtain ⟨hclk, -, hacts⟩ := h
  have hnow := hinv.advance hclk
  generalize hact : e.action = action at hacts
  generalize ha : w'.db = after at hacts
  rcases hserves with ⟨queued, hlab, hdue⟩ | ⟨weekStart, hlab, hweek⟩
  · simp only [hact] at hlab
    cases hacts with
    | scheduleDue =>
      refine (scheduleDue_kept hnow).2 queued (Action.scheduleDue.inj hlab) ownerId week ?_
      rw [List.take_of_length_le hfew]
      exact hdue
    | _ => cases hlab
  · simp only [hact] at hlab
    cases hacts with
    | request requester requested =>
      obtain ⟨rfl, rfl, hok⟩ := Action.request.inj hlab
      exact (request_kept hnow requester requested).2 hok week hweek
    | _ => cases hlab

theorem runInv_of_run {trace : List (Transition World Event)} (hinit : Initial start)
    (hrun : Run (Step zones) start trace w) : RunInv zones start trace w := by
  refine hrun.invariant (I := RunInv zones start) ⟨hinit.inv, rfl, by simp⟩ ?_
  rintro trace s e t hinv hstep
  have hkept := hstep.kept hinv.inv
  refine ⟨hstep.2.1 ▸ hkept.inv, hkept.settings.trans hinv.settings, ?_⟩
  intro earl hearl ownerId week hserves
  rcases List.mem_append.mp hearl with hb | hlast
  · exact hkept.covered _ _ (hinv.served earl hb ownerId week hserves)
  · obtain rfl := List.mem_singleton.mp hlast
    exact hstep.serves hinv.inv (hinv.settings ▸ hinit.learners_few) hserves

/-- In a run whose calls come in time, every week gets its job in time. -/
theorem queuedOnTime_of_timely {trace : List (Transition World Event)} (hinit : Initial start)
    (hrun : Run (Step zones) start trace w) (htimely : Timely zones trace) :
    QueuedOnTime zones trace := by
  refine ⟨?_, ?_, ?_⟩
  · intro e he ownerId week hnone hsome
    obtain ⟨before, after, htrace, hbefore, hstep, -⟩ := hrun.split he
    have hinv := runInv_of_run hinit hbefore
    have hallowed := ((hstep.kept hinv.inv).origin ownerId week hsome).resolve_left
      (not_not.mpr hnone)
    generalize haction : e.label.action = action at hallowed
    cases action with
    | scheduleDue outcome =>
      obtain ⟨learner, hlearner, rfl, hdue⟩ := hallowed
      obtain ⟨zone, hzone, hreached⟩ := dueWeek_reached hdue
      refine ⟨zone, ?_, hreached⟩
      rw [timezone_of_mem (hinv.settings ▸ hinit.learners_nodup) hlearner]
      exact hzone
    | request requester weekStart outcome =>
      exact htimely.requests e he requester weekStart outcome haction ownerId week hallowed
    | _ => cases hallowed
  · intro e he ownerId week
    obtain ⟨before, after, htrace, hbefore, hstep, -⟩ := hrun.split he
    exact ((hstep.kept (runInv_of_run hinit hbefore).inv).inv).weekJobs_length
  · intro e he queued haction learner hlearner due hdue week hmonday hfrom hto
    obtain ⟨before, after, htrace, hbefore, hstep, -⟩ := hrun.split he
    have hinv := runInv_of_run hinit hbefore
    rcases Nat.lt_or_eq_of_le hto with hlt | rfl
    · obtain ⟨earlier, hearlier, hserves⟩ := htimely.beats before e after htrace queued haction
        learner hlearner due hdue week hmonday hfrom hlt
      exact (hstep.kept hinv.inv).covered _ _ (hinv.served earlier hearlier _ _ hserves)
    · exact hstep.serves hinv.inv (hinv.settings ▸ hinit.learners_few)
        (Or.inl ⟨queued, haction, learner, hlearner, rfl, hdue⟩)

/-! ## Sample runs -/

inductive Call
  | scheduleDue
  | request (ownerId : Nat) (weekStart : Option Date)

def perform (zones : Zones) (db : Db) (now : Instant) : Call → Action × Db
  | .scheduleDue => (.scheduleDue (scheduleDue zones db now).1, (scheduleDue zones db now).2)
  | .request ownerId weekStart =>
    (.request ownerId weekStart (request zones db now ownerId weekStart).1,
      (request zones db now ownerId weekStart).2)

def performAll (zones : Zones) (w : World) :
    List (Instant × Call) → List (Transition World Event) × World
  | [] => ([], w)
  | (now, call) :: rest =>
    let w' : World := ⟨(perform zones w.db now call).2, now⟩
    (⟨w, ⟨now, (perform zones w.db now call).1⟩, w'⟩ :: (performAll zones w' rest).1,
      (performAll zones w' rest).2)

theorem run_performAll (w : World) (calls : List (Instant × Call))
    (hclk : (w.clock :: calls.map Prod.fst).Pairwise (· ≤ ·)) :
    Run (Step zones) w (performAll zones w calls).1 (performAll zones w calls).2 := by
  induction calls generalizing w with
  | nil => exact Run.refl
  | cons call rest ih =>
    obtain ⟨now, call⟩ := call
    rw [List.map_cons, List.pairwise_cons] at hclk
    have hfst : Step zones w ⟨now, (perform zones w.db now call).1⟩
        ⟨(perform zones w.db now call).2, now⟩ := by
      refine ⟨hclk.1 now (by simp), rfl, ?_⟩
      cases call with
      | scheduleDue => exact .scheduleDue
      | request ownerId weekStart => exact .request ownerId weekStart
    exact (Run.single hfst).append (ih _ hclk.2)

def sampleZones : Zones := fun name =>
  if name = "Etc/GMT+4" then some (offsetClock (-14400000000)) else none

/-- A learner who starts on Monday, 24 August 2026. -/
def sampleWorld : World where
  db := {
    settings := [⟨1, "Etc/GMT+4", 739852, none⟩]
    reports := []
    queue := Jobs.Store.empty [1] }
  clock := 0

theorem initial_sampleWorld : Initial sampleWorld where
  queue := ⟨[1], 0, [], Run.refl⟩
  owners_pos := by simp [sampleWorld, Jobs.Store.empty, bigintMax]
  learners := by simp [sampleWorld, Jobs.Store.empty]
  learners_nodup := by simp [sampleWorld]
  learners_few := by decide
  unreported := rfl
  unqueued := fun _ _ => rfl
  unqueued_kind := by simp [sampleWorld, Jobs.Store.empty]

def firstBeat : List (Transition World Event) × World :=
  performAll sampleZones sampleWorld [(1788130800000000, .scheduleDue)]

theorem queuedOnTime_of_timely_firstBeat :
    QueuedOnTime sampleZones firstBeat.1 ∧ Covered firstBeat.2.db 1 739852 := by
  have hrun : Run (Step sampleZones) sampleWorld firstBeat.1 firstBeat.2 :=
    run_performAll sampleWorld _ (by decide)
  have hdue : dueWeek sampleZones 1788130800000000 "Etc/GMT+4" (some 739852) =
      .ok (some 739852) := by
    decide +kernel
  have htimely : Timely sampleZones firstBeat.1 := by
    refine ⟨?_, ?_⟩
    · intro e he requester weekStart outcome haction
      obtain rfl := List.mem_singleton.mp he
      cases haction
    · intro before e after htrace queued haction learner hlearner due hdue' week hmonday hfrom hto
      have hlength := congrArg List.length htrace
      have hbefore : before = [] := by
        cases before with
        | nil => rfl
        | cons _ _ =>
          simp [firstBeat, performAll] at hlength
      subst hbefore
      obtain rfl := (List.cons.inj htrace).1
      obtain rfl := List.mem_singleton.mp hlearner
      cases hdue.symm.trans hdue'
      have hstart : weekStartOf 739852 = 739852 := by decide
      simp only [hstart] at hfrom
      exact absurd hto (not_lt.mpr hfrom)
  have hsound := queuedOnTime_of_timely initial_sampleWorld hrun htimely
  refine ⟨hsound, ?_⟩
  have hreturned : (scheduleDue sampleZones sampleWorld.db 1788130800000000).1 = .ok 1 := by
    decide +kernel
  exact hsound.never_missed firstBeat.1[0] (List.getElem_mem _) 1
    (congrArg Action.scheduleDue hreturned) ⟨1, "Etc/GMT+4", 739852, none⟩ (List.mem_singleton_self _)
    739852 hdue 739852 (by decide) (by decide) (le_refl _)

def earlyRequest : List (Transition World Event) × World :=
  performAll sampleZones sampleWorld [(1788091200000000, .request 1 (some 739852))]

def lateBeat : List (Transition World Event) × World :=
  performAll sampleZones sampleWorld
    [(1788130800000000, .scheduleDue), (1789945200000000, .scheduleDue)]

/-- A request queues a week whose Sunday has not reached 18:00, and a beat after a pause
leaves the weeks before the last one without a job. -/
theorem reports_early_and_missed :
    Initial sampleWorld ∧
      (Run (Step sampleZones) sampleWorld earlyRequest.1 earlyRequest.2 ∧
        ¬QueuedOnTime sampleZones earlyRequest.1) ∧
      Run (Step sampleZones) sampleWorld lateBeat.1 lateBeat.2 ∧
        ¬QueuedOnTime sampleZones lateBeat.1 := by
  refine ⟨initial_sampleWorld, ⟨run_performAll sampleWorld _ (by decide), ?_⟩,
    run_performAll sampleWorld _ (by decide), ?_⟩
  · intro hsound
    have hnone : weekJobs sampleWorld.db 1 739852 = [] := rfl
    have hsome : weekJobs (request sampleZones sampleWorld.db 1788091200000000 1
        (some 739852)).2 1 739852 ≠ [] := by
      decide +kernel
    obtain ⟨zone, hzone, hreached⟩ :=
      hsound.not_early earlyRequest.1[0] (List.getElem_mem _) 1 739852 hnone hsome
    obtain rfl : offsetClock (-14400000000) = zone := Option.some.inj hzone
    have hearly : ¬(offsetClock (-14400000000) 1788091200000000).reaches
        (sundayEvening 739852) := by
      decide +kernel
    exact hearly hreached
  · intro hsound
    have hdue : dueWeek sampleZones 1789945200000000 "Etc/GMT+4" (some 739852) =
        .ok (some 739873) := by
      decide +kernel
    have hreturned : (scheduleDue sampleZones
        (scheduleDue sampleZones sampleWorld.db 1788130800000000).2 1789945200000000).1 =
        .ok 1 := by
      decide +kernel
    have hcovered := hsound.never_missed lateBeat.1[1] (List.getElem_mem _) 1
      (congrArg Action.scheduleDue hreturned) ⟨1, "Etc/GMT+4", 739852, none⟩
      (List.mem_singleton_self _) 739873 hdue 739859 (by decide) (by decide) (by decide)
    have hmissed : ((scheduleDue sampleZones (scheduleDue sampleZones sampleWorld.db
        1788130800000000).2 1789945200000000).2.hasReport 1 739859 = false) ∧
        (scheduleDue sampleZones (scheduleDue sampleZones sampleWorld.db
          1788130800000000).2 1789945200000000).2.weekJob? 1 739859 = none := by
      decide +kernel
    rcases hcovered with hreport | ⟨job, hjob, -⟩
    · exact absurd (hmissed.1.symm.trans hreport) (by decide)
    · exact absurd (hmissed.2.symm.trans hjob) (by simp)

end TamForge.Reports
