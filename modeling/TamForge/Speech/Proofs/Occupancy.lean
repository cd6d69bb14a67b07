import Mathlib.Data.List.Nodup
import TamForge.Speech.LocalScheduler

/-!
# One transcription at a time

Runs of the coordinator in which no job is admitted while the task of a
discarded recording still executes: at most one task executes, the queue has
no recording twice, and nothing that was begun is forgotten.
-/

namespace TamForge.Speech.Local

open ProofSupport

variable {ι : Type} [DecidableEq ι]

abbrev History (ι : Type) := List (Transition (Coordinator ι) (Event ι))

/-- Whether the recording is still to be transcribed after one more event: it is
owed from its beginning until it is discarded, or until the task that has the
slot for it ends without having been aborted. -/
def owedAfter (recordingId : ι) (owed : Bool) (e : Transition (Coordinator ι) (Event ι)) : Bool :=
  match e.label with
  | .beginTranscription other _ => owed || decide (other = recordingId)
  | .discardPending other => owed && decide (other ≠ recordingId)
  | .taskEnded task _ =>
    owed && !(decide (task.recordingId = recordingId) &&
      decide (e.before.speechScheduler.running = some recordingId) &&
      !e.before.abortedForPressure.contains recordingId)
  | _ => owed

def owed (trace : History ι) (recordingId : ι) : Bool :=
  trace.foldl (owedAfter recordingId) false

structure Sound (trace : History ι) (coordinator : Coordinator ι) : Prop where
  single : coordinator.executing.length ≤ 1
  once : coordinator.speechScheduler.queue.Nodup
  apart : ∀ recordingId, coordinator.speechScheduler.running = some recordingId →
    recordingId ∉ coordinator.speechScheduler.queue
  kept : ∀ recordingId, owed trace recordingId = true →
    recordingId ∈ coordinator.speechScheduler.queue ∨
      ∃ task ∈ coordinator.executing, task.recordingId = recordingId

def SoundThroughout (trace : History ι) : Prop :=
  ∀ before e after, trace = before ++ e :: after → Sound (before ++ [e]) e.after

def Crowds (coordinator : Coordinator ι) (event : Event ι) : Prop :=
  (event.prepare coordinator).executing ≠ [] ∧
    ∃ current ∈ event.drains coordinator, ∃ recordingId,
      ((event.prepare coordinator).speechScheduler.admitUnder current).2 = .run recordingId

/-! ## The scheduler -/

section Scheduler

variable {scheduler : LocalSpeechScheduler ι} {recordingId other : ι}
  {current : ResourceState} {admission : SpeechAdmission ι}

/-- No recording is queued twice, nor queued while it has the slot. -/
structure Distinct (scheduler : LocalSpeechScheduler ι) : Prop where
  once : scheduler.queue.Nodup
  apart : ∀ recordingId, scheduler.running = some recordingId → recordingId ∉ scheduler.queue

def Holds (scheduler : LocalSpeechScheduler ι) (recordingId : ι) : Prop :=
  recordingId ∈ scheduler.queue ∨ scheduler.running = some recordingId

omit [DecidableEq ι] in
/-- An admission moves the first of the queue into the free slot, or changes
nothing. -/
theorem admitUnder_cases (scheduler : LocalSpeechScheduler ι) (current : ResourceState) :
    (∃ next rest, scheduler.running = none ∧ scheduler.queue = next :: rest ∧
      scheduler.admitUnder current = (⟨rest, some next⟩, .run next)) ∨
    ((scheduler.admitUnder current).1 = scheduler ∧
      ∀ recordingId, (scheduler.admitUnder current).2 ≠ .run recordingId) := by
  obtain ⟨queue, running⟩ := scheduler
  simp only [LocalSpeechScheduler.admitUnder]
  split
  · exact .inr ⟨rfl, by simp⟩
  · exact .inr ⟨rfl, by simp⟩
  · exact .inr ⟨rfl, by simp⟩
  · exact .inl ⟨_, _, rfl, rfl, rfl⟩

theorem Distinct.enqueue (h : Distinct scheduler) (recordingId : ι) :
    Distinct (scheduler.enqueue recordingId) := by
  rw [LocalSpeechScheduler.enqueue]
  split
  · exact h
  · next hfree =>
    rw [not_or] at hfree
    refine ⟨?_, ?_⟩
    · rw [List.nodup_append]
      refine ⟨h.once, List.nodup_singleton _, ?_⟩
      intro queued hqueued other ho
      rw [List.mem_singleton.mp ho]
      rintro rfl
      exact hfree.2 hqueued
    · intro other hrun hmem
      rcases List.mem_append.mp hmem with hqueued | hnew
      · exact h.apart other hrun hqueued
      · rw [List.mem_singleton.mp hnew] at hrun
        exact hfree.1 hrun

theorem Distinct.finish (h : Distinct scheduler) (recordingId : ι) (requeue : Bool) :
    Distinct (scheduler.finish recordingId requeue) := by
  rw [LocalSpeechScheduler.finish]
  split
  · next hrun =>
    refine ⟨?_, by simp⟩
    cases requeue with
    | true => exact List.nodup_cons.mpr ⟨h.apart recordingId hrun, h.once⟩
    | false => exact h.once
  · exact h

theorem Distinct.cancel (h : Distinct scheduler) (recordingId : ι) :
    Distinct (scheduler.cancel recordingId) := by
  refine ⟨h.once.filter _, ?_⟩
  intro other hrun hmem
  simp only [LocalSpeechScheduler.cancel] at hrun hmem
  split at hrun
  · cases hrun
  · exact h.apart other hrun (List.mem_filter.mp hmem).1

omit [DecidableEq ι] in
theorem Distinct.admitUnder (h : Distinct scheduler) (current : ResourceState) :
    Distinct (scheduler.admitUnder current).1 := by
  rcases admitUnder_cases scheduler current with ⟨next, rest, -, hqueue, hadm⟩ | ⟨hsame, -⟩
  · rw [hadm]
    have honce := h.once
    rw [hqueue, List.nodup_cons] at honce
    refine ⟨honce.2, ?_⟩
    intro other hrun
    rw [← Option.some.inj hrun]
    exact honce.1
  · rw [hsame]
    exact h

theorem holds_enqueue (h : Holds scheduler other ∨ recordingId = other) :
    Holds (scheduler.enqueue recordingId) other := by
  rw [LocalSpeechScheduler.enqueue]
  split
  · next hheld =>
    rcases h with h | rfl
    · exact h
    · exact hheld.symm
  · rcases h with (hqueued | hrun) | rfl
    · exact .inl (List.mem_append_left _ hqueued)
    · exact .inr hrun
    · exact .inl (by simp)

theorem holds_cancel (h : Holds scheduler other) (hne : recordingId ≠ other) :
    Holds (scheduler.cancel recordingId) other := by
  rcases h with hqueued | hrun
  · exact .inl (List.mem_filter.mpr ⟨hqueued, by simpa using hne.symm⟩)
  · refine .inr ?_
    rw [LocalSpeechScheduler.cancel, hrun, if_neg (by simpa using hne.symm)]

theorem holds_finish {requeue : Bool} (h : Holds scheduler other)
    (hkept : scheduler.running = some recordingId → recordingId = other → requeue = true) :
    Holds (scheduler.finish recordingId requeue) other := by
  rw [LocalSpeechScheduler.finish]
  split
  · next hslot =>
    rcases h with hqueued | hrun
    · refine .inl ?_
      cases requeue with
      | true => exact List.mem_cons_of_mem _ hqueued
      | false => exact hqueued
    · have hsame : recordingId = other := Option.some.inj (hslot.symm.trans hrun)
      refine .inl ?_
      rw [hkept hslot hsame, hsame]
      exact List.mem_cons_self ..
  · exact h

omit [DecidableEq ι] in
theorem holds_admitUnder (h : Holds scheduler other) (current : ResourceState) :
    Holds (scheduler.admitUnder current).1 other := by
  rcases admitUnder_cases scheduler current with ⟨next, rest, hfree, hqueue, hadm⟩ | ⟨hsame, -⟩
  · rw [hadm]
    rcases h with hqueued | hrun
    · rw [hqueue] at hqueued
      rcases List.mem_cons.mp hqueued with rfl | hrest
      · exact .inr rfl
      · exact .inl hrest
    · rw [hfree] at hrun
      cases hrun
  · rw [hsame]
    exact h

end Scheduler

/-! ## The coordinator -/

section Coordinator

variable {coordinator : Coordinator ι} {recordingId : ι} {current : ResourceState}

/-- The slot is free with nothing executing; or one task executes, which has the
slot or whose recording was discarded. -/
def Occupied (coordinator : Coordinator ι) : Prop :=
  (coordinator.executing = [] ∧ coordinator.speechScheduler.running = none) ∨
    ∃ task, coordinator.executing = [task] ∧
      (coordinator.speechScheduler.running = some task.recordingId ∨
        coordinator.speechScheduler.running = none)

theorem cancelTask_executing (coordinator : Coordinator ι) (recordingId : ι) :
    (coordinator.cancelTask recordingId).executing.map TranscriptionTask.recordingId =
      coordinator.executing.map TranscriptionTask.recordingId := by
  rw [Coordinator.cancelTask]
  split
  · rfl
  · rw [List.map_map]
    refine List.map_congr_left fun task _ => ?_
    rw [Function.comp_apply]
    split <;> rfl

theorem cancelTask_scheduler (coordinator : Coordinator ι) (recordingId : ι) :
    (coordinator.cancelTask recordingId).speechScheduler = coordinator.speechScheduler := by
  rw [Coordinator.cancelTask]
  split <;> rfl

omit [DecidableEq ι] in
theorem occupied_of {after : Coordinator ι} (h : Occupied coordinator)
    (htasks : after.executing.map TranscriptionTask.recordingId =
      coordinator.executing.map TranscriptionTask.recordingId)
    (hslot : after.speechScheduler.running = coordinator.speechScheduler.running ∨
      (after.speechScheduler.running = none ∧ coordinator.executing ≠ [])) : Occupied after := by
  rcases h with ⟨hnone, hfree⟩ | ⟨task, hone, hrun⟩
  · rw [hnone, List.map_nil, List.map_eq_nil_iff] at htasks
    rcases hslot with hslot | ⟨-, hsome⟩
    · exact .inl ⟨htasks, hslot.trans hfree⟩
    · exact absurd hnone hsome
  · rw [hone, List.map_singleton, List.map_eq_singleton_iff] at htasks
    obtain ⟨same, hsame, hid⟩ := htasks
    refine .inr ⟨same, hsame, ?_⟩
    rw [hid]
    rcases hslot with hslot | ⟨hslot, -⟩
    · rw [hslot]
      exact hrun
    · exact .inr hslot

/-- A drain that finds a task executing admits nothing, or else nothing executes
and it starts one. -/
theorem occupied_drain (h : Occupied coordinator)
    (hroom : coordinator.executing ≠ [] → ∀ recordingId,
      (coordinator.speechScheduler.admitUnder current).2 ≠ .run recordingId) :
    Occupied (coordinator.drainSpeechQueue current) := by
  rcases admitUnder_cases coordinator.speechScheduler current with
    ⟨next, rest, -, -, hadm⟩ | ⟨hsame, hnot⟩
  · have hnone : coordinator.executing = [] := by
      by_contra hsome
      exact hroom hsome next (by rw [hadm])
    rw [Coordinator.drainSpeechQueue, hadm]
    refine .inr ⟨⟨coordinator.nextTask, next, false⟩, ?_, .inl rfl⟩
    change coordinator.executing ++ _ = _
    rw [hnone, List.nil_append]
  · have hdrain : coordinator.drainSpeechQueue current = coordinator := by
      rw [Coordinator.drainSpeechQueue]
      split
      · next heq => exact absurd (congrArg Prod.snd heq) (hnot _)
      · next scheduler _ _ heq =>
        have hscheduler : scheduler = coordinator.speechScheduler := by
          rw [← hsame, heq]
        rw [hscheduler]
    rw [hdrain]
    exact h

theorem drain_scheduler (coordinator : Coordinator ι) (current : ResourceState) :
    (coordinator.drainSpeechQueue current).speechScheduler =
      (coordinator.speechScheduler.admitUnder current).1 := by
  rw [Coordinator.drainSpeechQueue]
  split
  · next heq => exact (congrArg Prod.fst heq).symm
  · next heq => exact (congrArg Prod.fst heq).symm

end Coordinator

/-! ## Runs -/

section Runs

variable {coordinator coordinator' : Coordinator ι} {event : Event ι} {trace : History ι}

theorem owed_snoc (trace : History ι) (e : Transition (Coordinator ι) (Event ι)) (recordingId : ι) :
    owed (trace ++ [e]) recordingId = owedAfter recordingId (owed trace recordingId) e := by
  rw [owed, List.foldl_append]
  rfl

structure Invariant (trace : History ι) (coordinator : Coordinator ι) : Prop where
  occupied : Occupied coordinator
  distinct : Distinct coordinator.speechScheduler
  holds : ∀ recordingId, owed trace recordingId = true →
    Holds coordinator.speechScheduler recordingId

theorem invariant_prepare (h : Invariant trace coordinator)
    (hends : ∀ task current, event = .taskEnded task current → task ∈ coordinator.executing)
    (after : Coordinator ι) :
    Invariant (trace ++ [⟨coordinator, event, after⟩]) (event.prepare coordinator) := by
  cases event with
  | beginTranscription recordingId current =>
    refine ⟨?_, h.distinct.enqueue recordingId, ?_⟩
    · refine occupied_of h.occupied rfl (.inl ?_)
      simp only [Event.prepare, LocalSpeechScheduler.enqueue]
      split <;> rfl
    · intro other ho
      rw [owed_snoc, owedAfter, Bool.or_eq_true, decide_eq_true_eq] at ho
      exact holds_enqueue (ho.imp (h.holds other) id)
  | drainSpeechQueue current =>
    refine ⟨h.occupied, h.distinct, ?_⟩
    intro other ho
    rw [owed_snoc] at ho
    exact h.holds other ho
  | handleResource state current =>
    have hholds : ∀ other, owed (trace ++ [⟨coordinator, .handleResource state current, after⟩])
        other = true → Holds coordinator.speechScheduler other := by
      intro other ho
      rw [owed_snoc] at ho
      exact h.holds other ho
    rw [Event.prepare]
    split
    · next recordingId _ =>
      have hscheduler := cancelTask_scheduler coordinator recordingId
      refine ⟨occupied_of h.occupied (cancelTask_executing coordinator recordingId)
        (.inl (by simp only [Coordinator.abortRunning, hscheduler])), ?_, ?_⟩
      · simp only [Coordinator.abortRunning, hscheduler]
        exact h.distinct
      · simp only [Coordinator.abortRunning, hscheduler]
        exact hholds
    · exact ⟨h.occupied, h.distinct, hholds⟩
  | taskEnded task current =>
    have htask := hends task current rfl
    have hone : coordinator.executing = [task] := by
      rcases h.occupied with ⟨hnone, -⟩ | ⟨only, hone, -⟩
      · rw [hnone] at htask
        cases htask
      · rw [hone, List.mem_singleton] at htask
        rw [hone, htask]
    refine ⟨?_, h.distinct.finish _ _, ?_⟩
    · refine .inl ⟨?_, ?_⟩
      · change coordinator.executing.erase task = []
        rw [hone, List.erase_cons_head]
      · change (coordinator.speechScheduler.finish _ _).running = none
        rcases h.occupied with ⟨hnone, -⟩ | ⟨only, honly, hslot⟩
        · rw [hone] at hnone
          cases hnone
        · rw [hone] at honly
          cases honly
          rcases hslot with hslot | hslot
          · rw [LocalSpeechScheduler.finish, if_pos hslot]
          · rw [LocalSpeechScheduler.finish, if_neg (by rw [hslot]; simp)]
            exact hslot
    · intro other ho
      rw [owed_snoc, owedAfter, Bool.and_eq_true] at ho
      refine holds_finish (h.holds other ho.1) ?_
      rintro hslot rfl
      simpa [hslot] using ho.2
  | discardPending recordingId =>
    have hscheduler := cancelTask_scheduler coordinator recordingId
    refine ⟨?_, h.distinct.cancel recordingId, ?_⟩
    · refine occupied_of h.occupied (cancelTask_executing coordinator recordingId) ?_
      simp only [Event.prepare, Coordinator.discardPending, LocalSpeechScheduler.cancel]
      split
      · next hslot =>
        refine .inr ⟨rfl, ?_⟩
        intro hnone
        rcases h.occupied with ⟨-, hfree⟩ | ⟨only, hone, -⟩
        · rw [hslot] at hfree
          cases hfree
        · rw [hone] at hnone
          cases hnone
      · exact .inl rfl
    · intro other ho
      rw [owed_snoc, owedAfter, Bool.and_eq_true, decide_eq_true_eq] at ho
      exact holds_cancel (h.holds other ho.1) ho.2

theorem invariant_step (h : Invariant trace coordinator) (hstep : Step coordinator event coordinator')
    (hroom : ¬Crowds coordinator event) :
    Invariant (trace ++ [⟨coordinator, event, coordinator'⟩]) coordinator' := by
  cases hstep with
  | ran hends =>
    have hprepd := invariant_prepare h hends (event.run coordinator)
    cases hdrains : event.drains coordinator with
    | none =>
      have hrun : event.run coordinator = event.prepare coordinator := by
        rw [Event.run, hdrains]
      rw [hrun] at hprepd ⊢
      exact hprepd
    | some current =>
      have hrun : event.run coordinator = (event.prepare coordinator).drainSpeechQueue current := by
        rw [Event.run, hdrains]
      rw [hrun] at hprepd ⊢
      refine ⟨occupied_drain hprepd.occupied ?_, ?_, ?_⟩
      · intro hsome recordingId hadm
        exact hroom ⟨hsome, current, hdrains, recordingId, hadm⟩
      · rw [drain_scheduler]
        exact hprepd.distinct.admitUnder current
      · intro other ho
        rw [drain_scheduler]
        exact holds_admitUnder (hprepd.holds other ho) current

theorem sound_of_invariant (h : Invariant trace coordinator) : Sound trace coordinator := by
  refine ⟨?_, h.distinct.once, h.distinct.apart, ?_⟩
  · rcases h.occupied with ⟨hnone, -⟩ | ⟨task, hone, -⟩
    · rw [hnone]
      exact Nat.zero_le 1
    · rw [hone]
      exact Nat.le_refl 1
  · intro recordingId howed
    rcases h.holds recordingId howed with hqueued | hrun
    · exact .inl hqueued
    · rcases h.occupied with ⟨-, hfree⟩ | ⟨task, hone, hslot | hfree⟩
      · rw [hfree] at hrun
        cases hrun
      · refine .inr ⟨task, by rw [hone]; exact List.mem_singleton_self _, ?_⟩
        exact Option.some.inj (hslot.symm.trans hrun)
      · rw [hfree] at hrun
        cases hrun

theorem two_of_crowds (hstep : Step coordinator event coordinator') (hcrowds : Crowds coordinator event) :
    2 ≤ coordinator'.executing.length := by
  obtain ⟨hsome, current, hdrains, recordingId, hadm⟩ := hcrowds
  cases hstep with
  | ran hends =>
    rw [Event.run, hdrains]
    simp only [Coordinator.drainSpeechQueue]
    split
    · next heq =>
      change 2 ≤ ((event.prepare coordinator).executing ++ [_]).length
      rw [List.length_append, List.length_singleton]
      have hpos := List.length_pos_iff.mpr hsome
      omega
    · next hnot heq =>
      rw [heq] at hadm
      exact absurd hadm (hnot recordingId)

end Runs

/-- Recording 1 runs and is discarded; recording 2 begins before its task ends. -/
def sampleEvents : List (Event Nat) :=
  [.beginTranscription 1 .nominal, .discardPending 1, .beginTranscription 2 .nominal]

/-- The states between these events. -/
def sampleHistory : History Nat :=
  let started := (Event.beginTranscription 1 .nominal).run Coordinator.initial
  let discarded := (Event.discardPending 1).run started
  [⟨Coordinator.initial, .beginTranscription 1 .nominal, started⟩,
    ⟨started, .discardPending 1, discarded⟩,
    ⟨discarded, .beginTranscription 2 .nominal, (Event.beginTranscription 2 .nominal).run discarded⟩]

theorem sample_run :
    Run Step Coordinator.initial sampleHistory
      (sampleEvents.foldl (fun coordinator event => event.run coordinator) Coordinator.initial) :=
  ((Run.refl.snoc (.ran (by simp))).snoc (.ran (by simp))).snoc (.ran (by simp))

end TamForge.Speech.Local
