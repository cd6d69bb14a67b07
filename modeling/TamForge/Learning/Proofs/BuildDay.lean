import Mathlib.Algebra.Order.BigOperators.Group.List
import Mathlib.Algebra.Order.Group.Nat
import Mathlib.Data.Finset.Card
import TamForge.Learning.Scheduling

/-!
# What the plan of a day conserves

The two rewrites of `build_day`.  An interview removes whole blocks, unfinished
work replaces adaptive slots, and the minutes of the plan account for both.
Carried work only fails on the minimum of the day, and an interview only on the
block that its fallbacks leave out.
-/

namespace TamForge.Learning

open Models ProofSupport

variable {tasks : List TaskTemplate} {interviews : List InterviewCommitment}
  {unfinished : List UnfinishedWork} {work : UnfinishedWork} {budget : DayBudget}
  {localDate : Date} {curriculumDay : Option Nat} {plan : DayPlan}
  {maximum other rescheduled minutes : Nat}

theorem totalMinutes_filter (tasks : List TaskTemplate) (keep : TaskTemplate → Bool) :
    totalMinutes (tasks.filter keep) + totalMinutes (tasks.filter fun task => !keep task) =
      totalMinutes tasks := by
  induction tasks with
  | nil => rfl
  | cons task rest ih =>
    unfold totalMinutes at *
    cases hkeep : keep task with
    | true =>
      rw [List.filter_cons_of_pos hkeep, List.filter_cons_of_neg (by simp [hkeep])]
      simp only [List.map_cons, List.sum_cons]
      omega
    | false =>
      rw [List.filter_cons_of_neg (by simp [hkeep]), List.filter_cons_of_pos (by simp [hkeep])]
      simp only [List.map_cons, List.sum_cons]
      omega

theorem totalMinutes_filter_le (keep : TaskTemplate → Bool) :
    totalMinutes (tasks.filter keep) ≤ totalMinutes tasks := by
  have hspl := totalMinutes_filter tasks keep
  omega

variable {task : TaskTemplate}

theorem timebox_le_totalMinutes (h : task ∈ tasks) : task.timeboxMinutes ≤ totalMinutes tasks :=
  List.single_le_sum (fun _ _ => Nat.zero_le _) _ (List.mem_map_of_mem h)

variable {others : List TaskTemplate}

theorem totalMinutes_perm (h : tasks.Perm others) : totalMinutes tasks = totalMinutes others :=
  (h.map TaskTemplate.timeboxMinutes).sum_nat

/-- The loop over the fallback blocks removes the first of them, and stops when
the interview fits. -/
theorem dropBlocks_eq (other maximum : Nat) (tasks : List TaskTemplate) (blocks : List String) :
    ∃ removed : List String, removed ⊆ blocks ∧
    dropBlocks other maximum tasks blocks =
      (tasks.filter fun task => !removed.contains task.block) ∧
    (totalMinutes (dropBlocks other maximum tasks blocks) + other ≤ maximum ∨
      blocks ⊆ removed) := by
  induction blocks generalizing tasks with
  | nil =>
    refine ⟨[], List.Subset.refl _, ?_, Or.inr (List.Subset.refl _)⟩
    simp [dropBlocks]
  | cons block rest ih =>
    unfold dropBlocks
    by_cases hfits : totalMinutes tasks + other ≤ maximum
    · rw [if_pos hfits]
      exact ⟨[], by simp, by simp, Or.inl hfits⟩
    · rw [if_neg hfits]
      obtain ⟨removed, hsub, heq, hend⟩ :=
        ih (tasks.filter fun task => task.block != block)
      refine ⟨block :: removed, List.cons_subset_cons _ hsub, ?_, ?_⟩
      · rw [heq, List.filter_filter]
        apply List.filter_congr
        intro task _
        by_cases hblk : task.block = block <;> simp [hblk]
      · apply hend.imp_right
        intro hall
        exact List.cons_subset_cons _ hall

def interviewBlocks (interviewMinutes : Nat) : List String :=
  ["communication_spoken"] ++ (if 35 < interviewMinutes then ["tam_case"] else []) ++
    (if 120 ≤ interviewMinutes then ["correction_warmup", "daily_close"] else [])

theorem append_subset_append_left {common fewer more : List String} (h : fewer ⊆ more) :
    common ++ fewer ⊆ common ++ more := by
  rw [List.append_subset]
  exact ⟨List.subset_append_left _ _, List.subset_append_of_subset_right _ h⟩

theorem replaceForInterviews_eq (tasks : List TaskTemplate) (maximum : Nat)
    (hmins : minutes ≠ 0) : ∃ removed : List String,
    removed ⊆ interviewBlocks minutes ++ fallbackBlocks ∧
    replaceForInterviews tasks minutes maximum =
      (tasks.filter fun task => !removed.contains task.block) ∧
    (totalMinutes (replaceForInterviews tasks minutes maximum) + min minutes maximum ≤ maximum ∨
      interviewBlocks minutes ++ fallbackBlocks ⊆ removed) := by
  unfold replaceForInterviews
  rw [if_neg hmins]
  obtain ⟨removed, hsub, heq, hend⟩ := dropBlocks_eq (min minutes maximum) maximum
    (tasks.filter fun task => !(interviewBlocks minutes).contains task.block) fallbackBlocks
  refine ⟨interviewBlocks minutes ++ removed, append_subset_append_left hsub, ?_, ?_⟩
  · refine heq.trans ?_
    rw [List.filter_filter]
    apply List.filter_congr
    intro task _
    by_cases hfst : task.block ∈ interviewBlocks minutes <;> simp [hfst]
  · apply hend.imp_right
    intro hall
    exact append_subset_append_left hall

theorem replaceForInterviews_filter (tasks : List TaskTemplate) (minutes maximum : Nat) :
    ∃ removed : List String,
    replaceForInterviews tasks minutes maximum =
      tasks.filter fun task => !removed.contains task.block := by
  by_cases hmins : minutes = 0
  · refine ⟨[], ?_⟩
    simp [replaceForInterviews, hmins]
  · obtain ⟨removed, -, heq, -⟩ := replaceForInterviews_eq tasks maximum hmins
    exact ⟨removed, heq⟩

/-! ## Unfinished work -/

/-- The two tasks of which `_resolve_unfinished` prefers one. -/
def preferred (best : Option TaskTemplate) (item : TaskTemplate) : Option TaskTemplate :=
  match best with
  | none => some item
  | some chosen => if chosen.below item then some item else some chosen

theorem preferred_isSome (best : Option TaskTemplate) (item : TaskTemplate) :
    (preferred best item).isSome = true := by
  unfold preferred
  split
  · rfl
  · split <;> rfl

variable {candidates : List TaskTemplate} {best : Option TaskTemplate}

theorem foldl_preferred_mem (h : candidates.foldl preferred best = some task) :
    best = some task ∨ task ∈ candidates := by
  induction candidates generalizing best with
  | nil => exact Or.inl h
  | cons item rest ih =>
    rw [List.foldl_cons] at h
    rcases ih h with hfst | hrest
    · unfold preferred at hfst
      cases best with
      | none =>
        cases hfst
        exact Or.inr (List.mem_cons_self ..)
      | some chosen =>
        dsimp only at hfst
        split at hfst
        · cases hfst
          exact Or.inr (List.mem_cons_self ..)
        · exact Or.inl hfst
    · exact Or.inr (List.mem_cons_of_mem _ hrest)

theorem foldl_preferred_isSome (h : best.isSome = true ∨ candidates ≠ []) :
    (candidates.foldl preferred best).isSome = true := by
  induction candidates generalizing best with
  | nil => simpa using h
  | cons item rest ih =>
    rw [List.foldl_cons]
    exact ih (Or.inl (preferred_isSome best item))

/-- A slot that unfinished work may replace. -/
def TaskTemplate.adaptive (task : TaskTemplate) : Bool :=
  !task.required && task.adaptivePriority.isSome

theorem replacementFor_eq : replacementFor tasks minutes =
    (tasks.filter fun task => task.adaptive && decide (minutes ≤ task.timeboxMinutes)).foldl
      preferred none := rfl

theorem replacementFor_some (h : replacementFor tasks minutes = some task) :
    task ∈ tasks ∧ task.adaptive = true ∧ minutes ≤ task.timeboxMinutes := by
  rw [replacementFor_eq] at h
  rcases foldl_preferred_mem h with hnone | hmem
  · cases hnone
  · simpa using hmem

theorem replacementFor_isSome (minutes : Nat) (hmem : task ∈ tasks)
    (hadaptive : task.adaptive = true) (hmins : minutes ≤ task.timeboxMinutes) :
    ∃ replacement, replacementFor tasks minutes = some replacement := by
  rw [← Option.isSome_iff_exists, replacementFor_eq]
  apply foldl_preferred_isSome
  right
  apply List.ne_nil_of_mem (a := task)
  simp [hmem, hadaptive, hmins]

/-- What the loop of `_resolve_unfinished` does with one piece of work: it keeps
the tasks, or it puts the work in the place of an adaptive one. -/
inductive Resolves (maximum other : Nat) (tasks : List TaskTemplate) (rescheduled : Nat)
    (work : UnfinishedWork) : List TaskTemplate → MissedWorkDecision → Nat → Prop
  | kept {decision : MissedWorkDecision} : decision.workId = work.id →
      decision.action ≠ .replaceAdaptive →
      Resolves maximum other tasks rescheduled work tasks decision rescheduled
  | replaced {task : TaskTemplate} : replacementFor tasks work.minutes = some task →
      Resolves maximum other tasks rescheduled work
        (tasks.filter fun item => item.taskDefinitionId != task.taskDefinitionId)
        ⟨work.id, .replaceAdaptive, some task.taskDefinitionId, none⟩ (rescheduled + work.minutes)

theorem resolveUnfinished_cons (maximum other : Nat) (tasks : List TaskTemplate)
    (rescheduled : Nat) (work : UnfinishedWork) (rest : List UnfinishedWork) :
    ∃ left decision taken, Resolves maximum other tasks rescheduled work left decision taken ∧
      resolveUnfinished maximum other tasks rescheduled (work :: rest) =
        ((resolveUnfinished maximum other left taken rest).1,
          decision :: (resolveUnfinished maximum other left taken rest).2.1,
          (resolveUnfinished maximum other left taken rest).2.2) := by
  rw [resolveUnfinished]
  cases hclass : work.classification with
  | useful => exact ⟨_, _, _, .kept rfl (by simp), rfl⟩
  | optional => exact ⟨_, _, _, .kept rfl (by simp), rfl⟩
  | superseded => exact ⟨_, _, _, .kept rfl (by simp), rfl⟩
  | required =>
    dsimp only
    split
    · exact ⟨tasks, ⟨work.id, .pendingReplacement, none, none⟩, rescheduled,
        .kept rfl (by simp), rfl⟩
    · rename_i replacement hf
      split
      · exact ⟨tasks, ⟨work.id, .pendingReplacement, none, none⟩, rescheduled,
          .kept rfl (by simp), rfl⟩
      · exact ⟨_, _, _, .replaced hf, rfl⟩

def rescheduledMinutes (unfinished : List UnfinishedWork) (decisions : List MissedWorkDecision) :
    Nat :=
  (((unfinished.zip decisions).filter fun entry => entry.2.action = .replaceAdaptive).map
    fun entry => entry.1.minutes).sum

/-- What the whole loop leaves. -/
structure Resolution (tasks : List TaskTemplate) (rescheduled : Nat)
    (unfinished : List UnfinishedWork) (kept : List TaskTemplate)
    (decisions : List MissedWorkDecision) (total : Nat) : Prop where
  sublist : kept.Sublist tasks
  required : (tasks.map TaskTemplate.taskDefinitionId).Nodup →
    ∀ task ∈ tasks, task.required = true → task ∈ kept
  decided : decisions.map MissedWorkDecision.workId = unfinished.map UnfinishedWork.id
  replaced : ∀ entry ∈ unfinished.zip decisions, entry.2.action = .replaceAdaptive →
    ∃ task ∈ tasks, entry.2.replacedTaskId = some task.taskDefinitionId ∧
      task.required = false ∧ entry.1.minutes ≤ task.timeboxMinutes ∧
      ∀ item ∈ kept, item.taskDefinitionId ≠ task.taskDefinitionId
  distinct : ((decisions.filter fun decision => decision.action = .replaceAdaptive).map
    MissedWorkDecision.replacedTaskId).Nodup
  minutes : total = rescheduled + rescheduledMinutes unfinished decisions
  shrinks : totalMinutes kept + total ≤ totalMinutes tasks + rescheduled

theorem Resolution.done : Resolution tasks rescheduled [] tasks [] rescheduled where
  sublist := List.Sublist.refl _
  required := fun _ _ htask _ => htask
  decided := rfl
  replaced := by
    intro entry hent
    cases hent
  distinct := List.nodup_nil
  minutes := rfl
  shrinks := Nat.le_refl _

theorem totalMinutes_without (h : task ∈ tasks) :
    totalMinutes (tasks.filter fun item => item.taskDefinitionId != task.taskDefinitionId) +
      task.timeboxMinutes ≤ totalMinutes tasks := by
  have hspl := totalMinutes_filter tasks
    fun item => item.taskDefinitionId != task.taskDefinitionId
  have hmem : task ∈ tasks.filter fun item =>
      !(item.taskDefinitionId != task.taskDefinitionId) := by
    simp [h]
  have hle := timebox_le_totalMinutes hmem
  omega

variable {left : List TaskTemplate} {decision : MissedWorkDecision} {taken : Nat}

theorem Resolves.shrinks (h : Resolves maximum other tasks rescheduled work left decision taken) :
    totalMinutes left + taken ≤ totalMinutes tasks + rescheduled := by
  cases h with
  | kept => exact Nat.le_refl _
  | replaced hf =>
    obtain ⟨hmem, -, hmins⟩ := replacementFor_some hf
    have hwithout := totalMinutes_without hmem
    omega

theorem rescheduledMinutes_cons (decision : MissedWorkDecision) (rest : List UnfinishedWork)
    (decisions : List MissedWorkDecision) :
    rescheduledMinutes (work :: rest) (decision :: decisions) =
      (if decision.action = .replaceAdaptive then work.minutes else 0) +
        rescheduledMinutes rest decisions := by
  unfold rescheduledMinutes
  rw [List.zip_cons_cons, List.filter_cons]
  by_cases hact : decision.action = .replaceAdaptive
  · simp [hact]
  · simp [hact]

variable {kept : List TaskTemplate} {decisions : List MissedWorkDecision} {total : Nat}

theorem Resolution.names (h : Resolution tasks rescheduled unfinished kept decisions total)
    (hdec : decision ∈ decisions) (hrepls : decision.action = .replaceAdaptive) :
    ∃ task ∈ tasks, decision.replacedTaskId = some task.taskDefinitionId := by
  obtain ⟨index, hindex, rfl⟩ := List.getElem_of_mem hdec
  have hlen : decisions.length = unfinished.length := by
    simpa using congrArg List.length h.decided
  have hbound : index < unfinished.length := hlen ▸ hindex
  have hzip : (unfinished[index], decisions[index]) ∈ unfinished.zip decisions := by
    rw [← List.getElem_zip (h := by simpa [hlen] using hbound)]
    exact List.getElem_mem _
  obtain ⟨task, htask, hid, -⟩ := h.replaced _ hzip hrepls
  exact ⟨task, htask, hid⟩

variable {rest : List UnfinishedWork}

theorem Resolution.cons (hstep : Resolves maximum other tasks rescheduled work left decision taken)
    (hrest : Resolution left taken rest kept decisions total) :
    Resolution tasks rescheduled (work :: rest) kept (decision :: decisions) total := by
  have hshrinks := hstep.shrinks
  cases hstep with
  | kept hid hact =>
    refine ⟨hrest.sublist, hrest.required, ?_, ?_, ?_, ?_, hrest.shrinks⟩
    · rw [List.map_cons, List.map_cons, hid, hrest.decided]
    · intro entry hent hrepls
      rw [List.zip_cons_cons, List.mem_cons] at hent
      rcases hent with rfl | hent
      · exact absurd hrepls hact
      · exact hrest.replaced entry hent hrepls
    · rw [List.filter_cons_of_neg (by simpa using hact)]
      exact hrest.distinct
    · rw [rescheduledMinutes_cons, if_neg hact, Nat.zero_add]
      exact hrest.minutes
  | replaced hf =>
    rename_i task
    obtain ⟨hmem, hadaptive, hmins⟩ := replacementFor_some hf
    have hoptional : task.required = false := by
      simp only [TaskTemplate.adaptive, Bool.and_eq_true, Bool.not_eq_true'] at hadaptive
      exact hadaptive.1
    have hfilt := List.filter_sublist
      (p := fun item => item.taskDefinitionId != task.taskDefinitionId) (l := tasks)
    refine ⟨hrest.sublist.trans hfilt, ?_, ?_, ?_, ?_, ?_, ?_⟩
    · intro hnd required hreqd hflag
      refine hrest.required (hnd.sublist (hfilt.map _)) required ?_ hflag
      -- A required task is another task than the replaced one.
      have hne : required.taskDefinitionId ≠ task.taskDefinitionId := by
        intro heq
        have hsame := List.inj_on_of_nodup_map hnd hreqd hmem heq
        rw [hsame, hoptional] at hflag
        cases hflag
      simp [hreqd, hne]
    · rw [List.map_cons, List.map_cons, hrest.decided]
    · intro entry hent hrepls
      rw [List.zip_cons_cons, List.mem_cons] at hent
      rcases hent with rfl | hent
      · refine ⟨task, hmem, rfl, hoptional, hmins, ?_⟩
        intro item hitem
        have hleft := hrest.sublist.subset hitem
        simpa using (List.mem_filter.mp hleft).2
      · obtain ⟨other, ho, hrest⟩ := hrest.replaced entry hent hrepls
        exact ⟨other, (List.mem_filter.mp ho).1, hrest⟩
    · rw [List.filter_cons_of_pos (by simp), List.map_cons, List.nodup_cons]
      refine ⟨?_, hrest.distinct⟩
      intro hagain
      rw [List.mem_map] at hagain
      obtain ⟨later, hlat, hsame⟩ := hagain
      rw [List.mem_filter, decide_eq_true_eq] at hlat
      obtain ⟨other, ho, hid⟩ := hrest.names hlat.1 hlat.2
      rw [hsame] at hid
      have hne := (List.mem_filter.mp ho).2
      simp only [Option.some.injEq] at hid
      simp [hid] at hne
    · rw [rescheduledMinutes_cons, if_pos rfl, hrest.minutes]
      omega
    · exact hrest.shrinks.trans hshrinks

theorem resolveUnfinished_resolution (maximum other : Nat) (tasks : List TaskTemplate)
    (rescheduled : Nat) (unfinished : List UnfinishedWork) :
    Resolution tasks rescheduled unfinished
      (resolveUnfinished maximum other tasks rescheduled unfinished).1
      (resolveUnfinished maximum other tasks rescheduled unfinished).2.1
      (resolveUnfinished maximum other tasks rescheduled unfinished).2.2 := by
  induction unfinished generalizing tasks rescheduled with
  | nil => exact Resolution.done
  | cons work rest ih =>
    obtain ⟨left, decision, taken, hstep, heq⟩ :=
      resolveUnfinished_cons maximum other tasks rescheduled work rest
    rw [heq]
    exact Resolution.cons hstep (ih left taken)

/-! ## The plan -/

def countedMinutes (interviews : List InterviewCommitment) (budget : DayBudget) : Nat :=
  min (interviews.map InterviewCommitment.minutes).sum budget.maximumMinutes

def afterInterviews (tasks : List TaskTemplate) (interviews : List InterviewCommitment)
    (budget : DayBudget) : List TaskTemplate :=
  replaceForInterviews (tasks.insertionSort TaskTemplate.notAfter)
    (interviews.map InterviewCommitment.minutes).sum budget.maximumMinutes

def resolvedDay (tasks : List TaskTemplate) (interviews : List InterviewCommitment)
    (unfinished : List UnfinishedWork) (budget : DayBudget) :
    List TaskTemplate × List MissedWorkDecision × Nat :=
  resolveUnfinished budget.maximumMinutes (countedMinutes interviews budget)
    (afterInterviews tasks interviews budget) 0 unfinished

def minutesOf (tasks : List TaskTemplate) (interviews : List InterviewCommitment)
    (unfinished : List UnfinishedWork) (budget : DayBudget) : Nat :=
  totalMinutes (resolvedDay tasks interviews unfinished budget).1 +
    countedMinutes interviews budget + (resolvedDay tasks interviews unfinished budget).2.2

def StudyChecks (curriculumDay : Option Nat) (tasks : List TaskTemplate) : Prop :=
  curriculumDay.all (fun day => day == 0) = false ∧
    ¬1 < (tasks.filter fun item => item.block == "correction_warmup").length

theorem buildDay_ok_iff (hstudy : budget.dayType ≠ .sunday) :
    buildDay localDate curriculumDay tasks interviews unfinished budget = .ok plan ↔
      StudyChecks curriculumDay tasks ∧
      minutesOf tasks interviews unfinished budget ≤ budget.maximumMinutes ∧
      (interviews = [] →
        budget.acceptableMinimum ≤ minutesOf tasks interviews unfinished budget) ∧
      plan = ⟨localDate, curriculumDay,
        if interviews.isEmpty then budget.dayType else .interview,
        (resolvedDay tasks interviews unfinished budget).1,
        (interviews.map InterviewCommitment.minutes).sum,
        minutesOf tasks interviews unfinished budget,
        (resolvedDay tasks interviews unfinished budget).2.1⟩ := by
  unfold buildDay
  rw [if_neg hstudy]
  simp only [bind_ok_iff, validatePlannedMinutes]
  change (∃ _, raiseFirst _ = _ ∧ ∃ _,
      raiseFirst [(decide (budget.maximumMinutes < minutesOf tasks interviews unfinished budget),
        _)] = _ ∧ ∃ _,
      raiseFirst [(interviews.isEmpty &&
        decide (minutesOf tasks interviews unfinished budget < budget.acceptableMinimum), _)] = _ ∧
      Except.ok _ = _) ↔ _
  constructor
  · rintro ⟨_, hchk, _, hmax, _, hmin, hplan⟩
    rw [raiseFirst_eq_ok, List.forall_mem_cons, List.forall_mem_cons] at hchk
    rw [raiseFirst_eq_ok, List.forall_mem_cons] at hmax hmin
    refine ⟨⟨hchk.1, by simpa using hchk.2.1⟩, by simpa using hmax.1, ?_,
      (Except.ok.inj hplan).symm⟩
    intro hnone
    simpa [hnone] using hmin.1
  · rintro ⟨hchk, hmax, hmin, rfl⟩
    refine ⟨(), raiseFirst_eq_ok.mpr ?_, (), raiseFirst_eq_ok.mpr ?_, (),
      raiseFirst_eq_ok.mpr ?_, rfl⟩
    · simpa [StudyChecks] using hchk
    · simpa using hmax
    · cases interviews with
      | nil => simpa using hmin rfl
      | cons first rest => simp

theorem resolvedDay_resolution (tasks : List TaskTemplate) (interviews : List InterviewCommitment)
    (unfinished : List UnfinishedWork) (budget : DayBudget) :
    Resolution (afterInterviews tasks interviews budget) 0 unfinished
      (resolvedDay tasks interviews unfinished budget).1
      (resolvedDay tasks interviews unfinished budget).2.1
      (resolvedDay tasks interviews unfinished budget).2.2 :=
  resolveUnfinished_resolution _ _ _ _ _

theorem afterInterviews_sublist (tasks : List TaskTemplate)
    (interviews : List InterviewCommitment) (budget : DayBudget) :
    (afterInterviews tasks interviews budget).Sublist
      (tasks.insertionSort TaskTemplate.notAfter) := by
  obtain ⟨removed, heq⟩ := replaceForInterviews_filter
    (tasks.insertionSort TaskTemplate.notAfter) (interviews.map InterviewCommitment.minutes).sum
    budget.maximumMinutes
  unfold afterInterviews
  rw [heq]
  exact List.filter_sublist

/-- What the plan of a study day owes to its tasks, interviews and unfinished
work. -/
structure Conserved (tasks : List TaskTemplate) (interviews : List InterviewCommitment)
    (unfinished : List UnfinishedWork) (budget : DayBudget) (plan : DayPlan) : Prop where
  capped : plan.plannedMinutes ≤ budget.maximumMinutes
  ordered : plan.tasks.Sublist (tasks.insertionSort TaskTemplate.notAfter)
  required_missing : ∀ task ∈ tasks, task.required = true → task ∉ plan.tasks →
    ∀ kept ∈ afterInterviews tasks interviews budget, kept.block ≠ task.block
  decided : plan.missedWork.map MissedWorkDecision.workId = unfinished.map UnfinishedWork.id
  replaced : ∀ entry ∈ unfinished.zip plan.missedWork, entry.2.action = .replaceAdaptive →
    ∃ task ∈ afterInterviews tasks interviews budget,
      entry.2.replacedTaskId = some task.taskDefinitionId ∧ task.required = false ∧
      entry.1.minutes ≤ task.timeboxMinutes ∧
      ∀ item ∈ plan.tasks, item.taskDefinitionId ≠ task.taskDefinitionId
  distinct : ((plan.missedWork.filter fun decision => decision.action = .replaceAdaptive).map
    MissedWorkDecision.replacedTaskId).Nodup
  accounted : plan.plannedMinutes = totalMinutes plan.tasks + countedMinutes interviews budget +
    rescheduledMinutes unfinished plan.missedWork

/-- A plan of a study day conserves the work of the day within its cap. -/
theorem buildDay_conserves (hstudy : budget.dayType ≠ .sunday)
    (hids : (tasks.map TaskTemplate.taskDefinitionId).Nodup)
    (h : buildDay localDate curriculumDay tasks interviews unfinished budget = .ok plan) :
    Conserved tasks interviews unfinished budget plan := by
  obtain ⟨-, hmaximum, -, rfl⟩ := (buildDay_ok_iff hstudy).mp h
  have hresolved := resolvedDay_resolution tasks interviews unfinished budget
  have hsublist := afterInterviews_sublist tasks interviews budget
  have hperm := List.perm_insertionSort TaskTemplate.notAfter tasks
  have hsorted : ((tasks.insertionSort TaskTemplate.notAfter).map
      TaskTemplate.taskDefinitionId).Nodup := (hperm.map _).nodup_iff.mpr hids
  refine ⟨hmaximum, hresolved.sublist.trans hsublist, ?_, hresolved.decided, hresolved.replaced,
    hresolved.distinct, ?_⟩
  · intro task htask hrequired hmissing kept hkept hblock
    -- A task of a block that stays was there for the unfinished work.
    have hthere : task ∈ afterInterviews tasks interviews budget := by
      obtain ⟨removed, heq⟩ := replaceForInterviews_filter
        (tasks.insertionSort TaskTemplate.notAfter)
        (interviews.map InterviewCommitment.minutes).sum budget.maximumMinutes
      unfold afterInterviews at hkept ⊢
      rw [heq, List.mem_filter] at hkept ⊢
      refine ⟨hperm.mem_iff.mpr htask, ?_⟩
      rw [← hblock]
      exact hkept.2
    exact hmissing
      (hresolved.required (hsorted.sublist (hsublist.map _)) task hthere hrequired)
  · have hminutes := hresolved.minutes
    rw [Nat.zero_add] at hminutes
    show minutesOf tasks interviews unfinished budget = _
    unfold minutesOf
    rw [hminutes]

def sampleTask (taskId : Nat) (block : String) (minutes : Nat) (priority : Option Nat) :
    TaskTemplate :=
  ⟨taskId, "task", "v1", "Complete the task", block, taskId, minutes, priority.isNone, priority⟩

def slottedTasks : List TaskTemplate :=
  [sampleTask 1 "sql" 100 none, sampleTask 2 "tam_case" 100 none,
    sampleTask 3 "correction_warmup" 40 (some 1)]

def shortWork : UnfinishedWork :=
  ⟨9, .required, 20, none⟩

def slottedPlan : DayPlan :=
  ⟨1, some 1, .weekday, slottedTasks, 0, 240, []⟩

def interviewedPlan : DayPlan :=
  ⟨1, some 1, .interview, [sampleTask 1 "sql" 100 none, sampleTask 2 "tam_case" 100 none], 10, 230,
    [⟨9, .replaceAdaptive, some 3, none⟩]⟩

/-- A day with an interview on which unfinished work takes the slot. -/
theorem buildDay_conserves_sample :
    Conserved slottedTasks [⟨4, 10⟩] [shortWork] (budgetFor 1) interviewedPlan :=
  buildDay_conserves (by decide) (by decide)
    (show buildDay 1 (some 1) slottedTasks [⟨4, 10⟩] [shortWork] (budgetFor 1) =
      .ok interviewedPlan from rfl)

/-! ## Carrying unfinished work -/

def slotIds (tasks : List TaskTemplate) : Finset Nat :=
  ((tasks.filter TaskTemplate.adaptive).map TaskTemplate.taskDefinitionId).toFinset

def fixedTasks (tasks : List TaskTemplate) : List TaskTemplate :=
  tasks.filter fun task => decide (task.taskDefinitionId ∉ slotIds tasks)

def leastMinutes (tasks : List TaskTemplate) : Nat :=
  totalMinutes (fixedTasks tasks) + (slotIds tasks).card

theorem mem_slotIds {taskId : Nat} : taskId ∈ slotIds tasks ↔
    ∃ task ∈ tasks, task.adaptive = true ∧ task.taskDefinitionId = taskId := by
  simp only [slotIds, List.mem_toFinset, List.mem_map, List.mem_filter]
  constructor
  · rintro ⟨task, ⟨hmem, hadaptive⟩, hid⟩
    exact ⟨task, hmem, hadaptive, hid⟩
  · rintro ⟨task, hmem, hadaptive, hid⟩
    exact ⟨task, ⟨hmem, hadaptive⟩, hid⟩

theorem leastMinutes_perm (h : tasks.Perm others) : leastMinutes tasks = leastMinutes others := by
  have hslots : slotIds tasks = slotIds others := by
    ext taskId
    simp only [mem_slotIds, h.mem_iff]
  unfold leastMinutes fixedTasks
  rw [hslots, totalMinutes_perm (h.filter _)]

theorem leastMinutes_le (hpos : ∀ task ∈ tasks, 0 < task.timeboxMinutes) :
    leastMinutes tasks ≤ totalMinutes tasks := by
  have hspl := totalMinutes_filter tasks
    fun task => decide (task.taskDefinitionId ∉ slotIds tasks)
  have hcard : (slotIds tasks).card ≤ totalMinutes (tasks.filter fun task =>
      !decide (task.taskDefinitionId ∉ slotIds tasks)) := by
    have hsub : slotIds tasks ⊆ ((tasks.filter fun task =>
        !decide (task.taskDefinitionId ∉ slotIds tasks)).map
          TaskTemplate.taskDefinitionId).toFinset := by
      intro taskId htaskId
      obtain ⟨task, hmem, -, rfl⟩ := mem_slotIds.mp htaskId
      simp only [List.mem_toFinset, List.mem_map, List.mem_filter]
      exact ⟨task, ⟨hmem, by simpa using htaskId⟩, rfl⟩
    have hlen : ∀ items : List TaskTemplate, (∀ task ∈ items, 0 < task.timeboxMinutes) →
        items.length ≤ totalMinutes items := by
      intro items hitems
      unfold totalMinutes
      induction items with
      | nil => exact Nat.zero_le _
      | cons first rest ih =>
        have hrest := ih fun task htask => hitems task (List.mem_cons_of_mem _ htask)
        have hfst := hitems first (List.mem_cons_self ..)
        rw [List.length_cons, List.map_cons, List.sum_cons]
        omega
    calc (slotIds tasks).card
        ≤ _ := Finset.card_le_card hsub
      _ ≤ _ := List.toFinset_card_le _
      _ = _ := List.length_map _
      _ ≤ _ := hlen _ fun task htask => hpos task (List.mem_filter.mp htask).1
  unfold leastMinutes fixedTasks
  omega

/-- Replacing one slot leaves the others. -/
theorem leastMinutes_without (hmem : task ∈ tasks) (hadaptive : task.adaptive = true) :
    leastMinutes (tasks.filter fun item => item.taskDefinitionId != task.taskDefinitionId) + 1 =
      leastMinutes tasks := by
  have hslot : task.taskDefinitionId ∈ slotIds tasks := mem_slotIds.mpr ⟨task, hmem, hadaptive, rfl⟩
  have hslots : slotIds (tasks.filter fun item =>
      item.taskDefinitionId != task.taskDefinitionId) =
        (slotIds tasks).erase task.taskDefinitionId := by
    ext taskId
    rw [Finset.mem_erase, mem_slotIds, mem_slotIds]
    constructor
    · rintro ⟨item, hitem, hflag, rfl⟩
      rw [List.mem_filter] at hitem
      exact ⟨by simpa using hitem.2, item, hitem.1, hflag, rfl⟩
    · rintro ⟨hne, item, hitem, hflag, rfl⟩
      exact ⟨item, List.mem_filter.mpr ⟨hitem, by simpa using hne⟩, hflag, rfl⟩
  have hfixed : fixedTasks (tasks.filter fun item =>
      item.taskDefinitionId != task.taskDefinitionId) = fixedTasks tasks := by
    unfold fixedTasks
    rw [hslots, List.filter_filter]
    apply List.filter_congr
    intro item _
    by_cases hid : item.taskDefinitionId = task.taskDefinitionId
    · simp [hid, hslot]
    · simp [hid]
  have hcard := Finset.card_erase_add_one hslot
  unfold leastMinutes
  rw [hfixed, hslots]
  omega

theorem Resolves.leastMinutes_le (hwork : 0 < work.minutes)
    (h : Resolves maximum other tasks rescheduled work left decision taken) :
    leastMinutes tasks + rescheduled ≤ leastMinutes left + taken := by
  cases h with
  | kept => exact Nat.le_refl _
  | replaced hf =>
    obtain ⟨hmem, hadaptive, -⟩ := replacementFor_some hf
    have hleast := leastMinutes_without hmem hadaptive
    omega

/-- No unfinished work brings a day below the minutes of its fixed tasks and one
for every slot. -/
theorem leastMinutes_le_resolved (maximum other rescheduled : Nat)
    (hpos : ∀ task ∈ tasks, 0 < task.timeboxMinutes)
    (hwork : ∀ work ∈ unfinished, 0 < work.minutes) :
    leastMinutes tasks + rescheduled ≤
      totalMinutes (resolveUnfinished maximum other tasks rescheduled unfinished).1 +
        (resolveUnfinished maximum other tasks rescheduled unfinished).2.2 := by
  induction unfinished generalizing tasks rescheduled with
  | nil => exact Nat.add_le_add_right (leastMinutes_le hpos) rescheduled
  | cons work rest ih =>
    obtain ⟨left, decision, taken, hstep, heq⟩ :=
      resolveUnfinished_cons maximum other tasks rescheduled work rest
    have hleast := hstep.leastMinutes_le (hwork work (List.mem_cons_self ..))
    have hleft : ∀ task ∈ left, 0 < task.timeboxMinutes := by
      cases hstep with
      | kept => exact hpos
      | replaced => exact fun task htask => hpos task (List.mem_filter.mp htask).1
    rw [heq]
    exact hleast.trans
      (ih taken hleft fun other ho => hwork other (List.mem_cons_of_mem _ ho))

def oneMinute : UnfinishedWork :=
  ⟨1, .required, 1, none⟩

theorem resolveUnfinished_oneMinute (hf : replacementFor tasks 1 = some task)
    (hroom : ¬maximum < totalMinutes tasks - task.timeboxMinutes + rescheduled + 1 + other) :
    resolveUnfinished maximum other tasks rescheduled (oneMinute :: rest) =
      let left := resolveUnfinished maximum other
        (tasks.filter fun item => item.taskDefinitionId != task.taskDefinitionId)
        (rescheduled + 1) rest
      (left.1, ⟨1, .replaceAdaptive, some task.taskDefinitionId, none⟩ :: left.2.1, left.2.2) := by
  rw [resolveUnfinished]
  simp only [oneMinute, hf, hroom, if_false]

theorem exists_least (tasks : List TaskTemplate) (rescheduled : Nat)
    (hpos : ∀ task ∈ tasks, 0 < task.timeboxMinutes)
    (hfits : totalMinutes tasks + rescheduled + other ≤ maximum) : ∃ count : Nat,
    totalMinutes (resolveUnfinished maximum other tasks rescheduled
        (List.replicate count oneMinute)).1 +
      (resolveUnfinished maximum other tasks rescheduled (List.replicate count oneMinute)).2.2 =
        leastMinutes tasks + rescheduled := by
  induction hlen : tasks.length using Nat.strong_induction_on generalizing tasks rescheduled with
  | h length ih =>
    by_cases hslot : ∃ task ∈ tasks, task.adaptive = true
    · obtain ⟨slot, hslot, hflag⟩ := hslot
      obtain ⟨task, hf⟩ := replacementFor_isSome 1 hslot hflag (hpos slot hslot)
      obtain ⟨hmem, hadaptive, hmins⟩ := replacementFor_some hf
      have hwithout := totalMinutes_without hmem
      have hleast := leastMinutes_without hmem hadaptive
      have hshorter : (tasks.filter fun item =>
          item.taskDefinitionId != task.taskDefinitionId).length < length := by
        rw [← hlen, List.length_filter_lt_length_iff_exists]
        exact ⟨task, hmem, by simp⟩
      obtain ⟨count, hcnt⟩ := ih _ hshorter _ (rescheduled + 1)
        (fun item hitem => hpos item (List.mem_filter.mp hitem).1) (by omega) rfl
      refine ⟨count + 1, ?_⟩
      have hroom : ¬maximum < totalMinutes tasks - task.timeboxMinutes + rescheduled +
          1 + other := by omega
      rw [List.replicate_succ, resolveUnfinished_oneMinute hf hroom, hcnt]
      omega
    · have hslots : slotIds tasks = ∅ := by
        rw [Finset.eq_empty_iff_forall_notMem]
        intro taskId htaskId
        obtain ⟨task, hmem, hflag, -⟩ := mem_slotIds.mp htaskId
        exact hslot ⟨task, hmem, hflag⟩
      refine ⟨0, ?_⟩
      show totalMinutes tasks + rescheduled = _
      unfold leastMinutes fixedTasks
      simp [hslots]

theorem pos_of_check (h : task.check = .ok ()) : 0 < task.timeboxMinutes := by
  unfold TaskTemplate.check at h
  simp only [raiseFirst_eq_ok, List.forall_mem_cons, Bool.or_eq_false_iff, beq_eq_false_iff_ne] at h
  omega

theorem work_pos_of_check (h : work.check = .ok ()) : 0 < work.minutes := by
  unfold UnfinishedWork.check at h
  simp only [raiseFirst_eq_ok, List.forall_mem_cons, Bool.or_eq_false_iff, beq_eq_false_iff_ne] at h
  omega

theorem resolvedDay_nil :
    minutesOf tasks interviews [] budget =
      totalMinutes (afterInterviews tasks interviews budget) + countedMinutes interviews budget :=
  rfl

/-- A day that can be planned alone can be planned with any unfinished work,
exactly when it has no minimum to keep or its least minutes reach it. -/
theorem carried_work_plannable_iff (htasks : ∀ task ∈ tasks, task.check = .ok ())
    (h : buildDay localDate curriculumDay tasks interviews [] budget = .ok plan) :
    (∀ unfinished : List UnfinishedWork, (∀ work ∈ unfinished, work.check = .ok ()) →
        ∃ carried, buildDay localDate curriculumDay tasks interviews unfinished budget =
          .ok carried) ↔
      budget.dayType = .sunday ∨ interviews ≠ [] ∨
        budget.acceptableMinimum ≤ leastMinutes tasks := by
  by_cases hsunday : budget.dayType = .sunday
  · constructor
    · intro _
      exact Or.inl hsunday
    · intro _ unfinished _
      unfold buildDay
      rw [if_pos hsunday]
      exact ⟨_, rfl⟩
  obtain ⟨hchecks, hmaximum, -, -⟩ := (buildDay_ok_iff hsunday).mp h
  have hfits : ∀ unfinished,
      minutesOf tasks interviews unfinished budget ≤ budget.maximumMinutes := by
    intro unfinished
    have hshrinks := (resolvedDay_resolution tasks interviews unfinished budget).shrinks
    rw [resolvedDay_nil] at hmaximum
    unfold minutesOf
    omega
  by_cases hnone : interviews = []
  · subst hnone
    have hpositive : ∀ task ∈ tasks.insertionSort TaskTemplate.notAfter,
        0 < task.timeboxMinutes := by
      intro task htask
      exact pos_of_check (htasks task ((List.mem_insertionSort _).mp htask))
    have hleast := leastMinutes_perm (List.perm_insertionSort TaskTemplate.notAfter tasks)
    constructor
    · intro hall
      obtain ⟨count, hcount⟩ := exists_least _ 0 hpositive hmaximum
      obtain ⟨carried, hcarried⟩ := hall (List.replicate count oneMinute) (by
        intro work hwork
        rw [List.eq_of_mem_replicate hwork]
        rfl)
      obtain ⟨-, -, hminimum, -⟩ := (buildDay_ok_iff hsunday).mp hcarried
      have hreached := hminimum rfl
      refine Or.inr (Or.inr (hreached.trans ?_))
      rw [← hleast, ← Nat.add_zero (leastMinutes _), ← hcount]
      show totalMinutes _ + 0 + _ ≤ _
      exact Nat.le_refl _
    · rintro (hday | hinterview | hreached) unfinished hwork
      · exact absurd hday hsunday
      · exact absurd rfl hinterview
      · refine ⟨_, (buildDay_ok_iff hsunday).mpr ⟨hchecks, hfits unfinished, ?_, rfl⟩⟩
        intro _
        have hresolved := leastMinutes_le_resolved budget.maximumMinutes 0 0 hpositive
          fun work hmem => work_pos_of_check (hwork work hmem)
        rw [hleast] at hresolved
        exact hreached.trans hresolved
  · constructor
    · intro _
      exact Or.inr (Or.inl hnone)
    · intro _ unfinished _
      exact ⟨_, (buildDay_ok_iff hsunday).mpr ⟨hchecks, hfits unfinished,
        fun hempty => absurd hempty hnone, rfl⟩⟩

/-- An interview lifts the minimum of the day. -/
theorem carried_work_plannable_iff_sample :
    (∀ unfinished : List UnfinishedWork, (∀ work ∈ unfinished, work.check = .ok ()) →
        ∃ carried, buildDay 1 (some 1) slottedTasks [] unfinished (budgetFor 1) = .ok carried) ↔
      (budgetFor 1).dayType = .sunday ∨ ([] : List InterviewCommitment) ≠ [] ∨
        (budgetFor 1).acceptableMinimum ≤ leastMinutes slottedTasks :=
  carried_work_plannable_iff (by decide)
    (show buildDay 1 (some 1) slottedTasks [] [] (budgetFor 1) = .ok slottedPlan from rfl)

/-- Twenty minutes of work replace the slot of forty, and the weekday falls
below its minimum of 225. -/
theorem carried_work_unplannable :
    buildDay 1 (some 1) slottedTasks [] [] (budgetFor 1) = .ok slottedPlan ∧
      (∀ task ∈ slottedTasks, task.check = .ok ()) ∧ shortWork.check = .ok () ∧
      buildDay 1 (some 1) slottedTasks [] [shortWork] (budgetFor 1) =
        .error (.schedulePolicy "weekday plan must include at least 225 minutes") :=
  ⟨rfl, by decide, rfl, rfl⟩

/-! ## Taking an interview -/

/-- The block that the fallbacks of an interview leave out. -/
def caseMinutes (tasks : List TaskTemplate) : Nat :=
  totalMinutes (tasks.filter fun task => task.block == "tam_case")

theorem interviewBlocks_short (hshort : ¬35 < minutes) :
    interviewBlocks minutes = ["communication_spoken"] := by
  unfold interviewBlocks
  rw [if_neg hshort, if_neg (by omega)]
  rfl

/-- Room is made for an interview, or only a case is left that it does not
touch. -/
theorem replaceForInterviews_fits_iff (hmins : minutes ≠ 0)
    (hblks : ∀ task ∈ tasks, ∃ block : ActivityBlock, task.block = block.text) :
    totalMinutes (replaceForInterviews tasks minutes maximum) + min minutes maximum ≤ maximum ↔
      35 < minutes ∨ caseMinutes tasks + min minutes maximum ≤ maximum := by
  obtain ⟨removed, hsub, heq, hend⟩ := replaceForInterviews_eq tasks maximum hmins
  by_cases hlong : 35 < minutes
  · simp only [hlong, true_or, iff_true]
    rcases hend with hfits | hall
    · exact hfits
    · have hnil : replaceForInterviews tasks minutes maximum = [] := by
        rw [heq, List.filter_eq_nil_iff]
        intro task htask
        obtain ⟨block, hblk⟩ := hblks task htask
        have hmem : task.block ∈ removed := by
          apply hall
          rw [hblk]
          cases block <;> simp [interviewBlocks, fallbackBlocks, ActivityBlock.text, hlong]
        simp [hmem]
      rw [hnil]
      show 0 + min minutes maximum ≤ maximum
      omega
  · simp only [hlong, false_or]
    rw [interviewBlocks_short hlong] at hsub hend
    have hkept : "tam_case" ∉ removed := by
      intro hmem
      exact absurd (hsub hmem) (by decide)
    have hcase : (replaceForInterviews tasks minutes maximum).filter
        (fun task => task.block == "tam_case") =
          tasks.filter fun task => task.block == "tam_case" := by
      rw [heq, List.filter_filter]
      apply List.filter_congr
      intro task _
      by_cases hblk : task.block = "tam_case" <;> simp [hblk, hkept]
    have hle : caseMinutes tasks ≤ totalMinutes (replaceForInterviews tasks minutes maximum) := by
      unfold caseMinutes
      rw [← hcase]
      exact totalMinutes_filter_le _
    constructor
    · intro hfits
      omega
    · intro hroom
      rcases hend with hfits | hall
      · exact hfits
      · have hrest : replaceForInterviews tasks minutes maximum =
            tasks.filter fun task => task.block == "tam_case" := by
          rw [heq]
          apply List.filter_congr
          intro task htask
          obtain ⟨block, hblk⟩ := hblks task htask
          have hmem : task.block ≠ "tam_case" → task.block ∈ removed := by
            intro hne
            apply hall
            rw [hblk] at hne ⊢
            cases block <;> simp [fallbackBlocks, ActivityBlock.text] at hne ⊢
          by_cases hcase : task.block = "tam_case"
          · simp [hcase, hkept]
          · simp [hcase, hmem hcase]
        rw [hrest]
        exact hroom

/-- A study day that can be planned without interviews can be planned with
them, exactly when they are long enough to remove the case or leave room for it. -/
theorem interview_plannable_iff (hstudy : budget.dayType ≠ .sunday)
    (hblocks : ∀ task ∈ tasks, ∃ block : ActivityBlock, task.block = block.text)
    (h : buildDay localDate curriculumDay tasks [] [] budget = .ok plan)
    (hinterviews : interviews ≠ []) :
    (∃ replaced, buildDay localDate curriculumDay tasks interviews [] budget = .ok replaced) ↔
      35 < (interviews.map InterviewCommitment.minutes).sum ∨
        caseMinutes tasks + countedMinutes interviews budget ≤ budget.maximumMinutes := by
  obtain ⟨hchecks, hmaximum, -, -⟩ := (buildDay_ok_iff hstudy).mp h
  have hperm := List.perm_insertionSort TaskTemplate.notAfter tasks
  have hcase : caseMinutes (tasks.insertionSort TaskTemplate.notAfter) = caseMinutes tasks :=
    totalMinutes_perm (hperm.filter _)
  have hplannable : (∃ replaced,
      buildDay localDate curriculumDay tasks interviews [] budget = .ok replaced) ↔
        totalMinutes (afterInterviews tasks interviews budget) +
          countedMinutes interviews budget ≤ budget.maximumMinutes := by
    constructor
    · rintro ⟨replaced, hreplaced⟩
      exact ((buildDay_ok_iff hstudy).mp hreplaced).2.1
    · intro hfits
      exact ⟨_, (buildDay_ok_iff hstudy).mpr
        ⟨hchecks, hfits, fun hempty => absurd hempty hinterviews, rfl⟩⟩
  rw [hplannable]
  by_cases hminutes : (interviews.map InterviewCommitment.minutes).sum = 0
  · -- Interviews of no minutes leave the day as it was.
    have hsame : afterInterviews tasks interviews budget =
        tasks.insertionSort TaskTemplate.notAfter := by
      unfold afterInterviews
      rw [hminutes]
      rfl
    have htotal : totalMinutes (tasks.insertionSort TaskTemplate.notAfter) ≤
        budget.maximumMinutes := Nat.le_of_add_right_le hmaximum
    have hle : caseMinutes tasks ≤ totalMinutes (tasks.insertionSort TaskTemplate.notAfter) := by
      rw [← hcase]
      exact totalMinutes_filter_le _
    have hcounted : countedMinutes interviews budget = 0 := by
      unfold countedMinutes
      rw [hminutes, Nat.zero_min]
    rw [hsame, hcounted]
    omega
  · rw [← hcase]
    apply replaceForInterviews_fits_iff hminutes
    intro task htask
    exact hblocks task (hperm.mem_iff.mp htask)

def caseTasks : List TaskTemplate :=
  [sampleTask 1 "tam_case" 120 none, sampleTask 2 "tam_case" 120 none]

/-- An interview of an hour removes the cases. -/
theorem interview_plannable_iff_sample :
    (∃ replaced, buildDay 1 (some 1) caseTasks [⟨4, 60⟩] [] (budgetFor 1) = .ok replaced) ↔
      35 < ([⟨4, 60⟩].map InterviewCommitment.minutes).sum ∨
        caseMinutes caseTasks + countedMinutes [⟨4, 60⟩] (budgetFor 1) ≤
          (budgetFor 1).maximumMinutes :=
  interview_plannable_iff (by decide)
    (by
      intro task htask
      refine ⟨.tamCase, ?_⟩
      simp only [caseTasks, List.mem_cons, List.not_mem_nil, or_false] at htask
      rcases htask with rfl | rfl <;> rfl)
    (show buildDay 1 (some 1) caseTasks [] [] (budgetFor 1) =
      .ok ⟨1, some 1, .weekday, caseTasks, 0, 240, []⟩ from rfl)
    (by decide)

/-- Half an hour of interview leaves both cases in place and the day too long. -/
theorem interview_unplannable :
    buildDay 1 (some 1) caseTasks [] [] (budgetFor 1) =
        .ok ⟨1, some 1, .weekday, caseTasks, 0, 240, []⟩ ∧
      (∀ task ∈ caseTasks, task.check = .ok ()) ∧
      InterviewCommitment.check ⟨4, 30⟩ = .ok () ∧
      buildDay 1 (some 1) caseTasks [⟨4, 30⟩] [] (budgetFor 1) =
        .error (.timePolicy "weekday study cannot exceed 255 minutes") :=
  ⟨rfl, by decide, rfl, rfl⟩

end TamForge.Learning
