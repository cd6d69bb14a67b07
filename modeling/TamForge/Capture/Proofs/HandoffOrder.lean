import TamForge.Capture.Handoff

/-!
# The order that the handoff keeps

Refusing a sample and recording what was dropped are two calls, and a batch
lists its samples before its dropped intervals.  So the items of a track leave
in time order exactly in the runs where no sample is accepted while a dropped
interval of its track is waiting; and that is so when no batch is taken between
a refusal and its record.
-/

namespace TamForge.Capture

open ProofSupport

variable {s s' : HandoffState} {event : HandoffEvent} {sample : RetainedAudioSample}
  {track : RecordingTrackKind} {capacity : Nat} {queue : HandoffQueue}
  {trace : List (Transition HandoffState HandoffEvent)}

/-! ## Items of a track -/

namespace HandoffState

def front (s : HandoffState) (track : RecordingTrackKind) : List CaptureHandoff :=
  s.batches.flatten.filter (·.track = track) ++
    (s.queue.retained.filter (·.track = track)).map .retained

def itemsOf (s : HandoffState) (track : RecordingTrackKind) : List CaptureHandoff :=
  s.front track ++ (s.queue.droppedByTrack track).toList.map .dropped

end HandoffState

def accounts (sample : RetainedAudioSample) : CaptureHandoff → Bool
  | .retained other => decide (other = sample)
  | .dropped interval => decide (interval.startPresentationNanoseconds ≤ sample.start) &&
      decide (sample.stop ≤ interval.endPresentationNanoseconds)

def Precedes (first second : CaptureHandoff) : Prop := first.stop ≤ second.start

/-- Items of a track leave in time order, every sample is exactly one of them or covered
by exactly one, and nothing waits in an open queue without a drain. -/
structure HandoffSound (s : HandoffState) : Prop where
  ordered : ∀ track, (s.itemsOf track).Pairwise Precedes
  once : ∀ sample ∈ s.offered, s.phase ≠ .refused sample →
    ((s.itemsOf sample.track).filter (accounts sample)).length = 1
  awake : s.queue.closed = false → s.queue.isEmpty = false →
    s.phase = .scheduling ∨ s.queue.drainScheduled = true ∧ (0 < s.blocks ∨ s.draining = true)

/-- No sample is accepted while a dropped interval of its track is waiting. -/
def InTurn (s : HandoffState) : HandoffEvent → Prop
  | .offer sample => (s.queue.offer sample).1 = .accepted →
      s.queue.droppedByTrack sample.track = none
  | .record | .schedule | .close | .finish | .startDrain | .take => True

structure HandoffInv (s : HandoffState) : Prop where
  tracked : ∀ track interval, s.queue.droppedByTrack track = some interval →
    interval.track = track
  lasts : ∀ track, ∀ item ∈ s.itemsOf track, item.start < item.stop
  bounded : ∀ track, ∀ item ∈ s.itemsOf track,
    ∃ sample ∈ s.offered, sample.track = track ∧ item.stop ≤ sample.stop
  refused : ∀ sample, s.phase = .refused sample → s.queue.closed = false ∧ sample ∈ s.offered ∧
    ∀ item ∈ s.itemsOf sample.track, item.stop ≤ sample.start
  accounted : ∀ sample ∈ s.offered, s.phase ≠ .refused sample →
    ∃ item ∈ s.itemsOf sample.track, accounts sample item = true
  working : s.queue.drainScheduled = true → 0 < s.blocks ∨ s.draining = true
  scheduled : s.queue.closed = false → s.queue.isEmpty = false →
    s.phase = .scheduling ∨ s.queue.drainScheduled = true

theorem handoffInv_init : HandoffInv (.init capacity) where
  tracked := by simp [HandoffState.init, HandoffQueue.init]
  lasts := by simp [HandoffState.init, HandoffQueue.init, HandoffState.itemsOf, HandoffState.front]
  bounded := by simp [HandoffState.init, HandoffQueue.init, HandoffState.itemsOf, HandoffState.front]
  refused := by simp [HandoffState.init]
  accounted := by simp [HandoffState.init]
  working := by simp [HandoffState.init, HandoffQueue.init]
  scheduled := by simp [HandoffState.init, HandoffQueue.init, HandoffQueue.isEmpty]

/-! ## The queue operations -/

theorem offer_accepted (h : s.queue.offer sample = (.accepted, queue)) :
    s.queue.closed = false ∧ s.queue.retained.length < s.queue.capacity ∧
      queue = { s.queue with retained := s.queue.retained ++ [sample] } := by
  unfold HandoffQueue.offer at h
  split at h
  · cases h
  rename_i hopen
  split at h
  · rename_i hroom
    cases h
    exact ⟨Bool.eq_false_iff.mpr hopen, hroom, rfl⟩
  · cases h

theorem offer_full (h : s.queue.offer sample = (.full, queue)) :
    s.queue.closed = false ∧ s.queue.capacity ≤ s.queue.retained.length ∧ queue = s.queue := by
  unfold HandoffQueue.offer at h
  split at h
  · cases h
  rename_i hopen
  split at h
  · cases h
  rename_i hroom
  cases h
  exact ⟨Bool.eq_false_iff.mpr hopen, Nat.not_lt.mp hroom, rfl⟩

theorem offer_closed (h : s.queue.offer sample = (.closed, queue)) :
    s.queue.closed = true ∧ queue = s.queue := by
  unfold HandoffQueue.offer at h
  split at h
  · rename_i hclos
    cases h
    exact ⟨hclos, rfl⟩
  split at h <;> cases h

def recordedInterval (queue : HandoffQueue) (sample : RetainedAudioSample) :
    RecordingDroppedSourceInterval :=
  ((queue.droppedByTrack sample.track).map (·.merged sample.interval)).getD sample.interval

theorem record_open (hopen : s.queue.closed = false) :
    s.queue.record sample.range = (true, { s.queue with
      droppedByTrack := fun track =>
        if track = sample.track then some (recordedInterval s.queue sample)
        else s.queue.droppedByTrack track }) := by
  simp only [HandoffQueue.record, sample.interval_eq, hopen]
  rfl

theorem filter_droppedIntervals (htracked : ∀ track interval,
      queue.droppedByTrack track = some interval → interval.track = track) :
    (queue.droppedIntervals.map CaptureHandoff.dropped).filter (·.track = track) =
      (queue.droppedByTrack track).toList.map .dropped := by
  have hmic := htracked .microphone
  have hsys := htracked .systemAudio
  unfold HandoffQueue.droppedIntervals
  cases hm : queue.droppedByTrack .microphone with
  | none =>
    cases hs : queue.droppedByTrack .systemAudio with
    | none => cases track <;> simp [hm, hs]
    | some second =>
      have hsec := hsys second hs
      cases track <;> simp [hm, hs, CaptureHandoff.track, CaptureHandoff.interval, hsec]
  | some first =>
    have hfst := hmic first hm
    cases hs : queue.droppedByTrack .systemAudio with
    | none => cases track <;> simp [hm, hs, CaptureHandoff.track, CaptureHandoff.interval, hfst]
    | some second =>
      have hsec := hsys second hs
      dsimp only
      split <;> cases track <;>
        simp [hm, hs, CaptureHandoff.track, CaptureHandoff.interval, hfst, hsec]

theorem filter_retained (samples : List RetainedAudioSample) :
    (samples.map CaptureHandoff.retained).filter (·.track = track) =
      (samples.filter (·.track = track)).map .retained := by
  rw [List.filter_map]
  rfl

theorem itemsOf_taken {batch : List CaptureHandoff} (hinv : HandoffInv s)
    (h : s.queue.takeDrainBatch = (some batch, queue)) :
    HandoffState.itemsOf { s with queue := queue, batches := s.batches ++ [batch] } track =
      s.itemsOf track := by
  unfold HandoffQueue.takeDrainBatch at h
  split at h
  · cases h
  cases h
  simp only [HandoffState.itemsOf, HandoffState.front, List.flatten_append, List.flatten_cons,
    List.flatten_nil, List.append_nil, List.filter_append, filter_retained,
    filter_droppedIntervals hinv.tracked, List.filter_nil, List.map_nil, Option.toList_none,
    List.append_assoc]

/-! ## Accepting and recording -/

def withSample (s : HandoffState) (sample : RetainedAudioSample) : HandoffState :=
  { s with
    queue := { s.queue with retained := s.queue.retained ++ [sample] }
    phase := .scheduling
    offered := s.offered ++ [sample] }

theorem itemsOf_withSample : (withSample s sample).itemsOf track = s.front track ++
    (if sample.track = track then [.retained sample] else []) ++
      (s.queue.droppedByTrack track).toList.map .dropped := by
  by_cases htrack : sample.track = track
  · simp [withSample, HandoffState.itemsOf, HandoffState.front, List.filter_append, htrack]
  · simp [withSample, HandoffState.itemsOf, HandoffState.front, List.filter_append, htrack]

variable {item : CaptureHandoff}

theorem mem_itemsOf_withSample :
    item ∈ (withSample s sample).itemsOf track ↔
      item ∈ s.itemsOf track ∨ sample.track = track ∧ item = .retained sample := by
  rw [itemsOf_withSample, HandoffState.itemsOf, List.mem_append, List.mem_append, List.mem_append]
  by_cases htrack : sample.track = track
  · rw [if_pos htrack, List.mem_singleton]
    constructor
    · rintro ((hfront | hsample) | hdrop)
      · exact Or.inl (Or.inl hfront)
      · exact Or.inr ⟨htrack, hsample⟩
      · exact Or.inl (Or.inr hdrop)
    · rintro ((hfront | hdrop) | ⟨-, hsample⟩)
      · exact Or.inl (Or.inl hfront)
      · exact Or.inr hdrop
      · exact Or.inl (Or.inr hsample)
  · rw [if_neg htrack]
    simp [htrack]

def withRecord (s : HandoffState) (sample : RetainedAudioSample) : HandoffState :=
  { s with
    queue := { s.queue with
      droppedByTrack := fun track =>
        if track = sample.track then some (recordedInterval s.queue sample)
        else s.queue.droppedByTrack track }
    phase := .scheduling }

theorem itemsOf_withRecord : (withRecord s sample).itemsOf track = s.front track ++
    (if track = sample.track then [.dropped (recordedInterval s.queue sample)]
      else (s.queue.droppedByTrack track).toList.map .dropped) := by
  by_cases htrack : track = sample.track
  · simp [withRecord, HandoffState.itemsOf, HandoffState.front, htrack]
  · simp [withRecord, HandoffState.itemsOf, HandoffState.front, htrack]

theorem front_mem_itemsOf (h : item ∈ s.front track) : item ∈ s.itemsOf track :=
  List.mem_append_left _ h

theorem dropped_mem_itemsOf {interval : RecordingDroppedSourceInterval}
    (h : s.queue.droppedByTrack track = some interval) : .dropped interval ∈ s.itemsOf track := by
  simp [HandoffState.itemsOf, h]

theorem recordedInterval_covers :
    (recordedInterval s.queue sample).startPresentationNanoseconds ≤ sample.start ∧
      sample.stop ≤ (recordedInterval s.queue sample).endPresentationNanoseconds ∧
      ∀ interval, s.queue.droppedByTrack sample.track = some interval →
        (recordedInterval s.queue sample).startPresentationNanoseconds ≤
            interval.startPresentationNanoseconds ∧
          interval.endPresentationNanoseconds ≤
            (recordedInterval s.queue sample).endPresentationNanoseconds := by
  unfold recordedInterval RetainedAudioSample.start RetainedAudioSample.stop
  cases hold : s.queue.droppedByTrack sample.track with
  | none => simp
  | some interval =>
    simp only [Option.map_some, Option.getD_some, RecordingDroppedSourceInterval.merged]
    refine ⟨by omega, by omega, ?_⟩
    rintro _ ⟨⟩
    omega

theorem recordedInterval_ends (href : ∀ item ∈ s.itemsOf sample.track,
      item.stop ≤ sample.start) :
    (recordedInterval s.queue sample).endPresentationNanoseconds = sample.stop ∧
      ∀ bound, bound ≤ sample.start → (∀ interval,
        s.queue.droppedByTrack sample.track = some interval →
          bound ≤ interval.startPresentationNanoseconds) →
        bound ≤ (recordedInterval s.queue sample).startPresentationNanoseconds := by
  have hlasts := sample.lasts
  unfold recordedInterval
  cases hold : s.queue.droppedByTrack sample.track with
  | none =>
    refine ⟨rfl, ?_⟩
    intro bound hbound _
    exact hbound
  | some interval =>
    have hend : interval.endPresentationNanoseconds ≤ sample.start :=
      href _ (dropped_mem_itemsOf hold)
    simp only [Option.map_some, Option.getD_some, RecordingDroppedSourceInterval.merged]
    unfold RetainedAudioSample.start RetainedAudioSample.stop at *
    refine ⟨by omega, ?_⟩
    intro bound hbound hall
    have hivl := hall interval rfl
    omega

theorem mem_itemsOf_withRecord (h : item ∈ (withRecord s sample).itemsOf track) :
    item ∈ s.itemsOf track ∨
      track = sample.track ∧ item = .dropped (recordedInterval s.queue sample) := by
  rw [itemsOf_withRecord, List.mem_append] at h
  rcases h with hfront | hdrop
  · exact Or.inl (front_mem_itemsOf hfront)
  · split at hdrop
    · rename_i htrack
      exact Or.inr ⟨htrack, List.mem_singleton.mp hdrop⟩
    · exact Or.inl (List.mem_append_right _ hdrop)

theorem HandoffInv.withSample (hinv : HandoffInv s) (hidle : s.phase = .idle) :
    HandoffInv (withSample s sample) where
  tracked := hinv.tracked
  lasts := by
    intro track item hitem
    rcases mem_itemsOf_withSample.mp hitem with hold | ⟨-, rfl⟩
    · exact hinv.lasts track item hold
    · exact sample.lasts
  bounded := by
    intro track item hitem
    rcases mem_itemsOf_withSample.mp hitem with hold | ⟨htrack, rfl⟩
    · obtain ⟨earl, hearl, hbound⟩ := hinv.bounded track item hold
      exact ⟨earl, List.mem_append_left _ hearl, hbound⟩
    · exact ⟨sample, by simp [Capture.withSample], htrack, Int.le_refl _⟩
  refused := by
    intro other hph
    cases hph
  accounted := by
    intro other ho _
    rcases List.mem_append.mp ho with hold | hnew
    · obtain ⟨item, hitem, haccounts⟩ := hinv.accounted other hold (by rw [hidle]; simp)
      exact ⟨item, mem_itemsOf_withSample.mpr (Or.inl hitem), haccounts⟩
    · obtain rfl := List.mem_singleton.mp hnew
      exact ⟨.retained other, mem_itemsOf_withSample.mpr (Or.inr ⟨rfl, rfl⟩), by simp [accounts]⟩
  working := hinv.working
  scheduled := fun _ _ => Or.inl rfl

theorem HandoffInv.withRecord (hinv : HandoffInv s) (hph : s.phase = .refused sample) :
    HandoffInv (withRecord s sample) := by
  obtain ⟨hopen, hoffered, href⟩ := hinv.refused sample hph
  obtain ⟨hstart, hstop, hcov⟩ := @recordedInterval_covers s sample
  have hrecd : CaptureHandoff.dropped (recordedInterval s.queue sample) ∈
      (Capture.withRecord s sample).itemsOf sample.track := by
    rw [itemsOf_withRecord, if_pos rfl]
    simp
  refine ⟨?_, ?_, ?_, ?_, ?_, hinv.working, fun _ _ => Or.inl rfl⟩
  · intro track interval hivl
    change (if track = sample.track then some (recordedInterval s.queue sample)
      else s.queue.droppedByTrack track) = some interval at hivl
    split at hivl
    · rename_i htrack
      cases hivl
      rw [htrack]
      unfold recordedInterval
      cases hold : s.queue.droppedByTrack sample.track with
      | none => rfl
      | some old => exact hinv.tracked _ old hold
    · exact hinv.tracked track interval hivl
  · intro track item hitem
    rcases mem_itemsOf_withRecord hitem with hold | ⟨-, rfl⟩
    · exact hinv.lasts track item hold
    · have hlasts : sample.start < sample.stop := sample.lasts
      change (recordedInterval s.queue sample).startPresentationNanoseconds <
        (recordedInterval s.queue sample).endPresentationNanoseconds
      omega
  · intro track item hitem
    rcases mem_itemsOf_withRecord hitem with hold | ⟨htrack, rfl⟩
    · exact hinv.bounded track item hold
    · exact ⟨sample, hoffered, htrack.symm, Int.le_of_eq (recordedInterval_ends href).1⟩
  · intro other ho
    cases ho
  · intro other ho _
    by_cases hself : other = sample
    · subst hself
      refine ⟨_, hrecd, ?_⟩
      simp [accounts, hstart, hstop]
    · have hsetl : s.phase ≠ .refused other := by
        rw [hph]
        intro hsame
        exact hself (CallbackPhase.refused.inj hsame).symm
      obtain ⟨item, hitem, haccounts⟩ := hinv.accounted other ho hsetl
      rcases List.mem_append.mp hitem with hfront | hdrop
      · refine ⟨item, ?_, haccounts⟩
        rw [itemsOf_withRecord]
        exact List.mem_append_left _ hfront
      · by_cases htrack : other.track = sample.track
        · -- the interval that covered it was merged into the one recorded
          obtain ⟨interval, hivl, rfl⟩ := List.mem_map.mp hdrop
          have hold : s.queue.droppedByTrack sample.track = some interval := by
            rw [← htrack]
            simpa using hivl
          obtain ⟨hstart', hstop'⟩ := hcov interval hold
          refine ⟨.dropped (recordedInterval s.queue sample), by rw [htrack]; exact hrecd, ?_⟩
          simp only [accounts, Bool.and_eq_true, decide_eq_true_eq] at haccounts ⊢
          omega
        · refine ⟨item, ?_, haccounts⟩
          rw [itemsOf_withRecord, if_neg htrack]
          exact List.mem_append_right _ hdrop

theorem HandoffStep.inv (h : HandoffStep s event s') (hinv : HandoffInv s) : HandoffInv s' := by
  cases h with
  | accepted hidle hlat hoffer =>
    obtain ⟨-, -, rfl⟩ := offer_accepted hoffer
    exact hinv.withSample hidle
  | @full sample queue hidle hlat hoffer =>
    obtain ⟨hopen, hfull, rfl⟩ := offer_full hoffer
    refine ⟨hinv.tracked, hinv.lasts, ?_, ?_, ?_, hinv.working, ?_⟩
    · intro track item hitem
      obtain ⟨earl, hearl, hbound⟩ := hinv.bounded track item hitem
      exact ⟨earl, List.mem_append_left _ hearl, hbound⟩
    · intro other ho
      cases ho
      refine ⟨hopen, by simp, ?_⟩
      intro item hitem
      obtain ⟨earl, hearl, htrack, hbound⟩ := hinv.bounded _ item hitem
      have hfollows := hlat earl hearl htrack
      omega
    · intro other ho hsetl
      rcases List.mem_append.mp ho with hold | hnew
      · exact hinv.accounted other hold (by rw [hidle]; simp)
      · obtain rfl := List.mem_singleton.mp hnew
        exact absurd rfl hsetl
    · intro hopen' hne
      rcases hinv.scheduled hopen' hne with hscheduling | hschedd
      · rw [hidle] at hscheduling
        cases hscheduling
      · exact Or.inr hschedd
  | refusedClosed hidle hoffer =>
    obtain ⟨-, rfl⟩ := offer_closed hoffer
    exact hinv
  | recorded hph hrec =>
    obtain ⟨hopen, -⟩ := hinv.refused _ hph
    rw [record_open hopen] at hrec
    cases hrec
    exact hinv.withRecord hph
  | unrecorded hph hrec =>
    obtain ⟨hopen, -⟩ := hinv.refused _ hph
    rw [record_open hopen] at hrec
    cases hrec
  | scheduled hph hsched =>
    unfold HandoffQueue.scheduleDrainIfNeeded at hsched
    split at hsched
    · cases hsched
    cases hsched
    refine ⟨hinv.tracked, hinv.lasts, hinv.bounded, by simp, ?_, ?_, ?_⟩
    · intro other ho _
      exact hinv.accounted other ho (by rw [hph]; simp)
    · exact fun _ => Or.inl (Nat.succ_pos _)
    · exact fun _ _ => Or.inr rfl
  | unscheduled hph hsched =>
    unfold HandoffQueue.scheduleDrainIfNeeded at hsched
    split at hsched
    · rename_i hbusy
      cases hsched
      refine ⟨hinv.tracked, hinv.lasts, hinv.bounded, by simp, ?_, hinv.working, ?_⟩
      · intro other ho _
        exact hinv.accounted other ho (by rw [hph]; simp)
      · intro hopen _
        rw [hopen, Bool.false_or] at hbusy
        exact Or.inr hbusy
    · cases hsched
  | close hidle =>
    refine ⟨hinv.tracked, hinv.lasts, hinv.bounded, ?_, hinv.accounted, hinv.working, ?_⟩
    · intro other ho
      rw [hidle] at ho
      cases ho
    · intro hopen
      cases hopen
  | finish hclos =>
    refine ⟨hinv.tracked, hinv.lasts, hinv.bounded, hinv.refused, hinv.accounted,
      fun _ => Or.inl (Nat.succ_pos _), hinv.scheduled⟩
  | startDrain hfree hblks =>
    exact ⟨hinv.tracked, hinv.lasts, hinv.bounded, hinv.refused, hinv.accounted,
      fun _ => Or.inr rfl, hinv.scheduled⟩
  | @taken batch queue hdraining htake =>
    have hitems := fun track => @itemsOf_taken s track _ _ hinv htake
    unfold HandoffQueue.takeDrainBatch at htake
    split at htake
    · cases htake
    cases htake
    refine ⟨by simp, ?_, ?_, ?_, ?_, fun _ => Or.inr hdraining, ?_⟩
    · intro track item hitem
      rw [hitems] at hitem
      exact hinv.lasts track item hitem
    · intro track item hitem
      rw [hitems] at hitem
      exact hinv.bounded track item hitem
    · intro other ho
      rw [hitems]
      exact hinv.refused other ho
    · intro other ho hsetl
      rw [hitems]
      exact hinv.accounted other ho hsetl
    · intro _ hne
      simp [HandoffQueue.isEmpty] at hne
  | drained hdraining htake =>
    unfold HandoffQueue.takeDrainBatch at htake
    split at htake
    · rename_i hnil
      cases htake
      refine ⟨hinv.tracked, hinv.lasts, hinv.bounded, hinv.refused, hinv.accounted, ?_, ?_⟩
      · intro hschedd
        cases hschedd
      · intro _ hne
        change s.queue.isEmpty = false at hne
        rw [hnil] at hne
        cases hne
    · cases htake

/-! ## Order -/

theorem spans_of_accounts (h : accounts sample item = true) :
    item.start ≤ sample.start ∧ sample.stop ≤ item.stop := by
  cases item with
  | retained other =>
    obtain rfl := of_decide_eq_true h
    exact ⟨Int.le_refl _, Int.le_refl _⟩
  | dropped interval =>
    simp only [accounts, Bool.and_eq_true, decide_eq_true_eq] at h
    exact h

theorem accounts_length_le {items : List CaptureHandoff} (hord : items.Pairwise Precedes) :
    (items.filter (accounts sample)).length ≤ 1 := by
  have hfiltd := hord.filter (accounts sample)
  have hspans : ∀ item ∈ items.filter (accounts sample),
      item.start ≤ sample.start ∧ sample.stop ≤ item.stop :=
    fun item hitem => spans_of_accounts (List.mem_filter.mp hitem).2
  match hitems : items.filter (accounts sample) with
  | [] => simp
  | [_] => simp
  | first :: second :: rest =>
    rw [hitems] at hfiltd hspans
    have hprecedes : first.stop ≤ second.start :=
      (List.pairwise_cons.mp hfiltd).1 second (by simp)
    have hfst := (hspans first (by simp)).2
    have hsec := (hspans second (by simp)).1
    have hlasts : sample.start < sample.stop := sample.lasts
    omega

theorem HandoffInv.sound (hinv : HandoffInv s)
    (hord : ∀ track, (s.itemsOf track).Pairwise Precedes) : HandoffSound s := by
  refine ⟨hord, ?_, ?_⟩
  · intro sample hsample hsetl
    obtain ⟨item, hitem, haccounts⟩ := hinv.accounted sample hsample hsetl
    have hmem := List.mem_filter.mpr ⟨hitem, haccounts⟩
    have hatMost := @accounts_length_le sample _ (hord sample.track)
    have hatLeast := List.length_pos_of_mem hmem
    omega
  · intro hopen hne
    rcases hinv.scheduled hopen hne with hscheduling | hschedd
    · exact Or.inl hscheduling
    · exact Or.inr ⟨hschedd, hinv.working hschedd⟩

theorem ordered_withSample (hinv : HandoffInv s)
    (hord : ∀ track, (s.itemsOf track).Pairwise Precedes)
    (hlat : ∀ earl ∈ s.offered, earl.track = sample.track → earl.stop ≤ sample.start)
    (hturn : s.queue.droppedByTrack sample.track = none) :
    ((withSample s sample).itemsOf track).Pairwise Precedes := by
  rw [itemsOf_withSample]
  by_cases htrack : sample.track = track
  · subst htrack
    have hitems : s.itemsOf sample.track = s.front sample.track := by
      simp [HandoffState.itemsOf, hturn]
    have hfront := hord sample.track
    rw [hitems] at hfront
    rw [if_pos rfl, hturn, Option.toList_none, List.map_nil, List.append_nil, List.pairwise_append]
    refine ⟨hfront, List.pairwise_singleton _ _, ?_⟩
    intro item hitem last hlast
    obtain rfl := List.mem_singleton.mp hlast
    obtain ⟨earl, hearl, hsame, hbound⟩ := hinv.bounded _ item (front_mem_itemsOf hitem)
    exact Int.le_trans hbound (hlat earl hearl hsame)
  · rw [if_neg htrack, List.append_nil]
    exact hord track

theorem ordered_withRecord (hinv : HandoffInv s) (hph : s.phase = .refused sample)
    (hord : ∀ track, (s.itemsOf track).Pairwise Precedes) :
    ((withRecord s sample).itemsOf track).Pairwise Precedes := by
  rw [itemsOf_withRecord]
  by_cases htrack : track = sample.track
  · subst htrack
    obtain ⟨-, -, href⟩ := hinv.refused sample hph
    obtain ⟨hfront, -, hcross⟩ := List.pairwise_append.mp (hord sample.track)
    rw [if_pos rfl, List.pairwise_append]
    refine ⟨hfront, List.pairwise_singleton _ _, ?_⟩
    intro item hitem last hlast
    obtain rfl := List.mem_singleton.mp hlast
    refine (recordedInterval_ends href).2 item.stop
      (href item (front_mem_itemsOf hitem)) ?_
    intro interval hivl
    exact hcross item hitem (.dropped interval) (by simp [hivl])
  · rw [if_neg htrack]
    exact hord track

theorem HandoffStep.ordered (h : HandoffStep s event s') (hinv : HandoffInv s)
    (hord : ∀ track, (s.itemsOf track).Pairwise Precedes) (hturn : InTurn s event) :
    ∀ track, (s'.itemsOf track).Pairwise Precedes := by
  cases h with
  | accepted hidle hlat hoffer =>
    obtain ⟨-, -, rfl⟩ := offer_accepted hoffer
    exact fun track => ordered_withSample hinv hord hlat (hturn (by rw [hoffer]))
  | full hidle hlat hoffer =>
    obtain ⟨-, -, rfl⟩ := offer_full hoffer
    exact hord
  | refusedClosed hidle hoffer =>
    obtain ⟨-, rfl⟩ := offer_closed hoffer
    exact hord
  | recorded hph hrec =>
    obtain ⟨hopen, -⟩ := hinv.refused _ hph
    rw [record_open hopen] at hrec
    cases hrec
    exact fun track => ordered_withRecord hinv hph hord
  | unrecorded hph hrec =>
    obtain ⟨hopen, -⟩ := hinv.refused _ hph
    rw [record_open hopen] at hrec
    cases hrec
  | scheduled hph hsched =>
    unfold HandoffQueue.scheduleDrainIfNeeded at hsched
    split at hsched
    · cases hsched
    · cases hsched
      exact hord
  | unscheduled hph hsched =>
    unfold HandoffQueue.scheduleDrainIfNeeded at hsched
    split at hsched
    · cases hsched
      exact hord
    · cases hsched
  | close _ => exact hord
  | finish _ => exact hord
  | startDrain _ _ => exact hord
  | taken _ htake =>
    intro track
    rw [itemsOf_taken hinv htake]
    exact hord track
  | drained _ htake =>
    unfold HandoffQueue.takeDrainBatch at htake
    split at htake
    · cases htake
      exact hord
    · cases htake

theorem HandoffStep.inTurn (h : HandoffStep s event s') (hinv : HandoffInv s)
    (hsound : HandoffSound s') : InTurn s event := by
  cases event with
  | offer sample =>
    intro hacc
    cases hwait : s.queue.droppedByTrack sample.track with
    | none => rfl
    | some interval =>
      cases h with
      | accepted hidle hlat hoffer =>
        obtain ⟨-, -, rfl⟩ := offer_accepted hoffer
        have hdrop := dropped_mem_itemsOf hwait
        have hord : ((withSample s sample).itemsOf sample.track).Pairwise Precedes :=
          hsound.ordered sample.track
        rw [itemsOf_withSample, if_pos rfl, hwait] at hord
        have hprecedes : sample.stop ≤ interval.startPresentationNanoseconds :=
          (List.pairwise_append.mp hord).2.2 (.retained sample) (by simp)
            (.dropped interval) (by simp)
        obtain ⟨earl, hearl, hsame, hbound⟩ := hinv.bounded _ _ hdrop
        have hfollows := hlat earl hearl hsame
        have hivl := hinv.lasts _ _ hdrop
        have hsample : sample.start < sample.stop := sample.lasts
        simp only [CaptureHandoff.start, CaptureHandoff.stop, CaptureHandoff.interval]
          at hivl hbound
        omega
      | full _ _ hoffer =>
        rw [hoffer] at hacc
        cases hacc
      | refusedClosed _ hoffer =>
        rw [hoffer] at hacc
        cases hacc
  | record => trivial
  | schedule => trivial
  | close => trivial
  | finish => trivial
  | startDrain => trivial
  | take => trivial

theorem handoffInv_of_run (hrun : Run HandoffStep (.init capacity) trace s) : HandoffInv s :=
  hrun.state_invariant handoffInv_init fun _ _ _ hinv h => h.inv hinv

theorem ordered_of_run (hrun : Run HandoffStep (.init capacity) trace s)
    (hturn : ∀ e ∈ trace, InTurn e.before e.label) :
    ∀ track, (s.itemsOf track).Pairwise Precedes := by
  have key : HandoffInv s ∧ ((∀ e ∈ trace, InTurn e.before e.label) →
      ∀ track, (s.itemsOf track).Pairwise Precedes) := by
    refine hrun.invariant (I := fun trace s => HandoffInv s ∧
      ((∀ e ∈ trace, InTurn e.before e.label) → ∀ track, (s.itemsOf track).Pairwise Precedes))
      ⟨handoffInv_init, fun _ _ => List.Pairwise.nil⟩ ?_
    rintro trace s event t ⟨hinv, hord⟩ hstep
    refine ⟨hstep.inv hinv, ?_⟩
    intro hall
    exact hstep.ordered hinv (hord fun e he => hall e (List.mem_append_left _ he))
      (hall ⟨s, event, t⟩ (by simp))
  exact key.2 hturn

def tenMilliseconds (start : Int) (h : fitsInt64 (start + 10000000) = true) :
    RetainedAudioSample where
  range := ⟨.microphone, start, 480, 48000⟩
  interval := ⟨.microphone, start, start + 10000000⟩
  interval_eq := by
    have hdivided : (480 * 1000000000 / 48000 : Int) = 10000000 := by decide
    have hscaled : fitsInt64 (480 * 1000000000) = true := by decide
    have hordered : start ≤ start + 10000000 := by omega
    simp only [RecordingDroppedSourceRange.interval?, hdivided, hscaled, h]
    simp [hordered]
  lasts := by
    change start < start + 10000000
    omega

def firstSample : RetainedAudioSample := tenMilliseconds 0 (by decide)

def secondSample : RetainedAudioSample := tenMilliseconds 10000000 (by decide)

def thirdSample : RetainedAudioSample := tenMilliseconds 20000000 (by decide)

end TamForge.Capture
