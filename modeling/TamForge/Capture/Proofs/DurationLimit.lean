import TamForge.Capture.Recorder

/-!
# What the duration limit costs

Every write that the spool refuses for its range comes from an event that ends
after the last sample of two hours, and such an event is never lost sight of: it
is in the stream, in a gap that waits, or it has made a write fail.  So a
recording that the timer stops is sealed exactly when no event ended there, and
its elapsed time fits exactly when the stop took no time to speak of.
-/

namespace TamForge.Capture

open ProofSupport

/-! ## Conditions on the steps -/

def RecordingCaptureEvent.sampleEnd : RecordingCaptureEvent → Nat
  | .chunk piece => piece.sampleEnd
  | .gap missing => missing.sampleEnd
  | .level _ _ => 0
  | .failure _ => 0

/-- What a source without a failure delivers: chunks of at most a second with
bounded metadata, gaps that are not empty, levels. -/
def Faultless : RecordingCaptureEvent → Prop
  | .chunk chunk => chunk.validated.isOk = true ∧ chunk.sampleCount ≤ canonicalSampleRate ∧
      chunk.source.deviceID.utf8ByteSize ≤ 512 ∧ chunk.source.initialRoute.utf8ByteSize ≤ 512
  | .gap gap => 0 < gap.sampleCount
  | .level _ _ => True
  | .failure _ => False

def Spool.HasRoom (spool : Spool) (gap : RecordingGap) : Prop :=
  spool.gapEntries gap.track < maximumGapEntriesPerTrack ∧ spool.gaps.length < maximumGapEntries

/-- Storage does not fail: the spool stays within its bytes and its entries, and
a dropped gap finds its place among those that wait. -/
def Stores (t : Transition Recorder RecorderEvent) : Prop :=
  match t.label with
  | .yield event => (t.before.yield event).gapWrites.storageFailure =
      t.before.gapWrites.storageFailure
  | .consume (.chunk chunk) =>
    t.before.spool.storedBytes + Spool.recordBytes chunk ≤ maximumRecordingBytes
  | .consume (.gap gap) => t.before.spool.HasRoom gap
  | .persist gap => t.before.spool.HasRoom gap
  | _ => True

def Sourced (t : Transition Recorder RecorderEvent) : Prop :=
  match t.label with
  | .yield event => Faultless event
  | _ => True

/-- What passes between the end of the two hours and the reading of the clock
when everything is written. -/
def Recorder.overrun (s : Recorder) : Nat :=
  s.now - (s.startedAt + limitNanoseconds)

/-- The event ends within the two hours; the stop ends within their last
millisecond. -/
def Fits (t : Transition Recorder RecorderEvent) : Prop :=
  match t.label with
  | .yield event => event.sampleEnd ≤ maximumCanonicalSamples
  | .stopped => Spool.milliseconds (t.before.startedAt + t.before.overrun) =
      Spool.milliseconds t.before.startedAt
  | _ => True

/-- The recording is sealed, and its seal command is within the bounds of the
server. -/
def Kept (s : Recorder) : Prop :=
  ∃ startedAt endedAt, s.spool.sealedAt = some (startedAt, endedAt) ∧
    s.spool.withinServerBounds startedAt endedAt = true

/-! ## Events beyond the limit -/

def Late (sampleEnd : Nat) : Prop :=
  maximumCanonicalSamples < sampleEnd

/-- An event beyond the limit is on its way to the spool or has made a write fail. -/
def Recorder.Sick (s : Recorder) : Prop :=
  (∃ event ∈ s.stream, Late event.sampleEnd) ∨
    (∃ gap ∈ s.gapWrites.pending, Late gap.sampleEnd) ∨
    (∃ gap ∈ s.gapWrites.batch, Late gap.sampleEnd) ∨
    s.activeStorageFailure = true ∨ s.gapWrites.storageFailure = true

def Brings (t : Transition Recorder RecorderEvent) : Prop :=
  match t.label with
  | .yield event => Late event.sampleEnd
  | _ => False

variable {current next merged : RecordingGap}

theorem merge_sampleEnd (h : current.merge next = some merged) :
    merged.sampleEnd = max current.sampleEnd next.sampleEnd := by
  rw [RecordingGap.merge] at h
  split at h
  · obtain rfl := Option.some.inj h
    simp only [RecordingGap.sampleEnd]
    omega
  · cases h

theorem late_max {a b : Nat} : Late (max a b) ↔ Late a ∨ Late b := by
  simp only [Late]
  omega

theorem exists_mem_append {α : Type} {p : α → Prop} {left right : List α} :
    (∃ item ∈ left ++ right, p item) ↔ (∃ item ∈ left, p item) ∨ ∃ item ∈ right, p item := by
  simp only [List.mem_append, or_and_right, exists_or]

variable {writes : PendingGapWrites} {gap : RecordingGap}

theorem register_sick (hstores : (writes.register gap).storageFailure = writes.storageFailure)
    (hhealthy : writes.storageFailure = false) :
    (writes.register gap).batch = writes.batch ∧
      ((∃ other ∈ (writes.register gap).pending, Late other.sampleEnd) ↔
        (∃ other ∈ writes.pending, Late other.sampleEnd) ∨ Late gap.sampleEnd) := by
  rw [PendingGapWrites.register, hhealthy, if_neg Bool.false_ne_true] at hstores ⊢
  cases hfind : writes.pending.find? fun other =>
      other.track = gap.track && other.reason = gap.reason with
  | none =>
    simp only [hfind] at hstores ⊢
    split
    · refine ⟨rfl, ?_⟩
      simp only [exists_mem_append, List.mem_singleton, exists_eq_left]
    · rename_i hfull
      simp [hfull] at hstores
  | some existing =>
    simp only [hfind] at hstores ⊢
    cases hmerge : existing.merge gap with
    | none => simp [hmerge] at hstores
    | some merged =>
      have hmem := List.mem_of_find?_eq_some hfind
      have hperm := List.perm_cons_erase hmem
      refine ⟨rfl, ?_⟩
      have hold : (∃ other ∈ writes.pending, Late other.sampleEnd) ↔
          Late existing.sampleEnd ∨ ∃ other ∈ writes.pending.erase existing,
            Late other.sampleEnd := by
        simp only [hperm.mem_iff, List.mem_cons, or_and_right, exists_or, exists_eq_left]
      rw [exists_mem_append, hold]
      simp only [List.mem_singleton, exists_eq_left, merge_sampleEnd hmerge, late_max]
      rw [or_assoc]
      exact or_left_comm

/-! ## One step -/

/-- What every state of such a run keeps. -/
structure Recorder.Inv (s : Recorder) : Prop where
  faultless : ∀ event ∈ s.stream, Faultless event
  pendingCounts : ∀ gap ∈ s.gapWrites.pending, 0 < gap.sampleCount
  batchCounts : ∀ gap ∈ s.gapWrites.batch, 0 < gap.sampleCount
  notFatal : s.fatalCaptureFailure = false
  records : ∀ chunk ∈ s.spool.records, chunk.sampleEnd ≤ maximumCanonicalSamples
  gaps : ∀ gap ∈ s.spool.gaps, gap.sampleEnd ≤ maximumCanonicalSamples
  active : (∀ message, s.phase ≠ .needsAttention message) → s.spool.sealedAt = none
  ended : ∀ message, s.phase = .needsAttention message → s.sourceRunning = false ∧ s.stream = []
  overtime : s.phase = .stopping false → s.startedAt + limitNanoseconds ≤ s.now

theorem inv_starting (now : Nat) : (Recorder.starting now).Inv where
  faultless := by simp [Recorder.starting]
  pendingCounts := by simp [Recorder.starting, PendingGapWrites.empty]
  batchCounts := by simp [Recorder.starting, PendingGapWrites.empty]
  notFatal := rfl
  records := by simp [Recorder.starting, Spool.empty]
  gaps := by simp [Recorder.starting, Spool.empty]
  active := fun _ => rfl
  ended := by simp [Recorder.starting]
  overtime := by simp [Recorder.starting]

variable {spool : Spool}

/-- What `append` does with a chunk that a sound source delivers, when there are
bytes left: it refuses a late one. -/
theorem append_spec {chunk : RecordingPCMChunk} (hopen : spool.sealedAt = none)
    (hfaultless : Faultless (.chunk chunk))
    (hbytes : spool.storedBytes + Spool.recordBytes chunk ≤ maximumRecordingBytes) :
    (Late chunk.sampleEnd ∧ spool.append chunk = .error .invalidRecord) ∨
      (¬Late chunk.sampleEnd ∧ spool.append chunk = .ok { spool with
        records := spool.records ++ [chunk]
        storedBytes := spool.storedBytes + Spool.recordBytes chunk }) := by
  obtain ⟨hval, hcnt, hdevice, hroute⟩ := hfaultless
  rw [Spool.append, hopen, hval, if_neg (by simp), if_neg (by simp)]
  by_cases hlate : Late chunk.sampleEnd
  · exact Or.inl ⟨hlate, if_pos (by simp [show maximumCanonicalSamples < chunk.sampleEnd from hlate])⟩
  · have hend : chunk.sampleEnd ≤ maximumCanonicalSamples := Nat.le_of_not_lt hlate
    refine Or.inr ⟨hlate, ?_⟩
    rw [if_neg (by simp; omega), if_neg (by simp; omega), if_neg (by omega)]

theorem record_spec (hopen : spool.sealedAt = none) (hcnt : 0 < gap.sampleCount)
    (hroom : spool.HasRoom gap) :
    (Late gap.sampleEnd ∧ spool.record gap = .error .invalidRecord) ∨
      (¬Late gap.sampleEnd ∧ spool.record gap = .ok { spool with gaps := spool.gaps ++ [gap] }) := by
  obtain ⟨htrack, htot⟩ := hroom
  rw [Spool.record, hopen, if_neg (by simp)]
  by_cases hlate : Late gap.sampleEnd
  · have hrange : ¬ gap.sampleEnd ≤ maximumCanonicalSamples := Nat.not_le_of_lt hlate
    exact Or.inl ⟨hlate, if_neg (by simp [permitsGap, hrange])⟩
  · have hend : gap.sampleEnd ≤ maximumCanonicalSamples := Nat.le_of_not_lt hlate
    exact Or.inr ⟨hlate, if_pos (by simp [permitsGap, hcnt, hend, htrack, htot])⟩

theorem writeFailed_eq (s : Recorder) : s.writeFailed =
    { s with
      activeStorageFailure := true
      phase := if s.phase = .recording then .stopping true else s.phase } := by
  rw [Recorder.writeFailed, Recorder.failActive]
  show (if s.phase = .recording then _ else _) = _
  split <;> rfl

variable {s : Recorder}

theorem Recorder.Inv.writeFailed (h : s.Inv) : s.writeFailed.Inv := by
  rw [writeFailed_eq]
  refine ⟨h.faultless, h.pendingCounts, h.batchCounts, h.notFatal, h.records, h.gaps, ?_, ?_, ?_⟩
  · intro hact
    apply h.active
    intro message hmsg
    exact hact message (by simp [hmsg])
  · intro message hmsg
    apply h.ended message
    simp only at hmsg
    split at hmsg
    · cases hmsg
    · exact hmsg
  · intro hph
    apply h.overtime
    simp only at hph
    split at hph
    · cases hph
    · exact hph

/-- A state whose stream, gaps, phase and clock are those of another one. -/
theorem Recorder.Inv.withSpool (h : s.Inv) (hseal : spool.sealedAt = s.spool.sealedAt)
    (hrecs : ∀ chunk ∈ spool.records, chunk.sampleEnd ≤ maximumCanonicalSamples)
    (hgaps : ∀ gap ∈ spool.gaps, gap.sampleEnd ≤ maximumCanonicalSamples) :
    Recorder.Inv { s with spool := spool } :=
  ⟨h.faultless, h.pendingCounts, h.batchCounts, h.notFatal, hrecs, hgaps,
    fun hact => hseal.trans (h.active hact), h.ended, h.overtime⟩

theorem forall_mem_snoc {α : Type} {p : α → Prop} {items : List α} {item : α}
    (hitems : ∀ other ∈ items, p other) (hitem : p item) : ∀ other ∈ items ++ [item], p other := by
  intro other ho
  rcases List.mem_append.mp ho with hold | hnew
  · exact hitems other hold
  · exact List.mem_singleton.mp hnew ▸ hitem

variable {event : RecordingCaptureEvent}

theorem consume_step {rest : List RecordingCaptureEvent} (h : s.Inv)
    (hstrm : s.stream = event :: rest)
    (hstores : Stores ⟨s, .consume event, Recorder.consume { s with stream := rest } event⟩) :
    (Recorder.consume { s with stream := rest } event).Inv ∧
      ((Recorder.consume { s with stream := rest } event).Sick ↔ s.Sick) := by
  have hfaultless : Faultless event := h.faultless event (by simp [hstrm])
  have hact : ∀ message, s.phase ≠ .needsAttention message := by
    intro message hph
    have hnil := (h.ended message hph).2
    simp [hstrm] at hnil
  have hopen := h.active hact
  have hrest : Recorder.Inv { s with stream := rest } :=
    ⟨fun other ho => h.faultless other (by simp [hstrm, ho]), h.pendingCounts,
      h.batchCounts, h.notFatal, h.records, h.gaps, h.active,
      fun message hph => absurd hph (hact message), h.overtime⟩
  have hsick : s.Sick ↔ Late event.sampleEnd ∨ Recorder.Sick { s with stream := rest } := by
    simp only [Recorder.Sick, hstrm, List.mem_cons, or_and_right, exists_or, exists_eq_left,
      or_assoc]
  rw [hsick]
  have hfailed (hlate : Late event.sampleEnd) (hconsume : Recorder.consume
      { s with stream := rest } event = Recorder.writeFailed { s with stream := rest }) :
      (Recorder.consume { s with stream := rest } event).Inv ∧
        ((Recorder.consume { s with stream := rest } event).Sick ↔
          Late event.sampleEnd ∨ Recorder.Sick { s with stream := rest }) := by
    rw [hconsume]
    refine ⟨hrest.writeFailed, iff_of_true ?_ (Or.inl hlate)⟩
    rw [writeFailed_eq]
    exact Or.inr (Or.inr (Or.inr (Or.inl rfl)))
  cases event with
  | chunk chunk =>
    rcases append_spec hopen hfaultless hstores with ⟨hlate, happ⟩ | ⟨hfits, happ⟩
    · exact hfailed hlate (by simp only [Recorder.consume, happ])
    · simp only [Recorder.consume, happ]
      refine ⟨hrest.withSpool rfl (forall_mem_snoc h.records (Nat.le_of_not_lt hfits)) h.gaps, ?_⟩
      exact ⟨Or.inr, fun hcases => hcases.resolve_left hfits⟩
  | gap gap =>
    rcases record_spec hopen hfaultless hstores with ⟨hlate, hrec⟩ | ⟨hfits, hrec⟩
    · exact hfailed hlate (by simp only [Recorder.consume, hrec])
    · simp only [Recorder.consume, hrec]
      refine ⟨hrest.withSpool rfl h.records (forall_mem_snoc h.gaps (Nat.le_of_not_lt hfits)), ?_⟩
      exact ⟨Or.inr, fun hcases => hcases.resolve_left hfits⟩
  | level track normalized =>
    exact ⟨hrest, Or.inr, fun hcases => hcases.resolve_left (Nat.not_lt_zero _)⟩
  | failure failure => exact hfaultless.elim

theorem persist_step {rest : List RecordingGap} (h : s.Inv)
    (hbatch : s.gapWrites.batch = gap :: rest)
    (hstores : Stores ⟨s, .persist gap, s.persist gap rest⟩) (hopen : s.spool.sealedAt = none) :
    (s.persist gap rest).Inv ∧ ((s.persist gap rest).Sick ↔ s.Sick) := by
  have hcnt : 0 < gap.sampleCount := h.batchCounts gap (by simp [hbatch])
  have hsick : s.Sick ↔ Late gap.sampleEnd ∨
      Recorder.Sick { s with gapWrites := { s.gapWrites with batch := rest } } := by
    simp only [Recorder.Sick, hbatch, List.mem_cons, or_and_right, exists_or, exists_eq_left]
    constructor
    · rintro (hs | hs | (hs | hs) | hs)
      · exact Or.inr (Or.inl hs)
      · exact Or.inr (Or.inr (Or.inl hs))
      · exact Or.inl hs
      · exact Or.inr (Or.inr (Or.inr (Or.inl hs)))
      · exact Or.inr (Or.inr (Or.inr (Or.inr hs)))
    · rintro (hs | hs | hs | hs | hs)
      · exact Or.inr (Or.inr (Or.inl (Or.inl hs)))
      · exact Or.inl hs
      · exact Or.inr (Or.inl hs)
      · exact Or.inr (Or.inr (Or.inl (Or.inr hs)))
      · exact Or.inr (Or.inr (Or.inr hs))
  rw [hsick]
  rcases record_spec hopen hcnt hstores with ⟨hlate, hrec⟩ | ⟨hfits, hrec⟩
  · simp only [Recorder.persist, hrec]
    refine ⟨⟨h.faultless, h.pendingCounts, by simp, h.notFatal, h.records, h.gaps, h.active,
      h.ended, h.overtime⟩, iff_of_true ?_ (Or.inl hlate)⟩
    exact Or.inr (Or.inr (Or.inr (Or.inr rfl)))
  · simp only [Recorder.persist, hrec]
    refine ⟨⟨h.faultless, h.pendingCounts, ?_, h.notFatal, h.records,
      forall_mem_snoc h.gaps (Nat.le_of_not_lt hfits), h.active, h.ended, h.overtime⟩, ?_⟩
    · exact fun other ho => h.batchCounts other (by simp [hbatch, ho])
    · exact ⟨Or.inr, fun hcases => hcases.resolve_left hfits⟩

theorem merge_sampleCount (h : current.merge next = some merged) (hcnt : 0 < current.sampleCount)
    : 0 < merged.sampleCount := by
  rw [RecordingGap.merge] at h
  split at h
  · obtain rfl := Option.some.inj h
    simp only [RecordingGap.sampleEnd]
    omega
  · cases h

theorem register_counts (h : ∀ other ∈ writes.pending, 0 < other.sampleCount)
    (hcnt : 0 < gap.sampleCount) :
    ∀ other ∈ (writes.register gap).pending, 0 < other.sampleCount := by
  rw [PendingGapWrites.register]
  split
  · exact h
  · split
    · rename_i existing hfind
      split
      · rename_i merged hmerge
        have hold := h existing (List.mem_of_find?_eq_some hfind)
        have hrest : ∀ other ∈ writes.pending.erase existing, 0 < other.sampleCount :=
          fun other ho => h other (List.mem_of_mem_erase ho)
        exact forall_mem_snoc hrest (merge_sampleCount hmerge hold)
      · exact h
    · split
      · exact forall_mem_snoc h hcnt
      · exact h

theorem register_failed (gap : RecordingGap) (hfailed : writes.storageFailure = true) :
    writes.register gap = writes := by
  rw [PendingGapWrites.register, if_pos hfailed]

theorem register_batch (writes : PendingGapWrites) (gap : RecordingGap) :
    (writes.register gap).batch = writes.batch := by
  rw [PendingGapWrites.register]
  split
  · rfl
  · split
    · split <;> rfl
    · split <;> rfl

/-- The gap that a dropped event of a sound source leaves ends where the event
does. -/
theorem droppedGap_spec (h : Faultless event) :
    (∃ gap, droppedGap event = some gap ∧ gap.sampleEnd = event.sampleEnd ∧
        0 < gap.sampleCount) ∨
      (droppedGap event = none ∧ ¬Late event.sampleEnd) := by
  cases event with
  | chunk chunk =>
    refine Or.inl ⟨_, rfl, rfl, ?_⟩
    obtain ⟨⟨⟩, hval⟩ := exists_ok_of_isOk h.1
    have hchk := raiseFirst_eq_ok.mp hval _ (List.mem_cons_self)
    have hne : chunk.sampleCount ≠ 0 := by simpa using hchk
    exact Nat.pos_of_ne_zero hne
  | gap gap => exact Or.inl ⟨gap, rfl, rfl, h⟩
  | level track normalized => exact Or.inr ⟨rfl, Nat.not_lt_zero _⟩
  | failure failure => exact h.elim

theorem register_step (hcnt : 0 < gap.sampleCount) (h : s.Inv)
    (hstores : (s.gapWrites.register gap).storageFailure = s.gapWrites.storageFailure) :
    Recorder.Inv { s with gapWrites := s.gapWrites.register gap } ∧
      (Recorder.Sick { s with gapWrites := s.gapWrites.register gap } ↔
        s.Sick ∨ Late gap.sampleEnd) := by
  refine ⟨⟨h.faultless, register_counts h.pendingCounts hcnt, ?_, h.notFatal, h.records, h.gaps,
    h.active, h.ended, h.overtime⟩, ?_⟩
  · rw [register_batch]
    exact h.batchCounts
  · cases hfailed : s.gapWrites.storageFailure with
    | true =>
      have hsick : s.Sick := Or.inr (Or.inr (Or.inr (Or.inr hfailed)))
      rw [register_failed gap hfailed]
      exact iff_of_true hsick (Or.inl hsick)
    | false =>
      obtain ⟨hbatch, hpend⟩ := register_sick hstores hfailed
      simp only [Recorder.Sick, hbatch, hpend, hstores, hfailed]
      constructor
      · rintro (hs | (hs | hs) | hs | hs)
        · exact Or.inl (Or.inl hs)
        · exact Or.inl (Or.inr (Or.inl hs))
        · exact Or.inr hs
        · exact Or.inl (Or.inr (Or.inr (Or.inl hs)))
        · exact Or.inl (Or.inr (Or.inr (Or.inr hs)))
      · rintro ((hs | hs | hs | hs) | hs)
        · exact Or.inl hs
        · exact Or.inr (Or.inl (Or.inl hs))
        · exact Or.inr (Or.inr (Or.inl hs))
        · exact Or.inr (Or.inr (Or.inr hs))
        · exact Or.inr (Or.inl (Or.inr hs))

theorem yield_step (h : s.Inv) (hrun : s.sourceRunning = true) (hfaultless : Faultless event)
    (hstores : Stores ⟨s, .yield event, s.yield event⟩) :
    (s.yield event).Inv ∧ ((s.yield event).Sick ↔ s.Sick ∨ Late event.sampleEnd) := by
  have hstores' : (s.yield event).gapWrites.storageFailure = s.gapWrites.storageFailure := hstores
  rw [Recorder.yield] at hstores' ⊢
  split
  · refine ⟨⟨forall_mem_snoc h.faultless hfaultless, h.pendingCounts, h.batchCounts, h.notFatal,
      h.records, h.gaps, h.active, ?_, h.overtime⟩, ?_⟩
    · intro message hph
      have hstop := (h.ended message hph).1
      rw [hrun] at hstop
      cases hstop
    · simp only [Recorder.Sick, exists_mem_append, List.mem_singleton, exists_eq_left]
      rw [or_assoc, or_assoc]
      exact or_congr_right or_comm
  · rename_i hfull
    rw [if_neg hfull] at hstores'
    rcases droppedGap_spec hfaultless with ⟨gap, hgap, hend, hcnt⟩ | ⟨hnone, hfits⟩
    · simp only [hgap] at hstores' ⊢
      rw [← hend]
      exact register_step hcnt h hstores'
    · simp only [hnone]
      exact ⟨h, Or.inl, fun hcases => hcases.resolve_right hfits⟩

theorem finish_cases (s : Recorder) (message : String) (hfatal : s.fatalCaptureFailure = false) :
    ((s.activeStorageFailure = true ∨ s.gapWrites.storageFailure = true) ∧
        s.finish message = { s with phase := .needsAttention "Recording needs recovery" }) ∨
      (s.activeStorageFailure = false ∧ s.gapWrites.storageFailure = false ∧
        s.finish message = { s with
          spool := s.spool.sealWith s.startedAt s.now
          phase := .needsAttention message }) := by
  rw [Recorder.finish, hfatal]
  cases hact : s.activeStorageFailure <;> cases hfailed : s.gapWrites.storageFailure <;>
    simp

theorem finish_step (h : s.Inv) (hdrained : s.drained = true) (message : String) :
    (s.finish message).Inv ∧ ((s.finish message).Sick ↔ s.Sick) := by
  simp only [Recorder.drained, Bool.and_eq_true, Bool.not_eq_true', List.isEmpty_iff] at hdrained
  obtain ⟨⟨hstop, hstrm⟩, -⟩ := hdrained
  rcases finish_cases s message h.notFatal with ⟨-, hfin⟩ | ⟨-, -, hfin⟩
  · rw [hfin]
    exact ⟨⟨h.faultless, h.pendingCounts, h.batchCounts, h.notFatal, h.records, h.gaps,
      fun hact => absurd rfl (hact _), fun _ _ => ⟨hstop, hstrm⟩, by simp⟩, Iff.rfl⟩
  · rw [hfin]
    exact ⟨⟨h.faultless, h.pendingCounts, h.batchCounts, h.notFatal, h.records, h.gaps,
      fun hact => absurd rfl (hact _), fun _ _ => ⟨hstop, hstrm⟩, by simp⟩, Iff.rfl⟩

variable {t : Recorder} {label : RecorderEvent}

/-- Every step of a capture under way keeps the invariant, and the recorder
falls sick exactly through a late event. -/
theorem Recorder.Step.inv (hstep : Recorder.Step s label t) (h : s.Inv)
    (hsourced : Sourced ⟨s, label, t⟩) (hstores : Stores ⟨s, label, t⟩)
    (hact : ∀ message, s.phase ≠ .needsAttention message) :
    t.Inv ∧ (t.Sick ↔ s.Sick ∨ Brings ⟨s, label, t⟩) := by
  have hquiet : ∀ {u : Recorder}, u.Inv ∧ (u.Sick ↔ s.Sick) →
      u.Inv ∧ (u.Sick ↔ s.Sick ∨ False) := fun hu => ⟨hu.1, by rw [or_false]; exact hu.2⟩
  cases hstep with
  | elapse nanoseconds =>
    refine hquiet ⟨⟨h.faultless, h.pendingCounts, h.batchCounts, h.notFatal, h.records, h.gaps,
      h.active, h.ended, fun hph => ?_⟩, Iff.rfl⟩
    exact Nat.le_trans (h.overtime hph) (Nat.le_add_right _ _)
  | yield event hrun => exact yield_step h hrun hsourced hstores
  | consume hstrm => exact hquiet (consume_step h hstrm hstores)
  | began hph =>
    refine hquiet ⟨⟨h.faultless, h.pendingCounts, h.batchCounts, h.notFatal, h.records, h.gaps,
      fun _ => h.active hact, by simp, by simp⟩, Iff.rfl⟩
  | takeBatch hpend hbatch =>
    have hperm := List.mergeSort_perm s.gapWrites.pending RecordingGap.before
    refine hquiet ⟨⟨h.faultless, by simp, ?_, h.notFatal, h.records, h.gaps, h.active, h.ended,
      h.overtime⟩, ?_⟩
    · exact fun gap hgap => h.pendingCounts gap (hperm.mem_iff.mp hgap)
    · simp only [Recorder.Sick, hbatch, hperm.mem_iff, List.not_mem_nil, false_and, exists_false,
        false_or]
  | persist hbatch => exact hquiet (persist_step h hbatch hstores (h.active hact))
  | limit hph htime =>
    exact hquiet ⟨⟨h.faultless, h.pendingCounts, h.batchCounts, h.notFatal, h.records, h.gaps,
      fun _ => h.active hact, by simp, fun _ => htime⟩, Iff.rfl⟩
  | sourceStopped hph =>
    exact hquiet ⟨⟨h.faultless, h.pendingCounts, h.batchCounts, h.notFatal, h.records, h.gaps,
      h.active, fun message hend => absurd hend (hact message), h.overtime⟩, Iff.rfl⟩
  | stopped hph hdrained => exact hquiet (finish_step h hdrained _)
  | failed hph hdrained => exact hquiet (finish_step h hdrained _)

/-! ## Runs -/

structure Recorder.Done (s : Recorder) : Prop where
  ended : ∃ message, s.phase = .needsAttention message
  sourceStopped : s.sourceRunning = false
  stream : s.stream = []

theorem record_sealed {later : Spool} (h : spool.record gap = .ok later) :
    later.sealedAt = spool.sealedAt ∧ (spool.sealedAt.isSome = true → later = spool) := by
  rw [Spool.record] at h
  split at h
  · obtain rfl := Except.ok.inj h
    exact ⟨rfl, fun _ => rfl⟩
  · rename_i hopen
    split at h
    · obtain rfl := Except.ok.inj h
      exact ⟨rfl, fun hseal => absurd hseal hopen⟩
    · cases h

/-- After the end only the clock and the worker go on, and a sealed spool stays
as it is. -/
theorem Recorder.Step.done (hstep : Recorder.Step s label t) (h : s.Done) :
    t.Done ∧ t.spool.sealedAt = s.spool.sealedAt ∧
      (s.spool.sealedAt.isSome = true → t.spool = s.spool) ∧ Fits ⟨s, label, t⟩ := by
  obtain ⟨message, hmsg⟩ := h.ended
  cases hstep with
  | elapse nanoseconds => exact ⟨⟨h.ended, h.sourceStopped, h.stream⟩, rfl, fun _ => rfl, trivial⟩
  | yield event hrun =>
    rw [h.sourceStopped] at hrun
    cases hrun
  | consume hstrm =>
    rw [h.stream] at hstrm
    cases hstrm
  | began hph =>
    rw [hmsg] at hph
    cases hph
  | takeBatch => exact ⟨⟨h.ended, h.sourceStopped, h.stream⟩, rfl, fun _ => rfl, trivial⟩
  | @persist gap rest hbatch =>
    cases hrec : s.spool.record gap with
    | ok spool =>
      obtain ⟨hseal, hsame⟩ := record_sealed hrec
      simp only [Recorder.persist, hrec]
      exact ⟨⟨h.ended, h.sourceStopped, h.stream⟩, hseal, hsame, trivial⟩
    | error error =>
      simp only [Recorder.persist, hrec]
      exact ⟨⟨h.ended, h.sourceStopped, h.stream⟩, trivial, fun _ => trivial, trivial⟩
  | limit hph =>
    rw [hmsg] at hph
    cases hph
  | sourceStopped hph =>
    rw [hmsg] at hph
    cases hph
  | stopped hph =>
    rw [hmsg] at hph
    cases hph
  | failed hph =>
    rw [hmsg] at hph
    cases hph

variable {trace : List (Transition Recorder RecorderEvent)}

theorem done_run {final : Recorder} (hrun : Run Recorder.Step s trace final) (h : s.Done) :
    final.Done ∧ final.spool.sealedAt = s.spool.sealedAt ∧
      (s.spool.sealedAt.isSome = true → final.spool = s.spool) ∧ ∀ t ∈ trace, Fits t := by
  induction hrun with
  | refl => exact ⟨h, rfl, fun _ => rfl, by simp⟩
  | snoc _ hlast ih =>
    obtain ⟨hdone, hseal, hsame, hfits⟩ := ih
    obtain ⟨hdone', hseal', hsame', hfits'⟩ := hlast.done hdone
    refine ⟨hdone', hseal'.trans hseal, fun hsome => ?_, forall_mem_snoc hfits hfits'⟩
    exact (hsame' (hseal ▸ hsome)).trans (hsame hsome)

variable {message : String}

theorem failActive_ended (h : s.phase = .needsAttention message) :
    s.failActive.phase = .needsAttention message := by
  rw [Recorder.failActive, if_neg (by simp [h]), h]

theorem consume_ended (event : RecordingCaptureEvent) (h : s.phase = .needsAttention message) :
    (s.consume event).phase = .needsAttention message := by
  cases event with
  | chunk chunk =>
    simp only [Recorder.consume]
    split
    · exact h
    · exact failActive_ended h
  | gap gap =>
    simp only [Recorder.consume]
    split
    · exact h
    · exact failActive_ended h
  | level track normalized => exact h
  | failure failure =>
    simp only [Recorder.consume]
    split <;> split <;> first | exact failActive_ended h | exact h

theorem finish_ended (s : Recorder) (message : String) :
    ∃ text, (s.finish message).phase = .needsAttention text := by
  rw [Recorder.finish]
  split
  · exact ⟨_, rfl⟩
  · exact ⟨_, rfl⟩

theorem Recorder.Step.ended (hstep : Recorder.Step s label t)
    (h : s.phase = .needsAttention message) : t.phase = .needsAttention message := by
  cases hstep with
  | elapse => exact h
  | yield event =>
    rw [Recorder.yield]
    split
    · exact h
    · split <;> exact h
  | consume hstrm => exact consume_ended _ h
  | began hph => simp [h] at hph
  | takeBatch => exact h
  | @persist gap rest =>
    rw [Recorder.persist]
    split <;> exact h
  | limit hph => simp [h] at hph
  | sourceStopped hph => simp [h] at hph
  | stopped hph => simp [h] at hph
  | failed hph => simp [h] at hph

/-- Up to the end of the recording: the recorder is sick exactly when some event
was late. -/
theorem active_run {now : Nat} (hrun : Run Recorder.Step (.starting now) trace s)
    (hsourced : ∀ t ∈ trace, Sourced t) (hstores : ∀ t ∈ trace, Stores t)
    (hact : ∀ message, s.phase ≠ .needsAttention message) :
    s.Inv ∧ (s.Sick ↔ ∃ t ∈ trace, Brings t) ∧ ∀ t ∈ trace, Fits t ↔ ¬Brings t := by
  induction hrun with
  | refl =>
    refine ⟨inv_starting now, ?_, by simp⟩
    simp [Recorder.Sick, Recorder.starting, PendingGapWrites.empty]
  | @snoc trace s t label _ hlast ih =>
    have hb : ∀ message, s.phase ≠ .needsAttention message :=
      fun message hph => hact message (hlast.ended hph)
    obtain ⟨hinv, hsick, hfits⟩ := ih (fun u hu => hsourced u (List.mem_append_left _ hu))
      (fun u hu => hstores u (List.mem_append_left _ hu)) hb
    have hmem : (⟨s, label, t⟩ : Transition Recorder RecorderEvent) ∈ trace ++ [⟨s, label, t⟩] :=
      List.mem_append_right _ (List.mem_singleton_self _)
    obtain ⟨hinv', hsick'⟩ := hlast.inv hinv (hsourced _ hmem) (hstores _ hmem) hb
    refine ⟨hinv', ?_, forall_mem_snoc hfits ?_⟩
    · rw [hsick', hsick, exists_mem_append]
      simp only [List.mem_singleton, exists_eq_left]
    · cases hlast with
      | yield event => exact Nat.not_lt.symm
      | stopped =>
        obtain ⟨text, htext⟩ := finish_ended s "Stopped safely: 120-minute recording limit"
        exact absurd htext (hact text)
      | _ => exact iff_of_true trivial not_false

theorem foldr_max_le {items : List Nat} {bound : Nat} (h : ∀ item ∈ items, item ≤ bound) :
    items.foldr max 0 ≤ bound := by
  induction items with
  | nil => exact Nat.zero_le _
  | cons first rest ih =>
    rw [List.foldr_cons]
    exact max_le (h first (by simp)) (ih fun item hitem => h item (by simp [hitem]))

theorem trackLength_le
    (hrecs : ∀ chunk ∈ spool.records, chunk.sampleEnd ≤ maximumCanonicalSamples)
    (hgaps : ∀ gap ∈ spool.gaps, gap.sampleEnd ≤ maximumCanonicalSamples)
    (track : RecordingTrackKind) : spool.trackLength track ≤ Recordings.maxTrackSamples := by
  apply foldr_max_le
  intro sampleEnd hend
  rcases List.mem_append.mp hend with hrec | hgap
  · obtain ⟨chunk, hmem, rfl⟩ := List.mem_map.mp hrec
    exact hrecs chunk (List.mem_of_mem_filter hmem)
  · obtain ⟨gap, hmem, rfl⟩ := List.mem_map.mp hgap
    exact hgaps gap (List.mem_of_mem_filter hmem)

theorem milliseconds_overrun (h : s.startedAt + limitNanoseconds ≤ s.now) :
    Spool.milliseconds s.now = Spool.milliseconds (s.startedAt + s.overrun) + 7200000 := by
  have hnow : s.now + 500000 = s.startedAt + s.overrun + 500000 + 7200000 * 1000000 := by
    have hlimit : limitNanoseconds = 7200000 * 1000000 := by decide
    rw [Recorder.overrun]
    omega
  rw [Spool.milliseconds, hnow, Nat.add_mul_div_right _ _ (by decide)]
  rfl

theorem elapsed_iff (h : s.startedAt + limitNanoseconds ≤ s.now) :
    (((Spool.milliseconds s.now : Nat) : Int) * 1000 - (Spool.milliseconds s.startedAt : Int) * 1000 ≤
        Models.seconds Recordings.maxRecordingSeconds) ↔
      Spool.milliseconds (s.startedAt + s.overrun) = Spool.milliseconds s.startedAt := by
  have hmono : Spool.milliseconds s.startedAt ≤ Spool.milliseconds (s.startedAt + s.overrun) :=
    Nat.div_le_div_right (by omega)
  rw [milliseconds_overrun h]
  simp only [Models.seconds, Recordings.maxRecordingSeconds]
  omega

theorem Recorder.Step.stopped_inv (hstep : Recorder.Step s label t) (hlab : label = .stopped) :
    s.phase = .stopping false ∧ s.drained = true ∧
      t = s.finish "Stopped safely: 120-minute recording limit" := by
  cases hstep with
  | stopped hph hdrained => exact ⟨hph, hdrained, rfl⟩
  | _ => cases hlab

/-- When everything is written, the recording is kept exactly when no event was
late and the two hours are not over by a millisecond. -/
theorem finish_spec (h : s.Inv) (hdrained : s.drained = true)
    (hact : ∀ message, s.phase ≠ .needsAttention message)
    (htime : s.startedAt + limitNanoseconds ≤ s.now) (message : String) :
    (s.finish message).Done ∧ (Kept (s.finish message) ↔ ¬s.Sick ∧
      Spool.milliseconds (s.startedAt + s.overrun) = Spool.milliseconds s.startedAt) := by
  have hparts := hdrained
  simp only [Recorder.drained, Bool.and_eq_true, Bool.not_eq_true', List.isEmpty_iff] at hparts
  obtain ⟨⟨hsrc, hstrm⟩, hsetl⟩ := hparts
  have hopen := h.active hact
  rcases finish_cases s message h.notFatal with
    ⟨hfail, hfin⟩ | ⟨hwriter, hworker, hfin⟩
  · rw [hfin]
    refine ⟨⟨⟨_, rfl⟩, hsrc, hstrm⟩, iff_of_false ?_ ?_⟩
    · rintro ⟨startedAt, endedAt, hat, -⟩
      rw [hopen] at hat
      cases hat
    · exact fun hfits => hfits.1 (Or.inr (Or.inr (Or.inr hfail)))
  · rw [hfin]
    have hwell : ¬s.Sick := by
      simp only [PendingGapWrites.settled, hworker, Bool.false_or, Bool.and_eq_true,
        List.isEmpty_iff] at hsetl
      simp [Recorder.Sick, hstrm, hsetl.1, hsetl.2, hwriter, hworker]
    refine ⟨⟨⟨_, rfl⟩, hsrc, hstrm⟩, ?_⟩
    rw [← elapsed_iff htime]
    have hmic := trackLength_le h.records h.gaps .microphone
    have hsys := trackLength_le h.records h.gaps .systemAudio
    constructor
    · rintro ⟨startedAt, endedAt, hat, hwithin⟩
      obtain ⟨rfl, rfl⟩ := Prod.mk.inj (Option.some.inj hat)
      simp only [Spool.withinServerBounds, Bool.and_eq_true, decide_eq_true_eq] at hwithin
      exact ⟨hwell, hwithin.1.1⟩
    · rintro ⟨-, helapsed⟩
      refine ⟨_, _, rfl, ?_⟩
      simp only [Spool.withinServerBounds, Bool.and_eq_true, decide_eq_true_eq]
      exact ⟨⟨helapsed, hmic⟩, hsys⟩

/-- A recording without a failure that the limit timer stops is sealed within the
bounds of the server exactly when no event ends after two hours and the stop
stays within their last millisecond. -/
theorem limit_keeps_recording_iff {now : Nat} {final : Recorder}
    {trace : List (Transition Recorder RecorderEvent)}
    (hrun : Run Recorder.Step (.starting now) trace final)
    (hsourced : ∀ t ∈ trace, Sourced t) (hstores : ∀ t ∈ trace, Stores t)
    (hstopped : ∃ t ∈ trace, t.label = .stopped) :
    Kept final ↔ ∀ t ∈ trace, Fits t := by
  obtain ⟨⟨before, label, after⟩, hu, hlabel⟩ := hstopped
  obtain ⟨left, right, rfl, hleft, hstep, hright⟩ := hrun.split hu
  obtain rfl : label = .stopped := hlabel
  obtain ⟨hphase, hdrained, hafter⟩ : before.phase = .stopping false ∧ before.drained = true ∧
      after = before.finish "Stopped safely: 120-minute recording limit" := hstep.stopped_inv rfl
  have hactive : ∀ message, before.phase ≠ .needsAttention message := by
    intro message hended
    rw [hphase] at hended
    cases hended
  obtain ⟨hinv, hsick, hfits⟩ := active_run hleft
    (fun t ht => hsourced t (List.mem_append_left _ ht))
    (fun t ht => hstores t (List.mem_append_left _ ht)) hactive
  obtain ⟨hdone, hbounds⟩ := finish_spec hinv hdrained hactive
    (hinv.overtime hphase) "Stopped safely: 120-minute recording limit"
  rw [← hafter] at hdone hbounds
  obtain ⟨-, hsealed, hsame, hlater⟩ := done_run hright hdone
  have hkept : Kept final ↔ Kept after := by
    constructor
    · rintro ⟨startedAt, endedAt, hat, hwithin⟩
      have hsome : after.spool.sealedAt.isSome = true := by rw [← hsealed, hat]; rfl
      rw [hsame hsome] at hat hwithin
      exact ⟨startedAt, endedAt, hat, hwithin⟩
    · rintro ⟨startedAt, endedAt, hat, hwithin⟩
      have hsome : after.spool.sealedAt.isSome = true := by rw [hat]; rfl
      rw [← hsame hsome] at hat hwithin
      exact ⟨startedAt, endedAt, hat, hwithin⟩
  rw [hkept, hbounds, hsick]
  constructor
  · rintro ⟨hnone, htime⟩ t ht
    rcases List.mem_append.mp ht with hmem | hmem
    · exact (hfits t hmem).mpr fun hbrings => hnone ⟨t, hmem, hbrings⟩
    · rcases List.mem_cons.mp hmem with rfl | hmem
      · exact htime
      · exact hlater t hmem
  · intro hall
    refine ⟨?_, ?_⟩
    · rintro ⟨t, hmem, hbrings⟩
      exact (hfits t hmem).mp (hall t (List.mem_append_left _ hmem)) hbrings
    · exact hall ⟨before, .stopped, after⟩ (by simp)

/-! ## A stop that takes twenty milliseconds -/

def firstChunk (track : RecordingTrackKind) : RecordingPCMChunk where
  track := track
  presentationNanoseconds := 0
  sampleStart := 0
  sampleCount := 1
  format := ⟨1, one_channel⟩
  source := ⟨.finite 48000, 1, "device", "route", 1, 0⟩
  payload := [0, 0]

theorem firstChunk_faultless (track : RecordingTrackKind) :
    Faultless (.chunk (firstChunk track)) := by
  refine ⟨?_, ?_, ?_, ?_⟩
  · cases track <;> decide
  · show 1 ≤ canonicalSampleRate
    decide
  · show "device".utf8ByteSize ≤ 512
    decide
  · show "route".utf8ByteSize ≤ 512
    decide

/-- The states of a capture of one chunk on each track. -/
def sampleStart : Recorder := .starting 1788256800000000000

def sampleDelivered : Recorder :=
  { sampleStart with stream := [.chunk (firstChunk .microphone), .chunk (firstChunk .systemAudio)] }

def sampleWritten : Recorder :=
  { sampleStart with
    spool := {
      records := [firstChunk .microphone, firstChunk .systemAudio]
      gaps := []
      storedBytes := Spool.recordBytes (firstChunk .microphone) +
        Spool.recordBytes (firstChunk .systemAudio)
      sealedAt := none } }

def sampleDrained (delay : Nat) : Recorder :=
  { sampleWritten with
    phase := .stopping false
    now := 1788256800000000000 + limitNanoseconds + delay
    sourceRunning := false }

theorem firstChunk_stores : 0 + Spool.recordBytes (firstChunk .microphone) ≤
    maximumRecordingBytes := by
  decide

theorem secondChunk_stores : Spool.recordBytes (firstChunk .microphone) +
    Spool.recordBytes (firstChunk .systemAudio) ≤ maximumRecordingBytes := by
  decide

/-- The timer fires after exactly two hours, and the stop takes `delay`. -/
theorem run_sample (delay : Nat) :
    ∃ trace : List (Transition Recorder RecorderEvent),
      Run Recorder.Step sampleStart trace
        ((sampleDrained delay).finish "Stopped safely: 120-minute recording limit") ∧
      (∀ t ∈ trace, Sourced t) ∧ (∀ t ∈ trace, Stores t) ∧ ∃ t ∈ trace, t.label = .stopped := by
  have hmic := Recorder.Step.yield (s := sampleStart) (.chunk (firstChunk .microphone)) rfl
  have hsys := Recorder.Step.yield (s := sampleStart.yield (.chunk (firstChunk .microphone)))
    (.chunk (firstChunk .systemAudio)) rfl
  have hfst := Recorder.Step.consume (s := sampleDelivered) rfl
  have hsec := Recorder.Step.consume (s := Recorder.consume
    { sampleDelivered with stream := [.chunk (firstChunk .systemAudio)] }
    (.chunk (firstChunk .microphone))) rfl
  have hbegan := Recorder.Step.began (s := sampleWritten) rfl
  have helapsed := Recorder.Step.elapse (s := { sampleWritten with phase := .recording })
    limitNanoseconds
  have hlimit := Recorder.Step.limit (s := { sampleWritten with
    phase := .recording
    now := 1788256800000000000 + limitNanoseconds }) rfl (Nat.le_refl _)
  have hsrc := Recorder.Step.sourceStopped (s := { sampleWritten with
    phase := .stopping false
    now := 1788256800000000000 + limitNanoseconds }) rfl
  have hdelay := Recorder.Step.elapse (s := { sampleWritten with
    phase := .stopping false
    now := 1788256800000000000 + limitNanoseconds
    sourceRunning := false }) delay
  have hstop := Recorder.Step.stopped (s := sampleDrained delay) rfl rfl
  refine ⟨_, (((((((((Run.refl.snoc hmic).snoc hsys).snoc hfst).snoc hsec).snoc
    hbegan).snoc helapsed).snoc hlimit).snoc hsrc).snoc hdelay).snoc hstop, ?_, ?_, ?_⟩
  · exact forall_mem_snoc (forall_mem_snoc (forall_mem_snoc (forall_mem_snoc (forall_mem_snoc
      (forall_mem_snoc (forall_mem_snoc (forall_mem_snoc (forall_mem_snoc (forall_mem_snoc
      (List.forall_mem_nil _) (firstChunk_faultless .microphone))
      (firstChunk_faultless .systemAudio)) trivial) trivial) trivial) trivial) trivial) trivial)
      trivial) trivial
  · exact forall_mem_snoc (forall_mem_snoc (forall_mem_snoc (forall_mem_snoc (forall_mem_snoc
      (forall_mem_snoc (forall_mem_snoc (forall_mem_snoc (forall_mem_snoc (forall_mem_snoc
      (List.forall_mem_nil _) rfl) rfl) firstChunk_stores) secondChunk_stores) trivial) trivial)
      trivial) trivial) trivial) trivial
  · exact ⟨_, List.mem_append_right _ (List.mem_singleton_self _), rfl⟩

/-- The stop takes no time at all. -/
theorem limit_keeps_recording_iff_sample :
    ∃ (trace : List (Transition Recorder RecorderEvent)) (final : Recorder),
      (Kept final ↔ ∀ t ∈ trace, Fits t) ∧ Kept final := by
  obtain ⟨trace, hrun, hsourced, hstores, hstopped⟩ := run_sample 0
  refine ⟨trace, _, limit_keeps_recording_iff hrun hsourced hstores hstopped,
    1788256800000, 1788264000000, rfl, by decide +kernel⟩

/-- A stop of twenty milliseconds after the two hours: the spool is sealed, and
the server refuses its elapsed time. -/
theorem limit_costs_recording : ∃ (trace : List (Transition Recorder RecorderEvent))
    (final : Recorder), Run Recorder.Step sampleStart trace final ∧
      (∀ t ∈ trace, Sourced t) ∧ (∀ t ∈ trace, Stores t) ∧ (∃ t ∈ trace, t.label = .stopped) ∧
      final.spool.sealedAt = some (1788256800000, 1788264000020) ∧ ¬Kept final := by
  obtain ⟨trace, hrun, hsourced, hstores, hstopped⟩ := run_sample 20000000
  refine ⟨trace, _, hrun, hsourced, hstores, hstopped, rfl, ?_⟩
  rintro ⟨startedAt, endedAt, hat, hwithin⟩
  obtain ⟨rfl, rfl⟩ : 1788256800000 = startedAt ∧ 1788264000020 = endedAt :=
    Prod.mk.inj (Option.some.inj hat)
  simp only [Spool.withinServerBounds, Bool.and_eq_true, decide_eq_true_eq] at hwithin
  exact absurd hwithin.1.1 (by decide)

end TamForge.Capture
