import TamForge.Roadmaps.Staging

/-!
# Imports that are validated to the end

An import that is not finished is held by the call that created it.  As long as
such a call goes on to the end of the validation, and no other call of its owner
looks its key up meanwhile, every import that a call returns is finished.
-/

namespace TamForge.Roadmaps

open Models ProofSupport

variable {state : Staging} {tables : ImportTables} {call : StageCall} {item : RoadmapImport}
  {phase : StagePhase} {now : Instant}

/-- The clock, the stored documents and the payload of the previous version let
the next transaction of a call through that holds an import. -/
structure Accepted (tables : ImportTables) (now : Instant) (call : StageCall) : Prop where
  clock : ∀ item ∈ tables.imports.rows, call.phase.held = some item.id →
    item.createdAt ≤ now ∧ ∀ started, item.startedAt = some started → started ≤ now
  report_fits : ∀ importId report result, call.phase = .ending importId report result →
    call.env.octets report ≤ 1048576
  diff_fits : ∀ importId report diff, call.phase = .ending importId report (.ok diff) →
    call.env.octets diff ≤ 1048576
  readable : ∀ importId sourceId parsed, call.phase = .comparing importId sourceId parsed →
    call.env.diff (latestNormalizedPayload tables call.request.ownerId sourceId) parsed ≠ none

def SameUpload (call other : StageCall) : Prop :=
  call.request.ownerId = other.request.ownerId ∧
    call.request.idempotencyKey = other.request.idempotencyKey ∧
    call.request.sourceKey = other.request.sourceKey ∧
    call.prepared.packageHash = other.prepared.packageHash

/-- No call stops while it holds an import, its transactions are let through, and
no call does a lookup while another one holds the import of the same upload. -/
def Unhindered (step : Transition Staging StageEvent) : Prop :=
  match step.label with
  | .called _ | .imported _ => True
  | .stopped id => ∀ call ∈ step.before.calls, call.id = id → call.phase.held = none
  | .advanced id now => ∀ call ∈ step.before.calls, call.id = id →
      (call.phase.held ≠ none → Accepted step.before.tables now call) ∧
      (call.phase.looksUp = true → ∀ other ∈ step.before.calls, other.phase.held ≠ none →
        ¬SameUpload other call)

/-! ## The invariant -/

def StagePhase.expected : StagePhase → ImportStatus
  | .beginning _ _ => .staged
  | _ => .validating

structure Holds (tables : ImportTables) (call : StageCall) (item : RoadmapImport) : Prop where
  owner : item.ownerId = call.request.ownerId
  key : item.idempotencyKey = call.request.idempotencyKey
  hash : item.packageHash = call.prepared.packageHash
  source : ∃ source ∈ tables.sources.rows, source.id = item.sourceId ∧
    source.sourceKey = call.request.sourceKey
  status : item.status = call.phase.expected
  coherent : importCoherent item = true
  report : item.validationReport = .object []
  diff : item.semanticDiff = .object []
  started : ∀ started, item.startedAt = some started → item.createdAt ≤ started

structure Tended (state : Staging) : Prop where
  keyed : state.tables.imports.Keyed fun item => item.id
  source_ids : state.tables.sources.Keyed fun source => source.id
  calls : (state.calls.map fun call => call.id).Nodup
  sources : ∀ item ∈ state.tables.imports.rows, ∃ source ∈ state.tables.sources.rows,
    source.ownerId = item.ownerId ∧ source.id = item.sourceId
  attended : ∀ item ∈ state.tables.imports.rows, item.status.finished = true ∨
    ∃ call ∈ state.calls, call.phase.held = some item.id
  held : ∀ call ∈ state.calls, ∀ id, call.phase.held = some id →
    ∃ item ∈ state.tables.imports.rows, item.id = id ∧ Holds state.tables call item
  alone : ∀ call ∈ state.calls, ∀ other ∈ state.calls, ∀ id, call.phase.held = some id →
    other.phase.held = some id → call.id = other.id
  returned : ∀ call ∈ state.calls, ∀ record, call.phase = .returned record →
    record.status.finished = true

/-- Nothing under way, and every stored import is finished. -/
structure Settled (state : Staging) : Prop where
  keyed : state.tables.imports.Keyed fun item => item.id
  source_ids : state.tables.sources.Keyed fun source => source.id
  calls : state.calls = []
  sources : ∀ item ∈ state.tables.imports.rows, ∃ source ∈ state.tables.sources.rows,
    source.ownerId = item.ownerId ∧ source.id = item.sourceId
  finished : ∀ item ∈ state.tables.imports.rows, item.status.finished = true

theorem Settled.tended (h : Settled state) : Tended state := by
  have hnone : ∀ call, call ∉ state.calls := by
    intro call
    rw [h.calls]
    exact List.not_mem_nil
  constructor
  · exact h.keyed
  · exact h.source_ids
  · rw [h.calls]
    exact List.nodup_nil
  · exact h.sources
  · intro item hitem
    exact Or.inl (h.finished item hitem)
  · intro call hcall
    exact absurd hcall (hnone call)
  · intro call hcall
    exact absurd hcall (hnone call)
  · intro call hcall
    exact absurd hcall (hnone call)

variable {after : ImportTables}

theorem Holds.mono (h : Holds tables call item)
    (hkept : ∀ source ∈ tables.sources.rows, source ∈ after.sources.rows) :
    Holds after call item := by
  obtain ⟨source, hsrc, hfacts⟩ := h.source
  exact { h with source := ⟨source, hkept source hsrc, hfacts⟩ }

variable {source : RoadmapSource}

theorem Tended.looked_up (h : Tended state) (hitem : item ∈ state.tables.imports.rows)
    (hfree : ∀ other ∈ state.calls, other.phase.held ≠ none → ¬SameUpload other call)
    (hsrc : source ∈ state.tables.sources.rows) (hsrcId : source.id = item.sourceId)
    (hsrcKey : source.sourceKey = call.request.sourceKey)
    (hown : item.ownerId = call.request.ownerId)
    (hkey : item.idempotencyKey = call.request.idempotencyKey)
    (hhash : item.packageHash = call.prepared.packageHash) : item.status.finished = true := by
  apply (h.attended item hitem).resolve_right
  intro hheld
  obtain ⟨other, ho, hholds⟩ := hheld
  obtain ⟨found, hf, hid, hhold⟩ := h.held other ho item.id hholds
  have hsame : found = item := h.keyed.eq_of_key hf hitem hid
  subst hsame
  obtain ⟨source', hsrc', hsrcId', hsrcKey'⟩ := hhold.source
  have hsrcs : source' = source :=
    h.source_ids.eq_of_key hsrc' hsrc (hsrcId'.trans hsrcId.symm)
  refine hfree other ho ?_ ⟨?_, ?_, ?_, ?_⟩
  · rw [hholds]
    exact Option.some_ne_none _
  · rw [← hhold.owner, hown]
  · rw [← hhold.key, hkey]
  · rw [← hsrcKey', hsrcs, hsrcKey]
  · rw [← hhold.hash, hhash]

variable {other : StageCall}

theorem Tended.call_eq (h : Tended state) (hcall : call ∈ state.calls)
    (ho : other ∈ state.calls) (hid : call.id = other.id) : call = other :=
  List.inj_on_of_nodup_map h.calls hcall ho hid

/-! ## The calls after one of them went on -/

variable {id : Nat}

theorem mem_setPhase (h : other ∈ state.setPhase id phase) :
    (other ∈ state.calls ∧ other.id ≠ id) ∨
      ∃ before ∈ state.calls, before.id = id ∧ other = { before with phase := phase } := by
  obtain ⟨before, hb, heq⟩ := List.mem_map.mp h
  by_cases hid : before.id = id
  · rw [if_pos hid] at heq
    exact Or.inr ⟨before, hb, hid, heq.symm⟩
  · rw [if_neg hid] at heq
    subst heq
    exact Or.inl ⟨hb, hid⟩

theorem setPhase_of_ne (ho : other ∈ state.calls) (hid : other.id ≠ id) :
    other ∈ state.setPhase id phase :=
  List.mem_map.mpr ⟨other, ho, if_neg hid⟩

theorem setPhase_self (hcall : call ∈ state.calls) :
    { call with phase := phase } ∈ state.setPhase call.id phase :=
  List.mem_map.mpr ⟨call, hcall, if_pos rfl⟩

theorem setPhase_ids (id : Nat) :
    (state.setPhase id phase).map (fun call => call.id) =
      state.calls.map fun call => call.id := by
  unfold Staging.setPhase
  rw [List.map_map]
  apply List.map_congr_left
  intro call _
  simp only [Function.comp_apply]
  split <;> rfl

theorem Tended.mem_cases (h : Tended state) (hcall : call ∈ state.calls)
    (ho : other ∈ state.setPhase call.id phase) :
    (other ∈ state.calls ∧ other.id ≠ call.id) ∨ other = { call with phase := phase } := by
  refine (mem_setPhase ho).imp_right ?_
  intro hb
  obtain ⟨before, hb, hid, heq⟩ := hb
  rw [heq, h.call_eq hb hcall hid]

/-- A call that goes on over imports that keep their rows, up to the one that it
holds before and no longer or still holds after. -/
theorem Tended.go_on (h : Tended state) (hcall : call ∈ state.calls)
    (hkey : tables.imports.Keyed fun item => item.id)
    (hsrcIds : tables.sources.Keyed fun source => source.id)
    (hsrcsKept : ∀ source ∈ state.tables.sources.rows, source ∈ tables.sources.rows)
    (hsrcs : ∀ item ∈ tables.imports.rows, ∃ source ∈ tables.sources.rows,
      source.ownerId = item.ownerId ∧ source.id = item.sourceId)
    (hkept : ∀ item ∈ state.tables.imports.rows, call.phase.held ≠ some item.id →
      item ∈ tables.imports.rows)
    (hrows : ∀ item ∈ tables.imports.rows, item.status.finished = true ∨
      phase.held = some item.id ∨
      (item ∈ state.tables.imports.rows ∧ call.phase.held ≠ some item.id))
    (hheld : ∀ id, phase.held = some id → (∀ other ∈ state.calls, other.id ≠ call.id →
      other.phase.held ≠ some id) ∧ ∃ item ∈ tables.imports.rows, item.id = id ∧
        Holds tables { call with phase := phase } item)
    (hret : ∀ record, phase = .returned record → record.status.finished = true) :
    Tended ⟨tables, state.setPhase call.id phase⟩ := by
  constructor
  · exact hkey
  · exact hsrcIds
  · exact (setPhase_ids call.id).symm ▸ h.calls
  · exact hsrcs
  · intro item hitem
    rcases hrows item hitem with hdone | hown | ⟨hb, ho⟩
    · exact Or.inl hdone
    · exact Or.inr ⟨_, setPhase_self hcall, hown⟩
    · refine (h.attended item hb).imp_right ?_
      intro hhold
      obtain ⟨other, hmem, hholds⟩ := hhold
      have hne : other.id ≠ call.id := by
        intro hid
        rw [h.call_eq hmem hcall hid] at hholds
        exact ho hholds
      exact ⟨other, setPhase_of_ne hmem hne, hholds⟩
  · intro other hmem id hholds
    rcases h.mem_cases hcall hmem with ⟨hb, hne⟩ | rfl
    · obtain ⟨item, hitem, hid, hhold⟩ := h.held other hb id hholds
      refine ⟨item, hkept item hitem ?_, hid, hhold.mono hsrcsKept⟩
      intro hcallHolds
      rw [hid] at hcallHolds
      exact hne (h.alone other hb call hcall id hholds hcallHolds)
    · exact (hheld id hholds).2
  · intro first hfst second hsec id hholds hholds'
    rcases h.mem_cases hcall hfst with ⟨hb, hne⟩ | rfl
    · rcases h.mem_cases hcall hsec with ⟨hb', hne'⟩ | rfl
      · exact h.alone first hb second hb' id hholds hholds'
      · exact absurd hholds ((hheld id hholds').1 first hb hne)
    · rcases h.mem_cases hcall hsec with ⟨hb', hne'⟩ | rfl
      · exact absurd hholds' ((hheld id hholds).1 second hb' hne')
      · rfl
  · intro other hmem record hrep
    rcases h.mem_cases hcall hmem with ⟨hb, -⟩ | rfl
    · exact h.returned other hb record hrep
    · exact hret record hrep

theorem Tended.stay (h : Tended state) (hcall : call ∈ state.calls)
    (hheld : phase.held = call.phase.held)
    (hexpd : phase.held ≠ none → phase.expected = call.phase.expected)
    (hret : ∀ record, phase = .returned record → record.status.finished = true) :
    Tended ⟨state.tables, state.setPhase call.id phase⟩ := by
  apply h.go_on hcall h.keyed h.source_ids (fun _ hsrc => hsrc) h.sources
    (fun item hitem _ => hitem)
  · intro item hitem
    by_cases hown : call.phase.held = some item.id
    · exact Or.inr (Or.inl (hheld.trans hown))
    · exact Or.inr (Or.inr ⟨hitem, hown⟩)
  · intro id hholds
    have hb : call.phase.held = some id := hheld.symm.trans hholds
    refine ⟨?_, ?_⟩
    · intro other ho hne hholds'
      exact hne (h.alone other ho call hcall id hholds' hb)
    · obtain ⟨item, hitem, hid, hhold⟩ := h.held call hcall id hb
      have hsome : phase.held ≠ none := by
        rw [hholds]
        exact Option.some_ne_none _
      exact ⟨item, hitem, hid,
        { hhold with status := hhold.status.trans (hexpd hsome).symm }⟩
  · exact hret

variable {new : RoadmapImport}

theorem Tended.rewrite (h : Tended state) (hcall : call ∈ state.calls)
    (hitem : item ∈ state.tables.imports.rows) (hown : call.phase.held = some item.id)
    (hid : new.id = item.id) (howner : new.ownerId = item.ownerId)
    (hsrc : new.sourceId = item.sourceId)
    (hnext : new.status.finished = true ∧ phase.held = none ∨
      phase.held = some new.id ∧ Holds state.tables { call with phase := phase } new)
    (hret : ∀ record, phase = .returned record → record.status.finished = true) :
    Tended ⟨{ state.tables with
      imports := state.tables.imports.replace (fun item => item.id) new },
      state.setPhase call.id phase⟩ := by
  have hnew : new ∈ (state.tables.imports.replace (fun item => item.id) new).rows :=
    Serial.mem_replace_self hitem hid
  refine h.go_on hcall ?_ h.source_ids (fun _ hsrc => hsrc) ?_ ?_ ?_ ?_ hret
  · exact h.keyed.replace new
  · intro other ho
    rcases Serial.mem_replace ho with rfl | ⟨hb, -⟩
    · rw [howner, hsrc]
      exact h.sources item hitem
    · exact h.sources other hb
  · intro other ho hnot
    apply Serial.mem_replace_of_ne ho
    intro hsame
    rw [hsame, hid] at hnot
    exact hnot hown
  · intro other ho
    rcases Serial.mem_replace ho with rfl | ⟨hb, hne⟩
    · exact hnext.imp And.left fun hstill => Or.inl hstill.1
    · refine Or.inr (Or.inr ⟨hb, ?_⟩)
      rw [hown, Ne, Option.some.injEq, ← hid]
      exact fun hsame => hne hsame.symm
  · intro id hholds
    rcases hnext with ⟨-, hnone⟩ | ⟨hstill, hhold⟩
    · rw [hnone] at hholds
      cases hholds
    · rw [hstill, Option.some.injEq] at hholds
      refine ⟨?_, new, hnew, hholds, hhold.mono fun _ hsrc => hsrc⟩
      intro other ho hne ho'
      rw [← hholds, hid] at ho'
      exact hne (h.alone other ho call hcall item.id ho' hown)

/-! ## The transactions of a call -/

theorem Tended.locked (h : Tended state) (hcall : call ∈ state.calls)
    (hheld : call.phase.held = some id) :
    ∃ item ∈ state.tables.imports.rows, ∃ sourceKey, item.id = id ∧
      Holds state.tables call item ∧
      state.tables.locked call.request.ownerId id = .ok (item, sourceKey) := by
  obtain ⟨item, hitem, hid, hhold⟩ := h.held call hcall id hheld
  obtain ⟨source, hsrc, hsrcOwn, hsrcId⟩ := h.sources item hitem
  have hf : state.tables.imports.rows.find? (fun other =>
      other.ownerId = call.request.ownerId ∧ other.id = id) = some item :=
    h.keyed.find? hitem (by simp [hhold.owner, hid]) (by simp +contextual [hid])
  have hfoundSrc : state.tables.source? call.request.ownerId item.sourceId = some source :=
    h.source_ids.find? hsrc (by simp [hsrcOwn, hsrcId, hhold.owner])
      (by simp +contextual [hsrcId])
  refine ⟨item, hitem, source.sourceKey, hid, hhold, ?_⟩
  rw [ImportTables.locked, hf]
  dsimp only
  rw [hfoundSrc]

variable {env : StagingEnv}

theorem updateImport_eq {old : RoadmapImport} (hopen : old.status.terminal = false)
    (hmov : importTransitions.contains (old.status, new.status) = true)
    (hcoh : importCoherent new = true) (hstorb : importStorable env new = true) :
    updateImport env tables old new = .ok { tables with
      imports := tables.imports.replace (fun item => item.id) new } := by
  rw [updateImport, bind_ok_iff]
  refine ⟨(), raiseFirst_eq_ok.mpr ?_, rfl⟩
  simp [hopen, List.contains_iff_mem.mp hmov, hcoh, hstorb]

variable {sourceKey : String} {ownerId importId : Nat}

theorem beginValidation_eq (hlock : tables.locked ownerId importId = .ok (item, sourceKey))
    (hst : item.status = .staged) (hcoh : importCoherent item = true)
    (hrep : item.validationReport = .object []) (hdiff : item.semanticDiff = .object [])
    (hclk : item.createdAt ≤ now) :
    ∃ record, beginValidation env tables now ownerId importId = .ok (record, { tables with
      imports := tables.imports.replace (fun item => item.id)
        { item with status := .validating, startedAt := some now } }) := by
  simp only [importCoherent, hst, Bool.and_eq_true, Option.isNone_iff_eq_none] at hcoh
  refine ⟨toImport { item with status := .validating, startedAt := some now } sourceKey, ?_⟩
  rw [beginValidation, hlock]
  show (updateImport env tables item _ >>= _) = _
  rw [updateImport_eq]
  · rfl
  · rw [hst]
    rfl
  · simp [hst, importTransitions]
  · simp [importCoherent, hcoh]
  · simp [importStorable, hrep, hdiff, env.octets_empty, hclk, hcoh]

theorem endValidation_eq (report : Json) (res : Except ImportFailureCode Json)
    (hlock : tables.locked ownerId importId = .ok (item, sourceKey))
    (hst : item.status = .validating) (hcoh : importCoherent item = true)
    (hdiff : item.semanticDiff = .object [])
    (hstart : ∀ started, item.startedAt = some started → item.createdAt ≤ started)
    (hclk : ∀ started, item.startedAt = some started → started ≤ now)
    (hrep : env.octets report ≤ 1048576)
    (hres : ∀ diff, res = .ok diff → env.octets diff ≤ 1048576) :
    ∃ new : RoadmapImport, new.id = item.id ∧ new.ownerId = item.ownerId ∧
      new.sourceId = item.sourceId ∧ new.status.finished = true ∧
      endValidation env tables now ownerId importId report res =
        .ok (toImport new sourceKey, { tables with
          imports := tables.imports.replace (fun item => item.id) new }) := by
  simp only [importCoherent, hst, Bool.and_eq_true, Option.isNone_iff_eq_none,
    Option.isSome_iff_exists] at hcoh
  obtain ⟨⟨⟨started, hsome⟩, hdone⟩, hfail⟩ := hcoh
  have hcrt := hstart started hsome
  have hnow := hclk started hsome
  cases res with
  | ok diff =>
    refine ⟨{ item with
      validationReport := report, semanticDiff := diff, status := .validated,
      completedAt := some now }, rfl, rfl, rfl, rfl, ?_⟩
    rw [endValidation, hlock]
    show (updateImport env tables item _ >>= _) = _
    rw [updateImport_eq]
    · rfl
    · rw [hst]
      rfl
    · simp [hst, importTransitions]
    · simp [importCoherent, hsome, hfail]
    · simp [importStorable, hsome, hcrt, hnow, hrep, hres diff rfl]
  | error code =>
    refine ⟨{ item with
      validationReport := report, failureCode := some code, status := .rejected,
      completedAt := some now }, rfl, rfl, rfl, rfl, ?_⟩
    rw [endValidation, hlock]
    show (updateImport env tables item _ >>= _) = _
    rw [updateImport_eq]
    · rfl
    · rw [hst]
      rfl
    · simp [hst, importTransitions]
    · simp [importCoherent, hsome]
    · simp [importStorable, hsome, hcrt, hnow, hrep, hdiff, env.octets_empty]

variable {request : StageRequest}

theorem ensureSource_spec (hsrcIds : tables.sources.Keyed fun source => source.id)
    (h : ensureSource tables request = (source, after)) :
    after.imports = tables.imports ∧ source ∈ after.sources.rows ∧
      source.ownerId = request.ownerId ∧ source.sourceKey = request.sourceKey ∧ (after.sources.Keyed fun source => source.id) ∧
      ∀ other ∈ tables.sources.rows, other ∈ after.sources.rows := by
  unfold ensureSource at h
  split at h
  · rename_i found hf
    cases h
    have hkey := List.find?_some hf
    simp only [decide_eq_true_eq] at hkey
    exact ⟨rfl, List.mem_of_find?_eq_some hf, hkey.1, hkey.2, hsrcIds,
      fun _ ho => ho⟩
  · cases h
    refine ⟨rfl, List.mem_append_right _ (List.mem_singleton_self _), rfl, rfl, ?_, ?_⟩
    · exact hsrcIds.append rfl
    · intro other ho
      exact List.mem_append_left _ ho

/-- What creating an import did: it found a finished one, or the one of the same
upload, or it inserted one. -/
inductive CreateOutcome (tables : ImportTables) (now : Instant) (request : StageRequest)
    (prepared : Prepared) : RoadmapImportRecord → Bool → ImportTables → Prop
  | finished {item : RoadmapImport} {sourceKey : String} {after : ImportTables}
      (done : item.status.finished = true) (imports : after.imports = tables.imports) :
      CreateOutcome tables now request prepared (toImport item sourceKey) false after
  | found {item : RoadmapImport} {source : RoadmapSource} {after : ImportTables}
      (mem : item ∈ tables.imports.rows) (owner : item.ownerId = request.ownerId)
      (key : item.idempotencyKey = request.idempotencyKey)
      (hash : item.packageHash = prepared.packageHash) (source_mem : source ∈ after.sources.rows)
      (source_id : source.id = item.sourceId) (source_key : source.sourceKey = request.sourceKey)
      (imports : after.imports = tables.imports) :
      CreateOutcome tables now request prepared (toImport item source.sourceKey) false after
  | created {item : RoadmapImport} {source : RoadmapSource} {after : ImportTables}
      (id : item.id = tables.imports.next) (owner : item.ownerId = request.ownerId)
      (source_id : item.sourceId = source.id) (key : item.idempotencyKey = request.idempotencyKey)
      (hash : item.packageHash = prepared.packageHash) (status : item.status = .staged)
      (coherent : importCoherent item = true) (report : item.validationReport = .object [])
      (diff : item.semanticDiff = .object []) (started : item.startedAt = none)
      (source_mem : source ∈ after.sources.rows) (source_owner : source.ownerId = request.ownerId)
      (source_key : source.sourceKey = request.sourceKey)
      (imports : after.imports =
        ⟨tables.imports.rows ++ [item], tables.imports.next + 1⟩) :
      CreateOutcome tables now request prepared (toImport item source.sourceKey) true after

variable {prepared : Prepared} {record : RoadmapImportRecord}

theorem createStagedImport_ok {created : Bool}
    (hsrcIds : tables.sources.Keyed fun source => source.id)
    (h : createStagedImport tables now request prepared = .ok (record, created, after)) :
    CreateOutcome tables now request prepared record created after ∧
      (after.sources.Keyed fun source => source.id) ∧
      ∀ other ∈ tables.sources.rows, other ∈ after.sources.rows := by
  unfold createStagedImport at h
  cases hsrc : ensureSource tables request with
  | mk source middle =>
    obtain ⟨himps, hmem, hown, hsrcKey, hkeyed, hkept⟩ :=
      ensureSource_spec hsrcIds hsrc
    rw [hsrc] at h
    dsimp only at h
    split at h
    · rename_i item hf
      simp only [bind_ok_iff] at h
      obtain ⟨_, hgrd, hres⟩ := h
      cases hres
      have hitem := List.mem_of_find?_eq_some hf
      have hkey := List.find?_some hf
      simp only [decide_eq_true_eq] at hkey
      have hsame := raiseFirst_eq_ok.mp hgrd
      simp only [List.forall_mem_cons, Bool.or_eq_false_iff, bne_eq_false_iff_eq] at hsame
      exact ⟨.found (himps ▸ hitem) hkey.1 hkey.2 hsame.1.2 hmem hsame.1.1.symm hsrcKey
        himps, hkeyed, hkept⟩
    · split at h
      · rename_i item hf
        cases h
        have hkey := List.find?_some hf
        simp only [decide_eq_true_eq] at hkey
        exact ⟨.finished hkey.2.2.2.1 himps, hkeyed, hkept⟩
      · cases h
        refine ⟨.created ?_ rfl rfl rfl rfl rfl rfl rfl rfl rfl hmem hown hsrcKey ?_,
          hkeyed, hkept⟩
        · show middle.imports.next = tables.imports.next
          rw [himps]
        · rw [himps]
          rfl

theorem findDuplicateImport_some (h : findDuplicateImport tables request prepared = some record) :
    ∃ item ∈ tables.imports.rows, ∃ source ∈ tables.sources.rows,
      record = toImport item source.sourceKey ∧ (item.status.finished = true ∨
        source.id = item.sourceId ∧ item.ownerId = request.ownerId ∧
          item.idempotencyKey = request.idempotencyKey) := by
  unfold findDuplicateImport at h
  split at h
  · rename_i item hf
    obtain ⟨source, hsrc, rfl⟩ := Option.map_eq_some_iff.mp h
    have hkey := List.find?_some hf
    have hsrcKey := List.find?_some hsrc
    simp only [decide_eq_true_eq] at hkey hsrcKey
    exact ⟨item, List.mem_of_find?_eq_some hf, source, List.mem_of_find?_eq_some hsrc,
      rfl, Or.inr ⟨hsrcKey.2, hkey⟩⟩
  · obtain ⟨source, hsrc, hmap⟩ := Option.bind_eq_some_iff.mp h
    obtain ⟨item, hf, rfl⟩ := Option.map_eq_some_iff.mp hmap
    have hkey := List.find?_some hf
    simp only [decide_eq_true_eq] at hkey
    exact ⟨item, List.mem_of_find?_eq_some hf, source, List.mem_of_find?_eq_some hsrc,
      rfl, Or.inl hkey.2.2.2.1⟩

/-! ## Steps -/

theorem Tended.raise (h : Tended state) (hcall : call ∈ state.calls)
    (hnone : call.phase.held = none) (error : StagingError) :
    Tended ⟨state.tables, state.setPhase call.id (.raised error)⟩ := by
  apply h.stay hcall
  · exact hnone.symm
  · intro hsome
    exact absurd rfl hsome
  · intro record hrep
    cases hrep

theorem Tended.reply (h : Tended state) (hcall : call ∈ state.calls)
    (hnone : call.phase.held = none) (hsrcIds : after.sources.Keyed fun source => source.id)
    (hkept : ∀ other ∈ state.tables.sources.rows, other ∈ after.sources.rows)
    (himps : after.imports = state.tables.imports) (hdone : record.status.finished = true) :
    Tended ⟨after, state.setPhase call.id (.returned record)⟩ := by
  refine h.go_on hcall ?_ hsrcIds hkept ?_ ?_ ?_ ?_ ?_
  · rw [himps]
    exact h.keyed
  · intro other ho
    rw [himps] at ho
    obtain ⟨source, hsrc, hfacts⟩ := h.sources other ho
    exact ⟨source, hkept source hsrc, hfacts⟩
  · intro other ho _
    exact himps ▸ ho
  · intro other ho
    refine Or.inr (Or.inr ⟨himps ▸ ho, ?_⟩)
    rw [hnone]
    exact (Option.some_ne_none _).symm
  · intro id hholds
    cases hholds
  · intro reply hrep
    cases hrep
    exact hdone

variable {sourceId : Nat}

theorem Tended.create (h : Tended state) (hcall : call ∈ state.calls)
    (hnone : call.phase.held = none) (hsrcIds : after.sources.Keyed fun source => source.id)
    (hkept : ∀ other ∈ state.tables.sources.rows, other ∈ after.sources.rows)
    (hid : item.id = state.tables.imports.next) (hown : item.ownerId = call.request.ownerId)
    (hsrc : item.sourceId = source.id) (hmem : source ∈ after.sources.rows)
    (hsrcOwn : source.ownerId = call.request.ownerId)
    (hhold : Holds after { call with phase := .beginning item.id sourceId } item)
    (himps : after.imports =
      ⟨state.tables.imports.rows ++ [item], state.tables.imports.next + 1⟩)
    : Tended ⟨after, state.setPhase call.id (.beginning item.id sourceId)⟩ := by
  have hnew : item ∈ after.imports.rows := by
    rw [himps]
    exact List.mem_append_right _ (List.mem_singleton_self _)
  have hrows : ∀ other ∈ after.imports.rows, other ∈ state.tables.imports.rows ∨ other = item := by
    intro other ho
    rw [himps] at ho
    exact (List.mem_append.mp ho).imp_right List.mem_singleton.mp
  have hfree : ∀ other ∈ state.calls, other.phase.held ≠ some item.id := by
    intro other ho hholds
    obtain ⟨found, hf, hfoundId, -⟩ := h.held other ho item.id hholds
    have hlt := h.keyed.lt found hf
    omega
  refine h.go_on hcall ?_ hsrcIds hkept ?_ ?_ ?_ ?_ ?_
  · rw [himps]
    exact h.keyed.append hid
  · intro other ho
    rcases hrows other ho with hb | rfl
    · obtain ⟨found, hf, hfacts⟩ := h.sources other hb
      exact ⟨found, hkept found hf, hfacts⟩
    · exact ⟨source, hmem, hsrcOwn.trans hown.symm, hsrc.symm⟩
  · intro other ho _
    rw [himps]
    exact List.mem_append_left _ ho
  · intro other ho
    rcases hrows other ho with hb | rfl
    · refine Or.inr (Or.inr ⟨hb, ?_⟩)
      rw [hnone]
      exact (Option.some_ne_none _).symm
    · exact Or.inr (Or.inl rfl)
  · intro id hholds
    cases hholds
    exact ⟨fun other ho _ => hfree other ho, item, hnew, rfl, hhold⟩
  · intro record hrep
    cases hrep

theorem transaction_looking (hph : call.phase = .looking)
    (h : call.transaction tables now = .ok (phase, after)) :
    after = tables ∧ (phase = .storing ∨ ∃ record, phase = .returned record ∧
      findDuplicateImport tables call.request call.prepared = some record ∧
      (record.idempotencyKey = call.request.idempotencyKey →
        record.sourceKey = call.request.sourceKey ∧
        record.packageHash = call.prepared.packageHash)) := by
  simp only [StageCall.transaction, hph] at h
  split at h
  · cases h
    exact ⟨rfl, Or.inl rfl⟩
  · rename_i duplicate hf
    rw [bind_ok_iff] at h
    obtain ⟨_, hgrd, hres⟩ := h
    cases hres
    have hsame := raiseFirst_eq_ok.mp hgrd
    simp only [List.forall_mem_cons, Bool.and_eq_false_imp, Bool.or_eq_false_iff, beq_iff_eq,
      bne_eq_false_iff_eq] at hsame
    exact ⟨rfl, Or.inr ⟨duplicate, rfl, hf, hsame.1⟩⟩

theorem transaction_creating (hph : call.phase = .creating)
    (h : call.transaction tables now = .ok (phase, after)) :
    ∃ record created, createStagedImport tables now call.request call.prepared =
      .ok (record, created, after) ∧
      phase = if created then .beginning record.id record.sourceId else .returned record := by
  simp only [StageCall.transaction, hph, bind_ok_iff] at h
  obtain ⟨⟨record, created, tables'⟩, hcre, hres⟩ := h
  cases created with
  | true =>
    cases hres
    exact ⟨record, true, hcre, rfl⟩
  | false =>
    cases hres
    exact ⟨record, false, hcre, rfl⟩

theorem transaction_beginning (hph : call.phase = .beginning importId sourceId)
    (hbegin : beginValidation call.env tables now call.request.ownerId importId =
      .ok (record, after))
    :
    ∃ phase, call.transaction tables now = .ok (phase, after) ∧ phase.held = some importId ∧
      phase.expected = .validating ∧ ∀ record, phase ≠ .returned record := by
  simp only [StageCall.transaction, hph, hbegin]
  cases hparsed : call.prepared.parsed with
  | error code =>
    exact ⟨.ending importId call.prepared.report (.error code), rfl, rfl, rfl, by simp⟩
  | ok parsed => exact ⟨.checking importId sourceId parsed, rfl, rfl, rfl, by simp⟩

variable {parsed : ParsedRoadmap}

theorem transaction_reading
    (hph : call.phase = .checking importId sourceId parsed ∨
      call.phase = .comparing importId sourceId parsed)
    (hacc : Accepted tables now call) :
    ∃ phase, call.transaction tables now = .ok (phase, tables) ∧
      phase.held = some importId ∧ phase.expected = .validating ∧
      ∀ record, phase ≠ .returned record := by
  rcases hph with hph | hph
  · simp only [StageCall.transaction, hph]
    split
    · exact ⟨_, rfl, rfl, rfl, by simp⟩
    · exact ⟨_, rfl, rfl, rfl, by simp⟩
  · simp only [StageCall.transaction, hph]
    split
    · rename_i hunreadable
      exact absurd hunreadable (hacc.readable _ _ _ hph)
    · exact ⟨_, rfl, rfl, rfl, by simp⟩

section Advance

variable (h : Tended state) (hcall : call ∈ state.calls)

include h hcall

theorem Tended.look (hph : call.phase = .looking)
    (hfree : ∀ other ∈ state.calls, other.phase.held ≠ none → ¬SameUpload other call) :
    Tended (state.advance call now) := by
  have hnone : call.phase.held = none := by
    rw [hph]
    rfl
  unfold Staging.advance
  split
  · rename_i phase after hok
    obtain ⟨rfl, hnext⟩ := transaction_looking hph hok
    rcases hnext with rfl | ⟨record, rfl, hf, hsame⟩
    · refine h.stay hcall ?_ ?_ ?_
      · exact hnone.symm
      · intro hsome
        exact absurd rfl hsome
      · intro record hrep
        cases hrep
    · obtain ⟨item, hitem, source, hsrc, rfl, hunused⟩ := findDuplicateImport_some hf
      refine h.stay hcall ?_ ?_ ?_
      · exact hnone.symm
      · intro hsome
        exact absurd rfl hsome
      · intro reply hrep
        cases hrep
        rcases hunused with hdone | ⟨hsrcId, hown, hkey⟩
        · exact hdone
        · obtain ⟨hsrcKey, hhash⟩ := hsame hkey
          exact h.looked_up hitem hfree hsrc hsrcId hsrcKey hown hkey hhash
  · exact h.raise hcall hnone _

theorem Tended.insert (hph : call.phase = .creating)
    (hfree : ∀ other ∈ state.calls, other.phase.held ≠ none → ¬SameUpload other call) :
    Tended (state.advance call now) := by
  have hnone : call.phase.held = none := by
    rw [hph]
    rfl
  unfold Staging.advance
  split
  · rename_i phase after hok
    obtain ⟨record, created, hcre, rfl⟩ := transaction_creating hph hok
    obtain ⟨hout, hsrcIds, hkept⟩ := createStagedImport_ok h.source_ids hcre
    cases hout with
    | @finished item sourceKey _ hdone himps =>
      exact h.reply hcall hnone hsrcIds hkept himps hdone
    | @found item source _ hitem hown hkey hhash hsrc hsrcId hsrcKey himps =>
      apply h.reply hcall hnone hsrcIds hkept himps
      obtain ⟨source', hsrc', -, hsrcId'⟩ := h.sources item hitem
      have hsrcs : source' = source :=
        hsrcIds.eq_of_key (hkept source' hsrc') hsrc (hsrcId'.trans hsrcId.symm)
      exact h.looked_up hitem hfree hsrc' hsrcId' (hsrcs ▸ hsrcKey) hown hkey hhash
    | @created item source _ hid hown hsrc hkey hhash hst hcoh hrep hdiff
        hstart hmem hsrcOwn hsrcKey himps =>
        refine h.create hcall hnone hsrcIds hkept hid hown hsrc hmem hsrcOwn ?_
          himps
        refine ⟨hown, hkey, hhash, ⟨source, hmem, hsrc.symm, hsrcKey⟩, hst,
          hcoh, hrep, hdiff, ?_⟩
        intro started hsome
        rw [hstart] at hsome
        cases hsome
  · exact h.raise hcall hnone _

theorem Tended.begin (hph : call.phase = .beginning importId sourceId)
    (hacc : Accepted state.tables now call) : Tended (state.advance call now) := by
  have hheld : call.phase.held = some importId := by
    rw [hph]
    rfl
  obtain ⟨item, hitem, sourceKey, hid, hhold, hlock⟩ := h.locked hcall hheld
  have hown : call.phase.held = some item.id := by
    rw [hheld, hid]
  have hst : item.status = .staged := by
    rw [hhold.status, hph]
    rfl
  obtain ⟨hclk, -⟩ := hacc.clock item hitem hown
  obtain ⟨record, hbegin⟩ := beginValidation_eq hlock hst hhold.coherent hhold.report
    hhold.diff hclk
  obtain ⟨phase, hok, hstill, hexpd, hrep⟩ := transaction_beginning hph hbegin
  have hfld := hhold.coherent
  simp only [importCoherent, hst, Bool.and_eq_true, Option.isNone_iff_eq_none] at hfld
  rw [Staging.advance, hok]
  refine h.rewrite hcall hitem hown ?_ ?_ ?_ ?_ ?_
  · rfl
  · rfl
  · rfl
  · refine Or.inr ⟨hstill.trans (congrArg some hid.symm), ?_⟩
    refine ⟨hhold.owner, hhold.key, hhold.hash, hhold.source, hexpd.symm, ?_,
      hhold.report, hhold.diff, ?_⟩
    · simp [importCoherent, hfld]
    · intro started hsome
      cases hsome
      exact hclk
  · intro reply hret
    exact absurd hret (hrep reply)

theorem Tended.read
    (hph : call.phase = .checking importId sourceId parsed ∨
      call.phase = .comparing importId sourceId parsed)
    (hacc : Accepted state.tables now call) : Tended (state.advance call now) := by
  have hb : call.phase.held = some importId ∧ call.phase.expected = .validating := by
    rcases hph with hph | hph
    · rw [hph]
      exact ⟨rfl, rfl⟩
    · rw [hph]
      exact ⟨rfl, rfl⟩
  obtain ⟨phase, hok, hstill, hexpd, hrep⟩ := transaction_reading hph hacc
  rw [Staging.advance, hok]
  apply h.stay hcall
  · exact hstill.trans hb.1.symm
  · intro _
    exact hexpd.trans hb.2.symm
  · intro record hret
    exact absurd hret (hrep record)

theorem Tended.end {report : Json} {res : Except ImportFailureCode Json}
    (hph : call.phase = .ending importId report res)
    (hacc : Accepted state.tables now call) : Tended (state.advance call now) := by
  have hheld : call.phase.held = some importId := by
    rw [hph]
    rfl
  obtain ⟨item, hitem, sourceKey, hid, hhold, hlock⟩ := h.locked hcall hheld
  have hown : call.phase.held = some item.id := by
    rw [hheld, hid]
  have hst : item.status = .validating := by
    rw [hhold.status, hph]
    rfl
  obtain ⟨-, hclk⟩ := hacc.clock item hitem hown
  obtain ⟨new, hnewId, howner, hsrc, hdone, hend⟩ := endValidation_eq report res
    hlock hst hhold.coherent hhold.diff hhold.started hclk
    (hacc.report_fits _ _ _ hph)
    (fun diff hdiff => hacc.diff_fits _ _ _ (hdiff ▸ hph))
  have hok : call.transaction state.tables now = .ok (.returned (toImport new sourceKey),
      { state.tables with
        imports := state.tables.imports.replace (fun item => item.id) new }) := by
    simp only [StageCall.transaction, hph, hend]
    rfl
  rw [Staging.advance, hok]
  refine h.rewrite hcall hitem hown hnewId howner hsrc ?_ ?_
  · exact Or.inl ⟨hdone, rfl⟩
  · intro reply hrep
    cases hrep
    exact hdone

theorem Tended.advance (hunder : call.phase.underWay = true)
    (hacc : call.phase.held ≠ none → Accepted state.tables now call)
    (hfree : call.phase.looksUp = true → ∀ other ∈ state.calls, other.phase.held ≠ none →
      ¬SameUpload other call) :
    Tended (state.advance call now) := by
  cases hph : call.phase with
  | looking => exact h.look hcall hph (hfree (by rw [hph]; rfl))
  | storing =>
    have hok : call.transaction state.tables now = .ok (.creating, state.tables) := by
      simp only [StageCall.transaction, hph]
      rfl
    rw [Staging.advance, hok]
    apply h.stay hcall
    · rw [hph]
      rfl
    · intro hsome
      exact absurd rfl hsome
    · intro record hrep
      cases hrep
  | creating => exact h.insert hcall hph (hfree (by rw [hph]; rfl))
  | beginning importId sourceId =>
    exact h.begin hcall hph (hacc (by rw [hph]; exact Option.some_ne_none _))
  | checking importId sourceId parsed =>
    exact h.read hcall (Or.inl hph)
      (hacc (by rw [hph]; exact Option.some_ne_none _))
  | comparing importId sourceId parsed =>
    exact h.read hcall (Or.inr hph)
      (hacc (by rw [hph]; exact Option.some_ne_none _))
  | ending importId report result =>
    exact h.end hcall hph (hacc (by rw [hph]; exact Option.some_ne_none _))
  | returned record =>
    rw [hph] at hunder
    cases hunder
  | raised error =>
    rw [hph] at hunder
    cases hunder

end Advance

theorem Tended.called (h : Tended state) (hfresh : ∀ other ∈ state.calls, other.id ≠ id) :
    Tended { state with calls := state.calls ++ [⟨id, env, request, prepared, .looking⟩] } := by
  have hcases : ∀ call ∈ state.calls ++ [⟨id, env, request, prepared, .looking⟩],
      call ∈ state.calls ∨ call = ⟨id, env, request, prepared, .looking⟩ := by
    intro call hcall
    exact (List.mem_append.mp hcall).imp_right List.mem_singleton.mp
  constructor
  · exact h.keyed
  · exact h.source_ids
  · rw [List.map_append, List.nodup_append]
    refine ⟨h.calls, List.nodup_singleton _, ?_⟩
    intro other ho new hnew hsame
    obtain ⟨call, hcall, rfl⟩ := List.mem_map.mp ho
    rw [List.map_singleton, List.mem_singleton] at hnew
    exact hfresh call hcall (hsame.trans hnew)
  · exact h.sources
  · intro item hitem
    refine (h.attended item hitem).imp_right ?_
    intro hhold
    obtain ⟨call, hcall, hholds⟩ := hhold
    exact ⟨call, List.mem_append_left _ hcall, hholds⟩
  · intro call hcall importId hholds
    rcases hcases call hcall with hb | rfl
    · exact h.held call hb importId hholds
    · cases hholds
  · intro call hcall other ho importId hholds hholds'
    rcases hcases call hcall with hb | rfl
    · rcases hcases other ho with hb' | rfl
      · exact h.alone call hb other hb' importId hholds hholds'
      · cases hholds'
    · cases hholds
  · intro call hcall record hrep
    rcases hcases call hcall with hb | rfl
    · exact h.returned call hb record hrep
    · cases hrep

theorem Tended.drop (h : Tended state)
    (hnone : ∀ call ∈ state.calls, call.id = id → call.phase.held = none) :
    Tended (state.drop id) := by
  have hb : ∀ call ∈ (state.drop id).calls, call ∈ state.calls := by
    intro call hcall
    exact List.mem_of_mem_filter hcall
  constructor
  · exact h.keyed
  · exact h.source_ids
  · exact h.calls.sublist (List.filter_sublist.map _)
  · exact h.sources
  · intro item hitem
    refine (h.attended item hitem).imp_right ?_
    intro hhold
    obtain ⟨call, hcall, hholds⟩ := hhold
    refine ⟨call, List.mem_filter.mpr ⟨hcall, ?_⟩, hholds⟩
    apply bne_iff_ne.mpr
    intro hid
    rw [hnone call hcall hid] at hholds
    cases hholds
  · intro call hcall
    exact h.held call (hb call hcall)
  · intro call hcall other ho
    exact h.alone call (hb call hcall) other (hb other ho)
  · intro call hcall
    exact h.returned call (hb call hcall)

theorem Tended.imported (h : Tended state) (hitem : item ∈ state.tables.imports.rows)
    (hvalidated : item.status = .validated) (ver : VersionPayload) :
    Tended { state with
      tables := { state.tables with
        imports := state.tables.imports.replace (fun item => item.id)
          { item with status := .imported },
        versions := state.tables.versions ++ [ver] } } := by
  constructor
  · exact h.keyed.replace _
  · exact h.source_ids
  · exact h.calls
  · intro other ho
    rcases Serial.mem_replace ho with rfl | ⟨hb, -⟩
    · exact h.sources item hitem
    · exact h.sources other hb
  · intro other ho
    rcases Serial.mem_replace ho with rfl | ⟨hb, -⟩
    · exact Or.inl rfl
    · exact h.attended other hb
  · intro call hcall id hholds
    obtain ⟨found, hf, hid, hhold⟩ := h.held call hcall id hholds
    refine ⟨found, Serial.mem_replace_of_ne hf ?_, hid, hhold.mono fun _ hsrc => hsrc⟩
    intro hsame
    have heq : found = item := h.keyed.eq_of_key hf hitem hsame
    have hst := hhold.status
    rw [heq, hvalidated] at hst
    cases hph : call.phase <;> rw [hph] at hst <;> cases hst
  · exact h.alone
  · exact h.returned

variable {next : Staging}

theorem Tended.step {event : StageEvent} (h : Tended state) (hstep : StageStep state event next)
    (hcondition : Unhindered ⟨state, event, next⟩) : Tended next := by
  cases hstep with
  | called hnew _ => exact h.called hnew
  | advanced now hcall hunder =>
    obtain ⟨hacc, hfree⟩ := hcondition _ hcall rfl
    exact h.advance hcall hunder hacc hfree
  | stopped hcall _ => exact h.drop hcondition
  | imported version hitem hvalidated => exact h.imported hitem hvalidated version

/-- In a run in which no call stops between creating its import and ending the
validation, its transactions are let through, and no call of the same upload does a
lookup meanwhile, every import that a call returns is finished. -/
theorem staged_imports_settle {start final : Staging}
    {trace : List (Transition Staging StageEvent)} (hstart : Settled start)
    (hrun : Run StageStep start trace final) (hsteps : ∀ step ∈ trace, Unhindered step) :
    ∀ call ∈ final.calls, ∀ record, call.phase = .returned record →
      record.status = .validated ∨ record.status = .rejected ∨ record.status = .imported := by
  have htended : (∀ step ∈ trace, Unhindered step) → Tended final := by
    refine hrun.invariant (I := fun trace state =>
      (∀ step ∈ trace, Unhindered step) → Tended state) ?_ ?_
    · intro _
      exact hstart.tended
    · intro trace before event after htended hstep hall
      have hearlier := htended fun step hmem => hall step (List.mem_append_left _ hmem)
      exact hearlier.step hstep
        (hall _ (List.mem_append_right _ (List.mem_singleton_self _)))
  intro call hcall record hreply
  have hdone := (htended hsteps).returned call hcall record hreply
  cases hstatus : record.status with
  | validated => exact Or.inl rfl
  | rejected => exact Or.inr (Or.inl rfl)
  | imported => exact Or.inr (Or.inr rfl)
  | staged | validating | failed =>
    rw [hstatus] at hdone
    cases hdone

/-! ## A package that is rejected -/

def sampleStagingEnv : StagingEnv where
  folderSha256 := fun _ => "00"
  parseRoadmap := fun _ => .error "roadmap package must carry roadmap.yaml at its root"
  diff := fun _ _ => none
  octets := fun _ => 2
  octets_empty := rfl

def sampleStageRequest : StageRequest where
  ownerId := 1
  sourceKey := "plan"
  sourceName := "Plan"
  sourceKind := "package"
  packageKind := "zip"
  idempotencyKey := "first"
  package := ⟨[], [], some "00"⟩

def samplePrepared : Prepared where
  packageHash := "00"
  report := rejectionReport "roadmap_validation_failed" none
    "roadmap package must carry roadmap.yaml at its root"
  parsed := .error .validationFailed

def sampleStageCall (id : Nat) (phase : StagePhase) : StageCall :=
  ⟨id, sampleStagingEnv, sampleStageRequest, samplePrepared, phase⟩

def sampleImport : RoadmapImport where
  id := 1
  ownerId := 1
  sourceId := 1
  packageHash := "00"
  objectKey := importObjectKey 1 "00"
  status := .staged
  validationReport := .object []
  semanticDiff := .object []
  idempotencyKey := "first"
  failureCode := none
  createdAt := 0
  startedAt := none
  completedAt := none

def emptyTables : ImportTables :=
  ⟨Serial.empty, Serial.empty, []⟩

def tablesWith (item : RoadmapImport) : ImportTables :=
  ⟨⟨[⟨1, 1, "plan", "Plan", "package"⟩], 2⟩, ⟨[item], 2⟩, []⟩

def validatingImport : RoadmapImport :=
  { sampleImport with status := .validating, startedAt := some 1 }

def rejectedImport : RoadmapImport :=
  { validatingImport with
    status := .rejected, validationReport := samplePrepared.report,
    failureCode := some .validationFailed, completedAt := some 2 }

def stagingWith (item : RoadmapImport) (calls : List StageCall) : Staging :=
  ⟨tablesWith item, calls⟩

def emptyStaging (calls : List StageCall) : Staging :=
  ⟨emptyTables, calls⟩

def endingPhase : StagePhase :=
  .ending 1 samplePrepared.report (.error .validationFailed)

def rejectedPhase : StagePhase :=
  .returned (toImport rejectedImport "plan")

theorem settled_empty : Settled (emptyStaging []) where
  keyed := Serial.keyed_empty _
  source_ids := Serial.keyed_empty _
  calls := rfl
  sources := by
    intro item hitem
    cases hitem
  finished := by
    intro item hitem
    cases hitem

theorem advanced_to (state next : Staging) (call : StageCall) (now : Instant)
    (hcall : call ∈ state.calls) (hunder : call.phase.underWay = true)
    (hnext : state.advance call now = next) :
    StageStep state (.advanced call.id now) next :=
  hnext ▸ .advanced now hcall hunder

theorem stopped_to (state next : Staging) (call : StageCall) (hcall : call ∈ state.calls)
    (hunder : call.phase.underWay = true) (hnext : state.drop call.id = next) :
    StageStep state (.stopped call.id) next :=
  hnext ▸ .stopped hcall hunder

theorem unhindered_alone (call : StageCall) (hcalls : state.calls = [call])
    (hacc : Accepted state.tables now call) :
    Unhindered ⟨state, .advanced call.id now, next⟩ := by
  intro other ho _
  rw [hcalls, List.mem_singleton] at ho
  subst ho
  refine ⟨fun _ => hacc, ?_⟩
  intro hlooks holder hhold hheld
  rw [hcalls, List.mem_singleton] at hhold
  subst hhold
  have hnone : holder.phase.held = none := by
    cases hph : holder.phase with
    | looking | storing | creating | returned | raised => rfl
    | beginning | checking | comparing | ending =>
      rw [hph] at hlooks
      cases hlooks
  exact absurd hnone hheld

theorem accepted_free (call : StageCall) (hnone : call.phase.held = none) (hlooks : ∀ importId sourceId parsed,
    call.phase ≠ .comparing importId sourceId parsed) (hends : ∀ importId report res,
    call.phase ≠ .ending importId report res) : Accepted tables now call where
  clock := by
    intro item _ hheld
    rw [hnone] at hheld
    cases hheld
  report_fits := fun _ _ _ hph => absurd hph (hends _ _ _)
  diff_fits := fun _ _ _ hph => absurd hph (hends _ _ _)
  readable := fun _ _ _ hph => absurd hph (hlooks _ _ _)

theorem called_sample (item : Option RoadmapImport) (id : Nat) :
    StageStep ⟨(item.map tablesWith).getD emptyTables, []⟩ (.called id)
      ⟨(item.map tablesWith).getD emptyTables, [sampleStageCall id .looking]⟩ :=
  .called (fun _ ho => absurd ho List.not_mem_nil) rfl

def creating : List (Transition Staging StageEvent) :=
  [⟨emptyStaging [], .called 0, emptyStaging [sampleStageCall 0 .looking]⟩,
    ⟨emptyStaging [sampleStageCall 0 .looking], .advanced 0 0,
      emptyStaging [sampleStageCall 0 .storing]⟩,
    ⟨emptyStaging [sampleStageCall 0 .storing], .advanced 0 0,
      emptyStaging [sampleStageCall 0 .creating]⟩,
    ⟨emptyStaging [sampleStageCall 0 .creating], .advanced 0 0,
      stagingWith sampleImport [sampleStageCall 0 (.beginning 1 1)]⟩]

theorem run_creating : Run StageStep (emptyStaging []) creating
    (stagingWith sampleImport [sampleStageCall 0 (.beginning 1 1)]) := by
  have hlooked := (Run.single (called_sample none 0)).snoc
    (advanced_to _ (emptyStaging [sampleStageCall 0 .storing]) (sampleStageCall 0 .looking) 0
      (List.mem_singleton_self _) rfl rfl)
  have hsto := hlooked.snoc
    (advanced_to _ (emptyStaging [sampleStageCall 0 .creating]) (sampleStageCall 0 .storing) 0
      (List.mem_singleton_self _) rfl rfl)
  exact hsto.snoc
    (advanced_to _ (stagingWith sampleImport [sampleStageCall 0 (.beginning 1 1)])
      (sampleStageCall 0 .creating) 0 (List.mem_singleton_self _) rfl rfl)

def rejecting : List (Transition Staging StageEvent) :=
  [⟨stagingWith sampleImport [sampleStageCall 0 (.beginning 1 1)], .advanced 0 1,
      stagingWith validatingImport [sampleStageCall 0 endingPhase]⟩,
    ⟨stagingWith validatingImport [sampleStageCall 0 endingPhase], .advanced 0 2,
      stagingWith rejectedImport [sampleStageCall 0 rejectedPhase]⟩]

theorem run_rejecting :
    Run StageStep (stagingWith sampleImport [sampleStageCall 0 (.beginning 1 1)]) rejecting
      (stagingWith rejectedImport [sampleStageCall 0 rejectedPhase]) := by
  have hbegun := Run.single (advanced_to
    (stagingWith sampleImport [sampleStageCall 0 (.beginning 1 1)])
    (stagingWith validatingImport [sampleStageCall 0 endingPhase])
    (sampleStageCall 0 (.beginning 1 1)) 1 (List.mem_singleton_self _) rfl rfl)
  exact hbegun.snoc
    (advanced_to _ (stagingWith rejectedImport [sampleStageCall 0 rejectedPhase])
      (sampleStageCall 0 endingPhase) 2 (List.mem_singleton_self _) rfl rfl)

theorem unhindered_sample : ∀ step ∈ creating ++ rejecting, Unhindered step := by
  have hbegins : Accepted (tablesWith sampleImport) 1 (sampleStageCall 0 (.beginning 1 1)) := by
    refine ⟨?_, by simp [sampleStageCall], by simp [sampleStageCall], by simp [sampleStageCall]⟩
    intro item hitem _
    rw [List.mem_singleton.mp hitem]
    exact ⟨by decide, by simp [sampleImport]⟩
  have hends : Accepted (tablesWith validatingImport) 2 (sampleStageCall 0 endingPhase) := by
    refine ⟨?_, fun _ _ _ _ => ?_, fun _ _ _ _ => ?_, by simp [sampleStageCall, endingPhase]⟩
    · intro item hitem _
      rw [List.mem_singleton.mp hitem]
      exact ⟨by decide, by simp [validatingImport]⟩
    · show 2 ≤ 1048576
      omega
    · show 2 ≤ 1048576
      omega
  intro step hstep
  simp only [creating, rejecting, List.cons_append, List.nil_append, List.mem_cons,
    List.not_mem_nil, or_false] at hstep
  rcases hstep with rfl | rfl | rfl | rfl | rfl | rfl
  · trivial
  · exact unhindered_alone (sampleStageCall 0 .looking) rfl
      (accepted_free _ rfl (by simp [sampleStageCall]) (by simp [sampleStageCall]))
  · exact unhindered_alone (sampleStageCall 0 .storing) rfl
      (accepted_free _ rfl (by simp [sampleStageCall]) (by simp [sampleStageCall]))
  · exact unhindered_alone (sampleStageCall 0 .creating) rfl
      (accepted_free _ rfl (by simp [sampleStageCall]) (by simp [sampleStageCall]))
  · exact unhindered_alone (sampleStageCall 0 (.beginning 1 1)) rfl hbegins
  · exact unhindered_alone (sampleStageCall 0 endingPhase) rfl hends

/-- A call that goes on to the end returns a rejected import. -/
theorem staged_imports_settle_sample :
    (toImport rejectedImport "plan").status = .validated ∨
      (toImport rejectedImport "plan").status = .rejected ∨
      (toImport rejectedImport "plan").status = .imported :=
  staged_imports_settle settled_empty (run_creating.append run_rejecting) unhindered_sample
    (sampleStageCall 0 rejectedPhase) (List.mem_singleton_self _) _ rfl

/-- A call that stops after it created its import leaves it staged, and the next
call with the same request returns it so. -/
theorem staged_import_stuck :
    ¬ ∀ (trace : List (Transition Staging StageEvent)) (final : Staging),
      Run StageStep (emptyStaging []) trace final → ∀ step ∈ trace,
      ∀ earlier ∈ step.before.calls, ∀ call ∈ final.calls, earlier.request = call.request →
      earlier.id ≠ call.id → ∀ record, call.phase = .returned record →
      record.status = .validated ∨ record.status = .rejected ∨ record.status = .imported := by
  intro hclaim
  have hstopped := run_creating.snoc (stopped_to _ (stagingWith sampleImport [])
    (sampleStageCall 0 (.beginning 1 1)) (List.mem_singleton_self _) rfl rfl)
  have hcalled := hstopped.snoc (called_sample (some sampleImport) 1)
  have hreturned := hcalled.snoc (advanced_to _
    (stagingWith sampleImport [sampleStageCall 1 (.returned (toImport sampleImport "plan"))])
    (sampleStageCall 1 .looking) 1 (List.mem_singleton_self _) rfl rfl)
  have hstuck := hclaim _ _ hreturned
    ⟨emptyStaging [sampleStageCall 0 .looking], .advanced 0 0,
      emptyStaging [sampleStageCall 0 .storing]⟩ (by simp [creating])
    (sampleStageCall 0 .looking) (List.mem_singleton_self _)
    (sampleStageCall 1 (.returned (toImport sampleImport "plan"))) (List.mem_singleton_self _)
    rfl (by decide) _ rfl
  revert hstuck
  decide

end TamForge.Roadmaps
