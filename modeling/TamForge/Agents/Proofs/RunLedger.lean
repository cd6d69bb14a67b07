import TamForge.Agents.ModelRuns

/-!
# The ledger over whole runs

What one accepted or refused call does to the tables, the invariant that these
facts keep up, and from it what holds after any interleaving of submissions,
events and tool audits.
-/

namespace TamForge.Agents

open Models ProofSupport
open Recordings (hexdigest)

variable {world : Surroundings} {tables after : Tables} {request : RunRequest}
  {original : OriginalText} {items : List ContextPayload} {run : ModelRun}

/-! ## What one call does -/

theorem silent_eq_ok {α : Type} {res : Except ProvenanceError α} {value : α} :
    silent res = .ok value ↔ res = .ok value :=
  mapError_ok_iff

theorem verified_eq_ok {other : ModelRun} (h : run.verified = .ok other) :
    other = run ∧ recordHash run.payload.dump = run.contentHash := by
  rw [ModelRun.verified] at h
  split at h
  · exact ⟨(Except.ok.inj h).symm, ‹_›⟩
  · cases h

theorem resolveContext_ok {item : ContextInput} {payload : ContextPayload}
    (h : resolveContext request original item = .ok payload) :
    payload = contextPayload request original item := by
  obtain ⟨resolved, -, h⟩ := bind_ok_iff.mp h
  split at h
  · cases h
  · exact (Except.ok.inj h).symm

/-- A prepared request satisfies its contract, and its context rows are those of
its items. -/
theorem prepare_ok (h : prepare world request = .ok (original, items)) :
    request.valid = true ∧ items = request.context.map (contextPayload request original) := by
  rw [prepare] at h
  split at h
  · rename_i hval
    obtain ⟨-, -, h⟩ := bind_ok_iff.mp h
    obtain ⟨⟨att, text⟩, -, h⟩ := bind_ok_iff.mp h
    simp only at h
    split at h
    · cases h
    · obtain ⟨found, hf, h⟩ := bind_ok_iff.mp h
      obtain ⟨rfl, rfl⟩ := Prod.mk.inj (Except.ok.inj h)
      have hmap : found.map id = request.context.map (contextPayload request text) :=
        mapM_ok_map (silent_eq_ok.mp hf) fun item payload hitem => resolveContext_ok hitem
      exact ⟨hval, by simpa using hmap⟩
  · cases h

/-- The classification is less than the attempt's own text calls for. -/
def understated (world : Surroundings) (request : RunRequest) : Bool :=
  request.valid && (lockOwner world request.ownerId).isOk &&
    match committedAttempt world request with
    | .ok (attempt, _) =>
      understates request.classification (deriveSubmissionScope attempt.attemptKind)
    | .error _ => false

def reusedKey (world : Surroundings) (tables : Tables) (request : RunRequest) : Bool :=
  match prepare world request with
  | .ok (original, _) =>
    tables.runs.rows.any fun run =>
      decide (run.key = (request.ownerId, request.invocationKey)) &&
        !run.payload.sameContent (runHeader request original)
  | .error _ => false

variable {refusal : Refusal}

theorem silent_error {α : Type} {res : Except ProvenanceError α}
    (h : silent res = .error refusal) :
    ∃ error, res = .error error ∧ refusal = ⟨error, none⟩ := by
  cases res with
  | ok value => cases h
  | error error => exact ⟨error, rfl, (Except.error.inj h).symm⟩

/-- The gates up to the key either refuse an understated classification or leave
nothing to audit. -/
theorem prepare_error (h : prepare world request = .error refusal) :
    (understated world request = true ∧
        refusal = ⟨.invalidProvenance, some .unauthorized⟩) ∨
      (understated world request = false ∧ refusal.audit = none) := by
  rw [prepare] at h
  split at h
  · rename_i hval
    rcases bind_error_iff.mp h with hown | ⟨⟨⟩, hown, h⟩
    · obtain ⟨error, hlock, rfl⟩ := silent_error hown
      exact Or.inr ⟨by simp [understated, hlock, Except.isOk, Except.toBool], rfl⟩
    · have hlock : lockOwner world request.ownerId = .ok () := silent_eq_ok.mp hown
      rcases bind_error_iff.mp h with hatt | ⟨⟨att, text⟩, hatt, h⟩
      · obtain ⟨error, hf, rfl⟩ := silent_error hatt
        exact Or.inr ⟨by simp [understated, hf], rfl⟩
      · have hunderstated : understated world request =
            understates request.classification (deriveSubmissionScope att.attemptKind) := by
          simp [understated, hval, hlock, silent_eq_ok.mp hatt, Except.isOk, Except.toBool]
        simp only at h
        split at h
        · rename_i hless
          exact Or.inl ⟨hunderstated.trans hless, (Except.error.inj h).symm⟩
        · rename_i hless
          rcases bind_error_iff.mp h with hitems | ⟨found, -, h⟩
          · obtain ⟨error, -, rfl⟩ := silent_error hitems
            exact Or.inr ⟨hunderstated.trans (Bool.eq_false_iff.mpr hless), rfl⟩
          · cases h
  · rename_i hval
    refine Or.inr ⟨by simp [understated, hval], ?_⟩
    rw [← Except.error.inj h]

theorem not_understated (h : prepare world request = .ok (original, items)) :
    understated world request = false := by
  rw [prepare] at h
  split at h
  · obtain ⟨-, -, h⟩ := bind_ok_iff.mp h
    obtain ⟨⟨att, text⟩, hatt, h⟩ := bind_ok_iff.mp h
    simp only at h
    split at h
    · cases h
    · rename_i hless
      simp [understated, silent_eq_ok.mp hatt, hless]
  · cases h

theorem register_eq (hprep : prepare world request = .ok (original, items)) :
    register world tables request =
      match existingRun tables request with
      | some existing => replayRun tables request (runHeader request original) existing
      | none =>
        if runAccepted world tables (runHeader request original) &&
            items.all (contextAccepted original) then
          .ok (insertRun tables request original items)
        else .error ⟨.invalidProvenance, none⟩ := by
  rw [register, hprep]
  rfl

theorem replayRun_ok {header : RunPayload} {old : ModelRun}
    (h : replayRun tables request header old = .ok (run, after)) :
    run = old ∧ run.payload.sameContent header = true ∧
      after = { tables with audits := tables.audits ++ [auditRow request .none true] } := by
  obtain ⟨found, hverified, hbody⟩ := bind_ok_iff.mp h
  obtain ⟨rfl, -⟩ := verified_eq_ok (silent_eq_ok.mp hverified)
  split at hbody
  · rename_i hsame
    obtain ⟨rfl, rfl⟩ := Prod.mk.inj (Except.ok.inj hbody)
    exact ⟨rfl, hsame, rfl⟩
  · cases hbody

theorem register_ok (h : register world tables request = .ok (run, after)) :
    ∃ original items, prepare world request = .ok (original, items) ∧
      ((existingRun tables request = some run ∧
          run.payload.sameContent (runHeader request original) = true ∧
          after = { tables with audits := tables.audits ++ [auditRow request .none true] }) ∨
        (existingRun tables request = none ∧
          (run, after) = insertRun tables request original items)) := by
  obtain ⟨⟨original, items⟩, hprep, -⟩ := bind_ok_iff.mp h
  refine ⟨original, items, hprep, ?_⟩
  rw [register_eq hprep] at h
  cases hold : existingRun tables request with
  | some existing =>
    simp only [hold] at h
    obtain ⟨rfl, hsame, rfl⟩ := replayRun_ok h
    exact Or.inl ⟨rfl, hsame, rfl⟩
  | none =>
    simp only [hold] at h
    split at h
    · exact Or.inr ⟨rfl, (Except.ok.inj h).symm⟩
    · cases h

theorem mem_of_existing (h : existingRun tables request = some run) :
    run ∈ tables.runs.rows ∧ run.key = (request.ownerId, request.invocationKey) := by
  refine ⟨List.mem_of_find?_eq_some h, ?_⟩
  simpa using List.find?_some h

theorem existing_of_mem (hkeys : (tables.runs.rows.map ModelRun.key).Nodup)
    (hrun : run ∈ tables.runs.rows) (hkey : run.key = (request.ownerId, request.invocationKey)) :
    existingRun tables request = some run := by
  have hlook := Table.lookup_of_mem hkeys hrun
  rw [hkey] at hlook
  exact hlook

/-- The submission of a key that is taken. -/
theorem register_existing (hprep : prepare world request = .ok (original, items))
    (hold : existingRun tables request = some run)
    (hhash : run.contentHash = recordHash run.payload.dump) :
    register world tables request =
      if run.payload.sameContent (runHeader request original) then
        .ok (run, { tables with audits := tables.audits ++ [auditRow request .none true] })
      else .error ⟨.immutableVersionConflict, some .conflict⟩ := by
  have hverified : run.verified = .ok run := by
    rw [ModelRun.verified, if_pos hhash.symm]
  rw [register_eq hprep, hold]
  show replayRun tables request (runHeader request original) run = _
  simp only [replayRun, hverified, silent, Except.mapError, bind, Except.bind]

theorem reusedKey_eq (hprep : prepare world request = .ok (original, items))
    (hkeys : (tables.runs.rows.map ModelRun.key).Nodup) :
    reusedKey world tables request =
      match existingRun tables request with
      | some existing => !existing.payload.sameContent (runHeader request original)
      | none => false := by
  unfold reusedKey
  rw [hprep]
  cases hold : existingRun tables request with
  | some existing =>
    obtain ⟨hmem, hkey⟩ := mem_of_existing hold
    rw [Bool.eq_iff_iff, List.any_eq_true]
    constructor
    · rintro ⟨run, hrun, ho⟩
      rw [Bool.and_eq_true, decide_eq_true_iff] at ho
      have hf := existing_of_mem hkeys hrun ho.1
      have hsame : run = existing := Option.some.inj (hf.symm.trans hold)
      exact hsame ▸ ho.2
    · intro ho
      exact ⟨existing, hmem, by simp [hkey, ho]⟩
  | none =>
    have hnone := Table.lookup_eq_none.mp hold
    rw [List.any_eq_false]
    intro run hrun
    simp [hnone run hrun]

theorem register_error (hkeys : (tables.runs.rows.map ModelRun.key).Nodup)
    (hhash : ∀ run ∈ tables.runs.rows, run.contentHash = recordHash run.payload.dump)
    (h : register world tables request = .error refusal) :
    refusal.audit = (if understated world request then some .unauthorized
      else if reusedKey world tables request then some .conflict else none) ∧
    (understated world request = true → refusal.error = .invalidProvenance) := by
  rcases bind_error_iff.mp h with hgate | ⟨⟨original, items⟩, hprep, -⟩
  · have hreused : reusedKey world tables request = false := by
      unfold reusedKey
      rw [hgate]
    rcases prepare_error hgate with ⟨hless, rfl⟩ | ⟨hless, haudit⟩
    · simp [hless]
    · simp [hless, hreused, haudit]
  · have hless := not_understated hprep
    rw [hless, reusedKey_eq hprep hkeys]
    refine ⟨?_, by simp⟩
    cases hold : existingRun tables request with
    | some existing =>
      rw [register_existing hprep hold (hhash existing (mem_of_existing hold).1)] at h
      cases hsame : existing.payload.sameContent (runHeader request original) with
      | true => simp [hsame] at h
      | false =>
        simp only [hsame, Bool.false_eq_true, if_false, Except.error.injEq] at h
        simp [← h, hsame]
    | none =>
      simp only [register_eq hprep, hold] at h
      split at h
      · cases h
      · simp [← Except.error.inj h]

theorem register_accepted (hkeys : (tables.runs.rows.map ModelRun.key).Nodup)
    (h : register world tables request = .ok (run, after)) :
    understated world request = false ∧ reusedKey world tables request = false := by
  obtain ⟨original, items, hprep, hcases⟩ := register_ok h
  refine ⟨not_understated hprep, ?_⟩
  rw [reusedKey_eq hprep hkeys]
  rcases hcases with ⟨hold, hsame, -⟩ | ⟨hold, -⟩
  · simp [hold, hsame]
  · simp [hold]

theorem lockedRun_ok {ownerId : Nat} {runHash : Digest}
    (h : lockedRun tables ownerId runHash = .ok run) :
    run ∈ tables.runs.rows ∧
      tables.runs.rows.find? (fun other => other.ownerId = ownerId && other.contentHash = runHash) =
        some run := by
  rw [lockedRun] at h
  split at h
  · cases h
  · cases hfind : tables.runs.rows.find? fun other =>
      other.ownerId = ownerId && other.contentHash = runHash with
    | none => simp [hfind] at h
    | some found =>
      simp only [hfind] at h
      obtain ⟨rfl, -⟩ := verified_eq_ok h
      exact ⟨List.mem_of_find?_eq_some hfind, rfl⟩

variable {previous : RunState} {event : Lifecycle}

theorem validateTransition_ok :
    validateTransition previous event = .ok () ↔ event.state ∈ previous.allowed := by
  rw [validateTransition]
  split <;> simp_all

/-- An accepted event is appended at the expected place, by an allowed
transition. -/
theorem appendEvent_ok {call : EventCall} {row : ModelRunEvent}
    (h : appendEvent tables call = .ok (row, after)) :
    ∃ run, lockedRun tables call.ownerId call.runHash = .ok run ∧
      sequenceOf (latestEvent tables run.id) = call.expectedSequence ∧
      stateOf (latestEvent tables run.id) = call.expectedState ∧
      validateTransition call.expectedState call.event = .ok () ∧
      row = newEvent call run.id call.expectedSequence tables.events.next ∧
      after = { tables with
        events := { rows := tables.events.rows ++ [row], next := tables.events.next + 1 } } := by
  rw [appendEvent] at h
  split at h
  · obtain ⟨run, hlock, h⟩ := bind_ok_iff.mp h
    refine ⟨run, hlock, ?_⟩
    simp only at h
    split at h
    · cases h
    · rename_i hexpd
      obtain ⟨hseq, hst⟩ := Prod.mk.inj (not_not.mp hexpd)
      obtain ⟨⟨⟩, htrans, h⟩ := bind_ok_iff.mp h
      split at h
      · obtain ⟨rfl, rfl⟩ := Prod.mk.inj (Except.ok.inj h)
        rw [hst] at htrans
        refine ⟨hseq, hst, htrans, ?_, rfl⟩
        rw [← hseq]
        rfl
      · cases h
  · cases h

theorem appendTool_ok {call : ToolCall} {row : AgentToolCall}
    (h : appendTool world tables call = .ok (row, after)) :
    ∃ run, lockedRun tables call.ownerId call.runHash = .ok run ∧
      toolSequenceOf (latestTool tables run.id) = call.expectedSequence ∧
      row = newTool call run.id call.expectedSequence tables.tools.next ∧
      after = { tables with
        tools := { rows := tables.tools.rows ++ [row], next := tables.tools.next + 1 } } := by
  rw [appendTool] at h
  split at h
  · obtain ⟨run, hlock, h⟩ := bind_ok_iff.mp h
    refine ⟨run, hlock, ?_⟩
    simp only at h
    split at h
    · cases h
    · rename_i hexpd
      have hseq := not_not.mp hexpd
      split at h
      · obtain ⟨rfl, rfl⟩ := Prod.mk.inj (Except.ok.inj h)
        refine ⟨hseq, ?_, rfl⟩
        rw [← hseq]
        rfl
      · cases h
  · cases h

/-! ## The invariant -/

/-- The events follow one another by `validate_transition` from this state on. -/
def IsPath : RunState → List Lifecycle → Prop
  | _, [] => True
  | previous, event :: rest =>
    validateTransition previous event = .ok () ∧ IsPath event.state rest

def endState (previous : RunState) (events : List Lifecycle) : RunState :=
  events.foldl (fun _ event => event.state) previous

theorem IsPath.snoc {evs : List Lifecycle} (h : IsPath previous evs)
    (hev : validateTransition (endState previous evs) event = .ok ()) :
    IsPath previous (evs ++ [event]) := by
  induction evs generalizing previous with
  | nil => exact ⟨hev, trivial⟩
  | cons first rest ih => exact ⟨h.1, ih h.2 hev⟩

theorem IsPath.final {left right : List Lifecycle} (h : IsPath previous (left ++ event :: right))
    (hend : event.state.allowed = []) : right = [] := by
  induction left generalizing previous with
  | nil =>
    cases right with
    | nil => rfl
    | cons next rest =>
      have hok := validateTransition_ok.mp h.2.1
      rw [hend] at hok
      cases hok
  | cons first rest ih => exact ih h.2

/-- The rows under one run: its context is its manifest, its events are numbered
and follow one another, its tool audits are numbered. -/
structure RunRecord (tables : Tables) (run : ModelRun) : Prop where
  manifest : (tables.contextsOf run.id).map (fun row => hexdigest row.contentHash) =
    run.payload.manifest
  ordinals : (tables.contextsOf run.id).map ModelRunContextItem.ordinal =
    List.range run.payload.manifest.length
  numbered : Numbered ModelRunEvent.sequence (tables.eventsOf run.id)
  path : IsPath .registered ((tables.eventsOf run.id).map fun row => row.payload.event)
  tools : Numbered AgentToolCall.sequence (tables.toolsOf run.id)

structure Sound (tables : Tables) : Prop where
  keyed : tables.runs.Keyed ModelRun.id
  keys : (tables.runs.rows.map ModelRun.key).Nodup
  hashes : ∀ run ∈ tables.runs.rows, run.contentHash = recordHash run.payload.dump
  contextRuns : ∀ row ∈ tables.contexts.rows, row.runId < tables.runs.next
  eventRuns : ∀ row ∈ tables.events.rows, row.runId < tables.runs.next
  toolRuns : ∀ row ∈ tables.tools.rows, row.runId < tables.runs.next
  records : ∀ run ∈ tables.runs.rows, RunRecord tables run

theorem sound_empty : Sound Tables.empty where
  keyed := Serial.keyed_empty _
  keys := List.nodup_nil
  hashes := by simp [Tables.empty, Serial.empty]
  contextRuns := by simp [Tables.empty, Serial.empty]
  eventRuns := by simp [Tables.empty, Serial.empty]
  toolRuns := by simp [Tables.empty, Serial.empty]
  records := by simp [Tables.empty, Serial.empty]

theorem Sound.audit (h : Sound tables) (audits : List AuditEvent) :
    Sound { tables with audits := audits } where
  keyed := h.keyed
  keys := h.keys
  hashes := h.hashes
  contextRuns := h.contextRuns
  eventRuns := h.eventRuns
  toolRuns := h.toolRuns
  records := fun run hrun => ⟨(h.records run hrun).manifest, (h.records run hrun).ordinals,
    (h.records run hrun).numbered, (h.records run hrun).path, (h.records run hrun).tools⟩

theorem RunRecord.latest (h : RunRecord tables run) :
    sequenceOf (latestEvent tables run.id) = (tables.eventsOf run.id).length ∧
      stateOf (latestEvent tables run.id) =
        endState .registered ((tables.eventsOf run.id).map fun row => row.payload.event) := by
  rcases h.numbered.latest with ⟨hlast, hnil⟩ | ⟨init, last, hrows, hlast, hnum⟩
  · rw [latestEvent, hlast, hnil]
    exact ⟨rfl, rfl⟩
  · rw [latestEvent, hlast]
    refine ⟨hnum, ?_⟩
    rw [hrows, endState, List.map_append, List.foldl_append]
    rfl

theorem RunRecord.latestTool (h : RunRecord tables run) :
    toolSequenceOf (latestTool tables run.id) = (tables.toolsOf run.id).length := by
  rcases h.tools.latest with ⟨hlast, hnil⟩ | ⟨init, last, -, hlast, hnum⟩
  · rw [Agents.latestTool, hlast, hnil]
    rfl
  · rw [Agents.latestTool, hlast]
    exact hnum

theorem filter_snoc {α : Type} (rows : List α) (row : α) (runOf : α → Nat) (runId : Nat) :
    (rows ++ [row]).filter (fun other => runOf other = runId) =
      rows.filter (fun other => runOf other = runId) ++ if runOf row = runId then [row] else [] := by
  rw [List.filter_append]
  by_cases h : runOf row = runId <;> simp [h]

theorem Sound.appendEvent (h : Sound tables) {call : EventCall} {row : ModelRunEvent}
    (hcall : Agents.appendEvent tables call = .ok (row, after)) : Sound after := by
  obtain ⟨run, hlock, hseq, hst, htrans, hrow, rfl⟩ := appendEvent_ok hcall
  have hrun := (lockedRun_ok hlock).1
  have hrowRun : row.runId = run.id := by rw [hrow]; rfl
  refine ⟨h.keyed, h.keys, h.hashes, h.contextRuns, ?_, h.toolRuns, ?_⟩
  · intro other ho
    rcases List.mem_append.mp ho with hold | hnew
    · exact h.eventRuns other hold
    · rw [List.mem_singleton.mp hnew, hrowRun]
      exact h.keyed.lt run hrun
  · intro other ho
    have hold := h.records other ho
    have hevs : Tables.eventsOf { tables with
        events := { rows := tables.events.rows ++ [row], next := tables.events.next + 1 } }
        other.id = tables.eventsOf other.id ++ if row.runId = other.id then [row] else [] :=
      filter_snoc tables.events.rows row (·.runId) other.id
    by_cases hsame : row.runId = other.id
    · obtain rfl : run = other := h.keyed.eq_of_key hrun ho (hrowRun.symm.trans hsame)
      rw [if_pos hsame] at hevs
      obtain ⟨hcnt, hend⟩ := hold.latest
      refine ⟨hold.manifest, hold.ordinals, ?_, ?_, hold.tools⟩
      · rw [hevs]
        apply hold.numbered.append
        rw [hrow, ← hcnt, hseq]
        rfl
      · rw [hevs, List.map_append]
        apply hold.path.snoc
        rw [← hend, hst, hrow]
        exact htrans
    · rw [if_neg hsame, List.append_nil] at hevs
      refine ⟨hold.manifest, hold.ordinals, ?_, ?_, hold.tools⟩
      · rw [hevs]
        exact hold.numbered
      · rw [hevs]
        exact hold.path

theorem Sound.appendTool (h : Sound tables) {call : ToolCall} {row : AgentToolCall}
    (hcall : Agents.appendTool world tables call = .ok (row, after)) : Sound after := by
  obtain ⟨run, hlock, hseq, hrow, rfl⟩ := appendTool_ok hcall
  have hrun := (lockedRun_ok hlock).1
  have hrowRun : row.runId = run.id := by rw [hrow]; rfl
  refine ⟨h.keyed, h.keys, h.hashes, h.contextRuns, h.eventRuns, ?_, ?_⟩
  · intro other ho
    rcases List.mem_append.mp ho with hold | hnew
    · exact h.toolRuns other hold
    · rw [List.mem_singleton.mp hnew, hrowRun]
      exact h.keyed.lt run hrun
  · intro other ho
    have hold := h.records other ho
    have htools : Tables.toolsOf { tables with
        tools := { rows := tables.tools.rows ++ [row], next := tables.tools.next + 1 } }
        other.id = tables.toolsOf other.id ++ if row.runId = other.id then [row] else [] :=
      filter_snoc tables.tools.rows row (·.runId) other.id
    refine ⟨hold.manifest, hold.ordinals, hold.numbered, hold.path, ?_⟩
    rw [htools]
    by_cases hsame : row.runId = other.id
    · obtain rfl : run = other := h.keyed.eq_of_key hrun ho (hrowRun.symm.trans hsame)
      rw [if_pos hsame]
      apply hold.tools.append
      rw [hrow, ← hold.latestTool, hseq]
      rfl
    · rw [if_neg hsame, List.append_nil]
      exact hold.tools

theorem map_newContexts {β : Type} {column : ModelRunContextItem → β} (runId : Nat)
    (hcol : ∀ payload id,
      column (newContext request runId payload id) = column (newContext request runId payload 0)) :
    (tables.contexts.insertAll (items.map (newContext request runId))).1.map column =
      items.map fun payload => column (newContext request runId payload 0) := by
  rw [Serial.insertAll_map tables.contexts
    (g := fun make : Nat → ModelRunContextItem => column (make 0)), List.map_map]
  · rfl
  · intro make hmake id
    obtain ⟨payload, -, rfl⟩ := List.mem_map.mp hmake
    exact hcol payload id

theorem newContexts_runId {row : ModelRunContextItem} {runId : Nat}
    (h : row ∈ (tables.contexts.insertAll (items.map (newContext request runId))).1) :
    row.runId = runId := by
  obtain ⟨make, hmake, id, rfl⟩ := Serial.mem_insertAll h
  obtain ⟨payload, -, rfl⟩ := List.mem_map.mp hmake
  rfl

theorem filter_eq_nil_of_lt {α : Type} {rows : List α} {runOf : α → Nat} {next : Nat}
    (h : ∀ row ∈ rows, runOf row < next) : rows.filter (fun row => runOf row = next) = [] := by
  apply List.filter_eq_nil_iff.mpr
  intro row hrow
  have hlt := h row hrow
  simp only [decide_eq_true_eq]
  omega

theorem Sound.insertRun (h : Sound tables) (hprep : prepare world request = .ok (original, items))
    (hexisting : existingRun tables request = none) :
    Sound (Agents.insertRun tables request original items).2 := by
  obtain ⟨hval, hitems⟩ := prepare_ok hprep
  have hordinals : request.context.map (·.ordinal) = List.range request.context.length := by
    simp only [RunRequest.valid, RunRequest.orderedManifest, Bool.and_eq_true,
      decide_eq_true_eq] at hval
    exact hval.2.1.1
  have hcontexts : (Agents.insertRun tables request original items).2.contexts.rows =
      tables.contexts.rows ++
        (tables.contexts.insertAll (items.map (newContext request tables.runs.next))).1 :=
    Serial.insertAll_rows _ _
  have hmem : ∀ run ∈ (Agents.insertRun tables request original items).2.runs.rows,
      run ∈ tables.runs.rows ∨ run = newRun request original tables.runs.next := by
    intro run hrun
    rcases List.mem_append.mp hrun with hold | hnew
    · exact Or.inl hold
    · exact Or.inr (List.mem_singleton.mp hnew)
  refine ⟨h.keyed.insert fun _ => rfl, ?_, ?_, ?_, ?_, ?_, ?_⟩
  · exact Table.nodup_insert h.keys fun other ho hsame =>
      Table.lookup_eq_none.mp hexisting other ho hsame
  · intro run hrun
    rcases hmem run hrun with hold | rfl
    · exact h.hashes run hold
    · rfl
  · intro row hrow
    rw [hcontexts] at hrow
    rcases List.mem_append.mp hrow with hold | hnew
    · exact Nat.lt_succ_of_lt (h.contextRuns row hold)
    · rw [newContexts_runId hnew]
      exact Nat.lt_succ_self _
  · exact fun row hrow => Nat.lt_succ_of_lt (h.eventRuns row hrow)
  · exact fun row hrow => Nat.lt_succ_of_lt (h.toolRuns row hrow)
  · intro run hrun
    have hfilt : Tables.contextsOf (Agents.insertRun tables request original items).2 run.id =
        tables.contextsOf run.id ++
          (tables.contexts.insertAll (items.map (newContext request tables.runs.next))).1.filter
            fun row => row.runId = run.id := by
      rw [Tables.contextsOf, hcontexts, List.filter_append]
      rfl
    rcases hmem run hrun with hold | rfl
    · -- the new rows are under another run
      have hrec := h.records run hold
      have hlt := h.keyed.lt run hold
      have hnone : (tables.contexts.insertAll
          (items.map (newContext request tables.runs.next))).1.filter
            (fun row => row.runId = run.id) = [] := by
        apply List.filter_eq_nil_iff.mpr
        intro row hrow
        have hrowRun := newContexts_runId hrow
        simp only [decide_eq_true_eq]
        omega
      rw [hnone, List.append_nil] at hfilt
      refine ⟨?_, ?_, hrec.numbered, hrec.path, hrec.tools⟩
      · rw [hfilt]
        exact hrec.manifest
      · rw [hfilt]
        exact hrec.ordinals
    · -- nothing was under the new identity before
      have hall : (tables.contexts.insertAll
          (items.map (newContext request tables.runs.next))).1.filter
            (fun row => row.runId = (newRun request original tables.runs.next).id) =
          (tables.contexts.insertAll (items.map (newContext request tables.runs.next))).1 :=
        List.filter_eq_self.mpr fun row hrow => decide_eq_true (newContexts_runId hrow)
      have hb : tables.contextsOf (newRun request original tables.runs.next).id = [] :=
        filter_eq_nil_of_lt h.contextRuns
      have hevs : Tables.eventsOf (Agents.insertRun tables request original items).2
          (newRun request original tables.runs.next).id = [] := filter_eq_nil_of_lt h.eventRuns
      have htools : Tables.toolsOf (Agents.insertRun tables request original items).2
          (newRun request original tables.runs.next).id = [] := filter_eq_nil_of_lt h.toolRuns
      rw [hb, hall, List.nil_append] at hfilt
      refine ⟨?_, ?_, ?_, ?_, ?_⟩
      · rw [hfilt, map_newContexts tables.runs.next fun _ _ => rfl, hitems, List.map_map]
        rfl
      · rw [hfilt, map_newContexts tables.runs.next fun _ _ => rfl, hitems, List.map_map]
        refine hordinals.trans ?_
        rw [newRun, runHeader, List.length_map]
      · rw [hevs]
        exact Numbered.nil
      · rw [hevs]
        exact trivial
      · rw [htools]
        exact Numbered.nil

theorem Sound.register (h : Sound tables)
    (hcall : Agents.register world tables request = .ok (run, after)) : Sound after := by
  obtain ⟨original, items, hprep, ⟨-, -, rfl⟩ | ⟨hold, hins⟩⟩ := register_ok hcall
  · exact h.audit _
  · obtain rfl : after = (Agents.insertRun tables request original items).2 :=
      congrArg Prod.snd hins
    exact h.insertRun hprep hold

theorem Sound.step {s t : LedgerState} {label : LedgerStep} (h : Sound s.tables)
    (hstep : LedgerState.Step s label t) : Sound t.tables := by
  cases hstep with
  | registered hcall => exact h.register hcall
  | registerRefused => exact h
  | refusalAudited => exact h.audit _
  | eventAppended hcall => exact h.appendEvent hcall
  | eventRefused => exact h
  | toolAppended hcall => exact h.appendTool hcall
  | toolRefused => exact h
  | elsewhere => exact h

end TamForge.Agents
