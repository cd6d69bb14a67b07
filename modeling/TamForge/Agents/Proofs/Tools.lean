import Mathlib.Data.List.Perm.Subperm
import TamForge.Agents.Tools

/-!
# How the calls of tools are audited

A call that is refused, fails or succeeds leaves by a branch with a record of its
own.  A cancellation leaves by none: it is no `Exception`.
-/

namespace TamForge.Agents.Tools

open Models ProofSupport

variable {α β : Type} {spec : ToolSpec α β} {registry : ToolRegistry α β} {start : CallStart}
  {role : AgentRole} {arguments : α} {context : ToolContext} {payload : Payload}
  {events : List CallEvent} {outcome : Outcome β}

def Recordable (spec : ToolSpec α β) : Prop :=
  safeKey spec.name = true ∧ safeKey spec.version = true

instance : Decidable (Recordable spec) := inferInstanceAs (Decidable (_ ∧ _))

def auditOf (spec : ToolSpec α β) (callKey : Key) (phase : ToolPhase) (elapsedMs : Nat)
    (ordinals : List Int) (errorCategory : Option Failure) : ToolAudit :=
  ⟨callKey, phase, spec.name, spec.version, spec.schemaHash, elapsedMs, ordinals, errorCategory⟩

theorem granted_length {ordinals : List Int} (hnd : ordinals.Nodup)
    (h : ∀ ordinal ∈ ordinals, 0 ≤ ordinal ∧ ordinal ≤ 63) : ordinals.length ≤ 64 := by
  have hsub : ordinals ⊆ (List.range 64).map Int.ofNat := by
    intro ordinal hordinal
    have hwithin := h ordinal hordinal
    refine List.mem_map.mpr ⟨ordinal.toNat, List.mem_range.mpr ?_, ?_⟩
    · omega
    · exact Int.toNat_of_nonneg hwithin.1
  simpa using (hnd.subperm hsub).length_le

theorem record_eq {phase : ToolPhase} {elapsedMs : Nat} {ordinals : List Int}
    {errorCategory : Option Failure} (hnd : ordinals.Nodup)
    (hwithin : ∀ ordinal ∈ ordinals, 0 ≤ ordinal ∧ ordinal ≤ 63)
    (hcat : (phase = .failed ∨ phase = .cancelled) ↔ errorCategory ≠ none) :
    record spec start.callKey phase elapsedMs ordinals errorCategory =
      if Recordable spec ∧ elapsedMs ≤ 2147483647 then
        some (auditOf spec start.callKey phase elapsedMs ordinals errorCategory)
      else none := by
  have hval : (auditOf spec start.callKey phase elapsedMs ordinals errorCategory).valid = true ↔
      Recordable spec ∧ elapsedMs ≤ 2147483647 := by
    have hordinals : ordinals.all (fun ordinal => decide (0 ≤ ordinal ∧ ordinal ≤ 63)) = true :=
      List.all_eq_true.mpr fun ordinal hordinal => decide_eq_true (hwithin ordinal hordinal)
    have hcnt : isCount elapsedMs = true ↔ elapsedMs ≤ 2147483647 := decide_eq_true_iff
    simp only [ToolAudit.valid, auditOf, start.key_valid, spec.hash_valid, hordinals,
      granted_length hnd hwithin, hnd, hcat, hcnt, Bool.and_eq_true,
      decide_eq_true_eq, Recordable, and_true, true_and]
  simp only [record]
  exact if_congr hval rfl rfl

/-! ## The body of a call -/

structure Authorized (spec : ToolSpec α β) (role : AgentRole) (arguments : α)
    (context : ToolContext) (payload : Payload) : Prop where
  role : role ∈ spec.roles
  schema : spec.modelValidate arguments = some payload
  limit : ∀ limit, payload.limit = some limit → limit ≤ 200
  ordinals : ∀ ordinal ∈ payload.contextOrdinals, ordinal ∈ context.allowedContextOrdinals

theorem prepare_ok_iff : prepare spec role arguments context = .ok payload ↔
    Authorized spec role arguments context payload := by
  unfold prepare
  by_cases hrole : role ∈ spec.roles
  · rw [if_neg (not_not.mpr hrole)]
    cases hschema : spec.modelValidate arguments with
    | none => exact ⟨fun h => (by cases h), fun h => (by cases hschema.symm.trans h.schema)⟩
    | some found =>
      have hchk : raiseFirst [
          (found.limit.any (maxItemLimit < ·),
            (⟨.inputInvalid, "requested more items than any tool may return"⟩ : ToolError)),
          (!found.contextOrdinals.all (· ∈ context.allowedContextOrdinals),
            ⟨.contextForbidden, "the call asked for context this run was not granted"⟩)] = .ok () ↔
          (∀ limit, found.limit = some limit → limit ≤ 200) ∧
            ∀ ordinal ∈ found.contextOrdinals, ordinal ∈ context.allowedContextOrdinals := by
        have hlimit (limit : Int) : decide (maxItemLimit < limit) = false ↔ limit ≤ 200 :=
          decide_eq_false_iff_not.trans Int.not_lt
        rw [raiseFirst_eq_ok]
        cases found.limit <;> simp [hlimit]
      simp only [bind_ok_iff]
      constructor
      · rintro ⟨_, hok, hpay⟩
        cases hpay
        exact ⟨hrole, hschema, (hchk.mp hok).1, (hchk.mp hok).2⟩
      · rintro ⟨-, hsame, hlimit, hordinals⟩
        cases Option.some.inj (hschema.symm.trans hsame)
        exact ⟨(), hchk.mpr ⟨hlimit, hordinals⟩, rfl⟩
  · rw [if_pos hrole]
    exact ⟨fun h => (by cases h), fun h => absurd h.role hrole⟩

def audits (events : List CallEvent) : List ToolAudit :=
  events.filterMap fun
    | .recorded audit => some audit
    | .handled _ => none

/-- One request and one later end are recorded under one key, the handler runs for an
authorized call only, and no text but that of a `ToolError` gets out. -/
structure Audited (spec : ToolSpec α β) (role : AgentRole) (arguments : α)
    (context : ToolContext) (run : List CallEvent × Outcome β) : Prop where
  recorded : ∃ request terminal, audits run.1 = [request, terminal] ∧ request.phase = .request ∧
    terminal.phase ≠ .request ∧ request.callKey = terminal.callKey
  authorized : ∀ payload, .handled payload ∈ run.1 → Authorized spec role arguments context payload
  silent : run.2 ≠ .invalid

def Cancelled (spec : ToolSpec α β) (role : AgentRole) (arguments : α) (context : ToolContext) :
    Prop :=
  ∃ payload, Authorized spec role arguments context payload ∧
    spec.handler payload context = .cancelled

theorem recorded_audited_iff {request terminal : ToolAudit} {fits : Prop} [Decidable fits]
    (haudits : audits events = [request])
    (hhandled : ∀ payload, .handled payload ∈ events →
      Authorized spec role arguments context payload)
    (hout : outcome ≠ .invalid) (hreq : request.phase = .request)
    (hterm : terminal.phase ≠ .request) (hkey : request.callKey = terminal.callKey) :
    Audited spec role arguments context
        (recorded events (if fits then some terminal else none) outcome) ↔ fits := by
  by_cases hfits : fits
  · rw [if_pos hfits]
    refine iff_of_true ⟨⟨request, terminal, ?_, hreq, hterm, hkey⟩, ?_, hout⟩ hfits
    · rw [recorded, audits, List.filterMap_append]
      rw [audits] at haudits
      rw [haudits]
      rfl
    · intro payload hmem
      rcases List.mem_append.mp hmem with hmem | hmem
      · exact hhandled payload hmem
      · cases List.mem_singleton.mp hmem
  · rw [if_neg hfits]
    exact iff_of_false (fun h => h.silent rfl) hfits

/-- Behind its request a call is audited to an end exactly when the end can be recorded and is no
cancellation. -/
theorem callBody_audited_iff {request : ToolAudit} (hname : Recordable spec)
    (hph : request.phase = .request) (hkey : request.callKey = start.callKey) :
    Audited spec role arguments context
        (callBody spec start role arguments context [.recorded request]) ↔
      start.endMs ≤ 2147483647 ∧ ¬Cancelled spec role arguments context := by
  have hfailed (failure : Failure) :
      record spec start.callKey .failed start.endMs [] (some failure) =
        if start.endMs ≤ 2147483647 then
          some (auditOf spec start.callKey .failed start.endMs [] (some failure))
        else none := by
    rw [record_eq List.nodup_nil (by simp) (by simp)]
    exact if_congr (and_iff_right hname) rfl rfl
  unfold callBody
  cases hprep : prepare spec role arguments context with
  | error refusal =>
    have hcalm : ¬Cancelled spec role arguments context := by
      rintro ⟨payload, hauth, -⟩
      cases hprep.symm.trans (prepare_ok_iff.mpr hauth)
    dsimp only
    rw [hfailed, recorded_audited_iff rfl (by simp) (fun h => (by cases h)) hph
      (fun h => (by cases h)) hkey]
    exact (and_iff_left hcalm).symm
  | ok payload =>
    have hauth := prepare_ok_iff.mp hprep
    have hhandled : ∀ other, .handled other ∈ [CallEvent.recorded request] ++ [.handled payload] →
        Authorized spec role arguments context other := by
      intro other hmem
      simp only [List.mem_append, List.mem_cons, reduceCtorEq, List.not_mem_nil, or_false, false_or,
        CallEvent.handled.injEq] at hmem
      exact hmem ▸ hauth
    have hcanc : Cancelled spec role arguments context ↔
        spec.handler payload context = .cancelled := by
      constructor
      · rintro ⟨other, ho, hend⟩
        cases Option.some.inj (hauth.schema.symm.trans ho.schema)
        exact hend
      · exact fun hend => ⟨payload, hauth, hend⟩
    rw [hcanc]
    dsimp only
    cases hend : spec.handler payload context with
    | refused refusal =>
      dsimp only
      rw [hfailed, recorded_audited_iff rfl hhandled (fun h => (by cases h)) hph
        (fun h => (by cases h)) hkey]
      simp
    | raised text =>
      dsimp only
      rw [hfailed, recorded_audited_iff rfl hhandled (fun h => (by cases h)) hph
        (fun h => (by cases h)) hkey]
      simp
    | cancelled =>
      refine iff_of_false ?_ fun h => h.2 rfl
      rintro ⟨⟨first, terminal, htwo, -⟩, -, -⟩
      cases htwo
    | returned value =>
      have hwithin : ∀ ordinal ∈ payload.contextOrdinals.dedup, 0 ≤ ordinal ∧ ordinal ≤ 63 :=
        fun ordinal hordinal => context.allowed_within ordinal
          (hauth.ordinals ordinal (List.mem_dedup.mp hordinal))
      dsimp only
      rw [record_eq (List.nodup_dedup _) hwithin (by simp), recorded_audited_iff rfl hhandled
        (fun h => (by cases h)) hph (fun h => (by cases h)) hkey]
      simp [hname]

def sampleSpec : ToolSpec Nat Unit where
  name := "search_evidence"
  version := "1"
  roles := [.analyst]
  modelValidate number := some { limit := some number }
  handler payload _ := if payload.limit = some 0 then .returned () else .cancelled
  schemaHash := "e3b0c44298fc1c149afbf4c8996fb92427ae41e4649b934ca495991b7852b855"
  roles_nonempty := List.cons_ne_nil _ _
  hash_valid := by decide

def sampleRegistry : ToolRegistry Nat Unit := ⟨[sampleSpec], by simp⟩

def sampleStart : CallStart := ⟨"0123456789abcdef0123456789abcdef", 0, 5, by decide⟩

def sampleContext : ToolContext := ⟨[0, 1, 2], by decide⟩

theorem find_sampleSpec :
    sampleRegistry.specs.find? (·.name = "search_evidence") = some sampleSpec := rfl

end TamForge.Agents.Tools
