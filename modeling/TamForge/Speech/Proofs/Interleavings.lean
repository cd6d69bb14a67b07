import Mathlib.Data.List.Infix
import TamForge.ProofSupport.Table
import TamForge.Speech.Analysis

/-!
# When the last reading wins

Readings of one recording are prefixes of one another, since transcripts are only
added.  An analysis is lost when a call commits a shorter reading over a longer
one, or raises because another call inserted the row first.
-/

namespace TamForge.Speech

open Models ProofSupport

variable {μ : Type} {metrics : SpeechMetrics μ} {state next : Analysing μ}
  {event : AnalysisEvent} {rows other : List SpeechTranscript} {row : SpeechTranscript}
  {analysis : SpeechAnalysis μ} {call : ProcessCall} {id : Nat} {phase : Phase}

/-! ## Readings -/

theorem byTrack_of_mem (htracks : (rows.map SpeechTranscript.track).Nodup) (hrow : row ∈ rows) :
    byTrack rows row.track = some row := by
  have hperm := (List.perm_insertionSort
    (fun first second : SpeechTranscript => first.id ≤ second.id) rows).filter
      fun found => found.track == row.track
  have hone : rows.filter (fun found => found.track == row.track) = [row] :=
    Table.filter_unique htracks hrow rfl
  rw [hone, List.perm_singleton] at hperm
  rw [byTrack, hperm]
  rfl

theorem computeAnalysis_some (h : computeAnalysis metrics rows = some analysis) :
    ∃ mic, byTrack rows .microphone = some mic ∧
      analysis.microphoneTranscriptId = mic.id ∧
      analysis.systemAudioTranscriptId =
        (byTrack rows .systemAudio).map SpeechTranscript.id ∧
      analysis.turns = buildTurns mic (byTrack rows .systemAudio) := by
  unfold computeAnalysis at h
  cases hmic : byTrack rows .microphone with
  | none =>
    rw [hmic] at h
    cases h
  | some mic =>
    rw [hmic] at h
    cases hrep : metrics mic (byTrack rows .systemAudio) with
    | none =>
      simp [hrep] at h
    | some report =>
      simp only [Option.bind_eq_bind, Option.bind_some, hrep, Option.some.injEq] at h
      subst h
      exact ⟨mic, rfl, rfl, rfl, rfl⟩

def CitesOnly (analysis : SpeechAnalysis μ) (rows : List SpeechTranscript) : Prop :=
  (∃ row ∈ rows, row.id = analysis.microphoneTranscriptId) ∧
    ∀ id, analysis.systemAudioTranscriptId = some id → ∃ row ∈ rows, row.id = id

theorem cited (htracks : (rows.map SpeechTranscript.track).Nodup)
    (h : computeAnalysis metrics rows = some analysis) (hcites : CitesOnly analysis other)
    (hrow : row ∈ rows) : ∃ found ∈ other, found.id = row.id := by
  obtain ⟨microphone, hmic, hfst, hsec, -⟩ := computeAnalysis_some h
  have hf := byTrack_of_mem htracks hrow
  cases htrack : row.track with
  | microphone =>
    rw [htrack, hmic, Option.some.injEq] at hf
    rw [← hf, ← hfst]
    exact hcites.1
  | systemAudio =>
    rw [htrack] at hf
    rw [hf, Option.map_some] at hsec
    exact hcites.2 row.id hsec

theorem prefix_of_subset {whole : List SpeechTranscript} (hnd : whole.Nodup)
    (hrows : rows <+: whole) (ho : other <+: whole) (hsub : ∀ row ∈ rows, row ∈ other) :
    rows <+: other := by
  rcases List.prefix_or_prefix_of_prefix hrows ho with h | h
  · exact h
  · have hndRows : rows.Nodup := hnd.sublist hrows.sublist
    have hlen : rows.length ≤ other.length :=
      (List.subperm_of_subset hndRows hsub).length_le
    rw [h.eq_of_length (Nat.le_antisymm h.length_le hlen)]

/-! ## What holds between the steps -/

def Phase.rows? : Phase → Option (List SpeechTranscript)
  | .started => none
  | .read rows | .asked rows _ | .committed rows | .raised rows => some rows

structure Consistent (metrics : SpeechMetrics μ) (state : Analysing μ) : Prop where
  ids : (state.transcripts.map SpeechTranscript.id).Nodup
  tracks : (state.transcripts.map SpeechTranscript.track).Nodup
  calls : (state.calls.map ProcessCall.transcriptId).Nodup
  submitted : ∀ call ∈ state.calls, ∃ row ∈ state.transcripts, row.id = call.transcriptId
  readings : ∀ call ∈ state.calls, ∀ rows, call.phase.rows? = some rows →
    rows <+: state.transcripts ∧ ∃ row ∈ rows, row.id = call.transcriptId

theorem Consistent.rowsNodup (h : Consistent metrics state) : state.transcripts.Nodup :=
  h.ids.of_map

theorem mem_setPhase (h : call ∈ (state.setPhase id phase).calls) :
    (call.transcriptId = id ∧ call.phase = phase ∧
      ∃ old ∈ state.calls, old.transcriptId = id) ∨
      (call ∈ state.calls ∧ call.transcriptId ≠ id) := by
  obtain ⟨old, hold, heq⟩ := List.mem_map.mp h
  by_cases hsame : old.transcriptId = id
  · rw [if_pos hsame] at heq
    subst heq
    exact Or.inl ⟨hsame, rfl, old, hold, hsame⟩
  · rw [if_neg hsame] at heq
    subst heq
    exact Or.inr ⟨hold, hsame⟩

theorem setPhase_ids (state : Analysing μ) (id : Nat) (phase : Phase) :
    (state.setPhase id phase).calls.map ProcessCall.transcriptId =
      state.calls.map ProcessCall.transcriptId := by
  simp only [Analysing.setPhase, List.map_map]
  apply List.map_congr_left
  intro call _
  simp only [Function.comp_apply]
  split <;> rfl

theorem Consistent.setPhase (h : Consistent metrics state)
    (hrows : ∀ rows, phase.rows? = some rows →
      rows <+: state.transcripts ∧ ∃ row ∈ rows, row.id = id) :
    Consistent metrics (state.setPhase id phase) where
  ids := h.ids
  tracks := h.tracks
  calls := by
    rw [setPhase_ids]
    exact h.calls
  submitted := by
    intro call hcall
    rcases mem_setPhase hcall with ⟨hid, -, old, hold, hsame⟩ | ⟨hold, -⟩
    · rw [hid, ← hsame]
      exact h.submitted old hold
    · exact h.submitted call hold
  readings := by
    intro call hcall rows hread
    rcases mem_setPhase hcall with ⟨hid, hph, -⟩ | ⟨hold, -⟩
    · rw [hph] at hread
      rw [hid]
      exact hrows rows hread
    · exact h.readings call hold rows hread

theorem Consistent.withRows (h : Consistent metrics state) (analysis : Option (SpeechAnalysis μ))
    (lock : Option Nat) :
    Consistent metrics { state with analysis := analysis, lock := lock } :=
  ⟨h.ids, h.tracks, h.calls, h.submitted, h.readings⟩

theorem Consistent.reading (h : Consistent metrics state) {before : Phase}
    (hcall : ⟨id, before⟩ ∈ state.calls) (hrows : before.rows? = some rows)
    (hsame : phase.rows? = some rows) : ∀ found, phase.rows? = some found →
      found <+: state.transcripts ∧ ∃ row ∈ found, row.id = id := by
  intro found hf
  rw [hsame, Option.some.injEq] at hf
  subst hf
  exact h.readings _ hcall _ hrows

theorem Consistent.step (h : Consistent metrics state)
    (hstep : AnalysisStep metrics state event next) : Consistent metrics next := by
  cases hstep with
  | stored row identity track =>
    constructor
    · rw [List.map_append, List.nodup_append]
      refine ⟨h.ids, by simp, ?_⟩
      intro id hid other ho
      obtain ⟨old, hold, rfl⟩ := List.mem_map.mp hid
      rw [List.map_singleton, List.mem_singleton] at ho
      rw [ho]
      exact identity old hold
    · rw [List.map_append, List.nodup_append]
      refine ⟨h.tracks, by simp, ?_⟩
      intro found hf other ho
      obtain ⟨old, hold, rfl⟩ := List.mem_map.mp hf
      rw [List.map_singleton, List.mem_singleton] at ho
      rw [ho]
      exact track old hold
    · exact h.calls
    · intro call hcall
      obtain ⟨found, hf, hid⟩ := h.submitted call hcall
      exact ⟨found, List.mem_append_left _ hf, hid⟩
    · intro call hcall rows hread
      obtain ⟨hearl, hown⟩ := h.readings call hcall rows hread
      exact ⟨hearl.trans (List.prefix_append _ _), hown⟩
  | @started row submitted fresh =>
    constructor
    · exact h.ids
    · exact h.tracks
    · rw [List.map_append, List.nodup_append]
      refine ⟨h.calls, by simp, ?_⟩
      intro id hid other ho
      obtain ⟨old, hold, rfl⟩ := List.mem_map.mp hid
      rw [List.map_singleton, List.mem_singleton] at ho
      rw [ho]
      exact fresh old hold
    · intro call hcall
      rcases List.mem_append.mp hcall with hold | hnew
      · exact h.submitted call hold
      · rw [List.mem_singleton.mp hnew]
        exact ⟨row, submitted, rfl⟩
    · intro call hcall rows hread
      rcases List.mem_append.mp hcall with hold | hnew
      · exact h.readings call hold rows hread
      · rw [List.mem_singleton.mp hnew] at hread
        cases hread
  | read call =>
    apply h.setPhase
    intro rows hrows
    cases hrows
    exact ⟨List.prefix_refl _, h.submitted _ call⟩
  | invalid call refused => exact h.setPhase (h.reading call rfl rfl)
  | locked call accepted row free =>
    exact (h.withRows _ _).setPhase (h.reading call rfl rfl)
  | missing call accepted row => exact h.setPhase (h.reading call rfl rfl)
  | updated call computed => exact (h.withRows _ _).setPhase (h.reading call rfl rfl)
  | inserted call computed row => exact (h.withRows _ _).setPhase (h.reading call rfl rfl)
  | collided call row => exact h.setPhase (h.reading call rfl rfl)

/-! ## Careful steps -/

/-- No call commits a reading that lacks a transcript which the stored analysis
cites, and no call raises once it has read a microphone transcript. -/
def Careful (step : Transition (Analysing μ) AnalysisEvent) : Prop :=
  match step.label with
  | .committed id => ∀ rows found, ⟨id, .asked rows found⟩ ∈ step.before.calls →
      ∀ analysis, step.before.analysis = some analysis → CitesOnly analysis rows
  | .raised id => ∀ call ∈ step.before.calls, call.transcriptId = id →
      ∀ rows, call.phase.rows? = some rows → byTrack rows .microphone = none
  | .stored _ | .started _ | .read _ | .asked _ => True

/-- The stored analysis is of a reading that no committed call has gone beyond,
and what raised had not read a microphone transcript. -/
structure Kept (metrics : SpeechMetrics μ) (state : Analysing μ) : Prop where
  latest : ∀ analysis, state.analysis = some analysis → ∃ rows, rows <+: state.transcripts ∧
    computeAnalysis metrics rows = some analysis ∧
    ∀ call ∈ state.calls, ∀ other, call.phase = .committed other → other <+: rows
  stored : ∀ call ∈ state.calls, ∀ rows, call.phase = .committed rows → state.analysis ≠ none
  raised : ∀ call ∈ state.calls, ∀ rows, call.phase = .raised rows →
    byTrack rows .microphone = none

theorem Kept.withLock (h : Kept metrics state) (lock : Option Nat) :
    Kept metrics { state with lock := lock } :=
  ⟨h.latest, h.stored, h.raised⟩

theorem Kept.setPhase (h : Kept metrics state)
    (hcom : ∀ rows, phase ≠ .committed rows)
    (hraised : ∀ rows, phase = .raised rows → byTrack rows .microphone = none) :
    Kept metrics (state.setPhase id phase) where
  latest := by
    intro analysis hanl
    obtain ⟨rows, hearl, hcomp, hall⟩ := h.latest analysis hanl
    refine ⟨rows, hearl, hcomp, ?_⟩
    intro call hcall other ho
    rcases mem_setPhase hcall with ⟨-, hph, -⟩ | ⟨hold, -⟩
    · exact absurd (hph.symm.trans ho) (hcom other)
    · exact hall call hold other ho
  stored := by
    intro call hcall rows hrows
    rcases mem_setPhase hcall with ⟨-, hph, -⟩ | ⟨hold, -⟩
    · exact absurd (hph.symm.trans hrows) (hcom rows)
    · exact h.stored call hold rows hrows
  raised := by
    intro call hcall rows hrows
    rcases mem_setPhase hcall with ⟨-, hph, -⟩ | ⟨hold, -⟩
    · exact hraised rows (hph.symm.trans hrows)
    · exact h.raised call hold rows hrows

/-- A call commits the analysis of its reading, which has all that the stored one
cites. -/
theorem Kept.commit (h : Kept metrics state) (hcons : Consistent metrics state)
    {found : Bool} (hcall : ⟨id, .asked rows found⟩ ∈ state.calls)
    (hcomp : computeAnalysis metrics rows = some analysis)
    (hcites : ∀ old, state.analysis = some old → CitesOnly old rows) (lock : Option Nat) :
    Kept metrics
      ({ state with analysis := some analysis, lock := lock }.setPhase id (.committed rows)) := by
  have hrows : rows <+: state.transcripts := (hcons.readings _ hcall rows rfl).1
  constructor
  · intro stored hsto
    cases hsto
    refine ⟨rows, hrows, hcomp, ?_⟩
    intro call hmem other ho
    rcases mem_setPhase hmem with ⟨-, hph, -⟩ | ⟨hold, -⟩
    · rw [hph] at ho
      cases ho
      exact List.prefix_refl _
    · cases holdAnl : state.analysis with
      | none => exact absurd holdAnl (h.stored call hold other ho)
      | some old =>
        obtain ⟨reading, hreading, holdComp, hall⟩ := h.latest old holdAnl
        have hsub : ∀ row ∈ reading, row ∈ rows := by
          intro row hrow
          obtain ⟨same, hsame, hid⟩ := cited
            (hcons.tracks.sublist (hreading.sublist.map _)) holdComp
            (hcites old holdAnl) hrow
          have heq := List.inj_on_of_nodup_map hcons.ids (hrows.subset hsame)
            (hreading.subset hrow) hid
          exact heq ▸ hsame
        exact (hall call hold other ho).trans
          (prefix_of_subset hcons.rowsNodup hreading hrows hsub)
  · intro call hmem other ho
    exact Option.some_ne_none analysis
  · intro call hmem other ho
    rcases mem_setPhase hmem with ⟨-, hph, -⟩ | ⟨hold, -⟩
    · rw [hph] at ho
      cases ho
    · exact h.raised call hold other ho

theorem Kept.step (h : Kept metrics state) (hcons : Consistent metrics state)
    (hcare : Careful ⟨state, event, next⟩) (hstep : AnalysisStep metrics state event next) :
    Kept metrics next := by
  cases hstep with
  | stored row identity track =>
    refine ⟨?_, h.stored, h.raised⟩
    intro analysis hanl
    obtain ⟨rows, hearl, hcomp, hall⟩ := h.latest analysis hanl
    exact ⟨rows, hearl.trans (List.prefix_append _ _), hcomp, hall⟩
  | @started row submitted fresh =>
    have hcases : ∀ call ∈ state.calls ++ [⟨row.id, .started⟩],
        call ∈ state.calls ∨ call.phase = .started := by
      intro call hcall
      rcases List.mem_append.mp hcall with hold | hnew
      · exact Or.inl hold
      · rw [List.mem_singleton.mp hnew]
        exact Or.inr rfl
    constructor
    · intro analysis hanl
      obtain ⟨rows, hearl, hcomp, hall⟩ := h.latest analysis hanl
      refine ⟨rows, hearl, hcomp, ?_⟩
      intro call hcall other ho
      rcases hcases call hcall with hold | hnew
      · exact hall call hold other ho
      · rw [hnew] at ho
        cases ho
    · intro call hcall rows hrows
      rcases hcases call hcall with hold | hnew
      · exact h.stored call hold rows hrows
      · rw [hnew] at hrows
        cases hrows
    · intro call hcall rows hrows
      rcases hcases call hcall with hold | hnew
      · exact h.raised call hold rows hrows
      · rw [hnew] at hrows
        cases hrows
  | read call => exact h.setPhase (by simp) (by simp)
  | invalid call refused =>
    refine h.setPhase (by simp) ?_
    intro rows hrows
    cases hrows
    exact hcare _ call rfl _ rfl
  | locked call accepted row free =>
    exact (h.withLock _).setPhase (by simp) (by simp)
  | missing call accepted row => exact h.setPhase (by simp) (by simp)
  | updated call computed => exact h.commit hcons call computed (hcare _ _ call) none
  | inserted call computed row =>
    exact h.commit hcons call computed (hcare _ _ call) state.lock
  | collided call row =>
    refine h.setPhase (by simp) ?_
    intro rows hrows
    cases hrows
    exact hcare _ call rfl _ rfl

/-! ## Whole runs -/

section Runs

variable {trace : List (Transition (Analysing μ) AnalysisEvent)} {final : Analysing μ}

theorem run_kept (hrun : Run (AnalysisStep metrics) (emptyAnalysing μ) trace final)
    (hcare : ∀ step ∈ trace, Careful step) : Consistent metrics final ∧ Kept metrics final := by
  induction hrun with
  | refl =>
    refine ⟨⟨List.nodup_nil, List.nodup_nil, List.nodup_nil, ?_, ?_⟩, ⟨?_, ?_, ?_⟩⟩ <;>
      simp [emptyAnalysing]
  | @snoc earlier before after label hrun hstep ih =>
    obtain ⟨hcons, hkept⟩ := ih fun step hmem =>
      hcare step (List.mem_append_left _ hmem)
    have hlast : Careful ⟨before, label, after⟩ :=
      hcare _ (List.mem_append_right _ (List.mem_singleton.mpr rfl))
    exact ⟨hcons.step hstep, hkept.step hcons hlast hstep⟩

def AllEnded (state : Analysing μ) : Prop :=
  ∀ row ∈ state.transcripts, ∃ call ∈ state.calls,
    call.transcriptId = row.id ∧ call.phase.ended = true

/-- In a run of careful steps the stored analysis is that of all the transcripts,
once every transcript has a call that has ended and there is one of the
microphone. -/
theorem analysis_complete (hrun : Run (AnalysisStep metrics) (emptyAnalysing μ) trace final)
    (hcareful : ∀ step ∈ trace, Careful step) (hended : AllEnded final)
    (hmicrophone : ∃ row ∈ final.transcripts, row.track = .microphone) :
    ∃ analysis microphone, final.analysis = some analysis ∧
      byTrack final.transcripts .microphone = some microphone ∧
      analysis.microphoneTranscriptId = microphone.id ∧
      analysis.systemAudioTranscriptId =
        (byTrack final.transcripts .systemAudio).map SpeechTranscript.id ∧
      analysis.turns = buildTurns microphone (byTrack final.transcripts .systemAudio) := by
  obtain ⟨hconsistent, hkept⟩ := run_kept hrun hcareful
  -- An ended call has committed its reading, or its reading had no microphone.
  have hcases : ∀ row ∈ final.transcripts, ∃ rows, rows <+: final.transcripts ∧ row ∈ rows ∧
      ((∃ call ∈ final.calls, call.phase = .committed rows) ∨
        byTrack rows .microphone = none) := by
    intro row hrow
    obtain ⟨call, hcall, hid, hphase⟩ := hended row hrow
    have hown : ∀ rows, call.phase.rows? = some rows → rows <+: final.transcripts ∧ row ∈ rows := by
      intro rows hrows
      obtain ⟨hearlier, same, hsame, hsameId⟩ := hconsistent.readings call hcall rows hrows
      have heq := List.inj_on_of_nodup_map hconsistent.ids (hearlier.subset hsame) hrow
        (hsameId.trans hid)
      exact ⟨hearlier, heq ▸ hsame⟩
    cases hvalue : call.phase with
    | committed rows =>
      obtain ⟨hearlier, hmem⟩ := hown rows (by rw [hvalue]; rfl)
      exact ⟨rows, hearlier, hmem, Or.inl ⟨call, hcall, hvalue⟩⟩
    | raised rows =>
      obtain ⟨hearlier, hmem⟩ := hown rows (by rw [hvalue]; rfl)
      exact ⟨rows, hearlier, hmem, Or.inr (hkept.raised call hcall rows hvalue)⟩
    | started | read | asked =>
      rw [hvalue] at hphase
      cases hphase
  have hfound : ∀ rows, rows <+: final.transcripts → ∀ row ∈ rows, row.track = .microphone →
      byTrack rows .microphone = some row := by
    intro rows hearlier row hrow htrack
    rw [← htrack]
    exact byTrack_of_mem (hconsistent.tracks.sublist (hearlier.sublist.map _)) hrow
  obtain ⟨microphone, hmem, htrack⟩ := hmicrophone
  obtain ⟨first, hfirst, hmemFirst, ⟨call, hcall, hphase⟩ | hnone⟩ := hcases microphone hmem
  · obtain ⟨analysis, hanalysis⟩ := Option.ne_none_iff_exists'.mp
      (hkept.stored call hcall first hphase)
    obtain ⟨reading, hreading, hcomputed, hall⟩ := hkept.latest analysis hanalysis
    have hin : microphone ∈ reading := (hall call hcall first hphase).subset hmemFirst
    have heverything : ∀ row ∈ final.transcripts, row ∈ reading := by
      intro row hrow
      obtain ⟨rows, hearlier, hmemRows, ⟨other, hother, hotherPhase⟩ | hlacks⟩ := hcases row hrow
      · exact (hall other hother rows hotherPhase).subset hmemRows
      · rcases List.prefix_or_prefix_of_prefix hearlier hreading with hbefore | hafter
        · exact hbefore.subset hmemRows
        · rw [hfound rows hearlier microphone (hafter.subset hin) htrack] at hlacks
          cases hlacks
    have heq : reading = final.transcripts :=
      List.Sublist.antisymm hreading.sublist
        (prefix_of_subset hconsistent.rowsNodup (List.prefix_refl _) hreading
          heverything).sublist
    rw [heq] at hcomputed
    obtain ⟨found, hfoundTrack, hrest⟩ := computeAnalysis_some hcomputed
    exact ⟨analysis, found, hanalysis, hfoundTrack, hrest⟩
  · rw [hfound first hfirst microphone hmemFirst htrack] at hnone
    cases hnone

end Runs

def anyReport : SpeechMetrics Unit := fun _ _ => some ()

def sampleMicrophone : SpeechTranscript := ⟨1, .microphone, [⟨0, 900, "hello"⟩]⟩

def sampleSystemAudio : SpeechTranscript := ⟨2, .systemAudio, [⟨1000, 1800, "hi"⟩]⟩

def microphoneOnly (phase : Phase) (analysis : Option (SpeechAnalysis Unit)) : Analysing Unit where
  transcripts := [sampleMicrophone]
  analysis := analysis
  lock := none
  calls := [⟨1, phase⟩]

def bothStored (first second : Phase) (analysis : Option (SpeechAnalysis Unit))
    (lock : Option Nat) : Analysing Unit where
  transcripts := [sampleMicrophone, sampleSystemAudio]
  analysis := analysis
  lock := lock
  calls := [⟨1, first⟩, ⟨2, second⟩]

def microphoneAnalysis : SpeechAnalysis Unit :=
  ⟨1, none, buildTurns sampleMicrophone none, ()⟩

def wholeAnalysis : SpeechAnalysis Unit :=
  ⟨1, some 2, buildTurns sampleMicrophone (some sampleSystemAudio), ()⟩

theorem microphone_computed :
    computeAnalysis anyReport [sampleMicrophone] = some microphoneAnalysis := by
  decide

theorem whole_computed :
    computeAnalysis anyReport [sampleMicrophone, sampleSystemAudio] = some wholeAnalysis := by
  decide

theorem microphone_read : ∃ trace, Run (AnalysisStep anyReport) (emptyAnalysing Unit) trace
    (microphoneOnly (.read [sampleMicrophone]) none) ∧ ∀ step ∈ trace, Careful step := by
  have hsto : AnalysisStep anyReport (emptyAnalysing Unit) (.stored 1)
      { emptyAnalysing Unit with transcripts := [sampleMicrophone] } :=
    .stored sampleMicrophone (by simp [emptyAnalysing]) (by simp [emptyAnalysing])
  have hstart : AnalysisStep anyReport
      { emptyAnalysing Unit with transcripts := [sampleMicrophone] } (.started 1)
      (microphoneOnly .started none) :=
    @AnalysisStep.started _ _ _ sampleMicrophone (List.mem_singleton.mpr rfl)
      (by simp [emptyAnalysing])
  have hread : AnalysisStep anyReport (microphoneOnly .started none) (.read 1)
      (microphoneOnly (.read [sampleMicrophone]) none) :=
    .read (List.mem_singleton.mpr rfl)
  exact ⟨_, ((Run.single hsto).snoc hstart).snoc hread, by simp [Careful]⟩

/-- The microphone transcript alone is analysed. -/
theorem analysis_complete_microphone : ∃ trace final, ∃ analysis : SpeechAnalysis Unit,
    Run (AnalysisStep anyReport) (emptyAnalysing Unit) trace final ∧
      final.analysis = some analysis ∧ analysis.microphoneTranscriptId = 1 := by
  obtain ⟨trace, hrun, hcareful⟩ := microphone_read
  have hasked : AnalysisStep anyReport (microphoneOnly (.read [sampleMicrophone]) none) (.asked 1)
      (microphoneOnly (.asked [sampleMicrophone] false) none) :=
    .missing (List.mem_singleton.mpr rfl) (by rw [microphone_computed]; simp) rfl
  have hcommitted : AnalysisStep anyReport (microphoneOnly (.asked [sampleMicrophone] false) none)
      (.committed 1)
      (microphoneOnly (.committed [sampleMicrophone]) (some microphoneAnalysis)) :=
    .inserted (List.mem_singleton.mpr rfl) microphone_computed rfl
  have hwhole := (hrun.snoc hasked).snoc hcommitted
  have hsteps : ∀ step ∈ trace ++
      [⟨microphoneOnly (.read [sampleMicrophone]) none, .asked 1,
        microphoneOnly (.asked [sampleMicrophone] false) none⟩] ++
      [⟨microphoneOnly (.asked [sampleMicrophone] false) none, .committed 1,
        microphoneOnly (.committed [sampleMicrophone]) (some microphoneAnalysis)⟩],
      Careful step := by
    intro step hmem
    rcases List.mem_append.mp hmem with hmem | hlast
    · rcases List.mem_append.mp hmem with hold | hnow
      · exact hcareful step hold
      · rw [List.mem_singleton.mp hnow]
        trivial
    · rw [List.mem_singleton.mp hlast]
      intro rows found _ analysis hnone
      cases hnone
  obtain ⟨analysis, microphone, hanalysis, hfound, hid, -⟩ := analysis_complete hwhole hsteps
    (by
      intro row hrow
      rw [List.mem_singleton.mp hrow]
      exact ⟨_, List.mem_singleton.mpr rfl, rfl, rfl⟩)
    ⟨sampleMicrophone, List.mem_singleton.mpr rfl, rfl⟩
  refine ⟨_, _, analysis, hwhole, hanalysis, ?_⟩
  have hmicrophone : byTrack [sampleMicrophone] .microphone = some sampleMicrophone := rfl
  change byTrack [sampleMicrophone] .microphone = some microphone at hfound
  rw [hmicrophone, Option.some.injEq] at hfound
  rw [hid, ← hfound]
  rfl

/-- The call for the microphone read first and commits last: the analysis does not
cite the other track. -/
theorem analysis_loses_system_audio : ∃ trace final,
    Run (AnalysisStep anyReport) (emptyAnalysing Unit) trace final ∧ AllEnded final ∧
      (∃ row ∈ final.transcripts, row.track = .microphone) ∧
      byTrack final.transcripts .systemAudio = some sampleSystemAudio ∧
      final.analysis.bind SpeechAnalysis.systemAudioTranscriptId = none := by
  obtain ⟨trace, hrun, -⟩ := microphone_read
  have hstored : AnalysisStep anyReport (microphoneOnly (.read [sampleMicrophone]) none)
      (.stored 2) { microphoneOnly (.read [sampleMicrophone]) none with
        transcripts := [sampleMicrophone, sampleSystemAudio] } :=
    .stored sampleSystemAudio (by decide) (by decide)
  have hstarted : AnalysisStep anyReport { microphoneOnly (.read [sampleMicrophone]) none with
        transcripts := [sampleMicrophone, sampleSystemAudio] } (.started 2)
      (bothStored (.read [sampleMicrophone]) .started none none) :=
    @AnalysisStep.started _ _ _ sampleSystemAudio (by decide) (by decide)
  have hread : AnalysisStep anyReport (bothStored (.read [sampleMicrophone]) .started none none)
      (.read 2) (bothStored (.read [sampleMicrophone])
        (.read [sampleMicrophone, sampleSystemAudio]) none none) :=
    .read (by decide)
  have hasked : AnalysisStep anyReport (bothStored (.read [sampleMicrophone])
        (.read [sampleMicrophone, sampleSystemAudio]) none none) (.asked 2)
      (bothStored (.read [sampleMicrophone])
        (.asked [sampleMicrophone, sampleSystemAudio] false) none none) :=
    .missing (by decide) (by rw [whole_computed]; simp) rfl
  have hinserted : AnalysisStep anyReport (bothStored (.read [sampleMicrophone])
        (.asked [sampleMicrophone, sampleSystemAudio] false) none none) (.committed 2)
      (bothStored (.read [sampleMicrophone])
        (.committed [sampleMicrophone, sampleSystemAudio]) (some wholeAnalysis) none) :=
    .inserted (by decide) whole_computed rfl
  have hlocked : AnalysisStep anyReport (bothStored (.read [sampleMicrophone])
        (.committed [sampleMicrophone, sampleSystemAudio]) (some wholeAnalysis) none) (.asked 1)
      (bothStored (.asked [sampleMicrophone] true)
        (.committed [sampleMicrophone, sampleSystemAudio]) (some wholeAnalysis) (some 1)) :=
    .locked (by decide) (by rw [microphone_computed]; simp) (by simp [bothStored]) rfl
  have hupdated : AnalysisStep anyReport (bothStored (.asked [sampleMicrophone] true)
        (.committed [sampleMicrophone, sampleSystemAudio]) (some wholeAnalysis) (some 1))
      (.committed 1) (bothStored (.committed [sampleMicrophone])
        (.committed [sampleMicrophone, sampleSystemAudio]) (some microphoneAnalysis) none) :=
    .updated (by decide) microphone_computed
  refine ⟨_, _, ((((((hrun.snoc hstored).snoc hstarted).snoc hread).snoc hasked).snoc
    hinserted).snoc hlocked).snoc hupdated, ?_, ⟨sampleMicrophone, by decide, rfl⟩, rfl, rfl⟩
  intro row hrow
  simp only [bothStored, List.mem_cons, List.not_mem_nil, or_false] at hrow
  rcases hrow with rfl | rfl
  · exact ⟨⟨1, .committed [sampleMicrophone]⟩, by decide, rfl, rfl⟩
  · exact ⟨⟨2, .committed [sampleMicrophone, sampleSystemAudio]⟩, by decide, rfl, rfl⟩

end TamForge.Speech
