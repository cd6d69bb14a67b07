import TamForge.Notes.Service

/-!
# The label of an approved note

A note is labelled when it is created and at every draft, never when it is
approved.  So an approved note is labelled as it happened exactly when the
Coach drafted it, or had written in the thread before the learner created the
note, or has not written at all.
-/

namespace TamForge.Notes

open Learning Models ProofSupport Today

variable {casefold : String → String} {activity : Activity} {db after start : Db} {call : Call}
  {event : Event} {note : StudyNote} {reads : Reads}
  {trace : List (Transition Db Event)}

/-! ## What calls do -/

theorem writeNote_ok (h : writeNote db note = .ok after) :
    after = { db with note := some note, nextNoteId := max db.nextNoteId (note.id + 1) } := by
  unfold writeNote at h
  split at h
  · cases h
  · cases h
    rfl

theorem draft_ok {answer : Except CoachError StudyNoteContent}
    (h : draft db reads answer = .ok after) :
    isApproved db = false ∧ ∃ note, after.note = some note ∧ note.status = .draft ∧
      note.assistance = .coached ∧ after.artifacts = db.artifacts := by
  unfold draft at h
  split at h
  · cases h
  rename_i happr
  have hdraft : isApproved db = false := Bool.eq_false_iff.mpr happr
  split at h
  · cases h
  split at h
  · cases h
  · cases h
  rename_i content
  rw [writeNote_ok h]
  refine ⟨hdraft, _, rfl, ?_, rfl, rfl⟩
  cases hnote : db.note with
  | none => rfl
  | some old =>
    have hold : ¬old.status = .approved := by simpa [isApproved, hnote] using hdraft
    cases hst : old.status with
    | draft => simpa using hst
    | approved => exact absurd hst hold

theorem save_ok {content : StudyNoteContent} (h : save db reads content = .ok after) :
    isApproved db = false ∧ ∃ note, after.note = some note ∧ note.status = .draft ∧
      (∀ old, db.note = some old → note.assistance = old.assistance) ∧
      (db.note = none → (note.assistance = .coached ↔ wasCoached db = true)) ∧
      after.artifacts = db.artifacts := by
  unfold save at h
  split at h
  · cases h
  rename_i happr
  have hdraft : isApproved db = false := Bool.eq_false_iff.mpr happr
  rw [writeNote_ok h]
  refine ⟨hdraft, _, rfl, ?_, ?_, ?_, rfl⟩
  · cases hnote : db.note with
    | none => rfl
    | some old =>
      have hold : ¬old.status = .approved := by simpa [isApproved, hnote] using hdraft
      cases hst : old.status with
      | draft => simpa using hst
      | approved => exact absurd hst hold
  · intro old hold
    simp only [hold, Option.getD_some]
  · intro hnone
    simp only [hnone, Option.getD_none, newNote]
    split
    · simp_all
    · simp_all

theorem storeArtifact_ok {artifact : Artifact} {now : Instant} {stored : Bool}
    (h : storeArtifact activity db note now stored = .ok (artifact, after)) :
    artifact ∈ after.artifacts ∧ artifact.contentHash = sha256 (markdown activity note) ∧
      (∀ other ∈ db.artifacts, other ∈ after.artifacts) ∧ after.note = db.note ∧
      after.thread = db.thread := by
  unfold storeArtifact at h
  dsimp only at h
  split at h
  · rename_i found hf
    cases h
    have hhash := List.find?_some hf
    exact ⟨List.mem_of_find?_eq_some hf, of_decide_eq_true hhash, fun _ ho => ho, rfl,
      rfl⟩
  split at h
  · cases h
  · cases h
    exact ⟨by simp, rfl, fun other ho => List.mem_append_left _ ho, rfl, rfl⟩

/-- The row of an approved note says what was stored. -/
def Hashed (activity : Activity) (db : Db) : Prop :=
  ∀ note, db.note = some note → note.status = .approved →
    note.contentSha256 = some (sha256 (markdown activity note)) ∧
      ∃ artifact ∈ db.artifacts, note.artifactId = some artifact.id ∧
        artifact.contentHash = sha256 (markdown activity note)

theorem linkArtifact_artifacts (artId : Nat) (now : Instant) :
    (linkArtifact db artId now).artifacts = db.artifacts := by
  unfold linkArtifact
  split <;> rfl

theorem approve_ok {stored : Bool} (h : approve casefold activity db reads stored = .ok after) :
    ∃ old, db.note = some old ∧
      ((old.status = .approved ∧ after = db) ∨
        (old.status ≠ .approved ∧ (∃ new, after.note = some new ∧ new.status = .approved ∧
          new.assistance = old.assistance) ∧ Hashed activity after ∧
          ∀ artifact ∈ db.artifacts, artifact ∈ after.artifacts)) := by
  unfold approve at h
  split at h
  · cases h
  rename_i old hold
  refine ⟨old, hold, ?_⟩
  split at h
  · rename_i happr
    cases h
    exact Or.inl ⟨happr, rfl⟩
  rename_i hdraft
  split at h
  · cases h
  obtain ⟨⟨artifact, stored'⟩, hstore, h⟩ := bind_ok_iff.mp h
  obtain ⟨commands, -, h⟩ := bind_ok_iff.mp h
  obtain ⟨cards, -, h⟩ := bind_ok_iff.mp h
  cases h
  obtain ⟨hmem, hhash, hkept, -, -⟩ := storeArtifact_ok hstore
  refine Or.inr ⟨hdraft, ⟨_, rfl, rfl, rfl⟩, ?_, ?_⟩
  · intro note hnote _
    cases hnote
    refine ⟨rfl, artifact, ?_, rfl, hhash⟩
    simp only [linkArtifact_artifacts]
    exact hmem
  · intro other ho
    simp only [linkArtifact_artifacts]
    exact hkept other ho

theorem send_ok {text : String} {turn : Except CoachError CoachTurn}
    (h : send db reads text turn = .ok after) :
    after.note = db.note ∧ after.artifacts = db.artifacts := by
  unfold send at h
  split at h
  · cases h
  · cases h
  · cases h
    exact ⟨rfl, rfl⟩

theorem perform_wasCoached (h : perform casefold activity db call = .ok after)
    (hcoach : wasCoached db = true) : wasCoached after = true := by
  have hsame : ∀ {other : Db}, other.thread = db.thread → wasCoached other = true := by
    intro other hthread
    rw [wasCoached, hthread]
    exact hcoach
  cases call with
  | draft reads answer =>
    simp only [perform, draft] at h
    split at h
    · cases h
    split at h
    · cases h
    split at h
    · cases h
    · cases h
    · exact hsame (by rw [writeNote_ok h])
  | save reads content =>
    simp only [perform, save] at h
    split at h
    · cases h
    · exact hsame (by rw [writeNote_ok h])
  | approve reads stored =>
    simp only [perform, approve] at h
    split at h
    · cases h
    split at h
    · cases h
      exact hcoach
    split at h
    · cases h
    obtain ⟨⟨artifact, mid⟩, hstore, h⟩ := bind_ok_iff.mp h
    obtain ⟨commands, -, h⟩ := bind_ok_iff.mp h
    obtain ⟨cards, -, h⟩ := bind_ok_iff.mp h
    cases h
    refine hsame ?_
    rw [← (storeArtifact_ok hstore).2.2.2.2]
    change (linkArtifact mid artifact.id reads.now).thread = mid.thread
    unfold linkArtifact
    split <;> rfl
  | send reads text turn =>
    simp only [perform, send] at h
    split at h
    · cases h
    · cases h
    · cases h
      simp [wasCoached]

theorem Step.keeps_coached (h : Step casefold activity db event after)
    (hcoach : wasCoached db = true) : wasCoached after = true := by
  cases h with
  | raised _ => exact hcoach
  | refused => exact hcoach
  | elsewhere => exact hcoach
  | committed hok => exact perform_wasCoached hok hcoach

def Drafts (e : Transition Db Event) : Prop :=
  ∃ reads answer, e.label = .call (.draft reads answer) (.ok ())

def WritesCoached (e : Transition Db Event) : Prop :=
  ∃ reads content, e.label = .call (.save reads content) (.ok ()) ∧ e.before.note = none ∧
    wasCoached e.before = true

structure NotesSound (activity : Activity) (trace : List (Transition Db Event)) : Prop where
  label : ∀ before e later, trace = before ++ e :: later → isApproved e.before = false →
    ∀ note, e.after.note = some note → note.status = .approved →
      (note.assistance = .coached ↔ (∃ earlier ∈ before, Drafts earlier) ∨
        wasCoached e.before = true)
  frozen : ∀ e ∈ trace, ∀ note, e.before.note = some note → note.status = .approved →
    e.after.note = some note ∧ ∀ artifact ∈ e.before.artifacts, artifact ∈ e.after.artifacts
  hashed : ∀ e ∈ trace, Hashed activity e.after
  refused : ∀ e ∈ trace, ∀ call error, e.label = .call call (.error error) →
    e.after.note = e.before.note ∧ e.after.artifacts = e.before.artifacts ∧
      e.after.links = e.before.links ∧ e.after.cards = e.before.cards

/-- Whenever a note is approved, the Coach drafted it before, or a coach message was in
the thread when the learner created it, or none is in the thread now. -/
def LabelledInTime (trace : List (Transition Db Event)) : Prop :=
  ∀ before e later, trace = before ++ e :: later → isApproved e.before = false →
    isApproved e.after = true → (∃ earlier ∈ before, Drafts earlier) ∨
      (∃ earlier ∈ before, WritesCoached earlier) ∨ wasCoached e.before = false

/-! ## What every run keeps -/

/-- The label says how the note was written so far. -/
structure RunInv (activity : Activity) (trace : List (Transition Db Event)) (db : Db) : Prop where
  unwritten : db.note = none → ∀ e ∈ trace, ¬Drafts e ∧ ¬WritesCoached e
  label : ∀ note, db.note = some note → (note.assistance = .coached ↔
    (∃ e ∈ trace, Drafts e) ∨ ∃ e ∈ trace, WritesCoached e)
  hashed : Hashed activity db

theorem exists_mem_snoc {P : Transition Db Event → Prop} {e : Transition Db Event} :
    (∃ other ∈ trace ++ [e], P other) ↔ (∃ other ∈ trace, P other) ∨ P e := by
  constructor
  · rintro ⟨other, ho, hP⟩
    rcases List.mem_append.mp ho with hearly | hlast
    · exact Or.inl ⟨other, hearly, hP⟩
    · exact Or.inr (List.mem_singleton.mp hlast ▸ hP)
  · rintro (⟨other, ho, hP⟩ | hP)
    · exact ⟨other, List.mem_append_left _ ho, hP⟩
    · exact ⟨e, by simp, hP⟩

theorem RunInv.keep (hinv : RunInv activity trace db) (hlab : ¬Drafts ⟨db, event, after⟩ ∧
      ¬WritesCoached ⟨db, event, after⟩)
    (hnone : after.note = none → db.note = none)
    (hnote : ∀ new, after.note = some new →
      ∃ old, db.note = some old ∧ new.assistance = old.assistance)
    (hhashed : Hashed activity after) :
    RunInv activity (trace ++ [⟨db, event, after⟩]) after := by
  refine ⟨?_, ?_, hhashed⟩
  · intro ha e he
    rcases List.mem_append.mp he with hearly | hlast
    · exact hinv.unwritten (hnone ha) e hearly
    · exact List.mem_singleton.mp hlast ▸ hlab
  · intro new hnew
    obtain ⟨old, hold, hsame⟩ := hnote new hnew
    rw [hsame, hinv.label old hold, exists_mem_snoc, exists_mem_snoc]
    simp [hlab.1, hlab.2]

theorem Hashed.of_draft (h : after.note = some note) (hdraft : note.status = .draft) :
    Hashed activity after := by
  intro new hnew hst
  rw [h] at hnew
  cases hnew
  rw [hdraft] at hst
  cases hst

theorem Hashed.of_same (h : Hashed activity db) (hnote : after.note = db.note)
    (harts : ∀ artifact ∈ db.artifacts, artifact ∈ after.artifacts) :
    Hashed activity after := by
  intro note hf happr
  rw [hnote] at hf
  obtain ⟨hsha, artifact, hart, hid, hhash⟩ := h note hf happr
  exact ⟨hsha, artifact, harts artifact hart, hid, hhash⟩

theorem Step.runInv (h : Step casefold activity db event after)
    (hinv : RunInv activity trace db) :
    RunInv activity (trace ++ [⟨db, event, after⟩]) after := by
  have href : ∀ call error, ¬Drafts ⟨db, .call call (.error error), db⟩ ∧
      ¬WritesCoached ⟨db, .call call (.error error), db⟩ := by
    intro call error
    refine ⟨?_, ?_⟩
    · rintro ⟨reads, answer, hlab⟩
      cases hlab
    · rintro ⟨reads, content, hlab, -⟩
      cases hlab
  cases h with
  | raised _ => exact hinv.keep (href _ _) id (fun new hnew => ⟨new, hnew, rfl⟩) hinv.hashed
  | refused => exact hinv.keep (href _ _) id (fun new hnew => ⟨new, hnew, rfl⟩) hinv.hashed
  | elsewhere =>
    refine hinv.keep ⟨?_, ?_⟩ id (fun new hnew => ⟨new, hnew, rfl⟩)
      (hinv.hashed.of_same rfl fun artifact h => List.mem_append_left _ h)
    · rintro ⟨reads, answer, hlab⟩
      cases hlab
    · rintro ⟨reads, content, hlab, -⟩
      cases hlab
  | @committed call _ hok =>
    cases call with
    | draft reads answer =>
      obtain ⟨-, note, hnote, hdraft, hcoach, -⟩ := draft_ok hok
      have hdrafts : Drafts ⟨db, .call (.draft reads answer) (.ok ()), after⟩ :=
        ⟨reads, answer, rfl⟩
      refine ⟨?_, ?_, Hashed.of_draft hnote hdraft⟩
      · intro hnone
        rw [hnote] at hnone
        cases hnone
      · intro new hnew
        cases hnote.symm.trans hnew
        rw [hcoach, exists_mem_snoc]
        simp [hdrafts]
    | save reads content =>
      obtain ⟨-, note, hnote, hdraft, hkept, hcrt, -⟩ := save_ok hok
      have hdrafts : ¬Drafts ⟨db, .call (.save reads content) (.ok ()), after⟩ := by
        rintro ⟨_, _, hlab⟩
        cases hlab
      cases hb : db.note with
      | some old =>
        refine hinv.keep ⟨hdrafts, ?_⟩ ?_ ?_ (Hashed.of_draft hnote hdraft)
        · rintro ⟨_, _, -, hnone, -⟩
          rw [hb] at hnone
          cases hnone
        · intro hnone
          rw [hnote] at hnone
          cases hnone
        · intro new hnew
          cases hnote.symm.trans hnew
          exact ⟨old, hb, hkept old hb⟩
      | none =>
        have hnever := hinv.unwritten hb
        have hwr : WritesCoached ⟨db, .call (.save reads content) (.ok ()), after⟩ ↔
            wasCoached db = true := by
          constructor
          · rintro ⟨_, _, -, -, hcoach⟩
            exact hcoach
          · exact fun hcoach => ⟨reads, content, rfl, hb, hcoach⟩
        refine ⟨?_, ?_, Hashed.of_draft hnote hdraft⟩
        · intro hnone
          rw [hnote] at hnone
          cases hnone
        · intro new hnew
          cases hnote.symm.trans hnew
          have hnoDraft : ¬∃ e ∈ trace, Drafts e :=
            fun ⟨e, he, hdrafted⟩ => (hnever e he).1 hdrafted
          have hnoWriting : ¬∃ e ∈ trace, WritesCoached e :=
            fun ⟨e, he, hwritten⟩ => (hnever e he).2 hwritten
          rw [hcrt hb, exists_mem_snoc, exists_mem_snoc, hwr]
          simp [hnoDraft, hnoWriting, hdrafts]
    | approve reads stored =>
      obtain ⟨old, hold, ⟨-, rfl⟩ | ⟨-, ⟨new, hnew, -, hsame⟩, hhashed, -⟩⟩ := approve_ok hok
      · refine hinv.keep ⟨?_, ?_⟩ id (fun new hnew => ⟨new, hnew, rfl⟩) hinv.hashed
        · rintro ⟨_, _, hlab⟩
          cases hlab
        · rintro ⟨_, _, hlab, -⟩
          cases hlab
      · refine hinv.keep ⟨?_, ?_⟩ ?_ ?_ hhashed
        · rintro ⟨_, _, hlab⟩
          cases hlab
        · rintro ⟨_, _, hlab, -⟩
          cases hlab
        · intro hnone
          rw [hnew] at hnone
          cases hnone
        · intro other ho
          cases hnew.symm.trans ho
          exact ⟨old, hold, hsame⟩
    | send reads text turn =>
      obtain ⟨hnote, harts⟩ := send_ok hok
      refine hinv.keep ⟨?_, ?_⟩ (fun hnone => hnote ▸ hnone)
        (fun new hnew => ⟨new, hnote ▸ hnew, rfl⟩)
        (hinv.hashed.of_same hnote fun artifact h => harts ▸ h)
      · rintro ⟨_, _, hlab⟩
        cases hlab
      · rintro ⟨_, _, hlab, -⟩
        cases hlab

theorem coached_of_writesCoached
    (hrun : Run (Step casefold activity) start trace db) {e : Transition Db Event}
    (he : e ∈ trace) (hwr : WritesCoached e) : wasCoached db = true := by
  obtain ⟨before, later, -, -, hstep, hlat⟩ := hrun.split he
  obtain ⟨reads, content, -, -, hcoach⟩ := hwr
  exact hlat.state_invariant (I := fun db => wasCoached db = true) (hstep.keeps_coached hcoach)
    fun _ _ _ hinv h => h.keeps_coached hinv

theorem runInv_of_run (hstart : start.note = none)
    (hrun : Run (Step casefold activity) start trace db) : RunInv activity trace db := by
  refine hrun.invariant (I := RunInv activity) ⟨by simp, ?_, ?_⟩ fun _ _ _ _ hinv h => h.runInv hinv
  · intro note hnote
    rw [hstart] at hnote
    cases hnote
  · intro note hnote
    rw [hstart] at hnote
    cases hnote

theorem Step.frozen (h : Step casefold activity db event after) (hnote : db.note = some note)
    (happr : note.status = .approved) :
    after.note = some note ∧ ∀ artifact ∈ db.artifacts, artifact ∈ after.artifacts := by
  have hisAppr : isApproved db = true := by simp [isApproved, hnote, happr]
  cases h with
  | raised _ => exact ⟨hnote, fun _ h => h⟩
  | refused => exact ⟨hnote, fun _ h => h⟩
  | elsewhere => exact ⟨hnote, fun artifact h => List.mem_append_left _ h⟩
  | @committed call _ hok =>
    cases call with
    | draft reads answer =>
      have hdraft := (draft_ok hok).1
      rw [hisAppr] at hdraft
      cases hdraft
    | save reads content =>
      have hdraft := (save_ok hok).1
      rw [hisAppr] at hdraft
      cases hdraft
    | approve reads stored =>
      obtain ⟨old, hold, ⟨-, rfl⟩ | ⟨hdraft, -⟩⟩ := approve_ok hok
      · exact ⟨hnote, fun _ h => h⟩
      · cases hnote.symm.trans hold
        exact absurd happr hdraft
    | send reads text turn =>
      obtain ⟨hsame, harts⟩ := send_ok hok
      exact ⟨hsame.trans hnote, fun artifact h => harts ▸ h⟩

theorem Step.refused_keeps {error : NotesError}
    (h : Step casefold activity db (.call call (.error error)) after) : after = db := by
  cases h with
  | raised _ => rfl
  | refused => rfl

theorem Step.approves (h : Step casefold activity db event after) (hb : isApproved db = false)
    (hnote : after.note = some note) (happr : note.status = .approved) :
    ∃ old, db.note = some old ∧ note.assistance = old.assistance := by
  have hsame : ∀ new, db.note = some new → new.status = .approved → False := by
    intro new hnew hst
    simp [isApproved, hnew, hst] at hb
  cases h with
  | raised _ => exact (hsame note hnote happr).elim
  | refused => exact (hsame note hnote happr).elim
  | elsewhere => exact (hsame note hnote happr).elim
  | @committed call _ hok =>
    cases call with
    | draft reads answer =>
      obtain ⟨-, new, hnew, hdraft, -⟩ := draft_ok hok
      cases hnew.symm.trans hnote
      rw [hdraft] at happr
      cases happr
    | save reads content =>
      obtain ⟨-, new, hnew, hdraft, -⟩ := save_ok hok
      cases hnew.symm.trans hnote
      rw [hdraft] at happr
      cases happr
    | approve reads stored =>
      obtain ⟨old, hold, ⟨hst, -⟩ | ⟨-, ⟨new, hnew, -, hlab⟩, -⟩⟩ := approve_ok hok
      · exact (hsame old hold hst).elim
      · cases hnew.symm.trans hnote
        exact ⟨old, hold, hlab⟩
    | send reads text turn =>
      exact (hsame note ((send_ok hok).1 ▸ hnote) happr).elim

/-- Notes are labelled as it happened, frozen, hashed and safe from refused calls if and
only if every approval comes in time for its label. -/
theorem notesSound_iff_labelledInTime (hstart : start.note = none)
    (hrun : Run (Step casefold activity) start trace db) :
    NotesSound activity trace ↔ LabelledInTime trace := by
  -- the label at an approval is that of the note before it
  have hlabels : ∀ before e later, trace = before ++ e :: later → isApproved e.before = false →
      ∀ note, e.after.note = some note → note.status = .approved →
        (note.assistance = .coached ↔ (∃ earlier ∈ before, Drafts earlier) ∨
          ∃ earlier ∈ before, WritesCoached earlier) := by
    intro before e later htrace hdraft note hnote happroved
    obtain ⟨mid, hbefore, hrest⟩ := hrun.of_append htrace
    obtain ⟨rfl, hstep, -⟩ := hrest.of_cons
    obtain ⟨old, hold, hsame⟩ := hstep.approves hdraft hnote happroved
    rw [hsame]
    exact (runInv_of_run hstart hbefore).label old hold
  constructor
  · intro hsound before e later htrace hdraft happroved
    obtain ⟨note, hnote, hstatus⟩ : ∃ note, e.after.note = some note ∧ note.status = .approved := by
      simpa [isApproved, Option.any_eq_true] using happroved
    have hright := hsound.label before e later htrace hdraft note hnote hstatus
    have hlabel := hlabels before e later htrace hdraft note hnote hstatus
    by_cases hcoached : wasCoached e.before = true
    · rcases hlabel.mp (hright.mpr (Or.inr hcoached)) with hdrafted | hwritten
      · exact Or.inl hdrafted
      · exact Or.inr (Or.inl hwritten)
    · exact Or.inr (Or.inr (Bool.eq_false_iff.mpr hcoached))
  · intro hintime
    have hstep : ∀ e ∈ trace, Step casefold activity e.before e.label e.after := by
      intro e he
      obtain ⟨before, later, -, -, hstep, -⟩ := hrun.split he
      exact hstep
    refine ⟨?_, fun e he note hnote happroved => (hstep e he).frozen hnote happroved, ?_, ?_⟩
    · intro before e later htrace hdraft note hnote happroved
      have happroves : isApproved e.after = true := by simp [isApproved, hnote, happroved]
      have hlabel := hlabels before e later htrace hdraft note hnote happroved
      rw [hlabel]
      constructor
      · rintro (hdrafted | ⟨earlier, hearlier, hwritten⟩)
        · exact Or.inl hdrafted
        · obtain ⟨mid, hbefore, hrest⟩ := hrun.of_append htrace
          obtain ⟨rfl, -⟩ := hrest.of_cons
          exact Or.inr (coached_of_writesCoached hbefore hearlier hwritten)
      · rintro (hdrafted | hcoached)
        · exact Or.inl hdrafted
        · rcases hintime before e later htrace hdraft happroves with hdrafted | hwritten | hnone
          · exact Or.inl hdrafted
          · exact Or.inr hwritten
          · rw [hnone] at hcoached
            cases hcoached
    · intro e he
      obtain ⟨before, later, -, hbefore, hlast, -⟩ := hrun.split he
      exact ((hlast.runInv (runInv_of_run hstart hbefore))).hashed
    · intro e he call error hlabel
      have hkept := hstep e he
      rw [hlabel] at hkept
      rw [hkept.refused_keeps]
      exact ⟨rfl, rfl, rfl, rfl⟩

/-! ## Sample runs -/

def sampleActivity : Activity := ⟨7, 1, "w1-d1-t1", 739852⟩

def sampleReads : Reads := ⟨.outputCommitted, "an attempt", "fluency", 0⟩

def sampleContent : StudyNoteContent where
  title := "Weak forms"
  rule := "Unstressed vowels are reduced."
  explanation := ""
  example_ := ""
  misconceptions := []
  validatedQueries := []
  sources := []
  flashcards := []

def sampleDb : Db := ⟨none, [], [], [], none, 1, 1⟩

/-- The note as `save` stores it in `sampleDb`. -/
def savedDb : Db :=
  { sampleDb with
    note := some (newNote sampleDb .learner .independent sampleContent sampleReads), nextNoteId := 2 }

theorem save_sampleDb : perform casefold sampleActivity sampleDb (.save sampleReads sampleContent) =
    .ok savedDb := by
  rfl

theorem approve_savedDb (thread : Option CoachThread) :
    ∃ after note, perform casefold sampleActivity { savedDb with thread := thread }
        (.approve sampleReads true) = .ok after ∧ after.note = some note ∧
      note.status = .approved ∧ note.assistance = .independent :=
  ⟨_, _, rfl, rfl, rfl, rfl⟩

/-- A note written and approved without the Coach. -/
theorem notesSound_iff_labelledInTime_sample :
    ∃ trace db, Run (Step id sampleActivity) sampleDb trace db ∧ NotesSound sampleActivity trace ∧
      ∃ note, db.note = some note ∧ note.status = .approved ∧ note.assistance = .independent := by
  obtain ⟨after, note, happrove, hnote, hstatus, hlabel⟩ := @approve_savedDb id none
  have hrun : Run (Step id sampleActivity) sampleDb _ after :=
    (Run.single (Step.committed save_sampleDb)).snoc (Step.committed happrove)
  refine ⟨_, after, hrun, (notesSound_iff_labelledInTime rfl hrun).mpr ?_, note, hnote, hstatus,
    hlabel⟩
  intro before e later htrace _ _
  have he : e ∈ before ++ e :: later := by simp
  rw [← htrace] at he
  simp only [List.cons_append, List.nil_append, List.mem_cons, List.not_mem_nil, or_false] at he
  rcases he with rfl | rfl
  · exact Or.inr (Or.inr rfl)
  · exact Or.inr (Or.inr rfl)

def sampleTurn : CoachTurn := ⟨"Listen for the schwa.", "Continue with the next block of the day.", false⟩

/-- The Coach answers after the note was created and before it is approved: the note is
approved as independent. -/
theorem coached_note_approved_independent :
    ∃ trace db, Run (Step id sampleActivity) sampleDb trace db ∧
      ¬NotesSound sampleActivity trace ∧ wasCoached db = true ∧
      ∃ note, db.note = some note ∧ note.status = .approved ∧ note.assistance = .independent := by
  have hsend : perform id sampleActivity savedDb (.send sampleReads "help" (.ok sampleTurn)) =
      .ok { savedDb with thread := some ⟨.none,
        [⟨.learner, strip "help", none⟩, ⟨.coach, sampleTurn.message, some sampleTurn.nextStep⟩]⟩ } :=
    rfl
  obtain ⟨after, note, happrove, hnote, hstatus, hlabel⟩ := @approve_savedDb id
    (some ⟨.none, [⟨.learner, strip "help", none⟩,
      ⟨.coach, sampleTurn.message, some sampleTurn.nextStep⟩]⟩)
  have hcoached := perform_wasCoached happrove rfl
  have hrun : Run (Step id sampleActivity) sampleDb _ after :=
    ((Run.single (Step.committed save_sampleDb)).snoc (Step.committed hsend)).snoc
      (Step.committed happrove)
  refine ⟨_, after, hrun, ?_, hcoached, note, hnote, hstatus, hlabel⟩
  intro hsound
  have hright := hsound.label _ _ [] rfl rfl note hnote hstatus
  rw [hlabel] at hright
  cases hright.mpr (Or.inr rfl)

end TamForge.Notes
