import Mathlib.Data.List.Induction
import TamForge.ProofSupport.Chains
import TamForge.Workspaces.Northstar

/-!
# The Northstar history never forks

The single pass of `append_only` accepts a list exactly when every entry may be
appended to the ones before it.  Such a list is a record of replacements, so it
falls into chains whose last entries are the current ones.
-/

namespace TamForge.Workspaces

open Models ProofSupport

section Validation

variable {entries : List NorthstarEntry} {entry : NorthstarEntry} {after : Recorded}

/-! ## The pass over the entries -/

structure Appendable (entries : List NorthstarEntry) (entry : NorthstarEntry) : Prop where
  increasing : ∀ other ∈ entries, other.entryId < entry.entryId
  replaces : ∀ target, entry.supersedesEntryId = some target →
    ∃ old ∈ entries, old.entryId = target ∧ old.kind = entry.kind ∧
      ∀ other ∈ entries, other.supersedesEntryId ≠ some target

inductive WellFormed : List NorthstarEntry → Prop
  | nil : WellFormed []
  | snoc {entries : List NorthstarEntry} {entry : NorthstarEntry} (before : WellFormed entries)
      (appendable : Appendable entries entry) : WellFormed (entries ++ [entry])

theorem wellFormed_snoc_iff :
    WellFormed (entries ++ [entry]) ↔ WellFormed entries ∧ Appendable entries entry := by
  constructor
  · intro h
    generalize hlist : entries ++ [entry] = list at h
    cases h with
    | nil => simp at hlist
    | snoc before appendable =>
      obtain ⟨rfl, hlast⟩ := List.append_inj' hlist rfl
      obtain rfl := List.singleton_inj.mp hlast
      exact ⟨before, appendable⟩
  · exact fun h => .snoc h.1 h.2

theorem WellFormed.pairwise (h : WellFormed entries) :
    entries.Pairwise fun old new => old.entryId < new.entryId := by
  induction h with
  | nil => exact List.Pairwise.nil
  | snoc before appendable ih =>
    rw [List.pairwise_append]
    refine ⟨ih, List.pairwise_singleton _ _, ?_⟩
    intro other ho last hlast
    obtain rfl := List.mem_singleton.mp hlast
    exact appendable.increasing other ho

theorem WellFormed.nodup (h : WellFormed entries) :
    (entries.map NorthstarEntry.entryId).Nodup := by
  rw [List.Nodup, List.pairwise_map]
  exact h.pairwise.imp fun h => Nat.ne_of_lt h

theorem WellFormed.succession (h : WellFormed entries) :
    Succession NorthstarEntry.entryId NorthstarEntry.supersedesEntryId entries := by
  induction h with
  | nil => exact .nil
  | snoc before appendable ih =>
    refine .snoc ih (fun other ho => (appendable.increasing other ho).ne) ?_
    intro tgt htgt
    obtain ⟨old, hold, hkey, -, hfree⟩ := appendable.replaces tgt htgt
    exact ⟨⟨old, hold, hkey⟩, hfree⟩

theorem WellFormed.same_kind (h : WellFormed entries) (hent : entry ∈ entries) {tgt : Nat}
    (htgt : entry.supersedesEntryId = some tgt) :
    ∃ old ∈ entries, old.entryId = tgt ∧ old.kind = entry.kind := by
  induction h with
  | nil => cases hent
  | snoc before appendable ih =>
    rcases List.mem_append.mp hent with hold | hlast
    · obtain ⟨old, hmem, hkey, hkind⟩ := ih hold
      exact ⟨old, List.mem_append_left _ hmem, hkey, hkind⟩
    · obtain rfl := List.mem_singleton.mp hlast
      obtain ⟨old, hmem, hkey, hkind, -⟩ := appendable.replaces tgt htgt
      exact ⟨old, List.mem_append_left _ hmem, hkey, hkind⟩

def recorded (entries : List NorthstarEntry) : Recorded where
  seen := entries.map fun entry => (entry.entryId, entry)
  superseded := entries.filterMap NorthstarEntry.supersedesEntryId

theorem keys_recorded : (recorded entries).seen.map Prod.fst =
    entries.map NorthstarEntry.entryId := by
  rw [recorded, List.map_map]
  rfl

theorem mem_superseded {target : Nat} : target ∈ (recorded entries).superseded ↔
    ∃ other ∈ entries, other.supersedesEntryId = some target :=
  List.mem_filterMap

theorem increasing_iff : ((recorded entries).seen.map Prod.fst).max?.any
    (fun last => decide (entry.entryId ≤ last)) = false ↔
      ∀ other ∈ entries, other.entryId < entry.entryId := by
  rw [keys_recorded]
  cases hmax : (entries.map NorthstarEntry.entryId).max? with
  | none =>
    rw [List.max?_eq_none_iff, List.map_eq_nil_iff] at hmax
    simp [hmax]
  | some last =>
    obtain ⟨hmem, hbound⟩ := List.max?_eq_some_iff.mp hmax
    rw [Option.any_some, decide_eq_false_iff_not, Nat.not_le]
    constructor
    · intro hlast other ho
      have hle := hbound other.entryId (List.mem_map_of_mem ho)
      omega
    · intro hall
      obtain ⟨other, ho, rfl⟩ := List.mem_map.mp hmem
      exact hall other ho

theorem get?_recorded (hnd : (entries.map NorthstarEntry.entryId).Nodup) {target : Nat}
    {old : NorthstarEntry} : Dict.get? (recorded entries).seen target = some old ↔
      old ∈ entries ∧ old.entryId = target := by
  rw [Dict.get?_eq_some (by rw [keys_recorded]; exact hnd), recorded, List.mem_map]
  constructor
  · rintro ⟨found, hf, heq⟩
    obtain ⟨hkey, rfl⟩ := Prod.mk.inj heq
    exact ⟨hf, hkey⟩
  · rintro ⟨hold, rfl⟩
    exact ⟨old, hold, rfl⟩

theorem recorded_snoc (hnew : ∀ other ∈ entries, other.entryId < entry.entryId) :
    recorded (entries ++ [entry]) =
      ⟨Dict.set (recorded entries).seen entry.entryId entry,
        (recorded entries).superseded ++ entry.supersedesEntryId.toList⟩ := by
  have hkey : entry.entryId ∉ (recorded entries).seen.map Prod.fst := by
    rw [keys_recorded]
    intro hmem
    obtain ⟨other, ho, hsame⟩ := List.mem_map.mp hmem
    exact (hnew other ho).ne hsame
  rw [Dict.set_of_not_mem hkey]
  cases hlink : entry.supersedesEntryId <;> simp [recorded, hlink]

theorem record_ok_iff (h : WellFormed entries) :
    (recorded entries).record entry = .ok after ↔
      Appendable entries entry ∧ after = recorded (entries ++ [entry]) := by
  simp only [Recorded.record, bind_ok_iff]
  have hgrd : ∀ u, raiseFirst [(((recorded entries).seen.map Prod.fst).max?.any
      fun last => decide (entry.entryId ≤ last), HistoryError.valueError
        "entries must be recorded in increasing order")] = .ok u ↔
      ∀ other ∈ entries, other.entryId < entry.entryId := by
    intro u
    rw [← increasing_iff]
    exact raiseFirst_eq_ok.trans (by simp)
  simp only [hgrd]
  cases hlink : entry.supersedesEntryId with
  | none =>
    constructor
    · rintro ⟨_, hnew, ha⟩
      cases ha
      refine ⟨⟨hnew, by simp [hlink]⟩, ?_⟩
      rw [recorded_snoc hnew, hlink]
      simp
    · rintro ⟨happ, rfl⟩
      refine ⟨(), happ.increasing, ?_⟩
      rw [recorded_snoc happ.increasing, hlink]
      simp [pure, Except.pure]
  | some target =>
    cases hold : Dict.get? (recorded entries).seen target with
    | none =>
      simp only [hold]
      constructor
      · rintro ⟨_, -, hraise⟩
        cases hraise
      · rintro ⟨happ, -⟩
        obtain ⟨old, hmem, hkey, -⟩ := happ.replaces target hlink
        rw [(get?_recorded h.nodup).mpr ⟨hmem, hkey⟩] at hold
        cases hold
    | some old =>
      obtain ⟨hmem, hkey⟩ := (get?_recorded h.nodup).mp hold
      have hchk : ∀ u, raiseFirst [
          (old.kind != entry.kind, HistoryError.valueError
            "an entry can only supersede one of its own kind"),
          ((recorded entries).superseded.contains target, .valueError
            "an entry has already been superseded")] = .ok u ↔
          old.kind = entry.kind ∧
            ∀ other ∈ entries, other.supersedesEntryId ≠ some target := by
        intro u
        refine raiseFirst_eq_ok.trans ?_
        simp [mem_superseded]
      simp only [hold, bind_ok_iff, hchk]
      constructor
      · rintro ⟨_, hnew, _, ⟨hkind, hfree⟩, ha⟩
        cases ha
        refine ⟨⟨hnew, ?_⟩, ?_⟩
        · intro other ho
          cases hlink.symm.trans ho
          exact ⟨old, hmem, hkey, hkind, hfree⟩
        · rw [recorded_snoc hnew, hlink]
          rfl
      · rintro ⟨happ, rfl⟩
        obtain ⟨found, hf, hsame, hkind, hfree⟩ := happ.replaces target hlink
        obtain rfl := List.inj_on_of_nodup_map h.nodup hf hmem (hsame.trans hkey.symm)
        refine ⟨(), happ.increasing, (), ⟨hkind, hfree⟩, ?_⟩
        rw [recorded_snoc happ.increasing, hlink]
        rfl

theorem appendOnly_ok_iff :
    appendOnly entries = .ok after ↔ WellFormed entries ∧ after = recorded entries := by
  induction entries using List.reverseRecOn generalizing after with
  | nil =>
    constructor
    · intro h
      cases h
      exact ⟨.nil, rfl⟩
    · rintro ⟨-, rfl⟩
      rfl
  | append_singleton entries entry ih =>
    have hfold : appendOnly (entries ++ [entry]) =
        (appendOnly entries).bind fun state => state.record entry := by
      simp only [appendOnly, List.foldlM_append, List.foldlM_cons, List.foldlM_nil]
      cases entries.foldlM Recorded.record ⟨[], []⟩ with
      | error error => rfl
      | ok state =>
        cases hrec : state.record entry <;>
          simp [bind, Except.bind, pure, Except.pure, hrec]
    rw [hfold, wellFormed_snoc_iff]
    constructor
    · intro h
      obtain ⟨state, hst, hrec⟩ := bind_ok_iff.mp h
      obtain ⟨hformed, rfl⟩ := ih.mp hst
      obtain ⟨happ, rfl⟩ := (record_ok_iff hformed).mp hrec
      exact ⟨⟨hformed, happ⟩, rfl⟩
    · rintro ⟨⟨hformed, happ⟩, rfl⟩
      exact bind_ok_iff.mpr ⟨_, ih.mpr ⟨hformed, rfl⟩, (record_ok_iff hformed).mpr ⟨happ, rfl⟩⟩

theorem validateEntries_ok_iff :
    validateEntries entries = .ok () ↔ entries.length ≤ maxEntries ∧ WellFormed entries := by
  simp only [validateEntries, bind_ok_iff]
  constructor
  · rintro ⟨_, hlen, state, hst, -⟩
    have hle := raiseFirst_eq_ok.mp hlen _ (List.mem_cons_self ..)
    exact ⟨by simpa using hle, (appendOnly_ok_iff.mp hst).1⟩
  · rintro ⟨hlen, hformed⟩
    exact ⟨(), raiseFirst_eq_ok.mpr (by simpa using hlen), _,
      appendOnly_ok_iff.mpr ⟨hformed, rfl⟩, rfl⟩

end Validation

/-! ## A history -/

namespace NorthstarHistory

variable {history grown : NorthstarHistory} {entry : NorthstarEntry}

theorem wellFormed (history : NorthstarHistory) : WellFormed history.entries :=
  (validateEntries_ok_iff.mp history.valid).2

theorem mem_current_iff : entry ∈ history.current none ↔
    Standing NorthstarEntry.entryId NorthstarEntry.supersedesEntryId history.entries entry := by
  simp only [current, supersededIds, List.mem_filter, Standing, Option.all_none, Bool.and_true,
    Bool.not_eq_true', List.contains_eq_mem, decide_eq_false_iff_not, List.mem_filterMap,
    not_exists, not_and]

theorem mem_current_kind_iff {kind : NorthstarEntryKind} :
    entry ∈ history.current (some kind) ↔ entry ∈ history.current none ∧ entry.kind = kind := by
  simp only [current, List.mem_filter, Option.all_some, Option.all_none, Bool.and_true,
    Bool.and_eq_true, beq_iff_eq, and_assoc]

structure Admits (history : NorthstarHistory) (entry : NorthstarEntry) : Prop where
  increasing : ∀ other ∈ history.entries, other.entryId < entry.entryId
  target : ∀ target, entry.supersedesEntryId = some target →
    ∃ old ∈ history.current (some entry.kind), old.entryId = target
  room : history.entries.length < maxEntries

theorem admits_iff : history.Admits entry ↔
    Appendable history.entries entry ∧ history.entries.length < maxEntries := by
  constructor
  · rintro ⟨hincr, htgt, hroom⟩
    refine ⟨⟨hincr, fun tgt hlink => ?_⟩, hroom⟩
    obtain ⟨old, hold, rfl⟩ := htgt tgt hlink
    obtain ⟨hcur, hkind⟩ := mem_current_kind_iff.mp hold
    obtain ⟨hmem, hfree⟩ := mem_current_iff.mp hcur
    exact ⟨old, hmem, rfl, hkind, hfree⟩
  · rintro ⟨⟨hincr, hrepls⟩, hroom⟩
    refine ⟨hincr, fun tgt hlink => ?_, hroom⟩
    obtain ⟨old, hmem, rfl, hkind, hfree⟩ := hrepls tgt hlink
    exact ⟨old, mem_current_kind_iff.mpr ⟨mem_current_iff.mpr ⟨hmem, hfree⟩, hkind⟩, rfl⟩

theorem append_cases (history : NorthstarHistory) (entry : NorthstarEntry) :
    (history.Admits entry ∧ ∃ grown, history.append entry = .ok grown ∧
      grown.entries = history.entries ++ [entry]) ∨
    (¬ history.Admits entry ∧ ∃ error, history.append entry = .error error) := by
  have hval : validateEntries (history.entries ++ [entry]) = .ok () ↔
      history.Admits entry := by
    rw [validateEntries_ok_iff, wellFormed_snoc_iff, admits_iff, List.length_append,
      List.length_singleton]
    constructor
    · rintro ⟨hlen, -, happ⟩
      exact ⟨happ, by omega⟩
    · rintro ⟨happ, hroom⟩
      exact ⟨by omega, history.wellFormed, happ⟩
  unfold append
  split
  · rename_i hok
    exact Or.inl ⟨hval.mp hok, _, rfl, rfl⟩
  · rename_i error herr
    right
    refine ⟨fun hadms => ?_, _, rfl⟩
    rw [hval.mpr hadms] at herr
    cases herr

theorem isPrefix_afterCall (history : NorthstarHistory) (entry : NorthstarEntry) :
    history.entries <+: (history.afterCall entry).entries := by
  unfold afterCall
  rcases append_cases history entry with ⟨-, grown, hok, hentries⟩ | ⟨-, error, herr⟩
  · rw [hok]
    exact ⟨[entry], hentries.symm⟩
  · simp only [herr, List.prefix_refl]

theorem isPrefix_afterCalls (history : NorthstarHistory) (calls : List NorthstarEntry) :
    history.entries <+: (history.afterCalls calls).entries := by
  induction calls generalizing history with
  | nil => exact List.prefix_refl _
  | cons entry rest ih => exact (isPrefix_afterCall history entry).trans (ih (history.afterCall entry))

structure Unforked (history : NorthstarHistory) : Prop where
  increasing : history.entries.Pairwise fun old new => old.entryId < new.entryId
  replaces : ∀ entry ∈ history.entries, ∀ target, entry.supersedesEntryId = some target →
    entry.source = .scenario ∧ ∃ old ∈ history.entries,
      old.entryId = target ∧ old.entryId < entry.entryId ∧ old.kind = entry.kind
  injective : ∀ entry ∈ history.entries, ∀ other ∈ history.entries, ∀ target,
    entry.supersedesEntryId = some target → other.supersedesEntryId = some target → entry = other
  chains : ∃ chains, Chained NorthstarEntry.entryId NorthstarEntry.supersedesEntryId
      history.entries chains ∧
    ∀ entry, entry ∈ history.current none ↔ ∃ chain ∈ chains, chain.getLast? = some entry
  kinds : ∀ kind entry, entry ∈ history.current (some kind) ↔
    entry ∈ history.current none ∧ entry.kind = kind

theorem unforked (history : NorthstarHistory) : history.Unforked := by
  have hsuccession := history.wellFormed.succession
  constructor
  · exact history.wellFormed.pairwise
  · intro entry hent tgt hlink
    obtain ⟨hlt, hsrc⟩ := entry.only_a_scenario_rewrites tgt hlink
    obtain ⟨old, hold, hkey, hkind⟩ := history.wellFormed.same_kind hent hlink
    refine ⟨by simpa [supersedingSources] using hsrc, old, hold, hkey, ?_, hkind⟩
    rw [hkey]
    exact hlt
  · intro entry hent other ho tgt hlink hlinked
    exact hsuccession.link_injective hent ho hlink hlinked
  · obtain ⟨chains, hchains⟩ := hsuccession.exists_chained
    exact ⟨chains, hchains, fun entry => mem_current_iff.trans (hchains.last_iff entry).symm⟩
  · exact fun kind entry => mem_current_kind_iff

end NorthstarHistory

/-- After any calls the history is unforked and a prefix of what further calls
make of it; an entry is appended exactly when the rule admits it, and a refused
call raises `WorkspaceRuleError` and leaves the history. -/
theorem northstar_never_forks (calls more : List NorthstarEntry) :
    (NorthstarHistory.empty.afterCalls calls).Unforked ∧
      (NorthstarHistory.empty.afterCalls calls).entries <+:
        (NorthstarHistory.empty.afterCalls (calls ++ more)).entries ∧
      ∀ entry,
        ((NorthstarHistory.empty.afterCalls calls).Admits entry ↔
          ∃ grown, (NorthstarHistory.empty.afterCalls calls).append entry = .ok grown) ∧
        (∀ grown, (NorthstarHistory.empty.afterCalls calls).append entry = .ok grown →
          grown.entries = (NorthstarHistory.empty.afterCalls calls).entries ++ [entry]) ∧
        (¬ (NorthstarHistory.empty.afterCalls calls).Admits entry →
          ∃ error : WorkspaceRuleError,
            (NorthstarHistory.empty.afterCalls calls).append entry = .error error ∧
            NorthstarHistory.empty.afterCalls (calls ++ [entry]) =
              NorthstarHistory.empty.afterCalls calls) := by
  have hnext : ∀ later, NorthstarHistory.empty.afterCalls (calls ++ later) =
      (NorthstarHistory.empty.afterCalls calls).afterCalls later :=
    fun later => List.foldl_append
  refine ⟨NorthstarHistory.unforked _, ?_, fun entry => ?_⟩
  · rw [hnext]
    exact NorthstarHistory.isPrefix_afterCalls _ more
  · rw [hnext]
    generalize NorthstarHistory.empty.afterCalls calls = history
    rcases NorthstarHistory.append_cases history entry with
      ⟨hadmits, grown, hok, hentries⟩ | ⟨hrefused, error, herror⟩
    · refine ⟨⟨fun _ => ⟨grown, hok⟩, fun _ => hadmits⟩, ?_, fun hnot => absurd hadmits hnot⟩
      intro other hother
      rw [hok] at hother
      cases hother
      exact hentries
    · refine ⟨⟨fun hadmits => absurd hadmits hrefused, ?_⟩, ?_, fun _ => ⟨error, herror, ?_⟩⟩
      · rintro ⟨grown, hok⟩
        rw [herror] at hok
        cases hok
      · intro grown hok
        rw [herror] at hok
        cases hok
      · simp only [NorthstarHistory.afterCalls, List.foldl_cons, List.foldl_nil,
          NorthstarHistory.afterCall, herror]

end TamForge.Workspaces
