import Mathlib.Data.List.Chain
import TamForge.Recordings.Schemas

/-!
# Track manifests that tile their track

`validate_track` sorts ranges, walks over them with a cursor, joins the adjacent
ones and walks again.  Here what it accepts is said of single samples: each one
in exactly one part or gap, and each one of a part in exactly one segment of the
source lineage.
-/

namespace TamForge.Recordings

open Models ProofSupport

variable {range last : Span} {ranges rest segments spans : List Span}

/-! ## Ordered ranges -/

instance : Std.Total spanBefore where
  total first second := by
    unfold spanBefore
    omega

instance : IsTrans Span spanBefore where
  trans first second third := by
    unfold spanBefore
    omega

theorem sortedSpans_perm (spans : List Span) : (sortedSpans spans).Perm spans :=
  List.perm_insertionSort spanBefore spans

theorem sortedSpans_pairwise (spans : List Span) : (sortedSpans spans).Pairwise spanBefore :=
  List.pairwise_insertionSort spanBefore spans

theorem sortedSpans_sorted (spans : List Span) :
    (sortedSpans spans).Pairwise fun left right => left.start ≤ right.start := by
  apply (sortedSpans_pairwise spans).imp
  intro left right hb
  unfold spanBefore at hb
  omega

theorem follows_of_apart (hsort : spans.Pairwise fun left right => left.start ≤ right.start)
    (hpos : ∀ span ∈ spans, 0 < span.count) (hapart : spans.Pairwise Span.Apart) :
    spans.Pairwise fun left right => left.stop ≤ right.start := by
  apply (hsort.and hapart).imp_of_mem
  rintro left right hleft hright ⟨hle, hapart⟩
  have hcnt := hpos right hright
  unfold Span.Apart at hapart
  have hstop : right.stop = right.start + right.count := rfl
  omega

theorem chronological_iff {parts : List RecordingPartDescriptor}
    (hpos : ∀ part ∈ parts, 0 < part.sampleCount) :
    ((parts.zip parts.tail).any fun pair =>
        decide (pair.2.sampleStart < pair.1.sampleStart + pair.1.sampleCount)) = false ↔
      parts.Pairwise fun first second => first.span.stop ≤ second.span.start := by
  induction parts with
  | nil => simp
  | cons part parts ih =>
    have ih := ih fun other ho => hpos other (List.mem_cons_of_mem _ ho)
    cases parts with
    | nil => simp
    | cons next parts =>
      rw [List.tail_cons, List.zip_cons_cons, List.any_cons, Bool.or_eq_false_iff,
        decide_eq_false_iff_not, Nat.not_lt, List.pairwise_cons]
      rw [List.tail_cons] at ih
      rw [ih]
      refine and_congr_left fun hlat => ?_
      constructor
      · intro hnext other ho
        rcases List.mem_cons.mp ho with rfl | hrest
        · exact hnext
        · have hcnt := hpos next (by simp)
          have ha := (List.pairwise_cons.mp hlat).1 other hrest
          simp only [RecordingPartDescriptor.span, Span.stop] at ha hnext ⊢
          omega
      · intro hall
        exact hall next (List.mem_cons_self ..)

theorem coalesceFrom_sameCover (last : Span) (rest : List Span) :
    Span.SameCover (coalesceFrom last rest) (last :: rest) := by
  induction rest generalizing last with
  | nil => exact fun _ => rfl
  | cons next rest ih =>
    rw [coalesceFrom]
    split
    · rename_i hnext
      apply (ih _).trans
      have hcut := Span.sameCover_cut last.start last.count next.count rest
      have hright : (⟨last.start + last.count, next.count⟩ : Span) = next := by
        rw [show last.start + last.count = last.stop from rfl, ← hnext]
      rw [hright] at hcut
      exact hcut
    · exact (ih next).cons last

theorem coalesceFrom_pos (hpos : ∀ span ∈ last :: rest, 0 < span.count) :
    ∀ span ∈ coalesceFrom last rest, 0 < span.count := by
  induction rest generalizing last with
  | nil => exact hpos
  | cons next rest ih =>
    rw [List.forall_mem_cons, List.forall_mem_cons] at hpos
    obtain ⟨hlast, hnext, hrest⟩ := hpos
    rw [coalesceFrom]
    split
    · apply ih
      rw [List.forall_mem_cons]
      exact ⟨Nat.add_pos_left hlast _, hrest⟩
    · rw [List.forall_mem_cons]
      exact ⟨hlast, ih (List.forall_mem_cons.mpr ⟨hnext, hrest⟩)⟩

theorem coalesceFrom_start {start : Nat} (h : ∀ span ∈ last :: rest, start ≤ span.start) :
    ∀ span ∈ coalesceFrom last rest, start ≤ span.start := by
  induction rest generalizing last with
  | nil => exact h
  | cons next rest ih =>
    rw [List.forall_mem_cons, List.forall_mem_cons] at h
    obtain ⟨hlast, hnext, hrest⟩ := h
    rw [coalesceFrom]
    split
    · exact ih (List.forall_mem_cons.mpr ⟨hlast, hrest⟩)
    · rw [List.forall_mem_cons]
      exact ⟨hlast, ih (List.forall_mem_cons.mpr ⟨hnext, hrest⟩)⟩

/-- Between two joined ranges there is a sample of neither. -/
theorem coalesceFrom_separated
    (h : (last :: rest).Pairwise fun left right => left.stop ≤ right.start)
    (hpos : ∀ span ∈ last :: rest, 0 < span.count) :
    (coalesceFrom last rest).Pairwise fun left right => left.stop < right.start := by
  induction rest generalizing last with
  | nil => exact List.pairwise_singleton _ _
  | cons next rest ih =>
    rw [List.pairwise_cons, List.forall_mem_cons] at h
    obtain ⟨⟨hnext, hlast⟩, hrest⟩ := h
    rw [List.forall_mem_cons] at hpos
    have hfollow := List.pairwise_cons.mp hrest
    rw [coalesceFrom]
    split
    · rename_i hjoin
      have hstop : Span.stop ⟨last.start, last.count + next.count⟩ = next.stop := by
        simp only [Span.stop] at hjoin ⊢
        omega
      apply ih
      · rw [List.pairwise_cons, hstop]
        exact hfollow
      · rw [List.forall_mem_cons] at hpos ⊢
        exact ⟨Nat.add_pos_left hpos.1 _, hpos.2.2⟩
    · rename_i hapart
      rw [List.pairwise_cons]
      refine ⟨?_, ih hrest hpos.2⟩
      apply coalesceFrom_start
      rw [List.forall_mem_cons]
      refine ⟨by omega, fun other ho => ?_⟩
      have ha := hfollow.1 other ho
      have hcnt := hpos.2 next (List.mem_cons_self ..)
      have hstop : next.stop = next.start + next.count := rfl
      omega

/-! ## The walk over the source lineage -/

theorem coverLineage_from {cursor : Nat} (hcursor : cursor ≤ range.stop)
    (ranges segments : List Span) :
    coverLineage (range :: ranges) cursor segments =
      coverLineage (⟨cursor, range.stop - cursor⟩ :: ranges) cursor segments := by
  suffices h : ∀ (first second : Span) (at' : Nat), first.stop = second.stop →
      coverLineage (first :: ranges) at' segments =
        coverLineage (second :: ranges) at' segments by
    apply h
    show range.stop = cursor + (range.stop - cursor)
    omega
  induction segments with
  | nil => exact fun _ _ _ _ => rfl
  | cons segment segments ih =>
    intro first second at' hstop
    rw [coverLineage, coverLineage, hstop, ih first second segment.stop hstop]

def rangesAfter (segment range : Span) (ranges : List Span) : List Span :=
  if segment.stop = range.stop then ranges
  else ⟨segment.stop, range.stop - segment.stop⟩ :: ranges

/-- One round of the walk. -/
theorem coverLineage_step (seg range : Span) (ranges segments : List Span) :
    coverLineage (range :: ranges) range.start (seg :: segments) = .ok () ↔
      seg.start = range.start ∧ seg.stop ≤ range.stop ∧
        coverLineage (rangesAfter seg range ranges)
          (((rangesAfter seg range ranges).head?.map Span.start).getD seg.stop)
          segments = .ok () := by
  rw [coverLineage, rangesAfter]
  by_cases hstart : seg.start = range.start
  · rw [if_neg (not_not_intro hstart)]
    by_cases hstop : range.stop < seg.stop
    · rw [if_pos hstop]
      constructor
      · intro h
        cases h
      · rintro ⟨-, hle, -⟩
        omega
    · rw [if_neg hstop]
      by_cases hend : seg.stop = range.stop
      · rw [if_pos hend, if_pos hend]
        simp only [hstart, not_lt.mp hstop, true_and]
      · rw [if_neg hend, if_neg hend, coverLineage_from (not_lt.mp hstop)]
        simp only [hstart, not_lt.mp hstop, true_and, List.head?_cons, Option.map_some,
          Option.getD_some]
  · rw [if_pos hstart]
    constructor
    · intro h
      cases h
    · rintro ⟨hbegin, -⟩
      exact absurd hbegin hstart

theorem rangesAfter_sameCover (seg range : Span) (ranges : List Span) :
    Span.SameCover (⟨seg.stop, range.stop - seg.stop⟩ :: ranges)
      (rangesAfter seg range ranges) := by
  rw [rangesAfter]
  split
  · rename_i hend
    rw [hend, Nat.sub_self]
    exact Span.sameCover_empty range.stop ranges
  · exact fun _ => rfl

theorem rangesAfter_ordered {seg : Span} (hstop : seg.stop ≤ range.stop)
    (hsep : (range :: ranges).Pairwise fun left right => left.stop < right.start)
    (hpos : ∀ other ∈ range :: ranges, 0 < other.count) :
    ((rangesAfter seg range ranges).Pairwise fun left right => left.stop < right.start) ∧
      (∀ other ∈ rangesAfter seg range ranges, 0 < other.count) ∧
      ∀ other ∈ rangesAfter seg range ranges, seg.stop ≤ other.start := by
  rw [List.pairwise_cons] at hsep
  rw [List.forall_mem_cons] at hpos
  have hbehind : ∀ other ∈ ranges, seg.stop ≤ other.start := by
    intro other ho
    have ha := hsep.1 other ho
    omega
  rw [rangesAfter]
  split
  · exact ⟨hsep.2, hpos.2, hbehind⟩
  · rename_i hmore
    rw [List.pairwise_cons, List.forall_mem_cons, List.forall_mem_cons]
    refine ⟨⟨?_, hsep.2⟩, ⟨?_, hpos.2⟩, Nat.le_refl _, hbehind⟩
    · intro other ho
      rw [show Span.stop ⟨seg.stop, range.stop - seg.stop⟩ = range.stop from
        Nat.add_sub_cancel' hstop]
      exact hsep.1 other ho
    · show 0 < range.stop - seg.stop
      omega

theorem coverLineage_ok_iff
    (hsep : ranges.Pairwise fun left right => left.stop < right.start)
    (hpos : ∀ range ∈ ranges, 0 < range.count) (hsegs : ∀ seg ∈ segments, 0 < seg.count)
    (cursor : Nat) :
    coverLineage ranges ((ranges.head?.map Span.start).getD cursor) segments = .ok () ↔
      (segments.Pairwise fun left right => left.start < right.start) ∧
        Span.SameCover segments ranges := by
  induction segments generalizing ranges cursor with
  | nil =>
    cases ranges with
    | nil => simp [coverLineage, Span.SameCover]
    | cons range ranges =>
      rw [coverLineage]
      constructor
      · intro h
        cases h
      · rintro ⟨-, hcover⟩
        cases hcover.symm.eq_nil hpos
  | cons seg segments ih =>
    cases ranges with
    | nil =>
      rw [coverLineage]
      constructor
      · intro h
        cases h
      · rintro ⟨-, hcover⟩
        cases hcover.eq_nil hsegs
    | cons range ranges =>
      rw [List.forall_mem_cons] at hsegs
      rw [List.head?_cons, Option.map_some, Option.getD_some, coverLineage_step]
      constructor
      · rintro ⟨hstart, hstop, hwalk⟩
        obtain ⟨hsep', hpos', hbehind⟩ := rangesAfter_ordered hstop hsep hpos
        obtain ⟨hord, hcover⟩ := (ih hsep' hpos' hsegs.2 _).mp hwalk
        refine ⟨List.pairwise_cons.mpr ⟨fun other ho => ?_, hord⟩, ?_⟩
        · obtain ⟨left, hleft, hin⟩ := hcover.exists_contains ho
            (Span.contains_start (hsegs.2 other ho))
          have hle := hbehind left hleft
          rw [Span.contains_iff] at hin
          have hcnt := hsegs.1
          have hseg : seg.stop = seg.start + seg.count := rfl
          omega
        · have hleft := hcover.trans (rangesAfter_sameCover seg range ranges).symm
          exact (hleft.cons seg).trans (Span.sameCover_begin hstart hstop ranges).symm
      · rintro ⟨hord, hcover⟩
        rw [List.pairwise_cons] at hord
        obtain ⟨hstart, hstop, hleft⟩ := hcover.peel (hpos range (List.mem_cons_self ..))
          hsegs.1 (fun other ho => Nat.le_of_lt (hord.1 other ho))
          (fun other ho => (List.pairwise_cons.mp hsep).1 other ho)
        obtain ⟨hsep', hpos', -⟩ := rangesAfter_ordered hstop hsep hpos
        exact ⟨hstart, hstop, (ih hsep' hpos' hsegs.2 _).mpr
          ⟨hord.2, hleft.trans (rangesAfter_sameCover seg range ranges)⟩⟩

namespace RecordingTrackManifest

structure FieldsValid (track : RecordingTrackManifest) : Prop where
  channels : track.format.channelCount = 1 ∨ track.format.channelCount = 2
  total : 0 < track.totalSampleCount ∧ track.totalSampleCount ≤ maxTrackSamples
  lengths : track.parts.length ≤ maxParts ∧ track.gaps.length ≤ maxParts ∧
    track.sourceLineage.length ≤ maxParts
  parts : ∀ part ∈ track.parts, part.validate = .ok ()
  gaps : ∀ gap ∈ track.gaps, gap.validate = .ok ()
  lineage : ∀ segment ∈ track.sourceLineage, segment.validate = .ok ()
  version : validateConversionVersion track.conversionVersion = .ok ()

def partSpans (track : RecordingTrackManifest) : List Span :=
  track.parts.map RecordingPartDescriptor.span

def gapSpans (track : RecordingTrackManifest) : List Span :=
  track.gaps.map RecordingGap.span

def lineageSpans (track : RecordingTrackManifest) : List Span :=
  track.sourceLineage.map RecordingSourceLineageSegment.span

/-- The track said of its single samples: `timeline` has every sample of it in
exactly one part or gap and no sample behind it in any, `lineage` has every
sample of a part in exactly one segment and no other sample in any. -/
structure TilesTrack (track : RecordingTrackManifest) : Prop where
  sequences : track.parts.map RecordingPartDescriptor.sequence = List.range track.parts.length
  chronological : track.parts.Pairwise fun first second => first.sampleStart < second.sampleStart
  byteLengths : ∀ part ∈ track.parts, part.byteLength = track.expectedBytes part
  timeline : Span.Tiles (track.partSpans ++ track.gapSpans) track.totalSampleCount
  lineage : ∀ s, track.lineageSpans.countP (·.contains s) =
    if track.partSpans.any (·.contains s) then 1 else 0
  ordered : track.sourceLineage.Pairwise fun first second =>
    first.sampleStart < second.sampleStart
  versions : ∀ segment ∈ track.sourceLineage,
    segment.conversionVersion = track.conversionVersion

end RecordingTrackManifest

/-! ## What the validators check -/

theorem count_pos_of_validateRange {sampleStart sampleCount maxCount : Nat} {what : String}
    (h : validateRange sampleStart sampleCount maxCount what = .ok ()) : 0 < sampleCount := by
  rw [validateRange, raiseFirst_eq_ok] at h
  simp only [List.forall_mem_cons, Bool.or_eq_false_iff, beq_eq_false_iff_ne] at h
  exact Nat.pos_of_ne_zero h.2.1.1

theorem RecordingPartDescriptor.count_pos {part : RecordingPartDescriptor}
    (h : part.validate = .ok ()) : 0 < part.sampleCount := by
  rw [validate, then_ok_iff, then_ok_iff] at h
  exact count_pos_of_validateRange h.2.2

theorem RecordingGap.count_pos {gap : RecordingGap} (h : gap.validate = .ok ()) :
    0 < gap.sampleCount :=
  count_pos_of_validateRange h

theorem RecordingSourceLineageSegment.count_pos {seg : RecordingSourceLineageSegment}
    (h : seg.validate = .ok ()) : 0 < seg.sampleCount := by
  rw [validate, then_ok_iff, then_ok_iff, then_ok_iff] at h
  exact count_pos_of_validateRange h.2.2.1

/-- `_validate_source_lineage_coverage` is the walk, also without audio. -/
theorem validateSourceLineageCoverage_ok_iff {parts : List RecordingPartDescriptor}
    {sourceLineage : List RecordingSourceLineageSegment} :
    validateSourceLineageCoverage parts sourceLineage = .ok () ↔
      let audio := coalesceRanges (sortedSpans (parts.map RecordingPartDescriptor.span))
      coverLineage audio ((audio.head?.map Span.start).getD 0)
        (sourceLineage.map RecordingSourceLineageSegment.span) = .ok () := by
  rw [validateSourceLineageCoverage]
  cases coalesceRanges (sortedSpans (parts.map RecordingPartDescriptor.span)) with
  | nil => cases sourceLineage <;> simp [raiseFirst, coverLineage]
  | cons first ranges =>
    rw [then_ok_iff]
    cases sourceLineage <;> simp [raiseFirst, coverLineage]

theorem coalesceRanges_sameCover (spans : List Span) :
    Span.SameCover (coalesceRanges spans) spans := by
  cases spans with
  | nil => exact fun _ => rfl
  | cons first rest => exact coalesceFrom_sameCover first rest

theorem coalesceRanges_ordered
    (h : spans.Pairwise fun left right => left.stop ≤ right.start)
    (hpos : ∀ span ∈ spans, 0 < span.count) :
    ((coalesceRanges spans).Pairwise fun left right => left.stop < right.start) ∧
      ∀ span ∈ coalesceRanges spans, 0 < span.count := by
  cases spans with
  | nil => exact ⟨List.Pairwise.nil, hpos⟩
  | cons first rest => exact ⟨coalesceFrom_separated h hpos, coalesceFrom_pos hpos⟩

namespace RecordingTrackManifest

variable {track : RecordingTrackManifest}

theorem FieldsValid.partSpans_pos (h : track.FieldsValid) :
    ∀ span ∈ track.partSpans, 0 < span.count := by
  intro span hspan
  obtain ⟨part, hpart, rfl⟩ := List.mem_map.mp hspan
  exact RecordingPartDescriptor.count_pos (h.parts part hpart)

theorem FieldsValid.spans_pos (h : track.FieldsValid) :
    ∀ span ∈ track.partSpans ++ track.gapSpans, 0 < span.count := by
  rw [List.forall_mem_append]
  refine ⟨h.partSpans_pos, fun span hspan => ?_⟩
  obtain ⟨gap, hgap, rfl⟩ := List.mem_map.mp hspan
  exact RecordingGap.count_pos (h.gaps gap hgap)

theorem FieldsValid.lineageSpans_pos (h : track.FieldsValid) :
    ∀ span ∈ track.lineageSpans, 0 < span.count := by
  intro span hspan
  obtain ⟨seg, hseg, rfl⟩ := List.mem_map.mp hspan
  exact RecordingSourceLineageSegment.count_pos (h.lineage seg hseg)

theorem validateTimeline_ok_iff (h : track.FieldsValid) :
    track.validateTimeline = .ok () ↔
      Span.Tiles (track.partSpans ++ track.gapSpans) track.totalSampleCount := by
  have hperm : track.segments.Perm (track.partSpans ++ track.gapSpans) := sortedSpans_perm _
  have hsort : track.segments.Pairwise fun left right => left.start ≤ right.start :=
    sortedSpans_sorted _
  have hpos : ∀ span ∈ track.segments, 0 < span.count :=
    fun span hspan => h.spans_pos span (hperm.mem_iff.mp hspan)
  have hsweep : track.validateTimeline = .ok () ↔
      Span.sweep 0 track.segments = some track.totalSampleCount := by
    rw [validateTimeline]
    cases Span.sweep 0 track.segments with
    | none => simp
    | some cursor => simp [raiseFirst]
  rw [hsweep, Span.sweep_iff_tiles hsort hpos]
  exact ⟨fun htiles => htiles.perm hperm, fun htiles => htiles.perm hperm.symm⟩

theorem countP_partSpans_le
    (h : Span.Tiles (track.partSpans ++ track.gapSpans) track.totalSampleCount) (s : Nat) :
    track.partSpans.countP (·.contains s) ≤ 1 := by
  have hcnt := h s
  rw [List.countP_append] at hcnt
  split at hcnt <;> omega

theorem validateSourceLineageCoverage_iff (h : track.FieldsValid)
    (hcnt : ∀ s, track.partSpans.countP (·.contains s) ≤ 1) :
    validateSourceLineageCoverage track.parts track.sourceLineage = .ok () ↔
      (track.lineageSpans.Pairwise fun left right => left.start < right.start) ∧
        ∀ s, track.lineageSpans.countP (·.contains s) =
          if track.partSpans.any (·.contains s) then 1 else 0 := by
  have hperm := sortedSpans_perm track.partSpans
  have hpos : ∀ span ∈ sortedSpans track.partSpans, 0 < span.count :=
    fun span hspan => h.partSpans_pos span (hperm.mem_iff.mp hspan)
  have hapart : (sortedSpans track.partSpans).Pairwise Span.Apart := by
    apply Span.pairwise_apart hpos
    intro s
    rw [hperm.countP_eq]
    exact hcnt s
  obtain ⟨hsep, haudio⟩ := coalesceRanges_ordered
    (follows_of_apart (sortedSpans_sorted _) hpos hapart) hpos
  have hsame : Span.SameCover (coalesceRanges (sortedSpans track.partSpans)) track.partSpans :=
    (coalesceRanges_sameCover _).trans (Span.sameCover_of_perm hperm)
  rw [validateSourceLineageCoverage_ok_iff]
  refine (coverLineage_ok_iff hsep haudio h.lineageSpans_pos 0).trans (and_congr_right fun _ => ?_)
  apply forall_congr'
  intro s
  rw [hsame s, Span.countP_eq_any hcnt s]

theorem chronological_of_tiles (h : track.FieldsValid)
    (hcnt : ∀ s, track.partSpans.countP (·.contains s) ≤ 1) :
    (track.parts.Pairwise fun first second => first.span.stop ≤ second.span.start) ↔
      track.parts.Pairwise fun first second => first.sampleStart < second.sampleStart := by
  have hapart := Span.pairwise_apart h.partSpans_pos hcnt
  rw [partSpans, List.pairwise_map] at hapart
  constructor
  · intro hfollow
    apply hfollow.imp_of_mem
    intro first second hfst _ hle
    have hpos := RecordingPartDescriptor.count_pos (h.parts first hfst)
    simp only [RecordingPartDescriptor.span, Span.stop] at hle
    omega
  · intro hstarts
    apply (hapart.and hstarts).imp_of_mem
    rintro first second hfst hsec ⟨hapart, hlt⟩
    have hpos := RecordingPartDescriptor.count_pos (h.parts second hsec)
    simp only [Span.Apart, RecordingPartDescriptor.span, Span.stop] at hapart ⊢
    omega

end RecordingTrackManifest

theorem RecordingTrackManifest.validate_ok_iff {track : RecordingTrackManifest}
    (hchannels : track.format.channelCount = 1 ∨ track.format.channelCount = 2) :
    track.validate = .ok () ↔ track.FieldsValid ∧ track.validateTrack = .ok () := by
  rw [validate, then_ok_iff, then_ok_iff, then_ok_iff, then_ok_iff, then_ok_iff, forM_ok_iff,
    forM_ok_iff, forM_ok_iff, raiseFirst_eq_ok]
  simp only [List.forall_mem_cons, Bool.or_eq_false_iff, beq_eq_false_iff_ne,
    decide_eq_false_iff_not, not_lt, ← Nat.pos_iff_ne_zero]
  constructor
  · rintro ⟨⟨htot, hparts, hgaps, hlin, -⟩, hpart, hgap, hseg, hver, htrack⟩
    exact ⟨⟨hchannels, htot, ⟨hparts, hgaps, hlin⟩, hpart, hgap, hseg, hver⟩, htrack⟩
  · rintro ⟨⟨-, htot, ⟨hparts, hgaps, hlin⟩, hpart, hgap, hseg, hver⟩, htrack⟩
    exact ⟨⟨htot, hparts, hgaps, hlin, by simp⟩, hpart, hgap, hseg, hver, htrack⟩

/-- A manifest whose fields are within their bounds is accepted exactly when its
format has the channels of its kind and it tiles its track. -/
theorem track_accepted_iff (track : RecordingTrackManifest) (hfields : track.FieldsValid) :
    track.validateTrack = .ok () ↔
      track.format.channelCount = expectedChannels track.kind ∧ track.TilesTrack := by
  have hpos : ∀ part ∈ track.parts, 0 < part.sampleCount :=
    fun part hpart => RecordingPartDescriptor.count_pos (hfields.parts part hpart)
  have hformat : validateTrackFormat track.kind track.format = .ok () ↔
      track.format.channelCount = expectedChannels track.kind := by
    have hchannels := hfields.channels
    simp only [validateTrackFormat, raiseFirst_eq_ok, List.forall_mem_cons, Bool.and_eq_false_iff,
      bne_eq_false_iff_eq]
    simp [hchannels]
  have hordered : (track.lineageSpans.Pairwise fun left right => left.start < right.start) ↔
      track.sourceLineage.Pairwise fun first second => first.sampleStart < second.sampleStart :=
    List.pairwise_map
  rw [RecordingTrackManifest.validateTrack, then_ok_iff, then_ok_iff, then_ok_iff, then_ok_iff,
    hformat, raiseFirst_eq_ok, raiseFirst_eq_ok,
    RecordingTrackManifest.validateTimeline_ok_iff hfields]
  simp only [List.forall_mem_cons, chronological_iff hpos, bne_eq_false_iff_eq, List.any_eq_false,
    bne_iff_ne, ne_eq, not_not]
  refine and_congr_right fun _ => ?_
  constructor
  · rintro ⟨⟨hsequences, hfollow, hbytes, -⟩, htimeline, hlineage, hversions, -⟩
    have hcount := RecordingTrackManifest.countP_partSpans_le htimeline
    rw [RecordingTrackManifest.validateSourceLineageCoverage_iff hfields hcount] at hlineage
    exact ⟨hsequences, (RecordingTrackManifest.chronological_of_tiles hfields hcount).mp hfollow,
      hbytes, htimeline, hlineage.2, hordered.mp hlineage.1, hversions⟩
  · intro h
    have hcount := RecordingTrackManifest.countP_partSpans_le h.timeline
    rw [RecordingTrackManifest.validateSourceLineageCoverage_iff hfields hcount]
    exact ⟨⟨h.sequences,
      (RecordingTrackManifest.chronological_of_tiles hfields hcount).mpr h.chronological,
      h.byteLengths, by simp⟩, h.timeline, ⟨hordered.mpr h.ordered, h.lineage⟩, h.versions,
      by simp⟩

def oneSample (channelCount : Nat) : RecordingTrackManifest where
  trackId := 0
  kind := .microphone
  format := ⟨channelCount⟩
  totalSampleCount := 1
  parts := [⟨0, 0, 1, channelCount * pcmBytesPerSample, 0⟩]
  gaps := []
  sourceLineage := [⟨0, 1, 48000, 1, "microphone", "built-in", 0, 1, 48000, "tamforge-pcm16-v1"⟩]
  pcmSha256 := 0
  timelineSha256 := 0
  conversionVersion := "tamforge-pcm16-v1"

theorem fieldsValid_oneSample {channelCount : Nat} (h : channelCount = 1 ∨ channelCount = 2) :
    (oneSample channelCount).FieldsValid := by
  have hver : validateConversionVersion (oneSample channelCount).conversionVersion = .ok () := by
    show validateConversionVersion "tamforge-pcm16-v1" = .ok ()
    decide
  refine ⟨h, by simp [oneSample, maxTrackSamples, sampleRateHz, maxRecordingSeconds],
    by simp [oneSample, maxParts, maxRecordingSeconds], ?_, by simp [oneSample], ?_, hver⟩
  · intro part hpart
    rw [List.mem_singleton.mp hpart]
    rcases h with rfl | rfl <;> decide
  · intro seg hseg
    rw [List.mem_singleton.mp hseg]
    decide

theorem tilesTrack_oneSample (channelCount : Nat) : (oneSample channelCount).TilesTrack := by
  have htiles : Span.Tiles ((oneSample channelCount).partSpans ++
      (oneSample channelCount).gapSpans) 1 := Span.tiles_of_sweep rfl
  refine ⟨rfl, List.pairwise_singleton _ _, ?_, htiles, ?_, List.pairwise_singleton _ _, ?_⟩
  · intro part hpart
    rw [List.mem_singleton.mp hpart]
    simp [RecordingTrackManifest.expectedBytes, oneSample]
  · -- the one segment is the range of the one part
    exact Span.countP_eq_any (RecordingTrackManifest.countP_partSpans_le htiles)
  · intro seg hseg
    rw [List.mem_singleton.mp hseg]
    rfl

theorem track_accepted_iff_oneSample :
    (oneSample 1).validateTrack = .ok () :=
  (track_accepted_iff (oneSample 1) (fieldsValid_oneSample (.inl rfl))).mpr
    ⟨rfl, tilesTrack_oneSample 1⟩

/-- A stereo microphone tiles its track, and is refused for its format. -/
theorem stereo_microphone_refused :
    (oneSample 2).FieldsValid ∧ (oneSample 2).TilesTrack ∧
      (oneSample 2).validateTrack ≠ .ok () :=
  ⟨fieldsValid_oneSample (.inr rfl), tilesTrack_oneSample 2, by decide⟩

end TamForge.Recordings
