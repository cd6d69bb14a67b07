import Mathlib.Data.List.Induction
import Mathlib.Data.String.Basic
import TamForge.Models.Dates
import TamForge.ProofSupport.Ranks
import TamForge.ProofSupport.Rotation

/-!
# Pruning backups

`keep_set` and `prune_candidates` of `operations/backup_policy.py`.  Pruning after
every new restore point keeps what pruning once would: the rotation only looks at
the newest points, and none of them is ever dropped while it is one of these.
-/

namespace TamForge.Operations

open Models ProofSupport

/-- An aware `datetime`: its date, the microseconds since midnight and its offset. -/
structure CapturedAt where
  date : Date
  micros : Nat
  utcoffset : Int

/-- What two aware datetimes are compared by. -/
def CapturedAt.instant (captured : CapturedAt) : Instant :=
  captured.date * 86400000000 + captured.micros - captured.utcoffset

def isoweek1monday (year : Nat) : Int :=
  let firstday : Int := ymd2ord year 1 1
  let firstweekday := (firstday + 6) % 7
  let week1monday := firstday - firstweekday
  if firstweekday > 3 then week1monday + 7 else week1monday

/-- The year and the week of `isocalendar()`. -/
def isocalendar (date : Date) : Nat × Int :=
  let year := (ord2ymd date).1
  let week := (date - isoweek1monday year) / 7
  if week < 0 then (year - 1, (date - isoweek1monday (year - 1)) / 7 + 1)
  else if 52 ≤ week ∧ isoweek1monday (year + 1) ≤ date then (year + 1, 1)
  else (year, week + 1)

example : isocalendar 739852 = (2026, 35) ∧ isocalendar 739617 = (2026, 1) := by decide

def yearMonth (date : Date) : Nat × Nat :=
  ((ord2ymd date).1, (ord2ymd date).2.1)

structure BackupPolicy where
  keepDaily : Nat
  keepWeekly : Nat
  keepMonthly : Nat
  keeps_pos : 1 ≤ min (min keepDaily keepWeekly) keepMonthly

structure RestorePoint where
  name : String
  capturedAt : CapturedAt
  encrypted : Bool
  verified : Bool
  prefix_ : String

inductive BackupPolicyError
  | unresolved (message : String)
  | outside (message : String) (names : List String)

def RestorePoint.valid (point : RestorePoint) : Bool := point.verified && point.encrypted

def newestFirst (points : List RestorePoint) : List RestorePoint :=
  sortedBy (fun point => OrderDual.toDual point.capturedAt.instant)
    (points.filter RestorePoint.valid)

/-- What the rotation takes from the valid points, the newest first. -/
def rotation (policy : BackupPolicy) (valid : List RestorePoint) : List RestorePoint :=
  valid.take 1 ++ valid.take policy.keepDaily ++
    (firsts (fun point => isocalendar point.capturedAt.date) [] valid).take policy.keepWeekly ++
    (firsts (fun point => yearMonth point.capturedAt.date) [] valid).take policy.keepMonthly

def keepSet (points : List RestorePoint) (policy : BackupPolicy) (_now : Instant) :
    List String :=
  (rotation policy (newestFirst points) ++ points.filter fun point => !point.verified).map
    RestorePoint.name

def pruneCandidates (points : List RestorePoint) (policy : BackupPolicy) (now : Instant)
    (prefix_ : String) : Except BackupPolicyError (List String) :=
  if prefix_.endsWith "/" = false ∨ prefix_ = "/" ∨ prefix_ = "" then
    .error (.unresolved "prune operates on one fully resolved backup prefix")
  else
    let outside := (points.filter fun point => point.prefix_ != prefix_).map RestorePoint.name
    if outside ≠ [] then .error (.outside "restore points outside the backup prefix: " outside)
    else
      let keep := keepSet points policy now
      .ok (sortedBy id
        ((points.filter fun point => !keep.contains point.name).map RestorePoint.name))

/-- A day: a new point, and the removal of what may be removed then. -/
def pruneDaily (policy : BackupPolicy) (prefix_ : String) (kept : List RestorePoint)
    (day : RestorePoint × Instant) : Except BackupPolicyError (List RestorePoint) := do
  let points := kept ++ [day.1]
  let names ← pruneCandidates points policy day.2 prefix_
  pure (points.filter fun point => !names.contains point.name)

def retained (policy : BackupPolicy) (now : Instant) (points : List RestorePoint) :
    List RestorePoint :=
  points.filter fun point => (keepSet points policy now).contains point.name

/-! ## What a day leaves -/

variable {policy : BackupPolicy} {points : List RestorePoint} {point : RestorePoint}
  {now : Instant} {prefix_ : String}

def ResolvedPrefix (prefix_ : String) : Prop :=
  prefix_.endsWith "/" = true ∧ prefix_ ≠ "/" ∧ prefix_ ≠ ""

theorem pruneCandidates_ok (hresolved : ResolvedPrefix prefix_)
    (hunder : ∀ point ∈ points, point.prefix_ = prefix_) :
    pruneCandidates points policy now prefix_ = .ok (sortedBy id ((points.filter fun point =>
      !(keepSet points policy now).contains point.name).map RestorePoint.name)) := by
  obtain ⟨hslash, hroot, hnil⟩ := hresolved
  have houtside : points.filter (fun point => point.prefix_ != prefix_) = [] := by
    rw [List.filter_eq_nil_iff]
    exact fun point hpoint => by simp [hunder point hpoint]
  simp [pruneCandidates, hslash, hroot, hnil, houtside]

theorem pruneDaily_ok (hresolved : ResolvedPrefix prefix_)
    (hunder : ∀ other ∈ points ++ [point], other.prefix_ = prefix_) :
    pruneDaily policy prefix_ points (point, now) = .ok (retained policy now (points ++ [point])) := by
  simp only [pruneDaily, pruneCandidates_ok hresolved hunder, retained, bind, Except.bind, pure,
    Except.pure]
  refine congrArg _ (List.filter_congr fun other ho => ?_)
  rw [Bool.eq_iff_iff, Bool.not_eq_true', ← Bool.not_eq_true, List.contains_iff_mem,
    (sortedBy_perm id _).mem_iff, List.mem_map]
  constructor
  · intro hkept
    by_contra hdrop
    exact hkept ⟨other, List.mem_filter.mpr ⟨ho, by simpa using hdrop⟩, rfl⟩
  · rintro hkept ⟨dropped, hmem, hname⟩
    obtain ⟨-, hdrop⟩ := List.mem_filter.mp hmem
    rw [hname, hkept] at hdrop
    cases hdrop

def Named (points : List RestorePoint) : Prop := (points.map RestorePoint.name).Nodup

def InOrder (points : List RestorePoint) : Prop :=
  points.Pairwise fun first second => first.capturedAt.instant < second.capturedAt.instant

theorem InOrder.eq_of_instant {first second : RestorePoint} (h : InOrder points)
    (hfst : first ∈ points) (hsec : second ∈ points)
    (hsame : first.capturedAt.instant = second.capturedAt.instant) : first = second := by
  have hkey : (points.map fun point => point.capturedAt.instant).Nodup :=
    List.pairwise_map.mpr (h.imp ne_of_lt)
  exact List.inj_on_of_nodup_map hkey hfst hsec hsame

theorem newestFirst_pairwise (points : List RestorePoint) : (newestFirst points).Pairwise
    fun first second => second.capturedAt.instant ≤ first.capturedAt.instant :=
  (sortedBy_pairwise (fun point : RestorePoint => OrderDual.toDual point.capturedAt.instant) _).imp
    fun h => h

theorem newestFirst_eq (horder : InOrder points) :
    newestFirst points = (points.filter RestorePoint.valid).reverse := by
  have hperm : (newestFirst points).Perm (points.filter RestorePoint.valid).reverse :=
    (sortedBy_perm _ _).trans (List.reverse_perm _).symm
  refine hperm.eq_of_pairwise ?_ (newestFirst_pairwise points)
    (List.pairwise_reverse.mpr ((horder.filter _).imp le_of_lt))
  intro first second hfst hsec hge hle
  refine horder.eq_of_instant ?_ ?_ (le_antisymm hle hge)
  · exact List.mem_of_mem_filter (List.mem_reverse.mp (hperm.mem_iff.mp hfst))
  · exact List.mem_of_mem_filter (List.mem_reverse.mp hsec)

theorem tier_rotation (policy : BackupPolicy) : Tier (rotation policy) :=
  (((tier_take 1).append (tier_take _)).append (tier_firsts _ _)).append (tier_firsts _ _)

theorem mem_newestFirst : point ∈ newestFirst points ↔ point ∈ points ∧ point.valid = true := by
  rw [newestFirst, (sortedBy_perm _ _).mem_iff, List.mem_filter]

theorem keeps_iff (hnamed : Named points) (hpoint : point ∈ points) :
    (keepSet points policy now).contains point.name = true ↔
      point ∈ rotation policy (newestFirst points) ∨ point.verified = false := by
  rw [List.contains_iff_mem, keepSet, List.mem_map]
  constructor
  · rintro ⟨other, ho, hname⟩
    rcases List.mem_append.mp ho with ho | ho
    · have hmem := (mem_newestFirst.mp ((tier_rotation policy).subset _ ho)).1
      exact Or.inl (List.inj_on_of_nodup_map hnamed hmem hpoint hname ▸ ho)
    · obtain ⟨hmem, hunverified⟩ := List.mem_filter.mp ho
      obtain rfl := List.inj_on_of_nodup_map hnamed hmem hpoint hname
      exact Or.inr (by simpa using hunverified)
  · rintro (hkept | hunverified)
    · exact ⟨point, List.mem_append_left _ hkept, rfl⟩
    · refine ⟨point, List.mem_append_right _ (List.mem_filter.mpr ⟨hpoint, ?_⟩), rfl⟩
      simp [hunverified]

theorem mem_retained (hnamed : Named points) : point ∈ retained policy now points ↔
    point ∈ points ∧ (point ∈ rotation policy (newestFirst points) ∨ point.verified = false) := by
  rw [retained, List.mem_filter]
  exact and_congr_right (keeps_iff hnamed)

/-- A new point lets no old one in. -/
theorem rotation_old {other : RestorePoint} (hnamed : Named (points ++ [point]))
    (horder : InOrder (points ++ [point])) (hold : other ∈ points)
    (hkept : other ∈ rotation policy (newestFirst (points ++ [point]))) :
    other ∈ rotation policy (newestFirst points) := by
  rw [newestFirst_eq horder, List.filter_append] at hkept
  rw [newestFirst_eq (horder.sublist (List.sublist_append_left _ _))]
  cases hpoint : point.valid with
  | false => simpa [hpoint] using hkept
  | true =>
    simp only [List.filter_cons_of_pos hpoint, List.filter_nil, List.reverse_append,
      List.reverse_singleton, List.singleton_append] at hkept
    refine ((tier_rotation policy).forgets _ _ _ hkept).resolve_left ?_
    rintro rfl
    have hdisj := List.disjoint_of_nodup_append (List.Nodup.of_map _ hnamed)
    exact hdisj hold (List.mem_singleton_self _)

theorem rotation_sublist {rest : List RestorePoint} (hnamed : Named points)
    (horder : InOrder points) (hrest : rest.Sublist points)
    (hkept : ∀ kept ∈ rotation policy (newestFirst points), kept ∈ rest) :
    rotation policy (newestFirst rest) = rotation policy (newestFirst points) := by
  have htier := tier_rotation policy
  have hnd : (newestFirst points).Nodup :=
    (sortedBy_perm _ _).nodup_iff.mpr ((List.Nodup.of_map _ hnamed).filter _)
  have hnewest : (newestFirst rest).Sublist (newestFirst points) := by
    rw [newestFirst_eq horder, newestFirst_eq (horder.sublist hrest)]
    exact (hrest.filter _).reverse
  refine htier.stable _ _ hnd hnewest fun kept hmem => ?_
  exact mem_newestFirst.mpr ⟨hkept kept hmem, (mem_newestFirst.mp (htier.subset _ hmem)).2⟩

/-- A day looks at the same newest points, whether the others were removed or not. -/
theorem rotation_retained (hnamed : Named (points ++ [point]))
    (horder : InOrder (points ++ [point])) :
    rotation policy (newestFirst (retained policy now points ++ [point])) =
      rotation policy (newestFirst (points ++ [point])) := by
  refine rotation_sublist hnamed horder (List.filter_sublist.append_right _) fun kept hkept => ?_
  have hmem := (mem_newestFirst.mp ((tier_rotation policy).subset _ hkept)).1
  rcases List.mem_append.mp hmem with hold | hnew
  · have hnamedOld : Named points := (List.sublist_append_left _ _).map _ |>.nodup hnamed
    have hrotation := rotation_old hnamed horder hold hkept
    exact List.mem_append_left _ ((mem_retained hnamedOld).mpr ⟨hold, Or.inl hrotation⟩)
  · exact List.mem_append_right _ hnew

/-- What a day removes would be removed later too. -/
theorem retained_snoc (hnamed : Named (points ++ [point])) (horder : InOrder (points ++ [point])) :
    retained policy now (retained policy now points ++ [point]) =
      retained policy now (points ++ [point]) := by
  have hsubl : (retained policy now points ++ [point]).Sublist (points ++ [point]) :=
    List.filter_sublist.append_right _
  have hnamedOld : Named points := (List.sublist_append_left _ _).map _ |>.nodup hnamed
  have hsame : ∀ other ∈ retained policy now points ++ [point],
      (keepSet (retained policy now points ++ [point]) policy now).contains other.name =
        (keepSet (points ++ [point]) policy now).contains other.name := by
    intro other ho
    rw [Bool.eq_iff_iff, keeps_iff ((hsubl.map _).nodup hnamed) ho,
      keeps_iff hnamed (hsubl.subset ho), rotation_retained hnamed horder]
  rw [retained, List.filter_congr hsame, retained, retained, List.filter_append,
    List.filter_append, List.filter_filter]
  refine congrArg (· ++ _) (List.filter_congr fun other ho => ?_)
  rw [Bool.eq_iff_iff, Bool.and_eq_true, and_iff_left_iff_imp, keeps_iff hnamedOld ho,
    keeps_iff hnamed (List.mem_append_left _ ho)]
  exact Or.imp (rotation_old hnamed horder ho) id

variable {days : List (RestorePoint × Instant)}

theorem foldlM_pruneDaily (hresolved : ResolvedPrefix prefix_)
    (hnamed : Named (days.map Prod.fst)) (horder : InOrder (days.map Prod.fst))
    (hunder : ∀ day ∈ days, day.1.prefix_ = prefix_) (now : Instant) :
    days.foldlM (pruneDaily policy prefix_) [] = .ok (retained policy now (days.map Prod.fst)) := by
  induction days using List.reverseRecOn with
  | nil => rfl
  | append_singleton days day ih =>
    rw [List.map_append] at hnamed horder ⊢
    have hsubl := List.sublist_append_left (days.map Prod.fst) [day.1]
    have hold := ih ((hsubl.map _).nodup hnamed) (horder.sublist hsubl)
      fun other ho => hunder other (List.mem_append_left _ ho)
    have hday : ∀ other ∈ retained policy now (days.map Prod.fst) ++ [day.1],
        other.prefix_ = prefix_ := by
      intro other ho
      rcases List.mem_append.mp ho with ho | ho
      · obtain ⟨old, hmem, rfl⟩ := List.mem_map.mp (List.mem_of_mem_filter ho)
        exact hunder old (List.mem_append_left _ hmem)
      · obtain rfl := List.mem_singleton.mp ho
        exact hunder day (List.mem_append_right _ (List.mem_singleton_self _))
    have hnew : pruneDaily policy prefix_ (retained policy now (days.map Prod.fst)) day =
        .ok (retained policy now (retained policy now (days.map Prod.fst) ++ [day.1])) :=
      pruneDaily_ok hresolved hday
    rw [List.foldlM_append, hold]
    simp only [List.foldlM_cons, List.foldlM_nil, bind, Except.bind, hnew, pure, Except.pure]
    exact congrArg _ (retained_snoc hnamed horder)

theorem newest_retained (hnamed : Named points) (horder : InOrder points) (hpoint : point ∈ points)
    (hval : point.valid = true)
    (hnewest : ∀ other ∈ points, other.valid = true →
      other.capturedAt.instant ≤ point.capturedAt.instant) :
    point ∈ retained policy now points := by
  refine (mem_retained hnamed).mpr ⟨hpoint, Or.inl ?_⟩
  have hmem : point ∈ newestFirst points := mem_newestFirst.mpr ⟨hpoint, hval⟩
  have hsort := newestFirst_pairwise points
  cases hpoints : newestFirst points with
  | nil => simp [hpoints] at hmem
  | cons first rest =>
    obtain ⟨hfst, hfstVal⟩ : first ∈ points ∧ first.valid = true :=
      mem_newestFirst.mp (by simp [hpoints])
    rw [hpoints] at hmem hsort
    have hsame : point = first := by
      rcases List.mem_cons.mp hmem with hsame | hrest
      · exact hsame
      · have hle := List.rel_of_pairwise_cons hsort hrest
        exact horder.eq_of_instant hpoint hfst (le_antisymm hle (hnewest first hfst hfstVal))
    simp [rotation, hsame]

theorem dropped_retained (hnamed : Named points) (horder : InOrder points) :
    (retained policy now points).filter (fun point =>
      !(keepSet (retained policy now points) policy now).contains point.name) = [] := by
  have hrotation : rotation policy (newestFirst (retained policy now points)) =
      rotation policy (newestFirst points) := by
    refine rotation_sublist hnamed horder List.filter_sublist fun kept hkept => ?_
    have hmem := (mem_newestFirst.mp ((tier_rotation policy).subset _ hkept)).1
    exact (mem_retained hnamed).mpr ⟨hmem, Or.inl hkept⟩
  have hnamedKept : Named (retained policy now points) :=
    (List.filter_sublist.map _).nodup hnamed
  refine List.filter_eq_nil_iff.mpr fun point hpoint => ?_
  have hkept := ((mem_retained hnamed).mp hpoint).2
  rw [← hrotation] at hkept
  rw [(keeps_iff hnamedKept hpoint).mpr hkept]
  decide

/-- Pruning after every new point leaves what pruning once would, never an unverified
point or the newest valid one less, and leaves nothing that could be removed. -/
theorem daily_pruning (policy : BackupPolicy) (prefix_ : String)
    (days : List (RestorePoint × Instant)) (hresolved : ResolvedPrefix prefix_)
    (hnamed : Named (days.map Prod.fst)) (horder : InOrder (days.map Prod.fst))
    (hunder : ∀ day ∈ days, day.1.prefix_ = prefix_) :
    ∃ kept, days.foldlM (pruneDaily policy prefix_) [] = .ok kept ∧
      (∀ now, kept = (days.map Prod.fst).filter fun point =>
        (keepSet (days.map Prod.fst) policy now).contains point.name) ∧
      (∀ point ∈ days.map Prod.fst, point.verified = false → point ∈ kept) ∧
      (∀ point ∈ days.map Prod.fst, point.valid = true →
        (∀ other ∈ days.map Prod.fst, other.valid = true →
          other.capturedAt.instant ≤ point.capturedAt.instant) → point ∈ kept) ∧
      ∀ now, pruneCandidates kept policy now prefix_ = .ok [] := by
  refine ⟨_, foldlM_pruneDaily hresolved hnamed horder hunder 0, fun now => rfl, ?_, ?_, ?_⟩
  · exact fun point hpoint hunverified => (mem_retained hnamed).mpr ⟨hpoint, Or.inr hunverified⟩
  · exact fun point hpoint hvalid hnewest => newest_retained hnamed horder hpoint hvalid hnewest
  · intro now
    have hkept : ∀ point ∈ retained policy now (days.map Prod.fst), point.prefix_ = prefix_ := by
      intro point hpoint
      obtain ⟨day, hday, rfl⟩ := List.mem_map.mp (List.mem_of_mem_filter hpoint)
      exact hunder day hday
    have hnone : (retained policy now (days.map Prod.fst)).filter _ = [] :=
      dropped_retained hnamed horder
    change pruneCandidates (retained policy now (days.map Prod.fst)) policy now prefix_ = _
    rw [pruneCandidates_ok hresolved hkept, hnone]
    simp [sortedBy]

/-- Two points of one week under a policy that keeps one of each kind. -/
def sampleDays : List (RestorePoint × Instant) :=
  [(⟨"monday", ⟨739852, 0, 0⟩, true, true, "backups/"⟩, 0),
    (⟨"tuesday", ⟨739853, 0, 0⟩, true, true, "backups/"⟩, 0)]

theorem daily_pruning_sample :
    ∃ kept, sampleDays.foldlM (pruneDaily ⟨1, 1, 1, by decide⟩ "backups/") [] = .ok kept ∧
      ∀ now, pruneCandidates kept ⟨1, 1, 1, by decide⟩ now "backups/" = .ok [] := by
  obtain ⟨kept, hkept, -, -, -, hnone⟩ := daily_pruning ⟨1, 1, 1, by decide⟩ "backups/" sampleDays
    ⟨by decide +kernel, by decide, by decide⟩ (by unfold Named; decide) (by unfold InOrder; decide)
    (by decide)
  exact ⟨kept, hkept, hnone⟩

end TamForge.Operations
