import Mathlib.Data.Fintype.EquivFin
import Mathlib.Data.List.Induction
import TamForge.Exports.Manifest

/-!
# What a ready export has and where a restore writes

A path stays below the root exactly when no `..` of it climbs above its start
and a name is left over.  The pattern of a manifest's paths does not say so.
-/

namespace TamForge.Exports

open Models ProofSupport

variable {manifest : ExportManifest} {digests : List (String × String)}
  {sizes : List (String × Int)} {manifestFormat manifestVersion path segment : String}
  {names root : List String}

/-! ## The dry run -/

def Known (manifestFormat manifestVersion : String) : Prop :=
  manifestFormat = exportFormat ∧ manifestVersion = exportVersion

structure Exact (manifest : ExportManifest) (digests : List (String × String))
    (sizes : List (String × Int)) : Prop where
  digests : ∀ path digest, Dict.get? digests path = some digest ↔
    ∃ artifact ∈ manifest.artifacts, artifact.path = path ∧ artifact.sha256 = digest
  sizes : ∀ path size, Dict.get? sizes path = some size ↔
    ∃ artifact ∈ manifest.artifacts, artifact.path = path ∧ (artifact.byteLength : Int) = size

theorem problemOf_eq_nil {res : Except ExportError Unit} :
    problemOf res = [] ↔ res = .ok () := by
  cases res <;> simp [problemOf]

theorem verifyArtifact_ok_iff {artifact : ExportedArtifact} :
    verifyArtifact digests sizes artifact = .ok () ↔
      Dict.get? digests artifact.path = some artifact.sha256 ∧
        Dict.get? sizes artifact.path = some (artifact.byteLength : Int) := by
  unfold verifyArtifact
  cases hdigest : Dict.get? digests artifact.path with
  | none => simp
  | some actual => simp [raiseFirst_eq_ok]

theorem forM_ok_iff {α : Type} {check : α → Except ExportError Unit} {items : List α} :
    items.forM check = .ok () ↔ ∀ item ∈ items, check item = .ok () := by
  induction items with
  | nil => simp [pure, Except.pure]
  | cons item rest ih =>
    rw [List.forall_mem_cons, ← ih, List.forM, bind_ok_iff]
    constructor
    · rintro ⟨⟨⟩, hitem, hrest⟩
      exact ⟨hitem, hrest⟩
    · rintro ⟨hitem, hrest⟩
      exact ⟨(), hitem, hrest⟩

theorem verify_ok_iff : verify digests sizes manifest = .ok () ↔
    (∀ artifact ∈ manifest.artifacts, Dict.get? digests artifact.path = some artifact.sha256 ∧
      Dict.get? sizes artifact.path = some (artifact.byteLength : Int)) ∧
    ∀ path ∈ digests.map Prod.fst, path ∈ manifest.artifacts.map ExportedArtifact.path := by
  have hextra : extraPaths digests manifest = [] ↔
      ∀ path ∈ digests.map Prod.fst, path ∈ manifest.artifacts.map ExportedArtifact.path := by
    simp only [extraPaths, List.filter_eq_nil_iff, decide_eq_true_eq, not_not]
  have hsort := sortedBy_perm id (extraPaths digests manifest)
  have hchk : manifest.artifacts.forM (verifyArtifact digests sizes) = .ok () ↔
      ∀ artifact ∈ manifest.artifacts, Dict.get? digests artifact.path = some artifact.sha256 ∧
        Dict.get? sizes artifact.path = some (artifact.byteLength : Int) := by
    simp only [forM_ok_iff, verifyArtifact_ok_iff]
  rw [verify, bind_ok_iff, ← hextra, ← hchk]
  constructor
  · rintro ⟨⟨⟩, hall, hend⟩
    refine ⟨hall, ?_⟩
    split at hend
    · rename_i hnil
      exact (hnil ▸ hsort).symm.eq_nil
    · cases hend
  · rintro ⟨hall, hnil⟩
    refine ⟨(), hall, ?_⟩
    rw [hnil, sortedBy, List.mergeSort_nil]
    rfl

theorem requireReadable_ok_iff :
    requireReadable manifestFormat manifestVersion = .ok () ↔
      Known manifestFormat manifestVersion := by
  simp [requireReadable, raiseFirst_eq_ok, Known]

theorem dryRun_ready_iff :
    (dryRun manifest digests sizes manifestFormat manifestVersion).ready = true ↔
      Known manifestFormat manifestVersion ∧ verify digests sizes manifest = .ok () := by
  rw [← requireReadable_ok_iff, ← problemOf_eq_nil, ← problemOf_eq_nil, ← List.append_eq_nil_iff]
  simp only [dryRun, DryRunReport.ready]
  split_ifs with hnil <;> simp [hnil]

def NoExtraSize (manifest : ExportManifest) (sizes : List (String × Int)) : Prop :=
  ∀ path ∈ sizes.map Prod.fst, path ∈ manifest.artifacts.map ExportedArtifact.path

theorem exact_iff : Exact manifest digests sizes ↔
    verify digests sizes manifest = .ok () ∧ NoExtraSize manifest sizes := by
  rw [verify_ok_iff]
  constructor
  · rintro ⟨hdigests, hsizes⟩
    refine ⟨⟨fun artifact hart => ⟨?_, ?_⟩, fun path hpath => ?_⟩, fun path hpath => ?_⟩
    · exact (hdigests _ _).mpr ⟨artifact, hart, rfl, rfl⟩
    · exact (hsizes _ _).mpr ⟨artifact, hart, rfl, rfl⟩
    · obtain ⟨digest, hdigest⟩ := Option.isSome_iff_exists.mp (Dict.get?_isSome.mpr hpath)
      obtain ⟨artifact, hart, rfl, -⟩ := (hdigests _ _).mp hdigest
      exact List.mem_map_of_mem hart
    · obtain ⟨size, hsize⟩ := Option.isSome_iff_exists.mp (Dict.get?_isSome.mpr hpath)
      obtain ⟨artifact, hart, rfl, -⟩ := (hsizes _ _).mp hsize
      exact List.mem_map_of_mem hart
  · rintro ⟨⟨hall, hdigests⟩, hsizes⟩
    constructor
    · intro path digest
      constructor
      · intro hget
        obtain ⟨artifact, hart, rfl⟩ := List.mem_map.mp
          (hdigests path (Dict.get?_isSome.mp (Option.isSome_of_eq_some hget)))
        rw [(hall artifact hart).1] at hget
        exact ⟨artifact, hart, rfl, Option.some.inj hget⟩
      · rintro ⟨artifact, hart, rfl, rfl⟩
        exact (hall artifact hart).1
    · intro path size
      constructor
      · intro hget
        obtain ⟨artifact, hart, rfl⟩ := List.mem_map.mp
          (hsizes path (Dict.get?_isSome.mp (Option.isSome_of_eq_some hget)))
        rw [(hall artifact hart).2] at hget
        exact ⟨artifact, hart, rfl, Option.some.inj hget⟩
      · rintro ⟨artifact, hart, rfl, rfl⟩
        exact (hall artifact hart).2

/-! ## Where a path leads -/

def segments (path : String) : List String :=
  (path.toList.splitOn '/').map String.ofList

def enter (location : List String) (segment : String) : List String :=
  if segment = "" ∨ segment = "." then location
  else if segment = ".." then location.tail
  else segment :: location

def resolve (root : List String) (path : String) : List String :=
  (segments path).foldl enter root

def Below (root location : List String) : Prop :=
  ∃ inner : List String, inner ≠ [] ∧ location = inner ++ root

def descends (name : String) : Bool := decide (name ≠ "" ∧ name ≠ "." ∧ name ≠ "..")

def downs (names : List String) : Nat := names.countP descends

/-- No `..` climbs above the start. -/
def Inside (names : List String) : Prop :=
  ∀ before, before <+: names → before.count ".." ≤ downs before

/-- No `..` of the path climbs above its start, and a name is left over. -/
def Contained (path : String) : Prop :=
  Inside (segments path) ∧ (segments path).count ".." < downs (segments path)

theorem downs_concat :
    downs (names ++ [segment]) = downs names + if descends segment = true then 1 else 0 := by
  rw [downs, List.countP_append, List.countP_singleton, downs]

theorem ups_concat : (names ++ [segment]).count ".." =
    names.count ".." + if segment = ".." then 1 else 0 := by
  simp [List.count_append, List.count_singleton]

theorem inside_concat : Inside (names ++ [segment]) ↔
    Inside names ∧ (names ++ [segment]).count ".." ≤ downs (names ++ [segment]) := by
  constructor
  · intro h
    exact ⟨fun before hb => h before (hb.trans (List.prefix_append _ _)),
      h _ (List.prefix_refl _)⟩
  · rintro ⟨hnames, hall⟩ before hb
    rcases List.prefix_concat_iff.mp hb with rfl | hb
    · exact hall
    · exact hnames before hb

theorem foldl_enter (h : Inside names) (root : List String) :
    names.foldl enter root = names.foldl enter [] ++ root ∧
      (names.foldl enter []).length + names.count ".." = downs names := by
  induction names using List.reverseRecOn with
  | nil => exact ⟨rfl, rfl⟩
  | append_singleton names segment ih =>
    obtain ⟨hnames, hall⟩ := inside_concat.mp h
    obtain ⟨hsame, hlen⟩ := ih hnames
    rw [downs_concat, ups_concat] at hall ⊢
    rw [List.foldl_append, List.foldl_append, hsame]
    simp only [List.foldl_cons, List.foldl_nil, enter]
    by_cases hdot : segment = "" ∨ segment = "."
    · have hstays : descends segment = false ∧ segment ≠ ".." := by
        rcases hdot with rfl | rfl <;> decide
      rw [if_pos hdot, if_pos hdot, hstays.1, if_neg hstays.2]
      exact ⟨rfl, hlen⟩
    · rw [if_neg hdot, if_neg hdot]
      by_cases hup : segment = ".."
      · have hclimbs : descends segment = false := by rw [hup]; decide
        rw [hclimbs, if_pos hup, if_neg Bool.false_ne_true] at hall ⊢
        rw [if_pos hup, if_pos hup]
        cases hinner : names.foldl enter [] with
        | nil =>
          rw [hinner, List.length_nil] at hlen
          omega
        | cons first inner =>
          rw [hinner, List.length_cons] at hlen
          refine ⟨rfl, ?_⟩
          rw [List.tail_cons]
          omega
      · rw [not_or] at hdot
        have hdescends : descends segment = true := decide_eq_true ⟨hdot.1, hdot.2, hup⟩
        rw [if_neg hup, if_neg hup, if_neg hup, if_pos hdescends, List.length_cons]
        refine ⟨rfl, ?_⟩
        omega

theorem resolve_contained (h : Contained path) (root : List String) :
    resolve root path = resolve [] path ++ root ∧ resolve [] path ≠ [] := by
  obtain ⟨hsame, hlen⟩ := foldl_enter h.1 root
  refine ⟨hsame, fun hnil => ?_⟩
  rw [resolve] at hnil
  rw [hnil, List.length_nil] at hlen
  have hleft := h.2
  omega

theorem inside_of_mem {fresh : String} (hnew : fresh ∉ names)
    (h : fresh ∈ names.foldl enter [fresh]) : Inside names := by
  induction names using List.reverseRecOn with
  | nil =>
    intro before hb
    rw [List.prefix_nil.mp hb]
    rfl
  | append_singleton names segment ih =>
    simp only [List.mem_append, List.mem_singleton, not_or] at hnew
    rw [List.foldl_append, List.foldl_cons, List.foldl_nil] at h
    have hb : fresh ∈ names.foldl enter [fresh] := by
      revert h
      unfold enter
      split_ifs
      · exact id
      · exact List.mem_of_mem_tail
      · intro hmem
        exact (List.mem_cons.mp hmem).resolve_left hnew.2
    have hnames := ih hnew.1 hb
    obtain ⟨hsame, hlen⟩ := foldl_enter hnames [fresh]
    have hall := hnames names (List.prefix_refl _)
    refine inside_concat.mpr ⟨hnames, ?_⟩
    rw [downs_concat, ups_concat]
    by_cases hup : segment = ".."
    · subst hup
      rw [hsame] at h
      cases hinner : names.foldl enter [] with
      | nil => simp [hinner, enter] at h
      | cons first inner =>
        rw [hinner, List.length_cons] at hlen
        rw [if_pos rfl]
        omega
    · rw [if_neg hup]
      omega

theorem exists_fresh (names : List String) : ∃ fresh, fresh ∉ names := by
  obtain ⟨fresh, hnew⟩ := Infinite.exists_notMem_finset names.toFinset
  exact ⟨fresh, fun hmem => hnew (List.mem_toFinset.mpr hmem)⟩

theorem below_iff : (∀ root, Below root (resolve root path)) ↔ Contained path := by
  constructor
  · intro h
    obtain ⟨fresh, hnew⟩ := exists_fresh (segments path)
    obtain ⟨inner, hinner, hlocation⟩ := h [fresh]
    have hmem : fresh ∈ (segments path).foldl enter [fresh] := by
      rw [resolve] at hlocation
      simp [hlocation]
    have hinside := inside_of_mem hnew hmem
    obtain ⟨hsame, hlen⟩ := foldl_enter hinside [fresh]
    rw [resolve, hsame, List.append_cancel_right_eq] at hlocation
    have hpos := List.length_pos_of_ne_nil hinner
    rw [hlocation] at hlen
    exact ⟨hinside, by omega⟩
  · intro h root
    obtain ⟨hsame, hne⟩ := resolve_contained h root
    exact ⟨_, hne, hsame⟩

/-! ## The restore -/

theorem mem_writeAll {write : List String → String → Bool} {written : List String}
    {arts : List ExportedArtifact} (h : path ∈ (writeAll write written arts).1) :
    path ∈ written ∨ path ∈ arts.map ExportedArtifact.path := by
  induction arts generalizing written with
  | nil => exact Or.inl h
  | cons artifact rest ih =>
    rw [writeAll] at h
    split at h
    · rcases ih h with hpath | hpath
      · simpa [or_assoc] using Or.inl (b := path ∈ rest.map ExportedArtifact.path)
          (List.mem_append.mp hpath)
      · exact Or.inr (by simp [hpath])
    · rcases List.mem_append.mp h with hpath | hpath
      · exact Or.inl hpath
      · exact Or.inr (by simp [List.mem_singleton.mp hpath])

theorem writeAll_succeeding (written : List String) (arts : List ExportedArtifact) :
    (writeAll (fun _ _ => true) written arts).1 =
      written ++ arts.map ExportedArtifact.path := by
  induction arts generalizing written with
  | nil => simp [writeAll]
  | cons artifact rest ih => simp [writeAll, ih]

/-- Every path that a restore of the manifest writes stays below the root, and no two
artifacts lead to one place. -/
def RestoresInside (manifest : ExportManifest) : Prop :=
  ∀ (plan : RestorePlan) (write : List String → String → Bool) (root : List String),
    plan.manifest = manifest →
    (∀ path ∈ (applyRestore plan write).1, Below root (resolve root path)) ∧
      ∀ first ∈ manifest.artifacts, ∀ second ∈ manifest.artifacts, first ≠ second →
        resolve root first.path ≠ resolve root second.path

structure SafePaths (manifest : ExportManifest) : Prop where
  contained : ∀ artifact ∈ manifest.artifacts, Contained artifact.path
  distinct : ∀ first ∈ manifest.artifacts, ∀ second ∈ manifest.artifacts, first ≠ second →
    resolve [] first.path ≠ resolve [] second.path

theorem restoresInside_iff : RestoresInside manifest ↔ SafePaths manifest := by
  constructor
  · intro h
    let plan : RestorePlan := ⟨manifest, "owner", ⟨.ready, 0, 0, []⟩, by decide, rfl⟩
    refine ⟨fun artifact hart => below_iff.mp fun root => ?_, ?_⟩
    · apply (h plan (fun _ _ => true) root rfl).1
      rw [applyRestore, writeAll_succeeding]
      exact List.mem_map_of_mem hart
    · exact (h plan (fun _ _ => true) [] rfl).2
  · rintro ⟨hcontained, hdist⟩ plan write root rfl
    constructor
    · intro path hpath
      obtain ⟨artifact, hart, rfl⟩ :=
        List.mem_map.mp ((mem_writeAll hpath).resolve_left List.not_mem_nil)
      exact below_iff.mpr (hcontained artifact hart) root
    · intro first hfst second hsec hne hsame
      rw [(resolve_contained (hcontained first hfst) root).1,
        (resolve_contained (hcontained second hsec) root).1,
        List.append_cancel_right_eq] at hsame
      exact hdist first hfst second hsec hne hsame

/-- The dry run and the restore keep their promises exactly when an export that is otherwise
ready has no size of another path, and its paths are contained and lead to different names. -/
theorem restore_safe_iff (manifest : ExportManifest) (digests : List (String × String))
    (sizes : List (String × Int)) (manifestFormat manifestVersion : String) :
    (((dryRun manifest digests sizes manifestFormat manifestVersion).ready = true ↔
        Known manifestFormat manifestVersion ∧ Exact manifest digests sizes) ∧
      RestoresInside manifest) ↔
    (Known manifestFormat manifestVersion → verify digests sizes manifest = .ok () →
        NoExtraSize manifest sizes) ∧
      SafePaths manifest := by
  rw [restoresInside_iff, dryRun_ready_iff, exact_iff]
  apply and_congr_left'
  constructor
  · intro h hknown hverify
    exact (h.mp ⟨hknown, hverify⟩).2.2
  · intro h
    constructor
    · rintro ⟨hknown, hverify⟩
      exact ⟨hknown, hverify, h hknown hverify⟩
    · rintro ⟨hknown, hverify, -⟩
      exact ⟨hknown, hverify⟩

theorem isSha256_emptyHash : Learning.isSha256 emptyHash = true := by decide

def climbingManifest : ExportManifest where
  artifacts := [⟨11, .recording, "../../home/ana/.ssh/authorized_keys", emptyHash, 0, by decide,
    by decide, isSha256_emptyHash⟩]
  relations := []
  artifacts_bounded := by decide
  relations_bounded := by decide
  ids_nodup := by decide
  paths_nodup := by decide
  relations_present := by simp

theorem restore_climbs :
    (dryRun climbingManifest [("../../home/ana/.ssh/authorized_keys", emptyHash)]
        [("../../home/ana/.ssh/authorized_keys", 0)] "tamforge-export" "1").ready = true ∧
      ¬RestoresInside climbingManifest := by
  refine ⟨by decide +kernel, fun h => ?_⟩
  have hcontained := (restoresInside_iff.mp h).contained _ (List.mem_singleton_self _)
  have hclimbs := hcontained.1 [".."] ⟨[".."] ++ ["home", "ana", ".ssh", "authorized_keys"], by
    decide⟩
  exact absurd hclimbs (by decide)

end TamForge.Exports
