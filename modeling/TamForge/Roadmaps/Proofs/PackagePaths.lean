import TamForge.ProofSupport.Keys
import TamForge.Roadmaps.Package

/-!
# The paths of a package

A path is checked as it comes and rewritten afterwards: what the rewriting
keeps, and the one check that it can undo.  The manifest of an accepted package
has no path twice, also up to case.
-/

namespace TamForge.Roadmaps

open Models ProofSupport

variable {tables : TextTables} {limits : PackageLimits} {rawPath path p : PyString}

/-- The checks of `_normalize_path` from the path in NFC on. -/
structure Normalizes (tables : TextTables) (limits : PackageLimits) (path p : PyString) : Prop where
  fits : ∃ n, encodedLength path = .ok n ∧ n ≤ limits.maxPathBytes
  relative : path.head? ≠ some slash
  no_drive : windowsDrive path = false
  no_control : path.any isControl = false
  no_parent : [dot, dot] ∉ splitPath path
  named : segmentsOf path ≠ []
  joined : p = joinPath (segmentsOf path)
  fits_joined : ∃ n, encodedLength p = .ok n ∧ n ≤ limits.maxPathBytes
  suffix : checkSuffix tables p = .ok p

variable {q : PyString}

theorem checkSuffix_ok (h : checkSuffix tables p = .ok q) : q = p := by
  simp only [checkSuffix] at h
  split at h
  · cases h
    rfl
  · split at h
    · cases h
    · split at h
      · cases h
      · cases h
        rfl

theorem normalizePath_ok_iff :
    normalizePath tables limits rawPath = .ok p ↔
      rawPath ≠ [] ∧ Normalizes tables limits (slashed tables rawPath) p := by
  simp only [normalizePath, then_ok_iff, @bind_ok_iff _ _ _ (encodedLength _), raiseFirst_eq_ok,
    List.forall_mem_cons, List.isEmpty_eq_false_iff, Bool.or_eq_false_iff, beq_eq_false_iff_ne,
    decide_eq_false_iff_not, Nat.not_lt, List.contains_eq_mem]
  constructor
  · rintro ⟨⟨hraw, -⟩, n, hn, ⟨hfits, ⟨hrelative, hdrive⟩, hcontrol, hparent, hnamed, -⟩, m, hm,
      ⟨hfitsJoined, -⟩, hsuffix⟩
    have hjoined := checkSuffix_ok hsuffix
    rw [← hjoined] at hm hsuffix
    exact ⟨hraw, ⟨n, hn, hfits⟩, hrelative, hdrive, hcontrol, hparent, hnamed, hjoined,
      ⟨m, hm, hfitsJoined⟩, hsuffix⟩
  · rintro ⟨hraw, ⟨n, hn, hfits⟩, hrelative, hdrive, hcontrol, hparent, hnamed, hjoined,
      ⟨m, hm, hfitsJoined⟩, hsuffix⟩
    rw [← hjoined]
    exact ⟨⟨hraw, by simp⟩, n, hn,
      ⟨hfits, ⟨hrelative, hdrive⟩, hcontrol, hparent, hnamed, by simp⟩, m, hm,
      ⟨hfitsJoined, by simp⟩, hsuffix⟩

/-! ## Segments -/

variable {segment : PyString}

theorem slash_not_mem_segment (h : segment ∈ segmentsOf path) : slash ∉ segment :=
  Keys.sep_not_mem_of_mem_splitOn (List.mem_of_mem_filter h)

variable {c : CodePoint}

theorem mem_path_of_mem_segment (h : segment ∈ segmentsOf path) (hc : c ∈ segment) : c ∈ path := by
  have hmem : c ∈ [slash].intercalate (splitPath path) :=
    Keys.mem_of_mem_part (List.mem_of_mem_filter h) hc
  rwa [splitPath, List.intercalate_splitOn] at hmem

theorem splitPath_joinPath (h : segmentsOf path ≠ []) :
    splitPath (joinPath (segmentsOf path)) = segmentsOf path :=
  List.splitOn_intercalate slash (fun _ => slash_not_mem_segment) h

theorem segmentsOf_joinPath (h : segmentsOf path ≠ []) :
    segmentsOf (joinPath (segmentsOf path)) = segmentsOf path := by
  rw [segmentsOf, splitPath_joinPath h, segmentsOf, List.filter_filter]
  simp

theorem slashed_fixed (tables : TextTables) (rawPath : PyString) :
    tables.nfc (slashed tables rawPath) = slashed tables rawPath :=
  tables.nfc_idempotent _

theorem backslash_not_mem_slashed (tables : TextTables) (rawPath : PyString) :
    backslash ∉ slashed tables rawPath := by
  apply tables.nfc_adds_no_backslash
  rw [List.mem_map]
  rintro ⟨c, -, hc⟩
  split at hc
  · cases hc
  · rename_i hne
    exact hne hc

theorem nfc_segment (hfixed : tables.nfc path = path) (h : segment ∈ segmentsOf path) :
    tables.nfc segment = segment := by
  have hparts : ∀ part ∈ (splitPath path).map tables.nfc, slash ∉ part := by
    intro part hpart
    obtain ⟨whole, hwhole, rfl⟩ := List.mem_map.mp hpart
    exact tables.nfc_adds_no_slash _ (Keys.sep_not_mem_of_mem_splitOn hwhole)
  have hjoin : tables.nfc path = joinPath ((splitPath path).map tables.nfc) := by
    have hmap := Keys.map_intercalate tables.nfc_slash (List.splitOn_ne_nil slash path)
    rw [show (0x2F : CodePoint) = slash from rfl, List.intercalate_splitOn] at hmap
    exact hmap
  have hspl : splitPath path = (splitPath path).map tables.nfc := by
    conv_lhs => rw [← hfixed, hjoin]
    exact List.splitOn_intercalate slash hparts (by simp [splitPath])
  have hall := List.map_inj_left.mp (hspl.symm.trans (List.map_id _).symm)
  exact hall segment (List.mem_of_mem_filter h)

theorem named_of_mem_segment (h : segment ∈ segmentsOf path) : segment ≠ [] ∧ segment ≠ [dot] := by
  have hnamed := List.of_mem_filter h
  rw [isNamed, Bool.and_eq_true, bne_iff_ne, bne_iff_ne] at hnamed
  exact hnamed

/-! ## The rewritten path -/

theorem mem_joinPath {parts : List PyString} (h : c ∈ joinPath parts) :
    c = slash ∨ ∃ part ∈ parts, c ∈ part :=
  Keys.mem_part_of_mem h

theorem joinPath_cons (first : PyString) (rest : List PyString) :
    joinPath (first :: rest) = first ∨
      ∃ more, joinPath (first :: rest) = first ++ slash :: more := by
  rw [joinPath]
  by_cases hrest : rest = []
  · left
    rw [hrest, List.intercalate_singleton]
  · right
    refine ⟨[slash].intercalate rest, ?_⟩
    rw [List.intercalate_cons_of_ne_nil hrest, List.append_assoc, List.singleton_append]

variable {first : PyString}

theorem head?_joinPath (rest : List PyString) (hne : first ≠ []) :
    (joinPath (first :: rest)).head? = first.head? := by
  obtain ⟨c, others, rfl⟩ := List.exists_cons_of_ne_nil hne
  rcases joinPath_cons (c :: others) rest with hjoin | ⟨more, hjoin⟩
  · rw [hjoin]
  · rw [hjoin]
    rfl

theorem windowsDrive_joinPath (rest : List PyString) (hne : first ≠ []) :
    windowsDrive (joinPath (first :: rest)) = windowsDrive first := by
  rcases joinPath_cons first rest with hjoin | ⟨more, hjoin⟩
  · rw [hjoin]
  · rw [hjoin]
    match first, hne with
    | [c], _ =>
      -- one letter alone: what follows it is the slash
      have hcolon : (slash == colon) = false := by decide
      simp [windowsDrive, hcolon]
    | _ :: _ :: _, _ => rfl

namespace Normalizes

theorem segmentsOf_eq (h : Normalizes tables limits path p) : segmentsOf p = segmentsOf path := by
  rw [h.joined, segmentsOf_joinPath h.named]

theorem splitPath_eq (h : Normalizes tables limits path p) : splitPath p = segmentsOf path := by
  rw [h.joined, splitPath_joinPath h.named]

theorem mem_path (h : Normalizes tables limits path p) (hc : c ∈ p) : c = slash ∨ c ∈ path := by
  rw [h.joined] at hc
  rcases mem_joinPath hc with hslash | ⟨part, hpart, hin⟩
  · exact Or.inl hslash
  · exact Or.inr (mem_path_of_mem_segment hpart hin)

theorem nfc_eq (h : Normalizes tables limits path p) (hfixed : tables.nfc path = path) :
    tables.nfc p = p := by
  have hmap := Keys.map_intercalate tables.nfc_slash h.named
  have hsegs : (segmentsOf path).map tables.nfc = segmentsOf path := by
    conv_rhs => rw [← List.map_id (segmentsOf path)]
    exact List.map_congr_left fun segment => nfc_segment hfixed
  rw [hsegs] at hmap
  rw [h.joined]
  exact hmap

theorem no_control_joined (h : Normalizes tables limits path p) : p.any isControl = false := by
  rw [List.any_eq_false]
  intro c hc
  rcases h.mem_path hc with rfl | hin
  · decide
  · exact List.any_eq_false.mp h.no_control c hin

theorem no_backslash (h : Normalizes tables limits path p) (hpath : backslash ∉ path) :
    backslash ∉ p := by
  intro hmem
  rcases h.mem_path hmem with hslash | hin
  · cases hslash
  · exact hpath hin

theorem ne_nil (h : Normalizes tables limits path p) : p ≠ [] := by
  intro hnil
  have hsegs := h.segmentsOf_eq
  rw [hnil] at hsegs
  exact h.named (hsegs.symm.trans rfl)

theorem relative_joined (h : Normalizes tables limits path p) : p.head? ≠ some slash := by
  obtain ⟨first, rest, hsegs⟩ := List.exists_cons_of_ne_nil h.named
  have hfst : first ∈ segmentsOf path := hsegs ▸ List.mem_cons_self ..
  rw [h.joined, hsegs, head?_joinPath rest (named_of_mem_segment hfst).1]
  exact fun hslash => slash_not_mem_segment hfst (List.mem_of_mem_head? hslash)

theorem windowsDrive_eq (h : Normalizes tables limits path p) {rest : List PyString}
    (hsegs : segmentsOf path = first :: rest) : windowsDrive p = windowsDrive first := by
  have hfst : first ∈ segmentsOf path := hsegs ▸ List.mem_cons_self ..
  rw [h.joined, hsegs, windowsDrive_joinPath rest (named_of_mem_segment hfst).1]

theorem again_iff (h : Normalizes tables limits path p) :
    Normalizes tables limits p p ↔ windowsDrive p = false := by
  constructor
  · exact fun hagain => hagain.no_drive
  · intro hdrive
    refine ⟨h.fits_joined, h.relative_joined, hdrive, h.no_control_joined, ?_, ?_, ?_,
      h.fits_joined, h.suffix⟩
    · rw [h.splitPath_eq]
      intro hmem
      exact h.no_parent (List.mem_of_mem_filter hmem)
    · rw [h.segmentsOf_eq]
      exact h.named
    · rw [h.segmentsOf_eq, ← h.joined]

end Normalizes

theorem slashed_of_no_backslash (hnfc : tables.nfc p = p) (h : backslash ∉ p) :
    slashed tables p = p := by
  have hmap : (p.map fun c => if c = backslash then slash else c) = p := by
    conv_rhs => rw [← List.map_id p]
    apply List.map_congr_left
    intro c hc
    have hne : c ≠ backslash := fun heq => h (heq ▸ hc)
    exact if_neg hne
  rw [slashed, hmap, hnfc]

theorem rootOf_eq_nil (h : p.head? ≠ some slash) : rootOf p = [] := by
  match p, h with
  | [], _ => rfl
  | [first], h => rw [rootOf, if_neg (by simpa using h)]
  | first :: second :: rest, h => rw [rootOf, if_pos (by simpa using h)]

theorem exists_mediaType (h : checkSuffix tables p = .ok q) :
    ∃ entry ∈ mediaTypes, mediaTypes.find? (fun entry => entry.1 == tables.lower (suffixOf p)) =
      some entry := by
  have hsome : (mediaTypes.find? fun entry => entry.1 == tables.lower (suffixOf p)).isSome := by
    rw [List.find?_isSome]
    simp only [checkSuffix] at h
    split at h
    · rename_i hsch
      have hsuffix : suffixOf schemeFileName = PyString.ofString ".yaml" := by decide
      refine ⟨(PyString.ofString ".yaml", "application/yaml"), by simp [mediaTypes], ?_⟩
      rw [hsch, hsuffix, tables.lower_yaml, beq_self_eq_true]
    · split at h
      · cases h
      · split at h
        · cases h
        · rename_i hknown
          simpa using hknown
  obtain ⟨entry, hent⟩ := Option.isSome_iff_exists.mp hsome
  exact ⟨entry, List.mem_of_find?_eq_some hent, hent⟩

theorem mediaType_valid {entry : PyString × String} (h : entry ∈ mediaTypes) :
    entry.2.isEmpty = false ∧ entry.2.length ≤ 255 ∧
      (PyString.ofString entry.2).any isControl = false := by
  simp only [mediaTypes, List.mem_cons, List.not_mem_nil, or_false] at h
  rcases h with rfl | rfl | rfl <;> decide

theorem Normalizes.manifestFile_ok (h : Normalizes tables limits path p)
    (hfixed : tables.nfc path = path) (hpath : backslash ∉ path) (size : Nat) (digest : Digest) :
    ∃ file, manifestFile tables p size digest = .ok file := by
  obtain ⟨entry, hent, hf⟩ := exists_mediaType h.suffix
  obtain ⟨hne, hlen, hcontrol⟩ := mediaType_valid hent
  have hroot := rootOf_eq_nil h.relative_joined
  have hposix : asPosix p = p := by
    rw [asPosix, hroot, h.segmentsOf_eq, if_neg (fun hboth => h.named hboth.2), List.nil_append,
      ← h.joined]
  have hparts : partsOf p = segmentsOf path := by
    rw [partsOf, hroot, if_pos rfl, List.nil_append, h.segmentsOf_eq]
  have hname : some (nameOf p) = (segmentsOf path).getLast? := by
    rw [nameOf, h.segmentsOf_eq, List.getLastD_eq_getLast?, List.getLast?_eq_some_getLast h.named]
    rfl
  have hsegs : ∀ part ∈ segmentsOf path,
      ¬ part = [] ∧ ¬ part = [dot] ∧ ¬ part = [dot, dot] := by
    intro part hpart
    have hnamed := named_of_mem_segment hpart
    exact ⟨hnamed.1, hnamed.2, fun heq => h.no_parent (heq ▸ List.mem_of_mem_filter hpart)⟩
  have hval : ManifestFile.validate tables ⟨p, nameOf p, size, entry.2, digest⟩ = .ok () := by
    simp only [ManifestFile.validate, h.nfc_eq hfixed, raiseFirst_eq_ok, List.forall_mem_cons]
    simp only [hposix, hparts, hname, hne, hcontrol, h.no_control_joined,
      List.isEmpty_eq_false_iff.mpr h.ne_nil, bne_self_eq_false, List.contains_eq_mem,
      h.no_backslash hpath, beq_eq_false_iff_ne.mpr h.relative_joined, decide_false,
      Bool.or_self, decide_eq_false (Nat.not_lt.mpr hlen)]
    simpa using hsegs
  refine ⟨⟨p, nameOf p, size, entry.2, digest⟩, ?_⟩
  rw [manifestFile, hf]
  simp only [hval, bind, Except.bind]

structure SafePath (tables : TextTables) (limits : PackageLimits) (p : PyString) : Prop where
  accepted : ∀ size digest, ∃ file, manifestFile tables p size digest = .ok file
  relative : p.head? ≠ some slash
  segments : ∀ segment ∈ splitPath p, segment ≠ [] ∧ segment ≠ [dot] ∧ segment ≠ [dot, dot]
  no_backslash : backslash ∉ p
  no_control : p.any isControl = false
  no_drive : windowsDrive p = false
  fixed : normalizePath tables limits p = .ok p

/-- Behind empty and `.` segments the path goes on with a drive. -/
def HidesDrive (tables : TextTables) (rawPath : PyString) : Prop :=
  ∃ skipped drive rest, splitPath (slashed tables rawPath) = skipped ++ drive :: rest ∧
    skipped ≠ [] ∧ (∀ segment ∈ skipped, isNamed segment = false) ∧ windowsDrive drive = true

theorem isNamed_of_windowsDrive (h : windowsDrive segment = true) : isNamed segment = true := by
  match segment, h with
  | _ :: _ :: _, _ => simp [isNamed]

theorem windowsDrive_iff_hidesDrive
    (h : Normalizes tables limits (slashed tables rawPath) p) :
    windowsDrive p = true ↔ HidesDrive tables rawPath := by
  obtain ⟨first, rest, hsegs⟩ := List.exists_cons_of_ne_nil h.named
  have hfst : first ∈ segmentsOf (slashed tables rawPath) := hsegs ▸ List.mem_cons_self ..
  rw [h.windowsDrive_eq hsegs]
  constructor
  · intro hdrive
    obtain ⟨skipped, more, hspl, hskipped, -, -⟩ := List.filter_eq_cons_iff.mp hsegs
    refine ⟨skipped, first, more, hspl, ?_, fun segment hseg => ?_, hdrive⟩
    · rintro rfl
      -- without a skipped segment the drive is at the front of the path itself
      have hpath : slashed tables rawPath = joinPath (first :: more) := by
        rw [← List.nil_append (first :: more), ← hspl, joinPath, splitPath,
          List.intercalate_splitOn]
      have hchecked := h.no_drive
      rw [hpath, windowsDrive_joinPath more (named_of_mem_segment hfst).1, hdrive] at hchecked
      cases hchecked
    · exact Bool.not_eq_true _ ▸ hskipped segment hseg
  · rintro ⟨skipped, drive, more, hspl, -, hskipped, hdrive⟩
    have hfilt : segmentsOf (slashed tables rawPath) = drive :: more.filter isNamed := by
      rw [segmentsOf, hspl, List.filter_append, List.filter_eq_nil_iff.mpr, List.nil_append,
        List.filter_cons_of_pos (isNamed_of_windowsDrive hdrive)]
      intro segment hseg
      rw [hskipped segment hseg]
      exact Bool.false_ne_true
    rw [hfilt] at hsegs
    rw [← (List.cons.inj hsegs).1]
    exact hdrive

/-- A path that is returned is safe exactly when no drive was behind skipped
segments. -/
theorem safePath_iff (h : normalizePath tables limits rawPath = .ok p) :
    SafePath tables limits p ↔ ¬ HidesDrive tables rawPath := by
  have hnormalizes := (normalizePath_ok_iff.mp h).2
  have hfixed := slashed_fixed tables rawPath
  have hbackslash := hnormalizes.no_backslash (backslash_not_mem_slashed tables rawPath)
  rw [← windowsDrive_iff_hidesDrive hnormalizes, Bool.not_eq_true]
  constructor
  · exact fun hsafe => hsafe.no_drive
  · intro hdrive
    refine ⟨hnormalizes.manifestFile_ok hfixed (backslash_not_mem_slashed tables rawPath),
      hnormalizes.relative_joined, ?_, hbackslash, hnormalizes.no_control_joined, hdrive, ?_⟩
    · intro segment hseg
      rw [hnormalizes.splitPath_eq] at hseg
      have hnamed := named_of_mem_segment hseg
      exact ⟨hnamed.1, hnamed.2,
        fun heq => hnormalizes.no_parent (heq ▸ List.mem_of_mem_filter hseg)⟩
    · rw [normalizePath_ok_iff, slashed_of_no_backslash (hnormalizes.nfc_eq hfixed) hbackslash]
      exact ⟨hnormalizes.ne_nil, hnormalizes.again_iff.mpr hdrive⟩

/-! ## Manifests -/

def PackageInspection.DistinctPaths (inspection : PackageInspection) (tables : TextTables) : Prop :=
  ∀ manifest ∈ inspection.manifest,
    (manifest.map fun file => tables.casefold file.path).Nodup

variable {files : List ManifestFile}

theorem checkDistinct_ok {seen folded : List PyString}
    (h : checkDistinct tables seen folded files = .ok ()) :
    (files.map fun file => tables.casefold file.path).Nodup ∧
      ∀ file ∈ files, tables.casefold file.path ∉ folded := by
  induction files generalizing seen folded with
  | nil => simp
  | cons file files ih =>
    rw [checkDistinct] at h
    split at h
    · cases h
    · split at h
      · cases h
      · rename_i hnew
        rw [List.contains_eq_mem, decide_eq_true_eq] at hnew
        obtain ⟨hnd, hfresh⟩ := ih h
        rw [List.map_cons, List.nodup_cons, List.forall_mem_cons]
        refine ⟨⟨?_, hnd⟩, hnew, fun other ho hmem => ?_⟩
        · intro hmem
          obtain ⟨other, ho, heq⟩ := List.mem_map.mp hmem
          exact hfresh other ho (heq ▸ List.mem_cons_self ..)
        · exact hfresh other ho (List.mem_cons_of_mem _ hmem)

theorem buildManifest_distinct {manifest : List ManifestFile}
    (h : buildManifest tables files = .ok manifest) :
    (manifest.map fun file => tables.casefold file.path).Nodup := by
  rw [buildManifest, then_ok_iff] at h
  obtain ⟨hdist, hmani⟩ := h
  cases hmani
  exact (checkDistinct_ok hdist).1

variable {issues : List ValidationIssue} {inspection : PackageInspection}

theorem withManifest_distinct (h : withManifest tables files issues = .ok inspection) :
    inspection.DistinctPaths tables := by
  rw [withManifest] at h
  split at h
  · cases hmani : buildManifest tables files with
    | error error =>
      rw [hmani] at h
      cases h
    | ok manifest =>
      rw [hmani] at h
      cases h
      rintro _ ⟨⟩
      exact buildManifest_distinct hmani
  · cases h
    rintro _ ⟨⟩

theorem inspectionResult_distinct (h : inspectionResult tables files issues = .ok inspection) :
    inspection.DistinctPaths tables := by
  rw [inspectionResult] at h
  split at h <;> exact withManifest_distinct h

theorem inspectBrowserFolder_distinct {entries : List BrowserFolderEntry}
    (h : inspectBrowserFolder tables limits entries = .ok inspection) :
    inspection.DistinctPaths tables := by
  rw [inspectBrowserFolder, bind_ok_iff] at h
  obtain ⟨scan, -, hres⟩ := h
  exact inspectionResult_distinct hres

theorem inspectZipStream_distinct {archive : Bytes} {infos : Option (List ZipInfo)}
    (h : inspectZipStream tables limits archive infos = .ok inspection) :
    inspection.DistinctPaths tables := by
  rw [inspectZipStream.eq_def] at h
  split at h
  · exact inspectionResult_distinct h
  · cases hcheck : zipDirectoryIssue archive limits with
    | error error =>
      rw [hcheck] at h
      cases error
      cases h
    | ok check =>
      rw [hcheck] at h
      obtain ⟨issue, recordsRead⟩ := check
      cases issue with
      | some issue => exact inspectionResult_distinct h
      | none =>
        cases infos with
        | none => exact inspectionResult_distinct h
        | some infos =>
          simp only [bind_ok_iff] at h
          obtain ⟨scan, -, hscan⟩ := h
          split at hscan
          · rw [bind_ok_iff] at hscan
            obtain ⟨⟨files, more⟩, -, hres⟩ := hscan
            exact inspectionResult_distinct hres
          · exact inspectionResult_distinct hscan

/-- A path that `_normalize_path` returns is safe exactly when the given one has
no drive behind skipped segments, and no accepted package has a path twice. -/
theorem package_paths_safe_iff (tables : TextTables) (limits : PackageLimits) :
    (∀ rawPath p, normalizePath tables limits rawPath = .ok p →
      (SafePath tables limits p ↔ ¬ HidesDrive tables rawPath)) ∧
    (∀ archive infos inspection,
      inspectZipStream tables limits archive infos = .ok inspection →
        inspection.accepted = true → inspection.DistinctPaths tables) ∧
    ∀ entries inspection, inspectBrowserFolder tables limits entries = .ok inspection →
      inspection.accepted = true → inspection.DistinctPaths tables :=
  ⟨fun _ _ h => safePath_iff h, fun _ _ _ h _ => inspectZipStream_distinct h,
    fun _ _ h _ => inspectBrowserFolder_distinct h⟩

def asciiLower (text : PyString) : PyString :=
  text.map fun c => if 0x41 ≤ c.val ∧ c.val ≤ 0x5A then Fin.ofNat _ (c.val + 32) else c

def asciiTables : TextTables where
  nfc text := text
  lower := asciiLower
  casefold := asciiLower
  nfc_idempotent _ := rfl
  nfc_slash _ _ := rfl
  nfc_adds_no_slash _ h := h
  nfc_adds_no_backslash _ h := h
  lower_yaml := by decide

theorem package_paths_safe_notes :
    SafePath asciiTables defaultLimits (PyString.ofString "week-1/notes.md") := by
  have hnormalized : normalizePath asciiTables defaultLimits
      (PyString.ofString ".\\week-1//notes.md") = .ok (PyString.ofString "week-1/notes.md") := by
    decide +kernel
  refine ((package_paths_safe_iff asciiTables defaultLimits).1 _ _ hnormalized).mpr ?_
  rintro ⟨skipped, drive, rest, hsplit, -, -, hdrive⟩
  have hmem : drive ∈ [[dot], PyString.ofString "week-1", [], PyString.ofString "notes.md"] := by
    have hsegments : splitPath (slashed asciiTables (PyString.ofString ".\\week-1//notes.md")) =
        [[dot], PyString.ofString "week-1", [], PyString.ofString "notes.md"] := by
      decide +kernel
    rw [← hsegments, hsplit]
    simp
  simp only [List.mem_cons, List.not_mem_nil, or_false] at hmem
  rcases hmem with rfl | rfl | rfl | rfl <;> cases hdrive

/-- `./C:/x.md` becomes `C:/x.md`, which is refused when it comes again. -/
theorem drive_exposed :
    normalizePath asciiTables defaultLimits (PyString.ofString "./C:/x.md") =
        .ok (PyString.ofString "C:/x.md") ∧
      windowsDrive (PyString.ofString "C:/x.md") = true ∧
      normalizePath asciiTables defaultLimits (PyString.ofString "C:/x.md") =
        .error (refusedPath "absolute_path" "Absolute file paths are not allowed."
          (some (PyString.ofString "C:/x.md"))) := by
  refine ⟨?_, ?_, ?_⟩ <;> decide +kernel

end TamForge.Roadmaps
