import TamForge.Roadmaps.Package

/-!
# The directory of an archive is bounded before it is read

Whatever the bytes are, the check of the directory ends without a read out of
bounds, reads at most one record more than a package may have members, and
passes only archives whose directory is tiled by its records.
-/

namespace TamForge.Roadmaps

open Models ProofSupport

variable {archive tail : Bytes} {limits : PackageLimits}

/-- A central record: its header, and behind it as many bytes as the header
says. -/
def IsCentralRecord (record : Bytes) : Prop :=
  zipCentralSignature <+: record ∧ recordSize record = .ok record.length

def IsEndRecord (record : Bytes) (totalEntries centralSize centralOffset : Nat) : Prop :=
  zipEndSignature <+: record ∧ unpackFrom 2 10 record = .ok totalEntries ∧
    unpackFrom 4 12 record = .ok centralSize ∧ unpackFrom 4 16 record = .ok centralOffset ∧
    ∃ commentSize, unpackFrom 2 20 record = .ok commentSize ∧
      record.length = zipEndBytes + commentSize

/-- The archive ends in a directory of so many records at most, one behind the
other, and an end record that describes it. -/
def EndsInDirectory (archive : Bytes) (maxMembers : Nat) : Prop :=
  ∃ (members : Bytes) (records : List Bytes) (endRecord : Bytes),
    archive = members ++ records.flatten ++ endRecord ∧
    (∀ record ∈ records, IsCentralRecord record) ∧
    IsEndRecord endRecord records.length records.flatten.length members.length ∧
    records.length ≤ maxMembers

variable {width offset : Nat} {buffer : Bytes}

theorem unpackFrom_ok_iff {value : Nat} :
    unpackFrom width offset buffer = .ok value ↔ readNumber width offset buffer = some value := by
  rw [unpackFrom]
  cases readNumber width offset buffer <;> simp

theorem exists_unpackFrom (h : offset + width ≤ buffer.length) :
    ∃ value, unpackFrom width offset buffer = .ok value := by
  obtain ⟨value, hval⟩ := exists_readNumber h
  exact ⟨value, unpackFrom_ok_iff.mpr hval⟩

theorem unpackFrom_drop {start : Nat} (h : start ≤ buffer.length) :
    unpackFrom width offset (buffer.drop start) = unpackFrom width (start + offset) buffer := by
  rw [unpackFrom, unpackFrom, readNumber_drop h]

theorem exists_recordSize {header : Bytes} (h : zipCentralHeaderBytes ≤ header.length) :
    ∃ size, recordSize header = .ok size := by
  have hheader : zipCentralHeaderBytes = 46 := rfl
  obtain ⟨filenameSize, hfilename⟩ := exists_unpackFrom (show 28 + 2 ≤ header.length by omega)
  obtain ⟨extraSize, hextra⟩ := exists_unpackFrom (show 30 + 2 ≤ header.length by omega)
  obtain ⟨commentSize, hcomment⟩ := exists_unpackFrom (show 32 + 2 ≤ header.length by omega)
  refine ⟨zipCentralHeaderBytes + filenameSize + extraSize + commentSize, ?_⟩
  simp only [recordSize, bind_ok_iff]
  exact ⟨_, hfilename, _, hextra, _, hcomment, rfl⟩

theorem recordSize_of_take {record : Bytes} {n size : Nat}
    (h : recordSize (record.take n) = .ok size) :
    recordSize record = .ok size := by
  simp only [recordSize, bind_ok_iff, unpackFrom_ok_iff] at h ⊢
  obtain ⟨filenameSize, hfilename, extraSize, hextra, commentSize, hcomment, hsize⟩ := h
  exact ⟨_, readNumber_of_take hfilename, _, readNumber_of_take hextra, _,
    readNumber_of_take hcomment, hsize⟩

def ValidEnd (tail : Bytes) (candidate : Nat) : Prop :=
  zipEndSignature <+: tail.drop candidate ∧
    ∃ commentSize, unpackFrom 2 (candidate + 20) tail = .ok commentSize ∧
      candidate + zipEndBytes + commentSize = tail.length

theorem considerCandidate_ok {candidate : Nat} {cand : Option Nat}
    (hsignature : zipEndSignature <+: tail.drop candidate)
    (hval : ∀ found ∈ cand, ValidEnd tail found) :
    ∃ next, considerCandidate tail candidate cand = .ok next ∧
      ∀ found ∈ next, ValidEnd tail found := by
  have hbytes : zipEndBytes = 22 := rfl
  rw [considerCandidate]
  split
  · have hread : candidate + 20 + 2 ≤ tail.length := by omega
    obtain ⟨commentSize, hcomment⟩ := exists_unpackFrom hread
    refine ⟨_, by rw [hcomment]; rfl, ?_⟩
    intro found hf
    split at hf
    · rename_i hends
      cases hf
      exact ⟨hsignature, commentSize, hcomment, hends⟩
    · exact hval found hf
  · exact ⟨cand, rfl, hval⟩

theorem findZipEndFrom_ok (searchStart : Nat) (cand : Option Nat)
    (hval : ∀ found ∈ cand, ValidEnd tail found) :
    ∃ found, findZipEndFrom tail searchStart cand = .ok found ∧
      ∀ candidate ∈ found, ValidEnd tail candidate := by
  fun_induction findZipEndFrom tail searchStart cand with
  | case1 searchStart cand hlt hnone => exact ⟨cand, rfl, hval⟩
  | case2 searchStart cand hlt candidate hfind error herr =>
    -- the read behind a candidate stays in the buffer
    obtain ⟨next, hnext, -⟩ := considerCandidate_ok (findFrom_some hfind).2.2 hval
    rw [hnext] at herr
    cases herr
  | case3 searchStart cand hlt candidate hfind next hnext ih =>
    obtain ⟨other, ho, hval'⟩ := considerCandidate_ok (findFrom_some hfind).2.2 hval
    rw [hnext, Except.ok.injEq] at ho
    subst ho
    exact ih hval'
  | case4 searchStart cand hend => exact ⟨cand, rfl, hval⟩

theorem findZipEndOffset_ok (tail : Bytes) :
    ∃ found, findZipEndOffset tail = .ok found ∧ ∀ candidate ∈ found, ValidEnd tail candidate :=
  findZipEndFrom_ok 0 none (by simp)

/-- The walk from a position: it raises nothing, reads a record more than the
limit at most, and what it passed without an issue is so many records. -/
theorem walkDirectory_ok {totalEntries pos remaining observed : Nat}
    (hin : pos + remaining ≤ archive.length)
    (hobserved : observed ≤ limits.maxMembers) :
    ∃ check, walkDirectory archive limits totalEntries pos remaining observed =
        .ok check ∧
      check.recordsRead ≤ limits.maxMembers + 1 ∧
      (check.issue = none → ∃ records : List Bytes,
        (archive.drop pos).take remaining = records.flatten ∧
        (∀ record ∈ records, IsCentralRecord record) ∧
        observed + records.length = totalEntries) := by
  have hheader : zipCentralHeaderBytes = 46 := rfl
  fun_induction walkDirectory archive limits totalEntries pos remaining observed with
  | case1 pos observed hcnt =>
    exact ⟨_, rfl, Nat.le_succ_of_le hobserved, nofun⟩
  | case2 pos observed hcnt =>
    refine ⟨_, rfl, Nat.le_succ_of_le hobserved, fun _ => ⟨[], rfl, by simp, ?_⟩⟩
    rw [List.length_nil, Nat.add_zero]
    exact not_not.mp hcnt
  | case3 pos remaining observed hmore hshort =>
    exact ⟨_, rfl, Nat.le_succ_of_le hobserved, nofun⟩
  | case4 pos remaining observed hmore hlong header hbad =>
    exact ⟨_, rfl, Nat.succ_le_succ hobserved, nofun⟩
  | case5 pos remaining observed hmore hlong header hgood error herr =>
    -- a header of full length has its three sizes
    rw [not_or, not_not] at hgood
    obtain ⟨size, hsize⟩ := exists_recordSize (Nat.le_of_eq hgood.1.symm)
    rw [hsize] at herr
    cases herr
  | case6 pos remaining observed hmore hlong header hgood size hsize hbeyond =>
    exact ⟨_, rfl, Nat.succ_le_succ hobserved, nofun⟩
  | case7 pos remaining observed hmore hlong header hgood size hsize hfits hmany =>
    exact ⟨_, rfl, Nat.succ_le_succ hobserved, nofun⟩
  | case8 pos remaining observed hmore hlong header hgood size hsize hfits hfew ih =>
    obtain ⟨check, hcheck, hread, hrecs⟩ := ih (by omega) (by omega)
    refine ⟨check, hcheck, hread, fun hnone => ?_⟩
    obtain ⟨records, hrest, hcentral, hcnt⟩ := hrecs hnone
    have hge := recordSize_ge hsize
    have hlen : ((archive.drop pos).take size).length = size := by
      rw [List.length_take, List.length_drop]
      omega
    have htake : header = ((archive.drop pos).take size).take zipCentralHeaderBytes := by
      rw [List.take_take, Nat.min_eq_left hge]
    refine ⟨(archive.drop pos).take size :: records, ?_, ?_, ?_⟩
    · rw [List.flatten_cons, ← hrest, ← List.drop_drop, ← List.take_add]
      congr 1
      omega
    · rw [List.forall_mem_cons]
      refine ⟨⟨?_, ?_⟩, hcentral⟩
      · rw [not_or, not_not, not_not, htake] at hgood
        exact hgood.2.trans (List.take_prefix _ _)
      · rw [hlen]
        rw [htake] at hsize
        exact recordSize_of_take hsize
    · rw [List.length_cons]
      omega

theorem readEndRecord_ok {endOffset : Nat} (hend : ValidEnd tail endOffset) :
    ∃ record, readEndRecord tail endOffset = .ok record ∧
      IsEndRecord (tail.drop endOffset) record.totalEntries record.centralSize
        record.centralOffset := by
  obtain ⟨hsignature, commentSize, hcomment, hlen⟩ := hend
  have hbytes : zipEndBytes = 22 := rfl
  have hread : ∀ width offset, offset + width ≤ 22 →
      ∃ value, unpackFrom width (endOffset + offset) tail = .ok value := by
    intro width offset hle
    apply exists_unpackFrom
    omega
  obtain ⟨diskNumber, hdiskNum⟩ := hread 2 4 (by decide)
  obtain ⟨centralDisk, hcentralDisk⟩ := hread 2 6 (by decide)
  obtain ⟨entriesOnDisk, hentriesOnDisk⟩ := hread 2 8 (by decide)
  obtain ⟨totalEntries, htotEntries⟩ := hread 2 10 (by decide)
  obtain ⟨centralSize, hcentralSize⟩ := hread 4 12 (by decide)
  obtain ⟨centralOffset, hcentralOff⟩ := hread 4 16 (by decide)
  have hstart : endOffset ≤ tail.length := by omega
  refine ⟨⟨(tail.drop endOffset).take 4, diskNumber, centralDisk, entriesOnDisk, totalEntries,
    centralSize, centralOffset, commentSize⟩, ?_, hsignature, ?_, ?_, ?_, commentSize, ?_, ?_⟩
  · simp only [readEndRecord, bind_ok_iff]
    exact ⟨_, hdiskNum, _, hcentralDisk, _, hentriesOnDisk, _, htotEntries, _, hcentralSize,
      _, hcentralOff, _, hcomment, rfl⟩
  · rw [unpackFrom_drop hstart, htotEntries]
  · rw [unpackFrom_drop hstart, hcentralSize]
  · rw [unpackFrom_drop hstart, hcentralOff]
  · rw [unpackFrom_drop hstart, hcomment]
  · rw [List.length_drop]
    omega

/-- The check of the directory raises nothing, reads at most one record more
than a package may have members, and passes an archive only if it ends in a
directory of so many. -/
theorem zip_directory_checked (archive : Bytes) (limits : PackageLimits) :
    ∃ check, zipDirectoryIssue archive limits = .ok check ∧
      check.recordsRead ≤ limits.maxMembers + 1 ∧
      (check.issue = none → EndsInDirectory archive limits.maxMembers) := by
  generalize hstart : archive.length - min archive.length (zipEndBytes + zipMaxCommentBytes) = start
  have hle : start ≤ archive.length := by omega
  obtain ⟨found, hfound, hvalid⟩ := findZipEndOffset_ok (archive.drop start)
  rw [zipDirectoryIssue]
  simp only [hstart, hfound]
  cases found with
  | none => exact ⟨_, rfl, Nat.zero_le _, nofun⟩
  | some endOffset =>
    obtain ⟨record, hrecord, hend⟩ := readEndRecord_ok (hvalid endOffset rfl)
    simp only [bind, Except.bind, hrecord]
    split
    · exact ⟨_, rfl, Nat.zero_le _, nofun⟩
    · rename_i hsupported
      split
      · exact ⟨_, rfl, Nat.zero_le _, nofun⟩
      · rename_i hfew
        simp only [not_or, not_not] at hsupported
        obtain ⟨-, hcomment, -, -, -, -, -, -, hoffset⟩ := hsupported
        have hin : record.centralOffset + record.centralSize ≤ archive.length := by omega
        obtain ⟨check, hcheck, hread, hrecords⟩ :=
          @walkDirectory_ok archive limits record.totalEntries _ _ 0 hin (Nat.zero_le _)
        refine ⟨check, hcheck, hread, fun hnone => ?_⟩
        obtain ⟨records, hflat, hcentral, hcount⟩ := hrecords hnone
        rw [Nat.zero_add] at hcount
        have hsize : records.flatten.length = record.centralSize := by
          rw [← hflat, List.length_take, List.length_drop]
          omega
        have hmembers : (archive.take record.centralOffset).length = record.centralOffset := by
          rw [List.length_take]
          omega
        rw [List.drop_drop, ← hoffset, ← hcount, ← hsize] at hend
        refine ⟨archive.take record.centralOffset, records,
          archive.drop (record.centralOffset + records.flatten.length), ?_, hcentral, ?_, ?_⟩
        · rw [hsize, ← hflat, ← List.take_add, List.take_append_drop]
        · rw [hmembers]
          exact hend
        · omega

/-- An archive of one member that is named `a.md`: the central record and the
end record. -/
def oneMember : Bytes :=
  zipCentralSignature ++ List.replicate 24 0 ++ [4, 0, 0, 0, 0, 0] ++ List.replicate 12 0 ++
    [0x61, 0x2E, 0x6D, 0x64] ++ zipEndSignature ++
    [0, 0, 0, 0, 1, 0, 1, 0, 50, 0, 0, 0, 0, 0, 0, 0, 0, 0]

theorem zip_directory_checked_oneMember : EndsInDirectory oneMember 512 := by
  obtain ⟨check, hcheck, -, hpassed⟩ := zip_directory_checked oneMember defaultLimits
  have hnone : zipDirectoryIssue oneMember defaultLimits = .ok ⟨none, 1⟩ := by
    decide +kernel
  rw [hnone, Except.ok.injEq] at hcheck
  subst hcheck
  exact hpassed rfl

end TamForge.Roadmaps
