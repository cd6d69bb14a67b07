import Mathlib.Data.List.Lex
import Mathlib.Data.List.Sort
import Mathlib.Order.Fin.Basic
import TamForge.Models.Text
import TamForge.ProofSupport.Bytes
import TamForge.Roadmaps.Staging

/-!
# Package inspection

`roadmaps/package.py`: what is asked of an uploaded archive before its members
are read, and of the paths of a package.
-/

namespace TamForge.Roadmaps

open Models ProofSupport

/-- `PackageLimits`, whose values are all positive. -/
structure PackageLimits where
  maxArchiveBytes : Nat
  maxMembers : Nat
  maxMemberBytes : Nat
  maxTotalUncompressedBytes : Nat
  maxCompressionRatio : Nat
  maxPathBytes : Nat
  readChunkBytes : Nat
  positive : 0 < maxArchiveBytes ∧ 0 < maxMembers ∧ 0 < maxMemberBytes ∧
    0 < maxTotalUncompressedBytes ∧ 0 < maxCompressionRatio ∧ 0 < maxPathBytes ∧
    0 < readChunkBytes

/-- `PackageLimits()` -/
def defaultLimits : PackageLimits where
  maxArchiveBytes := 32 * 1024 * 1024
  maxMembers := 512
  maxMemberBytes := 16 * 1024 * 1024
  maxTotalUncompressedBytes := 64 * 1024 * 1024
  maxCompressionRatio := 200
  maxPathBytes := 1024
  readChunkBytes := 64 * 1024
  positive := by decide

/-- `_issue` -/
def packageIssue (code message : String) (path : Option PyString) : ValidationIssue :=
  ⟨code, path.map PyString.toText, "error", message⟩

/-! ## The directory of an archive -/

def zipEndSignature : Bytes := [0x50, 0x4B, 0x05, 0x06]

def zipCentralSignature : Bytes := [0x50, 0x4B, 0x01, 0x02]

def zipEndBytes : Nat := 22

def zipCentralHeaderBytes : Nat := 46

def zipMaxCommentBytes : Nat := 65535

/-- A read past the end of a buffer raises. -/
inductive StructError
  | outOfBounds
deriving DecidableEq

/-- One little-endian number of `struct.unpack_from`. -/
def unpackFrom (width offset : Nat) (buffer : Bytes) : Except StructError Nat :=
  match readNumber width offset buffer with
  | none => .error .outOfBounds
  | some value => .ok value

/-- `buffer.find(signature, start)` -/
def findFrom (signature buffer : Bytes) (start : Nat) : Option Nat :=
  (List.range' start (buffer.length - start)).find? fun i => signature.isPrefixOf (buffer.drop i)

theorem findFrom_some {signature buffer : Bytes} {start candidate : Nat}
    (h : findFrom signature buffer start = some candidate) :
    start ≤ candidate ∧ candidate < buffer.length ∧ signature <+: buffer.drop candidate := by
  have hmem := List.mem_of_find?_eq_some h
  have hf := List.find?_some h
  rw [List.mem_range'_1] at hmem
  exact ⟨hmem.1, by omega, List.isPrefixOf_iff_prefix.mp hf⟩

def considerCandidate (tail : Bytes) (candidate : Nat) (validCandidate : Option Nat) :
    Except StructError (Option Nat) :=
  if zipEndBytes ≤ tail.length - candidate then do
    let commentSize ← unpackFrom 2 (candidate + 20) tail
    .ok (if candidate + zipEndBytes + commentSize = tail.length then some candidate
      else validCandidate)
  else .ok validCandidate

/-- The loop of `_find_zip_end_offset`. -/
def findZipEndFrom (tail : Bytes) (searchStart : Nat) (validCandidate : Option Nat) :
    Except StructError (Option Nat) :=
  if searchStart < tail.length then
    match _hfind : findFrom zipEndSignature tail searchStart with
    | none => .ok validCandidate
    | some candidate =>
      match considerCandidate tail candidate validCandidate with
      | .error error => .error error
      | .ok next => findZipEndFrom tail (candidate + 1) next
  else .ok validCandidate
termination_by tail.length - searchStart
decreasing_by
  have hfound := findFrom_some _hfind
  omega

def findZipEndOffset (tail : Bytes) : Except StructError (Option Nat) :=
  findZipEndFrom tail 0 none

/-- The end record as `<4s4H2LH` reads it. -/
structure ZipEndRecord where
  signature : Bytes
  diskNumber : Nat
  centralDisk : Nat
  entriesOnDisk : Nat
  totalEntries : Nat
  centralSize : Nat
  centralOffset : Nat
  commentSize : Nat

def readEndRecord (tail : Bytes) (endOffset : Nat) : Except StructError ZipEndRecord := do
  let diskNumber ← unpackFrom 2 (endOffset + 4) tail
  let centralDisk ← unpackFrom 2 (endOffset + 6) tail
  let entriesOnDisk ← unpackFrom 2 (endOffset + 8) tail
  let totalEntries ← unpackFrom 2 (endOffset + 10) tail
  let centralSize ← unpackFrom 4 (endOffset + 12) tail
  let centralOffset ← unpackFrom 4 (endOffset + 16) tail
  let commentSize ← unpackFrom 2 (endOffset + 20) tail
  .ok ⟨(tail.drop endOffset).take 4, diskNumber, centralDisk, entriesOnDisk, totalEntries,
    centralSize, centralOffset, commentSize⟩

/-- What `_zip_directory_issue` returns, and how many central records it read. -/
structure DirectoryCheck where
  issue : Option ValidationIssue
  recordsRead : Nat
deriving DecidableEq

def malformedDirectory : ValidationIssue :=
  packageIssue "invalid_zip" "ZIP central directory is malformed." none

def tooManyMembers : ValidationIssue :=
  packageIssue "too_many_members" "ZIP archive contains too many members." none

/-- `record_size` of a central header -/
def recordSize (header : Bytes) : Except StructError Nat := do
  let filenameSize ← unpackFrom 2 28 header
  let extraSize ← unpackFrom 2 30 header
  let memberCommentSize ← unpackFrom 2 32 header
  .ok (zipCentralHeaderBytes + filenameSize + extraSize + memberCommentSize)

theorem recordSize_ge {header : Bytes} {size : Nat} (h : recordSize header = .ok size) :
    zipCentralHeaderBytes ≤ size := by
  simp only [recordSize, bind_ok_iff, Except.ok.injEq] at h
  obtain ⟨filenameSize, -, extraSize, -, memberCommentSize, -, rfl⟩ := h
  omega

/-- The loop over the central records, with the position in the archive, and the
check of their number behind it. -/
def walkDirectory (archive : Bytes) (limits : PackageLimits)
    (totalEntries position remaining observedEntries : Nat) : Except StructError DirectoryCheck :=
  if remaining = 0 then
    if observedEntries ≠ totalEntries then
      .ok ⟨some (packageIssue "invalid_zip"
        "ZIP central directory member count is inconsistent." none), observedEntries⟩
    else .ok ⟨none, observedEntries⟩
  else if remaining < zipCentralHeaderBytes then .ok ⟨some malformedDirectory, observedEntries⟩
  else
    let header := (archive.drop position).take zipCentralHeaderBytes
    if header.length ≠ zipCentralHeaderBytes ∨ ¬ zipCentralSignature <+: header then
      .ok ⟨some malformedDirectory, observedEntries + 1⟩
    else
      match _hsize : recordSize header with
      | .error error => .error error
      | .ok size =>
        if remaining < size then .ok ⟨some malformedDirectory, observedEntries + 1⟩
        else if limits.maxMembers < observedEntries + 1 then
          .ok ⟨some tooManyMembers, observedEntries + 1⟩
        else
          walkDirectory archive limits totalEntries (position + size) (remaining - size)
            (observedEntries + 1)
termination_by remaining
decreasing_by
  have hge := recordSize_ge _hsize
  have hheader : zipCentralHeaderBytes = 46 := rfl
  omega

def zipDirectoryIssue (archive : Bytes) (limits : PackageLimits) :
    Except StructError DirectoryCheck := do
  let tailSize := min archive.length (zipEndBytes + zipMaxCommentBytes)
  let tail := archive.drop (archive.length - tailSize)
  match ← findZipEndOffset tail with
  | none =>
    .ok ⟨some (packageIssue "invalid_zip" "The uploaded file is not a valid ZIP archive." none),
      0⟩
  | some endOffset =>
    let record ← readEndRecord tail endOffset
    let absoluteEndOffset := archive.length - tailSize + endOffset
    if record.signature ≠ zipEndSignature ∨
        absoluteEndOffset + zipEndBytes + record.commentSize ≠ archive.length ∨
        record.diskNumber ≠ 0 ∨ record.centralDisk ≠ 0 ∨
        record.entriesOnDisk ≠ record.totalEntries ∨ record.totalEntries = 0xFFFF ∨
        record.centralSize = 0xFFFFFFFF ∨ record.centralOffset = 0xFFFFFFFF ∨
        record.centralOffset + record.centralSize ≠ absoluteEndOffset then
      .ok ⟨some (packageIssue "invalid_zip"
        "The uploaded file is not a supported single-disk ZIP archive." none), 0⟩
    else if limits.maxMembers < record.totalEntries then .ok ⟨some tooManyMembers, 0⟩
    else
      walkDirectory archive limits record.totalEntries record.centralOffset record.centralSize 0

/-! ## Paths -/

/-- `unicodedata.normalize("NFC", ·)`, `str.lower` and `str.casefold`.  A slash
and a backslash compose with nothing and come from no other character, so NFC
leaves them where they are, and a slash parts what it normalizes. -/
structure TextTables where
  nfc : PyString → PyString
  lower : PyString → PyString
  casefold : PyString → PyString
  nfc_idempotent : ∀ text, nfc (nfc text) = nfc text
  nfc_slash : ∀ left right, nfc (left ++ 0x2F :: right) = nfc left ++ 0x2F :: nfc right
  nfc_adds_no_slash : ∀ text, 0x2F ∉ text → 0x2F ∉ nfc text
  nfc_adds_no_backslash : ∀ text, 0x5C ∉ text → 0x5C ∉ nfc text
  lower_yaml : lower (PyString.ofString ".yaml") = PyString.ofString ".yaml"

def slash : CodePoint := 0x2F

def backslash : CodePoint := 0x5C

def dot : CodePoint := 0x2E

def colon : CodePoint := 0x3A

/-- `ord(character) < 32 or ord(character) == 127` -/
def isControl (c : CodePoint) : Bool := decide (c.val < 32) || c.val == 127

/-- `[A-Za-z]` -/
def isAsciiLetter (c : CodePoint) : Bool :=
  (decide (0x41 ≤ c.val) && decide (c.val ≤ 0x5A)) ||
    (decide (0x61 ≤ c.val) && decide (c.val ≤ 0x7A))

/-- `_WINDOWS_DRIVE.match(path)` -/
def windowsDrive : PyString → Bool
  | letter :: next :: _ => isAsciiLetter letter && next == colon
  | _ => false

/-- `path.split("/")` -/
def splitPath (path : PyString) : List PyString := path.splitOn slash

/-- `"/".join(parts)` -/
def joinPath (parts : List PyString) : PyString := [slash].intercalate parts

/-- A segment that `PurePosixPath` keeps. -/
def isNamed (segment : PyString) : Bool := segment != [] && segment != [dot]

/-- The segments of a `PurePosixPath`. -/
def segmentsOf (path : PyString) : List PyString := (splitPath path).filter isNamed

/-- The root of a `PurePosixPath`: two slashes stay two. -/
def rootOf : PyString → PyString
  | first :: second :: rest =>
    if first ≠ slash then []
    else if second = slash ∧ rest.head? ≠ some slash then [slash, slash]
    else [slash]
  | [first] => if first = slash then [slash] else []
  | [] => []

/-- `PurePosixPath(path).parts` -/
def partsOf (path : PyString) : List PyString :=
  (if rootOf path = [] then [] else [rootOf path]) ++ segmentsOf path

def asPosix (path : PyString) : PyString :=
  if rootOf path = [] ∧ segmentsOf path = [] then [dot]
  else rootOf path ++ joinPath (segmentsOf path)

/-- `PurePosixPath(path).name` -/
def nameOf (path : PyString) : PyString := (segmentsOf path).getLastD []

/-- `PurePosixPath(path).suffix`: from the last dot of the name on, unless that
begins or ends it. -/
def suffixOf (path : PyString) : PyString :=
  let name := nameOf path
  let fromEnd := name.reverse.idxOf dot
  if dot ∈ name ∧ 0 < fromEnd ∧ fromEnd + 1 < name.length then
    name.drop (name.length - 1 - fromEnd)
  else []

def mediaTypes : List (PyString × String) :=
  [(PyString.ofString ".md", "text/markdown"), (PyString.ofString ".sql", "application/sql"),
    (PyString.ofString ".yaml", "application/yaml")]

def schemeFileName : PyString := PyString.ofString "roadmap.yaml"

inductive PathError
  | refused (issue : ValidationIssue)
  | unicodeEncodeError
deriving DecidableEq

/-- `len(path.encode("utf-8"))` -/
def encodedLength (path : PyString) : Except PathError Nat :=
  match path.encodeUtf8 with
  | none => .error .unicodeEncodeError
  | some bytes => .ok bytes.length

/-- `raw_path.replace("\\", "/")` in NFC -/
def slashed (tables : TextTables) (rawPath : PyString) : PyString :=
  tables.nfc (rawPath.map fun c => if c = backslash then slash else c)

def refusedPath (code message : String) (path : Option PyString) : PathError :=
  .refused (packageIssue code message path)

/-- The last step of `_normalize_path`: which files a package may have. -/
def checkSuffix (tables : TextTables) (normalized : PyString) : Except PathError PyString :=
  let suffix := tables.lower (suffixOf normalized)
  if normalized = schemeFileName then .ok normalized
  else if suffix = PyString.ofString ".yaml" then
    .error (refusedPath "yaml_outside_root" "Only roadmap.yaml at the package root is supported."
      (some normalized))
  else if mediaTypes.all fun entry => entry.1 != suffix then
    .error (refusedPath "unsupported_file_type"
      "Only Markdown, SQL and a root roadmap.yaml are supported." (some normalized))
  else .ok normalized

def normalizePath (tables : TextTables) (limits : PackageLimits) (rawPath : PyString) :
    Except PathError PyString := do
  raiseFirst [(rawPath.isEmpty,
    refusedPath "invalid_path" "File path must be a non-empty string." none)]
  let path := slashed tables rawPath
  let pathLength ← encodedLength path
  raiseFirst [
    (decide (limits.maxPathBytes < pathLength),
      refusedPath "path_too_long" "File path is too long." none),
    (path.head? == some slash || windowsDrive path,
      refusedPath "absolute_path" "Absolute file paths are not allowed." (some rawPath)),
    (path.any isControl,
      refusedPath "invalid_path" "File path contains control characters." (some rawPath)),
    ((splitPath path).contains [dot, dot],
      refusedPath "path_traversal" "Parent path traversal is not allowed." (some rawPath)),
    ((segmentsOf path).isEmpty,
      refusedPath "invalid_path" "File path does not identify a file." (some rawPath))]
  let normalized := joinPath (segmentsOf path)
  let normalizedLength ← encodedLength normalized
  raiseFirst [(decide (limits.maxPathBytes < normalizedLength),
    refusedPath "path_too_long" "Normalized file path is too long." (some normalized))]
  checkSuffix tables normalized

/-! ## Manifest files -/

structure ManifestFile where
  path : PyString
  originalFilename : PyString
  byteSize : Nat
  mediaType : String
  sha256 : Digest

inductive PackageError
  | unicodeEncodeError
  /-- The `ValueError` of `ManifestFile`. -/
  | invalidFile (message : String)
  /-- A suffix without a media type. -/
  | keyError
  /-- The `ManifestError` of `build_manifest`. -/
  | manifest (message : String)
  | structError

/-- `ManifestFile.__post_init__`; the digest is lowercase hexadecimal by its
type. -/
def ManifestFile.validate (tables : TextTables) (file : ManifestFile) :
    Except PackageError Unit :=
  let normalizedPath := tables.nfc file.path
  let parts := partsOf normalizedPath
  raiseFirst [
    (normalizedPath.isEmpty || normalizedPath != file.path ||
      normalizedPath != asPosix normalizedPath || normalizedPath.head? == some slash ||
      normalizedPath.contains backslash ||
      parts.any (fun part => [[], [dot], [dot, dot]].contains part) || normalizedPath.any isControl,
      .invalidFile "manifest path must be a normalized relative POSIX path"),
    (some file.originalFilename != parts.getLast?,
      .invalidFile "original filename must match the normalized path basename"),
    (file.mediaType.isEmpty || decide (255 < file.mediaType.length) ||
      (PyString.ofString file.mediaType).any isControl,
      .invalidFile "manifest media type is invalid")]

def manifestFile (tables : TextTables) (path : PyString) (size : Nat) (digest : Digest) :
    Except PackageError ManifestFile :=
  match mediaTypes.find? fun entry => entry.1 == tables.lower (suffixOf path) with
  | none => .error .keyError
  | some entry => do
      let file := ⟨path, nameOf path, size, entry.2, digest⟩
      ManifestFile.validate tables file
      .ok file

/-! ## Collisions and manifests -/

/-- `seen` and `seen_casefolded`, the latter with the path of each key. -/
structure SeenPaths where
  paths : List PyString
  casefolded : List (PyString × PyString)

/-- `_path_collision_issue`, with the tables as it leaves them. -/
def pathCollisionIssue (tables : TextTables) (normalized : PyString) (seen : SeenPaths) :
    Except ValidationIssue SeenPaths :=
  if seen.paths.contains normalized then
    .error (packageIssue "duplicate_path" "Duplicate normalized file path." (some normalized))
  else
    match seen.casefolded.find? fun entry => entry.1 == tables.casefold normalized with
    | some entry => .error (packageIssue "case_collision"
        ("File path collides by case with " ++ entry.2.toText ++ ".") (some normalized))
    | none => .ok ⟨normalized :: seen.paths,
        (tables.casefold normalized, normalized) :: seen.casefolded⟩

/-- `sorted(files, key=lambda item: item.path)` -/
def sortedFiles (files : List ManifestFile) : List ManifestFile :=
  files.insertionSort fun first second => first.path ≤ second.path

/-- The loop of `build_manifest` over the sorted files. -/
def checkDistinct (tables : TextTables) (seen seenCasefolded : List PyString) :
    List ManifestFile → Except PackageError Unit
  | [] => .ok ()
  | item :: rest =>
    if seen.contains item.path then
      .error (.manifest ("duplicate normalized path: " ++ item.path.toText))
    else if seenCasefolded.contains (tables.casefold item.path) then
      .error (.manifest ("case-colliding normalized path: " ++ item.path.toText))
    else
      checkDistinct tables (item.path :: seen) (tables.casefold item.path :: seenCasefolded) rest

/-- `build_manifest`, without the content hash. -/
def buildManifest (tables : TextTables) (files : List ManifestFile) :
    Except PackageError (List ManifestFile) := do
  checkDistinct tables [] [] (sortedFiles files)
  .ok (sortedFiles files)

/-- What an inspection leaves; `manifest` has the files in order. -/
structure PackageInspection where
  files : List ManifestFile
  issues : List ValidationIssue
  manifest : Option (List ManifestFile)

def PackageInspection.accepted (inspection : PackageInspection) : Bool :=
  inspection.issues.isEmpty && inspection.manifest.isSome

def withManifest (tables : TextTables) (files : List ManifestFile)
    (issues : List ValidationIssue) : Except PackageError PackageInspection :=
  if issues.isEmpty then
    (buildManifest tables files).map fun manifest => ⟨files, issues, some manifest⟩
  else .ok ⟨files, issues, none⟩

/-- `_result`, after the files of a package with issues are cleared. -/
def inspectionResult (tables : TextTables) (files : List ManifestFile)
    (issues : List ValidationIssue) : Except PackageError PackageInspection :=
  if issues.isEmpty && files.isEmpty then
    withManifest tables [] [packageIssue "empty_package"
      "The roadmap package does not contain any supported files." none]
  else withManifest tables (if issues.isEmpty then files else []) issues

/-! ## Archives -/

/-- A member as `zipfile` lists it; `content` is what reading it gives, `none`
where that raises. -/
structure ZipInfo where
  filename : PyString
  externalAttr : Nat
  flagBits : Nat
  fileSize : Nat
  compressSize : Nat
  content : Option Bytes

/-- `stat.S_ISLNK(info.external_attr >> 16)` -/
def ZipInfo.isSymlink (info : ZipInfo) : Bool :=
  info.externalAttr / 2 ^ 16 % 2 ^ 16 / 2 ^ 12 == 0xA

/-- `info.flag_bits & 0x1` -/
def ZipInfo.isEncrypted (info : ZipInfo) : Bool := info.flagBits % 2 == 1

def ZipInfo.isDir (info : ZipInfo) : Bool := info.filename.getLast? == some slash

structure ZipScan where
  seen : SeenPaths
  issues : List ValidationIssue
  totalSize : Nat
  candidates : List (ZipInfo × PyString)

def ZipScan.withIssue (scan : ZipScan) (issue : ValidationIssue) : ZipScan :=
  { scan with issues := scan.issues ++ [issue] }

def ZipScan.withMember (scan : ZipScan) (limits : PackageLimits) (info : ZipInfo)
    (normalized : PyString) (seen : SeenPaths) : ZipScan :=
  let large := if limits.maxMemberBytes < info.fileSize then
      [packageIssue "member_too_large" "File exceeds the per-file size limit." (some normalized)]
    else []
  let suspicious := if info.fileSize ≠ 0 ∧ (info.compressSize = 0 ∨
        info.compressSize * limits.maxCompressionRatio < info.fileSize) then
      [packageIssue "suspicious_compression_ratio"
        "ZIP member has a suspicious compression ratio." (some normalized)]
    else []
  ⟨seen, scan.issues ++ large ++ suspicious, scan.totalSize + info.fileSize,
    scan.candidates ++ [(info, normalized)]⟩

def ZipScan.allIssues (scan : ZipScan) (limits : PackageLimits) : List ValidationIssue :=
  scan.issues ++
    if limits.maxTotalUncompressedBytes < scan.totalSize then
      [packageIssue "total_size_too_large" "Package exceeds the total file size limit." none]
    else []

def scanMember (tables : TextTables) (limits : PackageLimits) (scan : ZipScan) (info : ZipInfo) :
    Except PackageError ZipScan :=
  if info.isSymlink then
    .ok (scan.withIssue (packageIssue "symlink_member" "Symbolic links are not allowed."
      (some info.filename)))
  else if info.isEncrypted then
    .ok (scan.withIssue (packageIssue "encrypted_member" "Encrypted ZIP members are not allowed."
      (some info.filename)))
  else if info.isDir then .ok scan
  else
    match normalizePath tables limits info.filename with
    | .error .unicodeEncodeError => .error .unicodeEncodeError
    | .error (.refused issue) => .ok (scan.withIssue issue)
    | .ok normalized =>
      match pathCollisionIssue tables normalized scan.seen with
      | .error issue => .ok (scan.withIssue issue)
      | .ok seen => .ok (scan.withMember limits info normalized seen)

def readMember (limits : PackageLimits) (info : ZipInfo) (normalized : PyString) :
    Except ValidationIssue Bytes :=
  match info.content with
  | none => .error (packageIssue "invalid_zip_member" "ZIP member could not be read safely."
      (some normalized))
  | some content =>
    if limits.maxMemberBytes < content.length ∨ info.fileSize < content.length then
      .error (packageIssue "invalid_zip_member" "ZIP member could not be read safely."
        (some normalized))
    else if content.length ≠ info.fileSize then
      .error (packageIssue "invalid_zip_member" "ZIP member size did not match metadata."
        (some normalized))
    else .ok content

def readMembers (tables : TextTables) (limits : PackageLimits) (files : List ManifestFile) :
    List (ZipInfo × PyString) → Except PackageError (List ManifestFile × List ValidationIssue)
  | [] => .ok (files, [])
  | (info, normalized) :: rest =>
    match readMember limits info normalized with
    | .error issue => .ok (files, [issue])
    | .ok content => do
        let file ← manifestFile tables normalized content.length (Models.sha256 content)
        readMembers tables limits (files ++ [file]) rest

/-- `inspect_zip_stream` on the whole upload; `infos` is what `zipfile` lists,
`none` for a `BadZipFile`. -/
def inspectZipStream (tables : TextTables) (limits : PackageLimits) (archive : Bytes)
    (infos : Option (List ZipInfo)) : Except PackageError PackageInspection :=
  if limits.maxArchiveBytes < archive.length then
    inspectionResult tables []
      [packageIssue "archive_too_large" "ZIP archive exceeds the upload size limit." none]
  else
    match zipDirectoryIssue archive limits, infos with
    | .error .outOfBounds, _ => .error .structError
    | .ok ⟨some issue, _⟩, _ => inspectionResult tables [] [issue]
    | .ok ⟨none, _⟩, none =>
      inspectionResult tables []
        [packageIssue "invalid_zip" "The uploaded file is not a valid ZIP archive." none]
    | .ok ⟨none, _⟩, some infos => do
        let many := if limits.maxMembers < infos.length then [tooManyMembers] else []
        let scan ← (infos.take (limits.maxMembers + 1)).foldlM (scanMember tables limits)
          ⟨⟨[], []⟩, many, 0, []⟩
        if (scan.allIssues limits).isEmpty then do
          let (files, more) ← readMembers tables limits [] scan.candidates
          inspectionResult tables files more
        else inspectionResult tables [] (scan.allIssues limits)

/-! ## Browser folders -/

structure BrowserFolderEntry where
  path : PyString
  chunks : List Bytes
  isSymlink : Bool

structure ChunkRead where
  content : Bytes
  memberSize : Nat
  totalSize : Nat
  memberTooLarge : Bool
  totalTooLarge : Bool

def readChunks (limits : PackageLimits) (read : ChunkRead) : List Bytes → ChunkRead
  | [] => read
  | chunk :: rest =>
    if chunk.isEmpty then readChunks limits read rest
    else
      let memberSize := read.memberSize + chunk.length
      let totalSize := read.totalSize + chunk.length
      let memberTooLarge := decide (limits.maxMemberBytes < memberSize)
      let totalTooLarge := decide (limits.maxTotalUncompressedBytes < totalSize)
      if memberTooLarge || totalTooLarge then
        ⟨read.content, memberSize, totalSize, memberTooLarge, totalTooLarge⟩
      else readChunks limits ⟨read.content ++ chunk, memberSize, totalSize, false, false⟩ rest

structure FolderScan where
  seen : SeenPaths
  issues : List ValidationIssue
  files : List ManifestFile
  totalSize : Nat
  memberCount : Nat

def FolderScan.withIssue (scan : FolderScan) (issue : ValidationIssue) : FolderScan :=
  { scan with issues := scan.issues ++ [issue] }

def scanEntry (tables : TextTables) (limits : PackageLimits) (scan : FolderScan)
    (entry : BrowserFolderEntry) : Except PackageError FolderScan :=
  match normalizePath tables limits entry.path with
  | .error .unicodeEncodeError => .error .unicodeEncodeError
  | .error (.refused issue) => .ok (scan.withIssue issue)
  | .ok normalized =>
    match pathCollisionIssue tables normalized scan.seen with
    | .error issue => .ok (scan.withIssue issue)
    | .ok seen =>
      let scan := { scan with seen := seen }
      if entry.isSymlink then
        .ok (scan.withIssue (packageIssue "symlink_member" "Symbolic links are not allowed."
          (some normalized)))
      else
        let read := readChunks limits ⟨[], 0, scan.totalSize, false, false⟩ entry.chunks
        let large := if read.memberTooLarge then
            [packageIssue "member_too_large" "File exceeds the per-file size limit."
              (some normalized)]
          else []
        let total := if read.totalTooLarge then
            [packageIssue "total_size_too_large" "Package exceeds the total file size limit."
              none]
          else []
        let scan := { scan with
          issues := scan.issues ++ large ++ total, totalSize := read.totalSize }
        if read.memberTooLarge || read.totalTooLarge then .ok scan
        else do
          let file ← manifestFile tables normalized read.memberSize (Models.sha256 read.content)
          .ok { scan with files := scan.files ++ [file] }

/-- The loop of `inspect_browser_folder`: one entry past the limit is still
inspected, the next one ends it. -/
def scanEntries (tables : TextTables) (limits : PackageLimits) (scan : FolderScan) :
    List BrowserFolderEntry → Except PackageError FolderScan
  | [] => .ok scan
  | entry :: rest => do
      let scan := { scan with memberCount := scan.memberCount + 1 }
      let many := limits.maxMembers < scan.memberCount
      let scan := if many then
          scan.withIssue
            (packageIssue "too_many_members" "Folder contains too many files." none)
        else scan
      if limits.maxMembers + 1 < scan.memberCount then .ok scan
      else
        let scan ← scanEntry tables limits scan entry
        scanEntries tables limits scan rest

def inspectBrowserFolder (tables : TextTables) (limits : PackageLimits)
    (entries : List BrowserFolderEntry) : Except PackageError PackageInspection := do
  let scan ← scanEntries tables limits ⟨⟨[], []⟩, [], [], 0, 0⟩ entries
  inspectionResult tables scan.files scan.issues

end TamForge.Roadmaps
