import Mathlib.Data.List.TakeWhile
import TamForge.Cards.Importing

/-!
# Reference documents

`parse_reference_entries` of `interviews/reference.py` against the sections of its
document.  The rule for the title looks at what was parsed so far, so every heading
of level 1 before the first other heading is skipped, with the text below it.
-/

namespace TamForge.Interviews

open Cards (cut dropLetters splitLines)
open Models
open Today (rstrip strip)

def maxEntries : Nat := 500

/-- `HEADING` of a line: its level, and its second group stripped. -/
def heading? (line : String) : Option (Nat × String) :=
  let level := (line.toList.takeWhile (· == '#')).length
  let rest := line.toList.drop level
  let text := rest.dropWhile isSpace
  let trimmed (text : List Char) : List Char := (rstrip (String.ofList text)).toList
  if level = 0 ∨ 6 < level ∨ text.length = rest.length then none
  else if text = [] then
    -- the group takes the last of the white space, if some is left without it
    if rest.length < 2 then none else some (level, "")
  else
    let title := trimmed ((trimmed text).reverse.dropWhile (· == '#')).reverse
    some (level, if title = [] then "#" else String.ofList title)

/-- `\s*\**\s*(.+?)\s*$`: its group stripped, which white space or a star may be
left for. -/
def label? (text : List Char) : Option String :=
  let stars := text.dropWhile isSpace
  let behind := stars.dropWhile (· == '*')
  let label := behind.dropWhile isSpace
  if label ≠ [] then some (strip (String.ofList label))
  else if behind ≠ [] then some ""
  else if stars ≠ [] then some "*"
  else if text ≠ [] then some "" else none

/-- `READINESS` of a line: its group stripped. -/
def readiness? (line : String) : Option String :=
  let text := line.toList.dropWhile isSpace
  let text := match text with
    | '-' :: rest | '*' :: rest => rest.dropWhile isSpace
    | _ => text
  let words := ["readiness", "status", "confidence"].map String.toList
  match words.findSome? fun word => dropLetters word (text.dropWhile (· == '*')) with
  | none => none
  | some rest =>
    match (rest.dropWhile (· == '*')).dropWhile isSpace with
    | ':' :: rest => label? rest
    | _ => none

example : heading? "## Second ##" = some (2, "Second") ∧ heading? "#x" = none ∧
    readiness? "- **Status:** ready " = some "ready" ∧ readiness? "status: " = some "" := by
  decide

structure ReferenceEntry where
  heading : String
  body : String
  readinessLabel : String

/-- The variables of the loop over the lines. -/
structure Parsing where
  entries : List ReferenceEntry
  heading : Option String
  body : List String
  readiness : String

def Parsing.close (parsing : Parsing) : Parsing :=
  let text := strip ("\n".intercalate parsing.body)
  let entries := match parsing.heading with
    | some heading =>
      if (parsing.body ≠ [] ∨ parsing.readiness ≠ "") ∧ parsing.entries.length < maxEntries ∧
          (text ≠ "" ∨ parsing.readiness ≠ "") then
        parsing.entries ++ [⟨cut 512 heading, cut 65536 text, cut 128 parsing.readiness⟩]
      else parsing.entries
    | none => parsing.entries
  ⟨entries, none, [], ""⟩

def Parsing.line (parsing : Parsing) (raw : String) : Parsing :=
  match heading? raw with
  | some (level, text) =>
    if parsing.heading = none ∧ parsing.entries = [] ∧ level = 1 ∧ parsing.body = [] then parsing
    else { parsing.close with heading := some text }
  | none =>
    match parsing.heading, readiness? raw with
    | some _, some label => { parsing with readiness := label }
    | some _, none => { parsing with body := parsing.body ++ [rstrip raw] }
    | none, _ => parsing

def parseReferenceEntries (markdown : List Char) : List ReferenceEntry :=
  ((splitLines markdown).foldl Parsing.line ⟨[], none, [], ""⟩).close.entries

/-! ## Sections -/

/-- A heading with the lines below it, up to the next heading. -/
structure Section where
  level : Nat
  heading : String
  lines : List String

/-- The lines before the first heading, and the sections. -/
def sections : List String → List String × List Section
  | [] => ([], [])
  | raw :: rest =>
    match heading? raw with
    | some (level, heading) => ([], ⟨level, heading, (sections rest).1⟩ :: (sections rest).2)
    | none => (raw :: (sections rest).1, (sections rest).2)

namespace Section

def labels (section_ : Section) : List String := section_.lines.filterMap readiness?

def plain (section_ : Section) : List String :=
  section_.lines.filter fun line => (readiness? line).isNone

/-- The lines that are not about readiness, without the white space behind them. -/
def text (section_ : Section) : String := "\n".intercalate (section_.plain.map rstrip)

def Nonblank (section_ : Section) : Prop := ∃ line ∈ section_.lines, isBlank line = false

instance (section_ : Section) : Decidable section_.Nonblank := by
  unfold Nonblank
  infer_instance

/-- The entry takes over the heading, all the text but the white space around it,
and the label of the readiness line. -/
structure KeptBy (section_ : Section) (entry : ReferenceEntry) : Prop where
  heading : entry.heading = section_.heading
  body : ∃ before behind : List Char, before.all isSpace = true ∧ behind.all isSpace = true ∧
    section_.text.toList = before ++ entry.body.toList ++ behind
  label : section_.labels = if entry.readinessLabel = "" then [] else [entry.readinessLabel]

structure InBounds (section_ : Section) : Prop where
  heading : section_.heading.length ≤ 512
  body : (strip section_.text).length ≤ 65536
  label : ∀ label ∈ section_.labels, label.length ≤ 128
  labels : section_.labels.length ≤ 1

end Section

/-- The sections of all headings but the title of the document. -/
def belowTitle : List Section → List Section
  | [] => []
  | first :: rest => if first.level = 1 then rest else first :: rest

def KeepsSections (markdown : List Char) : Prop :=
  List.Forall₂ Section.KeptBy
    ((belowTitle (sections (splitLines markdown)).2).filter fun section_ => section_.Nonblank)
    (parseReferenceEntries markdown)

/-- The headings of level 1 before the first other heading. -/
def leading (list : List Section) : List Section :=
  list.takeWhile fun section_ => section_.level = 1

def unskipped (list : List Section) : List Section :=
  list.dropWhile fun section_ => section_.level = 1

/-- No text is skipped with a heading behind the title, and no readiness line has an
empty label. -/
def Clean (markdown : List Char) : Prop :=
  (∀ section_ ∈ (leading (sections (splitLines markdown)).2).tail, ¬section_.Nonblank) ∧
    ∀ section_ ∈ unskipped (sections (splitLines markdown)).2,
      ∀ line ∈ section_.lines, readiness? line ≠ some ""

/-! ## Parsing by sections -/

variable {section_ : Section} {parsing : Parsing} {entry : ReferenceEntry} {list : List Section}

namespace Section

def readiness (section_ : Section) : String := section_.labels.getLast?.getD ""

/-- What closing the section adds. -/
def entry? (section_ : Section) : Option ReferenceEntry :=
  if strip section_.text ≠ "" ∨ section_.readiness ≠ "" then
    some ⟨cut 512 section_.heading, cut 65536 (strip section_.text), cut 128 section_.readiness⟩
  else none

end Section

/-- The section is what was read since the last heading. -/
structure Reads (parsing : Parsing) (section_ : Section) : Prop where
  heading : parsing.heading = some section_.heading
  body : parsing.body = section_.plain.map rstrip
  readiness : parsing.readiness = section_.readiness

theorem close_reads (h : Reads parsing section_) (hcnt : parsing.entries.length < maxEntries) :
    parsing.close = ⟨parsing.entries ++ section_.entry?.toList, none, [], ""⟩ := by
  have hbody : strip section_.text ≠ "" → parsing.body ≠ [] := by
    intro htext hnone
    rw [h.body] at hnone
    exact htext (by rw [Section.text, hnone]; decide)
  simp only [Parsing.close, h.heading, h.readiness, hcnt, true_and]
  rw [show "\n".intercalate parsing.body = section_.text by rw [h.body]; rfl]
  by_cases hkept : strip section_.text ≠ "" ∨ section_.readiness ≠ ""
  · have hread : parsing.body ≠ [] ∨ section_.readiness ≠ "" := hkept.imp hbody id
    simp only [Section.entry?, hread, hkept, true_and, if_true, Option.toList]
  · rw [if_neg fun hread => hkept hread.2]
    simp only [Section.entry?, if_neg hkept, Option.toList, List.append_nil]

theorem Reads.line {raw : String} (h : Reads parsing section_) (hraw : heading? raw = none) :
    Reads (parsing.line raw) { section_ with lines := section_.lines ++ [raw] } ∧
      (parsing.line raw).entries = parsing.entries := by
  cases hlab : readiness? raw with
  | some label =>
    have hline : parsing.line raw = { parsing with readiness := label } := by
      simp [Parsing.line, hraw, h.heading, hlab]
    rw [hline]
    refine ⟨⟨h.heading, ?_, ?_⟩, rfl⟩
    · simpa [Section.plain, hlab] using h.body
    · simp [Section.readiness, Section.labels, hlab]
  | none =>
    have hline : parsing.line raw = { parsing with body := parsing.body ++ [rstrip raw] } := by
      simp [Parsing.line, hraw, h.heading, hlab]
    rw [hline]
    refine ⟨⟨h.heading, ?_, ?_⟩, rfl⟩
    · simp [Section.plain, hlab, h.body]
    · simpa [Section.readiness, Section.labels, hlab] using h.readiness

theorem foldl_reads (lines : List String) (h : Reads parsing section_)
    (hcnt : parsing.entries.length + (sections lines).2.length < maxEntries) :
    (lines.foldl Parsing.line parsing).close.entries = parsing.entries ++
      ({ section_ with lines := section_.lines ++ (sections lines).1 } ::
        (sections lines).2).filterMap Section.entry? := by
  induction lines generalizing parsing section_ with
  | nil =>
    rw [List.foldl_nil, close_reads h hcnt]
    simp [sections, List.filterMap_cons]
    cases section_.entry? <;> rfl
  | cons raw rest ih =>
    rw [List.foldl_cons]
    cases hraw : heading? raw with
    | none =>
      obtain ⟨hnext, hentries⟩ := h.line hraw
      simp only [sections, hraw] at hcnt ⊢
      rw [ih hnext (by rw [hentries]; exact hcnt), hentries]
      simp [List.append_assoc]
    | some found =>
      obtain ⟨level, heading⟩ := found
      simp only [sections, hraw, List.length_cons] at hcnt ⊢
      have hclose := close_reads h (by omega)
      have hline : parsing.line raw =
          ⟨parsing.entries ++ section_.entry?.toList, some heading, [], ""⟩ := by
        simp [Parsing.line, hraw, h.heading, hclose]
      have hnext : Reads (parsing.line raw) ⟨level, heading, []⟩ := by
        rw [hline]
        exact ⟨rfl, rfl, rfl⟩
      have hlen : section_.entry?.toList.length ≤ 1 := by
        cases section_.entry? <;> simp
      rw [ih hnext (by rw [hline, List.length_append]; omega), hline]
      cases hent : section_.entry? <;> simp [hent, List.filterMap_cons]

theorem foldl_leading (lines : List String) (hcnt : (sections lines).2.length ≤ maxEntries) :
    (lines.foldl Parsing.line ⟨[], none, [], ""⟩).close.entries =
      (unskipped (sections lines).2).filterMap Section.entry? := by
  induction lines with
  | nil => rfl
  | cons raw rest ih =>
    rw [List.foldl_cons]
    cases hraw : heading? raw with
    | none =>
      simp only [sections, hraw] at hcnt ⊢
      have hline : Parsing.line ⟨[], none, [], ""⟩ raw = ⟨[], none, [], ""⟩ := by
        simp [Parsing.line, hraw]
      rw [hline, ih hcnt]
    | some found =>
      obtain ⟨level, heading⟩ := found
      simp only [sections, hraw, List.length_cons] at hcnt ⊢
      by_cases hlevel : level = 1
      · have hline : Parsing.line ⟨[], none, [], ""⟩ raw = ⟨[], none, [], ""⟩ := by
          simp [Parsing.line, hraw, hlevel]
        rw [hline, ih (by omega)]
        simp [unskipped, hlevel]
      · have hline : Parsing.line ⟨[], none, [], ""⟩ raw = ⟨[], some heading, [], ""⟩ := by
          simp [Parsing.line, hraw, hlevel, Parsing.close]
        have hreads : Reads ⟨[], some heading, [], ""⟩ ⟨level, heading, []⟩ := ⟨rfl, rfl, rfl⟩
        rw [hline, foldl_reads rest hreads (by rw [List.length_nil]; omega)]
        simp [unskipped, hlevel]

/-! ## What an entry takes over -/

theorem strip_parts (text : String) : ∃ before behind : List Char, before.all isSpace = true ∧
    behind.all isSpace = true ∧ text.toList = before ++ (strip text).toList ++ behind := by
  refine ⟨text.toList.takeWhile isSpace,
    ((text.toList.dropWhile isSpace).reverse.takeWhile isSpace).reverse, List.all_takeWhile, ?_, ?_⟩
  · rw [List.all_reverse]
    exact List.all_takeWhile
  · rw [strip, rstrip, String.toList_ofList, String.toList_ofList, List.append_assoc,
      ← List.reverse_append, List.takeWhile_append_dropWhile, List.reverse_reverse,
      List.takeWhile_append_dropWhile]

theorem strip_eq_empty_iff (text : String) : strip text = "" ↔ isBlank text = true := by
  obtain ⟨before, behind, hb, hbehind, htext⟩ := strip_parts text
  constructor
  · intro hnil
    simp [isBlank, htext, hnil, hb, hbehind]
  · intro hblank
    have hdrop : text.toList.dropWhile isSpace = [] :=
      List.dropWhile_eq_nil_iff.mpr (List.all_eq_true.mp hblank)
    simp [strip, rstrip, hdrop]

theorem isBlank_rstrip (line : String) : isBlank (rstrip line) = isBlank line := by
  have hspl := List.takeWhile_append_dropWhile (p := isSpace) (l := line.toList.reverse)
  rw [isBlank, isBlank, ← List.all_reverse (l := line.toList), ← hspl, List.all_append,
    List.all_takeWhile, rstrip, String.toList_ofList, List.all_reverse, Bool.true_and]

theorem isBlank_intercalate (lines : List String) :
    isBlank ("\n".intercalate lines) = lines.all isBlank := by
  induction lines with
  | nil => decide
  | cons first rest ih =>
    cases rest with
    | nil => simp [String.intercalate_singleton]
    | cons second rest =>
      rw [String.intercalate_cons_cons, List.all_cons, ← ih]
      have hbreak : "\n".toList.all isSpace = true := by decide
      simp only [isBlank, String.toList_append, List.all_append, hbreak, Bool.and_true]

theorem readiness?_blank {line : String} (h : isBlank line = true) : readiness? line = none := by
  have hdrop : line.toList.dropWhile isSpace = [] :=
    List.dropWhile_eq_nil_iff.mpr (List.all_eq_true.mp h)
  simp only [readiness?, hdrop]
  decide

theorem text_blank_iff : strip section_.text = "" ↔ ∀ line ∈ section_.plain, isBlank line = true := by
  rw [strip_eq_empty_iff, Section.text, isBlank_intercalate, List.all_map, List.all_eq_true]
  simp only [Function.comp, isBlank_rstrip]

theorem labels_of_blank (h : ¬section_.Nonblank) : section_.labels = [] := by
  refine List.filterMap_eq_nil_iff.mpr fun line hline => readiness?_blank ?_
  by_contra hne
  exact h ⟨line, hline, by simpa using hne⟩

theorem entry?_of_blank (h : ¬section_.Nonblank) : section_.entry? = none := by
  have htext : strip section_.text = "" := by
    refine text_blank_iff.mpr fun line hline => ?_
    by_contra hne
    exact h ⟨line, List.mem_of_mem_filter hline, by simpa using hne⟩
  simp [Section.entry?, Section.readiness, htext, labels_of_blank h]

theorem cut_of_le {length : Nat} {text : String} (h : text.length ≤ length) :
    cut length text = text := by
  rw [cut, List.take_of_length_le (by rwa [String.length_toList]), String.ofList_toList]

theorem keptBy_entry? (hbd : section_.InBounds) (hnonblank : section_.Nonblank)
    (hlabels : "" ∉ section_.labels) :
    ∃ entry, section_.entry? = some entry ∧ section_.KeptBy entry := by
  have hlab : section_.labels =
      if section_.readiness = "" then [] else [section_.readiness] := by
    have hone := hbd.labels
    cases hlist : section_.labels with
    | nil => simp [Section.readiness, hlist]
    | cons first rest =>
      rw [hlist] at hone hlabels
      obtain rfl : rest = [] := List.eq_nil_of_length_eq_zero (by simpa using hone)
      have hne : first ≠ "" := fun h => hlabels (by simp [h])
      simp [Section.readiness, hlist, hne]
  have hshort : section_.readiness.length ≤ 128 := by
    by_cases hnil : section_.readiness = ""
    · simp [hnil]
    · exact hbd.label _ (by rw [hlab, if_neg hnil]; exact List.mem_singleton_self _)
  have hkept : strip section_.text ≠ "" ∨ section_.readiness ≠ "" := by
    by_contra hneither
    obtain ⟨htext, hreadiness⟩ := not_or.mp hneither
    obtain ⟨line, hline, hne⟩ := hnonblank
    rw [if_pos (not_not.mp hreadiness), Section.labels, List.filterMap_eq_nil_iff] at hlab
    have hplain : line ∈ section_.plain :=
      List.mem_filter.mpr ⟨hline, by rw [hlab line hline]; rfl⟩
    rw [text_blank_iff.mp (not_not.mp htext) line hplain] at hne
    cases hne
  refine ⟨_, if_pos hkept, ?_⟩
  rw [cut_of_le hbd.heading, cut_of_le hbd.body, cut_of_le hshort]
  exact ⟨rfl, strip_parts _, hlab⟩

/-! ## The whole document -/

theorem parseReferenceEntries_eq {markdown : List Char}
    (hcnt : (sections (splitLines markdown)).2.length ≤ maxEntries) :
    parseReferenceEntries markdown =
      (unskipped (sections (splitLines markdown)).2).filterMap Section.entry? :=
  foldl_leading _ hcnt

theorem belowTitle_eq (list : List Section) :
    belowTitle list = (leading list).tail ++ unskipped list := by
  cases list with
  | nil => rfl
  | cons first rest =>
    by_cases hlevel : first.level = 1
    · simp [belowTitle, leading, unskipped, hlevel]
    · simp [belowTitle, leading, unskipped, hlevel]

theorem length_entries_le (list : List Section) :
    (list.filterMap Section.entry?).length ≤
      (list.filter fun section_ => section_.Nonblank).length := by
  induction list with
  | nil => exact Nat.le_refl _
  | cons first rest ih =>
    by_cases hblank : first.Nonblank
    · rw [List.filter_cons_of_pos (by simpa using hblank), List.filterMap_cons]
      cases first.entry? with
      | none => exact Nat.le_succ_of_le ih
      | some entry => exact Nat.succ_le_succ ih
    · rw [List.filter_cons_of_neg (by simpa using hblank), List.filterMap_cons,
        entry?_of_blank hblank]
      exact ih

theorem forall₂_keptBy_iff (hbd : ∀ section_ ∈ list, section_.InBounds) :
    List.Forall₂ Section.KeptBy (list.filter fun section_ => section_.Nonblank)
        (list.filterMap Section.entry?) ↔ ∀ section_ ∈ list, "" ∉ section_.labels := by
  induction list with
  | nil => simp
  | cons first rest ih =>
    have hrest := ih fun section_ hmem => hbd section_ (List.mem_cons_of_mem _ hmem)
    rw [List.forall_mem_cons, List.filterMap_cons]
    by_cases hblank : first.Nonblank
    · rw [List.filter_cons_of_pos (by simpa using hblank)]
      cases hent : first.entry? with
      | none =>
        refine iff_of_false (fun hkept => ?_) fun hclean => ?_
        · have hle := length_entries_le rest
          have hlen := hkept.length_eq
          rw [List.length_cons] at hlen
          simp only at hlen
          omega
        · obtain ⟨entry, hsome, -⟩ :=
            keptBy_entry? (hbd first (List.mem_cons_self ..)) hblank hclean.1
          rw [hent] at hsome
          cases hsome
      | some entry =>
        simp only [List.forall₂_cons, hrest]
        refine and_congr_left fun _ => ⟨fun hkept => ?_, fun hclean => ?_⟩
        · rw [hkept.label]
          split
          · exact List.not_mem_nil
          · rename_i hne
            simpa using Ne.symm hne
        · obtain ⟨same, hsame, hkept⟩ :=
            keptBy_entry? (hbd first (List.mem_cons_self ..)) hblank hclean
          obtain rfl := Option.some.inj (hent.symm.trans hsame)
          exact hkept
    · rw [List.filter_cons_of_neg (by simpa using hblank), entry?_of_blank hblank]
      simp only [hrest, labels_of_blank hblank, List.not_mem_nil, not_false_eq_true, true_and]

/-- Every section below the title is taken over exactly when none is skipped with
the title and every readiness line has a label. -/
theorem keepsSections_iff (markdown : List Char)
    (hcount : (sections (splitLines markdown)).2.length ≤ maxEntries)
    (hbounds : ∀ section_ ∈ (sections (splitLines markdown)).2, section_.InBounds) :
    KeepsSections markdown ↔ Clean markdown := by
  have hunskipped := @forall₂_keptBy_iff (unskipped (sections (splitLines markdown)).2)
    fun section_ hmem => hbounds section_ ((List.dropWhile_sublist _).subset hmem)
  have hlabels : (∀ section_ ∈ unskipped (sections (splitLines markdown)).2,
      "" ∉ section_.labels) ↔ ∀ section_ ∈ unskipped (sections (splitLines markdown)).2,
      ∀ line ∈ section_.lines, readiness? line ≠ some "" := by
    simp [Section.labels]
  rw [KeepsSections, parseReferenceEntries_eq hcount, belowTitle_eq, List.filter_append, Clean,
    ← hlabels, ← hunskipped]
  have hempty : (∀ section_ ∈ (leading (sections (splitLines markdown)).2).tail,
      ¬section_.Nonblank) ↔ (leading (sections (splitLines markdown)).2).tail.filter
      (fun section_ => section_.Nonblank) = [] := by
    simp [List.filter_eq_nil_iff]
  rw [hempty]
  constructor
  · intro hkept
    have hlen := hkept.length_eq
    have hle := length_entries_le (unskipped (sections (splitLines markdown)).2)
    rw [List.length_append] at hlen
    have hnone := List.eq_nil_of_length_eq_zero (l := (leading (sections
      (splitLines markdown)).2).tail.filter fun section_ => section_.Nonblank) (by omega)
    rw [hnone] at hkept
    exact ⟨hnone, hkept⟩
  · rintro ⟨hnone, hkept⟩
    rw [hnone]
    exact hkept

def sampleAnswers : List Char := "# Answers\n## First\nStatus: ready\nI led the team.".toList

theorem keepsSections_sample : KeepsSections sampleAnswers := by
  have hsections : (sections (splitLines sampleAnswers)).2 =
      [⟨1, "Answers", []⟩, ⟨2, "First", ["Status: ready", "I led the team."]⟩] := by rfl
  refine (keepsSections_iff sampleAnswers (by decide +kernel) ?_).mpr
    (by unfold Clean; decide +kernel)
  simp only [hsections, List.forall_mem_cons, List.not_mem_nil, false_implies, implies_true,
    and_true]
  exact ⟨⟨by decide, by decide +kernel, by decide +kernel, by decide +kernel⟩,
    ⟨by decide, by decide +kernel, by decide +kernel, by decide +kernel⟩⟩

def secondTitle : List Char := "# Answers\n# First\nI led the team.".toList

/-- A second heading of level 1 right below the title is skipped with its text. -/
theorem second_title_skipped :
    (sections (splitLines secondTitle)).2 =
        [⟨1, "Answers", []⟩, ⟨1, "First", ["I led the team."]⟩] ∧
      (∀ section_ ∈ (sections (splitLines secondTitle)).2, section_.InBounds) ∧
      parseReferenceEntries secondTitle = [] ∧ ¬KeepsSections secondTitle := by
  have hsections : (sections (splitLines secondTitle)).2 =
      [⟨1, "Answers", []⟩, ⟨1, "First", ["I led the team."]⟩] := by rfl
  have hnone : parseReferenceEntries secondTitle = [] := by rfl
  refine ⟨hsections, ?_, hnone, ?_⟩
  · simp only [hsections, List.forall_mem_cons, List.not_mem_nil, false_implies, implies_true,
      and_true]
    exact ⟨⟨by decide, by decide +kernel, by decide +kernel, by decide +kernel⟩,
      ⟨by decide, by decide +kernel, by decide +kernel, by decide +kernel⟩⟩
  · rw [KeepsSections, hsections, hnone]
    intro hkept
    have hlen := hkept.length_eq
    revert hlen
    decide +kernel

end TamForge.Interviews
