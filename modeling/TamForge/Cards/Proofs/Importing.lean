import Mathlib.Tactic.Ring
import TamForge.Cards.Proofs.Blocks

/-!
# What an import keeps

Every pair of a note has a question and an answer, so its command is accepted by
the model; the table takes it unless a text that is cut by characters is too long
in octets.  A line is lost only where a later answer line of its block replaces it.
-/

namespace TamForge.Cards

open Models ProofSupport
open Notes (CardCommand NoteFlashcardItem noteCardCommands)
open Today (strip rstrip)

/-! ## Trimmed texts -/

def Trimmed (text : List Char) : Prop :=
  (∀ c ∈ text.head?, isSpace c = false) ∧ ∀ c ∈ text.getLast?, isSpace c = false

theorem Trimmed.reverse {text : List Char} (h : Trimmed text) : Trimmed text.reverse := by
  refine ⟨?_, ?_⟩
  · rw [List.head?_reverse]
    exact h.2
  · rw [List.getLast?_reverse]
    exact h.1

theorem toList_strip (text : String) : (strip text).toList =
    ((text.toList.dropWhile isSpace).reverse.dropWhile isSpace).reverse := by
  simp [strip, rstrip]

theorem head?_dropWhile_isSpace (text : List Char) :
    ∀ c ∈ (text.dropWhile isSpace).head?, isSpace c = false := by
  intro c hc
  have hnot := List.head?_dropWhile_not isSpace text
  rw [hc] at hnot
  exact hnot

theorem trimmed_strip (text : String) : Trimmed (strip text).toList := by
  rw [toList_strip]
  refine ⟨?_, ?_⟩
  · intro c hc
    -- What is dropped at the end leaves the first character where it is.
    have hprefix : ((text.toList.dropWhile isSpace).reverse.dropWhile isSpace).reverse <+:
        text.toList.dropWhile isSpace := by
      rw [← List.reverse_reverse (text.toList.dropWhile isSpace), List.reverse_prefix,
        List.reverse_reverse]
      exact List.dropWhile_suffix _
    obtain ⟨dropped, hdrop⟩ := hprefix
    apply head?_dropWhile_isSpace text.toList c
    rw [← hdrop, List.head?_append, hc]
    rfl
  · rw [List.getLast?_reverse]
    exact head?_dropWhile_isSpace _

variable {part : List Char}

theorem infix_dropWhile {text : List Char} (hpart : Trimmed part) (h : part <:+: text) :
    part <:+: text.dropWhile isSpace := by
  obtain ⟨before, behind, rfl⟩ := h
  cases part with
  | nil => exact List.nil_infix
  | cons c rest =>
    have hc : isSpace c = false := hpart.1 c rfl
    induction before with
    | nil =>
      refine ⟨[], behind, ?_⟩
      simp [List.dropWhile_cons_of_neg, hc]
    | cons other before ih =>
      by_cases ho : isSpace other = true
      · simpa [List.dropWhile_cons_of_pos, ho] using ih
      · refine ⟨other :: before, behind, ?_⟩
        simp [List.dropWhile_cons_of_neg, ho]

theorem infix_strip {text : String} (hpart : Trimmed part) (h : part <:+: text.toList) :
    part <:+: (strip text).toList := by
  have hfst := infix_dropWhile hpart h
  rw [← List.reverse_infix] at hfst
  have hsec := infix_dropWhile hpart.reverse hfst
  rw [toList_strip, ← List.reverse_infix, List.reverse_reverse]
  exact hsec

theorem infix_intercalate {text : String} {texts : List String} (h : text ∈ texts) :
    text.toList <:+: (" ".intercalate texts).toList := by
  induction texts with
  | nil => cases h
  | cons first rest ih =>
    cases rest with
    | nil =>
      have hone : text = first := List.mem_singleton.mp h
      exact String.intercalate_singleton (s := " ") ▸ hone ▸ List.infix_refl _
    | cons second others =>
      rw [String.intercalate_cons_cons, String.toList_append]
      rcases List.mem_cons.mp h with rfl | hrest
      · rw [String.toList_append, List.append_assoc]
        exact List.infix_append' [] _ _
      · exact (ih hrest).trans (List.suffix_append ..).isInfix

/-! ## Lines of blocks -/

def OccursIn (text : String) (pair : String × String) : Prop :=
  text.toList <:+: pair.1.toList ∨ text.toList <:+: pair.2.toList

theorem trimmed_content (raw : String) : Trimmed (classify raw).content.toList := by
  have hnil : Trimmed "".toList := by
    constructor <;> simp
  unfold classify
  simp only
  split
  · exact trimmed_strip _
  · split
    · exact trimmed_strip _
    · split
      · exact hnil
      · exact trimmed_strip _

variable {block lines : List Line} {line : Line}

theorem infix_joined (hline : Trimmed line.content.toList) (h : line ∈ lines) :
    line.content.toList <:+: (joined lines).toList :=
  infix_strip hline (infix_intercalate (List.mem_map_of_mem h))

def completeBlocks (text : List Char) : List (List Line) :=
  (blocks (noteLines text)).filter fun block => (pairOf block).isSome

def InBounds (pair : String × String) : Prop := pair.1.length ≤ 2048 ∧ pair.2.length ≤ 4096

/-- In a note that has opted in, with at most 200 pairs, each line of a complete
block occurs in the pair of the block, if that pair is within the bounds. -/
def KeepsLines (lower : String → String) (text : List Char) : Prop :=
  ∀ note, parseFlashcardNote lower text = some note →
    (completeBlocks text).length ≤ 200 →
      List.Forall₂ (fun block pair => InBounds pair → ∀ line ∈ block, OccursIn line.content pair)
        (completeBlocks text) note.pairs

def OptedIn (lower : String → String) (text : List Char) : Prop :=
  flag lower (Dict.get? (parseFrontMatter lower text) "flashcard-source") = true

/-- Every line that a later answer line of its block replaces stands elsewhere in
the block's question or in its last answer. -/
def RepeatsReplaced (lower : String → String) (text : List Char) : Prop :=
  OptedIn lower text → (completeBlocks text).length ≤ 200 →
    ∀ block ∈ completeBlocks text, InBounds (blockQuestion block, blockAnswer block) →
      ∀ line ∈ replacedLines block,
        OccursIn line.content (blockQuestion block, blockAnswer block)

theorem mem_of_mem_blocks (hblk : block ∈ blocks lines) (hline : line ∈ block) :
    line ∈ lines := by
  induction lines with
  | nil => cases hblk
  | cons first rest ih =>
    cases first with
    | question text =>
      rw [blocks] at hblk
      rcases List.mem_cons.mp hblk with rfl | hrest
      · rcases List.mem_cons.mp hline with rfl | htaken
        · exact List.mem_cons_self
        · exact List.mem_cons_of_mem _ ((List.takeWhile_subset _) htaken)
      · exact List.mem_cons_of_mem _ (ih hrest)
    | answer text => exact List.mem_cons_of_mem _ (ih hblk)
    | blank => exact List.mem_cons_of_mem _ (ih hblk)
    | text content => exact List.mem_cons_of_mem _ (ih hblk)

theorem trimmed_of_mem {text : List Char} (hblk : block ∈ completeBlocks text)
    (hline : line ∈ block) : Trimmed line.content.toList := by
  have hmem := mem_of_mem_blocks (List.mem_filter.mp hblk).1 hline
  obtain ⟨raw, -, rfl⟩ := List.mem_map.mp hmem
  exact trimmed_content raw

theorem pairOf_complete (h : (pairOf block).isSome = true) :
    pairOf block = some (blockQuestion block, blockAnswer block) := by
  unfold pairOf at h ⊢
  split
  · rfl
  · simp_all

theorem filterMap_pairOf (list : List (List Line)) :
    list.filterMap pairOf = (list.filter fun block => (pairOf block).isSome).map fun block =>
      (blockQuestion block, blockAnswer block) := by
  induction list with
  | nil => rfl
  | cons block rest ih =>
    by_cases hpair : (pairOf block).isSome = true
    · rw [List.filterMap_cons_some (pairOf_complete hpair), ih]
      simp [hpair]
    · rw [List.filterMap_cons_none (by simpa using hpair), ih]
      simp [hpair]

variable {lower : String → String} {text : List Char} {note : FlashcardNote}

def textPairs (text : List Char) : List (String × String) :=
  ((blocks (noteLines text)).filterMap pairOf).take maxPairsPerFile

theorem parseFlashcardNote_eq_some (h : parseFlashcardNote lower text = some note) :
    OptedIn lower text ∧ slug note.skillSlug = true ∧ note.pairs = textPairs text := by
  unfold parseFlashcardNote at h
  simp only at h
  split at h
  · cases h
  · rename_i hflag
    obtain rfl := Option.some.inj h
    refine ⟨by simpa [OptedIn] using hflag, ?_, readPairs_eq _⟩
    simp only
    split
    · assumption
    · decide

theorem parseFlashcardNote_isSome (h : OptedIn lower text) :
    ∃ note, parseFlashcardNote lower text = some note := by
  unfold OptedIn at h
  simp [parseFlashcardNote, h]

theorem textPairs_eq_map (h : (completeBlocks text).length ≤ 200) :
    textPairs text =
      (completeBlocks text).map fun block => (blockQuestion block, blockAnswer block) := by
  have hlen : ((completeBlocks text).map fun block =>
      (blockQuestion block, blockAnswer block)).length ≤ maxPairsPerFile := by
    rw [List.length_map]
    exact h
  rw [textPairs, filterMap_pairOf]
  exact List.take_of_length_le hlen

theorem occursIn_of_kept (hline : Trimmed line.content.toList)
    (h : line ∈ questionLines block ∨ line ∈ lastAnswer block) :
    OccursIn line.content (blockQuestion block, blockAnswer block) :=
  h.imp (infix_joined hline) (infix_joined hline)

theorem keepsLines_iff (lower : String → String) (text : List Char) :
    KeepsLines lower text ↔ RepeatsReplaced lower text := by
  constructor
  · intro hkeeps hopted hlen block hblk hbd line hline
    obtain ⟨note, hnote⟩ := parseFlashcardNote_isSome hopted
    have hall := hkeeps note hnote hlen
    rw [(parseFlashcardNote_eq_some hnote).2.2, textPairs_eq_map hlen,
      List.forall₂_map_right_iff, List.forall₂_same] at hall
    exact hall block hblk hbd line (mem_of_mem_replaced hline)
  · intro hrepeats note hnote hlen
    obtain ⟨hopted, -, hpairs⟩ := parseFlashcardNote_eq_some hnote
    rw [hpairs, textPairs_eq_map hlen, List.forall₂_map_right_iff, List.forall₂_same]
    intro block hblk hbd line hline
    have htrimmed := trimmed_of_mem hblk hline
    rcases mem_block hline with hques | hrepl | hans
    · exact occursIn_of_kept htrimmed (Or.inl hques)
    · exact hrepeats hopted hlen block hblk hbd line hrepl
    · exact occursIn_of_kept htrimmed (Or.inr hans)

/-! ## Commands -/

def FitsOctets (pair : String × String) : Prop :=
  (cut 2048 pair.1).utf8ByteSize ≤ 2048 ∧ (cut 4096 pair.2).utf8ByteSize ≤ 4096

theorem length_cut_le (length : Nat) (text : String) : (cut length text).length ≤ length := by
  rw [cut, String.length_ofList]
  exact List.length_take_le ..

variable {length : Nat}

theorem cut_strip {text : String} (hlen : 0 < length) (h : strip text ≠ "") :
    0 < (cut length (strip text)).length ∧ isBtrimBlank (cut length (strip text)) = false := by
  have hne : (strip text).toList ≠ [] := by
    rw [Ne, String.toList_eq_nil_iff]
    exact h
  obtain ⟨c, rest, hcons⟩ := List.exists_cons_of_ne_nil hne
  obtain ⟨n, rfl⟩ : ∃ n, length = n + 1 := ⟨length - 1, by omega⟩
  have hc : isSpace c = false := by
    apply (trimmed_strip text).1 c
    rw [hcons]
    rfl
  have hspace : c ≠ ' ' := by
    rintro rfl
    exact absurd hc (by decide)
  have hcut : (cut (n + 1) (strip text)).toList = c :: rest.take n := by
    rw [cut, hcons, String.toList_ofList, List.take_succ_cons]
  constructor
  · rw [← String.length_toList, hcut]
    exact Nat.succ_pos _
  · rw [isBtrimBlank, hcut, List.all_cons]
    simp [hspace]

variable {command : CardCommand} {question answer : String}

theorem tableAccepts_iff (hques : strip question ≠ "") (hans : strip answer ≠ "")
    (hq : command.question = cut 2048 (strip question))
    (ha : command.answer = cut 4096 (strip answer)) :
    TableAccepts command ↔ FitsOctets (strip question, strip answer) := by
  constructor
  · intro haccepts
    refine ⟨?_, ?_⟩
    · rw [← hq]
      exact haccepts.question_octets
    · rw [← ha]
      exact haccepts.answer_octets
  · intro hfits
    refine ⟨?_, ?_, ?_, ?_⟩
    · rw [hq]
      exact (cut_strip (by decide) hques).2
    · rw [hq]
      exact hfits.1
    · rw [ha]
      exact (cut_strip (by decide) hans).2
    · rw [ha]
      exact hfits.2

theorem validateCommand_ok_iff {res : CardCommand} :
    validateCommand command = .ok res ↔ res = command ∧
      (1 ≤ command.question.length ∧ command.question.length ≤ 2048) ∧
      (1 ≤ command.answer.length ∧ command.answer.length ≤ 4096) ∧
      slug command.skillSlug = true ∧ command.sourceRef.length ≤ 256 := by
  unfold validateCommand
  simp only
  by_cases hques : 1 ≤ command.question.length ∧ command.question.length ≤ 2048
  · by_cases hans : 1 ≤ command.answer.length ∧ command.answer.length ≤ 4096
    · by_cases hskill : slug command.skillSlug = true
      · by_cases hsrc : command.sourceRef.length ≤ 256
        · simp [hques, hans, hskill, hsrc]
          exact eq_comm
        · simp [hsrc]
      · simp [hskill]
    · simp [hans]
  · simp [hques]

theorem strip_ne_of_length {text : String} (h : 1 ≤ (cut length (strip text)).length) :
    strip text ≠ "" := by
  intro hnil
  rw [hnil] at h
  have hle : (cut length "").length ≤ 0 := by simp [cut]
  omega

/-! ## Packages -/

structure IsSource (lower : String → String) (file : String × Bytes) (text : String) : Prop where
  markdown : (lower file.1).endsWith ".md" = true
  decodes : String.fromUTF8? ⟨file.2.toArray⟩ = some text
  opted : OptedIn lower text.toList

variable {file : String × Bytes}

theorem fileNote_eq_some (h : fileNote lower file = some note) :
    ∃ text, IsSource lower file text ∧ slug note.skillSlug = true ∧
      note.pairs = textPairs text.toList := by
  unfold fileNote at h
  split at h
  · rename_i hmarkdown
    split at h
    · cases h
    · rename_i text hdecodes
      obtain ⟨hopted, hslug, hpairs⟩ := parseFlashcardNote_eq_some h
      exact ⟨text, ⟨hmarkdown, hdecodes, hopted⟩, hslug, hpairs⟩
  · cases h

theorem IsSource.fileNote {text : String} (h : IsSource lower file text) :
    ∃ note, fileNote lower file = some note ∧
      slug note.skillSlug = true ∧ note.pairs = textPairs text.toList := by
  obtain ⟨note, hnote⟩ := parseFlashcardNote_isSome h.opted
  obtain ⟨-, hslug, hpairs⟩ := parseFlashcardNote_eq_some hnote
  refine ⟨note, ?_, hslug, hpairs⟩
  rw [Cards.fileNote, if_pos h.markdown, h.decodes]
  exact hnote

variable {pair : String × String}

theorem mem_textPairs (h : pair ∈ textPairs text) :
    ∃ question answer, pair = (strip question, strip answer) ∧ strip question ≠ "" ∧
      strip answer ≠ "" := by
  obtain ⟨block, -, hblk⟩ := List.mem_filterMap.mp (List.mem_of_mem_take h)
  unfold pairOf at hblk
  split at hblk
  · rename_i hboth
    obtain rfl := Option.some.inj hblk
    exact ⟨" ".intercalate ((questionLines block).map Line.content),
      " ".intercalate ((lastAnswer block).map Line.content), rfl, hboth.1, hboth.2⟩
  · exact absurd hblk (Option.some_ne_none pair).symm

theorem validate_pairCommand {skill : String} (path : String) (hpair : pair ∈ textPairs text)
    (hslug : slug skill = true) :
    validateCommand (pairCommand path skill pair) = .ok (pairCommand path skill pair) := by
  obtain ⟨question, answer, rfl, hques, hans⟩ := mem_textPairs hpair
  exact validateCommand_ok_iff.mpr ⟨rfl,
    ⟨(cut_strip (by decide) hques).1, length_cut_le ..⟩,
    ⟨(cut_strip (by decide) hans).1, length_cut_le ..⟩, hslug, length_cut_le ..⟩

theorem tableAccepts_pairCommand_iff (path skill : String) (hpair : pair ∈ textPairs text) :
    TableAccepts (pairCommand path skill pair) ↔ FitsOctets pair := by
  obtain ⟨question, answer, rfl, hques, hans⟩ := mem_textPairs hpair
  exact tableAccepts_iff hques hans rfl rfl

def FileCommands (lower : String → String) (file : String × Bytes)
    (commands : List CardCommand) : Prop :=
  (∀ command ∈ commands, ∃ text skill pair, IsSource lower file text ∧
    pair ∈ textPairs text.toList ∧ command = pairCommand file.1 skill pair) ∧
  ∀ text, IsSource lower file text → ∀ pair ∈ textPairs text.toList,
    ∃ skill, pairCommand file.1 skill pair ∈ commands

theorem fileCommands_ok (lower : String → String) (file : String × Bytes) :
    ∃ commands, fileCommands lower file = .ok commands ∧ FileCommands lower file commands := by
  cases hnote : fileNote lower file with
  | none =>
    refine ⟨[], by rw [fileCommands, hnote], by simp, ?_⟩
    intro text hsrc
    obtain ⟨note, hsome, -⟩ := hsrc.fileNote
    rw [hnote] at hsome
    cases hsome
  | some note =>
    obtain ⟨text, hsrc, hslug, hpairs⟩ := fileNote_eq_some hnote
    refine ⟨note.pairs.map (pairCommand file.1 note.skillSlug), ?_, ?_, ?_⟩
    · rw [fileCommands, hnote]
      simp only
      rw [mapM_ok_iff, List.forall₂_map_right_iff, List.forall₂_same, hpairs]
      intro pair hpair
      exact validate_pairCommand file.1 hpair hslug
    · intro command hcmd
      obtain ⟨pair, hpair, rfl⟩ := List.mem_map.mp hcmd
      exact ⟨text, note.skillSlug, pair, hsrc, hpairs ▸ hpair, rfl⟩
    · intro other ho pair hpair
      cases hsrc.decodes.symm.trans ho.decodes
      exact ⟨note.skillSlug, List.mem_map_of_mem (hpairs ▸ hpair)⟩

theorem packageCardCommands_ok (lower : String → String) (files : List (String × Bytes)) :
    ∃ commands, packageCardCommands lower files = .ok commands ∧
      ((∀ command ∈ commands, TableAccepts command) ↔
        ∀ file ∈ files, ∀ text, IsSource lower file text →
          ∀ pair ∈ textPairs text.toList, FitsOctets pair) := by
  have hall : ∃ lists, (files.insertionSort fun first second => first.1 ≤ second.1).mapM
      (fileCommands lower) = .ok lists := by
    rw [exists_mapM_ok_iff]
    intro file _
    obtain ⟨commands, hok, -⟩ := fileCommands_ok lower file
    exact ⟨commands, hok⟩
  obtain ⟨lists, hlists⟩ := hall
  have hpairs := mapM_ok_iff.mp hlists
  refine ⟨lists.flatten, by rw [packageCardCommands, hlists]; rfl, ?_⟩
  constructor
  · intro haccepts file hfile text hsrc pair hpair
    have hsort : file ∈ files.insertionSort fun first second => first.1 ≤ second.1 :=
      (List.mem_insertionSort _).mpr hfile
    obtain ⟨commands, hmem, hcmds⟩ := forall₂_mem_right hpairs.flip hsort
    obtain ⟨os, hos, hfile⟩ := fileCommands_ok lower file
    cases hcmds.symm.trans hos
    obtain ⟨skill, hcmd⟩ := hfile.2 text hsrc pair hpair
    exact (tableAccepts_pairCommand_iff file.1 skill hpair).mp
      (haccepts _ (List.mem_flatten_of_mem hmem hcmd))
  · intro hfits command hcmd
    obtain ⟨commands, hmem, hcmd⟩ := List.mem_flatten.mp hcmd
    obtain ⟨file, hsort, hcmds⟩ := forall₂_mem_right hpairs hmem
    obtain ⟨os, hos, hfile⟩ := fileCommands_ok lower file
    cases hcmds.symm.trans hos
    obtain ⟨text, skill, pair, hsrc, hpair, rfl⟩ := hfile.1 command hcmd
    exact (tableAccepts_pairCommand_iff file.1 skill hpair).mpr
      (hfits file ((List.mem_insertionSort _).mp hsort) text hsrc pair hpair)

/-! ## Notes and proposals -/

def HasTexts (item : NoteFlashcardItem) : Prop := strip item.question ≠ "" ∧ strip item.answer ≠ ""

structure Proposable (messageId index : Nat) (question answer skillSlug : String) : Prop where
  question_nonempty : strip question ≠ ""
  answer_nonempty : strip answer ≠ ""
  skill : slug skillSlug = true
  source : ("coach:" ++ toString messageId ++ ":" ++ toString index).length ≤ 256

variable {messageId index : Nat} {skillSlug : String}

theorem Proposable.coachCardCommand (h : Proposable messageId index question answer skillSlug) :
    coachCardCommand messageId index question answer skillSlug =
      .ok (coachCommand messageId index question answer skillSlug) :=
  validateCommand_ok_iff.mpr ⟨rfl,
    ⟨(cut_strip (by decide) h.question_nonempty).1, length_cut_le ..⟩,
    ⟨(cut_strip (by decide) h.answer_nonempty).1, length_cut_le ..⟩, h.skill, h.source⟩

theorem coachCardCommand_eq_ok
    (h : coachCardCommand messageId index question answer skillSlug = .ok command) :
    Proposable messageId index question answer skillSlug ∧
      (TableAccepts command ↔ FitsOctets (strip question, strip answer)) := by
  obtain ⟨heq, ⟨hques, -⟩, ⟨hans, -⟩, hskill, hsrc⟩ := validateCommand_ok_iff.mp h
  have hq := strip_ne_of_length hques
  have ha := strip_ne_of_length hans
  rw [heq]
  exact ⟨⟨hq, ha, hskill, hsrc⟩, tableAccepts_iff hq ha rfl rfl⟩

theorem coachCardCommand_accepts_iff (messageId index : Nat) (question answer skillSlug : String) :
    (∀ command, coachCardCommand messageId index question answer skillSlug = .ok command →
      TableAccepts command) ↔
    (Proposable messageId index question answer skillSlug →
      FitsOctets (strip question, strip answer)) := by
  constructor
  · intro hall hproposable
    have hcmd := hproposable.coachCardCommand
    exact (coachCardCommand_eq_ok hcmd).2.mp (hall _ hcmd)
  · intro hfits command hcmd
    obtain ⟨hproposable, haccepts⟩ := coachCardCommand_eq_ok hcmd
    exact haccepts.mpr (hfits hproposable)

theorem cut_strip_ne_empty {text : String} (hlen : 0 < length) :
    cut length (strip text) ≠ "" ↔ strip text ≠ "" := by
  constructor
  · intro hcut hstrip
    exact hcut (by rw [hstrip]; simp [cut])
  · intro hstrip hcut
    have hpos := (cut_strip hlen hstrip).1
    rw [hcut] at hpos
    exact absurd hpos (by decide)

def noteCommand (noteId : Nat) (skillSlug : String) (assistance : Today.Assistance)
    (item : NoteFlashcardItem) : CardCommand where
  question := cut 2048 (strip item.question)
  answer := cut 4096 (strip item.answer)
  skillSlug := skillSlug
  sourceKind := "study_note"
  sourceRef := "note:" ++ toString noteId
  assistance := assistance

variable {noteId : Nat} {flashcards : List NoteFlashcardItem} {assistance : Today.Assistance}
  {commands : List CardCommand}

theorem mem_noteCardCommands
    (h : noteCardCommands noteId flashcards skillSlug assistance = .ok commands)
    (command : CardCommand) : command ∈ commands ↔ ∃ item ∈ flashcards, HasTexts item ∧
      command = noteCommand noteId skillSlug assistance item := by
  unfold noteCardCommands at h
  simp only at h
  split at h
  · cases h
  obtain rfl := Except.ok.inj h
  rw [List.mem_map]
  constructor
  · rintro ⟨pair, hpair, rfl⟩
    obtain ⟨hmem, hne⟩ := List.mem_filter.mp hpair
    obtain ⟨item, hitem, rfl⟩ := List.mem_map.mp hmem
    rw [Bool.and_eq_true, bne_iff_ne, bne_iff_ne] at hne
    exact ⟨item, hitem, ⟨(cut_strip_ne_empty (by decide)).mp hne.1,
      (cut_strip_ne_empty (by decide)).mp hne.2⟩, rfl⟩
  · rintro ⟨item, hitem, ⟨hques, hans⟩, rfl⟩
    refine ⟨(cut 2048 (strip item.question), cut 4096 (strip item.answer)),
      List.mem_filter.mpr ⟨List.mem_map_of_mem hitem, ?_⟩, rfl⟩
    rw [Bool.and_eq_true, bne_iff_ne, bne_iff_ne]
    exact ⟨(cut_strip_ne_empty (by decide)).mpr hques,
      (cut_strip_ne_empty (by decide)).mpr hans⟩

theorem slug_of_noteCardCommands
    (h : noteCardCommands noteId flashcards skillSlug assistance = .ok commands)
    (htexts : ∃ item ∈ flashcards, HasTexts item) : slug skillSlug = true := by
  by_contra hslug
  obtain ⟨item, hitem, htexts⟩ := htexts
  have hmem := (mem_noteCardCommands h _).mpr ⟨item, hitem, htexts, rfl⟩
  unfold noteCardCommands at h
  simp only at h
  split at h
  · cases h
  rename_i href
  obtain rfl := Except.ok.inj h
  apply href ⟨?_, by simpa using hslug⟩
  intro hnil
  rw [hnil] at hmem
  cases hmem

theorem noteCardCommands_ok (hslug : slug skillSlug = true) (noteId : Nat)
    (flashcards : List NoteFlashcardItem) (assistance : Today.Assistance) :
    ∃ commands, noteCardCommands noteId flashcards skillSlug assistance = .ok commands := by
  unfold noteCardCommands
  simp [hslug]

theorem tableAccepts_noteCommand_iff {item : NoteFlashcardItem} (noteId : Nat)
    (skillSlug : String) (assistance : Today.Assistance) (h : HasTexts item) :
    TableAccepts (noteCommand noteId skillSlug assistance item) ↔
      FitsOctets (strip item.question, strip item.answer) :=
  tableAccepts_iff h.1 h.2 rfl rfl

theorem noteCardCommands_accepts_iff (noteId : Nat) (flashcards : List NoteFlashcardItem)
    (skillSlug : String) (assistance : Today.Assistance) :
    (∀ commands, noteCardCommands noteId flashcards skillSlug assistance = .ok commands →
      ∀ command ∈ commands, TableAccepts command) ↔
    (slug skillSlug = true → ∀ item ∈ flashcards, HasTexts item →
      FitsOctets (strip item.question, strip item.answer)) := by
  constructor
  · intro hall hslug item hitem htexts
    obtain ⟨commands, hcmds⟩ := noteCardCommands_ok hslug noteId flashcards assistance
    have hmem := (mem_noteCardCommands hcmds _).mpr ⟨item, hitem, htexts, rfl⟩
    exact (tableAccepts_noteCommand_iff noteId skillSlug assistance htexts).mp
      (hall commands hcmds _ hmem)
  · intro hfits commands hcmds command hcmd
    obtain ⟨item, hitem, htexts, rfl⟩ := (mem_noteCardCommands hcmds command).mp hcmd
    have hslug := slug_of_noteCardCommands hcmds ⟨item, hitem, htexts⟩
    exact (tableAccepts_noteCommand_iff noteId skillSlug assistance htexts).mpr
      (hfits hslug item hitem htexts)

def PackageBuilds (lower : String → String) (files : List (String × Bytes)) : Prop :=
  ∃ commands, packageCardCommands lower files = .ok commands ∧
    ∀ command ∈ commands, TableAccepts command

def NoteBuilds (noteId : Nat) (flashcards : List NoteFlashcardItem) (skillSlug : String)
    (assistance : Today.Assistance) : Prop :=
  ∀ commands, noteCardCommands noteId flashcards skillSlug assistance = .ok commands →
    ∀ command ∈ commands, TableAccepts command

def CoachBuilds (messageId index : Nat) (question answer skillSlug : String) : Prop :=
  ∀ command, coachCardCommand messageId index question answer skillSlug = .ok command →
    TableAccepts command

theorem packageBuilds_iff (lower : String → String) (files : List (String × Bytes)) :
    PackageBuilds lower files ↔ ∀ file ∈ files, ∀ text, IsSource lower file text →
      ∀ pair ∈ textPairs text.toList, FitsOctets pair := by
  obtain ⟨commands, hcmds, haccepts⟩ := packageCardCommands_ok lower files
  rw [← haccepts]
  constructor
  · rintro ⟨os, hos, hall⟩
    cases hcmds.symm.trans hos
    exact hall
  · intro hall
    exact ⟨commands, hcmds, hall⟩

/-- Imports never raise on a package, and keep everything exactly where the texts
of a card fit the table and no answer line replaces a text that its block does not
repeat. -/
theorem imports_keep_cards_iff (lower : String → String) :
    (∀ files, ∃ commands, packageCardCommands lower files = .ok commands) ∧
    (∀ files, PackageBuilds lower files ↔
      ∀ file ∈ files, ∀ text, IsSource lower file text →
        ∀ pair ∈ textPairs text.toList, FitsOctets pair) ∧
    (∀ noteId flashcards skillSlug assistance,
      NoteBuilds noteId flashcards skillSlug assistance ↔
        (slug skillSlug = true → ∀ item ∈ flashcards, HasTexts item →
          FitsOctets (strip item.question, strip item.answer))) ∧
    (∀ messageId index question answer skillSlug,
      CoachBuilds messageId index question answer skillSlug ↔
        (Proposable messageId index question answer skillSlug →
          FitsOctets (strip question, strip answer))) ∧
    ∀ text, KeepsLines lower text ↔ RepeatsReplaced lower text := by
  refine ⟨?_, packageBuilds_iff lower, noteCardCommands_accepts_iff,
    coachCardCommand_accepts_iff, keepsLines_iff lower⟩
  intro files
  obtain ⟨commands, hcommands, -⟩ := packageCardCommands_ok lower files
  exact ⟨commands, hcommands⟩

/-! ## A card that is refused and an answer that is lost -/

/-- `str.lower` of texts of ASCII characters. -/
def asciiLower (text : String) : String := String.ofList (text.toList.map Char.toLower)

def twoAnswers : List Char :=
  "---\nflashcard-source: true\n---\nQ: q\nA: first\nA: second\n".toList

theorem utf8ByteSize_replicate (n : Nat) (c : Char) :
    (String.ofList (List.replicate n c)).utf8ByteSize = n * c.utf8Size := by
  induction n with
  | zero => simp
  | succ n ih =>
    rw [List.replicate_succ, String.ofList_cons, String.utf8ByteSize_append,
      String.utf8ByteSize_singleton, ih]
    ring

theorem dropWhile_of_head {text : List Char} (h : ∀ c ∈ text.head?, isSpace c = false) :
    text.dropWhile isSpace = text := by
  cases text with
  | nil => rfl
  | cons c rest => rw [List.dropWhile_cons_of_neg (by simpa using h c rfl)]

theorem strip_of_trimmed {text : String} (h : Trimmed text.toList) : strip text = text := by
  rw [← String.toList_inj, toList_strip, dropWhile_of_head h.1, dropWhile_of_head h.reverse.1,
    List.reverse_reverse]

/-- The table refuses a question of the Coach that is short enough in characters
and too long in octets. -/
theorem not_coachBuilds (htrimmed : strip question = question) (hlen : question.length ≤ 2048)
    (hoctets : 2048 < question.utf8ByteSize) : ¬ CoachBuilds 1 0 question "a" "general" := by
  intro hbuilds
  have hcut : cut 2048 (strip question) = question := by
    rw [htrimmed, cut, List.take_of_length_le (String.length_toList ▸ hlen),
      String.ofList_toList]
  have hproposable : Proposable 1 0 question "a" "general" := by
    refine ⟨?_, by decide, by decide, by decide +kernel⟩
    rw [htrimmed]
    rintro rfl
    exact absurd hoctets (by decide)
  have hfits := (coachCardCommand_accepts_iff 1 0 question "a" "general").mp hbuilds hproposable
  have hsize : (cut 2048 (strip question)).utf8ByteSize ≤ 2048 := hfits.1
  rw [hcut] at hsize
  omega

theorem strip_replicate (n : Nat) {c : Char} (hc : isSpace c = false) :
    strip (String.ofList (List.replicate n c)) = String.ofList (List.replicate n c) := by
  apply strip_of_trimmed
  rw [String.toList_ofList]
  constructor
  · intro other ho
    rw [List.eq_of_mem_replicate (List.mem_of_head? ho)]
    exact hc
  · intro other ho
    rw [List.eq_of_mem_replicate (List.mem_of_getLast? ho)]
    exact hc

theorem complete_twoAnswers : completeBlocks twoAnswers =
    [[.question "q", .answer "first", .answer "second"]] := by
  decide +kernel

theorem not_keepsLines_twoAnswers : ¬ KeepsLines asciiLower twoAnswers := by
  intro hkeeps
  have hopted : OptedIn asciiLower twoAnswers := by
    unfold OptedIn
    decide +kernel
  have hrepeats := (keepsLines_iff asciiLower twoAnswers).mp hkeeps hopted
  rw [complete_twoAnswers] at hrepeats
  have hoccurs := hrepeats (by decide) _ (List.mem_singleton_self _)
    ⟨by decide +kernel, by decide +kernel⟩ (.answer "first") (by decide)
  unfold OccursIn at hoccurs
  revert hoccurs
  decide +kernel

/-- The first answer is lost, and the table refuses a card of the Coach with a
question of 1025 characters. -/
theorem imports_lose_answer :
    ¬ KeepsLines asciiLower twoAnswers ∧
      ¬ CoachBuilds 1 0 (String.ofList (List.replicate 1025 'é')) "a" "general" := by
  refine ⟨not_keepsLines_twoAnswers, not_coachBuilds (strip_replicate 1025 (by decide)) ?_ ?_⟩
  · rw [String.length_ofList, List.length_replicate]
    decide
  · rw [utf8ByteSize_replicate]
    decide

end TamForge.Cards
