import TamForge.Agents.Roles.Reviewer
import TamForge.Models.Json

/-!
# Scores in half points

The check that is meant to refuse everything but half points rounds to the
places of `0.5`, which is one place: it refuses what is finer than a tenth.
-/

namespace TamForge.Agents

open Models ProofSupport.Decimals

variable {Payload : Type} {modelValidate : Payload → Except FirstError ReviewOutcome}
  {lower casefold : String → String} {payload : Payload} {dimensions : List ReviewDimension}
  {outcome : ReviewOutcome}

def InHalves (score : Rat) : Prop := ∃ n : Int, 2 * score = n

/-- What an accepted review is meant to be: every dimension of the rubric once,
with a score in half points up to its maximum. -/
structure HalfPointReview (dimensions : List ReviewDimension) (outcome : ReviewOutcome) : Prop where
  once : outcome.slugs.Nodup
  exactly : ∀ slug, slug ∈ outcome.slugs ↔ slug ∈ dimensions.map ReviewDimension.slug
  scores : ∀ item ∈ outcome.dimensions, ∃ dimension,
    expectedDimension dimensions item.slug = some dimension ∧ 0 ≤ item.score ∧
      item.score ≤ dimension.maximum ∧ InHalves item.score

/-- The checks of `validate_review` other than the one of half points. -/
structure PassesOtherwise (lower casefold : String → String) (dimensions : List ReviewDimension)
    (outcome : ReviewOutcome) : Prop where
  slugs : sortedTexts outcome.slugs = sortedTexts (expectedSlugs dimensions)
  maxima : ∀ item ∈ outcome.dimensions, ∀ dimension ∈ expectedDimension dimensions item.slug,
    item.score ≤ dimension.maximum
  claims_nothing : actionMarkers.any (containsText (lower outcome.prose)) = false
  corrections : repeatsItself casefold outcome.corrections = false
  strengths : repeatsItself casefold outcome.strengths = false

theorem nodup_eraseDups (texts : List String) : texts.eraseDups.Nodup := by
  induction hn : texts.length using Nat.strong_induction_on generalizing texts with
  | _ n ih =>
    cases texts with
    | nil => simp
    | cons text rest =>
      have hshorter : (rest.filter fun other => !other == text).length < n := by
        have hle := List.length_filter_le (fun other => !other == text) rest
        rw [← hn, List.length_cons]
        omega
      rw [List.eraseDups_cons, List.nodup_cons, List.mem_eraseDups]
      exact ⟨by simp, ih _ hshorter _ rfl⟩

theorem perm_of_sortedTexts {texts others : List String}
    (h : sortedTexts texts = sortedTexts others) : texts.Perm others := by
  have htexts : (sortedTexts texts).Perm texts := List.perm_insertionSort ..
  have hos : (sortedTexts others).Perm others := List.perm_insertionSort ..
  rw [h] at htexts
  exact htexts.symm.trans hos

theorem exists_expectedDimension {slug : String}
    (h : slug ∈ dimensions.map ReviewDimension.slug) :
    ∃ dimension, expectedDimension dimensions slug = some dimension := by
  obtain ⟨item, hitem, rfl⟩ := List.mem_map.mp h
  have hsome : (expectedDimension dimensions item.slug).isSome := by
    rw [expectedDimension, List.find?_isSome]
    exact ⟨item, List.mem_reverse.mpr hitem, beq_self_eq_true _⟩
  exact Option.isSome_iff_exists.mp hsome

namespace PassesOtherwise

theorem mem_slugs_iff (h : PassesOtherwise lower casefold dimensions outcome) (slug : String) :
    slug ∈ outcome.slugs ↔ slug ∈ dimensions.map ReviewDimension.slug := by
  rw [(perm_of_sortedTexts h.slugs).mem_iff, expectedSlugs, List.mem_eraseDups]

theorem exists_dimension (h : PassesOtherwise lower casefold dimensions outcome)
    {item : ScoredReviewDimension} (hitem : item ∈ outcome.dimensions) :
    ∃ dimension, expectedDimension dimensions item.slug = some dimension :=
  exists_expectedDimension ((h.mem_slugs_iff item.slug).mp (List.mem_map_of_mem hitem))

end PassesOtherwise

theorem scoreIssue_eq_none_iff {item : ScoredReviewDimension} :
    scoreIssue dimensions item = none ↔
      ∀ dimension ∈ expectedDimension dimensions item.slug,
        item.score ≤ dimension.maximum ∧ HasPlaces 1 item.score := by
  rw [scoreIssue]
  cases expectedDimension dimensions item.slug with
  | none => simp
  | some dimension =>
    simp only [Option.bind_some, Option.mem_def, Option.some.injEq, forall_eq']
    split
    · rename_i hexceeds
      simp [hexceeds]
    · rename_i hbounded
      split
      · rename_i hfiner
        rw [ne_comm, ne_eq, quantizeHalfEven_eq_iff] at hfiner
        simp [hfiner]
      · rename_i hpl
        rw [not_not, eq_comm, quantizeHalfEven_eq_iff] at hpl
        simp [not_lt.mp hbounded, hpl]

/-- A review gets through when it passes the other checks and no score is finer
than a tenth. -/
theorem validateReview_eq_nil_iff :
    validateReview modelValidate lower casefold payload dimensions = [] ↔
      ∃ outcome, modelValidate payload = .ok outcome ∧
        PassesOtherwise lower casefold dimensions outcome ∧
        ∀ item ∈ outcome.dimensions, HasPlaces 1 item.score := by
  rw [validateReview]
  cases modelValidate payload with
  | error first => simp
  | ok outcome =>
    constructor
    · intro h
      refine ⟨outcome, rfl, ?_⟩
      simp only at h
      split at h
      · cases h
      · rename_i hslugs
        split at h
        · cases h
        · rename_i hscores
          rw [List.findSome?_eq_none_iff] at hscores
          split at h
          · cases h
          · rename_i hmodest
            split at h
            · cases h
            · rename_i hcorrections
              split at h
              · cases h
              · rename_i hstrengths
                have hpasses : PassesOtherwise lower casefold dimensions outcome :=
                  ⟨not_not.mp hslugs,
                    fun item hitem dimension hdim =>
                      (scoreIssue_eq_none_iff.mp (hscores item hitem) dimension hdim).1,
                    Bool.not_eq_true _ ▸ hmodest, Bool.not_eq_true _ ▸ hcorrections,
                    Bool.not_eq_true _ ▸ hstrengths⟩
                refine ⟨hpasses, fun item hitem => ?_⟩
                obtain ⟨dimension, hdim⟩ := hpasses.exists_dimension hitem
                exact (scoreIssue_eq_none_iff.mp (hscores item hitem) dimension hdim).2
    · rintro ⟨outcome', hout, hpasses, hpl⟩
      cases hout
      have hscores : outcome.dimensions.findSome? (scoreIssue dimensions) = none := by
        rw [List.findSome?_eq_none_iff]
        intro item hitem
        rw [scoreIssue_eq_none_iff]
        exact fun dimension hdim =>
          ⟨hpasses.maxima item hitem dimension hdim, hpl item hitem⟩
      simp [hpasses.slugs, hscores, hpasses.claims_nothing, hpasses.corrections,
        hpasses.strengths]

/-- What gets through is scored in half points exactly when, of a review that
passes the other checks, scores in tenths are scores in halves. -/
theorem half_points_only_iff (modelValidate : Payload → Except FirstError ReviewOutcome)
    (lower casefold : String → String) (payload : Payload) (dimensions : List ReviewDimension) :
    (validateReview modelValidate lower casefold payload dimensions = [] →
        ∃ outcome, modelValidate payload = .ok outcome ∧ HalfPointReview dimensions outcome) ↔
      ∀ outcome, modelValidate payload = .ok outcome →
        PassesOtherwise lower casefold dimensions outcome →
        (∀ item ∈ outcome.dimensions, HasPlaces 1 item.score) →
        ∀ item ∈ outcome.dimensions, InHalves item.score := by
  rw [validateReview_eq_nil_iff]
  constructor
  · intro h outcome houtcome hpasses hplaces item hitem
    obtain ⟨accepted, haccepted, hreview⟩ := h ⟨outcome, houtcome, hpasses, hplaces⟩
    rw [houtcome, Except.ok.injEq] at haccepted
    subst haccepted
    obtain ⟨dimension, -, -, -, hhalves⟩ := hreview.scores item hitem
    exact hhalves
  · rintro h ⟨outcome, houtcome, hpasses, hplaces⟩
    refine ⟨outcome, houtcome, ?_, hpasses.mem_slugs_iff, fun item hitem => ?_⟩
    · exact (perm_of_sortedTexts hpasses.slugs).nodup_iff.mpr (nodup_eraseDups _)
    · obtain ⟨dimension, hdimension⟩ := hpasses.exists_dimension hitem
      exact ⟨dimension, hdimension, item.score_nonneg,
        hpasses.maxima item hitem dimension hdimension,
        h outcome houtcome hpasses hplaces item hitem⟩

def sampleFinding (statement : String) (h : BoundedText 1 500 statement) : ReviewFinding where
  statement := statement
  statement_bounded := h
  instruction_bounded := by decide

/-- Clarity with 7.3 of 10 points. -/
def reviewInTenths : ReviewOutcome where
  verdict := "Clear, with one gap."
  dimensions := [⟨"clarity", 73 / 10, "Mostly clear.", "The opening.", by decide, by norm_num,
    by norm_num, by decide, by decide⟩]
  strengths := [sampleFinding "Good opening." (by decide), sampleFinding "Good close." (by decide)]
  corrections := [sampleFinding "Name the index." (by decide),
    sampleFinding "State the grain." (by decide)]
  nextPractice := "Repeat the question."
  verdict_bounded := by decide
  dimensions_bounded := by decide
  strengths_two := rfl
  corrections_two := rfl
  nextPractice_bounded := by decide

/-- The payload that `reviewInTenths` is read from. -/
def payloadInTenths : Json :=
  .object [("verdict", .string "Clear, with one gap."),
    ("dimensions", .array [.object [("slug", .string "clarity"), ("score", .string "7.3"),
      ("rationale", .string "Mostly clear."), ("evidence", .string "The opening.")]]),
    ("strengths", .array [.object [("statement", .string "Good opening.")],
      .object [("statement", .string "Good close.")]]),
    ("corrections", .array [.object [("statement", .string "Name the index.")],
      .object [("statement", .string "State the grain.")]]),
    ("next_practice", .string "Repeat the question.")]

def readInTenths (payload : Json) : Except FirstError ReviewOutcome :=
  if payload = payloadInTenths then .ok reviewInTenths else .error ⟨[], "Field required"⟩

/-- The review is accepted, and 7.3 is no score in half points. -/
theorem tenths_accepted :
    validateReview readInTenths String.toLower String.toLower payloadInTenths
        [⟨"clarity", 10, "10"⟩] = [] ∧
      readInTenths payloadInTenths = .ok reviewInTenths ∧
      ¬ HalfPointReview [⟨"clarity", 10, "10"⟩] reviewInTenths := by
  have hread : readInTenths payloadInTenths = .ok reviewInTenths := if_pos rfl
  have hlower : ∀ text : String, text.toLower.toList = text.toList.map Char.toLower :=
    fun _ => String.toList_map
  have hmodest : actionMarkers.any (containsText reviewInTenths.prose.toLower) = false := by
    rw [List.any_eq_false]
    intro marker hmarker
    rw [containsText, hlower]
    revert marker
    decide +kernel
  have hpasses : PassesOtherwise String.toLower String.toLower [⟨"clarity", 10, "10"⟩]
      reviewInTenths :=
    ⟨by decide +kernel, by decide +kernel, hmodest, by decide +kernel, by decide +kernel⟩
  refine ⟨validateReview_eq_nil_iff.mpr ⟨_, hread, hpasses, by decide +kernel⟩, hread,
    fun h => ?_⟩
  obtain ⟨dimension, -, -, -, n, hn⟩ := h.scores _ (List.mem_cons_self ..)
  have hscaled : (146 : Rat) = (10 * n : Int) := by
    push_cast
    rw [← hn]
    norm_num [reviewInTenths]
  have hint : (146 : Int) = 10 * n := by exact_mod_cast hscaled
  omega

end TamForge.Agents
