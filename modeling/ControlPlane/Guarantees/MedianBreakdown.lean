import ControlPlane.Lib.Sequences
import ControlPlane.Source.Consensus.Osp

/-!
# What a majority guarantees of the consensus median

A strict majority of one text wins when the text has tokens; one of texts without
tokens wins only where no two proposals share a token and the last one has none.
A majority of honest proposals does not win by its number: it wins exactly when it
withstands every attack in which all outliers write one text.
-/
namespace ControlPlane.Guarantees.MedianBreakdown

open Lib.Medoid Lib.Overlap Source.Constraints Source.Verification Source.Consensus
  Source.Consensus.Median

variable (x : Externals) (sqrt : ℚ → ℚ)

/-! ## A majority of one text -/

section MajorityText

variable {proposals : List ProposalEvent} {text : String}

theorem majority_tokens
    (majority : proposals.length < 2 * proposals.countP (·.rawOutput = text)) :
    proposals.length < 2 * ((Finset.range proposals.length).filter
      fun j => tokensAt x proposals j = tokenize x text).card := by
  have hcount : proposals.countP (·.rawOutput = text) ≤ ((Finset.range proposals.length).filter
      fun j => tokensAt x proposals j = tokenize x text).card := by
    rw [Lib.countP_eq_card_positions]
    apply Finset.card_le_card
    refine Finset.monotone_filter_right _ ?_
    intro j _ hj
    cases hget : proposals[j]? with
    | none => simp [hget] at hj
    | some proposal =>
        simp only [hget, Option.any_some, decide_eq_true_eq] at hj
        simp only [tokensAt, hget, hj]
  omega

theorem majority_position
    (majority : proposals.length < 2 * proposals.countP (·.rawOutput = text)) :
    ∃ i < proposals.length, tokensAt x proposals i = tokenize x text := by
  have hmajority := majority_tokens x majority
  have hpos : 0 < ((Finset.range proposals.length).filter
      fun j => tokensAt x proposals j = tokenize x text).card := by omega
  obtain ⟨i, hi⟩ := Finset.card_pos.mp hpos
  rw [Finset.mem_filter, Finset.mem_range] at hi
  exact ⟨i, hi⟩

/-- A returned proposal without tokens means that no two proposals share a token. -/
theorem resolve_no_tokens_iff (i : Fin proposals.length)
    (h : resolve x sqrt proposals none = some i) :
    tokenize x (proposals.get i).rawOutput = ∅ ↔
      (∀ j < proposals.length, ∀ k < proposals.length, j ≠ k →
        Disjoint (tokensAt x proposals j) (tokensAt x proposals k)) ∧
      tokensAt x proposals (proposals.length - 1) = ∅ := by
  have hlast := (resolve_eq_some_iff x sqrt proposals i).mp h
  have hpos := i.isLt
  rw [← tokensAt_get]
  constructor
  · intro hempty
    have hone : rowSum (tokensAt x proposals) proposals.length i = 1 := by
      rw [rowSum_eq_one_iff i.isLt]
      intro j _ _
      rw [hempty]
      exact Finset.disjoint_empty_left _
    -- every row is at its minimum
    have hrows : ∀ j < proposals.length,
        rowSum (tokensAt x proposals) proposals.length j = 1 := by
      intro j hj
      have hupper := hlast.max j hj
      have hlower := rowSum_self_le (tokensAt x proposals) hj
      linarith
    refine ⟨fun j hj => (rowSum_eq_one_iff hj).mp (hrows j hj), ?_⟩
    have hle := hlast.last (proposals.length - 1) (by omega)
      (by rw [hone, hrows _ (by omega)])
    rw [show proposals.length - 1 = i.val by omega]
    exact hempty
  · rintro ⟨hdisjoint, hempty⟩
    have hrows : ∀ j < proposals.length,
        rowSum (tokensAt x proposals) proposals.length j = 1 :=
      fun j hj => (rowSum_eq_one_iff hj).mpr (hdisjoint j hj)
    have hle := hlast.last (proposals.length - 1) (by omega)
      (by rw [hrows _ (by omega), hrows _ (by omega)])
    rw [show i.val = proposals.length - 1 by omega]
    exact hempty

/-- For every list of proposals in which strictly more than half carry the text `text`:
`resolve` without an embedding model returns a proposal with the token set of `text`
exactly when `text` has tokens, or no two proposals share a token and the last
proposal has none. -/
theorem majority_text_wins_iff (proposals : List ProposalEvent) (text : String)
    (majority : proposals.length < 2 * proposals.countP (·.rawOutput = text)) :
    (∃ i, resolve x sqrt proposals none = some i ∧
        tokenize x (proposals.get i).rawOutput = tokenize x text) ↔
      tokenize x text ≠ ∅ ∨
        ((∀ j < proposals.length, ∀ k < proposals.length, j ≠ k →
          Disjoint (tokensAt x proposals j) (tokensAt x proposals k)) ∧
        tokensAt x proposals (proposals.length - 1) = ∅) := by
  obtain ⟨m, hm, htokens⟩ := majority_position x majority
  obtain ⟨i, hi⟩ := resolve_isSome x sqrt (by omega : 0 < proposals.length) none
  have hreturned : (∃ i, resolve x sqrt proposals none = some i ∧
      tokenize x (proposals.get i).rawOutput = tokenize x text) ↔
      tokenize x (proposals.get i).rawOutput = tokenize x text := by
    simp only [hi, Option.some.injEq, exists_eq_left']
  rw [hreturned]
  by_cases hempty : tokenize x text = ∅
  · have hnone := resolve_no_tokens_iff x sqrt i hi
    rw [hempty, hnone]
    simp
  · have hlast := (resolve_eq_some_iff x sqrt proposals i).mp hi
    simp only [ne_eq, hempty, not_false_eq_true, true_or, iff_true]
    by_contra hother
    rw [← tokensAt_get] at hother
    have hlt := rowSum_lt_of_majority (Finset.nonempty_iff_ne_empty.mpr hempty)
      (majority_tokens x majority) htokens hother
    exact absurd (hlast.max m hm) (not_le.mpr hlt)

end MajorityText

section Example

def answer (text : String) : ProposalEvent := ⟨"task-1", "explorer-1", 0, 0, text, 0⟩

/-- Three of five proposals answer with one text that has tokens. -/
theorem forty_two_wins :
    ∃ i, resolve asciiExternals id
        ([answer "red", answer "42", answer "42", answer "blue", answer "42"]) none = some i ∧
      tokenize asciiExternals (([answer "red", answer "42", answer "42", answer "blue",
        answer "42"]).get i).rawOutput = tokenize asciiExternals "42" :=
  (majority_text_wins_iff asciiExternals id _ "42" (by decide +kernel)).mpr
    (.inl (by decide +kernel))

/-- Three of five proposals answer "4", which has no tokens; two agree on a wrong answer. -/
theorem one_character_majority_loses :
    let proposals := [answer "4", answer "4", answer "4", answer "five apples",
      answer "five apples"]
    proposals.length < 2 * proposals.countP (·.rawOutput = "4") ∧
      (resolve asciiExternals id proposals none).map Fin.val = some 4 ∧
      tokenize asciiExternals "five apples" ≠ tokenize asciiExternals "4" ∧
      ¬ ∃ i, resolve asciiExternals id proposals none = some i ∧
        tokenize asciiExternals (proposals.get i).rawOutput = tokenize asciiExternals "4" := by
  refine ⟨by decide +kernel, by decide +kernel, by decide +kernel, by decide +kernel⟩

end Example

/-! ## A majority of honest proposals -/

section HonestMajority

/-- The honest proposals stand at the same positions of both lists. -/
structure SameHonest (honest : Finset ℕ) (proposals proposals' : List ProposalEvent) : Prop where
  length : proposals'.length = proposals.length
  get : ∀ i ∈ honest, proposals'[i]? = proposals[i]?

def outliers (proposals : List ProposalEvent) (honest : Finset ℕ) : Finset ℕ :=
  Finset.range proposals.length \ honest

/-- Whatever one text all outliers write, some honest proposal has a larger sum of
similarities than they have, or the same and stands after all of them. -/
def Withstands (proposals : List ProposalEvent) (honest : Finset ℕ) : Prop :=
  ∀ text : String, ∃ h ∈ honest,
    let attack := attackSum (tokensAt x proposals) honest (outliers proposals honest).card
      (tokenize x text)
    let defence := defenceSum (tokensAt x proposals) honest (outliers proposals honest).card
      (tokenize x text) h
    attack < defence ∨ (attack = defence ∧ ∀ o ∈ outliers proposals honest, o < h)

/-- Every outlier writes the text. -/
def withCopies (proposals : List ProposalEvent) (honest : Finset ℕ) (text : String) :
    List ProposalEvent :=
  proposals.mapIdx fun i proposal =>
    if i ∈ honest then proposal else { proposal with rawOutput := text }

section Copies

variable (proposals : List ProposalEvent) (honest : Finset ℕ) (text : String)

theorem withCopies_sameHonest :
    SameHonest honest proposals (withCopies proposals honest text) where
  length := List.length_mapIdx
  get := by
    intro i hi
    rw [withCopies, List.getElem?_mapIdx]
    simp [hi]

theorem withCopies_tokensAt :
    ∀ o ∈ outliers proposals honest,
      tokensAt x (withCopies proposals honest text) o = tokenize x text := by
  intro o ho
  obtain ⟨ho, hout⟩ := Finset.mem_sdiff.mp ho
  rw [Finset.mem_range] at ho
  simp only [Median.tokensAt, withCopies, List.getElem?_mapIdx, List.getElem?_eq_getElem ho,
    Option.map_some, hout, ↓reduceIte]

end Copies

variable {proposals : List ProposalEvent} {honest : Finset ℕ}

theorem SameHonest.tokensAt {proposals' : List ProposalEvent}
    (same : SameHonest honest proposals proposals') :
    ∀ i ∈ honest, tokensAt x proposals' i = tokensAt x proposals i := by
  intro i hi
  simp only [Median.tokensAt, same.get i hi]

theorem SameHonest.isLastMax {proposals' : List ProposalEvent}
    (same : SameHonest honest proposals proposals') {i : Fin proposals'.length}
    (hi : resolve x sqrt proposals' none = some i) :
    IsLastMax (rowSum (Median.tokensAt x proposals') proposals.length) proposals.length i := by
  have hlast := (resolve_eq_some_iff x sqrt proposals' i).mp hi
  simpa only [same.length] using hlast

/-- A median that is honest whatever the outliers write withstands each text of theirs. -/
theorem withstands_of_always_honest (hhonest : honest ⊆ Finset.range proposals.length)
    (hout : (outliers proposals honest).Nonempty)
    (always : ∀ proposals', SameHonest honest proposals proposals' →
      ∃ i, resolve x sqrt proposals' none = some i ∧ i.val ∈ honest) :
    Withstands x proposals honest := by
  intro text
  have same := withCopies_sameHonest proposals honest text
  obtain ⟨i, hi, hmem⟩ := always _ same
  have hlast := same.isLastMax x sqrt hi
  obtain ⟨hattack, hdefence⟩ := rowSum_of_copies hhonest
    (withCopies_tokensAt x proposals honest text)
  obtain ⟨h, hh, hbeats⟩ := (hlast.mem_iff hhonest).mp hmem
  refine ⟨h, hh, ?_⟩
  intro attack defence
  have hbeats' : ∀ o ∈ outliers proposals honest,
      attack < defence ∨ (attack = defence ∧ o < h) := by
    intro o ho
    have hrow := hbeats o ho
    rw [hattack o ho, attackSum_congr (same.tokensAt x), hdefence h hh,
      defenceSum_congr (same.tokensAt x) _ _ hh] at hrow
    exact hrow
  obtain ⟨o, ho⟩ := hout
  rcases hbeats' o ho with hlt | ⟨heq, -⟩
  · exact .inl hlt
  · refine .inr ⟨heq, ?_⟩
    intro o' ho'
    rcases hbeats' o' ho' with hlt | ⟨-, hafter⟩
    · exact absurd heq hlt.ne
    · exact hafter

/-- An outlier that is returned would win with copies of its text, too. -/
theorem Withstands.always_honest (withstands : Withstands x proposals honest)
    (hhonest : honest ⊆ Finset.range proposals.length) {proposals' : List ProposalEvent}
    (same : SameHonest honest proposals proposals') {i : Fin proposals'.length}
    (hi : resolve x sqrt proposals' none = some i) : i.val ∈ honest := by
  have hlast := same.isLastMax x sqrt hi
  by_contra hout
  have hoi : i.val ∈ Finset.range proposals.length \ honest :=
    Finset.mem_sdiff.mpr ⟨Finset.mem_range.mpr hlast.lt, hout⟩
  obtain ⟨h, hh, hbeats⟩ := withstands (proposals'.get i).rawOutput
  have hhn := Finset.mem_range.mp (hhonest hh)
  have hlead : rowSum (Median.tokensAt x proposals') proposals.length i + _ ≤ _ :=
    lead_le_attack hhonest hoi hh
  rw [attackSum_congr (same.tokensAt x), defenceSum_congr (same.tokensAt x) _ _ hh,
    tokensAt_get] at hlead
  simp only [outliers] at hbeats
  rcases hbeats with hlt | ⟨heq, hafter⟩
  · have hmax := hlast.max h hhn
    linarith
  · have hlater := hlast.last h hhn (by linarith)
    have hbefore := hafter i hoi
    omega

/-- Honest proposals with one common token set withstand every attack, if one of them
stands after all outliers. -/
theorem withstands_of_same_tokens {tokens : Finset String} (nonempty : tokens.Nonempty)
    (hhonest : honest ⊆ Finset.range proposals.length)
    (majority : proposals.length < 2 * honest.card)
    (hsame : ∀ i ∈ honest, tokensAt x proposals i = tokens) {h : ℕ} (hh : h ∈ honest)
    (hafter : ∀ o ∈ outliers proposals honest, o < h) : Withstands x proposals honest := by
  intro text
  refine ⟨h, hh, ?_⟩
  intro attack defence
  have hcount := Finset.card_sdiff_add_card_eq_card hhonest
  rw [Finset.card_range] at hcount
  have hmore : (outliers proposals honest).card ≤ honest.card := by
    unfold outliers
    omega
  have hpos : 1 ≤ honest.card := Finset.card_pos.mpr ⟨h, hh⟩
  have hmore' : ((outliers proposals honest).card : ℚ) ≤ honest.card := by exact_mod_cast hmore
  have hpos' : (1 : ℚ) ≤ honest.card := by exact_mod_cast hpos
  have hdefence : defence = honest.card +
      (outliers proposals honest).card * jaccard tokens (tokenize x text) := by
    have hones : ∀ i ∈ honest, closeness (tokensAt x proposals) h i = 1 := by
      intro i hi
      simp only [closeness, hsame h hh, hsame i hi, jaccard_self nonempty, ite_self]
    simp only [defence, defenceSum, Finset.sum_congr rfl hones, hsame h hh]
    simp
  have hattack : attack = (if tokenize x text = ∅ then 1 else
      ((outliers proposals honest).card : ℚ)) +
        honest.card * jaccard tokens (tokenize x text) := by
    have hterms : ∀ i ∈ honest, jaccard (tokenize x text) (tokensAt x proposals i) =
        jaccard tokens (tokenize x text) := by
      intro i hi
      rw [hsame i hi, jaccard_comm]
    simp only [attack, attackSum, Finset.sum_congr rfl hterms, Finset.sum_const, nsmul_eq_mul]
  have hle : attack ≤ defence := by
    rw [hattack, hdefence]
    by_cases hempty : tokenize x text = ∅
    · simp only [hempty, ↓reduceIte, jaccard_empty_right, mul_zero, add_zero]
      exact hpos'
    · have hscaled := mul_le_mul_of_nonneg_right hmore'
        (sub_nonneg.mpr (jaccard_le_one tokens (tokenize x text)))
      simp only [hempty, ↓reduceIte]
      linarith
  rcases lt_or_eq_of_le hle with hlt | heq
  · exact .inl hlt
  · exact .inr ⟨heq, hafter⟩

end HonestMajority

section Example

def pairAfterOutlier : List ProposalEvent := [answer "?", answer "red apple", answer "red apple"]

end Example

end ControlPlane.Guarantees.MedianBreakdown
