import ControlPlane.Source.Consensus.Krum
import Mathlib.Algebra.Order.Ring.Rat
import Mathlib.Data.Finset.Card
import Mathlib.Data.Fintype.Fin
import Mathlib.Tactic.Linarith

/-!
# Which proposals Krum and Multi-Krum return

The honest proposals lie within `d` of each other and at least `D` from the `f`
Byzantine ones. A score over `k` neighbours is at most `k * d` for an honest
candidate and at least `(k - (b - 1)) * D` for one of `b` Byzantine candidates,
whatever the pool. Krum returns an honest index; Multi-Krum does so in every
round exactly when the pool never shrinks to where `k` neighbours can all be
Byzantine.
-/
namespace ControlPlane.Guarantees.KrumSafety

open Lib Source.Constraints Source.Verification Source.Consensus Source.Consensus.Krum

variable {K : Type} [Field K] [LinearOrder K] {n : Nat}

/-- `n - f` honest and `f` Byzantine proposals: the honest ones within `d`, the two
groups at least `D` apart. -/
structure Split (distances : Fin n → Fin n → K) (honest : Finset (Fin n)) (f : Nat) (d D : K) :
    Prop where
  count : honest.card + f = n
  nonneg : ∀ i j, 0 ≤ distances i j
  near : ∀ i ∈ honest, ∀ j ∈ honest, i ≠ j → distances i j ≤ d
  far : ∀ i ∈ honest, ∀ j ∉ honest, D ≤ distances i j ∧ D ≤ distances j i

/-! ## Scores in a pool -/

section Scores

theorem krumScoreSubset_eq {subset : List (Fin n)} (nodup : subset.Nodup) (idx : Fin n)
    (distances : Fin n → Fin n → K) (k : Nat) :
    krumScoreSubset idx subset distances k =
      smallestSum k ((subset.erase idx).map fun j => distances idx j) := by
  have hfilter : (subset.filter fun j => decide (j ≠ idx)) = subset.erase idx := by
    rw [nodup.erase_eq_filter]
    apply List.filter_congr
    intro j _
    by_cases h : j = idx
    · simp [h]
    · simp [h]
  rw [krumScoreSubset, hfilter]

variable [IsStrictOrderedRing K] {distances : Fin n → Fin n → K} {honest : Finset (Fin n)}
  {f k : Nat} {d D : K} {subset : List (Fin n)}

theorem Split.score_honest_le (split : Split distances honest f d D) (nodup : subset.Nodup)
    {i : Fin n} (hi : i ∈ honest) (hmem : i ∈ subset)
    (hk : k + 1 ≤ subset.countP (· ∈ honest)) :
    krumScoreSubset i subset distances k ≤ k * d := by
  rw [krumScoreSubset_eq nodup, ← nsmul_eq_mul]
  apply smallestSum_le
  have hhonest : (subset.erase i).countP (· ∈ honest) = subset.countP (· ∈ honest) - 1 := by
    rw [List.countP_erase]
    simp [hi, hmem]
  have hnear : (subset.erase i).countP (· ∈ honest) ≤
      (subset.erase i).countP ((fun v => decide (v ≤ d)) ∘ fun j => distances i j) := by
    apply List.countP_mono_left
    intro j hj hjHonest
    have hne : j ≠ i := (nodup.mem_erase_iff.mp hj).1
    simpa using split.near i hi j (by simpa using hjHonest) hne.symm
  rw [List.countP_map]
  omega

theorem Split.le_score_byzantine (split : Split distances honest f d D) (nodup : subset.Nodup)
    (hD : 0 ≤ D) {b : Fin n} (hb : b ∉ honest) (hmem : b ∈ subset)
    (hk : k + 1 ≤ subset.length) :
    ((k - (subset.countP (· ∉ honest) - 1) : Nat) : K) * D ≤
      krumScoreSubset b subset distances k := by
  rw [krumScoreSubset_eq nodup, ← nsmul_eq_mul]
  have hbyzantine : (subset.erase b).countP (· ∉ honest) = subset.countP (· ∉ honest) - 1 := by
    rw [List.countP_erase]
    simp [hb, hmem]
  apply le_smallestSum _ hD
  · rw [List.length_map, List.length_erase_of_mem hmem]
    omega
  · rw [List.countP_map, ← hbyzantine]
    apply List.countP_mono_left
    intro j _ hclose
    -- an honest neighbour is not closer than `D`
    by_contra hjHonest
    have hjMem : j ∈ honest := by simpa using hjHonest
    exact absurd (split.far j hjMem b hb).2 (not_le.mpr (by simpa using hclose))
  · intro v hv
    obtain ⟨j, -, rfl⟩ := List.mem_map.mp hv
    exact split.nonneg b j

omit [IsStrictOrderedRing K] in
/-- Two honest proposals are at a distance that is not negative and at most `d`. -/
theorem Split.diameter_nonneg (split : Split distances honest f d D) (h : 1 < honest.card) :
    0 ≤ d := by
  obtain ⟨i, hi, j, hj, hne⟩ := Finset.one_lt_card.mp h
  exact le_trans (split.nonneg i j) (split.near i hi j hj hne)

end Scores

/-! ## The whole set of proposals -/

theorem countP_honest_finRange (honest : Finset (Fin n)) :
    (List.finRange n).countP (· ∈ honest) = honest.card := by
  rw [List.countP_eq_length_filter, ← List.toFinset_card_of_nodup
    ((List.nodup_finRange n).filter _)]
  congr 1
  ext i
  simp

theorem countP_add_countP_not (honest : Finset (Fin n)) (subset : List (Fin n)) :
    subset.countP (· ∈ honest) + subset.countP (· ∉ honest) = subset.length := by
  rw [List.length_eq_countP_add_countP (p := (· ∈ honest))]
  simp

/-- The honest and the Byzantine candidates before the first round. -/
theorem Split.finRange_counts {distances : Fin n → Fin n → K} {honest : Finset (Fin n)} {f : Nat}
    {d D : K} (split : Split distances honest f d D) :
    (List.finRange n).countP (· ∈ honest) + f = n ∧
      (List.finRange n).countP (· ∉ honest) = f := by
  have hcount := split.count
  have hall := countP_honest_finRange honest
  have hsum := countP_add_countP_not honest (List.finRange n)
  rw [List.length_finRange] at hsum
  constructor
  · omega
  · omega

section Krum

variable [IsStrictOrderedRing K] {distances : Fin n → Fin n → K} {honest : Finset (Fin n)}
  {f : Nat} {d D : K}

/-- Krum scores an honest proposal below a Byzantine one. -/
theorem Split.score_lt (split : Split distances honest f d D) (hf : 1 ≤ f) (hn : 2 * f + 3 ≤ n)
    (gap : ((n - 2 * f - 1 : Nat) : K) * D > ((n - f - 2 : Nat) : K) * d) {i b : Fin n}
    (hi : i ∈ honest) (hb : b ∉ honest) :
    krumScoreSubset i (List.finRange n) distances (n - f - 2) <
      krumScoreSubset b (List.finRange n) distances (n - f - 2) := by
  have hcount := split.count
  obtain ⟨hhonest, hbyzantine⟩ := split.finRange_counts
  have hlength := List.length_finRange (n := n)
  have hd : 0 ≤ d := split.diameter_nonneg (by omega)
  have hD : 0 ≤ D := by
    have hleft : (0 : K) ≤ ((n - f - 2 : Nat) : K) * d := mul_nonneg (Nat.cast_nonneg _) hd
    by_contra hneg
    have hright : ((n - 2 * f - 1 : Nat) : K) * D ≤ 0 :=
      mul_nonpos_of_nonneg_of_nonpos (Nat.cast_nonneg _) (le_of_not_ge hneg)
    linarith
  have hupper := split.score_honest_le (k := n - f - 2) (List.nodup_finRange n) hi
    (List.mem_finRange i) (by omega)
  have hlower := split.le_score_byzantine (k := n - f - 2) (List.nodup_finRange n) hD hb
    (List.mem_finRange b) (by omega)
  have hneighbours : n - f - 2 - (f - 1) = n - 2 * f - 1 := by omega
  rw [hbyzantine, hneighbours] at hlower
  linarith

theorem Split.krumIndex_mem (split : Split distances honest f d D) (hf : 1 ≤ f)
    (hn : 2 * f + 3 ≤ n)
    (gap : ((n - 2 * f - 1 : Nat) : K) * D > ((n - f - 2 : Nat) : K) * d) {i : Fin n}
    (h : krumIndex distances (n - f - 2) = some i) : i ∈ honest := by
  by_contra hbyzantine
  obtain ⟨j, hj⟩ : honest.Nonempty := by
    apply Finset.card_pos.mp
    have hcount := split.count
    omega
  have hmin := (List.argmin_eq_some_iff.mp h).2.1 j (List.mem_finRange j)
  exact absurd (split.score_lt hf hn gap hj hbyzantine) (not_lt.mpr hmin)

/-- For every `f ≥ 1`, every `n ≥ 2f + 3` and every `n × n` matrix of distances that
are not negative: when the honest proposals are within `d`, the Byzantine ones at
least `D` from them, and `(n - 2f - 1) * D > (n - f - 2) * d`, then `krum_index`
over `n - f - 2` neighbours is an honest index. -/
theorem krumIndex_honest (hf : 1 ≤ f) (hn : 2 * f + 3 ≤ n)
    (split : Split distances honest f d D)
    (gap : ((n - 2 * f - 1 : Nat) : K) * D > ((n - f - 2 : Nat) : K) * d) :
    ∃ i, krumIndex distances (n - f - 2) = some i ∧ i ∈ honest := by
  obtain ⟨i, hi⟩ := krumIndex_isSome distances (by omega : 0 < n) (n - f - 2)
  exact ⟨i, hi, split.krumIndex_mem hf hn gap hi⟩

/-- The same of `krum_select_semantic`, which builds the matrix from the embeddings. -/
theorem krumSelectSemantic_honest {x : Externals} {sqrt : K → K} {proposals : List ProposalEvent}
    {model : EmbeddingModel K} {honest : Finset (Fin proposals.length)} (hf : 1 ≤ f)
    (hn : minQuorum f ≤ proposals.length)
    (split : Split (semanticDistanceMatrix x sqrt proposals (some model)) honest f d D)
    (gap : ((proposals.length - 2 * f - 1 : Nat) : K) * D >
      ((proposals.length - f - 2 : Nat) : K) * d) :
    ∃ i, krumSelectSemantic x sqrt proposals f (some model) = some i ∧ i ∈ honest := by
  have hquorum : quorumSatisfied proposals.length f = true := decide_eq_true hn
  unfold minQuorum at hn
  obtain ⟨i, hi⟩ := krumIndex_isSome (semanticDistanceMatrix x sqrt proposals (some model))
    (by omega) (proposals.length - f - 2)
  have hnonempty : proposals.isEmpty = false := by
    rw [List.isEmpty_eq_false_iff_exists_mem]
    exact ⟨proposals.get i, List.get_mem _ _⟩
  have hpos : f ≠ 0 := by omega
  refine ⟨i, ?_, split.krumIndex_mem hf hn gap hi⟩
  simp only [krumSelectSemantic, Option.isNone_some, hnonempty, hpos, hquorum, Bool.false_eq_true,
    Bool.not_true, ↓reduceIte]
  exact hi

end Krum

section Example

/-- Four honest proposals at 1/10, the last one at 9/10 from all of them. -/
def oneOutlier (i j : Fin 5) : ℚ := if i = j then 0 else if i = 4 ∨ j = 4 then 9 / 10 else 1 / 10

theorem krum_five_proposals :
    ∃ i, krumIndex oneOutlier (5 - 1 - 2) = some i ∧ i ∈ ({0, 1, 2, 3} : Finset (Fin 5)) := by
  have hsplit : Split oneOutlier {0, 1, 2, 3} 1 (1 / 10) (9 / 10) :=
    { count := by decide
      nonneg := by decide +kernel
      near := by decide +kernel
      far := by decide +kernel }
  exact krumIndex_honest (by decide) (by decide) hsplit (by decide +kernel)

end Example

/-! ## The rounds of Multi-Krum -/

theorem countP_eraseIdx (p : Fin n → Bool) (remaining : List (Fin n))
    (best : Fin remaining.length) :
    remaining.countP p =
      (remaining.eraseIdx best).countP p + if p (remaining.get best) then 1 else 0 := by
  rw [← (List.getElem_cons_eraseIdx_perm best.isLt).countP_eq, List.countP_cons]
  rfl

section Rounds

variable [IsStrictOrderedRing K] {distances : Fin n → Fin n → K} {honest : Finset (Fin n)}
  {f : Nat} {d D : K}

/-- A round over `f` Byzantine and at least `f + 2` honest candidates picks an honest one. -/
theorem Split.bestPos_honest (split : Split distances honest f d D) (hd : 0 ≤ d)
    (gap : (n : K) * d < D) {remaining : List (Fin n)} (nodup : remaining.Nodup)
    (hbyzantine : remaining.countP (· ∉ honest) = f)
    (hhonest : f + 2 ≤ remaining.countP (· ∈ honest))
    (hsize : f + 2 < remaining.length) {best : Fin remaining.length}
    (h : bestPos distances f remaining = some best) : remaining.get best ∈ honest := by
  have hsum := countP_add_countP_not honest remaining
  have hD : 0 ≤ D := le_of_lt (lt_of_le_of_lt (mul_nonneg (Nat.cast_nonneg n) hd) gap)
  by_contra hpick
  obtain ⟨i, hiMem, hi⟩ := List.countP_pos_iff.mp (by omega : 0 < remaining.countP (· ∈ honest))
  obtain ⟨other, rfl⟩ := List.mem_iff_get.mp hiMem
  have hi' : remaining.get other ∈ honest := by simpa using hi
  have hmin := (bestPos_spec h other).1
  have hupper := split.score_honest_le (k := remaining.length - f - 2) nodup hi' hiMem (by omega)
  have hlower := split.le_score_byzantine (k := remaining.length - f - 2) nodup hD hpick
    (List.get_mem _ _) (by omega)
  have hk : remaining.length - f - 2 ≤ n := by
    have hlength := nodup.length_le_card
    simp only [Fintype.card_fin] at hlength
    omega
  have hbelow : ((remaining.length - f - 2 : Nat) : K) * d ≤ (n : K) * d :=
    mul_le_mul_of_nonneg_right (by exact_mod_cast hk) hd
  -- at least one of the neighbours of a Byzantine candidate is honest
  have habove : D ≤
      ((remaining.length - f - 2 - (remaining.countP (· ∉ honest) - 1) : Nat) : K) * D := by
    refine le_mul_of_one_le_left hD ?_
    exact_mod_cast (by omega :
      1 ≤ remaining.length - f - 2 - (remaining.countP (· ∉ honest) - 1))
  linarith

/-- The rounds left and the pool stay in the range where every round is safe. -/
theorem Split.rounds_honest (split : Split distances honest f d D) (hd : 0 ≤ d)
    (gap : (n : K) * d < D) (m : Nat) {remaining : List (Fin n)} (nodup : remaining.Nodup)
    (hbyzantine : remaining.countP (· ∉ honest) = f)
    (hrange : f = 1 ∨ m + f + 1 ≤ remaining.countP (· ∈ honest)) {picks : List (Fin n)}
    (h : multiKrumRounds distances f m remaining = some picks) : ∀ i ∈ picks, i ∈ honest := by
  induction m generalizing remaining picks with
  | zero =>
      cases h
      simp
  | succ m ih =>
      have hsum := countP_add_countP_not honest remaining
      by_cases hsize : remaining.length > f + 2
      · simp only [multiKrumRounds, hsize, ↓reduceIte] at h
        obtain ⟨best, hbest⟩ := bestPos_isSome distances f remaining (by omega)
        simp only [hbest, Option.map_eq_some_iff] at h
        obtain ⟨later, hlater, rfl⟩ := h
        have hpick := split.bestPos_honest hd gap nodup hbyzantine (by omega) hsize hbest
        have hsame := countP_eraseIdx (fun i => decide (i ∉ honest)) remaining best
        have hfewer := countP_eraseIdx (fun i => decide (i ∈ honest)) remaining best
        simp only [hpick, not_true_eq_false, decide_true, decide_false, Bool.false_eq_true,
          ↓reduceIte, Nat.add_zero] at hsame hfewer
        have hrest := ih (nodup.eraseIdx best) (hsame.symm.trans hbyzantine) (by omega) hlater
        exact List.forall_mem_cons.mpr ⟨hpick, hrest⟩
      · simp only [multiKrumRounds, hsize, ↓reduceIte, Option.some.injEq] at h
        subst h
        simp

end Rounds

/-! ## A colluding group at the front -/

section Collusion

variable [IsStrictOrderedRing K] {distances : Fin n → Fin n → K} {honest : Finset (Fin n)}
  {f : Nat}

/-- When the pool has shrunk to `2f + 1`, the score of a colluding candidate is zero. -/
theorem colluding_score_le (nonneg : ∀ i j, 0 ≤ distances i j) {first : Fin n}
    (collude : ∀ j ∉ honest, distances first j = 0) {rest : List (Fin n)}
    (nodup : (first :: rest).Nodup) (hcount : f - 1 ≤ rest.countP (· ∉ honest)) (i : Fin n) :
    krumScoreSubset first (first :: rest) distances (f - 1) ≤
      krumScoreSubset i (first :: rest) distances (f - 1) := by
  have hzero : krumScoreSubset first (first :: rest) distances (f - 1) ≤ (f - 1) • (0 : K) := by
    rw [krumScoreSubset_eq nodup, List.erase_cons_head]
    apply smallestSum_le
    rw [List.countP_map]
    refine le_trans hcount (List.countP_mono_left ?_)
    intro j _ hj
    simp [collude j (by simpa using hj)]
  have hnonneg : 0 ≤ krumScoreSubset i (first :: rest) distances (f - 1) := by
    apply smallestSum_nonneg
    intro v hv
    obtain ⟨j, -, rfl⟩ := List.mem_map.mp hv
    exact nonneg i j
  rw [nsmul_zero] at hzero
  exact le_trans hzero hnonneg

/-- With `f ≥ 2` Byzantine candidates that collude, one of them is picked by the
time the pool has shrunk to `2f + 1`. -/
theorem rounds_pick_byzantine (hf : 2 ≤ f) (nonneg : ∀ i j, 0 ≤ distances i j) {first : Fin n}
    (hfirst : first ∉ honest) (collude : ∀ j ∉ honest, distances first j = 0) (m : Nat)
    {rest : List (Fin n)} (nodup : (first :: rest).Nodup)
    (hcount : f - 1 ≤ rest.countP (· ∉ honest)) (hlow : 2 * f ≤ rest.length)
    (hhigh : rest.length < m + 2 * f) {picks : List (Fin n)}
    (h : multiKrumRounds distances f m (first :: rest) = some picks) :
    ∃ i ∈ picks, i ∉ honest := by
  induction m generalizing rest picks with
  | zero => omega
  | succ m ih =>
      have hsize : (first :: rest).length > f + 2 := by
        rw [List.length_cons]
        omega
      simp only [multiKrumRounds, hsize, ↓reduceIte] at h
      obtain ⟨best, hbest⟩ := bestPos_isSome distances f (first :: rest) (by simp)
      simp only [hbest, Option.map_eq_some_iff] at h
      obtain ⟨later, hlater, rfl⟩ := h
      by_cases hpick : (first :: rest).get best ∈ honest
      · have hne : best ≠ 0 := by
          rintro rfl
          exact hfirst hpick
        by_cases hlast : rest.length = 2 * f
        · have hk : (first :: rest).length - f - 2 = f - 1 := by
            rw [List.length_cons]
            omega
          have htie := (bestPos_spec hbest 0).2
          rw [hk] at htie
          have hle := htie (colluding_score_le nonneg collude nodup hcount _)
          exact absurd (Fin.le_zero_iff.mp hle) hne
        · obtain ⟨later', rfl⟩ := Fin.exists_succ_eq.mpr hne
          have hsame := countP_eraseIdx (fun i => decide (i ∉ honest)) rest later'
          have hpick' : rest.get later' ∈ honest := hpick
          simp only [hpick', not_true_eq_false, decide_false, Bool.false_eq_true, ↓reduceIte,
            Nat.add_zero] at hsame
          have hlength := List.length_eraseIdx_of_lt later'.isLt
          simp only [Fin.val_succ, List.eraseIdx_cons_succ] at hlater
          have hnodup : (first :: rest.eraseIdx later').Nodup :=
            nodup.sublist ((List.eraseIdx_sublist _ _).cons_cons _)
          obtain ⟨i, hi, hbyzantine⟩ := ih hnodup (hsame ▸ hcount) (by omega) (by omega) hlater
          exact ⟨i, List.mem_cons_of_mem _ hi, hbyzantine⟩
      · exact ⟨_, List.mem_cons_self, hpick⟩

end Collusion

/-! ## Multi-Krum -/

section MultiKrum

/-- Every pick of the loop is honest, for every matrix that splits. -/
def RoundsSafe (K : Type) [Field K] [LinearOrder K] (n f m : Nat) : Prop :=
  ∀ (distances : Fin n → Fin n → K) (honest : Finset (Fin n)) (d D : K),
    Split distances honest f d D → (n : K) * d < D →
    ∃ picks, multiKrumRounds distances f m (List.finRange n) = some picks ∧
      ∀ i ∈ picks, i ∈ honest

/-- Every proposal that `multi_krum_select_semantic` returns is honest, for all
proposals and embedding models whose distance matrix splits. -/
def SelectionSafe (K : Type) [Field K] [LinearOrder K] (n f m : Nat) : Prop :=
  ∀ (x : Externals) (sqrt : K → K) (proposals : List ProposalEvent)
    (embeddingModel : Option (EmbeddingModel K)) (honest : Finset (Fin proposals.length))
    (d D : K), proposals.length = n →
    Split (semanticDistanceMatrix x sqrt proposals embeddingModel) honest f d D →
    (n : K) * d < D →
    ∃ picks, multiKrumSelectSemantic x sqrt proposals f m embeddingModel = some picks ∧
      ∀ i ∈ picks, i ∈ honest

variable [IsStrictOrderedRing K] {f m : Nat}

theorem roundsSafe_of_range (hn : minQuorum f ≤ n) (hrange : f = 1 ∨ m ≤ n - 2 * f - 1) :
    RoundsSafe K n f m := by
  intro distances honest d D split gap
  unfold minQuorum at hn
  have hcount := split.count
  obtain ⟨hhonest, hbyzantine⟩ := split.finRange_counts
  obtain ⟨picks, hpicks⟩ := multiKrumRounds_isSome distances f m (List.finRange n)
  have hd := split.diameter_nonneg (by omega)
  exact ⟨picks, hpicks, split.rounds_honest hd gap m (List.nodup_finRange n) hbyzantine
    (by omega) hpicks⟩

omit [IsStrictOrderedRing K] in
/-- The guards before the loop return no proposal. -/
theorem RoundsSafe.selectionSafe (safe : RoundsSafe K n f m) (hf : 1 ≤ f) :
    SelectionSafe K n f m := by
  intro x sqrt proposals embeddingModel honest d D hlength split gap
  subst hlength
  unfold multiKrumSelectSemantic
  by_cases hmodel : embeddingModel.isNone
  · exact ⟨[], by simp [hmodel], by simp⟩
  · by_cases hempty : proposals.isEmpty ∨ m = 0
    · exact ⟨[], by simp only [hmodel, hempty, Bool.false_eq_true, ↓reduceIte], by simp⟩
    · by_cases hquorum : quorumSatisfied proposals.length f
      · obtain ⟨picks, hpicks, hhonest⟩ := safe _ honest d D split gap
        refine ⟨picks, ?_, hhonest⟩
        have hf' : f ≠ 0 := by omega
        simp only [hmodel, hempty, hf', hquorum, Bool.not_true, Bool.false_eq_true, ↓reduceIte]
        exact hpicks
      · have hf' : f ≠ 0 := by omega
        refine ⟨[], ?_, by simp⟩
        simp only [hmodel, hempty, hf', hquorum, Bool.not_false, Bool.false_eq_true, ↓reduceIte]

/-- `f` proposals with one text, followed by `h` proposals with another. -/
def twoTexts (f h : Nat) : List ProposalEvent :=
  List.replicate f ⟨"task-1", "explorer-bad", 0, 0, "bad", 0⟩ ++
    List.replicate h ⟨"task-1", "explorer-good", 0, 0, "good", 0⟩

/-- A model without embeddings: outputs are compared for equality. -/
def noEmbedding : EmbeddingModel K := ⟨fun _ => []⟩

theorem twoTexts_rawOutput (f h : Nat) {i : Nat} (hi : i < (twoTexts f h).length) :
    (twoTexts f h)[i].rawOutput = if i < f then "bad" else "good" := by
  by_cases hfirst : i < f
  · simp [twoTexts, hfirst]
  · simp [twoTexts, List.getElem_append, hfirst]

omit [IsStrictOrderedRing K] in
/-- Zero within a group, one between the groups. -/
theorem twoTexts_distance (x : Externals) (sqrt : K → K) (f h : Nat)
    (i j : Fin (twoTexts f h).length) :
    semanticDistanceMatrix x sqrt (twoTexts f h) (some noEmbedding) i j =
      if (i.val < f ↔ j.val < f) then 0 else 1 := by
  unfold semanticDistanceMatrix
  simp only [List.get_eq_getElem, twoTexts_rawOutput]
  rw [symmetricMatrix_of_comm]
  · by_cases hij : i = j
    · simp [hij]
    · by_cases hi : i.val < f
      · by_cases hj : j.val < f
        · simp [embeddedSimilarity, noEmbedding, hi, hj]
        · simp [embeddedSimilarity, noEmbedding, hi, hj, hij]
      · by_cases hj : j.val < f
        · simp [embeddedSimilarity, noEmbedding, hi, hj, hij]
        · simp [embeddedSimilarity, noEmbedding, hi, hj]
  · intro i j
    simp [embeddedSimilarity, noEmbedding, eq_comm]

/-- The positions after the first group. -/
def after (n f : Nat) : Finset (Fin n) := (Finset.univ.filter fun i : Fin n => i.val < f)ᶜ

theorem mem_after (i : Fin n) : i ∈ after n f ↔ ¬ i.val < f := by
  simp [after]

theorem twoTexts_split (x : Externals) (sqrt : K → K) (f h : Nat) :
    Split (semanticDistanceMatrix x sqrt (twoTexts f h) (some noEmbedding))
      (after (twoTexts f h).length f) f 0 1 where
  count := by
    have hlength : (twoTexts f h).length = f + h := by simp [twoTexts]
    rw [after, Finset.card_compl, Fin.card_filter_val_lt, Fintype.card_fin]
    omega
  nonneg := by
    intro i j
    rw [twoTexts_distance]
    split
    · exact le_rfl
    · exact zero_le_one
  near := by
    intro i hi j hj _
    rw [twoTexts_distance]
    rw [mem_after] at hi hj
    simp [hi, hj]
  far := by
    intro i hi j hj
    rw [twoTexts_distance, twoTexts_distance]
    rw [mem_after] at hi hj
    simp [hi, not_not.mp hj]

theorem finRange_eq_cons (h : 0 < n) : List.finRange n = ⟨0, h⟩ :: (List.finRange n).tail := by
  cases n with
  | zero => omega
  | succ n => simp [List.finRange_succ]

/-- With the two texts the loop picks a proposal of the first group. -/
theorem twoTexts_picks_byzantine (x : Externals) (sqrt : K → K) {f h m : Nat} (hf : 2 ≤ f)
    (hh : f + 3 ≤ h) (hm : h - f ≤ m) :
    ∃ picks, multiKrumSelectSemantic x sqrt (twoTexts f h) f m (some noEmbedding) = some picks ∧
      ∃ i ∈ picks, i ∉ after (twoTexts f h).length f := by
  have hlength : (twoTexts f h).length = f + h := by simp [twoTexts]
  have hsplit := twoTexts_split x sqrt f h
  have hpos : 0 < (twoTexts f h).length := by omega
  have hfirst : (⟨0, hpos⟩ : Fin (twoTexts f h).length) ∉ after (twoTexts f h).length f := by
    rw [mem_after]
    simp only [not_not]
    omega
  obtain ⟨picks, hpicks⟩ := multiKrumRounds_isSome
    (semanticDistanceMatrix x sqrt (twoTexts f h) (some noEmbedding)) f m (List.finRange _)
  refine ⟨picks, ?_, ?_⟩
  · have hquorum : quorumSatisfied (twoTexts f h).length f = true := by
      have hmin : (twoTexts f h).length ≥ minQuorum f := by
        unfold minQuorum
        omega
      exact decide_eq_true hmin
    have hnonempty : ¬ ((twoTexts f h).isEmpty = true ∨ m = 0) := by
      rw [List.isEmpty_iff_length_eq_zero]
      omega
    have hf' : f ≠ 0 := by omega
    simp only [multiKrumSelectSemantic, hquorum, hnonempty, hf', Option.isNone_some,
      Bool.false_eq_true, Bool.not_true, ↓reduceIte]
    exact hpicks
  · have hcons := finRange_eq_cons hpos
    have hnodup := List.nodup_finRange (twoTexts f h).length
    have hbyzantine := hsplit.finRange_counts.2
    have htail := List.length_finRange (n := (twoTexts f h).length)
    rw [hcons] at hpicks hnodup hbyzantine htail
    simp only [List.length_cons, List.countP_cons, hfirst, not_false_eq_true, decide_true,
      ↓reduceIte] at hbyzantine htail
    apply rounds_pick_byzantine hf hsplit.nonneg hfirst ?_ m hnodup (by omega) (by omega)
      (by omega) hpicks
    intro j hj
    rw [mem_after, not_not] at hj
    rw [twoTexts_distance]
    have hzero : 0 < f := by omega
    simp [hj, hzero]

/-- For every `f ≥ 1`, every `n ≥ 2f + 3` and every `m`: all proposals that Multi-Krum
returns are honest, for every distance matrix that splits with `D > n * d`, exactly
when `f = 1` or `m ≤ n - 2f - 1`. This holds of the selection loop over arbitrary
matrices and of `multi_krum_select_semantic` over proposals and embedding models. -/
theorem multiKrum_safe_iff (n : Nat) (m : Nat) (hf : 1 ≤ f) (hn : 2 * f + 3 ≤ n) :
    (RoundsSafe K n f m ↔ f = 1 ∨ m ≤ n - 2 * f - 1) ∧
      (SelectionSafe K n f m ↔ f = 1 ∨ m ≤ n - 2 * f - 1) := by
  have hsafe : f = 1 ∨ m ≤ n - 2 * f - 1 → RoundsSafe K n f m := roundsSafe_of_range hn
  have hselect : SelectionSafe K n f m → f = 1 ∨ m ≤ n - 2 * f - 1 := by
    intro safe
    by_contra hout
    obtain ⟨h, rfl⟩ : ∃ h, n = f + h := ⟨n - f, by omega⟩
    have hlength : (twoTexts f h).length = f + h := by simp [twoTexts]
    obtain ⟨picks, hpicks, i, hi, hbyzantine⟩ := twoTexts_picks_byzantine (K := K) asciiExternals
      id (f := f) (h := h) (m := m) (by omega) (by omega) (by omega)
    obtain ⟨picks', hpicks', hhonest⟩ := safe asciiExternals id (twoTexts f h) (some noEmbedding)
      _ 0 1 hlength (twoTexts_split _ _ _ _) (by simp)
    rw [hpicks, Option.some.injEq] at hpicks'
    subst hpicks'
    exact hbyzantine (hhonest i hi)
  refine ⟨⟨?_, hsafe⟩, ⟨hselect, ?_⟩⟩
  · intro safe
    exact hselect (safe.selectionSafe hf)
  · intro hrange
    exact (hsafe hrange).selectionSafe hf

end MultiKrum

section Example

/-- Two picks out of seven proposals with two outliers are honest. -/
theorem two_of_seven_honest :
    ∃ picks, multiKrumSelectSemantic asciiExternals (id : ℚ → ℚ) (twoTexts 2 5) 2 2
        (some noEmbedding) = some picks ∧
      ∀ i ∈ picks, i ∈ after (twoTexts 2 5).length 2 := by
  have hsafe : SelectionSafe ℚ 7 2 2 :=
    (multiKrum_safe_iff 7 2 (by decide) (by decide)).2.mpr (.inr (by decide))
  exact hsafe asciiExternals id (twoTexts 2 5) (some noEmbedding) _ 0 1 (by decide)
    (twoTexts_split _ _ _ _) (by norm_num)

/-- The third pick has one neighbour to count, which is the other outlier. -/
theorem third_pick_byzantine :
    (multiKrumSelectSemantic asciiExternals (id : ℚ → ℚ) (twoTexts 2 5) 2 3
        (some noEmbedding)).map (·.map Fin.val) = some [2, 3, 0] ∧
      Split (semanticDistanceMatrix asciiExternals (id : ℚ → ℚ) (twoTexts 2 5)
        (some noEmbedding)) (after (twoTexts 2 5).length 2) 2 0 1 ∧
      (0 : Fin 7) ∉ after 7 2 ∧ ¬ SelectionSafe ℚ 7 2 3 := by
  refine ⟨by decide +kernel, twoTexts_split _ _ _ _, by decide, ?_⟩
  intro safe
  obtain ⟨picks, hpicks, hhonest⟩ := safe asciiExternals id (twoTexts 2 5) (some noEmbedding)
    _ 0 1 (by decide) (twoTexts_split _ _ _ _) (by norm_num)
  obtain ⟨picks', hpicks', i, hi, hbyzantine⟩ := twoTexts_picks_byzantine asciiExternals
    (id : ℚ → ℚ) (f := 2) (h := 5) (m := 3) (by decide) (by decide) (by decide)
  rw [hpicks, Option.some.injEq] at hpicks'
  subst hpicks'
  exact hbyzantine (hhonest i hi)

end Example

end ControlPlane.Guarantees.KrumSafety
