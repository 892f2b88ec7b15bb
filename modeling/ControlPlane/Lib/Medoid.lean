import ControlPlane.Lib.Overlap
import Mathlib.Algebra.BigOperators.Group.Finset.Basic
import Mathlib.Algebra.BigOperators.Ring.Finset
import Mathlib.Algebra.Order.BigOperators.Group.Finset
import Mathlib.Algebra.Order.BigOperators.Group.List
import Mathlib.Algebra.Order.Monoid.Unbundled.Pow
import Mathlib.Data.List.FinRange
import Mathlib.Data.List.MinMax
import Mathlib.Data.List.Sort

/-!
# Medoids of finite sets

The medoid of `n` finite sets is the last position of maximum row sum, where a row
adds the Jaccard index to every set and 1 for the position itself. A strict majority
of equal sets wins every row comparison. Against a fixed group of sets, the best the
other positions can do is to hold copies of one set.
-/
namespace ControlPlane.Lib.Medoid

open Overlap

/-! ## The last position of maximum value -/

/-- `i` has the largest value among the positions below `n`, and is the last such. -/
structure IsLastMax (value : ℕ → ℚ) (n i : ℕ) : Prop where
  lt : i < n
  max : ∀ j < n, value j ≤ value i
  last : ∀ j < n, value i ≤ value j → j ≤ i

/-- Scanning backwards for the first maximum. -/
theorem argmax_reverse_finRange {n : ℕ} (value : ℕ → ℚ) (i : Fin n) :
    ((List.finRange n).reverse.argmax fun j : Fin n => value j.val) = some i ↔
      IsLastMax value n i := by
  rw [List.argmax_eq_some_iff]
  have hidx : ∀ j : Fin n, (List.finRange n).reverse.idxOf j = n - 1 - j := by
    intro j
    have hnodup : (List.finRange n).reverse.Nodup := List.nodup_reverse.mpr (List.nodup_finRange n)
    have hpos : n - 1 - j < (List.finRange n).reverse.length := by
      simp only [List.length_reverse, List.length_finRange]
      omega
    have hget : (List.finRange n).reverse[n - 1 - j] = j := by
      rw [List.getElem_reverse]
      simp only [List.getElem_finRange, List.length_finRange, Fin.ext_iff, Fin.val_cast]
      omega
    conv_lhs => rw [← hget]
    exact hnodup.idxOf_getElem _ hpos
  constructor
  · rintro ⟨-, hmax, hlast⟩
    refine ⟨i.isLt, fun j hj => hmax ⟨j, hj⟩ (by simp), ?_⟩
    intro j hj hle
    have hfirst := hlast ⟨j, hj⟩ (by simp) hle
    rw [hidx, hidx] at hfirst
    simp only at hfirst
    omega
  · intro h
    refine ⟨by simp, fun j _ => h.max j j.isLt, ?_⟩
    intro j _ hle
    have hlast := h.last j j.isLt hle
    rw [hidx, hidx]
    omega

/-- The last maximum lies in a group exactly when some member of the group beats
every position outside it, the later position winning ties. -/
theorem IsLastMax.mem_iff {value : ℕ → ℚ} {n i : ℕ} (h : IsLastMax value n i)
    {group : Finset ℕ} (hgroup : group ⊆ Finset.range n) :
    i ∈ group ↔ ∃ g ∈ group, ∀ o ∈ Finset.range n \ group,
      value o < value g ∨ (value o = value g ∧ o < g) := by
  constructor
  · intro hi
    refine ⟨i, hi, ?_⟩
    intro o ho
    obtain ⟨ho, hout⟩ := Finset.mem_sdiff.mp ho
    rw [Finset.mem_range] at ho
    rcases lt_or_eq_of_le (h.max o ho) with hlt | heq
    · exact .inl hlt
    · have hne : o ≠ i := fun heq => hout (heq ▸ hi)
      exact .inr ⟨heq, lt_of_le_of_ne (h.last o ho heq.ge) hne⟩
  · rintro ⟨g, hg, hbeats⟩
    have hgn := Finset.mem_range.mp (hgroup hg)
    by_contra hout
    rcases hbeats i (Finset.mem_sdiff.mpr ⟨Finset.mem_range.mpr h.lt, hout⟩) with hlt | ⟨heq, hlt⟩
    · exact absurd (h.max g hgn) (not_le.mpr hlt)
    · exact absurd (h.last g hgn heq.le) (not_le.mpr hlt)

/-! ## Row sums -/

variable {α : Type*} [DecidableEq α]

def closeness (sets : ℕ → Finset α) (i j : ℕ) : ℚ :=
  if i = j then 1 else jaccard (sets i) (sets j)

def rowSum (sets : ℕ → Finset α) (n i : ℕ) : ℚ :=
  ∑ j ∈ Finset.range n, closeness sets i j

variable {sets : ℕ → Finset α} {n : ℕ}

/-- Against one position, a set of the majority gains at its copies what it can lose
elsewhere. -/
theorem closeness_gain {s : Finset α} (nonempty : s.Nonempty) {i k : ℕ} (hi : sets i = s)
    (hk : sets k ≠ s) (j : ℕ) :
    closeness sets k j +
        (if sets j = s then 1 - jaccard (sets k) s else -(1 - jaccard (sets k) s)) ≤
      closeness sets i j := by
  by_cases hj : sets j = s
  · have hkj : k ≠ j := by
      rintro rfl
      exact hk hj
    have hone : closeness sets i j = 1 := by
      unfold closeness
      rw [hi, hj, jaccard_self nonempty, ite_self]
    rw [hone]
    simp only [closeness, hkj, ↓reduceIte, hj]
    linarith
  · have hij : i ≠ j := by
      rintro rfl
      exact hj hi
    simp only [closeness, hij, ↓reduceIte, hj, hi]
    by_cases hkj : k = j
    · subst hkj
      rw [jaccard_comm s]
      simp
    · have htriangle := jaccard_triangle s (sets k) (sets j)
      rw [jaccard_comm s (sets k)] at htriangle
      simp only [hkj, ↓reduceIte]
      linarith

/-- A set that a strict majority of the positions holds beats every other set. -/
theorem rowSum_lt_of_majority {s : Finset α} (nonempty : s.Nonempty)
    (majority : n < 2 * ((Finset.range n).filter fun j => sets j = s).card) {i k : ℕ}
    (hi : sets i = s) (hk : sets k ≠ s) : rowSum sets n k < rowSum sets n i := by
  have hgap : 0 < 1 - jaccard (sets k) s := by
    have := jaccard_lt_one hk
    linarith
  have hrows := Finset.sum_le_sum fun j (_ : j ∈ Finset.range n) =>
    closeness_gain nonempty hi hk j
  rw [Finset.sum_add_distrib, Finset.sum_ite, Finset.sum_const, Finset.sum_const] at hrows
  have hsplit := Finset.card_filter_add_card_filter_not
    (s := Finset.range n) (p := fun j => sets j = s)
  rw [Finset.card_range] at hsplit
  have hmore : ((Finset.range n).filter fun j => ¬ sets j = s).card + 1 ≤
      ((Finset.range n).filter fun j => sets j = s).card := by omega
  have hmore' : ((((Finset.range n).filter fun j => ¬ sets j = s).card : ℚ) + 1) ≤
      ((Finset.range n).filter fun j => sets j = s).card := by exact_mod_cast hmore
  have hscaled := mul_le_mul_of_nonneg_right hmore' hgap.le
  simp only [nsmul_eq_mul] at hrows
  unfold rowSum
  linarith

theorem rowSum_self_le (sets : ℕ → Finset α) {i : ℕ} (hi : i < n) : 1 ≤ rowSum sets n i := by
  have hself : closeness sets i i ≤ rowSum sets n i := by
    refine Finset.single_le_sum (f := closeness sets i) ?_ (Finset.mem_range.mpr hi)
    intro j _
    unfold closeness
    split
    · exact zero_le_one
    · exact jaccard_nonneg _ _
  simpa [closeness] using hself

/-- A row is at its minimum exactly when its set shares nothing with the others. -/
theorem rowSum_eq_one_iff {i : ℕ} (hi : i < n) :
    rowSum sets n i = 1 ↔ ∀ j < n, i ≠ j → Disjoint (sets i) (sets j) := by
  have hothers : rowSum sets n i =
      1 + ∑ j ∈ (Finset.range n).erase i, jaccard (sets i) (sets j) := by
    unfold rowSum
    rw [← Finset.add_sum_erase _ _ (Finset.mem_range.mpr hi)]
    congr 1
    · simp [closeness]
    · refine Finset.sum_congr rfl ?_
      intro j hj
      simp only [closeness, (Finset.mem_erase.mp hj).1.symm, ↓reduceIte]
  rw [hothers, add_eq_left, Finset.sum_eq_zero_iff_of_nonneg (fun j _ => jaccard_nonneg _ _)]
  constructor
  · intro h j hj hne
    exact (jaccard_eq_zero_iff _ _).mp
      (h j (Finset.mem_erase.mpr ⟨hne.symm, Finset.mem_range.mpr hj⟩))
  · intro h j hj
    obtain ⟨hne, hj⟩ := Finset.mem_erase.mp hj
    exact (jaccard_eq_zero_iff _ _).mpr (h j (Finset.mem_range.mp hj) hne.symm)

/-! ## Copies of one set against a group -/

section Attack

variable {group : Finset ℕ}

/-- The row sum of a position outside the group when all `b` of them hold `x`. -/
def attackSum (sets : ℕ → Finset α) (group : Finset ℕ) (b : ℕ) (x : Finset α) : ℚ :=
  (if x = ∅ then 1 else (b : ℚ)) + ∑ i ∈ group, jaccard x (sets i)

/-- The row sum of a member of the group when all `b` other positions hold `x`. -/
def defenceSum (sets : ℕ → Finset α) (group : Finset ℕ) (b : ℕ) (x : Finset α) (g : ℕ) : ℚ :=
  ∑ i ∈ group, closeness sets g i + b * jaccard (sets g) x

/-- Both sums read the sets of the group only. -/
theorem attackSum_congr {sets' : ℕ → Finset α} (same : ∀ i ∈ group, sets' i = sets i) (b : ℕ)
    (x : Finset α) : attackSum sets' group b x = attackSum sets group b x := by
  unfold attackSum
  congr 1
  exact Finset.sum_congr rfl fun i hi => by rw [same i hi]

theorem defenceSum_congr {sets' : ℕ → Finset α} (same : ∀ i ∈ group, sets' i = sets i) (b : ℕ)
    (x : Finset α) {g : ℕ} (hg : g ∈ group) :
    defenceSum sets' group b x g = defenceSum sets group b x g := by
  unfold defenceSum closeness
  rw [same g hg]
  congr 1
  exact Finset.sum_congr rfl fun i hi => by rw [same i hi]

theorem rowSum_split (hgroup : group ⊆ Finset.range n) (i : ℕ) :
    rowSum sets n i = ∑ j ∈ Finset.range n \ group, closeness sets i j +
      ∑ j ∈ group, closeness sets i j := by
  rw [rowSum, Finset.sum_sdiff hgroup]

theorem sum_closeness_outside {o : ℕ} (ho : o ∉ group) :
    ∑ j ∈ group, closeness sets o j = ∑ j ∈ group, jaccard (sets o) (sets j) := by
  refine Finset.sum_congr rfl ?_
  intro j hj
  have hne : o ≠ j := fun heq => ho (heq ▸ hj)
  simp only [closeness, hne, ↓reduceIte]

theorem sum_closeness_inside {g : ℕ} (hg : g ∈ group) :
    ∑ j ∈ Finset.range n \ group, closeness sets g j =
      ∑ j ∈ Finset.range n \ group, jaccard (sets g) (sets j) := by
  refine Finset.sum_congr rfl ?_
  intro j hj
  have hne : g ≠ j := fun heq => (Finset.mem_sdiff.mp hj).2 (heq ▸ hg)
  simp only [closeness, hne, ↓reduceIte]

theorem closeness_add_jaccard_le (sets : ℕ → Finset α) (o g j : ℕ) :
    closeness sets o j + jaccard (sets g) (sets o) ≤ 1 + jaccard (sets g) (sets j) := by
  by_cases hself : o = j
  · subst hself
    simp [closeness]
  · have htriangle := jaccard_triangle (sets g) (sets o) (sets j)
    simp only [closeness, hself, ↓reduceIte]
    linarith

/-- The lead of an outside position over a member of the group is at most what it
would be if all outside positions held its set. -/
theorem lead_le_attack (hgroup : group ⊆ Finset.range n) {o g : ℕ}
    (ho : o ∈ Finset.range n \ group) (hg : g ∈ group) :
    rowSum sets n o + defenceSum sets group (Finset.range n \ group).card (sets o) g ≤
      attackSum sets group (Finset.range n \ group).card (sets o) + rowSum sets n g := by
  rw [rowSum_split hgroup o, rowSum_split hgroup g, defenceSum, attackSum,
    sum_closeness_outside (Finset.mem_sdiff.mp ho).2, sum_closeness_inside hg]
  have houtside : ∑ j ∈ Finset.range n \ group, closeness sets o j +
      ((Finset.range n \ group).card : ℚ) * jaccard (sets g) (sets o) ≤
      (if sets o = ∅ then 1 else ((Finset.range n \ group).card : ℚ)) +
        ∑ j ∈ Finset.range n \ group, jaccard (sets g) (sets j) := by
    by_cases hempty : sets o = ∅
    · -- an empty set is close to itself only
      have hself : ∑ j ∈ Finset.range n \ group, closeness sets o j = 1 := by
        rw [Finset.sum_eq_single_of_mem o ho]
        · simp [closeness]
        · intro j _ hne
          simp only [closeness, hne.symm, ↓reduceIte, hempty, jaccard_empty_left]
      have hnonneg : 0 ≤ ∑ j ∈ Finset.range n \ group, jaccard (sets g) (sets j) :=
        Finset.sum_nonneg fun j _ => jaccard_nonneg _ _
      rw [hself, hempty, jaccard_empty_right]
      simp only [↓reduceIte]
      linarith
    · have hterms := Finset.sum_le_sum fun j (_ : j ∈ Finset.range n \ group) =>
        closeness_add_jaccard_le sets o g j
      simp only [Finset.sum_add_distrib, Finset.sum_const, nsmul_eq_mul, mul_one] at hterms
      simp only [hempty, ↓reduceIte]
      exact hterms
  linarith

/-- When all outside positions hold `x`, the two sums are the row sums. -/
theorem rowSum_of_copies (hgroup : group ⊆ Finset.range n) {x : Finset α}
    (copies : ∀ o ∈ Finset.range n \ group, sets o = x) :
    (∀ o ∈ Finset.range n \ group,
        rowSum sets n o = attackSum sets group (Finset.range n \ group).card x) ∧
      ∀ g ∈ group, rowSum sets n g = defenceSum sets group (Finset.range n \ group).card x g := by
  constructor
  · intro o ho
    rw [rowSum_split hgroup, sum_closeness_outside (Finset.mem_sdiff.mp ho).2, copies o ho,
      attackSum]
    congr 1
    by_cases hempty : x = ∅
    · rw [Finset.sum_eq_single_of_mem o ho]
      · simp [closeness, hempty]
      · intro j _ hne
        simp only [closeness, hne.symm, ↓reduceIte, copies o ho, hempty, jaccard_empty_left]
    · have hones : ∀ j ∈ Finset.range n \ group, closeness sets o j = 1 := by
        intro j hj
        simp only [closeness, copies o ho, copies j hj,
          jaccard_self (Finset.nonempty_iff_ne_empty.mpr hempty), ite_self]
      rw [Finset.sum_congr rfl hones]
      simp [hempty]
  · intro g hg
    rw [rowSum_split hgroup, sum_closeness_inside hg, defenceSum, add_comm]
    congr 1
    rw [Finset.sum_congr rfl fun j hj => by rw [copies j hj], Finset.sum_const, nsmul_eq_mul]

end Attack

end ControlPlane.Lib.Medoid

/-!
## Sums of the smallest entries of a list

`smallestSum k values` adds the `k` smallest entries. It is at most `k • d` when
`k` entries are at most `d`; among entries that are not negative it is at least
`(k - j) • D` when at most `j` of them lie below `D`.
-/
namespace ControlPlane.Lib

variable {K : Type*} [AddCommMonoid K] [LinearOrder K] [IsOrderedAddMonoid K]

def smallestSum (k : Nat) (values : List K) : K :=
  ((values.insertionSort (· ≤ ·)).take k).sum

omit [AddCommMonoid K] [IsOrderedAddMonoid K] in
/-- The entries at most `d` stand first in a sorted list. -/
theorem take_le_of_sorted {values : List K} (sorted : values.Pairwise (· ≤ ·)) {k : Nat} {d : K}
    (h : k ≤ values.countP (· ≤ d)) : ∀ v ∈ values.take k, v ≤ d := by
  induction values generalizing k with
  | nil => simp
  | cons a rest ih =>
      obtain ⟨hfirst, hrest⟩ := List.pairwise_cons.mp sorted
      cases k with
      | zero => simp
      | succ k =>
          have ha : a ≤ d := by
            by_contra hlarge
            have hnone : rest.countP (· ≤ d) = 0 := by
              rw [List.countP_eq_zero]
              intro v hv hsmall
              exact hlarge (le_trans (hfirst v hv) (by simpa using hsmall))
            simp only [List.countP_cons, hnone, hlarge, decide_false] at h
            simp at h
          have hcount : k ≤ rest.countP (· ≤ d) := by
            simp only [List.countP_cons, ha, decide_true, ↓reduceIte] at h
            omega
          simp only [List.take_succ_cons, List.forall_mem_cons]
          exact ⟨ha, ih hrest hcount⟩

theorem smallestSum_le {values : List K} {k : Nat} {d : K} (h : k ≤ values.countP (· ≤ d)) :
    smallestSum k values ≤ k • d := by
  have hperm := List.perm_insertionSort (· ≤ ·) values
  have hcount : k ≤ (values.insertionSort (· ≤ ·)).countP (· ≤ d) := by
    rw [hperm.countP_eq]
    exact h
  have hlength : ((values.insertionSort (· ≤ ·)).take k).length = k := by
    rw [List.length_take]
    exact min_eq_left (le_trans hcount List.countP_le_length)
  have hsum := List.sum_le_card_nsmul _ d
    (take_le_of_sorted (List.pairwise_insertionSort (· ≤ ·) values) hcount)
  rwa [hlength] at hsum

theorem smallestSum_nonneg {values : List K} (nonneg : ∀ v ∈ values, 0 ≤ v) (k : Nat) :
    0 ≤ smallestSum k values := by
  refine List.sum_nonneg ?_
  intro v hv
  exact nonneg v ((List.mem_insertionSort (· ≤ ·)).mp (List.mem_of_mem_take hv))

/-- Entries at least `D` count for at least `D` each. -/
theorem countP_nsmul_le_sum {values : List K} (nonneg : ∀ v ∈ values, 0 ≤ v) (D : K) :
    values.countP (D ≤ ·) • D ≤ values.sum := by
  induction values with
  | nil => simp
  | cons a rest ih =>
      obtain ⟨ha, hrest⟩ := List.forall_mem_cons.mp nonneg
      by_cases hlarge : D ≤ a
      · simp only [List.countP_cons, hlarge, decide_true, ↓reduceIte, List.sum_cons, succ_nsmul]
        rw [add_comm]
        exact add_le_add hlarge (ih hrest)
      · simp only [List.countP_cons, hlarge, decide_false, List.sum_cons]
        exact le_add_of_nonneg_of_le ha (ih hrest)

theorem le_smallestSum {values : List K} (nonneg : ∀ v ∈ values, 0 ≤ v) {k j : Nat} {D : K}
    (hD : 0 ≤ D) (hk : k ≤ values.length) (hj : values.countP (· < D) ≤ j) :
    (k - j) • D ≤ smallestSum k values := by
  have hperm := List.perm_insertionSort (· ≤ ·) values
  have hlength : ((values.insertionSort (· ≤ ·)).take k).length = k := by
    rw [List.length_take, List.length_insertionSort]
    exact min_eq_left hk
  have hfew : ((values.insertionSort (· ≤ ·)).take k).countP (· < D) ≤ j := by
    refine le_trans (List.Sublist.countP_le (List.take_sublist _ _)) ?_
    rw [hperm.countP_eq]
    exact hj
  have hmany : k - j ≤ ((values.insertionSort (· ≤ ·)).take k).countP (D ≤ ·) := by
    have hsplit := List.length_eq_countP_add_countP (D ≤ ·)
      (l := (values.insertionSort (· ≤ ·)).take k)
    simp only [decide_eq_true_eq, not_le] at hsplit
    omega
  calc
    (k - j) • D ≤ ((values.insertionSort (· ≤ ·)).take k).countP (D ≤ ·) • D :=
      nsmul_le_nsmul_left hD hmany
    _ ≤ smallestSum k values := by
      refine countP_nsmul_le_sum ?_ D
      intro v hv
      exact nonneg v ((List.mem_insertionSort (· ≤ ·)).mp (List.mem_of_mem_take hv))

end ControlPlane.Lib
