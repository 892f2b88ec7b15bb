import ControlPlane.Lib.SecondMoments
import ControlPlane.Source.Ensemble.Diagnostics
import Mathlib.Algebra.BigOperators.Fin
import Mathlib.Algebra.BigOperators.Ring.List
import Mathlib.Algebra.Order.Field.Rat

/-!
# The participation ratio

The ratio of the squared trace of the covariance matrix to the sum of its squared entries counts
the dimensions in which the probes differ: there is at least one of them, and there are at most as
many as constraints, and as probes less one. So the last clamp does nothing. The ratio is a function
of the covariances alone, which do not see an order of the probes nor a constant in a column.
-/
namespace ControlPlane.Guarantees.ParticipationRatio

open Lib Source.Ensemble

variable {K : Type} [Field K]

/-! ## Statement -/

section Statement

variable [LinearOrder K] (m : ℕ) (matrix : List (List K))

def Rectangular : Prop := ∀ row ∈ matrix, row.length = m

/-- `trace_c` of a matrix with `m` columns. -/
def traceOf : K := traceC m (centeredRows m matrix) ((matrix.length - 1 : ℕ) : K)

/-- `frob_sq` of a matrix with `m` columns. -/
def frobOf : K := frobSq m (centeredRows m matrix) ((matrix.length - 1 : ℕ) : K)

def PassesGuards : Prop := epsilon ≤ traceOf m matrix ∧ epsilon ≤ frobOf m matrix

instance : Decidable (Rectangular m matrix) :=
  inferInstanceAs (Decidable (∀ row ∈ matrix, row.length = m))

instance : Decidable (PassesGuards m matrix) :=
  inferInstanceAs (Decidable (epsilon ≤ traceOf m matrix ∧ epsilon ≤ frobOf m matrix))

/-- The constraints in another order. -/
def permuteColumns (order : List ℕ) (matrix : List (List K)) : List (List K) :=
  matrix.map fun row => order.map fun j => row.getD j 0

def addToColumn (j : ℕ) (c : K) (matrix : List (List K)) : List (List K) :=
  matrix.map fun row => row.modify j (· + c)

structure EffectiveDimension : Prop where
  atLeastOne : PassesGuards m matrix → 1 ≤ traceOf m matrix ^ 2 / frobOf m matrix
  atMostColumns : PassesGuards m matrix → traceOf m matrix ^ 2 / frobOf m matrix ≤ (m : K)
  atMostProbes : PassesGuards m matrix →
    traceOf m matrix ^ 2 / frobOf m matrix ≤ ((matrix.length - 1 : ℕ) : K)
  unclamped : PassesGuards m matrix →
    participationRatio matrix = traceOf m matrix ^ 2 / frobOf m matrix
  probes : ∀ matrix', matrix.Perm matrix' → participationRatio matrix' = participationRatio matrix
  constraints : ∀ order : List ℕ, order.Perm (List.range m) →
    participationRatio (permuteColumns order matrix) = participationRatio matrix
  shift : ∀ j c, participationRatio (addToColumn j c matrix) = participationRatio matrix

end Statement

/-! ## The covariances -/

section Covariances

variable {m : ℕ} {matrix matrix' : List (List K)}

/-- The sum of the products of the deviations of two columns. -/
def covarSum (matrix : List (List K)) (j k : ℕ) : K :=
  (matrix.map fun row =>
    (row.getD j 0 - columnMean matrix j) * (row.getD k 0 - columnMean matrix k)).sum

theorem columnDot_centered (rect : Rectangular m matrix) {j k : ℕ} (hj : j < m) (hk : k < m) :
    columnDot (centeredRows m matrix) j k = covarSum matrix j k := by
  unfold columnDot centeredRows covarSum
  rw [List.map_map]
  congr 1
  apply List.map_congr_left
  intro row hrow
  have hlength := rect row hrow
  simp [List.getD_eq_getElem?_getD, hlength, hj, hk]

def covarTrace (m : ℕ) (matrix : List (List K)) : K :=
  ((List.range m).map fun j => covarSum matrix j j).sum

def covarSq (m : ℕ) (matrix : List (List K)) : K :=
  ((List.range m).map fun j => ((List.range m).map fun k => covarSum matrix j k ^ 2).sum).sum

theorem traceOf_eq [LinearOrder K] (rect : Rectangular m matrix) :
    traceOf m matrix = covarTrace m matrix / ((matrix.length - 1 : ℕ) : K) := by
  unfold traceOf traceC covarTrace
  congr 2
  apply List.map_congr_left
  intro j hj
  rw [List.mem_range] at hj
  exact columnDot_centered rect hj hj

theorem frobOf_eq [LinearOrder K] (rect : Rectangular m matrix) :
    frobOf m matrix = covarSq m matrix / ((matrix.length - 1 : ℕ) : K) ^ 2 := by
  unfold frobOf frobSq covarSq
  rw [div_eq_mul_inv, ← List.sum_map_mul_right]
  congr 1
  apply List.map_congr_left
  intro j hj
  rw [← List.sum_map_mul_right]
  congr 1
  apply List.map_congr_left
  intro k hk
  rw [List.mem_range] at hj hk
  rw [columnDot_centered rect hj hk]
  ring

/-- The function reads the matrix through its trace and its Frobenius norm. -/
theorem participationRatio_eq [LinearOrder K] (nonempty : matrix ≠ [])
    (rect : Rectangular m matrix) :
    participationRatio matrix =
      if m = 0 then 1
      else if ((matrix.length - 1 : ℕ) : K) < epsilon then 1
      else if traceOf m matrix < epsilon then 1
      else if frobOf m matrix < epsilon then 1
      else clamp 1 (m : K) (traceOf m matrix * traceOf m matrix / frobOf m matrix) := by
  cases matrix with
  | nil => exact absurd rfl nonempty
  | cons first rest =>
      obtain rfl : first.length = m := rect first (List.mem_cons_self ..)
      rfl

theorem participationRatio_congr [LinearOrder K] (nonempty : matrix ≠ [])
    (rect : Rectangular m matrix) (rect' : Rectangular m matrix')
    (length : matrix'.length = matrix.length) (trace : covarTrace m matrix' = covarTrace m matrix)
    (sq : covarSq m matrix' = covarSq m matrix) :
    participationRatio matrix' = participationRatio matrix := by
  have nonempty' : matrix' ≠ [] := by
    intro h
    rw [h] at length
    exact nonempty (List.length_eq_zero_iff.mp length.symm)
  have htrace : traceOf m matrix' = traceOf m matrix := by
    rw [traceOf_eq rect', traceOf_eq rect, trace, length]
  have hfrob : frobOf m matrix' = frobOf m matrix := by
    rw [frobOf_eq rect', frobOf_eq rect, sq, length]
  rw [participationRatio_eq nonempty' rect', participationRatio_eq nonempty rect, htrace, hfrob,
    length]

end Covariances

/-! ## What the covariances do not see -/

section Invariance

variable {m : ℕ} {matrix : List (List K)}

theorem covarSum_perm {matrix' : List (List K)} (h : matrix.Perm matrix') (j k : ℕ) :
    covarSum matrix' j k = covarSum matrix j k := by
  have hmean : ∀ j, columnMean matrix' j = columnMean matrix j := by
    intro j
    rw [columnMean, columnMean, (h.map fun row => row.getD j 0).sum_eq, h.length_eq]
  unfold covarSum
  rw [hmean, hmean]
  exact ((h.map _).sum_eq).symm

theorem permuteColumns_getD {order : List ℕ} {j : ℕ} (hj : j < order.length) (row : List K) :
    (order.map fun k => row.getD k 0).getD j 0 = row.getD (order.getD j 0) 0 := by
  simp [List.getD_eq_getElem?_getD, hj]

theorem covarSum_permuteColumns {order : List ℕ} {j k : ℕ} (hj : j < order.length)
    (hk : k < order.length) :
    covarSum (permuteColumns order matrix) j k =
      covarSum matrix (order.getD j 0) (order.getD k 0) := by
  have hmean : ∀ i, i < order.length →
      columnMean (permuteColumns order matrix) i = columnMean matrix (order.getD i 0) := by
    intro i hi
    unfold columnMean permuteColumns
    rw [List.map_map, List.length_map]
    congr 2
    exact List.map_congr_left fun row _ => permuteColumns_getD hi row
  unfold covarSum
  rw [hmean j hj, hmean k hk, permuteColumns, List.map_map]
  congr 1
  apply List.map_congr_left
  intro row _
  simp only [Function.comp, permuteColumns_getD hj, permuteColumns_getD hk]

/-- A sum over the places of a reordering is the sum over what is reordered. -/
theorem sum_reordered {order : List ℕ} (h : order.Perm (List.range m)) (g : ℕ → K) :
    ((List.range m).map fun i => g (order.getD i 0)).sum = ((List.range m).map g).sum := by
  have hlength : order.length = m := by rw [h.length_eq, List.length_range]
  have hmap : (List.range m).map (fun i => g (order.getD i 0)) = order.map g := by
    apply List.ext_getElem
    · simp [hlength]
    · intro i hi _
      rw [List.length_map, List.length_range] at hi
      simp [List.getD_eq_getElem?_getD, hlength, hi]
  rw [hmap, (h.map g).sum_eq]

theorem covarTrace_permuteColumns {order : List ℕ} (h : order.Perm (List.range m)) :
    covarTrace m (permuteColumns order matrix) = covarTrace m matrix := by
  have hlength : order.length = m := by rw [h.length_eq, List.length_range]
  unfold covarTrace
  rw [← sum_reordered h fun j => covarSum matrix j j]
  congr 1
  apply List.map_congr_left
  intro j hj
  rw [List.mem_range, ← hlength] at hj
  exact covarSum_permuteColumns hj hj

theorem covarSq_permuteColumns {order : List ℕ} (h : order.Perm (List.range m)) :
    covarSq m (permuteColumns order matrix) = covarSq m matrix := by
  have hlength : order.length = m := by rw [h.length_eq, List.length_range]
  unfold covarSq
  rw [← sum_reordered h fun j => ((List.range m).map fun k => covarSum matrix j k ^ 2).sum]
  congr 1
  apply List.map_congr_left
  intro j hj
  rw [← sum_reordered h fun k => covarSum matrix (order.getD j 0) k ^ 2]
  congr 1
  apply List.map_congr_left
  intro k hk
  rw [List.mem_range, ← hlength] at hj hk
  rw [covarSum_permuteColumns hj hk]

theorem addToColumn_getD {row : List K} {j k : ℕ} {c : K} (hk : k < row.length) :
    (row.modify j (· + c)).getD k 0 = row.getD k 0 + if j = k then c else 0 := by
  simp only [List.getD_eq_getElem?_getD, List.getElem?_modify, List.getElem?_eq_getElem hk]
  split
  · simp_all
  · simp_all

theorem covarSum_addToColumn [CharZero K] (nonempty : matrix ≠ []) (rect : Rectangular m matrix)
    (j : ℕ) (c : K) {i k : ℕ} (hi : i < m) (hk : k < m) :
    covarSum (addToColumn j c matrix) i k = covarSum matrix i k := by
  have hcard : (matrix.length : K) ≠ 0 :=
    Nat.cast_ne_zero.mpr fun h => nonempty (List.length_eq_zero_iff.mp h)
  have hmean : ∀ i, i < m → columnMean (addToColumn j c matrix) i =
      columnMean matrix i + if j = i then c else 0 := by
    intro i hi
    have hentries : (matrix.map fun row => (row.modify j (· + c)).getD i 0) =
        matrix.map fun row => row.getD i 0 + if j = i then c else 0 :=
      List.map_congr_left fun row hrow => addToColumn_getD (by rw [rect row hrow]; exact hi)
    unfold columnMean addToColumn
    rw [List.map_map, List.length_map]
    change (matrix.map fun row => (row.modify j (· + c)).getD i 0).sum / _ = _
    rw [hentries, List.sum_map_add, List.map_const', List.sum_replicate, nsmul_eq_mul]
    field_simp
  unfold covarSum
  rw [hmean i hi, hmean k hk, addToColumn, List.map_map]
  congr 1
  apply List.map_congr_left
  intro row hrow
  have hlength := rect row hrow
  simp only [Function.comp]
  rw [addToColumn_getD (by omega), addToColumn_getD (by omega)]
  ring

theorem covarTrace_addToColumn [CharZero K] (nonempty : matrix ≠ []) (rect : Rectangular m matrix)
    (j : ℕ) (c : K) : covarTrace m (addToColumn j c matrix) = covarTrace m matrix := by
  unfold covarTrace
  congr 1
  apply List.map_congr_left
  intro i hi
  rw [List.mem_range] at hi
  exact covarSum_addToColumn nonempty rect j c hi hi

theorem covarSq_addToColumn [CharZero K] (nonempty : matrix ≠ []) (rect : Rectangular m matrix)
    (j : ℕ) (c : K) : covarSq m (addToColumn j c matrix) = covarSq m matrix := by
  unfold covarSq
  congr 1
  apply List.map_congr_left
  intro i hi
  congr 1
  apply List.map_congr_left
  intro k hk
  rw [List.mem_range] at hi hk
  rw [covarSum_addToColumn nonempty rect j c hi hk]

end Invariance

/-! ## The guarantee -/

section

variable [LinearOrder K] [IsStrictOrderedRing K] {m : ℕ} {matrix : List (List K)}

/-- How far probe `i` is from the mean in column `j`. -/
def deviation (matrix : List (List K)) (i : Fin matrix.length) (j : ℕ) : K :=
  matrix[i].getD j 0 - columnMean matrix j

omit [LinearOrder K] [IsStrictOrderedRing K] in
theorem cross_deviation (j k : ℕ) :
    cross Finset.univ (deviation matrix) j k = covarSum matrix j k :=
  Fin.sum_univ_fun_getElem matrix fun row =>
    (row.getD j 0 - columnMean matrix j) * (row.getD k 0 - columnMean matrix k)

omit [LinearOrder K] [IsStrictOrderedRing K] in
theorem crossTrace_deviation :
    crossTrace Finset.univ (Finset.range m) (deviation matrix) = covarTrace m matrix :=
  Finset.sum_congr rfl fun j _ => cross_deviation j j

omit [LinearOrder K] [IsStrictOrderedRing K] in
theorem crossSq_deviation :
    crossSq Finset.univ (Finset.range m) (deviation matrix) = covarSq m matrix := by
  unfold crossSq
  simp only [cross_deviation]
  rfl

theorem sum_deviation (nonempty : matrix ≠ []) (j : ℕ) : ∑ i, deviation matrix i j = 0 := by
  have hcard : (matrix.length : K) ≠ 0 :=
    Nat.cast_ne_zero.mpr fun h => nonempty (List.length_eq_zero_iff.mp h)
  have hsum : ∑ i : Fin matrix.length, matrix[i].getD j 0 =
      (matrix.map fun row => row.getD j 0).sum :=
    Fin.sum_univ_fun_getElem matrix fun row => row.getD j 0
  simp only [deviation, Finset.sum_sub_distrib, Finset.sum_const, Finset.card_univ,
    Fintype.card_fin, nsmul_eq_mul]
  rw [hsum, columnMean]
  field_simp
  ring

theorem epsilon_pos : (0 : K) < epsilon := by
  unfold epsilon
  positivity

theorem ratio_eq (rect : Rectangular m matrix) (two : 2 ≤ matrix.length) :
    traceOf m matrix ^ 2 / frobOf m matrix = covarTrace m matrix ^ 2 / covarSq m matrix := by
  have hdenom : ((matrix.length - 1 : ℕ) : K) ≠ 0 := Nat.cast_ne_zero.mpr (by omega)
  rw [traceOf_eq rect, frobOf_eq rect, div_pow, div_div_div_cancel_right₀ (pow_ne_zero 2 hdenom)]

theorem covarSq_pos (rect : Rectangular m matrix) (passes : PassesGuards m matrix) :
    0 < covarSq m matrix := by
  have hfrob : 0 < frobOf m matrix := epsilon_pos.trans_le passes.2
  have hnonneg : 0 ≤ covarSq m matrix := by
    rw [← crossSq_deviation]
    exact crossSq_nonneg
  rw [frobOf_eq rect] at hfrob
  refine hnonneg.lt_of_ne fun hzero => ?_
  rw [← hzero, zero_div] at hfrob
  exact lt_irrefl 0 hfrob

theorem one_le_ratio (rect : Rectangular m matrix) (two : 2 ≤ matrix.length)
    (passes : PassesGuards m matrix) : 1 ≤ traceOf m matrix ^ 2 / frobOf m matrix := by
  rw [ratio_eq rect two, one_le_div₀ (covarSq_pos rect passes), ← crossSq_deviation,
    ← crossTrace_deviation]
  exact crossSq_le_trace_sq

theorem ratio_le_columns (rect : Rectangular m matrix) (two : 2 ≤ matrix.length)
    (passes : PassesGuards m matrix) : traceOf m matrix ^ 2 / frobOf m matrix ≤ (m : K) := by
  rw [ratio_eq rect two, div_le_iff₀ (covarSq_pos rect passes), ← crossSq_deviation,
    ← crossTrace_deviation]
  simpa using trace_sq_le_columns (s := Finset.univ) (t := Finset.range m) (A := deviation matrix)

theorem ratio_le_probes (rect : Rectangular m matrix) (two : 2 ≤ matrix.length)
    (passes : PassesGuards m matrix) :
    traceOf m matrix ^ 2 / frobOf m matrix ≤ ((matrix.length - 1 : ℕ) : K) := by
  have hnonempty : matrix ≠ [] := List.ne_nil_of_length_pos (by omega)
  have huniv : (Finset.univ : Finset (Fin matrix.length)).Nonempty :=
    ⟨⟨0, by omega⟩, Finset.mem_univ _⟩
  have hrows := trace_sq_le_rows (t := Finset.range m) huniv
    fun j _ => sum_deviation hnonempty j
  rw [ratio_eq rect two, div_le_iff₀ (covarSq_pos rect passes), ← crossSq_deviation,
    ← crossTrace_deviation, Nat.cast_sub (by omega : 1 ≤ matrix.length), Nat.cast_one]
  simpa using hrows

theorem participationRatio_unclamped (rect : Rectangular m matrix) (two : 2 ≤ matrix.length)
    (passes : PassesGuards m matrix) :
    participationRatio matrix = traceOf m matrix ^ 2 / frobOf m matrix := by
  have hcolumns : m ≠ 0 := by
    rintro rfl
    have htrace := epsilon_pos.trans_le passes.1
    rw [traceOf_eq rect, covarTrace, List.range_zero, List.map_nil, List.sum_nil,
      zero_div] at htrace
    exact lt_irrefl 0 htrace
  have hdenom : ¬((matrix.length - 1 : ℕ) : K) < epsilon := by
    have hone : (1 : K) ≤ ((matrix.length - 1 : ℕ) : K) :=
      Nat.one_le_cast.mpr (by omega)
    have heps : (epsilon : K) ≤ 1 := by
      unfold epsilon
      norm_num
    exact not_lt.mpr (heps.trans hone)
  rw [participationRatio_eq (List.ne_nil_of_length_pos (by omega)) rect, if_neg hcolumns,
    if_neg hdenom, if_neg (not_lt.mpr passes.1), if_neg (not_lt.mpr passes.2), ← sq, clamp,
    min_eq_left (ratio_le_columns rect two passes), max_eq_right (one_le_ratio rect two passes)]

theorem participation_ratio_effective_dimension (m : ℕ) (matrix : List (List K))
    (two : 2 ≤ matrix.length) (rect : Rectangular m matrix) : EffectiveDimension m matrix := by
  have hnonempty : matrix ≠ [] := List.ne_nil_of_length_pos (by omega)
  constructor
  case atLeastOne => exact one_le_ratio rect two
  case atMostColumns => exact ratio_le_columns rect two
  case atMostProbes => exact ratio_le_probes rect two
  case unclamped => exact participationRatio_unclamped rect two
  case probes =>
    intro matrix' h
    apply participationRatio_congr hnonempty rect (fun row hrow => rect row (h.symm.subset hrow))
      h.length_eq.symm
    · exact congrArg List.sum (List.map_congr_left fun j _ => covarSum_perm h j j)
    · unfold covarSq
      simp only [covarSum_perm h]
  case constraints =>
    intro order h
    refine participationRatio_congr hnonempty rect ?_ (List.length_map ..)
      (covarTrace_permuteColumns h) (covarSq_permuteColumns h)
    intro row hrow
    obtain ⟨row', _, rfl⟩ := List.mem_map.mp hrow
    rw [List.length_map, h.length_eq, List.length_range]
  case shift =>
    intro j c
    refine participationRatio_congr hnonempty rect ?_ (List.length_map ..)
      (covarTrace_addToColumn hnonempty rect j c) (covarSq_addToColumn hnonempty rect j c)
    intro row hrow
    obtain ⟨row', hrow', rfl⟩ := List.mem_map.mp hrow
    rw [List.length_modify, rect row' hrow']

end

/-- Three probes, of which each meets another constraint. -/
def threeProbes : List (List ℚ) := [[1, 0, 0], [0, 1, 0], [0, 0, 1]]

theorem participation_ratio_three_probes :
    2 ≤ threeProbes.length ∧ Rectangular 3 threeProbes ∧ PassesGuards 3 threeProbes ∧
      EffectiveDimension 3 threeProbes ∧ participationRatio threeProbes = 2 :=
  ⟨by decide, by decide, by decide +kernel,
    participation_ratio_effective_dimension 3 threeProbes (by decide) (by decide),
    by decide +kernel⟩

end ControlPlane.Guarantees.ParticipationRatio
