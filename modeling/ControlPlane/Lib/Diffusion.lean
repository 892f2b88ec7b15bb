import Mathlib.Algebra.BigOperators.Field
import Mathlib.Algebra.Order.BigOperators.Group.Finset
import Mathlib.Algebra.Order.Field.Basic
import Mathlib.Combinatorics.SimpleGraph.Finite
import Mathlib.Combinatorics.SimpleGraph.Walk.Operations

/-!
# Diffusion with restarts

Mass moves along the edges of a graph, an equal share to every neighbour, and a part of it starts
again from the sources. No step adds mass: a vertex without neighbours loses what it holds. After
`k` steps there is mass on exactly the vertices that a walk of at most `k` edges leads to from a
source.
-/
namespace ControlPlane.Lib

variable {V K : Type} [Fintype V] {G : SimpleGraph V} [DecidableRel G.Adj]
  [Field K] [LinearOrder K] {alpha : K} {source mass : V → K}

variable (G) in
/-- One step of the diffusion. -/
def diffuse (alpha : K) (source mass : V → K) (i : V) : K :=
  ∑ j, (if G.Adj j i then (1 - alpha) * mass j * (1 / (G.degree j : K)) else 0) +
    alpha * source i

variable (G) in
def diffused (alpha : K) (source : V → K) (k : ℕ) : V → K := (diffuse G alpha source)^[k] source

omit [LinearOrder K] in
theorem diffused_succ (k : ℕ) :
    diffused G alpha source (k + 1) = diffuse G alpha source (diffused G alpha source k) :=
  Function.iterate_succ_apply' _ _ _

variable [IsStrictOrderedRing K]

theorem share_nonneg (hle : alpha ≤ 1) (hmass : ∀ i, 0 ≤ mass i) (j i : V) :
    0 ≤ if G.Adj j i then (1 - alpha) * mass j * (1 / (G.degree j : K)) else 0 := by
  split
  · exact mul_nonneg (mul_nonneg (sub_nonneg.mpr hle) (hmass j))
      (one_div_nonneg.mpr (Nat.cast_nonneg _))
  · exact le_refl 0

theorem diffuse_nonneg (hpos : 0 ≤ alpha) (hle : alpha ≤ 1) (hsource : ∀ i, 0 ≤ source i)
    (hmass : ∀ i, 0 ≤ mass i) (i : V) : 0 ≤ diffuse G alpha source mass i :=
  add_nonneg (Finset.sum_nonneg fun j _ => share_nonneg hle hmass j i)
    (mul_nonneg hpos (hsource i))

/-- What a vertex gives away is at most what it holds. -/
theorem sum_shares_le (hle : alpha ≤ 1) (hmass : ∀ i, 0 ≤ mass i) (j : V) :
    ∑ i, (if G.Adj j i then (1 - alpha) * mass j * (1 / (G.degree j : K)) else 0) ≤
      (1 - alpha) * mass j := by
  have hheld : 0 ≤ (1 - alpha) * mass j := mul_nonneg (sub_nonneg.mpr hle) (hmass j)
  rw [← Finset.sum_filter, Finset.sum_const, nsmul_eq_mul, ← SimpleGraph.neighborFinset_eq_filter,
    SimpleGraph.card_neighborFinset_eq_degree]
  by_cases hdegree : (G.degree j : K) = 0
  · rw [hdegree, zero_mul]
    exact hheld
  · rw [mul_comm, mul_assoc, one_div, inv_mul_cancel₀ hdegree, mul_one]

theorem sum_diffuse_le (hle : alpha ≤ 1) (hmass : ∀ i, 0 ≤ mass i) :
    ∑ i, diffuse G alpha source mass i ≤ (1 - alpha) * ∑ j, mass j + alpha * ∑ i, source i := by
  unfold diffuse
  rw [Finset.sum_add_distrib, Finset.sum_comm, Finset.mul_sum, Finset.mul_sum]
  exact add_le_add_left (Finset.sum_le_sum fun j _ => sum_shares_le hle hmass j) _

theorem diffused_nonneg (hpos : 0 ≤ alpha) (hle : alpha ≤ 1) (hsource : ∀ i, 0 ≤ source i)
    (k : ℕ) (i : V) : 0 ≤ diffused G alpha source k i := by
  induction k generalizing i with
  | zero => exact hsource i
  | succ k ih =>
      rw [diffused_succ]
      exact diffuse_nonneg hpos hle hsource ih i

theorem sum_diffused_le_one (hpos : 0 ≤ alpha) (hle : alpha ≤ 1) (hsource : ∀ i, 0 ≤ source i)
    (total : ∑ i, source i ≤ 1) (k : ℕ) : ∑ i, diffused G alpha source k i ≤ 1 := by
  induction k with
  | zero => exact total
  | succ k ih =>
      rw [diffused_succ]
      have hkeep : 0 ≤ 1 - alpha := sub_nonneg.mpr hle
      calc ∑ i, diffuse G alpha source (diffused G alpha source k) i
          ≤ (1 - alpha) * ∑ j, diffused G alpha source k j + alpha * ∑ i, source i :=
            sum_diffuse_le hle (diffused_nonneg hpos hle hsource k)
        _ ≤ (1 - alpha) * 1 + alpha * 1 :=
            add_le_add (mul_le_mul_of_nonneg_left ih hkeep) (mul_le_mul_of_nonneg_left total hpos)
        _ = 1 := by rw [mul_one, mul_one, sub_add_cancel]

theorem diffuse_pos_iff (hpos : 0 < alpha) (hlt : alpha < 1) (hsource : ∀ i, 0 ≤ source i)
    (hmass : ∀ i, 0 ≤ mass i) (i : V) :
    0 < diffuse G alpha source mass i ↔ (∃ j, G.Adj j i ∧ 0 < mass j) ∨ 0 < source i := by
  have hkeep : 0 < 1 - alpha := sub_pos.mpr hlt
  have hshares := fun j => share_nonneg (G := G) hlt.le hmass j i
  have hsum := Finset.sum_nonneg fun j (_ : j ∈ Finset.univ) => hshares j
  have hrestart := mul_nonneg hpos.le (hsource i)
  unfold diffuse
  constructor
  · intro h
    by_cases hzero : 0 < source i
    · exact Or.inr hzero
    · rw [le_antisymm (not_lt.mp hzero) (hsource i), mul_zero, add_zero] at h
      obtain ⟨j, -, hj⟩ := Finset.exists_ne_zero_of_sum_ne_zero h.ne'
      refine Or.inl ⟨j, ?_⟩
      split_ifs at hj with hadj
      · refine ⟨hadj, (hmass j).lt_of_ne fun hzero => hj ?_⟩
        rw [← hzero, mul_zero, zero_mul]
      · exact absurd rfl hj
  · intro h
    rcases h with hneighbour | hown
    · obtain ⟨j, hadj, hj⟩ := hneighbour
      have hdegree : 0 < (G.degree j : K) := Nat.cast_pos.mpr hadj.degree_pos_left
      apply add_pos_of_pos_of_nonneg _ hrestart
      apply Finset.sum_pos' fun j _ => hshares j
      refine ⟨j, Finset.mem_univ j, ?_⟩
      rw [if_pos hadj]
      exact mul_pos (mul_pos hkeep hj) (one_div_pos.mpr hdegree)
    · exact add_pos_of_nonneg_of_pos hsum (mul_pos hpos hown)

/-- The mass has spread along the walks of at most `k` edges. -/
theorem diffused_pos_iff (hpos : 0 < alpha) (hlt : alpha < 1) (hsource : ∀ i, 0 ≤ source i)
    (k : ℕ) (i : V) :
    0 < diffused G alpha source k i ↔
      ∃ s, 0 < source s ∧ ∃ walk : G.Walk s i, walk.length ≤ k := by
  induction k generalizing i with
  | zero =>
      constructor
      · intro h
        exact ⟨i, h, .nil, le_refl 0⟩
      · intro h
        obtain ⟨s, hs, walk, hlength⟩ := h
        rw [← SimpleGraph.Walk.eq_of_length_eq_zero (Nat.le_zero.mp hlength)]
        exact hs
  | succ k ih =>
      rw [diffused_succ,
        diffuse_pos_iff hpos hlt hsource (diffused_nonneg hpos.le hlt.le hsource k)]
      constructor
      · intro h
        rcases h with hneighbour | hown
        · obtain ⟨j, hadj, hj⟩ := hneighbour
          obtain ⟨s, hs, walk, hlength⟩ := (ih j).mp hj
          refine ⟨s, hs, walk.concat hadj, ?_⟩
          rw [SimpleGraph.Walk.length_concat]
          omega
        · exact ⟨i, hown, .nil, Nat.zero_le _⟩
      · intro h
        obtain ⟨s, hs, walk, hlength⟩ := h
        -- split on the last edge of the walk
        induction walk using SimpleGraph.Walk.concatRec with
        | Hnil => exact Or.inr hs
        | Hconcat walk hadj _ =>
            rw [SimpleGraph.Walk.length_concat] at hlength
            exact Or.inl ⟨_, hadj, (ih _).mpr ⟨_, hs, walk, by omega⟩⟩

end ControlPlane.Lib
