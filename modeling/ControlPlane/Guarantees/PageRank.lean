import ControlPlane.Lib.Diffusion
import ControlPlane.Lib.Sequences
import ControlPlane.Source.Knowledge.Types
import Mathlib.Algebra.BigOperators.Fin
import Mathlib.Algebra.Order.Field.Rat
import Mathlib.Data.Set.Card
import Mathlib.Tactic.NormNum
import Mathlib.Tactic.Positivity

/-!
# What personalised PageRank reaches

The power iteration is the diffusion with restarts on the graph of the references, read in both
directions. Its mass stays at most one, and after the last iteration it lies on the nodes within
as many references of a seed as there were iterations: those are listed, the highest first.
-/
namespace ControlPlane.Guarantees.PageRank

open Lib Source.Knowledge ConstraintGraph

variable {nodes : List KnowledgeNode}

/-! ## Statement -/

section Statement

variable (nodes : List KnowledgeNode) (seedIds : List String) (alpha : ℚ)

/-- Two nodes are related if one of them refers to the other. -/
def relatedGraph : SimpleGraph (Fin nodes.length) where
  Adj i j := nodes[i].id ≠ nodes[j].id ∧
    (nodes[j].id ∈ neighbourIds nodes[i] ∨ nodes[i].id ∈ neighbourIds nodes[j])
  symm := ⟨fun _ _ h => ⟨h.1.symm, h.2.symm⟩⟩
  loopless := ⟨fun _ h => h.1 rfl⟩

instance : DecidableRel (relatedGraph nodes).Adj := fun i j =>
  inferInstanceAs (Decidable (nodes[i].id ≠ nodes[j].id ∧
    (nodes[j].id ∈ neighbourIds nodes[i] ∨ nodes[i].id ∈ neighbourIds nodes[j])))

/-- `seed_indices`. -/
def seedIndices : List ℕ := seedIds.filterMap (idToIdx (build nodes).nodeIds)

/-- `personal`. -/
def personalOf : List ℚ :=
  (List.range (build nodes).nodeIds.length).map fun i =>
    if i ∈ seedIndices nodes seedIds then (1 : ℚ) / (seedIndices nodes seedIds).length else 0

def teleport : ℚ := max (1 / 100) (min alpha (99 / 100))

/-- `r` after `k` iterations. -/
def scoresAfter (k : ℕ) : List ℚ :=
  ((build nodes).propagate (teleport alpha) (personalOf nodes seedIds))^[k]
    (personalOf nodes seedIds)

/-- A node that is no seed, within `k` references of one. -/
def Reached (k : ℕ) (i : Fin nodes.length) : Prop :=
  nodes[i].id ∉ seedIds ∧
    ∃ s : Fin nodes.length, nodes[s].id ∈ seedIds ∧
      ∃ walk : (relatedGraph nodes).Walk s i, walk.length ≤ k

structure ExactNeighbourhood (topK maxIter : ℕ) (result : List (String × ℚ)) : Prop where
  size : ∀ k, (scoresAfter nodes seedIds alpha k).length = nodes.length
  nonneg : ∀ k, ∀ mass ∈ scoresAfter nodes seedIds alpha k, 0 ≤ mass
  total : ∀ k, (scoresAfter nodes seedIds alpha k).sum ≤ 1
  positive : ∀ i : Fin nodes.length, nodes[i].id ∉ seedIds →
    (0 < (scoresAfter nodes seedIds alpha maxIter).getD i 0 ↔ Reached nodes seedIds maxIter i)
  count : result.length = min topK {i | Reached nodes seedIds maxIter i}.ncard
  listed : ∀ e ∈ result, ∃ i, Reached nodes seedIds maxIter i ∧
    e = (nodes[i].id, (scoresAfter nodes seedIds alpha maxIter).getD i 0)
  once : (result.map Prod.fst).Nodup
  ordered : result.Pairwise fun a b => b.2 ≤ a.2
  highest : ∀ i, Reached nodes seedIds maxIter i → nodes[i].id ∉ result.map Prod.fst →
    ∀ e ∈ result, (scoresAfter nodes seedIds alpha maxIter).getD i 0 ≤ e.2

end Statement

/-! ## The graph that is built -/

section Build

variable (distinct : (nodes.map KnowledgeNode.id).Nodup)
include distinct

theorem id_inj {i j : Fin nodes.length} (h : nodes[i].id = nodes[j].id) : i = j := by
  have hi : i.val < (nodes.map KnowledgeNode.id).length := by simp
  have hj : j.val < (nodes.map KnowledgeNode.id).length := by simp
  have hid : (nodes.map KnowledgeNode.id)[i.val] = (nodes.map KnowledgeNode.id)[j.val] := by
    simpa using h
  exact Fin.ext (distinct.getElem_inj_iff.mp hid)

theorem idToIdx_eq_some_iff {id : String} {i : ℕ} :
    idToIdx (nodes.map KnowledgeNode.id) id = some i ↔
      ∃ hi : i < nodes.length, nodes[i].id = id := by
  have hmem : ∀ e : String × ℕ, e ∈ (nodes.map KnowledgeNode.id).zipIdx.reverse ↔
      ∃ hi : e.2 < nodes.length, nodes[e.2].id = e.1 := by
    intro e
    rw [List.mem_reverse, List.mem_zipIdx_iff_getElem?, List.getElem?_eq_some_iff]
    simp
  have hfound : ∀ {e : String × ℕ}, (nodes.map KnowledgeNode.id).zipIdx.reverse.find?
      (fun e => decide (e.1 = id)) = some e → ∃ hi : e.2 < nodes.length, nodes[e.2].id = id := by
    intro e he
    obtain ⟨hi, hid⟩ := (hmem e).mp (List.mem_of_find?_eq_some he)
    have hkey : e.1 = id := by simpa using List.find?_some he
    exact ⟨hi, hid.trans hkey⟩
  unfold idToIdx
  rw [Option.map_eq_some_iff]
  constructor
  · intro h
    obtain ⟨e, he, rfl⟩ := h
    exact hfound he
  · intro h
    obtain ⟨hi, hid⟩ := h
    obtain ⟨e, he⟩ := Option.isSome_iff_exists.mp
      ((List.find?_isSome (p := fun e : String × ℕ => decide (e.1 = id))).mpr
        ⟨(id, i), (hmem (id, i)).mpr ⟨hi, hid⟩, decide_eq_true rfl⟩)
    refine ⟨e, he, ?_⟩
    obtain ⟨hi', hid'⟩ := hfound he
    have heq : (⟨e.2, hi'⟩ : Fin nodes.length) = ⟨i, hi⟩ := id_inj distinct (hid'.trans hid.symm)
    exact congrArg Fin.val heq

theorem mem_edges_iff {e : ℕ × ℕ} :
    e ∈ edges (nodes.map KnowledgeNode.id) nodes ↔
      ∃ k dst : Fin nodes.length, nodes[dst].id ∈ neighbourIds nodes[k] ∧ dst ≠ k ∧
        (e = (k.val, dst.val) ∨ e = (dst.val, k.val)) := by
  unfold edges
  rw [List.mem_flatMap]
  constructor
  · intro h
    obtain ⟨node, hnode, he⟩ := h
    obtain ⟨k, hk, rfl⟩ := List.mem_iff_getElem.mp hnode
    rw [(idToIdx_eq_some_iff distinct).mpr ⟨hk, rfl⟩] at he
    obtain ⟨dst, hdst, he⟩ := List.mem_flatMap.mp he
    obtain ⟨ref, href, hidx⟩ := List.mem_filterMap.mp hdst
    obtain ⟨hlt, rfl⟩ := (idToIdx_eq_some_iff distinct).mp hidx
    split_ifs at he with heq
    · cases he
    · refine ⟨⟨k, hk⟩, ⟨dst, hlt⟩, href, fun h => heq (congrArg Fin.val h), ?_⟩
      simpa using he
  · intro h
    obtain ⟨k, dst, href, hne, he⟩ := h
    refine ⟨nodes[k], List.getElem_mem _, ?_⟩
    have hsrc : idToIdx (nodes.map KnowledgeNode.id) nodes[k].id = some k.val :=
      (idToIdx_eq_some_iff distinct).mpr ⟨k.isLt, rfl⟩
    rw [hsrc]
    refine List.mem_flatMap.mpr ⟨dst.val, List.mem_filterMap.mpr
      ⟨nodes[dst].id, href, (idToIdx_eq_some_iff distinct).mpr ⟨dst.isLt, rfl⟩⟩, ?_⟩
    rw [if_neg fun h => hne (Fin.ext h)]
    simpa using he

theorem mem_edges {j i : ℕ} :
    (j, i) ∈ edges (nodes.map KnowledgeNode.id) nodes ↔
      ∃ (hj : j < nodes.length) (hi : i < nodes.length),
        (relatedGraph nodes).Adj ⟨j, hj⟩ ⟨i, hi⟩ := by
  rw [mem_edges_iff distinct]
  constructor
  · intro h
    obtain ⟨k, dst, href, hne, he | he⟩ := h
    · obtain ⟨rfl, rfl⟩ := Prod.mk.inj he
      exact ⟨k.isLt, dst.isLt, fun hid => hne (id_inj distinct hid.symm), Or.inl href⟩
    · obtain ⟨rfl, rfl⟩ := Prod.mk.inj he
      exact ⟨dst.isLt, k.isLt, fun hid => hne (id_inj distinct hid), Or.inr href⟩
  · intro h
    obtain ⟨hj, hi, hne, href | href⟩ := h
    · refine ⟨⟨j, hj⟩, ⟨i, hi⟩, href, ?_, Or.inl rfl⟩
      intro heq
      exact hne (by rw [heq])
    · refine ⟨⟨i, hi⟩, ⟨j, hj⟩, href, ?_, Or.inr rfl⟩
      intro heq
      exact hne (by rw [heq])

/-- The row of a vertex: its neighbours. -/
def rowOf (nodes : List KnowledgeNode) (j : ℕ) : List ℕ :=
  (((edges (nodes.map KnowledgeNode.id) nodes).filter fun e => decide (e.1 = j)).map
    Prod.snd).dedup

theorem mem_rowOf (j i : Fin nodes.length) :
    i.val ∈ rowOf nodes j ↔ (relatedGraph nodes).Adj j i := by
  have hedge : (∃ e ∈ edges (nodes.map KnowledgeNode.id) nodes, e.1 = j.val ∧ e.2 = i.val) ↔
      (j.val, i.val) ∈ edges (nodes.map KnowledgeNode.id) nodes := by
    constructor
    · intro h
      obtain ⟨⟨a, b⟩, he, rfl, rfl⟩ := h
      exact he
    · intro h
      exact ⟨_, h, rfl, rfl⟩
  have hrow : i.val ∈ rowOf nodes j ↔
      ∃ e ∈ edges (nodes.map KnowledgeNode.id) nodes, e.1 = j.val ∧ e.2 = i.val := by
    simp [rowOf]
  rw [hrow, hedge, mem_edges distinct]
  exact ⟨fun ⟨_, _, h⟩ => h, fun h => ⟨j.isLt, i.isLt, h⟩⟩

theorem length_rowOf (j : Fin nodes.length) :
    (rowOf nodes j).length = (relatedGraph nodes).degree j := by
  have hset : (rowOf nodes j).toFinset =
      ((relatedGraph nodes).neighborFinset j).map Fin.valEmbedding := by
    ext i
    rw [List.mem_toFinset, Finset.mem_map]
    constructor
    · intro h
      have hedge : (j.val, i) ∈ edges (nodes.map KnowledgeNode.id) nodes := by
        simpa [rowOf] using h
      obtain ⟨_, hi, hadj⟩ := (mem_edges distinct).mp hedge
      exact ⟨⟨i, hi⟩, (SimpleGraph.mem_neighborFinset ..).mpr hadj, rfl⟩
    · intro h
      obtain ⟨i, hadj, rfl⟩ := h
      exact (mem_rowOf distinct j i).mpr ((SimpleGraph.mem_neighborFinset ..).mp hadj)
  have hnodup : (rowOf nodes j).Nodup := List.nodup_dedup _
  rw [← List.toFinset_card_of_nodup hnodup, hset, Finset.card_map,
    SimpleGraph.card_neighborFinset_eq_degree]

end Build

/-! ## The iteration -/

section Iteration

theorem zip_ofFn {α β : Type} {n : ℕ} (a : Fin n → α) (b : Fin n → β) :
    (List.ofFn a).zip (List.ofFn b) = List.ofFn fun i => (a i, b i) := by
  apply List.ext_getElem
  · simp
  · intro i _ _
    simp

theorem adj_eq : (build nodes).adj = List.ofFn fun j : Fin nodes.length => rowOf nodes j := by
  apply List.ext_getElem
  · simp [build]
  · intro j _ _
    simp [build, rowOf]

theorem propagate_ofFn (distinct : (nodes.map KnowledgeNode.id).Nodup) (alpha : ℚ)
    (source mass : Fin nodes.length → ℚ) :
    (build nodes).propagate alpha (List.ofFn source) (List.ofFn mass) =
      List.ofFn (diffuse (relatedGraph nodes) alpha source mass) := by
  unfold propagate
  rw [adj_eq, zip_ofFn]
  apply List.ext_getElem
  · simp
  · intro i hi _
    rw [List.length_mapIdx, List.length_ofFn] at hi
    rw [List.getElem_mapIdx, List.getElem_ofFn, List.getElem_ofFn, List.map_ofFn, List.sum_ofFn,
      diffuse]
    congr 1
    apply Finset.sum_congr rfl
    intro j _
    have hrow := mem_rowOf distinct j ⟨i, hi⟩
    simp only [Function.comp, length_rowOf distinct]
    exact if_congr hrow rfl rfl

/-- Where the diffusion starts. -/
def sourceOf (nodes : List KnowledgeNode) (seedIds : List String) (i : Fin nodes.length) : ℚ :=
  if i.val ∈ seedIndices nodes seedIds then (1 : ℚ) / (seedIndices nodes seedIds).length else 0

theorem personalOf_eq (seedIds : List String) :
    personalOf nodes seedIds = List.ofFn (sourceOf nodes seedIds) := by
  apply List.ext_getElem
  · simp [personalOf, build]
  · intro i _ _
    simp [personalOf, build, sourceOf]

theorem scoresAfter_eq (distinct : (nodes.map KnowledgeNode.id).Nodup) (seedIds : List String)
    (alpha : ℚ) (k : ℕ) :
    scoresAfter nodes seedIds alpha k =
      List.ofFn (diffused (relatedGraph nodes) (teleport alpha) (sourceOf nodes seedIds) k) := by
  induction k with
  | zero => exact personalOf_eq seedIds
  | succ k ih =>
      rw [scoresAfter, Function.iterate_succ_apply', ← scoresAfter, ih, personalOf_eq,
        propagate_ofFn distinct, diffused_succ]

theorem mem_seedIndices (distinct : (nodes.map KnowledgeNode.id).Nodup) {seedIds : List String}
    (i : Fin nodes.length) : i.val ∈ seedIndices nodes seedIds ↔ nodes[i].id ∈ seedIds := by
  unfold seedIndices
  rw [List.mem_filterMap]
  constructor
  · intro h
    obtain ⟨id, hid, hidx⟩ := h
    obtain ⟨_, rfl⟩ := (idToIdx_eq_some_iff distinct).mp hidx
    exact hid
  · intro h
    exact ⟨_, h, (idToIdx_eq_some_iff distinct).mpr ⟨i.isLt, rfl⟩⟩

theorem sourceOf_nonneg (seedIds : List String) (i : Fin nodes.length) :
    0 ≤ sourceOf nodes seedIds i := by
  unfold sourceOf
  split
  · positivity
  · exact le_refl 0

/-- Seeds that are named twice count twice in the denominator, so that the sources lose mass. -/
theorem sum_sourceOf_le (seedIds : List String) : ∑ i, sourceOf nodes seedIds i ≤ 1 := by
  have hcard : (Finset.univ.filter fun i : Fin nodes.length =>
      i.val ∈ seedIndices nodes seedIds).card ≤ (seedIndices nodes seedIds).length := by
    rw [← Finset.card_map Fin.valEmbedding]
    refine (Finset.card_le_card ?_).trans (List.toFinset_card_le _)
    intro i hi
    obtain ⟨j, hj, rfl⟩ := Finset.mem_map.mp hi
    exact List.mem_toFinset.mpr (Finset.mem_filter.mp hj).2
  unfold sourceOf
  rw [← Finset.sum_filter, Finset.sum_const, nsmul_eq_mul, mul_one_div]
  exact div_le_one_of_le₀ (Nat.cast_le.mpr hcard) (Nat.cast_nonneg _)

theorem sourceOf_pos_iff (distinct : (nodes.map KnowledgeNode.id).Nodup) {seedIds : List String}
    (i : Fin nodes.length) : 0 < sourceOf nodes seedIds i ↔ nodes[i].id ∈ seedIds := by
  rw [← mem_seedIndices distinct]
  unfold sourceOf
  split
  · next h =>
    have hlength := List.length_pos_of_mem h
    exact iff_of_true (by positivity) h
  · next h => exact iff_of_false (lt_irrefl 0) h

theorem teleport_pos (alpha : ℚ) : 0 < teleport alpha :=
  lt_of_lt_of_le (by norm_num) (le_max_left _ _)

theorem teleport_lt_one (alpha : ℚ) : teleport alpha < 1 :=
  max_lt (by norm_num) ((min_le_right _ _).trans_lt (by norm_num))

theorem score_pos_iff (distinct : (nodes.map KnowledgeNode.id).Nodup) {seedIds : List String}
    (alpha : ℚ) (k : ℕ) {i : Fin nodes.length} (hseed : nodes[i].id ∉ seedIds) :
    0 < diffused (relatedGraph nodes) (teleport alpha) (sourceOf nodes seedIds) k i ↔
      Reached nodes seedIds k i := by
  rw [diffused_pos_iff (teleport_pos alpha) (teleport_lt_one alpha) (sourceOf_nonneg seedIds)]
  unfold Reached
  simp only [sourceOf_pos_iff distinct, hseed, not_false_eq_true, true_and]

end Iteration

/-! ## The list -/

section Listing

/-- The last scores. -/
abbrev finalScore (nodes : List KnowledgeNode) (seedIds : List String) (alpha : ℚ)
    (maxIter : ℕ) : Fin nodes.length → ℚ :=
  diffused (relatedGraph nodes) (teleport alpha) (sourceOf nodes seedIds) maxIter

/-- The nodes that are listed before the cut. -/
def hitsOf (nodes : List KnowledgeNode) (seedIds : List String) (alpha : ℚ) (maxIter : ℕ) :
    List (Fin nodes.length) :=
  (List.finRange nodes.length).filter fun i =>
    decide (i.val ∉ seedIndices nodes seedIds) &&
      decide (0 < finalScore nodes seedIds alpha maxIter i)

theorem mem_hitsOf (distinct : (nodes.map KnowledgeNode.id).Nodup) {seedIds : List String}
    {alpha : ℚ} {maxIter : ℕ} (i : Fin nodes.length) :
    i ∈ hitsOf nodes seedIds alpha maxIter ↔ Reached nodes seedIds maxIter i := by
  have hmem : i ∈ hitsOf nodes seedIds alpha maxIter ↔
      nodes[i].id ∉ seedIds ∧ 0 < finalScore nodes seedIds alpha maxIter i := by
    simp [hitsOf, mem_seedIndices distinct]
  rw [hmem]
  constructor
  · intro h
    exact (score_pos_iff distinct alpha maxIter h.1).mp h.2
  · intro h
    exact ⟨h.1, (score_pos_iff distinct alpha maxIter h.1).mpr h⟩

/-- A listed node, with its score. -/
def entryOf (nodes : List KnowledgeNode) (seedIds : List String) (alpha : ℚ) (maxIter : ℕ)
    (i : Fin nodes.length) : String × ℚ :=
  (nodes[i].id, finalScore nodes seedIds alpha maxIter i)

theorem ppr_eq (distinct : (nodes.map KnowledgeNode.id).Nodup) (seedIds : List String) (alpha : ℚ)
    (topK maxIter : ℕ) :
    (build nodes).ppr seedIds alpha topK maxIter =
      (sortDescending Prod.snd ((hitsOf nodes seedIds alpha maxIter).map
        (entryOf nodes seedIds alpha maxIter))).take topK := by
  by_cases hseeds : seedIndices nodes seedIds = []
  · have hnone : hitsOf nodes seedIds alpha maxIter = [] := by
      apply List.eq_nil_iff_forall_not_mem.mpr
      intro i hi
      obtain ⟨-, s, hs, -⟩ := (mem_hitsOf distinct i).mp hi
      rw [← mem_seedIndices distinct, hseeds] at hs
      cases hs
    have hempty : (build nodes).ppr seedIds alpha topK maxIter = [] :=
      if_pos (List.isEmpty_iff.mpr hseeds)
    rw [hempty, hnone]
    exact List.take_nil.symm
  · have hids : (build nodes).nodeIds = List.ofFn fun i : Fin nodes.length => nodes[i].id := by
      apply List.ext_getElem
      · simp [build]
      · intro i _ _
        simp [build]
    have hzip : ∀ f : Fin nodes.length → String × ℚ,
        (List.ofFn f).zipIdx = List.ofFn fun i => (f i, i.val) := by
      intro f
      apply List.ext_getElem
      · simp
      · intro i _ _
        simp
    have hppr : (build nodes).ppr seedIds alpha topK maxIter =
        (sortDescending Prod.snd
          (((((build nodes).nodeIds.zip (scoresAfter nodes seedIds alpha maxIter)).zipIdx.filter
            fun e => decide (e.2 ∉ seedIndices nodes seedIds) && decide (0 < e.1.2))).map
              Prod.fst)).take topK :=
      if_neg fun h => hseeds (List.isEmpty_iff.mp h)
    rw [hppr, scoresAfter_eq distinct, hids, zip_ofFn, hzip, List.ofFn_eq_map, List.filter_map,
      List.map_map]
    rfl

/-- What the cut leaves out is not above what it keeps. -/
theorem dropped_le (topK : ℕ) {l : List (String × ℚ)} (sorted : l.Pairwise fun a b => b.2 ≤ a.2)
    {a e : String × ℚ} (ha : a ∈ l) (hcut : a ∉ l.take topK) (he : e ∈ l.take topK) :
    a.2 ≤ e.2 := by
  rw [← List.take_append_drop topK l] at sorted ha
  exact (List.pairwise_append.mp sorted).2.2 e he a
    ((List.mem_append.mp ha).resolve_left hcut)

variable (distinct : (nodes.map KnowledgeNode.id).Nodup) (seedIds : List String) (alpha : ℚ)
  (maxIter : ℕ)
include distinct

theorem ncard_reached :
    {i | Reached nodes seedIds maxIter i}.ncard = (hitsOf nodes seedIds alpha maxIter).length := by
  apply ncard_eq_length_filter
  intro i
  rw [Set.mem_ofPred_eq, ← mem_hitsOf distinct]
  exact List.mem_filter.trans (and_iff_right (List.mem_finRange i))

theorem scoresAfter_getD (i : Fin nodes.length) :
    (scoresAfter nodes seedIds alpha maxIter).getD i 0 =
      finalScore nodes seedIds alpha maxIter i := by
  rw [scoresAfter_eq distinct]
  simp

theorem ids_nodup : (((sortDescending Prod.snd ((hitsOf nodes seedIds alpha maxIter).map
    (entryOf nodes seedIds alpha maxIter)))).map Prod.fst).Nodup := by
  rw [((sortDescending_perm _).map Prod.fst).nodup_iff, List.map_map]
  apply List.Nodup.map_on
  · intro i _ j _ h
    exact id_inj distinct h
  · exact (List.nodup_finRange _).filter _

end Listing

/-! ## The guarantee -/

theorem personalised_page_rank_exact (nodes : List KnowledgeNode)
    (distinct : (nodes.map KnowledgeNode.id).Nodup) (seedIds : List String) (alpha : ℚ)
    (topK maxIter : ℕ) :
    ExactNeighbourhood nodes seedIds alpha topK maxIter
      ((build nodes).ppr seedIds alpha topK maxIter) := by
  have hnonneg := fun k => diffused_nonneg (G := relatedGraph nodes) (teleport_pos alpha).le
    (teleport_lt_one alpha).le (sourceOf_nonneg seedIds) k
  constructor
  case size =>
    intro k
    rw [scoresAfter_eq distinct, List.length_ofFn]
  case nonneg =>
    intro k mass hmass
    rw [scoresAfter_eq distinct] at hmass
    obtain ⟨i, rfl⟩ := List.mem_ofFn.mp hmass
    exact hnonneg k i
  case total =>
    intro k
    rw [scoresAfter_eq distinct, List.sum_ofFn]
    exact sum_diffused_le_one (teleport_pos alpha).le (teleport_lt_one alpha).le
      (sourceOf_nonneg seedIds) (sum_sourceOf_le seedIds) k
  case positive =>
    intro i hseed
    rw [scoresAfter_getD distinct]
    exact score_pos_iff distinct alpha maxIter hseed
  case count =>
    rw [ppr_eq distinct, List.length_take, (sortDescending_perm _).length_eq, List.length_map,
      ncard_reached distinct seedIds alpha]
  case listed =>
    intro e he
    rw [ppr_eq distinct] at he
    obtain ⟨i, hi, rfl⟩ := List.mem_map.mp
      ((sortDescending_perm _).subset (List.mem_of_mem_take he))
    refine ⟨i, (mem_hitsOf distinct i).mp hi, ?_⟩
    rw [scoresAfter_getD distinct, entryOf]
  case once =>
    rw [ppr_eq distinct, List.map_take]
    exact (ids_nodup distinct seedIds alpha maxIter).sublist (List.take_sublist ..)
  case ordered =>
    rw [ppr_eq distinct]
    exact (sortDescending_sorted _).sublist (List.take_sublist ..)
  case highest =>
    intro i hi hcut e he
    rw [ppr_eq distinct] at hcut he
    have hhit : entryOf nodes seedIds alpha maxIter i ∈
        (hitsOf nodes seedIds alpha maxIter).map (entryOf nodes seedIds alpha maxIter) :=
      List.mem_map_of_mem ((mem_hitsOf distinct i).mpr hi)
    rw [scoresAfter_getD distinct]
    exact dropped_le topK (sortDescending_sorted _) ((sortDescending_perm _).symm.subset hhit)
      (fun h => hcut (List.mem_map_of_mem h)) he

/-- A node that refers to others. -/
def referring (id : String) (related : List String) : KnowledgeNode where
  id := id
  depth := .leaf
  synthesis := ""
  invariants := []
  failureModes := []
  domains := []
  entryPoints := []
  tensions := []
  crossReferences := []
  related := related
  source := .synthetic
  importance := 1

/-- A chain of three nodes and one that stands alone and names itself. -/
def chain : List KnowledgeNode :=
  [referring "a" ["b"], referring "b" ["c", "c"], referring "c" [], referring "d" ["d"]]

theorem personalised_page_rank_exact_chain :
    (chain.map KnowledgeNode.id).Nodup ∧
      ExactNeighbourhood chain ["a", "a", "x"] (15 / 100) 5 1
        ((build chain).ppr ["a", "a", "x"] (15 / 100) 5 1) :=
  ⟨by decide, personalised_page_rank_exact chain (by decide) ["a", "a", "x"] (15 / 100) 5 1⟩

end ControlPlane.Guarantees.PageRank
