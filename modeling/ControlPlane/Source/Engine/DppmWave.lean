import ControlPlane.Lib.Components
import ControlPlane.Lib.Entries
import ControlPlane.Source.Constraints.Types
import ControlPlane.Source.MapeK.Partials
import ControlPlane.Source.Text

/-!
# Clusters of related constraints

Embeds `crates/h2ai-constraints/src/clustering.rs`: the connected components of the
`related_to` graph, and the checks that belong to a cluster by their prefix.
-/
namespace ControlPlane.Source.Constraints

open Lib

/-- What a document pushes into the adjacency lists: each known reference, both ways. -/
def relationEntries (docs : List ConstraintDoc) (doc : ConstraintDoc) : List (String × String) :=
  (doc.relatedTo.filter fun rel => rel ∈ docs.map (·.id)).flatMap fun rel =>
    [(doc.id, rel), (rel, doc.id)]

/-- `adj`. -/
def adjacency (docs : List ConstraintDoc) : MultiMap String String :=
  MultiMap.ofEntries (docs.flatMap (relationEntries docs))

/-- `build_clusters`. -/
def buildClusters (docs : List ConstraintDoc) : List (List String) :=
  components (adjacency docs) (docs.map (·.id))

/-- `check.split(':').next()`. -/
def checkPrefix (check : String) : String :=
  match Text.splitAtFirst ':' check.toList with
  | some (before, _) => String.ofList before
  | none => check

/-- `cluster_check_indices`. -/
def clusterCheckIndices (clusterIds allCheckIds : List String) : List Nat :=
  allCheckIds.zipIdx.filterMap fun check =>
    if checkPrefix check.1 ∈ clusterIds then some check.2 else none

/-- A chain of `related_to` references, in either direction, between constraints of the
corpus. -/
abbrev Related (docs : List ConstraintDoc) : String → String → Prop := Path (adjacency docs)

theorem mem_adjacency {docs : List ConstraintDoc} {x y : String} :
    y ∈ adjacency docs x ↔ ∃ doc ∈ docs, ∃ rel ∈ doc.relatedTo, rel ∈ docs.map (·.id) ∧
      ((x = doc.id ∧ y = rel) ∨ x = rel ∧ y = doc.id) := by
  unfold adjacency relationEntries
  rw [MultiMap.mem_ofEntries, List.mem_flatMap]
  refine exists_congr fun doc => and_congr_right fun _ => ?_
  rw [List.mem_flatMap]
  constructor
  · rintro ⟨rel, hrel, hentry⟩
    obtain ⟨hrel, hknown⟩ := List.mem_filter.mp hrel
    exact ⟨rel, hrel, by simpa using hknown, by simpa using hentry⟩
  · rintro ⟨rel, hrel, hknown, hentry⟩
    exact ⟨rel, List.mem_filter.mpr ⟨hrel, by simpa using hknown⟩, by simpa using hentry⟩

theorem adjacency_symmetric (docs : List ConstraintDoc) (x y : String)
    (h : y ∈ adjacency docs x) : x ∈ adjacency docs y := by
  obtain ⟨doc, hdoc, rel, hrel, hknown, hentry⟩ := mem_adjacency.mp h
  refine mem_adjacency.mpr ⟨doc, hdoc, rel, hrel, hknown, ?_⟩
  rcases hentry with ⟨hx, hy⟩ | ⟨hx, hy⟩
  · exact Or.inr ⟨hy, hx⟩
  · exact Or.inl ⟨hy, hx⟩

theorem adjacency_known {docs : List ConstraintDoc} {x y : String} (h : y ∈ adjacency docs x) :
    y ∈ docs.map (·.id) := by
  obtain ⟨doc, hdoc, rel, _, hknown, ⟨_, rfl⟩ | ⟨_, rfl⟩⟩ := mem_adjacency.mp h
  · exact hknown
  · exact List.mem_map.mpr ⟨doc, hdoc, rfl⟩

/-- The clusters partition the ids of the corpus by their relations. -/
theorem buildClusters_partition (docs : List ConstraintDoc) :
    Partition (adjacency docs) (docs.map (·.id)) [] (buildClusters docs) ∧
      ∀ id ∈ docs.map (·.id), ∃ c ∈ buildClusters docs, id ∈ c :=
  components_partition (fun _ _ _ hy => adjacency_known hy) (adjacency_symmetric docs)

theorem mem_clusterCheckIndices {clusterIds allCheckIds : List String} {i : Nat} :
    i ∈ clusterCheckIndices clusterIds allCheckIds ↔
      ∃ check, allCheckIds[i]? = some check ∧ checkPrefix check ∈ clusterIds := by
  unfold clusterCheckIndices
  rw [List.mem_filterMap]
  constructor
  · rintro ⟨⟨check, j⟩, hmem, hkept⟩
    obtain ⟨hcluster, hj⟩ : checkPrefix check ∈ clusterIds ∧ j = i := by simpa using hkept
    subst hj
    exact ⟨check, by simpa using List.mem_zipIdx_iff_getElem?.mp hmem, hcluster⟩
  · rintro ⟨check, hcheck, hcluster⟩
    exact ⟨(check, i), List.mem_zipIdx_iff_getElem?.mpr (by simpa using hcheck), by simp [hcluster]⟩

end ControlPlane.Source.Constraints

/-!
# The solver calls of the DPPM wave

Embeds the first steps of the DPPM-MetaRefine wave of `engine.rs`: the flat list of
checks with its offsets, the clusters, and for each of them the checks, the seed and
the repair targets of its solver call, with `seed_for_cluster` of `repair.rs`. The
prompts that are made of them, the answers and the merge are left out.
-/
namespace ControlPlane.Source.Engine

open Lib Constraints MapeK

/-- `all_checks`. -/
def allChecks (corpus : List ConstraintDoc) : List String :=
  corpus.flatMap (·.binaryChecks)

/-- One step of `max_by_key` on the overlaps; the last one of several wins. -/
def seedBest (cluster : List Nat) (best : Option (Nat × PartialPass)) (p : PartialPass) :
    Option (Nat × PartialPass) :=
  let overlap := (p.passedCheckIndices ∩ cluster.toFinset).card
  if overlap = 0 then best
  else
    match best with
    | some (most, kept) => if overlap < most then some (most, kept) else some (overlap, p)
    | none => some (overlap, p)

/-- `seed_for_cluster`. -/
def seedForCluster (clusterCheckIndices : List Nat) (partials : List PartialPass) :
    Option PartialPass :=
  (partials.foldl (seedBest clusterCheckIndices) none).map Prod.snd

structure SolverCall where
  clusterIds : List String
  checkIndices : List Nat
  seed : Option PartialPass
  /-- The constraints of the repair targets. -/
  targets : List String

def solverCall (corpus : List ConstraintDoc) (sortedPartials : List PartialPass)
    (clusterIds : List String) : SolverCall :=
  let checkIndices := clusterCheckIndices clusterIds (allChecks corpus)
  { clusterIds := clusterIds
    checkIndices := checkIndices
    seed := seedForCluster checkIndices sortedPartials
    targets := (corpus.filter fun d => d.id ∈ clusterIds).map (·.id) }

/-- The solver calls of the wave; the clusters past the limit are dropped. -/
def dppmCalls (corpus : List ConstraintDoc) (maxParallelSolvers : Nat)
    (sortedPartials : List PartialPass) : List SolverCall :=
  ((buildClusters corpus).take (max maxParallelSolvers 1)).map (solverCall corpus sortedPartials)

/-- The constraint that each check of `all_checks` comes from. -/
def checkOwners (corpus : List ConstraintDoc) : List String :=
  corpus.flatMap fun doc => doc.binaryChecks.map fun _ => doc.id

/-- The position is one that `check_offsets` assigns to the constraint. -/
def OffsetOf (offsets : List (String × Nat × Nat)) (id : String) (i : Nat) : Prop :=
  ∃ e ∈ offsets, e.1 = id ∧ e.2.1 ≤ i ∧ i < e.2.1 + e.2.2

theorem checkOwners_length (corpus : List ConstraintDoc) :
    (checkOwners corpus).length = (allChecks corpus).length := by
  simp [checkOwners, allChecks, List.length_flatMap]

/-- The offsets assign each check to the constraint it comes from. -/
theorem offsetOf_checkOffsets (start : Nat) (corpus : List ConstraintDoc) (id : String) (i : Nat) :
    OffsetOf (checkOffsets start corpus) id i ↔
      start ≤ i ∧ (checkOwners corpus)[i - start]? = some id := by
  induction corpus generalizing start with
  | nil => simp [OffsetOf, checkOffsets, checkOwners]
  | cons doc corpus ih =>
      have hcons : ∀ e rest, OffsetOf (e :: rest) id i ↔
          (e.1 = id ∧ e.2.1 ≤ i ∧ i < e.2.1 + e.2.2) ∨ OffsetOf rest id i := by
        intro e rest
        simp [OffsetOf]
      have howners : (checkOwners (doc :: corpus))[i - start]? =
          if i - start < doc.binaryChecks.length then some doc.id
          else (checkOwners corpus)[i - start - doc.binaryChecks.length]? := by
        unfold checkOwners
        rw [List.flatMap_cons, List.getElem?_append, List.length_map]
        split_ifs with h
        · simp [h]
        · rfl
      rw [howners]
      unfold checkOffsets
      by_cases hcount : 0 < doc.binaryChecks.length
      · rw [if_pos hcount, hcons, ih]
        constructor
        · rintro (⟨rfl, hlo, hhi⟩ | ⟨hlo, howner⟩)
          · refine ⟨hlo, ?_⟩
            rw [if_pos (by dsimp only at hlo hhi; omega)]
          · refine ⟨by omega, ?_⟩
            rw [if_neg (by omega), ← howner]
            congr 1
            omega
        · rintro ⟨hlo, howner⟩
          split_ifs at howner with hin
          · exact Or.inl ⟨by simpa using howner, hlo, by dsimp only; omega⟩
          · refine Or.inr ⟨by omega, ?_⟩
            rw [← howner]
            congr 1
            omega
      · have hzero : doc.binaryChecks.length = 0 := by omega
        rw [if_neg hcount, ih, hzero, if_neg (Nat.not_lt_zero _), Nat.sub_zero]

/-! ## The seed -/

theorem seedBest_mem {cluster : List Nat} {best : Option (Nat × PartialPass)} {p : PartialPass}
    {seed : Nat × PartialPass} (h : seedBest cluster best p = some seed) :
    best = some seed ∨
      seed.2 = p ∧ ∃ i ∈ cluster, i ∈ p.passedCheckIndices := by
  unfold seedBest at h
  dsimp only at h
  split_ifs at h with hoverlap
  · exact Or.inl h
  · obtain ⟨i, hi⟩ := Finset.card_pos.mp (Nat.pos_of_ne_zero hoverlap)
    rw [Finset.mem_inter, List.mem_toFinset] at hi
    cases best with
    | none =>
        cases h
        exact Or.inr ⟨rfl, i, hi.2, hi.1⟩
    | some kept =>
        dsimp only at h
        split_ifs at h
        · exact Or.inl h
        · cases h
          exact Or.inr ⟨rfl, i, hi.2, hi.1⟩

theorem seedBest_isSome {cluster : List Nat} {best : Option (Nat × PartialPass)}
    {p : PartialPass} (h : best.isSome = true ∨ ∃ i ∈ cluster, i ∈ p.passedCheckIndices) :
    (seedBest cluster best p).isSome = true := by
  unfold seedBest
  dsimp only
  split_ifs with hoverlap
  · rcases h with h | ⟨i, hi, hpassed⟩
    · exact h
    · have hmem : i ∈ p.passedCheckIndices ∩ cluster.toFinset :=
        Finset.mem_inter.mpr ⟨hpassed, List.mem_toFinset.mpr hi⟩
      rw [Finset.card_eq_zero.mp hoverlap] at hmem
      cases hmem
  · cases best with
    | none => rfl
    | some kept =>
        dsimp only
        split_ifs <;> rfl

/-- The seed is one of the partials and passes a check of the cluster. -/
theorem seedForCluster_some {cluster : List Nat} {partials : List PartialPass}
    {seed : PartialPass} (h : seedForCluster cluster partials = some seed) :
    seed ∈ partials ∧ ∃ i ∈ cluster, i ∈ seed.passedCheckIndices := by
  obtain ⟨best, hbest, rfl⟩ := Option.map_eq_some_iff.mp h
  have hfold : ∀ (ps : List PartialPass) (init : Option (Nat × PartialPass)),
      ps.foldl (seedBest cluster) init = some best → init = some best ∨
        best.2 ∈ ps ∧ ∃ i ∈ cluster, i ∈ best.2.passedCheckIndices := by
    intro ps
    induction ps with
    | nil => exact fun _ h => Or.inl h
    | cons p ps ih =>
        intro init hinit
        rcases ih _ hinit with hstep | ⟨hmem, hpassed⟩
        · rcases seedBest_mem hstep with hkept | ⟨hp, hpassed⟩
          · exact Or.inl hkept
          · exact Or.inr ⟨by rw [hp]; exact List.mem_cons_self .., by rwa [hp]⟩
        · exact Or.inr ⟨List.mem_cons_of_mem _ hmem, hpassed⟩
  rcases hfold partials none hbest with h | h
  · cases h
  · exact h

/-- A partial that passes a check of the cluster leaves it with a seed. -/
theorem seedForCluster_isSome {cluster : List Nat} {partials : List PartialPass}
    {p : PartialPass} (hp : p ∈ partials) {i : Nat} (hi : i ∈ cluster)
    (hpassed : i ∈ p.passedCheckIndices) : (seedForCluster cluster partials).isSome = true := by
  unfold seedForCluster
  rw [Option.isSome_map]
  have hfold : ∀ (ps : List PartialPass) (init : Option (Nat × PartialPass)),
      init.isSome = true ∨ p ∈ ps → (ps.foldl (seedBest cluster) init).isSome = true := by
    intro ps
    induction ps with
    | nil => exact fun _ h => h.elim id fun h => by cases h
    | cons q ps ih =>
        intro init h
        apply ih
        rcases h with h | h
        · exact Or.inl (seedBest_isSome (Or.inl h))
        · rcases List.mem_cons.mp h with rfl | h
          · exact Or.inl (seedBest_isSome (Or.inr ⟨i, hi, hpassed⟩))
          · exact Or.inr h
  exact hfold partials none (Or.inr hp)

end ControlPlane.Source.Engine
