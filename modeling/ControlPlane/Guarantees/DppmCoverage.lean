import ControlPlane.Source.Engine.DppmWave

/-!
# The clusters of the DPPM wave and their checks

Each solver call gets the positions of the checks whose text starts with an id of its
cluster, while the offsets assign to a constraint the checks that it was listed with.
The two agree exactly if every check names, in front of its first colon, a constraint
related to its own; and no constraint is left out exactly if the clusters fit under the
limit of solvers.
-/
namespace ControlPlane.Guarantees.DppmCoverage

open Lib Source.Constraints Source.Engine Source.MapeK

/-- The position belongs to a check of the cluster. -/
def OwnPosition (corpus : List ConstraintDoc) (clusterIds : List String) (i : Nat) : Prop :=
  ∃ id ∈ clusterIds, OffsetOf (checkOffsets 0 corpus) id i

/-- The wave covers every constraint of the corpus with its own checks. -/
structure Covers (corpus : List ConstraintDoc) (maxParallelSolvers : Nat)
    (partials : List PartialPass) : Prop where
  once : ∀ doc ∈ corpus, ((dppmCalls corpus maxParallelSolvers partials).filter
    fun call => doc.id ∈ call.clusterIds).length = 1
  checks : ∀ call ∈ dppmCalls corpus maxParallelSolvers partials, ∀ i,
    i ∈ call.checkIndices ↔ OwnPosition corpus call.clusterIds i
  seeded : ∀ call ∈ dppmCalls corpus maxParallelSolvers partials, ∀ p ∈ partials, ∀ i,
    OwnPosition corpus call.clusterIds i → i ∈ p.passedCheckIndices →
      ∃ seed ∈ partials, call.seed = some seed ∧
        ∃ j, OwnPosition corpus call.clusterIds j ∧ j ∈ seed.passedCheckIndices

/-- There are no more clusters than solvers, and each check names a constraint related to
its own. -/
structure FitsConvention (corpus : List ConstraintDoc) (maxParallelSolvers : Nat) : Prop where
  few : (buildClusters corpus).length ≤ max maxParallelSolvers 1
  named : ∀ doc ∈ corpus, ∀ check ∈ doc.binaryChecks, Related corpus doc.id (checkPrefix check)

/-! ## Checks and their owners -/

theorem allChecks_zip_checkOwners (corpus : List ConstraintDoc) :
    (allChecks corpus).zip (checkOwners corpus) =
      corpus.flatMap fun doc => doc.binaryChecks.map fun check => (check, doc.id) := by
  unfold allChecks checkOwners
  induction corpus with
  | nil => rfl
  | cons doc corpus ih =>
      rw [List.flatMap_cons, List.flatMap_cons, List.flatMap_cons, List.zip_append (by simp), ih]
      congr 1
      induction doc.binaryChecks with
      | nil => rfl
      | cons check checks ihChecks =>
          rw [List.map_cons, List.map_cons, List.zip_cons_cons, ihChecks]

/-- A check of the flat list with its owner is a check of a document. -/
theorem checkAt_iff {corpus : List ConstraintDoc} {check id : String} :
    (∃ i : Nat, (allChecks corpus)[i]? = some check ∧ (checkOwners corpus)[i]? = some id) ↔
      ∃ doc ∈ corpus, check ∈ doc.binaryChecks ∧ doc.id = id := by
  have hpair : (∃ i : Nat, (allChecks corpus)[i]? = some check ∧
      (checkOwners corpus)[i]? = some id) ↔
      (check, id) ∈ (allChecks corpus).zip (checkOwners corpus) := by
    rw [List.mem_iff_getElem?]
    refine exists_congr fun i => ?_
    rw [List.getElem?_zip_eq_some]
  rw [hpair, allChecks_zip_checkOwners, List.mem_flatMap]
  refine exists_congr fun doc => and_congr_right fun _ => ?_
  rw [List.mem_map]
  constructor
  · rintro ⟨c, hc, heq⟩
    cases heq
    exact ⟨hc, rfl⟩
  · rintro ⟨hc, rfl⟩
    exact ⟨check, hc, rfl⟩

theorem ownPosition_iff {corpus : List ConstraintDoc} {clusterIds : List String} {i : Nat} :
    OwnPosition corpus clusterIds i ↔ ∃ id ∈ clusterIds, (checkOwners corpus)[i]? = some id := by
  unfold OwnPosition
  refine exists_congr fun id => and_congr_right fun _ => ?_
  rw [offsetOf_checkOffsets]
  simp

theorem checkOwners_at {corpus : List ConstraintDoc} {i : Nat} {check : String}
    (h : (allChecks corpus)[i]? = some check) :
    ∃ id, (checkOwners corpus)[i]? = some id := by
  have hlt : i < (checkOwners corpus).length := by
    rw [checkOwners_length]
    exact (List.getElem?_eq_some_iff.mp h).1
  exact ⟨_, List.getElem?_eq_getElem hlt⟩

theorem allChecks_at {corpus : List ConstraintDoc} {i : Nat} {id : String}
    (h : (checkOwners corpus)[i]? = some id) : ∃ check, (allChecks corpus)[i]? = some check := by
  have hlt : i < (allChecks corpus).length := by
    rw [← checkOwners_length]
    exact (List.getElem?_eq_some_iff.mp h).1
  exact ⟨_, List.getElem?_eq_getElem hlt⟩

variable {corpus : List ConstraintDoc} {maxParallelSolvers : Nat} {partials : List PartialPass}

theorem dppmCalls_of_few (few : (buildClusters corpus).length ≤ max maxParallelSolvers 1)
    (partials : List PartialPass) : dppmCalls corpus maxParallelSolvers partials =
      (buildClusters corpus).map (solverCall corpus partials) := by
  unfold dppmCalls
  rw [List.take_of_length_le few]

/-! ## The two directions -/

/-- A constraint of a dropped cluster is in no solver call. -/
theorem few_of_once (once : ∀ doc ∈ corpus, ((dppmCalls corpus maxParallelSolvers partials).filter
    fun call => doc.id ∈ call.clusterIds).length = 1) :
    (buildClusters corpus).length ≤ max maxParallelSolvers 1 := by
  by_contra hmany
  obtain ⟨hpartition, _⟩ := buildClusters_partition corpus
  have hlt : max maxParallelSolvers 1 < (buildClusters corpus).length := not_le.mp hmany
  have hdropped := List.getElem_mem hlt
  obtain ⟨id, hid⟩ := List.exists_mem_of_ne_nil _ (hpartition.nonempty _ hdropped)
  obtain ⟨doc, hdoc, rfl⟩ := List.mem_map.mp (hpartition.within _ hdropped id hid)
  have hone := once doc hdoc
  obtain ⟨call, hcall⟩ := List.exists_mem_of_length_pos (by rw [hone]; exact Nat.one_pos)
  obtain ⟨hlaunched, hmem⟩ := List.mem_filter.mp hcall
  unfold dppmCalls at hlaunched
  obtain ⟨c, hc, rfl⟩ := List.mem_map.mp hlaunched
  obtain ⟨j, hj, rfl⟩ := List.mem_iff_getElem.mp hc
  rw [List.length_take] at hj
  rw [List.getElem_take] at hmem
  have hdisjoint := List.pairwise_iff_getElem.mp hpartition.disjoint j
    (max maxParallelSolvers 1) (by omega) hlt (by omega)
  exact hdisjoint (of_decide_eq_true hmem) hid

theorem named_of_checks (few : (buildClusters corpus).length ≤ max maxParallelSolvers 1)
    (checks : ∀ call ∈ dppmCalls corpus maxParallelSolvers partials, ∀ i,
      i ∈ call.checkIndices ↔ OwnPosition corpus call.clusterIds i) :
    ∀ doc ∈ corpus, ∀ check ∈ doc.binaryChecks, Related corpus doc.id (checkPrefix check) := by
  intro doc hdoc check hcheck
  obtain ⟨hpartition, hcover⟩ := buildClusters_partition corpus
  obtain ⟨c, hc, hid⟩ := hcover doc.id (List.mem_map.mpr ⟨doc, hdoc, rfl⟩)
  obtain ⟨i, hat, howner⟩ := checkAt_iff.mpr ⟨doc, hdoc, hcheck, rfl⟩
  have hcall : solverCall corpus partials c ∈ dppmCalls corpus maxParallelSolvers partials := by
    rw [dppmCalls_of_few few]
    exact List.mem_map_of_mem hc
  have hposition := (checks _ hcall i).mpr (ownPosition_iff.mpr ⟨doc.id, hid, howner⟩)
  obtain ⟨check', hat', hprefix⟩ := mem_clusterCheckIndices.mp hposition
  rw [hat, Option.some.injEq] at hat'
  subst hat'
  exact (hpartition.connected c hc doc.id hid _).mp hprefix

theorem checks_of_named (fits : FitsConvention corpus maxParallelSolvers) {c : List String}
    (hc : c ∈ buildClusters corpus) (i : Nat) :
    i ∈ clusterCheckIndices c (allChecks corpus) ↔ OwnPosition corpus c i := by
  obtain ⟨hpartition, _⟩ := buildClusters_partition corpus
  rw [mem_clusterCheckIndices, ownPosition_iff]
  constructor
  · rintro ⟨check, hat, hprefix⟩
    obtain ⟨id, howner⟩ := checkOwners_at hat
    obtain ⟨doc, hdoc, hcheck, rfl⟩ := checkAt_iff.mp ⟨i, hat, howner⟩
    have hrelated := (fits.named doc hdoc check hcheck).symm (adjacency_symmetric corpus)
    exact ⟨doc.id, (hpartition.connected c hc _ hprefix _).mpr hrelated, howner⟩
  · rintro ⟨id, hid, howner⟩
    obtain ⟨check, hat⟩ := allChecks_at howner
    obtain ⟨doc, hdoc, hcheck, rfl⟩ := checkAt_iff.mp ⟨i, hat, howner⟩
    exact ⟨check, hat,
      (hpartition.connected c hc _ hid _).mpr (fits.named doc hdoc check hcheck)⟩

theorem covers_of_fits (fits : FitsConvention corpus maxParallelSolvers)
    (partials : List PartialPass) : Covers corpus maxParallelSolvers partials := by
  obtain ⟨hpartition, hcover⟩ := buildClusters_partition corpus
  have hcalls := dppmCalls_of_few fits.few partials
  have hchecks : ∀ call ∈ dppmCalls corpus maxParallelSolvers partials, ∀ i,
      i ∈ call.checkIndices ↔ OwnPosition corpus call.clusterIds i := by
    intro call hcall i
    rw [hcalls] at hcall
    obtain ⟨c, hc, rfl⟩ := List.mem_map.mp hcall
    exact checks_of_named fits hc i
  refine ⟨fun doc hdoc => ?_, hchecks, ?_⟩
  · rw [hcalls, List.filter_map, List.length_map]
    exact filter_mem_length hpartition.disjoint (hcover doc.id (List.mem_map.mpr ⟨doc, hdoc, rfl⟩))
  · intro call hcall p hp i hposition hpassed
    have hseeded : call.seed = seedForCluster call.checkIndices partials := by
      rw [hcalls] at hcall
      obtain ⟨c, hc, rfl⟩ := List.mem_map.mp hcall
      rfl
    have hsome := seedForCluster_isSome hp ((hchecks call hcall i).mpr hposition) hpassed
    obtain ⟨seed, hseed⟩ := Option.isSome_iff_exists.mp hsome
    obtain ⟨hmem, j, hj, hjpassed⟩ := seedForCluster_some hseed
    exact ⟨seed, hmem, hseeded.trans hseed, j, (hchecks call hcall j).mp hj, hjpassed⟩

/-- The wave covers the corpus exactly if its clusters and its checks fit. -/
theorem covers_iff (corpus : List ConstraintDoc) (maxParallelSolvers : Nat)
    (partials : List PartialPass) :
    Covers corpus maxParallelSolvers partials ↔ FitsConvention corpus maxParallelSolvers := by
  constructor
  · intro covers
    have few := few_of_once covers.once
    exact ⟨few, named_of_checks few covers.checks⟩
  · intro fits
    exact covers_of_fits fits partials

/-! ## Two corpora -/

def checkedDoc (id : String) (checks : List String) : ConstraintDoc :=
  { id := id
    sourceFile := id
    description := ""
    severity := .hard (1 / 2)
    predicate := .composite .and [.llmJudge "rubric"]
    remediationHint := none
    domains := []
    mandatoryForTags := []
    relatedTo := []
    binaryChecks := checks
    version := 1
    repairProvenance := none
    passCriteria := none }

/-- A check whose text does not name its constraint is handed to no solver, and the second
of two unrelated constraints has no solver under a limit of one. -/
theorem wave_misses :
    ¬ Covers [checkedDoc "C-004" ["an idempotency key is used"]] 4 [] ∧
      ¬ Covers [checkedDoc "C-004" [], checkedDoc "C-007" []] 1 [] := by
  constructor
  · intro covers
    have hcall : solverCall [checkedDoc "C-004" ["an idempotency key is used"]] [] ["C-004"] ∈
        dppmCalls [checkedDoc "C-004" ["an idempotency key is used"]] 4 [] :=
      List.mem_singleton.mpr rfl
    have hposition := (covers.checks _ hcall 0).mpr
      ⟨"C-004", List.mem_singleton.mpr rfl, ("C-004", 0, 1), List.mem_singleton.mpr rfl, rfl,
        Nat.le_refl 0, Nat.one_pos⟩
    revert hposition
    decide +kernel
  · intro covers
    have hone := covers.once (checkedDoc "C-007" []) (List.mem_cons_of_mem _ (List.mem_cons_self ..))
    revert hone
    decide +kernel

end ControlPlane.Guarantees.DppmCoverage

/-!
# Clusters are the connected components

The breadth-first search of `build_clusters` keeps its visited set closed under the
references between its searches. Each search takes what a chain of references leads to
from its first document, whatever self-references, repetitions and unknown ids the
documents name.
-/
namespace ControlPlane.Guarantees.ConstraintClusters

open Lib Source.Constraints

/-! ## Statement -/

/-- A document with id `a` names `b` in its `related_to`, and `b` is an id of the corpus. -/
def Refers (docs : List ConstraintDoc) (a b : String) : Prop :=
  ∃ doc ∈ docs, doc.id = a ∧ b ∈ doc.relatedTo ∧ b ∈ docs.map (·.id)

/-- A chain of references, each taken in either direction. -/
def Connected (docs : List ConstraintDoc) : String → String → Prop :=
  Relation.ReflTransGen (Relation.SymmGen (Refers docs))

/-- Where the first document with this id stands. -/
def place (docs : List ConstraintDoc) (id : String) : Nat := (docs.map (·.id)).idxOf id

structure ConnectedComponents (docs : List ConstraintDoc) (clusters : List (List String)) :
    Prop where
  /-- The searches together visit every id once. -/
  visits : clusters.flatten.Perm (docs.map (·.id))
  nonempty : ∀ c ∈ clusters, c ≠ []
  connected : ∀ x ∈ docs.map (·.id), ∀ y ∈ docs.map (·.id),
    (∃ c ∈ clusters, x ∈ c ∧ y ∈ c) ↔ Connected docs x y
  ordered : clusters.Pairwise fun c later => ∃ a ∈ c, ∀ x ∈ later, place docs a < place docs x
  /-- The searches end: more steps find the same. -/
  ends : ∀ fuel, docs.length ≤ fuel →
    componentsFrom (adjacency docs) fuel [] (docs.map (·.id)) = clusters

/-! ## The guarantee -/

theorem mem_adjacency_iff {docs : List ConstraintDoc} {x y : String} :
    y ∈ adjacency docs x ↔ Relation.SymmGen (Refers docs) x y := by
  rw [mem_adjacency]
  constructor
  · intro h
    obtain ⟨doc, hdoc, rel, hrel, hknown, ⟨rfl, rfl⟩ | ⟨rfl, rfl⟩⟩ := h
    · exact Or.inl ⟨doc, hdoc, rfl, hrel, hknown⟩
    · exact Or.inr ⟨doc, hdoc, rfl, hrel, hknown⟩
  · intro h
    rcases h with ⟨doc, hdoc, hid, hrel, hknown⟩ | ⟨doc, hdoc, hid, hrel, hknown⟩
    · exact ⟨doc, hdoc, y, hrel, hknown, Or.inl ⟨hid.symm, rfl⟩⟩
    · exact ⟨doc, hdoc, x, hrel, hknown, Or.inr ⟨rfl, hid.symm⟩⟩

theorem related_iff_connected {docs : List ConstraintDoc} {x y : String} :
    Related docs x y ↔ Connected docs x y := by
  have hstep : (fun a b => b ∈ adjacency docs a) = Relation.SymmGen (Refers docs) := by
    funext a b
    exact propext mem_adjacency_iff
  unfold Related Lib.Path Connected
  rw [hstep]

theorem buildClusters_nodup (docs : List ConstraintDoc) : (buildClusters docs).flatten.Nodup := by
  refine List.nodup_flatten.mpr ⟨?_, (buildClusters_partition docs).1.disjoint⟩
  exact componentsFrom_nodup (fun _ _ _ hy => adjacency_known hy) _ [] fun _ hx => hx

theorem mem_buildClusters_flatten {docs : List ConstraintDoc} {x : String} :
    x ∈ (buildClusters docs).flatten ↔ x ∈ docs.map (·.id) := by
  obtain ⟨hpartition, hcover⟩ := buildClusters_partition docs
  rw [List.mem_flatten]
  constructor
  · intro h
    obtain ⟨c, hc, hx⟩ := h
    exact hpartition.within c hc x hx
  · intro h
    exact hcover x h

theorem same_cluster_iff {docs : List ConstraintDoc} {x y : String} (hx : x ∈ docs.map (·.id)) :
    (∃ c ∈ buildClusters docs, x ∈ c ∧ y ∈ c) ↔ Related docs x y := by
  obtain ⟨hpartition, hcover⟩ := buildClusters_partition docs
  constructor
  · intro h
    obtain ⟨c, hc, hxc, hyc⟩ := h
    exact (hpartition.connected c hc x hxc y).mp hyc
  · intro hpath
    obtain ⟨c, hc, hxc⟩ := hcover x hx
    exact ⟨c, hc, hxc, (hpartition.connected c hc x hxc y).mpr hpath⟩

/-- For every list of documents with distinct ids. -/
theorem clusters_are_components (docs : List ConstraintDoc)
    (distinct : (docs.map (·.id)).Nodup) : ConnectedComponents docs (buildClusters docs) where
  visits := (List.perm_ext_iff_of_nodup (buildClusters_nodup docs) distinct).mpr
    fun _ => mem_buildClusters_flatten
  nonempty := (buildClusters_partition docs).1.nonempty
  connected x hx y _ := (same_cluster_iff hx).trans related_iff_connected
  ordered := componentsFrom_ordered (fun _ _ _ hy => adjacency_known hy)
    (adjacency_symmetric docs) [] _ [] rfl (by simp) (by simp)
  ends fuel henough := componentsFrom_fuel (fun _ _ _ hy => adjacency_known hy) _ []
    (fun _ hx => hx) (by simpa using henough)

/-- A document with this id and these references. -/
def note (id : String) (relatedTo : List String) : ConstraintDoc :=
  ⟨id, "", "", .advisory, .lengthRange none none, none, [], [], relatedTo, [], 0, none, none⟩

/-- A reference against the order of the documents, a self-reference, one that is named
twice and one to an unknown id. -/
theorem clusters_of_four :
    let docs := [note "C-1" [], note "C-2" ["C-2", "C-9"], note "C-3" ["C-1", "C-1"], note "C-4" []]
    (docs.map (·.id)).Nodup ∧ buildClusters docs = [["C-1", "C-3"], ["C-2"], ["C-4"]] ∧
      ConnectedComponents docs (buildClusters docs) :=
  ⟨by decide, by decide +kernel, clusters_are_components _ (by decide)⟩

end ControlPlane.Guarantees.ConstraintClusters
