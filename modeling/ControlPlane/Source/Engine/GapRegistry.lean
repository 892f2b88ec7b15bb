import Mathlib.Algebra.BigOperators.Group.Finset.Basic
import Mathlib.Algebra.BigOperators.Group.Finset.Piecewise
import Mathlib.Algebra.Ring.Nat
import Mathlib.Data.Finset.Card
import Mathlib.Data.List.Dedup

/-!
# Gap registry

Embeds `Gap` (`crates/h2ai-orchestrator/src/gap_checkers/mod.rs`) and
`GapRegistry::dispatch_batches` (`crates/h2ai-orchestrator/src/gap_registry.rs`). A hash map
keyed by id is a function on ids with the list of its keys; the order in which a batch names
its gaps is that of the list, and nothing reads it. The severity, the affected provisions and
the source of a gap are left out.
-/
namespace ControlPlane.Source.Engine

inductive GapKind where
  | missingProvision | interProvisionConflict | incompleteProvision | uncertainDomain
  | ungroundedContent
  deriving DecidableEq, Repr

structure Gap where
  id : String
  kind : GapKind
  description : String
  dependsOn : Option (List String)
  deriving DecidableEq, Repr

/-- `CycleError`: the gaps whose dependencies were not all released. -/
structure CycleError where
  remaining : List String
  deriving DecidableEq, Repr

/-! ## Kahn's algorithm -/

section Batches

variable (gaps : List Gap)

/-- The keys of `in_degree`. -/
def gapIds : List String := (gaps.map (·.id)).dedup

/-- The dependencies of a gap that are gaps of the registry, one for each mention. -/
def knownDeps (gap : Gap) : List String :=
  (gap.dependsOn.getD []).filter fun dep => decide (dep ∈ gaps.map (·.id))

def gapInDegree (id : String) : Nat :=
  ((gaps.filter fun gap => decide (gap.id = id)).map fun gap => (knownDeps gaps gap).length).sum

/-- `dependents[id]`. -/
def dependentsOf (id : String) : List String :=
  gaps.flatMap fun gap => ((knownDeps gaps gap).filter fun dep => decide (dep = id)).map
    fun _ => gap.id

structure BatchState where
  inDegree : String → Nat
  queue : List String

/-- `*deg -= 1`, and the gap is queued when this makes it zero. A released gap had a
dependency left. -/
def releaseGap (s : BatchState) (dep : String) : BatchState :=
  match s.inDegree dep with
  | 0 => s
  | k + 1 =>
      { inDegree := Function.update s.inDegree dep k
        queue := if k = 0 then s.queue ++ [dep] else s.queue }

/-- The queue behind a batch. -/
def nextBatch (s : BatchState) : BatchState :=
  (s.queue.flatMap (dependentsOf gaps)).foldl releaseGap ⟨s.inDegree, []⟩

/-- The `while` loop, with the degrees that it leaves. -/
def batchLoop : Nat → BatchState → List (List String) × (String → Nat)
  | 0, s => ([], s.inDegree)
  | fuel + 1, s =>
      if s.queue.isEmpty then ([], s.inDegree)
      else
        let rest := batchLoop fuel (nextBatch gaps s)
        (s.queue :: rest.1, rest.2)

def firstBatch : BatchState :=
  ⟨gapInDegree gaps, (gapIds gaps).filter fun id => decide (gapInDegree gaps id = 0)⟩

/-- All degrees together. -/
def BatchState.weight (ids : List String) (s : BatchState) : Nat :=
  ∑ id ∈ ids.toFinset, s.inDegree id

/-- `dispatch_batches`. An id that two gaps share counts once, and fails the length check. -/
def dispatchBatches : Except CycleError (List (List String)) :=
  let start := firstBatch gaps
  let ended := batchLoop gaps (start.weight (gapIds gaps) + 1) start
  if (ended.1.map List.length).sum ≠ gaps.length then
    .error ⟨(gapIds gaps).filter fun id => decide (0 < ended.2 id)⟩
  else .ok ended.1

end Batches

/-! ## The loop ends -/

/-- A gap that is queued gave up its last degree. -/
theorem releaseGap_weight {ids : List String} (s : BatchState) {dep : String} (h : dep ∈ ids) :
    (releaseGap s dep).weight ids + (releaseGap s dep).queue.length ≤
      s.weight ids + s.queue.length := by
  unfold releaseGap
  cases hdeg : s.inDegree dep with
  | zero => exact le_rfl
  | succ k =>
      have hsplit := Finset.sum_eq_add_sum_sdiff_singleton_of_mem (List.mem_toFinset.mpr h)
        s.inDegree
      have hupdate := Finset.sum_update_of_mem (List.mem_toFinset.mpr h) s.inDegree k
      unfold BatchState.weight
      dsimp only
      split_ifs
      · rw [List.length_append, List.length_singleton]
        omega
      · omega

theorem releaseAll_weight {ids : List String} (deps : List String) (s : BatchState)
    (h : ∀ dep ∈ deps, dep ∈ ids) :
    (deps.foldl releaseGap s).weight ids + (deps.foldl releaseGap s).queue.length ≤
      s.weight ids + s.queue.length := by
  induction deps generalizing s with
  | nil => exact le_rfl
  | cons dep deps ih =>
      have hfirst := releaseGap_weight s (h dep List.mem_cons_self)
      have hrest := ih (releaseGap s dep) fun d hd => h d (List.mem_cons_of_mem dep hd)
      rw [List.foldl_cons]
      omega

/-- A batch that is followed by another one lowers the degrees. -/
theorem nextBatch_weight (gaps : List Gap) (s : BatchState) :
    (nextBatch gaps s).weight (gapIds gaps) + (nextBatch gaps s).queue.length ≤
      s.weight (gapIds gaps) := by
  have hids : ∀ dep ∈ s.queue.flatMap (dependentsOf gaps), dep ∈ gapIds gaps := by
    intro dep hdep
    obtain ⟨id, -, hdep⟩ := List.mem_flatMap.mp hdep
    obtain ⟨gap, hgap, hdep⟩ := List.mem_flatMap.mp hdep
    obtain ⟨mention, -, rfl⟩ := List.mem_map.mp hdep
    exact List.mem_dedup.mpr (List.mem_map_of_mem hgap)
  exact releaseAll_weight _ ⟨s.inDegree, []⟩ hids

/-- More fuel than the weight of the state changes nothing. -/
theorem batchLoop_more_fuel (gaps : List Gap) (more : Nat) {fuel : Nat} {s : BatchState}
    (h : s.weight (gapIds gaps) < fuel) :
    batchLoop gaps (fuel + more) s = batchLoop gaps fuel s := by
  induction fuel generalizing s with
  | zero => omega
  | succ fuel ih =>
      have hnum : fuel + 1 + more = (fuel + more) + 1 := by omega
      rw [hnum, batchLoop, batchLoop]
      split_ifs with hqueue
      · rfl
      · have hweight := nextBatch_weight gaps s
        by_cases hnext : (nextBatch gaps s).queue = []
        · have hdone : ∀ n, batchLoop gaps n (nextBatch gaps s) =
              ([], (nextBatch gaps s).inDegree) := by
            intro n
            cases n with
            | zero => rfl
            | succ n =>
                rw [batchLoop, if_pos (List.isEmpty_iff.mpr hnext)]
          rw [hdone, hdone]
        · have hpos := List.length_pos_iff.mpr hnext
          rw [ih (by omega)]

end ControlPlane.Source.Engine
