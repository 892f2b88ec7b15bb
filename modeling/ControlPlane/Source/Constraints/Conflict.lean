import ControlPlane.Lib.Entries
import ControlPlane.Source.Constraints.Types
import ControlPlane.Source.MapeK.RepairContext

/-!
# Conflict graph of the constraints

Embeds `crates/h2ai-constraints/src/conflict.rs`. The set of pairs is a list without
repetitions; its order and that of the numeric fields are those of the corpus, and hash maps
walk them in another one.
-/
namespace ControlPlane.Source.Constraints

open Lib
open MapeK (canonicalPair)

/-- An entry of `orderings`. -/
structure OrderingEntry where
  id : String
  first : String
  andThen : String
  deriving DecidableEq, Repr

/-- An entry of a field of `numerics`. -/
structure NumericEntry where
  id : String
  op : NumericOp
  value : ℚ
  deriving DecidableEq, Repr

/-- The two collections that `collect_predicates` fills. -/
structure Collected where
  orderings : List OrderingEntry
  numerics : List (String × List NumericEntry)
  deriving DecidableEq, Repr

/-- What `collect_predicates` does with everything but an `And`. -/
def Collected.addLeaf (id : String) (c : Collected) : ConstraintPredicate → Collected
  | .semanticOrdering first andThen _ =>
      { c with orderings := c.orderings ++ [{ id := id, first := first, andThen := andThen }] }
  | .numericThreshold fieldPattern op value =>
      { c with
        numerics := replaceEntry fieldPattern
          (fun old => old.getD [] ++ [{ id := id, op := op, value := value }]) c.numerics }
  | _ => c

mutual
def collectPredicates (id : String) : ConstraintPredicate → Collected → Collected
  | .composite .and children, c => collectChildren id children c
  | p, c => c.addLeaf id p
def collectChildren (id : String) : List ConstraintPredicate → Collected → Collected
  | [], c => c
  | child :: rest, c => collectChildren id rest (collectPredicates id child c)
end

/-- The first loop of `build`. -/
def collectDocs (docs : List ConstraintDoc) : Collected :=
  docs.foldl (fun c doc => collectPredicates doc.id doc.predicate c) ⟨[], []⟩

def OrderingEntry.reverses (a b : OrderingEntry) : Bool :=
  a.first == b.andThen && a.andThen == b.first

/-- The loops over two positions. -/
def orderingPairs : List OrderingEntry → List (String × String)
  | [] => []
  | a :: rest =>
      ((rest.filter a.reverses).map fun b => canonicalPair a.id b.id) ++ orderingPairs rest

/-- The loops over the upper and the lower bounds of a field. -/
def numericPairs (entries : List NumericEntry) : List (String × String) :=
  let les := entries.filter fun e => e.op == .le
  let ges := entries.filter fun e => e.op == .ge
  les.flatMap fun le =>
    (ges.filter fun ge => decide (le.value < ge.value)).map fun ge => canonicalPair le.id ge.id

/-- The cross-references. -/
def relatedPairs (docs : List ConstraintDoc) : List (String × String) :=
  docs.flatMap fun doc => doc.relatedTo.map fun related => canonicalPair doc.id related

/-- `ConstraintConflictGraph::build`, with its `conflict_pairs`. -/
def buildConflictPairs (docs : List ConstraintDoc) : List (String × String) :=
  let collected := collectDocs docs
  (orderingPairs collected.orderings ++
    (collected.numerics.flatMap fun field => numericPairs field.2) ++ relatedPairs docs).dedup

/-- `conflicts_for`. -/
def conflictsFor (pairs : List (String × String)) (id : String) : List String :=
  pairs.filterMap fun pair =>
    if pair.1 = id then some pair.2 else if pair.2 = id then some pair.1 else none

/-! ## The predicates that a document enforces -/

mutual
/-- What has to hold whenever the predicate does: the children of an `And`, at any depth. -/
def enforced : ConstraintPredicate → List ConstraintPredicate
  | .composite .and children => enforcedAll children
  | p => [p]
def enforcedAll : List ConstraintPredicate → List ConstraintPredicate
  | [] => []
  | child :: rest => enforced child ++ enforcedAll rest
end

mutual
/-- Induction over the `And`s of a predicate, everything else being a leaf. -/
theorem andInduction {motive : ConstraintPredicate → Prop}
    (conj : ∀ children, (∀ child ∈ children, motive child) →
      motive (.composite .and children))
    (leaf : ∀ p, enforced p = [p] → (∀ id c, collectPredicates id p c = c.addLeaf id p) →
      motive p) :
    (p : ConstraintPredicate) → motive p
  | .vocabularyPresence .. => leaf _ rfl fun _ _ => rfl
  | .negativeKeyword .. => leaf _ rfl fun _ _ => rfl
  | .regexMatch .. => leaf _ rfl fun _ _ => rfl
  | .numericThreshold .. => leaf _ rfl fun _ _ => rfl
  | .llmJudge .. => leaf _ rfl fun _ _ => rfl
  | .composite .and children => conj children (andInductionAll conj leaf children)
  | .composite .or _ => leaf _ rfl fun _ _ => rfl
  | .composite .not _ => leaf _ rfl fun _ _ => rfl
  | .oracleExecution .. => leaf _ rfl fun _ _ => rfl
  | .jsonSchema .. => leaf _ rfl fun _ _ => rfl
  | .lengthRange .. => leaf _ rfl fun _ _ => rfl
  | .semanticPresence .. => leaf _ rfl fun _ _ => rfl
  | .semanticOrdering .. => leaf _ rfl fun _ _ => rfl
  | .semanticExclusion .. => leaf _ rfl fun _ _ => rfl
theorem andInductionAll {motive : ConstraintPredicate → Prop}
    (conj : ∀ children, (∀ child ∈ children, motive child) →
      motive (.composite .and children))
    (leaf : ∀ p, enforced p = [p] → (∀ id c, collectPredicates id p c = c.addLeaf id p) →
      motive p) :
    (children : List ConstraintPredicate) → ∀ child ∈ children, motive child
  | [] => fun _ h => absurd h List.not_mem_nil
  | child :: rest => fun c h =>
      (List.mem_cons.mp h).elim (fun heq => heq ▸ andInduction conj leaf child)
        fun hrest => andInductionAll conj leaf rest c hrest
end

end ControlPlane.Source.Constraints
