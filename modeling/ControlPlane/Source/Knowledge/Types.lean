import ControlPlane.Lib.Walks
import Mathlib.Algebra.Order.Ring.Rat
import Mathlib.Data.Rat.Defs

/-!
# Knowledge

Embeds `crates/h2ai-knowledge/src/types.rs` and the `KnowledgeProvider` trait
(`crates/h2ai-knowledge/src/provider.rs`). Scores are exact rationals.
-/
namespace ControlPlane.Source.Knowledge

inductive NodeDepth where
  | global | topic | leaf
  deriving DecidableEq, Repr

inductive NodeSource where
  | yamlConstraint (id : String)
  | wikiYaml (path : String)
  | synthetic
  deriving DecidableEq, Repr

structure TensionRef where
  domain : String
  reason : String
  deriving DecidableEq, Repr

structure CrossRef where
  id : String
  domain : String
  reason : String
  deriving DecidableEq, Repr

structure KnowledgeNode where
  id : String
  depth : NodeDepth
  synthesis : String
  invariants : List String
  failureModes : List String
  domains : List String
  entryPoints : List String
  tensions : List TensionRef
  crossReferences : List CrossRef
  related : List String
  source : NodeSource
  importance : ℚ
  deriving DecidableEq, Repr

inductive RetrievalMode where
  | treeTraversal | collapsedTree
  deriving DecidableEq, Repr

/-- `KnowledgeQuery`; no provider reads its scope. -/
structure KnowledgeQuery where
  text : String
  tags : List String
  explicitIds : List String
  topK : Nat
  depths : List NodeDepth
  mode : RetrievalMode
  expandHops : Nat
  deriving DecidableEq, Repr

structure SurfacedTension where
  domainA : String
  domainB : String
  reason : String
  deriving DecidableEq, Repr

structure KnowledgeResult where
  nodes : List (KnowledgeNode × ℚ)
  globalIncluded : Bool
  surfacedTensions : List SurfacedTension
  pprExpanded : Bool
  deriving DecidableEq, Repr

/-- The node is answered, with whatever score. -/
def KnowledgeResult.Has (r : KnowledgeResult) (n : KnowledgeNode) : Prop :=
  ∃ score, (n, score) ∈ r.nodes

structure KnowledgeProvider where
  query : KnowledgeQuery → KnowledgeResult
  globalSummary : Option KnowledgeNode

end ControlPlane.Source.Knowledge

/-!
## The constraint graph

Embeds `crates/h2ai-knowledge/src/graph.rs`. The edges of a node have uniform weights, so
that a row of the graph is the list of its distinct neighbours.
-/
namespace ControlPlane.Source.Knowledge

open Lib

structure ConstraintGraph where
  nodeIds : List String
  adj : List (List Nat)
  deriving DecidableEq, Repr

namespace ConstraintGraph

/-- `id_to_idx`: of nodes with one id, the last one. -/
def idToIdx (nodeIds : List String) (id : String) : Option Nat :=
  (nodeIds.zipIdx.reverse.find? fun e => decide (e.1 = id)).map Prod.snd

def neighbourIds (node : KnowledgeNode) : List String :=
  node.related ++ node.crossReferences.map CrossRef.id

/-- Both directions of the references between known nodes, without self-loops. -/
def edges (nodeIds : List String) (nodes : List KnowledgeNode) : List (Nat × Nat) :=
  nodes.flatMap fun node =>
    match idToIdx nodeIds node.id with
    | none => []
    | some src =>
        ((neighbourIds node).filterMap (idToIdx nodeIds)).flatMap fun dst =>
          if dst = src then [] else [(src, dst), (dst, src)]

def build (nodes : List KnowledgeNode) : ConstraintGraph :=
  let nodeIds := nodes.map KnowledgeNode.id
  { nodeIds := nodeIds
    adj := (List.range nodeIds.length).map fun src =>
      (((edges nodeIds nodes).filter fun e => decide (e.1 = src)).map Prod.snd).dedup }

/-- One step of the power iteration. -/
def propagate (g : ConstraintGraph) (alpha : ℚ) (personal r : List ℚ) : List ℚ :=
  personal.mapIdx fun i p =>
    ((r.zip g.adj).map fun (mass, row) =>
      if i ∈ row then (1 - alpha) * mass * (1 / row.length) else 0).sum + alpha * p

/-- Personalised PageRank. -/
def ppr (g : ConstraintGraph) (seedIds : List String) (alpha : ℚ) (topK maxIter : Nat) :
    List (String × ℚ) :=
  let alpha := max (1 / 100) (min alpha (99 / 100))
  let seeds := seedIds.filterMap (idToIdx g.nodeIds)
  if seeds.isEmpty then []
  else
    let personal := (List.range g.nodeIds.length).map fun i =>
      if i ∈ seeds then (1 : ℚ) / seeds.length else 0
    let r := (g.propagate alpha personal)^[maxIter] personal
    let hits := (g.nodeIds.zip r).zipIdx.filter fun (e, i) =>
      decide (i ∉ seeds) && decide (0 < e.2)
    (sortDescending Prod.snd (hits.map Prod.fst)).take topK

end ConstraintGraph

end ControlPlane.Source.Knowledge
