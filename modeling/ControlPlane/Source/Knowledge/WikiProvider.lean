import ControlPlane.Lib.Ranking
import ControlPlane.Lib.Walks
import ControlPlane.Source.Constraints.Eval
import ControlPlane.Source.Knowledge.Types
import ControlPlane.Source.Text
import Mathlib.Data.String.Basic

/-!
# The wiki provider

Embeds `Bm25WikiProvider` with `load_all` (`crates/h2ai-knowledge/src/provider.rs`) and
`ScoringConfig` (`crates/h2ai-knowledge/src/factory.rs`), and the BM25+ index it scores with.
Sets and maps of the source that are walked are walked in the order of a parameter.
-/

/-!
## BM25+

Embeds `crates/h2ai-knowledge/src/bm25plus.rs`. The logarithm `ln_1p` is a parameter. Term
frequencies are counts in the list of the terms of a document.
-/
namespace ControlPlane.Source.Knowledge

open Lib Source.Constraints

def isStopword (token : String) : Bool :=
  ["the", "and", "for", "are", "this", "that", "with", "from", "not", "but", "has", "have",
    "was", "were", "will", "can", "all", "any", "its", "use", "used", "must"].contains token

/-- Lower case, alphanumeric runs of at least three bytes, no stopwords. -/
def tokenize (x : Externals) (text : String) : List String :=
  ((text.toList.splitOnP fun c => !x.isAlphanumeric c).map fun word =>
    x.toLowercase (String.ofList word)).filter fun token =>
      decide (3 ≤ token.utf8ByteSize) && !isStopword token

structure Bm25Entry where
  id : String
  terms : List String
  deriving DecidableEq, Repr

namespace Bm25Entry

def docLen (e : Bm25Entry) : ℚ := e.terms.length

def termFreq (e : Bm25Entry) (term : String) : ℚ := e.terms.count term

end Bm25Entry

structure Candidate where
  id : String
  score : ℚ
  deriving DecidableEq, Repr

structure Bm25PlusRetriever where
  entries : List Bm25Entry
  idf : String → Option ℚ
  avgDocLen : ℚ

namespace Bm25PlusRetriever

def k1 : ℚ := 3 / 2
def b : ℚ := 3 / 4
def delta : ℚ := 1

section Build

variable (x : Externals) (ln1p : ℚ → ℚ)

def build (docs : List (String × String)) : Bm25PlusRetriever :=
  let entries := docs.map fun (id, text) => Bm25Entry.mk id (tokenize x text)
  let n : ℚ := entries.length
  { entries := entries
    avgDocLen := if entries.isEmpty then 0 else (entries.map Bm25Entry.docLen).sum / n
    idf := fun term =>
      let df := entries.countP fun e => decide (term ∈ e.terms)
      if df = 0 then none
      else some (max (ln1p ((n - df + 1 / 2) / (df + 1 / 2))) 0) }

end Build

/-- What one term of the query adds to the score of a document. -/
def termScore (r : Bm25PlusRetriever) (e : Bm25Entry) (term : String) : ℚ :=
  match r.idf term with
  | none => 0
  | some idf =>
      let tf := e.termFreq term
      if tf = 0 then 0
      else
        let tfNorm := tf * (k1 + 1) / (k1 * (1 - b + b * e.docLen / max r.avgDocLen 1) + tf)
        idf * (delta + tfNorm)

def bm25PlusScore (r : Bm25PlusRetriever) (e : Bm25Entry) (queryTerms : List String) : ℚ :=
  (queryTerms.dedup.map (r.termScore e)).sum

def query (x : Externals) (r : Bm25PlusRetriever) (text : String) (topK : Nat) :
    List Candidate :=
  if r.entries.isEmpty || topK = 0 then []
  else
    let queryTerms := tokenize x text
    if queryTerms.isEmpty then []
    else
      let scores := (r.entries.map fun e =>
        Candidate.mk e.id (r.bm25PlusScore e queryTerms)).filter fun c => decide (0 < c.score)
      (sortDescending Candidate.score scores).take topK

end Bm25PlusRetriever

end ControlPlane.Source.Knowledge

namespace ControlPlane.Source.Knowledge

open Lib Source.Constraints

structure ScoringConfig where
  leafScoreMultiplier : ℚ
  idInQueryBoost : ℚ
  entryPointBoost : ℚ
  pprScoreMultiplier : ℚ
  pprAlpha : ℚ
  pprMaxIter : Nat
  topicClusterTopK : Nat
  globalSynthesisMaxChars : Nat
  deriving DecidableEq, Repr

def ScoringConfig.default : ScoringConfig where
  leafScoreMultiplier := 7 / 10
  idInQueryBoost := 15 / 100
  entryPointBoost := 10 / 100
  pprScoreMultiplier := 3 / 10
  pprAlpha := 15 / 100
  pprMaxIter := 20
  topicClusterTopK := 3
  globalSynthesisMaxChars := 600

/-! ## Loading -/

/-- The fields of `SourceItem` that a leaf takes over. -/
structure SourceItem where
  id : String
  summary : String
  domains : List String
  related : List String
  crossRefs : List CrossRef
  deriving DecidableEq, Repr

structure KnowledgeSource where
  allItems : List SourceItem
  wikiNodes : List KnowledgeNode
  globalNode : Option KnowledgeNode
  deriving DecidableEq, Repr

def sourceItemToLeaf (item : SourceItem) : KnowledgeNode where
  id := item.id
  depth := .leaf
  synthesis := item.summary
  invariants := []
  failureModes := []
  domains := item.domains
  entryPoints := []
  tensions := []
  crossReferences := item.crossRefs
  related := item.related
  source := .yamlConstraint item.id
  importance := 7 / 10

/-- The topic of a domain; a leaf is listed as often as it names the domain. -/
def synthesizeTopicNode (leaves : List KnowledgeNode) (domain : String) : KnowledgeNode :=
  let nodes := leaves.flatMap fun leaf =>
    (leaf.domains.filter fun d => decide (d = domain)).map fun _ => leaf
  { id := "topic:" ++ domain
    depth := .topic
    synthesis := " ".intercalate (nodes.map KnowledgeNode.synthesis)
    invariants := []
    failureModes := []
    domains := [domain]
    entryPoints := nodes.map KnowledgeNode.id
    tensions := []
    crossReferences := []
    related := nodes.map KnowledgeNode.id
    source := .synthetic
    importance := 8 / 10 }

def synthesizeTopicNodes (leaves : List KnowledgeNode) : List KnowledgeNode :=
  (((leaves.flatMap KnowledgeNode.domains).dedup.insertionSort (· ≤ ·))).map
    (synthesizeTopicNode leaves)

def synthesizeGlobalNode (w : Walk String) (topics : List KnowledgeNode) (maxChars : Nat) :
    Option KnowledgeNode :=
  let synthesis := " ".intercalate (topics.map KnowledgeNode.synthesis)
  if synthesis.isEmpty then none
  else some
    { id := "global:overview"
      depth := .global
      synthesis := String.ofList (synthesis.toList.take maxChars)
      invariants := []
      failureModes := []
      domains := w.run (topics.flatMap KnowledgeNode.domains).dedup
      entryPoints := []
      tensions := []
      crossReferences := []
      related := []
      source := .synthetic
      importance := 1 }

structure Bm25WikiProvider where
  globalNode : Option KnowledgeNode
  topicNodes : List KnowledgeNode
  leafItems : List KnowledgeNode
  scoring : ScoringConfig
  deriving DecidableEq, Repr

namespace Bm25WikiProvider

/-- `build`; the indices and the graph are functions of the nodes. -/
def build (w : Walk String) (source : KnowledgeSource) (scoring : ScoringConfig) :
    Bm25WikiProvider :=
  let leaves := source.allItems.map sourceItemToLeaf
  let topics :=
    if source.wikiNodes.isEmpty then synthesizeTopicNodes leaves else source.wikiNodes
  { globalNode := source.globalNode.or
      (synthesizeGlobalNode w topics scoring.globalSynthesisMaxChars)
    topicNodes := topics
    leafItems := leaves
    scoring := scoring }

section Indices

variable (x : Externals) (ln1p : ℚ → ℚ) (wiki : Bm25WikiProvider)

def topicIndex : Bm25PlusRetriever :=
  .build x ln1p (wiki.topicNodes.map fun n =>
    (n.id, n.synthesis ++ " " ++ " ".intercalate n.invariants ++ " " ++
      " ".intercalate n.failureModes))

/-- The keys of `leaf_indices`. -/
def leafDomains : List String := (wiki.leafItems.flatMap KnowledgeNode.domains).dedup

/-- The entry of `leaf_indices` under a domain. -/
def leafIndex (domain : String) : Bm25PlusRetriever :=
  .build x ln1p (wiki.leafItems.flatMap fun leaf =>
    (leaf.domains.filter fun d => decide (d = domain)).map fun _ => (leaf.id, leaf.synthesis))

def collapsedIndex : Bm25PlusRetriever :=
  .build x ln1p ((wiki.topicNodes ++ wiki.leafItems).map fun n => (n.id, n.synthesis))

def graph : ConstraintGraph := .build wiki.leafItems

end Indices

/-! ## Queries -/

def findLeaf (wiki : Bm25WikiProvider) (id : String) : Option KnowledgeNode :=
  wiki.leafItems.find? fun n => decide (n.id = id)

def findTopic (wiki : Bm25WikiProvider) (id : String) : Option KnowledgeNode :=
  wiki.topicNodes.find? fun n => decide (n.id = id)

def boostLeafScore (base : ℚ) (node : KnowledgeNode) (queryText : String) (idBoost : ℚ) : ℚ :=
  if Text.containsText queryText.toList node.id.toList then base + idBoost else base

/-- The leaves of the explicit ids, then the topics that have one as entry point. -/
def explicitNodes (wiki : Bm25WikiProvider) (ids : List String) : List (KnowledgeNode × ℚ) :=
  (ids.filterMap wiki.findLeaf).map (fun n => (n, 1)) ++
    (wiki.topicNodes.filter fun topic =>
      topic.entryPoints.any fun ep => decide (ep ∈ ids)).map fun n => (n, 1)

def globalHits (wiki : Bm25WikiProvider) (q : KnowledgeQuery) : List (KnowledgeNode × ℚ) :=
  if .global ∈ q.depths then (wiki.globalNode.map fun g => (g, (1 : ℚ))).toList else []

section Query

variable (x : Externals) (ln1p : ℚ → ℚ) (wiki : Bm25WikiProvider) (q : KnowledgeQuery)

def hitScore (hit : Candidate) (node : KnowledgeNode) : ℚ :=
  boostLeafScore (hit.score * wiki.scoring.leafScoreMultiplier) node q.text
    wiki.scoring.idInQueryBoost

def topicHits (topK : Nat) : List (KnowledgeNode × ℚ) :=
  ((wiki.topicIndex x ln1p).query x q.text topK).filterMap fun hit =>
    (wiki.findTopic hit.id).map fun node => (node, hit.score)

def collapsedHits : List (KnowledgeNode × ℚ) :=
  (if .topic ∈ q.depths then wiki.topicHits x ln1p q q.topK else []) ++
    (if .leaf ∈ q.depths then
      ((wiki.collapsedIndex x ln1p).query x q.text q.topK).filterMap fun hit =>
        (wiki.findLeaf hit.id).map fun node => (node, wiki.hitScore q hit node)
    else [])

/-- `seen_leaf_ids`: the first hit of an id counts. -/
def firstHits (hits : List Candidate) : List Candidate :=
  hits.foldl (fun seen hit =>
    if seen.any fun h => decide (h.id = hit.id) then seen else seen ++ [hit]) []

/-- The domains of the matched topics, or all domains of leaves. -/
def domainsToSearch (w : Walk String) (matched : List (KnowledgeNode × ℚ)) : List String :=
  let target := (matched.flatMap fun e => e.1.domains).dedup
  w.run (if target.isEmpty then wiki.leafDomains else target)

def traversalLeaves (w : Walk String) (matched : List (KnowledgeNode × ℚ)) :
    List (KnowledgeNode × ℚ) :=
  let domains := wiki.domainsToSearch w matched
  let perDomainK := max (q.topK / max domains.length 1) 2
  let hits := domains.flatMap fun domain =>
    if domain ∈ wiki.leafDomains then
      (wiki.leafIndex x ln1p domain).query x q.text perDomainK
    else []
  (firstHits hits).filterMap fun hit =>
    (wiki.findLeaf hit.id).map fun node =>
      let score := wiki.hitScore q hit node
      (node, if matched.any fun e => decide (node.id ∈ e.1.entryPoints) then
        score + wiki.scoring.entryPointBoost else score)

def traversalHits (w : Walk String) : List (KnowledgeNode × ℚ) :=
  let matched :=
    if .topic ∈ q.depths ∨ .leaf ∈ q.depths then
      wiki.topicHits x ln1p q wiki.scoring.topicClusterTopK
    else []
  (if .topic ∈ q.depths then matched else []) ++
    (if .leaf ∈ q.depths then wiki.traversalLeaves x ln1p q w matched else [])

/-- The neighbours in the graph of the leaves that were hit. -/
def pprNodes (results : List (KnowledgeNode × ℚ)) : List (KnowledgeNode × ℚ) :=
  if 0 < q.expandHops ∧ .leaf ∈ q.depths then
    let leafHitIds := (results.filter fun e => decide (e.1.depth = .leaf)).map fun e => e.1.id
    if leafHitIds.isEmpty then []
    else
      let hits := wiki.graph.ppr leafHitIds wiki.scoring.pprAlpha q.topK wiki.scoring.pprMaxIter
      (hits.filter fun hit => results.all fun e => decide (e.1.id ≠ hit.1)).filterMap fun hit =>
        (wiki.findLeaf hit.1).map fun node => (node, hit.2 * wiki.scoring.pprScoreMultiplier)
  else []

/-- What the global node and the retrieval by mode find. -/
def retrieved (w : Walk String) : List (KnowledgeNode × ℚ) :=
  wiki.globalHits q ++ match q.mode with
    | .collapsedTree => wiki.collapsedHits x ln1p q
    | .treeTraversal => wiki.traversalHits x ln1p q w

/-- All scored nodes, before those with one id are merged. -/
def scoredNodes (w : Walk String) : List (KnowledgeNode × ℚ) :=
  wiki.retrieved x ln1p q w ++ wiki.pprNodes q (wiki.retrieved x ln1p q w)

/-- A tension between the domains of two topics is surfaced once, in either direction. -/
def surfaceTension (node : KnowledgeNode) (surfaced : List SurfacedTension)
    (tension : TensionRef) : List SurfacedTension :=
  let domainA := node.domains.headD ""
  if surfaced.any fun t =>
      decide ((t.domainA = domainA ∧ t.domainB = tension.domain) ∨
        (t.domainA = tension.domain ∧ t.domainB = domainA)) then surfaced
  else surfaced ++ [⟨domainA, tension.domain, tension.reason⟩]

def surfacedTensions (results : List (KnowledgeNode × ℚ)) : List SurfacedTension :=
  let topics := (results.filter fun e => decide (e.1.depth = .topic)).map Prod.fst
  let domains := topics.flatMap KnowledgeNode.domains
  topics.foldl (fun surfaced node =>
    (node.tensions.filter fun t => decide (t.domain ∈ domains)).foldl
      (surfaceTension node) surfaced) []

/-- The flag of the answer: the global node was requested and there is one. -/
def includesGlobal : Bool := decide (.global ∈ q.depths) && wiki.globalNode.isSome

def query (w : Walk String) (values : Walk (KnowledgeNode × ℚ)) : KnowledgeResult :=
  if !q.explicitIds.isEmpty then
    { nodes := wiki.explicitNodes q.explicitIds
      globalIncluded := false
      surfacedTensions := []
      pprExpanded := false }
  else
    let results := wiki.scoredNodes x ln1p q w
    let globalIncluded := wiki.includesGlobal q
    let finalResults :=
      sortDescending Prod.snd (values.run (ranked KnowledgeNode.id results))
    { nodes := finalResults.take (q.topK + globalIncluded.toNat)
      globalIncluded := globalIncluded
      surfacedTensions := surfacedTensions results
      pprExpanded := !(wiki.pprNodes q (wiki.retrieved x ln1p q w)).isEmpty }

end Query

/-- The wiki as one of the providers. -/
def provider (x : Externals) (ln1p : ℚ → ℚ) (wiki : Bm25WikiProvider) (w : Walk String)
    (values : Walk (KnowledgeNode × ℚ)) : KnowledgeProvider where
  query q := wiki.query x ln1p q w values
  globalSummary := wiki.globalNode

end Bm25WikiProvider

end ControlPlane.Source.Knowledge
