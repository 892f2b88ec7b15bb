import ControlPlane.Source.Knowledge.CompositeProvider
import ControlPlane.Source.Knowledge.WikiProvider

/-!
# Guaranteed knowledge

The global node and the nodes of the explicit ids are answered like all others: with a score,
behind a merge by id, a penalty, a filter by domain and a cut. They are never ranked away
exactly if each is the first that is answered under its id, is in scope, and has fewer
rivals that score as high than the cut leaves room for.
-/
namespace ControlPlane.Guarantees.GuaranteedKnowledge

open Lib Source.Constraints Source.Knowledge

/-! ## Statement -/

/-- A composite provider with the wiki among its sub-providers. The others, the violations
that were recorded and the scoping are arbitrary. -/
structure Deployment where
  externals : Externals
  ln1p : ℚ → ℚ
  wiki : Bm25WikiProvider
  before : List KnowledgeProvider
  after : List KnowledgeProvider
  violationMap : String → Option ℚ
  sourceCache : String → Option Bool
  domainScoping : Bool

namespace Deployment

/-- The wiki's answer, for an order of its domains and an order of its merged nodes. -/
def wikiQuery (d : Deployment) (q : KnowledgeQuery) (w : Walk String)
    (values : Walk (KnowledgeNode × ℚ)) : KnowledgeResult :=
  d.wiki.query d.externals d.ln1p q w values

def composite (d : Deployment) (w : Walk String) (values : Walk (KnowledgeNode × ℚ)) :
    CompositeProvider where
  providers := d.before ++ [d.wiki.provider d.externals d.ln1p w values] ++ d.after
  violationMap := d.violationMap
  sourceCache := d.sourceCache
  domainScoping := d.domainScoping

end Deployment

/-- The nodes that the wiki knows for explicit ids: the leaves with such an id and the topics
with such an entry point. -/
def KnownFor (wiki : Bm25WikiProvider) (ids : List String) (n : KnowledgeNode) : Prop :=
  (n ∈ wiki.leafItems ∧ n.id ∈ ids) ∨ (n ∈ wiki.topicNodes ∧ ∃ ep ∈ n.entryPoints, ep ∈ ids)

/-- On every walk of every hash map. -/
structure KeepsGuaranteed (d : Deployment) (q : KnowledgeQuery) : Prop where
  wikiGlobal : ∀ w values, (d.wikiQuery q w values).globalIncluded = true →
    ∃ g, d.wiki.globalNode = some g ∧ (d.wikiQuery q w values).Has g
  /-- Each sub-provider that reports a global node finds it in the merged answer. -/
  compositeGlobal : ∀ w values merged,
    (((d.composite w values).query q merged).globalIncluded = true →
      ∀ p ∈ (d.composite w values).providers, (p.query q).globalIncluded = true →
        ∀ g, p.globalSummary = some g → ((d.composite w values).query q merged).Has g)
  explicit : ∀ w values merged, ∀ n, KnownFor d.wiki q.explicitIds n →
    ((d.composite w values).query q merged).Has n

/-! ## The condition -/

/-- No node that is the first answered under its id is in scope: the filter by domain then
does nothing. -/
def outOfScope (c : CompositeProvider) (q : KnowledgeQuery) : Bool :=
  (c.answered q).all fun e =>
    !(leader KnowledgeNode.id (c.answered q) e.1.id).any (inScope q.tags)

/-- The filter by domain passes the node. -/
def passes (c : CompositeProvider) (q : KnowledgeQuery) (n : KnowledgeNode) : Bool :=
  !c.domainScoping || q.tags.isEmpty || outOfScope c q || inScope q.tags n

/-- What is answered under the node's id is the node first; it is in scope; and of the other
ids in scope fewer than `top_k` have a penalised score as high. -/
structure HasRoom (c : CompositeProvider) (q : KnowledgeQuery) (n : KnowledgeNode) : Prop where
  first : leader KnowledgeNode.id (c.answered q) n.id = some n
  inScope : passes c q n = true
  room : (rivals KnowledgeNode.id (passes c q) (c.answered q) n).card < q.topK

structure LeavesRoom (d : Deployment) (q : KnowledgeQuery) : Prop where
  /-- At most `top_k` other ids score as high as the global node of the wiki. -/
  wikiGlobal : q.explicitIds = [] → .global ∈ q.depths →
    ∀ g, d.wiki.globalNode = some g → ∀ w,
      (rivals KnowledgeNode.id (fun _ => true)
        (d.wiki.scoredNodes d.externals d.ln1p q w) g).card ≤ q.topK
  compositeGlobal : ∀ w values, ∀ p ∈ (d.composite w values).providers,
    (p.query q).globalIncluded = true → ∀ g, p.globalSummary = some g →
      HasRoom (d.composite w values) q g
  explicit : ∀ w values n, KnownFor d.wiki q.explicitIds n →
    HasRoom (d.composite w values) q n

/-! ## The wiki -/

theorem wikiQuery_globalIncluded (d : Deployment) (q : KnowledgeQuery) (w : Walk String)
    (values : Walk (KnowledgeNode × ℚ)) :
    (d.wikiQuery q w values).globalIncluded = true ↔
      q.explicitIds = [] ∧ .global ∈ q.depths ∧ ∃ g, d.wiki.globalNode = some g := by
  unfold Deployment.wikiQuery Bm25WikiProvider.query
  by_cases hids : q.explicitIds = []
  · simp [hids, Bm25WikiProvider.includesGlobal, Option.isSome_iff_exists]
  · simp [hids]

/-- The global node comes first of what the wiki scores. -/
theorem leader_global {d : Deployment} {q : KnowledgeQuery} {g : KnowledgeNode}
    (requested : .global ∈ q.depths) (hg : d.wiki.globalNode = some g) (w : Walk String) :
    leader KnowledgeNode.id (d.wiki.scoredNodes d.externals d.ln1p q w) g.id = some g := by
  simp [leader, Bm25WikiProvider.scoredNodes, Bm25WikiProvider.retrieved,
    Bm25WikiProvider.globalHits, requested, hg]

theorem wikiGlobal_iff {d : Deployment} {q : KnowledgeQuery} {g : KnowledgeNode}
    (noIds : q.explicitIds = []) (requested : .global ∈ q.depths)
    (hg : d.wiki.globalNode = some g) (w : Walk String) :
    (∀ values, (d.wikiQuery q w values).Has g) ↔
      (rivals KnowledgeNode.id (fun _ => true)
        (d.wiki.scoredNodes d.externals d.ln1p q w) g).card ≤ q.topK := by
  have hnodes : ∀ values, (d.wikiQuery q w values).nodes =
      ((sortDescending Prod.snd (values.run (ranked KnowledgeNode.id
        (d.wiki.scoredNodes d.externals d.ln1p q w)))).filter fun _ => true).take
          (q.topK + 1) := by
    intro values
    simp [Deployment.wikiQuery, Bm25WikiProvider.query, noIds, Bm25WikiProvider.includesGlobal,
      requested, hg]
  have htaken := ranked_taken_iff KnowledgeNode.id (fun _ => true)
    (d.wiki.scoredNodes d.externals d.ln1p q w) g (q.topK + 1)
  simp only [KnowledgeResult.Has, hnodes]
  rw [htaken, Nat.lt_succ_iff]
  exact ⟨fun h => h.2.2, fun h => ⟨leader_global requested hg w, rfl, h⟩⟩

/-! ## The composite -/

theorem isEmpty_filter_inScope {c : CompositeProvider} {q : KnowledgeQuery}
    (values : Walk (KnowledgeNode × ℚ)) :
    ((sortDescending Prod.snd (values.run (ranked KnowledgeNode.id (c.answered q)))).filter
      fun e => inScope q.tags e.1).isEmpty = outOfScope c q := by
  have hperm : (sortDescending Prod.snd
      (values.run (ranked KnowledgeNode.id (c.answered q)))).Perm
        (ranked KnowledgeNode.id (c.answered q)) :=
    (sortDescending_perm _).trans (values.perm _)
  rw [Bool.eq_iff_iff, List.isEmpty_iff, List.filter_eq_nil_iff, outOfScope, List.all_eq_true]
  constructor
  · intro h e _
    cases hleader : leader KnowledgeNode.id (c.answered q) e.1.id with
    | none => rfl
    | some n =>
        obtain ⟨s, hs⟩ := exists_ranked hleader
        simpa using h (n, s) (hperm.mem_iff.mpr hs)
  · intro h ⟨n, s⟩ hn
    obtain ⟨hleader, -⟩ := mem_ranked.mp (hperm.mem_iff.mp hn)
    obtain ⟨e, he, hid⟩ := List.mem_map.mp (name_leader hleader).2
    have hnone := h e he
    rw [hid, hleader] at hnone
    simpa using hnone

/-- The filter by domain, with its fallback, as one filter. -/
theorem rankedNodes_eq (c : CompositeProvider) (q : KnowledgeQuery)
    (values : Walk (KnowledgeNode × ℚ)) :
    c.rankedNodes q values =
      (sortDescending Prod.snd (values.run (ranked KnowledgeNode.id (c.answered q)))).filter
        fun e => passes c q e.1 := by
  have hempty := isEmpty_filter_inScope (c := c) (q := q) values
  simp only [CompositeProvider.rankedNodes, scopeByDomains, hempty, passes]
  cases hscoping : c.domainScoping with
  | false => simp
  | true =>
      cases htags : q.tags.isEmpty with
      | true => simp
      | false =>
          cases hout : outOfScope c q with
          | true => simp
          | false => simp

theorem composite_has_iff (c : CompositeProvider) (q : KnowledgeQuery) (n : KnowledgeNode) :
    (∀ merged, (c.query q merged).Has n) ↔ HasRoom c q n := by
  simp only [KnowledgeResult.Has, CompositeProvider.query, rankedNodes_eq]
  rw [ranked_taken_iff]
  constructor
  · intro ⟨hfirst, hpasses, hroom⟩
    exact ⟨hfirst, hpasses, hroom⟩
  · intro h
    exact ⟨h.first, h.inScope, h.room⟩

/-! ## The guarantee -/

/-- For every wiki, every set of sub-providers, all violations, both settings of the scoping
and every query. -/
theorem keepsGuaranteed_iff (d : Deployment) (q : KnowledgeQuery) :
    KeepsGuaranteed d q ↔ LeavesRoom d q := by
  constructor
  · intro h
    refine ⟨?_, ?_, ?_⟩
    · intro noIds requested g hg w
      rw [← wikiGlobal_iff noIds requested hg w]
      intro values
      have hflag := (wikiQuery_globalIncluded d q w values).mpr ⟨noIds, requested, g, hg⟩
      obtain ⟨g', hg', hhas⟩ := h.wikiGlobal w values hflag
      rw [Option.some.inj (hg.symm.trans hg')]
      exact hhas
    · intro w values p hp hflag g hg
      rw [← composite_has_iff]
      intro merged
      have hany : ((d.composite w values).query q merged).globalIncluded = true :=
        List.any_eq_true.mpr ⟨p, hp, hflag⟩
      exact h.compositeGlobal w values merged hany p hp hflag g hg
    · intro w values n hn
      rw [← composite_has_iff]
      intro merged
      exact h.explicit w values merged n hn
  · intro h
    refine ⟨?_, ?_, ?_⟩
    · intro w values hflag
      obtain ⟨noIds, requested, g, hg⟩ := (wikiQuery_globalIncluded d q w values).mp hflag
      have hroom := h.wikiGlobal noIds requested g hg w
      exact ⟨g, hg, (wikiGlobal_iff noIds requested hg w).mpr hroom values⟩
    · intro w values merged _ p hp hflag g hg
      exact (composite_has_iff _ q g).mpr (h.compositeGlobal w values p hp hflag g hg) merged
    · intro w values merged n hn
      exact (composite_has_iff _ q n).mpr (h.explicit w values n hn) merged

/-! ## More constraints than the query has room for -/

def constraintItem (id : String) : SourceItem where
  id := id
  summary := id ++ ": keep the budget atomic"
  domains := []
  related := []
  crossRefs := []

/-- A corpus without wiki articles. -/
def plainSource : KnowledgeSource where
  allItems := ["C-001", "C-002", "C-003", "C-004", "C-005", "C-006"].map constraintItem
  wikiNodes := []
  globalNode := none

def plainDeployment : Deployment where
  externals := asciiExternals
  ln1p := fun r => r
  wiki := .build .stored plainSource .default
  before := []
  after := []
  violationMap := fun _ => none
  sourceCache := fun _ => none
  domainScoping := false

/-- The query of a thinking loop for a task with six constraints. -/
def sixConstraints : KnowledgeQuery where
  text := "Spend the budget"
  tags := []
  explicitIds := ["C-001", "C-002", "C-003", "C-004", "C-005", "C-006"]
  topK := 5
  depths := [.topic, .leaf]
  mode := .collapsedTree
  expandHops := 1

theorem sixth_leaf_ranked_away : ¬ KeepsGuaranteed plainDeployment sixConstraints := by
  intro h
  have hknown : KnownFor plainDeployment.wiki sixConstraints.explicitIds
      (sourceItemToLeaf (constraintItem "C-006")) := by
    left
    decide +kernel
  obtain ⟨score, hscore⟩ := h.explicit .stored .stored .stored _ hknown
  have hgone : ∀ e ∈ ((plainDeployment.composite .stored .stored).query sixConstraints
      .stored).nodes, e.1.id ≠ "C-006" := by
    decide +kernel
  exact hgone _ hscore rfl

end ControlPlane.Guarantees.GuaranteedKnowledge
