import ControlPlane.Lib.Ranking
import ControlPlane.Source.Knowledge.Types
import Mathlib.Algebra.Order.Ring.Rat
import Mathlib.Logic.Function.Basic
import Mathlib.Tactic.Linarith

/-!
# The composite provider

Embeds `CompositeProvider` and `scope_by_domains`
(`crates/h2ai-knowledge/src/skill_provider.rs`).
-/
namespace ControlPlane.Source.Knowledge

open Lib

def inScope (tags : List String) (n : KnowledgeNode) : Bool :=
  n.domains.isEmpty || n.domains.any fun d => decide (d ∈ tags)

/-- `scope_by_domains`. -/
def scopeByDomains (nodes : List (KnowledgeNode × ℚ)) (tags : List String) :
    List (KnowledgeNode × ℚ) :=
  if tags.isEmpty then nodes
  else
    let filtered := nodes.filter fun e => inScope tags e.1
    if filtered.isEmpty then nodes else filtered

structure CompositeProvider where
  providers : List KnowledgeProvider
  /-- The accumulated penalties. -/
  violationMap : String → Option ℚ
  /-- Whether a node that was answered is synthetic. -/
  sourceCache : String → Option Bool
  domainScoping : Bool

namespace CompositeProvider

def new (providers : List KnowledgeProvider) (domainScoping : Bool) : CompositeProvider where
  providers := providers
  violationMap := fun _ => none
  sourceCache := fun _ => none
  domainScoping := domainScoping

/-- One node of `record_violations`: synthetic nodes are exempt. -/
def recordViolation (c : CompositeProvider) (delta : ℚ) (nodeId : String) : CompositeProvider :=
  if (c.sourceCache nodeId).getD false then c
  else
    let penalty := min ((c.violationMap nodeId).getD 0 + delta) (9 / 10)
    { c with violationMap := Function.update c.violationMap nodeId (some penalty) }

def recordViolations (c : CompositeProvider) (nodeIds : List String) (delta : ℚ) :
    CompositeProvider :=
  nodeIds.foldl (fun c id => c.recordViolation delta id) c

def penalisedScore (c : CompositeProvider) (nodeId : String) (score : ℚ) : ℚ :=
  score * (1 - (c.violationMap nodeId).getD 0)

/-- The nodes of all answers, in the order of the providers, with their penalised scores. -/
def answered (c : CompositeProvider) (q : KnowledgeQuery) : List (KnowledgeNode × ℚ) :=
  c.providers.flatMap fun p =>
    (p.query q).nodes.map fun (node, score) => (node, c.penalisedScore node.id score)

/-- The nodes of an answer, before it is cut. -/
def rankedNodes (c : CompositeProvider) (q : KnowledgeQuery)
    (values : Walk (KnowledgeNode × ℚ)) : List (KnowledgeNode × ℚ) :=
  let nodes := sortDescending Prod.snd (values.run (ranked KnowledgeNode.id (c.answered q)))
  if c.domainScoping then scopeByDomains nodes q.tags else nodes

def query (c : CompositeProvider) (q : KnowledgeQuery) (values : Walk (KnowledgeNode × ℚ)) :
    KnowledgeResult where
  nodes := (c.rankedNodes q values).take q.topK
  globalIncluded := c.providers.any fun p => (p.query q).globalIncluded
  surfacedTensions := c.providers.flatMap fun p => (p.query q).surfacedTensions
  pprExpanded := c.providers.any fun p => (p.query q).pprExpanded

/-- A node that is answered for the first time is noted in the cache. -/
def noteSource (c : CompositeProvider) (node : KnowledgeNode) : CompositeProvider :=
  if (c.sourceCache node.id).isSome then c
  else
    let synthetic := decide (node.source = .synthetic)
    { c with sourceCache := Function.update c.sourceCache node.id (some synthetic) }

/-- The provider after a query. -/
def afterQuery (c : CompositeProvider) (q : KnowledgeQuery)
    (values : Walk (KnowledgeNode × ℚ)) : CompositeProvider :=
  (c.query q values).nodes.foldl (fun c e => c.noteSource e.1) c

/-! ## Histories -/

inductive Action where
  | query (q : KnowledgeQuery) (values : Walk (KnowledgeNode × ℚ))
  | recordViolations (nodeIds : List String) (delta : ℚ)

def step (c : CompositeProvider) : Action → CompositeProvider
  | .query q values => c.afterQuery q values
  | .recordViolations nodeIds delta => c.recordViolations nodeIds delta

def run (c : CompositeProvider) (actions : List Action) : CompositeProvider :=
  actions.foldl step c

/-- No violation lowers a penalty. -/
def Action.Penalises : Action → Prop
  | .query _ _ => True
  | .recordViolations _ delta => 0 ≤ delta

/-- The documented range of the penalties. -/
def PenaltiesBounded (c : CompositeProvider) : Prop :=
  ∀ id, 0 ≤ (c.violationMap id).getD 0 ∧ (c.violationMap id).getD 0 ≤ 9 / 10

theorem PenaltiesBounded.recordViolation {c : CompositeProvider} (h : c.PenaltiesBounded)
    {delta : ℚ} (hdelta : 0 ≤ delta) (nodeId : String) :
    (c.recordViolation delta nodeId).PenaltiesBounded := by
  unfold CompositeProvider.recordViolation
  split
  · exact h
  · intro id
    by_cases hid : id = nodeId
    · subst hid
      have hnonneg : 0 ≤ (c.violationMap id).getD 0 + delta := add_nonneg (h id).1 hdelta
      have hmin : (0 : ℚ) ≤ min ((c.violationMap id).getD 0 + delta) (9 / 10) :=
        le_min hnonneg (by norm_num)
      simpa using hmin
    · simpa [hid] using h id

theorem PenaltiesBounded.recordViolations {c : CompositeProvider} (h : c.PenaltiesBounded)
    {delta : ℚ} (hdelta : 0 ≤ delta) (nodeIds : List String) :
    (c.recordViolations nodeIds delta).PenaltiesBounded := by
  unfold CompositeProvider.recordViolations
  induction nodeIds generalizing c with
  | nil => exact h
  | cons id rest ih => exact ih (h.recordViolation hdelta id)

theorem violationMap_noteSource (c : CompositeProvider) (node : KnowledgeNode) :
    (c.noteSource node).violationMap = c.violationMap := by
  unfold noteSource
  split <;> rfl

theorem violationMap_afterQuery (c : CompositeProvider) (q : KnowledgeQuery)
    (values : Walk (KnowledgeNode × ℚ)) : (c.afterQuery q values).violationMap = c.violationMap := by
  unfold afterQuery
  induction (c.query q values).nodes generalizing c with
  | nil => rfl
  | cons e rest ih => rw [List.foldl_cons, ih, violationMap_noteSource]

theorem PenaltiesBounded.step {c : CompositeProvider} (h : c.PenaltiesBounded) {action : Action}
    (penalises : action.Penalises) : (c.step action).PenaltiesBounded := by
  cases action with
  | query q values =>
      unfold CompositeProvider.step PenaltiesBounded
      rw [violationMap_afterQuery]
      exact h
  | recordViolations nodeIds delta => exact h.recordViolations penalises nodeIds

/-- Penalties stay in their range over every history. -/
theorem PenaltiesBounded.run {c : CompositeProvider} (h : c.PenaltiesBounded)
    {actions : List Action} (penalise : ∀ action ∈ actions, action.Penalises) :
    (c.run actions).PenaltiesBounded := by
  induction actions generalizing c with
  | nil => exact h
  | cons action rest ih =>
      apply ih (h.step (penalise action List.mem_cons_self))
      exact fun a ha => penalise a (List.mem_cons_of_mem action ha)

theorem penaltiesBounded_new (providers : List KnowledgeProvider) (domainScoping : Bool) :
    (new providers domainScoping).PenaltiesBounded := by
  intro id
  simp only [new, Option.getD_none]
  norm_num

/-- A penalty leaves a tenth of a score at least. -/
theorem penalisedScore_bounds {c : CompositeProvider} (h : c.PenaltiesBounded) (nodeId : String)
    {score : ℚ} (hscore : 0 ≤ score) :
    score / 10 ≤ c.penalisedScore nodeId score ∧ c.penalisedScore nodeId score ≤ score := by
  obtain ⟨hlow, hhigh⟩ := h nodeId
  unfold penalisedScore
  constructor
  · nlinarith
  · nlinarith

/-- Over every history of queries and violations, no score is penalised away. -/
theorem run_penalisedScore (providers : List KnowledgeProvider) (domainScoping : Bool)
    {actions : List Action} (penalise : ∀ action ∈ actions, action.Penalises) (nodeId : String)
    {score : ℚ} (hscore : 0 ≤ score) :
    score / 10 ≤ ((new providers domainScoping).run actions).penalisedScore nodeId score ∧
      ((new providers domainScoping).run actions).penalisedScore nodeId score ≤ score :=
  penalisedScore_bounds ((penaltiesBounded_new providers domainScoping).run penalise) nodeId hscore

end CompositeProvider

end ControlPlane.Source.Knowledge
