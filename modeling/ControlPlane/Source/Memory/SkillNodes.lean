import ControlPlane.Lib.Runs
import ControlPlane.Lib.Walks
import ControlPlane.Source.Constraints.Eval
import ControlPlane.Source.State.TenantStores
import Mathlib.Data.Finset.Card

/-!
# Skill nodes

Embeds `SkillProvider` (`crates/h2ai-knowledge/src/skill_provider.rs`), `put_skill_nodes` and
`get_skill_nodes` (`crates/h2ai-state/src/nats.rs`), what the end of a task does with the
nodes it extracted (`crates/h2ai-api/src/task_pipeline.rs`) and what `load_tenant_state`
restores (`crates/h2ai-api/src/state.rs`).

A stored node carries the tenant of the task it was extracted from. No operation reads it;
the guarantees speak about it.
-/
namespace ControlPlane.Source.Memory

open Lib Source.Constraints Source.State

inductive NodeDepth where
  | global | topic | leaf
  deriving DecidableEq, Repr

/-- The fields of `KnowledgeNode` that a query reads, and its id. -/
structure KnowledgeNode where
  id : String
  depth : NodeDepth
  synthesis : String
  domains : List String
  importance : ℚ
  deriving DecidableEq, Repr

/-- The fields of `KnowledgeQuery` that `SkillProvider::query` reads. -/
structure KnowledgeQuery where
  text : String
  tags : List String
  depths : List NodeDepth
  deriving DecidableEq, Repr

/-! ## The provider -/

section Query

variable (x : Externals)

/-- `words`: alphanumeric runs of more than two bytes, in lower case. -/
def overlapWords (text : String) : Finset String :=
  (((text.toList.splitOnP fun c => !x.isAlphanumeric c).map String.ofList).filter
    fun w => decide (2 < w.utf8ByteSize)).map x.toLowercase |>.toFinset

/-- `word_overlap_score`. -/
def wordOverlapScore (query text : String) : ℚ :=
  let queryWords := overlapWords x query
  if queryWords = ∅ then 0
  else min (((queryWords ∩ overlapWords x text).card : ℚ) / queryWords.card * (3 / 5)) (3 / 5)

def domainMatch (q : KnowledgeQuery) (n : KnowledgeNode) : Bool :=
  (q.tags.any fun tag => decide (tag ∈ n.domains)) ||
    n.domains.any fun d => Text.containsText q.text.toList d.toList

/-- The score of a node, when the query finds it. -/
def skillScore (q : KnowledgeQuery) (n : KnowledgeNode) : Option ℚ :=
  if n.depth ∈ q.depths then
    if domainMatch q n then
      let raw := min (2 / 5 + wordOverlapScore x q.text n.synthesis) 1 * n.importance
      if raw < 1 / 10 then none else some raw
    else none
  else none

end Query

/-- A node and the tenant of the task it was extracted from. -/
structure Learned where
  tenant : TenantId
  node : KnowledgeNode
  deriving DecidableEq, Repr

def learnedFrom (tenant : TenantId) (nodes : List KnowledgeNode) : List Learned :=
  nodes.map fun node => ⟨tenant, node⟩

/-- `SkillProvider::query`. -/
def skillQuery (x : Externals) (nodes : List Learned) (q : KnowledgeQuery) :
    List (Learned × ℚ) :=
  sortDescending Prod.snd (nodes.filterMap fun n =>
    (skillScore x q n.node).map fun score => (n, score))

/-! ## One process and its bucket -/

structure SkillState where
  /-- `SkillProvider::nodes`. -/
  provider : List Learned
  /-- The bucket `H2AI_SKILLS`. -/
  kv : String → Option (List Learned)

def SkillState.empty : SkillState := ⟨[], fun _ => none⟩

inductive SkillAction where
  /-- `put_skill_nodes` that succeeded. -/
  | put (tenant : TenantId) (nodes : List KnowledgeNode)
  /-- `push_all`. -/
  | push (tenant : TenantId) (nodes : List KnowledgeNode)
  /-- A new process. -/
  | restart
  /-- `load_tenant_state`. -/
  | load (tenant : TenantId)
  /-- A query that is made for a task of the tenant. -/
  | query (tenant : TenantId) (q : KnowledgeQuery)
  deriving DecidableEq

section Steps

variable (x : Externals)

/-- The key of `put_skill_nodes` and `get_skill_nodes`. -/
def skillsKey (tenant : TenantId) : String := tenantKey x.isAlphanumeric tenant "skills"

def skillStep (s : SkillState) : SkillAction → SkillState
  | .put tenant nodes =>
      { s with kv := Function.update s.kv (skillsKey x tenant) (some (learnedFrom tenant nodes)) }
  | .push tenant nodes => { s with provider := s.provider ++ learnedFrom tenant nodes }
  | .restart => { s with provider := [] }
  | .load tenant => { s with provider := s.provider ++ (s.kv (skillsKey x tenant)).getD [] }
  | .query _ _ => s

theorem skillStep_put_kv (s : SkillState) (tenant : TenantId) (nodes : List KnowledgeNode) :
    (skillStep x s (.put tenant nodes)).kv =
      Function.update s.kv (skillsKey x tenant) (some (learnedFrom tenant nodes)) := rfl

theorem skillStep_push_provider (s : SkillState) (tenant : TenantId) (nodes : List KnowledgeNode) :
    (skillStep x s (.push tenant nodes)).provider = s.provider ++ learnedFrom tenant nodes := rfl

theorem skillStep_load_provider (s : SkillState) (tenant : TenantId) :
    (skillStep x s (.load tenant)).provider =
      s.provider ++ (s.kv (skillsKey x tenant)).getD [] := rfl

/-- The answer to a query for a task of the tenant. -/
def skillAnswer (tenant : TenantId) (s : SkillState) : SkillAction → Option (List (Learned × ℚ))
  | .query asking q => if asking = tenant then some (skillQuery x s.provider q) else none
  | _ => none

def skillRun (s : SkillState) (actions : List SkillAction) : SkillState :=
  actions.foldl (skillStep x) s

end Steps

/-- The end of a task, on the path of a completion and on that of exhausted retries. The
nodes are written only with NATS, and a write that fails leaves nothing. -/
def taskEnd (tenant : TenantId) (nodes : List KnowledgeNode) (stored : Bool) : List SkillAction :=
  if nodes.isEmpty then []
  else if stored then [.put tenant nodes, .push tenant nodes]
  else [.push tenant nodes]

@[simp] theorem length_learnedFrom (tenant : TenantId) (nodes : List KnowledgeNode) :
    (learnedFrom tenant nodes).length = nodes.length := List.length_map _

theorem taskEnd_stored (tenant : TenantId) {nodes : List KnowledgeNode} (h : nodes ≠ []) :
    taskEnd tenant nodes true = [.put tenant nodes, .push tenant nodes] := by
  unfold taskEnd
  rw [if_neg (by simpa using h), if_pos rfl]

/-! ## What a query finds -/

variable {x : Externals}

theorem mem_skillQuery {nodes : List Learned} {q : KnowledgeQuery} {found : Learned × ℚ} :
    found ∈ skillQuery x nodes q ↔
      found.1 ∈ nodes ∧ skillScore x q found.1.node = some found.2 := by
  unfold skillQuery
  rw [(sortDescending_perm _).mem_iff, List.mem_filterMap]
  constructor
  · rintro ⟨n, hn, hfound⟩
    obtain ⟨score, hscore, rfl⟩ := Option.map_eq_some_iff.mp hfound
    exact ⟨hn, hscore⟩
  · rintro ⟨hn, hscore⟩
    exact ⟨found.1, hn, by rw [hscore]; rfl⟩

/-- Nodes that the query does not find can be left out. -/
theorem skillQuery_filter {nodes : List Learned} {q : KnowledgeQuery} {keep : Learned → Bool}
    (h : ∀ n ∈ nodes, keep n = false → skillScore x q n.node = none) :
    skillQuery x (nodes.filter keep) q = skillQuery x nodes q := by
  unfold skillQuery
  congr 1
  induction nodes with
  | nil => rfl
  | cons n nodes ih =>
      have hrest := ih fun m hm => h m (List.mem_cons_of_mem n hm)
      by_cases hkeep : keep n = true
      · rw [List.filter_cons_of_pos hkeep, List.filterMap_cons, List.filterMap_cons, hrest]
      · have hnone := h n List.mem_cons_self (by simpa using hkeep)
        rw [List.filter_cons_of_neg hkeep, hrest, List.filterMap_cons, hnone]
        rfl

/-- An answer comes from the tenants whose nodes the query finds. -/
theorem skillQuery_tenants_iff {nodes : List Learned} {q : KnowledgeQuery} {tenant : TenantId} :
    (∀ found ∈ skillQuery x nodes q, found.1.tenant = tenant) ↔
      ∀ n ∈ nodes, n.tenant ≠ tenant → skillScore x q n.node = none := by
  constructor
  · intro h n hn hforeign
    cases hscore : skillScore x q n.node with
    | none => rfl
    | some score => exact absurd (h (n, score) (mem_skillQuery.mpr ⟨hn, hscore⟩)) hforeign
  · intro h found hfound
    obtain ⟨hn, hscore⟩ := mem_skillQuery.mp hfound
    by_contra hforeign
    rw [h found.1 hn hforeign] at hscore
    cases hscore

theorem filter_learnedFrom_other {tenant other : TenantId} (h : other ≠ tenant)
    (nodes : List KnowledgeNode) :
    (learnedFrom other nodes).filter (fun n => decide (n.tenant = tenant)) = [] := by
  rw [List.filter_eq_nil_iff]
  intro n hn
  obtain ⟨node, -, rfl⟩ := List.mem_map.mp hn
  simpa using h

end ControlPlane.Source.Memory
