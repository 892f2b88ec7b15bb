import ControlPlane.Lib.Sequences
import ControlPlane.Source.Memory.SkillNodes

/-!
# Skills and tenants

Skill nodes are written under a key of their tenant, but all of them are pushed into one
provider, and a query is answered from all of it. What keeps the tenants apart is only that
a query of one finds nothing that was stored for another, and that the sanitized names under
which the nodes are restored differ.
-/
namespace ControlPlane.Guarantees.SkillIsolation

open Lib Source Source.Constraints Source.Memory

variable (x : Externals)

/-! ## Statement -/

/-- The answers to the queries for tasks of the tenant, along a run from a fresh process. -/
def answersTo (tenant : TenantId) (run : List SkillAction) : List (List (Learned × ℚ)) :=
  observations (skillStep x) (skillAnswer x tenant) .empty run

/-- All nodes in the answer were extracted from tasks of the tenant. -/
def OnlyFrom (tenant : TenantId) (answer : List (Learned × ℚ)) : Prop :=
  ∀ found ∈ answer, found.1.tenant = tenant

/-- What the tasks of the tenant do: they write, push and query. -/
def ofTask (tenant : TenantId) : SkillAction → Bool
  | .put t _ => decide (t = tenant)
  | .push t _ => decide (t = tenant)
  | .query t _ => decide (t = tenant)
  | .restart | .load _ => false

/-- A query of the tenant finds no node that was stored for another one. -/
def FindsOwn (tenant : TenantId) (s : SkillState) : SkillAction → Prop
  | .query asking q => asking = tenant →
      ∀ n ∈ s.provider, n.tenant ≠ tenant → skillScore x q n.node = none
  | _ => True

/-- No other tenant writes under the key of this one. -/
def WritesApart (tenant : TenantId) : SkillAction → Prop
  | .put writer _ => writer ≠ tenant → skillsKey x writer ≠ skillsKey x tenant
  | _ => True

def Apart (tenant : TenantId) (s : SkillState) (action : SkillAction) : Prop :=
  FindsOwn x tenant s action ∧ WritesApart x tenant action

instance (tenant : TenantId) (s : SkillState) (action : SkillAction) :
    Decidable (FindsOwn x tenant s action) := by
  cases action <;> unfold FindsOwn <;> infer_instance

instance (tenant : TenantId) (action : SkillAction) : Decidable (WritesApart x tenant action) := by
  cases action <;> unfold WritesApart <;> infer_instance

instance (tenant : TenantId) (s : SkillState) (action : SkillAction) :
    Decidable (Apart x tenant s action) := by
  unfold Apart
  infer_instance

variable {x}

/-! ## One run -/

theorem answer_onlyFrom_iff (tenant : TenantId) (s : SkillState) (action : SkillAction) :
    (∀ answer, skillAnswer x tenant s action = some answer → OnlyFrom tenant answer) ↔
      FindsOwn x tenant s action := by
  cases action with
  | query asking q =>
      by_cases hasking : asking = tenant
      · simp only [skillAnswer, FindsOwn, hasking, if_true, Option.some.injEq, forall_eq',
          forall_const]
        exact skillQuery_tenants_iff
      · simp [skillAnswer, FindsOwn, hasking]
  | put _ _ => simp [skillAnswer, FindsOwn]
  | push _ _ => simp [skillAnswer, FindsOwn]
  | restart => simp [skillAnswer, FindsOwn]
  | load _ => simp [skillAnswer, FindsOwn]

/-- The answers to a tenant hold only its own nodes exactly if none of its queries finds
anything else. -/
theorem onlyFrom_iff (tenant : TenantId) (run : List SkillAction) :
    (∀ answer ∈ answersTo x tenant run, OnlyFrom tenant answer) ↔
      StepsMeet (skillStep x) (FindsOwn x tenant) .empty run := by
  unfold answersTo
  rw [observations_all_iff]
  have hagree := answer_onlyFrom_iff (x := x) tenant
  exact ⟨RunMeets.imp fun s action => (hagree s action).mp,
    RunMeets.imp fun s action => (hagree s action).mpr⟩

/-! ## Two runs -/

def ownNodes (tenant : TenantId) (nodes : List Learned) : List Learned :=
  nodes.filter fun n => decide (n.tenant = tenant)

/-- The tenant's nodes are the same, and stand only under its key. -/
structure AlikeFor (x : Externals) (tenant : TenantId) (s t : SkillState) : Prop where
  provider : ownNodes tenant s.provider = ownNodes tenant t.provider
  stored : s.kv (skillsKey x tenant) = t.kv (skillsKey x tenant)
  placedLeft : ∀ key, key ≠ skillsKey x tenant → ownNodes tenant ((s.kv key).getD []) = []
  placedRight : ∀ key, key ≠ skillsKey x tenant → ownNodes tenant ((t.kv key).getD []) = []

theorem ownNodes_append (tenant : TenantId) (nodes more : List Learned) :
    ownNodes tenant (nodes ++ more) = ownNodes tenant nodes ++ ownNodes tenant more :=
  List.filter_append ..

theorem ownNodes_foreign {tenant other : TenantId} (h : other ≠ tenant)
    (nodes : List KnowledgeNode) : ownNodes tenant (learnedFrom other nodes) = [] :=
  filter_learnedFrom_other h nodes

section Put

variable {tenant writer : TenantId} {nodes : List KnowledgeNode}

/-- A write keeps the tenant's nodes where they belong. -/
theorem placed_put {kv : String → Option (List Learned)}
    (placed : ∀ key, key ≠ skillsKey x tenant → ownNodes tenant ((kv key).getD []) = []) :
    ∀ key, key ≠ skillsKey x tenant →
      ownNodes tenant ((Function.update kv (skillsKey x writer)
        (some (learnedFrom writer nodes)) key).getD []) = [] := by
  intro key hkey
  by_cases hwritten : key = skillsKey x writer
  · subst hwritten
    have hforeign : writer ≠ tenant := by
      rintro rfl
      exact hkey rfl
    rw [Function.update_self]
    exact ownNodes_foreign hforeign nodes
  · rw [Function.update_of_ne hwritten]
    exact placed key hkey

end Put

section Alike

variable {a b : TenantId} {s t : SkillState}

theorem AlikeFor.symm (h : AlikeFor x b s t) : AlikeFor x b t s :=
  ⟨h.provider.symm, h.stored.symm, h.placedRight, h.placedLeft⟩

/-- A task of another tenant is not noticed. -/
theorem AlikeFor.secret (hab : a ≠ b) (h : AlikeFor x b s t) {action : SkillAction}
    (hsecret : ofTask a action = true) (happart : Apart x b s action) :
    AlikeFor x b (skillStep x s action) t := by
  cases action with
  | put writer nodes =>
      obtain rfl : writer = a := of_decide_eq_true hsecret
      refine ⟨h.provider, ?_, placed_put h.placedLeft, h.placedRight⟩
      rw [skillStep_put_kv, Function.update_of_ne (happart.2 hab).symm]
      exact h.stored
  | push writer nodes =>
      obtain rfl : writer = a := of_decide_eq_true hsecret
      refine ⟨?_, h.stored, h.placedLeft, h.placedRight⟩
      rw [skillStep_push_provider, ownNodes_append, ownNodes_foreign hab, List.append_nil]
      exact h.provider
  | query asking q => exact h
  | restart => cases hsecret
  | load tenant => cases hsecret

/-- What everybody else does changes both states alike. -/
theorem AlikeFor.step (h : AlikeFor x b s t) (action : SkillAction) :
    AlikeFor x b (skillStep x s action) (skillStep x t action) := by
  cases action with
  | put writer nodes =>
      refine ⟨h.provider, ?_, placed_put h.placedLeft, placed_put h.placedRight⟩
      rw [skillStep_put_kv, skillStep_put_kv]
      by_cases hkey : skillsKey x b = skillsKey x writer
      · rw [hkey, Function.update_self, Function.update_self]
      · rw [Function.update_of_ne hkey, Function.update_of_ne hkey]
        exact h.stored
  | push writer nodes =>
      refine ⟨?_, h.stored, h.placedLeft, h.placedRight⟩
      rw [skillStep_push_provider, skillStep_push_provider, ownNodes_append, ownNodes_append,
        h.provider]
  | restart => exact ⟨rfl, h.stored, h.placedLeft, h.placedRight⟩
  | load tenant =>
      refine ⟨?_, h.stored, h.placedLeft, h.placedRight⟩
      rw [skillStep_load_provider, skillStep_load_provider, ownNodes_append, ownNodes_append,
        h.provider]
      by_cases hkey : skillsKey x tenant = skillsKey x b
      · rw [hkey, h.stored]
      · rw [h.placedLeft _ hkey, h.placedRight _ hkey]
  | query asking q => exact h

/-- A query that finds only the tenant's nodes is answered from them. -/
theorem skillQuery_ownNodes {q : KnowledgeQuery}
    (h : ∀ n ∈ s.provider, n.tenant ≠ b → skillScore x q n.node = none) :
    skillQuery x (ownNodes b s.provider) q = skillQuery x s.provider q :=
  skillQuery_filter fun n hn hforeign => h n hn (by simpa using hforeign)

theorem AlikeFor.seen (h : AlikeFor x b s t) {action : SkillAction}
    (hs : Apart x b s action) (ht : Apart x b t action) :
    skillAnswer x b s action = skillAnswer x b t action := by
  cases action with
  | query asking q =>
      unfold skillAnswer
      dsimp only
      split_ifs with hasking
      · rw [← skillQuery_ownNodes (hs.1 hasking), ← skillQuery_ownNodes (ht.1 hasking), h.provider]
      · rfl
  | put _ _ => rfl
  | push _ _ => rfl
  | restart => rfl
  | load _ => rfl

end Alike

theorem unwinds {a b : TenantId} (hab : a ≠ b) :
    Unwinds (skillStep x) (skillAnswer x b) (ofTask a) (Apart x b) (AlikeFor x b) where
  symm h := h.symm
  silent := by
    intro s action hsecret
    cases action with
    | query asking q =>
        have hasking : asking = a := of_decide_eq_true hsecret
        exact if_neg (hasking ▸ hab)
    | put _ _ => rfl
    | push _ _ => rfl
    | restart => rfl
    | load _ => rfl
  secretStep h hsecret happart := h.secret hab hsecret happart
  openStep h _ _ _ := h.step _
  seen h _ hs ht := h.seen hs ht

theorem alikeFor_empty (tenant : TenantId) : AlikeFor x tenant .empty .empty :=
  ⟨rfl, rfl, fun _ _ => rfl, fun _ _ => rfl⟩

def acme : TenantId := ⟨"acme"⟩
def globex : TenantId := ⟨"globex"⟩

/-- The topic node of a task that failed in a domain. -/
def topicNode (id domain synthesis : String) : KnowledgeNode :=
  ⟨id, .topic, synthesis, [domain], 3 / 5⟩

def acmeNode : KnowledgeNode :=
  topicNode "skill:1:auth:topic" "auth" "Domain 'auth': rotate the acme signing key"

def globexNode : KnowledgeNode :=
  topicNode "skill:2:billing:topic" "billing" "Domain 'billing': round the totals"

def taggedQuery (tag : String) : KnowledgeQuery := ⟨"design the service", [tag], [.topic, .leaf]⟩

/-- Each tenant finishes a task and asks about it behind a restart. -/
def separateRun (acmeNodes : List KnowledgeNode) : List SkillAction :=
  taskEnd acme acmeNodes true ++ taskEnd globex [globexNode] true ++
    [.restart, .load acme, .load globex, .query globex (taggedQuery "billing")]

end ControlPlane.Guarantees.SkillIsolation

/-!
# Skills behind a restart

The provider of a process collects the nodes of all tasks, while a write replaces what the
task before it wrote. A restart restores what was written last, so nothing is lost exactly
as long as a single task has learned anything.
-/
namespace ControlPlane.Guarantees.SkillRestart

open Lib Source Source.Constraints Source.Memory

/-! ## Statement -/

/-- Tasks of a tenant end in any order, at once or one after the other; every write succeeds. -/
def EndsOf (tenant : TenantId) (tasks : List (List KnowledgeNode)) (run : List SkillAction) : Prop :=
  Interleaves (tasks.map fun nodes => taskEnd tenant nodes true) run

/-- What the tasks pushed into the provider of the process. -/
def pushedNodes (x : Externals) (run : List SkillAction) : List Learned :=
  (skillRun x .empty run).provider

/-- What `load_tenant_state` restores in the next process. -/
def restoredNodes (x : Externals) (tenant : TenantId) (run : List SkillAction) : List Learned :=
  (skillRun x (skillRun x .empty run) [.restart, .load tenant]).provider

/-- At most one task extracted nodes. -/
def OneLearns (tasks : List (List KnowledgeNode)) : Prop :=
  (tasks.filter fun nodes => !nodes.isEmpty).length ≤ 1

/-! ## What a run leaves -/

/-- The nodes that an action pushes. -/
def pushes : SkillAction → List KnowledgeNode
  | .push _ nodes => nodes
  | _ => []

/-- Every action is the write or the push of a task that extracted nodes. -/
def FromTasks (tenant : TenantId) (tasks : List (List KnowledgeNode)) (run : List SkillAction) :
    Prop :=
  ∀ action ∈ run, ∃ nodes ∈ tasks, nodes ≠ [] ∧
    (action = .put tenant nodes ∨ action = .push tenant nodes)

/-- What stands under the tenant's key is what a task wrote. -/
def StoredBy (x : Externals) (tenant : TenantId) (tasks : List (List KnowledgeNode))
    (s : SkillState) : Prop :=
  ∀ stored, s.kv (skillsKey x tenant) = some stored →
    ∃ nodes ∈ tasks, nodes ≠ [] ∧ stored = learnedFrom tenant nodes

section Run

variable {x : Externals} {tenant : TenantId} {tasks : List (List KnowledgeNode)}
  {run : List SkillAction}

theorem mem_taskEnd {action : SkillAction} {nodes : List KnowledgeNode}
    (h : action ∈ taskEnd tenant nodes true) :
    nodes ≠ [] ∧ (action = .put tenant nodes ∨ action = .push tenant nodes) := by
  by_cases hempty : nodes = []
  · subst hempty
    cases h
  · rw [taskEnd_stored tenant hempty] at h
    exact ⟨hempty, by simpa using h⟩

theorem fromTasks_of_ends (h : EndsOf tenant tasks run) : FromTasks tenant tasks run := by
  intro action haction
  obtain ⟨program, hprogram, hmem⟩ := List.mem_flatten.mp (h.perm.mem_iff.mp haction)
  obtain ⟨nodes, hnodes, rfl⟩ := List.mem_map.mp hprogram
  exact ⟨nodes, hnodes, mem_taskEnd hmem⟩

theorem flatMap_pushes_taskEnd (tenant : TenantId) (nodes : List KnowledgeNode) :
    (taskEnd tenant nodes true).flatMap pushes = nodes := by
  by_cases hempty : nodes = []
  · subst hempty
    rfl
  · simp [taskEnd_stored tenant hempty, pushes]

/-- The pushes of a run, whatever its order, are the nodes of all tasks. -/
theorem pushes_perm (h : EndsOf tenant tasks run) : (run.flatMap pushes).Perm tasks.flatten := by
  have hends : ((tasks.map fun nodes => taskEnd tenant nodes true).flatten).flatMap pushes =
      tasks.flatten := by
    clear h
    induction tasks with
    | nil => rfl
    | cons nodes tasks ih =>
        rw [List.map_cons, List.flatten_cons, List.flatMap_append, ih, flatMap_pushes_taskEnd,
          List.flatten_cons]
  rw [← hends]
  exact h.perm.flatMap_right pushes

theorem provider_run (hrun : FromTasks tenant tasks run) (s : SkillState) :
    (skillRun x s run).provider = s.provider ++ learnedFrom tenant (run.flatMap pushes) := by
  induction run generalizing s with
  | nil => simp [skillRun, learnedFrom]
  | cons action run ih =>
      have htail : FromTasks tenant tasks run := fun a ha => hrun a (List.mem_cons_of_mem action ha)
      obtain ⟨nodes, -, -, rfl | rfl⟩ := hrun action List.mem_cons_self
      · exact ih htail _
      · have hstep := ih htail (skillStep x s (.push tenant nodes))
        rw [List.flatMap_cons]
        show (skillRun x _ run).provider = _
        rw [hstep]
        simp [skillStep, learnedFrom, pushes]

/-- A write replaces what stands under the key, and a push leaves it. -/
theorem stored_run (hrun : FromTasks tenant tasks run) {s : SkillState}
    (before : StoredBy x tenant tasks s) :
    StoredBy x tenant tasks (skillRun x s run) ∧
      ((s.kv (skillsKey x tenant)).isSome = true ∨ (∃ nodes, .put tenant nodes ∈ run) →
        ((skillRun x s run).kv (skillsKey x tenant)).isSome = true) := by
  induction run generalizing s with
  | nil => exact ⟨before, fun h => h.elim id fun ⟨_, hmem⟩ => by cases hmem⟩
  | cons action run ih =>
      have htail : FromTasks tenant tasks run := fun a ha => hrun a (List.mem_cons_of_mem action ha)
      obtain ⟨nodes, hmem, hne, rfl | rfl⟩ := hrun action List.mem_cons_self
      · have hwritten : (skillStep x s (.put tenant nodes)).kv (skillsKey x tenant) =
            some (learnedFrom tenant nodes) := Function.update_self ..
        have hstored : StoredBy x tenant tasks (skillStep x s (.put tenant nodes)) := by
          intro stored hstored
          rw [hwritten] at hstored
          exact ⟨nodes, hmem, hne, (Option.some.inj hstored).symm⟩
        obtain ⟨hafter, hsome⟩ := ih htail hstored
        exact ⟨hafter, fun _ => hsome (Or.inl (by rw [hwritten]; rfl))⟩
      · obtain ⟨hafter, hsome⟩ := ih htail (s := skillStep x s (.push tenant nodes)) before
        refine ⟨hafter, fun h => hsome (h.imp id ?_)⟩
        rintro ⟨written, hput⟩
        exact ⟨written, (List.mem_cons.mp hput).resolve_left SkillAction.noConfusion⟩

theorem restoredNodes_eq (run : List SkillAction) :
    restoredNodes x tenant run =
      ((skillRun x .empty run).kv (skillsKey x tenant)).getD [] := rfl

/-- Behind the tasks the bucket holds what one of them extracted. -/
theorem restored_of_learned (h : EndsOf tenant tasks run) {nodes : List KnowledgeNode}
    (hmem : nodes ∈ tasks) (hne : nodes ≠ []) :
    ∃ last ∈ tasks, last ≠ [] ∧ restoredNodes x tenant run = learnedFrom tenant last := by
  have hput : SkillAction.put tenant nodes ∈ run := by
    refine h.perm.mem_iff.mpr (List.mem_flatten.mpr ⟨_, List.mem_map_of_mem hmem, ?_⟩)
    rw [taskEnd_stored tenant hne]
    exact List.mem_cons_self
  obtain ⟨hstored, hsome⟩ := stored_run (x := x) (fromTasks_of_ends h) (s := .empty)
    (fun _ hnone => by cases hnone)
  obtain ⟨stored, hkv⟩ := Option.isSome_iff_exists.mp (hsome (Or.inr ⟨nodes, hput⟩))
  obtain ⟨last, hlast, hlastNe, rfl⟩ := hstored stored hkv
  exact ⟨last, hlast, hlastNe, by rw [restoredNodes_eq, hkv]; rfl⟩

/-- The provider holds the nodes of all tasks. -/
theorem pushedNodes_perm (h : EndsOf tenant tasks run) :
    (pushedNodes x run).Perm (learnedFrom tenant tasks.flatten) := by
  unfold pushedNodes
  rw [provider_run (fromTasks_of_ends h)]
  exact (pushes_perm h).map _

theorem run_eq_nil (h : EndsOf tenant tasks run) (hnone : ∀ nodes ∈ tasks, nodes = []) :
    run = [] := by
  apply List.eq_nil_iff_forall_not_mem.mpr
  intro action haction
  obtain ⟨nodes, hnodes, hne, -⟩ := fromTasks_of_ends h action haction
  exact hne (hnone nodes hnodes)

end Run

/-! ## All the nodes in one task -/

section Learners

variable {tenant : TenantId} {tasks : List (List KnowledgeNode)} {last : List KnowledgeNode}

theorem oneLearns_of_none (hnone : ∀ nodes ∈ tasks, nodes = []) : OneLearns tasks := by
  have hfilter : tasks.filter (fun nodes => !nodes.isEmpty) = [] := by
    rw [List.filter_eq_nil_iff]
    intro nodes hnodes
    simp [hnone nodes hnodes]
  simp [OneLearns, hfilter]

theorem oneLearns_iff_length (hlast : last ∈ tasks) (hne : last ≠ []) :
    OneLearns tasks ↔ tasks.flatten.length = last.length := by
  have hin : last ∈ tasks.filter (fun nodes => !nodes.isEmpty) :=
    List.mem_filter.mpr ⟨hlast, by simpa using hne⟩
  have hlearning : ∀ nodes ∈ tasks.filter (fun nodes => !nodes.isEmpty), nodes ≠ [] := by
    intro nodes hnodes
    simpa using (List.mem_filter.mp hnodes).2
  rw [OneLearns, ← length_flatten_eq_iff hin hlearning, List.flatten_filter_not_isEmpty]

theorem flatten_of_oneLearns (hlast : last ∈ tasks) (hne : last ≠ []) (hone : OneLearns tasks) :
    tasks.flatten = last := by
  have hin : last ∈ tasks.filter (fun nodes => !nodes.isEmpty) :=
    List.mem_filter.mpr ⟨hlast, by simpa using hne⟩
  have hflatten : (tasks.filter fun nodes => !nodes.isEmpty).flatten = tasks.flatten :=
    List.flatten_filter_not_isEmpty
  have hlength : (tasks.filter fun nodes => !nodes.isEmpty).length = 1 :=
    Nat.le_antisymm hone (List.length_pos_of_mem hin)
  obtain ⟨only, honly⟩ := List.length_eq_one_iff.mp hlength
  rw [honly] at hin hflatten
  rw [← hflatten, List.flatten_singleton, List.mem_singleton.mp hin]

/-- The nodes of one task are those of all tasks exactly if no other task learned. -/
theorem learnedFrom_perm_iff (hlast : last ∈ tasks) (hne : last ≠ []) :
    (learnedFrom tenant last).Perm (learnedFrom tenant tasks.flatten) ↔ OneLearns tasks := by
  constructor
  · intro hperm
    have hlength := hperm.length_eq
    rw [length_learnedFrom, length_learnedFrom] at hlength
    exact (oneLearns_iff_length hlast hne).mpr hlength.symm
  · intro hone
    rw [flatten_of_oneLearns hlast hne hone]

end Learners

/-! ## The guarantee -/

/-- A restart restores exactly what the tasks pushed if and only if at most one of them
extracted nodes. -/
theorem restored_perm_iff (x : Externals) (tenant : TenantId) (tasks : List (List KnowledgeNode))
    (run : List SkillAction) (ends : EndsOf tenant tasks run) :
    (restoredNodes x tenant run).Perm (pushedNodes x run) ↔ OneLearns tasks := by
  by_cases hnone : ∀ nodes ∈ tasks, nodes = []
  · have hrun : run = [] := run_eq_nil ends hnone
    subst hrun
    exact ⟨fun _ => oneLearns_of_none hnone, fun _ => List.Perm.refl []⟩
  · push Not at hnone
    obtain ⟨nodes, hmem, hne⟩ := hnone
    obtain ⟨last, hlast, hlastNe, hrestored⟩ := restored_of_learned (x := x) ends hmem hne
    have hpushed : (pushedNodes x run).Perm (learnedFrom tenant tasks.flatten) :=
      pushedNodes_perm ends
    rw [hrestored, ← learnedFrom_perm_iff hlast hlastNe]
    exact ⟨fun hperm => hperm.trans hpushed, fun hperm => hperm.trans hpushed.symm⟩

/-! ## One task that learns, and two -/

def authNode : KnowledgeNode :=
  ⟨"skill:1:auth:topic", .topic, "Domain 'auth': rotate the key", ["auth"], 3 / 5⟩

def billingNode : KnowledgeNode :=
  ⟨"skill:2:billing:topic", .topic, "Domain 'billing': round the totals", ["billing"], 3 / 5⟩

/-- The tasks of a tenant, one after the other. -/
def endsInTurn (tasks : List (List KnowledgeNode)) : List SkillAction :=
  (tasks.map fun nodes => taskEnd .defaultTenant nodes true).flatten

theorem one_learner_restored :
    (restoredNodes asciiExternals .defaultTenant (endsInTurn [[], [authNode], []])).Perm
      (pushedNodes asciiExternals (endsInTurn [[], [authNode], []])) :=
  (restored_perm_iff asciiExternals .defaultTenant [[], [authNode], []] _
    (.sequential _)).mpr (by unfold OneLearns; decide)

/-- Behind two tasks that learned, a restart restores the nodes of the second. -/
theorem two_learners_lose_one :
    ¬ (∀ tasks run, EndsOf .defaultTenant tasks run →
        (restoredNodes asciiExternals .defaultTenant run).Perm
          (pushedNodes asciiExternals run)) ∧
      (restoredNodes asciiExternals .defaultTenant (endsInTurn [[authNode], [billingNode]])).map
        (·.node) = [billingNode] ∧
      (pushedNodes asciiExternals (endsInTurn [[authNode], [billingNode]])).map (·.node) =
        [authNode, billingNode] := by
  refine ⟨?_, by decide +kernel, by decide +kernel⟩
  intro h
  have hperm := h [[authNode], [billingNode]] (endsInTurn [[authNode], [billingNode]])
    (.sequential _)
  exact absurd hperm.length_eq (by decide +kernel)

end ControlPlane.Guarantees.SkillRestart
