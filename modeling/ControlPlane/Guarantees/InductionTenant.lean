import ControlPlane.Source.Engine.Induction
import ControlPlane.Source.Engine.ReasoningMemory
import ControlPlane.Source.Memory.InductionStore
import ControlPlane.Source.State.TenantStores

/-!
# Induction memory under one tenant

Hints should be looked up and recorded under the tenant of the task. Both places that
record a success do so; the retroactive lookup puts the task id where the tenant
belongs. So a run keeps to its tenant exactly when no wave of it looks up, or its task
is named like its tenant.
-/
namespace ControlPlane.Guarantees.InductionTenant

open Source Source.Memory Source.MapeK Source.Engine

/-- The store behind a call. -/
def callEffect (tables : CaseTables) (walkTags : List String → List String)
    (store : PatternBuckets) : InductionCall → PatternBuckets
  | .runRetroactive ctx => (runRetroactive tables walkTags store ctx).2
  | .recordSuccess hintTexts ctx => recordSuccess tables store ctx hintTexts

/-- Every call of the run is made for the tenant of its task. -/
def KeepsTenant (run : InductionRun) : Prop :=
  ∀ call, run.Calls call → call.context.tenantId = run.setup.tenantId.name

/-- What a successful run counts, later lookups of its tenant find and lookups of no
other tenant see. -/
structure OneMemory (tables : CaseTables) (walkTags : List String → List String)
    (run later : InductionRun) : Prop where
  writes : KeepsTenant run
  reads : KeepsTenant later
  found : run.setup.tenantId = later.setup.tenantId → ∀ hintTexts counted look,
    run.Calls (.recordSuccess hintTexts counted) → later.Calls (.runRetroactive look) →
    ∀ tag ∈ counted.taskClassTags, ∀ tag' ∈ look.taskClassTags,
      normalizeTag tables tag = normalizeTag tables tag' →
    ∀ store, ∀ p ∈ loadBucket store (tagKey tables counted.tenantId tag), tag' ∈ p.triggerTags →
      p ∈ sadRetrieve tables walkTags store look
  apart : run.setup.tenantId ≠ later.setup.tenantId → ∀ call look,
    run.Calls call → later.Calls (.runRetroactive look) → ∀ store,
      (runRetroactive tables walkTags (callEffect tables walkTags store call) look).1 =
        (runRetroactive tables walkTags store look).1

theorem callEffect_other {tables : CaseTables} {walkTags : List String → List String}
    {call : InductionCall} {tenantId : String} (other : call.context.tenantId ≠ tenantId)
    (store : PatternBuckets) (tag : String) :
    callEffect tables walkTags store call (tagKey tables tenantId tag) =
      store (tagKey tables tenantId tag) := by
  cases call with
  | runRetroactive ctx => exact runRetroactive_other other walkTags store tag
  | recordSuccess hintTexts ctx => exact recordSuccess_other other store hintTexts tag

/-- Runs that keep to their tenants have one memory for each tenant. -/
theorem oneMemory_of_keepsTenant (tables : CaseTables) (walkTags : List String → List String)
    {run later : InductionRun} (writes : KeepsTenant run) (reads : KeepsTenant later) :
    OneMemory tables walkTags run later := by
  refine ⟨writes, reads, ?_, ?_⟩
  · intro same hintTexts counted look hcount hlook tag _ tag' htag' hnormal store p hp htriggered
    have hcounted : counted.tenantId = look.tenantId := by
      calc counted.tenantId = run.setup.tenantId.name := writes _ hcount
        _ = later.setup.tenantId.name := congrArg TenantId.name same
        _ = look.tenantId := (reads _ hlook).symm
    exact mem_sadRetrieve walkTags (hcounted ▸ hp) htag' hnormal htriggered
  · intro differ call look hcall hlook store
    have hother : call.context.tenantId ≠ look.tenantId := by
      intro heq
      refine differ (TenantId.mk.injEq _ _ |>.mpr ?_)
      calc run.setup.tenantId.name = call.context.tenantId := (writes _ hcall).symm
        _ = look.tenantId := heq
        _ = later.setup.tenantId.name := reads _ hlook
    exact runRetroactive_congr (callEffect_other hother store)

/-- No wave of the run looks up, or the task is named like its tenant. -/
def TenantQuiet (run : InductionRun) : Prop :=
  run.input.init.taskId = run.setup.tenantId.name ∨
    ∀ restart retryCount cs, WaveStart run.input run.world restart retryCount cs →
      ¬ run.Triggers restart retryCount cs

theorem keepsTenant_iff (run : InductionRun) : KeepsTenant run ↔ TenantQuiet run := by
  constructor
  · intro keeps
    by_cases hname : run.input.init.taskId = run.setup.tenantId.name
    · exact Or.inl hname
    · refine Or.inr ?_
      intro restart retryCount cs start triggers
      have hcall := InductionRun.Calls.lookup start triggers.decided triggers.lookup
      have htask := InductionRun.lookup_tenantId start triggers.decided triggers.lookup
      exact hname (htask.symm.trans (keeps _ hcall))
  · intro quiet call hcall
    cases hcall with
    | returned start within wave decided returns scheduler applied => rfl
    | synthesized start point delivers scheduler applied => rfl
    | lookup start decided spawned =>
        rcases quiet with hname | hnone
        · exact (InductionRun.lookup_tenantId start decided spawned).trans hname
        · exact absurd (InductionRun.triggers_of_lookup decided spawned) (hnone _ _ _ start)

/-- For every pair of runs, every normalization and every order of the tags: they share
induction memory by tenant exactly when each of them makes no lookup, or has a task
named like its tenant. -/
theorem induction_keeps_tenant_iff (tables : CaseTables) (walkTags : List String → List String)
    (run later : InductionRun) :
    OneMemory tables walkTags run later ↔ TenantQuiet run ∧ TenantQuiet later := by
  constructor
  · intro memory
    exact ⟨(keepsTenant_iff run).mp memory.writes, (keepsTenant_iff later).mp memory.reads⟩
  · rintro ⟨hrun, hlater⟩
    exact oneMemory_of_keepsTenant tables walkTags ((keepsTenant_iff run).mpr hrun)
      ((keepsTenant_iff later).mpr hlater)

/-! ## A hint of the default tenant -/

section Example

def hintedTask : String := "0f8fad5b-d9cb-469f-a165-70867728950e"

def hintedInput : EngineInput :=
  { plainInput with
    taskId := hintedTask
    init := { plainInit with taskId := hintedTask } }

/-- No draft of the first wave survives; the second is resolved. -/
def hintedWorld : EngineWorld :=
  { plainWorld (prunedWave none) with
    wave := fun _ n => if n = 0 then prunedWave none else plainWave (plainPhases "use a jwt") }

def issuerHint : TriggeredPattern :=
  { hintText := "name the issuer"
    successCount := 1
    attemptCount := 2
    triggerTags := ["auth"]
    exitReasonKind := "ZeroSurvival" }

def hintedRun : InductionRun :=
  { input := hintedInput
    world := hintedWorld
    setup :=
      { tenantId := TenantId.defaultTenant
        constraintTags := ["auth"]
        scheduler := true
        trigger := ⟨true, 1⟩
        answer := fun _ _ _ => some ⟨[issuerHint], ["auth"]⟩ } }

def hintedStart : EngineState := initialState hintedInput hintedWorld

theorem hintedRun_decided (retryCount : Nat) (cs : MapeKController × EngineState) :
    WaveDecided hintedInput hintedWorld 0 retryCount cs := by
  refine ⟨rfl, ?_⟩
  simp [checkpointError, hintedInput, plainInput]

def isReturn : MapeKDecision → Bool
  | .return _ => true
  | _ => false

theorem isReturn_eq_true {decision : MapeKDecision} (h : isReturn decision = true) :
    ∃ out, decision = .return out := by
  cases decision with
  | «return» out => exact ⟨out, rfl⟩
  | _ => cases h

/-- The lookup of the first wave goes to buckets of the task id, and the success of the
second is counted for the tenant. -/
theorem hint_looked_up_under_task_id :
    hintedRun.Calls (.runRetroactive ⟨hintedTask, ["auth"], ["C-SESSION"]⟩) ∧
      hintedRun.Calls (.recordSuccess ["name the issuer"] ⟨"default", ["auth"], []⟩) ∧
      ¬ OneMemory asciiTables id hintedRun hintedRun := by
  have hstart : WaveStart hintedInput hintedWorld 0 0
      (freshController hintedInput [], hintedStart) := ⟨hintedStart, rfl, Nat.zero_le _, rfl⟩
  have hlookup : hintedRun.Calls (.runRetroactive ⟨hintedTask, ["auth"], ["C-SESSION"]⟩) :=
    .lookup hstart (hintedRun_decided 0 _) (by decide +kernel)
  refine ⟨hlookup, ?_, ?_⟩
  · have hreached : (hintedRun.waveAt 0 hintedStart 1).any
        (fun cs => isReturn (waveDecision hintedInput hintedWorld 0 1 cs).1) = true := by
      decide +kernel
    obtain ⟨cs, hwave, hreturn⟩ := (Option.any_eq_true _ _).mp hreached
    obtain ⟨out, hout⟩ := isReturn_eq_true hreturn
    have happlied : hintedRun.appliedAt 0 hintedStart 1 = ["name the issuer"] := by
      decide +kernel
    have hne : hintedRun.appliedAt 0 hintedStart 1 ≠ [] := happlied ▸ List.cons_ne_nil _ _
    have hcall := @InductionRun.Calls.returned hintedRun 0 hintedStart 1 cs out rfl (by decide)
      hwave (hintedRun_decided 1 cs) hout rfl hne
    rw [happlied] at hcall
    exact hcall
  · intro memory
    exact absurd (memory.writes _ hlookup) (by decide)

end Example

end ControlPlane.Guarantees.InductionTenant

/-!
## Distillation of resolved tasks

A resolved task should leave a `TaskMetaState` where the distillation trigger looks
for it. The checkpoint of a run never gets a shared understanding, without which there
is no projection, and a run that the synthesis wave resolves does not resolve its
checkpoint at all. The trigger also puts the tenant into the prefix, and the bucket
name adds it once more.
-/
namespace ControlPlane.Guarantees.MetaDistillation

open Source Source.State Source.MapeK Source.Engine

/-- A meta state of the task is written, to the bucket that the trigger lists. -/
def Distilled (isAlphanumeric : Char → Bool) (cfg : StateConfig) (input : EngineInput)
    (task : ReasoningTask) (m : ReasoningMemory) : Prop :=
  ∃ state ∈ m.metas, state.taskId = input.taskId ∧
    tenantBucketName isAlphanumeric cfg.taskMetaStateBucketPrefix state.tenantId =
      tenantBucketName isAlphanumeric (distillationPrefix task.tenantId) task.tenantId

/-- No point of a run has written a meta state. -/
theorem memoryPoint_metas {input : EngineInput} {world : EngineWorld} {task : ReasoningTask}
    {waves : List (Nat × Nat)} {m : ReasoningMemory}
    (point : MemoryPoint input world task waves m) : m.metas = [] := by
  cases henabled : input.cfg.reasoningMemory.enabled with
  | false => rw [point.disabled henabled]
  | true =>
      obtain ⟨cp, htracks⟩ := point.tracks henabled
      exact htracks.unprojected

/-- Writer and reader of a tenant name one bucket exactly when the configured prefix
ends in the tenant already. -/
theorem metaBucket_eq_iff (isAlphanumeric : Char → Bool) (cfg : StateConfig) (tenant : TenantId) :
    tenantBucketName isAlphanumeric cfg.taskMetaStateBucketPrefix tenant =
        tenantBucketName isAlphanumeric (distillationPrefix tenant) tenant ↔
      cfg.taskMetaStateBucketPrefix = distillationPrefix tenant := by
  unfold tenantBucketName
  rw [← String.toList_inj, ← String.toList_inj]
  simp only [String.toList_append]
  rw [List.append_cancel_right_eq, List.append_cancel_right_eq]

/-- For every tenant and configuration, every run and every point of it: no meta state
of the task has been written where the trigger lists it. -/
theorem resolved_task_not_distilled (isAlphanumeric : Char → Bool) (cfg : StateConfig)
    (input : EngineInput) (world : EngineWorld) (task : ReasoningTask) :
    ¬ ∃ waves m, MemoryPoint input world task waves m ∧
      Distilled isAlphanumeric cfg input task m := by
  rintro ⟨waves, m, point, state, hstate, -⟩
  rw [memoryPoint_metas point] at hstate
  cases hstate

/-! ## A resolved task -/

section Example

def rememberingInput : EngineInput :=
  { plainInput with
    cfg := { Config.H2AIConfig.reference with reasoningMemory := ⟨true, false⟩ }
    nats := true }

def rememberingWorld : EngineWorld := plainWorld (plainWave (plainPhases "use a jwt"))

def rememberedTask : ReasoningTask := ⟨TenantId.defaultTenant, ["auth"]⟩

def rememberingStart : MapeKController × EngineState :=
  (freshController rememberingInput [], initialState rememberingInput rememberingWorld)

/-- The output of a returned wave that needs no approval. -/
def unattended (input : EngineInput) : MapeKDecision → Option EngineOutput
  | .return out => if needsHitl input out then none else some out
  | _ => none

theorem unattended_eq_some {input : EngineInput} {decision : MapeKDecision} {out : EngineOutput}
    (h : unattended input decision = some out) :
    decision = .return out ∧ needsHitl input out = false := by
  unfold unattended at h
  split at h
  · split at h
    · cases h
    · rename_i hneeds
      cases h
      exact ⟨rfl, Bool.not_eq_true _ ▸ hneeds⟩
  · cases h

/-- The first wave is resolved and its checkpoint is written as resolved; there is no
meta state, and the trigger would look for it in another bucket. -/
theorem resolved_checkpoint_without_meta :
    (runOffline rememberingInput rememberingWorld 1).any (fun ended => ended.1.isOk) = true ∧
      (∃ waves m, MemoryPoint rememberingInput rememberingWorld rememberedTask waves m ∧
        m.held.map (·.phase) = some .resolved ∧ putRanks m = [0, 2, 2 ^ 32 - 1]) ∧
      (¬ ∃ waves m, MemoryPoint rememberingInput rememberingWorld rememberedTask waves m ∧
        Distilled Char.isAlphanum referenceStateConfig rememberingInput rememberedTask m) ∧
      tenantBucketName Char.isAlphanum referenceStateConfig.taskMetaStateBucketPrefix
        rememberedTask.tenantId = "H2AI_META_default" ∧
      tenantBucketName Char.isAlphanum (distillationPrefix rememberedTask.tenantId)
        rememberedTask.tenantId = "H2AI_META_default_default" := by
  have hreturns : (unattended rememberingInput
      (waveDecision rememberingInput rememberingWorld 0 0 rememberingStart).1).isSome = true := by
    decide +kernel
  obtain ⟨out, hout⟩ := Option.isSome_iff_exists.mp hreturns
  obtain ⟨hdecision, hneeds⟩ := unattended_eq_some hout
  have start : WaveStart rememberingInput rememberingWorld 0 0 rememberingStart :=
    ⟨initialState rememberingInput rememberingWorld, rfl, Nat.zero_le _, rfl⟩
  have hgated : gatedState rememberingInput rememberingWorld 0 0 rememberingStart out =
      decidedState rememberingInput rememberingWorld 0 0 rememberingStart := by
    unfold gatedState
    rw [hneeds]
    rfl
  have hpoint := @MemoryPoint.resolved _ _ rememberedTask _ _ _ _ start ⟨rfl, rfl⟩ hdecision
    (fun needs => absurd needs (by rw [hneeds]; decide))
  rw [hgated] at hpoint
  refine ⟨by decide +kernel, ⟨_, _, hpoint, by decide +kernel, by decide +kernel⟩, ?_,
    by decide +kernel, by decide +kernel⟩
  rintro ⟨waves, m, point, state, hstate, -⟩
  rw [memoryPoint_metas point] at hstate
  cases hstate

end Example

end ControlPlane.Guarantees.MetaDistillation

/-!
# Agreement of the induction schedulers

One scheduler filters a list of patterns, the other reads the buckets in which the same
patterns lie under their tags. The buckets are read for the tags of the task and for the
tags of what was found there, and a bucket belongs to all tags with one normal form: the
two agree up to normal forms, on what the tags of the task lead to.
-/
namespace ControlPlane.Guarantees.SchedulerAgreement

open Lib Source.Memory

/-! ## Statement -/

/-- Patterns of one tenant, each of them in the buckets of all its trigger tags. -/
structure SharedPatterns (tables : CaseTables) where
  tenantId : String
  patterns : List TriggeredPattern
  store : PatternBuckets
  stored : ∀ tag p, p ∈ loadBucket store (tagKey tables tenantId tag) ↔
    p ∈ patterns ∧ ∃ own ∈ p.triggerTags,
      tagKey tables tenantId own = tagKey tables tenantId tag

/-- Two lists of tags with a common normal form. -/
def ShareTag (tables : CaseTables) (tags tags' : List String) : Prop :=
  ∃ tag ∈ tags, ∃ tag' ∈ tags', normalizeTag tables tag = normalizeTag tables tag'

namespace SharedPatterns

variable {tables : CaseTables} (memory : SharedPatterns tables)

def context (taskClassTags violatedConstraintIds : List String) : InductionContext :=
  ⟨memory.tenantId, taskClassTags, violatedConstraintIds⟩

/-- The patterns that the tags of the task lead to at once. -/
def Direct (taskClassTags : List String) (p : TriggeredPattern) : Prop :=
  p ∈ memory.patterns ∧ ShareTag tables p.triggerTags taskClassTags

/-- The patterns that share a tag with one of these. -/
def Bridged (taskClassTags : List String) (p : TriggeredPattern) : Prop :=
  p ∈ memory.patterns ∧ ∃ q, memory.Direct taskClassTags q ∧
    ShareTag tables p.triggerTags q.triggerTags

end SharedPatterns

/-- What the two schedulers return from the same patterns. -/
structure Agree {tables : CaseTables} (walk : Walk String) (memory : SharedPatterns tables)
    (ctx : InductionContext) : Prop where
  direct : ∀ p ∈ algorithmicHints memory.patterns ctx, memory.Direct ctx.taskClassTags p →
    p ∈ natsHints tables walk memory.store ctx
  bridged : ∀ p ∈ algorithmicHints memory.patterns ctx, memory.Bridged ctx.taskClassTags p →
    p ∈ natsHints tables walk memory.store ctx ∨
      ∃ q ∈ memory.patterns, q ≠ p ∧ hintIdentity q = hintIdentity p
  reached : ∀ p ∈ natsHints tables walk memory.store ctx,
    memory.Direct ctx.taskClassTags p ∨ memory.Bridged ctx.taskClassTags p
  algorithmicSorted : (algorithmicHints memory.patterns ctx).Pairwise
    fun a b => b.successRate ≤ a.successRate
  natsSorted : (natsHints tables walk memory.store ctx).Pairwise
    fun a b => b.successRate ≤ a.successRate

/-! ## What the rounds find -/

theorem tagKey_eq_iff {tables : CaseTables} {tenantId tag tag' : String} :
    tagKey tables tenantId tag = tagKey tables tenantId tag' ↔
      normalizeTag tables tag = normalizeTag tables tag' := by
  constructor
  · intro same
    have lists := congrArg String.toList same
    simp only [tagKey, String.toList_append] at lists
    exact String.toList_inj.mp (List.append_cancel_left lists)
  · intro same
    rw [tagKey, tagKey, same]

section Rounds

variable {tables : CaseTables} {walk : Walk String} {memory : SharedPatterns tables}
variable (walk) {tags : List String} (ids : List String) {p : TriggeredPattern}

theorem mem_bucket_iff {tag : String} :
    p ∈ loadBucket memory.store (tagKey tables memory.tenantId tag) ↔
      p ∈ memory.patterns ∧ ShareTag tables p.triggerTags [tag] := by
  rw [memory.stored]
  simp [ShareTag, tagKey_eq_iff]

/-- The first round finds what the tags of the task lead to. -/
theorem roundOne_iff :
    p ∈ roundOne tables memory.store (memory.context tags ids) ↔ memory.Direct tags p := by
  rw [mem_roundOne]
  constructor
  · intro found
    obtain ⟨tag, asked, member⟩ := found
    obtain ⟨known, own, owned, tag', same, equal⟩ := mem_bucket_iff.mp member
    rw [List.mem_singleton.mp same] at equal
    exact ⟨known, own, owned, tag, asked, equal⟩
  · intro direct
    obtain ⟨known, own, owned, tag, asked, equal⟩ := direct
    exact ⟨tag, asked, mem_bucket_iff.mpr ⟨known, own, owned, tag, by simp, equal⟩⟩

/-- A pattern of the second round has a normal form in common with one of the first. -/
theorem roundTwo_iff :
    p ∈ (roundTwoKeys tables walk.run memory.store (memory.context tags ids)).flatMap
        (loadBucket memory.store) ↔
      p ∈ memory.patterns ∧ ∃ tag ∉ tags, (∃ q, memory.Direct tags q ∧ tag ∈ q.triggerTags) ∧
        ShareTag tables p.triggerTags [tag] := by
  rw [List.mem_flatMap]
  constructor
  · intro found
    obtain ⟨key, asked, member⟩ := found
    obtain ⟨tag, bridge, rfl⟩ := List.mem_map.mp asked
    obtain ⟨fresh, q, first, named⟩ := mem_bridgeTags.mp bridge
    obtain ⟨known, shared⟩ := mem_bucket_iff.mp member
    exact ⟨known, tag, fresh, ⟨q, (roundOne_iff ids).mp first, named⟩, shared⟩
  · intro found
    obtain ⟨known, tag, fresh, ⟨q, first, named⟩, shared⟩ := found
    have bridge : tag ∈ bridgeTags tables walk.run memory.store (memory.context tags ids) :=
      mem_bridgeTags.mpr ⟨fresh, q, (roundOne_iff ids).mpr first, named⟩
    exact ⟨_, List.mem_map_of_mem bridge, mem_bucket_iff.mpr ⟨known, shared⟩⟩

/-- Direct patterns pass the filter: each of their tags is of the task or a bridge. -/
theorem natsHints_of_direct (direct : memory.Direct tags p) :
    p ∈ natsHints tables walk memory.store (memory.context tags ids) := by
  have first := (roundOne_iff ids).mpr direct
  obtain ⟨-, own, owned, -⟩ := direct
  rw [natsHints, sadRetrieve, mem_rankAndFilter]
  refine ⟨mem_appendUnseen first, own, owned, Or.inl ?_⟩
  by_cases asked : own ∈ tags
  · exact List.mem_append_left _ asked
  · exact List.mem_append_right _ (mem_bridgeTags.mpr ⟨asked, p, first, owned⟩)

/-- A pattern that the filter keeps and the bridge leads to is returned, unless another
of its identity was found. -/
theorem natsHints_of_bridged
    (kept : p ∈ algorithmicHints memory.patterns (memory.context tags ids))
    (bridged : memory.Bridged tags p) :
    p ∈ natsHints tables walk memory.store (memory.context tags ids) ∨
      ∃ q ∈ memory.patterns, q ≠ p ∧ hintIdentity q = hintIdentity p := by
  obtain ⟨known, q, first, own, owned, tag, named, equal⟩ := bridged
  by_cases asked : tag ∈ tags
  · exact Or.inl (natsHints_of_direct walk ids ⟨known, own, owned, tag, asked, equal⟩)
  · have second := (roundTwo_iff walk ids).mpr
      ⟨known, tag, asked, ⟨q, first, named⟩, own, owned, tag, by simp, equal⟩
    obtain found | ⟨other, found, differs, same⟩ := appendUnseen_keeps
      (roundOne tables memory.store (memory.context tags ids)) second
    · obtain ⟨-, tag', owned', matched⟩ := mem_rankAndFilter.mp kept
      rw [natsHints, sadRetrieve, mem_rankAndFilter]
      exact Or.inl ⟨found, tag', owned', matched.imp_left (List.mem_append_left _)⟩
    · have known' : other ∈ memory.patterns := by
        obtain early | ⟨late, -⟩ := mem_of_mem_appendUnseen found
        · exact ((roundOne_iff ids).mp early).1
        · exact ((roundTwo_iff walk ids).mp late).1
      exact Or.inr ⟨other, known', differs, same⟩

theorem reached_of_natsHints
    (found : p ∈ natsHints tables walk memory.store (memory.context tags ids)) :
    memory.Direct tags p ∨ memory.Bridged tags p := by
  obtain early | ⟨late, -⟩ := mem_of_mem_appendUnseen (mem_rankAndFilter.mp found).1
  · exact Or.inl ((roundOne_iff ids).mp early)
  · obtain ⟨known, tag, -, ⟨q, first, named⟩, own, owned, tag', same, equal⟩ :=
      (roundTwo_iff walk ids).mp late
    rw [List.mem_singleton.mp same] at equal
    exact Or.inr ⟨known, q, first, own, owned, tag, named, equal⟩

end Rounds

/-- For all patterns, every context and every order of the hash set of bridge tags. -/
theorem schedulers_agree {tables : CaseTables} (walk : Walk String)
    (memory : SharedPatterns tables) (taskClassTags violatedConstraintIds : List String) :
    Agree walk memory (memory.context taskClassTags violatedConstraintIds) where
  direct := fun _ _ direct => natsHints_of_direct walk _ direct
  bridged := fun _ kept bridged => natsHints_of_bridged walk _ kept bridged
  reached := fun _ found => reached_of_natsHints walk _ found
  algorithmicSorted := rankAndFilter_sorted _ _
  natsSorted := rankAndFilter_sorted _ _

/-! ## Where they differ -/

/-- Each pattern lies under the keys of its tags. -/
def SharedPatterns.ofPatterns (tables : CaseTables) (tenantId : String)
    (patterns : List TriggeredPattern) : SharedPatterns tables where
  tenantId := tenantId
  patterns := patterns
  store := fun key => some <| patterns.filter fun p =>
    (p.triggerTags.map (tagKey tables tenantId)).contains key
  stored := by
    intro tag p
    simp [loadBucket]

/-- The schedulers return the same, and nothing but what shares a tag as it is written. -/
structure SameHints {tables : CaseTables} (walk : Walk String) (memory : SharedPatterns tables)
    (ctx : InductionContext) : Prop where
  included : ∀ p ∈ algorithmicHints memory.patterns ctx, p ∈ natsHints tables walk memory.store ctx
  related : ∀ p ∈ natsHints tables walk memory.store ctx,
    p ∈ algorithmicHints memory.patterns ctx ∨
      ∃ q ∈ algorithmicHints memory.patterns ctx, ∃ tag ∈ p.triggerTags, tag ∈ q.triggerTags

def taggedHint (hintText : String) (triggerTags : List String) : TriggeredPattern where
  hintText := hintText
  successCount := 2
  attemptCount := 3
  triggerTags := triggerTags
  exitReasonKind := "ZeroSurvival"

/-- The first round reads no bucket of a violated constraint. -/
def violatedOnly : SharedPatterns asciiTables :=
  .ofPatterns asciiTables "acme" [taggedHint "audit the log" ["CONSTRAINT-005"]]

/-- Two spellings of one normal form. -/
def respelled : SharedPatterns asciiTables :=
  .ofPatterns asciiTables "acme" [taggedHint "use a saga" ["orderService"]]

/-- The second round meets a pattern whose identity it has seen. -/
def twins : SharedPatterns asciiTables :=
  .ofPatterns asciiTables "acme"
    [taggedHint "add a lease" ["auth", "cache"], taggedHint "add a lease" ["cache", "locking"]]

theorem schedulers_differ :
    ¬ SameHints Walk.stored violatedOnly (violatedOnly.context ["billing"] ["CONSTRAINT-005"]) ∧
      ¬ SameHints Walk.stored respelled (respelled.context ["order service"] []) ∧
      ¬ SameHints Walk.stored twins (twins.context ["auth"] ["locking"]) := by
  refine ⟨?_, ?_, ?_⟩
  · intro same
    have found := same.included (taggedHint "audit the log" ["CONSTRAINT-005"]) (by decide +kernel)
    exact absurd found (by decide +kernel)
  · intro same
    have found := same.related (taggedHint "use a saga" ["orderService"]) (by decide +kernel)
    exact absurd found (by decide +kernel)
  · intro same
    have found := same.included (taggedHint "add a lease" ["cache", "locking"])
      (by decide +kernel)
    exact absurd found (by decide +kernel)

end ControlPlane.Guarantees.SchedulerAgreement
