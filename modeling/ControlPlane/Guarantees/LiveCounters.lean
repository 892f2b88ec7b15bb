import ControlPlane.Source.Engine.WaveHistory

/-!
# Live counters

What the counters of a task say after each wave of its run. The verification records
every proposal as valid or pruned, and the audit records each survivor again, so the
counters count verdicts: one for each proposal and each gate that has judged it.
-/
namespace ControlPlane.Guarantees.LiveCounters

open Source Source.Engine Source.Tasks Source.Verification

/-! ## Counters of a store -/

/-- What a list of operations adds to the counters of an entry. -/
structure Counts (state state' : TaskState) (ops : List StoreOp) : Prop where
  completed : state'.explorersCompleted = state.explorersCompleted + ops.count .incrementCompleted
  valid : state'.proposalsValid = state.proposalsValid + ops.count (.recordValidation true)
  pruned : state'.proposalsPruned = state.proposalsPruned + ops.count (.recordValidation false)

def isInsert : StoreOp → Bool
  | .insert _ => true
  | _ => false

theorem modify_self {store : TaskStore} {id : TaskId} {state : TaskState}
    (present : store id = some state) (change : TaskState → TaskState) :
    store.modify id change id = some (change state) := by
  unfold TaskStore.modify
  rw [Function.update_self, present]
  rfl

theorem apply_counts {store : TaskStore} {id : TaskId} {state : TaskState} {op : StoreOp}
    (present : store id = some state) (h : isInsert op = false) :
    ∃ state', op.apply store id id = some state' ∧ Counts state state' [op] := by
  cases op with
  | insert tenant => cases h
  | recordValidation valid =>
      cases valid <;> exact ⟨_, modify_self present _, rfl, rfl, rfl⟩
  | _ => exact ⟨_, modify_self present _, rfl, rfl, rfl⟩

theorem foldl_counts {id : TaskId} {ops : List StoreOp}
    (h : ∀ op ∈ ops, isInsert op = false) {store : TaskStore} {state : TaskState}
    (present : store id = some state) :
    ∃ state', ops.foldl (fun store op => op.apply store id) store id = some state' ∧
      Counts state state' ops := by
  induction ops generalizing store state with
  | nil => exact ⟨state, present, ⟨rfl, rfl, rfl⟩⟩
  | cons op rest ih =>
      obtain ⟨hop, hrest⟩ := List.forall_mem_cons.mp h
      obtain ⟨state₁, hpresent, hfirst⟩ := apply_counts present hop
      obtain ⟨state₂, hend, htail⟩ := ih hrest hpresent
      refine ⟨state₂, hend, ⟨?_, ?_, ?_⟩⟩
      · rw [htail.completed, hfirst.completed, Nat.add_assoc, ← List.count_append]
        rfl
      · rw [htail.valid, hfirst.valid, Nat.add_assoc, ← List.count_append]
        rfl
      · rw [htail.pruned, hfirst.pruned, Nat.add_assoc, ← List.count_append]
        rfl

/-! ## Counters of a wave -/

theorem behind_const {α : Type} (step : StepResult α) (ops : List StoreOp) :
    behind step (fun _ => ops) = if step.isDone then ops else [] := by
  cases step <;> rfl

theorem count_records_completed (records : List Bool) :
    (records.map StoreOp.recordValidation).count .incrementCompleted = 0 := by
  rw [List.count_eq_zero]
  simp

section Wave

variable (input : EngineInput) (settings : ProposalSettings) (retryCount : Nat) (a : WaveAnswers)

/-- The operations of a wave, by how far it goes. -/
theorem waveOps_eq :
    waveOps (wavePhases input settings retryCount a) retryCount
        (waveCounters input settings retryCount a) =
      .setPhase .provisioning 0 retryCount ::
        if a.topology.isDone then
          .setPhase .multiplicationCheck a.generation.explorers.length retryCount ::
            if a.multiply.isDone then if a.diversity.isDone then
              .setPhase .parallelGeneration a.generation.explorers.length retryCount ::
                (List.replicate (explorerResults settings a.generation).length
                    .incrementCompleted ++
                  if a.hallucination.isNone then
                    (verifyRecords (waveVerdicts input settings retryCount a)).map
                        .recordValidation ++
                      if (waveVerify input settings retryCount a).isDone then
                        .setPhase .auditorGate a.generation.explorers.length retryCount ::
                          (waveAudit input settings retryCount a).2.records.map .recordValidation
                      else []
                  else [])
            else [] else []
        else [] := by
  have hcheck : ∀ generated, ((wavePhases input settings retryCount a).hallucination
      generated).isDone = a.hallucination.isNone := by
    intro generated
    cases h : a.hallucination <;> simp [wavePhases, h, StepResult.isDone]
  have hverify : (wavePhases input settings retryCount a).verify.isDone =
      (waveVerify input settings retryCount a).isDone := StepResult.isDone_map _ _
  have hgeneration : (wavePhases input settings retryCount a).generation.isDone = true := rfl
  unfold waveOps
  simp only [behind_const, hverify, hcheck, hgeneration, ↓reduceIte]
  rfl

/-! ## Verdicts of a wave -/

/-- Proposals of the wave that the verification has found valid, or not. -/
def verifiedAs (valid : Bool) : Nat :=
  if reachesVerification a then
    if valid then (waveVerdicts input settings retryCount a).passed.length
    else (waveVerdicts input settings retryCount a).failed.length
  else 0

/-- Proposals of the wave that were verified. -/
def verifiedCount : Nat :=
  if reachesVerification a then (waveGeneration input settings retryCount a).proposals.length
  else 0

/-- The survivors in front of the first one on which the auditor fails. -/
def judgedSurvivors : List (ProposalEvent × Nat) :=
  if reachesAudit input settings retryCount a then
    (auditedProposals input settings retryCount a).zipIdx.takeWhile fun p =>
      (primaryResponse settings (a.audit p.2)).isOk
  else []

/-- The verdict of the audit on a survivor. -/
def approves (answer : AuditAnswer) : Bool :=
  match primaryResponse settings answer with
  | .ok response => !rejects settings answer response
  | .error _ => false

/-- Survivors of the wave that the audit has found valid, or not. -/
def auditedAs (valid : Bool) : Nat :=
  (judgedSurvivors input settings retryCount a).countP fun p =>
    approves settings (a.audit p.2) == valid

theorem verificationOutput_length (judged : Nat → Judgement) (proposals : List ProposalEvent) :
    (verificationOutput judged proposals).passed.length +
      (verificationOutput judged proposals).failed.length = proposals.length := by
  unfold verificationOutput
  dsimp only
  rw [List.length_map, List.length_map, ← List.countP_eq_length_filter,
    ← List.countP_eq_length_filter]
  have hsplit := List.length_eq_countP_add_countP (fun e : ProposalEvent × Judgement => e.2.passes)
    (l := proposals.zipIdx.map fun p => (p.1, judged p.2))
  rw [List.length_map, List.length_zipIdx] at hsplit
  rw [hsplit]
  simp

theorem verifiedAs_total :
    verifiedAs input settings retryCount a true + verifiedAs input settings retryCount a false =
      verifiedCount input settings retryCount a := by
  unfold verifiedAs verifiedCount
  cases reachesVerification a with
  | false => rfl
  | true => exact verificationOutput_length a.judged _

theorem auditedAs_total :
    auditedAs input settings retryCount a true + auditedAs input settings retryCount a false =
      (judgedSurvivors input settings retryCount a).length := by
  unfold auditedAs
  rw [List.length_eq_countP_add_countP fun p : ProposalEvent × Nat =>
    approves settings (a.audit p.2) == true]
  simp

/-- Every proposal that passes comes from an explorer that has finished. -/
theorem verifiedAs_le_completed :
    verifiedAs input settings retryCount a true ≤
      if reachesGeneration a then (explorerResults settings a.generation).length else 0 := by
  have hlength := verificationOutput_length a.judged
    (waveGeneration input settings retryCount a).proposals
  have hproposals : (waveGeneration input settings retryCount a).proposals.length ≤
      (explorerResults settings a.generation).length := List.length_filterMap_le _ _
  have hpassed : (waveVerdicts input settings retryCount a).passed.length ≤
      (explorerResults settings a.generation).length := by
    unfold waveVerdicts
    omega
  unfold verifiedAs reachesVerification
  cases reachesGeneration a with
  | false => simp
  | true =>
      cases a.hallucination.isNone with
      | false => simp
      | true => simpa using hpassed

theorem auditedProposals_length :
    (auditedProposals input settings retryCount a).length ≤
      (waveVerdicts input settings retryCount a).passed.length := by
  unfold auditedProposals waveVerify verifyRun
  dsimp only
  split
  · rename_i out hdone
    split at hdone
    · cases hdone
    · cases hdone
      dsimp only
      split
      · rename_i hfallback
        simp only [Bool.and_eq_true, Bool.not_eq_true', List.isEmpty_eq_false_iff] at hfallback
        have hsome := List.length_pos_iff.mpr hfallback.2
        have hbest := Option.length_toList_le
          (o := bestScored (waveVerdicts input settings retryCount a).passed)
        omega
      · rw [List.length_map]
  · exact Nat.zero_le _

/-- The audit sees survivors of the verification only. -/
theorem judgedSurvivors_le_verified :
    (judgedSurvivors input settings retryCount a).length ≤
      verifiedAs input settings retryCount a true := by
  have hlength := auditedProposals_length input settings retryCount a
  unfold judgedSurvivors
  cases hreach : reachesAudit input settings retryCount a with
  | false => simp
  | true =>
      have hverified : reachesVerification a = true := by
        unfold reachesAudit at hreach
        rw [Bool.and_eq_true] at hreach
        exact hreach.1
      have hprefix := (List.takeWhile_prefix (fun p : ProposalEvent × Nat =>
        (primaryResponse settings (a.audit p.2)).isOk)
        (l := (auditedProposals input settings retryCount a).zipIdx)).length_le
      rw [List.length_zipIdx] at hprefix
      unfold verifiedAs
      rw [hverified]
      exact hprefix.trans hlength

/-! ## Records of a wave -/

/-- The audit records its verdicts in order. -/
theorem auditLoop_records (answers : Nat → AuditAnswer) (i : Nat) (p : AuditProgress)
    (proposals : List ProposalEvent) :
    (auditLoop settings answers i p proposals).2.records =
      p.records ++ ((proposals.zipIdx i).takeWhile fun q =>
        (primaryResponse settings (answers q.2)).isOk).map fun q =>
          approves settings (answers q.2) := by
  induction proposals generalizing i p with
  | nil => exact (List.append_nil _).symm
  | cons proposal rest ih =>
      unfold auditLoop
      rw [List.zipIdx_cons]
      cases hresponse : primaryResponse settings (answers i) with
      | error e =>
          rw [List.takeWhile_cons_of_neg (by simp [hresponse, Except.isOk, Except.toBool])]
          exact (List.append_nil _).symm
      | ok response =>
          rw [List.takeWhile_cons_of_pos (by simp [hresponse, Except.isOk, Except.toBool])]
          dsimp only
          rw [ih, List.map_cons]
          have hverdict : approves settings (answers i) =
              !rejects settings (answers i) response := by
            unfold approves
            rw [hresponse]
          rw [hverdict]
          unfold auditOne
          cases rejects settings (answers i) response <;> simp

theorem waveOps_completed :
    (waveOps (wavePhases input settings retryCount a) retryCount
        (waveCounters input settings retryCount a)).count .incrementCompleted =
      if reachesGeneration a then (explorerResults settings a.generation).length else 0 := by
  rw [waveOps_eq]
  unfold reachesGeneration
  cases a.topology.isDone with
  | false => simp
  | true =>
      cases a.multiply.isDone with
      | false => simp
      | true =>
          cases a.diversity.isDone with
          | false => simp
          | true =>
              cases a.hallucination.isNone with
              | false => simp
              | true =>
                  cases (waveVerify input settings retryCount a).isDone <;>
                    simp [count_records_completed]

theorem waveOps_records (valid : Bool) :
    (waveOps (wavePhases input settings retryCount a) retryCount
        (waveCounters input settings retryCount a)).count (.recordValidation valid) =
      verifiedAs input settings retryCount a valid +
        auditedAs input settings retryCount a valid := by
  have hverified : (verifyRecords (waveVerdicts input settings retryCount a)).count valid =
      if valid then (waveVerdicts input settings retryCount a).passed.length
      else (waveVerdicts input settings retryCount a).failed.length := by
    cases valid <;> simp [verifyRecords, List.count_append, List.map_const', List.count_replicate]
  have haudited : (waveAudit input settings retryCount a).2.records.count valid =
      ((auditedProposals input settings retryCount a).zipIdx.takeWhile fun p =>
        (primaryResponse settings (a.audit p.2)).isOk).countP fun p =>
          approves settings (a.audit p.2) == valid := by
    unfold waveAudit
    rw [auditLoop_records, List.nil_append, List.count, List.countP_map]
    rfl
  rw [waveOps_eq]
  unfold verifiedAs auditedAs judgedSurvivors reachesAudit reachesVerification reachesGeneration
  cases a.topology.isDone with
  | false => simp
  | true =>
      cases a.multiply.isDone with
      | false => simp
      | true =>
          cases a.diversity.isDone with
          | false => simp
          | true =>
              cases a.hallucination.isNone with
              | false => simp [List.count_replicate]
              | true =>
                  cases (waveVerify input settings retryCount a).isDone <;>
                    simp [List.count_replicate, hverified, haudited]

end Wave

/-! ## Counters of a run -/

/-- Counting operations come from the waves alone. -/
theorem engineOps_count (world : EngineWorld) (counters : Nat → Nat → WaveCounters) {op : StoreOp}
    (counting : op.phase? = none) (restart : Nat) (log : List EngineAction) :
    (engineOps world counters restart log).count op =
      ((wavesOf restart log).map fun w =>
        (waveOps (world.wave w.1 w.2).phases w.2 (counters w.1 w.2)).count op).sum := by
  have hmarks : StoreOp.markFailed ≠ op ∧ StoreOp.markResolved ≠ op ∧
      StoreOp.setAwaitingApproval ≠ op := by
    refine ⟨?_, ?_, ?_⟩ <;> rintro rfl <;> cases counting
  induction log generalizing restart with
  | nil => rfl
  | cons a rest ih =>
      cases a with
      | wave retryCount =>
          rw [engineOps, wavesOf, List.count_append, ih restart, List.map_cons, List.sum_cons]
      | repair constraintId outcome =>
          cases outcome with
          | repaired version rewritten => exact ih (restart + 1)
          | failed score => exact ih restart
      | markFailed => exact (List.count_cons_of_ne hmarks.1).trans (ih restart)
      | markResolved => exact (List.count_cons_of_ne hmarks.2.1).trans (ih restart)
      | setAwaitingApproval => exact (List.count_cons_of_ne hmarks.2.2).trans (ih restart)
      | _ => exact ih restart

theorem engineOps_isInsert (world : EngineWorld) (counters : Nat → Nat → WaveCounters)
    (restart : Nat) (log : List EngineAction) :
    ∀ op ∈ engineOps world counters restart log, isInsert op = false := by
  induction log generalizing restart with
  | nil =>
      intro op hop
      cases hop
  | cons a rest ih =>
      cases a with
      | wave retryCount =>
          intro op hop
          rcases List.mem_append.mp hop with hop | hop
          · cases waveOps_mem _ _ _ op hop <;> rfl
          · exact ih restart op hop
      | repair constraintId outcome =>
          cases outcome with
          | repaired version rewritten => exact ih (restart + 1)
          | failed score => exact ih restart
      | markFailed => exact List.forall_mem_cons.mpr ⟨rfl, ih restart⟩
      | markResolved => exact List.forall_mem_cons.mpr ⟨rfl, ih restart⟩
      | setAwaitingApproval => exact List.forall_mem_cons.mpr ⟨rfl, ih restart⟩
      | _ => exact ih restart

section Run

variable (input : EngineInput) (settings : ProposalSettings) (world : EngineWorld)
  (waves : Nat → Nat → WaveAnswers) (store : TaskStore) (id : TaskId) (tenant : TenantId)

/-- The store behind what the run has logged, from the insertion of the task on. -/
def liveStore (s : EngineState) : TaskStore :=
  (StoreOp.insert tenant :: engineOps (withWaves input settings world waves)
    (fun restart retryCount => waveCounters input settings retryCount (waves restart retryCount))
    0 s.log).foldl (fun store op => op.apply store id) store

theorem liveStore_counts (s : EngineState) :
    ∃ state, liveStore input settings world waves store id tenant s id = some state ∧
      state.explorersCompleted = overWaves waves (fun _ a =>
        if reachesGeneration a then (explorerResults settings a.generation).length else 0) s ∧
      ∀ valid, (if valid then state.proposalsValid else state.proposalsPruned) =
        overWaves waves (fun n a => verifiedAs input settings n a valid) s +
          overWaves waves (fun n a => auditedAs input settings n a valid) s := by
  have hpresent : (StoreOp.insert tenant).apply store id id = some (TaskState.new id tenant) :=
    Function.update_self _ _ _
  obtain ⟨state, hstate, hcounts⟩ := foldl_counts (engineOps_isInsert
    (withWaves input settings world waves) (fun restart retryCount =>
      waveCounters input settings retryCount (waves restart retryCount)) 0 s.log) hpresent
  refine ⟨state, hstate, ?_, ?_⟩
  · rw [hcounts.completed, engineOps_count _ _ rfl]
    simp only [withWaves, waveOps_completed, TaskState.new, Nat.zero_add]
    rfl
  · intro valid
    have hrecords : (if valid then state.proposalsValid else state.proposalsPruned) =
        (engineOps (withWaves input settings world waves) (fun restart retryCount =>
          waveCounters input settings retryCount (waves restart retryCount)) 0
          s.log).count (.recordValidation valid) := by
      cases valid with
      | true => exact hcounts.valid.trans (Nat.zero_add _)
      | false => exact hcounts.pruned.trans (Nat.zero_add _)
    rw [hrecords, engineOps_count _ _ rfl, ← overWaves_add]
    simp only [withWaves, waveOps_records]
    rfl

theorem overWaves_le {f g : Nat → WaveAnswers → Nat} (h : ∀ n a, f n a ≤ g n a)
    (s : EngineState) : overWaves waves f s ≤ overWaves waves g s := by
  unfold overWaves
  exact List.sum_le_sum fun w _ => h w.2 (waves w.1 w.2)

/-- After every wave the counters hold one verdict for each proposal that was verified,
and one more for each survivor that was audited. -/
theorem live_counters_count_verdicts (restart retryCount : Nat)
    (cs : MapeK.MapeKController × EngineState) :
    let s := recordedState input (withWaves input settings world waves) restart retryCount cs
    ∃ state, liveStore input settings world waves store id tenant s id = some state ∧
      state.proposalsValid = overWaves waves (fun n a => verifiedAs input settings n a true) s +
        overWaves waves (fun n a => auditedAs input settings n a true) s ∧
      state.proposalsPruned = overWaves waves (fun n a => verifiedAs input settings n a false) s +
        overWaves waves (fun n a => auditedAs input settings n a false) s ∧
      state.proposalsValid + state.proposalsPruned =
        overWaves waves (verifiedCount input settings) s +
          overWaves waves (fun n a => (judgedSurvivors input settings n a).length) s ∧
      state.proposalsValid ≤ 2 * state.explorersCompleted := by
  intro s
  obtain ⟨state, hstate, hcompleted, hrecords⟩ :=
    liveStore_counts input settings world waves store id tenant s
  have hvalid := hrecords true
  have hpruned := hrecords false
  simp only [↓reduceIte, Bool.false_eq_true] at hvalid hpruned
  have hverified : overWaves waves (verifiedCount input settings) s =
      overWaves waves (fun n a => verifiedAs input settings n a true) s +
        overWaves waves (fun n a => verifiedAs input settings n a false) s := by
    rw [← overWaves_add]
    simp only [verifiedAs_total]
  have haudited : overWaves waves (fun n a => (judgedSurvivors input settings n a).length) s =
      overWaves waves (fun n a => auditedAs input settings n a true) s +
        overWaves waves (fun n a => auditedAs input settings n a false) s := by
    rw [← overWaves_add]
    simp only [auditedAs_total]
  have hfinished := overWaves_le waves
    (fun n a => verifiedAs_le_completed input settings n a) s
  have hsurvivors := overWaves_le waves
    (fun n a => judgedSurvivors_le_verified input settings n a) s
  exact ⟨state, hstate, hvalid, hpruned, by omega, by omega⟩

/-- Each proposal is recorded once, and no more are valid than explorers have finished. -/
def CountsOnce (s : EngineState) : Prop :=
  ∃ state, liveStore input settings world waves store id tenant s id = some state ∧
    state.proposalsValid + state.proposalsPruned =
      overWaves waves (verifiedCount input settings) s ∧
    state.proposalsValid ≤ state.explorersCompleted

end Run

def countedTask : TaskId := ⟨"5e2b7c14-90ad-4c3f-b6d8-1a7e4f20c9b3", by decide⟩

/-- One proposal that passes the verification and the audit is counted twice. -/
theorem audited_proposal_counted_twice :
    WaveStart plainInput (sameWaves (plainAnswers 5)) 0 0 (firstWave (plainAnswers 5)) ∧
      ¬ CountsOnce plainInput plainSettings (plainWorld (plainWave (plainPhases "")))
        (fun _ _ => plainAnswers 5) (fun _ => none) countedTask .defaultTenant
        (recordedState plainInput (sameWaves (plainAnswers 5)) 0 0
          (firstWave (plainAnswers 5))) := by
  refine ⟨firstWave_start (plainAnswers 5), ?_⟩
  rintro ⟨state, hstate, htotal, -⟩
  have hcounters : (liveStore plainInput plainSettings (plainWorld (plainWave (plainPhases "")))
      (fun _ _ => plainAnswers 5) (fun _ => none) countedTask .defaultTenant
      (recordedState plainInput (sameWaves (plainAnswers 5)) 0 0 (firstWave (plainAnswers 5)))
      countedTask).map (fun state => state.proposalsValid + state.proposalsPruned) = some 2 := by
    decide +kernel
  have hverified : overWaves (fun _ _ => plainAnswers 5) (verifiedCount plainInput plainSettings)
      (recordedState plainInput (sameWaves (plainAnswers 5)) 0 0 (firstWave (plainAnswers 5))) =
      1 := by
    decide +kernel
  rw [hstate, Option.map_some, htotal, hverified] at hcounters
  cases hcounters

end ControlPlane.Guarantees.LiveCounters
