import ControlPlane.Guarantees.TerminalPhases
import ControlPlane.Source.Engine.RunOutcomes

/-!
# Clean failure exits

Every exit of `run_offline` with an error repeats its clean-up by hand: mark the
task failed, and delete the signal consumer if one was opened. The `Fail` arm, the
exhaustion handler and a rejection at the approval gate do both. A deadline and a
terminal complexity overflow leave the consumer, a strict checkpoint failure and a
refused spec repair do neither, and the phases in front of the loop at most mark.
-/
namespace ControlPlane.Guarantees.CleanExits

open Lib Source Source.Tasks Source.Engine Source.MapeK Source.Constraints TerminalPhases

/-! ## The store on return -/

/-- The store when `run_offline` returns, from the `insert` that begins it. -/
def storeOnReturn (world : EngineWorld) (counters : Nat → Nat → WaveCounters) (tenant : TenantId)
    (store : TaskStore) (id : TaskId) (s : EngineState) : TaskStore :=
  (.insert tenant :: (preLoopOps world ++ engineOps world counters 0 s.log)).foldl
    (fun store op => StoreOp.apply store id op) store

theorem mem_engineOps_markFailed (world : EngineWorld) (counters : Nat → Nat → WaveCounters)
    (log : List EngineAction) (restart : Nat) :
    .markFailed ∈ engineOps world counters restart log ↔ .markFailed ∈ log := by
  induction log generalizing restart with
  | nil => simp [engineOps]
  | cons a rest ih =>
      cases a with
      | wave retryCount =>
          have hwave : .markFailed ∉ waveOps (world.wave restart retryCount).phases retryCount
              (counters restart retryCount) := by
            intro hmem
            have hquiet := waveOps_quiet _ _ _ _ hmem .failed rfl
            cases hquiet
          simp [engineOps, hwave, ih]
      | repair constraintId outcome =>
          cases outcome with
          | repaired version rewritten => simp [engineOps, ih]
          | failed score => simp [engineOps, ih]
      | _ => simp [engineOps, ih]

/-- Operations leave the phase as it is, or end in a phase one of them writes. -/
theorem foldl_phaseOf {id : TaskId} (ops : List StoreOp) {store : TaskStore} {phase : Nat}
    (h : phaseOf store id = some phase) :
    ∃ phase', phaseOf (ops.foldl (fun store op => StoreOp.apply store id op) store) id =
        some phase' ∧
      (phase' = phase ∨ ∃ op ∈ ops, ∃ q, op.phase? = some q ∧ phase' = q.toNat) := by
  induction ops generalizing store phase with
  | nil => exact ⟨phase, h, Or.inl rfl⟩
  | cons op rest ih =>
      obtain ⟨phase', hphase, hfrom⟩ := ih (apply_phaseOf h op)
      refine ⟨phase', hphase, ?_⟩
      rcases hfrom with hkept | ⟨op', hmem, q, hq, heq⟩
      · cases hwrites : op.phase? with
        | none =>
            rw [hwrites] at hkept
            exact Or.inl hkept
        | some q =>
            rw [hwrites] at hkept
            exact Or.inr ⟨op, List.mem_cons_self, q, hwrites, hkept⟩
      · exact Or.inr ⟨op', List.mem_cons_of_mem op hmem, q, hq, heq⟩

theorem failed_of_marks {id : TaskId} {ops : List StoreOp} (marks : ∀ op ∈ ops, op = .markFailed)
    (some_mark : .markFailed ∈ ops) {store : TaskStore} {phase : Nat}
    (h : phaseOf store id = some phase) :
    phaseOf (ops.foldl (fun store op => StoreOp.apply store id op) store) id =
      some TaskPhase.failed.toNat := by
  cases ops with
  | nil => cases some_mark
  | cons op rest =>
      have hfirst : op = .markFailed := marks op List.mem_cons_self
      have hmarked : phaseOf (StoreOp.apply store id op) id = some TaskPhase.failed.toNat := by
        rw [hfirst]
        exact apply_phaseOf h .markFailed
      obtain ⟨phase', hphase, hfrom⟩ := foldl_phaseOf rest hmarked
      rw [List.foldl_cons, hphase]
      rcases hfrom with rfl | ⟨op', hmem, q, hq, rfl⟩
      · rfl
      · rw [marks op' (List.mem_cons_of_mem op hmem)] at hq
        cases hq
        rfl

/-- Behind the loop the phase is `Failed` exactly when the run has marked it so. -/
theorem failed_on_return_iff {world : EngineWorld} (noPreLoop : world.preLoopError = none)
    (counters : Nat → Nat → WaveCounters) (tenant : TenantId) (store : TaskStore) (id : TaskId)
    {e : EngineError × EngineRunContext} {s : EngineState} (ends : LogEnds (.error e) s.log) :
    phaseOf (storeOnReturn world counters tenant store id s) id = some TaskPhase.failed.toNat ↔
      .markFailed ∈ s.log := by
  obtain ⟨quiet, tail, hlog, hquiet, htail, -⟩ := ends
  obtain ⟨restart, hops⟩ := engineOps_append world counters quiet tail 0
  have hinsert : phaseOf (StoreOp.apply store id (.insert tenant)) id =
      some TaskPhase.bootstrap.toNat := by
    simp [StoreOp.apply, TaskStore.insert, phaseOf, TaskState.new]
  obtain ⟨phase, hphase, hfrom⟩ :=
    foldl_phaseOf (engineOps world counters 0 quiet) hinsert
  have hopen : phase ≠ TaskPhase.failed.toNat := by
    rcases hfrom with rfl | ⟨op, hmem, q, hq, rfl⟩
    · decide
    · have hnot := engineOps_quiet world counters hquiet 0 op hmem q hq
      intro hfailed
      rw [TaskPhase.toNat_injective hfailed] at hnot
      cases hnot
  have hmem : .markFailed ∈ s.log ↔ .markFailed ∈ engineOps world counters restart tail := by
    rw [mem_engineOps_markFailed, hlog, List.mem_append]
    refine or_iff_right ?_
    intro hmarked
    exact (hquiet _ hmarked).1 rfl
  unfold storeOnReturn preLoopOps
  rw [noPreLoop, List.nil_append, hlog, hops, List.foldl_cons, List.foldl_append, ← hlog, hmem]
  constructor
  · intro hfailed
    by_contra hunmarked
    have hnone : engineOps world counters restart tail = [] := by
      refine List.eq_nil_iff_forall_not_mem.mpr ?_
      intro op hop
      rw [engineOps_givesUp world counters htail restart op hop] at hop
      exact hunmarked hop
    rw [hnone, List.foldl_nil, hphase] at hfailed
    exact hopen (Option.some.inj hfailed)
  · intro hmarked
    exact failed_of_marks (engineOps_givesUp world counters htail restart) hmarked hphase

/-! ## What an exit has logged -/

/-- Neither a mark nor a clean-up. -/
def Untidied (a : EngineAction) : Prop := Unmarked a ∧ a ≠ .deleteSignalConsumer

/-- The log ends with these clean-up actions, and holds none before. -/
def ExitLog (s : EngineState) (marked deleted : Bool) : Prop :=
  ∃ before, (∀ a ∈ before, Untidied a) ∧ s.log = before ++
    ((if marked then [.markFailed] else []) ++ if deleted then [.deleteSignalConsumer] else [])

theorem ExitLog.logEnds {s : EngineState} {marked deleted : Bool} (h : ExitLog s marked deleted)
    (e : EngineError × EngineRunContext) : LogEnds (.error e) s.log := by
  obtain ⟨before, hbefore, hlog⟩ := h
  refine ⟨before, _, hlog, fun a ha => (hbefore a ha).1, ?_, fun out hout => by cases hout⟩
  intro a ha
  simp only [List.mem_append, List.mem_ite_nil_right, List.mem_singleton] at ha
  rcases ha with ⟨-, rfl⟩ | ⟨-, rfl⟩
  · exact .inl rfl
  · exact .inr rfl

theorem ExitLog.mem_markFailed {s : EngineState} {marked deleted : Bool}
    (h : ExitLog s marked deleted) : .markFailed ∈ s.log ↔ marked = true := by
  obtain ⟨before, hbefore, hlog⟩ := h
  have hnot : EngineAction.markFailed ∉ before := fun ha => (hbefore _ ha).1.1 rfl
  rw [hlog]
  simp [hnot]

theorem ExitLog.mem_deleted {s : EngineState} {marked deleted : Bool}
    (h : ExitLog s marked deleted) : .deleteSignalConsumer ∈ s.log ↔ deleted = true := by
  obtain ⟨before, hbefore, hlog⟩ := h
  have hnot : EngineAction.deleteSignalConsumer ∉ before := fun ha => (hbefore _ ha).2 rfl
  rw [hlog]
  simp [hnot]

theorem ExitLog.appends {s s' : EngineState} {actions : List EngineAction} {marked deleted : Bool}
    (before : s.Logs Untidied) (h : Appends s s' actions)
    (tail : actions = (if marked then [.markFailed] else []) ++
      if deleted then [.deleteSignalConsumer] else []) : ExitLog s' marked deleted :=
  ⟨s.log, before, tail ▸ h.log⟩

theorem exitLog_untidied {s : EngineState} (h : s.Logs Untidied) : ExitLog s false false :=
  ⟨s.log, h, (List.append_nil _).symm⟩

variable {input : EngineInput} {world : EngineWorld}

theorem admits_untidied : Admits input world Untidied where
  wave _ := ⟨⟨by simp, by simp⟩, by simp⟩
  postSelection _ := ⟨⟨by simp, by simp⟩, by simp⟩
  decision _ _ := ⟨⟨by simp, by simp⟩, by simp⟩
  repairGuard _ := ⟨⟨by simp, by simp⟩, by simp⟩
  repair _ _ := ⟨⟨by simp, by simp⟩, by simp⟩

theorem cleanup_exitLog {s : EngineState} (h : s.Logs Untidied) :
    ExitLog (s.note (.markFailed :: deleteConsumer input s)) true (input.nats && s.signalSub) := by
  refine ExitLog.appends h (appends_note _ _) ?_
  unfold deleteConsumer
  cases input.nats && s.signalSub <;> rfl

theorem mark_exitLog {s : EngineState} (h : s.Logs Untidied) :
    ExitLog (s.note [.markFailed]) true false := ExitLog.appends h (appends_note _ _) rfl

theorem recordedState_untidied {restart retryCount : Nat} {cs : MapeKController × EngineState}
    (before : cs.2.Logs Untidied) :
    (recordedState input world restart retryCount cs).Logs Untidied := by
  have hadmits : Admits input world Untidied := admits_untidied
  exact recordWave_logs hadmits retryCount _ before

theorem decidedState_untidied {restart retryCount : Nat} {cs : MapeKController × EngineState}
    (before : cs.2.Logs Untidied) :
    (decidedState input world restart retryCount cs).Logs Untidied :=
  decided_logs admits_untidied ⟨⟨by simp, by simp⟩, by simp⟩ before

theorem hitlGate_untidied (gate : GateWorld) (out : EngineOutput) {s : EngineState}
    (before : s.Logs Untidied) : (hitlGate input gate out s).2.Logs Untidied := by
  refine (hitlGate_appends input gate out s).logs before ?_
  intro a ha
  refine ⟨gateActions_unmarked out _ a ha, ?_⟩
  rintro rfl
  unfold gateActions at ha
  simp at ha

/-! ## Clean and dirty exits -/

/-- A subscription was opened. The one error in front of it is a strict checkpoint
failure before the loop. -/
def subscriptionOpened (world : EngineWorld) (s : EngineState) : Bool :=
  match world.preLoopError with
  | some (.checkpointWriteFailed _) => false
  | _ => s.signalSub

structure CleanExit (world : EngineWorld) (counters : Nat → Nat → WaveCounters)
    (tenant : TenantId) (store : TaskStore) (id : TaskId) (s : EngineState) : Prop where
  failed : phaseOf (storeOnReturn world counters tenant store id s) id =
    some TaskPhase.failed.toNat
  consumer : subscriptionOpened world s = true → .deleteSignalConsumer ∈ s.log

/-- The wave returns its output to the caller, as far as the approval gate goes. -/
def PassesGate (input : EngineInput) (gate : GateWorld) (out : EngineOutput)
    (s : EngineState) : Prop :=
  needsHitl input out = true → (gateRecord input gate s).decision.approved = true

/-- The exits that leave the task active or its consumer behind. -/
inductive DirtyExit (input : EngineInput) (world : EngineWorld) : Prop where
  | preLoop (e : EngineError) (fails : world.preLoopError = some e)
      (leaves : preLoopMarksFailed e = true → (initialState input world).signalSub = true)
  | deadline {restart retryCount cs} (start : WaveStart input world restart retryCount cs)
      (passed : deadlineOver input world restart retryCount = true)
      (open_ : cs.2.signalSub = true)
  | checkpoint {restart retryCount cs} (start : WaveStart input world restart retryCount cs)
      (inTime : deadlineOver input world restart retryCount = false)
      (fails : checkpointError input (recordedState input world restart retryCount cs)
        (world.wave restart retryCount).checkpointWritten ≠ none)
  | returned {restart retryCount cs} (start : WaveStart input world restart retryCount cs)
      (decided : WaveDecided input world restart retryCount cs) (out : EngineOutput)
      (returns : (waveDecision input world restart retryCount cs).1 = .return out)
      (passes : PassesGate input (world.wave restart retryCount).gate out
        (decidedState input world restart retryCount cs))
      (fails : checkpointError input (decidedState input world restart retryCount cs)
        (world.wave restart retryCount).gate.checkpointWritten ≠ none)
  | overflow {restart retryCount cs} (start : WaveStart input world restart retryCount cs)
      (decided : WaveDecided input world restart retryCount cs) (score : Nat) (rationale : String)
      (overflows : (waveDecision input world restart retryCount cs).1 =
        .complexityOverflow score rationale false)
      (open_ : (decidedState input world restart retryCount cs).signalSub = true)
  | refused {restart signal c s} (point : RepairPoint input world restart signal c s)
      (refused : RepairRefused input signal s.constraintCorpus)

theorem clean_iff_of_exitLog (noPreLoop : world.preLoopError = none)
    (counters : Nat → Nat → WaveCounters) (tenant : TenantId) (store : TaskStore) (id : TaskId)
    {s : EngineState} {marked deleted : Bool} (h : ExitLog s marked deleted) :
    CleanExit world counters tenant store id s ↔
      marked = true ∧ (s.signalSub = true → deleted = true) := by
  have hfailed := failed_on_return_iff noPreLoop counters tenant store id
    (h.logEnds (.maxRetriesExhausted, emptyContext))
  rw [h.mem_markFailed] at hfailed
  have hopened : subscriptionOpened world s = s.signalSub := by
    unfold subscriptionOpened
    rw [noPreLoop]
  constructor
  · intro clean
    refine ⟨hfailed.mp clean.failed, ?_⟩
    intro hsub
    exact h.mem_deleted.mp (clean.consumer (hopened.trans hsub))
  · rintro ⟨hmarked, hdeleted⟩
    refine ⟨hfailed.mpr hmarked, ?_⟩
    intro hsub
    exact h.mem_deleted.mpr (hdeleted (hopened ▸ hsub))

theorem hitlGate_checkpointError (gate : GateWorld) (out : EngineOutput) (s : EngineState)
    (written : Bool) :
    checkpointError input (hitlGate input gate out s).2 written =
      checkpointError input s written := by
  simp [checkpointError, hitlGate, EngineState.note, refreshSub]

/-- A run that is resolved fails on its checkpoint only, and leaves the log as it is. -/
theorem resolveRun_checkpoint {gate : GateWorld} {out : EngineOutput} {s : EngineState}
    (before : s.Logs Untidied) (fails : checkpointError input s gate.checkpointWritten ≠ none) :
    (∃ e, (resolveRun input gate out s).1 = .error e) ∧
      ExitLog (resolveRun input gate out s).2 false false := by
  obtain ⟨e, he⟩ := Option.ne_none_iff_exists'.mp fails
  unfold resolveRun
  rw [he]
  exact ⟨⟨_, rfl⟩, exitLog_untidied before⟩

theorem resolveRun_fails {gate : GateWorld} {out : EngineOutput} {s : EngineState}
    {e : EngineError × EngineRunContext} (h : (resolveRun input gate out s).1 = .error e) :
    checkpointError input s gate.checkpointWritten ≠ none := by
  intro hnone
  unfold resolveRun at h
  rw [hnone] at h
  cases h

/-- A returned wave that passes the gate and fails on its checkpoint ends untidied. -/
theorem returnArm_checkpoint {gate : GateWorld} {out : EngineOutput} {s : EngineState}
    (before : s.Logs Untidied) (passes : PassesGate input gate out s)
    (fails : checkpointError input s gate.checkpointWritten ≠ none) :
    ExitLog (returnArm input gate out s).2 false false := by
  rcases returnArm_cases input gate out s with
    ⟨-, heq⟩ | ⟨-, -, heq⟩ | ⟨hneeds, hrejected, -⟩
  · rw [heq]
    exact (resolveRun_checkpoint before fails).2
  · rw [heq]
    refine (resolveRun_checkpoint (hitlGate_untidied gate out before) ?_).2
    rw [hitlGate_checkpointError]
    exact fails
  · rw [passes hneeds] at hrejected
    cases hrejected

/-- The `Return` arm fails on its checkpoint, or on a rejection, which cleans up. -/
theorem returnArm_error {gate : GateWorld} {out : EngineOutput} {s : EngineState}
    (before : s.Logs Untidied) (needsNats : SubNeedsNats input s)
    {e : EngineError × EngineRunContext} (fails : (returnArm input gate out s).1 = .error e) :
    (PassesGate input gate out s ∧ checkpointError input s gate.checkpointWritten ≠ none) ∨
    (ExitLog (returnArm input gate out s).2 true input.nats ∧
      ((returnArm input gate out s).2.signalSub = true → input.nats = true)) := by
  rcases returnArm_cases input gate out s with
    ⟨hneeds, heq⟩ | ⟨hneeds, happroved, heq⟩ | ⟨hneeds, hrejected, operatorId, note, heq⟩
  · rw [heq] at fails
    refine Or.inl ⟨?_, resolveRun_fails fails⟩
    intro hgate
    rw [hneeds] at hgate
    cases hgate
  · rw [heq] at fails
    refine Or.inl ⟨fun _ => happroved, ?_⟩
    rw [← hitlGate_checkpointError gate out]
    exact resolveRun_fails fails
  · rw [heq]
    refine Or.inr ⟨?_, refreshSub_needsNats needsNats gate.subscribes⟩
    refine ExitLog.appends (hitlGate_untidied gate out before) (appends_note _ _) ?_
    cases input.nats <;> rfl

/-! ## Every exit -/

theorem iterationStart_noPreLoop {restart : Nat} {s : EngineState}
    (h : iterationStart input world restart = some s) : world.preLoopError = none := by
  unfold iterationStart at h
  split at h
  · cases h
  · rename_i hpre
    exact hpre

theorem repairPoint_noPreLoop {restart : Nat} {signal : InstabilitySignal} {c : MapeKController}
    {s : EngineState} (h : RepairPoint input world restart signal c s) :
    world.preLoopError = none := by
  obtain ⟨s₀, hiter, -⟩ := h
  exact iterationStart_noPreLoop hiter

theorem waveStart_noPreLoop {restart retryCount : Nat} {cs : MapeKController × EngineState}
    (h : WaveStart input world restart retryCount cs) : world.preLoopError = none := by
  obtain ⟨s₀, hiter, -, -⟩ := h
  exact iterationStart_noPreLoop hiter

/-- A dirty exit behind the loop: where the run ends, with what it has logged. -/
theorem dirty_exitLog (h : DirtyExit input world) (noPreLoop : world.preLoopError = none) :
    ∃ result s marked deleted, RunEnd input world result s ∧ ExitLog s marked deleted ∧
      ¬ (marked = true ∧ (s.signalSub = true → deleted = true)) := by
  cases h with
  | preLoop e fails leaves =>
      rw [noPreLoop] at fails
      cases fails
  | deadline start passed open_ =>
      refine ⟨_, _, true, false, .wave start (.deadline passed),
        mark_exitLog (waveStart_logs admits_untidied start), ?_⟩
      rintro ⟨-, hdeleted⟩
      cases hdeleted open_
  | checkpoint start inTime fails =>
      obtain ⟨e, he⟩ := Option.ne_none_iff_exists'.mp fails
      refine ⟨_, _, false, false, .wave start (.checkpoint inTime e he),
        exitLog_untidied (recordedState_untidied (waveStart_logs admits_untidied start)), ?_⟩
      rintro ⟨hmarked, -⟩
      cases hmarked
  | returned start decided out returns passes fails =>
      refine ⟨_, _, false, false, .wave start (.returned decided out returns),
        returnArm_checkpoint (decidedState_untidied (waveStart_logs admits_untidied start)) passes
          fails, ?_⟩
      rintro ⟨hmarked, -⟩
      cases hmarked
  | overflow start decided score rationale overflows open_ =>
      refine ⟨_, _, true, false, .wave start (.overflow decided score rationale overflows),
        mark_exitLog (decidedState_untidied (waveStart_logs admits_untidied start)), ?_⟩
      rintro ⟨-, hdeleted⟩
      cases hdeleted open_
  | @refused restart signal c s point refused =>
      have hadmits : Admits input world Untidied := admits_untidied
      refine ⟨_, _, false, false, .refused point refused,
        exitLog_untidied (guardRepair_logs hadmits signal (repairPoint_logs hadmits point)), ?_⟩
      rintro ⟨hmarked, -⟩
      cases hmarked

/-- The exits with an error behind the loop: dirty, or with both clean-ups. -/
theorem error_exitLog {e : EngineError × EngineRunContext} {s : EngineState}
    (h : RunEnd input world (.error e) s) (noPreLoop : world.preLoopError = none) :
    DirtyExit input world ∨ ∃ marked deleted, ExitLog s marked deleted ∧
      marked = true ∧ (s.signalSub = true → deleted = true) := by
  have hinv : RunInvariant input world (SubNeedsNats input) := subNeedsNats_invariant
  generalize hresult : (Except.error e : EngineResult) = result at h
  cases h with
  | preLoop e fails =>
      rw [noPreLoop] at fails
      cases fails
  | @wave restart retryCount cs _ _ start ends =>
      have hbefore := waveStart_logs admits_untidied start
      cases ends with
      | deadline passed =>
          cases hsub : cs.2.signalSub with
          | true => exact Or.inl (.deadline start passed hsub)
          | false =>
              refine Or.inr ⟨true, false, mark_exitLog hbefore, rfl, ?_⟩
              intro hopen
              rw [← hsub]
              exact hopen
      | checkpoint inTime e fails =>
          exact Or.inl (.checkpoint start inTime (by rw [fails]; exact Option.some_ne_none e))
      | returned decided out returns =>
          rcases returnArm_error (decidedState_untidied hbefore) (hinv.decided start)
              hresult.symm with ⟨hpasses, hfails⟩ | ⟨hlog, hnats⟩
          · exact Or.inl (.returned start decided out returns hpasses hfails)
          · exact Or.inr ⟨true, input.nats, hlog, rfl, hnats⟩
      | failed decided e ctx fails =>
          refine Or.inr ⟨true, _, cleanup_exitLog (decidedState_untidied hbefore), rfl, ?_⟩
          intro hopen
          rw [Bool.and_eq_true]
          exact ⟨hinv.decided start hopen, hopen⟩
      | overflow decided score rationale overflows =>
          cases hsub : (decidedState input world restart retryCount cs).signalSub with
          | true => exact Or.inl (.overflow start decided score rationale overflows hsub)
          | false =>
              refine Or.inr ⟨true, false, mark_exitLog (decidedState_untidied hbefore), rfl, ?_⟩
              intro hopen
              rw [← hsub]
              exact hopen
  | @exhausted restart graft c s₁ point =>
      have hlog : ExitLog (s₁.note (.markFailed :: deleteConsumer input s₁)) true
          (input.nats && s₁.signalSub) :=
        cleanup_exitLog (exhaustionPoint_logs admits_untidied point)
      have hstate : (exhausted input world restart graft c s₁).2 =
          s₁.note (.markFailed :: deleteConsumer input s₁) := by
        unfold exhausted at hresult ⊢
        dsimp only at hresult ⊢
        split at hresult
        · cases hresult
        · rfl
      rw [hstate]
      refine Or.inr ⟨true, _, hlog, rfl, ?_⟩
      intro hopen
      rw [Bool.and_eq_true]
      exact ⟨exhaustion_needsNats point hopen, hopen⟩
  | refused point refused => exact Or.inl (.refused point refused)

/-- The exits in front of the loop: clean only if they mark the task and no
subscription was opened. -/
theorem preLoop_clean_iff (counters : Nat → Nat → WaveCounters) (tenant : TenantId)
    (store : TaskStore) (id : TaskId) {e : EngineError} (fails : world.preLoopError = some e) :
    CleanExit world counters tenant store id (initialState input world) ↔
      ¬ (preLoopMarksFailed e = true → (initialState input world).signalSub = true) := by
  have hinsert : phaseOf (StoreOp.apply store id (.insert tenant)) id =
      some TaskPhase.bootstrap.toNat := by
    simp [StoreOp.apply, TaskStore.insert, phaseOf, TaskState.new]
  have hfailed : phaseOf
      (storeOnReturn world counters tenant store id (initialState input world)) id =
        some TaskPhase.failed.toNat ↔ preLoopMarksFailed e = true := by
    have hops : preLoopOps world = if preLoopMarksFailed e then [.markFailed] else [] := by
      unfold preLoopOps
      rw [fails]
    unfold storeOnReturn
    rw [hops]
    cases hmarks : preLoopMarksFailed e with
    | true =>
        refine iff_of_true ?_ rfl
        exact apply_phaseOf hinsert .markFailed
    | false =>
        refine iff_of_false ?_ Bool.false_ne_true
        intro hphase
        have hopen := hinsert.symm.trans hphase
        cases hopen
  constructor
  · intro clean hleaves
    have hmarks := hfailed.mp clean.failed
    have hopened : subscriptionOpened world (initialState input world) = true := by
      unfold subscriptionOpened
      rw [fails]
      cases e with
      | multiplicationConditionFailed msg => exact hleaves hmarks
      | _ => cases hmarks
    cases clean.consumer hopened
  · intro hleaves
    rw [Classical.not_imp] at hleaves
    obtain ⟨hmarks, hclosed⟩ := hleaves
    refine ⟨hfailed.mpr hmarks, ?_⟩
    intro hopened
    unfold subscriptionOpened at hopened
    rw [fails] at hopened
    cases e with
    | multiplicationConditionFailed msg => exact absurd hopened hclosed
    | _ => cases hmarks

/-- **Clean failure exits**: a run that returns an error leaves its task failed and no
consumer behind exactly when none of the dirty exits is taken. -/
theorem clean_failure_exit_iff {input : EngineInput} {world : EngineWorld} {fuel : Nat}
    {failure : EngineError × EngineRunContext} {s : EngineState}
    (fails : runOffline input world fuel = some (.error failure, s))
    (counters : Nat → Nat → WaveCounters) (tenant : TenantId) (store : TaskStore) (id : TaskId) :
    CleanExit world counters tenant store id s ↔ ¬ DirtyExit input world := by
  have hend : RunEnd input world (.error failure) s := runOffline_end_iff.mp ⟨fuel, fails⟩
  cases hpre : world.preLoopError with
  | some e =>
      obtain ⟨-, rfl⟩ := hend.unique (.preLoop e hpre)
      rw [preLoop_clean_iff counters tenant store id hpre]
      refine not_congr ⟨.preLoop e hpre, ?_⟩
      intro dirty
      have habsurd : ∀ {P : Prop}, world.preLoopError = none → P := by
        intro P hnone
        rw [hnone] at hpre
        cases hpre
      cases dirty with
      | preLoop e' fails' leaves =>
          rw [hpre] at fails'
          cases fails'
          exact leaves
      | deadline start => exact habsurd (waveStart_noPreLoop start)
      | checkpoint start => exact habsurd (waveStart_noPreLoop start)
      | returned start => exact habsurd (waveStart_noPreLoop start)
      | overflow start => exact habsurd (waveStart_noPreLoop start)
      | refused point => exact habsurd (repairPoint_noPreLoop point)
  | none =>
      constructor
      · intro clean dirty
        obtain ⟨result, s', marked, deleted, hend', hlog, hdirty⟩ := dirty_exitLog dirty hpre
        obtain ⟨-, rfl⟩ := hend.unique hend'
        exact hdirty ((clean_iff_of_exitLog hpre counters tenant store id hlog).mp clean)
      · intro tidy
        rcases error_exitLog hend hpre with dirty | ⟨marked, deleted, hlog, hclean⟩
        · exact absurd dirty tidy
        · exact (clean_iff_of_exitLog hpre counters tenant store id hlog).mpr hclean

/-! ## A task that is overdue -/

/-- A deadline has been set, and signals are subscribed to. -/
def overdueInput : EngineInput :=
  { plainInput with
    nats := true
    cfg := { plainInput.cfg with taskDeadlineSecs := some 60 } }

/-- The deadline has passed before the first wave. -/
def overdueWorld : EngineWorld :=
  { plainWorld { plainWave (plainPhases "") with deadlinePassed := true } with subscribes := true }

theorem overdue_run : runOffline overdueInput overdueWorld 1 =
    some (.error (.deadlineExceeded 60, emptyContext),
      (initialState overdueInput overdueWorld).note [.markFailed]) := rfl

/-- The exit of an overdue task is characterized by the theorem. -/
theorem overdue_exit_characterized :
    runOffline overdueInput overdueWorld 1 =
        some (.error (.deadlineExceeded 60, emptyContext),
          (initialState overdueInput overdueWorld).note [.markFailed]) ∧
      (CleanExit overdueWorld waveCounters acme (fun _ => none) sampleTask
          ((initialState overdueInput overdueWorld).note [.markFailed]) ↔
        ¬ DirtyExit overdueInput overdueWorld) :=
  ⟨overdue_run, clean_failure_exit_iff overdue_run waveCounters acme (fun _ => none) sampleTask⟩

/-- The overdue task is marked failed, and its durable consumer stays. -/
theorem overdue_task_leaves_consumer :
    ∃ failure s, runOffline overdueInput overdueWorld 1 = some (.error failure, s) ∧
      ¬ CleanExit overdueWorld waveCounters acme (fun _ => none) sampleTask s := by
  refine ⟨_, _, overdue_run, ?_⟩
  intro clean
  have hdeleted := clean.consumer rfl
  simp [EngineState.note, initialState] at hdeleted

end ControlPlane.Guarantees.CleanExits
