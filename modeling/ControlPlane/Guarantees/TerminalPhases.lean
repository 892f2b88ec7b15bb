import ControlPlane.Source.Engine.EngineLogs
import ControlPlane.Source.Tasks.TaskRun

/-!
# Terminal phases are absorbing, and where they are not

No writer of the task store looks at the phase it overwrites. A run by itself keeps a
terminal phase all the same, because it marks a task only when it is about to return,
with one exception: on exhaustion the task is marked failed first, and the synthesis wave
may resolve it afterwards. A merge writes "resolved" whatever the run still has to
write, and over "failed".
-/
namespace ControlPlane.Guarantees.TerminalPhases

open Lib Source Source.Tasks Source.Engine Source.MapeK

/-! ## Phases of the store -/

def phaseOf (store : TaskStore) (id : TaskId) : Option Nat := (store id).map (·.phase)

theorem modify_phaseOf {store : TaskStore} {id : TaskId} {phase : Nat}
    (h : phaseOf store id = some phase) {change : TaskState → TaskState} {phase' : Nat}
    (hchange : ∀ entry : TaskState, entry.phase = phase → (change entry).phase = phase') :
    phaseOf (store.modify id change) id = some phase' := by
  unfold phaseOf at h ⊢
  cases hentry : store id with
  | none => simp [hentry] at h
  | some entry =>
      rw [hentry, Option.map_some, Option.some.injEq] at h
      simp [TaskStore.modify, hentry, hchange entry h]

/-- An operation writes its phase, or leaves the phase as it is. -/
theorem apply_phaseOf {store : TaskStore} {id : TaskId} {phase : Nat}
    (h : phaseOf store id = some phase) (op : StoreOp) :
    phaseOf (op.apply store id) id = some ((op.phase?.map TaskPhase.toNat).getD phase) := by
  cases op with
  | insert tenant => simp [StoreOp.apply, StoreOp.phase?, TaskStore.insert, phaseOf, TaskState.new]
  | setPhase p explorerCount retries => exact modify_phaseOf h fun entry hentry => rfl
  | incrementCompleted => exact modify_phaseOf h fun entry hentry => hentry
  | recordValidation valid =>
      refine modify_phaseOf h ?_
      intro entry hentry
      cases valid with
      | true => exact hentry
      | false => exact hentry
  | markResolved => exact modify_phaseOf h fun entry hentry => rfl
  | markFailed => exact modify_phaseOf h fun entry hentry => rfl
  | setAwaitingApproval => exact modify_phaseOf h fun entry hentry => rfl

/-- `is_active` is false of an entry in a terminal phase only. -/
theorem isActive_eq_false_iff {store : TaskStore} {id : TaskId} {phase : Nat}
    (h : phaseOf store id = some phase) :
    store.isActive id = false ↔
      phase = TaskPhase.resolved.toNat ∨ phase = TaskPhase.failed.toNat := by
  unfold phaseOf at h
  cases hentry : store id with
  | none => simp [hentry] at h
  | some entry =>
      rw [hentry, Option.map_some, Option.some.injEq] at h
      subst h
      simp only [TaskStore.isActive, hentry, Bool.and_eq_false_iff, bne_eq_false_iff_eq]

/-! ## The operations of a run -/

/-- Writes no terminal phase. -/
def Quiet (op : StoreOp) : Prop := ∀ p, op.phase? = some p → p.terminal = false

/-- Writes this phase or none. -/
def Keeps (phase : TaskPhase) (op : StoreOp) : Prop := ∀ p, op.phase? = some p → p = phase

/-- Once a terminal phase is written, no other phase is. -/
def EndsOnce (ops : List StoreOp) : Prop :=
  ∃ front back phase, ops = front ++ back ∧ (∀ op ∈ front, Quiet op) ∧
    TaskPhase.terminal phase = true ∧ ∀ op ∈ back, Keeps phase op

theorem waveOps_quiet (phases : WavePhases) (retryCount : Nat) (n : WaveCounters) :
    ∀ op ∈ waveOps phases retryCount n, Quiet op := by
  intro op hop p hp
  cases waveOps_mem phases retryCount n op hop with
  | setPhase running explorerCount retries =>
      cases hp
      exact running
  | incrementCompleted => cases hp
  | recordValidation valid => cases hp

/-- Neither `mark_failed` nor `mark_resolved`. -/
def Unmarked (a : EngineAction) : Prop := a ≠ .markFailed ∧ a ≠ .markResolved

theorem engineOps_quiet (world : EngineWorld) (counters : Nat → Nat → WaveCounters)
    {log : List EngineAction} (h : ∀ a ∈ log, Unmarked a) (restart : Nat) :
    ∀ op ∈ engineOps world counters restart log, Quiet op := by
  induction log generalizing restart with
  | nil =>
      intro op hop
      cases hop
  | cons a rest ih =>
      obtain ⟨ha, hrest⟩ := List.forall_mem_cons.mp h
      cases a with
      | wave retryCount =>
          intro op hop
          rcases List.mem_append.mp hop with hop | hop
          · exact waveOps_quiet _ _ _ op hop
          · exact ih hrest restart op hop
      | repair constraintId outcome =>
          cases outcome with
          | repaired version rewritten => exact ih hrest (restart + 1)
          | failed score => exact ih hrest restart
      | markFailed => exact absurd rfl ha.1
      | markResolved => exact absurd rfl ha.2
      | setAwaitingApproval =>
          intro op hop
          rcases List.mem_cons.mp hop with rfl | hop
          · intro p hp
            cases hp
            rfl
          · exact ih hrest restart op hop
      | _ => exact ih hrest restart

theorem engineOps_append (world : EngineWorld) (counters : Nat → Nat → WaveCounters)
    (log tail : List EngineAction) (restart : Nat) :
    ∃ restart', engineOps world counters restart (log ++ tail) =
      engineOps world counters restart log ++ engineOps world counters restart' tail := by
  induction log generalizing restart with
  | nil => exact ⟨restart, rfl⟩
  | cons a rest ih =>
      cases a with
      | wave retryCount =>
          obtain ⟨restart', hrest⟩ := ih restart
          exact ⟨restart', by simp [engineOps, hrest]⟩
      | repair constraintId outcome =>
          cases outcome with
          | repaired version rewritten => exact ih (restart + 1)
          | failed score => exact ih restart
      | markFailed =>
          obtain ⟨restart', hrest⟩ := ih restart
          exact ⟨restart', by simp [engineOps, hrest]⟩
      | markResolved =>
          obtain ⟨restart', hrest⟩ := ih restart
          exact ⟨restart', by simp [engineOps, hrest]⟩
      | setAwaitingApproval =>
          obtain ⟨restart', hrest⟩ := ih restart
          exact ⟨restart', by simp [engineOps, hrest]⟩
      | _ => exact ih restart

/-- What a run logs when it gives up: `mark_failed` and the cleanup. -/
def GivesUp (a : EngineAction) : Prop := a = .markFailed ∨ a = .deleteSignalConsumer

theorem engineOps_givesUp (world : EngineWorld) (counters : Nat → Nat → WaveCounters)
    {log : List EngineAction} (h : ∀ a ∈ log, GivesUp a) (restart : Nat) :
    ∀ op ∈ engineOps world counters restart log, op = .markFailed := by
  induction log generalizing restart with
  | nil =>
      intro op hop
      cases hop
  | cons a rest ih =>
      obtain ⟨ha, hrest⟩ := List.forall_mem_cons.mp h
      rcases ha with rfl | rfl
      · intro op hop
        rcases List.mem_cons.mp hop with rfl | hop
        · rfl
        · exact ih hrest restart op hop
      · exact ih hrest restart

/-! ## Ends of a run -/

/-- Every exhaustion that the run reaches is left without an answer of the synthesis wave. -/
def NoLateSynthesis (input : EngineInput) (world : EngineWorld) : Prop :=
  ∀ restart graft c s, ExhaustionPoint input world restart graft c s →
    synthesisWave input (world.synthesis restart) graft c s.constraintCorpus = none

/-- A log without marks, and at its end, unless the run succeeds, those of giving up. -/
def LogEnds (result : EngineResult) (log : List EngineAction) : Prop :=
  ∃ quiet tail, log = quiet ++ tail ∧ (∀ a ∈ quiet, Unmarked a) ∧ (∀ a ∈ tail, GivesUp a) ∧
    ∀ out, result = .ok out → tail = []

variable {input : EngineInput} {world : EngineWorld}

theorem admits_unmarked : Admits input world Unmarked where
  wave _ := ⟨by simp, by simp⟩
  postSelection _ := ⟨by simp, by simp⟩
  decision _ _ := ⟨by simp, by simp⟩
  repairGuard _ := ⟨by simp, by simp⟩
  repair _ _ := ⟨by simp, by simp⟩

theorem logEnds_quiet {result : EngineResult} {s : EngineState} (h : s.Logs Unmarked) :
    LogEnds result s.log :=
  ⟨s.log, [], (List.append_nil _).symm, h, by simp, fun _ _ => rfl⟩

theorem logEnds_failed {e : EngineError × EngineRunContext} {s s' : EngineState}
    {tail : List EngineAction} (before : s.Logs Unmarked) (h : Appends s s' tail)
    (gives : ∀ a ∈ tail, GivesUp a) : LogEnds (.error e) s'.log :=
  ⟨s.log, tail, h.log, before, gives, fun out hout => by cases hout⟩

theorem deleteConsumer_unmarked (s : EngineState) : ∀ a ∈ deleteConsumer input s, Unmarked a := by
  intro a ha
  unfold deleteConsumer at ha
  split at ha
  next =>
    rw [List.mem_singleton.mp ha]
    exact ⟨by simp, by simp⟩
  next => cases ha

theorem gateActions_unmarked (out : EngineOutput) (gate : GateRecord) :
    ∀ a ∈ gateActions input out gate, Unmarked a := by
  intro a ha
  unfold gateActions at ha
  simp only [List.cons_append, List.mem_cons, List.mem_append, List.mem_ite_nil_right,
    List.not_mem_nil, or_false] at ha
  rcases ha with rfl | ⟨-, rfl⟩ | rfl | ⟨-, rfl⟩ <;> exact ⟨by simp, by simp⟩

theorem resolveRun_log (world : GateWorld) (out : EngineOutput) {s : EngineState}
    (before : s.Logs Unmarked) :
    LogEnds (resolveRun input world out s).1 (resolveRun input world out s).2.log := by
  rcases resolveRun_cases input world out s with ⟨what, s', happends, heq⟩ | ⟨s', happends, heq⟩
  · rw [heq]
    exact logEnds_quiet (happends.logs before (by simp))
  · rw [heq]
    exact logEnds_quiet (happends.logs before (deleteConsumer_unmarked s))

theorem returnArm_log (world : GateWorld) (out : EngineOutput) {s : EngineState}
    (before : s.Logs Unmarked) :
    LogEnds (returnArm input world out s).1 (returnArm input world out s).2.log := by
  have hgate : (hitlGate input world out s).2.Logs Unmarked :=
    (hitlGate_appends input world out s).logs before (gateActions_unmarked out _)
  rcases returnArm_cases input world out s with
    ⟨-, heq⟩ | ⟨-, -, heq⟩ | ⟨-, -, operatorId, note, heq⟩
  · rw [heq]
    exact resolveRun_log world out before
  · rw [heq]
    exact resolveRun_log world out hgate
  · rw [heq]
    refine logEnds_failed hgate (appends_note _ _) ?_
    intro a ha
    rcases List.mem_cons.mp ha with rfl | hdelete
    · exact .inl rfl
    · split at hdelete
      next => exact .inr (List.mem_singleton.mp hdelete)
      next => cases hdelete

theorem cleanup_givesUp (s : EngineState) :
    ∀ a ∈ EngineAction.markFailed :: deleteConsumer input s, GivesUp a :=
  cleanup_logs input (.inl rfl) (.inr rfl) s

theorem decidedState_unmarked {restart retryCount : Nat} {cs : MapeKController × EngineState}
    (before : cs.2.Logs Unmarked) :
    (decidedState input world restart retryCount cs).Logs Unmarked :=
  decided_logs admits_unmarked ⟨by simp, by simp⟩ before

theorem runEnds_log (silent : NoLateSynthesis input world) {result : EngineResult}
    {s : EngineState} (h : RunEnds input world result s) : LogEnds result s.log := by
  cases h with
  | preLoop e _ => exact logEnds_quiet fun a ha => by cases ha
  | @wave restart retryCount cs _ _ start finish =>
      have hbefore := waveStart_logs admits_unmarked start
      cases finish with
      | deadline budgetSecs =>
          refine logEnds_failed hbefore (appends_note _ _) ?_
          intro a ha
          exact .inl (List.mem_singleton.mp ha)
      | checkpoint what =>
          have hadmits : Admits input world Unmarked := admits_unmarked
          exact logEnds_quiet (recordWave_logs hadmits retryCount _ hbefore)
      | returned out decided =>
          exact returnArm_log _ out (decidedState_unmarked hbefore)
      | failed e ctx decided =>
          exact logEnds_failed (decidedState_unmarked hbefore) (appends_note _ _)
            (cleanup_givesUp _)
      | overflow score rationale ctx decided =>
          refine logEnds_failed (decidedState_unmarked hbefore) (appends_note _ _) ?_
          intro a ha
          exact .inl (List.mem_singleton.mp ha)
  | @exhausted restart graft c s₁ _ _ point ended =>
      have hsilent := silent restart graft c s₁ point
      have hcorpus := (appends_note s₁ (.markFailed :: deleteConsumer input s₁)).corpus
      unfold exhausted at ended
      simp only [hcorpus, hsilent, Prod.mk.injEq] at ended
      obtain ⟨rfl, rfl⟩ := ended
      exact logEnds_failed (exhaustionPoint_logs admits_unmarked point) (appends_note _ _)
        (cleanup_givesUp s₁)
  | @refused restart signal c s₁ ctx point _ =>
      have hadmits : Admits input world Unmarked := admits_unmarked
      exact logEnds_quiet (guardRepair_logs hadmits signal (repairPoint_logs hadmits point))

/-! ## A whole run -/

theorem quiet_insert (tenant : TenantId) : Quiet (.insert tenant) := by
  intro p hp
  cases hp
  rfl

theorem keeps_markFailed : Keeps .failed .markFailed := by
  intro p hp
  cases hp
  rfl

theorem keeps_markResolved : Keeps .resolved .markResolved := by
  intro p hp
  cases hp
  rfl

/-- A run that fails has nothing but `mark_failed` behind its quiet part. -/
theorem endsOnce_failed {front back : List StoreOp} (quiet : ∀ op ∈ front, Quiet op)
    (marks : ∀ op ∈ back, op = .markFailed) : EndsOnce (front ++ back) := by
  refine ⟨front, back, .failed, rfl, quiet, rfl, ?_⟩
  intro op hop
  rw [marks op hop]
  exact keeps_markFailed

theorem preLoop_endsOnce (tenant : TenantId) (e : EngineError) :
    EndsOnce (.insert tenant :: ((if preLoopMarksFailed e then [.markFailed] else []) ++
      [.markFailed])) := by
  have hquiet : ∀ op ∈ [StoreOp.insert tenant], Quiet op := by
    intro op hop
    rw [List.mem_singleton.mp hop]
    exact quiet_insert tenant
  refine endsOnce_failed hquiet ?_
  intro op hop
  rcases List.mem_append.mp hop with hmark | hend
  · split at hmark
    next => exact List.mem_singleton.mp hmark
    next => cases hmark
  · exact List.mem_singleton.mp hend

theorem loggedOps_endsOnce (counters : Nat → Nat → WaveCounters) (tenant : TenantId)
    {result : EngineResult} {log : List EngineAction} (h : LogEnds result log) :
    EndsOnce (.insert tenant :: (engineOps world counters 0 log ++ [pipelineEnd result])) := by
  obtain ⟨quiet, tail, rfl, hquiet, htail, hok⟩ := h
  obtain ⟨restart', happend⟩ := engineOps_append world counters quiet tail 0
  have hfront : ∀ op ∈ StoreOp.insert tenant :: engineOps world counters 0 quiet, Quiet op := by
    intro op hop
    rcases List.mem_cons.mp hop with rfl | hop
    · exact quiet_insert tenant
    · exact engineOps_quiet world counters hquiet 0 op hop
  rw [happend, List.append_assoc, ← List.cons_append]
  cases result with
  | ok out =>
      refine ⟨_, _, .resolved, rfl, hfront, rfl, ?_⟩
      rw [hok out rfl]
      intro op hop
      rw [List.mem_singleton.mp hop]
      exact keeps_markResolved
  | error e =>
      refine endsOnce_failed hfront ?_
      intro op hop
      rcases List.mem_append.mp hop with htails | hend
      · exact engineOps_givesUp world counters htail restart' op htails
      · exact List.mem_singleton.mp hend

/-- Left without a late synthesis, a run writes one terminal phase at most. -/
theorem taskOps_endsOnce (silent : NoLateSynthesis input world)
    (counters : Nat → Nat → WaveCounters) (tenant : TenantId) (fuel : Nat) :
    EndsOnce (taskOps input world counters tenant fuel) := by
  unfold taskOps preLoopOps
  cases hpre : world.preLoopError with
  | some e =>
      have hrun : runOffline input world fuel =
          some (.error (e, emptyContext), initialState input world) := by
        simp [runOffline, hpre]
      rw [hrun]
      simpa [initialState, engineOps, pipelineEnd] using preLoop_endsOnce tenant e
  | none =>
      cases hrun : runOffline input world fuel with
      | some ended =>
          exact loggedOps_endsOnce counters tenant (runEnds_log silent (runOffline_ends _ _ hrun))
      | none =>
          refine ⟨_, [], .failed, (List.append_nil _).symm, ?_, rfl, by simp⟩
          intro op hop
          rcases List.mem_cons.mp hop with rfl | hop
          · exact quiet_insert tenant
          · dsimp only at hop
            split at hop
            next s hstart =>
              exact engineOps_quiet world counters (iterationStart_logs admits_unmarked hstart) 0
                op hop
            next => cases hop

/-! ## The system -/

/-- A merge writes when the run has nothing left to write but `mark_resolved`, and not over
"failed". -/
def MergesBehindRun (id : TaskId) (s : TaskSystem) : TaskAction → Prop
  | .mergeWrite =>
      s.run.all (· == .markResolved) = true ∧ phaseOf s.store id ≠ some TaskPhase.failed.toNat
  | _ => True

/-- What is left of the run keeps a terminal phase that is reached. -/
structure Settling (id : TaskId) (s : TaskSystem) : Prop where
  present : ∃ phase, phaseOf s.store id = some phase
  once : EndsOnce s.run
  kept : ∀ phase, TaskPhase.terminal phase = true → phaseOf s.store id = some phase.toNat →
    ∀ op ∈ s.run, Keeps phase op

theorem EndsOnce.tail {op : StoreOp} {rest : List StoreOp} (h : EndsOnce (op :: rest)) :
    EndsOnce rest := by
  obtain ⟨front, back, phase, hops, hfront, hphase, hback⟩ := h
  cases front with
  | nil =>
      rw [List.nil_append] at hops
      subst hops
      exact ⟨[], rest, phase, rfl, by simp, hphase, fun o ho => hback o (List.mem_cons_of_mem _ ho)⟩
  | cons first front =>
      rw [List.cons_append, List.cons.injEq] at hops
      exact ⟨front, back, phase, hops.2, fun o ho => hfront o (List.mem_cons_of_mem _ ho), hphase,
        hback⟩

/-- The operation that writes a terminal phase is followed by operations that keep it. -/
theorem EndsOnce.marks {op : StoreOp} {rest : List StoreOp} (h : EndsOnce (op :: rest))
    {phase : TaskPhase} (hop : op.phase? = some phase) (hphase : phase.terminal = true) :
    ∀ o ∈ rest, Keeps phase o := by
  obtain ⟨front, back, last, hops, hfront, -, hback⟩ := h
  cases front with
  | nil =>
      rw [List.nil_append] at hops
      subst hops
      have hsame : phase = last := hback op List.mem_cons_self phase hop
      rw [hsame]
      exact fun o ho => hback o (List.mem_cons_of_mem _ ho)
  | cons first front =>
      rw [List.cons_append, List.cons.injEq] at hops
      have hquiet := hfront first List.mem_cons_self phase (by rw [← hops.1]; exact hop)
      rw [hphase] at hquiet
      cases hquiet

variable {id : TaskId} {s s' : TaskSystem} {action : TaskAction}

theorem Settling.runOp (inv : Settling id s) {op : StoreOp} {rest : List StoreOp}
    (hrun : s.run = op :: rest) :
    Settling id { s with store := op.apply s.store id, run := rest } ∧
      ∀ phase, TaskPhase.terminal phase = true → phaseOf s.store id = some phase.toNat →
        phaseOf (op.apply s.store id) id = some phase.toNat := by
  obtain ⟨old, hold⟩ := inv.present
  have hnew := apply_phaseOf hold op
  have honce := inv.once
  rw [hrun] at honce
  refine ⟨⟨⟨_, hnew⟩, honce.tail, ?_⟩, ?_⟩
  · intro phase hphase hreached
    rw [hnew, Option.some.injEq] at hreached
    cases hwrites : op.phase? with
    | some written =>
        simp only [hwrites, Option.map_some, Option.getD_some] at hreached
        have hsame : written = phase := TaskPhase.toNat_injective hreached
        subst hsame
        exact honce.marks hwrites hphase
    | none =>
        simp only [hwrites, Option.map_none, Option.getD_none] at hreached
        have hkept := inv.kept phase hphase (by rw [hold, hreached])
        rw [hrun] at hkept
        exact fun o ho => hkept o (List.mem_cons_of_mem _ ho)
  · intro phase hphase hreached
    have hkept := inv.kept phase hphase hreached op (by rw [hrun]; exact List.mem_cons_self)
    rw [hold, Option.some.injEq] at hreached
    rw [hnew]
    cases hwrites : op.phase? with
    | some written =>
        rw [hkept written hwrites]
        rfl
    | none => simp [hreached]

theorem Settling.mergeWrite (inv : Settling id s)
    (behindRun : s.run.all (· == .markResolved) = true) (merges : Nat) :
    Settling id { s with store := s.store.markResolved id, merges := merges } := by
  obtain ⟨old, hold⟩ := inv.present
  have hnew : phaseOf (s.store.markResolved id) id = some TaskPhase.resolved.toNat :=
    apply_phaseOf hold .markResolved
  refine ⟨⟨_, hnew⟩, inv.once, ?_⟩
  intro phase hphase hreached op hop
  rw [hnew, Option.some.injEq] at hreached
  rw [← TaskPhase.toNat_injective hreached]
  rw [beq_iff_eq.mp (List.all_eq_true.mp behindRun op hop)]
  exact keeps_markResolved

/-- A step keeps the invariant, and a terminal phase. -/
theorem Settling.step (inv : Settling id s) (condition : MergesBehindRun id s action)
    (h : taskStep id s action = some s') :
    Settling id s' ∧ ∀ phase, TaskPhase.terminal phase = true →
      phaseOf s.store id = some phase.toNat → phaseOf s'.store id = some phase.toNat := by
  cases action with
  | runOp =>
      simp only [taskStep] at h
      split at h
      next => cases h
      next op rest hrun =>
        cases h
        exact inv.runOp hrun
  | mergeCheck tenant =>
      simp only [taskStep, Option.some.injEq] at h
      subst h
      split
      next => exact ⟨⟨inv.present, inv.once, inv.kept⟩, fun _ _ hreached => hreached⟩
      next => exact ⟨inv, fun _ _ hreached => hreached⟩
  | mergeWrite =>
      simp only [taskStep] at h
      split at h
      next => cases h
      next merges hmerges =>
        cases h
        refine ⟨inv.mergeWrite condition.1 merges, ?_⟩
        intro phase hphase hreached
        have hresolved : phase = .resolved := by
          cases phase with
          | resolved => rfl
          | failed => exact absurd hreached condition.2
          | _ => cases hphase
        subst hresolved
        exact apply_phaseOf hreached .markResolved
  | mergeFails =>
      simp only [taskStep] at h
      split at h
      next => cases h
      next merges hmerges =>
        cases h
        exact ⟨⟨inv.present, inv.once, inv.kept⟩, fun _ _ hreached => hreached⟩

theorem submitted_settling (store : TaskStore) (tenant : TenantId) {ops : List StoreOp}
    (once : EndsOnce ops) : Settling id (TaskSystem.submitted store id tenant ops) := by
  have hphase : phaseOf (TaskSystem.submitted store id tenant ops).store id =
      some TaskPhase.bootstrap.toNat := by
    simp [TaskSystem.submitted, TaskStore.insert, phaseOf, TaskState.new]
  refine ⟨⟨_, hphase⟩, once, ?_⟩
  intro phase hterminal hreached
  rw [hphase, Option.some.injEq] at hreached
  rw [← TaskPhase.toNat_injective hreached] at hterminal
  cases hterminal

/-- For every task, every run of it with any outcome of its waves, and any interleaving of
the run's store operations with merge requests: if no exhaustion of the run is answered by
its synthesis wave, and every merge writes only when the run has nothing left to write but
`mark_resolved` and the task is not failed, then from the first state in which the task is
no longer active its phase stays the same, and it is never active again. -/
theorem terminal_phase_absorbing (input : EngineInput) (world : EngineWorld)
    (counters : Nat → Nat → WaveCounters) (fuel : Nat) (silent : NoLateSynthesis input world)
    (store : TaskStore) (id : TaskId) (tenant : TenantId) (before after : List TaskAction)
    (s₁ s₂ : TaskSystem)
    (reached : runActions (taskStep id)
      (.submitted store id tenant (taskOps input world counters tenant fuel)) before = some s₁)
    (behind₁ : RunMeets (taskStep id) (MergesBehindRun id)
      (.submitted store id tenant (taskOps input world counters tenant fuel)) before)
    (run : runActions (taskStep id) s₁ after = some s₂)
    (behind₂ : RunMeets (taskStep id) (MergesBehindRun id) s₁ after)
    (inactive : s₁.store.isActive id = false) :
    phaseOf s₂.store id = phaseOf s₁.store id ∧ s₂.store.isActive id = false := by
  have hsettling : Settling id s₁ :=
    runMeets_holds (fun _ _ _ inv condition h => (inv.step condition h).1)
      (submitted_settling store tenant (taskOps_endsOnce silent counters tenant fuel)) behind₁
      reached
  obtain ⟨old, hold⟩ := hsettling.present
  have hterminal : ∃ phase, TaskPhase.terminal phase = true ∧ old = phase.toNat := by
    rcases (isActive_eq_false_iff hold).mp inactive with rfl | rfl
    · exact ⟨.resolved, rfl, rfl⟩
    · exact ⟨.failed, rfl, rfl⟩
  obtain ⟨phase, hphase, rfl⟩ := hterminal
  -- along the rest of the run: the invariant, and the phase that was reached
  have hend : Settling id s₂ ∧ phaseOf s₂.store id = some phase.toNat := by
    refine runMeets_holds
      (I := fun s => Settling id s ∧ phaseOf s.store id = some phase.toNat) ?_
      ⟨hsettling, hold⟩ behind₂ run
    intro s action s' inv condition h
    obtain ⟨hinv, hkeeps⟩ := inv.1.step condition h
    exact ⟨hinv, hkeeps phase hphase inv.2⟩
  refine ⟨by rw [hend.2, hold], ?_⟩
  rw [isActive_eq_false_iff hend.2]
  exact (isActive_eq_false_iff hold).mp inactive

section Example

def waveCounters : Nat → Nat → WaveCounters := fun _ _ => ⟨1, 1, [true], [true]⟩

def sampleTask : TaskId :=
  ⟨"3f1c2a90-7d4e-4b6a-8c55-9e0d1f2a3b4c", isUuidChar_workedRun⟩

def acme : TenantId := ⟨"acme"⟩

/-- One wave that resolves. -/
def resolvedOps : List StoreOp :=
  taskOps plainInput (plainWorld (plainWave (plainPhases "answer"))) waveCounters acme 1

instance decidableMergesBehindRun (s : TaskSystem) (action : TaskAction) :
    Decidable (MergesBehindRun sampleTask s action) := by
  unfold MergesBehindRun
  split <;> infer_instance

def submittedTask (ops : List StoreOp) : TaskSystem :=
  .submitted (fun _ => none) sampleTask acme ops

def systemAfter (s : TaskSystem) (actions : List TaskAction) : TaskSystem :=
  (runActions (taskStep sampleTask) s actions).getD s

theorem systemAfter_eq {s : TaskSystem} {actions : List TaskAction}
    (h : (runActions (taskStep sampleTask) s actions).isSome = true) :
    runActions (taskStep sampleTask) s actions = some (systemAfter s actions) := by
  obtain ⟨s', hs'⟩ := Option.isSome_iff_exists.mp h
  rw [systemAfter, hs']
  rfl

/-- A merge is accepted while the run is about to write its last operation. -/
def mergeAtTheEnd : List TaskAction := List.replicate 8 .runOp ++ [.mergeCheck acme, .runOp]

/-- The merge writes over the resolved task. -/
theorem merge_behind_run_keeps_phase :
    phaseOf (systemAfter (systemAfter (submittedTask resolvedOps) mergeAtTheEnd)
        [.mergeWrite]).store sampleTask = some TaskPhase.resolved.toNat ∧
      (systemAfter (systemAfter (submittedTask resolvedOps) mergeAtTheEnd)
        [.mergeWrite]).store.isActive sampleTask = false := by
  have hstays := terminal_phase_absorbing plainInput
    (plainWorld (plainWave (plainPhases "answer"))) waveCounters 1
    (fun _ graft c s _ => synthesisWave_unanswered rfl rfl rfl graft c s.constraintCorpus)
    (fun _ => none) sampleTask acme mergeAtTheEnd [.mergeWrite]
    (systemAfter (submittedTask resolvedOps) mergeAtTheEnd)
    (systemAfter (systemAfter (submittedTask resolvedOps) mergeAtTheEnd) [.mergeWrite])
    (systemAfter_eq (by decide +kernel)) (by decide +kernel)
    (systemAfter_eq (by decide +kernel)) (by decide +kernel) (by decide +kernel)
  have hresolved : phaseOf (systemAfter (submittedTask resolvedOps) mergeAtTheEnd).store
      sampleTask = some TaskPhase.resolved.toNat := by decide +kernel
  exact ⟨hstays.1.trans hresolved, hstays.2⟩

/-- All waves fail, and the synthesis wave writes a text that passes. -/
def lateSynthesisOps : List StoreOp :=
  taskOps { plainInput with constraintCorpus := [sessionDoc] }
    { plainWorld (prunedWave none) with
      synthesis := fun _ =>
        ⟨none, none, some "sign a jwt with the issuer", "explorer-s", plainVerifier⟩ }
    waveCounters acme 1

/-- A merge resolves the task before its run begins, and the run makes it active again. An
exhausted run marks the task failed, and its next operation resolves it. -/
theorem terminal_phases_are_left :
    ((runActions (taskStep sampleTask) (submittedTask resolvedOps)
        [.mergeCheck acme, .mergeWrite]).map (·.store.isActive sampleTask) = some false ∧
      (runActions (taskStep sampleTask) (submittedTask resolvedOps)
        [.mergeCheck acme, .mergeWrite, .runOp]).map (·.store.isActive sampleTask) = some true) ∧
    ((runActions (taskStep sampleTask) (submittedTask lateSynthesisOps)
        (List.replicate 23 .runOp)).map (phaseOf ·.store sampleTask) =
          some (some TaskPhase.failed.toNat) ∧
      (runActions (taskStep sampleTask) (submittedTask lateSynthesisOps)
        (List.replicate 24 .runOp)).map (phaseOf ·.store sampleTask) =
          some (some TaskPhase.resolved.toNat)) := by
  refine ⟨⟨?_, ?_⟩, ?_, ?_⟩
  · decide +kernel
  · decide +kernel
  · decide +kernel
  · decide +kernel

end Example

end ControlPlane.Guarantees.TerminalPhases
