import ControlPlane.Source.Engine.EngineLogs

/-!
# Approval gate of the engine

Two guarantees about every run that needs a human approval. The gate stands in
front of the success of a returned wave, so a run succeeds without it exactly
when the terminal synthesis wave delivers. At the gate only the first delivery
counts, so a rejection is honoured exactly when that delivery is a verdict.
-/
namespace ControlPlane.Guarantees.ApprovalGate

open Source.Engine Source.MapeK Source.Config Source.Constraints Lib

/-! ## Success behind the gate -/

/-- The log shows an approval gate that was opened, decided and passed. -/
def Approved (input : EngineInput) (log : List EngineAction) : Prop :=
  ∃ before after out gate, log = before ++ gateActions input out gate ++ after ∧
    gate.decision.approved = true

def NotGate (a : EngineAction) : Prop := ∀ gate, a ≠ .hitlGate gate

/-- Before a run ends no gate was opened. -/
theorem admits_notGate (input : EngineInput) (world : EngineWorld) :
    Admits input world NotGate where
  wave := fun _ _ => EngineAction.noConfusion
  postSelection := fun _ _ => EngineAction.noConfusion
  decision := fun _ _ _ => EngineAction.noConfusion
  repairGuard := fun _ _ => EngineAction.noConfusion
  repair := fun _ _ _ => EngineAction.noConfusion

theorem gate_mem_gateActions (input : EngineInput) (out : EngineOutput) (gate : GateRecord) :
    EngineAction.hitlGate gate ∈ gateActions input out gate := by
  unfold gateActions
  exact List.mem_append_right _ List.mem_cons_self

theorem not_approved_of_notGate {input : EngineInput} {s : EngineState} (h : s.Logs NotGate) :
    ¬ Approved input s.log := by
  rintro ⟨before, after, out, gate, hlog, -⟩
  have hmem : EngineAction.hitlGate gate ∈ s.log := by
    rw [hlog]
    exact List.mem_append_left _
      (List.mem_append_right _ (gate_mem_gateActions input out gate))
  exact h _ hmem gate rfl

/-- A returned wave that succeeds has passed the gate. -/
theorem returnArm_approved {input : EngineInput} {world : GateWorld} {out out' : EngineOutput}
    {s s' : EngineState} (needs : needsHitl input out = true)
    (h : returnArm input world out s = (.ok out', s')) : Approved input s'.log := by
  rcases returnArm_cases input world out s with
    ⟨hneeds, -⟩ | ⟨-, happroved, heq⟩ | ⟨-, -, operatorId, note, heq⟩
  · rw [needs] at hneeds
    cases hneeds
  · rw [heq] at h
    have hgate := hitlGate_appends input world out s
    rcases resolveRun_cases input world out (hitlGate input world out s).2 with
      ⟨what, s₁, -, hresolve⟩ | ⟨s₁, happends, hresolve⟩
    · rw [hresolve] at h
      cases h
    · rw [hresolve] at h
      cases h
      refine ⟨s.log, deleteConsumer input (hitlGate input world out s).2, out,
        gateRecord input world s, ?_, happroved⟩
      rw [happends.log, hgate.log]
  · rw [heq] at h
    cases h

/-- **The gate dominates success.** With approval required, every run that succeeds
has passed the gate exactly when no terminal synthesis wave of the run delivers. -/
theorem approval_dominates_success_iff (input : EngineInput) (world : EngineWorld)
    (enabled : input.cfg.hitl.enabled = true) (noOracle : input.oracle = false)
    (required : input.requireApproval = true) :
    (∀ fuel out s, runOffline input world fuel = some (.ok out, s) → Approved input s.log) ↔
      ∀ restart graft c s, ExhaustionPoint input world restart graft c s →
        synthesisWave input (world.synthesis restart) graft c s.constraintCorpus = none := by
  constructor
  · intro dominates restart graft c s point
    by_contra hdelivers
    obtain ⟨text, htext⟩ := Option.ne_none_iff_exists'.mp hdelivers
    have hrun := runOffline_of_exhaustion point
    have hok := exhausted_of_some world htext
    have hlogs : (exhausted input world restart graft c s).2.Logs NotGate :=
      exhausted_logs input world restart graft c
        (exhaustionPoint_logs (admits_notGate input world) point)
        (fun _ => EngineAction.noConfusion) (fun _ => EngineAction.noConfusion)
        (fun _ => EngineAction.noConfusion)
    have hpair : exhausted input world restart graft c s =
        (.ok (c.finalize (synthesisMerge input text)),
          (exhausted input world restart graft c s).2) := Prod.ext hok rfl
    rw [hpair] at hrun
    exact not_approved_of_notGate hlogs (dominates _ _ _ hrun)
  · intro silent fuel out s hrun
    have hneeds : ∀ out, needsHitl input out = true := by
      intro out
      simp [needsHitl, enabled, noOracle, required]
    rcases runOffline_ok input world hrun with
      ⟨restart, retryCount, cs, returned, -, -, hreturn⟩ |
      ⟨restart, graft, c, s₁, hpoint, hdelivers⟩
    · exact returnArm_approved (hneeds returned) hreturn
    · exact absurd (silent restart graft c s₁ hpoint) hdelivers

/-- A task under the reference config that asks for a human approval. -/
def reviewedInput : EngineInput :=
  { plainInput with constraintCorpus := [sessionDoc], requireApproval := true, nats := true }

/-- All waves fail, and the synthesis wave writes a text that passes. -/
def synthesisWorld : EngineWorld :=
  { plainWorld (prunedWave none) with
    synthesis := fun _ =>
      ⟨none, none, some "sign a jwt with the issuer", "explorer-s", plainVerifier⟩ }

def isGate : EngineAction → Bool
  | .hitlGate _ => true
  | _ => false

theorem notGate_of_isGate {s : EngineState} (h : s.log.any isGate = false) : s.Logs NotGate := by
  intro a ha gate hgate
  subst hgate
  have := List.any_eq_false.mp h _ ha
  simp [isGate] at this

/-- A run that exhausts its retries succeeds through the synthesis wave, and nobody
was asked. -/
theorem synthesis_skips_gate :
    ∃ out s, runOffline reviewedInput synthesisWorld 1 = some (.ok out, s) ∧
      ¬ Approved reviewedInput s.log := by
  have heval : (runOffline reviewedInput synthesisWorld 1).map
      (fun ended => (ended.1.toOption.isSome, ended.2.log.any isGate)) = some (true, false) := by
    decide +kernel
  obtain ⟨⟨result, s⟩, hrun, hended⟩ := Option.map_eq_some_iff.mp heval
  cases result with
  | error e => simp [Except.toOption] at hended
  | ok out =>
      refine ⟨out, s, hrun, not_approved_of_notGate (notGate_of_isGate ?_)⟩
      exact (Prod.mk.inj hended).2

/-- A wave resolves at once: the run succeeds, and every success of it was approved. -/
theorem resolved_task_passes_gate :
    let world := plainWorld (plainWave (plainPhases "answer"))
    (runOffline reviewedInput world 1).map (fun ended => ended.1.toOption.isSome) = some true ∧
      ∀ fuel out s, runOffline reviewedInput world fuel = some (.ok out, s) →
        Approved reviewedInput s.log := by
  refine ⟨by decide +kernel, ?_⟩
  refine (approval_dominates_success_iff reviewedInput _ rfl rfl rfl).mpr ?_
  intro restart graft c s _
  exact synthesisWave_unanswered rfl rfl rfl graft c s.constraintCorpus

/-! ## Verdicts at the gate -/

/-- The verdict of a delivery: an approval signal that has not expired. -/
def verdict (d : Delivery) : Option Bool :=
  match d.item with
  | .signal ⟨.approve approved _ _, timeoutAtMs⟩ =>
      if d.nowMs ≤ timeoutAtMs then some approved else none
  | _ => none

/-- A rejection comes before every approval. -/
def RejectedFirst (deliveries : List Delivery) : Prop :=
  ∃ before d after, deliveries = before ++ d :: after ∧ verdict d = some false ∧
    ∀ e ∈ before, verdict e ≠ some true

/-- What a gate owes to its deliveries: a rejection ends the run with it, and only
an approval that has not expired is answered with an approval. -/
structure Honoured (gate : GateRecord) (result : EngineResult) : Prop where
  rejection : RejectedFirst gate.deliveries →
    ∃ operatorId note ctx, result = .error (.hitlRejected operatorId note, ctx)
  approval : ∀ d, gate.taken = some d → gate.decision.approved = true → verdict d = some true

/-- The first delivery decides by itself: it is a verdict, or there is none, or it
could not be read and no rejection follows. -/
def FirstDecides : List Delivery → Prop
  | [] => True
  | d :: rest => (verdict d).isSome = true ∨
      (d.item = .unreadable ∧ ¬ RejectedFirst (d :: rest))

theorem not_rejectedFirst_of_approval {d : Delivery} (rest : List Delivery)
    (approval : verdict d = some true) : ¬ RejectedFirst (d :: rest) := by
  rintro ⟨before, e, after, heq, hrejects, hbefore⟩
  cases before with
  | nil =>
      cases heq
      rw [approval] at hrejects
      cases hrejects
  | cons first before =>
      cases heq
      exact hbefore d List.mem_cons_self approval

theorem signalWait_of_verdict {d : Delivery} (rest : List Delivery) {approved : Bool}
    (h : verdict d = some approved) : (signalWait true (d :: rest)).approved = approved := by
  rcases d with ⟨item, nowMs⟩
  unfold verdict at h
  split at h
  · rename_i decided note operatorId timeoutAtMs hitem
    simp only at hitem
    subst hitem
    split at h
    · rename_i hlive
      have hnot : ¬ timeoutAtMs < nowMs := Nat.not_lt.mpr hlive
      cases h
      simp [signalWait, hnot, resolveAction]
    · cases h
  · cases h

/-- Whatever is not a verdict is answered with an approval. -/
theorem signalWait_of_no_verdict {d : Delivery} (rest : List Delivery) (h : verdict d = none) :
    (signalWait true (d :: rest)).approved = true := by
  rcases d with ⟨item, nowMs⟩
  cases item with
  | unreadable => rfl
  | signal sig =>
      rcases sig with ⟨payload, timeoutAtMs⟩
      by_cases hlate : timeoutAtMs < nowMs
      · simp [signalWait, hlate]
      · cases payload with
        | approve approved note operatorId =>
            have hlive : nowMs ≤ timeoutAtMs := by omega
            simp [verdict, hlive] at h
        | waveContinue grounding mandate => simp [signalWait, hlate, resolveAction]
        | unknown => simp [signalWait, hlate, resolveAction]

section Deliveries

variable {d : Delivery} {result : EngineResult}

/-- A verdict that comes first is honoured. -/
theorem honoured_of_verdict (rest : List Delivery) {approved : Bool}
    (h : verdict d = some approved)
    (rejects : (signalWait true (d :: rest)).approved = false →
      ∃ operatorId note ctx, result = .error (.hitlRejected operatorId note, ctx)) :
    Honoured ⟨d :: rest, signalTaken (d :: rest), signalWait true (d :: rest)⟩ result := by
  have hdecision := signalWait_of_verdict rest h
  cases approved with
  | true =>
      refine ⟨fun hrejected => absurd hrejected (not_rejectedFirst_of_approval rest h), ?_⟩
      intro taken htaken _
      rcases d with ⟨item, nowMs⟩
      cases item with
      | unreadable => cases htaken
      | signal sig =>
          cases htaken
          exact h
  | false =>
      refine ⟨fun _ => rejects hdecision, ?_⟩
      intro taken _ happroved
      rw [hdecision] at happroved
      cases happroved

/-- Nothing is taken, and the timeout approves. -/
theorem honoured_of_unreadable_iff (nowMs : Nat) (rest : List Delivery)
    (accepts : ¬ ∃ operatorId note ctx, result = .error (.hitlRejected operatorId note, ctx)) :
    Honoured ⟨⟨.unreadable, nowMs⟩ :: rest, signalTaken (⟨.unreadable, nowMs⟩ :: rest),
        signalWait true (⟨.unreadable, nowMs⟩ :: rest)⟩ result ↔
      FirstDecides (⟨.unreadable, nowMs⟩ :: rest) := by
  constructor
  · intro h
    exact Or.inr ⟨rfl, fun hrejected => accepts (h.rejection hrejected)⟩
  · intro h
    rcases h with hsome | ⟨-, hnone⟩
    · cases hsome
    · refine ⟨fun hrejected => absurd hrejected hnone, ?_⟩
      intro d htaken
      cases htaken

/-- A signal that is no verdict is taken for an approval. -/
theorem not_honoured_of_no_verdict {sig : ResumeSignal} {nowMs : Nat} (rest : List Delivery)
    (h : verdict ⟨.signal sig, nowMs⟩ = none) :
    ¬ Honoured ⟨⟨.signal sig, nowMs⟩ :: rest, signalTaken (⟨.signal sig, nowMs⟩ :: rest),
        signalWait true (⟨.signal sig, nowMs⟩ :: rest)⟩ result ∧
      ¬ FirstDecides (⟨.signal sig, nowMs⟩ :: rest) := by
  refine ⟨?_, ?_⟩
  · intro honoured
    have happroval := honoured.approval _ rfl (signalWait_of_no_verdict rest h)
    rw [h] at happroval
    cases happroval
  · intro hfirst
    rcases hfirst with hsome | ⟨hitem, -⟩
    · rw [h] at hsome
      cases hsome
    · cases hitem

end Deliveries

/-- The gate takes one delivery and answers to it, whatever it is. -/
theorem honoured_iff {subscribed : Bool} {deliveries : List Delivery} {result : EngineResult}
    (unsubscribed : subscribed = false → deliveries = [])
    (rejects : (signalWait subscribed deliveries).approved = false →
      ∃ operatorId note ctx, result = .error (.hitlRejected operatorId note, ctx))
    (accepts : (signalWait subscribed deliveries).approved = true →
      ¬ ∃ operatorId note ctx, result = .error (.hitlRejected operatorId note, ctx)) :
    Honoured ⟨deliveries, signalTaken deliveries, signalWait subscribed deliveries⟩ result ↔
      FirstDecides deliveries := by
  cases deliveries with
  | nil =>
      refine iff_of_true ⟨?_, ?_⟩ trivial
      · rintro ⟨before, d, after, heq, -⟩
        simp at heq
      · intro d htaken
        cases htaken
  | cons d rest =>
      have hsub : subscribed = true := by
        cases subscribed with
        | true => rfl
        | false => exact absurd (unsubscribed rfl) (List.cons_ne_nil d rest)
      subst hsub
      cases hverdict : verdict d with
      | some approved =>
          exact iff_of_true (honoured_of_verdict rest hverdict rejects)
            (Or.inl (by rw [hverdict]; rfl))
      | none =>
          rcases d with ⟨item, nowMs⟩
          cases item with
          | unreadable =>
              exact honoured_of_unreadable_iff nowMs rest
                (accepts (signalWait_of_no_verdict rest hverdict))
          | signal sig =>
              obtain ⟨hnot, hfirst⟩ := not_honoured_of_no_verdict rest hverdict
              exact iff_of_false hnot hfirst

/-- A wave opens the gate for `out`. -/
structure GateOpens (input : EngineInput) (world : EngineWorld) (restart retryCount : Nat)
    (cs : MapeKController × EngineState) (out : EngineOutput) : Prop where
  start : WaveStart input world restart retryCount cs
  inTime : (input.cfg.taskDeadlineSecs.isSome &&
    (world.wave restart retryCount).deadlinePassed) = false
  written : checkpointError input
    (recordWave cs.2 retryCount (waveRun input world restart retryCount cs))
    (world.wave restart retryCount).checkpointWritten = none
  decided : (waveDecision input world restart retryCount cs).1 = .return out
  needs : needsHitl input out = true

theorem GateOpens.runs {input : EngineInput} {world : EngineWorld} {restart retryCount : Nat}
    {cs : MapeKController × EngineState} {out : EngineOutput}
    (h : GateOpens input world restart retryCount cs out) :
    runOffline input world (restart + 1) =
      some (returnArm input (world.wave restart retryCount).gate out
        (decidedState input world restart retryCount cs)) := by
  refine runOffline_of_finish h.start ?_
  unfold waveBody
  simp only [h.inTime, h.written, h.decided, Bool.false_eq_true, ↓reduceIte]
  rfl

/-- **A rejection is honoured.** A gate that opens ends the run, and it honours the
signals delivered to it exactly when the first of them decides by itself. -/
theorem rejection_honoured_iff (input : EngineInput) (world : EngineWorld)
    (restart retryCount : Nat) (cs : MapeKController × EngineState) (out : EngineOutput)
    (opens : GateOpens input world restart retryCount cs out) :
    let gate := gateRecord input (world.wave restart retryCount).gate
      (decidedState input world restart retryCount cs)
    ∃ result s, runOffline input world (restart + 1) = some (result, s) ∧
      .hitlGate gate ∈ s.log ∧ (Honoured gate result ↔ FirstDecides gate.deliveries) := by
  intro gate
  have hrun := opens.runs
  have hgate := hitlGate_appends input (world.wave restart retryCount).gate out
    (decidedState input world restart retryCount cs)
  have hmem : EngineAction.hitlGate gate ∈ (hitlGate input (world.wave restart retryCount).gate
      out (decidedState input world restart retryCount cs)).2.log := by
    rw [hgate.log]
    exact List.mem_append_right _ (gate_mem_gateActions input out gate)
  have hunsub : (refreshSub input (decidedState input world restart retryCount cs)
      (world.wave restart retryCount).gate.subscribes).signalSub = false →
      gate.deliveries = [] := by
    intro hsub
    simp only [gate, gateRecord, gateDeliveries, hsub, Bool.false_eq_true, ↓reduceIte]
  rcases returnArm_cases input (world.wave restart retryCount).gate out
      (decidedState input world restart retryCount cs) with
    ⟨hneeds, -⟩ | ⟨-, happroved, heq⟩ | ⟨-, hrejected, operatorId, note, heq⟩
  · rw [opens.needs] at hneeds
    cases hneeds
  · -- approved: the run resolves, or fails on its checkpoint
    rw [heq] at hrun
    have hnot : gate.decision.approved = false → False := by
      intro hrejected
      rw [happroved] at hrejected
      cases hrejected
    rcases resolveRun_cases input (world.wave restart retryCount).gate out
        (hitlGate input (world.wave restart retryCount).gate out
          (decidedState input world restart retryCount cs)).2 with
      ⟨what, s, happends, hresolve⟩ | ⟨s, happends, hresolve⟩
    all_goals
      rw [hresolve] at hrun
      refine ⟨_, s, hrun, ?_, ?_⟩
      · rw [happends.log]
        exact List.mem_append_left _ hmem
      · refine honoured_iff hunsub (fun h => absurd h hnot) ?_
        rintro - ⟨operatorId, note, ctx, hresult⟩
        cases hresult
  · rw [heq] at hrun
    refine ⟨_, _, hrun, List.mem_append_left _ hmem, ?_⟩
    refine honoured_iff hunsub (fun _ => ⟨operatorId, note, emptyContext, rfl⟩) ?_
    intro happroved
    exact absurd (hrejected.symm.trans happroved) Bool.false_ne_true

/-- While the gate is open an operator first steers the next wave, then rejects. -/
def steeredSignals : List StreamItem :=
  [.signal ⟨.waveContinue (some "cite the runbook") none, 1000⟩,
    .signal ⟨.approve false (some "wrong issuer") "operator", 1000⟩]

def gateWorld (signals : List StreamItem) : EngineWorld :=
  plainWorld { plainWave (plainPhases "answer") with
    gate := ⟨true, signals, fun i => i, true, ⟨none, false, "high", "", 0⟩⟩ }

def loggedGates (log : List EngineAction) : List (List Delivery) :=
  log.filterMap fun a => match a with
    | .hitlGate gate => some gate.deliveries
    | _ => none

theorem gate_of_loggedGates {log : List EngineAction} {deliveries : List Delivery}
    (h : deliveries ∈ loggedGates log) :
    ∃ gate, .hitlGate gate ∈ log ∧ gate.deliveries = deliveries := by
  obtain ⟨a, ha, hgate⟩ := List.mem_filterMap.mp h
  cases a with
  | hitlGate gate => exact ⟨gate, ha, Option.some.inj hgate⟩
  | _ => cases hgate

/-- The steering signal is taken for an approval, and the rejected answer is returned. -/
theorem steering_signal_approves :
    ∃ out s gate, runOffline reviewedInput (gateWorld steeredSignals) 1 = some (.ok out, s) ∧
      .hitlGate gate ∈ s.log ∧ RejectedFirst gate.deliveries := by
  have heval : (runOffline reviewedInput (gateWorld steeredSignals) 1).map
      (fun ended => (ended.1.toOption.isSome, loggedGates ended.2.log)) =
        some (true, [steeredSignals.mapIdx fun i item => ⟨item, i⟩]) := by
    decide +kernel
  obtain ⟨⟨result, s⟩, hrun, hended⟩ := Option.map_eq_some_iff.mp heval
  obtain ⟨hok, hgates⟩ := Prod.mk.inj hended
  cases result with
  | error e => cases hok
  | ok out =>
      have hmem := List.mem_of_mem_head? (Option.mem_def.mpr (congrArg List.head? hgates))
      obtain ⟨gate, hgate, hdeliveries⟩ := gate_of_loggedGates hmem
      refine ⟨out, s, gate, hrun, hgate, ?_⟩
      rw [hdeliveries]
      refine ⟨[⟨.signal ⟨.waveContinue (some "cite the runbook") none, 1000⟩, 0⟩], _, [], rfl,
        rfl, ?_⟩
      intro e he
      rw [List.mem_singleton.mp he]
      decide

/-- A rejection that comes first ends the run. -/
theorem rejection_ends_run :
    let world := gateWorld [.signal ⟨.approve false none "operator", 1000⟩]
    ∃ cs out gate result s, GateOpens reviewedInput world 0 0 cs out ∧
      runOffline reviewedInput world 1 = some (result, s) ∧ .hitlGate gate ∈ s.log ∧
      (Honoured gate result ↔ FirstDecides gate.deliveries) := by
  intro world
  let cs : MapeKController × EngineState :=
    (freshController reviewedInput [sessionDoc], initialState reviewedInput world)
  have hreturns : (waveDecision reviewedInput world 0 0 cs).1.isReturn = true := by
    decide +kernel
  cases hdecision : (waveDecision reviewedInput world 0 0 cs).1 with
  | «return» out =>
      have hopens : GateOpens reviewedInput world 0 0 cs out :=
        { start := ⟨_, rfl, by decide, rfl⟩
          inTime := rfl
          written := rfl
          decided := hdecision
          needs := rfl }
      obtain ⟨result, s, hrun, hgate, hiff⟩ :=
        rejection_honoured_iff reviewedInput world 0 0 cs out hopens
      exact ⟨cs, out, _, result, s, hopens, hrun, hgate, hiff⟩
  | _ => simp [hdecision, MapeKDecision.isReturn] at hreturns

end ControlPlane.Guarantees.ApprovalGate
