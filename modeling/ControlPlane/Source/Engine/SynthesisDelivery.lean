import ControlPlane.Source.Engine.DppmWave
import ControlPlane.Source.Engine.EngineRuns
import ControlPlane.Source.Engine.Grafting

/-!
# What the synthesis wave delivers

Embeds the three paths of the terminal synthesis wave of `engine.rs` call by call: the
solvers and the merge attempts of the DPPM wave, sequential grafting, and the single shot.
A delivered text is told apart by where it comes from, an answer of the language model or
the best partial that was kept. Over it, the world of a run whose synthesis waves make
these calls.
-/
namespace ControlPlane.Source.Engine

open Constraints Verification Config MapeK Lib

/-! ## The calls of a wave -/

/-- Where a synthesis text comes from. -/
inductive Delivered where
  | answer (text : String)
  | kept (best : PartialPass)
  deriving DecidableEq, Repr

namespace Delivered

def text : Delivered → String
  | answer text => text
  | kept best => best.proposalText

def answered : Delivered → Option String
  | answer text => some text
  | kept _ => none

@[simp] theorem answered_getD (d : Delivered) (best : PartialPass)
    (h : ∀ p, d = kept p → p = best) : d.answered.getD best.proposalText = d.text := by
  cases d with
  | answer text => rfl
  | kept p => rw [← h p rfl]; rfl

end Delivered

/-- The limits of a synthesis wave and the answers to its calls. -/
structure SynthesisCalls where
  /-- `dppm.max_parallel_solvers`. -/
  maxParallelSolvers : Nat
  /-- `dppm.merge_max_retries`. -/
  mergeMaxRetries : Nat
  /-- `sequential_grafting_max_rounds`. -/
  graftMaxRounds : Nat
  /-- The answer to the solver call of a cluster. -/
  solver : Nat → Option String
  /-- The answer to a merge attempt. -/
  merge : Nat → Option String
  graft : GraftAdapter
  singleShot : Option String
  explorerId : String
  verifier : VerifierWorld

/-- `solver_outputs`. -/
def SynthesisCalls.solverOutputs (calls : SynthesisCalls) (corpus : List ConstraintDoc)
    (sorted : List PartialPass) : List (SolverCall × String) :=
  (dppmCalls corpus calls.maxParallelSolvers sorted).zipIdx.filterMap fun call =>
    (calls.solver call.2).map fun text => (call.1, text)

/-- The DPPM wave: the first merge attempt that is answered, or the best partial. -/
def dppmDelivery (calls : SynthesisCalls) (corpus : List ConstraintDoc) (best : PartialPass)
    (rest : List PartialPass) : Delivered :=
  if (calls.solverOutputs corpus (best :: rest)).isEmpty then .kept best
  else
    match (List.range (calls.mergeMaxRetries + 1)).findSome? calls.merge with
    | some text => .answer text
    | none => .kept best

/-- Sequential grafting: the last accepted answer, or the best partial. -/
def graftDelivery (g : GraftSetup) (adapter : GraftAdapter) (best : PartialPass)
    (rest : List PartialPass) : Delivered :=
  let last := graftLoop g adapter (.seed best) rest
  if last.roundsUsed = 0 then .kept best else .answer last.baseText

section Wave

variable (input : EngineInput) (calls : SynthesisCalls) (graft : Bool) (c : MapeKController)
  (corpus : List ConstraintDoc)

/-- What sequential grafting works with in this wave. -/
def graftSetup : GraftSetup :=
  { taskId := input.taskId
    tau := input.cfg.synthesis.tauValue
    corpus := corpus
    systemContext := c.systemContextWithRubric
    maxRounds := calls.graftMaxRounds
    verifier := calls.verifier
    config := c.verificationConfig }

/-- `max_chars` of the partials. -/
def wavePartialChars : Nat :=
  partialMaxChars input.cfg.modelMaxTokens 3 input.cfg.partialPassOverheadFactor

/-- `partial_passes`. -/
def wavePartials : List PartialPass :=
  selectOrthogonalPartials c.allPruned (allChecks corpus) (checkOffsets 0 corpus) 3
    (wavePartialChars input)

/-- The wave has checks, partials and an adapter. -/
def synthesisRuns : Bool :=
  (input.cfg.synthesis.waveEnabled || graft) && !(allChecks corpus).isEmpty &&
    !(wavePartials input c corpus).isEmpty &&
    (input.synthesisAdapter || decide (0 < input.explorerAdapters))

/-- `final_output`, with its origin. -/
def delivery : Option Delivered :=
  match sortedPartials (wavePartials input c corpus) with
  | [] => none
  | best :: rest =>
      if input.cfg.dppmEnabled && graft then some (dppmDelivery calls corpus best rest)
      else if input.cfg.synthesis.sequentialGraftingEnabled && !rest.isEmpty then
        some (graftDelivery (graftSetup input calls c corpus) calls.graft best rest)
      else calls.singleShot.map .answer

/-- The wave's answers as the run takes them. -/
def SynthesisCalls.world : SynthesisWorld :=
  let sorted := sortedPartials (wavePartials input c corpus)
  { dppmMerge := sorted.head?.bind fun best =>
      (dppmDelivery calls corpus best sorted.tail).answered
    grafted := sorted.head?.bind fun best =>
      (graftDelivery (graftSetup input calls c corpus) calls.graft best sorted.tail).answered
    singleShot := calls.singleShot
    explorerId := calls.explorerId
    verifier := calls.verifier }

end Wave

/-! ## What is kept is the best partial -/

theorem dppmDelivery_kept {calls : SynthesisCalls} {corpus : List ConstraintDoc}
    {best p : PartialPass} {rest : List PartialPass}
    (h : dppmDelivery calls corpus best rest = .kept p) : p = best := by
  unfold dppmDelivery at h
  split_ifs at h
  · cases h
    rfl
  · split at h <;> cases h
    rfl

theorem graftDelivery_kept {g : GraftSetup} {adapter : GraftAdapter} {best p : PartialPass}
    {rest : List PartialPass} (h : graftDelivery g adapter best rest = .kept p) : p = best := by
  unfold graftDelivery at h
  dsimp only at h
  split_ifs at h
  cases h
  rfl

theorem delivery_kept {input : EngineInput} {calls : SynthesisCalls} {graft : Bool}
    {c : MapeKController} {corpus : List ConstraintDoc} {p : PartialPass}
    (h : delivery input calls graft c corpus = some (.kept p)) :
    (sortedPartials (wavePartials input c corpus)).head? = some p := by
  unfold delivery at h
  split at h
  · cases h
  · rename_i best rest hsorted
    rw [hsorted]
    split_ifs at h
    · rw [dppmDelivery_kept (Option.some.inj h)]
      rfl
    · rw [graftDelivery_kept (Option.some.inj h)]
      rfl
    · cases hshot : calls.singleShot with
      | none => simp [hshot] at h
      | some text => simp [hshot] at h

/-- The run's synthesis text is the one that the calls deliver. -/
theorem synthesisText_world (input : EngineInput) (calls : SynthesisCalls) (graft : Bool)
    (c : MapeKController) (corpus : List ConstraintDoc)
    (nonempty : wavePartials input c corpus ≠ []) :
    synthesisText input.cfg (calls.world input c corpus) graft (wavePartials input c corpus) =
      (delivery input calls graft c corpus).map Delivered.text := by
  have hlen : (sortedPartials (wavePartials input c corpus)).length =
      (wavePartials input c corpus).length := List.length_insertionSort _ _
  unfold synthesisText delivery SynthesisCalls.world
  cases hsorted : sortedPartials (wavePartials input c corpus) with
  | nil =>
      rw [hsorted] at hlen
      exact absurd (List.length_eq_zero_iff.mp hlen.symm) nonempty
  | cons best rest =>
      rw [hsorted, List.length_cons] at hlen
      have hrest : decide (1 < (wavePartials input c corpus).length) = !rest.isEmpty := by
        cases rest with
        | nil => simp [← hlen]
        | cons p rest => simp [← hlen]
      have hdppm := Delivered.answered_getD (dppmDelivery calls corpus best rest) best
        fun p => dppmDelivery_kept
      have hgraft := Delivered.answered_getD
        (graftDelivery (graftSetup input calls c corpus) calls.graft best rest) best
        fun p => graftDelivery_kept
      simp only [List.head?_cons, Option.map_some, Option.getD_some, Option.bind_some,
        List.tail_cons, hrest, hdppm, hgraft]
      split_ifs
      · rfl
      · rfl
      · cases calls.singleShot <;> rfl

/-- The wave delivers what its calls deliver, past the terminal verification. -/
theorem synthesisWave_world (input : EngineInput) (calls : SynthesisCalls) (graft : Bool)
    (c : MapeKController) (corpus : List ConstraintDoc) {text : String} :
    synthesisWave input (calls.world input c corpus) graft c corpus = some text ↔
      synthesisRuns input graft c corpus = true ∧
        synthesisPasses input (calls.world input c corpus) c corpus text = true ∧
        ∃ d, delivery input calls graft c corpus = some d ∧ d.text = text := by
  have hwave : synthesisWave input (calls.world input c corpus) graft c corpus =
      if synthesisRuns input graft c corpus then
        (synthesisText input.cfg (calls.world input c corpus) graft
          (wavePartials input c corpus)).filter
            (synthesisPasses input (calls.world input c corpus) c corpus)
      else none := rfl
  rw [hwave]
  by_cases hruns : synthesisRuns input graft c corpus = true
  · have hpartials : wavePartials input c corpus ≠ [] := by
      intro hnil
      simp [synthesisRuns, hnil] at hruns
    rw [if_pos hruns, synthesisText_world input calls graft c corpus hpartials,
      Option.filter_eq_some_iff, Option.map_eq_some_iff]
    exact ⟨fun h => ⟨hruns, h.2, h.1⟩, fun h => ⟨h.2.2, h.2.1⟩⟩
  · rw [if_neg hruns]
    exact ⟨fun h => (by cases h), fun h => absurd h.1 hruns⟩

/-! ## Runs -/

/-- Where the iteration reaches the exhaustion handler, if it does. -/
def exhaustionAt (input : EngineInput) (world : EngineWorld) (restart : Nat) :
    Option (Bool × MapeKController × EngineState) :=
  match iterationStart input world restart with
  | none => none
  | some s =>
      match waveLoop input world restart s with
      | .next (c, s) => some (false, c, s)
      | .stop (.graft c s) => some (true, c, s)
      | .stop (.finish _ _) => none
      | .stop (.specAmbiguous signal c s) =>
          if repairAdapter input then
            match affectedDoc signal s.constraintCorpus with
            | none => none
            | some doc =>
                match (repairRun input world restart signal s.constraintCorpus doc).1 with
                | .repaired _ _ => none
                | .failed score => some (false, c,
                    (guardRepair input signal s).note [.repair signal.constraintId (.failed score)])
          else none

theorem point_of_exhaustionAt {input : EngineInput} {world : EngineWorld} {restart : Nat}
    {graft : Bool} {c : MapeKController} {s : EngineState}
    (h : exhaustionAt input world restart = some (graft, c, s)) :
    ExhaustionPoint input world restart graft c s := by
  unfold exhaustionAt at h
  split at h
  · cases h
  · rename_i s₀ hstart
    split at h
    · rename_i hloop
      cases h
      exact .retries hstart hloop
    · rename_i hloop
      cases h
      exact .graft hstart hloop
    · cases h
    · rename_i signal c₁ s₁ hloop
      split_ifs at h with hadapter
      split at h
      · cases h
      · rename_i doc hdoc
        split at h
        · cases h
        · rename_i score hfailed
          cases h
          exact .repair ⟨s₀, hstart, hloop⟩ ⟨hadapter, doc, hdoc, Prod.ext hfailed rfl⟩

theorem exhaustionAt_of_point {input : EngineInput} {world : EngineWorld} {restart : Nat}
    {graft : Bool} {c : MapeKController} {s : EngineState}
    (point : ExhaustionPoint input world restart graft c s) :
    exhaustionAt input world restart = some (graft, c, s) := by
  cases point with
  | retries start loop => simp only [exhaustionAt, start, loop]
  | graft start loop => simp only [exhaustionAt, start, loop]
  | repair point attempt =>
      obtain ⟨s₀, hiter, hloop⟩ := point
      obtain ⟨doc, hdoc, hrun⟩ := attempt.run
      simp only [exhaustionAt, hiter, hloop, attempt.adapter, if_true, hdoc, hrun]

/-- The run of the world in which the synthesis waves make these calls. -/
def synthesizingWorld (input : EngineInput) (world : EngineWorld)
    (calls : Nat → SynthesisCalls) : EngineWorld :=
  { world with
    synthesis := fun restart =>
      match exhaustionAt input world restart with
      | some (_, c, s) => (calls restart).world input c s.constraintCorpus
      | none => world.synthesis restart }

/-- What ends an iteration reads the synthesis answers; what goes on does not. -/
theorem restartBody_next_congr (input : EngineInput) (world : EngineWorld)
    (calls : Nat → SynthesisCalls) (restart : Nat) (s s' : EngineState) :
    restartBody input (synthesizingWorld input world calls) restart s = .next s' ↔
      restartBody input world restart s = .next s' := by
  have hloop : waveLoop input (synthesizingWorld input world calls) restart s =
      waveLoop input world restart s := rfl
  unfold restartBody
  rw [hloop]
  cases waveLoop input world restart s with
  | next cs => simp
  | stop exit =>
      cases exit with
      | finish result s => simp
      | graft c s => simp
      | specAmbiguous signal c s =>
          dsimp only
          unfold repairHandler
          dsimp only
          split_ifs
          · cases affectedDoc signal (guardRepair input signal s).constraintCorpus with
            | none => simp
            | some doc =>
                have hrepair : repairRun input (synthesizingWorld input world calls) restart
                    signal (guardRepair input signal s).constraintCorpus doc =
                  repairRun input world restart signal
                    (guardRepair input signal s).constraintCorpus doc := rfl
                dsimp only
                rw [hrepair]
                cases (repairRun input world restart signal
                    (guardRepair input signal s).constraintCorpus doc).1 with
                | repaired version rewritten => rfl
                | failed score => simp
          · simp

theorem iterationStart_synthesizing (input : EngineInput) (world : EngineWorld)
    (calls : Nat → SynthesisCalls) (restart : Nat) :
    iterationStart input (synthesizingWorld input world calls) restart =
      iterationStart input world restart := by
  have hstart := roundStart_congr (restartBody_next_congr input world calls) 0
    (initialState input world) restart
  unfold iterationStart
  cases hpre : world.preLoopError with
  | some e =>
      have hsame : (synthesizingWorld input world calls).preLoopError = some e := hpre
      rw [hsame]
  | none =>
      have hsame : (synthesizingWorld input world calls).preLoopError = none := hpre
      rw [hsame]
      exact hstart

/-- The answers of a synthesis wave do not change where it is reached. -/
theorem exhaustionPoint_synthesizing {input : EngineInput} {world : EngineWorld}
    (calls : Nat → SynthesisCalls) {restart : Nat} {graft : Bool} {c : MapeKController}
    {s : EngineState} :
    ExhaustionPoint input (synthesizingWorld input world calls) restart graft c s ↔
      ExhaustionPoint input world restart graft c s := by
  have hiter := iterationStart_synthesizing input world calls restart
  constructor
  · intro point
    cases point with
    | retries start loop => exact .retries (hiter ▸ start) loop
    | graft start loop => exact .graft (hiter ▸ start) loop
    | repair point attempt =>
        obtain ⟨s₀, start, loop⟩ := point
        exact .repair ⟨s₀, hiter ▸ start, loop⟩ ⟨attempt.adapter, attempt.run⟩
  · intro point
    cases point with
    | retries start loop => exact .retries (hiter.trans start) loop
    | graft start loop => exact .graft (hiter.trans start) loop
    | repair point attempt =>
        obtain ⟨s₀, start, loop⟩ := point
        exact .repair ⟨s₀, hiter.trans start, loop⟩ ⟨attempt.adapter, attempt.run⟩

/-- In the run the wave at an exhaustion point makes its calls. -/
theorem synthesis_at_point {input : EngineInput} {world : EngineWorld}
    {calls : Nat → SynthesisCalls} {restart : Nat} {graft : Bool} {c : MapeKController}
    {s : EngineState} (point : ExhaustionPoint input world restart graft c s) :
    (synthesizingWorld input world calls).synthesis restart =
      (calls restart).world input c s.constraintCorpus := by
  unfold synthesizingWorld
  simp only [exhaustionAt_of_point point]

end ControlPlane.Source.Engine
