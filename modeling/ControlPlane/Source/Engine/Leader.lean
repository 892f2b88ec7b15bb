import ControlPlane.Source.Engine.Topology
import Mathlib.Data.List.Sort

/-!
# The epistemic leader

Embeds `crates/h2ai-orchestrator/src/leader.rs` without the diagnosis call, the election of
`mape_k.rs` and the prefixes that `phases/generation.rs` gives the slots of a wave. The
question of the diagnosis is an input, and of the belief buffer only the questions are kept.
-/
namespace ControlPlane.Source.Engine

open MapeK

structure LeaderState where
  term : Nat
  leaderExplorerId : String
  priorProposal : String
  socraticQuestion : String
  confidenceHistory : List ℚ
  stagnationCount : Nat
  beliefBuffer : List String
  credibilityScore : ℚ
  followerAspects : List String
  deriving DecidableEq, Repr

structure LeaderContextSnapshot where
  term : Nat
  leaderExplorerId : String
  socraticQuestion : String
  priorProposal : String
  credibilityScore : ℚ
  followerAspects : List String
  violatedConstraints : List String
  beliefBufferQuestions : List String
  deriving DecidableEq, Repr

/-- `to_snapshot`. -/
def LeaderState.toSnapshot (s : LeaderState) (violatedConstraints : List String) :
    LeaderContextSnapshot :=
  { term := s.term
    leaderExplorerId := s.leaderExplorerId
    socraticQuestion := s.socraticQuestion
    priorProposal := s.priorProposal
    credibilityScore := s.credibilityScore
    followerAspects := s.followerAspects
    violatedConstraints := violatedConstraints
    beliefBufferQuestions := s.beliefBuffer }

/-! ## Prefixes -/

def followerText (term : Nat) (question : String) (body : String) : String :=
  "--- FOLLOWER CONTEXT (term " ++ (toString term ++ ") ---\n" ++
    "The leader's diagnostic question for this wave:\n\"" ++ question ++ "\"\n\n" ++ body ++
    "--- END FOLLOWER CONTEXT ---\n")

/-- `build_leader_prefix`. -/
def buildLeaderPrefix (ls : LeaderContextSnapshot) (explorerId : String) : String :=
  if explorerId = ls.leaderExplorerId then
    let prior := String.ofList (ls.priorProposal.toList.take 3000)
    let pastQBlock := if ls.beliefBufferQuestions.isEmpty then "" else
      "\nQuestions you have already tried this session (avoid these angles):\n" ++
        "\n".intercalate ls.beliefBufferQuestions
    "\n--- LEADER CONTEXT (term " ++ (toString ls.term ++ (") ---\n" ++
      "You are the current leader (credibility: " ++ fixedText 2 ls.credibilityScore ++ ").\n" ++
      "Your Socratic question for this wave:\n\"" ++ ls.socraticQuestion ++ "\"\n\n" ++
      "Your goal: answer your own question better than before.\n" ++
      "Do not repeat your prior approach verbatim." ++ pastQBlock ++ "\n\n" ++
      "Violated constraints: " ++ ", ".intercalate ls.violatedConstraints ++ ".\n\n" ++
      "Your prior proposal:\n" ++ prior ++ "\n--- END LEADER CONTEXT ---\n"))
  else
    "\n" ++ followerText ls.term ls.socraticQuestion
      ("Treat this as an open question. Form your own independent answer " ++
        "— do not defer to the leader's prior approach.\n" ++
        "Explore a genuinely different resolution.\n")

/-- The text of `build_follower_prefix_with_aspect` for an aspect. -/
def aspectPrefix (ls : LeaderContextSnapshot) (warnThreshold : ℚ) (aspect : String) : String :=
  let lowConfPrefix := if ls.credibilityScore < warnThreshold then
      "[Note: leader signal is low-confidence (score=" ++ (fixedText 2 ls.credibilityScore ++
        "). Treat as a weak hint, not a directive.]\n")
    else ""
  "\n" ++ (lowConfPrefix ++ followerText ls.term ls.socraticQuestion
    ("Your assigned aspect to probe: " ++ aspect ++ "\n\n" ++
      "Treat this as an open question. Form your own independent answer " ++
      "— do not defer to the leader's prior approach.\n" ++
      "Focus specifically on your assigned aspect; the other followers " ++
      "will cover the remaining dimensions.\n"))

/-- `build_follower_prefix_with_aspect`. -/
def buildFollowerPrefixWithAspect (ls : LeaderContextSnapshot) (slotIndex : Nat)
    (warnThreshold : ℚ) : String :=
  aspectPrefix ls warnThreshold ((ls.followerAspects[slotIndex]?).getD "constraint resolution")

/-- One round of the counting loop of `follower_idx`. -/
def countFollower (leaderExplorerId : String) (idx : Nat) (acc : Nat × Nat)
    (ec : ProvisionedExplorer × Nat) : Nat × Nat :=
  if ec.1.explorerId ≠ leaderExplorerId then (if ec.2 = idx then acc.2 else acc.1, acc.2 + 1)
  else acc

/-- `follower_idx`: the followers that are counted in front of slot `idx`. -/
def followerIdx (leaderExplorerId : String) (explorers : List ProvisionedExplorer) (idx : Nat) :
    Nat :=
  (explorers.zipIdx.foldl (countFollower leaderExplorerId idx) (0, 0)).1

theorem foldl_behind {leaderExplorerId : String} {idx start : Nat} (h : idx < start)
    (explorers : List ProvisionedExplorer) (acc : Nat × Nat) :
    ((explorers.zipIdx start).foldl (countFollower leaderExplorerId idx) acc).1 = acc.1 := by
  induction explorers generalizing start acc with
  | nil => rfl
  | cons e rest ih =>
      have hne : start ≠ idx := by omega
      rw [List.zipIdx_cons, List.foldl_cons, ih (by omega), countFollower, if_neg hne]
      split_ifs <;> rfl

theorem foldl_followers {leaderExplorerId : String} {explorers : List ProvisionedExplorer}
    {k : Nat} {e : ProvisionedExplorer} (h : explorers[k]? = some e)
    (hid : e.explorerId ≠ leaderExplorerId) (start : Nat) (acc : Nat × Nat) :
    ((explorers.zipIdx start).foldl (countFollower leaderExplorerId (start + k)) acc).1 =
      acc.2 + (explorers.take k).countP fun e => e.explorerId ≠ leaderExplorerId := by
  induction explorers generalizing k start acc with
  | nil => cases h
  | cons first rest ih =>
      rw [List.zipIdx_cons, List.foldl_cons]
      cases k with
      | zero =>
          cases h
          rw [foldl_behind (by omega), countFollower, if_pos hid]
          simp
      | succ k =>
          have hstart : start + (k + 1) = start + 1 + k := by omega
          rw [hstart, ih h, List.take_succ_cons, List.countP_cons, countFollower]
          by_cases hfirst : first.explorerId = leaderExplorerId
          · simp [hfirst]
          · simp only [ne_eq, hfirst, not_false_eq_true, if_true, decide_true]
            omega

/-- A follower is numbered by the followers in front of it. -/
theorem followerIdx_eq {leaderExplorerId : String} {explorers : List ProvisionedExplorer}
    {idx : Nat} {e : ProvisionedExplorer} (h : explorers[idx]? = some e)
    (hid : e.explorerId ≠ leaderExplorerId) :
    followerIdx leaderExplorerId explorers idx =
      (explorers.take idx).countP fun e => e.explorerId ≠ leaderExplorerId := by
  have hfold := foldl_followers h hid 0 (0, 0)
  rw [Nat.zero_add, Nat.zero_add] at hfold
  exact hfold

/-- `leader_prefix` of a slot. -/
def slotPrefix (leaderContext : Option LeaderContextSnapshot)
    (explorers : List ProvisionedExplorer) (slot : ProvisionedExplorer × Nat) : Option String :=
  leaderContext.bind fun ls =>
    if ls.term = 0 then none
    else if slot.1.explorerId = ls.leaderExplorerId then
      some (buildLeaderPrefix ls slot.1.explorerId)
    else
      some (buildFollowerPrefixWithAspect ls (followerIdx ls.leaderExplorerId explorers slot.2)
        (4 / 10))

def slotPrefixes (leaderContext : Option LeaderContextSnapshot)
    (explorers : List ProvisionedExplorer) : List (Option String) :=
  explorers.zipIdx.map (slotPrefix leaderContext explorers)

/-! ## Elections -/

structure LeaderConfig where
  leaderEnabled : Bool
  leaderStagnationThreshold : ℚ
  leaderStagnationWaves : Nat
  leaderCredibilityDecayRate : ℚ

/-- The fields of the controller that an election reads and writes. -/
structure LeaderFields where
  leader : Option LeaderState
  lastWaveVerificationEvents : List VerificationScoredEvent
  lastWaveProposalTexts : List (String × String)
  lastWaveViolatedConstraintIds : List String
  /-- `q_confidence` of the quality history. -/
  qConfidences : List ℚ

def LeaderFields.new : LeaderFields := ⟨none, [], [], [], []⟩

/-- The last entry minus the one in front of it. -/
def lastDelta (history : List ℚ) : Option ℚ :=
  match history.reverse with
  | last :: before :: _ => some (last - before)
  | _ => none

def shouldRotate (s : LeaderState) (threshold : ℚ) (waves : Nat) : Bool :=
  decide (waves ≤ s.stagnationCount) &&
    (lastDelta s.confidenceHistory).any fun delta => decide (delta < threshold)

def updateCredibility (current : ℚ) (improved : Bool) (decayRate : ℚ) : ℚ :=
  if improved then min (current + decayRate) 1 else max (current - decayRate) 0

/-- `assign_follower_aspects`: round robin over the violated constraints. -/
def assignFollowerAspects (constraintIds : List String) (nFollowers : Nat) : List String :=
  if constraintIds.isEmpty then List.replicate nFollowers "constraint resolution"
  else (List.range nFollowers).map fun i => (constraintIds[i % constraintIds.length]?).getD ""

/-- `select_best_and_runner_up`; the sort is stable. -/
def selectBestAndRunnerUp (scores : List (String × ℚ)) : Option (String × Option String) :=
  match scores.insertionSort fun a b => b.2 ≤ a.2 with
  | [] => none
  | [winner] => some (winner.1, none)
  | winner :: runnerUp :: _ => some (winner.1, some runnerUp.1)

structure LeaderElectionPlan where
  term : Nat
  leaderExplorerId : String
  priorProposal : String
  qConfidence : ℚ
  shouldRotate : Bool
  followerAspects : List String
  existingBeliefBuffer : List String
  existingCredibility : ℚ

/-- The last wave improved the confidence of the ensemble. -/
def LeaderFields.improved (c : LeaderFields) (cfg : LeaderConfig) : Bool :=
  (lastDelta c.qConfidences).any fun delta => decide (cfg.leaderStagnationThreshold ≤ delta)

/-- `prepare_leader_election`. -/
def prepareLeaderElection (cfg : LeaderConfig) (c : LeaderFields) : Option LeaderElectionPlan :=
  let scores := c.lastWaveVerificationEvents.map fun e => (e.explorerId, e.score)
  (selectBestAndRunnerUp scores).map fun best =>
    let doRotate := c.leader.any fun ls =>
      shouldRotate ls cfg.leaderStagnationThreshold cfg.leaderStagnationWaves
    let leaderId := if doRotate then best.2.getD best.1 else best.1
    { term := (c.leader.map fun ls => ls.term + 1).getD 1
      leaderExplorerId := leaderId
      priorProposal := (c.lastWaveProposalTexts.lookup leaderId).getD ""
      qConfidence := (scores.lookup leaderId).getD 0
      shouldRotate := doRotate
      followerAspects :=
        assignFollowerAspects c.lastWaveViolatedConstraintIds (scores.length - 1)
      existingBeliefBuffer := if doRotate then [] else (c.leader.map (·.beliefBuffer)).getD []
      existingCredibility := if doRotate then 1 else
        (c.leader.map fun ls =>
          updateCredibility ls.credibilityScore (c.improved cfg) cfg.leaderCredibilityDecayRate).getD 1 }

/-- `apply_leader_result`. -/
def applyLeaderResult (cfg : LeaderConfig) (c : LeaderFields) (plan : LeaderElectionPlan)
    (question : String) : LeaderFields :=
  let stagnationCount := if plan.shouldRotate then 0 else
    if c.improved cfg then 0 else (c.leader.map fun ls => ls.stagnationCount + 1).getD 1
  let leader : LeaderState :=
    { term := plan.term
      leaderExplorerId := plan.leaderExplorerId
      priorProposal := plan.priorProposal
      socraticQuestion := question
      confidenceHistory := (c.leader.map (·.confidenceHistory)).getD [] ++ [plan.qConfidence]
      stagnationCount := stagnationCount
      beliefBuffer := plan.existingBeliefBuffer ++ [question]
      credibilityScore := plan.existingCredibility
      followerAspects := plan.followerAspects }
  { c with leader := some leader }

/-- `leader_context` of `params`. -/
def LeaderFields.leaderContext (c : LeaderFields) : Option LeaderContextSnapshot :=
  c.leader.map fun ls => ls.toSnapshot c.lastWaveViolatedConstraintIds

/-! ## The waves of a run -/

/-- A wave with what it leaves for the election. -/
structure LedWave where
  wave : ScoredWave
  proposalTexts : List (String × String)
  violatedConstraintIds : List String
  qConfidences : List ℚ
  /-- The question that the diagnosis answers, for a run with explorer adapters. -/
  question : Option String

/-- The election of `run_offline` behind a wave. -/
def electLeader (cfg : LeaderConfig) (question : Option String) (c : LeaderFields) :
    LeaderFields :=
  match question with
  | some q =>
      if cfg.leaderEnabled then
        match prepareLeaderElection cfg c with
        | some plan => applyLeaderResult cfg c plan q
        | none => c
      else c
  | none => c

/-- What `observe` and the quality history take from a wave. -/
def LeaderFields.observe (c : LeaderFields) (ids : ExplorerIds) (drawn : Nat) (w : LedWave) :
    LeaderFields :=
  { c with
    lastWaveVerificationEvents := w.wave.events ids drawn
    lastWaveProposalTexts := w.proposalTexts
    lastWaveViolatedConstraintIds := w.violatedConstraintIds
    qConfidences := w.qConfidences }

/-- One wave: the number of drawn ids and the fields behind it. -/
def ledWaveStep (cfg : LeaderConfig) (ids : ExplorerIds) (s : Nat × LeaderFields)
    (w : LedWave) : Nat × LeaderFields :=
  (w.wave.drawnAfter s.1, electLeader cfg w.question (s.2.observe ids s.1 w))

def ledRun (cfg : LeaderConfig) (ids : ExplorerIds) (waves : List LedWave) : Nat × LeaderFields :=
  waves.foldl (ledWaveStep cfg ids) (0, .new)

end ControlPlane.Source.Engine
