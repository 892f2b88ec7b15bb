import ControlPlane.Lib.GreedyCover
import ControlPlane.Source.Engine.Pipeline
import ControlPlane.Source.MapeK.RepairContext

/-!
# Sequential grafting

Embeds the sequential constraint grafting of the synthesis wave
(`crates/h2ai-orchestrator/src/engine.rs`) with its guards and its prompt from
`crates/h2ai-autonomic/src/repair.rs` and `crates/h2ai-types/src/prompts.rs`. The language
model answers each call as it likes; the verifier answers the same question the same way.
-/
namespace ControlPlane.Source.Engine

open Lib Constraints Verification MapeK

/-! ## Guards -/

/-- `missing_constraint_ids`: constraints of which the candidate passes a check and the
base none. -/
def missingConstraintIds (base candidate : PartialPass) (offsets : List (String × Nat × Nat)) :
    List String :=
  offsets.filterMap fun o =>
    let cluster := List.range' o.2.1 o.2.2
    let basePassesAny := cluster.any fun i => decide (i ∈ base.passedCheckIndices)
    let candidatePassesAny := cluster.any fun i => decide (i ∈ candidate.passedCheckIndices)
    if candidatePassesAny && !basePassesAny then some o.1 else none

/-- `graft_is_redundant`. -/
def graftIsRedundant (base candidate : PartialPass) (threshold : ℚ) : Bool :=
  let basePassing := base.passedCheckIndices
  let candidateAll := (candidate.checkResults.map Prod.fst).toFinset
  let unionCount := (basePassing ∪ candidateAll).card
  if unionCount = 0 then false
  else decide (threshold < ((basePassing ∩ candidateAll).card : ℚ) / unionCount)

/-- `grafted_ids_cycle_detected`. -/
def graftedIdsCycleDetected (missing alreadyGrafted : List String) : Bool :=
  !missing.isEmpty && missing.all alreadyGrafted.contains

/-- `graft_token_projection_exceeds`. -/
def graftTokenProjectionExceeds (baseText candidateText : String) (factor : ℚ) : Bool :=
  let baseTokens := baseText.utf8ByteSize / 4 + 1
  let projected := (baseText.utf8ByteSize + candidateText.utf8ByteSize) / 4
  decide ((baseTokens : ℚ) * factor < projected)

/-! ## Prompt -/

def h1GraftContext : String :=
  "--- GRAFT STEP (constraints: \x7bconstraint_ids\x7d) ---\n" ++
    "You are extending a working draft to satisfy additional constraints.\n\n" ++
    "CURRENT DRAFT:\n" ++
    "\x7bbase_text\x7d\n\n" ++
    "CONSTRAINT CLUSTER TO INTEGRATE (\x7bconstraint_ids\x7d):\n" ++
    "The following proposal satisfies the above constraints. " ++
    "Extract ONLY the techniques relevant to those constraints — " ++
    "do not import other patterns.\n\n" ++
    "\x7bcandidate_text\x7d\n\n" ++
    "TASK: Extend the current draft to satisfy the constraints listed above.\n" ++
    "Rules:\n" ++
    "  1. Do NOT violate constraints already satisfied in the current draft.\n" ++
    "  2. Do NOT copy architectural patterns from the candidate unless " ++
    "required by the constraints.\n" ++
    "  3. If a constraint is architecturally incompatible with the current draft, prefer the\n" ++
    "     current draft's architecture and document the tradeoff explicitly.\n" ++
    "  4. Output the complete updated draft, not a diff.\n" ++
    "--- END GRAFT STEP ---"

structure GraftInput where
  baseText : String
  candidateText : String
  constraintIds : List String
  systemContext : String

/-- `build_graft_context`. -/
def buildGraftContext (input : GraftInput) : String :=
  let ids := ", ".intercalate input.constraintIds
  let body := fillIn (fillIn (fillIn h1GraftContext "constraint_ids" ids)
    "base_text" input.baseText) "candidate_text" input.candidateText
  input.systemContext ++ "\n\n" ++ body

/-! ## Verification of a graft -/

/-- What a synthesis wave works with. -/
structure GraftSetup where
  taskId : String
  tau : ℚ
  corpus : List ConstraintDoc
  systemContext : String
  /-- `sequential_grafting_max_rounds`. -/
  maxRounds : Nat
  verifier : VerifierWorld
  config : VerificationConfig

/-- A response of the adapter, and the fresh explorer id that its proposal gets. -/
structure GraftResponse where
  output : String
  tokenCost : Nat
  explorerId : String
  deriving DecidableEq, Repr

/-- The mean compliance score of the one proposal that was verified. -/
def meanCompliance (out : VerificationOutput) : ℚ :=
  match out.passed, out.failed with
  | p :: _, _ => if p.results.isEmpty then 1 else (p.results.map (·.score)).sum / p.results.length
  | [], f :: _ => if f.results.isEmpty then 0 else (f.results.map (·.score)).sum / f.results.length
  | [], [] => 0

namespace GraftSetup

variable (g : GraftSetup)

/-- `check_offsets`. -/
def offsets : List (String × Nat × Nat) := checkOffsets 0 g.corpus

def proposal (r : GraftResponse) : ProposalEvent :=
  ⟨g.taskId, r.explorerId, g.tau, 2 ^ 64 - 1, r.output, r.tokenCost⟩

/-- `new_score`: the intermediate verification of a response. -/
def newScore (r : GraftResponse) : ℚ :=
  meanCompliance (g.verifier.verify g.config g.corpus 1 (g.proposal r))

/-- The verification score of a text. -/
def textScore (text : String) : ℚ := g.newScore ⟨text, 0, ""⟩

end GraftSetup

/-! ## The loop -/

structure GraftState where
  baseText : String
  basePartial : PartialPass
  baseScore : ℚ
  roundsUsed : Nat
  graftedIds : List String
  /-- How often the adapter was called. -/
  calls : Nat
  deriving DecidableEq, Repr

/-- The start of the loop: the best partial, at its fraction of passed checks. -/
def GraftState.seed (p : PartialPass) : GraftState := ⟨p.proposalText, p, p.score, 0, [], 0⟩

/-- A check that the candidate passed is marked as passed in the base. -/
def markPassed (results : List (Nat × String × Bool)) (check : Nat × String × Bool) :
    List (Nat × String × Bool) :=
  if check.2.2 then
    results.replaceF fun entry =>
      if entry.1 = check.1 then some (check.1, check.2.1, true) else none
  else results

namespace GraftSetup

variable (g : GraftSetup)

def missing (s : GraftState) (candidate : PartialPass) : List String :=
  missingConstraintIds s.basePartial candidate g.offsets

/-- The candidate comes past every guard. -/
def asks (s : GraftState) (candidate : PartialPass) : Bool :=
  !(g.missing s candidate).isEmpty && !graftIsRedundant s.basePartial candidate (3 / 5) &&
    !graftedIdsCycleDetected (g.missing s candidate) s.graftedIds &&
    !graftTokenProjectionExceeds s.baseText candidate.proposalText (13 / 10)

def prompt (s : GraftState) (candidate : PartialPass) : String :=
  buildGraftContext
    ⟨s.baseText, candidate.proposalText, g.missing s candidate, g.systemContext⟩

/-- A verified response is accepted, or rolled back. -/
def settle (s : GraftState) (candidate : PartialPass) (r : GraftResponse) : GraftState :=
  if s.baseScore ≤ g.newScore r then
    { baseText := r.output
      basePartial := { s.basePartial with
        checkResults := candidate.checkResults.foldl markPassed s.basePartial.checkResults }
      baseScore := g.newScore r
      roundsUsed := s.roundsUsed + 1
      graftedIds := s.graftedIds ++ g.missing s candidate
      calls := s.calls + 1 }
  else { s with calls := s.calls + 1 }

end GraftSetup

/-- The answers of the adapter, by the number of the call and its system context. -/
abbrev GraftAdapter := Nat → String → Option GraftResponse

section Loop

variable (g : GraftSetup) (adapter : GraftAdapter)

/-- One candidate; `none` leaves the loop. -/
def graftCandidate (s : GraftState) (candidate : PartialPass) : Option GraftState :=
  if max g.maxRounds 1 - 1 ≤ s.roundsUsed then none
  else if !g.asks s candidate then some s
  else (adapter s.calls (g.prompt s candidate)).map (g.settle s candidate)

def graftLoop : GraftState → List PartialPass → GraftState
  | s, [] => s
  | s, candidate :: rest =>
      match graftCandidate g adapter s candidate with
      | none => s
      | some s' => graftLoop s' rest

/-- The states that the loop goes through. -/
def graftStates : GraftState → List PartialPass → List GraftState
  | s, [] => [s]
  | s, candidate :: rest =>
      s :: match graftCandidate g adapter s candidate with
        | none => []
        | some s' => graftStates s' rest

/-- `base_text` at the end, from the partials in descending order. -/
def graftedState (sorted : List PartialPass) : Option GraftState :=
  match sorted with
  | [] => none
  | seed :: rest => some (graftLoop g adapter (.seed seed) rest)

end Loop

/-! ## What a round does -/

/-- The text that is held and the score it is held at. -/
def GraftState.incumbent (s : GraftState) : Incumbent String ℚ := ⟨s.baseText, s.baseScore⟩

variable {g : GraftSetup} {adapter : GraftAdapter}

/-- The score of a proposal is that of its text. -/
theorem newScore_eq (g : GraftSetup) (r : GraftResponse) : g.newScore r = g.textScore r.output := by
  unfold GraftSetup.textScore GraftSetup.newScore VerifierWorld.verify Verification.run
  simp only [evaluateAll, route_eq, GraftSetup.proposal, List.filter_cons, List.filter_nil, passes,
    overallScore]
  split_ifs <;> rfl

theorem settle_climbs (s : GraftState) (candidate : PartialPass) (r : GraftResponse) :
    Climbs g.textScore s.incumbent (g.settle s candidate r).incumbent := by
  unfold GraftSetup.settle
  split_ifs with hscore
  · have htaken := hscore
    rw [newScore_eq] at htaken
    simpa only [GraftState.incumbent, newScore_eq] using Climbs.take htaken
  · exact .stay _

theorem graftCandidate_climbs {s s' : GraftState} {candidate : PartialPass}
    (h : graftCandidate g adapter s candidate = some s') :
    Climbs g.textScore s.incumbent s'.incumbent := by
  unfold graftCandidate at h
  split_ifs at h
  · cases h
    exact .stay _
  · obtain ⟨r, -, rfl⟩ := Option.map_eq_some_iff.mp h
    exact settle_climbs s candidate r

theorem graftLoop_ascent (s : GraftState) (candidates : List PartialPass) :
    Ascent g.textScore s.incumbent (graftLoop g adapter s candidates).incumbent := by
  induction candidates generalizing s with
  | nil => exact .refl
  | cons candidate rest ih =>
      rw [graftLoop]
      cases hstep : graftCandidate g adapter s candidate with
      | none => exact .refl
      | some s' => exact (ih s').head (graftCandidate_climbs hstep)

/-- Every state of the loop lies on its way from the start to the end. -/
theorem graftStates_ascent {s held : GraftState} {candidates : List PartialPass}
    (h : held ∈ graftStates g adapter s candidates) :
    Ascent g.textScore s.incumbent held.incumbent ∧
      Ascent g.textScore held.incumbent (graftLoop g adapter s candidates).incumbent := by
  induction candidates generalizing s with
  | nil =>
      obtain rfl := List.mem_singleton.mp h
      exact ⟨.refl, .refl⟩
  | cons candidate rest ih =>
      rcases List.mem_cons.mp h with rfl | htail
      · exact ⟨.refl, graftLoop_ascent held (candidate :: rest)⟩
      · rw [graftLoop]
        cases hstep : graftCandidate g adapter s candidate with
        | none => simp [hstep] at htail
        | some s' =>
            rw [hstep] at htail
            obtain ⟨hbefore, hafter⟩ := ih htail
            exact ⟨hbefore.head (graftCandidate_climbs hstep), hafter⟩

/-- Until a round is accepted the loop holds what it started with. -/
theorem settle_unaccepted {s : GraftState} {candidate : PartialPass} {r : GraftResponse}
    (h : ¬ s.baseScore ≤ g.newScore r) :
    g.settle s candidate r = { s with calls := s.calls + 1 } := by
  unfold GraftSetup.settle
  rw [if_neg h]

/-- What is held is what was held before, or an answer that was accepted since. -/
inductive HeldSince (adapter : GraftAdapter) (s s' : GraftState) : Prop where
  | same (rounds : s'.roundsUsed = s.roundsUsed) (text : s'.baseText = s.baseText)
  | answer (rounds : s.roundsUsed < s'.roundsUsed) {call : Nat} {prompt : String}
      {r : GraftResponse} (answered : adapter call prompt = some r)
      (text : s'.baseText = r.output)

theorem HeldSince.trans {s₁ s₂ s₃ : GraftState} (h₁ : HeldSince adapter s₁ s₂)
    (h₂ : HeldSince adapter s₂ s₃) : HeldSince adapter s₁ s₃ := by
  cases h₂ with
  | same rounds₂ text₂ =>
      cases h₁ with
      | same rounds₁ text₁ => exact .same (rounds₂.trans rounds₁) (text₂.trans text₁)
      | answer rounds₁ answered text₁ =>
          exact .answer (by omega) answered (text₂.trans text₁)
  | answer rounds₂ answered text₂ =>
      cases h₁ with
      | same rounds₁ text₁ => exact .answer (by omega) answered text₂
      | answer rounds₁ answered₁ text₁ => exact .answer (by omega) answered text₂

theorem graftCandidate_held {s s' : GraftState} {candidate : PartialPass}
    (h : graftCandidate g adapter s candidate = some s') : HeldSince adapter s s' := by
  unfold graftCandidate at h
  split_ifs at h
  · cases h
    exact .same rfl rfl
  · obtain ⟨r, hanswer, rfl⟩ := Option.map_eq_some_iff.mp h
    by_cases hscore : s.baseScore ≤ g.newScore r
    · unfold GraftSetup.settle
      rw [if_pos hscore]
      exact .answer (Nat.lt_succ_self s.roundsUsed) hanswer rfl
    · rw [settle_unaccepted hscore]
      exact .same rfl rfl

theorem graftLoop_held (g : GraftSetup) (adapter : GraftAdapter) (s : GraftState)
    (candidates : List PartialPass) :
    HeldSince adapter s (graftLoop g adapter s candidates) := by
  induction candidates generalizing s with
  | nil => exact .same rfl rfl
  | cons candidate rest ih =>
      rw [graftLoop]
      cases hstep : graftCandidate g adapter s candidate with
      | none => exact .same rfl rfl
      | some s' => exact (graftCandidate_held hstep).trans (ih s')

/-! ## The first accepted answer -/

/-- The answers to the calls that the loop makes while it holds the seed. -/
def answersAtSeed (g : GraftSetup) (adapter : GraftAdapter) (seed : PartialPass)
    (rest : List PartialPass) (call : Nat) : List (Option GraftResponse) :=
  (rest.filter fun candidate => g.asks (.seed seed) candidate).mapIdx fun i candidate =>
    adapter (call + i) (g.prompt (.seed seed) candidate)

/-- A round is left, and in front of the first failed call an answer reaches the score of
the seed. -/
def takesGraft (g : GraftSetup) (adapter : GraftAdapter) (seed : PartialPass)
    (rest : List PartialPass) : Bool :=
  decide (1 < g.maxRounds) &&
    ((answersAtSeed g adapter seed rest 0).takeWhile (·.isSome)).any fun answer =>
      answer.any fun r => decide (seed.score ≤ g.newScore r)

theorem answersAtSeed_cons (g : GraftSetup) (adapter : GraftAdapter) (seed candidate : PartialPass)
    (rest : List PartialPass) (call : Nat) :
    answersAtSeed g adapter seed (candidate :: rest) call =
      if g.asks (.seed seed) candidate then
        adapter call (g.prompt (.seed seed) candidate) ::
          answersAtSeed g adapter seed rest (call + 1)
      else answersAtSeed g adapter seed rest call := by
  unfold answersAtSeed
  rw [List.filter_cons]
  split_ifs
  · rw [List.mapIdx_cons]
    simp only [Nat.add_zero, Nat.add_assoc, Nat.add_comm 1]
  · rfl

/-- The seed, behind calls that were not accepted. -/
def GraftState.seedAfter (p : PartialPass) (call : Nat) : GraftState :=
  { GraftState.seed p with calls := call }

section SeedAfter

variable {seed candidate : PartialPass} {call : Nat} {r : GraftResponse}

theorem graftCandidate_seedAfter (hrounds : 1 < g.maxRounds) :
    graftCandidate g adapter (.seedAfter seed call) candidate =
      if g.asks (.seed seed) candidate then
        (adapter call (g.prompt (.seed seed) candidate)).map
          (g.settle (.seedAfter seed call) candidate)
      else some (.seedAfter seed call) := by
  have hopen : ¬ max g.maxRounds 1 - 1 ≤ (GraftState.seedAfter seed call).roundsUsed := by
    show ¬ max g.maxRounds 1 - 1 ≤ 0
    omega
  have hsame : g.asks (.seedAfter seed call) candidate = g.asks (.seed seed) candidate := rfl
  unfold graftCandidate
  rw [if_neg hopen, hsame]
  cases g.asks (.seed seed) candidate <;> rfl

theorem settle_seedAfter_rejected (h : ¬ seed.score ≤ g.newScore r) :
    g.settle (.seedAfter seed call) candidate r = .seedAfter seed (call + 1) :=
  settle_unaccepted h

theorem settle_seedAfter_accepted (candidate : PartialPass) (call : Nat)
    (h : seed.score ≤ g.newScore r) :
    (g.settle (.seedAfter seed call) candidate r).roundsUsed = 1 := by
  unfold GraftSetup.settle
  rw [if_pos (show (GraftState.seedAfter seed call).baseScore ≤ g.newScore r from h)]
  rfl

end SeedAfter

/-- Rounds are not given back. -/
theorem graftLoop_roundsUsed_le (g : GraftSetup) (adapter : GraftAdapter) (s : GraftState)
    (candidates : List PartialPass) :
    s.roundsUsed ≤ (graftLoop g adapter s candidates).roundsUsed := by
  cases graftLoop_held g adapter s candidates with
  | same rounds text => omega
  | answer rounds answered text => omega

theorem graftLoop_seedAfter_takes_iff (hrounds : 1 < g.maxRounds) (seed : PartialPass)
    (rest : List PartialPass) (call : Nat) :
    (graftLoop g adapter (.seedAfter seed call) rest).roundsUsed ≠ 0 ↔
      ((answersAtSeed g adapter seed rest call).takeWhile (·.isSome)).any (fun answer =>
        answer.any fun r => decide (seed.score ≤ g.newScore r)) = true := by
  induction rest generalizing call with
  | nil => simp [graftLoop, answersAtSeed, GraftState.seedAfter, GraftState.seed]
  | cons candidate rest ih =>
      rw [answersAtSeed_cons, graftLoop, graftCandidate_seedAfter hrounds]
      by_cases hasks : g.asks (.seed seed) candidate = true
      · rw [if_pos hasks, if_pos hasks]
        cases adapter call (g.prompt (.seed seed) candidate) with
        | none => simp [GraftState.seedAfter, GraftState.seed]
        | some r =>
            simp only [Option.map_some, List.takeWhile_cons, Option.isSome_some, ↓reduceIte,
              List.any_cons, Option.any_some, Bool.or_eq_true, decide_eq_true_eq]
            by_cases hscore : seed.score ≤ g.newScore r
            · have hused := settle_seedAfter_accepted candidate call hscore
              have hkept := graftLoop_roundsUsed_le g adapter
                (g.settle (.seedAfter seed call) candidate r) rest
              exact ⟨fun _ => Or.inl hscore, fun _ => by omega⟩
            · rw [settle_seedAfter_rejected hscore, ih (call + 1)]
              exact ⟨Or.inr, fun h => h.resolve_left hscore⟩
      · rw [if_neg hasks, if_neg hasks]
        exact ih call

/-- Whether a round is accepted is decided by the answers at the seed. -/
theorem graftLoop_takes_iff (g : GraftSetup) (adapter : GraftAdapter) (seed : PartialPass)
    (rest : List PartialPass) :
    (graftLoop g adapter (.seed seed) rest).roundsUsed ≠ 0 ↔
      takesGraft g adapter seed rest = true := by
  unfold takesGraft
  by_cases hrounds : 1 < g.maxRounds
  · simp only [hrounds, decide_true, Bool.true_and]
    exact graftLoop_seedAfter_takes_iff hrounds seed rest 0
  · have hclosed : max g.maxRounds 1 - 1 ≤ (GraftState.seed seed).roundsUsed := by
      show max g.maxRounds 1 - 1 ≤ 0
      omega
    simp only [hrounds, decide_false, Bool.false_and, Bool.false_eq_true, iff_false, not_not]
    cases rest with
    | nil => rfl
    | cons candidate rest =>
        rw [graftLoop]
        unfold graftCandidate
        rw [if_pos hclosed]
        rfl

end ControlPlane.Source.Engine
