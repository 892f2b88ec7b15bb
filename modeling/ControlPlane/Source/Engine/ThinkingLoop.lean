import ControlPlane.Lib.Loops
import ControlPlane.Lib.Walks
import ControlPlane.Source.Adapters.Chain
import ControlPlane.Source.Consensus.CommonGround
import ControlPlane.Source.Constraints.Eval
import ControlPlane.Source.Knowledge.Types
import ControlPlane.Source.Layout
import ControlPlane.Source.Verification.Predicate

/-!
# The thinking loop

Embeds `run`, `synthesize`, `llm_gate`, `parse_synthesis_from_markdown` and
`extract_section` of `crates/h2ai-orchestrator/src/thinking_loop.rs`, and
`tournament_merge` with `split_pairs` of `crates/h2ai-adapters/src/chain.rs`. The
choice of the archetypes, their brainstorms and the knowledge that is retrieved come
from calls of the language model and of the provider; they are fields of the input.
-/
namespace ControlPlane.Source.Engine.Thinking

open Lib Constraints
open Knowledge (NodeSource)
open Verification (ComputeRequest)
open Consensus (EmbeddingModel embeddedSimilarity)

variable {K : Type} [Field K] [LinearOrder K]

/-- `ThinkingReport`; the retrieved nodes are filled in at the end of a run. -/
structure ThinkingReport (K : Type) where
  sharedUnderstanding : String
  tensions : List String
  coverageScore : ParsedFloat
  iteration : Nat
  prevSimilarity : K
  retrievedNodeIds : List String
  skillNodesUsed : Nat
  archetypes : List String
  deriving DecidableEq, Repr

/-- `ThinkingReport::default`. -/
def ThinkingReport.default : ThinkingReport K where
  sharedUnderstanding := ""
  tensions := []
  coverageScore := .finite 0
  iteration := 0
  prevSimilarity := 0
  retrievedNodeIds := []
  skillNodesUsed := 0
  archetypes := []

/-- What a brainstorm leaves of an archetype. -/
structure ArchetypeOutput where
  name : String
  problemAnalysis : String
  solutionSketch : String
  confidence : ℚ
  /-- `gate_passed` of the oracle result, `false` without one. -/
  gatePassed : Bool
  deriving DecidableEq, Repr

structure ThinkingLoopConfig (K : Type) where
  enabled : Bool
  maxIterations : Nat
  coverageThreshold : ℚ
  convergenceThreshold : K
  oracleConfidenceBonus : ℚ
  synthesisTournamentMaxRoundTokens : Nat
  qualityGateMaxTokens : Nat

/-- Everything a run is given. The calls of the language model are told apart by the
iteration, within a synthesis also by round and pair; `none` stands for an adapter error. -/
structure ThinkingLoopInput (K : Type) where
  cfg : ThinkingLoopConfig K
  externals : Externals
  /-- The square root of the cosine similarity. -/
  sqrt : K → K
  embeddingModel : Option (EmbeddingModel K)
  /-- `THINKING_SYNTHESIS_MD_SYSTEM`, `THINKING_SYNTHESIS_MD_PAIRWISE`. -/
  synthesisSystem : String
  synthesisPairwise : String
  gateSystem : String
  gateTask : String
  /-- A number with two decimals. -/
  format2 : ℚ → String
  formatCoverage : ParsedFloat → String
  fetchKnowledge : Nat → ThinkingReport K → List (String × NodeSource)
  /-- The names of the archetypes that were selected, empty if that failed. -/
  selectArchetypes : Nat → ThinkingReport K → List String
  /-- The brainstorm of the archetype at a position. -/
  brainstorm : Nat → Nat → String → ArchetypeOutput
  merge : Nat → Nat → Nat → ComputeRequest → Option String
  gate : Nat → ComputeRequest → Option String

/-! ## Reading a synthesis -/

/-- `extract_section`. -/
def extractSection (text header : List Char) : List Char :=
  match Text.splitAtText header text with
  | none => []
  | some (_, after) =>
      match Text.splitAtText "\n## ".toList after with
      | some (body, _) => Text.trim body
      | none => Text.trim after

/-- `trim_start_matches("- ")`. -/
def trimBullets : List Char → List Char
  | '-' :: ' ' :: rest => trimBullets rest
  | text => text

def tensionBullets (tensionsSection : List Char) : List String :=
  (((Text.lines tensionsSection).filter fun l => "- ".toList.isPrefixOf (Text.trimStart l)).map
    fun l => String.ofList (Text.trim (trimBullets l))).filter fun l => !l.isEmpty

/-- The number behind the first score mark, if it can be read. -/
def sectionScore (x : Externals) (coverageSection : List Char) : Option ParsedFloat :=
  match (Text.lines coverageSection).find? fun l =>
      Text.containsText l "**Score:**".toList with
  | none => none
  | some l =>
      match Text.splitAtText "**Score:**".toList l with
      | none => none
      | some (_, after) => x.parseF64 (String.ofList (Text.trim after))

/-- `parse_synthesis_from_markdown`. -/
def parseSynthesisFromMarkdown (x : Externals) (text : String) : ThinkingReport K :=
  let sharedUnderstanding := extractSection text.toList "## Shared Understanding".toList
  let tensionsSection := extractSection text.toList "## Unresolved Tensions".toList
  let coverageSection := extractSection text.toList "## Coverage Assessment".toList
  if sharedUnderstanding.isEmpty && tensionsSection.isEmpty && coverageSection.isEmpty then
    { ThinkingReport.default with
      sharedUnderstanding := text
      coverageScore := .finite (1 / 2) }
  else
    { ThinkingReport.default with
      sharedUnderstanding := String.ofList sharedUnderstanding
      tensions := tensionBullets tensionsSection
      coverageScore := (sectionScore x coverageSection).getD (.finite (1 / 2)) }

/-! ## Merging the perspectives -/

/-- `split_pairs`. -/
def splitPairs : List String → List (String × String) × Option String
  | a :: b :: rest => ((a, b) :: (splitPairs rest).1, (splitPairs rest).2)
  | [a] => ([], some a)
  | [] => ([], none)

/-- The merges of a round, from position `i` on: the first error is returned. -/
def mergePairs (merge : Nat → String × String → Option String) :
    Nat → List (String × String) → Option (List String)
  | _, [] => some []
  | i, pair :: rest =>
      match merge i pair, mergePairs merge (i + 1) rest with
      | some merged, some others => some (merged :: others)
      | _, _ => none

/-- The rounds of `tournament_merge`, at most `fuel` of them. -/
def mergeRounds (merge : Nat → Nat → String × String → Option String) :
    Nat → Nat → List String → Option String
  | 0, _, current => some (current.headD "")
  | fuel + 1, round, current =>
      if current.length ≤ 1 then some (current.headD "")
      else
        match mergePairs (merge round) 0 (splitPairs current).1 with
        | none => none
        | some next => mergeRounds merge fuel (round + 1) (next ++ (splitPairs current).2.toList)

/-- `tournament_merge`. A round halves the proposals, so their number bounds the rounds. -/
def tournamentMerge (merge : Nat → Nat → String × String → Option String)
    (proposals : List String) : Option String :=
  mergeRounds merge proposals.length 0 proposals

/-- The pairs are those of a tournament of adapter calls. -/
theorem splitPairs_eq (items : List String) : splitPairs items = Adapters.splitPairs items := by
  induction items using splitPairs.induct with
  | case1 a b rest ih => rw [splitPairs, Adapters.splitPairs, ih]
  | case2 a => rfl
  | case3 => rfl

theorem mergePairs_length {merge : Nat → String × String → Option String} {i : Nat}
    {pairs : List (String × String)} {next : List String}
    (h : mergePairs merge i pairs = some next) : next.length = pairs.length := by
  induction pairs generalizing i next with
  | nil =>
      cases h
      rfl
  | cons pair rest ih =>
      simp only [mergePairs] at h
      split at h
      · next merged others _ hrest =>
        cases h
        rw [List.length_cons, List.length_cons, ih hrest]
      · cases h

/-- The bound on the rounds is never what ends a merge. -/
theorem mergeRounds_succ (merge : Nat → Nat → String × String → Option String)
    {fuel : Nat} (round : Nat) {current : List String} (h : current.length ≤ fuel + 1) :
    mergeRounds merge (fuel + 1) round current = mergeRounds merge fuel round current := by
  induction fuel generalizing round current with
  | zero => simp only [mergeRounds, h, if_true]
  | succ fuel ih =>
      rw [mergeRounds, mergeRounds]
      split
      · rfl
      · next hmany =>
        cases hmerged : mergePairs (merge round) 0 (splitPairs current).1 with
        | none => rfl
        | some next =>
            have hnext := mergePairs_length hmerged
            have hpairs := Adapters.splitPairs_length current
            rw [← splitPairs_eq] at hpairs
            apply ih
            rw [List.length_append]
            omega

/-! ## The loop -/

/-- The confidence a perspective is sorted by. -/
def effectiveConfidence (cfg : ThinkingLoopConfig K) (o : ArchetypeOutput) : ℚ :=
  if o.gatePassed then min (o.confidence + cfg.oracleConfidenceBonus) 1 else o.confidence

def proposalText (input : ThinkingLoopInput K) (o : ArchetypeOutput) : String :=
  "[" ++ o.name ++ " | confidence=" ++ input.format2 (effectiveConfidence input.cfg o) ++
    "]\nPROBLEM: " ++ o.problemAnalysis ++ "\nSOLUTION: " ++ o.solutionSketch

/-- The request that merges a challenger into the current best. -/
def mergeRequest (input : ThinkingLoopInput K) (prior : ThinkingReport K)
    (pair : String × String) : ComputeRequest where
  systemContext := input.synthesisSystem ++
    "\n\nPRIOR UNDERSTANDING (from previous iteration — empty on first pass):\n" ++
    prior.sharedUnderstanding ++ "\n\n## Current Best:\n" ++ pair.1
  task := String.ofList (Text.replaceText input.synthesisPairwise.toList
    "\x7bproposal_b\x7d".toList pair.2.toList)
  tau := 3 / 10
  maxTokens := input.cfg.synthesisTournamentMaxRoundTokens

/-- What `synthesize` reads off the perspectives; `none` if there are none or if a merge
fails. -/
def merged (input : ThinkingLoopInput K) (iteration : Nat) (outputs : List ArchetypeOutput)
    (prior : ThinkingReport K) : Option (ThinkingReport K) :=
  if outputs.isEmpty then none
  else
    let sortedOutputs := sortDescending (effectiveConfidence input.cfg) outputs
    let proposals := sortedOutputs.map (proposalText input)
    (tournamentMerge (fun round i pair => input.merge iteration round i
        (mergeRequest input prior pair)) proposals).map
      (parseSynthesisFromMarkdown input.externals)

/-- `synthesize`. -/
def synthesize (input : ThinkingLoopInput K) (iteration : Nat) (outputs : List ArchetypeOutput)
    (prior : ThinkingReport K) : ThinkingReport K :=
  (merged input iteration outputs prior).getD .default

/-- `compute_similarity` over `semantic_jaccard`. -/
def computeSimilarity (input : ThinkingLoopInput K) (a b : String) : K :=
  if a.isEmpty || b.isEmpty then 0
  else
    match input.embeddingModel with
    | none => if a = b then 1 else 0
    | some model => embeddedSimilarity input.sqrt model a b

def fallbackArchetypes : List String :=
  ["Constraint Satisfier", "Failure Mode Analyst", "Migration Safety Specialist"]

/-- The archetypes of an iteration. -/
def archetypesOf (input : ThinkingLoopInput K) (iteration : Nat) (prior : ThinkingReport K) :
    List String :=
  let rawArchetypes := input.selectArchetypes iteration prior
  if rawArchetypes.isEmpty then fallbackArchetypes else rawArchetypes

/-- `brainstorm_all`. -/
def brainstormAll (input : ThinkingLoopInput K) (iteration : Nat) (archetypes : List String) :
    List ArchetypeOutput :=
  archetypes.mapIdx fun i name => input.brainstorm iteration i name

/-- The synthesis of an iteration. -/
def synthesisOf (input : ThinkingLoopInput K) (iteration : Nat) (prior : ThinkingReport K) :
    Option (ThinkingReport K) :=
  merged input iteration (brainstormAll input iteration (archetypesOf input iteration prior)) prior

/-- The report an iteration leaves. -/
def nextReport (input : ThinkingLoopInput K) (iteration : Nat) (prior : ThinkingReport K) :
    ThinkingReport K :=
  let archetypes := archetypesOf input iteration prior
  let newReport := synthesize input iteration (brainstormAll input iteration archetypes) prior
  { newReport with
    prevSimilarity :=
      computeSimilarity input prior.sharedUnderstanding newReport.sharedUnderstanding
    iteration := iteration + 1
    archetypes := archetypes }

/-- `llm_gate`. -/
def llmGate (input : ThinkingLoopInput K) (iteration : Nat) (report : ThinkingReport K) : Bool :=
  let request : ComputeRequest :=
    { systemContext := input.gateSystem
      task := Verification.renderTemplate input.gateTask
        [("understanding", report.sharedUnderstanding),
          ("tensions", "; ".intercalate report.tensions),
          ("coverage", input.formatCoverage report.coverageScore)]
      tau := 1 / 10
      maxTokens := input.cfg.qualityGateMaxTokens }
  match input.gate iteration request with
  | none => false
  | some output =>
      "YES".toList.isPrefixOf
        (input.externals.toUppercase (String.ofList (Text.trim output.toList))).toList

/-- `coverage_score < threshold`; no comparison with NaN holds. -/
def belowThreshold (score : ParsedFloat) (threshold : ℚ) : Bool :=
  match score with
  | .finite q => decide (q < threshold)
  | .negInf => true
  | .posInf | .nan => false

/-- The loop goes on after an iteration that is not the last one. -/
def continues (input : ThinkingLoopInput K) (iteration : Nat) (report : ThinkingReport K) : Bool :=
  if belowThreshold report.coverageScore input.cfg.coverageThreshold then true
  else if report.prevSimilarity < input.cfg.convergenceThreshold ∧ 0 < iteration then true
  else !llmGate input iteration report

/-- The variables of the loop; `syntheses` records what the syntheses came to. -/
structure LoopState (K : Type) where
  report : ThinkingReport K
  allRetrieved : List (String × NodeSource)
  syntheses : List (Option (ThinkingReport K))

/-- One iteration. -/
def iterate (input : ThinkingLoopInput K) (iteration : Nat) (s : LoopState K) :
    Round (LoopState K) (LoopState K) :=
  let report := nextReport input iteration s.report
  let next : LoopState K :=
    { report := report
      allRetrieved := s.allRetrieved ++ input.fetchKnowledge iteration s.report
      syntheses := s.syntheses ++ [synthesisOf input iteration s.report] }
  if input.cfg.maxIterations ≤ iteration + 1 then .stop next
  else if continues input iteration report then .next next
  else .stop next

def start : LoopState K := ⟨.default, [], []⟩

/-- The state in which the loop is left. -/
def loopEnd (input : ThinkingLoopInput K) : LoopState K :=
  match forRounds (iterate input) input.cfg.maxIterations 0 start with
  | .next s => s
  | .stop s => s

/-- The first entry of every id. -/
def dedupById : List (String × NodeSource) → List (String × NodeSource)
  | [] => []
  | e :: rest => e :: (dedupById rest).filter fun f => decide (f.1 ≠ e.1)

def finish (s : LoopState K) : ThinkingReport K :=
  let deduplicated := dedupById s.allRetrieved
  { s.report with
    skillNodesUsed := (deduplicated.filter fun e => decide (e.2 = .synthetic)).length
    retrievedNodeIds := deduplicated.map Prod.fst }

/-- `thinking_loop::run`. -/
def run (input : ThinkingLoopInput K) : ThinkingReport K :=
  if input.cfg.enabled then finish (loopEnd input) else .default

end ControlPlane.Source.Engine.Thinking
