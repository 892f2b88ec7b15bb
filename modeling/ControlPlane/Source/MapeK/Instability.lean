import ControlPlane.Lib.Overlap
import ControlPlane.Source.MapeK.Types

/-!
# Cross-wave instability and frozen verifiers

Embeds `constraint_reasons_jaccard`, `find_instability` and
`accumulate_ambiguity` of `mape_k.rs`, the scorecards they keep
(`crates/h2ai-constraints/src/ambiguity.rs`), and `detect_frozen_verifier` of
`crates/h2ai-autonomic/src/epistemic.rs`. Maps are association lists with
distinct keys. Where the source walks a hash map, the order of the walk is a
parameter. The scorecards a run starts with come from a static scan of the
corpus and are arbitrary here.
-/
namespace ControlPlane.Source.MapeK

open Verification Config

/-! ## Word bags -/

/-- `split_whitespace`, collected into a set. -/
def wordBag (text : List Char) : Finset (List Char) :=
  ((text.splitOnP Text.isWhitespace).filter fun w => !w.isEmpty).toFinset

/-- `ambiguity::jaccard`: 1 when both texts have no words. -/
def wordJaccard (a b : List Char) : ℚ :=
  if wordBag a ∪ wordBag b = ∅ then 1 else Lib.Overlap.jaccard (wordBag a) (wordBag b)

def joinWithSpace (reasons : List String) : List Char :=
  List.intercalate [' '] (reasons.map String.toList)

/-- `constraint_reasons_jaccard`: 1 when either list is empty. -/
def constraintReasonsJaccard (a b : List String) : ℚ :=
  if a = [] ∨ b = [] then 1 else wordJaccard (joinWithSpace a) (joinWithSpace b)

/-! ## Hard-violation reasons of a wave -/

/-- `entry(key).or_default().push(value)`. -/
def pushEntry {α : Type} (key : String) (value : α) :
    List (String × List α) → List (String × List α)
  | [] => [(key, [value])]
  | (k, vs) :: rest =>
      if k = key then (k, vs ++ [value]) :: rest else (k, vs) :: pushEntry key value rest

/-- The non-empty reason of a Hard violation. -/
def hardReason (v : ConstraintViolation) : Option (String × String) :=
  if v.severityLabel = .hard then
    match v.verifierReason with
    | some r => if r = "" then none else some (v.constraintId, r)
    | none => none
  else none

/-- Reasons by constraint id, over all pruned branches of one wave. -/
def hardReasons (pruned : List BranchPrunedEvent) : List (String × List String) :=
  ((pruned.flatMap (·.violatedConstraints)).filterMap hardReason).foldl
    (fun acc entry => pushEntry entry.1 entry.2 acc) []

/-- Consecutive duplicates removed, as `Vec::dedup` does. -/
def dedupConsecutive : List String → List String
  | [] => []
  | [a] => [a]
  | a :: b :: rest => if a = b then dedupConsecutive (b :: rest) else a :: dedupConsecutive (b :: rest)

/-- The first constraint, in walk order, whose reasons diverge between the waves. -/
def firstDivergent (threshold : ℚ) (last prev : List (String × List String)) :
    List String → Option (String × ℚ × List String)
  | [] => none
  | cid :: rest =>
      match last.lookup cid, prev.lookup cid with
      | some lastRs, some prevRs =>
          let score := constraintReasonsJaccard lastRs prevRs
          if score < threshold then
            some (cid, score, (dedupConsecutive (lastRs ++ prevRs)).take 5)
          else firstDivergent threshold last prev rest
      | _, _ => firstDivergent threshold last prev rest

/-! ## Ambiguity scorecards -/

inductive AmbiguityEvidence where
  | multiStorageConflict (systems : List String)
  | fmTermNegation (term negatedIn : String)
  | remediationContradiction (checkSystem hintSystem : String)
  | crossCheckNegation (thisTerm : String) (negatingCheckIdx : Nat)
  | llmMetaValidated (reason : String)
  | jaccardFreezeWave (wave : Nat) (crossWaveJaccard : ℚ)
  | positiveExampleConflict (term exampleSnippet : String)
  deriving DecidableEq, Repr

def AmbiguityEvidence.weight (cfg : AmbiguityDetectionConfig) : AmbiguityEvidence → ℚ
  | .multiStorageConflict _ => cfg.weightMultiStorage
  | .fmTermNegation .. => cfg.weightFmNegation
  | .remediationContradiction .. => cfg.weightRemediationConflict
  | .crossCheckNegation .. => cfg.weightCrossCheckNegation
  | .llmMetaValidated _ => cfg.weightLlmConfirmed
  | .jaccardFreezeWave .. => cfg.weightJaccardFreezeWave
  | .positiveExampleConflict .. => cfg.weightPositiveExampleConflict

/-- `DYNAMIC_ONLY_CHECK_IDX` (`usize::MAX`). -/
def dynamicOnlyCheckIdx : Nat := 2 ^ 64 - 1

structure AmbiguityScorecard where
  constraintId : String
  checkIdx : Nat
  score : ℚ
  evidence : List AmbiguityEvidence
  rewriteApplied : Bool
  deriving DecidableEq, Repr

def AmbiguityScorecard.new (constraintId : String) (checkIdx : Nat) : AmbiguityScorecard :=
  ⟨constraintId, checkIdx, 0, [], false⟩

def AmbiguityEvidence.isStatic : AmbiguityEvidence → Bool
  | .jaccardFreezeWave .. => false
  | _ => true

/-- `patch_mode`: `some i` is `Precise { check_idx: i }`, `none` is `DiagnosticOnly`. -/
def AmbiguityScorecard.patchMode (card : AmbiguityScorecard) : Option Nat :=
  if card.evidence.any (·.isStatic) ∧ card.checkIdx ≠ dynamicOnlyCheckIdx then
    some card.checkIdx
  else none

def scoreEvidence (card : AmbiguityScorecard) (ev : AmbiguityEvidence)
    (cfg : AmbiguityDetectionConfig) : AmbiguityScorecard :=
  { card with score := min (card.score + ev.weight cfg) 1, evidence := card.evidence ++ [ev] }

abbrev Scorecards := List ((String × Nat) × AmbiguityScorecard)

/-- `HashMap::insert` on the scorecards. -/
def Scorecards.insert (key : String × Nat) (card : AmbiguityScorecard) : Scorecards → Scorecards
  | [] => [(key, card)]
  | (k, c) :: rest =>
      if k = key then (key, card) :: rest else (k, c) :: Scorecards.insert key card rest

/-- `max_by` on scores: the last maximum of the walk. -/
def lastMaxScore : List ((String × Nat) × AmbiguityScorecard) →
    Option ((String × Nat) × AmbiguityScorecard)
  | [] => none
  | entry :: rest =>
      match lastMaxScore rest with
      | none => some entry
      | some best => if best.2.score < entry.2.score then some entry else some best

/-- The scorecard that new dynamic evidence for `cid` goes to. -/
def scorecardKey (cards : Scorecards) (cid : String) : String × Nat :=
  match lastMaxScore (cards.filter fun e =>
      decide (e.1.1 = cid) && decide (e.1.2 ≠ dynamicOnlyCheckIdx)) with
  | some entry => entry.1
  | none => (cid, dynamicOnlyCheckIdx)

/-- Index pairs `(i, j)`, `i < j`, with the similarity of their reasons. -/
def reasonPairs : List String → List (String × String)
  | [] => []
  | a :: rest => rest.map (fun b => (a, b)) ++ reasonPairs rest

/-- `most_divergent_pair`: the first pair of least similarity. -/
def mostDivergentPair (reasons : List String) : Option (String × String) :=
  (reasonPairs reasons).foldl (fun best pair =>
    match best with
    | none => some pair
    | some b =>
        if wordJaccard pair.1.toList pair.2.toList < wordJaccard b.1.toList b.2.toList
        then some pair else some b) none

/-- The divergent pair first, the other reasons after it. -/
def orderReasons (reasons : List String) : List String :=
  match mostDivergentPair reasons with
  | none => reasons
  | some (a, b) => a :: b :: reasons.filter fun r => decide (r ≠ a) && decide (r ≠ b)

/-- What `accumulate_ambiguity` leaves behind and reports. -/
structure AmbiguityStep where
  cards : Scorecards
  event : Option ConstraintAmbiguityDetectedEvent
  signal : Option InstabilitySignal

/-- `accumulate_ambiguity`. `display` renders evidence for the report. -/
def accumulateAmbiguity (display : AmbiguityEvidence → String) (cfg : AmbiguityDetectionConfig)
    (cards : Scorecards) (cid : String) (instabilityScore : ℚ) (reasons : List String)
    (wave : Nat) : AmbiguityStep :=
  let key := scorecardKey cards cid
  let current := (cards.lookup key).getD (.new cid key.2)
  if current.rewriteApplied then ⟨cards, none, none⟩
  else
    let updated := scoreEvidence current (.jaccardFreezeWave wave instabilityScore) cfg
    if updated.score < cfg.scoreThreshold then ⟨cards.insert key updated, none, none⟩
    else
      let fired := { updated with rewriteApplied := true }
      let evidenceLines := fired.evidence.map display
      let cards' := cards.insert key fired
      match fired.patchMode with
      | some checkIdx =>
          ⟨cards', none, some ⟨cid, checkIdx, instabilityScore, orderReasons reasons,
            evidenceLines, fired.score⟩⟩
      | none =>
          -- the check is unknown: report only, no repair
          ⟨cards', some ⟨cid, evidenceLines, fired.score, wave⟩, none⟩

/-- `find_instability` on the pruned branches of the last two waves. `walk` gives
the iteration order over the keys of the last wave's reasons. -/
def findInstability (display : AmbiguityEvidence → String) (walk : List String → List String)
    (gapK1 : GapK1Config) (ambiguity : AmbiguityDetectionConfig)
    (lastWavePruned prevWavePruned : List BranchPrunedEvent) (cards : Scorecards) (wave : Nat) :
    AmbiguityStep :=
  let last := hardReasons lastWavePruned
  let prev := hardReasons prevWavePruned
  match firstDivergent gapK1.instabilityThreshold last prev (walk (last.map Prod.fst)) with
  | none => ⟨cards, none, none⟩
  | some (cid, score, reasons) =>
      if ambiguity.enabled then
        accumulateAmbiguity display ambiguity cards cid score reasons wave
      else ⟨cards, none, some ⟨cid, 0, score, reasons, [], 0⟩⟩

/-! ## Frozen verifiers -/

def scoreRange : List ℚ → ℚ
  | [] => 0
  | [_] => 0
  | s :: rest => rest.foldl max s - rest.foldl min s

/-- Non-decreasing with at least one strict increase. -/
def isMonotonicallyImproving (scores : List ℚ) : Bool :=
  decide (2 ≤ scores.length) &&
    (scores.zip scores.tail).all (fun w => decide (w.1 ≤ w.2)) &&
    (scores.zip scores.tail).any (fun w => decide (w.1 < w.2))

def mean (scores : List ℚ) : ℚ := if scores = [] then 0 else scores.sum / scores.length

def meanLastN (scores : List ℚ) (n : Nat) : ℚ := mean (scores.drop (scores.length - n))

/-- `mean_pairwise_jaccard_str`: 1 for fewer than two reasons. -/
def meanPairwiseJaccard (reasons : List String) : ℚ :=
  if reasons.length < 2 then 1
  else mean ((reasonPairs reasons).map fun p => wordJaccard p.1.toList p.2.toList)

/-- `detect_frozen_verifier`: the scores and a sample reason when all conditions hold. -/
def detectFrozenVerifier (cfg : VerifierFreezeConfig) (waveScores : List ℚ)
    (reasonHistory : List String) (otherTrends : List (List ℚ)) : Option (List ℚ × String) :=
  if waveScores.length < cfg.minWavesToDetect then none
  else if otherTrends = [] then none
  else if cfg.scoreVarianceThreshold ≤ scoreRange waveScores then none
  else if otherTrends.any (fun scores => isMonotonicallyImproving scores &&
      decide (cfg.otherConstraintSuccessThreshold < meanLastN scores cfg.minWavesToDetect)) = false
    then none
  else if reasonHistory.length < 2 then none
  else if meanPairwiseJaccard reasonHistory ≤ cfg.reasonJaccardThreshold then none
  else some (waveScores, reasonHistory.getLast?.getD "")

end ControlPlane.Source.MapeK
