import ControlPlane.Lib.Entries
import ControlPlane.Lib.Medoid
import ControlPlane.Lib.Runs
import ControlPlane.Lib.Sequences
import ControlPlane.Source.Consensus.CommonGround
import ControlPlane.Source.Consensus.Semilattice
import ControlPlane.Source.MapeK.RepairContext
import Mathlib.Algebra.BigOperators.Fin

/-!
# Consensus median

Embeds `crates/h2ai-state/src/bft.rs` over exact rationals. `tokenize` and
`token_jaccard` there are the functions of the same text as in the repetition guard
(`tokenize`, `similarity`): two texts without tokens are not alike. A reference into
the slice of proposals is its position. `max_by` returns the last of several maxima.
-/
namespace ControlPlane.Source.Consensus.Median

open Lib.Medoid Constraints Verification

/-- `token_jaccard` of `bft.rs`. -/
def tokenJaccard (x : Externals) (a b : String) : ℚ := similarity x a b

/-- The entry of `pair_sims` for two outputs. -/
def pairSimilarity (x : Externals) (sqrt : ℚ → ℚ) (embeddingModel : Option (EmbeddingModel ℚ))
    (a b : String) : ℚ :=
  match embeddingModel with
  | none => tokenJaccard x a b
  | some m => embeddedSimilarity sqrt m a b

/-- `ConsensusMedian::resolve`. -/
def resolve (x : Externals) (sqrt : ℚ → ℚ) (proposals : List ProposalEvent)
    (embeddingModel : Option (EmbeddingModel ℚ)) : Option (Fin proposals.length) :=
  if proposals.isEmpty then none
  else if proposals.length = 1 then (List.finRange proposals.length).head?
  else
    let outputs := fun i : Fin proposals.length => (proposals.get i).rawOutput
    let sims := symmetricMatrix 1 fun i j =>
      pairSimilarity x sqrt embeddingModel (outputs i) (outputs j)
    (List.finRange proposals.length).reverse.argmax fun i => ((List.finRange _).map (sims i)).sum

/-! ## The token path as a medoid -/

/-- The token set of the proposal at a position. -/
def tokensAt (x : Externals) (proposals : List ProposalEvent) (i : ℕ) : Finset String :=
  match proposals[i]? with
  | none => ∅
  | some proposal => tokenize x proposal.rawOutput

theorem tokensAt_get (x : Externals) (proposals : List ProposalEvent)
    (i : Fin proposals.length) :
    tokensAt x proposals i = tokenize x (proposals.get i).rawOutput := by
  simp [tokensAt]

theorem tokenJaccard_eq (x : Externals) (a b : String) :
    tokenJaccard x a b = Lib.Overlap.jaccard (tokenize x a) (tokenize x b) := by
  unfold tokenJaccard similarity tokenOverlap
  split
  · rename_i hempty
    rw [hempty.1, Lib.Overlap.jaccard_empty_left]
  · rfl

theorem row_eq_rowSum (x : Externals) (proposals : List ProposalEvent)
    (i : Fin proposals.length) :
    ((List.finRange proposals.length).map (symmetricMatrix 1
        (fun i j : Fin proposals.length => tokenJaccard x (proposals.get i).rawOutput
          (proposals.get j).rawOutput) i)).sum =
      rowSum (tokensAt x proposals) proposals.length i := by
  rw [rowSum, ← List.ofFn_eq_map, List.sum_ofFn, Finset.sum_range]
  refine Finset.sum_congr rfl ?_
  intro j _
  rw [symmetricMatrix_of_comm]
  · simp only [closeness, tokensAt_get, tokenJaccard_eq, Fin.ext_iff]
  · intro i j
    rw [tokenJaccard_eq, tokenJaccard_eq, Lib.Overlap.jaccard_comm]

/-- Without an embedding model the medoid of the token sets is returned. -/
theorem resolve_eq_some_iff (x : Externals) (sqrt : ℚ → ℚ) (proposals : List ProposalEvent)
    (i : Fin proposals.length) :
    resolve x sqrt proposals none = some i ↔
      IsLastMax (rowSum (tokensAt x proposals) proposals.length) proposals.length i := by
  have hnonempty : ¬ proposals.isEmpty := by
    rw [List.isEmpty_iff_length_eq_zero]
    have := i.isLt
    omega
  unfold resolve
  simp only [hnonempty, Bool.false_eq_true, ↓reduceIte]
  split
  · rename_i hone
    have hzero : i.val = 0 := by omega
    constructor
    · intro _
      refine ⟨i.isLt, ?_, ?_⟩
      · intro j hj
        rw [show j = i.val by omega]
      · intro j hj _
        omega
    · intro _
      rw [List.head?_eq_getElem?, List.getElem?_eq_getElem (by simp [hone])]
      simp [Fin.ext_iff, hzero]
  · rw [← argmax_reverse_finRange]
    simp only [pairSimilarity, row_eq_rowSum]

theorem resolve_isSome (x : Externals) (sqrt : ℚ → ℚ) {proposals : List ProposalEvent}
    (h : 0 < proposals.length) (embeddingModel : Option (EmbeddingModel ℚ)) :
    ∃ i, resolve x sqrt proposals embeddingModel = some i := by
  have hnonempty : ¬ proposals.isEmpty := by
    rw [List.isEmpty_iff_length_eq_zero]
    omega
  unfold resolve
  simp only [hnonempty, Bool.false_eq_true, ↓reduceIte]
  split
  · exact ⟨⟨0, h⟩, by rw [List.head?_eq_getElem?, List.getElem?_eq_getElem (by simpa using h)]; simp⟩
  · rw [← Option.isSome_iff_exists, Option.isSome_iff_ne_none, Ne, List.argmax_eq_none]
    simp only [List.reverse_eq_nil_iff, List.finRange_eq_nil_iff]
    omega

end ControlPlane.Source.Consensus.Median

/-!
# Merging under the OSP

Embeds `retry_accumulator.rs`, `audit_channel.rs` and the path of `MergeEngine::resolve`
(`merger.rs`) that an `OspConfig` selects, all of `crates/h2ai-autonomic/src`, with its
call in `phases/merge.rs` and the life of the accumulator in `engine.rs`. Numbers are exact;
the logarithm, the square root and the order in which a hash map is walked are parameters.
The analysis of contradictions is left out: it reads none of the rates.
-/
namespace ControlPlane.Source.Consensus

open Lib Constraints Verification MapeK

structure OspConfig where
  tV : ℚ
  concordanceAlpha : ℚ
  maxNVForZone3 : Nat
  accumulationDecay : ℚ

/-! ## The accumulator of a task -/

structure RetryAccumulator where
  rates : AList fun _ : String => ℚ

def RetryAccumulator.new : RetryAccumulator := ⟨∅⟩

/-- `rates.get(cid).copied().unwrap_or(0.0)`. -/
def RetryAccumulator.rate (acc : RetryAccumulator) (cid : String) : ℚ :=
  (acc.rates.lookup cid).getD 0

/-- The counting loop of `update` and of `build_zone3`. -/
def violationCounts (violations : List ConstraintViolation) : List (String × Nat) :=
  (violations.map (·.constraintId)).foldl bump []

/-- `count as f64 / denominator` for every counted constraint. -/
def violationRates (violations : List ConstraintViolation) (nF : Nat) : List (String × ℚ) :=
  (violationCounts violations).map fun e => (e.1, (e.2 : ℚ) / nF)

/-- One round of the loop of `update`. -/
def insertRate (lambda : ℚ) (rates : AList fun _ : String => ℚ) (e : String × ℚ) :
    AList fun _ : String => ℚ :=
  let old := (rates.lookup e.1).getD 0
  rates.insert e.1 (leaky lambda old e.2)

/-- `RetryAccumulator::update`. -/
def RetryAccumulator.update (acc : RetryAccumulator) (violations : List ConstraintViolation)
    (nF : Nat) (lambda : ℚ) : RetryAccumulator :=
  if nF = 0 then acc
  else ⟨(violationRates violations nF).foldl (insertRate lambda) acc.rates⟩

/-- `RetryAccumulator::reset`. -/
def RetryAccumulator.reset (_ : RetryAccumulator) : RetryAccumulator := ⟨∅⟩

/-! ## What an update does to a rate -/

theorem mem_violationRates {violations : List ConstraintViolation} {nF : Nat} {cid : String}
    {r : ℚ} : (cid, r) ∈ violationRates violations nF ↔
      cid ∈ violations.map (·.constraintId) ∧
        r = ((violations.map (·.constraintId)).count cid : ℚ) / nF := by
  simp only [violationRates, violationCounts, List.mem_map (f := fun e : String × Nat => _),
    Prod.mk.injEq, Prod.exists]
  constructor
  · rintro ⟨cid', n, hmem, rfl, rfl⟩
    obtain ⟨hnamed, rfl⟩ := (mem_foldl_bump_iff _ cid' n).mp hmem
    exact ⟨hnamed, rfl⟩
  · rintro ⟨hnamed, rfl⟩
    exact ⟨cid, _, (mem_foldl_bump_iff _ cid _).mpr ⟨hnamed, rfl⟩, rfl, rfl⟩

theorem violationRates_keys (violations : List ConstraintViolation) (nF : Nat) :
    (violationRates violations nF).map Prod.fst = (violationCounts violations).map Prod.fst := by
  simp [violationRates]

theorem lookup_foldl_insertRate_of_not_mem {lambda : ℚ} {entries : List (String × ℚ)}
    {cid : String} (h : cid ∉ entries.map Prod.fst) (rates : AList fun _ : String => ℚ) :
    (entries.foldl (insertRate lambda) rates).lookup cid = rates.lookup cid := by
  induction entries generalizing rates with
  | nil => rfl
  | cons e rest ih =>
      rw [List.map_cons, List.mem_cons, not_or] at h
      rw [List.foldl_cons, ih h.2, insertRate, AList.lookup_insert_ne h.1]

theorem lookup_foldl_insertRate_of_mem {lambda : ℚ} {entries : List (String × ℚ)}
    (nodup : (entries.map Prod.fst).Nodup) {cid : String} {r : ℚ} (h : (cid, r) ∈ entries)
    (rates : AList fun _ : String => ℚ) :
    (entries.foldl (insertRate lambda) rates).lookup cid =
      some (leaky lambda ((rates.lookup cid).getD 0) r) := by
  induction entries generalizing rates with
  | nil => cases h
  | cons e rest ih =>
      rw [List.map_cons, List.nodup_cons] at nodup
      rw [List.foldl_cons]
      rcases List.mem_cons.mp h with rfl | hrest
      · rw [lookup_foldl_insertRate_of_not_mem nodup.1, insertRate, AList.lookup_insert]
      · have hne : cid ≠ e.1 := by
          rintro rfl
          exact nodup.1 (List.mem_map.mpr ⟨_, hrest, rfl⟩)
        rw [ih nodup.2 hrest, insertRate, AList.lookup_insert_ne hne]

/-- A named constraint takes the leaky mean of its rate and of its share in the update. -/
theorem update_lookup_of_named {violations : List ConstraintViolation} {cid : String}
    (h : cid ∈ violations.map (·.constraintId)) {nF : Nat} (hnF : nF ≠ 0) (lambda : ℚ)
    (acc : RetryAccumulator) :
    (acc.update violations nF lambda).rates.lookup cid =
      some (leaky lambda (acc.rate cid)
        (((violations.map (·.constraintId)).count cid : ℚ) / nF)) := by
  have hnodup : ((violationRates violations nF).map Prod.fst).Nodup := by
    rw [violationRates_keys]
    exact nodup_keys_foldl_bump _
  rw [RetryAccumulator.update, if_neg hnF]
  exact lookup_foldl_insertRate_of_mem hnodup (mem_violationRates.mpr ⟨h, rfl⟩) acc.rates

/-- The rate of a constraint that no violation names is left as it is. -/
theorem update_lookup_of_not_named {violations : List ConstraintViolation} {cid : String}
    (h : cid ∉ violations.map (·.constraintId)) (nF : Nat) (lambda : ℚ)
    (acc : RetryAccumulator) :
    (acc.update violations nF lambda).rates.lookup cid = acc.rates.lookup cid := by
  unfold RetryAccumulator.update
  split
  next => rfl
  next =>
    apply lookup_foldl_insertRate_of_not_mem
    rwa [violationRates_keys, violationCounts, mem_keys_foldl_bump]

/-! ## Audit findings -/

def concordanceEpsilon : ℚ := 1 / 100000

/-- What the merge engine calls. A hash map is walked in some order of its entries. -/
structure MergeParts where
  externals : Externals
  sqrt : ℚ → ℚ
  ln : ℚ → ℚ
  embeddingModel : Option (EmbeddingModel ℚ)
  walk : List (String × ℚ) → List (String × ℚ)
  walk_perm : ∀ entries, (walk entries).Perm entries

/-- The map may be walked in the order it is stored in. -/
theorem id_perm (entries : List (String × ℚ)) : (id entries).Perm entries := .refl entries

/-- `AuditChannelBuilder::adaptive_threshold`. -/
def adaptiveThreshold (p : MergeParts) (nF : Nat) (alpha : ℚ) : ℚ :=
  if nF = 0 then 1
  else
    let inner := -p.ln alpha / (2 * nF)
    max (1 / 2) (min 1 (1 / 2 * p.sqrt inner + 1 / 2))

/-- The guards of `build_zone3`. -/
def zone3Open (violations : List ConstraintViolation) (nF nV retryCount : Nat)
    (config : OspConfig) : Bool :=
  if nF = 0 ∨ violations.isEmpty then false
  else if nV > config.maxNVForZone3 then false
  else if nF = 1 ∧ retryCount > 3 then false
  else true

/-- `c_k` of every counted constraint, where `build_zone3` gets so far. -/
def concordances (violations : List ConstraintViolation) (nF nV retryCount : Nat)
    (config : OspConfig) : List (String × ℚ) :=
  if zone3Open violations nF nV retryCount config then violationRates violations nF else []

/-- `hints.get(cid)`: the first hint that a violation of the constraint gives. -/
def firstHint (violations : List ConstraintViolation) (cid : String) : Option String :=
  violations.findSome? fun v => if v.constraintId = cid then v.remediationHint else none

def findingLines (violations : List ConstraintViolation) (e : String × ℚ) : List String :=
  let line := "- " ++ e.1 ++ ": observed in " ++ fixedText 0 (e.2 * 100) ++ "% of drafts"
  match firstHint violations e.1 with
  | some h => [line, "  Guidance: " ++ h]
  | none => [line]

/-- `AuditChannelBuilder::build_zone3`. -/
def buildZone3 (p : MergeParts) (violations : List ConstraintViolation)
    (nF nV retryCount : Nat) (config : OspConfig) : Option String :=
  let threshold := adaptiveThreshold p nF config.concordanceAlpha
  let concordant := (p.walk (concordances violations nF nV retryCount config)).filter fun e =>
    decide (e.2 + concordanceEpsilon ≥ threshold)
  if concordant.isEmpty then none
  else
    let sorted := concordant.insertionSort fun a b => b.2 ≤ a.2
    some ("\n".intercalate
      ("AUDIT FINDINGS: The following criteria showed consistent difficulty in prior drafts:" ::
        sorted.flatMap (findingLines violations)))

/-! ## The merge engine -/

inductive OspRegime where
  | singleSurvivor
  | clearLeader
  | tightCluster
  deriving DecidableEq, Repr

/-- `classify_osp_regime`; the scores are sorted descending. -/
def classifyOspRegime (scores : List ℚ) (tV : ℚ) : OspRegime :=
  match scores with
  | first :: second :: _ =>
      if first - second ≥ 2 * tV then .clearLeader else .tightCluster
  | _ => .singleSurvivor

/-- The resolved output and the selection mode of the OSP path. -/
def ospSelection (p : MergeParts) (config : OspConfig) (result : SemilatticeResult ℚ) :
    String × String :=
  let first := (result.validProposals.head?.map (·.rawOutput)).getD ""
  match classifyOspRegime result.validProposalScores config.tV with
  | .singleSurvivor => (first, "OSP-SingleSurvivor")
  | .clearLeader => (first, "OSP-ClearLeader")
  | .tightCluster =>
      let median := Median.resolve p.externals p.sqrt result.validProposals p.embeddingModel
      ((median.map fun i => (result.validProposals.get i).rawOutput).getD "", "OSP-TightCluster")

structure SelectionResolvedEvent where
  taskId : String
  validProposals : List String
  prunedProposals : List (String × String)
  nInputProposals : Nat
  nFailedProposals : Nat
  mergeSelectionMode : String
  deriving DecidableEq, Repr

inductive MergeOutcome where
  | resolved (selectionResolved : SelectionResolvedEvent) (resolvedOutput : String)
      (zone3Hints : Option String)
  | zeroSurvival (taskId : String) (retryCount : Nat)
  deriving DecidableEq, Repr

/-- `n_f` of `resolve`. -/
def failedCount (nFSemilattice : Nat) (violations : Option (List ConstraintViolation)) : Nat :=
  match violations with
  | none => nFSemilattice
  | some v => if v.isEmpty then nFSemilattice else max nFSemilattice 1

/-- What `resolve` answers and leaves in the accumulator, with the rates that
`build_zone3` and `update` worked with on the way. -/
structure MergeStep where
  outcome : MergeOutcome
  accumulator : RetryAccumulator
  concordances : List (String × ℚ)
  newRates : Option (List (String × ℚ))

/-- `MergeEngine::resolve` with an accumulator and an `OspConfig`. -/
def MergeEngine.resolve (p : MergeParts) (taskId : String) (proposals : ProposalSet ℚ)
    (pruned : List BranchPrunedEvent) (retryCount : Nat)
    (violations : Option (List ConstraintViolation)) (acc : RetryAccumulator)
    (config : OspConfig) : MergeStep :=
  let nInput := proposals.table.entries.length + pruned.length
  let result := compile taskId proposals pruned
  if result.validProposals.isEmpty then ⟨.zeroSurvival taskId retryCount, acc, [], none⟩
  else
    let (resolvedOutput, selectionMode) := ospSelection p config result
    let selectionResolved : SelectionResolvedEvent :=
      { taskId := taskId
        validProposals := result.validProposals.map (·.explorerId)
        prunedProposals := result.prunedProposals.map fun e => (e.explorerId, e.reason)
        nInputProposals := nInput
        nFailedProposals := result.failedProposals.length
        mergeSelectionMode := selectionMode }
    let nV := result.validProposals.length
    let nF := failedCount result.failedProposals.length violations
    let zone3 := violations.bind fun v => buildZone3 p v nF nV retryCount config
    { outcome := .resolved selectionResolved resolvedOutput zone3
      accumulator := (violations.map fun v => acc.update v nF config.accumulationDecay).getD acc
      concordances := (violations.map fun v => concordances v nF nV retryCount config).getD []
      newRates := violations.map fun v => violationRates v nF }

/-! ## The waves of a task -/

/-- A wave that reaches the merge phase. -/
structure MergeWave where
  taskId : String
  proposals : ProposalSet ℚ
  pruned : List BranchPrunedEvent
  retryCount : Nat

/-- `wave_violations` of `pipeline.rs`. -/
def MergeWave.violations (wave : MergeWave) : List ConstraintViolation :=
  wave.pruned.flatMap (·.violatedConstraints)

/-- The call of `phases::merge::run`. -/
def MergeWave.resolve (p : MergeParts) (config : OspConfig) (acc : RetryAccumulator)
    (wave : MergeWave) : MergeStep :=
  MergeEngine.resolve p wave.taskId wave.proposals wave.pruned wave.retryCount
    (if wave.violations.isEmpty then none else some wave.violations) acc config

/-- What the engine does with the accumulator of a task: it is handed to the merge of every
wave and reset when a wave is resolved. -/
inductive TaskAction where
  | merge (wave : MergeWave)
  | reset

def accumulate (p : MergeParts) (config : OspConfig) (acc : RetryAccumulator) :
    TaskAction → RetryAccumulator
  | .merge wave => (wave.resolve p config acc).accumulator
  | .reset => acc.reset

/-! ## What a wave is counted with -/

/-- The constraints that the violations of the wave name. -/
def MergeWave.violated (wave : MergeWave) : List String :=
  wave.violations.map (·.constraintId)

/-- The pruned proposals with a violation of the constraint. -/
def MergeWave.naming (wave : MergeWave) (cid : String) : Nat :=
  wave.pruned.countP fun e => decide (cid ∈ e.violatedConstraints.map (·.constraintId))

/-- A proposal that was not pruned scored more than zero. -/
def MergeWave.Survives (wave : MergeWave) : Prop :=
  ∃ p ∈ scoredProposals wave.proposals wave.pruned, 0 < p.2

instance (wave : MergeWave) : Decidable wave.Survives :=
  inferInstanceAs (Decidable (∃ p ∈ scoredProposals wave.proposals wave.pruned, 0 < p.2))

/-- The proposals that were not pruned and scored nothing. -/
def MergeWave.zeroScored (wave : MergeWave) : Nat :=
  (scoredProposals wave.proposals wave.pruned).countP fun p => !decide (0 < p.2)

theorem compile_valid_isEmpty (taskId : String) (proposals : ProposalSet ℚ)
    (pruned : List BranchPrunedEvent) :
    (compile taskId proposals pruned).validProposals.isEmpty = true ↔
      ∀ p ∈ scoredProposals proposals pruned, ¬ 0 < p.2 := by
  simp only [compile, sortByScore, List.isEmpty_iff, List.map_eq_nil_iff, List.filter_eq_nil_iff,
    List.mem_insertionSort, gt_iff_lt, decide_eq_true_eq]

theorem compile_failed_length (taskId : String) (proposals : ProposalSet ℚ)
    (pruned : List BranchPrunedEvent) :
    (compile taskId proposals pruned).failedProposals.length =
      (scoredProposals proposals pruned).countP fun p => !decide (0 < p.2) := by
  simp only [compile, sortByScore, List.length_map, ← List.countP_eq_length_filter]
  exact (List.perm_insertionSort _ _).countP_eq _

/-! ## What merging a wave does -/

theorem mem_violated (wave : MergeWave) (cid : String) :
    cid ∈ wave.violated ↔
      ∃ e ∈ wave.pruned, cid ∈ e.violatedConstraints.map (·.constraintId) := by
  simp only [MergeWave.violated, MergeWave.violations, List.map_flatMap, List.mem_flatMap]

/-- A wave with violations and a survivor counts them against its proposals without a
score, or against one. -/
def MergeWave.counted (wave : MergeWave) : Nat := max wave.zeroScored 1

/-- Without violations or without a survivor the accumulator is left alone. -/
theorem resolve_of_unreached (p : MergeParts) (config : OspConfig) (acc : RetryAccumulator)
    {wave : MergeWave} (h : wave.violations = [] ∨ ¬ wave.Survives) :
    (wave.resolve p config acc).accumulator = acc ∧
      (wave.resolve p config acc).concordances = [] ∧
      (wave.resolve p config acc).newRates = none := by
  unfold MergeWave.resolve MergeEngine.resolve
  by_cases hempty :
      (compile wave.taskId wave.proposals wave.pruned).validProposals.isEmpty = true
  · simp [hempty]
  · have hsurvives : wave.Survives := by
      rw [compile_valid_isEmpty] at hempty
      push Not at hempty
      exact hempty
    have hviolations : wave.violations = [] := h.resolve_right (not_not.mpr hsurvives)
    simp [hempty, hviolations]

/-- With both it is updated, by the rates that the concordances are taken from. -/
theorem resolve_of_reached (p : MergeParts) (config : OspConfig) (acc : RetryAccumulator)
    {wave : MergeWave} (hviolations : wave.violations ≠ []) (hsurvives : wave.Survives) :
    (wave.resolve p config acc).accumulator =
        acc.update wave.violations wave.counted config.accumulationDecay ∧
      (∀ e ∈ (wave.resolve p config acc).concordances,
        e ∈ violationRates wave.violations wave.counted) ∧
      (wave.resolve p config acc).newRates =
        some (violationRates wave.violations wave.counted) := by
  have hvalid : ¬ (compile wave.taskId wave.proposals wave.pruned).validProposals.isEmpty := by
    rw [compile_valid_isEmpty]
    push Not
    exact hsurvives
  have hsome : (if wave.violations.isEmpty then none else some wave.violations) =
      some wave.violations := by
    simp [hviolations]
  have hcounted : failedCount (compile wave.taskId wave.proposals wave.pruned).failedProposals.length
      (some wave.violations) = wave.counted := by
    simp only [failedCount, List.isEmpty_iff, hviolations, ↓reduceIte, compile_failed_length]
    rfl
  unfold MergeWave.resolve MergeEngine.resolve
  simp only [hvalid, hsome, hcounted, ↓reduceIte, Bool.false_eq_true, Option.map_some,
    Option.getD_some, true_and, and_true]
  intro e he
  unfold concordances at he
  split at he
  next => exact he
  next => cases he

end ControlPlane.Source.Consensus
