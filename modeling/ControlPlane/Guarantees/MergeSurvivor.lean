import ControlPlane.Source.Consensus.Merger

/-!
# The merge returns a survivor

A merge should answer with the text of a proposal that was not pruned and has a score, and
with `ZeroSurvival` only where there is none. Every selector is defined on the lists that
its guard lets through, with one exception: Multi-Krum that is asked for nobody selects
nobody, and the merge resolves to the empty text.
-/
namespace ControlPlane.Guarantees.MergeSurvivor

open Source.Verification Source.MapeK Source.Consensus

/-! ## Statement -/

/-- The vectors of a model have one dimension; an empty one stands for no embedding. -/
def Consistent (model : EmbeddingModel ℚ) : Prop :=
  ∃ dim, ∀ text, model.embed text = [] ∨ (model.embed text).length = dim

/-- The proposal is in the set, was not pruned and scored more than zero. -/
def IsSurvivor (proposals : ProposalSet ℚ) (pruned : List BranchPrunedEvent)
    (q : ProposalEvent) : Prop :=
  ∃ held, proposals.table.lookup q.explorerId = some held ∧ held.proposal = q ∧
    q.explorerId ∉ pruned.map (·.explorerId) ∧ 0 < held.score

/-- The valid proposals of a merge. -/
abbrev validOf (call : MergeCall) (proposals : ProposalSet ℚ) (pruned : List BranchPrunedEvent) :
    List ProposalEvent :=
  (compile call.taskId proposals pruned).validProposals

/-- The output is the text of the survivor, which the selection found and the event lists. -/
structure Returns (p : MergeParts) (call : MergeCall) (proposals : ProposalSet ℚ)
    (pruned : List BranchPrunedEvent) (event : SelectionResolvedEvent) (output : String)
    (q : ProposalEvent) : Prop where
  survivor : IsSurvivor proposals pruned q
  output : output = q.rawOutput
  listed : q.explorerId ∈ event.validProposals
  selected : ∃ selection i,
    selectProposal p (validOf call proposals pruned) call.strategy call.config
      (compile call.taskId proposals pruned).validProposalScores = some selection ∧
      selection.position = some i ∧ (validOf call proposals pruned).get i = q

/-- The merge answers, with `ZeroSurvival` exactly without a survivor and else with one. -/
structure ReturnsSurvivor (p : MergeParts) (call : MergeCall) (proposals : ProposalSet ℚ)
    (pruned : List BranchPrunedEvent) (answer : MergeAnswer) : Prop where
  answers : mergeProposals p call proposals pruned = some answer
  zero : (∃ taskId retryCount, answer.outcome = .zeroSurvival taskId retryCount) ↔
    ∀ q, ¬ IsSurvivor proposals pruned q
  real : ∀ event output hints, answer.outcome = .resolved event output hints →
    ∃ q, Returns p call proposals pruned event output q

/-- Multi-Krum applies to the valid proposals, and `m` is zero. -/
def selectsNobody (p : MergeParts) (call : MergeCall) (valid : List ProposalEvent) : Bool :=
  match call.config, call.strategy with
  | none, .multiOutlierResistant f 0 => krumApplies p valid f
  | _, _ => false

/-! ## The valid proposals -/

theorem mem_validOf {call : MergeCall} {proposals : ProposalSet ℚ}
    {pruned : List BranchPrunedEvent} {q : ProposalEvent} :
    q ∈ validOf call proposals pruned ↔ IsSurvivor proposals pruned q := by
  simp only [validOf, compile, sortByScore, scoredProposals, List.mem_map, List.mem_filter,
    List.mem_insertionSort, IsSurvivor]
  constructor
  · rintro ⟨scored, ⟨⟨held, ⟨⟨entry, hentry, rfl⟩, hpruned⟩, rfl⟩, hscore⟩, rfl⟩
    have hlookup : proposals.table.lookup entry.1 = some entry.2 :=
      AList.mem_lookup_iff.mpr hentry
    refine ⟨entry.2, ?_, rfl, ?_, of_decide_eq_true hscore⟩
    · rw [(proposals.filed entry.1 entry.2 hlookup).1]
      exact hlookup
    · simpa using hpruned
  · rintro ⟨held, hlookup, rfl, hpruned, hscore⟩
    have hentry := AList.mem_lookup_iff.mp hlookup
    refine ⟨(held.proposal, held.score), ⟨⟨held, ⟨⟨_, hentry, rfl⟩, ?_⟩, rfl⟩, ?_⟩, rfl⟩
    · simpa using hpruned
    · exact decide_eq_true hscore

/-! ## Every selector finds a proposal -/

variable {p : MergeParts} {proposals : List ProposalEvent}

theorem firstPosition_isSome (h : 0 < proposals.length) :
    ∃ i, firstPosition proposals = some i :=
  ⟨⟨0, h⟩, by
    rw [firstPosition, List.head?_eq_getElem?,
      List.getElem?_eq_getElem (by rwa [List.length_finRange])]
    simp⟩

theorem ospChoice_isSome (h : 0 < proposals.length) (config : OspConfig) (scores : List ℚ) :
    ∃ i, (ospChoice p proposals config scores).position = some i := by
  unfold ospChoice
  cases classifyOspRegime scores config.tV with
  | singleSurvivor => exact firstPosition_isSome h
  | clearLeader => exact firstPosition_isSome h
  | tightCluster => exact Median.resolve_isSome p.externals p.sqrt h p.embeddingModel

/-- The fallback selects: its index is in range, and so is that of the median. -/
theorem outlierFallback_isSome
    (consistent : ∀ model, p.embeddingModel = some model → Consistent model)
    (h : 0 < proposals.length) :
    ∃ selection i, outlierFallback p proposals = some selection ∧
      selection.position = some i := by
  unfold outlierFallback
  cases hmodel : p.embeddingModel with
  | none =>
      obtain ⟨i, hi⟩ := Median.resolve_isSome p.externals p.sqrt h none
      exact ⟨_, i, rfl, hi⟩
  | some model =>
      obtain ⟨dim, hdim⟩ := consistent model hmodel
      have hfits : ∀ e ∈ proposals.map (fun q => model.embed q.rawOutput),
          ((proposals.map fun q => model.embed q.rawOutput).headD []) ≠ [] →
          e.length ≤ ((proposals.map fun q => model.embed q.rawOutput).headD []).length := by
        intro e he hne
        obtain ⟨q, -, rfl⟩ := List.mem_map.mp he
        cases proposals with
        | nil => cases h
        | cons first rest =>
            have hfirst := (hdim first.rawOutput).resolve_left hne
            rcases hdim q.rawOutput with hempty | hlength
            · simp [hempty]
            · simp [hlength, hfirst]
      obtain ⟨idx, hidx⟩ := Weiszfeld.weiszfeldSelect_isSome p.sqrt 20 hfits
      have hlt := Weiszfeld.weiszfeldSelect_lt hidx (by rwa [List.length_map])
      rw [List.length_map] at hlt
      refine ⟨⟨positionAt proposals idx, "OutlierResistant-Weiszfeld"⟩, ⟨idx, hlt⟩, ?_, ?_⟩
      · dsimp only
        rw [hidx]
        rfl
      · exact dif_pos hlt

theorem model_of_krumApplies {f : Nat} (h : krumApplies p proposals f = true) :
    Krum.quorumSatisfied proposals.length f = true ∧ p.embeddingModel.isSome = true := by
  unfold krumApplies Krum.clusterCoherent at h
  rw [Bool.and_eq_true] at h
  refine ⟨h.1, ?_⟩
  cases hmodel : p.embeddingModel with
  | none => simp [hmodel] at h
  | some model => rfl

/-- The first survivor is found if there is any. -/
theorem firstSurvivor_isSome {survivors : List (Fin proposals.length)} (h : survivors ≠ []) :
    ∃ i, firstSurvivor proposals survivors = some i := by
  obtain ⟨s, rest, rfl⟩ := List.exists_cons_of_ne_nil h
  rw [← Option.isSome_iff_exists, firstSurvivor, List.find?_isSome]
  exact ⟨s, List.mem_finRange s, by simp⟩

theorem firstSurvivor_nil : firstSurvivor proposals [] = none := by
  rw [firstSurvivor, List.find?_eq_none]
  simp

/-- A strategy selects, unless it is Multi-Krum that is asked for nobody. -/
theorem strategyChoice_isSome
    (consistent : ∀ model, p.embeddingModel = some model → Consistent model)
    (h : 0 < proposals.length) (strategy : MergeStrategy)
    (somebody : ∀ f, strategy = .multiOutlierResistant f 0 →
      krumApplies p proposals f = false) :
    ∃ selection i, strategyChoice p proposals strategy = some selection ∧
      selection.position = some i := by
  cases strategy with
  | scoreOrdered =>
      obtain ⟨i, hi⟩ := firstPosition_isSome h
      exact ⟨_, i, rfl, hi⟩
  | consensusMedian =>
      obtain ⟨i, hi⟩ := Median.resolve_isSome p.externals p.sqrt h p.embeddingModel
      exact ⟨_, i, rfl, hi⟩
  | outlierResistant f =>
      cases hkrum : krumApplies p proposals f with
      | false =>
          simp only [strategyChoice, hkrum, Bool.false_eq_true, ↓reduceIte]
          exact outlierFallback_isSome consistent h
      | true =>
          obtain ⟨hquorum, hmodel⟩ := model_of_krumApplies hkrum
          obtain ⟨i, hi⟩ := Krum.krumSelectSemantic_isSome p.externals p.sqrt hquorum hmodel
          simp only [strategyChoice, hkrum, ↓reduceIte]
          exact ⟨_, i, rfl, hi⟩
  | multiOutlierResistant f m =>
      cases hkrum : krumApplies p proposals f with
      | false =>
          simp only [strategyChoice, hkrum, Bool.false_eq_true, ↓reduceIte]
          exact outlierFallback_isSome consistent h
      | true =>
          obtain ⟨hquorum, hmodel⟩ := model_of_krumApplies hkrum
          obtain ⟨picks, hpicks, hnobody⟩ :=
            Krum.multiKrumSelectSemantic_isSome p.externals p.sqrt hquorum hmodel m
          have hm : m ≠ 0 := by
            rintro rfl
            rw [somebody f rfl] at hkrum
            cases hkrum
          obtain ⟨i, hi⟩ := firstSurvivor_isSome (mt hnobody.mp hm)
          simp only [strategyChoice, hkrum, ↓reduceIte, hpicks, Option.map_some]
          exact ⟨_, i, rfl, hi⟩

/-- Multi-Krum that is asked for nobody selects nobody. -/
theorem strategyChoice_nobody {f : Nat} (h : krumApplies p proposals f = true) :
    strategyChoice p proposals (.multiOutlierResistant f 0) = some ⟨none, "MultiKrum"⟩ := by
  obtain ⟨hquorum, hmodel⟩ := model_of_krumApplies h
  obtain ⟨picks, hpicks, hnobody⟩ :=
    Krum.multiKrumSelectSemantic_isSome p.externals p.sqrt hquorum hmodel 0
  obtain rfl := hnobody.mpr rfl
  simp only [strategyChoice, h, ↓reduceIte, hpicks, Option.map_some, firstSurvivor_nil]

theorem selectProposal_isSome
    (consistent : ∀ model, p.embeddingModel = some model → Consistent model)
    (h : 0 < proposals.length) (call : MergeCall) (scores : List ℚ)
    (somebody : selectsNobody p call proposals = false) :
    ∃ selection i, selectProposal p proposals call.strategy call.config scores =
      some selection ∧ selection.position = some i := by
  unfold selectProposal
  cases hconfig : call.config with
  | some config =>
      obtain ⟨i, hi⟩ := ospChoice_isSome (p := p) h config scores
      exact ⟨_, i, rfl, hi⟩
  | none =>
      apply strategyChoice_isSome consistent h
      intro f hstrategy
      simpa [selectsNobody, hconfig, hstrategy] using somebody

theorem selectProposal_nobody {call : MergeCall} (scores : List ℚ)
    (nobody : selectsNobody p call proposals = true) :
    selectProposal p proposals call.strategy call.config scores =
      some ⟨none, "MultiKrum"⟩ := by
  unfold selectsNobody at nobody
  split at nobody
  next f hconfig hstrategy =>
    rw [hconfig, hstrategy]
    exact strategyChoice_nobody nobody
  next => cases nobody

/-! ## The merge -/

section Merge

variable (call : MergeCall) (set : ProposalSet ℚ) (pruned : List BranchPrunedEvent)

theorem validOf_pos_of_nobody {call : MergeCall} {set : ProposalSet ℚ}
    {pruned : List BranchPrunedEvent}
    (nobody : selectsNobody p call (validOf call set pruned) = true) :
    0 < (validOf call set pruned).length := by
  unfold selectsNobody at nobody
  split at nobody
  next f _ _ =>
    have hquorum := of_decide_eq_true (model_of_krumApplies nobody).1
    unfold Krum.minQuorum at hquorum
    omega
  next => cases nobody

/-- With a survivor the merge answers by its selection. -/
theorem mergeProposals_of_survivor (h : 0 < (validOf call set pruned).length) :
    mergeProposals p call set pruned =
      (selectProposal p (validOf call set pruned) call.strategy call.config
        (compile call.taskId set pruned).validProposalScores).map
        (resolvedAnswer p call (set.table.entries.length + pruned.length)
          (compile call.taskId set pruned)) := by
  have hnonempty : ¬ (compile call.taskId set pruned).validProposals.isEmpty := by
    rw [List.isEmpty_iff_length_eq_zero]
    unfold validOf at h
    omega
  unfold mergeProposals
  dsimp only
  rw [if_neg hnonempty]

/-- Where nobody is selected the merge resolves to the empty text. -/
theorem not_returnsSurvivor_of_nobody
    (nobody : selectsNobody p call (validOf call set pruned) = true) (answer : MergeAnswer) :
    ¬ ReturnsSurvivor p call set pruned answer := by
  intro h
  have hanswer := h.answers
  rw [mergeProposals_of_survivor call set pruned (validOf_pos_of_nobody nobody),
    selectProposal_nobody _ nobody, Option.map_some, Option.some.injEq] at hanswer
  subst hanswer
  obtain ⟨q, hq⟩ := h.real _ _ _ rfl
  obtain ⟨selection, i, hselection, hi, -⟩ := hq.selected
  rw [selectProposal_nobody _ nobody, Option.some.injEq] at hselection
  rw [← hselection] at hi
  cases hi

/-- A survivor that the selection finds is the one that is returned. -/
theorem returnsSurvivor_of_selected {selection : Selection (validOf call set pruned)}
    {i : Fin (validOf call set pruned).length}
    (selected : selectProposal p (validOf call set pruned) call.strategy call.config
      (compile call.taskId set pruned).validProposalScores = some selection)
    (position : selection.position = some i) :
    ReturnsSurvivor p call set pruned (resolvedAnswer p call
      (set.table.entries.length + pruned.length) (compile call.taskId set pruned) selection) := by
  have hvalid : 0 < (validOf call set pruned).length := Fin.pos i
  have hmem : (validOf call set pruned).get i ∈ validOf call set pruned := List.get_mem _ i
  have hsurvivor := mem_validOf.mp hmem
  refine ⟨?_, ?_, ?_⟩
  · rw [mergeProposals_of_survivor call set pruned hvalid, selected]
    rfl
  · constructor
    · rintro ⟨taskId, retryCount, houtcome⟩
      cases houtcome
    · intro hnone
      exact absurd hsurvivor (hnone _)
  · intro event output hints houtcome
    cases houtcome
    refine ⟨(validOf call set pruned).get i, hsurvivor, ?_, ?_,
      selection, i, selected, position, rfl⟩
    · show (selection.position.map _).getD "" = _
      rw [position]
      rfl
    · exact List.mem_map_of_mem hmem

/-- Without a valid proposal the merge answers with `ZeroSurvival`. -/
theorem returnsSurvivor_of_nil (hnil : validOf call set pruned = []) :
    ReturnsSurvivor p call set pruned
      ⟨.zeroSurvival call.taskId call.retryCount, call.strategy, call.accumulator⟩ := by
  have hnone : ∀ q, ¬ IsSurvivor set pruned q := by
    intro q hq
    have hmem : q ∈ validOf call set pruned := mem_validOf.mpr hq
    rw [hnil] at hmem
    cases hmem
  refine ⟨?_, ?_, ?_⟩
  · unfold validOf at hnil
    unfold mergeProposals
    dsimp only
    rw [if_pos (by rw [hnil]; rfl)]
  · exact ⟨fun _ => hnone, fun _ => ⟨_, _, rfl⟩⟩
  · intro event output hints houtcome
    cases houtcome

/-- For every proposal set, pruned list, strategy and OSP configuration, and every model
whose vectors have one dimension: the merge returns a survivor exactly when it is not
Multi-Krum that is asked for nobody. -/
theorem returnsSurvivor_iff
    (consistent : ∀ model, p.embeddingModel = some model → Consistent model) :
    (∃ answer, ReturnsSurvivor p call set pruned answer) ↔
      selectsNobody p call (validOf call set pruned) = false := by
  constructor
  · intro hreturns
    obtain ⟨answer, h⟩ := hreturns
    by_contra hnobody
    rw [Bool.not_eq_false] at hnobody
    exact not_returnsSurvivor_of_nobody call set pruned hnobody answer h
  · intro somebody
    by_cases hvalid : 0 < (validOf call set pruned).length
    · obtain ⟨selection, i, hselection, hi⟩ :=
        selectProposal_isSome consistent hvalid call
          (compile call.taskId set pruned).validProposalScores somebody
      exact ⟨_, returnsSurvivor_of_selected call set pruned hselection hi⟩
    · have hnil : validOf call set pruned = [] := List.length_eq_zero_iff.mp (by omega)
      exact ⟨_, returnsSurvivor_of_nil call set pruned hnil⟩

end Merge

/-! ## Asked for two, and asked for nobody -/

/-- Texts are compared for equality only. -/
def exactParts : MergeParts :=
  { externals := Source.Constraints.asciiExternals
    sqrt := id
    ln := id
    embeddingModel := some ⟨fun _ => []⟩
    walk := id
    walk_perm := id_perm }

/-- Multi-Krum for no outlier that should select `m` proposals. -/
def multiKrum (m : Nat) : MergeCall :=
  ⟨"task-1", .multiOutlierResistant 0 m, 0, none, none, none⟩

/-- Three explorers with the same answer, all of them verified. -/
def threeAnswers : ProposalSet ℚ :=
  ((ProposalSet.new.insertScored ⟨"task-1", "e1", 0, 0, "Use JWT.", 10⟩ (4 / 5)).insertScored
    ⟨"task-1", "e2", 0, 0, "Use JWT.", 10⟩ (9 / 10)).insertScored
    ⟨"task-1", "e3", 0, 0, "Use JWT.", 10⟩ 1

theorem two_of_three_return_survivor :
    ∃ answer, ReturnsSurvivor exactParts (multiKrum 2) threeAnswers [] answer :=
  (returnsSurvivor_iff (multiKrum 2) threeAnswers []
    (by rintro model ⟨⟩; exact ⟨0, fun _ => Or.inl rfl⟩)).mpr (by decide +kernel)

/-- With `m = 0` three verified answers are merged to the empty text. -/
theorem nobody_of_three_is_empty :
    (∀ answer, ¬ ReturnsSurvivor exactParts (multiKrum 0) threeAnswers [] answer) ∧
      ((mergeProposals exactParts (multiKrum 0) threeAnswers []).map fun answer =>
        match answer.outcome with
        | .resolved event output _ => (event.validProposals, output)
        | .zeroSurvival _ _ => ([], "zero")) = some (["e3", "e2", "e1"], "") :=
  ⟨not_returnsSurvivor_of_nobody (multiKrum 0) threeAnswers [] (by decide +kernel),
    by decide +kernel⟩

end ControlPlane.Guarantees.MergeSurvivor
