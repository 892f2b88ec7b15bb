import ControlPlane.Source.Engine.SynthesisDelivery

/-!
# Delivered texts and the cut of the partials

The partials of the synthesis wave are cut to a share of the context window when they are
selected. The wave means them for its prompts; but a fallback of the DPPM wave, and
sequential grafting without an accepted round, deliver the best of them as the answer to the
task, with the mark of the cut.
-/
namespace ControlPlane.Guarantees.UncutDelivery

open Source.Engine Source.Constraints Source.Verification Source.MapeK

/-! ## Statement -/

/-- A call of the wave was answered with this text. -/
inductive Answered (calls : SynthesisCalls) (text : String) : Prop where
  | merge {attempt : Nat} (answer : calls.merge attempt = some text)
  | graft {call : Nat} {prompt : String} {r : GraftResponse}
      (answer : calls.graft call prompt = some r) (output : r.output = text)
  | singleShot (answer : calls.singleShot = some text)

/-- The partial of the event. -/
def wavePartial (input : EngineInput) (corpus : List ConstraintDoc) (e : BranchPrunedEvent) :
    Option PartialPass :=
  partialPassFromEvent e (allChecks corpus) (checkOffsets 0 corpus) (wavePartialChars input)

/-- An answer, or the full output of the pruned proposal that the partial was made of. -/
def Whole (input : EngineInput) (calls : SynthesisCalls) (c : MapeKController)
    (corpus : List ConstraintDoc) : Delivered → Prop
  | .answer text => Answered calls text
  | .kept p => ∃ e ∈ c.allPruned, wavePartial input corpus e = some p ∧
      p.proposalText = e.rawOutput

/-- Whenever the run succeeds out of the exhaustion handler, its output is whole. -/
def DeliversWhole (input : EngineInput) (world : EngineWorld) (calls : Nat → SynthesisCalls) :
    Prop :=
  ∀ fuel out s, runOffline input (synthesizingWorld input world calls) fuel =
      some (.ok out, s) →
    ∀ restart graft c s₁,
      ExhaustionPoint input (synthesizingWorld input world calls) restart graft c s₁ →
      ∃ d, delivery input (calls restart) graft c s₁.constraintCorpus = some d ∧
        d.text = out.resolvedOutput ∧ Whole input (calls restart) c s₁.constraintCorpus d

/-- A solver and a merge attempt are answered; a graft is taken; the single shot never
falls back. -/
def answersWave (input : EngineInput) (calls : SynthesisCalls) (graft : Bool)
    (c : MapeKController) (corpus : List ConstraintDoc) (best : PartialPass)
    (rest : List PartialPass) : Bool :=
  if input.cfg.dppmEnabled && graft then
    ((List.range (dppmCalls corpus calls.maxParallelSolvers (best :: rest)).length).any
        fun i => (calls.solver i).isSome) &&
      (List.range (calls.mergeMaxRetries + 1)).any fun attempt => (calls.merge attempt).isSome
  else if input.cfg.synthesis.sequentialGraftingEnabled && !rest.isEmpty then
    takesGraft (graftSetup input calls c corpus) calls.graft best rest
  else true

/-- The cut leaves the proposal of the partial as it is. -/
def Uncut (input : EngineInput) (c : MapeKController) (corpus : List ConstraintDoc)
    (best : PartialPass) : Prop :=
  ∃ e ∈ c.allPruned, wavePartial input corpus e = some best ∧
    truncateProposal e.rawOutput (wavePartialChars input) = e.rawOutput

/-! ## The cut -/

theorem wavePartial_text {input : EngineInput} {corpus : List ConstraintDoc}
    {e : BranchPrunedEvent} {p : PartialPass} (h : wavePartial input corpus e = some p) :
    p.proposalText = truncateProposal e.rawOutput (wavePartialChars input) := by
  unfold wavePartial partialPassFromEvent at h
  dsimp only at h
  split_ifs at h
  cases h
  rfl

theorem whole_kept_iff {input : EngineInput} {calls : SynthesisCalls} {c : MapeKController}
    {corpus : List ConstraintDoc} {p : PartialPass} :
    Whole input calls c corpus (.kept p) ↔ Uncut input c corpus p := by
  constructor
  · rintro ⟨e, he, hpartial, hfull⟩
    exact ⟨e, he, hpartial, (wavePartial_text hpartial).symm.trans hfull⟩
  · rintro ⟨e, he, hpartial, hfull⟩
    exact ⟨e, he, hpartial, (wavePartial_text hpartial).trans hfull⟩

/-! ## The three paths -/

section Paths

variable {calls : SynthesisCalls} {corpus : List ConstraintDoc} {best : PartialPass}
  {rest : List PartialPass}

theorem solverOutputs_isEmpty_iff (calls : SynthesisCalls) (corpus : List ConstraintDoc)
    (sorted : List PartialPass) :
    (calls.solverOutputs corpus sorted).isEmpty = false ↔
      ((List.range (dppmCalls corpus calls.maxParallelSolvers sorted).length).any
        fun i => (calls.solver i).isSome) = true := by
  unfold SynthesisCalls.solverOutputs
  generalize dppmCalls corpus calls.maxParallelSolvers sorted = asked
  rw [Bool.eq_false_iff, ne_eq, List.isEmpty_iff, List.filterMap_eq_nil_iff, List.any_eq_true]
  constructor
  · intro hsome
    push Not at hsome
    obtain ⟨⟨call, i⟩, hmem, hanswer⟩ := hsome
    have hi := List.mem_zipIdx hmem
    refine ⟨i, List.mem_range.mpr (by omega), ?_⟩
    cases hsolver : calls.solver i with
    | none => simp [hsolver] at hanswer
    | some text => rfl
  · rintro ⟨i, hi, hanswer⟩ hnone
    have hlt := List.mem_range.mp hi
    have hmem : (asked[i], i) ∈ asked.zipIdx := by
      rw [List.mem_zipIdx_iff_getElem?]
      exact List.getElem?_eq_getElem hlt
    obtain ⟨text, htext⟩ := Option.isSome_iff_exists.mp hanswer
    simpa [htext] using hnone _ hmem

theorem dppmDelivery_answered
    (hsolver : ((List.range (dppmCalls corpus calls.maxParallelSolvers (best :: rest)).length).any
      fun i => (calls.solver i).isSome) = true)
    (hmerge : ((List.range (calls.mergeMaxRetries + 1)).any
      fun attempt => (calls.merge attempt).isSome) = true) :
    ∃ text, dppmDelivery calls corpus best rest = .answer text ∧ Answered calls text := by
  have hasked := (solverOutputs_isEmpty_iff calls corpus (best :: rest)).mpr hsolver
  obtain ⟨attempt, hrange, hsome⟩ := List.any_eq_true.mp hmerge
  have hfound : ((List.range (calls.mergeMaxRetries + 1)).findSome? calls.merge).isSome = true :=
    List.findSome?_isSome_iff.mpr ⟨attempt, hrange, hsome⟩
  obtain ⟨text, htext⟩ := Option.isSome_iff_exists.mp hfound
  obtain ⟨answered, -, hanswer⟩ := List.exists_of_findSome?_eq_some htext
  refine ⟨text, ?_, .merge hanswer⟩
  unfold dppmDelivery
  rw [hasked, htext]
  rfl

theorem dppmDelivery_unanswered
    (h : (((List.range (dppmCalls corpus calls.maxParallelSolvers (best :: rest)).length).any
        fun i => (calls.solver i).isSome) &&
      (List.range (calls.mergeMaxRetries + 1)).any
        fun attempt => (calls.merge attempt).isSome) = false) :
    dppmDelivery calls corpus best rest = .kept best := by
  unfold dppmDelivery
  rcases Bool.and_eq_false_iff.mp h with hsolver | hmerge
  · have hempty : (calls.solverOutputs corpus (best :: rest)).isEmpty = true := by
      by_contra hasked
      have hanswered := (solverOutputs_isEmpty_iff calls corpus (best :: rest)).mp
        (Bool.not_eq_true _ ▸ hasked)
      rw [hsolver] at hanswered
      cases hanswered
    rw [hempty]
    rfl
  · have hnone : (List.range (calls.mergeMaxRetries + 1)).findSome? calls.merge = none := by
      rw [List.findSome?_eq_none_iff]
      intro attempt hrange
      have hfailed := List.any_eq_false.mp hmerge attempt hrange
      simpa using hfailed
    rw [hnone]
    split_ifs <;> rfl

theorem graftDelivery_answered {g : GraftSetup} {calls : SynthesisCalls}
    (h : takesGraft g calls.graft best rest = true) :
    ∃ text, graftDelivery g calls.graft best rest = .answer text ∧ Answered calls text := by
  have hrounds := (graftLoop_takes_iff g calls.graft best rest).mpr h
  refine ⟨(graftLoop g calls.graft (.seed best) rest).baseText, ?_, ?_⟩
  · unfold graftDelivery
    dsimp only
    rw [if_neg hrounds]
  · cases graftLoop_held g calls.graft (.seed best) rest with
    | same rounds text => exact absurd rounds hrounds
    | answer rounds answered text => exact .graft answered text.symm

theorem graftDelivery_unanswered {g : GraftSetup} {calls : SynthesisCalls}
    (h : takesGraft g calls.graft best rest = false) :
    graftDelivery g calls.graft best rest = .kept best := by
  have hrounds : (graftLoop g calls.graft (.seed best) rest).roundsUsed = 0 := by
    by_contra hrounds
    rw [(graftLoop_takes_iff g calls.graft best rest).mp hrounds] at h
    cases h
  unfold graftDelivery
  dsimp only
  rw [if_pos hrounds]

end Paths

section Delivery

variable {input : EngineInput} {calls : SynthesisCalls} {graft : Bool} {c : MapeKController}
  {corpus : List ConstraintDoc} {best : PartialPass} {rest : List PartialPass}

theorem delivery_answered (hsorted : sortedPartials (wavePartials input c corpus) = best :: rest)
    (h : answersWave input calls graft c corpus best rest = true) {d : Delivered}
    (hd : delivery input calls graft c corpus = some d) :
    ∃ text, d = .answer text ∧ Answered calls text := by
  unfold answersWave at h
  unfold delivery at hd
  simp only [hsorted] at hd
  split_ifs at h hd with hdppm hgraft
  · obtain ⟨text, htext, hanswered⟩ := dppmDelivery_answered (Bool.and_eq_true _ _ ▸ h).1
      (Bool.and_eq_true _ _ ▸ h).2
    exact ⟨text, (Option.some.inj hd).symm.trans htext, hanswered⟩
  · obtain ⟨text, htext, hanswered⟩ := graftDelivery_answered h
    exact ⟨text, (Option.some.inj hd).symm.trans htext, hanswered⟩
  · obtain ⟨text, htext, rfl⟩ := Option.map_eq_some_iff.mp hd
    exact ⟨text, rfl, .singleShot htext⟩

theorem delivery_unanswered (graft : Bool)
    (hsorted : sortedPartials (wavePartials input c corpus) = best :: rest)
    (h : answersWave input calls graft c corpus best rest = false) :
    delivery input calls graft c corpus = some (.kept best) := by
  unfold answersWave at h
  unfold delivery
  simp only [hsorted]
  split_ifs at h ⊢ with hdppm hgraft
  · rw [dppmDelivery_unanswered h]
  · rw [graftDelivery_unanswered h]

end Delivery

/-! ## The guarantee -/

/-- At an exhaustion point: the calls are answered, the best partial was not cut, or its
text does not pass the terminal verification. -/
def UncutAt (input : EngineInput) (calls : SynthesisCalls) (graft : Bool) (c : MapeKController)
    (corpus : List ConstraintDoc) : Prop :=
  synthesisRuns input graft c corpus = true →
    ∀ best rest, sortedPartials (wavePartials input c corpus) = best :: rest →
      answersWave input calls graft c corpus best rest = true ∨ Uncut input c corpus best ∨
        synthesisPasses input (calls.world input c corpus) c corpus best.proposalText = false

section Point

variable {input : EngineInput} {world : EngineWorld} {calls : Nat → SynthesisCalls}
  {restart : Nat} {graft : Bool} {c : MapeKController} {s : EngineState}

theorem uncutAt_of_deliversWhole (h : DeliversWhole input world calls)
    (point : ExhaustionPoint input world restart graft c s) :
    UncutAt input (calls restart) graft c s.constraintCorpus := by
  intro hruns best rest hsorted
  by_cases hanswers : answersWave input (calls restart) graft c s.constraintCorpus best rest = true
  · exact Or.inl hanswers
  · refine Or.inr ?_
    by_cases hpasses : synthesisPasses input ((calls restart).world input c s.constraintCorpus) c
        s.constraintCorpus best.proposalText = true
    · refine Or.inl ?_
      have hkept := delivery_unanswered graft hsorted (by simpa using hanswers)
      have hwave := (synthesisWave_world input (calls restart) graft c s.constraintCorpus).mpr
        ⟨hruns, hpasses, _, hkept, rfl⟩
      rw [← synthesis_at_point point] at hwave
      have hpoint := (exhaustionPoint_synthesizing calls).mpr point
      have hok := exhausted_of_some (synthesizingWorld input world calls) hwave
      have hrun := runOffline_of_exhaustion hpoint
      rw [show exhausted input (synthesizingWorld input world calls) restart graft c s =
        (.ok (c.finalize (synthesisMerge input best.proposalText)), _) from Prod.ext hok rfl]
        at hrun
      obtain ⟨d, hd, -, hwhole⟩ := h _ _ _ hrun restart graft c s hpoint
      rw [hkept] at hd
      cases hd
      exact whole_kept_iff.mp hwhole
    · exact Or.inr (by simpa using hpasses)

theorem whole_of_uncutAt (point : ExhaustionPoint input world restart graft c s)
    (huncut : UncutAt input (calls restart) graft c s.constraintCorpus) {fuel : Nat}
    {out : EngineOutput} {s' : EngineState}
    (hrun : runOffline input (synthesizingWorld input world calls) fuel = some (.ok out, s')) :
    ∃ d, delivery input (calls restart) graft c s.constraintCorpus = some d ∧
      d.text = out.resolvedOutput ∧ Whole input (calls restart) c s.constraintCorpus d := by
  have hpoint := (exhaustionPoint_synthesizing calls).mpr point
  have hended := runOffline_unique hrun (runOffline_of_exhaustion hpoint)
  cases hwave : synthesisWave input ((synthesizingWorld input world calls).synthesis restart)
      graft c s.constraintCorpus with
  | none =>
      have herror := exhausted_of_none _ hwave
      rw [← hended] at herror
      cases herror
  | some text =>
      have hok := exhausted_of_some _ hwave
      rw [← hended] at hok
      have houtput : out.resolvedOutput = text := by
        rw [Except.ok.inj hok]
        rfl
      rw [synthesis_at_point point] at hwave
      obtain ⟨hruns, hpasses, d, hd, htext⟩ :=
        (synthesisWave_world input (calls restart) graft c s.constraintCorpus).mp hwave
      refine ⟨d, hd, htext.trans houtput.symm, ?_⟩
      cases hsorted : sortedPartials (wavePartials input c s.constraintCorpus) with
      | nil =>
          unfold delivery at hd
          rw [hsorted] at hd
          cases hd
      | cons best rest =>
          by_cases hanswers : answersWave input (calls restart) graft c s.constraintCorpus best
              rest = true
          · obtain ⟨answer, rfl, hanswered⟩ := delivery_answered hsorted hanswers hd
            exact hanswered
          · have hkept := delivery_unanswered graft hsorted (by simpa using hanswers)
            rw [hd] at hkept
            cases hkept
            rcases huncut hruns best rest hsorted with hanswered | hfits | hfails
            · exact absurd hanswered hanswers
            · exact whole_kept_iff.mpr hfits
            · rw [show best.proposalText = text from htext, hpasses] at hfails
              cases hfails

end Point

/-- Successful synthesis waves deliver whole texts exactly if at every exhaustion point of
the run the calls are answered, the best partial was not cut, or its text fails. -/
theorem deliversWhole_iff (input : EngineInput) (world : EngineWorld)
    (calls : Nat → SynthesisCalls) :
    DeliversWhole input world calls ↔
      ∀ restart graft c s, ExhaustionPoint input world restart graft c s →
        UncutAt input (calls restart) graft c s.constraintCorpus := by
  constructor
  · intro h restart graft c s point
    exact uncutAt_of_deliversWhole h point
  · intro h fuel out s hrun restart graft c s₁ hpoint
    have point := (exhaustionPoint_synthesizing calls).mp hpoint
    exact whole_of_uncutAt point (h restart graft c s₁ point) hrun

/-! ## A graft call that fails -/

/-- A small model, whose partials get 32 characters each, with grafting. -/
def graftingInput : EngineInput :=
  { plainInput with
    constraintCorpus := [sessionDoc]
    cfg := { plainInput.cfg with
      modelMaxTokens := 64
      synthesis := { plainInput.cfg.synthesis with sequentialGraftingEnabled := true } } }

/-- Two drafts that pass one check each. -/
def halfDrafts : List BranchPrunedEvent :=
  let violated (verdicts : List Bool) : List ConstraintViolation :=
    [⟨"C-SESSION", 1 / 2, .hard, none, "stateless sessions", none, verdicts, none, none⟩]
  [⟨"explorer-1", "no token", "name the issuer", violated [false, true], 0⟩,
    ⟨"explorer-2", "no issuer", "sign a jwt that is refreshed every hour", violated [true, false],
      0⟩]

/-- Every wave ends with the two drafts pruned. -/
def draftsWorld : EngineWorld :=
  plainWorld (plainWave { plainPhases "" with
    audit := .done ⟨[], halfDrafts, []⟩
    merge := .earlyExit (.zeroSurvival none none 0 [] []) })

/-- No call is answered. -/
def silentCalls : SynthesisCalls :=
  { maxParallelSolvers := 1
    mergeMaxRetries := 0
    graftMaxRounds := 3
    solver := fun _ => none
    merge := fun _ => none
    graft := fun _ _ => none
    singleShot := none
    explorerId := "explorer-s"
    verifier := plainVerifier }

/-- The best partial is delivered although its proposal was cut. -/
def deliversCut (input : EngineInput) (calls : SynthesisCalls)
    (point : Bool × MapeKController × EngineState) : Bool :=
  let corpus := point.2.2.constraintCorpus
  match sortedPartials (wavePartials input point.2.1 corpus) with
  | [] => false
  | best :: rest =>
      synthesisRuns input point.1 point.2.1 corpus &&
        !answersWave input calls point.1 point.2.1 corpus best rest &&
        synthesisPasses input (calls.world input point.2.1 corpus) point.2.1 corpus
          best.proposalText &&
        point.2.1.allPruned.all fun e => decide
          (truncateProposal e.rawOutput (wavePartialChars input) = e.rawOutput →
            wavePartial input corpus e ≠ some best)

theorem not_uncutAt_of_deliversCut {input : EngineInput} {calls : SynthesisCalls} {graft : Bool}
    {c : MapeKController} {s : EngineState} (h : deliversCut input calls (graft, c, s) = true) :
    ¬ UncutAt input calls graft c s.constraintCorpus := by
  intro huncut
  unfold deliversCut at h
  dsimp only at h
  split at h
  · cases h
  · rename_i best rest hsorted
    simp only [Bool.and_eq_true, Bool.not_eq_true', List.all_eq_true, decide_eq_true_eq] at h
    obtain ⟨⟨⟨hruns, hanswers⟩, hpasses⟩, hcut⟩ := h
    rcases huncut hruns best rest hsorted with hanswered | ⟨e, he, hpartial, hfull⟩ | hfails
    · rw [hanswers] at hanswered
      cases hanswered
    · exact hcut e he hfull hpartial
    · rw [hpasses] at hfails
      cases hfails

/-- The run resolves to the first 32 characters of a pruned draft and the mark. -/
theorem silent_graft_delivers_cut :
    ¬ DeliversWhole graftingInput draftsWorld (fun _ => silentCalls) ∧
      (runOffline graftingInput (synthesizingWorld graftingInput draftsWorld fun _ => silentCalls)
          1).map (fun ended => ended.1.toOption.map (·.resolvedOutput)) =
        some (some ("sign a jwt that is refreshed eve\n[... truncated at 39 chars; " ++
          "full text omitted to preserve context budget ...]")) := by
  refine ⟨?_, by decide +kernel⟩
  intro h
  have hreached : (exhaustionAt graftingInput draftsWorld 0).isSome = true := by decide +kernel
  have hcut : (exhaustionAt graftingInput draftsWorld 0).all
      (deliversCut graftingInput silentCalls) = true := by decide +kernel
  obtain ⟨⟨graft, c, s⟩, hat⟩ := Option.isSome_iff_exists.mp hreached
  rw [hat] at hcut
  exact not_uncutAt_of_deliversCut hcut (uncutAt_of_deliversWhole h (point_of_exhaustionAt hat))

end ControlPlane.Guarantees.UncutDelivery
