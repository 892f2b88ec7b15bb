import ControlPlane.Source.Consensus.Osp
import ControlPlane.Source.MapeK.Suspects

/-!
# Decisions under any hash order

Four choices are taken from a walk over a hash map: the constraint whose specification is
suspected, the repair targets of the retry policy, the findings of the audit and the pair of
competing constraints that is warned of. None of them breaks a tie, so each is the same in
all orders only where there is nothing to order.
-/
namespace ControlPlane.Guarantees.HashOrder

open Lib Source Source.Config Source.Consensus Source.Constraints Source.MapeK
open Source.Verification

/-- The orders of the hash maps that a decision walks: the reasons of the last wave, the
scorecards, the violated constraints and the counts of the audit. -/
structure HashOrders where
  reasons : Walk String
  scorecards : Walk ((String × Nat) × AmbiguityScorecard)
  constraints : Walk (String × ConstraintEntry)
  counts : Walk (String × ℚ)

def HashOrders.stored : HashOrders := ⟨.stored, .stored, .stored, .stored⟩

def HashOrders.backwards : HashOrders := ⟨.backwards, .backwards, .backwards, .backwards⟩

def HashOrders.lib (o : HashOrders) (lib : ControllerLib) : ControllerLib :=
  { lib with walkIds := o.reasons.run, walkEntries := o.constraints.run }

def HashOrders.parts (o : HashOrders) (p : MergeParts) : MergeParts :=
  { p with walk := o.counts.run, walk_perm := o.counts.perm }

/-- The wave that is decided, as far as `build_zone3` is told of it. -/
structure AuditedWave where
  violations : List ConstraintViolation
  nF : Nat
  nV : Nat
  retryCount : Nat

@[ext]
structure Choices where
  instability : Option (String × Nat)
  action : RetryAction
  zone3 : Option String
  competing : Option (String × String)
  deriving DecidableEq

/-- The pair that the repair context of the action warns of. -/
def competingPair (pairs : List (String × String)) : RetryAction → Option (String × String)
  | .retryWithTargets _ targets => firstConflict pairs (targets.map (·.constraintId))
  | _ => none

section Choice

variable (lib : ControllerLib) (p : MergeParts) (config : OspConfig) (c : MapeKController)
  (wave : AuditedWave)

/-- What is chosen in the state when the maps are walked in these orders. -/
def choices (o : HashOrders) : Choices :=
  let action := c.policyAction (o.lib lib) wave.retryCount
  { instability := ((c.withCards (o.scorecards.run c.ambiguityScorecards)).instability
      (o.lib lib) wave.retryCount).suspect
    action := action
    zone3 := buildZone3 (o.parts p) wave.violations wave.nF wave.nV wave.retryCount config
    competing := competingPair (lib.repairSources wave.retryCount).conflictPairs action }

def OrdersAgree : Prop :=
  ∀ o o', choices lib p config c wave o = choices lib p config c wave o'

/-! ## Where there is nothing to order -/

/-- The constraints of all hard violations so far. -/
def hardViolatedIds : List String :=
  ((c.allPruned.flatMap (·.violatedConstraints)).filter fun v =>
    decide (v.severityLabel = .hard)).map (·.constraintId)

/-- The counts of the audit that reach the threshold. -/
def concordant : List (String × ℚ) :=
  (concordances wave.violations wave.nF wave.nV wave.retryCount config).filter fun e =>
    decide (e.2 + concordanceEpsilon ≥ adaptiveThreshold p wave.nF config.concordanceAlpha)

/-- The lines of a finding, each after a line break. -/
def findingText (e : String × ℚ) : List Char :=
  (findingLines wave.violations e).flatMap fun line => '\n' :: line.toList

/-- Where one suspect is due, all are, with one constraint and one check. At most one
constraint was violated hard. Findings of equal concordance read the same in either order. -/
structure OrderFree : Prop where
  suspects : ∀ cid card cid' card', c.Suspect cid card → c.Suspect cid' card' →
    RepairDue c.cfg.ambiguityDetection card → RepairDue c.cfg.ambiguityDetection card' ∧
      cid = cid' ∧ reportedCheck c.cfg.ambiguityDetection card =
        reportedCheck c.cfg.ambiguityDetection card'
  targets : ∀ a ∈ hardViolatedIds c, ∀ b ∈ hardViolatedIds c, a = b
  findings : ∀ a ∈ concordant p config wave, ∀ b ∈ concordant p config wave, a.2 = b.2 →
    findingText wave a ++ findingText wave b = findingText wave b ++ findingText wave a

end Choice

/-! ## Suspected constraints -/

theorem verdict_eq_iff {cfg : AmbiguityDetectionConfig} {cid cid' : String}
    {card card' : AmbiguityScorecard} (h : RepairDue cfg card) :
    verdict cfg cid card = verdict cfg cid' card' ↔
      RepairDue cfg card' ∧ cid = cid' ∧ reportedCheck cfg card = reportedCheck cfg card' := by
  rw [verdict_of_due h]
  by_cases h' : RepairDue cfg card'
  · rw [verdict_of_due h']
    simp [h']
  · rw [verdict_of_not_due h']
    simp [h']

section Parts

variable {lib : ControllerLib} {p : MergeParts} {config : OspConfig} {c : MapeKController}
  {wave : AuditedWave}

theorem instability_agrees_iff (nodup : (c.ambiguityScorecards.map Prod.fst).Nodup) :
    (∀ o o', (choices lib p config c wave o).instability =
        (choices lib p config c wave o').instability) ↔
      ∀ cid card cid' card', c.Suspect cid card → c.Suspect cid' card' →
        RepairDue c.cfg.ambiguityDetection card → RepairDue c.cfg.ambiguityDetection card' ∧
          cid = cid' ∧ reportedCheck c.cfg.ambiguityDetection card =
            reportedCheck c.cfg.ambiguityDetection card' := by
  constructor
  · intro agree cid card cid' card' hsuspect hsuspect' hdue
    obtain ⟨ids, cards, hchoice⟩ := exists_walks_of_suspect lib nodup hsuspect wave.retryCount
    obtain ⟨ids', cards', hchoice'⟩ := exists_walks_of_suspect lib nodup hsuspect' wave.retryCount
    have hsame := agree ⟨ids, cards, .stored, .stored⟩ ⟨ids', cards', .stored, .stored⟩
    exact (verdict_eq_iff hdue).mp ((hchoice.symm.trans hsame).trans hchoice')
  · intro alike o o'
    have hreport := fun o : HashOrders => instability_suspect (o.lib lib) nodup
      (o.scorecards.perm c.ambiguityScorecards) o.reasons.perm wave.retryCount
    rcases hreport o with ⟨cid, card, hsuspect, hchoice⟩ | ⟨hquiet, hchoice⟩
    · rcases hreport o' with ⟨cid', card', hsuspect', hchoice'⟩ | ⟨hquiet', -⟩
      · have hsame : verdict c.cfg.ambiguityDetection cid card =
            verdict c.cfg.ambiguityDetection cid' card' := by
          by_cases hdue : RepairDue c.cfg.ambiguityDetection card
          · exact (verdict_eq_iff hdue).mpr (alike cid card cid' card' hsuspect hsuspect' hdue)
          · have hdue' : ¬ RepairDue c.cfg.ambiguityDetection card' := fun hdue' =>
              hdue (alike cid' card' cid card hsuspect' hsuspect hdue').1
            rw [verdict_of_not_due hdue, verdict_of_not_due hdue']
        exact (hchoice.trans hsame).trans hchoice'.symm
      · exact absurd hsuspect.divergent (hquiet' cid)
    · rcases hreport o' with ⟨cid', card', hsuspect', -⟩ | ⟨-, hchoice'⟩
      · exact absurd hsuspect'.divergent (hquiet cid')
      · exact hchoice.trans hchoice'.symm

/-! ## Repair targets -/

/-- A violation adds its reason to the entry of its constraint. -/
def writeViolation (v : ConstraintViolation) : Option ConstraintEntry → ConstraintEntry
  | none => ⟨v, (hardReason v).toList.map fun r => (v.score, r.2)⟩
  | some entry => { entry with scoreReasonPairs :=
      entry.scoreReasonPairs ++ (hardReason v).toList.map fun r => (v.score, r.2) }

theorem addViolation_eq_replaceEntry (v : ConstraintViolation)
    (entries : List (String × ConstraintEntry)) :
    addViolation v entries = replaceEntry v.constraintId (writeViolation v) entries := by
  induction entries with
  | nil => rfl
  | cons e rest ih =>
      obtain ⟨k, entry⟩ := e
      rw [addViolation, replaceEntry, ih]
      rfl

theorem perConstraint_keys (pruned : List BranchPrunedEvent) :
    ((perConstraint pruned).map Prod.fst).Nodup ∧
      ∀ cid, cid ∈ (perConstraint pruned).map Prod.fst ↔
        cid ∈ ((pruned.flatMap (·.violatedConstraints)).filter fun v =>
          decide (v.severityLabel = .hard)).map (·.constraintId) := by
  have hempty : (([] : List (String × ConstraintEntry)).map Prod.fst).Nodup := List.nodup_nil
  have hkeys := keys_foldl_replaceEntry (·.constraintId) writeViolation
    ((pruned.flatMap (·.violatedConstraints)).filter fun v =>
      decide (v.severityLabel = .hard)) hempty
  unfold perConstraint
  simp only [addViolation_eq_replaceEntry]
  refine ⟨hkeys.1, fun cid => ?_⟩
  rw [hkeys.2]
  exact or_iff_left List.not_mem_nil

theorem perConstraint_keys_nodup (pruned : List BranchPrunedEvent) :
    ((perConstraint pruned).map Prod.fst).Nodup := (perConstraint_keys pruned).1

theorem mem_perConstraint_keys {cid : String} :
    cid ∈ (perConstraint c.allPruned).map Prod.fst ↔ cid ∈ hardViolatedIds c :=
  (perConstraint_keys c.allPruned).2 cid

theorem perConstraint_length_le_one_iff : (perConstraint c.allPruned).length ≤ 1 ↔
    ∀ a ∈ hardViolatedIds c, ∀ b ∈ hardViolatedIds c, a = b := by
  have hkeys : ((perConstraint c.allPruned).map Prod.fst).length =
      (perConstraint c.allPruned).length := List.length_map Prod.fst
  rw [← hkeys, length_le_one_iff (perConstraint_keys_nodup c.allPruned)]
  simp only [mem_perConstraint_keys]

/-- With nothing tried, hard violations are repaired in the order of the walk. -/
theorem policyAction_targets (o : HashOrders) (untried : c.triedTopologies = [])
    (violated : perConstraint c.allPruned ≠ []) (retryCount : Nat) :
    c.policyAction (o.lib lib) retryCount = .retryWithTargets .ensemble
      ((o.constraints.run (perConstraint c.allPruned)).map (repairTarget retryCount)) := by
  have hfirst : frontier.find? (fun candidate => !hasTried [] candidate) = some .ensemble := rfl
  unfold MapeKController.policyAction retryPolicyDecide
  rw [untried, hfirst]
  dsimp only
  rw [if_pos]
  · rfl
  · simpa using violated

theorem action_agrees_iff (untried : c.triedTopologies = []) :
    (∀ o o', (choices lib p config c wave o).action = (choices lib p config c wave o').action) ↔
      ∀ a ∈ hardViolatedIds c, ∀ b ∈ hardViolatedIds c, a = b := by
  rw [← perConstraint_length_le_one_iff]
  have hkeys := perConstraint_keys_nodup c.allPruned
  constructor
  · intro agree
    by_cases hviolated : perConstraint c.allPruned = []
    · simp [hviolated]
    · have hinj : ∀ a ∈ perConstraint c.allPruned, ∀ b ∈ perConstraint c.allPruned,
          repairTarget wave.retryCount a = repairTarget wave.retryCount b → a = b := by
        intro a ha b hb heq
        exact List.inj_on_of_nodup_map hkeys ha hb (congrArg RepairTarget.constraintId heq)
      apply (orderBlind_map_iff hkeys.of_map hinj).mp
      intro w w'
      have hsame := agree ⟨.stored, .stored, w, .stored⟩ ⟨.stored, .stored, w', .stored⟩
      change MapeKController.policyAction _ _ _ = MapeKController.policyAction _ _ _ at hsame
      rw [policyAction_targets _ untried hviolated,
        policyAction_targets _ untried hviolated] at hsame
      exact (RetryAction.retryWithTargets.inj hsame).2
  · intro hlength o o'
    have hrun : o.constraints.run (perConstraint c.allPruned) =
        o'.constraints.run (perConstraint c.allPruned) :=
      orderBlind_of_length_le_one hlength (fun entries => entries) o.constraints o'.constraints
    change MapeKController.policyAction _ _ _ = MapeKController.policyAction _ _ _
    unfold MapeKController.policyAction retryPolicyDecide
    dsimp only [HashOrders.lib]
    rw [hrun]

theorem competing_eq (untried : c.triedTopologies = [])
    (violated : perConstraint c.allPruned ≠ []) (o : HashOrders) :
    (choices lib p config c wave o).competing =
      firstConflict (lib.repairSources wave.retryCount).conflictPairs
        ((o.constraints.run (perConstraint c.allPruned)).map Prod.fst) := by
  unfold choices
  dsimp only
  rw [policyAction_targets o untried violated, competingPair, List.map_map]
  rfl

/-- The warning is read off the action. -/
theorem competing_of_action {o o' : HashOrders}
    (h : (choices lib p config c wave o).action = (choices lib p config c wave o').action) :
    (choices lib p config c wave o).competing = (choices lib p config c wave o').competing :=
  congrArg (competingPair (lib.repairSources wave.retryCount).conflictPairs) h

/-- The warning is the same in all orders exactly when there is nothing to warn of. -/
theorem competing_agrees_iff (untried : c.triedTopologies = []) :
    (∀ o o', (choices lib p config c wave o).competing =
        (choices lib p config c wave o').competing) ↔
      ∀ a ∈ hardViolatedIds c, ∀ b ∈ hardViolatedIds c, a ≠ b →
        areConflicting (lib.repairSources wave.retryCount).conflictPairs a b = false := by
  have hkeys := perConstraint_keys_nodup c.allPruned
  simp only [← mem_perConstraint_keys]
  by_cases hviolated : perConstraint c.allPruned = []
  · have hlength : (perConstraint c.allPruned).length ≤ 1 := by
      rw [hviolated]
      exact Nat.zero_le 1
    have hsingle := perConstraint_length_le_one_iff.mp hlength
    simp only [hviolated, List.map_nil, List.not_mem_nil, false_implies, implies_true, iff_true]
    intro o o'
    exact competing_of_action ((action_agrees_iff untried).mpr hsingle o o')
  · constructor
    · intro agree a ha b hb hne
      obtain ⟨x, hx, rfl⟩ := List.mem_map.mp ha
      obtain ⟨y, hy, rfl⟩ := List.mem_map.mp hb
      by_contra hconflict
      rw [Bool.not_eq_false] at hconflict
      obtain ⟨rest, hfirst⟩ := exists_perm_cons_cons hx hy fun heq => hne (congrArg Prod.fst heq)
      obtain ⟨w, hw⟩ := exists_walk hfirst
      obtain ⟨w', hw'⟩ := exists_walk ((List.Perm.swap x y rest).trans hfirst)
      have hsame := agree ⟨.stored, .stored, w, .stored⟩ ⟨.stored, .stored, w', .stored⟩
      rw [competing_eq untried hviolated, competing_eq untried hviolated, hw, hw'] at hsame
      simp only [List.map_cons] at hsame
      rw [firstConflict_cons_cons hconflict,
        firstConflict_cons_cons (areConflicting_comm _ _ _ ▸ hconflict)] at hsame
      exact hne (Prod.mk.inj (Option.some.inj hsame)).1
    · intro harmless o o'
      have hnone : ∀ o : HashOrders, (choices lib p config c wave o).competing = none := by
        intro o
        have hperm := (o.constraints.perm (perConstraint c.allPruned)).map Prod.fst
        rw [competing_eq untried hviolated]
        apply firstConflict_eq_none _ (hperm.nodup_iff.mpr hkeys)
        intro a ha b hb
        exact harmless a (hperm.mem_iff.mp ha) b (hperm.mem_iff.mp hb)
      rw [hnone o, hnone o']

/-! ## Audit findings -/

theorem toList_intercalate_lines (header : String) (lines : List String) :
    ("\n".intercalate (header :: lines)).toList =
      header.toList ++ lines.flatMap fun line => '\n' :: line.toList := by
  induction lines generalizing header with
  | nil => simp
  | cons line rest ih =>
      rw [String.intercalate_cons_cons, String.toList_append, ih, List.flatMap_cons]
      simp

def auditHeader : String :=
  "AUDIT FINDINGS: The following criteria showed consistent difficulty in prior drafts:"

/-- The text of the findings, as it is made from those that reach the threshold. -/
def renderFindings (wave : AuditedWave) (entries : List (String × ℚ)) : Option String :=
  if entries.isEmpty then none
  else some ("\n".intercalate
    (auditHeader :: (sortDescending Prod.snd entries).flatMap (findingLines wave.violations)))

theorem zone3_eq (o : HashOrders) : (choices lib p config c wave o).zone3 =
    renderFindings wave
      ((o.counts.run (concordances wave.violations wave.nF wave.nV wave.retryCount config)).filter
        fun e => decide (e.2 + concordanceEpsilon ≥
          adaptiveThreshold p wave.nF config.concordanceAlpha)) := rfl

theorem renderFindings_of_ne_nil {entries : List (String × ℚ)} (h : entries ≠ []) :
    renderFindings wave entries = some (String.ofList (auditHeader.toList ++
      (sortDescending Prod.snd entries).flatMap (findingText wave))) := by
  rw [renderFindings, if_neg (by simpa using h)]
  congr 1
  apply String.toList_injective
  rw [toList_intercalate_lines, String.toList_ofList, List.flatMap_assoc]
  rfl

theorem orderBlind_renderFindings_iff {entries : List (String × ℚ)} :
    OrderBlind (renderFindings wave) entries ↔
      ∀ a ∈ entries, ∀ b ∈ entries, a.2 = b.2 →
        findingText wave a ++ findingText wave b = findingText wave b ++ findingText wave a := by
  by_cases hempty : entries = []
  · subst hempty
    simp [orderBlind_of_length_le_one]
  · have hrender : ∀ l' : List (String × ℚ), l'.Perm entries → renderFindings wave l' =
        some (String.ofList (auditHeader.toList ++
          (sortDescending Prod.snd l').flatMap (findingText wave))) := by
      intro l' hperm
      apply renderFindings_of_ne_nil
      rintro rfl
      exact hempty hperm.nil_eq.symm
    have hinj : Function.Injective fun text : List Char =>
        some (String.ofList (auditHeader.toList ++ text)) := by
      intro text text' heq
      exact List.append_cancel_left (String.ofList_injective (Option.some.inj heq))
    rw [orderBlind_congr hrender, orderBlind_comp hinj, orderBlind_sorted_iff]

theorem zone3_agrees_iff :
    (∀ o o', (choices lib p config c wave o).zone3 = (choices lib p config c wave o').zone3) ↔
      ∀ a ∈ concordant p config wave, ∀ b ∈ concordant p config wave, a.2 = b.2 →
        findingText wave a ++ findingText wave b = findingText wave b ++ findingText wave a := by
  unfold concordant
  rw [← orderBlind_renderFindings_iff, ← orderBlind_filter_iff]
  simp only [zone3_eq]
  constructor
  · intro agree w w'
    exact agree ⟨.stored, .stored, .stored, w⟩ ⟨.stored, .stored, .stored, w'⟩
  · intro blind o o'
    exact blind o.counts o'.counts

/-! ### Constraint ids of one line -/

def findingLine (e : String × ℚ) : String :=
  "- " ++ e.1 ++ ": observed in " ++ fixedText 0 (e.2 * 100) ++ "% of drafts"

/-- Another finding begins on a new line. -/
theorem findingText_append (wave : AuditedWave) (e : String × ℚ) (text : List Char) :
    ∃ rest, findingText wave e ++ '\n' :: text =
      '\n' :: ((findingLine e).toList ++ '\n' :: rest) := by
  unfold findingText findingLines findingLine
  dsimp only
  cases firstHint wave.violations e.1 with
  | none => exact ⟨text, by simp⟩
  | some h => exact ⟨("  Guidance: " ++ h).toList ++ '\n' :: text, by simp⟩

theorem findingText_head (wave : AuditedWave) (e : String × ℚ) :
    ∃ rest, findingText wave e = '\n' :: rest := by
  unfold findingText findingLines
  dsimp only
  cases firstHint wave.violations e.1 <;> exact ⟨_, List.flatMap_cons⟩

theorem takeWhile_line (line rest : List Char) :
    (line ++ '\n' :: rest).takeWhile (· ≠ '\n') = line.takeWhile (· ≠ '\n') := by
  induction line with
  | nil => rfl
  | cons x xs ih =>
      rw [List.cons_append, List.takeWhile_cons, List.takeWhile_cons, ih]

/-- The line of a finding begins with the id, when the id is on one line. -/
theorem takeWhile_findingLine {e : String × ℚ} (plain : '\n' ∉ e.1.toList) :
    (findingLine e).toList.takeWhile (· ≠ '\n') = "- ".toList ++ (e.1.toList ++
      (": observed in " ++ fixedText 0 (e.2 * 100) ++ "% of drafts").toList.takeWhile
        (· ≠ '\n')) := by
  have hline : (findingLine e).toList = ("- ".toList ++ e.1.toList) ++
      (": observed in " ++ fixedText 0 (e.2 * 100) ++ "% of drafts").toList := by
    unfold findingLine
    simp [String.toList_append]
  have hfront : ∀ x ∈ "- ".toList ++ e.1.toList, decide (x ≠ '\n') = true := by
    intro x hx
    rw [decide_eq_true_eq]
    rintro rfl
    rcases List.mem_append.mp hx with hdash | hid
    · exact absurd hdash (by decide)
    · exact plain hid
  rw [hline, List.takeWhile_append_of_pos hfront, List.append_assoc]

/-- Ids of one line are told apart by the order of their findings. -/
theorem findingText_comm_iff {a b : String × ℚ} (ha : '\n' ∉ a.1.toList) (hb : '\n' ∉ b.1.toList)
    (tied : a.2 = b.2) :
    findingText wave a ++ findingText wave b = findingText wave b ++ findingText wave a ↔
      a = b := by
  constructor
  · intro hcomm
    obtain ⟨texta, hheada⟩ := findingText_head wave a
    obtain ⟨textb, hheadb⟩ := findingText_head wave b
    obtain ⟨resta, hlinea⟩ := findingText_append wave a textb
    obtain ⟨restb, hlineb⟩ := findingText_append wave b texta
    rw [← hheadb] at hlinea
    rw [← hheada] at hlineb
    have hlines := List.tail_eq_of_cons_eq ((hlinea.symm.trans hcomm).trans hlineb)
    have hfirst := congrArg (List.takeWhile (· ≠ '\n')) hlines
    rw [takeWhile_line, takeWhile_line, takeWhile_findingLine ha, takeWhile_findingLine hb, tied,
      List.append_cancel_left_eq, List.append_cancel_right_eq] at hfirst
    exact Prod.ext (String.toList_injective hfirst) tied
  · rintro rfl
    rfl

/-- For ids of one line the findings are the same in all orders exactly without ties. -/
theorem zone3_agrees_iff_untied
    (plain : ∀ e ∈ concordant p config wave, '\n' ∉ e.1.toList) :
    (∀ o o', (choices lib p config c wave o).zone3 = (choices lib p config c wave o').zone3) ↔
      ∀ a ∈ concordant p config wave, ∀ b ∈ concordant p config wave, a.2 = b.2 → a = b := by
  rw [zone3_agrees_iff]
  constructor
  · intro h a ha b hb tied
    exact (findingText_comm_iff (plain a ha) (plain b hb) tied).mp (h a ha b hb tied)
  · intro h a ha b hb tied
    exact (findingText_comm_iff (plain a ha) (plain b hb) tied).mpr (h a ha b hb tied)

end Parts

/-! ## All choices of a reachable state -/

/-- A call of the engine, with the maps walked in orders of its own. -/
def orderedStep (lib : ControllerLib) (c : MapeKController) (call : HashOrders × ControllerOp) :
    MapeKController :=
  applyOp (call.1.lib lib) (c.withCards (call.1.scorecards.run c.ambiguityScorecards)) call.2

def orderedRun (lib : ControllerLib) (c : MapeKController)
    (calls : List (HashOrders × ControllerOp)) : MapeKController :=
  calls.foldl (orderedStep lib) c

theorem orderedStep_taskPart (lib : ControllerLib) (c : MapeKController)
    (call : HashOrders × ControllerOp) : (orderedStep lib c call).taskPart = c.taskPart :=
  applyOp_taskPart (call.1.lib lib) (c.withCards (call.1.scorecards.run c.ambiguityScorecards))
    call.2

theorem orderedStep_keys_nodup (lib : ControllerLib) {c : MapeKController}
    (nodup : (c.ambiguityScorecards.map Prod.fst).Nodup) (call : HashOrders × ControllerOp) :
    ((orderedStep lib c call).ambiguityScorecards.map Prod.fst).Nodup := by
  apply applyOp_scorecards_nodup
  have hperm := (call.1.scorecards.perm c.ambiguityScorecards).map Prod.fst
  exact hperm.nodup_iff.mpr nodup

/-- Every state of a run has tried no topology and keeps its scorecards apart. -/
theorem orderedRun_keeps (lib : ControllerLib) {c : MapeKController}
    (nodup : (c.ambiguityScorecards.map Prod.fst).Nodup)
    (calls : List (HashOrders × ControllerOp)) :
    (orderedRun lib c calls).taskPart = c.taskPart ∧
      ((orderedRun lib c calls).ambiguityScorecards.map Prod.fst).Nodup := by
  induction calls generalizing c with
  | nil => exact ⟨rfl, nodup⟩
  | cons call rest ih =>
      obtain ⟨htask, hnodup⟩ := ih (orderedStep_keys_nodup lib nodup call)
      exact ⟨htask.trans (orderedStep_taskPart lib c call), hnodup⟩

/-- The seeds are a map with one scorecard for each key. -/
theorem choices_agree_iff (lib : ControllerLib) (cfg : H2AIConfig) (init : ControllerInit)
    (corpus : List ConstraintDoc) (seeds : ((init.seedScorecards corpus).map Prod.fst).Nodup)
    (calls : List (HashOrders × ControllerOp)) (p : MergeParts) (config : OspConfig)
    (wave : AuditedWave) :
    OrdersAgree lib p config (orderedRun lib (.new cfg init corpus) calls) wave ↔
      OrderFree p config (orderedRun lib (.new cfg init corpus) calls) wave := by
  have hseeds : ((MapeKController.new cfg init corpus).ambiguityScorecards.map Prod.fst).Nodup :=
    seeds
  obtain ⟨htask, hcards⟩ := orderedRun_keeps lib hseeds calls
  have huntried := congrArg TaskPart.triedTopologies htask
  constructor
  · intro agree
    refine ⟨?_, ?_, ?_⟩
    · exact (instability_agrees_iff hcards).mp fun o o' => congrArg Choices.instability (agree o o')
    · exact (action_agrees_iff huntried).mp fun o o' => congrArg Choices.action (agree o o')
    · exact zone3_agrees_iff.mp fun o o' => congrArg Choices.zone3 (agree o o')
  · intro free o o'
    apply Choices.ext
    · exact (instability_agrees_iff hcards).mpr free.suspects o o'
    · exact (action_agrees_iff huntried).mpr free.targets o o'
    · exact zone3_agrees_iff.mpr free.findings o o'
    · exact competing_of_action ((action_agrees_iff huntried).mpr free.targets o o')

/-! ## Orders that agree and orders that do not -/

/-- Two conflicting constraints, no library text. -/
def conflictLib : ControllerLib :=
  { asciiLib with repairSources := fun _ => ⟨[("C-1", "C-2")], fun _ => [], fun _ => none⟩ }

def auditParts : MergeParts :=
  { externals := Source.Constraints.asciiExternals
    sqrt := fun q => (1 + q) / 2
    ln := fun _ => -23 / 10
    embeddingModel := none
    walk := id
    walk_perm := id_perm }

def auditConfig : OspConfig := ⟨1 / 8, 1 / 10, 4, 7 / 10⟩

/-- Spec repair is on, as the instability check is meant for it. -/
def repairingConfig : H2AIConfig :=
  { H2AIConfig.reference with gapK1 := { H2AIConfig.reference.gapK1 with enabled := true } }

def violationsOf (cids : List String) (reason : String) : List ConstraintViolation :=
  cids.map fun cid => ⟨cid, 0, .hard, none, "", some reason, [], none, none⟩

/-- A wave whose only proposal was pruned for the constraints. -/
def prunedWave (cids : List String) (reason : String) : WaveEvents :=
  { verificationEvents := []
    qualityMeasurement := none
    tauSpreadNext := none
    correlatedWarnings := []
    filterRatio := 0
    prunedEvents := [⟨"e1", "verification", "draft", violationsOf cids reason, 0⟩]
    waveProposalTexts := []
    waveTokenCost := 0
    bestPassingConstraintReasons := [] }

def auditedWave (cids : List String) : AuditedWave := ⟨violationsOf cids "reason", 1, 1, 0⟩

def afterOneViolation : MapeKController :=
  orderedRun conflictLib (.new repairingConfig plainInit [])
    [(.stored, .observe (prunedWave ["C-1"] "uses sessions") 0)]

theorem one_violation_agrees :
    OrdersAgree conflictLib auditParts auditConfig afterOneViolation (auditedWave ["C-1"]) := by
  apply (choices_agree_iff conflictLib repairingConfig plainInit [] List.nodup_nil
    [(.stored, .observe (prunedWave ["C-1"] "uses sessions") 0)] auditParts auditConfig
    (auditedWave ["C-1"])).mpr
  refine ⟨?_, ?_, ?_⟩
  · rintro cid card cid' card' ⟨⟨lastRs, prevRs, -, hprev, -⟩, -⟩
    cases hprev
  · decide +kernel
  · have hfindings : concordant auditParts auditConfig (auditedWave ["C-1"]) = [("C-1", 1)] := by
      decide +kernel
    rw [hfindings]
    decide +kernel

/-- Two constraints that fail together, with other reasons in each wave. -/
def afterTwoWaves : MapeKController :=
  orderedRun conflictLib (.new repairingConfig plainInit [])
    [(.stored, .observe (prunedWave ["C-1", "C-2"] "uses sessions") 0),
     (.stored, .observe (prunedWave ["C-1", "C-2"] "lacks tokens") 1)]

/-- The other order suspects the other constraint, repairs and reports in the other order and
puts the other constraint first. -/
theorem backwards_disagrees :
    ¬ OrdersAgree conflictLib auditParts auditConfig afterTwoWaves (auditedWave ["C-1", "C-2"]) ∧
      let stored := choices conflictLib auditParts auditConfig afterTwoWaves
        (auditedWave ["C-1", "C-2"]) .stored
      let backwards := choices conflictLib auditParts auditConfig afterTwoWaves
        (auditedWave ["C-1", "C-2"]) .backwards
      (stored.instability = some ("C-1", 0) ∧ backwards.instability = some ("C-2", 0)) ∧
        stored.action ≠ backwards.action ∧ stored.zone3 ≠ backwards.zone3 ∧
        stored.competing = some ("C-1", "C-2") ∧ backwards.competing = some ("C-2", "C-1") := by
  refine ⟨fun h => ?_, by decide +kernel⟩
  exact absurd (h .stored .backwards) (by decide +kernel)

end ControlPlane.Guarantees.HashOrder
