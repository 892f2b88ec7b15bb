import ControlPlane.Lib.Numerals
import ControlPlane.Source.Tasks.Opro
import Mathlib.Data.Fintype.Basic

/-!
# Accounting of OPRO triggers

When all triggers of an adapter have ended, the persisted number of tasks should have grown
by their number, and each reward should have been folded into the moving average once. A
trigger reads the state, may ask a model and writes the state back unconditionally, and an
error on the way ends it before the write. So this holds in exactly the interleavings of
`Undisturbed` operations.
-/
namespace ControlPlane.Guarantees.OproAccounting

open Lib Source.Tasks

/-! ## Statement -/

/-- What rewards are folded into. -/
structure OproStatistics where
  nTasksTotal : Nat
  jEffEma : ℚ
  deriving DecidableEq, Repr

def statistics (state : AdapterOproState) : OproStatistics :=
  ⟨state.nTasksTotal, state.jEffEma⟩

/-- The number of tasks in a persisted state, zero without one. -/
def tasksTotal (persisted : Option OproStatistics) : Nat :=
  (persisted.map (·.nTasksTotal)).getD 0

/-- One more reward. The first one is averaged with itself. -/
def foldReward (window : Nat) (reward : ℚ) (persisted : Option OproStatistics) :
    Option OproStatistics :=
  some
    { nTasksTotal := tasksTotal persisted + 1
      jEffEma := computeEma ((persisted.map (·.jEffEma)).getD reward) reward window }

/-- The persisted statistics of an adapter. -/
def persistedStatistics (setup : OproSetup) (kv : OproKv) : Option OproStatistics :=
  (kv.states setup.adapterName).map statistics

section Statement

variable {κ : Type}

/-- The number of tasks has grown by the number of calls, and the statistics are the old
ones with the reward of every call folded in once, in some order. -/
structure Accounted [Fintype κ] (setup : OproSetup) (rewards : κ → ℚ) (before after : OproKv) :
    Prop where
  counted : tasksTotal (persistedStatistics setup after) =
    tasksTotal (persistedStatistics setup before) + Fintype.card κ
  folded : ∃ order : List κ, order.Nodup ∧ (∀ k, k ∈ order) ∧
    persistedStatistics setup after =
      order.foldl (fun persisted k => foldReward setup.cfg.emaWindow (rewards k) persisted)
        (persistedStatistics setup before)

/-- Every call has returned, with or without an error. -/
def AllEnded (t : Threads κ OproPoint OproKv) : Prop :=
  ∀ k, (t.locals k).isFinished = true ∨ (t.locals k).isFailed = true

/-- The store or the model serves the next operation of a call at the point. -/
def served (answer : OproAnswer) : OproPoint → Bool
  | .execute _ _ => answer.output.isSome
  | .finished | .failed => true
  | _ => answer.answered

def reads : OproPoint → Bool
  | .start => true
  | _ => false

def persists : OproPoint → Bool
  | .putState _ => true
  | _ => false

/-- The operation is served, the counter it raises does not overflow, and when it persists
a state no other call is on its way with one. -/
structure Undisturbed (setup : OproSetup) (t : Threads κ OproPoint OproKv)
    (a : κ × OproAnswer) : Prop where
  served : served a.2 (t.locals a.1) = true
  countable : reads (t.locals a.1) = true →
    ∀ state ∈ t.shared.states setup.adapterName, state.nTasksTotal + 1 < 2 ^ 32
  alone : persists (t.locals a.1) = true → ∀ k, k ≠ a.1 → (t.locals k).carried = none

instance [Fintype κ] [DecidableEq κ] (setup : OproSetup) (t : Threads κ OproPoint OproKv)
    (a : κ × OproAnswer) : Decidable (Undisturbed setup t a) :=
  decidable_of_iff
    (OproAccounting.served a.2 (t.locals a.1) = true ∧
      (reads (t.locals a.1) = true →
        ∀ state ∈ t.shared.states setup.adapterName, state.nTasksTotal + 1 < 2 ^ 32) ∧
      (persists (t.locals a.1) = true → ∀ k, k ≠ a.1 → (t.locals k).carried = none))
    ⟨fun h => ⟨h.1, h.2.1, h.2.2⟩, fun h => ⟨h.served, h.countable, h.alone⟩⟩

end Statement

/-! ## Triggers as updates of the statistics -/

@[simp] theorem statistics_suppress (setup : OproSetup) (state : AdapterOproState) :
    statistics (suppress setup state) = statistics state := rfl

@[simp] theorem statistics_addArm (setup : OproSetup) (variantId : String)
    (state : AdapterOproState) :
    statistics (addArm setup variantId state) = statistics state := rfl

@[simp] theorem statistics_closeRound (setup : OproSetup) (now : Nat)
    (state : AdapterOproState) :
    statistics (closeRound setup now state) = statistics state := rfl

theorem tasksTotal_foldReward (window : Nat) (reward : ℚ) (persisted : Option OproStatistics) :
    tasksTotal (foldReward window reward persisted) = tasksTotal persisted + 1 := rfl

variable {κ : Type} (setup : OproSetup) (rewards : κ → ℚ)

def triggerUpdates : Updates κ OproPoint OproKv (Option OproStatistics) where
  view := persistedStatistics setup
  held := fun point => point.carried.map fun state => some (statistics state)
  through := OproPoint.isFinished
  lost := OproPoint.isFailed
  fold := fun persisted k => foldReward setup.cfg.emaWindow (rewards k) persisted
  count := tasksTotal
  idle := by
    intro point h
    cases point <;> simp_all [OproPoint.carried, OproPoint.isFinished, OproPoint.isFailed]
  count_fold := fun persisted k => tasksTotal_foldReward setup.cfg.emaWindow (rewards k) persisted

/-- What step 2 makes of the persisted state. -/
def counted (kv : OproKv) (reward : ℚ) : AdapterOproState :=
  countTask setup reward ((kv.states setup.adapterName).getD (initialOproState setup reward))

theorem statistics_counted (kv : OproKv) (reward : ℚ) :
    some (statistics (counted setup kv reward)) =
      (foldReward setup.cfg.emaWindow reward (persistedStatistics setup kv)).map fun s =>
        { s with nTasksTotal := s.nTasksTotal % 2 ^ 32 } := by
  unfold counted persistedStatistics foldReward tasksTotal
  cases kv.states setup.adapterName with
  | none => rfl
  | some state => rfl

/-- The read folds the reward in unless the counter overflows. -/
theorem counted_eq_iff (kv : OproKv) (reward : ℚ) :
    some (statistics (counted setup kv reward)) =
        foldReward setup.cfg.emaWindow reward (persistedStatistics setup kv) ↔
      ∀ state ∈ kv.states setup.adapterName, state.nTasksTotal + 1 < 2 ^ 32 := by
  have hfold : (some (statistics (counted setup kv reward)) =
      foldReward setup.cfg.emaWindow reward (persistedStatistics setup kv)) ↔
      tasksTotal (persistedStatistics setup kv) + 1 < 2 ^ 32 := by
    rw [statistics_counted, foldReward, Option.map_some, Option.some.injEq,
      OproStatistics.mk.injEq]
    constructor
    · rintro ⟨hmod, -⟩
      exact hmod ▸ Nat.mod_lt _ (by decide)
    · intro hlt
      exact ⟨Nat.mod_eq_of_lt hlt, rfl⟩
  rw [hfold, persistedStatistics, tasksTotal]
  cases kv.states setup.adapterName with
  | none => simp
  | some state => simp [statistics]

/-- An overflow leaves the count behind. -/
theorem counted_le (kv : OproKv) (reward : ℚ)
    (h : some (statistics (counted setup kv reward)) ≠
      foldReward setup.cfg.emaWindow reward (persistedStatistics setup kv)) :
    tasksTotal (some (statistics (counted setup kv reward))) ≤
      tasksTotal (persistedStatistics setup kv) := by
  have hmod : tasksTotal (some (statistics (counted setup kv reward))) =
      (tasksTotal (persistedStatistics setup kv) + 1) % 2 ^ 32 := by
    rw [statistics_counted]
    rfl
  have hoverflow : ¬ tasksTotal (persistedStatistics setup kv) + 1 < 2 ^ 32 := by
    intro hlt
    apply h
    rw [statistics_counted, foldReward, Option.map_some, Nat.mod_eq_of_lt hlt]
  have hlt := Nat.mod_lt (tasksTotal (persistedStatistics setup kv) + 1)
    (by decide : 0 < 2 ^ 32)
  omega

/-- The call is on its way with a state of the adapter, if with any. -/
def Named (point : OproPoint) : Prop :=
  ∀ state, point.carried = some state → state.adapterName = setup.adapterName

theorem counted_named (kv : OproKv) (reward : ℚ) :
    (counted setup kv reward).adapterName = setup.adapterName := by
  unfold counted
  cases hstate : kv.states setup.adapterName with
  | none => rfl
  | some state => exact kv.filed _ state hstate

theorem named_move (k : κ) (answer : OproAnswer) {point : OproPoint} (kv : OproKv)
    (h : Named setup point) : Named setup (oproMove setup rewards k answer point kv).1 := by
  intro state hstate
  cases point with
  | start =>
      simp only [oproMove, oproOperation] at hstate
      split at hstate
      next =>
        split at hstate <;> obtain rfl := Option.some.inj hstate <;>
          exact counted_named setup kv (rewards k)
      next => cases hstate
  | readPtr held =>
      simp only [oproMove, oproOperation] at hstate
      split at hstate
      next => split at hstate <;> exact h state hstate
      next => cases hstate
  | readVariant held activeId =>
      simp only [oproMove, oproOperation] at hstate
      split at hstate
      next => exact h state hstate
      next => cases hstate
  | execute held currentPrompt =>
      simp only [oproMove, oproOperation] at hstate
      split at hstate
      next => cases hstate
      next =>
        split at hstate
        next =>
          obtain rfl := Option.some.inj hstate
          exact h held rfl
        next => exact h state hstate
  | putVariant held variant =>
      simp only [oproMove, oproOperation] at hstate
      split at hstate
      next => split at hstate <;> obtain rfl := Option.some.inj hstate <;> exact h held rfl
      next => cases hstate
  | setPtr held winnerId =>
      simp only [oproMove, oproOperation] at hstate
      split at hstate
      next =>
        obtain rfl := Option.some.inj hstate
        exact h held rfl
      next => cases hstate
  | putState held =>
      simp only [oproMove, oproOperation] at hstate
      split at hstate <;> cases hstate
  | finished => cases hstate
  | failed => cases hstate

/-- Each operation of a trigger is one of an update. -/
theorem trigger_op (k : κ) (answer : OproAnswer) {point : OproPoint} (kv : OproKv)
    (h : Named setup point) :
    (triggerUpdates setup rewards).Op k point kv
      (oproMove setup rewards k answer point kv).1
      (oproMove setup rewards k answer point kv).2 := by
  cases point with
  | start =>
      simp only [oproMove, oproOperation]
      split
      next =>
        have hderived : some (statistics (counted setup kv (rewards k))) =
              foldReward setup.cfg.emaWindow (rewards k) (persistedStatistics setup kv) ∨
            tasksTotal (some (statistics (counted setup kv (rewards k)))) ≤
              tasksTotal (persistedStatistics setup kv) :=
          (Classical.em _).imp_right (counted_le setup kv (rewards k))
        split <;> exact .read rfl rfl _ rfl hderived rfl rfl rfl rfl
      next => exact .dropped rfl rfl rfl rfl rfl rfl
  | readPtr held =>
      simp only [oproMove, oproOperation]
      split
      next => split <;> exact .kept rfl rfl rfl rfl
      next => exact .dropped rfl rfl rfl rfl rfl rfl
  | readVariant held activeId =>
      simp only [oproMove, oproOperation]
      split
      next => exact .kept rfl rfl rfl rfl
      next => exact .dropped rfl rfl rfl rfl rfl rfl
  | execute held currentPrompt =>
      simp only [oproMove, oproOperation]
      split
      next => exact .dropped rfl rfl rfl rfl rfl rfl
      next => split <;> exact .kept rfl rfl rfl rfl
  | putVariant held variant =>
      simp only [oproMove, oproOperation]
      split
      next => split <;> exact .kept rfl rfl rfl rfl
      next => exact .dropped rfl rfl rfl rfl rfl rfl
  | setPtr held winnerId =>
      simp only [oproMove, oproOperation]
      split
      next => exact .kept rfl rfl rfl rfl
      next => exact .dropped rfl rfl rfl rfl rfl rfl
  | putState held =>
      simp only [oproMove, oproOperation]
      split
      next =>
        have hview : persistedStatistics setup (kv.putState held) = some (statistics held) := by
          simp [persistedStatistics, OproKv.putState, ← h held rfl]
        refine .wrote ?_ rfl rfl rfl rfl rfl
        exact congrArg some hview.symm
      next => exact .dropped rfl rfl rfl rfl rfl rfl
  | finished => exact .kept rfl rfl rfl rfl
  | failed => exact .kept rfl rfl rfl rfl

/-! ## Undisturbed operations -/

theorem move_unserved (k : κ) {answer : OproAnswer} {point : OproPoint} (kv : OproKv)
    (h : served answer point = false) :
    oproMove setup rewards k answer point kv = (.failed, kv) := by
  cases point with
  | execute held currentPrompt =>
      have hnone : answer.output = none := by simpa [served] using h
      simp only [oproMove, oproOperation, hnone]
  | finished => cases h
  | failed => rfl
  | _ =>
      have hunanswered : answer.answered = false := h
      simp [oproMove, oproOperation, hunanswered]

/-- A served call does not fail, and it ends with its put. -/
theorem move_served (k : κ) {answer : OproAnswer} {point : OproPoint} (kv : OproKv)
    (h : served answer point = true) (hopen : point.isFinished = false)
    (hfresh : point.isFailed = false) :
    (oproMove setup rewards k answer point kv).1.isFailed = false ∧
      (oproMove setup rewards k answer point kv).1.isFinished = persists point := by
  cases point with
  | execute held currentPrompt =>
      obtain ⟨output, houtput⟩ := Option.isSome_iff_exists.mp h
      simp only [oproMove, oproOperation, houtput]
      split <;> exact ⟨rfl, rfl⟩
  | finished => cases hopen
  | failed => cases hfresh
  | start =>
      have hanswered : answer.answered = true := h
      simp only [oproMove, oproOperation, hanswered, ↓reduceIte]
      split <;> exact ⟨rfl, rfl⟩
  | readPtr held =>
      have hanswered : answer.answered = true := h
      simp only [oproMove, oproOperation, hanswered, ↓reduceIte]
      split <;> exact ⟨rfl, rfl⟩
  | putVariant held variant =>
      have hanswered : answer.answered = true := h
      simp only [oproMove, oproOperation, hanswered, ↓reduceIte]
      split <;> exact ⟨rfl, rfl⟩
  | _ =>
      have hanswered : answer.answered = true := h
      simp only [oproMove, oproOperation, hanswered, ↓reduceIte]
      exact ⟨rfl, rfl⟩

theorem survives_iff (k : κ) (answer : OproAnswer) (point : OproPoint) (kv : OproKv) :
    (point.isFailed = false →
        (oproMove setup rewards k answer point kv).1.isFailed = false) ↔
      served answer point = true := by
  cases hserved : served answer point with
  | false =>
      have hfresh : point.isFailed = false := by
        cases point <;> first | rfl | cases hserved
      rw [move_unserved setup rewards k kv hserved, hfresh]
      simp [OproPoint.isFailed]
  | true =>
      refine ⟨fun _ => rfl, fun _ hfresh => ?_⟩
      cases hfinished : point.isFinished with
      | false => exact (move_served setup rewards k kv hserved hfinished hfresh).1
      | true =>
          cases point with
          | finished => rfl
          | _ => cases hfinished

/-- The value an operation derives: a call takes one up with its first operation. -/
theorem carried_move (k : κ) (answer : OproAnswer) {point : OproPoint} (kv : OproKv)
    (h : point.carried = none) :
    (oproMove setup rewards k answer point kv).1.carried =
      if reads point && served answer point then some (counted setup kv (rewards k))
      else none := by
  cases point with
  | start =>
      simp only [oproMove, oproOperation, reads, served, Bool.true_and]
      split
      next => split <;> rfl
      next => rfl
  | finished => rfl
  | failed => rfl
  | _ => cases h

/-- A call ends with its put. -/
theorem finishes_iff (k : κ) (answer : OproAnswer) {point : OproPoint} (kv : OproKv)
    (h : point.isFinished = false) :
    (oproMove setup rewards k answer point kv).1.isFinished = true ↔
      persists point = true ∧ served answer point = true := by
  cases hserved : served answer point with
  | false =>
      rw [move_unserved setup rewards k kv hserved]
      simp [OproPoint.isFinished]
  | true =>
      cases hfailed : point.isFailed with
      | false =>
          rw [(move_served setup rewards k kv hserved h hfailed).2]
          simp
      | true =>
          cases point with
          | failed => simp [oproMove, oproOperation, OproPoint.isFinished, persists]
          | _ => cases hfailed

theorem carried_of_reads {point : OproPoint} (h : reads point = true) : point.carried = none := by
  cases point <;> first | rfl | cases h

theorem not_finished_of_persists {point : OproPoint} (h : persists point = true) :
    point.isFinished = false := by
  cases point <;> first | rfl | cases h

section Clean

variable [DecidableEq κ] (t : Threads κ OproPoint OproKv) (a : κ × OproAnswer)

omit [DecidableEq κ] in
theorem undisturbed_of_clean
    (h : (triggerUpdates setup rewards).Clean (oproMove setup rewards) t a) :
    Undisturbed setup t a := by
  have hserved : served a.2 (t.locals a.1) = true :=
    (survives_iff setup rewards a.1 a.2 (t.locals a.1) t.shared).mp h.survives
  refine ⟨hserved, fun hreads => ?_, fun hpersists k hk => ?_⟩
  · have hfree := carried_of_reads hreads
    have hcarried := carried_move setup rewards a.1 a.2 t.shared hfree
    rw [hreads, hserved, Bool.and_self, if_pos rfl] at hcarried
    apply (counted_eq_iff setup t.shared (rewards a.1)).mp
    apply h.derives
    · simp [triggerUpdates, hfree]
    · simp [triggerUpdates, hcarried]
  · have hbefore := not_finished_of_persists hpersists
    have hafter := (finishes_iff setup rewards a.1 a.2 t.shared hbefore).mpr ⟨hpersists, hserved⟩
    exact Option.map_eq_none_iff.mp (h.alone hbefore hafter k hk)

omit [DecidableEq κ] in
theorem clean_of_undisturbed (h : Undisturbed setup t a) :
    (triggerUpdates setup rewards).Clean (oproMove setup rewards) t a := by
  refine ⟨?_, fun hnone v hv => ?_, fun hbefore hafter k hk => ?_⟩
  · exact (survives_iff setup rewards a.1 a.2 (t.locals a.1) t.shared).mpr h.served
  · have hfree : (t.locals a.1).carried = none := Option.map_eq_none_iff.mp hnone
    have hcarried := carried_move setup rewards a.1 a.2 t.shared hfree
    cases hreads : reads (t.locals a.1) with
    | false => simp [triggerUpdates, hcarried, hreads] at hv
    | true =>
        rw [hreads, h.served, Bool.and_self, if_pos rfl] at hcarried
        have hvalue : some (statistics (counted setup t.shared (rewards a.1))) = v := by
          simpa [triggerUpdates, hcarried] using hv
        rw [← hvalue]
        exact (counted_eq_iff setup t.shared (rewards a.1)).mpr (h.countable hreads)
  · have hpersists := ((finishes_iff setup rewards a.1 a.2 t.shared hbefore).mp hafter).1
    exact Option.map_eq_none_iff.mpr (h.alone hpersists k hk)

end Clean

/-! ## Whole runs -/

theorem spawned_atStart (kv : OproKv) :
    (triggerUpdates setup rewards).AtStart (spawnedCalls kv) :=
  ⟨fun _ => rfl, fun _ => rfl, fun _ => rfl⟩

/-- In the interleavings in which all triggers end they are accounted for in exactly those
whose operations are undisturbed. -/
theorem opro_accounted_iff [Fintype κ] [DecidableEq κ] (kv : OproKv)
    (actions : List (κ × OproAnswer)) (t : Threads κ OproPoint OproKv)
    (run : runActions (Threads.step (oproMove setup rewards)) (spawnedCalls kv) actions = some t)
    (ended : AllEnded t) :
    Accounted setup rewards kv t.shared ↔
      RunMeets (Threads.step (oproMove setup rewards)) (Undisturbed setup)
        (spawnedCalls kv) actions := by
  have hkept : ∀ (t : Threads κ OproPoint OproKv) (k : κ) (answer : OproAnswer),
      (∀ j, Named setup (t.locals j)) →
        ∀ j, Named setup ((t.act (oproMove setup rewards) (k, answer)).locals j) := by
    intro t k answer hnamed j
    by_cases hj : j = k
    · subst hj
      rw [Threads.act_same]
      exact named_move setup rewards j answer t.shared (hnamed j)
    · rw [Threads.act_other _ t k answer hj]
      exact hnamed j
  have hnamed : ∀ j : κ, Named setup ((spawnedCalls kv).locals j) := by
    intro j state hstate
    cases hstate
  have hmodels : (triggerUpdates setup rewards).Models (oproMove setup rewards)
      fun t => ∀ j, Named setup (t.locals j) :=
    ⟨hkept, fun t k answer hnamed => trigger_op setup rewards k answer t.shared (hnamed k)⟩
  have hfolded := Updates.foldedOnce_iff_clean hmodels hnamed
    (spawned_atStart setup rewards kv) run ended
  constructor
  · intro h
    exact (hfolded.mp h.folded).imp (undisturbed_of_clean setup rewards)
  · intro meets
    have honce := hfolded.mpr (meets.imp (clean_of_undisturbed setup rewards))
    exact ⟨honce.count, honce⟩

/-! ## Sample runs -/

/-- The defaults, with a first round after two tasks. -/
def sampleSetup : OproSetup :=
  { adapterName := "default"
    promptKey := "system_preamble"
    cfg := ⟨true, 3 / 5, 2, 5, 20, 1 / 20, 10⟩
    isWordChar := fun c => c.isAlphanum || c = '_' }

def emptyKv : OproKv := ⟨fun _ => none, fun _ _ => none, fun _ _ _ => none, by simp⟩

/-- A served request; the model answers with a prompt. -/
def answering : OproAnswer := ⟨true, some " Be brief. ", "v-1", 100⟩

/-- The model fails. -/
def refusing : OproAnswer := ⟨true, none, "v-1", 100⟩

def afterRun (setup : OproSetup) (rewards : κ → ℚ) [DecidableEq κ] (kv : OproKv)
    (actions : List (κ × OproAnswer)) : Threads κ OproPoint OproKv :=
  actions.foldl (Threads.act (oproMove setup rewards)) (spawnedCalls kv)

/-- Two triggers one after the other, the second with a new prompt. -/
def oneAfterTheOther : List (Fin 2 × OproAnswer) :=
  [(0, answering), (0, answering), (1, answering), (1, answering), (1, answering),
    (1, answering), (1, answering)]

theorem one_after_the_other_accounted :
    Accounted sampleSetup (fun k : Fin 2 => if k = 0 then 1 / 2 else 1 / 4) emptyKv
      (afterRun sampleSetup (fun k : Fin 2 => if k = 0 then 1 / 2 else 1 / 4) emptyKv
        oneAfterTheOther).shared :=
  (opro_accounted_iff sampleSetup _ emptyKv oneAfterTheOther _
    (runActions_total (Threads.act _) _ _)
    (by unfold AllEnded; decide +kernel)).mpr (by decide +kernel)

/-- Two triggers that read before either writes are counted as one, and a trigger whose
model fails is not counted. -/
theorem triggers_not_accounted :
    (AllEnded (afterRun sampleSetup (fun _ : Fin 2 => 3 / 4) emptyKv
        [(0, answering), (1, answering), (0, answering), (1, answering)]) ∧
      ¬ Accounted sampleSetup (fun _ : Fin 2 => 3 / 4) emptyKv
        (afterRun sampleSetup (fun _ : Fin 2 => 3 / 4) emptyKv
          [(0, answering), (1, answering), (0, answering), (1, answering)]).shared) ∧
    (AllEnded (afterRun sampleSetup (fun _ : Fin 2 => 1 / 2) emptyKv
        [(0, answering), (0, answering), (1, answering), (1, answering), (1, refusing)]) ∧
      ¬ Accounted sampleSetup (fun _ : Fin 2 => 1 / 2) emptyKv
        (afterRun sampleSetup (fun _ : Fin 2 => 1 / 2) emptyKv
          [(0, answering), (0, answering), (1, answering), (1, answering), (1, refusing)]).shared) := by
  refine ⟨⟨by unfold AllEnded; decide +kernel, fun h => ?_⟩,
    by unfold AllEnded; decide +kernel, fun h => ?_⟩
  · exact absurd h.counted (by decide +kernel)
  · exact absurd h.counted (by decide +kernel)

end ControlPlane.Guarantees.OproAccounting
