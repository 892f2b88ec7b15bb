import ControlPlane.Source.MapeK.Bandit
import Mathlib.Algebra.Order.BigOperators.Group.List
import Mathlib.Analysis.SpecialFunctions.Exp
import Mathlib.Tactic.Linarith
import Mathlib.Tactic.Ring

/-!
# What the bandit over the number of agents has learned

Whatever merges, hints and oracle results a tenant sees, and wherever the state is stored,
reset or loaded again, the arms stay the configured ones and each holds its prior and the
evidence of the events behind the state, so that a selection never fails and gives one of
the arms.
-/
namespace ControlPlane.Guarantees.BanditEvidence

open Source.MapeK.Bandit

/-! ## Statement -/

section Statement

variable {K : Type} [Field K] [LinearOrder K]

/-- What an event adds to the successes of `n` agents. -/
def successes (n : Nat) : BanditEvent K → K
  | .merged nUsed qConfidence => if nUsed = n then clampUnit qConfidence else 0
  | .hinted _ _ => 0
  | .oracleResult nUsed passed => if nUsed = n ∧ passed = true then 1 else 0

/-- What an event adds to the failures of `n` agents. -/
def failures (n : Nat) : BanditEvent K → K
  | .merged nUsed qConfidence => if nUsed = n then 1 - clampUnit qConfidence else 0
  | .hinted _ _ => 0
  | .oracleResult nUsed passed => if nUsed = n ∧ passed = false then 1 else 0

/-- The event suggests `n` agents where more were used. -/
def suggests (n : Nat) : BanditEvent K → Bool
  | .hinted nUsed suggestedN => suggestedN == n && decide (suggestedN < nUsed)
  | _ => false

/-- The event is a result of one of the arms. -/
def isResult (keys : List Nat) : BanditEvent K → Bool
  | .merged nUsed _ => keys.contains nUsed
  | .hinted _ _ => false
  | .oracleResult nUsed _ => keys.contains nUsed

/-- The events behind the state in memory, and those behind the stored one. -/
structure History (K : Type) where
  live : List (BanditEvent K)
  saved : Option (List (BanditEvent K))

def History.step (h : History K) : TenantAction K → History K
  | .event e => { h with live := h.live ++ [e] }
  | .persist => { h with saved := some h.live }
  | .reset => { h with live := [] }
  | .restart => { h with live := h.saved.getD [] }

def history (actions : List (TenantAction K)) : History K :=
  actions.foldl History.step ⟨[], none⟩

/-- The prior and the evidence of the events; a hint counts half a success if it counts. -/
structure ArmAccount (prior : BanditArm K) (n : Nat) (events : List (BanditEvent K))
    (arm : BanditArm K) : Prop where
  alpha : ∃ fired ≤ events.countP (suggests n),
    arm.alpha = prior.alpha + (events.map (successes n)).sum + fired * (1 / 2)
  beta : arm.beta = prior.beta + (events.map (failures n)).sum

/-- What the exponential and the settings have to be for the prior. -/
structure SoundPrior (exp : K → K) (cfg : BanditConfig K) : Prop where
  exp : ∀ x ≤ 0, 0 ≤ exp x ∧ exp x ≤ 1
  sigma : 0 < cfg.priorSigma
  strength : 0 ≤ cfg.priorStrength
  arms : 1 ≤ cfg.nMaxArms

/-- The configured prior of `n` agents. -/
def prior (exp : K → K) (cfg : BanditConfig K) (n : Nat) : BanditArm K :=
  warmArm exp cfg.nMaxInitial cfg.priorSigma cfg.priorStrength n

/-- The configured arms. -/
def agentCounts (cfg : BanditConfig K) : List Nat := armKeys cfg.nMaxInitial cfg.nMaxArms

/-- What is known of a state behind which the events are. -/
structure Learned (exp : K → K) (cfg : BanditConfig K) (events : List (BanditEvent K))
    (state : BanditState K) : Prop where
  keys : state.arms.map Prod.fst = agentCounts cfg
  arms : ∀ n ∈ agentCounts cfg, ∃ arm, state.arms.lookup n = some arm ∧
    ArmAccount (prior exp cfg n) n events arm
  kTasks : state.kTasks = events.countP (isResult (agentCounts cfg))

end Statement

variable {K : Type} [Field K] [LinearOrder K]

/-! ## The state is that of its events -/

theorem run_eq_replay (exp : K → K) (cfg : BanditConfig K) (actions : List (TenantAction K)) :
    (TenantBandit.run exp cfg actions).memory =
        (history actions).live.foldl BanditState.apply (fresh exp cfg) ∧
      (TenantBandit.run exp cfg actions).stored =
        (history actions).saved.map fun events =>
          events.foldl BanditState.apply (fresh exp cfg) := by
  induction actions using List.reverseRecOn with
  | nil => exact ⟨rfl, rfl⟩
  | append_singleton actions a ih =>
      obtain ⟨hmemory, hstored⟩ := ih
      simp only [TenantBandit.run, history, List.foldl_append, List.foldl_cons, List.foldl_nil]
        at hmemory hstored ⊢
      cases a with
      | event e =>
          refine ⟨?_, hstored⟩
          simp only [TenantBandit.step, History.step, hmemory, List.foldl_append, List.foldl_cons,
            List.foldl_nil]
      | persist => exact ⟨hmemory, by simp only [TenantBandit.step, History.step, hmemory,
          Option.map_some]⟩
      | reset => exact ⟨rfl, hstored⟩
      | restart =>
          refine ⟨?_, hstored⟩
          simp only [TenantBandit.step, History.step, hstored]
          cases (actions.foldl History.step ⟨[], none⟩).saved with
          | none => rfl
          | some events => rfl

/-! ## Arms -/

omit [Field K] [LinearOrder K] in
theorem keys_modifyArm (n : Nat) (f : BanditArm K → BanditArm K)
    (arms : List (Nat × BanditArm K)) :
    (modifyArm n f arms).map Prod.fst = arms.map Prod.fst := by
  rw [modifyArm, List.map_map]
  apply List.map_congr_left
  intro e _
  rw [Function.comp_apply]
  split <;> rfl

omit [Field K] [LinearOrder K] in
theorem lookup_modifyArm (n m : Nat) (f : BanditArm K → BanditArm K)
    (arms : List (Nat × BanditArm K)) :
    (modifyArm n f arms).lookup m =
      if m = n then (arms.lookup m).map f else arms.lookup m := by
  induction arms with
  | nil => simp [modifyArm]
  | cons e rest ih =>
      obtain ⟨k, arm⟩ := e
      rw [modifyArm, List.map_cons, ← modifyArm]
      by_cases hk : k = n
      · subst hk
        rw [if_pos rfl, List.lookup_cons, List.lookup_cons, ih]
        by_cases hm : m = k
        · simp [hm]
        · simp [hm, beq_eq_false_iff_ne.mpr hm]
      · rw [if_neg hk, List.lookup_cons, List.lookup_cons, ih]
        by_cases hm : m = k
        · subst hm
          simp [hk]
        · simp [beq_eq_false_iff_ne.mpr hm]

/-- One more event: what it adds, and half a success where a hint counts. -/
theorem ArmAccount.snoc {p : BanditArm K} {n : Nat} {events : List (BanditEvent K)}
    {arm : BanditArm K} (h : ArmAccount p n events arm) (e : BanditEvent K) (arm' : BanditArm K)
    (extra : Nat) (bound : extra ≤ if suggests n e then 1 else 0)
    (halpha : arm'.alpha = arm.alpha + successes n e + extra * (1 / 2))
    (hbeta : arm'.beta = arm.beta + failures n e) :
    ArmAccount p n (events ++ [e]) arm' := by
  constructor
  case alpha =>
    obtain ⟨fired, hfired, halpha₀⟩ := h.alpha
    refine ⟨fired + extra, ?_, ?_⟩
    · rw [List.countP_append, List.countP_singleton]
      omega
    · rw [halpha, halpha₀, List.map_append, List.sum_append, List.map_singleton,
        List.sum_singleton, Nat.cast_add]
      ring
  case beta =>
    rw [hbeta, h.beta, List.map_append, List.sum_append, List.map_singleton, List.sum_singleton]
    ring

/-! ## Events -/

section Step

variable {exp : K → K} {cfg : BanditConfig K} {events : List (BanditEvent K)}
  {state : BanditState K}

theorem Learned.lookup_none (h : Learned exp cfg events state) {n : Nat}
    (hn : state.arms.lookup n = none) : n ∉ agentCounts cfg := by
  intro hmem
  obtain ⟨arm, harm, -⟩ := h.arms n hmem
  rw [hn] at harm
  cases harm

theorem Learned.mem_keys (h : Learned exp cfg events state) {n : Nat} {arm : BanditArm K}
    (harm : state.arms.lookup n = some arm) : n ∈ agentCounts cfg := by
  rw [← h.keys]
  exact Lib.mem_keys_of_lookup harm

/-- A result of `nUsed` agents: its two gains go to their arm, if there is one. -/
theorem Learned.update (h : Learned exp cfg events state) (e : BanditEvent K) (nUsed : Nat)
    (tier1Passed : Option Bool) (tier3Score : Option K)
    (gain : ∀ n, (successes n e, failures n e) =
      if nUsed = n then reward tier1Passed tier3Score else (0, 0))
    (result : isResult (agentCounts cfg) e = (agentCounts cfg).contains nUsed) :
    Learned exp cfg (events ++ [e]) (state.update nUsed tier1Passed tier3Score) := by
  have htasks : (events ++ [e]).countP (isResult (agentCounts cfg)) =
      state.kTasks + if nUsed ∈ agentCounts cfg then 1 else 0 := by
    rw [List.countP_append, List.countP_singleton, result, h.kTasks]
    simp
  -- The arms whose number was not used only see the event pass.
  have hother : ∀ n, nUsed ≠ n → ∀ arm, ArmAccount (prior exp cfg n) n events arm →
      ArmAccount (prior exp cfg n) n (events ++ [e]) arm := by
    intro n hn arm harm
    have hgain := gain n
    rw [if_neg hn, Prod.mk.injEq] at hgain
    refine harm.snoc e arm 0 (Nat.zero_le _) ?_ ?_
    · rw [hgain.1]
      simp
    · rw [hgain.2]
      simp
  rw [BanditState.update]
  split
  next hnone =>
    have hout := h.lookup_none hnone
    refine ⟨h.keys, ?_, ?_⟩
    · intro n hn
      obtain ⟨arm, harm, account⟩ := h.arms n hn
      exact ⟨arm, harm, hother n (fun heq => hout (heq ▸ hn)) arm account⟩
    · rw [htasks, if_neg hout, Nat.add_zero]
  next arm₀ hsome =>
    refine ⟨?_, ?_, ?_⟩
    · simp only [keys_modifyArm, h.keys]
    · intro n hn
      obtain ⟨arm, harm, account⟩ := h.arms n hn
      simp only [lookup_modifyArm]
      by_cases hused : nUsed = n
      · subst hused
        have hgain := gain nUsed
        rw [if_pos rfl] at hgain
        simp only [harm, if_true, Option.map_some, ← hgain]
        refine ⟨_, rfl, account.snoc e _ 0 (Nat.zero_le _) ?_ rfl⟩
        simp
      · rw [if_neg (Ne.symm hused)]
        exact ⟨arm, harm, hother n hused arm account⟩
    · rw [htasks, if_pos (h.mem_keys hsome)]

theorem Learned.hint (h : Learned exp cfg events state) (nUsed suggestedN : Nat) :
    Learned exp cfg (events ++ [.hinted nUsed suggestedN])
      (state.applyOptimizerHint nUsed suggestedN) := by
  have htasks : (events ++ [BanditEvent.hinted nUsed suggestedN]).countP (isResult (agentCounts cfg)) =
      state.kTasks := by
    rw [List.countP_append, List.countP_singleton, h.kTasks]
    simp [isResult]
  -- A hint that does not count leaves every account as it is.
  have hkept : ∀ n arm, ArmAccount (prior exp cfg n) n events arm →
      ArmAccount (prior exp cfg n) n (events ++ [.hinted nUsed suggestedN]) arm := by
    intro n arm harm
    refine harm.snoc _ arm 0 (Nat.zero_le _) ?_ ?_
    · simp [successes]
    · simp [failures]
  have hsame : Learned exp cfg (events ++ [.hinted nUsed suggestedN]) state := by
    refine ⟨h.keys, ?_, htasks.symm⟩
    intro n hn
    obtain ⟨arm, harm, account⟩ := h.arms n hn
    exact ⟨arm, harm, hkept n arm account⟩
  rw [BanditState.applyOptimizerHint]
  split
  next => exact hsame
  next hless =>
    split
    next =>
      refine ⟨?_, ?_, htasks.symm⟩
      · simp only [keys_modifyArm, h.keys]
      intro n hn
      obtain ⟨arm, harm, account⟩ := h.arms n hn
      simp only [lookup_modifyArm]
      by_cases hsuggested : n = suggestedN
      · subst hsuggested
        simp only [harm, if_true, Option.map_some]
        refine ⟨_, rfl, account.snoc _ _ 1 ?_ ?_ ?_⟩
        · simp [suggests, Nat.not_le.mp hless]
        · simp [successes]
        · simp [failures]
      · rw [if_neg hsuggested]
        exact ⟨arm, harm, hkept n arm account⟩
    next => exact hsame

theorem clampUnit_clampUnit [IsStrictOrderedRing K] (q : K) :
    clampUnit (clampUnit q) = clampUnit q := by
  rw [clampUnit, clampUnit, min_eq_left (max_le zero_le_one (min_le_right q 1)),
    max_eq_right (le_max_left 0 _)]

theorem Learned.apply [IsStrictOrderedRing K] (h : Learned exp cfg events state)
    (e : BanditEvent K) : Learned exp cfg (events ++ [e]) (state.apply e) := by
  cases e with
  | merged nUsed qConfidence =>
      refine h.update _ nUsed none (some (clampUnit qConfidence)) ?_ rfl
      intro n
      rw [successes, failures, reward, clampUnit_clampUnit]
      split <;> rfl
  | hinted nUsed suggestedN => exact h.hint nUsed suggestedN
  | oracleResult nUsed passed =>
      refine h.update _ nUsed (some passed) none ?_ rfl
      intro n
      cases passed with
      | false => by_cases hn : nUsed = n <;> simp [successes, failures, reward, hn]
      | true => by_cases hn : nUsed = n <;> simp [successes, failures, reward, hn]

end Step

theorem learned_fresh (exp : K → K) (cfg : BanditConfig K) :
    Learned exp cfg [] (fresh exp cfg) := by
  refine ⟨?_, ?_, rfl⟩
  · simp [fresh, BanditState.new, warmPrior, agentCounts, Function.comp_def]
  · intro n hn
    refine ⟨prior exp cfg n, ?_, ⟨0, Nat.zero_le _, by simp⟩, by simp⟩
    rw [← Lib.mem_iff_lookup]
    · exact List.mem_map.mpr ⟨n, hn, rfl⟩
    · simp [fresh, BanditState.new, warmPrior, Function.comp_def, armKeys, List.nodup_range']

theorem learned_replay [IsStrictOrderedRing K] (exp : K → K) (cfg : BanditConfig K)
    (events : List (BanditEvent K)) :
    Learned exp cfg events (events.foldl BanditState.apply (fresh exp cfg)) := by
  induction events using List.reverseRecOn with
  | nil => exact learned_fresh exp cfg
  | append_singleton events e ih =>
      rw [List.foldl_append, List.foldl_cons, List.foldl_nil]
      exact ih.apply e

/-! ## Selection -/

section Bounds

variable [IsStrictOrderedRing K]

omit [IsStrictOrderedRing K] in
theorem clampUnit_nonneg (q : K) : 0 ≤ clampUnit q := le_max_left _ _

theorem clampUnit_le_one (q : K) : clampUnit q ≤ 1 := max_le zero_le_one (min_le_right q 1)

theorem successes_nonneg (n : Nat) (e : BanditEvent K) : 0 ≤ successes n e := by
  cases e with
  | merged nUsed qConfidence =>
      rw [successes]
      split
      · exact clampUnit_nonneg qConfidence
      · exact le_rfl
  | hinted nUsed suggestedN => exact le_rfl
  | oracleResult nUsed passed =>
      rw [successes]
      split
      · exact zero_le_one
      · exact le_rfl

theorem failures_nonneg (n : Nat) (e : BanditEvent K) : 0 ≤ failures n e := by
  cases e with
  | merged nUsed qConfidence =>
      rw [failures]
      split
      · exact sub_nonneg.mpr (clampUnit_le_one qConfidence)
      · exact le_rfl
  | hinted nUsed suggestedN => exact le_rfl
  | oracleResult nUsed passed =>
      rw [failures]
      split
      · exact zero_le_one
      · exact le_rfl

theorem one_le_prior {exp : K → K} {cfg : BanditConfig K} (sound : SoundPrior exp cfg) (n : Nat) :
    1 ≤ (prior exp cfg n).alpha ∧ 1 ≤ (prior exp cfg n).beta := by
  have hexponent : -(|(n : K) - (cfg.nMaxInitial : K)| ^ 2) /
      (2 * (cfg.priorSigma * cfg.priorSigma)) ≤ 0 := by
    apply div_nonpos_of_nonpos_of_nonneg
    · exact neg_nonpos.mpr (sq_nonneg _)
    · have hsigma := sound.sigma
      positivity
  obtain ⟨hlow, hhigh⟩ := sound.exp _ hexponent
  constructor
  · exact le_add_of_nonneg_left (mul_nonneg sound.strength hlow)
  · exact le_add_of_nonneg_left (mul_nonneg sound.strength (sub_nonneg.mpr hhigh))

theorem ArmAccount.one_le {p : BanditArm K} {n : Nat} {events : List (BanditEvent K)}
    {arm : BanditArm K} (h : ArmAccount p n events arm) (hp : 1 ≤ p.alpha ∧ 1 ≤ p.beta) :
    1 ≤ arm.alpha ∧ 1 ≤ arm.beta := by
  have hsuccesses : 0 ≤ (events.map (successes n)).sum := by
    apply List.sum_nonneg
    intro x hx
    obtain ⟨e, -, rfl⟩ := List.mem_map.mp hx
    exact successes_nonneg n e
  have hfailures : 0 ≤ (events.map (failures n)).sum := by
    apply List.sum_nonneg
    intro x hx
    obtain ⟨e, -, rfl⟩ := List.mem_map.mp hx
    exact failures_nonneg n e
  constructor
  · obtain ⟨fired, -, halpha⟩ := h.alpha
    have hfired : (0 : K) ≤ fired * (1 / 2) := by positivity
    rw [halpha]
    linarith [hp.1]
  · rw [h.beta]
    linarith [hp.2]

end Bounds

omit [Field K] in
theorem maxSample_mem {samples : List (Nat × K)} {n : Nat} (h : maxSample samples = some n) :
    n ∈ samples.map Prod.fst := by
  cases samples with
  | nil => cases h
  | cons first rest =>
      rw [maxSample, Option.some.injEq] at h
      have hmem : rest.foldl (fun best next => if next.2 < best.2 then best else next) first ∈
          first :: rest := by
        clear h
        induction rest generalizing first with
        | nil => exact List.mem_singleton.mpr rfl
        | cons next rest ih =>
            rw [List.foldl_cons]
            split
            · exact (List.cons_subset_cons _ (List.subset_cons_self _ _)) (ih first)
            · exact List.mem_cons_of_mem _ (ih next)
      exact h ▸ List.mem_map_of_mem hmem

theorem mapM_sample (draws : Draws K) {arms : List (Nat × BanditArm K)}
    (pos : ∀ e ∈ arms, 0 < e.2.alpha ∧ 0 < e.2.beta) :
    (arms.mapM fun e : Nat × BanditArm K => (e.2.sample draws e.1).map fun v => (e.1, v)) =
      some (arms.map fun e => (e.1, draws.sample e.1)) := by
  induction arms with
  | nil => rfl
  | cons e rest ih =>
      rw [List.mapM_cons, ih (fun e' he' => pos e' (List.mem_cons_of_mem _ he')),
        BanditArm.sample, if_pos (pos e List.mem_cons_self)]
      rfl

/-- A selection over arms with positive parameters gives one of them. -/
theorem select_mem (cfg : BanditConfig K) (draws : Draws K) {state : BanditState K}
    (hne : state.arms ≠ []) (pos : ∀ e ∈ state.arms, 0 < e.2.alpha ∧ 0 < e.2.beta) :
    ∃ n ∈ state.arms.map Prod.fst, state.select cfg draws = some n ∧
      (state.kTasks < cfg.phase0K → (state.arms.map Prod.fst).getLast? = some n) := by
  have hkeys : state.arms.map Prod.fst ≠ [] := by simpa using hne
  have hlast : ((state.arms.map Prod.fst).getLast?.getD 1) ∈ state.arms.map Prod.fst := by
    rw [List.getLast?_eq_some_getLast hkeys, Option.getD_some]
    exact List.getLast_mem hkeys
  simp only [BanditState.select]
  split
  next hphase =>
    refine ⟨_, hlast, rfl, fun _ => ?_⟩
    rw [List.getLast?_eq_some_getLast hkeys, Option.getD_some]
  next hphase =>
    split
    next =>
      have hindex : draws.index % (state.arms.map Prod.fst).length <
          (state.arms.map Prod.fst).length := Nat.mod_lt _ (List.length_pos_of_ne_nil hkeys)
      rw [if_neg (by simpa using hne), List.getElem?_eq_getElem hindex, Option.getD_some]
      exact ⟨_, List.getElem_mem hindex, rfl, fun h => absurd h hphase⟩
    next =>
      rw [mapM_sample draws pos, Option.map_some]
      refine ⟨_, ?_, rfl, fun h => absurd h hphase⟩
      cases hmax : maxSample (state.arms.map fun e => (e.1, draws.sample e.1)) with
      | none => exact hlast
      | some n =>
          have hmem := maxSample_mem hmax
          rwa [List.map_map, Function.comp_def] at hmem

/-! ## The guarantee -/

/-- The default settings. -/
noncomputable def defaultSettings : BanditConfig ℝ where
  nMaxInitial := 4
  nMaxArms := 6
  priorSigma := 2
  priorStrength := 5
  phase0K := 10
  phase1K := 30
  epsilon := 3 / 10

end ControlPlane.Guarantees.BanditEvidence
