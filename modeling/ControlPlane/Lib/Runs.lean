import Mathlib.Algebra.BigOperators.Group.Finset.Basic
import Mathlib.Algebra.Order.Field.Basic
import Mathlib.Data.Fintype.Basic
import Mathlib.Data.List.Basic
import Mathlib.Data.Option.Basic
import Mathlib.Logic.Function.Basic
import Mathlib.Tactic.Linarith
import Mathlib.Tactic.Ring

/-!
# Runs of a guarded step function

A system is a step function that answers `none` where an action is not enabled.
`RunMeets` says that every action of a run is taken in a state where a given
condition on the two holds; an invariant only has to be kept by such steps. Two kinds of
systems follow: calls that interleave over a shared state, and runs that are observed.
-/
namespace ControlPlane.Lib

variable {σ α : Type}

def runActions (step : σ → α → Option σ) : σ → List α → Option σ
  | s, [] => some s
  | s, action :: rest =>
      match step s action with
      | none => none
      | some s' => runActions step s' rest

def RunMeets (step : σ → α → Option σ) (condition : σ → α → Prop) : σ → List α → Prop
  | _, [] => True
  | s, action :: rest =>
      condition s action ∧
        match step s action with
        | none => True
        | some s' => RunMeets step condition s' rest

instance decidableRunMeets (step : σ → α → Option σ) (condition : σ → α → Prop)
    [∀ s action, Decidable (condition s action)] :
    (s : σ) → (actions : List α) → Decidable (RunMeets step condition s actions)
  | _, [] => isTrue trivial
  | s, action :: rest =>
      match h : step s action with
      | none => decidable_of_iff (condition s action) (by simp [RunMeets, h])
      | some s' =>
          have := decidableRunMeets step condition s' rest
          decidable_of_iff (condition s action ∧ RunMeets step condition s' rest)
            (by simp [RunMeets, h])

theorem RunMeets.imp {step : σ → α → Option σ} {condition condition' : σ → α → Prop}
    (weaker : ∀ s action, condition s action → condition' s action) {s : σ} {actions : List α}
    (h : RunMeets step condition s actions) : RunMeets step condition' s actions := by
  induction actions generalizing s with
  | nil => exact trivial
  | cons action rest ih =>
      refine ⟨weaker s action h.1, ?_⟩
      have hrest := h.2
      cases hstep : step s action with
      | none => exact trivial
      | some s' =>
          rw [hstep] at hrest
          exact ih hrest

/-- Two conditions that agree where an invariant holds are met by the same runs. -/
theorem runMeets_congr {step : σ → α → Option σ} {condition condition' : σ → α → Prop}
    {I : σ → Prop} (agree : ∀ s action, I s → (condition s action ↔ condition' s action))
    (preserved : ∀ s action s', I s → condition s action → step s action = some s' → I s')
    {s : σ} (init : I s) (actions : List α) :
    RunMeets step condition s actions ↔ RunMeets step condition' s actions := by
  induction actions generalizing s with
  | nil => exact Iff.rfl
  | cons action rest ih =>
      simp only [RunMeets]
      rw [← agree s action init]
      apply and_congr_right
      intro hcondition
      cases hstep : step s action with
      | none => exact Iff.rfl
      | some s' => exact ih (preserved s action s' init hcondition hstep)

theorem runMeets_append {step : σ → α → Option σ} {condition : σ → α → Prop} {s : σ}
    {before after : List α} : RunMeets step condition s (before ++ after) ↔
      RunMeets step condition s before ∧
        ∀ s', runActions step s before = some s' → RunMeets step condition s' after := by
  induction before generalizing s with
  | nil => simp [RunMeets, runActions]
  | cons first before ih =>
      simp only [List.cons_append, RunMeets, runActions]
      cases hstep : step s first with
      | none => simp
      | some s₁ => simp [ih, and_assoc]

/-- A run meets a condition if each of its actions does, where the run before it ends. -/
theorem runMeets_iff_splits {step : σ → α → Option σ} {condition : σ → α → Prop} {s : σ}
    {actions : List α} : RunMeets step condition s actions ↔
      ∀ before action after s', actions = before ++ action :: after →
        runActions step s before = some s' → condition s' action := by
  constructor
  · rintro h before action after s' rfl hrun
    exact ((runMeets_append.mp h).2 s' hrun).1
  · intro h
    induction actions generalizing s with
    | nil => exact trivial
    | cons first rest ih =>
        refine ⟨h [] first rest s rfl rfl, ?_⟩
        cases hstep : step s first with
        | none => exact trivial
        | some s₁ =>
            apply ih
            rintro before action after s' rfl hrun
            apply h (first :: before) action after s' rfl
            simpa only [runActions, hstep] using hrun

/-- Invariant rule for the runs that meet a condition. -/
theorem runMeets_holds {step : σ → α → Option σ} {condition : σ → α → Prop} {I : σ → Prop}
    (preserved : ∀ s action s', I s → condition s action → step s action = some s' → I s')
    {actions : List α} {s s' : σ} (init : I s) (meets : RunMeets step condition s actions)
    (run : runActions step s actions = some s') : I s' := by
  induction actions generalizing s with
  | nil =>
      simp only [runActions, Option.some.injEq] at run
      exact run ▸ init
  | cons action rest ih =>
      simp only [runActions] at run
      simp only [RunMeets] at meets
      cases hstep : step s action with
      | none => simp [hstep] at run
      | some s₁ =>
          simp only [hstep] at run meets
          exact ih (preserved s action s₁ init meets.1 hstep) meets.2 run

theorem runMeets_true (step : σ → α → Option σ) (s : σ) (actions : List α) :
    RunMeets step (fun _ _ => True) s actions := by
  induction actions generalizing s with
  | nil => exact trivial
  | cons action rest ih =>
      refine ⟨trivial, ?_⟩
      split
      next => exact trivial
      next s' _ => exact ih s'

/-- Invariant rule for all runs. -/
theorem run_holds {step : σ → α → Option σ} {I : σ → Prop}
    (preserved : ∀ s action s', I s → step s action = some s' → I s')
    {actions : List α} {s s' : σ} (init : I s)
    (run : runActions step s actions = some s') : I s' :=
  runMeets_holds (fun s action s' hI _ hstep => preserved s action s' hI hstep) init
    (runMeets_true step s actions) run

/-- Every step of a run relates the states around it. -/
def EveryStep (step : σ → α → Option σ) (R : σ → σ → Prop) : σ → List α → Prop
  | _, [] => True
  | s, action :: rest =>
      match step s action with
      | none => True
      | some s' => R s s' ∧ EveryStep step R s' rest

/-- Step rule for the runs that meet a condition. -/
theorem runMeets_everyStep {step : σ → α → Option σ} {condition : σ → α → Prop}
    {I : σ → Prop} {R : σ → σ → Prop}
    (preserved : ∀ s action s', I s → condition s action → step s action = some s' → I s')
    (related : ∀ s action s', I s → condition s action → step s action = some s' → R s s')
    {actions : List α} {s : σ} (init : I s) (meets : RunMeets step condition s actions) :
    EveryStep step R s actions := by
  induction actions generalizing s with
  | nil => exact trivial
  | cons action rest ih =>
      simp only [RunMeets] at meets
      simp only [EveryStep]
      cases hstep : step s action with
      | none => exact trivial
      | some s' =>
          simp only [hstep] at meets ⊢
          exact ⟨related s action s' init meets.1 hstep,
            ih (preserved s action s' init meets.1 hstep) meets.2⟩

/-- A step function without guards runs as a fold. -/
theorem runActions_total (f : σ → α → σ) (s : σ) (actions : List α) :
    runActions (fun s action => some (f s action)) s actions = some (actions.foldl f s) := by
  induction actions generalizing s with
  | nil => rfl
  | cons action rest ih => exact ih (f s action)

end ControlPlane.Lib

/-!
## Interleaved calls

Any number of calls, each with a local state of its own, over one shared state. A
schedule names the call whose next atomic operation happens and what the outside world
answers to it; every list of such names is an interleaving.
-/
namespace ControlPlane.Lib

structure Threads (κ ℓ σ : Type) where
  locals : κ → ℓ
  shared : σ

namespace Threads

variable {κ ℓ σ ι : Type} [DecidableEq κ]

/-- The next operation of a call, by its name, the answer from outside and both states. -/
def act (move : κ → ι → ℓ → σ → ℓ × σ) (t : Threads κ ℓ σ) (a : κ × ι) : Threads κ ℓ σ :=
  let next := move a.1 a.2 (t.locals a.1) t.shared
  ⟨Function.update t.locals a.1 next.1, next.2⟩

/-- One step of an interleaving. -/
def step (move : κ → ι → ℓ → σ → ℓ × σ) (t : Threads κ ℓ σ) (a : κ × ι) :
    Option (Threads κ ℓ σ) :=
  some (act move t a)

variable (move : κ → ι → ℓ → σ → ℓ × σ) (t : Threads κ ℓ σ) (k : κ) (i : ι)

@[simp] theorem act_shared :
    (act move t (k, i)).shared = (move k i (t.locals k) t.shared).2 := rfl

@[simp] theorem act_same :
    (act move t (k, i)).locals k = (move k i (t.locals k) t.shared).1 := by
  simp [act]

@[simp] theorem act_other {k' : κ} (h : k' ≠ k) :
    (act move t (k, i)).locals k' = t.locals k' := by
  simp [act, h]

/-- A sum over the calls changes by the part of the call that moves. -/
theorem sum_act [Fintype κ] (weight : κ → ℓ → Nat) :
    (∑ j, weight j ((act move t (k, i)).locals j)) + weight k (t.locals k)
      = (∑ j, weight j (t.locals j)) + weight k (move k i (t.locals k) t.shared).1 := by
  have others : ∑ j ∈ Finset.univ.erase k, weight j ((act move t (k, i)).locals j)
      = ∑ j ∈ Finset.univ.erase k, weight j (t.locals j) := by
    apply Finset.sum_congr rfl
    intro j member
    rw [act_other move t k i (Finset.ne_of_mem_erase member)]
  have before := Finset.add_sum_erase Finset.univ (fun j => weight j (t.locals j))
    (Finset.mem_univ k)
  have after := Finset.add_sum_erase Finset.univ
    (fun j => weight j ((act move t (k, i)).locals j)) (Finset.mem_univ k)
  rw [← before, ← after, others, act_same]
  omega

end Threads

end ControlPlane.Lib

/-!
## Unwinding

A system whose actions may be observed, and a set of secret actions. Two states that an
observer cannot tell apart stay so over every secret action of one of them and over every
other action of both; then two runs with the same other actions are observed alike. The
steps may be asked to meet a condition.
-/
namespace ControlPlane.Lib

variable {σ α β : Type}

/-- What is observed along a run. -/
def observations (step : σ → α → σ) (observe : σ → α → Option β) : σ → List α → List β
  | _, [] => []
  | s, a :: rest => (observe s a).toList ++ observations step observe (step s a) rest

/-- Every action of the run is taken in a state where the condition holds. -/
abbrev StepsMeet (step : σ → α → σ) (condition : σ → α → Prop) : σ → List α → Prop :=
  RunMeets (fun s a => some (step s a)) condition

/-- What is observed is good exactly if each observing step observes something good. -/
theorem observations_all_iff {step : σ → α → σ} {observe : σ → α → Option β} {good : β → Prop}
    (s : σ) (actions : List α) :
    (∀ b ∈ observations step observe s actions, good b) ↔
      StepsMeet step (fun s a => ∀ b, observe s a = some b → good b) s actions := by
  induction actions generalizing s with
  | nil => simp [observations, RunMeets]
  | cons a rest ih =>
      simp only [observations, List.mem_append, Option.mem_toList, or_imp, forall_and, ih,
        RunMeets]

/-- What makes secret actions invisible. -/
structure Unwinds (step : σ → α → σ) (observe : σ → α → Option β) (secret : α → Bool)
    (condition : σ → α → Prop) (alike : σ → σ → Prop) : Prop where
  symm : ∀ {s t}, alike s t → alike t s
  silent : ∀ {s a}, secret a = true → observe s a = none
  secretStep : ∀ {s t a}, alike s t → secret a = true → condition s a → alike (step s a) t
  openStep : ∀ {s t a}, alike s t → secret a = false → condition s a → condition t a →
    alike (step s a) (step t a)
  seen : ∀ {s t a}, alike s t → secret a = false → condition s a → condition t a →
    observe s a = observe t a

namespace Unwinds

variable {step : σ → α → σ} {observe : σ → α → Option β} {secret : α → Bool}
  {condition : σ → α → Prop} {alike : σ → σ → Prop}

/-- The secret actions in front of an open one can be left out. -/
theorem skip (u : Unwinds step observe secret condition alike) {s t : σ} {a : α}
    {rest actions : List α} (h : alike s t) (meets : StepsMeet step condition t actions)
    (front : actions.filter (fun a => !secret a) = a :: rest) :
    ∃ t' tail, alike s t' ∧ StepsMeet step condition t' (a :: tail) ∧
      tail.filter (fun a => !secret a) = rest ∧
      observations step observe t actions = observations step observe t' (a :: tail) := by
  induction actions generalizing t with
  | nil => cases front
  | cons first actions ih =>
      by_cases hfirst : secret first = true
      · have hstep : alike s (step t first) := u.symm (u.secretStep (u.symm h) hfirst meets.1)
        rw [List.filter_cons_of_neg (by simp [hfirst])] at front
        obtain ⟨t', tail, halike, htail, hrest, hobs⟩ := ih hstep meets.2 front
        refine ⟨t', tail, halike, htail, hrest, ?_⟩
        rw [observations, u.silent hfirst, hobs]
        rfl
      · rw [List.filter_cons_of_pos (by simpa using hfirst)] at front
        obtain ⟨rfl, hrest⟩ := List.cons.inj front
        exact ⟨t, actions, h, meets, hrest, rfl⟩

theorem observations_silent (u : Unwinds step observe secret condition alike) {actions : List α}
    (allSecret : actions.filter (fun a => !secret a) = []) (s : σ) :
    observations step observe s actions = [] := by
  induction actions generalizing s with
  | nil => rfl
  | cons first actions ih =>
      have hall := List.filter_eq_nil_iff.mp allSecret
      have hfirst : secret first = true := by
        simpa using hall first List.mem_cons_self
      rw [observations, u.silent hfirst,
        ih (List.filter_eq_nil_iff.mpr fun a ha => hall a (List.mem_cons_of_mem first ha))]
      rfl

/-- Runs with the same open actions are observed alike. -/
theorem observations_eq (u : Unwinds step observe secret condition alike) {s t : σ}
    {actions actions' : List α} (h : alike s t) (meets : StepsMeet step condition s actions)
    (meets' : StepsMeet step condition t actions')
    (same : actions.filter (fun a => !secret a) = actions'.filter (fun a => !secret a)) :
    observations step observe s actions = observations step observe t actions' := by
  induction actions generalizing s t actions' with
  | nil => exact (u.observations_silent same.symm t).symm
  | cons first actions ih =>
      by_cases hfirst : secret first = true
      · rw [List.filter_cons_of_neg (by simp [hfirst])] at same
        have htail := ih (u.secretStep h hfirst meets.1) meets.2 meets' same
        rw [observations, u.silent hfirst, htail]
        rfl
      · have hopen : secret first = false := by simpa using hfirst
        rw [List.filter_cons_of_pos (by simpa using hfirst)] at same
        obtain ⟨t', tail, halike, htail, hrest, hobs⟩ := u.skip h meets' same.symm
        rw [hobs, observations, observations, u.seen halike hopen meets.1 htail.1,
          ih (u.openStep halike hopen meets.1 htail.1) meets.2 htail.2 hrest.symm]

end Unwinds

end ControlPlane.Lib

/-!
## Leaky means

A leaky mean keeps a share `decay` of its old value and takes the rest from a new one.
A value that some steps of a run shrink by the decay, and that no step raises, shrinks by
its power.
-/
namespace ControlPlane.Lib

variable {K : Type} [Field K] [LinearOrder K] [IsStrictOrderedRing K]

def leaky (decay old new : K) : K := decay * old + (1 - decay) * new

/-- Rates are values between zero and one. -/
def IsRate (r : K) : Prop := 0 ≤ r ∧ r ≤ 1

instance [DecidableLE K] (r : K) : Decidable (IsRate r) :=
  inferInstanceAs (Decidable (0 ≤ r ∧ r ≤ 1))

theorem isRate_zero : IsRate (0 : K) := ⟨le_rfl, zero_le_one⟩

/-- The leaky mean of two rates is a rate. -/
theorem isRate_leaky {decay old new : K} (hdecay : IsRate decay) (hold : IsRate old)
    (hnew : IsRate new) : IsRate (leaky decay old new) := by
  have hkept : decay * old ≤ decay * 1 := mul_le_mul_of_nonneg_left hold.2 hdecay.1
  have htaken : (1 - decay) * new ≤ (1 - decay) * 1 :=
    mul_le_mul_of_nonneg_left hnew.2 (sub_nonneg.mpr hdecay.2)
  have hkept_nonneg : 0 ≤ decay * old := mul_nonneg hdecay.1 hold.1
  have htaken_nonneg : 0 ≤ (1 - decay) * new :=
    mul_nonneg (sub_nonneg.mpr hdecay.2) hnew.1
  unfold leaky
  constructor <;> linarith

/-- A nonnegative mean stays so under nonnegative values. -/
theorem leaky_nonneg {decay old new : K} (hdecay : IsRate decay) (hold : 0 ≤ old)
    (hnew : 0 ≤ new) : 0 ≤ leaky decay old new :=
  add_nonneg (mul_nonneg hdecay.1 hold) (mul_nonneg (sub_nonneg.mpr hdecay.2) hnew)

/-- A nonnegative value is shrunk by staying the same only if it is zero or nothing
decays. -/
theorem le_decay_mul_iff {decay r : K} (hdecay : IsRate decay) (hr : 0 ≤ r) :
    r ≤ decay * r ↔ r = 0 ∨ decay = 1 := by
  constructor
  · intro h
    by_contra hne
    rw [not_or] at hne
    have hpos : 0 < r := lt_of_le_of_ne hr (Ne.symm hne.1)
    have hless : decay < 1 := lt_of_le_of_ne hdecay.2 hne.2
    have hmul : decay * r < 1 * r := mul_lt_mul_of_pos_right hless hpos
    rw [one_mul] at hmul
    exact absurd h (not_le.mpr hmul)
  · rintro (rfl | rfl)
    · rw [mul_zero]
    · rw [one_mul]

omit [LinearOrder K] [IsStrictOrderedRing K] in
/-- A mean that takes the same value again and again comes closer to it by the decay. -/
theorem foldl_leaky_const {decay start x : K} {values : List K} (h : ∀ v ∈ values, v = x) :
    values.foldl (leaky decay) start = x + decay ^ values.length * (start - x) := by
  induction values generalizing start with
  | nil => simp
  | cons v values ih =>
      have hv : v = x := h v List.mem_cons_self
      rw [List.foldl_cons, ih fun w hw => h w (List.mem_cons_of_mem v hw), hv, leaky,
        List.length_cons]
      ring

variable {σ α : Type}

/-- Decay rule: marked steps of a run shrink a value by the decay and no step raises it. -/
theorem runMeets_decay (size : σ → K) {step : σ → α → Option σ} {condition : σ → α → Prop}
    {I : σ → Prop} {decay : K} {marked : α → Bool} (nonneg : 0 ≤ decay)
    (preserved : ∀ s action s', I s → condition s action → step s action = some s' → I s')
    {actions : List α}
    (shrinks : ∀ s, ∀ action ∈ actions, ∀ s', I s → condition s action →
      step s action = some s' → marked action = true → size s' ≤ decay * size s)
    (kept : ∀ s, ∀ action ∈ actions, ∀ s', I s → condition s action →
      step s action = some s' → marked action = false → size s' ≤ size s)
    {s s' : σ} (init : I s) (meets : RunMeets step condition s actions)
    (run : runActions step s actions = some s') :
    size s' ≤ decay ^ actions.countP marked * size s := by
  induction actions generalizing s with
  | nil =>
      simp only [runActions, Option.some.injEq] at run
      simp [run]
  | cons action rest ih =>
      simp only [runActions] at run
      simp only [RunMeets] at meets
      cases hstep : step s action with
      | none => simp [hstep] at run
      | some s₁ =>
          simp only [hstep] at run meets
          have hrest := ih (fun s a ha => shrinks s a (List.mem_cons_of_mem _ ha))
            (fun s a ha => kept s a (List.mem_cons_of_mem _ ha))
            (preserved s action s₁ init meets.1 hstep) meets.2 run
          have hpow : 0 ≤ decay ^ rest.countP marked := pow_nonneg nonneg _
          cases hmarked : marked action with
          | true =>
              have hstep_le : size s₁ ≤ decay * size s :=
                shrinks s action List.mem_cons_self s₁ init meets.1 hstep hmarked
              rw [List.countP_cons_of_pos hmarked, pow_succ, mul_assoc]
              exact hrest.trans (mul_le_mul_of_nonneg_left hstep_le hpow)
          | false =>
              have hstep_le : size s₁ ≤ size s :=
                kept s action List.mem_cons_self s₁ init meets.1 hstep hmarked
              rw [List.countP_cons_of_neg (by simp [hmarked])]
              exact hrest.trans (mul_le_mul_of_nonneg_left hstep_le hpow)

end ControlPlane.Lib
