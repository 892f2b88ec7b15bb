import ControlPlane.Lib.Updates
import ControlPlane.Source.Text
import Mathlib.Algebra.Order.Field.Rat
import Mathlib.Data.List.MinMax

/-!
# The OPRO trigger

Embeds `crates/h2ai-api/src/opro.rs` for the triggers of one adapter and prompt key that
`post_run` of `task_pipeline.rs` spawns. An operation of a call is one request to the
store or the request to the model, together with what needs no await behind it; every
request may fail, and an error ends the call. Counters are `u32` and wrap around. The
text sent to the model is left out: its answer is arbitrary.
-/
namespace ControlPlane.Source.Tasks

open Lib

structure OproConfig where
  enabled : Bool
  triggerJEffThreshold : ℚ
  minTasksBeforeTrigger : Nat
  suppressNTasks : Nat
  graduationTasks : Nat
  promotionMargin : ℚ
  emaWindow : Nat
  deriving DecidableEq, Repr

inductive PromptVariantSource where
  | seed
  | opro
  deriving DecidableEq, Repr

structure PromptVariant where
  variantId : String
  adapterName : String
  promptKey : String
  text : String
  source : PromptVariantSource
  createdAt : Nat
  score : Option ℚ
  deriving DecidableEq, Repr

structure PromptBanditArm where
  variantId : String
  alpha : ℚ
  beta : ℚ
  deriving DecidableEq, Repr

/-- A prompt key without arms is one with the empty list (`or_default`). -/
structure AdapterOproState where
  adapterName : String
  jEffEma : ℚ
  nTasksTotal : Nat
  nTasksSinceLastOpro : Nat
  lastOproStartedAt : Option Nat
  suppressUntilNTasks : Nat
  banditArms : String → List PromptBanditArm

/-! ## Pure helpers -/

/-- `compute_ema`. -/
def computeEma (oldEma newValue : ℚ) (window : Nat) : ℚ :=
  let alpha := 2 / ((window : ℚ) + 1)
  alpha * newValue + (1 - alpha) * oldEma

section Templates

variable (isWordChar : Char → Bool)

/-- A name with a closing brace behind it. -/
def closedName (text : List Char) : Option String :=
  let name := text.takeWhile isWordChar
  match text.dropWhile isWordChar with
  | '\x7d' :: _ => if name.isEmpty then none else some (String.ofList name)
  | _ => none

/-- `extract_template_variables`. A brace is no word character, so no match starts inside
another. -/
def extractTemplateVariables : List Char → List String
  | [] => []
  | c :: rest =>
      if c = '\x7b' then (closedName isWordChar rest).toList ++ extractTemplateVariables rest
      else extractTemplateVariables rest

/-- `validate_opro_response`. -/
def validateOproResponse (original candidate : String) : Except (List String) Unit :=
  let required := extractTemplateVariables isWordChar original.toList
  let present := extractTemplateVariables isWordChar candidate.toList
  let missing := required.filter fun v => !present.contains v
  if missing.isEmpty then .ok () else .error missing

end Templates

/-- `should_trigger_opro`. -/
def shouldTriggerOpro (jEffEma : ℚ) (nTasksTotal suppressUntilNTasks : Nat) (cfg : OproConfig) :
    Bool :=
  cfg.enabled && decide (jEffEma < cfg.triggerJEffThreshold) &&
    decide (nTasksTotal ≥ cfg.minTasksBeforeTrigger) && decide (nTasksTotal ≥ suppressUntilNTasks)

def PromptBanditArm.mean (arm : PromptBanditArm) : ℚ := arm.alpha / (arm.alpha + arm.beta)

/-- `thompson_sample`: `max_by` returns the last of several maxima. -/
def thompsonSample (arms : List PromptBanditArm) : Option String :=
  (arms.reverse.argmax PromptBanditArm.mean).map (·.variantId)

/-- `check_graduation`. -/
def checkGraduation (variantId : String) (arms : List PromptBanditArm) (nTasksTotal : Nat)
    (cfg : OproConfig) : Bool :=
  if nTasksTotal < cfg.graduationTasks then false
  else
    match arms.find? (·.variantId == variantId), arms.find? (·.variantId == "seed") with
    | some candidate, some seed => decide (candidate.mean > seed.mean + cfg.promotionMargin)
    | _, _ => false

/-! ## The store -/

/-- `OproStore`. A state is put under the adapter it names. -/
structure OproKv where
  states : String → Option AdapterOproState
  activePtrs : String → String → Option String
  variants : String → String → String → Option PromptVariant
  filed : ∀ name state, states name = some state → state.adapterName = name

def OproKv.putState (kv : OproKv) (state : AdapterOproState) : OproKv where
  states := Function.update kv.states state.adapterName (some state)
  activePtrs := kv.activePtrs
  variants := kv.variants
  filed := by
    intro name held h
    by_cases hname : name = state.adapterName
    · subst hname
      rw [Function.update_self, Option.some.injEq] at h
      exact h ▸ rfl
    · rw [Function.update_of_ne hname] at h
      exact kv.filed name held h

def OproKv.putVariant (kv : OproKv) (variant : PromptVariant) : OproKv :=
  { kv with
    variants := fun adapterName promptKey variantId =>
      if adapterName = variant.adapterName ∧ promptKey = variant.promptKey ∧
        variantId = variant.variantId then some variant
      else kv.variants adapterName promptKey variantId }

def OproKv.setActivePtr (kv : OproKv) (adapterName promptKey variantId : String) : OproKv :=
  { kv with
    activePtrs := fun a p =>
      if a = adapterName ∧ p = promptKey then some variantId else kv.activePtrs a p }

/-! ## Calls -/

/-- What all calls of one adapter and prompt key have in common. -/
structure OproSetup where
  adapterName : String
  promptKey : String
  cfg : OproConfig
  isWordChar : Char → Bool

/-- What the outside answers to an operation: whether the store serves the request, what
`adapter.execute` returns (nothing for an error), a fresh id and the time. -/
structure OproAnswer where
  answered : Bool
  output : Option String
  variantId : String
  now : Nat
  deriving DecidableEq, Repr

/-- Where a call is, with the state it carries on. -/
inductive OproPoint where
  | start
  | readPtr (state : AdapterOproState)
  | readVariant (state : AdapterOproState) (activeId : String)
  | execute (state : AdapterOproState) (currentPrompt : String)
  | putVariant (state : AdapterOproState) (variant : PromptVariant)
  | setPtr (state : AdapterOproState) (winnerId : String)
  | putState (state : AdapterOproState)
  | finished
  | failed

def OproPoint.carried : OproPoint → Option AdapterOproState
  | .readPtr state | .readVariant state _ | .execute state _ | .putVariant state _
  | .setPtr state _ | .putState state => some state
  | .start | .finished | .failed => none

def OproPoint.isFinished : OproPoint → Bool
  | .finished => true
  | _ => false

def OproPoint.isFailed : OproPoint → Bool
  | .failed => true
  | _ => false

section Calls

variable (setup : OproSetup)

/-- The state of an adapter that has none. -/
def initialOproState (jEff : ℚ) : AdapterOproState :=
  { adapterName := setup.adapterName
    jEffEma := jEff
    nTasksTotal := 0
    nTasksSinceLastOpro := 0
    lastOproStartedAt := none
    suppressUntilNTasks := 0
    banditArms := fun _ => [] }

/-- Step 2. -/
def countTask (jEff : ℚ) (state : AdapterOproState) : AdapterOproState :=
  { state with
    jEffEma := computeEma state.jEffEma jEff setup.cfg.emaWindow
    nTasksTotal := (state.nTasksTotal + 1) % 2 ^ 32
    nTasksSinceLastOpro := (state.nTasksSinceLastOpro + 1) % 2 ^ 32 }

def suppress (state : AdapterOproState) : AdapterOproState :=
  { state with
    suppressUntilNTasks := (state.nTasksTotal + setup.cfg.suppressNTasks) % 2 ^ 32 }

/-- Step 8: a weak uniform prior for the new variant. -/
def addArm (variantId : String) (state : AdapterOproState) : AdapterOproState :=
  { state with
    banditArms := Function.update state.banditArms setup.promptKey
      (state.banditArms setup.promptKey ++ [⟨variantId, 1, 1⟩]) }

/-- Step 8b: the variant to promote. -/
def graduated (state : AdapterOproState) : Option String :=
  let arms := state.banditArms setup.promptKey
  (thompsonSample arms).filter fun winnerId =>
    checkGraduation winnerId arms state.nTasksTotal setup.cfg

def closeRound (now : Nat) (state : AdapterOproState) : AdapterOproState :=
  suppress setup { state with lastOproStartedAt := some now, nTasksSinceLastOpro := 0 }

/-- The next operation of `run_opro_trigger`. -/
def oproOperation (jEff : ℚ) (answer : OproAnswer) (point : OproPoint) (kv : OproKv) :
    OproPoint × OproKv :=
  match point with
  | .start =>
      if answer.answered then
        let state := countTask setup jEff
          ((kv.states setup.adapterName).getD (initialOproState setup jEff))
        if shouldTriggerOpro state.jEffEma state.nTasksTotal state.suppressUntilNTasks setup.cfg
        then (.readPtr state, kv)
        else (.putState state, kv)
      else (.failed, kv)
  | .readPtr state =>
      if answer.answered then
        match kv.activePtrs setup.adapterName setup.promptKey with
        | some activeId => (.readVariant state activeId, kv)
        | none => (.execute state "", kv)
      else (.failed, kv)
  | .readVariant state activeId =>
      if answer.answered then
        let fromNats := (kv.variants setup.adapterName setup.promptKey activeId).map (·.text)
        (.execute state (fromNats.getD ""), kv)
      else (.failed, kv)
  | .execute state currentPrompt =>
      match answer.output with
      | none => (.failed, kv)
      | some output =>
          let candidateText := String.ofList (Text.trim output.toList)
          match validateOproResponse setup.isWordChar currentPrompt candidateText with
          | .error _ => (.putState (suppress setup state), kv)
          | .ok () =>
              (.putVariant state
                { variantId := answer.variantId
                  adapterName := setup.adapterName
                  promptKey := setup.promptKey
                  text := candidateText
                  source := .opro
                  createdAt := answer.now
                  score := none }, kv)
  | .putVariant state variant =>
      if answer.answered then
        let state := addArm setup variant.variantId state
        match graduated setup state with
        | some winnerId => (.setPtr state winnerId, kv.putVariant variant)
        | none => (.putState (closeRound setup answer.now state), kv.putVariant variant)
      else (.failed, kv)
  | .setPtr state winnerId =>
      if answer.answered then
        (.putState (closeRound setup answer.now state),
          kv.setActivePtr setup.adapterName setup.promptKey winnerId)
      else (.failed, kv)
  | .putState state => if answer.answered then (.finished, kv.putState state) else (.failed, kv)
  | .finished => (.finished, kv)
  | .failed => (.failed, kv)

variable {κ : Type} (rewards : κ → ℚ)

/-- The next operation of a call with its reward. -/
def oproMove (k : κ) (answer : OproAnswer) (point : OproPoint) (kv : OproKv) :
    OproPoint × OproKv :=
  oproOperation setup (rewards k) answer point kv

/-- All calls before their first operation. -/
def spawnedCalls (kv : OproKv) : Threads κ OproPoint OproKv := ⟨fun _ => .start, kv⟩

end Calls

end ControlPlane.Source.Tasks
