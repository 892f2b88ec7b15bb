import ControlPlane.Source.MapeK.RepairContext
import ControlPlane.Source.Verification.Corpus

/-!
# The loop of one explorer

Embeds `TaoLoop::run` of `crates/h2ai-orchestrator/src/tao_loop.rs`: think, act,
observe, for at most `max_turns` turns. The adapter is a record of its answers, by
turn, so the prompts are left out; generation passes no output schema. Next to the
result stand the costs of the calls that came back with a response, in order.
-/
namespace ControlPlane.Source.Engine

open Constraints Verification MapeK

structure TaoConfig where
  maxTurns : Nat
  verifyPattern : Option String
  repetitionThreshold : ℚ
  retryOnTimeout : Bool
  deriving DecidableEq, Repr

structure ComputeResponse where
  output : String
  tokenCost : Nat
  deriving DecidableEq, Repr

/-- What became of a call of the adapter. -/
inductive CallAnswer where
  | ok (response : ComputeResponse)
  | error (message : String)
  | timeout
  deriving DecidableEq, Repr

/-- The answers to one explorer: the call of each turn, and the call that is made
again when the first one has timed out. -/
structure ExplorerAdapter where
  answer : Nat → CallAnswer
  retryAnswer : CallAnswer

def CallAnswer.response : CallAnswer → Except EngineError ComputeResponse
  | .ok response => .ok response
  | .error message => .error (.adapter message)
  | .timeout => .error (.adapter "TAO timeout")

/-- The response of a turn. -/
def turnResponse (config : TaoConfig) (adapter : ExplorerAdapter) (turn : Nat) :
    Except EngineError ComputeResponse :=
  match adapter.answer turn with
  | .timeout =>
      if turn == 1 && config.retryOnTimeout then adapter.retryAnswer.response
      else .error (.adapter "TAO timeout")
  | answer => answer.response

/-- `TaoProposal`, as far as generation reads it. -/
structure TaoProposal where
  rawOutput : String
  tokenCost : Nat
  taoTurns : Nat
  deriving DecidableEq, Repr

/-- The result of an explorer, and the cost of each call that came back. -/
abbrev TaoRun := Except EngineError TaoProposal × List Nat

def repetitionError (config : TaoConfig) (turn : Nat) (sim : ℚ) : EngineError :=
  .adapter ("TAO repetition detected at turn " ++ toString turn ++ ": similarity " ++
    fixedText 2 sim ++ " >= threshold " ++ fixedText 2 config.repetitionThreshold)

/-- The turns from `turn` on; `lastOutput` is the output of the turn before. -/
def taoTurns (x : Externals) (config : TaoConfig) (patternPasses : String → Bool)
    (adapter : ExplorerAdapter) : Nat → Nat → Option String → TaoRun
  | 0, _, _ => (.error (.adapter "TAO max_turns must be >= 1"), [])
  | remaining + 1, turn, lastOutput =>
      match turnResponse config adapter turn with
      | .error e => (.error e, [])
      | .ok resp =>
          if patternPasses resp.output || remaining == 0 then
            (.ok ⟨resp.output, resp.tokenCost, turn⟩, [resp.tokenCost])
          else
            let repeats := lastOutput.filter fun prev =>
              decide (config.repetitionThreshold ≤ similarity x prev resp.output)
            match repeats with
            | some prev =>
                (.error (repetitionError config turn (similarity x prev resp.output)),
                  [resp.tokenCost])
            | none =>
                let rest := taoTurns x config patternPasses adapter remaining (turn + 1)
                  (some resp.output)
                (rest.1, resp.tokenCost :: rest.2)

/-- `TaoLoop::run`. -/
def taoRun (x : Externals) (config : TaoConfig) (bypassTao : Bool) (adapter : ExplorerAdapter) :
    TaoRun :=
  if bypassTao then
    match turnResponse config adapter 1 with
    | .error e => (.error e, [])
    | .ok resp => (.ok ⟨resp.output, resp.tokenCost, 1⟩, [resp.tokenCost])
  else if config.maxTurns = 0 then (.error (.adapter "TAO max_turns must be >= 1"), [])
  else
    match config.verifyPattern with
    | none => taoTurns x config (fun _ => true) adapter config.maxTurns 1 none
    | some pattern =>
        match x.regexNew pattern with
        -- the library's own message behind the colon is left out
        | none => (.error (.parse "invalid TAO verify_pattern: "), [])
        | some regex => taoTurns x config regex.isMatch adapter config.maxTurns 1 none

/-! ## What a proposal costs -/

/-- A proposal reports the cost of its last call. -/
theorem taoTurns_cost {x : Externals} {config : TaoConfig} {patternPasses : String → Bool}
    {adapter : ExplorerAdapter} {remaining turn : Nat} {lastOutput : Option String}
    {proposal : TaoProposal}
    (h : (taoTurns x config patternPasses adapter remaining turn lastOutput).1 = .ok proposal) :
    (taoTurns x config patternPasses adapter remaining turn lastOutput).2.getLast? =
      some proposal.tokenCost := by
  induction remaining generalizing turn lastOutput with
  | zero => cases h
  | succ remaining ih =>
      unfold taoTurns at h ⊢
      cases hresp : turnResponse config adapter turn with
      | error e =>
          rw [hresp] at h
          cases h
      | ok resp =>
          rw [hresp] at h
          dsimp only at h ⊢
          split at h
          · rename_i hpassed
            rw [if_pos hpassed]
            cases h
            rfl
          · rename_i hfailed
            rw [if_neg hfailed]
            split at h
            · cases h
            · have hlast := ih h
              dsimp only
              rw [List.getLast?_cons, hlast]
              rfl

theorem taoRun_cost {x : Externals} {config : TaoConfig} {bypassTao : Bool}
    {adapter : ExplorerAdapter} {proposal : TaoProposal}
    (h : (taoRun x config bypassTao adapter).1 = .ok proposal) :
    (taoRun x config bypassTao adapter).2.getLast? = some proposal.tokenCost := by
  unfold taoRun at h ⊢
  cases bypassTao with
  | true =>
      cases hresp : turnResponse config adapter 1 with
      | error e =>
          rw [hresp] at h
          cases h
      | ok resp =>
          rw [hresp] at h
          cases h
          rfl
  | false =>
      simp only [Bool.false_eq_true, ↓reduceIte] at h ⊢
      split at h
      · cases h
      · rename_i hturns
        rw [if_neg hturns]
        split at h
        · exact taoTurns_cost h
        · split at h
          · cases h
          · exact taoTurns_cost h

end ControlPlane.Source.Engine
