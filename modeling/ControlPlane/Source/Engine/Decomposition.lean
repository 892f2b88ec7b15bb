import ControlPlane.Lib.Loops
import ControlPlane.Source.Consensus.CommonGround
import ControlPlane.Source.Constraints.Eval
import ControlPlane.Source.Engine.Topology

/-!
# Decomposition into slots

Embeds `crates/h2ai-orchestrator/src/decomposition.rs`: the reading of the model's slots,
the coverage check with its fallback slots, and the cut to the slot limit by position or by
similarity; and `DefaultDecomposer::decompose` of `task_runner.rs`. The prompts of the three
calls are left out, what the calls answer is given.
-/
namespace ControlPlane.Source.Engine.Decomposition

open Lib Constraints
open Consensus (EmbeddingModel cosineSimilarity)

inductive CotStyle where
  | none
  | stepByStep
  | devilsAdvocate
  | firstPrinciples
  | backwardChaining
  deriving DecidableEq, Repr

structure ExplorerSlotConfig where
  roleFrame : String
  cotStyle : CotStyle
  focusMandate : String
  rejectionCriteria : String
  constraintDomains : List String
  searchEnabled : Bool
  agentRole : AgentRole
  deriving DecidableEq, Repr

inductive DecompositionError where
  | noJsonArray
  | parseError (message : String)
  | emptyResult
  deriving DecidableEq, Repr

/-! ## Reading the answer -/

/-- A slot as `serde_json` reads it; texts are coerced from arrays. -/
structure RawSlot where
  roleFrame : String
  cotStyle : String
  focusMandate : Option String
  rejectionCriteria : Option String
  constraintDomains : List String
  searchEnabled : Bool
  agentRole : AgentRole
  deriving DecidableEq, Repr

/-- What `serde_json` decides about a text: how long the JSON value at its start is, and
the slots that all of it stands for. -/
structure SlotJson where
  valueLength : List Char → Option Nat
  fromStr : List Char → Except String (List RawSlot)

/-- `raw_to_cot`. -/
def rawToCot (s : String) : CotStyle :=
  if s = "step_by_step" then .stepByStep
  else if s = "devil_s_advocate" ∨ s = "devils_advocate" then .devilsAdvocate
  else if s = "first_principles" then .firstPrinciples
  else if s = "backward_chaining" then .backwardChaining
  else .none

/-- `strip_thinking_tags`. -/
def stripThinkingTags (s : List Char) : List Char :=
  match Text.splitAtText "<think>".toList s, Text.splitAtLastText "</think>".toList s with
  | some (beforeOpen, _), some (beforeClose, after) =>
      if beforeOpen.length < beforeClose.length then after else s
  | _, _ => s

def slotOfRaw (raw : RawSlot) : ExplorerSlotConfig where
  roleFrame := raw.roleFrame
  cotStyle := rawToCot raw.cotStyle
  focusMandate := raw.focusMandate.getD ""
  rejectionCriteria := raw.rejectionCriteria.getD ""
  constraintDomains := raw.constraintDomains
  searchEnabled := raw.searchEnabled
  agentRole := raw.agentRole

/-- `parse_decomposition_response`. -/
def parseDecompositionResponse (json : SlotJson) (response : String) :
    Except DecompositionError (List ExplorerSlotConfig) :=
  match (stripThinkingTags response.toList).dropWhile fun c => decide (c ≠ '[') with
  | [] => .error .noJsonArray
  | tail =>
      match json.valueLength tail with
      | none => .error .noJsonArray
      | some len =>
          match json.fromStr (tail.take len) with
          | .error e => .error (.parseError e)
          | .ok raw =>
              let slots := (raw.filter fun s =>
                !(Text.trim s.roleFrame.toList).isEmpty).map slotOfRaw
              if slots.isEmpty then .error .emptyResult else .ok slots

/-! ## Pruning by similarity -/

section Prune

variable {K : Type} [Field K] [LinearOrder K]

/-- The mean similarity of a slot to its peers. -/
def meanSimilarity (sqrt : K → K) (embeddings : List (List K)) (i : Nat) : K :=
  let peers := embeddings.eraseIdx i
  let sum := (peers.map fun e =>
    max (cosineSimilarity sqrt (embeddings.getD i []) e) 0).sum
  if 1 < embeddings.length then sum / ((embeddings.length - 1 : Nat) : K) else 0

/-- The index of the largest value, of the last one among equals (`max_by`). -/
def lastMaxIdx : Nat → List K → Option (Nat × K) → Option (Nat × K)
  | _, [], best => best
  | i, v :: rest, none => lastMaxIdx (i + 1) rest (some (i, v))
  | i, v :: rest, some best =>
      lastMaxIdx (i + 1) rest (if v < best.2 then some best else some (i, v))

/-- The slot that is least independent of the others. -/
def dropIdx (sqrt : K → K) (model : EmbeddingModel K) (slots : List ExplorerSlotConfig) : Nat :=
  let embeddings := slots.map fun s => model.embed s.roleFrame
  let meanSim := (List.range slots.length).map (meanSimilarity sqrt embeddings)
  match lastMaxIdx 0 meanSim none with
  | some best => best.1
  | none => slots.length - 1

/-- `prune_by_orthogonality`. -/
def pruneByOrthogonality (sqrt : K → K) (slots : List ExplorerSlotConfig) (nMax : Nat)
    (model : EmbeddingModel K) : List ExplorerSlotConfig :=
  cutDown (dropIdx sqrt model) nMax slots.length slots

omit [Field K] in
theorem lastMaxIdx_lt {values : List K} {i n : Nat} {best found : Option (Nat × K)}
    (hbest : ∀ b, best = some b → b.1 < n) (hn : i + values.length ≤ n)
    (h : lastMaxIdx i values best = found) : ∀ b, found = some b → b.1 < n := by
  induction values generalizing i best with
  | nil =>
      rw [lastMaxIdx] at h
      exact h ▸ hbest
  | cons v rest ih =>
      rw [List.length_cons] at hn
      cases best with
      | none =>
          refine ih ?_ (by omega) h
          intro b hb
          cases hb
          exact (by omega : i < n)
      | some b₀ =>
          refine ih ?_ (by omega) h
          intro b hb
          split at hb
          · exact hbest b hb
          · cases hb
            exact (by omega : i < n)

/-- The slot that is dropped is one of the slots. -/
theorem dropIdx_lt (sqrt : K → K) (model : EmbeddingModel K) {slots : List ExplorerSlotConfig}
    (h : 0 < slots.length) : dropIdx sqrt model slots < slots.length := by
  simp only [dropIdx]
  split
  · next best hfound =>
    refine lastMaxIdx_lt ?_ ?_ hfound best rfl
    · intro b hb
      cases hb
    · simp
  · omega

end Prune

/-! ## Fallback slots -/

/-- The slot of a preset: its persona and what it has to ensure. -/
def presetSlot (roleFrame : String) (cotStyle : CotStyle) (ensure rejectionCriteria : String)
    (domain : String) (constraintIds : List String) : ExplorerSlotConfig where
  roleFrame := roleFrame
  cotStyle := cotStyle
  focusMandate := "You are responsible for: " ++ ", ".intercalate constraintIds ++ ". Ensure the " ++
    "proposal " ++ ensure
  rejectionCriteria := rejectionCriteria
  constraintDomains := [domain]
  searchEnabled := false
  agentRole := .executor

/-- `domain_to_slot`. -/
def domainToSlot (domain : String) (constraintIds : List String) : ExplorerSlotConfig :=
  if domain ∈ ["security", "auth", "authentication", "authz"] then
    presetSlot
      ("You are a security engineer. Your first concern is what an attacker can do with this " ++
        "interface and where trust boundaries are violated.")
      .devilsAdvocate "satisfies all security and authentication requirements."
      "The single most likely way an attacker exploits or bypasses this proposal."
      domain constraintIds
  else if domain ∈ ["performance", "latency", "throughput", "scalability"] then
    presetSlot
      ("You are a systems performance engineer. Your first concern is latency under load and " ++
        "resource exhaustion under concurrency.")
      .firstPrinciples "meets all performance and throughput requirements."
      ("The single most likely way this proposal degrades under high concurrency or a load " ++
        "spike.")
      domain constraintIds
  else if domain ∈ ["correctness", "accuracy", "validation", "integrity"] then
    presetSlot
      ("You are a formal verification engineer. Your first concern is edge cases, state " ++
        "machine violations, and invariant breaks.")
      .backwardChaining "is logically correct and handles all edge cases."
      ("The single invariant violation or edge case that produces incorrect output under " ++
        "valid inputs.")
      domain constraintIds
  else if domain ∈ ["consistency", "distributed", "concurrency", "synchronization"] then
    presetSlot
      ("You are a distributed systems architect. Your first concern is split-brain scenarios, " ++
        "partial failures, and ordering violations.")
      .firstPrinciples "handles distributed consistency requirements."
      ("The single consistency violation under concurrent operations or partial network " ++
        "failure.")
      domain constraintIds
  else if domain ∈ ["compliance", "regulatory", "legal", "audit"] then
    presetSlot
      ("You are a regulatory compliance analyst. Your first concern is what regulators flag " ++
        "and what must be documented for audit.")
      .stepByStep "satisfies all compliance and regulatory requirements."
      "The single compliance gap that would fail a regulatory audit."
      domain constraintIds
  else
    presetSlot
      ("You are a senior software architect. Your first concern is what breaks under load and " ++
        "what is impossible to change later.")
      .stepByStep "addresses all specified constraints."
      "The single architectural decision that creates irreversible technical debt."
      domain constraintIds

/-- The coverage check: the mandate or the role frame of a slot mentions the domain. -/
def mentions (x : Externals) (s : ExplorerSlotConfig) (domain : String) : Bool :=
  Text.containsText (x.toLowercase s.focusMandate).toList (x.toLowercase domain).toList ||
    Text.containsText (x.toLowercase s.roleFrame).toList (x.toLowercase domain).toList

/-- The domains of the corpus, each once, sorted. -/
def constraintDomains (corpus : List ConstraintDoc) : List String :=
  (corpus.flatMap (·.domains)).eraseDups.insertionSort fun a b => a ≤ b

def idsOfDomain (corpus : List ConstraintDoc) (domain : String) : List String :=
  (corpus.filter fun doc => decide (domain ∈ doc.domains)).map (·.id)

/-- A domain that no slot mentions gets its fallback slot. -/
def ensureCovered (x : Externals) (corpus : List ConstraintDoc)
    (slots : List ExplorerSlotConfig) (domain : String) : List ExplorerSlotConfig :=
  if slots.any fun s => mentions x s domain then slots
  else
    let domainIds := idsOfDomain corpus domain
    if domainIds.isEmpty then slots else slots ++ [domainToSlot domain domainIds]

def withFallbacks (x : Externals) (corpus : List ConstraintDoc)
    (slots : List ExplorerSlotConfig) : List ExplorerSlotConfig :=
  (constraintDomains corpus).foldl (ensureCovered x corpus) slots

/-! ## The agent -/

/-- What a decomposition is given. The three calls of the language model answer with a text
or with the text of an adapter error. -/
structure DecompositionInput (K : Type) where
  externals : Externals
  json : SlotJson
  sqrt : K → K
  embeddingModel : Option (EmbeddingModel K)
  corpus : List ConstraintDoc
  nMax : Nat
  analysis : Except String String
  roles : Except String String
  jsonOutput : Except String String

variable {K : Type} [Field K] [LinearOrder K]

/-- `call_step`. -/
def callStep (answer : Except String String) : Except DecompositionError String :=
  answer.mapError .parseError

/-- The slots that the model answered. -/
def answeredSlots (input : DecompositionInput K) :
    Except DecompositionError (List ExplorerSlotConfig) := do
  let _ ← callStep input.analysis
  let _ ← callStep input.roles
  let jsonOutput ← callStep input.jsonOutput
  parseDecompositionResponse input.json jsonOutput

/-- The cut to the limit. -/
def cutSlots (sqrt : K → K) (embeddingModel : Option (EmbeddingModel K)) (limit : Nat)
    (slots : List ExplorerSlotConfig) : List ExplorerSlotConfig :=
  match embeddingModel with
  | some model => pruneByOrthogonality sqrt slots limit model
  | none => slots.take limit

/-- `run_decomposition_agent`. -/
def runDecompositionAgent (input : DecompositionInput K) :
    Except DecompositionError (List ExplorerSlotConfig) := do
  let slots ← answeredSlots input
  pure (cutSlots input.sqrt input.embeddingModel (max input.nMax 1)
    (withFallbacks input.externals input.corpus slots))

/-- `DefaultDecomposer::decompose`. -/
def decompose (input : DecompositionInput K) (extraSlots : List ExplorerSlotConfig) :
    Except DecompositionError (List ExplorerSlotConfig) := do
  let slots ← runDecompositionAgent input
  if extraSlots.isEmpty then pure slots
  else pure (cutSlots input.sqrt input.embeddingModel (max input.nMax 1) (slots ++ extraSlots))

end ControlPlane.Source.Engine.Decomposition
