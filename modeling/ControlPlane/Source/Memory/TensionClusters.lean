import ControlPlane.Lib.Entries
import ControlPlane.Lib.Sequences
import ControlPlane.Lib.UnionFind
import ControlPlane.Source.Memory.InductionStore
import Mathlib.Data.List.Lex

/-!
# Clusters of tensions

Embeds `trigram_shingles`, `jaccard_shingles` and `cluster_by_similarity` of
`crates/h2ai-orchestrator/src/induction/mod.rs`, and `distill_tension_patterns` of `algorithmic.rs`
there. Similarities and thresholds are exact. The fuel of a search is the number of strings.
-/
namespace ControlPlane.Source.Memory

open Lib

/-! ## Shingles -/

/-- Three bytes. -/
abbrev Shingle := List Nat

/-- `as_bytes`. -/
def utf8Bytes (text : List Char) : List Nat := (text.flatMap String.utf8EncodeChar).map UInt8.toNat

/-- `windows(3)`. -/
def windows : List Nat → List Shingle
  | a :: b :: c :: rest => [a, b, c] :: windows (b :: c :: rest)
  | _ => []

/-- `Vec::dedup`. -/
def dropRepeats {α : Type} [DecidableEq α] : List α → List α
  | a :: b :: rest => if a = b then dropRepeats (b :: rest) else a :: dropRepeats (b :: rest)
  | short => short

def trigramShingles (text : List Char) : List Shingle :=
  dropRepeats (sorted (windows (utf8Bytes text)))

/-- `intersection`: two cursors over sorted lists. -/
def intersectionCount {α : Type} [LinearOrder α] : List α → List α → Nat
  | a :: as, b :: bs =>
      if a = b then intersectionCount as bs + 1
      else if a < b then intersectionCount as (b :: bs)
      else intersectionCount (a :: as) bs
  | _, _ => 0
termination_by as bs => as.length + bs.length

def jaccardShingles (a b : List Shingle) : ℚ :=
  if a.isEmpty && b.isEmpty then 0
  else
    let intersection := intersectionCount a b
    let union := a.length + b.length - intersection
    if union = 0 then 0 else (intersection : ℚ) / (union : ℚ)

/-! ## Clusters -/

section Clusters

variable (tables : CaseTables)

/-- The length gate. -/
def passesGate (lenI lenJ : Nat) : Bool :=
  if lenI = 0 ∨ lenJ = 0 then false
  else !decide (((min lenI lenJ : Nat) : ℚ) / ((max lenI lenJ : Nat) : ℚ) < 1 / 2)

/-- The pair is linked. -/
def clusterLink (strings : List String) (threshold : ℚ) (e : Nat × Nat) : Bool :=
  let normalized := strings.map fun s => normalizeForShingling tables s.toList
  let shingles := normalized.map trigramShingles
  passesGate (Text.utf8Len (normalized.getD e.1 [])) (Text.utf8Len (normalized.getD e.2 [])) &&
    decide (threshold ≤ jaccardShingles (shingles.getD e.1 []) (shingles.getD e.2 []))

/-- The pairs in the order of the two loops. -/
def loopPairs (n : Nat) : List (Nat × Nat) :=
  (List.range n).flatMap fun i => (List.range' (i + 1) (n - (i + 1))).map fun j => (i, j)

/-- `cluster_by_similarity`, with the parents it ends with. -/
def clusterRun (strings : List String) (threshold : ℚ) : Option (List Nat × List Nat) :=
  let n := strings.length
  match UnionFind.joinAll (clusterLink tables strings threshold) n (List.range n) (loopPairs n) with
  | none => none
  | some parent => UnionFind.findAll n parent (List.range n)

def clusterBySimilarity (strings : List String) (threshold : ℚ) : Option (List Nat) :=
  (clusterRun tables strings threshold).map Prod.snd

/-! ## Tension patterns -/

/-- The field of `TaskMetaState` that is read here. -/
structure TaskMetaState where
  tensions : List String
  deriving DecidableEq, Repr

structure TensionPattern where
  canonicalText : String
  frequency : Nat
  resolutionHint : Option String
  shingles : List Shingle
  deriving DecidableEq, Repr

def tensionClusterThreshold : ℚ := 6 / 10

def allTensions (metas : List TaskMetaState) : List String :=
  metas.flatMap TaskMetaState.tensions

/-- The comparison of `max_by` is `Greater`: a longer text, of texts of one length the smaller. -/
def comparesGreater (a b : String) : Bool :=
  let lenA := Text.utf8Len (normalizeForShingling tables a.toList)
  let lenB := Text.utf8Len (normalizeForShingling tables b.toList)
  decide (lenB < lenA) || (decide (lenA = lenB) && decide (a < b))

/-- `canonical`: `max_by` keeps the last of several highest members. -/
def canonicalOf : List String → String
  | [] => ""
  | first :: rest =>
      rest.foldl (fun best m => if comparesGreater tables best m then best else m) first

/-- The pattern of a cluster; the cast of its size is to a `u32`. -/
def patternOf (members : List String) : TensionPattern :=
  let canonical := canonicalOf tables members
  { canonicalText := canonical
    frequency := members.length % 2 ^ 32
    resolutionHint := none
    shingles := trigramShingles (normalizeForShingling tables canonical.toList) }

/-- `distill_tension_patterns`; a hash map is walked in any order. -/
def distillTensionPatterns (walk : Walk (Σ _ : Nat, List String)) (metas : List TaskMetaState) :
    Option (List TensionPattern) :=
  let all := allTensions metas
  if all.isEmpty then some []
  else
    match clusterBySimilarity tables all tensionClusterThreshold with
    | none => none
    | some labels =>
        let clusters :=
          upsertAll [] (fun members tension => members ++ [tension]) ∅ (labels.zip all)
        some ((walk.run clusters.entries).map fun e => patternOf tables e.2)

end Clusters

end ControlPlane.Source.Memory
