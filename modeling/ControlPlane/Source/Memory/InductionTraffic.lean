import ControlPlane.Lib.KeyValue
import ControlPlane.Lib.Runs
import ControlPlane.Source.Engine.Induction
import ControlPlane.Source.Memory.InductionStore

/-!
# Induction clients over one bucket

Embeds `sad_retrieve`, `cas_increment_in_bucket`, `run_retroactive` and `record_success`
of `crates/h2ai-orchestrator/src/induction/nats_scheduler.rs` as calls of any number of
clients that interleave between their requests to the KV bucket: each `get_entry` and
each `cas_update` is one operation. A bucket that is absent or does not decode is no
value.
-/
namespace ControlPlane.Source.Memory

open Lib Engine

abbrev MemoryBucket := Bucket String (List TriggeredPattern)

/-- The buckets as a lookup reads them. -/
def readBuckets (b : MemoryBucket) : PatternBuckets := fun key => (b.slots key).value

/-- `MAX_CAS_RETRIES`. -/
def maxCasRetries : Nat := 5

/-! ## Clients -/

/-- Where a call stands: reading the buckets of the first or of the second round, at the
head of the counts that are left (`key`, `hint_text`), or about to swap one in. -/
inductive Stage where
  | first (tags : List String) (found : List TriggeredPattern)
  | second (bridge tags : List String) (all : List TriggeredPattern)
  | read (todo : List (String × String)) (attempt : Nat)
  | swap (task : String × String) (todo : List (String × String)) (attempt : Nat)
      (patterns : List TriggeredPattern) (revision : Nat)
  | finished
  deriving DecidableEq, Repr

structure Client where
  stage : Stage
  returned : List TriggeredPattern
  /-- Some count was given up after `MAX_CAS_RETRIES`. -/
  exhausted : Bool
  deriving DecidableEq, Repr

def Client.go (c : Client) (stage : Stage) : Client := { c with stage := stage }

def countsSuccess : InductionCall → Bool
  | .runRetroactive _ => false
  | .recordSuccess _ _ => true

section Clients

variable (tables : CaseTables)

def startClient : InductionCall → Client
  | .runRetroactive ctx => ⟨.first ctx.taskClassTags [], [], false⟩
  | .recordSuccess hintTexts ctx => ⟨.read (successCounts tables ctx hintTexts) 0, [], false⟩

/-- The vocabulary bridge of what the first round found. -/
def bridgeOf (walk : Walk String) (ctx : InductionContext) (found : List TriggeredPattern) :
    List String :=
  walk.run ((found.flatMap (·.triggerTags)).filter fun t => !ctx.taskClassTags.contains t).dedup

/-- One operation of a call. -/
def clientMove (walk : Walk String) (call : InductionCall) (c : Client) (b : MemoryBucket) :
    Client × MemoryBucket :=
  let ctx := call.context
  match c.stage with
  | .first (tag :: tags) found =>
      let bucket := loadBucket (readBuckets b) (tagKey tables ctx.tenantId tag)
      (c.go (.first tags (found ++ bucket)), b)
  | .first [] found =>
      let bridge := bridgeOf walk ctx found
      (c.go (.second bridge bridge found), b)
  | .second bridge (tag :: tags) all =>
      let bucket := loadBucket (readBuckets b) (tagKey tables ctx.tenantId tag)
      (c.go (.second bridge tags (appendUnseen all bucket)), b)
  | .second bridge [] all =>
      let matched := rankAndFilter all { ctx with taskClassTags := ctx.taskClassTags ++ bridge }
      ({ c with stage := .read (attemptCounts tables ctx matched) 0, returned := matched }, b)
  | .read [] _ => (c.go .finished, b)
  | .read (task :: todo) attempt =>
      match (readBuckets b task.1).bind (countHint task.2 (countsSuccess call)) with
      | none => (c.go (.read todo 0), b)
      | some patterns => (c.go (.swap task todo attempt patterns (b.slots task.1).revision), b)
  | .swap task todo attempt patterns revision =>
      match b.update task.1 patterns revision with
      | some (b', _) => (c.go (.read todo 0), b')
      | none =>
          if attempt + 1 < maxCasRetries then (c.go (.read (task :: todo) (attempt + 1)), b)
          else ({ c with stage := .read todo 0, exhausted := true }, b)
  | .finished => (c, b)

variable {κ : Type} (walks : κ → Walk String) (calls : κ → InductionCall)

def startedClients (b : MemoryBucket) : Threads κ Client MemoryBucket :=
  ⟨fun k => startClient tables (calls k), b⟩

/-- The clients share nothing but the bucket. -/
def trafficMove (k : κ) (_ : Unit) (c : Client) (b : MemoryBucket) : Client × MemoryBucket :=
  clientMove tables (walks k) (calls k) c b

def trafficStep [DecidableEq κ] (t : Threads κ Client MemoryBucket) (a : κ × Unit) :
    Option (Threads κ Client MemoryBucket) :=
  Threads.step (trafficMove tables walks calls) t a

end Clients

/-! ## Patterns without their counters -/

def forgetCounts (p : TriggeredPattern) : TriggeredPattern :=
  { p with successCount := 0, attemptCount := 0 }

/-- The patterns of the buckets, without what changes. -/
def layoutOf (store : PatternBuckets) : PatternBuckets := fun key =>
  (store key).map (List.map forgetCounts)

@[simp] theorem forgetCounts_triggerTags (p : TriggeredPattern) :
    (forgetCounts p).triggerTags = p.triggerTags := rfl

@[simp] theorem forgetCounts_hintText (p : TriggeredPattern) :
    (forgetCounts p).hintText = p.hintText := rfl

@[simp] theorem hintIdentity_forgetCounts (p : TriggeredPattern) :
    hintIdentity (forgetCounts p) = hintIdentity p := rfl

theorem loadBucket_layoutOf (store : PatternBuckets) (key : String) :
    loadBucket (layoutOf store) key = (loadBucket store key).map forgetCounts := by
  unfold loadBucket layoutOf
  cases store key <;> rfl

theorem bridgeOf_forget (walk : Walk String) (ctx : InductionContext)
    (found : List TriggeredPattern) :
    bridgeOf walk ctx (found.map forgetCounts) = bridgeOf walk ctx found := by
  unfold bridgeOf
  rw [List.flatMap_map]
  rfl

theorem appendUnseen_forget (all found : List TriggeredPattern) :
    appendUnseen (all.map forgetCounts) (found.map forgetCounts)
      = (appendUnseen all found).map forgetCounts := by
  induction found generalizing all with
  | nil => rfl
  | cons p rest ih =>
    have seen : (∃ q ∈ all.map forgetCounts, hintIdentity q = hintIdentity (forgetCounts p)) ↔
        ∃ q ∈ all, hintIdentity q = hintIdentity p := by
      simp
    rw [List.map_cons, appendUnseen_cons, appendUnseen_cons]
    by_cases old : ∃ q ∈ all, hintIdentity q = hintIdentity p
    · rw [if_pos (seen.mpr old), if_pos old, ih]
    · rw [if_neg (fun h => old (seen.mp h)), if_neg old, ← ih, List.map_append]
      rfl

theorem appendUnseen_append (all found more : List TriggeredPattern) :
    appendUnseen all (found ++ more) = appendUnseen (appendUnseen all found) more := by
  unfold appendUnseen
  rw [List.foldl_append]

/-- The filter does not look at the counters, and the order it sorts by is lost with them. -/
theorem rankAndFilter_forget (all : List TriggeredPattern) (ctx : InductionContext) :
    ((rankAndFilter all ctx).map forgetCounts).Perm (rankAndFilter (all.map forgetCounts) ctx) := by
  unfold rankAndFilter
  have kept : (all.map forgetCounts).filter (fun p =>
      p.triggerTags.any (ctx.taskClassTags ++ ctx.violatedConstraintIds).contains)
      = (all.filter fun p => p.triggerTags.any
          (ctx.taskClassTags ++ ctx.violatedConstraintIds).contains).map forgetCounts := by
    rw [List.filter_map]
    rfl
  rw [kept]
  exact ((List.perm_insertionSort _ _).map _).trans (List.perm_insertionSort _ _).symm

/-! ## Counting -/

/-- What a count does to the pattern it finds. -/
def bump (success : Bool) (p : TriggeredPattern) : TriggeredPattern :=
  { p with
    attemptCount := (p.attemptCount + 1) % 2 ^ 64
    successCount := if success then (p.successCount + 1) % 2 ^ 64 else p.successCount }

@[simp] theorem forgetCounts_bump (success : Bool) (p : TriggeredPattern) :
    forgetCounts (bump success p) = forgetCounts p := rfl

/-- Where a count finds its hint. -/
def target (store : PatternBuckets) (task : String × String) : Option Nat :=
  (store task.1).bind fun patterns => patterns.findIdx? fun p => p.hintText = task.2

theorem target_layoutOf (store : PatternBuckets) (task : String × String) :
    target (layoutOf store) task = target store task := by
  unfold target layoutOf
  cases store task.1 with
  | none => rfl
  | some patterns =>
    simp only [Option.map_some, Option.bind_some, List.findIdx?_map]
    rfl

/-- A count raises the first pattern with its hint. -/
theorem countHint_eq (hintText : String) (success : Bool) (patterns : List TriggeredPattern) :
    countHint hintText success patterns
      = (patterns.findIdx? fun p => p.hintText = hintText).map fun i =>
          patterns.modify i (bump success) := by
  induction patterns with
  | nil => rfl
  | cons p rest ih =>
    rw [countHint, List.findIdx?_cons]
    by_cases here : p.hintText = hintText
    · simp [here, bump]
    · rw [if_neg here, ih, if_neg (by simpa using here), Option.map_map, Option.map_map]
      rfl

/-- How many of the counts find their hint at an entry of a bucket. -/
def hits (layout : PatternBuckets) (tasks : List (String × String)) (key : String) (i : Nat) :
    Nat :=
  tasks.countP fun task => task.1 = key ∧ target layout task = some i

@[simp] theorem hits_nil (layout : PatternBuckets) (key : String) (i : Nat) :
    hits layout [] key i = 0 := rfl

theorem hits_cons (layout : PatternBuckets) (task : String × String)
    (todo : List (String × String)) (key : String) (i : Nat) :
    hits layout (task :: todo) key i
      = hits layout todo key i
        + if task.1 = key ∧ target layout task = some i then 1 else 0 := by
  simp [hits, List.countP_cons]

/-- The entry of a bucket. -/
def entryAt (b : MemoryBucket) (key : String) (i : Nat) : Option TriggeredPattern :=
  (readBuckets b key).bind fun patterns => patterns[i]?

def attemptAt (b : MemoryBucket) (key : String) (i : Nat) : Nat :=
  ((entryAt b key i).map (·.attemptCount)).getD 0

def successAt (b : MemoryBucket) (key : String) (i : Nat) : Nat :=
  ((entryAt b key i).map (·.successCount)).getD 0

end ControlPlane.Source.Memory
