import ControlPlane.Lib.KeyValue
import ControlPlane.Lib.Runs
import ControlPlane.Lib.Sequences

/-!
# Delta checkpoints

Embeds the delta write and read path of `crates/h2ai-state/src/nats.rs`:
`put_checkpoint_delta`, `update_latest_seq`, `get_latest_checkpoint`,
`reconstruct_at_seq` and the delta helpers. A checkpoint is used through serde only and
is a type parameter; its JSON form and `json_patch` are parameters. Stored bytes are
read back as what was written.

The two calls are given twice over the same operations: as calls that are alone on the
client, and cut at their operations on the bucket and the cache, so that any number of
them can be interleaved.
-/
namespace ControlPlane.Source.State

open Lib

variable {γ J P : Type}

/-! ## Encoding -/

structure StateDeltaConfig where
  enabled : Bool
  baseInterval : Nat
  cacheTtlSecs : Nat
  cacheMaxEntries : Nat
  deriving DecidableEq, Repr

inductive NatsFailure where
  | kvError (message : String)
  | serialize (message : String)
  /-- The call does not return: it divides by zero. -/
  | panic
  deriving DecidableEq, Repr

/-- The JSON form of a checkpoint, with `json_patch::diff` and `json_patch::patch`. -/
structure CheckpointJson (γ J P : Type) where
  toValue : γ → Except String J
  fromValue : J → Except String γ
  diff : J → J → P
  patch : J → P → Except String J

/-- Serde round-trips a checkpoint, and a patch leads where it was computed to lead. -/
structure CheckpointJson.Lawful (json : CheckpointJson γ J P) : Prop where
  roundTrip : ∀ c, ∃ v, json.toValue c = .ok v ∧ json.fromValue v = .ok c
  patch_diff : ∀ a b, json.patch a (json.diff a b) = .ok b

inductive CheckpointKind (γ P : Type) where
  | base (checkpoint : γ)
  | delta (patch : P)
  deriving DecidableEq, Repr

/-- `TaskCheckpointEntry`, as far as it is read back. -/
structure TaskCheckpointEntry (γ P : Type) where
  seq : Nat
  baseSeq : Nat
  kind : CheckpointKind γ P
  deriving DecidableEq, Repr

/-- `u32::is_multiple_of`: 0 has the multiple 0 only. -/
def isMultipleOf (n d : Nat) : Bool := if d = 0 then n == 0 else n % d == 0

def shouldStoreBase (seq baseInterval : Nat) : Bool := seq == 0 || isMultipleOf seq baseInterval

section Json

variable (json : CheckpointJson γ J P)

def toJson (c : γ) : Except NatsFailure J := (json.toValue c).mapError .serialize

def generateDelta (base current : γ) : Except NatsFailure P := do
  let baseVal ← toJson json base
  let currentVal ← toJson json current
  return json.diff baseVal currentVal

def applyPatch (val : J) (patch : P) : Except NatsFailure J :=
  (json.patch val patch).mapError fun e => .serialize ("json-patch apply: " ++ e)

def applyPatches (base : γ) (patches : List P) : Except NatsFailure γ := do
  let val ← toJson json base
  let val ← patches.foldlM (applyPatch json) val
  (json.fromValue val).mapError .serialize

end Json

/-! ## The bucket -/

/-- What the bytes under a key of `task_checkpoints` are. -/
inductive CheckpointValue (γ P : Type) where
  | latest (seq : Nat)
  | entry (e : TaskCheckpointEntry γ P)
  /-- The zstd-compressed checkpoint of the flat keys. -/
  | flat (checkpoint : γ)
  | unreadable
  deriving DecidableEq, Repr

abbrev Checkpoints (γ P : Type) := Bucket String (CheckpointValue γ P)

/-- `{seq:08}`. -/
def paddedSeq (seq : Nat) : List Char :=
  List.replicate (8 - (Nat.toDigits 10 seq).length) '0' ++ Nat.toDigits 10 seq

def seqKey (taskId : String) (seq : Nat) : String :=
  taskId ++ "/seq/" ++ String.ofList (paddedSeq seq)

def latestKey (taskId : String) : String := taskId ++ "/seq/" ++ "latest"

def storedUnder (kv : Checkpoints γ P) (key : String) : Option (CheckpointValue γ P) :=
  (kv.slots key).value

/-- `kv.entry`, as far as its revision is used: a deleted key has one too. -/
def entryRevision (kv : Checkpoints γ P) (key : String) : Option Nat :=
  match (kv.slots key).revision with
  | 0 => none
  | revision + 1 => some (revision + 1)

def notAnEntry : NatsFailure := .serialize "not a checkpoint entry"

def decodeEntry : CheckpointValue γ P → Except NatsFailure (TaskCheckpointEntry γ P)
  | .entry e => .ok e
  | _ => .error notAnEntry

/-- `None` where there is no pointer. -/
def decodeLatest (taskId : String) : Option (CheckpointValue γ P) → Except NatsFailure (Option Nat)
  | none => .ok none
  | some (.latest seq) => .ok (some seq)
  | some _ =>
      .error (.serialize ("latest seq key has unexpected byte length for task=" ++ taskId))

/-- The checkpoint of a base entry, or one of the two errors of the caller. -/
def decodeBase (missing corrupt : String) :
    Option (CheckpointValue γ P) → Except NatsFailure γ
  | none => .error (.kvError missing)
  | some value => do
      match (← decodeEntry value).kind with
      | .base cp => .ok cp
      | .delta _ => .error (.kvError corrupt)

/-- `get_task_checkpoint` on the flat key. -/
def getTaskCheckpoint (kv : Checkpoints γ P) (taskId : String) : Except NatsFailure (Option γ) :=
  match storedUnder kv taskId with
  | none => .ok none
  | some (.flat cp) => .ok (some cp)
  | some _ => .error (.serialize "zstd decode")

/-! ## Writing -/

/-- The base that a put has to read; `none` where it stores a full base itself. -/
def baseToRead (cfg : StateDeltaConfig) (seq : Nat) : Except NatsFailure (Option Nat) :=
  if !cfg.enabled || shouldStoreBase seq cfg.baseInterval then .ok none
  else if cfg.baseInterval = 0 then .error .panic
  else .ok (some (seq / cfg.baseInterval * cfg.baseInterval))

def baseEntry (checkpoint : γ) (seq : Nat) : TaskCheckpointEntry γ P := ⟨seq, seq, .base checkpoint⟩

/-- The delta entry, from the value read under the key of the base. -/
def deltaEntry (json : CheckpointJson γ J P) (taskId : String) (checkpoint : γ) (seq baseSeq : Nat)
    (stored : Option (CheckpointValue γ P)) : Except NatsFailure (TaskCheckpointEntry γ P) := do
  let baseCp ← decodeBase
    ("base checkpoint not found for task=" ++ taskId ++ " base_seq=" ++ toString baseSeq)
    ("base_seq=" ++ toString baseSeq ++ " entry is a Delta, expected Base") stored
  let patch ← generateDelta json baseCp checkpoint
  return ⟨seq, baseSeq, .delta patch⟩

/-- One write of `update_latest_seq`: compare-and-swap on the revision that was read, or
`put` where there was none. Also the revision of the write. -/
def swapLatest (kv : Checkpoints γ P) (taskId : String) (seq : Nat) (revision : Option Nat) :
    Option (Checkpoints γ P × Nat) :=
  match revision with
  | some rev => kv.update (latestKey taskId) (.latest seq) rev
  | none => some (kv.put (latestKey taskId) (.latest seq))

def casFailed : NatsFailure := .kvError "update_latest_seq CAS failed after 3 attempts"

/-- The loop of `update_latest_seq`, alone on the bucket. -/
def updateLatestLoop (taskId : String) (seq : Nat) :
    Nat → Checkpoints γ P → Except NatsFailure (Checkpoints γ P)
  | 0, _ => .error casFailed
  | attempts + 1, kv =>
      match swapLatest kv taskId seq (entryRevision kv (latestKey taskId)) with
      | some (kv', _) => .ok kv'
      | none => updateLatestLoop taskId seq attempts kv

def updateLatestSeq (kv : Checkpoints γ P) (taskId : String) (seq : Nat) :
    Except NatsFailure (Checkpoints γ P) :=
  updateLatestLoop taskId seq 3 kv

/-! ## The client -/

/-- Instants are nanoseconds of the monotonic clock. `revision` is not in the source: it is
the revision of the latest pointer that the checkpoint was read through. -/
structure CachedCheckpoint (γ : Type) where
  checkpoint : γ
  seq : Nat
  cachedAt : Nat
  revision : Nat
  deriving DecidableEq, Repr

abbrev DeltaCache (γ : Type) := Lru String (CachedCheckpoint γ)

structure NatsClient (γ P : Type) where
  checkpoints : Checkpoints γ P
  deltaCache : DeltaCache γ

def NatsClient.connectWithCfg (cfg : StateDeltaConfig) (checkpoints : Checkpoints γ P) :
    NatsClient γ P :=
  ⟨checkpoints, .new (max cfg.cacheMaxEntries 1)⟩

/-- The cache lookup of `get_latest_checkpoint`; an entry past its TTL is popped. -/
def lookup (cfg : StateDeltaConfig) (cache : DeltaCache γ) (taskId : String) (now : Nat) :
    Option (CachedCheckpoint γ) × DeltaCache γ :=
  match cache.get taskId with
  | (none, cache) => (none, cache)
  | (some cached, cache) =>
      if now - cached.cachedAt < cfg.cacheTtlSecs * 10 ^ 9 then (some cached, cache)
      else (none, cache.pop taskId)

/-- The entry that a put stores. -/
def entryToStore (cfg : StateDeltaConfig) (json : CheckpointJson γ J P) (kv : Checkpoints γ P)
    (taskId : String) (checkpoint : γ) (seq : Nat) :
    Except NatsFailure (TaskCheckpointEntry γ P) := do
  match ← baseToRead cfg seq with
  | none => return baseEntry checkpoint seq
  | some baseSeq =>
      deltaEntry json taskId checkpoint seq baseSeq (storedUnder kv (seqKey taskId baseSeq))

/-- `put_checkpoint_delta`, alone on the client. Every error comes before the first write. -/
def putCheckpointDelta (cfg : StateDeltaConfig) (json : CheckpointJson γ J P)
    (client : NatsClient γ P) (taskId : String) (checkpoint : γ) (seq : Nat) :
    Except NatsFailure (NatsClient γ P) := do
  let entry ← entryToStore cfg json client.checkpoints taskId checkpoint seq
  let kv := (client.checkpoints.put (seqKey taskId seq) (.entry entry)).1
  let kv ← updateLatestSeq kv taskId seq
  return ⟨kv, client.deltaCache.pop taskId⟩

/-- The checkpoint of a delta entry, from the value read under the key of its base. -/
def patchedBase (json : CheckpointJson γ J P) (taskId : String) (baseSeq : Nat) (patch : P)
    (stored : Option (CheckpointValue γ P)) : Except NatsFailure γ := do
  let baseCp ← decodeBase
    ("base checkpoint missing for task=" ++ taskId ++ " base_seq=" ++ toString baseSeq)
    ("base_seq=" ++ toString baseSeq ++
      " entry is itself a Delta — corrupt chain for task=" ++ taskId)
    stored
  applyPatches json baseCp [patch]

/-- The reads of `reconstruct_at_seq`. -/
def reconstructAtSeq (json : CheckpointJson γ J P) (kv : Checkpoints γ P) (taskId : String)
    (seq : Nat) : Except NatsFailure (Option γ) :=
  match storedUnder kv (seqKey taskId seq) with
  | none => .ok none
  | some value => do
      let entry ← decodeEntry value
      match entry.kind with
      | .base cp => .ok (some cp)
      | .delta patch =>
          some <$> patchedBase json taskId entry.baseSeq patch
            (storedUnder kv (seqKey taskId entry.baseSeq))

/-- `get_latest_checkpoint`, alone on the client: the lookup at `now`, the fill at
`filledAt`. -/
def getLatestCheckpoint (cfg : StateDeltaConfig) (json : CheckpointJson γ J P)
    (client : NatsClient γ P) (taskId : String) (now filledAt : Nat) :
    Except NatsFailure (Option γ) × NatsClient γ P :=
  match lookup cfg client.deltaCache taskId now with
  | (some cached, cache) => (.ok (some cached.checkpoint), { client with deltaCache := cache })
  | (none, cache) =>
      let client := { client with deltaCache := cache }
      match decodeLatest taskId (storedUnder client.checkpoints (latestKey taskId)) with
      | .error e => (.error e, client)
      | .ok none => (getTaskCheckpoint client.checkpoints taskId, client)
      | .ok (some seq) =>
          match reconstructAtSeq json client.checkpoints taskId seq with
          | .error e => (.error e, client)
          | .ok none => (.ok none, client)
          | .ok (some cp) =>
              (.ok (some cp), { client with
                deltaCache := client.deltaCache.put taskId
                  ⟨cp, seq, filledAt, (client.checkpoints.slots (latestKey taskId)).revision⟩ })

/-! ## Interleaved calls -/

/-- Where one call stands: the operation that is next, or what was returned. -/
inductive CheckpointCall (γ P : Type) where
  | putReading (taskId : String) (checkpoint : γ) (seq : Nat)
  | putStoring (taskId : String) (checkpoint : γ) (seq : Nat) (entry : TaskCheckpointEntry γ P)
  /-- `kv.entry` of `update_latest_seq`; this many attempts are left after this one. -/
  | putPointing (taskId : String) (checkpoint : γ) (seq : Nat) (attempts : Nat)
  | putSwapping (taskId : String) (checkpoint : γ) (seq : Nat) (attempts : Nat)
      (revision : Option Nat)
  /-- The latest pointer was written with this revision. -/
  | putInvalidating (taskId : String) (checkpoint : γ) (seq : Nat) (written : Nat)
  | putReturned (taskId : String) (checkpoint : γ) (seq : Nat) (result : Except NatsFailure Nat)
  | getLooking (taskId : String)
  | getPointer (taskId : String)
  | getLegacy (taskId : String)
  | getEntry (taskId : String) (seq revision : Nat)
  | getBase (taskId : String) (seq revision baseSeq : Nat) (patch : P)
  | getFilling (taskId : String) (seq revision : Nat) (checkpoint : γ)
  /-- Returned from the cache. -/
  | getHit (taskId : String) (cached : CachedCheckpoint γ)
  | getReturned (taskId : String) (result : Except NatsFailure (Option γ))

/-- After a failed write of the pointer. -/
def nextPointing (taskId : String) (checkpoint : γ) (seq : Nat) : Nat → CheckpointCall γ P
  | 0 => .putReturned taskId checkpoint seq (.error casFailed)
  | attempts + 1 => .putPointing taskId checkpoint seq attempts

def NatsClient.storing (client : NatsClient γ P) (kv : Checkpoints γ P) : NatsClient γ P :=
  { client with checkpoints := kv }

def NatsClient.caching (client : NatsClient γ P) (cache : DeltaCache γ) : NatsClient γ P :=
  { client with deltaCache := cache }

/-- What a get does with the bytes under the key of the entry. -/
def entryRead (taskId : String) (seq revision : Nat) :
    Option (CheckpointValue γ P) → CheckpointCall γ P
  | none => .getReturned taskId (.ok none)
  | some value =>
      match decodeEntry value with
      | .error e => .getReturned taskId (.error e)
      | .ok entry =>
          match entry.kind with
          | .base cp => .getFilling taskId seq revision cp
          | .delta patch => .getBase taskId seq revision entry.baseSeq patch

/-- The next operation of a call, at the time `now`; `none` if it has returned. -/
def operate (cfg : StateDeltaConfig) (json : CheckpointJson γ J P) (client : NatsClient γ P)
    (now : Nat) : CheckpointCall γ P → Option (NatsClient γ P × CheckpointCall γ P)
  | .putReading taskId checkpoint seq =>
      match entryToStore cfg json client.checkpoints taskId checkpoint seq with
      | .error e => some (client, .putReturned taskId checkpoint seq (.error e))
      | .ok entry => some (client, .putStoring taskId checkpoint seq entry)
  | .putStoring taskId checkpoint seq entry =>
      some (client.storing (client.checkpoints.put (seqKey taskId seq) (.entry entry)).1,
        .putPointing taskId checkpoint seq 2)
  | .putPointing taskId checkpoint seq attempts =>
      some (client, .putSwapping taskId checkpoint seq attempts
        (entryRevision client.checkpoints (latestKey taskId)))
  | .putSwapping taskId checkpoint seq attempts revision =>
      match swapLatest client.checkpoints taskId seq revision with
      | some (kv, written) =>
          some (client.storing kv, .putInvalidating taskId checkpoint seq written)
      | none => some (client, nextPointing taskId checkpoint seq attempts)
  | .putInvalidating taskId checkpoint seq written =>
      some (client.caching (client.deltaCache.pop taskId),
        .putReturned taskId checkpoint seq (.ok written))
  | .getLooking taskId =>
      match lookup cfg client.deltaCache taskId now with
      | (some cached, cache) => some (client.caching cache, .getHit taskId cached)
      | (none, cache) => some (client.caching cache, .getPointer taskId)
  | .getPointer taskId =>
      match decodeLatest taskId (storedUnder client.checkpoints (latestKey taskId)) with
      | .error e => some (client, .getReturned taskId (.error e))
      | .ok none => some (client, .getLegacy taskId)
      | .ok (some seq) =>
          some (client, .getEntry taskId seq
            (client.checkpoints.slots (latestKey taskId)).revision)
  | .getLegacy taskId =>
      some (client, .getReturned taskId (getTaskCheckpoint client.checkpoints taskId))
  | .getEntry taskId seq revision =>
      some (client,
        entryRead taskId seq revision (storedUnder client.checkpoints (seqKey taskId seq)))
  | .getBase taskId seq revision baseSeq patch =>
      match patchedBase json taskId baseSeq patch
          (storedUnder client.checkpoints (seqKey taskId baseSeq)) with
      | .error e => some (client, .getReturned taskId (.error e))
      | .ok cp => some (client, .getFilling taskId seq revision cp)
  | .getFilling taskId seq revision checkpoint =>
      some (client.caching (client.deltaCache.put taskId ⟨checkpoint, seq, now, revision⟩),
        .getReturned taskId (.ok (some checkpoint)))
  | .putReturned _ _ _ _ => none
  | .getHit _ _ => none
  | .getReturned _ _ => none

/-- The next operation answers with an error of its own; `none` where none can. -/
def failWith (message : String) : CheckpointCall γ P → Option (CheckpointCall γ P)
  | .putReading taskId checkpoint seq =>
      some (.putReturned taskId checkpoint seq (.error (.kvError message)))
  | .putStoring taskId checkpoint seq _ =>
      some (.putReturned taskId checkpoint seq (.error (.kvError message)))
  | .putPointing taskId checkpoint seq _ =>
      some (.putReturned taskId checkpoint seq (.error (.kvError message)))
  | .putSwapping taskId checkpoint seq attempts (some _) =>
      some (nextPointing taskId checkpoint seq attempts)
  | .putSwapping taskId checkpoint seq _ none =>
      some (.putReturned taskId checkpoint seq (.error (.kvError message)))
  | .getPointer taskId => some (.getReturned taskId (.error (.kvError message)))
  | .getLegacy taskId => some (.getReturned taskId (.error (.kvError message)))
  | .getEntry taskId _ _ => some (.getReturned taskId (.error (.kvError message)))
  | .getBase taskId _ _ _ _ => some (.getReturned taskId (.error (.kvError message)))
  | _ => none

/-- The calls on one client, in the order in which they were started. -/
structure CheckpointState (γ P : Type) where
  client : NatsClient γ P
  calls : List (CheckpointCall γ P)

inductive CheckpointAction (γ : Type) where
  | startPut (taskId : String) (checkpoint : γ) (seq : Nat)
  | startGet (taskId : String)
  | operate (caller now : Nat)
  | fail (caller : Nat) (message : String)

def checkpointStep (cfg : StateDeltaConfig) (json : CheckpointJson γ J P)
    (s : CheckpointState γ P) : CheckpointAction γ → Option (CheckpointState γ P)
  | .startPut taskId checkpoint seq =>
      some { s with calls := s.calls ++ [.putReading taskId checkpoint seq] }
  | .startGet taskId => some { s with calls := s.calls ++ [.getLooking taskId] }
  | .operate caller now => do
      let call ← s.calls[caller]?
      let (client, call) ← operate cfg json s.client now call
      return ⟨client, s.calls.set caller call⟩
  | .fail caller message => do
      let call ← s.calls[caller]?
      let call ← failWith message call
      return { s with calls := s.calls.set caller call }

end ControlPlane.Source.State
