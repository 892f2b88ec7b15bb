import ControlPlane.Lib.KeyValue
import ControlPlane.Lib.Runs

/-!
# Session memory

Embeds the two `MemoryProvider` implementations of `crates/h2ai-memory`: `InMemoryCache`
(`in_memory.rs`) and `NatsKvStore` (`nats_kv.rs`). JSON values are a type parameter; a
stored array is read back as it was written, and other bytes do not parse. The check of
`async-nats` on keys is a parameter.

`commit_new_memories` is given twice over the same two operations: as one call, and cut
at these operations, so that any number of calls can be interleaved.
-/
namespace ControlPlane.Source.Memory

open Lib

variable {ν : Type}

inductive MemoryError where
  | serialization (message : String)
  | storage (message : String)
  deriving DecidableEq, Repr

/-! ## In memory -/

abbrev InMemoryCache (ν : Type) := String → Option (List ν)

namespace InMemoryCache

def empty : InMemoryCache ν := fun _ => none

def getRecentHistory (cache : InMemoryCache ν) (sessionId : String) (limit : Nat) :
    Except MemoryError (List ν) :=
  .ok (((cache sessionId).map fun v => v.reverse.take limit).getD [])

def commitNewMemories (cache : InMemoryCache ν) (sessionId : String) (memories : List ν) :
    Except MemoryError Unit × InMemoryCache ν :=
  (.ok (), Function.update cache sessionId (some ((cache sessionId).getD [] ++ memories)))

end InMemoryCache

/-! ## NATS KV -/

/-- The bytes under a key: a JSON array, or something that does not parse as one. -/
inductive Payload (ν : Type) where
  | array (values : List ν)
  | unreadable
  deriving DecidableEq

abbrev Sessions (ν : Type) := Bucket String (Payload ν)

def historyKey (sessionId : String) : String := "history." ++ sessionId

section NatsKvStore

variable (validKey : String → Bool)

def invalidKey : MemoryError := .storage "invalid key"

def badJson : MemoryError := .serialization "history is not a JSON array"

/-- `kv.entry` and the decoding of the value: the history and the revision it has. -/
def readEntry (kv : Sessions ν) (key : String) :
    Except MemoryError (List ν × Option Nat) :=
  if validKey key then
    match (kv.slots key).value with
    | none => .ok ([], none)
    | some (.array values) => .ok (values, some (kv.slots key).revision)
    | some .unreadable => .error badJson
  else .error invalidKey

/-- `kv.update` with the revision that was read, or `kv.create` where there was none. -/
def writeEntry (kv : Sessions ν) (key : String) (values : List ν) (revision : Option Nat) :
    Option (Sessions ν) :=
  match revision with
  | some rev => (kv.update key (.array values) rev).map (·.1)
  | none => (kv.create key (.array values)).map (·.1)

def tooManyWriters : MemoryError :=
  .storage "commit_new_memories: too many concurrent writers for session"

def maxAttempts : Nat := 8

/-- The retry loop of one call that is alone on the bucket. -/
def commitLoop (sessionId : String) (memories : List ν) :
    Nat → Sessions ν → Except MemoryError Unit × Sessions ν
  | 0, kv => (.error tooManyWriters, kv)
  | attempts + 1, kv =>
      match readEntry validKey kv (historyKey sessionId) with
      | .error e => (.error e, kv)
      | .ok (existing, revision) =>
          match writeEntry kv (historyKey sessionId) (existing ++ memories) revision with
          | some kv' => (.ok (), kv')
          | none => commitLoop sessionId memories attempts kv

def commitNewMemories (kv : Sessions ν) (sessionId : String) (memories : List ν) :
    Except MemoryError Unit × Sessions ν :=
  commitLoop validKey sessionId memories maxAttempts kv

/-- `all[all.len().saturating_sub(limit)..]`. -/
def lastEntries (all : List ν) (limit : Nat) : List ν := all.drop (all.length - limit)

def getRecentHistory (kv : Sessions ν) (sessionId : String) (limit : Nat) :
    Except MemoryError (List ν) :=
  if validKey (historyKey sessionId) then
    match (kv.slots (historyKey sessionId)).value with
    | none => .ok []
    | some (.array all) => .ok (lastEntries all limit)
    | some .unreadable => .error badJson
  else .error invalidKey

/-! ## Interleaved calls -/

/-- Where one call of `commit_new_memories` stands. -/
inductive CommitCall (ν : Type) where
  | idle
  /-- `entry` is next; this many attempts are left. -/
  | reading (sessionId : String) (memories : List ν) (attempts : Nat)
  /-- `update` or `create` is next. -/
  | writing (sessionId : String) (memories : List ν) (attempts : Nat)
      (existing : List ν) (revision : Option Nat)
  | returned (sessionId : String) (memories : List ν) (result : Except MemoryError Unit)

structure MemoryState (ν : Type) where
  kv : Sessions ν
  calls : Nat → CommitCall ν

inductive MemoryAction (ν : Type) where
  | start (caller : Nat) (sessionId : String) (memories : List ν)
  /-- `failure`: the operation answers with an error of its own. -/
  | entry (caller : Nat) (failure : Option String)
  | write (caller : Nat) (failure : Option String)
  deriving DecidableEq

def MemoryState.goto (s : MemoryState ν) (caller : Nat) (call : CommitCall ν) : MemoryState ν :=
  { s with calls := Function.update s.calls caller call }

/-- The next attempt of a call whose write was refused; after the last one it gives up. -/
def nextAttempt (sessionId : String) (memories : List ν) : Nat → CommitCall ν
  | 0 => .returned sessionId memories (.error tooManyWriters)
  | attempts + 1 => .reading sessionId memories (attempts + 1)

/-- One operation of one call; `none` where the call is not at that operation. -/
def commitStep (s : MemoryState ν) : MemoryAction ν → Option (MemoryState ν)
  | .start caller sessionId memories =>
      match s.calls caller with
      | .idle => some (s.goto caller (.reading sessionId memories maxAttempts))
      | _ => none
  | .entry caller failure =>
      match s.calls caller with
      | .reading sessionId memories attempts =>
          match failure with
          | some message =>
              some (s.goto caller (.returned sessionId memories (.error (.storage message))))
          | none =>
              match readEntry validKey s.kv (historyKey sessionId) with
              | .error e => some (s.goto caller (.returned sessionId memories (.error e)))
              | .ok (existing, revision) =>
                  some (s.goto caller
                    (.writing sessionId memories (attempts - 1) existing revision))
      | _ => none
  | .write caller failure =>
      match s.calls caller with
      | .writing sessionId memories attempts existing revision =>
          match failure with
          | some message =>
              -- a failed `update` returns its error, a failed `create` is tried again
              some (s.goto caller (if revision.isSome then
                .returned sessionId memories (.error (.storage message))
                else nextAttempt sessionId memories attempts))
          | none =>
              match writeEntry s.kv (historyKey sessionId) (existing ++ memories) revision with
              | some kv => some ({ s with kv := kv }.goto caller
                  (.returned sessionId memories (.ok ())))
              | none => some (s.goto caller (nextAttempt sessionId memories attempts))
      | _ => none

/-- A bucket with any content, and calls that have not been made yet. -/
def MemoryState.init (kv : Sessions ν) : MemoryState ν := ⟨kv, fun _ => .idle⟩

end NatsKvStore

/-! ## Providers -/

inductive MemoryOp (ν : Type) where
  | commit (sessionId : String) (memories : List ν)
  | read (sessionId : String) (limit : Nat)
  deriving DecidableEq

/-- The answers to the reads of a sequence of calls on an `InMemoryCache`. -/
def inMemoryReads : InMemoryCache ν → List (MemoryOp ν) → List (Except MemoryError (List ν))
  | _, [] => []
  | cache, .commit sessionId memories :: rest =>
      inMemoryReads (cache.commitNewMemories sessionId memories).2 rest
  | cache, .read sessionId limit :: rest =>
      cache.getRecentHistory sessionId limit :: inMemoryReads cache rest

/-- The answers to the reads of a sequence of calls on a `NatsKvStore`. -/
def natsReads (validKey : String → Bool) :
    Sessions ν → List (MemoryOp ν) → List (Except MemoryError (List ν))
  | _, [] => []
  | kv, .commit sessionId memories :: rest =>
      natsReads validKey (commitNewMemories validKey kv sessionId memories).2 rest
  | kv, .read sessionId limit :: rest =>
      getRecentHistory validKey kv sessionId limit :: natsReads validKey kv rest

end ControlPlane.Source.Memory
