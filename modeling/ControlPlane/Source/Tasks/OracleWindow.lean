import ControlPlane.Lib.Runs
import Mathlib.Algebra.Order.Ring.Rat

/-!
# The window of oracle observations

Embeds `handle_result` and `enforce_fifo_cap` of `crates/h2ai-api/src/oracle/mod.rs` up to
the write of the window, and the two operations of `crates/h2ai-state/src/nats.rs` on it.
Every node handles its messages one after the other; the subscription has no queue group,
so that a message can reach all of them. What follows from the window is left out.
-/
namespace ControlPlane.Source.Tasks

open Lib

inductive OracleDomain where
  | code
  | factual
  | reasoning
  | human
  | unknown
  deriving DecidableEq, Repr

structure OracleResultEvent where
  /-- The number of the message; not part of its payload. -/
  message : Nat
  taskId : String
  qConfidence : ℚ
  passed : Bool
  residual : ℚ
  domain : OracleDomain
  timestampMs : Nat
  deriving DecidableEq, Repr

structure OracleObservation where
  /-- The message it was made of; not part of what is stored. -/
  message : Nat
  taskId : String
  qConfidence : ℚ
  yOracle : Bool
  residual : ℚ
  domain : OracleDomain
  timestampMs : Nat
  deriving DecidableEq, Repr

def OracleResultEvent.observation (result : OracleResultEvent) : OracleObservation :=
  ⟨result.message, result.taskId, result.qConfidence, result.passed, result.residual,
    result.domain, result.timestampMs⟩

/-- `enforce_fifo_cap`. -/
def enforceFifoCap (observations : List OracleObservation) (cap : Nat) :
    List OracleObservation :=
  if observations.length > cap then observations.drop (observations.length - cap)
  else observations

/-! ## Nodes -/

structure OracleStore where
  observations : Option (List OracleObservation)
  /-- The results whose writes came through, in order; nothing reads it. -/
  written : List OracleResultEvent

/-- What `get_oracle_observations` answers when it is served. -/
def OracleStore.window (s : OracleStore) : List OracleObservation := s.observations.getD []

/-- A node waits for a message or is between the read and the write of `handle_result`. -/
inductive OraclePoint where
  | idle
  | handling (observations : List OracleObservation) (result : OracleResultEvent)
      (readFailed : Bool)

/-- The next message of a node and how the read ends, or how the write does. -/
inductive OracleAnswer where
  | deliver (result : OracleResultEvent) (served : Bool)
  | put (applied : Bool)

def oracleMove (cap : Nat) {κ : Type} (_ : κ) :
    OracleAnswer → OraclePoint → OracleStore → OraclePoint × OracleStore
  | .deliver result served, .idle, s =>
      -- `unwrap_or_default`: a failed read is an empty window
      (.handling (if served then s.window else []) result (!served), s)
  | .put applied, .handling observations result _, s =>
      let observations := enforceFifoCap (observations ++ [result.observation]) cap
      -- an error of the write is logged
      (.idle, if applied then ⟨some observations, s.written ++ [result]⟩ else s)
  | _, point, s => (point, s)

/-- Nothing is stored, and every node waits. -/
def oracleStart {κ : Type} : Threads κ OraclePoint OracleStore :=
  ⟨fun _ => .idle, ⟨none, []⟩⟩

/-! ## The cap -/

theorem enforceFifoCap_eq (observations : List OracleObservation) (cap : Nat) :
    enforceFifoCap observations cap = observations.drop (observations.length - cap) := by
  unfold enforceFifoCap
  split_ifs with h
  · rfl
  · have hzero : observations.length - cap = 0 := by omega
    rw [hzero, List.drop_zero]

theorem enforceFifoCap_length_le (observations : List OracleObservation) (cap : Nat) :
    (enforceFifoCap observations cap).length ≤ cap := by
  rw [enforceFifoCap_eq, List.length_drop]
  omega

theorem mem_of_mem_enforceFifoCap {observations : List OracleObservation} {cap : Nat}
    {o : OracleObservation} (h : o ∈ enforceFifoCap observations cap) : o ∈ observations := by
  rw [enforceFifoCap_eq] at h
  exact List.mem_of_mem_drop h

/-- The newest observation stays in a window that holds any. -/
theorem enforceFifoCap_concat (observations : List OracleObservation) (o : OracleObservation)
    {cap : Nat} (h : 1 ≤ cap) : enforceFifoCap (observations ++ [o]) cap =
      enforceFifoCap observations (cap - 1) ++ [o] := by
  rw [enforceFifoCap_eq, enforceFifoCap_eq, List.length_append, List.length_singleton,
    List.drop_append_of_le_length (by omega)]
  congr 2
  omega

theorem enforceFifoCap_zero (observations : List OracleObservation) :
    enforceFifoCap observations 0 = [] :=
  List.eq_nil_of_length_eq_zero (Nat.le_zero.mp (enforceFifoCap_length_le observations 0))

theorem enforceFifoCap_of_le {observations : List OracleObservation} {cap : Nat}
    (h : observations.length ≤ cap) : enforceFifoCap observations cap = observations := by
  unfold enforceFifoCap
  rw [if_neg (by omega)]

end ControlPlane.Source.Tasks
