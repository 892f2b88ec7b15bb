import ControlPlane.Lib.Sequences
import ControlPlane.Lib.Runs
import ControlPlane.Source.Constraints.Types

/-!
# Versioned constraints on several nodes

Embeds `load_latest_versioned` and `create_next_version` of `NatsVersionedSource` in
NATS mode (`crates/h2ai-constraints/src/nats_versioned.rs`): every node has override
entries of its own, all nodes have one KV bucket and the same inner source. An operation
of a call is what happens between two awaits: a lock section together with what needs
no await behind it, or one request to the bucket, which is linearizable and may fail.
-/
namespace ControlPlane.Source.Constraints

open Lib

structure VersionedSpec where
  spec : SemanticSpec
  provenance : Option RepairProvenance
  deriving DecidableEq, Repr

/-! ## The bucket -/

/-- `version_key`. -/
def versionKey (id : String) (version : Nat) : String :=
  "h2ai.constraints." ++ id ++ ".v" ++ toString version

/-- `latest_key`. -/
def latestKey (id : String) : String := "h2ai.constraints." ++ id ++ ".latest"

/-- What stands in the bucket: a version, or the number that the latest key points to. -/
inductive StoredValue where
  | version (entry : VersionedSpec)
  | pointer (version : Nat)
  deriving DecidableEq, Repr

abbrev VersionBucket := String → Option StoredValue

/-- The number under the latest key, when it parses. -/
def VersionBucket.latest (kv : VersionBucket) (id : String) : Option Nat :=
  match kv (latestKey id) with
  | some (.pointer version) => some version
  | _ => none

/-- The entry of a version, when it decodes. -/
def VersionBucket.entry (kv : VersionBucket) (id : String) (version : Nat) :
    Option VersionedSpec :=
  match kv (versionKey id version) with
  | some (.version entry) => some entry
  | _ => none

/-- An unconditional put. -/
def VersionBucket.put (kv : VersionBucket) (key : String) (value : StoredValue) : VersionBucket :=
  Function.update kv key (some value)

/-! ## Calls -/

/-- A call on the source of a node. -/
inductive SourceCall (ν : Type) where
  | loadLatest (node : ν) (id : String)
  | createNext (node : ν) (id : String) (expectedVersion : Nat) (spec : SemanticSpec)
      (provenance : RepairProvenance)

/-- Where a call is, with what it carries to its next operation. -/
inductive CallPoint where
  | start
  | readLatest
  | readEntry (version : Nat)
  | warm (entry : VersionedSpec)
  | loaded (found : Option VersionedSpec)
  | putVersion
  | putLatest
  | created
  | conflict (actual : Nat)
  deriving DecidableEq, Repr

/-- The override maps of the nodes and the bucket. -/
structure SharedStore (ν : Type) where
  overrides : ν → String → Option VersionedSpec
  kv : VersionBucket

/-- Version and provenance are overwritten. The sum wraps around. -/
def nextSpec (expectedVersion : Nat) (spec : SemanticSpec) (provenance : RepairProvenance) :
    SemanticSpec :=
  { spec with
    version := (expectedVersion + 1) % 2 ^ 64
    repairProvenance := some provenance }

def nextEntry (expectedVersion : Nat) (spec : SemanticSpec) (provenance : RepairProvenance) :
    VersionedSpec :=
  ⟨nextSpec expectedVersion spec provenance, some provenance⟩

section Calls

variable {ν : Type} [DecidableEq ν] (inner : String → Option SemanticSpec)

def SharedStore.setOverride (s : SharedStore ν) (node : ν) (id : String)
    (entry : VersionedSpec) : SharedStore ν :=
  { s with overrides := fun n i => if n = node ∧ i = id then some entry else s.overrides n i }

/-- The version a node compares with: its override, else the inner spec, else 1. -/
def SharedStore.currentVersion (s : SharedStore ν) (node : ν) (id : String) : Nat :=
  match s.overrides node id with
  | some entry => entry.spec.version
  | none => ((inner id).map (·.version)).getD 1

/-- The inner spec, without provenance. -/
def loadInner (id : String) : Option VersionedSpec := (inner id).map fun spec => ⟨spec, none⟩

/-- The next operation of `load_latest_versioned`. -/
def loadOperation (node : ν) (id : String) (answered : Bool) (point : CallPoint)
    (s : SharedStore ν) : CallPoint × SharedStore ν :=
  match point with
  | .start =>
      match s.overrides node id with
      | some entry => (.loaded (some entry), s)
      | none => (.readLatest, s)
  | .readLatest =>
      match answered, s.kv.latest id with
      | true, some version => (.readEntry version, s)
      | _, _ => (.loaded (loadInner inner id), s)
  | .readEntry version =>
      match answered, s.kv.entry id version with
      | true, some entry => (.warm entry, s)
      | _, _ => (.loaded (loadInner inner id), s)
  | .warm entry => (.loaded (some entry), s.setOverride node id entry)
  | point => (point, s)

/-- The next operation of `create_next_version`: the lock section, then two puts whose
failures are ignored. -/
def createOperation (node : ν) (id : String) (expectedVersion : Nat) (spec : SemanticSpec)
    (provenance : RepairProvenance) (answered : Bool) (point : CallPoint) (s : SharedStore ν) :
    CallPoint × SharedStore ν :=
  let entry := nextEntry expectedVersion spec provenance
  match point with
  | .start =>
      let current := s.currentVersion inner node id
      if current = expectedVersion then (.putVersion, s.setOverride node id entry)
      else (.conflict current, s)
  | .putVersion =>
      (.putLatest, if answered then
        { s with kv := s.kv.put (versionKey id entry.spec.version) (.version entry) } else s)
  | .putLatest =>
      (.created, if answered then
        { s with kv := s.kv.put (latestKey id) (.pointer entry.spec.version) } else s)
  | point => (point, s)

variable {κ : Type} (calls : κ → SourceCall ν)

/-- The next operation of a call; `answered` says whether the bucket answers it. -/
def sourceOperation (k : κ) (answered : Bool) (point : CallPoint) (s : SharedStore ν) :
    CallPoint × SharedStore ν :=
  match calls k with
  | .loadLatest node id => loadOperation inner node id answered point s
  | .createNext node id expectedVersion spec provenance =>
      createOperation inner node id expectedVersion spec provenance answered point s

/-- Nodes that have just been started on a bucket. -/
def startedNodes (kv : VersionBucket) : Threads κ CallPoint (SharedStore ν) :=
  ⟨fun _ => .start, ⟨fun _ _ => none, kv⟩⟩

/-- One operation of one of the calls. -/
def sourceStep [DecidableEq κ] (t : Threads κ CallPoint (SharedStore ν)) (a : κ × Bool) :
    Option (Threads κ CallPoint (SharedStore ν)) :=
  Threads.step (sourceOperation inner calls) t a

end Calls

/-! ## Keys -/

theorem numbered_toList (front number : String) :
    (front ++ ".v" ++ number).toList = front.toList ++ '.' :: 'v' :: number.toList := by
  simp [String.toList_append]

theorem pointed_toList (front : String) :
    (front ++ ".latest").toList = front.toList ++ '.' :: "latest".toList := by
  simp [String.toList_append]

theorem versionKey_toList (id : String) (version : Nat) : (versionKey id version).toList =
    ("h2ai.constraints." ++ id).toList ++ '.' :: 'v' :: Nat.toDigits 10 version := by
  rw [← Nat.toList_repr]
  exact numbered_toList _ _

theorem latestKey_toList (id : String) : (latestKey id).toList =
    ("h2ai.constraints." ++ id).toList ++ '.' :: "latest".toList :=
  pointed_toList _

theorem dot_not_mem_digits (version : Nat) : '.' ∉ 'v' :: Nat.toDigits 10 version := by
  intro hmem
  rcases List.mem_cons.mp hmem with heq | hdigit
  · exact absurd heq (by decide)
  · have := Nat.isDigit_of_mem_toDigits (by decide) (by decide) hdigit
    exact absurd this (by decide)

theorem versionKey_eq_iff {id id' : String} {version version' : Nat} :
    versionKey id version = versionKey id' version' ↔ id = id' ∧ version = version' := by
  constructor
  · intro h
    have hlists := congrArg String.toList h
    rw [versionKey_toList, versionKey_toList] at hlists
    obtain ⟨hfront, hdigits⟩ := last_separator_unique (dot_not_mem_digits version)
      (dot_not_mem_digits version') hlists
    rw [String.toList_append, String.toList_append, List.append_cancel_left_eq] at hfront
    refine ⟨String.toList_inj.mp hfront, ?_⟩
    have hnumber := congrArg (Nat.ofDigitChars 10 · 0) (List.cons.inj hdigits).2
    simpa using hnumber
  · rintro ⟨rfl, rfl⟩
    rfl

theorem latestKey_ne_versionKey (id id' : String) (version : Nat) :
    latestKey id ≠ versionKey id' version := by
  intro h
  have hlists := congrArg String.toList h
  rw [latestKey_toList, versionKey_toList] at hlists
  obtain ⟨-, htail⟩ := last_separator_unique (by decide) (dot_not_mem_digits version) hlists
  exact absurd (List.cons.inj htail).1 (by decide)

theorem enclosed_eq_iff (front back id id' : String) :
    front ++ id ++ back = front ++ id' ++ back ↔ id = id' := by
  rw [← String.toList_inj, ← String.toList_inj]
  simp only [String.toList_append, List.append_cancel_right_eq, List.append_cancel_left_eq]

theorem latestKey_eq_iff {id id' : String} : latestKey id = latestKey id' ↔ id = id' :=
  enclosed_eq_iff _ _ id id'

namespace VersionBucket

variable (kv : VersionBucket)

@[simp] theorem latest_put_version (id id' : String) (version : Nat) (value : StoredValue) :
    latest (kv.put (versionKey id version) value) id' = kv.latest id' := by
  simp [latest, put, latestKey_ne_versionKey]

theorem latest_put_latest (id id' : String) (version : Nat) :
    latest (kv.put (latestKey id) (.pointer version)) id' =
      if id' = id then some version else kv.latest id' := by
  by_cases hid : id' = id
  · simp [latest, put, hid]
  · have hkey : latestKey id' ≠ latestKey id := fun h => hid (latestKey_eq_iff.mp h)
    simp [latest, put, hid, hkey]

theorem entry_put_version (id id' : String) (version version' : Nat) (stored : VersionedSpec) :
    entry (kv.put (versionKey id version) (.version stored)) id' version' =
      if id' = id ∧ version' = version then some stored else kv.entry id' version' := by
  by_cases hsame : id' = id ∧ version' = version
  · simp [entry, put, hsame]
  · have hkey : versionKey id' version' ≠ versionKey id version :=
      fun h => hsame (versionKey_eq_iff.mp h)
    simp [entry, put, hsame, hkey]

@[simp] theorem entry_put_latest (id id' : String) (version : Nat) (value : StoredValue) :
    entry (kv.put (latestKey id) value) id' version = kv.entry id' version := by
  simp [entry, put, (latestKey_ne_versionKey id id' version).symm]

end VersionBucket

end ControlPlane.Source.Constraints
