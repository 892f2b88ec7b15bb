import ControlPlane.Source.Constraints.VersionStore
import Mathlib.Data.Fintype.Basic

/-!
# Linear constraint versions

Each version of a constraint should be created once, stand in the bucket as it was
created, and the latest pointer should only move forward. The compare-and-set of
`create_next_version` looks at the override map of its own node, and both puts behind it
are unconditional. So this holds in the interleavings in which creates of a constraint
pass their check at its newest version and move the pointer in their order.
-/
namespace ControlPlane.Guarantees.VersionLinearity

open Lib Source.Constraints

variable {ν κ : Type} {calls : κ → SourceCall ν}

/-! ## Statement -/

/-- The call creates the version of `id` behind `v`. -/
def CreatesBehind (calls : κ → SourceCall ν) (id : String) (v : Nat) (k : κ) : Prop :=
  ∃ node spec provenance, calls k = .createNext node id v spec provenance

/-- Versions that were returned are created once and stand in the bucket. -/
structure LinearStore (calls : κ → SourceCall ν) (t : Threads κ CallPoint (SharedStore ν)) :
    Prop where
  once : ∀ id v k k', CreatesBehind calls id v k → CreatesBehind calls id v k' →
    t.locals k = .created → t.locals k' = .created → k = k'
  stored : ∀ k node id v spec provenance, calls k = .createNext node id v spec provenance →
    t.locals k = .created → t.shared.kv.entry id (v + 1) = some (nextEntry v spec provenance)

/-- The latest pointer of every constraint stays or moves forward. -/
def PointerKept (t t' : Threads κ CallPoint (SharedStore ν)) : Prop :=
  ∀ id n, t.shared.kv.latest id = some n → ∃ n', t'.shared.kv.latest id = some n' ∧ n ≤ n'

/-- The call has passed its check and still has a put to do. -/
def Writing (point : CallPoint) : Prop := point = .putVersion ∨ point = .putLatest

/-- The call has passed its check. -/
def Passed (point : CallPoint) : Prop := Writing point ∨ point = .created

instance (point : CallPoint) : Decidable (Writing point) :=
  inferInstanceAs (Decidable (point = .putVersion ∨ point = .putLatest))

instance (point : CallPoint) : Decidable (Passed point) :=
  inferInstanceAs (Decidable (Writing point ∨ point = .created))

/-- A create passes its check at the newest version of its constraint only, the bucket
answers both of its puts, and no older version of the constraint is still being written
when it moves the pointer. -/
structure InOrder [DecidableEq ν] (inner : String → Option SemanticSpec) (calls : κ → SourceCall ν)
    (t : Threads κ CallPoint (SharedStore ν)) (a : κ × Bool) : Prop where
  newest : ∀ node id v spec provenance, calls a.1 = .createNext node id v spec provenance →
    t.locals a.1 = .start → t.shared.currentVersion inner node id = v →
    v + 1 < 2 ^ 64 ∧ (∀ n ∈ t.shared.kv.latest id, n ≤ v) ∧
      ∀ k' v', CreatesBehind calls id v' k' → Passed (t.locals k') → v' < v
  answered : Writing (t.locals a.1) → a.2 = true
  inTurn : ∀ id v, CreatesBehind calls id v a.1 → t.locals a.1 = .putLatest →
    ∀ k' v', CreatesBehind calls id v' k' → Writing (t.locals k') → v ≤ v'

/-! ## Claimed versions -/

/-- A create past its first put has passed its check. -/
theorem passed_of_put {point : CallPoint} (h : point = .putLatest ∨ point = .created) :
    Passed point := by
  rcases h with hput | hdone
  · exact Or.inl (Or.inr hput)
  · exact Or.inr hdone

/-- An operation of a create that had passed its check lets no other one pass. -/
theorem passed_before {t t' : Threads κ CallPoint (SharedStore ν)} {k : κ}
    (passed : Passed (t.locals k)) (others : ∀ k', k' ≠ k → t'.locals k' = t.locals k') (k' : κ)
    (h : Passed (t'.locals k')) : Passed (t.locals k') := by
  by_cases hk : k' = k
  · exact hk ▸ passed
  · exact others k' hk ▸ h

/-- A version is claimed by one create, stands in the bucket once it was put, and the
pointer is not past a version that is still being written. -/
structure Claimed (calls : κ → SourceCall ν) (t : Threads κ CallPoint (SharedStore ν)) :
    Prop where
  once : ∀ id v k k', CreatesBehind calls id v k → CreatesBehind calls id v k' →
    Passed (t.locals k) → Passed (t.locals k') → k = k'
  bounded : ∀ id v k, CreatesBehind calls id v k → Passed (t.locals k) → v + 1 < 2 ^ 64
  stored : ∀ k node id v spec provenance, calls k = .createNext node id v spec provenance →
    t.locals k = .putLatest ∨ t.locals k = .created →
    t.shared.kv.entry id (v + 1) = some (nextEntry v spec provenance)
  ahead : ∀ id v k, CreatesBehind calls id v k → Writing (t.locals k) →
    ∀ n ∈ t.shared.kv.latest id, n ≤ v + 1

theorem startedNodes_claimed (kv : VersionBucket) : Claimed calls (startedNodes kv) := by
  have hstart : ∀ k, ¬ Passed ((startedNodes kv : Threads κ CallPoint (SharedStore ν)).locals k) := by
    intro k
    simp [startedNodes, Passed, Writing]
  refine ⟨?_, ?_, ?_, ?_⟩
  · intro id v k k' _ _ hpassed
    exact absurd hpassed (hstart k)
  · intro id v k _ hpassed
    exact absurd hpassed (hstart k)
  · intro k node id v spec provenance _ hpoint
    exact absurd (passed_of_put hpoint) (hstart k)
  · intro id v k _ hwriting
    exact absurd (Or.inl hwriting) (hstart k)

/-- A version in range does not wrap around. -/
theorem nextEntry_version {v : Nat} (h : v + 1 < 2 ^ 64) (spec : SemanticSpec)
    (provenance : RepairProvenance) : (nextEntry v spec provenance).spec.version = v + 1 :=
  Nat.mod_eq_of_lt h

/-- An operation that touches neither bucket nor creates keeps the claims. -/
theorem Claimed.quiet {t t' : Threads κ CallPoint (SharedStore ν)} {k : κ}
    (claimed : Claimed calls t) (kv : t'.shared.kv = t.shared.kv)
    (others : ∀ k', k' ≠ k → t'.locals k' = t.locals k')
    (point : ∀ id v, CreatesBehind calls id v k →
      t'.locals k = t.locals k ∨ ¬ Passed (t'.locals k)) : Claimed calls t' := by
  have hkeeps : ∀ id v k', CreatesBehind calls id v k' → Passed (t'.locals k') →
      t'.locals k' = t.locals k' := by
    intro id v k' hcreate hpassed
    by_cases hk : k' = k
    · subst hk
      rcases point id v hcreate with hsame | hnot
      · exact hsame
      · exact absurd hpassed hnot
    · exact others k' hk
  refine ⟨?_, ?_, ?_, ?_⟩
  · intro id v k₁ k₂ hcreate₁ hcreate₂ hpassed₁ hpassed₂
    rw [hkeeps id v k₁ hcreate₁ hpassed₁] at hpassed₁
    rw [hkeeps id v k₂ hcreate₂ hpassed₂] at hpassed₂
    exact claimed.once id v k₁ k₂ hcreate₁ hcreate₂ hpassed₁ hpassed₂
  · intro id v k' hcreate hpassed
    rw [hkeeps id v k' hcreate hpassed] at hpassed
    exact claimed.bounded id v k' hcreate hpassed
  · intro k' node id v spec provenance hcall hpoint
    have hpassed : Passed (t'.locals k') := passed_of_put hpoint
    rw [hkeeps id v k' ⟨node, spec, provenance, hcall⟩ hpassed] at hpoint
    rw [kv]
    exact claimed.stored k' node id v spec provenance hcall hpoint
  · intro id v k' hcreate hwriting
    rw [hkeeps id v k' hcreate (Or.inl hwriting)] at hwriting
    rw [kv]
    exact claimed.ahead id v k' hcreate hwriting

theorem CreatesBehind.eq {k : κ} {node : ν} {id id' : String} {v v' : Nat} {spec : SemanticSpec}
    {provenance : RepairProvenance} (h : CreatesBehind calls id' v' k)
    (call : calls k = .createNext node id v spec provenance) : id' = id ∧ v' = v := by
  obtain ⟨node', spec', provenance', hcall⟩ := h
  rw [call] at hcall
  cases hcall
  exact ⟨rfl, rfl⟩

section Steps

variable {t t' : Threads κ CallPoint (SharedStore ν)} {k : κ} {node : ν} {id : String} {v : Nat}
  {spec : SemanticSpec} {provenance : RepairProvenance}

/-- A create that passes its check at the newest version claims the next one. -/
theorem Claimed.claims (claimed : Claimed calls t)
    (call : calls k = .createNext node id v spec provenance)
    (inRange : v + 1 < 2 ^ 64) (notBehind : ∀ n ∈ t.shared.kv.latest id, n ≤ v)
    (newest : ∀ k' v', CreatesBehind calls id v' k' → Passed (t.locals k') → v' < v)
    (kv : t'.shared.kv = t.shared.kv) (others : ∀ k', k' ≠ k → t'.locals k' = t.locals k')
    (point : t'.locals k = .putVersion) : Claimed calls t' := by
  have hnew : ∀ id' v' k', CreatesBehind calls id' v' k → CreatesBehind calls id' v' k' →
      Passed (t'.locals k') → k' = k := by
    intro id' v' k' hcreate hcreate' hpassed
    by_contra hk
    obtain ⟨rfl, rfl⟩ := hcreate.eq call
    rw [others k' hk] at hpassed
    exact absurd (newest k' v' hcreate' hpassed) (Nat.lt_irrefl v')
  refine ⟨?_, ?_, ?_, ?_⟩
  · intro id' v' k₁ k₂ hcreate₁ hcreate₂ hpassed₁ hpassed₂
    by_cases h₁ : k₁ = k
    · subst h₁
      exact (hnew id' v' k₂ hcreate₁ hcreate₂ hpassed₂).symm
    · by_cases h₂ : k₂ = k
      · subst h₂
        exact hnew id' v' k₁ hcreate₂ hcreate₁ hpassed₁
      · rw [others k₁ h₁] at hpassed₁
        rw [others k₂ h₂] at hpassed₂
        exact claimed.once id' v' k₁ k₂ hcreate₁ hcreate₂ hpassed₁ hpassed₂
  · intro id' v' k' hcreate hpassed
    by_cases hk : k' = k
    · subst hk
      obtain ⟨-, rfl⟩ := hcreate.eq call
      exact inRange
    · rw [others k' hk] at hpassed
      exact claimed.bounded id' v' k' hcreate hpassed
  · intro k' node' id' v' spec' provenance' hcall hpoint
    by_cases hk : k' = k
    · subst hk
      rw [point] at hpoint
      rcases hpoint with hpoint | hpoint <;> cases hpoint
    · rw [others k' hk] at hpoint
      rw [kv]
      exact claimed.stored k' node' id' v' spec' provenance' hcall hpoint
  · intro id' v' k' hcreate hwriting n hn
    rw [kv] at hn
    by_cases hk : k' = k
    · subst hk
      obtain ⟨rfl, rfl⟩ := hcreate.eq call
      have := notBehind n hn
      omega
    · rw [others k' hk] at hwriting
      exact claimed.ahead id' v' k' hcreate hwriting n hn

/-- The put of a claimed version overwrites no other create's. -/
theorem Claimed.writes (claimed : Claimed calls t)
    (call : calls k = .createNext node id v spec provenance) (before : t.locals k = .putVersion)
    (kv : t'.shared.kv = t.shared.kv.put (versionKey id (nextEntry v spec provenance).spec.version)
      (.version (nextEntry v spec provenance)))
    (others : ∀ k', k' ≠ k → t'.locals k' = t.locals k')
    (point : t'.locals k = .putLatest) : Claimed calls t' := by
  have hcreate : CreatesBehind calls id v k := ⟨node, spec, provenance, call⟩
  have hpassed : Passed (t.locals k) := Or.inl (Or.inl before)
  have hinRange := claimed.bounded id v k hcreate hpassed
  rw [nextEntry_version hinRange] at kv
  have hback := passed_before hpassed others
  refine ⟨?_, ?_, ?_, ?_⟩
  · intro id' v' k₁ k₂ hcreate₁ hcreate₂ hpassed₁ hpassed₂
    exact claimed.once id' v' k₁ k₂ hcreate₁ hcreate₂ (hback k₁ hpassed₁) (hback k₂ hpassed₂)
  · intro id' v' k' hcreate' hpassed'
    exact claimed.bounded id' v' k' hcreate' (hback k' hpassed')
  · intro k' node' id' v' spec' provenance' hcall hpoint
    rw [kv, VersionBucket.entry_put_version]
    by_cases hk : k' = k
    · subst hk
      rw [call] at hcall
      cases hcall
      exact if_pos ⟨rfl, rfl⟩
    · have hpoint' := others k' hk ▸ hpoint
      have hpassed' : Passed (t.locals k') := passed_of_put hpoint'
      have hother : ¬ (id' = id ∧ v' + 1 = v + 1) := by
        rintro ⟨rfl, hv⟩
        have hv' : v' = v := by omega
        subst hv'
        exact hk (claimed.once id' v' k' k ⟨node', spec', provenance', hcall⟩ hcreate hpassed'
          hpassed)
      rw [if_neg hother]
      exact claimed.stored k' node' id' v' spec' provenance' hcall hpoint'
  · intro id' v' k' hcreate' hwriting n hn
    rw [kv, VersionBucket.latest_put_version] at hn
    have hwriting' : Writing (t.locals k') := by
      by_cases hk : k' = k
      · exact hk ▸ Or.inl before
      · exact others k' hk ▸ hwriting
    exact claimed.ahead id' v' k' hcreate' hwriting' n hn

/-- The pointer moves to a version that no version still being written is behind. -/
theorem Claimed.points (claimed : Claimed calls t)
    (call : calls k = .createNext node id v spec provenance) (before : t.locals k = .putLatest)
    (inTurn : ∀ k' v', CreatesBehind calls id v' k' → Writing (t.locals k') → v ≤ v')
    (kv : t'.shared.kv = t.shared.kv.put (latestKey id)
      (.pointer (nextEntry v spec provenance).spec.version))
    (others : ∀ k', k' ≠ k → t'.locals k' = t.locals k')
    (point : t'.locals k = .created) : Claimed calls t' := by
  have hcreate : CreatesBehind calls id v k := ⟨node, spec, provenance, call⟩
  have hpassed : Passed (t.locals k) := Or.inl (Or.inr before)
  rw [nextEntry_version (claimed.bounded id v k hcreate hpassed)] at kv
  have hback := passed_before hpassed others
  refine ⟨?_, ?_, ?_, ?_⟩
  · intro id' v' k₁ k₂ hcreate₁ hcreate₂ hpassed₁ hpassed₂
    exact claimed.once id' v' k₁ k₂ hcreate₁ hcreate₂ (hback k₁ hpassed₁) (hback k₂ hpassed₂)
  · intro id' v' k' hcreate' hpassed'
    exact claimed.bounded id' v' k' hcreate' (hback k' hpassed')
  · intro k' node' id' v' spec' provenance' hcall hpoint
    rw [kv, VersionBucket.entry_put_latest]
    by_cases hk : k' = k
    · exact claimed.stored k' node' id' v' spec' provenance' hcall (hk ▸ Or.inl before)
    · exact claimed.stored k' node' id' v' spec' provenance' hcall (others k' hk ▸ hpoint)
  · intro id' v' k' hcreate' hwriting n hn
    have hk : k' ≠ k := by
      rintro rfl
      rw [point] at hwriting
      rcases hwriting with h | h <;> cases h
    rw [others k' hk] at hwriting
    rw [kv, VersionBucket.latest_put_latest] at hn
    split at hn
    · rename_i hid
      subst hid
      have hle := inTurn k' v' hcreate' hwriting
      have hn' : n = v + 1 := (Option.mem_some_iff.mp hn).symm
      omega
    · exact claimed.ahead id' v' k' hcreate' hwriting n hn

end Steps

/-! ## What an operation does -/

variable [DecidableEq ν] {inner : String → Option SemanticSpec}

/-- Everything an operation of call `k` can do to the bucket and to the creates. -/
inductive Operation (inner : String → Option SemanticSpec) (calls : κ → SourceCall ν)
    (t : Threads κ CallPoint (SharedStore ν)) (k : κ) (t' : Threads κ CallPoint (SharedStore ν)) :
    Prop where
  | quiet (kv : t'.shared.kv = t.shared.kv)
      (point : ∀ id v, CreatesBehind calls id v k →
        t'.locals k = t.locals k ∨ ¬ Passed (t'.locals k))
  | claims {node id v spec provenance} (call : calls k = .createNext node id v spec provenance)
      (start : t.locals k = .start) (current : t.shared.currentVersion inner node id = v)
      (kv : t'.shared.kv = t.shared.kv) (point : t'.locals k = .putVersion)
  | writes {node id v spec provenance} (call : calls k = .createNext node id v spec provenance)
      (before : t.locals k = .putVersion)
      (kv : t'.shared.kv = t.shared.kv.put (versionKey id (nextEntry v spec provenance).spec.version)
        (.version (nextEntry v spec provenance)))
      (point : t'.locals k = .putLatest)
  | points {node id v spec provenance} (call : calls k = .createNext node id v spec provenance)
      (before : t.locals k = .putLatest)
      (kv : t'.shared.kv = t.shared.kv.put (latestKey id)
        (.pointer (nextEntry v spec provenance).spec.version))
      (point : t'.locals k = .created)

theorem loadOperation_kv (node : ν) (id : String) (answered : Bool) (point : CallPoint)
    (s : SharedStore ν) : (loadOperation inner node id answered point s).2.kv = s.kv := by
  unfold loadOperation
  split
  · split <;> rfl
  · split <;> rfl
  · split <;> rfl
  · rfl
  · rfl

variable [DecidableEq κ]

theorem operation_of_answered {t : Threads κ CallPoint (SharedStore ν)} {k : κ} {answered : Bool}
    (h : Writing (t.locals k) → answered = true) :
    Operation inner calls t k (Threads.act (sourceOperation inner calls) t (k, answered)) := by
  cases hcall : calls k with
  | loadLatest node id =>
      refine .quiet ?_ ?_
      · simp [sourceOperation, hcall, loadOperation_kv]
      · rintro id' v ⟨node', spec, provenance, hcreate⟩
        rw [hcall] at hcreate
        cases hcreate
  | createNext node id v spec provenance =>
      cases hpoint : t.locals k with
      | start =>
          by_cases hcurrent : t.shared.currentVersion inner node id = v
          · refine .claims hcall hpoint hcurrent ?_ ?_
            · simp [sourceOperation, hcall, hpoint, createOperation, hcurrent,
                SharedStore.setOverride]
            · simp [sourceOperation, hcall, hpoint, createOperation, hcurrent]
          · refine .quiet ?_ ?_
            · simp [sourceOperation, hcall, hpoint, createOperation, hcurrent]
            · intro id' v' _
              refine Or.inr ?_
              simp [sourceOperation, hcall, hpoint, createOperation, hcurrent, Passed, Writing]
      | putVersion =>
          have hanswered := h (Or.inl hpoint)
          refine .writes hcall hpoint ?_ ?_
          · simp [sourceOperation, hcall, hpoint, createOperation, hanswered]
          · simp [sourceOperation, hcall, hpoint, createOperation]
      | putLatest =>
          have hanswered := h (Or.inr hpoint)
          refine .points hcall hpoint ?_ ?_
          · simp [sourceOperation, hcall, hpoint, createOperation, hanswered]
          · simp [sourceOperation, hcall, hpoint, createOperation]
      | _ =>
          refine .quiet ?_ ?_
          · simp [sourceOperation, hcall, hpoint, createOperation]
          · intro id' v' _
            refine Or.inl ?_
            simp [sourceOperation, hcall, hpoint, createOperation]

/-! ## Runs -/

theorem Claimed.step {t t' : Threads κ CallPoint (SharedStore ν)} {a : κ × Bool}
    (claimed : Claimed calls t) (inOrder : InOrder inner calls t a)
    (step : sourceStep inner calls t a = some t') :
    Claimed calls t' ∧ PointerKept t t' := by
  obtain ⟨k, answered⟩ := a
  have ht' : t' = Threads.act (sourceOperation inner calls) t (k, answered) :=
    (Option.some.inj step).symm
  have hothers : ∀ k', k' ≠ k → t'.locals k' = t.locals k' := by
    intro k' hk
    rw [ht', Threads.act_other _ _ _ _ hk]
  have hkept : (∀ id, t'.shared.kv.latest id = t.shared.kv.latest id) → PointerKept t t' := by
    intro hsame id n hn
    exact ⟨n, (hsame id).trans hn, le_rfl⟩
  have hoperation := @operation_of_answered _ _ calls _ inner _ t k answered inOrder.answered
  rw [← ht'] at hoperation
  cases hoperation with
  | quiet kv point =>
      exact ⟨claimed.quiet kv hothers point, hkept fun id => by rw [kv]⟩
  | claims call start current kv point =>
      obtain ⟨hinRange, hnotBehind, hnewest⟩ := inOrder.newest _ _ _ _ _ call start current
      exact ⟨claimed.claims call hinRange hnotBehind hnewest kv hothers point,
        hkept fun id => by rw [kv]⟩
  | writes call before kv point =>
      refine ⟨claimed.writes call before kv hothers point, hkept ?_⟩
      intro id
      rw [kv, VersionBucket.latest_put_version]
  | @points node id v spec provenance call before kv point =>
      have hcreate : CreatesBehind calls id v k := ⟨node, spec, provenance, call⟩
      have hwriting : Writing (t.locals k) := Or.inr before
      have hinRange := claimed.bounded id v k hcreate (Or.inl hwriting)
      refine ⟨claimed.points call before (inOrder.inTurn id v hcreate before) kv hothers point, ?_⟩
      intro id' n hn
      rw [kv, VersionBucket.latest_put_latest]
      split
      · rename_i hid
        subst hid
        refine ⟨_, rfl, ?_⟩
        rw [nextEntry_version hinRange]
        exact claimed.ahead id' v k hcreate hwriting n hn
      · exact ⟨n, hn, le_rfl⟩

/-- For any nodes, calls, inner source and bucket: in every interleaving whose operations
are in order, each step leaves versions that were created once and stand in the bucket,
and takes no latest pointer back. -/
theorem versions_linear (inner : String → Option SemanticSpec) (calls : κ → SourceCall ν)
    (kv : VersionBucket) (operations : List (κ × Bool))
    (inOrder : RunMeets (sourceStep inner calls) (InOrder inner calls) (startedNodes kv)
      operations) :
    EveryStep (sourceStep inner calls) (fun t t' => LinearStore calls t' ∧ PointerKept t t')
      (startedNodes kv) operations := by
  refine runMeets_everyStep (I := Claimed calls) ?_ ?_ (startedNodes_claimed kv) inOrder
  · intro t a t' claimed condition hstep
    exact (claimed.step condition hstep).1
  · intro t a t' claimed condition hstep
    obtain ⟨hclaimed, hkept⟩ := claimed.step condition hstep
    refine ⟨⟨?_, ?_⟩, hkept⟩
    · intro id v k k' hcreate hcreate' hdone hdone'
      exact hclaimed.once id v k k' hcreate hcreate' (Or.inr hdone) (Or.inr hdone')
    · intro k node id v spec provenance hcall hdone
      exact hclaimed.stored k node id v spec provenance hcall (Or.inr hdone)

/-! ## Checking the order -/

/-- The constraint and the version that a create works on. -/
def baseOf : SourceCall ν → Option (String × Nat)
  | .loadLatest _ _ => none
  | .createNext _ id v _ _ => some (id, v)

omit [DecidableEq ν] [DecidableEq κ] in
theorem createsBehind_iff {id : String} {v : Nat} {k : κ} :
    CreatesBehind calls id v k ↔ baseOf (calls k) = some (id, v) := by
  constructor
  · rintro ⟨node, spec, provenance, hcall⟩
    rw [hcall]
    rfl
  · intro h
    cases hcall : calls k with
    | loadLatest node id' =>
        rw [hcall] at h
        cases h
    | createNext node id' v' spec provenance =>
        rw [hcall] at h
        cases h
        exact ⟨node, spec, provenance, hcall⟩

/-- `InOrder` for one call, computed. -/
def InOrderCheck (inner : String → Option SemanticSpec) (calls : κ → SourceCall ν)
    (t : Threads κ CallPoint (SharedStore ν)) (a : κ × Bool) : Prop :=
  (Writing (t.locals a.1) → a.2 = true) ∧
    match calls a.1 with
    | .loadLatest _ _ => True
    | .createNext node id v _ _ =>
        (t.locals a.1 = .start → t.shared.currentVersion inner node id = v →
          v + 1 < 2 ^ 64 ∧ (∀ n ∈ t.shared.kv.latest id, n ≤ v) ∧
            ∀ k', ∀ base ∈ baseOf (calls k'), base.1 = id → Passed (t.locals k') → base.2 < v) ∧
        (t.locals a.1 = .putLatest →
          ∀ k', ∀ base ∈ baseOf (calls k'), base.1 = id → Writing (t.locals k') → v ≤ base.2)

instance [Fintype κ] (inner : String → Option SemanticSpec) (calls : κ → SourceCall ν)
    (t : Threads κ CallPoint (SharedStore ν)) (a : κ × Bool) :
    Decidable (InOrderCheck inner calls t a) := by
  unfold InOrderCheck
  cases calls a.1 <;> exact inferInstance

omit [DecidableEq κ] in
theorem inOrder_of_check {t : Threads κ CallPoint (SharedStore ν)} {a : κ × Bool}
    (h : InOrderCheck inner calls t a) : InOrder inner calls t a := by
  obtain ⟨hanswered, hcreate⟩ := h
  refine ⟨?_, hanswered, ?_⟩
  · intro node id v spec provenance hcall hstart hcurrent
    rw [hcall] at hcreate
    obtain ⟨hinRange, hnotBehind, hnewest⟩ := hcreate.1 hstart hcurrent
    refine ⟨hinRange, hnotBehind, ?_⟩
    intro k' v' hbehind hpassed
    exact hnewest k' (id, v') (createsBehind_iff.mp hbehind) rfl hpassed
  · rintro id v ⟨node, spec, provenance, hcall⟩ hpoint k' v' hbehind hwriting
    rw [hcall] at hcreate
    exact hcreate.2 hpoint k' (id, v') (createsBehind_iff.mp hbehind) rfl hwriting

/-! ## Two nodes -/

section Example

def sessionSpec : SemanticSpec :=
  { id := "C-SESSION"
    title := "stateless sessions"
    sourceFile := "C-SESSION.yaml"
    severity := .hard (1 / 2)
    domains := []
    mandatoryForTags := []
    relatedTo := []
    remediationHint := none
    exclusions := []
    requirements := []
    orderings := []
    rubric := ⟨"stateless sessions", none, "", ["names the token"], [], [], []⟩
    version := 1
    repairProvenance := none }

def sessionProvenance : RepairProvenance :=
  { triggeredByTask := "task"
    triggeredAtMs := 0
    instabilityScore := 1
    originalCheckIndex := 0
    originalCheckText := "names the token"
    simplifiedCheckText := "names the signed token"
    validationConsistency := 1 }

def sessionInner (id : String) : Option SemanticSpec :=
  if id = "C-SESSION" then some sessionSpec else none

/-- The first node creates version 2; the second node loads it and creates version 3. -/
def handedOver : Fin 3 → SourceCall Bool
  | 0 => .createNext false "C-SESSION" 1 sessionSpec sessionProvenance
  | 1 => .loadLatest true "C-SESSION"
  | 2 => .createNext true "C-SESSION" 2 sessionSpec sessionProvenance

def handOver : List (Fin 3 × Bool) :=
  [(0, true), (0, true), (0, true), (1, true), (1, true), (1, true), (1, true),
    (2, true), (2, true), (2, true)]

/-- Handing a constraint over keeps the order, and so its versions are linear. -/
theorem handOver_linear :
    RunMeets (sourceStep sessionInner handedOver) (InOrder sessionInner handedOver)
        (startedNodes fun _ => none) handOver ∧
      EveryStep (sourceStep sessionInner handedOver)
        (fun t t' => LinearStore handedOver t' ∧ PointerKept t t') (startedNodes fun _ => none)
        handOver ∧
      (runActions (sourceStep sessionInner handedOver) (startedNodes fun _ => none) handOver).map
        (fun t => t.shared.kv.latest "C-SESSION") = some (some 3) := by
  have hmeets : RunMeets (sourceStep sessionInner handedOver) (InOrder sessionInner handedOver)
      (startedNodes fun _ => none) handOver := by
    refine RunMeets.imp (fun _ _ => inOrder_of_check) ?_
    decide +kernel
  exact ⟨hmeets, versions_linear _ _ _ _ hmeets, by decide +kernel⟩

/-- Each node creates version 2. -/
def bothCreate (node : Bool) : SourceCall Bool :=
  .createNext node "C-SESSION" 1 sessionSpec
    { sessionProvenance with triggeredByTask := if node then "other task" else "task" }

/-- Both checks are made on maps of their own, then the writes of the first node are
followed by those of the second. -/
def race : List (Bool × Bool) :=
  [(false, true), (true, true), (false, true), (false, true), (true, true), (true, true)]

/-- Both nodes return version 2, and the entry of the first is gone. -/
theorem version_created_twice :
    (runActions (sourceStep sessionInner bothCreate) (startedNodes fun _ => none) race).any
        (fun t => decide (t.locals false = .created ∧ t.locals true = .created ∧
          (t.shared.kv.entry "C-SESSION" 2).map (fun e => e.provenance.map (·.triggeredByTask)) =
            some (some "other task"))) = true ∧
      ¬ EveryStep (sourceStep sessionInner bothCreate)
        (fun t t' => LinearStore bothCreate t' ∧ PointerKept t t') (startedNodes fun _ => none)
        race := by
  refine ⟨by decide +kernel, ?_⟩
  rintro ⟨-, -, -, -, -, ⟨linear, -⟩, -⟩
  have hsame := linear.once "C-SESSION" 1 false true ⟨_, _, _, rfl⟩ ⟨_, _, _, rfl⟩ rfl rfl
  exact absurd hsame (by decide)

end Example

end ControlPlane.Guarantees.VersionLinearity
