import ControlPlane.Source.Engine.SpecRepair

/-!
# Spec repair over a shared source

`SpecRepairAdvisor::run` of `crates/h2ai-autonomic/src/spec_repair.rs` over any
`VersionedConstraintSource` (`crates/h2ai-constraints/src/versioned.rs`). Between its
calls on the source other writers may do anything to it. Over the in-memory source and
without other writers this is `advisorRun`.
-/
namespace ControlPlane.Source.Engine

open Constraints Config

/-- The trait `VersionedConstraintSource`, with the spec that a version of an id stands
for: what is loaded stands for its version, a version that is created stands for the spec
that was written, and a refused call creates none. -/
structure VersionedConstraintSource (σ : Type) where
  loadLatestVersioned : σ → String → Option SemanticSpec × σ
  createNextVersion : σ → String → Nat → SemanticSpec → RepairProvenance → Option Nat × σ
  specAt : σ → String → Nat → Option SemanticSpec
  loaded : ∀ {s id spec s'}, loadLatestVersioned s id = (some spec, s') →
    specAt s' id spec.version = some spec
  created : ∀ {s id expected spec provenance version s'},
    createNextVersion s id expected spec provenance = (some version, s') →
    ∃ stored, specAt s' id version = some stored ∧ stored.rubric = spec.rubric
  refused : ∀ {s id expected spec provenance s'},
    createNextVersion s id expected spec provenance = (none, s') → s' = s

/-- A run of the advisor: its own calls of `create_next_version` with the states in front
of them and behind them, and the state in which it returns. -/
structure RepairTrace (σ : Type) where
  outcome : RepairOutcome
  creates : List (σ × σ)
  final : σ

section Shared

variable {σ : Type} (source : VersionedConstraintSource σ) (between : Nat → σ → σ)
  (input : RepairInput)

/-- The write, retried once; `between n` is what others do in front of the call `n` on
the source. -/
def sharedWrite (spec : SemanticSpec) (provenance : RepairProvenance) (rewrite : String)
    (bestScore : ℚ) (s : σ) : RepairTrace σ :=
  let s := between 1 s
  let first := source.createNextVersion s input.constraintId input.currentVersion spec provenance
  match first.1 with
  | some version => ⟨.repaired version rewrite, [(s, first.2)], first.2⟩
  | none =>
      let reload := source.loadLatestVersioned (between 2 first.2) input.constraintId
      match reload.1 with
      | none => ⟨.failed bestScore, [(s, first.2)], reload.2⟩
      | some fresh =>
          if input.currentVersion < fresh.version then
            ⟨.repaired fresh.version rewrite, [(s, first.2)], reload.2⟩
          else
            let s' := between 3 reload.2
            let second :=
              source.createNextVersion s' input.constraintId fresh.version spec provenance
            match second.1 with
            | some version =>
                ⟨.repaired version rewrite, [(s, first.2), (s', second.2)], second.2⟩
            | none => ⟨.failed bestScore, [(s, first.2), (s', second.2)], second.2⟩

/-- The rewrite that the probe accepts, or the score that falls short. -/
def acceptedRewrite (cfg : GapK1Config) (answers : RepairAnswers) : Except ℚ (String × ℚ) :=
  let candidates := generateCandidates cfg answers
  if candidates.isEmpty then .error 0
  else
    let best := probeCandidates answers.consistency 0 candidates (0, none)
    if best.1 < cfg.repairAcceptanceThreshold then .error best.1
    else
      match best.2 with
      | none => .error best.1
      | some rewrite => .ok (rewrite, best.1)

/-- The spec with the check rewritten. -/
def rewriteCheck (spec : SemanticSpec) (checkIndex : Nat) (rewrite : String) : SemanticSpec :=
  { spec with rubric := { spec.rubric with checks := spec.rubric.checks.set checkIndex rewrite } }

/-- `SpecRepairAdvisor::run`. -/
def sharedRun (cfg : GapK1Config) (answers : RepairAnswers) (s : σ) : RepairTrace σ :=
  match acceptedRewrite cfg answers with
  | .error bestScore => ⟨.failed bestScore, [], s⟩
  | .ok (rewrite, bestScore) =>
      let load := source.loadLatestVersioned (between 0 s) input.constraintId
      match load.1 with
      | none => ⟨.failed bestScore, [], load.2⟩
      | some spec =>
          if input.checkIndex < spec.rubric.checks.length then
            sharedWrite source between input (rewriteCheck spec input.checkIndex rewrite)
              (repairProvenance input answers.nowMs rewrite bestScore) rewrite bestScore load.2
          else ⟨.failed bestScore, [], load.2⟩

end Shared

/-! ## The in-memory source -/

/-- The spec of a version in memory: the newest override of that version, else the spec of
the inner source. -/
def VersionedSource.specAt (source : VersionedSource) (id : String) (version : Nat) :
    Option SemanticSpec :=
  ((source.overrides.find? fun e => decide (e.1 = id ∧ e.2.version = version)).map (·.2)).or
    (source.specs.find? fun s => decide (s.id = id ∧ s.version = version))

/-- A stricter search finds the same element, if it takes it. -/
theorem find?_stricter {α : Type} {p q : α → Bool} {l : List α} {a : α}
    (found : l.find? p = some a) (takes : q a = true) (stricter : ∀ x, q x = true → p x = true) :
    l.find? q = some a := by
  induction l with
  | nil => cases found
  | cons x rest ih =>
      cases hx : p x with
      | true =>
          rw [List.find?_cons_of_pos hx] at found
          rw [Option.some.inj found]
          exact List.find?_cons_of_pos takes
      | false =>
          rw [List.find?_cons_of_neg (by simp [hx])] at found
          have hq : ¬ q x = true := by
            intro hqx
            rw [stricter x hqx] at hx
            cases hx
          rw [List.find?_cons_of_neg hq]
          exact ih found

theorem find?_override {overrides : List (String × SemanticSpec)} {id : String}
    {spec : SemanticSpec} (h : overrides.lookup id = some spec) :
    overrides.find? (fun e => decide (e.1 = id ∧ e.2.version = spec.version)) =
      some (id, spec) := by
  induction overrides with
  | nil => cases h
  | cons e rest ih =>
      obtain ⟨key, stored⟩ := e
      by_cases hid : id = key
      · subst hid
        have hspec : stored = spec := by simpa using h
        simp [hspec]
      · have hkey : (id == key) = false := by simpa using hid
        have hrest : rest.lookup id = some spec := by
          rwa [List.lookup_cons, hkey] at h
        have hne : key ≠ id := fun heq => hid heq.symm
        rw [List.find?_cons_of_neg (by simp [hne])]
        exact ih hrest

theorem VersionedSource.specAt_loadLatest {source : VersionedSource} {id : String}
    {spec : SemanticSpec} (h : source.loadLatest id = some spec) :
    source.specAt id spec.version = some spec := by
  unfold VersionedSource.loadLatest at h
  unfold VersionedSource.specAt
  cases hoverride : source.overrides.lookup id with
  | some stored =>
      have hspec : stored = spec := by simpa [hoverride] using h
      rw [hspec] at hoverride
      rw [find?_override hoverride]
      rfl
  | none =>
      rw [hoverride, Option.none_or] at h
      have hnone : source.overrides.find?
          (fun e => decide (e.1 = id ∧ e.2.version = spec.version)) = none := by
        rw [List.find?_eq_none]
        intro e he hmatch
        have hid : e.1 = id := by
          simp only [decide_eq_true_eq] at hmatch
          exact hmatch.1
        have hfalse := List.lookup_eq_none_iff.mp hoverride e he
        simp [hid] at hfalse
      have htakes : decide (spec.id = id ∧ spec.version = spec.version) = true := by
        simpa using List.find?_some h
      rw [hnone]
      exact find?_stricter h htakes fun s hs => by
        simp only [decide_eq_true_eq] at hs ⊢
        exact hs.1

/-- What a write in memory leaves. -/
theorem createNextVersion_eq_some {source next : VersionedSource} {id : String}
    {expected version : Nat} {spec : SemanticSpec} {provenance : RepairProvenance}
    (h : source.createNextVersion id expected spec provenance = some (version, next)) :
    version = expected + 1 ∧ next = { source with
      overrides := (id, { spec with version := version, repairProvenance := some provenance }) ::
        source.overrides } := by
  unfold VersionedSource.createNextVersion at h
  dsimp only at h
  split at h
  · cases h
    exact ⟨rfl, rfl⟩
  · cases h

/-- `create_next_version` as a call that always answers. -/
def VersionedSource.create (source : VersionedSource) (id : String) (expected : Nat)
    (spec : SemanticSpec) (provenance : RepairProvenance) : Option Nat × VersionedSource :=
  match source.createNextVersion id expected spec provenance with
  | some (version, next) => (some version, next)
  | none => (none, source)

/-- `NatsVersionedSource` without a KV store is a versioned source. -/
def inMemorySource : VersionedConstraintSource VersionedSource where
  loadLatestVersioned source id := (source.loadLatest id, source)
  createNextVersion := VersionedSource.create
  specAt := VersionedSource.specAt
  loaded := by
    intro s id spec s' h
    obtain ⟨hload, rfl⟩ := Prod.mk.inj h
    exact VersionedSource.specAt_loadLatest hload
  created := by
    intro s id expected spec provenance version s' h
    unfold VersionedSource.create at h
    split at h
    · rename_i written next hcreate
      obtain ⟨hversion, rfl⟩ := Prod.mk.inj h
      obtain ⟨-, rfl⟩ := createNextVersion_eq_some hcreate
      rw [Option.some.inj hversion]
      refine ⟨{ spec with version := version, repairProvenance := some provenance }, ?_, rfl⟩
      simp [VersionedSource.specAt]
    · cases h
  refused := by
    intro s id expected spec provenance s' h
    unfold VersionedSource.create at h
    split at h
    · cases h
    · exact (Prod.mk.inj h).2.symm

/-- Alone on an in-memory source the advisor runs as `advisorRun` says. -/
theorem sharedRun_alone (cfg : GapK1Config) (input : RepairInput) (answers : RepairAnswers)
    (source : VersionedSource) :
    ((sharedRun inMemorySource (fun _ => id) input cfg answers source).outcome,
        (sharedRun inMemorySource (fun _ => id) input cfg answers source).final) =
      advisorRun cfg input source answers := by
  have hwrite : ∀ spec provenance rewrite bestScore,
      ((sharedWrite inMemorySource (fun _ => id) input spec provenance rewrite bestScore
          source).outcome,
        (sharedWrite inMemorySource (fun _ => id) input spec provenance rewrite bestScore
          source).final) = writeRepair source input spec provenance rewrite bestScore := by
    intro spec provenance rewrite bestScore
    unfold sharedWrite writeRepair inMemorySource VersionedSource.create
    dsimp only [id]
    cases source.createNextVersion input.constraintId input.currentVersion spec provenance with
    | some written => rfl
    | none =>
        dsimp only
        cases source.loadLatest input.constraintId with
        | none => rfl
        | some fresh =>
            dsimp only
            split
            · rfl
            · cases source.createNextVersion input.constraintId fresh.version spec provenance with
              | some written => rfl
              | none => rfl
  unfold sharedRun advisorRun acceptedRewrite
  dsimp only
  cases (generateCandidates cfg answers).isEmpty with
  | true => rfl
  | false =>
      generalize probeCandidates answers.consistency 0 (generateCandidates cfg answers)
        (0, none) = best
      obtain ⟨score, candidate⟩ := best
      simp only [Bool.false_eq_true, ↓reduceIte]
      by_cases hscore : score < cfg.repairAcceptanceThreshold
      · simp only [hscore, ↓reduceIte]
      · simp only [hscore, ↓reduceIte]
        cases candidate with
        | none => rfl
        | some rewrite =>
            have hload : inMemorySource.loadLatestVersioned (id source) input.constraintId =
                (source.loadLatest input.constraintId, source) := rfl
            simp only [hload]
            cases source.loadLatest input.constraintId with
            | none => rfl
            | some spec =>
                by_cases hindex : input.checkIndex < spec.rubric.checks.length
                · simp only [hindex, ↓reduceIte]
                  exact hwrite _ _ rewrite score
                · simp only [hindex, ↓reduceIte]

end ControlPlane.Source.Engine
