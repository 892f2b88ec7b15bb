import ControlPlane.Source.Tasks.PostRunJournal

/-!
# Snapshot and tail against full replay

A snapshot is the live entry at the moment an event is noted, and the live entry has
counted the whole run by then; the tail behind it counts the events that are published
later once more. A replay from sequence 0 starts from the default tenant and from
empty counters. The three agree exactly when every snapshot was taken of an entry that
the events up to it rebuild.
-/
namespace ControlPlane.Guarantees.SnapshotReplay

open Source Source.Tasks

/-- Any snapshot gives the state of a replay from sequence 0, and that state has the
tenant and the proposal counters of the store. -/
structure ReplaysAgree (r : PostRun) : Prop where
  same : ∀ snapshot ∈ r.journal.snapshots,
    replay (some (r.backend (some snapshot))) r.taskId = replay (some (r.backend none)) r.taskId
  stored : ∃ state, replay (some (r.backend none)) r.taskId = .ok (some state) ∧
    state.tenantId = r.entry.tenantId ∧ state.proposalsValid = r.entry.proposalsValid ∧
    state.proposalsPruned = r.entry.proposalsPruned

/-- An entry is what the events `upTo` a point rebuild, but for a phase that the
events `behind` it write again. -/
@[mk_iff]
structure Rebuilt (taskId : TaskId) (entry : TaskState) (upTo behind : List H2AIEvent) : Prop where
  task : entry.taskId = taskId
  tenant : entry.tenantId = TenantId.defaultTenant
  explorersCompleted : entry.explorersCompleted = completedIn upTo
  explorersTotal : entry.explorersTotal = 0
  proposalsValid : entry.proposalsValid = validIn upTo
  proposalsPruned : entry.proposalsPruned = prunedIn upTo
  autonomicRetries : entry.autonomicRetries = 0
  phase : lastPhase behind = none →
    entry.withPhase ((lastPhase upTo).getD .bootstrap) = entry

/-- What the run has to bring for its replays to agree. -/
structure JournalComplete (r : PostRun) : Prop where
  published : r.events ≠ []
  tenant : r.entry.tenantId = TenantId.defaultTenant
  valid : r.entry.proposalsValid = validIn r.events
  pruned : r.entry.proposalsPruned = prunedIn r.events
  snapshots : ∀ snapshot ∈ r.journal.snapshots, ∀ state, snapshot.taskState = some state →
    Rebuilt r.taskId state (r.eventsUpTo snapshot.lastSequence)
      (r.eventsBehind snapshot.lastSequence)

/-! ## Counts over a split log -/

theorem lastPhase_append (upTo behind : List H2AIEvent) :
    lastPhase (upTo ++ behind) = (lastPhase behind).or (lastPhase upTo) := by
  induction upTo with
  | nil => simp [lastPhase]
  | cons event rest ih => simp [lastPhase, ih, Option.or_assoc]

theorem counts_append (upTo behind : List H2AIEvent) :
    completedIn (upTo ++ behind) = completedIn upTo + completedIn behind ∧
      validIn (upTo ++ behind) = validIn upTo + validIn behind ∧
      prunedIn (upTo ++ behind) = prunedIn upTo + prunedIn behind :=
  ⟨List.countP_append, List.countP_append, List.countP_append⟩

theorem advanced_tenantId (entry : TaskState) (events : List H2AIEvent) :
    (entry.advanced events).tenantId = entry.tenantId := by
  unfold TaskState.advanced TaskState.withLastPhase
  cases lastPhase events <;> rfl

/-! ## One snapshot -/

/-- The tail behind an entry gives the state of the whole log exactly for a rebuilt
entry: counts only add up, and a phase only disappears under a later one. -/
theorem advanced_eq_iff (taskId : TaskId) (entry : TaskState) (upTo behind : List H2AIEvent) :
    entry.advanced behind =
        (TaskState.new taskId TenantId.defaultTenant).advanced (upTo ++ behind) ↔
      Rebuilt taskId entry upTo behind := by
  obtain ⟨hcompleted, hvalid, hpruned⟩ := counts_append upTo behind
  rw [rebuilt_iff]
  unfold TaskState.advanced TaskState.withLastPhase
  rw [lastPhase_append, hcompleted, hvalid, hpruned]
  obtain ⟨task, tenant, status, phase, phaseName, completed, total, valid, pruned, retries⟩ := entry
  cases lastPhase behind with
  | some later =>
      simp only [TaskState.withPhase, TaskState.new, Option.some_or, TaskState.mk.injEq]
      grind
  | none =>
      cases lastPhase upTo with
      | some earlier =>
          simp only [TaskState.withPhase, TaskState.new, Option.none_or, TaskState.mk.injEq,
            Option.getD_some]
          grind
      | none =>
          simp only [TaskState.withPhase, TaskState.new, Option.none_or, TaskState.mk.injEq,
            Option.getD_none]
          grind [TaskPhase.statusStr, TaskPhase.nameStr]

/-! ## Every snapshot -/

theorem replay_full_some {r : PostRun} (published : r.events ≠ []) :
    replay (some (r.backend none)) r.taskId =
      .ok (some ((TaskState.new r.taskId TenantId.defaultTenant).advanced r.events)) := by
  rw [replay_full, recovered]
  cases hevents : r.events with
  | nil => exact absurd hevents published
  | cons event rest => rfl

/-- A snapshot stands in for the log up to it exactly if that log rebuilds it. -/
theorem snapshot_same_iff {r : PostRun} (published : r.events ≠ []) {snapshot : TaskSnapshot}
    (taken : snapshot ∈ r.journal.snapshots) :
    replay (some (r.backend (some snapshot))) r.taskId =
        replay (some (r.backend none)) r.taskId ↔
      ∀ state, snapshot.taskState = some state →
        Rebuilt r.taskId state (r.eventsUpTo snapshot.lastSequence)
          (r.eventsBehind snapshot.lastSequence) := by
  obtain ⟨state, hstate⟩ :=
    Option.isSome_iff_exists.mp (r.journal_inv.snapshots snapshot taken).2
  rw [replay_snapshot r taken hstate, replay_full_some published,
    ← r.eventsUpTo_append snapshot.lastSequence, Except.ok.injEq, Option.some.injEq,
    advanced_eq_iff]
  constructor
  · intro hrebuilt state' hstate'
    rw [hstate, Option.some.injEq] at hstate'
    exact hstate' ▸ hrebuilt
  · intro hall
    exact hall state hstate

/-- **Snapshot and tail replay like the full log** exactly when something was stored,
the task is one of the default tenant, the store's proposal counters are the published
counts, and every snapshot was taken of an entry that the events up to it rebuild. -/
theorem snapshot_replay_iff (r : PostRun) : ReplaysAgree r ↔ JournalComplete r := by
  constructor
  · rintro ⟨same, state, hfull, htenant, hvalid, hpruned⟩
    have hpublished : r.events ≠ [] := by
      intro hnone
      rw [replay_full, hnone] at hfull
      cases hfull
    rw [replay_full_some hpublished, Except.ok.injEq, Option.some.injEq] at hfull
    subst hfull
    refine ⟨hpublished, ?_, ?_, ?_, ?_⟩
    · rw [← htenant, advanced_tenantId]
      rfl
    · rw [← hvalid]
      exact Nat.zero_add _
    · rw [← hpruned]
      exact Nat.zero_add _
    · intro snapshot htaken
      exact (snapshot_same_iff hpublished htaken).mp (same snapshot htaken)
  · intro complete
    refine ⟨?_, _, replay_full_some complete.published, ?_, ?_, ?_⟩
    · intro snapshot htaken
      exact (snapshot_same_iff complete.published htaken).mpr (complete.snapshots snapshot htaken)
    · rw [complete.tenant, advanced_tenantId]
      rfl
    · rw [complete.valid]
      exact Nat.zero_add _
    · rw [complete.pruned]
      exact Nat.zero_add _

/-! ## A snapshot between two scored proposals -/

/-- Two explorers, both proposals verified. -/
def twoProposals : PublishedOutput :=
  { frontierEvent := false
    verificationEvents := [true, true]
    failedProposals := 0
    prunedEvents := 0
    comparisonEvents := 0
    shadowAuditEvents := 0
    correlatedWarnings := 0
    researcherGroundingEvents := 0
    diversityDegraded := false
    coherenceClosed := true
    leaderElectedEvents := 0
    socraticDiagnosisEvents := 0
    provenanceMap := false }

def mergedTask : TaskId :=
  ⟨"3f1c2a90-7d4e-4b6a-8c55-9e0d1f2a3b4c", isUuidChar_workedRun⟩

def countedEntry : TaskState :=
  { (TaskState.new mergedTask TenantId.defaultTenant).withPhase .auditorGate with
    explorersCompleted := 2
    explorersTotal := 2
    proposalsValid := 2 }

/-- Every publish succeeds, and every second noted event takes a snapshot. -/
def snapshotBetween : PostRun :=
  { taskId := mergedTask
    interval := 2
    earlier := []
    output := twoProposals
    attempt := fun _ => .stored 0 true
    live := fun _ => some countedEntry
    entry := countedEntry }

/-- The snapshot behind the first scored proposal has counted both, and its tail
counts the second one again. -/
theorem scored_proposal_counted_twice : ¬ ReplaysAgree snapshotBetween := by
  intro agree
  have hsame := agree.same ⟨2, some countedEntry⟩ (by decide +kernel)
  revert hsame
  decide +kernel

end ControlPlane.Guarantees.SnapshotReplay
