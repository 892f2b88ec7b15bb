import ControlPlane.Source.Tasks.TaskStore

/-!
# Whose task the recovery route hands out

The tenant of a replayed state is the tenant of the snapshot, or the default tenant
when there is no snapshot that can be read; no event changes it. The route compares the
request with that label, looks for a live entry of the requesting tenant only, and
inserts over whatever other entry there is. So ownership is respected exactly when the
label is the submitter's and no other tenant has a live entry under the id.
-/
namespace ControlPlane.Guarantees.TaskOwnership

open Source Source.Tasks

/-! ## Replay -/

/-- The stream has no read error before its first terminal event. -/
def readable : List StreamItem → Bool
  | [] => true
  | .error _ :: _ => false
  | .ok event :: rest => event.terminal || readable rest

theorem replayItems_readable {items : List StreamItem} (h : readable items = true)
    (state : TaskState) (seen : Nat) :
    ∃ state' seen', replayItems state seen items = .ok (state', seen') ∧
      state'.tenantId = state.tenantId ∧ (seen' = 0 ↔ seen = 0 ∧ items = []) := by
  induction items generalizing state seen with
  | nil => exact ⟨state, seen, rfl, rfl, by simp⟩
  | cons item rest ih =>
      cases item with
      | error e => cases h
      | ok event =>
          by_cases hterminal : event.terminal = true
          · refine ⟨applyEvent state event, seen + 1, ?_, by simp, by simp⟩
            simp only [replayItems, hterminal, ↓reduceIte]
          · simp only [readable, hterminal, Bool.false_or] at h
            obtain ⟨state', seen', hreplay, htenant, hseen⟩ :=
              ih h (applyEvent state event) (seen + 1)
            refine ⟨state', seen', ?_, by rw [htenant, applyEvent_tenantId], ?_⟩
            · simp only [replayItems, hterminal, Bool.false_eq_true, ↓reduceIte]
              exact hreplay
            · rw [hseen]
              simp

theorem replayItems_unreadable {items : List StreamItem} (h : readable items = false)
    (state : TaskState) (seen : Nat) : ∃ e, replayItems state seen items = .error e := by
  induction items generalizing state seen with
  | nil => cases h
  | cons item rest ih =>
      cases item with
      | error e => exact ⟨e, rfl⟩
      | ok event =>
          simp only [readable, Bool.or_eq_false_iff] at h
          obtain ⟨e, he⟩ := ih h.2 (applyEvent state event) (seen + 1)
          exact ⟨e, by simp only [replayItems, h.1, Bool.false_eq_true, ↓reduceIte, he]⟩

section Backend

variable (backend : JournalBackend) (tid : TaskId)

/-- Where the replay of the task starts. -/
abbrev startOf : TaskState × Nat := replayStart tid (backend.getSnapshot tid)

/-- The tenant a replay labels the task with: the snapshot's, or the default one. -/
def label : TenantId := (startOf backend tid).1.tenantId

/-- There is something to replay: the stream opens and can be read, and it has an event
or continues a snapshot. -/
def Recoverable : Prop :=
  ∃ items, backend.tailTaskEvents tid (startOf backend tid).2 = .ok items ∧
    readable items = true ∧ (items ≠ [] ∨ (startOf backend tid).2 ≠ 0)

variable {backend tid}

theorem replay_recoverable (h : Recoverable backend tid) :
    ∃ state, replay (some backend) tid = .ok (some state) ∧
      state.tenantId = label backend tid := by
  obtain ⟨items, htail, hreadable, hsome⟩ := h
  obtain ⟨state, seen, hitems, htenant, hseen⟩ :=
    replayItems_readable hreadable (startOf backend tid).1 0
  refine ⟨state, ?_, htenant⟩
  have hnonzero : ¬ (seen == 0 && (replayStart tid (backend.getSnapshot tid)).2 == 0) = true := by
    simp only [Bool.and_eq_true, beq_iff_eq, hseen, true_and, not_and]
    intro hnil
    rcases hsome with hitem | hseq
    · exact absurd hnil hitem
    · exact hseq
  simp only [replay, htail, hitems, Except.map, if_neg hnonzero]

/-- A replay that returns a state had something to replay. -/
theorem recoverable_of_replay {state : TaskState}
    (h : replay (some backend) tid = .ok (some state)) : Recoverable backend tid := by
  simp only [replay] at h
  cases htail : backend.tailTaskEvents tid (startOf backend tid).2 with
  | error e => simp [htail] at h
  | ok items =>
      simp only [htail] at h
      refine ⟨items, htail, ?_⟩
      cases hreadable : readable items with
      | false =>
          obtain ⟨e, he⟩ := replayItems_unreadable hreadable (startOf backend tid).1 0
          simp [he, Except.map] at h
      | true =>
          refine ⟨rfl, ?_⟩
          by_contra hnone
          rw [not_or, not_not, not_not] at hnone
          obtain ⟨rfl, hseq⟩ := hnone
          simp [replayItems, Except.map, hseq] at h

end Backend

/-! ## The route -/

section Route

variable (submitter : TaskId → Option TenantId) (parseUuid : String → Option TaskId)
  (journal : Option JournalBackend) (store : TaskStore) (tenantId taskId : String)

/-- The request hands out and stores a task only to its submitter, and keeps every live
entry of another tenant. -/
structure RespectsOwnership : Prop where
  answer : ∀ state, (recoverTask parseUuid journal store tenantId taskId).1 = .ok state →
    ∃ tid, parseUuid taskId = some tid ∧ submitter tid = some ⟨tenantId⟩
  upsert : ∀ tid, (recoverTask parseUuid journal store tenantId taskId).2 tid ≠ store tid →
    submitter tid = some ⟨tenantId⟩
  others : ∀ tid entry, store tid = some entry → entry.tenantId ≠ ⟨tenantId⟩ →
    (recoverTask parseUuid journal store tenantId taskId).2 tid = some entry

/-- What the route can do: nothing, or hand out a state labelled with the requesting
tenant and insert it where that tenant has no live entry. -/
theorem recoverTask_cases :
    ((∃ e, (recoverTask parseUuid journal store tenantId taskId).1 = .error e) ∧
      (recoverTask parseUuid journal store tenantId taskId).2 = store ∧
      ∀ tid backend, parseUuid taskId = some tid → journal = some backend →
        label backend tid = ⟨tenantId⟩ → ¬ Recoverable backend tid) ∨
    ∃ tid backend state, parseUuid taskId = some tid ∧ journal = some backend ∧
      label backend tid = ⟨tenantId⟩ ∧ Recoverable backend tid ∧
      state.tenantId = ⟨tenantId⟩ ∧
      recoverTask parseUuid journal store tenantId taskId =
        (.ok state, if (store.getForTenant tid ⟨tenantId⟩).isNone then store.insert tid state
          else store) := by
  cases hparse : parseUuid taskId with
  | none => exact .inl ⟨⟨_, by simp only [recoverTask, hparse]; rfl⟩,
      by simp only [recoverTask, hparse], by simp⟩
  | some tid =>
      cases journal with
      | none => exact .inl ⟨⟨_, by simp only [recoverTask, hparse, replay]; rfl⟩,
          by simp only [recoverTask, hparse, replay], by simp⟩
      | some backend =>
          by_cases hrecoverable : Recoverable backend tid
          · obtain ⟨state, hreplay, htenant⟩ := replay_recoverable hrecoverable
            by_cases hlabel : label backend tid = ⟨tenantId⟩
            · refine .inr ⟨tid, backend, state, rfl, rfl, hlabel, hrecoverable,
                htenant.trans hlabel, ?_⟩
              simp only [recoverTask, hparse, hreplay, htenant, hlabel, ne_eq, not_true_eq_false,
                ↓reduceIte]
              split
              next => rfl
              next => rfl
            · refine .inl ⟨⟨.taskNotFound taskId, ?_⟩, ?_, ?_⟩
              · simp [recoverTask, hparse, hreplay, htenant, hlabel]
              · simp [recoverTask, hparse, hreplay, htenant, hlabel]
              · intro tid' backend' hsame hbackend hlabel'
                cases hsame
                cases hbackend
                exact absurd hlabel' hlabel
          · have hnone : ∀ tid' backend', some tid = some tid' → some backend = some backend' →
                label backend' tid' = ⟨tenantId⟩ → ¬ Recoverable backend' tid' := by
              intro tid' backend' hsame hbackend _
              cases hsame
              cases hbackend
              exact hrecoverable
            cases hreplay : replay (some backend) tid with
            | error e => exact .inl ⟨⟨_, by simp only [recoverTask, hparse, hreplay]; rfl⟩,
                by simp only [recoverTask, hparse, hreplay], hnone⟩
            | ok found =>
                cases found with
                | none => exact .inl ⟨⟨_, by simp only [recoverTask, hparse, hreplay]; rfl⟩,
                    by simp only [recoverTask, hparse, hreplay], hnone⟩
                | some state => exact absurd (recoverable_of_replay hreplay) hrecoverable

variable {submitter parseUuid journal store tenantId taskId} {tid : TaskId} {state : TaskState}

/-- A refused request leaves the store as it is. -/
theorem respects_of_refused {e : ApiError}
    (herror : (recoverTask parseUuid journal store tenantId taskId).1 = .error e)
    (hstore : (recoverTask parseUuid journal store tenantId taskId).2 = store) :
    RespectsOwnership submitter parseUuid journal store tenantId taskId := by
  refine ⟨?_, ?_, ?_⟩
  · intro state hstate
    rw [herror] at hstate
    cases hstate
  · intro tid hchanged
    rw [hstore] at hchanged
    exact absurd rfl hchanged
  · intro tid entry hentry _
    rw [hstore]
    exact hentry

section Recovered

variable (hrecover : recoverTask parseUuid journal store tenantId taskId =
  (.ok state, if (store.getForTenant tid ⟨tenantId⟩).isNone then store.insert tid state
    else store))

include hrecover

theorem recovered_frame {other : TaskId} (hne : other ≠ tid) :
    (recoverTask parseUuid journal store tenantId taskId).2 other = store other := by
  rw [hrecover]
  split
  next => simp [TaskStore.insert, hne]
  next => rfl

/-- A task is handed out to its submitter, and no other tenant has a live entry of it. -/
theorem respects_of_recovered (hparse : parseUuid taskId = some tid)
    (hsubmitted : submitter tid = some ⟨tenantId⟩)
    (hlive : ∀ entry, store tid = some entry → entry.tenantId = ⟨tenantId⟩) :
    RespectsOwnership submitter parseUuid journal store tenantId taskId := by
  refine ⟨fun _ _ => ⟨tid, hparse, hsubmitted⟩, ?_, ?_⟩
  · intro other hchanged
    by_cases hsame : other = tid
    · rw [hsame]
      exact hsubmitted
    · exact absurd (recovered_frame hrecover hsame) hchanged
  · intro other entry hentry hforeign
    by_cases hsame : other = tid
    · subst hsame
      exact absurd (hlive entry hentry) hforeign
    · rw [recovered_frame hrecover hsame]
      exact hentry

/-- The inserted entry would take the place of another tenant's. -/
theorem RespectsOwnership.live
    (respects : RespectsOwnership submitter parseUuid journal store tenantId taskId)
    (hstate : state.tenantId = ⟨tenantId⟩) {entry : TaskState} (hentry : store tid = some entry) :
    entry.tenantId = ⟨tenantId⟩ := by
  by_contra hother
  have hkept := respects.others tid entry hentry hother
  have hfree : (store.getForTenant tid ⟨tenantId⟩).isNone = true := by
    simp [TaskStore.getForTenant, hentry, Option.filter, hother]
  rw [hrecover, if_pos hfree] at hkept
  simp only [TaskStore.insert, Function.update_self, Option.some.injEq] at hkept
  subst hkept
  exact hother hstate

end Recovered

end Route

/-- For every event log, snapshot and task store, every request and whoever submitted
the tasks: the route respects ownership exactly when, provided the requested task has
something to replay and a replay labels it with the requesting tenant, that tenant has
submitted the task and no other tenant has a live entry under its id. -/
theorem recoverTask_respects_iff (submitter : TaskId → Option TenantId)
    (parseUuid : String → Option TaskId) (journal : Option JournalBackend) (store : TaskStore)
    (tenantId taskId : String) :
    RespectsOwnership submitter parseUuid journal store tenantId taskId ↔
      ∀ tid backend, parseUuid taskId = some tid → journal = some backend →
        Recoverable backend tid → label backend tid = ⟨tenantId⟩ →
        submitter tid = some ⟨tenantId⟩ ∧
          ∀ entry, store tid = some entry → entry.tenantId = ⟨tenantId⟩ := by
  constructor
  · intro respects tid backend hparse hjournal hrecoverable hlabel
    rcases recoverTask_cases parseUuid journal store tenantId taskId with ⟨-, -, hnone⟩ | hdone
    · exact absurd hrecoverable (hnone tid backend hparse hjournal hlabel)
    · obtain ⟨tid', backend', state, hparse', hjournal', -, -, hstate, hrecover⟩ := hdone
      rw [hparse, Option.some.injEq] at hparse'
      subst hparse'
      refine ⟨?_, fun entry hentry => respects.live hrecover hstate hentry⟩
      obtain ⟨tid', hparse', hsubmitted⟩ := respects.answer state (by rw [hrecover])
      rw [hparse, Option.some.injEq] at hparse'
      subst hparse'
      exact hsubmitted
  · intro owned
    rcases recoverTask_cases parseUuid journal store tenantId taskId with
      ⟨⟨e, herror⟩, hstore, -⟩ | hdone
    · exact respects_of_refused herror hstore
    · obtain ⟨tid, backend, state, hparse, hjournal, hlabel, hrecoverable, -, hrecover⟩ := hdone
      obtain ⟨hsubmitted, hlive⟩ := owned tid backend hparse hjournal hrecoverable hlabel
      exact respects_of_recovered hrecover hparse hsubmitted hlive

section Example

def reportTask : TaskId := ⟨"0b6b3e9e-41d4-4f7c-a1c2-93d5e0f7a611", by decide⟩

/-- No snapshot was taken yet, and the log holds the first event. -/
def youngLog : JournalBackend :=
  ⟨fun _ => .ok none, fun _ _ => .ok [.ok .taskBootstrapped]⟩

/-- The store of a server that runs one task of `acme`. -/
def acmeStore : TaskStore := fun id =>
  if id = reportTask then some (TaskState.new reportTask ⟨"acme"⟩) else none

/-- The default tenant is handed the running task of `acme`, whose entry it replaces. -/
theorem default_tenant_takes_task :
    ¬ RespectsOwnership (fun _ => some ⟨"acme"⟩) (fun _ => some reportTask) (some youngLog)
        acmeStore "default" reportTask.text ∧
      (recoverTask (fun _ => some reportTask) (some youngLog) acmeStore "default"
        reportTask.text).1 = .ok (TaskState.new reportTask ⟨"default"⟩) ∧
      (recoverTask (fun _ => some reportTask) (some youngLog) acmeStore "default"
        reportTask.text).2 reportTask = some (TaskState.new reportTask ⟨"default"⟩) := by
  have hanswer : (recoverTask (fun _ => some reportTask) (some youngLog) acmeStore "default"
      reportTask.text).1 = .ok (TaskState.new reportTask ⟨"default"⟩) := by rfl
  refine ⟨?_, hanswer, by rfl⟩
  intro respects
  obtain ⟨tid, -, hsubmitted⟩ := respects.answer _ hanswer
  revert hsubmitted
  decide

end Example

end ControlPlane.Guarantees.TaskOwnership
