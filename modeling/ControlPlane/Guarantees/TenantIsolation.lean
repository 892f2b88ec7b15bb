import ControlPlane.Lib.Sequences
import ControlPlane.Source.State.TenantStores

/-!
# Tenants share state exactly when their sanitized names coincide

Every stored value stands at a place made from `bucket_safe` of the tenant it was
written for; this is an invariant of every run. A read of another tenant finds it
only at a place made from that tenant's sanitized name, and places of one kind are
equal only for equal sanitized names. `bucket_safe` is not injective, so distinct
tenants can share all of their state.
-/
namespace ControlPlane.Guarantees.TenantIsolation

open Lib Source Source.State

variable {isAlphanumeric : Char → Bool} {cfg : StateConfig}

/-! ## Places -/

theorem tenantBucketName_eq_iff (bucketPrefix : String) (a b : TenantId) :
    tenantBucketName isAlphanumeric bucketPrefix a =
        tenantBucketName isAlphanumeric bucketPrefix b ↔
      a.bucketSafe isAlphanumeric = b.bucketSafe isAlphanumeric := by
  simp [tenantBucketName]

theorem tenantKey_eq_iff (suffix : String) (a b : TenantId) :
    tenantKey isAlphanumeric a suffix = tenantKey isAlphanumeric b suffix ↔
      a.bucketSafe isAlphanumeric = b.bucketSafe isAlphanumeric := by
  simp [tenantKey]

/-- The text behind the last dot of a subject is the task id, so the rest is equal too. -/
theorem signalSubject_eq_iff (a b : TenantId) (taskA taskB : TaskId) :
    signalSubject isAlphanumeric cfg a taskA = signalSubject isAlphanumeric cfg b taskB ↔
      a.bucketSafe isAlphanumeric = b.bucketSafe isAlphanumeric ∧ taskA.text = taskB.text := by
  constructor
  · intro h
    have hdot : isUuidChar '.' = false := by decide
    have hsubject : ∀ tenant taskId, (signalSubject isAlphanumeric cfg tenant taskId).toList =
        (cfg.signalsSubjectPrefix ++ "." ++ tenant.bucketSafe isAlphanumeric).toList ++
          '.' :: taskId.text.toList := by
      intro tenant taskId
      simp [signalSubject, String.toList_append]
    have hlists := congrArg String.toList h
    rw [hsubject, hsubject] at hlists
    obtain ⟨hfront, htask⟩ :=
      last_separator_unique (taskA.not_mem_text hdot) (taskB.not_mem_text hdot) hlists
    have hsafe := String.toList_inj.mp hfront
    rw [String.append_right_inj] at hsafe
    exact ⟨hsafe, String.toList_inj.mp htask⟩
  · rintro ⟨hsafe, htask⟩
    simp [signalSubject, hsafe, htask]

theorem tenantKey_ne_text (tenant : TenantId) (suffix : String) (taskId : TaskId) :
    tenantKey isAlphanumeric tenant suffix ≠ taskId.text := by
  intro h
  have hmem : '/' ∈ (tenantKey isAlphanumeric tenant suffix).toList := by
    simp [tenantKey, String.toList_append]
  rw [h] at hmem
  exact taskId.not_mem_text (by decide) hmem

theorem tenantKey_ne_accumulator (tenant : TenantId) (suffix : String) :
    tenantKey isAlphanumeric tenant suffix ≠ conflictAccumulatorKey := by
  intro h
  have hmem : '/' ∈ (tenantKey isAlphanumeric tenant suffix).toList := by
    simp [tenantKey, String.toList_append]
  rw [h] at hmem
  revert hmem
  decide

/-- The keys of two kinds differ in their last letter. -/
theorem tenantKey_last (isAlphanumeric : Char → Bool) (tenant : TenantId) {suffix : String}
    {c : Char} {front : List Char}
    (h : suffix.toList = front ++ [c]) :
    (tenantKey isAlphanumeric tenant suffix).toList.getLast? = some c := by
  rw [tenantKey, String.toList_append, h, ← List.append_assoc]
  exact List.getLast?_concat

/-! ## Every value stands at a place of its writer -/

inductive Placed (isAlphanumeric : Char → Bool) (cfg : StateConfig) :
    String × String → Written Record → Prop where
  | reasoningCheckpoint (checkpoint : TaskReasoningCheckpoint) :
      Placed isAlphanumeric cfg
        (tenantBucketName isAlphanumeric cfg.reasoningCheckpointBucketPrefix checkpoint.tenantId,
          checkpoint.taskId.text)
        ⟨checkpoint.tenantId, .reasoningCheckpoint checkpoint⟩
  | taskMetaState (state : TaskMetaState) :
      Placed isAlphanumeric cfg
        (tenantBucketName isAlphanumeric cfg.taskMetaStateBucketPrefix state.tenantId,
          state.taskId.text)
        ⟨state.tenantId, .taskMetaState state⟩
  | conflictAccumulator (acc : ConflictRateAccumulator) :
      Placed isAlphanumeric cfg
        (tenantBucketName isAlphanumeric cfg.conflictBetaBucketPrefix acc.tenantId,
          conflictAccumulatorKey)
        ⟨acc.tenantId, .conflictAccumulator acc⟩
  | taoEstimator (tenant : TenantId) (ema : ℚ) (count : Nat) :
      Placed isAlphanumeric cfg (cfg.estimatorBucket, tenantKey isAlphanumeric tenant "tao")
        ⟨tenant, .taoEstimator ema count⟩
  | bandit (tenant : TenantId) (jsonBytes : String) :
      Placed isAlphanumeric cfg (cfg.estimatorBucket, tenantKey isAlphanumeric tenant "bandit")
        ⟨tenant, .json jsonBytes⟩
  | skills (tenant : TenantId) (jsonBytes : String) :
      Placed isAlphanumeric cfg (cfg.skillsBucket, tenantKey isAlphanumeric tenant "skills")
        ⟨tenant, .json jsonBytes⟩

structure AllPlaced (isAlphanumeric : Char → Bool) (cfg : StateConfig) (nats : NatsState) :
    Prop where
  kv : ∀ place entry, nats.kv.lookup place = some entry → Placed isAlphanumeric cfg place entry
  signals : ∀ message ∈ nats.signals, message.2.writer = message.2.data.tenantId ∧
    message.1 = signalSubject isAlphanumeric cfg message.2.writer message.2.data.taskId

theorem AllPlaced.kvPut {nats : NatsState} (before : AllPlaced isAlphanumeric cfg nats)
    {bucket key : String} {writer : TenantId} {data : Record}
    (new : Placed isAlphanumeric cfg (bucket, key) ⟨writer, data⟩) :
    AllPlaced isAlphanumeric cfg (kvPut nats bucket key writer data) := by
  refine ⟨?_, before.signals⟩
  intro place entry hentry
  by_cases hplace : place = (bucket, key)
  · subst hplace
    simp only [State.kvPut, AList.lookup_insert, Option.some.injEq] at hentry
    rw [← hentry]
    exact new
  · simp only [State.kvPut, AList.lookup_insert_ne hplace] at hentry
    exact before.kv place entry hentry

theorem AllPlaced.step {nats : NatsState} (before : AllPlaced isAlphanumeric cfg nats)
    (write : StoreWrite) :
    AllPlaced isAlphanumeric cfg (applyWrite isAlphanumeric cfg nats write) := by
  cases write with
  | reasoningCheckpoint checkpoint => exact before.kvPut (.reasoningCheckpoint checkpoint)
  | taskMetaState state => exact before.kvPut (.taskMetaState state)
  | conflictAccumulator acc => exact before.kvPut (.conflictAccumulator acc)
  | taoEstimatorState tenant ema count => exact before.kvPut (.taoEstimator tenant ema count)
  | banditState tenant jsonBytes => exact before.kvPut (.bandit tenant jsonBytes)
  | skillNodes tenant jsonBytes => exact before.kvPut (.skills tenant jsonBytes)
  | signal signal =>
      refine ⟨before.kv, ?_⟩
      intro message hmessage
      rcases List.mem_append.mp hmessage with hold | hnew
      · exact before.signals message hold
      · rw [List.mem_singleton.mp hnew]
        exact ⟨rfl, rfl⟩

theorem runWrites_allPlaced (isAlphanumeric : Char → Bool) (cfg : StateConfig)
    (writes : List StoreWrite) :
    AllPlaced isAlphanumeric cfg (runWrites isAlphanumeric cfg writes) := by
  unfold runWrites
  induction writes using List.reverseRecOn with
  | nil => exact ⟨by simp [NatsState.empty], by simp [NatsState.empty]⟩
  | append_singleton writes write ih =>
      rw [List.foldl_append]
      exact ih.step write

/-! ## What a read returns -/

theorem kvGet_found {α : Type} {nats : NatsState} {decode : Record → Option α}
    {bucket key : String} {tenant : TenantId}
    (h : tenant ∈ foundWriters (kvGet nats decode bucket key)) :
    ∃ entry, nats.kv.lookup (bucket, key) = some entry ∧ entry.writer = tenant ∧
      (decode entry.data).isSome := by
  unfold kvGet at h
  cases hlookup : nats.kv.lookup (bucket, key) with
  | none => simp [hlookup, foundWriters] at h
  | some entry =>
      cases hdecode : decode entry.data with
      | none => simp [hlookup, hdecode, foundWriters] at h
      | some data =>
          simp only [hlookup, hdecode, foundWriters, List.mem_singleton] at h
          refine ⟨entry, rfl, h.symm, ?_⟩
          rw [hdecode]
          rfl

/-- What decodes as one of the three tenant-bucket kinds stands in the writer's bucket of
that kind. -/
theorem Placed.bucket_eq {place : String × String} {entry : Written Record}
    (placed : Placed isAlphanumeric cfg place entry) :
    (entry.data.asReasoningCheckpoint.isSome → place.1 = tenantBucketName isAlphanumeric
      cfg.reasoningCheckpointBucketPrefix entry.writer) ∧
    (entry.data.asTaskMetaState.isSome → place.1 = tenantBucketName isAlphanumeric
      cfg.taskMetaStateBucketPrefix entry.writer) ∧
    (entry.data.asConflictAccumulator.isSome → place.1 = tenantBucketName isAlphanumeric
      cfg.conflictBetaBucketPrefix entry.writer) ∧
    (entry.data.asTaoEstimator.isSome →
      place.2 = tenantKey isAlphanumeric entry.writer "tao") := by
  cases placed <;> simp [Record.asReasoningCheckpoint, Record.asTaskMetaState,
    Record.asConflictAccumulator, Record.asTaoEstimator]

/-- A value under a `{tenant}/bandit` or `{tenant}/skills` key was written under a key of
the same suffix. -/
theorem Placed.key_eq {bucket : String} {tenant : TenantId} {suffix : String}
    {entry : Written Record} (hsuffix : suffix = "bandit" ∨ suffix = "skills")
    (placed : Placed isAlphanumeric cfg (bucket, tenantKey isAlphanumeric tenant suffix) entry) :
    tenantKey isAlphanumeric tenant suffix = tenantKey isAlphanumeric entry.writer suffix := by
  have htao (tenant : TenantId) (h : "tao".toList = ['t', 'a'] ++ ['o']) :=
    tenantKey_last isAlphanumeric tenant h
  have hbandit (tenant : TenantId) (h : "bandit".toList = ['b', 'a', 'n', 'd', 'i'] ++ ['t']) :=
    tenantKey_last isAlphanumeric tenant h
  have hskills (tenant : TenantId) (h : "skills".toList = ['s', 'k', 'i', 'l', 'l'] ++ ['s']) :=
    tenantKey_last isAlphanumeric tenant h
  generalize hkey : tenantKey isAlphanumeric tenant suffix = key at placed ⊢
  cases placed with
  | reasoningCheckpoint checkpoint => exact absurd hkey (tenantKey_ne_text _ _ _)
  | taskMetaState state => exact absurd hkey (tenantKey_ne_text _ _ _)
  | conflictAccumulator acc => exact absurd hkey (tenantKey_ne_accumulator _ _)
  | taoEstimator writer ema count =>
      have hlast := congrArg (fun key => key.toList.getLast?) hkey
      rcases hsuffix with rfl | rfl
      · simp [htao writer (by decide), hbandit tenant (by decide)] at hlast
      · simp [htao writer (by decide), hskills tenant (by decide)] at hlast
  | bandit writer jsonBytes =>
      have hlast := congrArg (fun key => key.toList.getLast?) hkey
      rcases hsuffix with rfl | rfl
      · rfl
      · simp [hbandit writer (by decide), hskills tenant (by decide)] at hlast
  | skills writer jsonBytes =>
      have hlast := congrArg (fun key => key.toList.getLast?) hkey
      rcases hsuffix with rfl | rfl
      · simp [hskills writer (by decide), hbandit tenant (by decide)] at hlast
      · rfl

theorem mem_listTaskMetaStates {nats : NatsState} {tenant : TenantId} {limit : Nat}
    {found : Written TaskMetaState}
    (h : found ∈ listTaskMetaStates isAlphanumeric cfg nats tenant limit) :
    ∃ key, found.writer ∈ foundWriters (kvGet nats Record.asTaskMetaState
      (tenantBucketName isAlphanumeric cfg.taskMetaStateBucketPrefix tenant) key) := by
  obtain ⟨key, -, hkey⟩ := List.mem_filterMap.mp h
  refine ⟨key, ?_⟩
  split at hkey
  next answer hanswer =>
    rw [hanswer, hkey]
    simp [foundWriters]
  next => cases hkey

/-- Whatever is returned to a tenant was written for a tenant of the same sanitized name. -/
theorem returned_bucketSafe_eq {nats : NatsState} (all : AllPlaced isAlphanumeric cfg nats)
    {a b : TenantId} {read : StoreRead}
    (h : a ∈ returnedWriters isAlphanumeric cfg nats b read) :
    a.bucketSafe isAlphanumeric = b.bucketSafe isAlphanumeric := by
  cases read with
  | reasoningCheckpoint taskId =>
      obtain ⟨entry, hentry, rfl, hdecode⟩ := kvGet_found h
      have hbucket := (all.kv _ _ hentry).bucket_eq.1 hdecode
      exact ((tenantBucketName_eq_iff _ _ _).mp hbucket).symm
  | taskMetaState taskId =>
      obtain ⟨entry, hentry, rfl, hdecode⟩ := kvGet_found h
      have hbucket := (all.kv _ _ hentry).bucket_eq.2.1 hdecode
      exact ((tenantBucketName_eq_iff _ _ _).mp hbucket).symm
  | taskMetaStates limit =>
      obtain ⟨found, hfound, rfl⟩ := List.mem_map.mp h
      obtain ⟨key, hkey⟩ := mem_listTaskMetaStates hfound
      obtain ⟨entry, hentry, hwriter, hdecode⟩ := kvGet_found hkey
      have hbucket := (all.kv _ _ hentry).bucket_eq.2.1 hdecode
      rw [← hwriter]
      exact ((tenantBucketName_eq_iff _ _ _).mp hbucket).symm
  | conflictAccumulator =>
      obtain ⟨entry, hentry, rfl, hdecode⟩ := kvGet_found h
      have hbucket := (all.kv _ _ hentry).bucket_eq.2.2.1 hdecode
      exact ((tenantBucketName_eq_iff _ _ _).mp hbucket).symm
  | taoEstimatorState =>
      obtain ⟨entry, hentry, rfl, hdecode⟩ := kvGet_found h
      have hkey := (all.kv _ _ hentry).bucket_eq.2.2.2 hdecode
      exact ((tenantKey_eq_iff _ _ _).mp hkey).symm
  | banditState =>
      obtain ⟨entry, hentry, rfl, -⟩ := kvGet_found h
      have hkey := (all.kv _ _ hentry).key_eq (.inl rfl)
      exact ((tenantKey_eq_iff _ _ _).mp hkey).symm
  | skillNodes =>
      obtain ⟨entry, hentry, rfl, -⟩ := kvGet_found h
      have hkey := (all.kv _ _ hentry).key_eq (.inr rfl)
      exact ((tenantKey_eq_iff _ _ _).mp hkey).symm
  | signals taskId =>
      obtain ⟨delivered, hdelivered, rfl⟩ := List.mem_map.mp h
      obtain ⟨message, hmessage, rfl⟩ := List.mem_map.mp hdelivered
      obtain ⟨hin, hsubject⟩ := List.mem_filter.mp hmessage
      have hplaced := (all.signals message hin).2
      rw [beq_iff_eq, hplaced] at hsubject
      exact ((signalSubject_eq_iff _ _ _ _).mp hsubject).1

/-! ## Isolation -/

/-- No run of store operations ever returns to `b` anything that was written for `a`. -/
def Isolated (isAlphanumeric : Char → Bool) (cfg : StateConfig) (a b : TenantId) : Prop :=
  ∀ writes read, a ∉ returnedWriters isAlphanumeric cfg (runWrites isAlphanumeric cfg writes) b read

/-- A tenant of the same sanitized name reads the skill nodes and receives the signals. -/
theorem shared_of_bucketSafe_eq (cfg : StateConfig) {a b : TenantId}
    (h : a.bucketSafe isAlphanumeric = b.bucketSafe isAlphanumeric) (jsonBytes : String)
    (signal : TenantSignal) (hsignal : signal.tenantId = a) :
    a ∈ returnedWriters isAlphanumeric cfg
        (runWrites isAlphanumeric cfg [.skillNodes a jsonBytes]) b .skillNodes ∧
      a ∈ returnedWriters isAlphanumeric cfg
        (runWrites isAlphanumeric cfg [.signal signal]) b (.signals signal.taskId) := by
  have hkey : tenantKey isAlphanumeric a "skills" = tenantKey isAlphanumeric b "skills" :=
    (tenantKey_eq_iff "skills" a b).mpr h
  have hsubject : signalSubject isAlphanumeric cfg a signal.taskId =
      signalSubject isAlphanumeric cfg b signal.taskId :=
    (signalSubject_eq_iff a b signal.taskId signal.taskId).mpr ⟨h, rfl⟩
  constructor
  · simp [returnedWriters, runWrites, applyWrite, getSkillNodes, putSkillNodes, kvGet, kvPut,
      foundWriters, hkey]
  · simp [returnedWriters, runWrites, applyWrite, subscribeSignals, publishSignal,
      NatsState.empty, hsignal, hsubject]

section Example

def reviewTask : TaskId := ⟨"7d9f0c3a-5b21-4e88-9c1e-2f6a4b8d0e13", by decide⟩

end Example

end ControlPlane.Guarantees.TenantIsolation
