import ControlPlane.Source.State.DeltaCheckpoint

/-!
# Reading checkpoints back

Whatever the encoding, `get_latest_checkpoint` returns the checkpoint of the last
successful put: a delta is taken against the base as it stands, and nothing is written
between the delta and the read. The latest pointer is overwritten with every put and
never compared, so "the highest written seq" is reached exactly if the last put was at it.
-/
namespace ControlPlane.Guarantees.CheckpointReadback

open Lib Source.State

variable {γ J P : Type}

/-! ## Keys -/

theorem paddedSeq_injective {m n : Nat} (h : paddedSeq m = paddedSeq n) : m = n := by
  have hvalue : ∀ seq, Nat.ofDigitChars 10 (paddedSeq seq) 0 = seq := by
    intro seq
    rw [paddedSeq, Nat.ofDigitChars_append, Nat.ofDigitChars_replicate_zero, Nat.mul_zero]
    exact Nat.ofDigitChars_toDigits (by decide) (by decide)
  rw [← hvalue m, h, hvalue n]

theorem isDigit_of_mem_paddedSeq {seq : Nat} {c : Char} (h : c ∈ paddedSeq seq) :
    c.isDigit = true := by
  rcases List.mem_append.mp h with hzero | hdigit
  · rw [List.eq_of_mem_replicate hzero]
    decide
  · exact Nat.isDigit_of_mem_toDigits (by decide) (by decide) hdigit

/-- The text after the last slash of a key. -/
theorem key_suffix_unique {a b : String} {t u : List Char} (ht : '/' ∉ t) (hu : '/' ∉ u)
    (h : a ++ "/seq/" ++ String.ofList t = b ++ "/seq/" ++ String.ofList u) : a = b ∧ t = u := by
  have hlist := congrArg String.toList h
  have hseq : "/seq/".toList = ['/', 's', 'e', 'q'] ++ ['/'] := rfl
  simp only [String.toList_append, String.toList_ofList, hseq, List.append_assoc,
    List.singleton_append] at hlist
  rw [← List.append_assoc, ← List.append_assoc b.toList] at hlist
  obtain ⟨hfront, htail⟩ := last_separator_unique ht hu hlist
  exact ⟨String.toList_inj.mp (List.append_cancel_right hfront), htail⟩

theorem slash_not_mem_paddedSeq (seq : Nat) : '/' ∉ paddedSeq seq := by
  intro hmem
  exact absurd (isDigit_of_mem_paddedSeq hmem) (by decide)

theorem seqKey_inj {a b : String} {m n : Nat} : seqKey a m = seqKey b n ↔ a = b ∧ m = n := by
  constructor
  · intro h
    obtain ⟨htask, hseq⟩ :=
      key_suffix_unique (slash_not_mem_paddedSeq m) (slash_not_mem_paddedSeq n) h
    exact ⟨htask, paddedSeq_injective hseq⟩
  · intro h
    rw [h.1, h.2]

theorem latestKey_inj {a b : String} : latestKey a = latestKey b ↔ a = b := by
  constructor
  · intro h
    exact (key_suffix_unique (t := "latest".toList) (u := "latest".toList) (by decide) (by decide)
      h).1
  · intro h
    rw [h]

theorem seqKey_ne_latestKey (a b : String) (seq : Nat) : seqKey a seq ≠ latestKey b := by
  intro h
  have hseq : paddedSeq seq = "latest".toList :=
    (key_suffix_unique (u := "latest".toList) (slash_not_mem_paddedSeq seq) (by decide) h).2
  have hmem : 'l' ∈ paddedSeq seq := by
    rw [hseq]
    decide
  exact absurd (isDigit_of_mem_paddedSeq hmem) (by decide)

/-! ## The bucket after a put -/

@[simp] theorem storedUnder_write_same (kv : Checkpoints γ P) (key : String)
    (value : Option (CheckpointValue γ P)) : storedUnder (kv.write key value) key = value := by
  simp [storedUnder]

@[simp] theorem storedUnder_write_other (kv : Checkpoints γ P) {key other : String}
    (h : other ≠ key) (value : Option (CheckpointValue γ P)) :
    storedUnder (kv.write key value) other = storedUnder kv other := by
  simp [storedUnder, h]

/-- Alone on the bucket the first compare-and-swap succeeds. -/
theorem updateLatestSeq_eq (kv : Checkpoints γ P) (taskId : String) (seq : Nat) :
    updateLatestSeq kv taskId seq = .ok (kv.write (latestKey taskId) (some (.latest seq))) := by
  unfold updateLatestSeq updateLatestLoop entryRevision
  cases hrev : (kv.slots (latestKey taskId)).revision with
  | zero => rfl
  | succ revision => simp [swapLatest, Bucket.update, Bucket.put, hrev]

/-- The bucket after the two writes of a put. -/
def afterPut (kv : Checkpoints γ P) (taskId : String) (seq : Nat)
    (entry : TaskCheckpointEntry γ P) : Checkpoints γ P :=
  (kv.write (seqKey taskId seq) (some (.entry entry))).write (latestKey taskId) (some (.latest seq))

variable {cfg : StateDeltaConfig} {json : CheckpointJson γ J P}

/-- What a successful put has written: a full base, or a delta against the base that the
bucket holds. -/
inductive EntryFor (json : CheckpointJson γ J P) (kv : Checkpoints γ P) (taskId : String)
    (checkpoint : γ) (seq : Nat) : TaskCheckpointEntry γ P → Prop where
  | base : EntryFor json kv taskId checkpoint seq (baseEntry checkpoint seq)
  | delta (baseSeq : Nat) (patch : P) (base : TaskCheckpointEntry γ P) (baseCp : γ)
      (other : baseSeq ≠ seq)
      (stored : storedUnder kv (seqKey taskId baseSeq) = some (.entry base))
      (full : base.kind = .base baseCp)
      (generated : generateDelta json baseCp checkpoint = .ok patch) :
      EntryFor json kv taskId checkpoint seq ⟨seq, baseSeq, .delta patch⟩

theorem bind_ok {ε α β : Type} {x : Except ε α} {f : α → Except ε β} {b : β}
    (h : (x >>= f) = .ok b) : ∃ a, x = .ok a ∧ f a = .ok b := by
  cases x with
  | error e => cases h
  | ok a => exact ⟨a, rfl, h⟩

theorem decodeBase_ok {missing corrupt : String} {stored : Option (CheckpointValue γ P)} {cp : γ}
    (h : decodeBase missing corrupt stored = .ok cp) :
    ∃ e : TaskCheckpointEntry γ P, stored = some (.entry e) ∧ e.kind = .base cp := by
  cases stored with
  | none => cases h
  | some value =>
      obtain ⟨e, hentry, hkind⟩ := bind_ok h
      cases value with
      | entry found =>
          cases hentry
          split at hkind
          next hbase =>
            cases hkind
            exact ⟨e, rfl, hbase⟩
          next => cases hkind
      | _ => cases hentry

theorem baseToRead_some {seq baseSeq : Nat} (h : baseToRead cfg seq = .ok (some baseSeq)) :
    baseSeq ≠ seq := by
  unfold baseToRead at h
  split at h
  next => cases h
  next hdelta =>
    split at h
    next => cases h
    next hinterval =>
      simp only [Except.ok.injEq, Option.some.injEq] at h
      rintro rfl
      -- a multiple of the interval would have been stored as a base
      simp [shouldStoreBase, isMultipleOf, hinterval] at hdelta
      rw [← h] at hdelta
      simp at hdelta

theorem entryToStore_ok {kv : Checkpoints γ P} {taskId : String} {checkpoint : γ} {seq : Nat}
    {entry : TaskCheckpointEntry γ P}
    (h : entryToStore cfg json kv taskId checkpoint seq = .ok entry) :
    EntryFor json kv taskId checkpoint seq entry := by
  obtain ⟨base, hbase, hentry⟩ := bind_ok h
  cases base with
  | none =>
      cases hentry
      exact .base
  | some baseSeq =>
      obtain ⟨baseCp, hdecoded, hentry⟩ := bind_ok hentry
      obtain ⟨patch, hpatch, hentry⟩ := bind_ok hentry
      obtain ⟨e, hstored, hkind⟩ := decodeBase_ok hdecoded
      cases hentry
      exact .delta baseSeq patch e baseCp (baseToRead_some hbase) hstored hkind hpatch

theorem putCheckpointDelta_ok {client client' : NatsClient γ P} {taskId : String} {checkpoint : γ}
    {seq : Nat} (h : putCheckpointDelta cfg json client taskId checkpoint seq = .ok client') :
    ∃ entry, EntryFor json client.checkpoints taskId checkpoint seq entry ∧
      client' = ⟨afterPut client.checkpoints taskId seq entry, client.deltaCache.pop taskId⟩ := by
  obtain ⟨entry, hentry, h⟩ := bind_ok h
  obtain ⟨kv, hpointer, h⟩ := bind_ok h
  rw [updateLatestSeq_eq] at hpointer
  cases hpointer
  cases h
  exact ⟨entry, entryToStore_ok hentry, rfl⟩

/-! ## The read after a put -/

/-- A delta leads back to the checkpoint it was taken of. -/
theorem applyPatches_generateDelta (lawful : json.Lawful) {baseCp checkpoint : γ} {patch : P}
    (h : generateDelta json baseCp checkpoint = .ok patch) :
    applyPatches json baseCp [patch] = .ok checkpoint := by
  obtain ⟨baseVal, hbase, -⟩ := lawful.roundTrip baseCp
  obtain ⟨currentVal, hcurrent, hback⟩ := lawful.roundTrip checkpoint
  have hpatch : patch = json.diff baseVal currentVal := by
    simpa [generateDelta, toJson, hbase, hcurrent, Except.mapError, bind, Except.bind, pure,
      Except.pure] using h.symm
  subst hpatch
  simp [applyPatches, applyPatch, toJson, hbase, hback, lawful.patch_diff, Except.mapError, bind,
    Except.bind, pure, Except.pure]

theorem storedUnder_afterPut_latest (kv : Checkpoints γ P) (taskId : String) (seq : Nat)
    (entry : TaskCheckpointEntry γ P) :
    storedUnder (afterPut kv taskId seq entry) (latestKey taskId) = some (.latest seq) := by
  simp [afterPut]

theorem storedUnder_afterPut_same (kv : Checkpoints γ P) (taskId : String) (seq : Nat)
    (entry : TaskCheckpointEntry γ P) :
    storedUnder (afterPut kv taskId seq entry) (seqKey taskId seq) = some (.entry entry) := by
  simp [afterPut, seqKey_ne_latestKey]

/-- A put leaves the other entries alone. -/
theorem storedUnder_afterPut_seqKey (kv : Checkpoints γ P) {taskId other : String} {seq n : Nat}
    (entry : TaskCheckpointEntry γ P) (h : ¬(other = taskId ∧ n = seq)) :
    storedUnder (afterPut kv taskId seq entry) (seqKey other n) =
      storedUnder kv (seqKey other n) := by
  have hkey : seqKey other n ≠ seqKey taskId seq := fun hsame => h (seqKey_inj.mp hsame)
  simp [afterPut, seqKey_ne_latestKey, hkey]

theorem storedUnder_afterPut_latest_other (kv : Checkpoints γ P) {taskId other : String}
    (h : other ≠ taskId) (seq : Nat) (entry : TaskCheckpointEntry γ P) :
    storedUnder (afterPut kv taskId seq entry) (latestKey other) =
      storedUnder kv (latestKey other) := by
  have hkey : latestKey other ≠ latestKey taskId := fun hsame => h (latestKey_inj.mp hsame)
  simp [afterPut, (seqKey_ne_latestKey taskId other seq).symm, hkey]

/-- Base or delta, the entry of a put reads back as its checkpoint. -/
theorem reconstructAtSeq_afterPut (lawful : json.Lawful) {kv : Checkpoints γ P} {taskId : String}
    {checkpoint : γ} {seq : Nat} {entry : TaskCheckpointEntry γ P}
    (written : EntryFor json kv taskId checkpoint seq entry) :
    reconstructAtSeq json (afterPut kv taskId seq entry) taskId seq = .ok (some checkpoint) := by
  unfold reconstructAtSeq
  rw [storedUnder_afterPut_same]
  cases written with
  | base => rfl
  | delta baseSeq patch base baseCp other stored full generated =>
      have hbase : storedUnder (afterPut kv taskId seq ⟨seq, baseSeq, .delta patch⟩)
          (seqKey taskId baseSeq) = some (.entry base) := by
        rw [storedUnder_afterPut_seqKey kv _ fun h => other h.2]
        exact stored
      have hpatched := applyPatches_generateDelta lawful generated
      simp [decodeEntry, patchedBase, decodeBase, hbase, full, hpatched, bind, Except.bind,
        Functor.map, Except.map]

/-- The reads of a task do not depend on the puts of another. -/
theorem reconstructAtSeq_afterPut_other (kv : Checkpoints γ P) {taskId other : String}
    (h : other ≠ taskId) (seq n : Nat) (entry : TaskCheckpointEntry γ P) :
    reconstructAtSeq json (afterPut kv taskId seq entry) other n =
      reconstructAtSeq json kv other n := by
  have hget : ∀ m, storedUnder (afterPut kv taskId seq entry) (seqKey other m) =
      storedUnder kv (seqKey other m) :=
    fun m => storedUnder_afterPut_seqKey kv entry fun hsame => h hsame.1
  simp only [reconstructAtSeq, hget]

/-! ## Sequences of calls -/

inductive CheckpointOp (γ : Type) where
  | put (taskId : String) (checkpoint : γ) (seq : Nat)
  | get (taskId : String) (now filledAt : Nat)

/-- The calls one after the other; `none` once a put fails. -/
def runOps (cfg : StateDeltaConfig) (json : CheckpointJson γ J P) :
    NatsClient γ P → List (CheckpointOp γ) → Option (NatsClient γ P)
  | client, [] => some client
  | client, .put taskId checkpoint seq :: rest =>
      match putCheckpointDelta cfg json client taskId checkpoint seq with
      | .error _ => none
      | .ok client' => runOps cfg json client' rest
  | client, .get taskId now filledAt :: rest =>
      runOps cfg json (getLatestCheckpoint cfg json client taskId now filledAt).2 rest

/-- The checkpoints put for a task with their seqs, in the order of the calls. -/
def putsOf (taskId : String) : List (CheckpointOp γ) → List (γ × Nat)
  | [] => []
  | .put other checkpoint seq :: rest =>
      if other = taskId then (checkpoint, seq) :: putsOf taskId rest else putsOf taskId rest
  | .get _ _ _ :: rest => putsOf taskId rest

/-- The task reads back as the checkpoint of its last put, from the bucket and from the
cache. -/
structure ReadsBack (json : CheckpointJson γ J P) (taskId : String) (last : γ × Nat)
    (client : NatsClient γ P) : Prop where
  pointer : storedUnder client.checkpoints (latestKey taskId) = some (.latest last.2)
  stored : reconstructAtSeq json client.checkpoints taskId last.2 = .ok (some last.1)
  cached : ∀ hit, client.deltaCache.find taskId = some hit → hit.checkpoint = last.1

variable {client client' : NatsClient γ P} {taskId : String} {last : γ × Nat}

theorem lookup_cases (cfg : StateDeltaConfig) (cache : DeltaCache γ) (taskId : String) (now : Nat) :
    (∃ hit, (lookup cfg cache taskId now).1 = some hit ∧ cache.find taskId = some hit ∧
        ∀ other, (lookup cfg cache taskId now).2.find other = cache.find other) ∨
      ((lookup cfg cache taskId now).1 = none ∧
        ∀ other hit, (lookup cfg cache taskId now).2.find other = some hit →
          cache.find other = some hit) := by
  have hfst := Lru.get_fst cache taskId
  have hsnd := Lru.find_get cache taskId
  unfold lookup
  split
  next next hget =>
    rw [hget] at hsnd
    exact .inr ⟨rfl, fun other hit hfound => by rw [← hsnd other]; exact hfound⟩
  next cached next hget =>
    rw [hget] at hfst hsnd
    split
    next => exact .inl ⟨cached, rfl, hfst.symm, hsnd⟩
    next =>
      refine .inr ⟨rfl, ?_⟩
      intro other hit hfound
      rw [← hsnd other]
      exact Lru.find_pop_some hfound

theorem decodeLatest_some {stored : Option (CheckpointValue γ P)} {seq : Nat}
    (h : decodeLatest taskId stored = .ok (some seq)) : stored = some (.latest seq) := by
  unfold decodeLatest at h
  split at h
  next => cases h
  next =>
    cases h
    rfl
  next => cases h

/-- A get writes nothing to the bucket, and what it puts into the cache it has read there. -/
theorem getLatestCheckpoint_effect (cfg : StateDeltaConfig) (json : CheckpointJson γ J P)
    (client : NatsClient γ P) (taskId : String) (now filledAt : Nat) :
    (getLatestCheckpoint cfg json client taskId now filledAt).2.checkpoints = client.checkpoints ∧
      ∀ other hit,
        (getLatestCheckpoint cfg json client taskId now filledAt).2.deltaCache.find other =
          some hit →
        client.deltaCache.find other = some hit ∨
          (other = taskId ∧ ∃ seq,
            storedUnder client.checkpoints (latestKey taskId) = some (.latest seq) ∧
            reconstructAtSeq json client.checkpoints taskId seq = .ok (some hit.checkpoint)) := by
  have hkept : ∀ other hit, (lookup cfg client.deltaCache taskId now).2.find other = some hit →
      client.deltaCache.find other = some hit := by
    intro other hit hfound
    rcases lookup_cases cfg client.deltaCache taskId now with ⟨-, -, -, hsame⟩ | ⟨-, hold⟩
    · rwa [← hsame other]
    · exact hold other hit hfound
  unfold getLatestCheckpoint
  split
  next cached cache hlookup =>
    rw [hlookup] at hkept
    exact ⟨rfl, fun other hit hfound => .inl (hkept other hit hfound)⟩
  next cache hlookup =>
    rw [hlookup] at hkept
    dsimp only
    split
    next => exact ⟨rfl, fun other hit hfound => .inl (hkept other hit hfound)⟩
    next => exact ⟨rfl, fun other hit hfound => .inl (hkept other hit hfound)⟩
    next seq hlatest =>
      split
      next => exact ⟨rfl, fun other hit hfound => .inl (hkept other hit hfound)⟩
      next => exact ⟨rfl, fun other hit hfound => .inl (hkept other hit hfound)⟩
      next cp hread =>
        refine ⟨rfl, ?_⟩
        intro other hit hfound
        rcases Lru.find_put_some hfound with ⟨rfl, rfl⟩ | ⟨-, hold⟩
        · exact .inr ⟨rfl, seq, decodeLatest_some hlatest, hread⟩
        · exact .inl (hkept other hit hold)

/-- The answer of a get is the last checkpoint, whether the cache is warm or not. -/
theorem ReadsBack.answer (inv : ReadsBack json taskId last client) (cfg : StateDeltaConfig)
    (now filledAt : Nat) :
    (getLatestCheckpoint cfg json client taskId now filledAt).1 = .ok (some last.1) := by
  unfold getLatestCheckpoint
  split
  next cached cache hlookup =>
    rcases lookup_cases cfg client.deltaCache taskId now with ⟨hit, hfst, hfind, -⟩ | ⟨hfst, -⟩
    · rw [hlookup, Option.some.injEq] at hfst
      subst hfst
      simp [inv.cached cached hfind]
    · rw [hlookup] at hfst
      cases hfst
  next cache hlookup =>
    simp [inv.pointer, inv.stored, decodeLatest]

theorem ReadsBack.get (inv : ReadsBack json taskId last client) (cfg : StateDeltaConfig)
    (asked : String) (now filledAt : Nat) :
    ReadsBack json taskId last (getLatestCheckpoint cfg json client asked now filledAt).2 := by
  obtain ⟨hkv, hcache⟩ := getLatestCheckpoint_effect cfg json client asked now filledAt
  refine ⟨by rw [hkv]; exact inv.pointer, by rw [hkv]; exact inv.stored, ?_⟩
  intro hit hfound
  rcases hcache taskId hit hfound with hold | ⟨rfl, seq, hpointer, hread⟩
  · exact inv.cached hit hold
  · rw [inv.pointer, Option.some.injEq, CheckpointValue.latest.injEq] at hpointer
    rw [← hpointer, inv.stored] at hread
    simpa using hread.symm

/-- After a put the task reads back as the checkpoint that was put. -/
theorem readsBack_put (lawful : json.Lawful) {checkpoint : γ} {seq : Nat}
    (h : putCheckpointDelta cfg json client taskId checkpoint seq = .ok client') :
    ReadsBack json taskId (checkpoint, seq) client' := by
  obtain ⟨entry, hentry, rfl⟩ := putCheckpointDelta_ok h
  exact ⟨storedUnder_afterPut_latest _ _ _ _, reconstructAtSeq_afterPut lawful hentry, by simp⟩

theorem ReadsBack.put_other (inv : ReadsBack json taskId last client) {other : String}
    (hother : taskId ≠ other) {checkpoint : γ} {seq : Nat}
    (h : putCheckpointDelta cfg json client other checkpoint seq = .ok client') :
    ReadsBack json taskId last client' := by
  obtain ⟨entry, -, rfl⟩ := putCheckpointDelta_ok h
  refine ⟨?_, ?_, ?_⟩
  · rw [storedUnder_afterPut_latest_other _ hother]
    exact inv.pointer
  · rw [reconstructAtSeq_afterPut_other _ hother]
    exact inv.stored
  · intro hit hfound
    exact inv.cached hit (Lru.find_pop_some hfound)

/-- Over a whole sequence: the last put of the task, or the one before the sequence. -/
theorem runOps_readsBack (lawful : json.Lawful) {ops : List (CheckpointOp γ)}
    {before : Option (γ × Nat)} (inv : ∀ last ∈ before, ReadsBack json taskId last client)
    (run : runOps cfg json client ops = some client') :
    ∀ last ∈ (putsOf taskId ops).getLast?.or before, ReadsBack json taskId last client' := by
  induction ops generalizing client before with
  | nil =>
      simp only [runOps, Option.some.injEq] at run
      subst run
      simpa [putsOf] using inv
  | cons op rest ih =>
      cases op with
      | put other checkpoint seq =>
          simp only [runOps] at run
          split at run
          next => cases run
          next client₁ hput =>
            by_cases hsame : other = taskId
            · subst hsame
              have hfirst : ∀ last ∈ some (checkpoint, seq), ReadsBack json other last client₁ := by
                simpa using readsBack_put lawful hput
              have hnext := ih hfirst run
              rw [putsOf, if_pos rfl, List.getLast?_cons]
              simpa [Option.or_some] using hnext
            · have hnext := ih (fun last hlast =>
                (inv last hlast).put_other (Ne.symm hsame) hput) run
              rwa [putsOf, if_neg hsame]
      | get asked now filledAt =>
          exact ih (fun last hlast => (inv last hlast).get cfg asked now filledAt) run

/-! ## The highest seq -/

def highestSeq (puts : List (γ × Nat)) : Nat := (puts.map (·.2)).foldl max 0

/-- The checkpoint last written at a seq. -/
def lastWrittenAt (puts : List (γ × Nat)) (seq : Nat) : Option γ :=
  ((puts.filter (·.2 == seq)).getLast?).map (·.1)

theorem lastWrittenAt_last {puts : List (γ × Nat)} (h : puts.getLast? = some last) :
    lastWrittenAt puts last.2 = some last.1 := by
  obtain ⟨front, rfl⟩ := List.getLast?_eq_some_iff.mp h
  simp [lastWrittenAt, List.filter_append]

/-- For every configuration, every client to start with and every sequence of successful
puts and of gets, for any tasks and in any order of seqs: a get of the task returns the
checkpoint last written at the highest seq exactly if the last put was at that seq, or
wrote the same checkpoint as the last put there. -/
theorem readback_iff (cfg : StateDeltaConfig) (json : CheckpointJson γ J P)
    (lawful : json.Lawful) (client client' : NatsClient γ P) (ops : List (CheckpointOp γ))
    (run : runOps cfg json client ops = some client') (taskId : String) (last : γ × Nat)
    (hlast : (putsOf taskId ops).getLast? = some last) (now filledAt : Nat) :
    (getLatestCheckpoint cfg json client' taskId now filledAt).1 =
        .ok (lastWrittenAt (putsOf taskId ops) (highestSeq (putsOf taskId ops))) ↔
      last.2 = highestSeq (putsOf taskId ops) ∨
        lastWrittenAt (putsOf taskId ops) (highestSeq (putsOf taskId ops)) = some last.1 := by
  have hback : ReadsBack json taskId last client' := by
    have hnone : ∀ last ∈ (none : Option (γ × Nat)), ReadsBack json taskId last client := by simp
    exact runOps_readsBack lawful hnone run last (by simp [hlast])
  rw [hback.answer cfg now filledAt]
  constructor
  · intro h
    exact .inr (Except.ok.inj h).symm
  · intro h
    rcases h with hseq | hsame
    · rw [← hseq, lastWrittenAt_last hlast]
    · rw [hsame]

section Example

/-- Two fields of a checkpoint. -/
structure Progress where
  phase : String
  updatedAtMs : Nat
  deriving DecidableEq

/-- The `replace` operations of RFC 6902 on the two fields. -/
inductive ReplaceOp where
  | phase (value : String)
  | updatedAtMs (value : Nat)
  deriving DecidableEq

def ReplaceOp.apply (doc : Progress) : ReplaceOp → Progress
  | .phase value => { doc with phase := value }
  | .updatedAtMs value => { doc with updatedAtMs := value }

/-- A field that differs is replaced. -/
def progressJson : CheckpointJson Progress Progress (List ReplaceOp) where
  toValue := .ok
  fromValue := .ok
  diff a b :=
    (if a.phase = b.phase then [] else [.phase b.phase]) ++
      (if a.updatedAtMs = b.updatedAtMs then [] else [.updatedAtMs b.updatedAtMs])
  patch doc ops := .ok (ops.foldl ReplaceOp.apply doc)

theorem progressJson_lawful : progressJson.Lawful := by
  refine ⟨fun c => ⟨c, rfl, rfl⟩, ?_⟩
  intro a b
  cases a with
  | mk phase updated =>
      cases b with
      | mk phase' updated' =>
          by_cases hphase : phase = phase' <;> by_cases hupdated : updated = updated' <;>
            simp [progressJson, ReplaceOp.apply, hphase, hupdated]

def generated : Progress := ⟨"ParallelGeneration", 1⟩

def audited : Progress := ⟨"AuditorGate", 2⟩

/-- `StateDeltaConfig::default`. -/
def defaultDelta : StateDeltaConfig := ⟨true, 10, 60, 200⟩

def freshClient : NatsClient Progress (List ReplaceOp) := .connectWithCfg defaultDelta .empty

def clientAfter (ops : List (CheckpointOp Progress)) : NatsClient Progress (List ReplaceOp) :=
  (runOps defaultDelta progressJson freshClient ops).getD freshClient

/-- A base and a delta in order are read back, from the bucket and then from the cache. -/
theorem delta_is_read_back :
    (getLatestCheckpoint defaultDelta progressJson
      (clientAfter [.put "t" generated 0, .get "t" 0 0, .put "t" audited 1, .get "t" 5 5]) "t" 9
      9).1 = .ok (some audited) := by
  have hiff := readback_iff defaultDelta progressJson progressJson_lawful freshClient
    (clientAfter [.put "t" generated 0, .get "t" 0 0, .put "t" audited 1, .get "t" 5 5])
    [.put "t" generated 0, .get "t" 0 0, .put "t" audited 1, .get "t" 5 5] rfl "t" (audited, 1)
    rfl 9 9
  exact hiff.mpr (.inl rfl)

/-- Seq 0 is written again after seq 1: the read returns the checkpoint at seq 0. -/
theorem repeated_put_hides_newer :
    let ops := [.put "t" generated 0, .put "t" audited 1, .put "t" generated 0]
    highestSeq (putsOf "t" ops) = 1 ∧ lastWrittenAt (putsOf "t" ops) 1 = some audited ∧
      (runOps defaultDelta progressJson freshClient ops).isSome = true ∧
      (getLatestCheckpoint defaultDelta progressJson (clientAfter ops) "t" 0 0).1 =
        .ok (some generated) ∧ generated ≠ audited := by
  refine ⟨by decide, by decide, by rfl, by rfl, by decide⟩

end Example

end ControlPlane.Guarantees.CheckpointReadback

/-!
# Checkpoint cache coherence

A checkpoint is dated by the revision of the latest pointer: a put by the revision of
its pointer write, a cached checkpoint by the revision of the pointer it was read
through. A get fills the cache some time after it has read the pointer. If a put writes
the pointer, pops the cache and returns in between, the fill puts the older checkpoint
back, and gets that start later are answered with it. That is the only way.
-/
namespace ControlPlane.Guarantees.CheckpointCoherence

open Lib Source.State CheckpointReadback

variable {γ J P : Type} {cfg : StateDeltaConfig} {json : CheckpointJson γ J P}

/-! ## Steps -/

/-- A put that has returned `Ok` or a get that was answered from the cache. -/
def settled : CheckpointCall γ P → Bool
  | .putReturned _ _ _ (.ok _) => true
  | .getHit _ _ => true
  | _ => false

/-- A cache with nothing that was not there before. -/
def Within (cache cache' : DeltaCache γ) : Prop :=
  ∀ taskId hit, cache'.find taskId = some hit → cache.find taskId = some hit

theorem Within.refl (cache : DeltaCache γ) : Within cache cache := fun _ _ h => h

theorem lookup_within (cfg : StateDeltaConfig) (cache : DeltaCache γ) (taskId : String)
    (now : Nat) : Within cache (lookup cfg cache taskId now).2 := by
  intro other hit hfound
  rcases lookup_cases cfg cache taskId now with ⟨-, -, -, hsame⟩ | ⟨-, hold⟩
  · rwa [← hsame other]
  · exact hold other hit hfound

/-- What one operation does to the cache and to its call. -/
inductive Operated (client : NatsClient γ P) :
    CheckpointCall γ P → NatsClient γ P → CheckpointCall γ P → Prop where
  | moved (call : CheckpointCall γ P) (client' : NatsClient γ P) (call' : CheckpointCall γ P)
      (open' : settled call = false) (moves : settled call' = false)
      (cache : Within client.deltaCache client'.deltaCache) : Operated client call client' call'
  | invalidated (taskId : String) (checkpoint : γ) (seq written : Nat) :
      Operated client (.putInvalidating taskId checkpoint seq written)
        (client.caching (client.deltaCache.pop taskId))
        (.putReturned taskId checkpoint seq (.ok written))
  | hit (taskId : String) (cached : CachedCheckpoint γ) (cache : DeltaCache γ)
      (found : client.deltaCache.find taskId = some cached)
      (within : Within client.deltaCache cache) :
      Operated client (.getLooking taskId) (client.caching cache) (.getHit taskId cached)
  | filled (taskId : String) (seq revision : Nat) (checkpoint : γ) (now : Nat) :
      Operated client (.getFilling taskId seq revision checkpoint)
        (client.caching (client.deltaCache.put taskId ⟨checkpoint, seq, now, revision⟩))
        (.getReturned taskId (.ok (some checkpoint)))

theorem settled_nextPointing (taskId : String) (checkpoint : γ) (seq attempts : Nat) :
    settled (nextPointing taskId checkpoint seq attempts : CheckpointCall γ P) = false := by
  cases attempts with
  | zero => rfl
  | succ attempts => rfl

theorem settled_entryRead (taskId : String) (seq revision : Nat)
    (stored : Option (CheckpointValue γ P)) :
    settled (entryRead taskId seq revision stored) = false := by
  unfold entryRead
  split
  next => rfl
  next =>
    split
    next => rfl
    next =>
      split
      next => rfl
      next => rfl

theorem operate_cases {client client' : NatsClient γ P} {now : Nat}
    {call call' : CheckpointCall γ P}
    (h : operate cfg json client now call = some (client', call')) :
    Operated client call client' call' := by
  cases call with
  | putReading taskId checkpoint seq =>
      simp only [operate] at h
      split at h
      next =>
        cases h
        exact .moved _ _ _ rfl rfl (.refl _)
      next =>
        cases h
        exact .moved _ _ _ rfl rfl (.refl _)
  | putStoring taskId checkpoint seq entry =>
      cases h
      exact .moved _ _ _ rfl rfl (.refl _)
  | putPointing taskId checkpoint seq attempts =>
      cases h
      exact .moved _ _ _ rfl rfl (.refl _)
  | putSwapping taskId checkpoint seq attempts revision =>
      simp only [operate] at h
      split at h
      next =>
        cases h
        exact .moved _ _ _ rfl rfl (.refl _)
      next =>
        cases h
        exact .moved _ _ _ rfl (settled_nextPointing _ _ _ _) (.refl _)
  | putInvalidating taskId checkpoint seq written =>
      cases h
      exact .invalidated taskId checkpoint seq written
  | getLooking taskId =>
      have hwithin := lookup_within cfg client.deltaCache taskId now
      simp only [operate] at h
      split at h
      next cached cache hlookup =>
        cases h
        rw [hlookup] at hwithin
        rcases lookup_cases cfg client.deltaCache taskId now with ⟨hit, hfst, hfind, -⟩ | ⟨hfst, -⟩
        · rw [hlookup, Option.some.injEq] at hfst
          subst hfst
          exact .hit taskId cached cache hfind hwithin
        · rw [hlookup] at hfst
          cases hfst
      next cache hlookup =>
        cases h
        rw [hlookup] at hwithin
        exact .moved _ _ _ rfl rfl hwithin
  | getPointer taskId =>
      simp only [operate] at h
      split at h
      next =>
        cases h
        exact .moved _ _ _ rfl rfl (.refl _)
      next =>
        cases h
        exact .moved _ _ _ rfl rfl (.refl _)
      next =>
        cases h
        exact .moved _ _ _ rfl rfl (.refl _)
  | getLegacy taskId =>
      cases h
      exact .moved _ _ _ rfl rfl (.refl _)
  | getEntry taskId seq revision =>
      cases h
      exact .moved _ _ _ rfl (settled_entryRead _ _ _ _) (.refl _)
  | getBase taskId seq revision baseSeq patch =>
      simp only [operate] at h
      split at h
      next =>
        cases h
        exact .moved _ _ _ rfl rfl (.refl _)
      next =>
        cases h
        exact .moved _ _ _ rfl rfl (.refl _)
  | getFilling taskId seq revision checkpoint =>
      cases h
      exact .filled taskId seq revision checkpoint now
  | putReturned taskId checkpoint seq result => cases h
  | getHit taskId cached => cases h
  | getReturned taskId result => cases h

theorem failWith_settled {message : String} {call call' : CheckpointCall γ P}
    (h : failWith message call = some call') : settled call = false ∧ settled call' = false := by
  unfold failWith at h
  split at h
  case h_4 =>
    cases h
    exact ⟨rfl, settled_nextPointing _ _ _ _⟩
  case h_10 => cases h
  all_goals
    cases h
    exact ⟨rfl, rfl⟩

/-- What a step does: it starts a call, or one call takes an operation. -/
inductive Stepped (s : CheckpointState γ P) : CheckpointAction γ → CheckpointState γ P → Prop where
  | started (action : CheckpointAction γ) (call : CheckpointCall γ P) (new : settled call = false) :
      Stepped s action { s with calls := s.calls ++ [call] }
  | operated (caller now : Nat) (call call' : CheckpointCall γ P) (client : NatsClient γ P)
      (at' : s.calls[caller]? = some call) (effect : Operated s.client call client call') :
      Stepped s (.operate caller now) ⟨client, s.calls.set caller call'⟩
  | failed (caller : Nat) (message : String) (call call' : CheckpointCall γ P)
      (at' : s.calls[caller]? = some call) (open' : settled call = false)
      (fails : settled call' = false) :
      Stepped s (.fail caller message) { s with calls := s.calls.set caller call' }

theorem checkpointStep_cases {s s' : CheckpointState γ P} {action : CheckpointAction γ}
    (h : checkpointStep cfg json s action = some s') : Stepped s action s' := by
  cases action with
  | startPut taskId checkpoint seq =>
      cases h
      exact .started _ _ rfl
  | startGet taskId =>
      cases h
      exact .started _ _ rfl
  | operate caller now =>
      obtain ⟨call, hcall, h⟩ := Option.bind_eq_some_iff.mp h
      obtain ⟨⟨client, call'⟩, hoperate, h⟩ := Option.bind_eq_some_iff.mp h
      cases h
      exact .operated caller now call call' client hcall (operate_cases hoperate)
  | fail caller message =>
      obtain ⟨call, hcall, h⟩ := Option.bind_eq_some_iff.mp h
      obtain ⟨call', hfail, h⟩ := Option.bind_eq_some_iff.mp h
      cases h
      obtain ⟨hopen, hsettled⟩ := failWith_settled hfail
      exact .failed caller message call call' hcall hopen hsettled

/-! ## Coherence -/

/-- No put of the task has returned that wrote the pointer after this revision. -/
def noLaterPut (taskId : String) (revision : Nat) : CheckpointCall γ P → Bool
  | .putReturned other _ _ (.ok written) => other != taskId || decide (written ≤ revision)
  | _ => true

/-- A get fills the cache only while no put has returned that wrote the pointer after the
get has read it. -/
def FillsInTime (s : CheckpointState γ P) : CheckpointAction γ → Prop
  | .operate caller _ =>
      match s.calls[caller]? with
      | some (.getFilling taskId _ revision _) => s.calls.all (noLaterPut taskId revision) = true
      | _ => True
  | _ => True

/-- No cached checkpoint is older than a put of its task that has returned. -/
def CacheFresh (s : CheckpointState γ P) : Prop :=
  ∀ taskId checkpoint seq written hit,
    .putReturned taskId checkpoint seq (.ok written) ∈ s.calls →
    s.client.deltaCache.find taskId = some hit → written ≤ hit.revision

variable {s s' : CheckpointState γ P} {action : CheckpointAction γ}

theorem Operated.open {client client' : NatsClient γ P} {call call' : CheckpointCall γ P}
    (h : Operated client call client' call') : settled call = false := by
  cases h with
  | moved _ _ _ hopen _ _ => exact hopen
  | _ => rfl

theorem CacheFresh.of_within {client : NatsClient γ P} {calls : List (CheckpointCall γ P)}
    (inv : CacheFresh s) (within : Within s.client.deltaCache client.deltaCache)
    (puts : ∀ taskId checkpoint seq written,
      .putReturned taskId checkpoint seq (.ok written) ∈ calls →
      .putReturned taskId checkpoint seq (.ok written) ∈ s.calls) : CacheFresh ⟨client, calls⟩ := by
  intro taskId checkpoint seq written hit hput hfind
  exact inv taskId checkpoint seq written hit (puts _ _ _ _ hput) (within taskId hit hfind)

/-- A settled call that is found after a step was there before it, if the step settles none. -/
theorem mem_of_mem_set {calls : List (CheckpointCall γ P)} {caller : Nat}
    {call call' : CheckpointCall γ P} (moves : settled call' = false)
    (hsettled : settled call = true) (h : call ∈ calls.set caller call') : call ∈ calls := by
  rcases List.mem_or_eq_of_mem_set h with hold | rfl
  · exact hold
  · rw [hsettled] at moves
    cases moves

theorem CacheFresh.filled (inv : CacheFresh s) {now seq revision : Nat} {taskId : String}
    {checkpoint : γ} {client : NatsClient γ P} {calls : List (CheckpointCall γ P)}
    (cache : client.deltaCache =
      s.client.deltaCache.put taskId ⟨checkpoint, seq, now, revision⟩)
    (puts : ∀ taskId checkpoint seq written,
      .putReturned taskId checkpoint seq (.ok written) ∈ calls →
      .putReturned taskId checkpoint seq (.ok written) ∈ s.calls)
    (inTime : s.calls.all (noLaterPut taskId revision) = true) : CacheFresh ⟨client, calls⟩ := by
  intro other checkpoint' seq' written hit hput hfind
  have hold := puts _ _ _ _ hput
  rw [cache] at hfind
  rcases Lru.find_put_some hfind with ⟨rfl, rfl⟩ | ⟨-, hbefore⟩
  · have hlater := List.all_eq_true.mp inTime _ hold
    simpa [noLaterPut] using hlater
  · exact inv other checkpoint' seq' written hit hold hbefore

theorem CacheFresh.step (inv : CacheFresh s) (inTime : FillsInTime s action)
    (h : Stepped s action s') : CacheFresh s' := by
  cases h with
  | started _ call new =>
      refine inv.of_within (.refl _) ?_
      intro taskId checkpoint seq written hmem
      rcases List.mem_append.mp hmem with hold | hnew
      · exact hold
      · rw [← List.mem_singleton.mp hnew] at new
        cases new
  | operated caller now call call' client at' effect =>
      cases effect with
      | moved _ _ _ open' moves cache =>
          exact inv.of_within cache fun _ _ _ _ hmem => mem_of_mem_set moves rfl hmem
      | invalidated taskId checkpoint seq written =>
          intro other checkpoint' seq' written' hit hput hfind
          have hne : other ≠ taskId := by
            rintro rfl
            simp [NatsClient.caching] at hfind
          refine inv other checkpoint' seq' written' hit ?_ (Lru.find_pop_some hfind)
          rcases List.mem_or_eq_of_mem_set hput with hold | hnew
          · exact hold
          · cases hnew
            exact absurd rfl hne
      | hit taskId cached cache found within =>
          refine inv.of_within within ?_
          intro other checkpoint seq written hmem
          rcases List.mem_or_eq_of_mem_set hmem with hold | hnew
          · exact hold
          · cases hnew
      | filled taskId seq revision checkpoint now =>
          simp only [FillsInTime, at'] at inTime
          exact inv.filled rfl (fun _ _ _ _ hmem => mem_of_mem_set rfl rfl hmem) inTime
  | failed caller message call call' at' open' fails =>
      exact inv.of_within (.refl _) fun _ _ _ _ hmem => mem_of_mem_set fails rfl hmem

/-! ## Gets that start after a put has returned -/

/-- A put has returned, and the gets from the `start`-th call on were not answered with
anything older. -/
structure ServedSince (start : Nat) (taskId : String) (written : Nat)
    (s : CheckpointState γ P) : Prop where
  fresh : CacheFresh s
  returned : ∃ checkpoint seq, .putReturned taskId checkpoint seq (.ok written) ∈ s.calls
  served : ∀ caller cached, start ≤ caller →
    s.calls[caller]? = some (.getHit taskId cached) → written ≤ cached.revision

/-- A call that has settled stays. -/
theorem mem_set_of_mem {calls : List (CheckpointCall γ P)} {caller : Nat}
    {call call' returned : CheckpointCall γ P} (at' : calls[caller]? = some call)
    (open' : settled call = false) (hsettled : settled returned = true) (h : returned ∈ calls) :
    returned ∈ calls.set caller call' := by
  obtain ⟨index, hindex⟩ := List.mem_iff_getElem?.mp h
  have hne : caller ≠ index := by
    rintro rfl
    rw [at', Option.some.injEq] at hindex
    rw [hindex, hsettled] at open'
    cases open'
  exact List.mem_iff_getElem?.mpr ⟨index, by rw [List.getElem?_set_ne hne]; exact hindex⟩

theorem getElem?_set_cases {α : Type} {l : List α} {i j : Nat} {a b : α}
    (h : (l.set i a)[j]? = some b) : b = a ∨ l[j]? = some b := by
  rw [List.getElem?_set] at h
  split at h
  next hsame =>
    subst hsame
    split at h
    next =>
      cases h
      exact .inl rfl
    next => cases h
  next => exact .inr h

theorem ServedSince.step {start written : Nat} {taskId : String}
    (inv : ServedSince start taskId written s) (inTime : FillsInTime s action)
    (h : Stepped s action s') : ServedSince start taskId written s' := by
  refine ⟨inv.fresh.step inTime h, ?_, ?_⟩
  · obtain ⟨checkpoint, seq, hmem⟩ := inv.returned
    refine ⟨checkpoint, seq, ?_⟩
    cases h with
    | started _ call new => exact List.mem_append.mpr (.inl hmem)
    | operated caller now call call' client at' effect =>
        exact mem_set_of_mem at' effect.open rfl hmem
    | failed caller message call call' at' open' fails => exact mem_set_of_mem at' open' rfl hmem
  · intro other cached hstart hhit
    cases h with
    | started _ call new =>
        rcases getElem?_concat_cases hhit with hold | ⟨-, rfl⟩
        · exact inv.served other cached hstart hold
        · cases new
    | operated caller now call call' client at' effect =>
        rcases getElem?_set_cases hhit with rfl | hold
        · cases effect with
          | moved _ _ _ open' moves cache => cases moves
          | hit taskId cached cache found within =>
              obtain ⟨checkpoint, seq, hmem⟩ := inv.returned
              exact inv.fresh taskId checkpoint seq written cached hmem found
        · exact inv.served other cached hstart hold
    | failed caller message call call' at' open' fails =>
        rcases getElem?_set_cases hhit with rfl | hold
        · cases fails
        · exact inv.served other cached hstart hold

/-- For every interleaving of any number of calls on one client, whatever its bucket and
cache hold at the start: if no fill of the run comes after a put of the task has returned
that wrote the pointer after the get had read it, then no get that starts after a put has
returned `Ok` is answered from the cache with a checkpoint older than that put's. -/
theorem cached_answers_are_fresh (cfg : StateDeltaConfig) (json : CheckpointJson γ J P)
    (client : NatsClient γ P) (before after : List (CheckpointAction γ))
    (s₁ s₂ : CheckpointState γ P)
    (reached : runActions (checkpointStep cfg json) ⟨client, []⟩ before = some s₁)
    (inTime₁ : RunMeets (checkpointStep cfg json) FillsInTime ⟨client, []⟩ before)
    (run : runActions (checkpointStep cfg json) s₁ after = some s₂)
    (inTime₂ : RunMeets (checkpointStep cfg json) FillsInTime s₁ after)
    (taskId : String) (checkpoint : γ) (seq written : Nat)
    (returned : .putReturned taskId checkpoint seq (.ok written) ∈ s₁.calls)
    (caller : Nat) (later : s₁.calls.length ≤ caller) (cached : CachedCheckpoint γ)
    (answered : s₂.calls[caller]? = some (.getHit taskId cached)) :
    written ≤ cached.revision := by
  have hfresh : CacheFresh s₁ :=
    runMeets_holds (fun _ _ _ inv inTime h => inv.step inTime (checkpointStep_cases h))
      (fun _ _ _ _ _ hmem => by cases hmem) inTime₁ reached
  have hstart : ServedSince s₁.calls.length taskId written s₁ := by
    refine ⟨hfresh, ⟨checkpoint, seq, returned⟩, ?_⟩
    intro other cached hlength hhit
    rw [List.getElem?_eq_none hlength] at hhit
    cases hhit
  have hend : ServedSince s₁.calls.length taskId written s₂ :=
    runMeets_holds (fun _ _ _ inv inTime h => inv.step inTime (checkpointStep_cases h))
      hstart inTime₂ run
  exact hend.served caller cached later answered

section Example

instance decidableFillsInTime (s : CheckpointState γ P) (action : CheckpointAction γ) :
    Decidable (FillsInTime s action) := by
  unfold FillsInTime
  split
  next => split <;> infer_instance
  next => infer_instance

abbrev ProgressState := CheckpointState Progress (List ReplaceOp)

abbrev progressStep : ProgressState → CheckpointAction Progress → Option ProgressState :=
  checkpointStep defaultDelta progressJson

def stateAfter (s : ProgressState) (actions : List (CheckpointAction Progress)) : ProgressState :=
  (runActions progressStep s actions).getD s

/-- The next operations of one call. -/
def takes (caller count : Nat) : List (CheckpointAction Progress) :=
  List.replicate count (.operate caller 0)

/-- A put; a get that has read its checkpoint; a second put that returns. -/
def overtakingPut : List (CheckpointAction Progress) :=
  [.startPut "t" generated 0] ++ takes 0 5 ++ [.startGet "t"] ++ takes 1 3 ++
    [.startPut "t" audited 1] ++ takes 2 5

/-- The first get fills the cache; a get that starts now is answered from it. -/
def lateFill : List (CheckpointAction Progress) := takes 1 1 ++ [.startGet "t"] ++ takes 3 1

/-- The get is over before the second put starts. -/
def promptGet : List (CheckpointAction Progress) :=
  [.startPut "t" generated 0] ++ takes 0 5 ++ [.startGet "t"] ++ takes 1 4 ++
    [.startPut "t" audited 1] ++ takes 2 5

/-- Two gets: the first reads the bucket and fills the cache, the second is answered from it. -/
def twoGets : List (CheckpointAction Progress) :=
  [.startGet "t"] ++ takes 3 5 ++ [.startGet "t"] ++ takes 4 1

def startState : ProgressState := ⟨freshClient, []⟩

theorem prompt_get_is_fresh :
    (stateAfter (stateAfter startState promptGet) twoGets).calls[4]? =
        some (.getHit "t" ⟨audited, 1, 0, 4⟩) ∧
      CheckpointCall.putReturned "t" audited 1 (.ok 4) ∈ (stateAfter startState promptGet).calls ∧
      4 ≤ (⟨audited, 1, 0, 4⟩ : CachedCheckpoint Progress).revision := by
  have hanswered : (stateAfter (stateAfter startState promptGet) twoGets).calls[4]? =
      some (.getHit "t" ⟨audited, 1, 0, 4⟩) := by rfl
  have hreturned : CheckpointCall.putReturned "t" audited 1 (.ok 4) ∈
      (stateAfter startState promptGet).calls :=
    List.mem_iff_getElem?.mpr ⟨2, by rfl⟩
  exact ⟨hanswered, hreturned, cached_answers_are_fresh defaultDelta progressJson freshClient
    promptGet twoGets (stateAfter startState promptGet)
    (stateAfter (stateAfter startState promptGet) twoGets) (by rfl) (by decide +kernel) (by rfl)
    (by decide +kernel) "t" audited 1 4 hreturned 4 (by decide +kernel) ⟨audited, 1, 0, 4⟩
    hanswered⟩

/-- A get reads the checkpoint at seq 0 and is overtaken by a put at seq 1. Its fill comes
after that put has returned, and the next get is answered with seq 0. -/
theorem late_fill_serves_older :
    CheckpointCall.putReturned "t" audited 1 (.ok 4) ∈ (stateAfter startState overtakingPut).calls ∧
      (stateAfter startState overtakingPut).calls.length = 3 ∧
      (runActions progressStep startState (overtakingPut ++ lateFill)).isSome = true ∧
      (stateAfter (stateAfter startState overtakingPut) lateFill).calls[3]? =
        some (.getHit "t" ⟨generated, 0, 0, 2⟩) ∧
      ¬ 4 ≤ (⟨generated, 0, 0, 2⟩ : CachedCheckpoint Progress).revision := by
  exact ⟨List.mem_iff_getElem?.mpr ⟨2, by rfl⟩, by rfl, by rfl, by rfl, by decide⟩

end Example

end ControlPlane.Guarantees.CheckpointCoherence
