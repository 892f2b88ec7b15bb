import ControlPlane.Source.Memory.SessionMemory

/-!
# Session histories

Appends of any number of interleaved calls lose nothing: a call writes only over the
revision it has read, so what it writes extends the stored history by its whole batch.
Read back, the two providers differ in direction: `NatsKvStore` returns the window
oldest first, `InMemoryCache` newest first.
-/
namespace ControlPlane.Guarantees.SessionHistory

open Lib Source.Memory

variable {ν : Type} {validKey : String → Bool}

theorem historyKey_injective {a b : String} (h : historyKey a = historyKey b) : a = b := by
  simpa [historyKey] using h

/-- The history stored for a session; `none` if the bytes do not parse. -/
def storedHistory (kv : Sessions ν) (sessionId : String) : Option (List ν) :=
  match (kv.slots (historyKey sessionId)).value with
  | none => some []
  | some (.array values) => some values
  | some .unreadable => none

/-! ## The two operations -/

/-- What `entry` returned is what the bucket holds. -/
theorem readEntry_ok {kv : Sessions ν} {key : String} {existing : List ν} {revision : Option Nat}
    (h : readEntry validKey kv key = .ok (existing, revision)) :
    (revision = none ∧ existing = [] ∧ (kv.slots key).value = none) ∨
      (revision = some (kv.slots key).revision ∧
        (kv.slots key).value = some (.array existing)) := by
  unfold readEntry at h
  split at h
  next =>
    split at h
    next hvalue =>
      cases h
      exact .inl ⟨rfl, rfl, hvalue⟩
    next values hvalue =>
      cases h
      exact .inr ⟨rfl, hvalue⟩
    next => cases h
  next => cases h

/-- A write that lands finds the revision that was read, or a free key. -/
theorem writeEntry_some {kv kv' : Sessions ν} {key : String} {values : List ν}
    {revision : Option Nat} (h : writeEntry kv key values revision = some kv') :
    kv' = kv.write key (some (.array values)) ∧
      (revision = some (kv.slots key).revision ∨
        revision = none ∧ (kv.slots key).value = none) := by
  cases revision with
  | some rev =>
      simp only [writeEntry, Bucket.update, Option.map_eq_some_iff] at h
      obtain ⟨⟨written, number⟩, hupdate, rfl⟩ := h
      split at hupdate
      next hrev =>
        simp only [Bucket.put, Option.some.injEq, Prod.mk.injEq] at hupdate
        exact ⟨hupdate.1.symm, .inl (by rw [hrev])⟩
      next => cases hupdate
  | none =>
      simp only [writeEntry, Option.map_eq_some_iff] at h
      obtain ⟨⟨written, number⟩, hcreate, rfl⟩ := h
      obtain ⟨hfree, hwritten⟩ := Bucket.create_eq_some hcreate
      exact ⟨hwritten, .inr ⟨rfl, hfree⟩⟩

theorem storedHistory_write_same (kv : Sessions ν) (sessionId : String) (values : List ν) :
    storedHistory (kv.write (historyKey sessionId) (some (.array values))) sessionId =
      some values := by
  simp [storedHistory]

theorem slots_write_other (kv : Sessions ν) {written sessionId : String} (h : sessionId ≠ written)
    (values : List ν) :
    (kv.write (historyKey written) (some (.array values))).slots (historyKey sessionId) =
      kv.slots (historyKey sessionId) := by
  have hkey : historyKey sessionId ≠ historyKey written :=
    fun hsame => h (historyKey_injective hsame)
  simp [hkey]

/-! ## Steps -/

/-- The call is at no write and has not returned `Ok`. -/
def CommitCall.quiet : CommitCall ν → Prop
  | .writing _ _ _ _ _ => False
  | .returned _ _ (.ok _) => False
  | _ => True

theorem nextAttempt_quiet (sessionId : String) (memories : List ν) (attempts : Nat) :
    CommitCall.quiet (nextAttempt sessionId memories attempts) := by
  cases attempts with
  | zero => trivial
  | succ attempts => trivial

/-- What one operation can do: read, land a write, or move on without effect. -/
inductive CommitEffect (validKey : String → Bool) (s : MemoryState ν) : MemoryState ν → Prop where
  | moved (caller : Nat) (call : CommitCall ν)
      (waiting : ∀ sessionId memories, s.calls caller ≠ .returned sessionId memories (.ok ()))
      (quiet : CommitCall.quiet call) : CommitEffect validKey s (s.goto caller call)
  | read (caller : Nat) (sessionId : String) (memories : List ν) (attempts : Nat)
      (existing : List ν) (revision : Option Nat)
      (reading : s.calls caller = .reading sessionId memories attempts)
      (found : readEntry validKey s.kv (historyKey sessionId) = .ok (existing, revision)) :
      CommitEffect validKey s
        (s.goto caller (.writing sessionId memories (attempts - 1) existing revision))
  | landed (caller : Nat) (sessionId : String) (memories : List ν) (attempts : Nat)
      (existing : List ν) (revision : Option Nat) (kv : Sessions ν)
      (writing : s.calls caller = .writing sessionId memories attempts existing revision)
      (written : writeEntry s.kv (historyKey sessionId) (existing ++ memories) revision = some kv) :
      CommitEffect validKey s
        ({ s with kv := kv }.goto caller (.returned sessionId memories (.ok ())))

theorem commitStep_cases {s s' : MemoryState ν} {action : MemoryAction ν}
    (h : commitStep validKey s action = some s') : CommitEffect validKey s s' := by
  cases action with
  | start caller sessionId memories =>
      simp only [commitStep] at h
      split at h
      next hidle =>
        cases h
        exact .moved caller _ (by simp [hidle]) trivial
      next => cases h
  | entry caller failure =>
      simp only [commitStep] at h
      split at h
      next sessionId memories attempts hreading =>
        have hwaiting : ∀ sessionId memories,
            s.calls caller ≠ .returned sessionId memories (.ok ()) := by simp [hreading]
        split at h
        next =>
          cases h
          exact .moved caller _ hwaiting trivial
        next =>
          split at h
          next =>
            cases h
            exact .moved caller _ hwaiting trivial
          next existing revision hread =>
            cases h
            exact .read caller sessionId memories attempts existing revision hreading hread
      next => cases h
  | write caller failure =>
      simp only [commitStep] at h
      split at h
      next sessionId memories attempts existing revision hwriting =>
        have hwaiting : ∀ sessionId memories,
            s.calls caller ≠ .returned sessionId memories (.ok ()) := by simp [hwriting]
        split at h
        next =>
          cases h
          refine .moved caller _ hwaiting ?_
          split
          next => trivial
          next => exact nextAttempt_quiet _ _ _
        next =>
          split at h
          next kv hwritten =>
            cases h
            exact .landed caller sessionId memories attempts existing revision kv hwriting hwritten
          next =>
            cases h
            exact .moved caller _ hwaiting (nextAttempt_quiet _ _ _)
      next => cases h

/-! ## The invariant -/

/-- A call at its write on the session has read the current history, or what it has read
is outdated by its revision; without a revision it has read the empty history. -/
def ReadKnown (kv : Sessions ν) (sessionId : String) : CommitCall ν → Prop
  | .writing session _ _ existing (some rev) => session = sessionId →
      rev ≤ kv.seq ∧ ((kv.slots (historyKey sessionId)).revision = rev →
        (kv.slots (historyKey sessionId)).value = some (.array existing))
  | .writing session _ _ existing none => session = sessionId → existing = []
  | _ => True

theorem ReadKnown.of_quiet {kv : Sessions ν} {sessionId : String} {call : CommitCall ν}
    (quiet : CommitCall.quiet call) : ReadKnown kv sessionId call := by
  cases call with
  | writing session memories attempts existing revision => exact quiet.elim
  | _ => trivial

/-- A write to the session outdates every read of it. -/
theorem ReadKnown.write_same {kv : Sessions ν} {sessionId : String} {call : CommitCall ν}
    (known : ReadKnown kv sessionId call) (values : List ν) :
    ReadKnown (kv.write (historyKey sessionId) (some (.array values))) sessionId call := by
  cases call with
  | writing session memories attempts existing revision =>
      cases revision with
      | none => exact known
      | some rev =>
          intro hsession
          have hold := (known hsession).1
          simp only [Bucket.write_seq, Bucket.write_slots_same]
          omega
  | _ => trivial

theorem ReadKnown.write_other {kv : Sessions ν} {sessionId written : String}
    {call : CommitCall ν} (known : ReadKnown kv sessionId call) (h : sessionId ≠ written)
    (values : List ν) :
    ReadKnown (kv.write (historyKey written) (some (.array values))) sessionId call := by
  cases call with
  | writing session memories attempts existing revision =>
      cases revision with
      | none => exact known
      | some rev =>
          intro hsession
          obtain ⟨hseq, hvalue⟩ := known hsession
          rw [slots_write_other kv h, Bucket.write_seq]
          exact ⟨by omega, hvalue⟩
  | _ => trivial

theorem ReadKnown.of_read {kv : Sessions ν} {sessionId session : String}
    {memories existing : List ν} {left : Nat} {revision : Option Nat}
    (found : readEntry validKey kv (historyKey session) = .ok (existing, revision)) :
    ReadKnown kv sessionId (.writing session memories left existing revision) := by
  rcases readEntry_ok found with ⟨rfl, rfl, -⟩ | ⟨rfl, hvalue⟩
  · exact fun _ => rfl
  · rintro rfl
    exact ⟨kv.numbered _, fun _ => hvalue⟩

/-- The stored history of a session is what was there before, followed by the batches of
the calls that returned `Ok`, in the order in which their writes landed. -/
structure HistoryInv (sessionId : String) (before : List ν) (s : MemoryState ν)
    (order : List (Nat × List ν)) : Prop where
  stored : storedHistory s.kv sessionId = some (before ++ (order.map (·.2)).flatten)
  once : (order.map (·.1)).Nodup
  committed : ∀ caller batch,
    (caller, batch) ∈ order ↔ s.calls caller = .returned sessionId batch (.ok ())
  known : ∀ caller, ReadKnown s.kv sessionId (s.calls caller)

variable {sessionId : String} {before : List ν} {s s' : MemoryState ν}
  {order : List (Nat × List ν)}

theorem goto_calls_same (s : MemoryState ν) (caller : Nat) (call : CommitCall ν) :
    (s.goto caller call).calls caller = call := by
  simp [MemoryState.goto]

theorem goto_calls_other (s : MemoryState ν) {caller other : Nat} (h : other ≠ caller)
    (call : CommitCall ν) : (s.goto caller call).calls other = s.calls other := by
  simp [MemoryState.goto, h]

theorem goto_calls_forall {P : CommitCall ν → Prop} (s : MemoryState ν) {caller : Nat}
    {call : CommitCall ν} (others : ∀ other, P (s.calls other)) (new : P call) (other : Nat) :
    P ((s.goto caller call).calls other) := by
  by_cases hsame : other = caller
  · subst hsame
    rw [goto_calls_same]
    exact new
  · rw [goto_calls_other s hsame]
    exact others other

/-- A call that has not returned `Ok` and does not do so now is in no order. -/
theorem HistoryInv.committed_goto (inv : HistoryInv sessionId before s order) {caller : Nat}
    {call : CommitCall ν}
    (waiting : ∀ sessionId memories, s.calls caller ≠ .returned sessionId memories (.ok ()))
    (still : ∀ batch, call ≠ .returned sessionId batch (.ok ())) (other : Nat) (batch : List ν) :
    (other, batch) ∈ order ↔
      (s.goto caller call).calls other = .returned sessionId batch (.ok ()) := by
  rw [inv.committed]
  by_cases hsame : other = caller
  · subst hsame
    rw [goto_calls_same]
    exact iff_of_false (waiting sessionId batch) (still batch)
  · rw [goto_calls_other s hsame]

theorem HistoryInv.moved (inv : HistoryInv sessionId before s order) {caller : Nat}
    {call : CommitCall ν}
    (waiting : ∀ sessionId memories, s.calls caller ≠ .returned sessionId memories (.ok ()))
    (quiet : CommitCall.quiet call) : HistoryInv sessionId before (s.goto caller call) order := by
  refine ⟨inv.stored, inv.once, inv.committed_goto waiting ?_,
    goto_calls_forall s inv.known (.of_quiet quiet)⟩
  rintro batch rfl
  exact quiet

theorem HistoryInv.read (inv : HistoryInv sessionId before s order) {caller : Nat}
    {session : String} {memories existing : List ν} {attempts left : Nat} {revision : Option Nat}
    (reading : s.calls caller = .reading session memories attempts)
    (found : readEntry validKey s.kv (historyKey session) = .ok (existing, revision)) :
    HistoryInv sessionId before (s.goto caller (.writing session memories left existing revision))
      order :=
  ⟨inv.stored, inv.once, inv.committed_goto (by simp [reading]) (by simp),
    goto_calls_forall s inv.known (.of_read found)⟩

/-- The history that a landing write extends is the one its call has read. -/
theorem HistoryInv.existing_eq (inv : HistoryInv sessionId before s order) {caller : Nat}
    {memories existing : List ν} {attempts : Nat} {revision : Option Nat} {kv : Sessions ν}
    (writing : s.calls caller = .writing sessionId memories attempts existing revision)
    (written : writeEntry s.kv (historyKey sessionId) (existing ++ memories) revision = some kv) :
    existing = before ++ (order.map (·.2)).flatten := by
  have hstored := inv.stored
  have hknown := inv.known caller
  unfold storedHistory at hstored
  rw [writing] at hknown
  rcases (writeEntry_some written).2 with rfl | ⟨rfl, hfree⟩
  · rw [(hknown rfl).2 rfl] at hstored
    exact Option.some.inj hstored
  · rw [hfree] at hstored
    rw [hknown rfl]
    exact Option.some.inj hstored

theorem HistoryInv.landed_here (inv : HistoryInv sessionId before s order) {caller : Nat}
    {memories existing : List ν} {attempts : Nat} {revision : Option Nat} {kv : Sessions ν}
    (writing : s.calls caller = .writing sessionId memories attempts existing revision)
    (written : writeEntry s.kv (historyKey sessionId) (existing ++ memories) revision = some kv) :
    HistoryInv sessionId before
      ({ s with kv := kv }.goto caller (.returned sessionId memories (.ok ())))
      (order ++ [(caller, memories)]) := by
  have hexisting := inv.existing_eq writing written
  obtain ⟨rfl, -⟩ := writeEntry_some written
  have hnew : ∀ batch, (caller, batch) ∉ order := by
    intro batch hmem
    rw [inv.committed, writing] at hmem
    cases hmem
  refine ⟨?_, ?_, ?_, goto_calls_forall { s with kv := _ }
    (fun other => (inv.known other).write_same _) trivial⟩
  · have hwritten := storedHistory_write_same s.kv sessionId (existing ++ memories)
    simp only [MemoryState.goto, hwritten]
    rw [hexisting]
    simp
  · rw [List.map_append, List.nodup_append]
    refine ⟨inv.once, by simp, ?_⟩
    rintro a ha b hb rfl
    obtain ⟨⟨i, batch⟩, hmem, rfl⟩ := List.mem_map.mp ha
    simp only [List.map_cons, List.map_nil, List.mem_singleton] at hb
    subst hb
    exact hnew batch hmem
  · intro other batch
    rw [List.mem_append, List.mem_singleton]
    by_cases hsame : other = caller
    · subst hsame
      rw [goto_calls_same]
      simp [hnew, eq_comm]
    · rw [goto_calls_other _ hsame, ← inv.committed]
      simp [hsame]

theorem HistoryInv.landed_elsewhere (inv : HistoryInv sessionId before s order) {caller : Nat}
    {session : String} {memories existing : List ν} {attempts : Nat} {revision : Option Nat}
    {kv : Sessions ν} (elsewhere : sessionId ≠ session)
    (writing : s.calls caller = .writing session memories attempts existing revision)
    (written : writeEntry s.kv (historyKey session) (existing ++ memories) revision = some kv) :
    HistoryInv sessionId before
      ({ s with kv := kv }.goto caller (.returned session memories (.ok ()))) order := by
  obtain ⟨rfl, -⟩ := writeEntry_some written
  refine ⟨?_, inv.once, ?_, goto_calls_forall { s with kv := _ }
    (fun other => (inv.known other).write_other elsewhere _) trivial⟩
  · have hstored := inv.stored
    have hslots := slots_write_other s.kv elsewhere (existing ++ memories)
    simp only [storedHistory, MemoryState.goto, hslots] at hstored ⊢
    exact hstored
  · intro other batch
    refine (inv.committed_goto (by simp [writing]) ?_ other batch).trans Iff.rfl
    intro batch' hsame
    cases hsame
    exact elsewhere rfl

theorem HistoryInv.step (inv : HistoryInv sessionId before s order) {action : MemoryAction ν}
    (h : commitStep validKey s action = some s') :
    ∃ order', HistoryInv sessionId before s' order' := by
  cases commitStep_cases h with
  | moved caller call waiting quiet => exact ⟨order, inv.moved waiting quiet⟩
  | read caller session memories attempts existing revision reading found =>
      exact ⟨order, inv.read reading found⟩
  | landed caller session memories attempts existing revision kv writing written =>
      by_cases hsession : sessionId = session
      · subst hsession
        exact ⟨_, inv.landed_here writing written⟩
      · exact ⟨order, inv.landed_elsewhere hsession writing written⟩

/-- For any number of calls, any interleaving of their operations and any failures: where
the session's stored history was readable at the start, it always is that history followed
by the whole batches of exactly the calls on the session that have returned `Ok`, each
once, in some order. -/
theorem history_is_committed_batches (validKey : String → Bool) (kv : Sessions ν)
    (sessionId : String) (before : List ν)
    (readableStart : storedHistory kv sessionId = some before) (actions : List (MemoryAction ν)) (s : MemoryState ν)
    (run : runActions (commitStep validKey) (MemoryState.init kv) actions = some s) :
    ∃ order : List (Nat × List ν),
      storedHistory s.kv sessionId = some (before ++ (order.map (·.2)).flatten) ∧
      (order.map (·.1)).Nodup ∧
      ∀ caller batch, (caller, batch) ∈ order ↔
        s.calls caller = .returned sessionId batch (.ok ()) := by
  have init : ∃ order, HistoryInv sessionId before (MemoryState.init kv) order :=
    ⟨[], by simpa [MemoryState.init] using readableStart, by simp, by simp [MemoryState.init],
      fun _ => trivial⟩
  obtain ⟨order, inv⟩ := run_holds
    (I := fun s => ∃ order, HistoryInv sessionId before s order)
    (fun s action s' ⟨order, inv⟩ hstep => inv.step hstep) init run
  exact ⟨order, inv.stored, inv.once, inv.committed⟩

section Example

/-- Two calls find no history; the second one creates it, so the first one's `create` is
refused and it appends at its next attempt. -/
def racingWriters : List (MemoryAction Nat) :=
  [.start 0 "s1" [1, 2], .start 1 "s1" [3], .entry 0 none, .entry 1 none, .write 1 none,
    .write 0 none, .entry 0 none, .write 0 none]

theorem racing_writers_both_kept :
    ∃ s, runActions (commitStep fun _ => true) (MemoryState.init Bucket.empty) racingWriters =
        some s ∧ storedHistory s.kv "s1" = some [3, 1, 2] ∧
      ∃ order : List (Nat × List Nat), [3, 1, 2] = (order.map (·.2)).flatten ∧
        (order.map (·.1)).Nodup := by
  have hstored : (runActions (commitStep fun _ => true) (MemoryState.init Bucket.empty)
      racingWriters).map (fun s => storedHistory s.kv "s1") = some (some [3, 1, 2]) := by
    decide +kernel
  obtain ⟨s, hrun, hhistory⟩ := Option.map_eq_some_iff.mp hstored
  obtain ⟨order, hbatches, honce, -⟩ := history_is_committed_batches (fun _ => true)
    Bucket.empty "s1" [] rfl racingWriters s hrun
  rw [hhistory] at hbatches
  exact ⟨s, hrun, hhistory, order, Option.some.inj hbatches, honce⟩

end Example

/-! ## Reads -/

/-- What a sequence of calls has committed to a session. -/
def committedTo (sessionId : String) (ops : List (MemoryOp ν)) : List ν :=
  ops.flatMap fun op =>
    match op with
    | .commit session memories => if session = sessionId then memories else []
    | .read _ _ => []

theorem inMemory_read (cache : InMemoryCache ν) (sessionId : String) (limit : Nat) :
    cache.getRecentHistory sessionId limit =
      .ok (lastEntries ((cache sessionId).getD []) limit).reverse := by
  unfold InMemoryCache.getRecentHistory lastEntries
  cases cache sessionId with
  | none => simp
  | some values => simp [List.take_reverse]

theorem nats_read {kv : Sessions ν} {sessionId : String} {history : List ν}
    (stored : storedHistory kv sessionId = some history) (limit : Nat) :
    getRecentHistory validKey kv sessionId limit =
      if validKey (historyKey sessionId) then .ok (lastEntries history limit)
      else .error invalidKey := by
  unfold getRecentHistory
  unfold storedHistory at stored
  cases hvalue : (kv.slots (historyKey sessionId)).value with
  | none =>
      simp only [hvalue, Option.some.injEq] at stored
      simp [← stored, lastEntries]
  | some payload =>
      cases payload with
      | array values =>
          simp only [hvalue, Option.some.injEq] at stored
          simp [stored]
      | unreadable => simp [hvalue] at stored

/-- A call that is alone appends at its first attempt, unless NATS refuses the key. -/
theorem commit_alone (validKey : String → Bool) {kv : Sessions ν} {sessionId : String}
    {history : List ν}
    (stored : storedHistory kv sessionId = some history) (memories : List ν) :
    (commitNewMemories validKey kv sessionId memories).2 =
      if validKey (historyKey sessionId) then
        kv.write (historyKey sessionId) (some (.array (history ++ memories)))
      else kv := by
  unfold storedHistory at stored
  unfold commitNewMemories maxAttempts commitLoop readEntry
  by_cases hvalid : validKey (historyKey sessionId) = true
  · cases hvalue : (kv.slots (historyKey sessionId)).value with
    | none =>
        simp only [hvalue, Option.some.injEq] at stored
        simp [hvalid, writeEntry, Bucket.create, hvalue, Bucket.put, ← stored]
    | some payload =>
        cases payload with
        | array values =>
            simp only [hvalue, Option.some.injEq] at stored
            simp [hvalid, writeEntry, Bucket.update, Bucket.put, stored]
        | unreadable => simp [hvalue] at stored
  · simp [hvalid]

/-- The two stores after the same calls: the histories agree wherever NATS takes the key. -/
structure SameHistory (validKey : String → Bool) (cache : InMemoryCache ν) (kv : Sessions ν)
    (history : String → List ν) : Prop where
  cached : ∀ sessionId, (cache sessionId).getD [] = history sessionId
  readable : ∀ sessionId, ∃ stored, storedHistory kv sessionId = some stored
  stored : ∀ sessionId, validKey (historyKey sessionId) = true →
    storedHistory kv sessionId = some (history sessionId)

theorem SameHistory.commit {cache : InMemoryCache ν} {kv : Sessions ν}
    {history : String → List ν} (same : SameHistory validKey cache kv history)
    (sessionId : String) (memories : List ν) :
    SameHistory validKey (cache.commitNewMemories sessionId memories).2
      (commitNewMemories validKey kv sessionId memories).2
      (Function.update history sessionId (history sessionId ++ memories)) := by
  obtain ⟨old, hold⟩ := same.readable sessionId
  have hcommit := commit_alone validKey hold memories
  have hother : ∀ other, other ≠ sessionId →
      storedHistory (commitNewMemories validKey kv sessionId memories).2 other =
        storedHistory kv other := by
    intro other hne
    rw [hcommit]
    split
    next =>
      unfold storedHistory
      rw [slots_write_other kv hne]
    next => rfl
  refine ⟨?_, ?_, ?_⟩
  · intro other
    by_cases hsame : other = sessionId
    · subst hsame
      simp [InMemoryCache.commitNewMemories, same.cached]
    · simp [InMemoryCache.commitNewMemories, hsame, same.cached]
  · intro other
    by_cases hsame : other = sessionId
    · subst hsame
      rw [hcommit]
      split
      next => exact ⟨_, storedHistory_write_same _ _ _⟩
      next => exact ⟨old, hold⟩
    · rw [hother other hsame]
      exact same.readable other
  · intro other hvalid
    by_cases hsame : other = sessionId
    · subst hsame
      have hhistory := same.stored other hvalid
      rw [hold, Option.some.injEq] at hhistory
      rw [hcommit, if_pos hvalid, storedHistory_write_same, Function.update_self, hhistory]
    · rw [hother other hsame, Function.update_of_ne hsame]
      exact same.stored other hvalid

/-- A read of a history agrees between the providers. -/
def ReadAgrees (validKey : String → Bool) (history : List ν) (sessionId : String) (limit : Nat) :
    Prop :=
  validKey (historyKey sessionId) = true ∧
    (lastEntries history limit).reverse = lastEntries history limit

theorem SameHistory.read_iff {cache : InMemoryCache ν} {kv : Sessions ν}
    {history : String → List ν} (same : SameHistory validKey cache kv history)
    (sessionId : String) (limit : Nat) :
    cache.getRecentHistory sessionId limit = getRecentHistory validKey kv sessionId limit ↔
      ReadAgrees validKey (history sessionId) sessionId limit := by
  rw [inMemory_read, same.cached]
  unfold ReadAgrees
  by_cases hvalid : validKey (historyKey sessionId) = true
  · rw [nats_read (same.stored sessionId hvalid)]
    simp [hvalid]
  · obtain ⟨stored, hstored⟩ := same.readable sessionId
    rw [nats_read hstored]
    simp [hvalid]

/-- The reads of a sequence: its first call, and those behind it. -/
theorem forall_reads_cons (op : MemoryOp ν) (rest : List (MemoryOp ν))
    (P : List (MemoryOp ν) → String → Nat → Prop) :
    (∀ before sessionId limit after,
        op :: rest = before ++ .read sessionId limit :: after → P before sessionId limit) ↔
      (∀ sessionId limit, op = .read sessionId limit → P [] sessionId limit) ∧
        ∀ before sessionId limit after,
          rest = before ++ .read sessionId limit :: after → P (op :: before) sessionId limit := by
  constructor
  · intro hall
    refine ⟨?_, ?_⟩
    · intro sessionId limit hop
      exact hall [] sessionId limit rest (by rw [hop]; rfl)
    · intro before sessionId limit after hrest
      exact hall (op :: before) sessionId limit after (by rw [hrest]; rfl)
  · rintro ⟨hfirst, hall⟩ before sessionId limit after hops
    cases before with
    | nil =>
        rw [List.nil_append, List.cons.injEq] at hops
        exact hfirst sessionId limit hops.1
    | cons first before =>
        rw [List.cons_append, List.cons.injEq] at hops
        obtain ⟨rfl, hrest⟩ := hops
        exact hall before sessionId limit after hrest

theorem update_committedTo (history : String → List ν) (session : String) (memories : List ν)
    (sessionId : String) (before : List (MemoryOp ν)) :
    Function.update history session (history session ++ memories) sessionId ++
        committedTo sessionId before =
      history sessionId ++ committedTo sessionId (.commit session memories :: before) := by
  by_cases hsame : sessionId = session
  · subst hsame
    simp [committedTo]
  · simp [committedTo, hsame, Ne.symm hsame]

theorem SameHistory.reads_iff {cache : InMemoryCache ν} {kv : Sessions ν}
    {history : String → List ν} (same : SameHistory validKey cache kv history)
    (ops : List (MemoryOp ν)) :
    inMemoryReads cache ops = natsReads validKey kv ops ↔
      ∀ before sessionId limit after, ops = before ++ .read sessionId limit :: after →
        ReadAgrees validKey (history sessionId ++ committedTo sessionId before) sessionId
          limit := by
  induction ops generalizing cache kv history with
  | nil => simp [inMemoryReads, natsReads]
  | cons op rest ih =>
      rw [forall_reads_cons op rest fun before sessionId limit =>
        ReadAgrees validKey (history sessionId ++ committedTo sessionId before) sessionId limit]
      cases op with
      | commit session memories =>
          simp only [inMemoryReads, natsReads]
          rw [ih (same.commit session memories)]
          simp [update_committedTo]
      | read session limit =>
          simp only [inMemoryReads, natsReads, List.cons.injEq]
          rw [ih same, same.read_iff]
          simp [committedTo]

/-- For every sequence of commits and reads: the two providers answer every read alike
exactly when, at every read, NATS takes the key of the session and the last `limit` entries
committed to it so far read the same in both directions. -/
theorem providers_agree_iff (validKey : String → Bool) (ops : List (MemoryOp ν)) :
    inMemoryReads InMemoryCache.empty ops = natsReads validKey Bucket.empty ops ↔
      ∀ before sessionId limit after, ops = before ++ .read sessionId limit :: after →
        validKey (historyKey sessionId) = true ∧
          (lastEntries (committedTo sessionId before) limit).reverse =
            lastEntries (committedTo sessionId before) limit := by
  have start : SameHistory validKey (InMemoryCache.empty : InMemoryCache ν) Bucket.empty
      fun _ => [] :=
    ⟨fun _ => rfl, fun _ => ⟨[], rfl⟩, fun _ _ => rfl⟩
  rw [start.reads_iff ops]
  simp only [ReadAgrees, List.nil_append]

section Example

def questionAndAnswer : List (MemoryOp String) :=
  [.commit "s1" ["question"], .commit "s1" ["answer"], .read "s1" 10]

/-- Two messages are returned oldest first by NATS and newest first from memory. -/
theorem two_messages_reversed :
    inMemoryReads InMemoryCache.empty questionAndAnswer = [.ok ["answer", "question"]] ∧
      natsReads (fun _ => true) Bucket.empty questionAndAnswer = [.ok ["question", "answer"]] ∧
      inMemoryReads InMemoryCache.empty questionAndAnswer ≠
        natsReads (fun _ => true) Bucket.empty questionAndAnswer := by
  have hmemory : inMemoryReads InMemoryCache.empty questionAndAnswer =
      [.ok ["answer", "question"]] := by rfl
  have hnats : natsReads (fun _ => true) Bucket.empty questionAndAnswer =
      [.ok ["question", "answer"]] := by rfl
  refine ⟨hmemory, hnats, ?_⟩
  rw [hmemory, hnats]
  simp

end Example

end ControlPlane.Guarantees.SessionHistory
