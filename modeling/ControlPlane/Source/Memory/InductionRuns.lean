import ControlPlane.Source.Memory.InductionTraffic
import Mathlib.Data.Nat.ModEq
import Mathlib.Logic.Relation

/-!
# Runs of induction clients

What holds in every interleaving: the buckets keep their layout, each call follows the
lookup on that layout whatever the counters are when it reads, a value on its way into a
bucket was made from the value it replaces, and the attempts of an entry with the counts
still to come are the attempts at the start with the counts planned.
-/
namespace ControlPlane.Source.Memory

open Lib Engine

/-! ## Stages of one call -/

section Call

variable (tables : CaseTables)

/-- The counts a call makes for what it returns. -/
def tasksOf (call : InductionCall) (returned : List TriggeredPattern) : List (String × String) :=
  match call with
  | .runRetroactive ctx => attemptCounts tables ctx returned
  | .recordSuccess hintTexts ctx => successCounts tables ctx hintTexts

/-- The counts that are left. -/
def Client.todo (c : Client) : List (String × String) :=
  match c.stage with
  | .read todo _ => todo
  | .swap task todo _ _ _ => task :: todo
  | _ => []

/-- The counts of the call, once it has its patterns. -/
def Client.planned (call : InductionCall) (c : Client) : List (String × String) :=
  match c.stage with
  | .first _ _ => []
  | .second _ _ _ => []
  | _ => tasksOf tables call c.returned

variable (walk : Walk String) (layout : PatternBuckets) (call : InductionCall)

/-- A lookup has what the lookup on the layout finds; a success looks nothing up. -/
def Retrieved (returned : List TriggeredPattern) : Prop :=
  if countsSuccess call then returned = []
  else (returned.map forgetCounts).Perm (sadRetrieve tables walk.run layout call.context)

/-- The part of the buckets that has been read. -/
def readSoFar (done : List String) : List TriggeredPattern :=
  (done.map (tagKey tables call.context.tenantId)).flatMap (loadBucket layout)

/-- The call does what it would do on the layout alone. -/
def Follows (c : Client) : Prop :=
  match c.stage with
  | .first tags found =>
      c.returned = [] ∧ countsSuccess call = false ∧ ∃ done,
        call.context.taskClassTags = done ++ tags ∧
          found.map forgetCounts = readSoFar tables layout call done
  | .second bridge tags all =>
      c.returned = [] ∧ countsSuccess call = false ∧ ∃ done,
        bridge = done ++ tags ∧ bridge = bridgeTags tables walk.run layout call.context ∧
          all.map forgetCounts = appendUnseen (roundOne tables layout call.context)
            (readSoFar tables layout call done)
  | _ => Retrieved tables walk layout call c.returned

/-- A value to be swapped in was counted up from what was read with its revision. -/
def Holds (b : MemoryBucket) (c : Client) : Prop :=
  match c.stage with
  | .swap task _ _ patterns revision =>
      ∃ old, b.ReadAt task.1 revision (some old) ∧
        countHint task.2 (countsSuccess call) old = some patterns
  | _ => True

variable {tables walk layout call}

theorem readSoFar_concat (done : List String) (tag : String) :
    readSoFar tables layout call (done ++ [tag])
      = readSoFar tables layout call done
        ++ loadBucket layout (tagKey tables call.context.tenantId tag) := by
  simp [readSoFar]

theorem startClient_follows : Follows tables walk layout call (startClient tables call) := by
  cases call with
  | runRetroactive ctx => exact ⟨rfl, rfl, [], rfl, rfl⟩
  | recordSuccess hintTexts ctx => exact rfl

theorem startClient_holds {b : MemoryBucket} : Holds call b (startClient tables call) := by
  cases call <;> trivial

theorem startClient_todo :
    (startClient tables call).todo <:+ (startClient tables call).planned tables call := by
  cases call <;> exact List.suffix_refl _

variable (tables walk call) in
/-- The only write of a call is the swap of the value it holds. -/
theorem clientMove_bucket (c : Client) (b : MemoryBucket) :
    (clientMove tables walk call c b).2 = b ∨
      ∃ task todo attempt patterns revision written,
        c.stage = .swap task todo attempt patterns revision ∧
          b.update task.1 patterns revision
            = some ((clientMove tables walk call c b).2, written) ∧
          (clientMove tables walk call c b).1 = c.go (.read todo 0) := by
  unfold clientMove
  dsimp only
  split
  · exact Or.inl rfl
  · exact Or.inl rfl
  · exact Or.inl rfl
  · exact Or.inl rfl
  · exact Or.inl rfl
  · split <;> exact Or.inl rfl
  · rename_i task todo attempt patterns revision stage
    split
    · rename_i b' written swapped
      exact Or.inr ⟨task, todo, attempt, patterns, revision, written, stage, swapped, rfl⟩
    · split <;> exact Or.inl rfl
  · exact Or.inl rfl

/-- At the end of the second round the call has what the lookup on the layout finds. -/
theorem retrieved_of_second {all : List TriggeredPattern} {bridge : List String}
    (retro : countsSuccess call = false)
    (bridged : bridge = bridgeTags tables walk.run layout call.context)
    (found : all.map forgetCounts = appendUnseen (roundOne tables layout call.context)
      (readSoFar tables layout call bridge)) :
    Retrieved tables walk layout call (rankAndFilter all
      { call.context with taskClassTags := call.context.taskClassTags ++ bridge }) := by
  rw [Retrieved, retro]
  refine (rankAndFilter_forget _ _).trans (List.Perm.of_eq ?_)
  rw [found, bridged]
  rfl

theorem clientMove_follows {b : MemoryBucket} (kept : layoutOf (readBuckets b) = layout)
    {c : Client} (follows : Follows tables walk layout call c) :
    Follows tables walk layout call (clientMove tables walk call c b).1 := by
  have load : ∀ key, (loadBucket (readBuckets b) key).map forgetCounts = loadBucket layout key := by
    intro key
    rw [← kept, loadBucket_layoutOf]
  obtain ⟨stage, returned, exhausted⟩ := c
  cases stage with
  | first tags found =>
    obtain ⟨none, retro, done, split, sofar⟩ := follows
    cases tags with
    | cons tag tags =>
      refine ⟨none, retro, done ++ [tag], by simp [split], ?_⟩
      rw [List.map_append, sofar, load, readSoFar_concat]
    | nil =>
      have whole : call.context.taskClassTags = done := by simpa using split
      have first : found.map forgetCounts = roundOne tables layout call.context := by
        rw [sofar, ← whole]
        rfl
      refine ⟨none, retro, [], rfl, ?_, first⟩
      rw [← bridgeOf_forget, first]
      rfl
  | second bridge tags all =>
    obtain ⟨none, retro, done, split, bridged, sofar⟩ := follows
    cases tags with
    | cons tag tags =>
      refine ⟨none, retro, done ++ [tag], by simp [split], bridged, ?_⟩
      rw [← appendUnseen_forget, sofar, load, readSoFar_concat, appendUnseen_append]
    | nil =>
      have whole : bridge = done := by simpa using split
      rw [← whole] at sofar
      exact retrieved_of_second retro bridged sofar
  | read todo attempt =>
    cases todo with
    | nil => exact follows
    | cons task todo =>
      unfold clientMove
      dsimp only
      split <;> exact follows
  | swap task todo attempt patterns revision =>
    unfold clientMove
    dsimp only
    split
    · exact follows
    · split <;> exact follows
  | finished => exact follows

theorem clientMove_exhausted (c : Client) (b : MemoryBucket)
    (calm : (clientMove tables walk call c b).1.exhausted = false) : c.exhausted = false := by
  obtain ⟨stage, returned, exhausted⟩ := c
  cases stage with
  | first tags found => cases tags <;> exact calm
  | second bridge tags all => cases tags <;> exact calm
  | read todo attempt =>
    cases todo with
    | nil => exact calm
    | cons task todo =>
      unfold clientMove at calm
      dsimp only at calm
      split at calm <;> exact calm
  | swap task todo attempt patterns revision =>
    unfold clientMove at calm
    dsimp only at calm
    split at calm
    · exact calm
    · split at calm
      · exact calm
      · cases calm
  | finished => exact calm

/-- A call that comes to hold a value has just read what it was made from. -/
theorem clientMove_holds (c : Client) (b : MemoryBucket) :
    Holds call (clientMove tables walk call c b).2 (clientMove tables walk call c b).1 := by
  obtain ⟨stage, returned, exhausted⟩ := c
  cases stage with
  | first tags found => cases tags <;> trivial
  | second bridge tags all => cases tags <;> trivial
  | read todo attempt =>
    cases todo with
    | nil => trivial
    | cons task todo =>
      cases counted : (readBuckets b task.1).bind (countHint task.2 (countsSuccess call)) with
      | none =>
        simp only [clientMove, counted]
        trivial
      | some patterns =>
        obtain ⟨old, value, counted'⟩ := Option.bind_eq_some_iff.mp counted
        have read := b.readAt_self task.1
        rw [show (b.slots task.1).value = some old from value] at read
        simp only [clientMove, counted]
        exact ⟨old, read, counted'⟩
  | swap task todo attempt patterns revision =>
    unfold clientMove
    dsimp only
    split
    · trivial
    · split <;> trivial
  | finished => trivial

/-- What is left to count is the end of what was planned. -/
theorem clientMove_todo {c : Client} {b : MemoryBucket}
    (follows : Follows tables walk layout call c) (left : c.todo <:+ c.planned tables call) :
    (clientMove tables walk call c b).1.todo
      <:+ (clientMove tables walk call c b).1.planned tables call := by
  obtain ⟨stage, returned, exhausted⟩ := c
  cases stage with
  | first tags found => cases tags <;> exact List.suffix_refl []
  | second bridge tags all =>
    cases tags with
    | cons tag tags => exact List.suffix_refl []
    | nil =>
      cases call with
      | runRetroactive ctx => exact List.suffix_refl _
      | recordSuccess hintTexts ctx => cases follows.2.1
  | read todo attempt =>
    cases todo with
    | nil => exact List.nil_suffix
    | cons task todo =>
      have rest := (List.suffix_cons task todo).trans left
      unfold clientMove
      dsimp only
      split
      · exact rest
      · exact left
  | swap task todo attempt patterns revision =>
    have rest := (List.suffix_cons task todo).trans left
    unfold clientMove
    dsimp only
    split
    · exact rest
    · split
      · exact left
      · exact rest
  | finished => exact List.nil_suffix

end Call

/-! ## What a count changes -/

section Bucket

variable {b : MemoryBucket} {key : String} {old : List TriggeredPattern}

theorem readBuckets_write (b : MemoryBucket) (key : String) (new : List TriggeredPattern)
    (other : String) :
    readBuckets (b.write key (some new)) other
      = if other = key then some new else readBuckets b other := by
  unfold readBuckets
  by_cases h : other = key
  · subst h
    simp
  · simp [h]

theorem layoutOf_write {new : List TriggeredPattern} (value : readBuckets b key = some old)
    (same : new.map forgetCounts = old.map forgetCounts) :
    layoutOf (readBuckets (b.write key (some new))) = layoutOf (readBuckets b) := by
  funext other
  unfold layoutOf
  rw [readBuckets_write]
  split
  · rename_i equal
    rw [equal, value, Option.map_some, Option.map_some, same]
  · rfl

theorem modify_forget (success : Bool) (old : List TriggeredPattern) (i : Nat) :
    (old.modify i (bump success)).map forgetCounts = old.map forgetCounts := by
  apply List.ext_getElem?
  intro j
  rw [List.getElem?_map, List.getElem?_map, List.getElem?_modify]
  cases old[j]? with
  | none => rfl
  | some p => by_cases h : i = j <;> simp [h]

/-- What a counted bucket holds: one entry is raised. -/
theorem countHint_some {hintText : String} {success : Bool} {new : List TriggeredPattern}
    (counted : countHint hintText success old = some new) :
    ∃ i, old.findIdx? (fun p => p.hintText = hintText) = some i ∧
      new = old.modify i (bump success) := by
  rw [countHint_eq] at counted
  obtain ⟨i, found, rfl⟩ := Option.map_eq_some_iff.mp counted
  exact ⟨i, found, rfl⟩

theorem entryAt_write (value : readBuckets b key = some old) (success : Bool) (j : Nat)
    (other : String) (i : Nat) :
    entryAt (b.write key (some (old.modify j (bump success)))) other i
      = if other = key ∧ j = i then (entryAt b other i).map (bump success)
        else entryAt b other i := by
  unfold entryAt
  rw [readBuckets_write]
  by_cases h : other = key
  · subst h
    rw [if_pos rfl, value, Option.bind_some, Option.bind_some, List.getElem?_modify]
    by_cases index : j = i <;> simp [index]
  · simp [h]

theorem entryAt_of_target {task : String × String} {i : Nat}
    (found : target (readBuckets b) task = some i) :
    ∃ p, entryAt b task.1 i = some p ∧ p.hintText = task.2 := by
  obtain ⟨patterns, value, index⟩ := Option.bind_eq_some_iff.mp found
  obtain ⟨bound, holds, -⟩ := List.findIdx?_eq_some_iff_getElem.mp index
  refine ⟨patterns[i], ?_, by simpa using holds⟩
  unfold entryAt
  rw [value, Option.bind_some]
  exact List.getElem?_eq_getElem bound

end Bucket

theorem attemptAt_write {b : MemoryBucket} {task : String × String} {old : List TriggeredPattern}
    {j : Nat} (value : readBuckets b task.1 = some old)
    (found : target (readBuckets b) task = some j) (success : Bool) (key : String) (i : Nat)
    (room : task.1 = key ∧ j = i → attemptAt b key i + 1 < 2 ^ 64) :
    attemptAt (b.write task.1 (some (old.modify j (bump success)))) key i
      = attemptAt b key i + if task.1 = key ∧ j = i then 1 else 0 := by
  unfold attemptAt
  rw [entryAt_write value]
  by_cases here : task.1 = key ∧ j = i
  · have small := room here
    obtain ⟨rfl, rfl⟩ := here
    obtain ⟨p, entry, -⟩ := entryAt_of_target found
    rw [attemptAt, entry] at small
    have raised : (bump success p).attemptCount = p.attemptCount + 1 := Nat.mod_eq_of_lt small
    simp [entry, raised]
  · have other : ¬ (key = task.1 ∧ j = i) := fun h => here ⟨h.1.symm, h.2⟩
    rw [if_neg other, if_neg here, Nat.add_zero]

/-- A swap that succeeds raises the entry that its count finds. -/
theorem swapped_write {call : InductionCall} {b b' : MemoryBucket} {task : String × String}
    {patterns old : List TriggeredPattern} {revision written : Nat}
    (read : b.ReadAt task.1 revision (some old))
    (counted : countHint task.2 (countsSuccess call) old = some patterns)
    (swapped : b.update task.1 patterns revision = some (b', written)) :
    ∃ i, target (readBuckets b) task = some i ∧ readBuckets b task.1 = some old ∧
      b' = b.write task.1 (some (old.modify i (bump (countsSuccess call)))) := by
  obtain ⟨value, written⟩ := read.of_update swapped
  obtain ⟨i, found, rfl⟩ := countHint_some counted
  have bucket : readBuckets b task.1 = some old := value
  refine ⟨i, ?_, bucket, written⟩
  rw [target, bucket, Option.bind_some, found]

section Account

variable {tables : CaseTables} {walk : Walk String} {call : InductionCall}
variable {c : Client} {b : MemoryBucket}

theorem clientMove_layout (holds : Holds call b c) :
    layoutOf (readBuckets (clientMove tables walk call c b).2) = layoutOf (readBuckets b) := by
  obtain same | ⟨task, todo, attempt, patterns, revision, written, stage, swapped, -⟩ :=
    clientMove_bucket tables walk call c b
  · rw [same]
  · rw [Holds, stage] at holds
    obtain ⟨old, read, counted⟩ := holds
    obtain ⟨i, -, value, result⟩ := swapped_write read counted swapped
    rw [result]
    exact layoutOf_write value (modify_forget _ _ _)

/-- A write of another call does not touch what a call holds. -/
theorem holds_of_move {call' : InductionCall} {c' : Client} (holds : Holds call' b c') :
    Holds call' (clientMove tables walk call c b).2 c' := by
  obtain same | ⟨task, todo, attempt, patterns, revision, written, -, swapped, -⟩ :=
    clientMove_bucket tables walk call c b
  · rwa [same]
  · have result := (Bucket.update_eq_some swapped).2
    unfold Holds at holds ⊢
    split at holds
    · obtain ⟨old, read, counted⟩ := holds
      rw [result]
      exact ⟨old, read.write _ _, counted⟩
    · trivial

/-- A count that is not in reach of its bucket's entries finds nothing. -/
theorem target_none {task : String × String} {success : Bool}
    (missed : (readBuckets b task.1).bind (countHint task.2 success) = none) :
    target (readBuckets b) task = none := by
  unfold target
  cases value : readBuckets b task.1 with
  | none => rfl
  | some patterns =>
    rw [value, Option.bind_some, countHint_eq, Option.map_eq_none_iff] at missed
    rw [Option.bind_some, missed]

/-- A swap that succeeds raises what it takes off the counts still to come. -/
theorem swapped_account {layout : PatternBuckets} (kept : layoutOf (readBuckets b) = layout)
    {b' : MemoryBucket} {task : String × String} {todo : List (String × String)}
    {patterns old : List TriggeredPattern} {revision written : Nat}
    (read : b.ReadAt task.1 revision (some old))
    (counted : countHint task.2 (countsSuccess call) old = some patterns)
    (swapped : b.update task.1 patterns revision = some (b', written)) (key : String) (i : Nat)
    (room : 0 < hits layout (task :: todo) key i → attemptAt b key i + 1 < 2 ^ 64) :
    attemptAt b' key i + hits layout todo key i
      = attemptAt b key i + hits layout (task :: todo) key i := by
  obtain ⟨j, found, value, result⟩ := swapped_write read counted swapped
  have found' : target layout task = some j := by rw [← kept, target_layoutOf, found]
  have counts : hits layout (task :: todo) key i
      = hits layout todo key i + if task.1 = key ∧ j = i then 1 else 0 := by
    simp [hits_cons, found']
  have raised := attemptAt_write value found (countsSuccess call) key i (by
    intro here
    apply room
    simp only [counts, if_pos here]
    omega)
  rw [result, raised, counts]
  omega

/-- One operation: what it counts is what it need no longer count. -/
theorem clientMove_account {layout : PatternBuckets} (kept : layoutOf (readBuckets b) = layout)
    (follows : Follows tables walk layout call c) (holds : Holds call b c)
    (calm : (clientMove tables walk call c b).1.exhausted = false)
    (key : String) (i : Nat)
    (room : 0 < hits layout c.todo key i → attemptAt b key i + 1 < 2 ^ 64) :
    attemptAt (clientMove tables walk call c b).2 key i
        + hits layout (clientMove tables walk call c b).1.todo key i
        + hits layout (c.planned tables call) key i
      = attemptAt b key i + hits layout c.todo key i
        + hits layout ((clientMove tables walk call c b).1.planned tables call) key i := by
  obtain ⟨stage, returned, exhausted⟩ := c
  cases stage with
  | first tags found => cases tags <;> rfl
  | second bridge tags all =>
    cases tags with
    | cons tag tags => rfl
    | nil =>
      cases call with
      | runRetroactive ctx => exact Nat.add_right_comm _ _ _
      | recordSuccess hintTexts ctx => cases follows.2.1
  | read todo attempt =>
    cases todo with
    | nil => rfl
    | cons task todo =>
      cases counted : (readBuckets b task.1).bind (countHint task.2 (countsSuccess call)) with
      | none =>
        have missed : target layout task = none := by
          rw [← kept, target_layoutOf]
          exact target_none counted
        simp only [clientMove, counted, Client.go, Client.todo, Client.planned, hits_cons, missed]
        simp
      | some patterns =>
        simp only [clientMove, counted, Client.go, Client.todo, Client.planned]
  | swap task todo attempt patterns revision =>
    obtain ⟨old, read, counted⟩ := holds
    cases swapped : b.update task.1 patterns revision with
    | none =>
      simp only [clientMove, swapped] at calm ⊢
      split at calm
      · rename_i retry
        simp only [if_pos retry, Client.go, Client.todo, Client.planned]
      · cases calm
    | some result =>
      have counts := swapped_account kept read counted swapped key i room
      simp only [clientMove, swapped, Client.go, Client.todo, Client.planned]
      omega
  | finished => rfl

end Account

/-! ## A call by itself -/

section Alone

variable {tables : CaseTables} {walk : Walk String} {call : InductionCall}

/-- Operations of one call with no other between them. -/
abbrev Alone (tables : CaseTables) (walk : Walk String) (call : InductionCall) :
    Client × MemoryBucket → Client × MemoryBucket → Prop :=
  Relation.ReflTransGen fun x y => y = clientMove tables walk call x.1 x.2

theorem Alone.move {x z : Client × MemoryBucket}
    (rest : Alone tables walk call (clientMove tables walk call x.1 x.2) z) :
    Alone tables walk call x z :=
  Relation.ReflTransGen.head rfl rest

variable (tables walk call) in
theorem alone_first (b : MemoryBucket) (tags : List String) (found returned : List TriggeredPattern)
    (exhausted : Bool) :
    Alone tables walk call (⟨.first tags found, returned, exhausted⟩, b)
      (⟨.first [] (found ++ readSoFar tables (readBuckets b) call tags), returned,
        exhausted⟩, b) := by
  induction tags generalizing found with
  | nil =>
    rw [readSoFar, List.map_nil, List.flatMap_nil, List.append_nil]
  | cons tag tags ih =>
    apply Alone.move
    have rest := ih (found ++ loadBucket (readBuckets b) (tagKey tables call.context.tenantId tag))
    rwa [List.append_assoc] at rest

variable (tables walk call) in
theorem alone_second (b : MemoryBucket) (bridge tags : List String)
    (all returned : List TriggeredPattern) (exhausted : Bool) :
    Alone tables walk call (⟨.second bridge tags all, returned, exhausted⟩, b)
      (⟨.second bridge [] (appendUnseen all (readSoFar tables (readBuckets b) call tags)),
        returned, exhausted⟩, b) := by
  induction tags generalizing all with
  | nil => exact Relation.ReflTransGen.refl
  | cons tag tags ih =>
    apply Alone.move
    have rest := ih (appendUnseen all
      (loadBucket (readBuckets b) (tagKey tables call.context.tenantId tag)))
    rwa [← appendUnseen_append] at rest

theorem casIncrement_eq (b : MemoryBucket) (success : Bool) (task : String × String)
    {patterns : List TriggeredPattern}
    (counted : (readBuckets b task.1).bind (countHint task.2 success) = some patterns) :
    casIncrement success (readBuckets b) task = readBuckets (b.write task.1 (some patterns)) := by
  funext other
  rw [readBuckets_write, casIncrement, counted]

variable (tables walk call) in
/-- With nobody in between every count is swapped in at the first try. -/
theorem alone_read (b : MemoryBucket) (todo : List (String × String))
    (returned : List TriggeredPattern) (exhausted : Bool) :
    ∃ b', Alone tables walk call (⟨.read todo 0, returned, exhausted⟩, b)
        (⟨.finished, returned, exhausted⟩, b') ∧
      readBuckets b' = todo.foldl (casIncrement (countsSuccess call)) (readBuckets b) := by
  induction todo generalizing b with
  | nil => exact ⟨b, Relation.ReflTransGen.single rfl, rfl⟩
  | cons task todo ih =>
    cases counted : (readBuckets b task.1).bind (countHint task.2 (countsSuccess call)) with
    | none =>
      obtain ⟨b', rest, result⟩ := ih b
      refine ⟨b', Alone.move ?_, ?_⟩
      · simpa only [clientMove, counted, Client.go] using rest
      · rw [result, List.foldl_cons, casIncrement, counted]
    | some patterns =>
      obtain ⟨b', rest, result⟩ := ih (b.write task.1 (some patterns))
      refine ⟨b', Alone.move ?_, ?_⟩
      · simp only [clientMove, counted, Client.go]
        apply Alone.move
        simpa only [clientMove, Bucket.update, if_true, Bucket.put, Client.go] using rest
      · rw [result, List.foldl_cons, casIncrement_eq b _ task counted]

/-- A lookup by itself is `run_retroactive`. -/
theorem alone_runRetroactive (ctx : InductionContext) (b : MemoryBucket) :
    ∃ c b', Alone tables walk (.runRetroactive ctx)
        (startClient tables (.runRetroactive ctx), b) (c, b') ∧
      c.stage = .finished ∧ c.exhausted = false ∧
        c.returned = sadRetrieve tables walk.run (readBuckets b) ctx ∧
          readBuckets b' = (runRetroactive tables walk.run (readBuckets b) ctx).2 := by
  have first := alone_first tables walk (.runRetroactive ctx) b ctx.taskClassTags [] [] false
  have second := alone_second tables walk (.runRetroactive ctx) b
    (bridgeTags tables walk.run (readBuckets b) ctx)
    (bridgeTags tables walk.run (readBuckets b) ctx) (roundOne tables (readBuckets b) ctx) [] false
  obtain ⟨b', third, result⟩ := alone_read tables walk (.runRetroactive ctx) b
    (attemptCounts tables ctx (sadRetrieve tables walk.run (readBuckets b) ctx))
    (sadRetrieve tables walk.run (readBuckets b) ctx) false
  refine ⟨_, b', first.trans (Alone.move (second.trans (Alone.move third))), rfl, rfl, rfl, ?_⟩
  rw [result, runRetroactive]
  split
  · rename_i none
    rw [List.isEmpty_iff.mp none]
    rfl
  · rfl

theorem alone_recordSuccess (hintTexts : List String) (ctx : InductionContext) (b : MemoryBucket) :
    ∃ b', Alone tables walk (.recordSuccess hintTexts ctx)
        (startClient tables (.recordSuccess hintTexts ctx), b) (⟨.finished, [], false⟩, b') ∧
      readBuckets b' = recordSuccess tables (readBuckets b) ctx hintTexts :=
  alone_read tables walk (.recordSuccess hintTexts ctx) b _ [] false

end Alone

/-! ## Successes -/

section Success

variable {tables : CaseTables} {walk : Walk String} {layout : PatternBuckets}
variable {call : InductionCall} {c : Client} {b : MemoryBucket}

theorem successAt_move (holds : Holds call b c) (retro : countsSuccess call = false)
    (key : String) (i : Nat) :
    successAt (clientMove tables walk call c b).2 key i = successAt b key i := by
  obtain same | ⟨task, todo, attempt, patterns, revision, written, stage, swapped, -⟩ :=
    clientMove_bucket tables walk call c b
  · rw [same]
  · rw [Holds, stage] at holds
    obtain ⟨old, read, counted⟩ := holds
    obtain ⟨j, -, value, result⟩ := swapped_write read counted swapped
    rw [successAt, result, entryAt_write value, retro]
    split
    · cases entry : entryAt b key i with
      | none => simp [successAt, entry]
      | some p => simp [successAt, entry, bump]
    · rfl

variable (tables walk) in
/-- A success counts the attempt again. -/
theorem success_counts_attempt (holds : Holds call b c) (success : countsSuccess call = true)
    (key : String) (i : Nat) :
    attemptAt (clientMove tables walk call c b).2 key i + successAt b key i
      ≡ successAt (clientMove tables walk call c b).2 key i + attemptAt b key i [MOD 2 ^ 64] := by
  obtain same | ⟨task, todo, attempt, patterns, revision, written, stage, swapped, -⟩ :=
    clientMove_bucket tables walk call c b
  · rw [same, Nat.add_comm]
  · rw [Holds, stage] at holds
    obtain ⟨old, read, counted⟩ := holds
    obtain ⟨j, -, value, result⟩ := swapped_write read counted swapped
    rw [attemptAt, successAt, successAt, attemptAt, result, entryAt_write value, success]
    split
    · cases entry : entryAt b key i with
      | none => rfl
      | some p =>
        simp only [Option.map_some, Option.getD_some, bump, if_true, Nat.ModEq]
        omega
    · rw [Nat.add_comm]

/-- A success without hints does nothing. -/
theorem clientMove_idle (b : MemoryBucket) (success : countsSuccess call = true)
    (follows : Follows tables walk layout call c) (idle : c.todo = []) :
    (clientMove tables walk call c b).1.todo = [] ∧ (clientMove tables walk call c b).2 = b := by
  obtain ⟨stage, returned, exhausted⟩ := c
  cases stage with
  | first tags found => exact absurd (success.symm.trans follows.2.1) (by decide)
  | second bridge tags all => exact absurd (success.symm.trans follows.2.1) (by decide)
  | read todo attempt =>
    obtain rfl : todo = [] := idle
    exact ⟨rfl, rfl⟩
  | swap task todo attempt patterns revision => cases idle
  | finished => exact ⟨rfl, rfl⟩

end Success

/-! ## Interleavings -/

section Runs

variable {κ : Type} [DecidableEq κ] {tables : CaseTables} {walks : κ → Walk String}
variable {calls : κ → InductionCall} {start : MemoryBucket}

/-- A state that the clients can come to. -/
def Reached (tables : CaseTables) (walks : κ → Walk String) (calls : κ → InductionCall)
    (start : MemoryBucket) (t : Threads κ Client MemoryBucket) : Prop :=
  ∃ schedule, runActions (trafficStep tables walks calls) (startedClients tables calls start)
    schedule = some t

/-- Invariant rule for the interleavings of the clients. -/
theorem reached_holds (I : Threads κ Client MemoryBucket → Prop)
    (init : I (startedClients tables calls start))
    (preserved : ∀ t k, I t → I (t.act (trafficMove tables walks calls) (k, ())))
    {t : Threads κ Client MemoryBucket} (reached : Reached tables walks calls start t) : I t := by
  obtain ⟨schedule, run⟩ := reached
  apply run_holds _ init run
  intro t a t' holds step
  obtain rfl := Option.some.inj step
  exact preserved t a.1 holds

structure TrafficInv (tables : CaseTables) (walks : κ → Walk String) (calls : κ → InductionCall)
    (start : MemoryBucket) (t : Threads κ Client MemoryBucket) : Prop where
  layout : layoutOf (readBuckets t.shared) = layoutOf (readBuckets start)
  follows : ∀ k, Follows tables (walks k) (layoutOf (readBuckets start)) (calls k) (t.locals k)
  holds : ∀ k, Holds (calls k) t.shared (t.locals k)
  todo : ∀ k, (t.locals k).todo <:+ (t.locals k).planned tables (calls k)

omit [DecidableEq κ] in
theorem startedClients_inv :
    TrafficInv tables walks calls start (startedClients tables calls start) where
  layout := rfl
  follows := fun _ => startClient_follows
  holds := fun _ => startClient_holds
  todo := fun _ => startClient_todo

theorem TrafficInv.act {t : Threads κ Client MemoryBucket}
    (inv : TrafficInv tables walks calls start t) (k : κ) :
    TrafficInv tables walks calls start (t.act (trafficMove tables walks calls) (k, ())) where
  layout := (clientMove_layout (inv.holds k)).trans inv.layout
  follows := by
    intro j
    by_cases own : j = k
    · subst own
      rw [Threads.act_same]
      exact clientMove_follows inv.layout (inv.follows j)
    · rw [Threads.act_other _ t k () own]
      exact inv.follows j
  holds := by
    intro j
    rw [Threads.act_shared]
    by_cases own : j = k
    · subst own
      rw [Threads.act_same]
      exact clientMove_holds _ _
    · rw [Threads.act_other _ t k () own]
      exact holds_of_move (inv.holds j)
  todo := by
    intro j
    by_cases own : j = k
    · subst own
      rw [Threads.act_same]
      exact clientMove_todo (inv.follows j) (inv.todo j)
    · rw [Threads.act_other _ t k () own]
      exact inv.todo j

theorem reached_inv {t : Threads κ Client MemoryBucket}
    (reached : Reached tables walks calls start t) : TrafficInv tables walks calls start t :=
  reached_holds _ startedClients_inv (fun _ k inv => inv.act k) reached

/-! ## Attempts -/

/-- The counts that a call makes on the layout. -/
def layoutTasks (tables : CaseTables) (walk : Walk String) (layout : PatternBuckets)
    (call : InductionCall) : List (String × String) :=
  tasksOf tables call (sadRetrieve tables walk.run layout call.context)

omit [DecidableEq κ] in
theorem hits_attemptCounts {ctx : InductionContext} {returned found : List TriggeredPattern}
    (same : (returned.map forgetCounts).Perm found) (layout : PatternBuckets) (key : String)
    (i : Nat) :
    hits layout (attemptCounts tables ctx returned) key i
      = hits layout (attemptCounts tables ctx found) key i := by
  have forgets : attemptCounts tables ctx (returned.map forgetCounts)
      = attemptCounts tables ctx returned := by
    unfold attemptCounts
    rw [List.flatMap_map]
    rfl
  rw [← forgets]
  exact (same.flatMap_right _).countP_eq _

omit [DecidableEq κ] in
/-- A call that is past its lookup plans what it would on the layout. -/
theorem hits_tasksOf {walk : Walk String} {layout : PatternBuckets} {call : InductionCall}
    {returned : List TriggeredPattern} (retrieved : Retrieved tables walk layout call returned)
    (key : String) (i : Nat) :
    hits layout (tasksOf tables call returned) key i
      = hits layout (layoutTasks tables walk layout call) key i := by
  cases call with
  | runRetroactive ctx => exact hits_attemptCounts retrieved layout key i
  | recordSuccess hintTexts ctx => rfl

omit [DecidableEq κ] in
theorem hits_planned_le {walk : Walk String} {layout : PatternBuckets} {call : InductionCall}
    {c : Client} (follows : Follows tables walk layout call c) (key : String) (i : Nat) :
    hits layout (c.planned tables call) key i
      ≤ hits layout (layoutTasks tables walk layout call) key i := by
  obtain ⟨stage, returned, exhausted⟩ := c
  cases stage with
  | first tags found => exact Nat.zero_le _
  | second bridge tags all => exact Nat.zero_le _
  | read todo attempt => exact (hits_tasksOf follows key i).le
  | swap task todo attempt patterns revision => exact (hits_tasksOf follows key i).le
  | finished => exact (hits_tasksOf follows key i).le

variable [Fintype κ]

/-- No counter of the bucket runs over. -/
def Room (tables : CaseTables) (walks : κ → Walk String) (calls : κ → InductionCall)
    (start : MemoryBucket) : Prop :=
  ∀ key i, attemptAt start key i + ∑ k, hits (layoutOf (readBuckets start))
    (layoutTasks tables (walks k) (layoutOf (readBuckets start)) (calls k)) key i < 2 ^ 64

/-- The attempts with the counts to come are the attempts at the start with the counts
planned. -/
def Accounted (tables : CaseTables) (calls : κ → InductionCall) (start : MemoryBucket)
    (t : Threads κ Client MemoryBucket) : Prop :=
  ∀ key i, attemptAt t.shared key i
      + ∑ k, hits (layoutOf (readBuckets start)) (t.locals k).todo key i
    = attemptAt start key i
      + ∑ k, hits (layoutOf (readBuckets start)) ((t.locals k).planned tables (calls k)) key i

omit [DecidableEq κ] in
theorem startedClients_accounted :
    Accounted tables calls start (startedClients tables calls start) := by
  intro key i
  congr 1
  apply Finset.sum_congr rfl
  intro k _
  show hits _ (startClient tables (calls k)).todo key i
    = hits _ ((startClient tables (calls k)).planned tables (calls k)) key i
  cases calls k <;> rfl

theorem Accounted.act {t : Threads κ Client MemoryBucket} (room : Room tables walks calls start)
    (inv : TrafficInv tables walks calls start t) (accounted : Accounted tables calls start t)
    (k : κ) (calm : ((t.act (trafficMove tables walks calls) (k, ())).locals k).exhausted = false) :
    Accounted tables calls start (t.act (trafficMove tables walks calls) (k, ())) := by
  intro key i
  have sofar := accounted key i
  have left := t.sum_act (trafficMove tables walks calls) k ()
    fun _ c => hits (layoutOf (readBuckets start)) c.todo key i
  have planned := t.sum_act (trafficMove tables walks calls) k ()
    fun j c => hits (layoutOf (readBuckets start)) (c.planned tables (calls j)) key i
  have within : ∑ j, hits (layoutOf (readBuckets start))
        ((t.locals j).planned tables (calls j)) key i
      ≤ ∑ j, hits (layoutOf (readBuckets start))
        (layoutTasks tables (walks j) (layoutOf (readBuckets start)) (calls j)) key i :=
    Finset.sum_le_sum fun j _ => hits_planned_le (inv.follows j) key i
  have bound := room key i
  have part := Finset.single_le_sum
    (fun j _ => Nat.zero_le (hits (layoutOf (readBuckets start)) (t.locals j).todo key i))
    (Finset.mem_univ k)
  rw [Threads.act_same] at calm
  have own := clientMove_account inv.layout (inv.follows k) (inv.holds k) calm key i (by
    intro counted
    omega)
  rw [Threads.act_shared]
  simp only [trafficMove] at left planned own ⊢
  omega

theorem reached_accounted {t : Threads κ Client MemoryBucket}
    (room : Room tables walks calls start) (reached : Reached tables walks calls start t)
    (calm : ∀ k, (t.locals k).exhausted = false) : Accounted tables calls start t := by
  have all := reached_holds (fun t => TrafficInv tables walks calls start t ∧
      ((∀ k, (t.locals k).exhausted = false) → Accounted tables calls start t))
    ⟨startedClients_inv, fun _ => startedClients_accounted⟩ ?_ reached
  · exact all.2 calm
  · intro t k inv
    refine ⟨inv.1.act k, ?_⟩
    intro calm
    apply Accounted.act room inv.1 (inv.2 ?_) k (calm k)
    -- Who has given up a count stays so.
    intro j
    have after := calm j
    by_cases own : j = k
    · subst own
      rw [Threads.act_same] at after
      exact clientMove_exhausted _ _ after
    · rwa [Threads.act_other _ t k () own] at after

end Runs

end ControlPlane.Source.Memory
