import ControlPlane.Source.State.Recovery

/-!
# At most one probe lease per window

The stale branch of `acquire_probe_lease` is a check, an unconditional delete and
a create. Two things break the window: a delete that lands on a lease created
after the check, and a create that lands in a later second than the one written
into the lease. Without them the holders of the lease follow each other at least
`ttl_secs` apart, for every interleaving of any number of calls.
-/
namespace ControlPlane.Guarantees.ProbeLeaseWindow

open Lib Source Source.State.ProbeLease

/-- At most one caller receives `true` within any window of `ttl_secs`. -/
def OnePerWindow (ttlSecs : Nat) (wins : List (Nat × Nat)) : Prop :=
  ∀ start, (wins.filter fun win => decide (start ≤ win.2 ∧ win.2 < start + ttlSecs)).length ≤ 1

/-- The delete finds the entry its own `get` returned, or no lease at all, and a
create that finds the key free runs in the second that its caller has read. -/
def Timely (adapterProfile : String) (s : LeaseState) : LeaseAction → Prop
  | .delete caller ok =>
      match s.calls caller with
      | .stale _ revision =>
          ok = true → (s.kv.slots adapterProfile).value = none ∨
            (s.kv.slots adapterProfile).revision = revision
      | _ => True
  | .create caller =>
      match s.calls caller with
      | .creating nowSecs => (s.kv.slots adapterProfile).value = none → s.clock = nowSecs
      | _ => True
  | _ => True

instance (adapterProfile : String) (s : LeaseState) (action : LeaseAction) :
    Decidable (Timely adapterProfile s action) := by
  unfold Timely
  split
  · split <;> infer_instance
  · split <;> infer_instance
  · infer_instance

/-! ## The invariant -/

/-- The entry a caller found stale: as long as its revision is the current one,
the stored second is at least `ttl_secs` old. -/
structure FoundStale (ttlSecs : Nat) (s : LeaseState) (slot : Slot String)
    (nowSecs revision : Nat) : Prop where
  read : nowSecs ≤ s.clock
  numbered : revision ≤ s.kv.seq
  old : slot.revision = revision → ∃ text acquiredAt, slot.value = some text ∧
    Text.parseUsize text.toList = some acquiredAt ∧ ttlSecs ≤ nowSecs - acquiredAt

structure LeaseInv (adapterProfile : String) (ttlSecs : Nat) (s : LeaseState) : Prop where
  spaced : s.wins.Pairwise fun later earlier => earlier.2 + ttlSecs ≤ later.2
  past : ∀ win ∈ s.wins, win.2 ≤ s.clock
  /-- The last lease is still there with its second, or it was deleted when old. -/
  last : ∀ win, s.wins.head? = some win →
    (s.kv.slots adapterProfile).value = some (payload win.2) ∨
      (s.kv.slots adapterProfile).value = none ∧ win.2 + ttlSecs ≤ s.clock
  started : ∀ caller nowSecs, s.calls caller = .started nowSecs → nowSecs ≤ s.clock
  stale : ∀ caller nowSecs revision, s.calls caller = .stale nowSecs revision →
    FoundStale ttlSecs s (s.kv.slots adapterProfile) nowSecs revision

section Steps

variable {adapterProfile : String} {ttlSecs : Nat} {s : LeaseState}

theorem init_inv (kv : Bucket String String) (clock : Nat) :
    LeaseInv adapterProfile ttlSecs (init kv clock) := by
  constructor <;> simp [init]

/-- A call that moves on without writing keeps the invariant, if what it claims to
have found is true. -/
theorem goto_inv (inv : LeaseInv adapterProfile ttlSecs s) (caller : Nat) (call : Call)
    (hstarted : ∀ nowSecs, call = .started nowSecs → nowSecs ≤ s.clock)
    (hstale : ∀ nowSecs revision, call = .stale nowSecs revision →
      FoundStale ttlSecs s (s.kv.slots adapterProfile) nowSecs revision) :
    LeaseInv adapterProfile ttlSecs (s.goto caller call) := by
  refine ⟨inv.spaced, inv.past, inv.last, ?_, ?_⟩
  · intro other nowSecs hcall
    by_cases h : other = caller
    · subst h
      exact hstarted nowSecs (by simpa [LeaseState.goto] using hcall)
    · exact inv.started other nowSecs (by simpa [LeaseState.goto, h] using hcall)
  · intro other nowSecs revision hcall
    by_cases h : other = caller
    · subst h
      have hfound := hstale nowSecs revision (by simpa [LeaseState.goto] using hcall)
      exact ⟨hfound.read, hfound.numbered, hfound.old⟩
    · have hfound := inv.stale other nowSecs revision (by simpa [LeaseState.goto, h] using hcall)
      exact ⟨hfound.read, hfound.numbered, hfound.old⟩

theorem afterGet_stale {nowSecs : Nat} {slot : Slot String} {found revision : Nat}
    (h : afterGet ttlSecs nowSecs slot = .stale found revision) :
    found = nowSecs ∧ revision = slot.revision ∧ ∃ text acquiredAt, slot.value = some text ∧
      Text.parseUsize text.toList = some acquiredAt ∧ ttlSecs ≤ found - acquiredAt := by
  unfold afterGet at h
  cases hvalue : slot.value with
  | none => simp [hvalue] at h
  | some text =>
      cases hparse : Text.parseUsize text.toList with
      | none => simp [hvalue, hparse] at h
      | some acquiredAt =>
          simp only [hvalue, hparse] at h
          split at h
          next => cases h
          next hold =>
            simp only [Call.stale.injEq] at h
            obtain ⟨rfl, rfl⟩ := h
            exact ⟨rfl, rfl, text, acquiredAt, rfl, hparse, by omega⟩

theorem afterGet_ne_started {nowSecs other : Nat} {slot : Slot String} :
    afterGet ttlSecs nowSecs slot ≠ .started other := by
  unfold afterGet
  split
  · simp
  · split
    · simp
    · split <;> simp

/-- A write to the profile's key makes every earlier `get` out of date. -/
theorem write_inv (inv : LeaseInv adapterProfile ttlSecs s) (value : Option String)
    (wins : List (Nat × Nat))
    (spaced : wins.Pairwise fun later earlier => earlier.2 + ttlSecs ≤ later.2)
    (past : ∀ win ∈ wins, win.2 ≤ s.clock)
    (last : ∀ win, wins.head? = some win →
      value = some (payload win.2) ∨ value = none ∧ win.2 + ttlSecs ≤ s.clock) :
    LeaseInv adapterProfile ttlSecs
      { s with kv := s.kv.write adapterProfile value, wins := wins } := by
  refine ⟨spaced, past, by simpa using last, inv.started, ?_⟩
  intro caller nowSecs revision hcall
  have hfound := inv.stale caller nowSecs revision hcall
  have hnumbered := hfound.numbered
  refine ⟨hfound.read, by simp only [Bucket.write_seq]; omega, ?_⟩
  intro hcurrent
  simp only [Bucket.write_slots_same] at hcurrent
  omega

theorem delete_inv (inv : LeaseInv adapterProfile ttlSecs s) {caller nowSecs revision : Nat}
    (hcall : s.calls caller = .stale nowSecs revision)
    (timely : (s.kv.slots adapterProfile).value = none ∨
      (s.kv.slots adapterProfile).revision = revision) :
    LeaseInv adapterProfile ttlSecs { s with kv := s.kv.delete adapterProfile } := by
  refine write_inv inv none s.wins inv.spaced inv.past ?_
  intro win hwin
  refine .inr ⟨rfl, ?_⟩
  have hpast := inv.past win (List.mem_of_mem_head? hwin)
  rcases inv.last win hwin with hheld | ⟨_, hold⟩
  · have hfound := inv.stale caller nowSecs revision hcall
    have hread := hfound.read
    -- the lease is there, so the delete hits the entry that was read
    have hcurrent : (s.kv.slots adapterProfile).revision = revision := by
      rcases timely with hfree | hcurrent
      · rw [hheld] at hfree
        cases hfree
      · exact hcurrent
    obtain ⟨text, acquiredAt, hvalue, hparse, hage⟩ := hfound.old hcurrent
    rw [hheld, Option.some.injEq] at hvalue
    subst hvalue
    have hsecond := Text.parseUsize_repr hparse
    omega
  · exact hold

theorem create_inv (inv : LeaseInv adapterProfile ttlSecs s) (caller : Nat) {nowSecs : Nat}
    (free : (s.kv.slots adapterProfile).value = none) (timely : s.clock = nowSecs) :
    LeaseInv adapterProfile ttlSecs
      { s with
        kv := s.kv.write adapterProfile (some (payload nowSecs))
        wins := (caller, s.clock) :: s.wins } := by
  refine write_inv inv _ _ ?_ ?_ ?_
  · refine List.pairwise_cons.mpr ⟨?_, inv.spaced⟩
    intro earlier hearlier
    cases hwins : s.wins with
    | nil => simp [hwins] at hearlier
    | cons win rest =>
        have hold : win.2 + ttlSecs ≤ s.clock := by
          rcases inv.last win (by simp [hwins]) with hheld | ⟨_, hold⟩
          · rw [free] at hheld
            cases hheld
          · exact hold
        rw [hwins] at hearlier
        rcases List.mem_cons.mp hearlier with rfl | hrest
        · exact hold
        · have hspaced := inv.spaced
          rw [hwins] at hspaced
          have := (List.pairwise_cons.mp hspaced).1 earlier hrest
          simp only
          omega
  · intro win hwin
    rcases List.mem_cons.mp hwin with rfl | hrest
    · exact Nat.le_refl _
    · exact inv.past win hrest
  · intro win hwin
    simp only [List.head?_cons, Option.some.injEq] at hwin
    subst hwin
    exact .inl (by simp [timely])

theorem get_inv (inv : LeaseInv adapterProfile ttlSecs s) {caller nowSecs : Nat}
    (hcall : s.calls caller = .started nowSecs) :
    LeaseInv adapterProfile ttlSecs
      (s.goto caller (afterGet ttlSecs nowSecs (s.kv.slots adapterProfile))) := by
  refine goto_inv inv caller _ ?_ ?_
  · intro other h
    exact absurd h afterGet_ne_started
  · intro found revision h
    obtain ⟨rfl, rfl, hold⟩ := afterGet_stale h
    exact ⟨inv.started caller found hcall, s.kv.numbered adapterProfile, fun _ => hold⟩

/-- Time alone changes nothing that has happened. -/
theorem tick_inv (inv : LeaseInv adapterProfile ttlSecs s) :
    LeaseInv adapterProfile ttlSecs { s with clock := s.clock + 1 } := by
  refine ⟨inv.spaced, ?_, ?_, ?_, ?_⟩
  · intro win hwin
    have := inv.past win hwin
    simp only
    omega
  · intro win hwin
    refine (inv.last win hwin).imp id ?_
    rintro ⟨hfree, hold⟩
    exact ⟨hfree, by simp only; omega⟩
  · intro caller nowSecs hcall
    have := inv.started caller nowSecs hcall
    simp only
    omega
  · intro caller nowSecs revision hcall
    have hfound := inv.stale caller nowSecs revision hcall
    have hread := hfound.read
    exact ⟨by simp only; omega, hfound.numbered, hfound.old⟩

/-- Every timely step keeps the invariant. -/
theorem step_inv {action : LeaseAction} {s' : LeaseState}
    (inv : LeaseInv adapterProfile ttlSecs s) (timely : Timely adapterProfile s action)
    (h : step adapterProfile ttlSecs s action = some s') :
    LeaseInv adapterProfile ttlSecs s' := by
  cases action with
  | tick =>
      simp only [step, Option.some.injEq] at h
      subst h
      exact tick_inv inv
  | start caller =>
      simp only [step] at h
      split at h
      next =>
        cases h
        refine goto_inv inv caller _ ?_ (by simp)
        intro nowSecs hstarted
        simp only [Call.started.injEq] at hstarted
        omega
      next => cases h
  | get caller ok =>
      simp only [step] at h
      split at h
      next nowSecs hcall =>
        cases h
        cases ok with
        | true => exact get_inv inv hcall
        | false => exact goto_inv inv caller _ (by simp) (by simp)
      next => cases h
  | delete caller ok =>
      simp only [step] at h
      split at h
      next nowSecs revision hcall =>
        cases h
        refine goto_inv ?_ caller _ (by simp) (by simp)
        cases ok with
        | true =>
            simp only [Timely, hcall] at timely
            exact delete_inv inv hcall (timely trivial)
        | false => exact inv
      next => cases h
  | create caller =>
      simp only [step] at h
      split at h
      next nowSecs hcall =>
        split at h
        next kv revision hcreate =>
          cases h
          obtain ⟨hfree, rfl⟩ := Bucket.create_eq_some hcreate
          simp only [Timely, hcall] at timely
          exact goto_inv (create_inv inv caller hfree (timely hfree)) caller _
            (by simp) (by simp)
        next =>
          cases h
          exact goto_inv inv caller _ (by simp) (by simp)
      next => cases h

end Steps

/-! ## The window -/

theorem onePerWindow_of_spaced {ttlSecs : Nat} {wins : List (Nat × Nat)}
    (spaced : wins.Pairwise fun later earlier => earlier.2 + ttlSecs ≤ later.2) :
    OnePerWindow ttlSecs wins := by
  intro start
  have hsub := spaced.sublist
    (List.filter_sublist (p := fun win => decide (start ≤ win.2 ∧ win.2 < start + ttlSecs)))
  cases hinside : wins.filter fun win => decide (start ≤ win.2 ∧ win.2 < start + ttlSecs) with
  | nil => simp
  | cons first rest =>
      cases rest with
      | nil => simp
      | cons second rest =>
          have hfirst : first ∈ wins.filter
              fun win => decide (start ≤ win.2 ∧ win.2 < start + ttlSecs) := by
            rw [hinside]
            simp
          have hsecond : second ∈ wins.filter
              fun win => decide (start ≤ win.2 ∧ win.2 < start + ttlSecs) := by
            rw [hinside]
            simp
          have hbelow := (List.mem_filter.mp hfirst).2
          have habove := (List.mem_filter.mp hsecond).2
          rw [hinside] at hsub
          have hapart := (List.pairwise_cons.mp hsub).1 second (by simp)
          simp only [decide_eq_true_eq] at hbelow habove
          omega

/-- In every run whose steps are timely, from any bucket and for any number of
calls, at most one caller receives `true` within any window of `ttl_secs`. -/
theorem timely_calls_one_per_window (adapterProfile : String) (ttlSecs : Nat)
    (kv : Bucket String String) (clock : Nat) (actions : List LeaseAction) (s : LeaseState)
    (timely : RunMeets (step adapterProfile ttlSecs) (Timely adapterProfile) (init kv clock)
      actions)
    (run : runActions (step adapterProfile ttlSecs) (init kv clock) actions = some s) :
    OnePerWindow ttlSecs s.wins := by
  have inv : LeaseInv adapterProfile ttlSecs s :=
    runMeets_holds (fun _ _ _ inv timely h => step_inv inv timely h) (init_inv kv clock)
      timely run
  exact onePerWindow_of_spaced inv.spaced

section Example

/-- A lease of second 100, read at second 200 with a `ttl_secs` of 60. -/
def oldLease : Bucket String String := (Bucket.empty.put "auditor" (payload 100)).1

/-- Both calls find the lease stale; the second deletes what the first created. -/
def deleteRace : List LeaseAction :=
  [.start 0, .start 1, .get 0 true, .get 1 true, .delete 0 true, .create 0,
    .delete 1 true, .create 1]

/-- Two callers receive `true` in the same second. -/
theorem delete_race_grants_twice :
    ∃ s, runActions (step "auditor" 60) (init oldLease 200) deleteRace = some s ∧
      ¬ OnePerWindow 60 s.wins := by
  refine ⟨_, rfl, ?_⟩
  intro window
  exact absurd (window 200) (by decide +kernel)

/-- One call after the other: the second one finds the fresh lease. -/
def callsInTurn : List LeaseAction :=
  [.start 0, .get 0 true, .delete 0 true, .create 0, .start 1, .get 1 true]

theorem calls_in_turn_one_per_window :
    ∃ s, runActions (step "auditor" 60) (init oldLease 200) callsInTurn = some s ∧
      s.wins = [(0, 200)] ∧ OnePerWindow 60 s.wins := by
  refine ⟨_, rfl, by decide +kernel, ?_⟩
  exact timely_calls_one_per_window "auditor" 60 oldLease 200 callsInTurn _
    (by decide +kernel) rfl

end Example

end ControlPlane.Guarantees.ProbeLeaseWindow

/-!
# One node recovers a task

A checkpoint is stored with `lease_seq = 0` and never stored again with the
revision of its entry, while every entry has a revision above 0. The claim of a
foreign node is a compare-and-swap on the stored `lease_seq`, so it is always
lost, and the only node that resumes a task is the one that accepted it. A task
whose node does not come back stays in the bucket.
-/
namespace ControlPlane.Guarantees.RecoveryOwnership

open Lib Source.State.Recovery

/-- What holds of every checkpoint that was read from the bucket. -/
structure Written (s : RecoveryState) (checkpoint : TaskCheckpoint) : Prop where
  lease : checkpoint.leaseSeq = 0
  owner : s.acceptedBy checkpoint.taskId = some checkpoint.nodeId
  numbered : 0 < (s.kv.slots checkpoint.taskId).revision

structure RecoveryInv (s : RecoveryState) : Prop where
  stored : ∀ taskId checkpoint, (s.kv.slots taskId).value = some checkpoint →
    checkpoint.taskId = taskId ∧ Written s checkpoint
  listed : ∀ entry ∈ s.listed, Written s entry.2
  resumed : ∀ entry ∈ s.resumed, s.acceptedBy entry.2.taskId = some entry.1

theorem init_inv : RecoveryInv init := by
  constructor <;> simp [init, Bucket.empty]

/-- A foreign claim on a written checkpoint loses the compare-and-swap. -/
theorem claim_lost {s : RecoveryState} {checkpoint : TaskCheckpoint} (h : Written s checkpoint)
    (myNodeId : String) :
    putTaskCheckpoint s.kv { checkpoint with nodeId := myNodeId } (some checkpoint.leaseSeq) =
      none := by
  have hlease := h.lease
  have hnumbered := h.numbered
  have hstale : (s.kv.slots checkpoint.taskId).revision ≠ checkpoint.leaseSeq := by omega
  exact Bucket.update_eq_none hstale _

/-- A listed entry is resumed by its owner, and by nobody else. -/
theorem recoverEntry_eq {s : RecoveryState} {checkpoint : TaskCheckpoint}
    (h : Written s checkpoint) (myNodeId : String) :
    recoverEntry s.kv myNodeId checkpoint =
      (s.kv, if checkpoint.nodeId = myNodeId then some checkpoint else none) := by
  unfold recoverEntry
  by_cases hown : checkpoint.nodeId = myNodeId
  · simp [hown]
  · simp [hown, claim_lost h myNodeId]

section Steps

variable {s s' : RecoveryState}

/-- A checkpoint stays written when owners are only added and revisions only grow. -/
theorem Written.mono {checkpoint : TaskCheckpoint} (h : Written s checkpoint)
    (owners : ∀ taskId nodeId, s.acceptedBy taskId = some nodeId →
      s'.acceptedBy taskId = some nodeId)
    (revisions : ∀ taskId, (s.kv.slots taskId).revision ≤ (s'.kv.slots taskId).revision) :
    Written s' checkpoint := by
  refine ⟨h.lease, owners _ _ h.owner, ?_⟩
  have hnumbered := h.numbered
  have hgrows := revisions checkpoint.taskId
  omega

/-- Writing to one key keeps the invariant if the value is a written checkpoint. -/
theorem write_inv (inv : RecoveryInv s) (taskId : String) (value : Option TaskCheckpoint)
    (written : ∀ checkpoint, value = some checkpoint → checkpoint.taskId = taskId ∧
      checkpoint.leaseSeq = 0 ∧ s.acceptedBy taskId = some checkpoint.nodeId) :
    RecoveryInv { s with kv := s.kv.write taskId value } := by
  have hmono : ∀ checkpoint, Written s checkpoint →
      Written { s with kv := s.kv.write taskId value } checkpoint := fun checkpoint h =>
    h.mono (fun _ _ howner => howner) (fun other => s.kv.revision_le_write taskId other value)
  refine ⟨?_, fun entry hentry => hmono _ (inv.listed entry hentry), inv.resumed⟩
  intro other checkpoint hvalue
  by_cases hkey : other = taskId
  · subst hkey
    simp only [Bucket.write_slots_same] at hvalue
    obtain ⟨hid, hlease, howner⟩ := written checkpoint hvalue
    subst hid
    exact ⟨rfl, hlease, howner, by simp⟩
  · simp only [Bucket.write_slots_other _ hkey] at hvalue
    obtain ⟨hid, hwritten⟩ := inv.stored other checkpoint hvalue
    exact ⟨hid, hmono checkpoint hwritten⟩

theorem accept_inv (inv : RecoveryInv s) {taskId : String} (nodeId : String)
    (fresh : s.acceptedBy taskId = none) :
    RecoveryInv { s with acceptedBy := Function.update s.acceptedBy taskId (some nodeId) } := by
  have howners : ∀ other owner, s.acceptedBy other = some owner →
      Function.update s.acceptedBy taskId (some nodeId) other = some owner := by
    intro other owner h
    have hother : other ≠ taskId := by
      rintro rfl
      rw [fresh] at h
      cases h
    simpa [hother] using h
  refine ⟨?_, ?_, fun entry hentry => howners _ _ (inv.resumed entry hentry)⟩
  · intro other checkpoint hvalue
    obtain ⟨hid, hwritten⟩ := inv.stored other checkpoint hvalue
    exact ⟨hid, hwritten.mono howners (fun _ => Nat.le_refl _)⟩
  · intro entry hentry
    exact (inv.listed entry hentry).mono howners (fun _ => Nat.le_refl _)

/-- Dropping or adding listed entries, all of them written. -/
theorem listed_inv (inv : RecoveryInv s) {listed : List (String × TaskCheckpoint)}
    (h : ∀ entry ∈ listed, Written s entry.2) : RecoveryInv { s with listed := listed } := by
  refine ⟨?_, ?_, inv.resumed⟩
  · intro taskId checkpoint hvalue
    obtain ⟨hid, hwritten⟩ := inv.stored taskId checkpoint hvalue
    exact ⟨hid, hwritten.lease, hwritten.owner, hwritten.numbered⟩
  · intro entry hentry
    have hwritten := h entry hentry
    exact ⟨hwritten.lease, hwritten.owner, hwritten.numbered⟩

theorem recover_inv (inv : RecoveryInv s) {index : Nat} {nodeId : String}
    {checkpoint : TaskCheckpoint} (hentry : s.listed[index]? = some (nodeId, checkpoint)) :
    RecoveryInv { s with
      kv := (recoverEntry s.kv nodeId checkpoint).1
      listed := s.listed.eraseIdx index
      resumed := ((recoverEntry s.kv nodeId checkpoint).2.toList.map fun c => (nodeId, c)) ++
        s.resumed } := by
  have hwritten := inv.listed _ (List.mem_of_getElem? hentry)
  have hlisted : RecoveryInv { s with listed := s.listed.eraseIdx index } :=
    listed_inv inv (fun entry h => inv.listed entry (List.mem_of_mem_eraseIdx h))
  rw [recoverEntry_eq hwritten nodeId]
  refine ⟨?_, ?_, ?_⟩
  · intro taskId stored hvalue
    obtain ⟨hid, h⟩ := hlisted.stored taskId stored hvalue
    exact ⟨hid, h.lease, h.owner, h.numbered⟩
  · intro entry h
    have := hlisted.listed entry h
    exact ⟨this.lease, this.owner, this.numbered⟩
  · intro entry h
    rcases List.mem_append.mp h with hnew | hold
    · by_cases hown : checkpoint.nodeId = nodeId
      · simp only [hown, ↓reduceIte, Option.toList_some, List.map_cons, List.map_nil,
          List.mem_singleton] at hnew
        subst hnew
        rw [← hown]
        exact hwritten.owner
      · simp [hown] at hnew
    · exact inv.resumed entry hold

theorem step_inv {action : RecoveryAction} (inv : RecoveryInv s)
    (h : step s action = some s') : RecoveryInv s' := by
  cases action with
  | accept nodeId taskId =>
      simp only [step] at h
      split at h
      next => cases h
      next hfresh =>
        cases h
        exact accept_inv inv nodeId hfresh
  | checkpoint nodeId task =>
      simp only [step] at h
      split at h
      next howner =>
        cases h
        refine write_inv inv task.taskId _ ?_
        intro checkpoint hvalue
        simp only [Option.some.injEq] at hvalue
        subst hvalue
        exact ⟨rfl, rfl, howner⟩
      next => cases h
  | collect taskId =>
      cases h
      exact write_inv inv taskId none (by simp)
  | list nodeId taskId =>
      simp only [step] at h
      split at h
      next checkpoint hvalue =>
        cases h
        refine listed_inv inv ?_
        intro entry hentry
        rcases List.mem_cons.mp hentry with rfl | hold
        · exact (inv.stored taskId checkpoint hvalue).2
        · exact inv.listed entry hold
      next =>
        cases h
        exact inv
  | recover index =>
      simp only [step] at h
      split at h
      next => cases h
      next nodeId checkpoint hentry =>
        cases h
        exact recover_inv inv hentry
  | crash nodeId =>
      cases h
      exact listed_inv inv (fun entry hentry => inv.listed entry (List.mem_filter.mp hentry).1)

end Steps

/-! ## Ownership over whole runs -/

/-- The node runs the task, in its own pipeline or by `spawn_resume`. -/
def RunsTask (s : RecoveryState) (nodeId taskId : String) : Prop :=
  s.acceptedBy taskId = some nodeId ∨
    ∃ checkpoint, (nodeId, checkpoint) ∈ s.resumed ∧ checkpoint.taskId = taskId

theorem runsTask_accepted {s : RecoveryState} (inv : RecoveryInv s) {nodeId taskId : String}
    (h : RunsTask s nodeId taskId) : s.acceptedBy taskId = some nodeId := by
  rcases h with haccepted | ⟨checkpoint, hresumed, rfl⟩
  · exact haccepted
  · exact inv.resumed _ hresumed

/-- For any number of nodes and any interleaving of accepting, checkpointing,
listing, claiming, resuming, collecting and crashing: at most one node calls
`spawn_resume` for the checkpoints of a task, and no other node ever runs it. -/
theorem recovery_has_one_owner (actions : List RecoveryAction) (s : RecoveryState)
    (run : runActions step init actions = some s) :
    (∀ first ∈ s.resumed, ∀ second ∈ s.resumed, first.2.taskId = second.2.taskId →
      first.1 = second.1) ∧
    ∀ taskId nodeId other, RunsTask s nodeId taskId → RunsTask s other taskId →
      nodeId = other := by
  have inv : RecoveryInv s := run_holds (fun _ _ _ inv h => step_inv inv h) init_inv run
  refine ⟨?_, ?_⟩
  · intro first hfirst second hsecond hsame
    have howner := inv.resumed first hfirst
    rw [hsame, inv.resumed second hsecond] at howner
    exact (Option.some.inj howner).symm
  · intro taskId nodeId other hnode hother
    have howner := runsTask_accepted inv hnode
    rw [runsTask_accepted inv hother] at howner
    exact (Option.some.inj howner).symm

section Example

def mergedTask : MergedTask :=
  ⟨"task-1", "merged text", "manifest", ⟨1, [], [], []⟩, none, 5⟩

/-- The owner goes down and comes back while another node races for the task. -/
def restartRace : List RecoveryAction :=
  [.accept "node-a:1" "task-1", .checkpoint "node-a:1" mergedTask, .crash "node-a:1",
    .list "node-b:7" "task-1", .list "node-a:1" "task-1", .recover 0, .recover 0]

theorem restart_race_one_owner :
    ∃ s, runActions step init restartRace = some s ∧
      s.resumed = [("node-a:1", pipelineCheckpoint "node-a:1" mergedTask)] ∧
      ∀ nodeId other, RunsTask s nodeId "task-1" → RunsTask s other "task-1" →
        nodeId = other := by
  refine ⟨_, rfl, by decide +kernel, ?_⟩
  exact (recovery_has_one_owner restartRace _ rfl).2 "task-1"

end Example

/-! ## Orphaned checkpoints -/

/-- The entry of a task can be taken over: its `lease_seq` is its revision, and
the claim of every other node goes through. -/
def Claimable (s : RecoveryState) (checkpoint : TaskCheckpoint) : Prop :=
  checkpoint.leaseSeq = (s.kv.slots checkpoint.taskId).revision ∧
    ∀ nodeId, nodeId ≠ checkpoint.nodeId →
      (recoverEntry s.kv nodeId checkpoint).2.isSome

/-- No stored checkpoint can be taken over, whatever was written to its key before:
its `lease_seq` is not the revision of its entry, and a foreign node that claims it
while nobody else writes leaves the bucket as it is and resumes nothing. -/
theorem orphan_never_claimed (actions : List RecoveryAction) (s : RecoveryState)
    (run : runActions step init actions = some s) (taskId : String)
    (checkpoint : TaskCheckpoint) (stored : getTaskCheckpoint s.kv taskId = some checkpoint) :
    checkpoint.leaseSeq ≠ (s.kv.slots taskId).revision ∧
      ∀ nodeId, nodeId ≠ checkpoint.nodeId →
        recoverEntry s.kv nodeId checkpoint = (s.kv, none) := by
  have inv : RecoveryInv s := run_holds (fun _ _ _ inv h => step_inv inv h) init_inv run
  obtain ⟨hid, hwritten⟩ := inv.stored taskId checkpoint stored
  constructor
  · have hlease := hwritten.lease
    have hnumbered := hwritten.numbered
    rw [hid] at hnumbered
    omega
  · intro nodeId hforeign
    rw [recoverEntry_eq hwritten nodeId, if_neg hforeign.symm]

section OrphanExample

/-- A node merges a task, writes its checkpoint and does not come back. -/
def ownerLost : List RecoveryAction :=
  [.accept "node-a:1" "task-1", .checkpoint "node-a:1" mergedTask, .crash "node-a:1"]

theorem owner_lost_not_taken_over :
    ∃ s, runActions step init ownerLost = some s ∧
      getTaskCheckpoint s.kv "task-1" = some (pipelineCheckpoint "node-a:1" mergedTask) ∧
      recoverEntry s.kv "node-b:7" (pipelineCheckpoint "node-a:1" mergedTask) = (s.kv, none) := by
  refine ⟨_, rfl, rfl, ?_⟩
  exact (orphan_never_claimed ownerLost _ rfl "task-1" _ rfl).2 "node-b:7" (by decide)

/-- The entry has revision 1 and its record says 0, so the claim of another node fails. -/
theorem owner_lost_not_claimable :
    ∃ s, runActions step init ownerLost = some s ∧
      getTaskCheckpoint s.kv "task-1" = some (pipelineCheckpoint "node-a:1" mergedTask) ∧
      ¬ Claimable s (pipelineCheckpoint "node-a:1" mergedTask) := by
  refine ⟨_, rfl, rfl, ?_⟩
  rintro ⟨-, hclaims⟩
  exact absurd (hclaims "node-b:7" (by decide)) (by decide +kernel)

end OrphanExample

end ControlPlane.Guarantees.RecoveryOwnership
