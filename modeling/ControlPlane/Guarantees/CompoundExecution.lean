import ControlPlane.Guarantees.KahnWaves

/-!
# Compound execution

`execute` runs a plan wave by wave. The invariant of its loop ties the `completed`
map to the calls of the waves so far: each of them was answered with a result, and
the map holds exactly these answers, under their ids. So the manifest of a call is
built from the answers of its dependencies, and the loop ends with one result for
each subtask or at the first wave with a failed call.
-/
namespace ControlPlane.Guarantees.CompoundExecution

open Lib Source.Planning KahnWaves

abbrev Call := SubtaskId × TaskManifest

/-! ## The context of a subtask -/

/-- The parent's context, where there is any, followed by the outputs in order. -/
def contextFollowedBy (parent : Option String) : List String → Option String
  | [] => parent
  | output :: rest =>
      some (String.intercalate "\n\n---\n\n" ((parent.toList.filter fun base => !base.isEmpty) ++
        (output :: rest).map ("## Subtask Result\n\n" ++ ·)))

/-- The manifest of a subtask with these outputs of its dependencies. -/
def subtaskManifest (subtask : Subtask) (parent : TaskManifest) (outputs : List String) :
    TaskManifest :=
  { parent with
    description := subtask.description
    context := contextFollowedBy parent.context outputs
    hasOracle := false
    requireApproval := false }

theorem intercalate_ne_empty {separator block : String} {rest : List String} (h : block ≠ "") :
    String.intercalate separator (block :: rest) ≠ "" := by
  cases rest with
  | nil => simpa using h
  | cons next rest => simp [String.intercalate_cons_cons, h]

theorem result_blocks {completed : AList fun _ : SubtaskId => SubtaskResult}
    {deps : List SubtaskId} {results : List SubtaskResult}
    (h : List.Forall₂ (fun d r => completed.lookup d = some r) deps results) :
    (deps.filterMap fun id => (completed.lookup id).map fun r =>
      "## Subtask Result\n\n" ++ r.output) =
      (results.map (·.output)).map ("## Subtask Result\n\n" ++ ·) := by
  induction h with
  | nil => rfl
  | cons hd _ ih => simp [hd, ih]

theorem result_block_ne_empty (output : String) : "## Subtask Result\n\n" ++ output ≠ "" := by
  intro h
  have := (String.append_eq_empty_iff.mp h).1
  revert this
  decide

/-- With a result for every dependency, the manifest carries their outputs. -/
theorem buildSubtaskManifest_eq {subtask : Subtask} (parent : TaskManifest)
    {completed : AList fun _ : SubtaskId => SubtaskResult} {results : List SubtaskResult}
    (h : List.Forall₂ (fun d r => completed.lookup d = some r) subtask.dependsOn results) :
    buildSubtaskManifest subtask parent completed =
      subtaskManifest subtask parent (results.map (·.output)) := by
  unfold buildSubtaskManifest subtaskManifest
  simp only [result_blocks h]
  congr 1
  cases results.map (·.output) with
  | nil => simp [contextFollowedBy]
  | cons output rest =>
      have hne : ¬ (String.intercalate "\n\n---\n\n"
          ((output :: rest).map ("## Subtask Result\n\n" ++ ·))).isEmpty = true := by
        rw [String.isEmpty_iff]
        exact intercalate_ne_empty (result_block_ne_empty output)
      rw [if_neg hne]
      cases parent.context with
      | none => simp [contextFollowedBy]
      | some base =>
          by_cases hbase : base.isEmpty
          · simp [contextFollowedBy, hbase]
          · simp [contextFollowedBy, hbase, String.intercalate_cons_cons]

/-! ## The calls and the results of one wave -/

section Wave

variable {subtasks : List Subtask} {parent : TaskManifest} {executor : SubtaskExecutor}
  {completed : AList fun _ : SubtaskId => SubtaskResult}

/-- A call of the wave, with the manifest built from the results so far. -/
def CallOf (subtasks : List Subtask) (parent : TaskManifest)
    (completed : AList fun _ : SubtaskId => SubtaskResult) (id : SubtaskId) (call : Call) : Prop :=
  call.1 = id ∧ ∃ s ∈ subtasks, s.id = id ∧ call.2 = buildSubtaskManifest s parent completed

theorem waveCalls_spec (parent : TaskManifest)
    (completed : AList fun _ : SubtaskId => SubtaskResult) (wave : List SubtaskId)
    (known : ∀ id ∈ wave, ∃ s ∈ subtasks, s.id = id) :
    ∃ batch, waveCalls subtasks parent completed wave = some batch ∧
      List.Forall₂ (CallOf subtasks parent completed) wave batch := by
  unfold waveCalls
  induction wave with
  | nil => exact ⟨[], rfl, .nil⟩
  | cons id rest ih =>
      obtain ⟨hid, hrest⟩ := List.forall_mem_cons.mp known
      obtain ⟨batch, hbatch, hcalls⟩ := ih hrest
      obtain ⟨s, hs⟩ : ∃ s, (subtasks.find? fun s => decide (s.id = id)) = some s := by
        rw [← Option.isSome_iff_exists, List.find?_isSome]
        simpa using hid
      have hmem := List.mem_of_find?_eq_some hs
      have hsame : s.id = id := by simpa using List.find?_some hs
      refine ⟨(id, buildSubtaskManifest s parent completed) :: batch, ?_,
        .cons ⟨rfl, s, hmem, hsame, rfl⟩ hcalls⟩
      rw [List.mapM_cons, hbatch, hs]
      rfl

theorem CallOf.ids {wave : List SubtaskId} {batch : List Call}
    (h : List.Forall₂ (CallOf subtasks parent completed) wave batch) :
    batch.map (·.1) = wave := by
  induction h with
  | nil => rfl
  | cons hcall _ ih => simp [hcall.1, ih]

/-- The answers of a wave are all results, or there is a first error among them. -/
inductive Answered (executor : SubtaskExecutor) (batch : List Call) :
    Except SchedulerError (List SubtaskResult) → Prop where
  | all (results : List SubtaskResult)
      (h : batch.map (fun call => executor call.1 call.2) = results.map .ok) :
      Answered executor batch (.ok results)
  | failed (before : List Call) (call : Call) (after : List Call) (e : SchedulerError)
      (split : batch = before ++ call :: after)
      (earlier : ∀ c ∈ before, ∃ r, executor c.1 c.2 = .ok r)
      (h : executor call.1 call.2 = .error e) : Answered executor batch (.error e)

theorem Answered.cons_ok {call : Call} {batch : List Call} {r : SubtaskResult}
    (h : executor call.1 call.2 = .ok r) {outcome : Except SchedulerError (List SubtaskResult)}
    (rest : Answered executor batch outcome) :
    Answered executor (call :: batch) (outcome.map (r :: ·)) := by
  cases rest with
  | all results hresults => exact .all (r :: results) (by simp [h, hresults])
  | failed before failing after e split earlier hfailing =>
      refine .failed (call :: before) failing after e (by rw [split]; rfl) ?_ hfailing
      exact List.forall_mem_cons.mpr ⟨⟨r, h⟩, earlier⟩

theorem answered_exists (executor : SubtaskExecutor) (batch : List Call) :
    ∃ outcome, Answered executor batch outcome := by
  induction batch with
  | nil => exact ⟨.ok [], .all [] rfl⟩
  | cons call rest ih =>
      cases hcall : executor call.1 call.2 with
      | error e => exact ⟨.error e, .failed [] call rest e rfl (by simp) hcall⟩
      | ok r =>
          obtain ⟨outcome, hrest⟩ := ih
          exact ⟨_, hrest.cons_ok hcall⟩

/-- `completed.insert(result.subtask_id.clone(), result)` for each result. -/
def insertAll (results : List SubtaskResult)
    (completed : AList fun _ : SubtaskId => SubtaskResult) :
    AList fun _ : SubtaskId => SubtaskResult :=
  results.foldl (fun completed r => completed.insert r.subtaskId r) completed

theorem collectResults_append_error (results : List SubtaskResult) (e : SchedulerError)
    (after : List (Except SchedulerError SubtaskResult)) :
    collectResults (results.map .ok ++ .error e :: after) completed = .error e := by
  unfold collectResults
  induction results generalizing completed with
  | nil => rfl
  | cons r rest ih => exact ih

theorem collectResults_ok (results : List SubtaskResult) :
    collectResults (results.map .ok) completed = .ok (insertAll results completed) := by
  unfold collectResults insertAll
  induction results generalizing completed with
  | nil => rfl
  | cons r rest ih => exact ih

theorem exists_results {batch : List Call}
    (h : ∀ call ∈ batch, ∃ r, executor call.1 call.2 = .ok r) :
    ∃ results : List SubtaskResult,
      batch.map (fun call => executor call.1 call.2) = results.map .ok := by
  induction batch with
  | nil => exact ⟨[], rfl⟩
  | cons call rest ih =>
      obtain ⟨⟨r, hr⟩, hrest⟩ := List.forall_mem_cons.mp h
      obtain ⟨results, hresults⟩ := ih hrest
      exact ⟨r :: results, by simp [hr, hresults]⟩

theorem collectResults_spec (completed : AList fun _ : SubtaskId => SubtaskResult)
    {batch : List Call}
    {outcome : Except SchedulerError (List SubtaskResult)} (h : Answered executor batch outcome) :
    collectResults (batch.map fun call => executor call.1 call.2) completed =
      outcome.map (insertAll · completed) := by
  cases h with
  | all results hresults =>
      rw [hresults]
      exact collectResults_ok results
  | failed before call after e split earlier hcall =>
      obtain ⟨results, hresults⟩ := exists_results earlier
      rw [split, List.map_append, List.map_cons, hresults, hcall]
      exact collectResults_append_error results e _

theorem insertAll_entries {results : List SubtaskResult}
    (nodup : (results.map (·.subtaskId)).Nodup)
    (fresh : ∀ r ∈ results, r.subtaskId ∉ completed) :
    (insertAll results completed).entries.Perm
      (completed.entries ++ results.map fun r => ⟨r.subtaskId, r⟩) := by
  induction results generalizing completed with
  | nil => simp [insertAll]
  | cons r rest ih =>
      obtain ⟨hr, hrest⟩ := List.forall_mem_cons.mp fresh
      rw [List.map_cons, List.nodup_cons] at nodup
      have hfresh : ∀ r' ∈ rest, r'.subtaskId ∉ completed.insert r.subtaskId r := by
        intro r' hr' hmem
        rcases AList.mem_insert _ |>.mp hmem with hsame | hold
        · exact nodup.1 (hsame ▸ List.mem_map_of_mem hr')
        · exact hrest r' hr' hold
      have hentries := ih nodup.2 hfresh
      rw [AList.entries_insert_of_notMem hr] at hentries
      exact hentries.trans List.perm_middle.symm

end Wave

/-! ## The run of the waves -/

section Run

variable (subtasks : List Subtask) (parent : TaskManifest) (executor : SubtaskExecutor)

/-- The call is of a subtask of the plan, every dependency of it was answered with a
result in one of the earlier rounds, and its manifest carries these results' outputs. -/
def Prepared (earlier : List (List Call)) (call : Call) : Prop :=
  ∃ s ∈ subtasks, s.id = call.1 ∧ ∃ results : List SubtaskResult,
    List.Forall₂ (fun d r => ∃ m, (d, m) ∈ earlier.flatten ∧ executor d m = .ok r)
      s.dependsOn results ∧
    call.2 = subtaskManifest s parent (results.map (·.output))

/-- An execution along the waves: the rounds of calls it made, and how it ended. -/
structure FollowsWaves (waves : List (List SubtaskId)) (rounds : List (List Call))
    (execution : Execution) : Prop where
  calls : execution.calls = rounds.flatten
  scheduled : rounds.map (·.map (·.1)) <+: waves
  prepared : ∀ k round, rounds[k]? = some round →
    ∀ call ∈ round, Prepared subtasks parent executor (rounds.take k) call
  /-- A round with a failed call is the last one, and its first error is returned. -/
  stopped : ∀ k round, rounds[k]? = some round → ∀ call ∈ round, ∀ e,
    executor call.1 call.2 = .error e → rounds.length = k + 1 ∧
      ∃ first, Answered executor round (.error first) ∧ execution.result = .error first
  /-- Without a failed call all waves run and all answers are returned. -/
  finished : (∀ call ∈ execution.calls, ∃ r, executor call.1 call.2 = .ok r) →
    rounds.map (·.map (·.1)) = waves ∧ ∃ results, execution.result = .ok results ∧
      (results.map .ok).Perm (execution.calls.map fun call => executor call.1 call.2)

/-- What the plan's waves satisfy: the ids are the plan's, each once, and dependencies
stand in earlier waves. -/
structure WavesOf (waves : List (List SubtaskId)) : Prop where
  nodup : waves.flatten.Nodup
  known : ∀ wave ∈ waves, ∀ id ∈ wave, ∃ s ∈ subtasks, s.id = id
  earlier : ∀ w wave, waves[w]? = some wave → ∀ s ∈ subtasks, s.id ∈ wave →
    ∀ d ∈ s.dependsOn, d ∈ (waves.take w).flatten

/-- The loop before the next wave: the rounds so far were all answered, and the map
holds the answers under their ids. -/
structure Progress (rounds : List (List Call)) (answers : List SubtaskResult)
    (completed : AList fun _ : SubtaskId => SubtaskResult) : Prop where
  prepared : ∀ k round, rounds[k]? = some round →
    ∀ call ∈ round, Prepared subtasks parent executor (rounds.take k) call
  answered : rounds.flatten.map (fun call => executor call.1 call.2) = answers.map .ok
  entries : completed.entries.Perm (answers.map fun r => ⟨r.subtaskId, r⟩)

variable {subtasks parent executor} {waves : List (List SubtaskId)} {rounds : List (List Call)}
  {answers : List SubtaskResult} {completed : AList fun _ : SubtaskId => SubtaskResult}
  (echo : ∀ id m r, executor id m = .ok r → r.subtaskId = id)

include echo

/-- An executor that answers with the id it was given. -/
theorem answer_ids {calls : List Call} {results : List SubtaskResult}
    (h : calls.map (fun call => executor call.1 call.2) = results.map .ok) :
    results.map (·.subtaskId) = calls.map (·.1) := by
  induction calls generalizing results with
  | nil =>
      cases results with
      | nil => rfl
      | cons r rest => simp at h
  | cons call rest ih =>
      cases results with
      | nil => simp at h
      | cons r results =>
          simp only [List.map_cons, List.cons.injEq] at h ⊢
          exact ⟨echo _ _ _ h.1, ih h.2⟩

omit echo in
theorem Progress.lookup (progress : Progress subtasks parent executor rounds answers completed)
    {r : SubtaskResult} (h : r ∈ answers) : completed.lookup r.subtaskId = some r := by
  apply AList.mem_lookup_iff.mpr
  exact progress.entries.mem_iff.mpr (List.mem_map_of_mem h)

omit echo in
theorem Progress.answered_call
    (progress : Progress subtasks parent executor rounds answers completed) {call : Call}
    (h : call ∈ rounds.flatten) : ∃ r ∈ answers, executor call.1 call.2 = .ok r := by
  have hanswer : executor call.1 call.2 ∈ answers.map Except.ok := by
    rw [← progress.answered]
    exact List.mem_map_of_mem h
  obtain ⟨r, hr, hok⟩ := List.mem_map.mp hanswer
  exact ⟨r, hr, hok.symm⟩

theorem Progress.mem_iff (progress : Progress subtasks parent executor rounds answers completed)
    (id : SubtaskId) : id ∈ completed ↔ id ∈ rounds.flatten.map (·.1) := by
  rw [← answer_ids echo progress.answered, AList.mem_keys, AList.keys, List.keys,
    (progress.entries.map Sigma.fst).mem_iff, List.map_map]
  rfl

/-- A dependency that was called has its answer in the map. -/
theorem Progress.result_of (progress : Progress subtasks parent executor rounds answers completed)
    {d : SubtaskId} (h : d ∈ rounds.flatten.map (·.1)) :
    ∃ r m, (d, m) ∈ rounds.flatten ∧ executor d m = .ok r ∧ completed.lookup d = some r := by
  obtain ⟨⟨id, m⟩, hcall, rfl⟩ := List.mem_map.mp h
  obtain ⟨r, hr, hok⟩ := progress.answered_call hcall
  have hid := echo _ _ _ hok
  refine ⟨r, m, hcall, hok, ?_⟩
  rw [← hid]
  exact progress.lookup hr

/-- The calls of the next wave are prepared. -/
theorem Progress.next_prepared
    (progress : Progress subtasks parent executor rounds answers completed)
    (plan : WavesOf subtasks waves) {wave : List SubtaskId} {rest : List (List SubtaskId)}
    (hwaves : waves = rounds.map (·.map (·.1)) ++ wave :: rest) {batch : List Call}
    (hbatch : List.Forall₂ (CallOf subtasks parent completed) wave batch) :
    ∀ call ∈ batch, Prepared subtasks parent executor rounds call := by
  intro call hcall
  obtain ⟨id, hid, hsame, s, hs, hsid, hmanifest⟩ := exists_left_of_forall₂ hbatch hcall
  have hwave : waves[rounds.length]? = some wave := by simp [hwaves]
  have hpast : waves.take rounds.length = rounds.map (·.map (·.1)) := by
    rw [hwaves]
    exact List.take_left' (by simp)
  have hdeps : ∀ d ∈ s.dependsOn, d ∈ rounds.flatten.map (·.1) := by
    intro d hd
    have hearlier := plan.earlier _ _ hwave s hs (hsid ▸ hid) d hd
    rw [hpast] at hearlier
    rw [List.map_flatten]
    exact hearlier
  obtain ⟨results, hresults⟩ : ∃ results, List.Forall₂ (fun d r =>
      (∃ m, (d, m) ∈ rounds.flatten ∧ executor d m = .ok r) ∧ completed.lookup d = some r)
      s.dependsOn results := by
    revert hdeps
    generalize s.dependsOn = deps
    intro hdeps
    induction deps with
    | nil => exact ⟨[], .nil⟩
    | cons d deps ih =>
        obtain ⟨hd, htail⟩ := List.forall_mem_cons.mp hdeps
        obtain ⟨r, m, hin, hok, hlookup⟩ := progress.result_of echo hd
        obtain ⟨results, hresults⟩ := ih htail
        exact ⟨r :: results, .cons ⟨⟨m, hin, hok⟩, hlookup⟩ hresults⟩
  refine ⟨s, hs, hsid.trans hsame.symm, results, hresults.imp fun _ _ h => h.1, ?_⟩
  rw [hmanifest]
  exact buildSubtaskManifest_eq parent (hresults.imp fun _ _ h => h.2)

omit echo in
/-- One more round of prepared calls. -/
theorem prepared_concat {batch : List Call}
    (before : ∀ k round, rounds[k]? = some round →
      ∀ call ∈ round, Prepared subtasks parent executor (rounds.take k) call)
    (new : ∀ call ∈ batch, Prepared subtasks parent executor rounds call) :
    ∀ k round, (rounds ++ [batch])[k]? = some round →
      ∀ call ∈ round, Prepared subtasks parent executor ((rounds ++ [batch]).take k) call := by
  intro k round hround
  rcases getElem?_concat_cases hround with hold | ⟨rfl, rfl⟩
  · have hk : k ≤ rounds.length := (List.getElem?_eq_some_iff.mp hold).1.le
    rw [List.take_append_of_le_length hk]
    exact before k round hold
  · rw [List.take_left' rfl]
    exact new

/-- A wave whose calls were all answered keeps the invariant. -/
theorem Progress.step (progress : Progress subtasks parent executor rounds answers completed)
    (plan : WavesOf subtasks waves) {wave : List SubtaskId} {rest : List (List SubtaskId)}
    (hwaves : waves = rounds.map (·.map (·.1)) ++ wave :: rest) {batch : List Call}
    (hbatch : List.Forall₂ (CallOf subtasks parent completed) wave batch)
    {results : List SubtaskResult}
    (hresults : batch.map (fun call => executor call.1 call.2) = results.map .ok) :
    Progress subtasks parent executor (rounds ++ [batch]) (answers ++ results)
      (insertAll results completed) := by
  have hids : results.map (·.subtaskId) = wave :=
    (answer_ids echo hresults).trans (CallOf.ids hbatch)
  have hnodup := plan.nodup
  rw [hwaves, List.flatten_append, List.flatten_cons, ← List.append_assoc] at hnodup
  obtain ⟨hpast, -, -⟩ := List.nodup_append.mp hnodup
  obtain ⟨-, hwave, hdisjoint⟩ := List.nodup_append.mp hpast
  have hfresh : ∀ r ∈ results, r.subtaskId ∉ completed := by
    intro r hr hmem
    have hin : r.subtaskId ∈ wave := hids ▸ List.mem_map_of_mem hr
    have hold := (progress.mem_iff echo _).mp hmem
    rw [List.map_flatten] at hold
    exact hdisjoint _ hold _ hin rfl
  refine ⟨prepared_concat progress.prepared (progress.next_prepared echo plan hwaves hbatch),
    ?_, ?_⟩
  · simp [progress.answered, hresults]
  · have hentries := insertAll_entries (hids ▸ hwave) hfresh
    rw [List.map_append]
    exact hentries.trans (progress.entries.append_right _)

omit echo in
/-- No wave is left: the answers are returned. -/
theorem Progress.finishes (progress : Progress subtasks parent executor rounds answers completed)
    (hwaves : rounds.map (·.map (·.1)) = waves) :
    FollowsWaves subtasks parent executor waves rounds
      ⟨rounds.flatten, .ok (completed.entries.map (·.2))⟩ := by
  refine ⟨rfl, by simp [hwaves], progress.prepared, ?_, ?_⟩
  · intro k round hround call hcall e he
    obtain ⟨r, -, hr⟩ := progress.answered_call
      (List.mem_flatten.mpr ⟨round, List.mem_of_getElem? hround, hcall⟩)
    rw [hr] at he
    cases he
  · intro _
    refine ⟨hwaves, _, rfl, ?_⟩
    rw [progress.answered]
    refine List.Perm.map Except.ok ?_
    have hvalues := progress.entries.map Sigma.snd
    rw [List.map_map, show Sigma.snd ∘ (fun r : SubtaskResult =>
      (⟨r.subtaskId, r⟩ : Sigma fun _ : SubtaskId => SubtaskResult)) = id from rfl,
      List.map_id] at hvalues
    exact hvalues

/-- A call of the next wave fails: it is the last wave, and its first error is returned. -/
theorem Progress.stops (progress : Progress subtasks parent executor rounds answers completed)
    (plan : WavesOf subtasks waves) {wave : List SubtaskId} {rest : List (List SubtaskId)}
    (hwaves : waves = rounds.map (·.map (·.1)) ++ wave :: rest) {batch : List Call}
    (hbatch : List.Forall₂ (CallOf subtasks parent completed) wave batch)
    {e : SchedulerError} (hanswered : Answered executor batch (.error e)) :
    FollowsWaves subtasks parent executor waves (rounds ++ [batch])
      ⟨rounds.flatten ++ batch, .error e⟩ := by
  refine ⟨by simp, ?_, prepared_concat progress.prepared
    (progress.next_prepared echo plan hwaves hbatch), ?_, ?_⟩
  · rw [hwaves]
    exact ⟨rest, by simp [CallOf.ids hbatch]⟩
  · intro k round hround call hcall e' he'
    rcases getElem?_concat_cases hround with hold | ⟨rfl, rfl⟩
    · -- the rounds before this one were all answered
      obtain ⟨r, -, hr⟩ := progress.answered_call
        (List.mem_flatten.mpr ⟨round, List.mem_of_getElem? hold, hcall⟩)
      rw [hr] at he'
      cases he'
    · exact ⟨by simp, e, hanswered, rfl⟩
  · intro hall
    cases hanswered with
    | failed before failing after _ split earlier hfailing =>
        obtain ⟨r, hr⟩ := hall failing (by simp [split])
        rw [hr] at hfailing
        cases hfailing

/-- From any wave on, the loop follows the waves. -/
theorem Progress.run (progress : Progress subtasks parent executor rounds answers completed)
    (plan : WavesOf subtasks waves) (rest : List (List SubtaskId))
    (hwaves : waves = rounds.map (·.map (·.1)) ++ rest) :
    ∃ rounds' execution,
      executeWaves subtasks parent executor rest completed rounds.flatten = some execution ∧
      FollowsWaves subtasks parent executor waves rounds' execution := by
  induction rest generalizing rounds answers completed with
  | nil =>
      rw [List.append_nil] at hwaves
      exact ⟨rounds, _, rfl, progress.finishes hwaves.symm⟩
  | cons wave rest ih =>
      obtain ⟨batch, hcalls, hbatch⟩ := waveCalls_spec parent completed
        wave (plan.known wave (by simp [hwaves]))
      obtain ⟨outcome, houtcome⟩ := answered_exists executor batch
      have hcollect := collectResults_spec completed houtcome
      cases outcome with
      | ok results =>
          cases houtcome with
          | all _ hresults =>
              have hnext := progress.step echo plan hwaves hbatch hresults
              obtain ⟨rounds', execution, hrun, hfollows⟩ :=
                ih hnext (by simp [hwaves, CallOf.ids hbatch])
              refine ⟨rounds', execution, ?_, hfollows⟩
              rw [List.flatten_append, List.flatten_singleton] at hrun
              simp only [executeWaves, hcalls, Option.bind_some, hcollect, Except.map]
              exact hrun
      | error e =>
          refine ⟨rounds ++ [batch], ⟨rounds.flatten ++ batch, .error e⟩, ?_,
            progress.stops echo plan hwaves hbatch houtcome⟩
          simp only [executeWaves, hcalls, Option.bind_some, hcollect, Except.map]

omit echo in
/-- An execution that returns results had no failed call. -/
theorem FollowsWaves.all_answered {execution : Execution} {results : List SubtaskResult}
    (follows : FollowsWaves subtasks parent executor waves rounds execution)
    (hok : execution.result = .ok results) :
    ∀ call ∈ execution.calls, ∃ r, executor call.1 call.2 = .ok r := by
  intro call hcall
  rw [follows.calls] at hcall
  obtain ⟨round, hround, hin⟩ := List.mem_flatten.mp hcall
  obtain ⟨k, hk⟩ := List.mem_iff_getElem?.mp hround
  cases hanswer : executor call.1 call.2 with
  | ok r => exact ⟨r, rfl⟩
  | error e =>
      obtain ⟨-, first, -, herror⟩ := follows.stopped k round hk call hin e hanswer
      rw [hok] at herror
      cases herror

end Run

/-! ## Whole plans -/

/-- The waves of a plan that can be scheduled. -/
theorem scheduled_waves {subtasks : List Subtask} (distinct : (subtasks.map (·.id)).Nodup)
    (named : AllNamed subtasks) (acyclic : Acyclic (DependsOn subtasks)) :
    ∃ waves, (∀ fuel, subtasks.length < fuel → topoWaves fuel subtasks = some (.ok waves)) ∧
      waves.flatten.Perm (subtasks.map (·.id)) ∧ WavesOf subtasks waves := by
  obtain ⟨last, levels, final, inv, hready, hresult⟩ := topoWaves_result subtasks
  have hall := (inv.complete_iff hready distinct).mpr ⟨named, acyclic⟩
  have hperm := inv.flatten_perm (inv.visited_eq_iff.mp hall)
  refine ⟨levels.map (idsOf subtasks), ?_, hperm, hperm.nodup_iff.mpr distinct, ?_, ?_⟩
  · intro fuel hfuel
    rw [hresult fuel hfuel]
    simp [hall]
  · intro wave hwave id hid
    have hmem := hperm.mem_iff.mp (List.mem_flatten.mpr ⟨wave, hwave, hid⟩)
    simpa using hmem
  · intro w wave hwave s hs hid d hd
    obtain ⟨i, rfl⟩ := List.mem_iff_get.mp hs
    rw [List.getElem?_map, Option.map_eq_some_iff] at hwave
    obtain ⟨level, hlevel, rfl⟩ := hwave
    obtain ⟨j, hj, hsame⟩ := List.mem_map.mp hid
    have hij := id_injective distinct hsame
    subst hij
    obtain ⟨v, hv, earlier, hearlier, hmem⟩ := (inv.wave_spec distinct named hlevel hj).1 d hd
    refine List.mem_flatten.mpr ⟨earlier, List.mem_iff_getElem?.mpr ⟨v, ?_⟩, hmem⟩
    rw [List.getElem?_take_of_lt hv]
    exact hearlier

/-- A plan with a dependency that names no subtask is refused before any call. -/
theorem execute_unnamed {subtasks : List Subtask} (distinct : (subtasks.map (·.id)).Nodup)
    (unnamed : ¬ AllNamed subtasks) (parent : TaskManifest) (executor : SubtaskExecutor)
    {fuel : Nat} (hfuel : subtasks.length < fuel) :
    execute fuel subtasks parent executor = some ⟨[], .error .cyclicDependency⟩ := by
  obtain ⟨last, levels, final, inv, hready, hresult⟩ := topoWaves_result subtasks
  have hopen : levels.flatten.length ≠ subtasks.length := by
    intro hall
    exact unnamed ((inv.complete_iff hready distinct).mp hall).1
  unfold execute
  rw [hresult fuel hfuel, if_pos hopen]

/-- For every acyclic plan with distinct ids and every executor that answers with the id
it was given: where some dependency names no subtask of the plan, nothing is called and
the result is a cyclic dependency. Otherwise `execute` returns; its calls form rounds
along the waves of the plan, no subtask is called twice, every call is made after all
dependencies of its subtask were answered with results in earlier rounds and carries the
parent's context followed by the outputs of its dependencies in order. A round with a
failed call is the last one and its first error is returned. Otherwise every subtask is
called once and the result holds exactly one result for each subtask. -/
theorem execute_follows_plan (subtasks : List Subtask) (parent : TaskManifest)
    (executor : SubtaskExecutor) (distinct : (subtasks.map (·.id)).Nodup)
    (acyclic : Acyclic (DependsOn subtasks))
    (echo : ∀ id m r, executor id m = .ok r → r.subtaskId = id) :
    (¬ AllNamed subtasks → ∀ fuel, subtasks.length < fuel →
      execute fuel subtasks parent executor = some ⟨[], .error .cyclicDependency⟩) ∧
    (AllNamed subtasks → ∃ waves rounds execution,
      (∀ fuel, subtasks.length < fuel → topoWaves fuel subtasks = some (.ok waves) ∧
        execute fuel subtasks parent executor = some execution) ∧
      FollowsWaves subtasks parent executor waves rounds execution ∧
      (execution.calls.map (·.1)).Nodup ∧
      ((∀ call ∈ execution.calls, ∃ r, executor call.1 call.2 = .ok r) →
        (execution.calls.map (·.1)).Perm (subtasks.map (·.id))) ∧
      ∀ results, execution.result = .ok results →
        (results.map (·.subtaskId)).Perm (subtasks.map (·.id)) ∧
        ∀ r ∈ results, ∃ m, (r.subtaskId, m) ∈ execution.calls ∧
          executor r.subtaskId m = .ok r) := by
  refine ⟨fun unnamed fuel hfuel => execute_unnamed distinct unnamed parent executor hfuel, ?_⟩
  intro named
  obtain ⟨waves, hwaves, hperm, plan⟩ := scheduled_waves distinct named acyclic
  have start : Progress subtasks parent executor [] [] ∅ :=
    ⟨by simp, rfl, .refl _⟩
  obtain ⟨rounds, execution, hrun, hfollows⟩ := start.run echo plan waves rfl
  have hcalled : execution.calls.map (·.1) = (rounds.map (·.map (·.1))).flatten := by
    rw [hfollows.calls, List.map_flatten]
  have hcomplete : (∀ call ∈ execution.calls, ∃ r, executor call.1 call.2 = .ok r) →
      (execution.calls.map (·.1)).Perm (subtasks.map (·.id)) := by
    intro hall
    rw [hcalled, (hfollows.finished hall).1]
    exact hperm
  refine ⟨waves, rounds, execution, ?_, hfollows, ?_, hcomplete, ?_⟩
  · intro fuel hfuel
    refine ⟨hwaves fuel hfuel, ?_⟩
    simp only [execute, hwaves fuel hfuel]
    exact hrun
  · rw [hcalled]
    obtain ⟨later, hlater⟩ := hfollows.scheduled
    have hnodup := plan.nodup
    rw [← hlater, List.flatten_append] at hnodup
    exact (List.nodup_append.mp hnodup).1
  · intro results hok
    have hall := hfollows.all_answered hok
    obtain ⟨-, results', hok', hanswers⟩ := hfollows.finished hall
    rw [hok, Except.ok.injEq] at hok'
    subst hok'
    obtain ⟨answers, hanswered⟩ := exists_results hall
    rw [hanswered] at hanswers
    have hsame : results.Perm answers := by
      simpa [Function.comp_def, Except.toOption] using hanswers.filterMap Except.toOption
    rw [← hanswered] at hanswers
    refine ⟨?_, ?_⟩
    · rw [← answer_ids echo hanswered] at hcomplete
      exact (hsame.map _).trans (hcomplete hall)
    · intro r hr
      have hmem := hanswers.mem_iff.mp (List.mem_map_of_mem hr)
      obtain ⟨⟨id, m⟩, hcall, hanswer⟩ := List.mem_map.mp hmem
      have hid := echo id m r hanswer
      subst hid
      exact ⟨m, hcall, hanswer⟩

section Example

/-- The report names its figures before its outline. -/
def reportPlan : List Subtask :=
  [⟨⟨2⟩, "report", [⟨1⟩, ⟨0⟩], none⟩, ⟨⟨0⟩, "outline", [], none⟩, ⟨⟨1⟩, "figures", [⟨0⟩], none⟩]

def reportManifest : TaskManifest :=
  ⟨"write the report", [], some "house style", false, true, [], false, "acme"⟩

/-- Answers every call with the subtask's description. -/
def echoExecutor : SubtaskExecutor := fun id m => .ok ⟨id, m.description, 1⟩

theorem reportPlan_acyclic : Acyclic (DependsOn reportPlan) := by
  have named : AllNamed reportPlan := by
    unfold AllNamed
    decide
  have distinct : (reportPlan.map (·.id)).Nodup := by decide
  obtain ⟨schedule, hschedule, hacyclic⟩ := topoWaves_ok_iff_acyclic distinct named
  have hwaves : topoWaves 4 reportPlan = some (.ok [[⟨0⟩], [⟨1⟩], [⟨2⟩]]) := by
    decide +kernel
  rw [hschedule 4 (by decide), Option.some.injEq] at hwaves
  exact (acyclic_edge_iff (by decide)).mp (hacyclic.mp ⟨_, hwaves⟩)

theorem report_runs_in_order :
    ∃ execution, execute 4 reportPlan reportManifest echoExecutor = some execution ∧
      (execution.calls.map (·.1)).Perm [⟨2⟩, ⟨0⟩, ⟨1⟩] ∧
      (execution.calls.map (·.2.context)).getLast? = some (some ("house style" ++
        "\n\n---\n\n## Subtask Result\n\nfigures\n\n---\n\n## Subtask Result\n\noutline")) := by
  obtain ⟨-, hnamed⟩ := execute_follows_plan reportPlan reportManifest echoExecutor (by decide)
    reportPlan_acyclic (by rintro id m r h; cases h; rfl)
  obtain ⟨waves, rounds, execution, hrun, -, -, hcalled, -⟩ := hnamed (by unfold AllNamed; decide)
  have hexecution := (hrun 4 (by decide)).2
  refine ⟨execution, hexecution, hcalled fun call _ => ⟨_, rfl⟩, ?_⟩
  have hcontext : (execute 4 reportPlan reportManifest echoExecutor).map
      (fun run => (run.calls.map (·.2.context)).getLast?) = some (some (some ("house style" ++
        "\n\n---\n\n## Subtask Result\n\nfigures\n\n---\n\n## Subtask Result\n\noutline"))) := by
    decide +kernel
  rw [hexecution] at hcontext
  exact Option.some.inj hcontext

/-- A plan without a cycle whose only dependency names nothing is not run at all. -/
theorem unnamed_dependency_is_not_run :
    (([⟨⟨0⟩, "draft", [⟨7⟩], none⟩] : List Subtask).map (·.id)).Nodup ∧
      Acyclic (DependsOn [⟨⟨0⟩, "draft", [⟨7⟩], none⟩]) ∧
      (∀ id m r, echoExecutor id m = .ok r → r.subtaskId = id) ∧
      execute 2 [⟨⟨0⟩, "draft", [⟨7⟩], none⟩] reportManifest echoExecutor =
        some ⟨[], .error .cyclicDependency⟩ := by
  refine ⟨by decide, ?_, by rintro id m r h; cases h; rfl, ?_⟩
  · -- whatever depends on something is the draft, and nothing depends on the draft
    intro a hcycle
    obtain ⟨b, hb, -⟩ := Relation.TransGen.head'_iff.mp hcycle
    obtain ⟨c, -, hc⟩ := Relation.TransGen.tail'_iff.mp hcycle
    obtain ⟨s, hs, rfl, -⟩ := hb
    obtain ⟨t, ht, -, hdep⟩ := hc
    simp only [List.mem_singleton] at hs ht
    subst hs ht
    simp at hdep
  · exact execute_unnamed (by decide) (by unfold AllNamed; decide) _ _ (by decide)

end Example

end ControlPlane.Guarantees.CompoundExecution
