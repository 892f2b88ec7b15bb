import ControlPlane.Source.Tasks.TaskStore

/-!
# The journal of a finished run

Embeds `EventCounter` and `SessionJournal::note_event` of
`crates/h2ai-orchestrator/src/session_journal.rs` and the events that `post_run` of
`crates/h2ai-api/src/task_pipeline.rs` publishes for a task, in its order. The first
ones are noted with the task's current entry, the later ones are not. A publish may
fail before the event is stored or lose its acknowledgement; the snapshots are written
in the background, so the bucket holds any one of those that were taken, or none.
-/
namespace ControlPlane.Source.Tasks

/-! ## Snapshots -/

structure EventCounter where
  interval : Nat
  count : Nat
  deriving DecidableEq

/-- `tick`: the counter afterwards, and whether a snapshot is due. -/
def EventCounter.tick (c : EventCounter) : EventCounter × Bool :=
  ({ c with count := c.count + 1 }, decide (0 < c.interval) && (c.count + 1) % c.interval == 0)

/-- The stream and the journal while a task's events are published. -/
structure JournalRun where
  lastSequence : Nat
  log : List (Nat × H2AIEvent)
  counter : Option EventCounter
  /-- The snapshots whose write has been started. -/
  snapshots : List TaskSnapshot

/-- `note_event`. -/
def noteEvent (interval : Nat) (s : JournalRun) (seq : Nat) (state : TaskState) : JournalRun :=
  if interval = 0 then s
  else
    let ticked := (s.counter.getD ⟨interval, 0⟩).tick
    { s with
      counter := some ticked.1
      snapshots := if ticked.2 then s.snapshots ++ [⟨seq, some state⟩] else s.snapshots }

/-! ## Publishing -/

/-- What a publish comes to: an error before the event is stored, or a place in the
stream some way behind the last one, acknowledged or not. -/
inductive Publish where
  | failed
  | stored (gap : Nat) (acknowledged : Bool)
  deriving DecidableEq

/-- An event of `post_run`, and whether it is noted. -/
structure Publication where
  event : H2AIEvent
  noted : Bool
  deriving DecidableEq

/-- `live` is the task's entry at that moment, if it has one. -/
def publish (interval : Nat) (s : JournalRun) (p : Publication) (live : Option TaskState) :
    Publish → JournalRun
  | .failed => s
  | .stored gap acknowledged =>
      let seq := s.lastSequence + gap + 1
      let stored := { s with lastSequence := seq, log := s.log ++ [(seq, p.event)] }
      match live with
      | some state =>
          if p.noted && acknowledged then noteEvent interval stored seq state else stored
      | none => stored

def publishAll (interval : Nat) (attempt : Nat → Publish) (live : Nat → Option TaskState) :
    Nat → JournalRun → List Publication → JournalRun
  | _, s, [] => s
  | i, s, p :: rest =>
      publishAll interval attempt live (i + 1) (publish interval s p (live i) (attempt i)) rest

/-- What `post_run` publishes of the engine's output. -/
structure PublishedOutput where
  frontierEvent : Bool
  /-- `passed` of every scored proposal. -/
  verificationEvents : List Bool
  failedProposals : Nat
  prunedEvents : Nat
  comparisonEvents : Nat
  shadowAuditEvents : Nat
  correlatedWarnings : Nat
  researcherGroundingEvents : Nat
  diversityDegraded : Bool
  coherenceClosed : Bool
  leaderElectedEvents : Nat
  socraticDiagnosisEvents : Nat
  provenanceMap : Bool
  deriving DecidableEq

namespace PublishedOutput

def noted (o : PublishedOutput) : List H2AIEvent :=
  [H2AIEvent.taskComplexityAssessed] ++ (if o.frontierEvent then [H2AIEvent.other] else []) ++
    o.verificationEvents.map H2AIEvent.verificationScored ++
    List.replicate o.failedProposals H2AIEvent.proposalFailed ++
    List.replicate o.prunedEvents H2AIEvent.branchPruned ++
    [H2AIEvent.selectionResolved, H2AIEvent.other]

/-- From `GenerationKnowledge` to `ProvenanceRecorded`. -/
def unnoted (o : PublishedOutput) : List H2AIEvent :=
  [H2AIEvent.other] ++ List.replicate o.comparisonEvents H2AIEvent.other ++
    List.replicate o.shadowAuditEvents H2AIEvent.other ++ List.replicate o.correlatedWarnings H2AIEvent.other ++
    List.replicate o.researcherGroundingEvents H2AIEvent.other ++
    (if o.diversityDegraded then [H2AIEvent.other] else []) ++
    (if o.coherenceClosed then [] else [H2AIEvent.other]) ++
    List.replicate o.leaderElectedEvents H2AIEvent.other ++
    List.replicate o.socraticDiagnosisEvents H2AIEvent.other ++
    (if o.provenanceMap then [H2AIEvent.other] else [])

def publications (o : PublishedOutput) : List Publication :=
  o.noted.map (⟨·, true⟩) ++ (o.unnoted ++ [H2AIEvent.mergeResolved]).map (⟨·, false⟩)

end PublishedOutput

/-- A task that has merged, with what happens around its publishing. -/
structure PostRun where
  taskId : TaskId
  interval : Nat
  /-- The publishes of the pipeline and the engine in front of `post_run`; none of
  their events changes the task state. -/
  earlier : List Publish
  output : PublishedOutput
  attempt : Nat → Publish
  live : Nat → Option TaskState
  /-- The task's entry when all is published. -/
  entry : TaskState

namespace PostRun

/-- The stream and the journal in front of `post_run`. -/
def started (r : PostRun) : JournalRun :=
  r.earlier.foldl (fun s p => publish r.interval s ⟨.other, false⟩ none p) ⟨0, [], none, []⟩

def journal (r : PostRun) : JournalRun :=
  publishAll r.interval r.attempt r.live 0 r.started r.output.publications

def events (r : PostRun) : List H2AIEvent := r.journal.log.map Prod.snd

/-- The stored events up to a sequence number. -/
def eventsUpTo (r : PostRun) (seq : Nat) : List H2AIEvent :=
  (r.journal.log.filter fun e => decide (e.1 ≤ seq)).map Prod.snd

def eventsBehind (r : PostRun) (seq : Nat) : List H2AIEvent :=
  (r.journal.log.filter fun e => decide (seq < e.1)).map Prod.snd

/-- The backend once everything is published, with what the snapshot bucket holds. -/
def backend (r : PostRun) (snapshot : Option TaskSnapshot) : JournalBackend :=
  { getSnapshot := fun _ => .ok snapshot
    tailTaskEvents := fun _ fromSeq => .ok ((r.eventsBehind fromSeq).map .ok) }

end PostRun

/-! ## What a list of events does to a task state -/

/-- Events that `post_run` publishes: none of them overwrites a counter. -/
def H2AIEvent.quiet : H2AIEvent → Bool
  | topologyProvisioned _ _ => false
  | zeroSurvival => false
  | taskFailed _ => false
  | _ => true

def H2AIEvent.phase? : H2AIEvent → Option TaskPhase
  | taskBootstrapped => some .bootstrap
  | taskComplexityAssessed => some .complexityAssessed
  | topologyProvisioned _ _ => some .provisioning
  | multiplicationConditionFailed => some .multiplicationCheck
  | proposal | proposalFailed => some .parallelGeneration
  | verificationScored _ => some .auditorGate
  | selectionResolved => some .merging
  | mergeResolved => some .resolved
  | taskFailed _ => some .failed
  | branchPruned | zeroSurvival | other => none

/-- The phase behind a list of events, if one of them writes it. -/
def lastPhase : List H2AIEvent → Option TaskPhase
  | [] => none
  | event :: rest => (lastPhase rest).or event.phase?

def completedIn (events : List H2AIEvent) : Nat :=
  events.countP fun e => e == .proposal || e == .proposalFailed

def validIn (events : List H2AIEvent) : Nat := events.countP (· == .verificationScored true)

def prunedIn (events : List H2AIEvent) : Nat :=
  events.countP fun e => e == .verificationScored false || e == .branchPruned

def TaskState.withLastPhase (state : TaskState) (events : List H2AIEvent) : TaskState :=
  match lastPhase events with
  | some phase => state.withPhase phase
  | none => state

/-- The state behind quiet events: counts are added, the last phase is written. -/
def TaskState.advanced (state : TaskState) (events : List H2AIEvent) : TaskState :=
  { state.withLastPhase events with
    explorersCompleted := state.explorersCompleted + completedIn events
    proposalsValid := state.proposalsValid + validIn events
    proposalsPruned := state.proposalsPruned + prunedIn events }

theorem applyEvent_advanced (state : TaskState) {event : H2AIEvent} (hquiet : event.quiet = true)
    (rest : List H2AIEvent) :
    (applyEvent state event).advanced rest = state.advanced (event :: rest) := by
  have hlast : lastPhase (event :: rest) = (lastPhase rest).or event.phase? := rfl
  unfold TaskState.advanced TaskState.withLastPhase completedIn validIn prunedIn
  rw [hlast]
  simp only [List.countP_cons]
  generalize lastPhase rest = later
  cases event with
  | verificationScored passed =>
      cases later <;> cases passed <;>
        simp [applyEvent, H2AIEvent.phase?, TaskState.withPhase, Nat.add_assoc, Nat.add_comm 1]
  | topologyProvisioned explorerConfigs retryCount => cases hquiet
  | zeroSurvival => cases hquiet
  | taskFailed topologiesTried => cases hquiet
  | _ =>
      cases later <;>
        simp [applyEvent, H2AIEvent.phase?, TaskState.withPhase, Nat.add_assoc, Nat.add_comm 1]

theorem foldl_applyEvent (state : TaskState) {events : List H2AIEvent}
    (hquiet : ∀ e ∈ events, e.quiet = true) :
    events.foldl applyEvent state = state.advanced events := by
  induction events generalizing state with
  | nil => rfl
  | cons event rest ih =>
      rw [List.foldl_cons, ih _ fun e he => hquiet e (List.mem_cons_of_mem _ he),
        applyEvent_advanced state (hquiet event List.mem_cons_self)]

/-- The loop reads a stream to its end when only its last event can be terminal. -/
theorem replayItems_eq_foldl {events : List H2AIEvent}
    (hterminal : events.Pairwise fun event _ => event.terminal = false)
    (state : TaskState) (seen : Nat) :
    replayItems state seen (events.map .ok) =
      .ok (events.foldl applyEvent state, seen + events.length) := by
  induction events generalizing state seen with
  | nil => rfl
  | cons event rest ih =>
      obtain ⟨hfirst, hrest⟩ := List.pairwise_cons.mp hterminal
      simp only [List.map_cons, replayItems]
      split
      · rename_i hend
        cases rest with
        | nil => rfl
        | cons next later =>
            rw [hfirst next List.mem_cons_self] at hend
            cases hend
      · rw [ih hrest, List.foldl_cons, List.length_cons]
        congr 2
        omega

/-! ## The log of a run -/

/-- The log is a part of what is published, numbered upwards from 1. -/
structure LogInv (s : JournalRun) (published : List H2AIEvent) : Prop where
  sublist : (s.log.map Prod.snd).Sublist published
  sorted : s.log.Pairwise fun a b => a.1 < b.1
  numbered : ∀ e ∈ s.log, 0 < e.1 ∧ e.1 ≤ s.lastSequence
  snapshots : ∀ snapshot ∈ s.snapshots, 0 < snapshot.lastSequence ∧
    snapshot.taskState.isSome

theorem noteEvent_inv {interval seq : Nat} {s : JournalRun} {published : List H2AIEvent}
    (inv : LogInv s published) (hseq : 0 < seq) (state : TaskState) :
    LogInv (noteEvent interval s seq state) published := by
  unfold noteEvent
  split
  · exact inv
  · refine ⟨inv.sublist, inv.sorted, inv.numbered, ?_⟩
    intro snapshot hmem
    dsimp only at hmem
    split at hmem
    · rcases List.mem_append.mp hmem with hold | hnew
      · exact inv.snapshots snapshot hold
      · rw [List.mem_singleton.mp hnew]
        exact ⟨hseq, rfl⟩
    · exact inv.snapshots snapshot hmem

theorem publish_inv {interval : Nat} {s : JournalRun} {published : List H2AIEvent}
    (inv : LogInv s published) (p : Publication) (live : Option TaskState) (attempt : Publish) :
    LogInv (publish interval s p live attempt) (published ++ [p.event]) := by
  cases attempt with
  | failed =>
      exact ⟨inv.sublist.trans (List.sublist_append_left _ _), inv.sorted, inv.numbered,
        inv.snapshots⟩
  | stored gap acknowledged =>
      have hstored : LogInv { s with
          lastSequence := s.lastSequence + gap + 1
          log := s.log ++ [(s.lastSequence + gap + 1, p.event)] } (published ++ [p.event]) := by
        refine ⟨?_, ?_, ?_, inv.snapshots⟩
        · rw [List.map_append]
          exact inv.sublist.append (List.Sublist.refl _)
        · refine List.pairwise_append.mpr ⟨inv.sorted, List.pairwise_singleton _ _, ?_⟩
          intro a ha b hb
          have hbound := (inv.numbered a ha).2
          rw [List.mem_singleton.mp hb]
          dsimp only
          omega
        · intro e he
          rcases List.mem_append.mp he with hold | hnew
          · have hbound := inv.numbered e hold
            dsimp only
            omega
          · rw [List.mem_singleton.mp hnew]
            dsimp only
            omega
      unfold publish
      dsimp only
      split
      · split
        · exact noteEvent_inv hstored (Nat.succ_pos _) _
        · exact hstored
      · exact hstored

theorem publishAll_inv {interval : Nat} {attempt : Nat → Publish}
    {live : Nat → Option TaskState} {publications : List Publication} {i : Nat}
    {s : JournalRun} {published : List H2AIEvent} (inv : LogInv s published) :
    LogInv (publishAll interval attempt live i s publications)
      (published ++ publications.map (·.event)) := by
  induction publications generalizing i s published with
  | nil => simpa [publishAll] using inv
  | cons p rest ih =>
      have hstep : LogInv (publish interval s p (live i) (attempt i)) (published ++ [p.event]) :=
        publish_inv inv p (live i) (attempt i)
      have hrest := ih (i := i + 1) hstep
      rw [List.append_assoc] at hrest
      exact hrest

theorem earlier_inv {interval : Nat} (earlier : List Publish) {s : JournalRun}
    {published : List H2AIEvent} (inv : LogInv s published) :
    LogInv (earlier.foldl (fun s p => publish interval s ⟨.other, false⟩ none p) s)
      (published ++ List.replicate earlier.length .other) := by
  induction earlier generalizing s published with
  | nil => simpa using inv
  | cons attempt rest ih =>
      have hstep : LogInv (publish interval s ⟨.other, false⟩ none attempt)
          (published ++ [.other]) := publish_inv inv _ none attempt
      have hrest := ih hstep
      rw [List.append_assoc] at hrest
      exact hrest

/-- A log that is numbered upwards splits at every number. -/
theorem filter_le_append_filter_lt {log : List (Nat × H2AIEvent)}
    (sorted : log.Pairwise fun a b => a.1 < b.1) (seq : Nat) :
    (log.filter fun e => decide (e.1 ≤ seq)) ++ (log.filter fun e => decide (seq < e.1)) = log := by
  induction log with
  | nil => rfl
  | cons e rest ih =>
      obtain ⟨hfirst, hrest⟩ := List.pairwise_cons.mp sorted
      by_cases hle : e.1 ≤ seq
      · rw [List.filter_cons_of_pos (by simpa using hle),
          List.filter_cons_of_neg (by simpa using hle), List.cons_append, ih hrest]
      · -- the first event is behind `seq`, and so is every later one
        have hbehind : ∀ e' ∈ e :: rest, seq < e'.1 := by
          intro e' hmem
          rcases List.mem_cons.mp hmem with rfl | hlater
          · omega
          · have hlt := hfirst e' hlater
            omega
        rw [List.filter_eq_nil_iff.mpr (by
            intro e' hmem
            have hlt := hbehind e' hmem
            simp only [decide_eq_true_eq]
            omega),
          List.filter_eq_self.mpr (by
            intro e' hmem
            simpa using hbehind e' hmem), List.nil_append]

namespace PostRun

/-- All events in front of the terminal one. -/
def body (r : PostRun) : List H2AIEvent :=
  List.replicate r.earlier.length .other ++ (r.output.noted ++ r.output.unnoted)

theorem journal_inv (r : PostRun) : LogInv r.journal (r.body ++ [.mergeResolved]) := by
  have hstart : LogInv ⟨0, [], none, []⟩ [] :=
    ⟨List.Sublist.refl _, List.Pairwise.nil, by simp, by simp⟩
  have hstarted : LogInv r.started ([] ++ List.replicate r.earlier.length .other) :=
    earlier_inv r.earlier hstart
  rw [List.nil_append] at hstarted
  have hall : LogInv r.journal (List.replicate r.earlier.length .other ++
      r.output.publications.map (·.event)) := publishAll_inv hstarted
  have hevents : r.output.publications.map (·.event) =
      r.output.noted ++ r.output.unnoted ++ [.mergeResolved] := by
    simp [PublishedOutput.publications, Function.comp_def]
  rw [hevents] at hall
  simpa [body] using hall

theorem noted_plain (o : PublishedOutput) {e : H2AIEvent} (h : e ∈ o.noted) :
    e.quiet = true ∧ e.terminal = false := by
  simp only [PublishedOutput.noted, List.mem_append, List.mem_cons, List.not_mem_nil, or_false,
    List.mem_map, List.mem_replicate] at h
  rcases h with ((((rfl | h) | ⟨passed, -, rfl⟩) | ⟨-, rfl⟩) | ⟨-, rfl⟩) | rfl | rfl
  · exact ⟨rfl, rfl⟩
  · split at h
    · rw [List.mem_singleton.mp h]
      exact ⟨rfl, rfl⟩
    · cases h
  all_goals exact ⟨rfl, rfl⟩

theorem unnoted_other (o : PublishedOutput) {e : H2AIEvent} (h : e ∈ o.unnoted) :
    e = .other := by
  have hoptional : ∀ {condition : Bool}, e ∈ (if condition then [.other] else []) → e = .other := by
    intro condition hmem
    cases condition with
    | true => exact List.mem_singleton.mp hmem
    | false => cases hmem
  have hclosed : e ∈ (if o.coherenceClosed then [] else [.other]) → e = .other := by
    intro hmem
    cases hc : o.coherenceClosed with
    | true =>
        rw [hc] at hmem
        cases hmem
    | false =>
        rw [hc] at hmem
        exact List.mem_singleton.mp hmem
  simp only [PublishedOutput.unnoted, List.mem_append, List.mem_singleton,
    List.mem_replicate] at h
  rcases h with (((((((((h | h) | h) | h) | h) | h) | h) | h) | h) | h)
  · exact h
  · exact h.2
  · exact h.2
  · exact h.2
  · exact h.2
  · exact hoptional h
  · exact hclosed h
  · exact h.2
  · exact h.2
  · exact hoptional h

theorem body_plain (r : PostRun) {e : H2AIEvent} (h : e ∈ r.body) :
    e.quiet = true ∧ e.terminal = false := by
  rcases List.mem_append.mp h with hearlier | hrest
  · rw [(List.mem_replicate.mp hearlier).2]
    exact ⟨rfl, rfl⟩
  · rcases List.mem_append.mp hrest with hnoted | hunnoted
    · exact noted_plain r.output hnoted
    · rw [unnoted_other r.output hunnoted]
      exact ⟨rfl, rfl⟩

/-- A part of the log is quiet, and only its last event can be terminal. -/
theorem part_plain (r : PostRun) {events : List H2AIEvent} (h : events.Sublist r.events) :
    (∀ e ∈ events, e.quiet = true) ∧
      events.Pairwise fun event _ => event.terminal = false := by
  have hsub := h.trans r.journal_inv.sublist
  constructor
  · intro e he
    rcases List.mem_append.mp (hsub.subset he) with hbody | hlast
    · exact (r.body_plain hbody).1
    · rw [List.mem_singleton.mp hlast]
      rfl
  · refine List.Pairwise.sublist hsub (List.pairwise_append.mpr ⟨?_, List.pairwise_singleton _ _, ?_⟩)
    · exact List.pairwise_of_forall_mem_list fun a ha _ _ => (r.body_plain ha).2
    · intro a ha _ _
      exact (r.body_plain ha).2

theorem eventsUpTo_append (r : PostRun) (seq : Nat) :
    r.eventsUpTo seq ++ r.eventsBehind seq = r.events := by
  unfold eventsUpTo eventsBehind events
  rw [← List.map_append, filter_le_append_filter_lt r.journal_inv.sorted seq]

theorem eventsBehind_zero (r : PostRun) : r.eventsBehind 0 = r.events := by
  unfold eventsBehind events
  rw [List.filter_eq_self.mpr]
  intro e he
  simpa using (r.journal_inv.numbered e he).1

end PostRun

/-! ## Replays of a run -/

/-- What the replay makes of the events behind its start. -/
def recovered (state : TaskState) (fromSeq : Nat) (events : List H2AIEvent) : Option TaskState :=
  if events.isEmpty && fromSeq == 0 then none else some (state.advanced events)

theorem replay_backend (r : PostRun) (snapshot : Option TaskSnapshot) :
    replay (some (r.backend snapshot)) r.taskId =
      .ok (recovered (replayStart r.taskId (.ok snapshot)).1
        (replayStart r.taskId (.ok snapshot)).2
        (r.eventsBehind (replayStart r.taskId (.ok snapshot)).2)) := by
  have hstart : (r.backend snapshot).getSnapshot r.taskId = .ok snapshot := rfl
  unfold replay
  dsimp only
  rw [hstart]
  generalize replayStart r.taskId (.ok snapshot) = start
  have hpart : (r.eventsBehind start.2).Sublist r.events := by
    rw [← r.eventsUpTo_append start.2]
    exact List.sublist_append_right _ _
  obtain ⟨hquiet, hterminal⟩ := r.part_plain hpart
  have htail : (r.backend snapshot).tailTaskEvents r.taskId start.2 =
      .ok ((r.eventsBehind start.2).map .ok) := rfl
  rw [htail]
  dsimp only
  rw [replayItems_eq_foldl hterminal, foldl_applyEvent _ hquiet]
  unfold recovered
  cases r.eventsBehind start.2 <;> simp [Except.map]

/-- Without a snapshot the task is rebuilt for the default tenant. -/
theorem replay_full (r : PostRun) :
    replay (some (r.backend none)) r.taskId =
      .ok (recovered (TaskState.new r.taskId TenantId.defaultTenant) 0 r.events) := by
  rw [replay_backend]
  dsimp only [replayStart]
  rw [r.eventsBehind_zero]

theorem replay_snapshot (r : PostRun) {snapshot : TaskSnapshot} {state : TaskState}
    (taken : snapshot ∈ r.journal.snapshots) (hstate : snapshot.taskState = some state) :
    replay (some (r.backend (some snapshot))) r.taskId =
      .ok (some (state.advanced (r.eventsBehind snapshot.lastSequence))) := by
  have hpos := (r.journal_inv.snapshots snapshot taken).1
  obtain ⟨seq, stored⟩ := snapshot
  subst hstate
  rw [replay_backend]
  have hne : (seq == 0) = false := beq_eq_false_iff_ne.mpr (Nat.ne_of_gt hpos)
  simp [replayStart, recovered, hne]

end ControlPlane.Source.Tasks
