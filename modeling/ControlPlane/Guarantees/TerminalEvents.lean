import ControlPlane.Source.Tasks.Outcome

/-!
# One terminal event, and when there are two

No publisher reads the stream at the moment it publishes. A terminal event stays the only
one as long as every publisher is let through while no other one has still to publish
and no terminal event is stored: this is the invariant of the runs, and a step that breaks
it can be continued until two terminal events are stored.
-/
namespace ControlPlane.Guarantees.TerminalEvents

open Lib Source Source.Tasks

/-! ## Counts -/

def terminals (stream : List H2AIEvent) : Nat := stream.countP H2AIEvent.terminal

/-- The publishers that have still to publish. -/
def owing (s : OutcomeSystem) : Nat := s.publishers.countP Publisher.owes

theorem terminals_append (stream : List H2AIEvent) (event : H2AIEvent) :
    terminals (stream ++ [event]) = terminals stream + event.terminal.toNat := by
  cases h : event.terminal with
  | true => simp [terminals, h]
  | false => simp [terminals, h]

theorem terminals_take_add_drop (stream : List H2AIEvent) (k : Nat) :
    terminals (stream.take k) + terminals (stream.drop k) = terminals stream := by
  rw [terminals, terminals, ← List.countP_append, List.take_append_drop, terminals]

theorem terminals_pos {stream : List H2AIEvent} {k : Nat} {event : H2AIEvent}
    (h : stream[k]? = some event) (hterminal : event.terminal = true) :
    0 < terminals stream :=
  List.countP_pos_iff.mpr ⟨event, List.mem_of_getElem? h, hterminal⟩

theorem owing_append (publishers : List Publisher) (p : Publisher) :
    (publishers ++ [p]).countP Publisher.owes =
      publishers.countP Publisher.owes + p.owes.toNat := by
  cases h : p.owes with
  | true => simp [h]
  | false => simp [h]

/-- One publisher moves on. -/
theorem owing_set {publishers : List Publisher} {i : Nat} {p : Publisher}
    (h : publishers[i]? = some p) (q : Publisher) :
    (publishers.set i q).countP Publisher.owes + p.owes.toNat =
      publishers.countP Publisher.owes + q.owes.toNat := by
  induction publishers generalizing i with
  | nil => cases h
  | cons first rest ih =>
      cases i with
      | zero =>
          rw [List.getElem?_cons_zero, Option.some.injEq] at h
          subst h
          simp only [List.set_cons_zero, List.countP_cons]
          cases first.owes <;> cases q.owes <;> simp
      | succ i =>
          rw [List.getElem?_cons_succ] at h
          have hrest := ih h
          simp only [List.set_cons_succ, List.countP_cons]
          omega

/-! ## What a step does -/

variable {id : TaskId} {s t : OutcomeSystem} {p q : Publisher} {a : PublisherAction}

/-- The moves of a publisher: it works on without a terminal event, it publishes, its guard
reads an item, its guard ends. -/
inductive Moves (s : OutcomeSystem) :
    Publisher → PublisherAction → List H2AIEvent → Publisher → Prop where
  | works {p q : Publisher} {a : PublisherAction} {events : List H2AIEvent}
      (quiet : ∀ event ∈ events, event.terminal = false) (owes : q.owes = true → p.owes = true)
      (unguarded : ∀ node k, q ≠ .guarding node k) : Moves s p a events q
  | publishes {p q : Publisher} {a : PublisherAction} {event : H2AIEvent}
      (terminal : event.terminal = true) (owed : p.owes = true) (owes : q.owes = false)
      (unguarded : ∀ node k, q ≠ .guarding node k) : Moves s p a [event] q
  | reads {node : String} {k : Nat} {readable deleted : Bool} {event : H2AIEvent}
      (item : s.stream[k]? = some event) (passed : (readable && event.terminal) = false) :
      Moves s (.guarding node k) (.read readable deleted) [] (.guarding node (k + 1))
  | admits {node : String} {k : Nat} :
      Moves s (.guarding node k) .endOfStream [] (.resumed node)

/-- `publish_event` of a terminal event. -/
theorem moves_append {event : H2AIEvent} (hterminal : event.terminal = true)
    (hp : p.owes = true) (hq : q.owes = false) (hguard : ∀ node k, q ≠ .guarding node k)
    (stored : Bool) :
    ∃ events, (s.append event stored).stream = s.stream ++ events ∧ Moves s p a events q := by
  cases stored with
  | true => exact ⟨[event], rfl, .publishes hterminal hp hq hguard⟩
  | false =>
      refine ⟨[], (List.append_nil _).symm, .works (by simp) ?_ hguard⟩
      intro h
      rw [hq] at h
      cases h

/-- A publisher that publishes nothing and stands behind no new check. -/
theorem moves_quietly (hstream : t.stream = s.stream) (howes : q.owes = true → p.owes = true)
    (hguard : ∀ node k, q ≠ .guarding node k) :
    ∃ events, t.stream = s.stream ++ events ∧ Moves s p a events q :=
  ⟨[], by rw [hstream, List.append_nil], .works (by simp) howes hguard⟩

theorem moves_event {event : H2AIEvent} (h : event.terminal = false) (hp : p.owes = true)
    (hguard : ∀ node k, p ≠ .guarding node k) :
    ∃ events, (s.append event true).stream = s.stream ++ events ∧ Moves s p a events p := by
  refine ⟨[event], rfl, .works ?_ (fun _ => hp) hguard⟩
  intro e he
  rw [List.mem_singleton.mp he, h]

/-- Everything that a step of a publisher can do. -/
theorem advance_moves (h : advance id s p a = some (t, q)) :
    (t.publishers = s.publishers ∧ t.submitted = s.submitted) ∧
      ∃ events, t.stream = s.stream ++ events ∧ Moves s p a events q := by
  unfold advance at h
  split at h
  -- the pipeline
  next => cases h; exact ⟨⟨rfl, rfl⟩, moves_quietly rfl (fun _ => rfl) (by simp)⟩
  next node event =>
    split at h
    next => cases h
    next hquiet =>
      cases h
      exact ⟨⟨rfl, rfl⟩, moves_event (by simpa using hquiet) rfl (by simp)⟩
  next => cases h; exact ⟨⟨rfl, rfl⟩, moves_quietly rfl (fun _ => rfl) (by simp)⟩
  next => cases h; exact ⟨⟨rfl, rfl⟩, moves_append rfl rfl rfl (by simp) _⟩
  next => cases h; exact ⟨⟨rfl, rfl⟩, moves_append rfl rfl rfl (by simp) _⟩
  next => cases h; exact ⟨⟨rfl, rfl⟩, moves_quietly rfl (by simp [Publisher.owes]) (by simp)⟩
  -- a merge request
  next node stored acknowledged =>
    cases h
    cases acknowledged with
    | true => exact ⟨⟨rfl, rfl⟩, moves_append rfl rfl rfl (by simp) _⟩
    | false => exact ⟨⟨rfl, rfl⟩, moves_append rfl rfl rfl (by simp) _⟩
  next => cases h; exact ⟨⟨rfl, rfl⟩, moves_quietly rfl (by simp [Publisher.owes]) (by simp)⟩
  -- a resume
  next node k readable deleted =>
    split at h
    next => cases h
    next event hitem =>
      split at h
      next => cases h; exact ⟨⟨rfl, rfl⟩, moves_quietly rfl (by simp [Publisher.owes]) (by simp)⟩
      next hpassed =>
        cases h
        exact ⟨⟨rfl, rfl⟩, [], (List.append_nil _).symm, .reads hitem (by simpa using hpassed)⟩
  next => cases h; exact ⟨⟨rfl, rfl⟩, [], (List.append_nil _).symm, .admits⟩
  next => cases h; exact ⟨⟨rfl, rfl⟩, moves_quietly rfl (fun _ => rfl) (by simp)⟩
  next node event =>
    split at h
    next => cases h
    next hquiet =>
      cases h
      exact ⟨⟨rfl, rfl⟩, moves_event (by simpa using hquiet) rfl (by simp)⟩
  next => cases h; exact ⟨⟨rfl, rfl⟩, moves_append rfl rfl rfl (by simp) _⟩
  next => cases h; exact ⟨⟨rfl, rfl⟩, moves_quietly rfl (by simp [Publisher.owes]) (by simp)⟩
  next => cases h; exact ⟨⟨rfl, rfl⟩, moves_quietly rfl (by simp [Publisher.owes]) (by simp)⟩
  next => cases h; exact ⟨⟨rfl, rfl⟩, moves_quietly rfl (by simp [Publisher.owes]) (by simp)⟩
  next => cases h

/-! ## Runs -/

/-- No terminal event is stored, and no publisher has still to publish. -/
def Open (s : OutcomeSystem) : Prop := terminals s.stream = 0 ∧ owing s = 0

/-- A publisher is let through only while the outcome is open. Of a resume, the guard sees
to the events that it has read: it must not skip a terminal event as unreadable, and what
it has not read must hold none. -/
def LetThroughOpen (id : TaskId) (s : OutcomeSystem) : OutcomeAction → Prop
  | .mergeRequest node tenant => mergeAccepted (s.stores node) id tenant = true → Open s
  | .resumeStart _ opens => opens = false → Open s
  | .advance index action =>
      match s.publishers[index]?, action with
      | some (.guarding _ k), .read readable _ =>
          readable = false → s.stream[k]?.any H2AIEvent.terminal = false
      | some (.guarding _ k), .endOfStream => terminals (s.stream.drop k) = 0 ∧ owing s = 0
      | _, _ => True
  | .submit _ _ => True
  | .crash _ => True

structure OneOutcome (id : TaskId) (s : OutcomeSystem) : Prop where
  once : terminals s.stream + owing s ≤ 1
  guarded : ∀ node k, .guarding node k ∈ s.publishers →
    k ≤ s.stream.length ∧ terminals (s.stream.take k) = 0
  fresh : s.submitted = false → Open s ∧ s.publishers = [] ∧ s.checkpoint = false ∧
    ∀ node, s.stores node id = none

/-- A stream that grows keeps what a guard has read. -/
theorem guarded_append {stream events : List H2AIEvent} {k : Nat}
    (h : k ≤ stream.length ∧ terminals (stream.take k) = 0) :
    k ≤ (stream ++ events).length ∧ terminals ((stream ++ events).take k) = 0 := by
  obtain ⟨hlength, hnone⟩ := h
  refine ⟨?_, ?_⟩
  · rw [List.length_append]
    omega
  · rw [List.take_append_of_le_length hlength]
    exact hnone

/-- An item that is not terminal is read. -/
theorem guarded_read {stream : List H2AIEvent} {k : Nat} {event : H2AIEvent}
    (h : k ≤ stream.length ∧ terminals (stream.take k) = 0) (hitem : stream[k]? = some event)
    (hquiet : event.terminal = false) :
    k + 1 ≤ stream.length ∧ terminals (stream.take (k + 1)) = 0 := by
  obtain ⟨hlt, -⟩ := List.getElem?_eq_some_iff.mp hitem
  refine ⟨hlt, ?_⟩
  rw [List.take_add_one, hitem, Option.toList_some, terminals_append, h.2, hquiet]
  rfl

/-- A publisher that is let through while the outcome is open. -/
theorem OneOutcome.joins (inv : OneOutcome id s) (hsubmitted : s.submitted = true)
    (hopen : p.owes = true → Open s)
    (hguard : ∀ node k, p = .guarding node k → k = 0) :
    OneOutcome id { s with publishers := s.publishers ++ [p] } := by
  refine ⟨?_, ?_, ?_⟩
  · have hcount := owing_append s.publishers p
    have honce := inv.once
    simp only [owing] at honce ⊢
    rw [hcount]
    cases hp : p.owes with
    | false =>
        simp only [Bool.toNat_false]
        omega
    | true =>
        have hzero := hopen hp
        simp only [Open, owing] at hzero
        simp only [Bool.toNat_true]
        omega
  · intro node k hmem
    rcases List.mem_append.mp hmem with hmem | hmem
    · exact inv.guarded node k hmem
    · have hzero := hguard node k (List.mem_singleton.mp hmem).symm
      subst hzero
      exact ⟨Nat.zero_le _, rfl⟩
  · intro h
    rw [hsubmitted] at h
    cases h

theorem OneOutcome.submitted_of_entry (inv : OneOutcome id s) {node : String}
    {tenant : TenantId} (h : mergeAccepted (s.stores node) id tenant = true) :
    s.submitted = true := by
  cases hsubmitted : s.submitted with
  | true => rfl
  | false =>
      have hnone := (inv.fresh hsubmitted).2.2.2 node
      simp [mergeAccepted, TaskStore.getForTenant, hnone] at h

theorem OneOutcome.crash (inv : OneOutcome id s) (node : String) :
    OneOutcome id { s with
      stores := Function.update s.stores node fun _ => none
      publishers := s.publishers.map fun p => if p.node = node then .ended node else p } := by
  have howing : (s.publishers.map fun p => if p.node = node then .ended node else p).countP
      Publisher.owes ≤ s.publishers.countP Publisher.owes := by
    rw [List.countP_map]
    apply List.countP_mono_left
    intro p _ hp
    simp only [Function.comp_apply] at hp
    split at hp
    next => cases hp
    next => exact hp
  refine ⟨?_, ?_, ?_⟩
  · have honce := inv.once
    simp only [owing] at honce ⊢
    omega
  · intro n k hmem
    obtain ⟨p, hp, hended⟩ := List.mem_map.mp hmem
    split at hended
    next => cases hended
    next =>
      subst hended
      exact inv.guarded n k hp
  · intro hsubmitted
    obtain ⟨hopen, hnobody, hcheckpoint, hnone⟩ := inv.fresh hsubmitted
    refine ⟨⟨hopen.1, ?_⟩, ?_, hcheckpoint, ?_⟩
    · simp [owing, hnobody]
    · simp [hnobody]
    · intro n
      by_cases hn : n = node
      · simp [hn]
      · simpa [hn] using hnone n

theorem terminals_append_quiet {events : List H2AIEvent}
    (quiet : ∀ event ∈ events, event.terminal = false) (stream : List H2AIEvent) :
    terminals (stream ++ events) = terminals stream := by
  have hnone : events.countP H2AIEvent.terminal = 0 := by
    rw [List.countP_eq_zero]
    intro event hevent
    rw [quiet event hevent]
    exact Bool.false_ne_true
  rw [terminals, List.countP_append, hnone, terminals]
  rfl

section Move

variable {i : Nat} {events : List H2AIEvent}

theorem OneOutcome.moves_once (inv : OneOutcome id s) (hp : s.publishers[i]? = some p)
    (condition : LetThroughOpen id s (.advance i a)) (h : Moves s p a events q) :
    terminals (s.stream ++ events) + (s.publishers.set i q).countP Publisher.owes ≤ 1 := by
  have hcount := owing_set hp q
  have honce := inv.once
  rw [owing] at honce
  cases h with
  | works quiet owes unguarded =>
      rw [terminals_append_quiet quiet]
      cases hq : q.owes with
      | false =>
          rw [hq, Bool.toNat_false] at hcount
          omega
      | true =>
          rw [hq, owes hq] at hcount
          omega
  | publishes terminal owed owes unguarded =>
      -- what was owed is now stored
      rw [terminals_append, terminal]
      rw [owed, owes] at hcount
      simp only [Bool.toNat_true, Bool.toNat_false] at hcount ⊢
      omega
  | reads item passed =>
      rw [List.append_nil]
      simp only [Publisher.owes, Bool.toNat_false] at hcount
      omega
  | @admits node k =>
      -- read up to `k`, and no terminal event behind it
      simp only [LetThroughOpen, hp, owing] at condition
      have hread := (inv.guarded node k (List.mem_of_getElem? hp)).2
      have hsplit := terminals_take_add_drop s.stream k
      rw [List.append_nil]
      simp only [Publisher.owes, Bool.toNat_false, Bool.toNat_true] at hcount
      omega

theorem OneOutcome.moves_guarded (inv : OneOutcome id s) (hp : s.publishers[i]? = some p)
    (condition : LetThroughOpen id s (.advance i a)) (h : Moves s p a events q)
    {node : String} {k : Nat} (hmem : .guarding node k ∈ s.publishers.set i q) :
    k ≤ (s.stream ++ events).length ∧ terminals ((s.stream ++ events).take k) = 0 := by
  rcases List.mem_or_eq_of_mem_set hmem with hmem | hq
  · exact guarded_append (inv.guarded node k hmem)
  · cases h with
    | works quiet owes unguarded => exact absurd hq.symm (unguarded node k)
    | publishes terminal owed owes unguarded => exact absurd hq.symm (unguarded node k)
    | @reads node' k' readable deleted event item passed =>
        cases hq
        simp only [LetThroughOpen, hp, item, Option.any_some] at condition
        have hquiet : event.terminal = false := by
          cases readable with
          | true => exact passed
          | false => exact condition rfl
        rw [List.append_nil]
        exact guarded_read (inv.guarded node k' (List.mem_of_getElem? hp)) item hquiet
    | admits => cases hq

end Move

/-- A step that lets a publisher through only while the outcome is open keeps the
invariant. -/
theorem OneOutcome.step {action : OutcomeAction} (inv : OneOutcome id s)
    (condition : LetThroughOpen id s action) (h : outcomeStep id s action = some t) :
    OneOutcome id t := by
  cases action with
  | submit node tenant =>
      simp only [outcomeStep] at h
      split at h
      next => cases h
      next hsubmitted =>
        cases h
        obtain ⟨hopen, hnobody, -, -⟩ := inv.fresh (by simpa using hsubmitted)
        refine ⟨?_, ?_, by simp⟩
        · simp [owing, OutcomeSystem.write, hnobody, hopen.1, Publisher.owes]
        · simp [hnobody]
  | mergeRequest node tenant =>
      simp only [outcomeStep, Option.some.injEq] at h
      subst h
      split
      next haccepted =>
        exact inv.joins (inv.submitted_of_entry haccepted) (fun _ => condition haccepted) (by simp)
      next => exact inv
  | resumeStart node opens =>
      simp only [outcomeStep] at h
      split at h
      next hcheckpoint =>
        cases h
        have hsubmitted : s.submitted = true := by
          cases hs : s.submitted with
          | true => rfl
          | false =>
              rw [(inv.fresh hs).2.2.1] at hcheckpoint
              cases hcheckpoint
        cases opens with
        | true => exact inv.joins hsubmitted (by simp [Publisher.owes]) (by simp)
        | false => exact inv.joins hsubmitted (fun _ => condition rfl) (by simp)
      next => cases h
  | crash node =>
      cases h
      exact inv.crash node
  | advance i a =>
      simp only [outcomeStep] at h
      split at h
      next => cases h
      next p hp =>
        obtain ⟨⟨t', q⟩, hadvance, rfl⟩ := Option.map_eq_some_iff.mp h
        obtain ⟨⟨hpublishers, hsubmitted⟩, events, hstream, hmoves⟩ := advance_moves hadvance
        refine ⟨?_, ?_, ?_⟩
        · simp only [owing, hpublishers, hstream]
          exact inv.moves_once hp condition hmoves
        · intro node k hmem
          simp only [hpublishers, hstream] at hmem ⊢
          exact inv.moves_guarded hp condition hmoves hmem
        · intro hfresh
          rw [hsubmitted] at hfresh
          rw [(inv.fresh hfresh).2.1] at hp
          cases hp

theorem initial_oneOutcome {stores : String → TaskStore} (h : ∀ node, stores node id = none) :
    OneOutcome id (.initial stores) :=
  ⟨Nat.zero_le _, by simp [OutcomeSystem.initial], fun _ => ⟨⟨rfl, rfl⟩, rfl, rfl, h⟩⟩

/-! ## Continuations -/

/-- A publisher that owes stores its event. -/
theorem advance_owed (id : TaskId) (s : OutcomeSystem) (h : p.owes = true) :
    ∃ q, advance id s p (.publish true true) = some (s.append .mergeResolved true, q) ∧
      q.owes = false := by
  cases p with
  | running node => exact ⟨.runMarking node true, rfl, rfl⟩
  | mergeChecked node => exact ⟨.mergeMarking node, rfl, rfl⟩
  | resumed node => exact ⟨.resumeMarking node, rfl, rfl⟩
  | _ => cases h

/-- Every publisher that owes can go on to store its event. -/
theorem all_publish (id : TaskId) (n : Nat) (s : OutcomeSystem) (h : owing s = n) :
    ∃ more t, runActions (outcomeStep id) s more = some t ∧
      terminals t.stream = terminals s.stream + n := by
  induction n generalizing s with
  | zero => exact ⟨[], s, rfl, rfl⟩
  | succ n ih =>
      obtain ⟨p, hmem, howes⟩ := List.countP_pos_iff.mp (by rw [owing] at h; omega :
        0 < s.publishers.countP Publisher.owes)
      obtain ⟨i, hp⟩ := List.mem_iff_getElem?.mp hmem
      obtain ⟨q, hadvance, hq⟩ := advance_owed id s howes
      have hstep : outcomeStep id s (.advance i (.publish true true)) =
          some { s.append .mergeResolved true with publishers := s.publishers.set i q } := by
        simp [outcomeStep, hp, hadvance, OutcomeSystem.append]
      have hcount := owing_set hp q
      rw [howes, hq] at hcount
      obtain ⟨more, t, hrun, hterminals⟩ :=
        ih { s.append .mergeResolved true with publishers := s.publishers.set i q } (by
          simp only [owing, Bool.toNat_true, Bool.toNat_false] at h hcount ⊢
          omega)
      refine ⟨.advance i (.publish true true) :: more, t, ?_, ?_⟩
      · rw [runActions, hstep]
        exact hrun
      · rw [hterminals]
        simp only [OutcomeSystem.append, ↓reduceIte, terminals_append]
        simp only [H2AIEvent.terminal, Bool.toNat_true]
        omega

/-- A state from which two terminal events can be stored. -/
def Forks (id : TaskId) (s : OutcomeSystem) : Prop :=
  ∃ more t, runActions (outcomeStep id) s more = some t ∧ 2 ≤ terminals t.stream

theorem forks_of_counts (h : 2 ≤ terminals s.stream + owing s) : Forks id s := by
  obtain ⟨more, t, hrun, hterminals⟩ := all_publish id (owing s) s rfl
  exact ⟨more, t, hrun, by omega⟩

/-- A publisher is let through while the outcome is not open. -/
theorem forks_joins (hnot : ¬Open s) (hp : p.owes = true) :
    Forks id { s with publishers := s.publishers ++ [p] } := by
  apply forks_of_counts
  have hcount := owing_append s.publishers p
  rw [hp] at hcount
  simp only [Open, owing] at hnot hcount ⊢
  rw [hcount, Bool.toNat_true]
  omega

/-- A guard that has missed a terminal event, or that ends while another publisher owes. -/
theorem forks_admits {i : Nat} {node : String} {k : Nat}
    (hp : s.publishers[i]? = some (.guarding node k))
    (hnot : ¬(terminals s.stream = 0 ∧ owing s = 0)) :
    Forks id { s with publishers := s.publishers.set i (.resumed node) } := by
  apply forks_of_counts
  have hcount := owing_set hp (.resumed node)
  simp only [Publisher.owes, owing, Bool.toNat_true, Bool.toNat_false] at hnot hcount ⊢
  omega

theorem forks_step {action : OutcomeAction} (hstep : outcomeStep id s action = some t)
    (h : Forks id t) : Forks id s := by
  obtain ⟨more, t', hrun, htwo⟩ := h
  refine ⟨action :: more, t', ?_, htwo⟩
  rw [runActions, hstep]
  exact hrun

/-- A terminal event is skipped as unreadable; the guard may end behind it. -/
theorem forks_reads {i : Nat} {node : String} {k : Nat} {readable deleted : Bool}
    (hp : s.publishers[i]? = some (.guarding node k))
    (hnot : ¬(readable = false → s.stream[k]?.any H2AIEvent.terminal = false))
    (h : (advance id s (.guarding node k) (.read readable deleted)).map (fun (t, q) =>
      { t with publishers := t.publishers.set i q }) = some t) : Forks id t := by
  obtain ⟨hunreadable, hterminal⟩ := Classical.not_imp.mp hnot
  cases hitem : s.stream[k]? with
  | none => simp [hitem] at hterminal
  | some event =>
      simp only [hitem, Option.any_some, Bool.not_eq_false] at hterminal
      simp only [advance, hitem, hunreadable, Bool.false_and, Bool.false_eq_true, ↓reduceIte,
        Option.map_some, Option.some.injEq] at h
      subst h
      have hlt : i < s.publishers.length := (List.getElem?_eq_some_iff.mp hp).1
      have hq : { s with publishers := s.publishers.set i (.guarding node (k + 1)) }.publishers[i]?
          = some (.guarding node (k + 1)) := List.getElem?_set_self hlt
      have hpos := terminals_pos hitem hterminal
      have hends : Forks id _ := forks_admits hq (by simp only; omega)
      apply forks_step _ hends
      · exact .advance i .endOfStream
      · simp [outcomeStep, hq, advance]

/-- A step that lets a publisher through while the outcome is not open can be continued
until two terminal events are stored. -/
theorem forks_of_not_letThroughOpen {action : OutcomeAction}
    (hnot : ¬LetThroughOpen id s action) (h : outcomeStep id s action = some t) :
    Forks id t := by
  cases action with
  | submit node tenant => exact absurd trivial hnot
  | crash node => exact absurd trivial hnot
  | mergeRequest node tenant =>
      simp only [LetThroughOpen, Classical.not_imp] at hnot
      simp only [outcomeStep, hnot.1, ↓reduceIte, Option.some.injEq] at h
      subst h
      exact forks_joins hnot.2 rfl
  | resumeStart node opens =>
      simp only [LetThroughOpen, Classical.not_imp] at hnot
      simp only [outcomeStep, hnot.1] at h
      split at h
      next =>
        cases h
        exact forks_joins hnot.2 rfl
      next => cases h
  | advance i a =>
      simp only [outcomeStep] at h
      simp only [LetThroughOpen] at hnot
      split at h
      next => cases h
      next p hp =>
        rw [hp] at hnot
        split at hnot
        next node k readable deleted heq =>
          cases heq
          exact forks_reads hp hnot h
        next node k heq =>
          cases heq
          simp only [advance, Option.map_some, Option.some.injEq] at h
          subst h
          apply forks_admits hp
          intro hopen
          refine hnot ⟨?_, hopen.2⟩
          have hsplit := terminals_take_add_drop s.stream k
          omega
        next => exact absurd trivial hnot

/-- For every task and every interleaving of its pipeline, of merge requests, of resumes
and of crashes, on any nodes: if each publisher is let through only while no terminal event
is stored and no other publisher has still to publish, then the task's event stream never
holds two terminal events; and whatever the run so far, a step that lets a publisher
through otherwise can be continued to a state in which it does. -/
theorem at_most_one_terminal_event (id : TaskId) (stores : String → TaskStore)
    (unknown : ∀ node, stores node id = none) (actions : List OutcomeAction) (s : OutcomeSystem)
    (run : runActions (outcomeStep id) (.initial stores) actions = some s) :
    (RunMeets (outcomeStep id) (LetThroughOpen id) (.initial stores) actions →
      terminals s.stream ≤ 1) ∧
    ∀ action t, ¬LetThroughOpen id s action → outcomeStep id s action = some t →
      ∃ more t', runActions (outcomeStep id) t more = some t' ∧ 2 ≤ terminals t'.stream := by
  refine ⟨?_, ?_⟩
  · intro meets
    have hinv : OneOutcome id s :=
      runMeets_holds (fun _ _ _ inv condition h => inv.step condition h)
        (initial_oneOutcome unknown) meets run
    have honce := hinv.once
    omega
  · intro action t hnot hstep
    exact forks_of_not_letThroughOpen hnot hstep

section Example

def sampleTask : TaskId :=
  ⟨"3f1c2a90-7d4e-4b6a-8c55-9e0d1f2a3b4c", isUuidChar_workedRun⟩

def acme : TenantId := ⟨"acme"⟩

def noTasks : String → TaskStore := fun _ _ => none

/-- The node of a finished pipeline crashes before it has deleted the checkpoint. After the
restart the guard finds the terminal event, and a late merge request finds no task. -/
def crashBehindOutcome : List OutcomeAction :=
  [.submit "web-1:17" acme, .advance 0 .putCheckpoint, .advance 0 (.publish true true),
    .crash "web-1:17", .resumeStart "web-1:18" true, .mergeRequest "web-1:18" acme,
    .advance 1 (.read true true)]

instance decidableLetThroughOpen (s : OutcomeSystem) (action : OutcomeAction) :
    Decidable (LetThroughOpen sampleTask s action) := by
  unfold LetThroughOpen Open
  split
  next => infer_instance
  next => infer_instance
  next => split <;> infer_instance
  next => infer_instance
  next => infer_instance

def streamAfter (actions : List OutcomeAction) : Option (List H2AIEvent) :=
  (runActions (outcomeStep sampleTask) (.initial noTasks) actions).map (·.stream)

/-- The stream keeps the one event. -/
theorem crash_behind_outcome_keeps_one :
    streamAfter crashBehindOutcome = some [.mergeResolved] ∧
      terminals [.mergeResolved] ≤ 1 := by
  have hstream : streamAfter crashBehindOutcome = some [.mergeResolved] := by decide
  obtain ⟨s, hrun, heq⟩ := Option.map_eq_some_iff.mp hstream
  have hone := (at_most_one_terminal_event sampleTask noTasks (fun _ => rfl) crashBehindOutcome
    s hrun).1 (by decide)
  rw [heq] at hone
  exact ⟨hstream, hone⟩

/-- A merge request resolves a task whose pipeline is running, and the pipeline then fails.
A task whose `TaskFailed` is stored and marked is merged afterwards. -/
theorem two_terminal_events :
    (streamAfter [.submit "web-1:17" acme, .mergeRequest "web-1:17" acme,
      .advance 1 (.publish true true), .advance 1 (.mark false),
      .advance 0 (.publishFailed true), .advance 0 (.mark false)]).map terminals = some 2 ∧
    (streamAfter [.submit "web-1:17" acme, .advance 0 (.publishFailed true),
      .advance 0 (.mark true), .mergeRequest "web-1:17" acme,
      .advance 1 (.publish true true)]).map terminals = some 2 := by
  refine ⟨?_, ?_⟩
  · decide
  · decide

end Example

end ControlPlane.Guarantees.TerminalEvents
