import ControlPlane.Lib.Numerals
import ControlPlane.Lib.Runs
import ControlPlane.Source.Tasks.OracleWindow
import Mathlib.Data.List.Nodup

/-!
# Durability of oracle observations

Every node reads the window, appends an observation and puts the whole window back. A write
keeps what is stored exactly if the node still holds the stored window, which a failed read
and the write of another node prevent; the subscription gives a result to every node.
-/
namespace ControlPlane.Guarantees.OracleDurability

open Lib Source.Tasks

/-- The new window is the old one with the observation behind it, cut at the front to its
size. -/
def Extends (cap : Nat) (old : List OracleObservation) (o : OracleObservation)
    (new : List OracleObservation) : Prop :=
  ∃ dropped, dropped ++ new = old ++ [o] ∧ (dropped = [] ∨ new.length = cap)

variable {κ : Type} [DecidableEq κ]

abbrev Nodes (κ : Type) := Threads κ OraclePoint OracleStore

/-- The node of the step puts what follows from a read that failed. -/
def FollowsFailedRead (t : Nodes κ) (k : κ) : Prop :=
  ∃ observations result, t.locals k = .handling observations result true

/-- A step leaves the window alone or extends it by one result, no result is written twice,
and what follows from a failed read does not make the window shorter. -/
structure Durable (cap : Nat) (t : Nodes κ) (a : κ × OracleAnswer) : Prop where
  window : ((t.act (oracleMove cap) a).shared = t.shared) ∨
    ∃ result, (t.act (oracleMove cap) a).shared.written = t.shared.written ++ [result] ∧
      Extends cap t.shared.window result.observation (t.act (oracleMove cap) a).shared.window
  once : ((t.act (oracleMove cap) a).shared.written.map (·.message)).Nodup
  failedRead : FollowsFailedRead t a.1 →
    t.shared.window.length ≤ (t.act (oracleMove cap) a).shared.window.length

/-- A node that puts holds the window that is stored, unless a window has one observation at
most, and its result is not yet written. -/
def Undisturbed (cap : Nat) (t : Nodes κ) (a : κ × OracleAnswer) : Prop :=
  ∀ observations result readFailed, t.locals a.1 = .handling observations result readFailed →
    a.2 = .put true →
      (cap ≤ 1 ∨ observations = t.shared.window) ∧
        result.message ∉ t.shared.written.map (·.message)

/-! ## One write -/

theorem extends_self (cap : Nat) (observations : List OracleObservation)
    (o : OracleObservation) :
    Extends cap observations o (enforceFifoCap (observations ++ [o]) cap) := by
  by_cases h : (observations ++ [o]).length ≤ cap
  · exact ⟨[], by rw [enforceFifoCap_of_le h, List.nil_append], Or.inl rfl⟩
  · refine ⟨(observations ++ [o]).take ((observations ++ [o]).length - cap), ?_, Or.inr ?_⟩
    · rw [enforceFifoCap_eq, List.take_append_drop]
    · rw [enforceFifoCap_eq, List.length_drop]
      omega

/-- A window of one observation at most keeps nothing of what was read. -/
theorem enforceFifoCap_small {cap : Nat} (h : cap ≤ 1) (observations : List OracleObservation)
    (o : OracleObservation) :
    enforceFifoCap (observations ++ [o]) cap = enforceFifoCap [o] cap := by
  rcases Nat.le_one_iff_eq_zero_or_eq_one.mp h with rfl | rfl
  · rw [enforceFifoCap_zero, enforceFifoCap_zero]
  · rw [enforceFifoCap_concat observations o le_rfl, enforceFifoCap_zero]
    rfl

/-- A held window is the stored one, or lacks the newest observation of it. -/
def Behind (held stored : List OracleObservation) : Prop :=
  ∃ older newest, stored = older ++ [newest] ∧ newest ∉ held

/-- What a node writes extends the stored window only if it holds that window. -/
theorem extends_iff {cap : Nat} {held stored : List OracleObservation} {o : OracleObservation}
    (h : held = stored ∨ Behind held stored) :
    Extends cap stored o (enforceFifoCap (held ++ [o]) cap) ↔ cap ≤ 1 ∨ held = stored := by
  constructor
  · rintro ⟨dropped, hsplit, hfull⟩
    by_contra hnot
    rw [not_or, not_le] at hnot
    obtain ⟨older, newest, rfl, hnewest⟩ := h.resolve_left hnot.2
    rw [enforceFifoCap_concat held o (by omega)] at hsplit hfull
    rw [← List.append_assoc] at hsplit
    have hfront := List.append_cancel_right hsplit
    rcases List.eq_nil_or_concat' held with rfl | ⟨front, last, rfl⟩
    · have hlength : (enforceFifoCap [] (cap - 1) ++ [o]).length = 1 := rfl
      rcases hfull with rfl | hfull
      · have hnil := congrArg List.length hfront
        simp [enforceFifoCap] at hnil
      · omega
    · rw [enforceFifoCap_concat front last (by omega), ← List.append_assoc] at hfront
      have hlast := (List.append_inj' hfront rfl).2
      rw [List.cons.injEq] at hlast
      apply hnewest
      rw [← hlast.1]
      exact List.mem_append_right front (List.mem_singleton_self last)
  · rintro (hcap | rfl)
    · have hsmall := extends_self cap stored o
      rwa [enforceFifoCap_small hcap, ← enforceFifoCap_small hcap held] at hsmall
    · exact extends_self cap held o

theorem fresh_of_once {written : List OracleResultEvent} {result : OracleResultEvent}
    (once : ((written ++ [result]).map (·.message)).Nodup) :
    result.message ∉ written.map (·.message) := by
  rw [List.map_append] at once
  intro hmem
  exact (List.disjoint_of_nodup_append once) hmem (List.mem_singleton_self _)

/-! ## One step -/

/-- The node of the step puts its window, and the write comes through. -/
def Writes (t : Nodes κ) (a : κ × OracleAnswer) : Prop :=
  ∃ observations result readFailed,
    t.locals a.1 = .handling observations result readFailed ∧ a.2 = .put true

theorem act_writes (cap : Nat) {t : Nodes κ} {k : κ} {observations : List OracleObservation}
    {result : OracleResultEvent} {readFailed : Bool}
    (hpoint : t.locals k = .handling observations result readFailed) :
    (t.act (oracleMove cap) (k, .put true)).shared =
      ⟨some (enforceFifoCap (observations ++ [result.observation]) cap),
        t.shared.written ++ [result]⟩ := by
  rw [Threads.act_shared, hpoint]
  rfl

theorem act_quiet (cap : Nat) {t : Nodes κ} {a : κ × OracleAnswer} (quiet : ¬ Writes t a) :
    (t.act (oracleMove cap) a).shared = t.shared := by
  obtain ⟨k, answer⟩ := a
  rw [Threads.act_shared]
  cases hpoint : t.locals k with
  | idle => cases answer <;> rfl
  | handling observations result readFailed =>
      cases answer with
      | deliver r served => rfl
      | put applied =>
          cases applied with
          | false => rfl
          | true => exact absurd ⟨observations, result, readFailed, hpoint, rfl⟩ quiet

omit [DecidableEq κ] in
theorem oracleMove_quiet {cap : Nat} {t : Nodes κ} {a : κ × OracleAnswer} (quiet : ¬ Writes t a)
    {observations : List OracleObservation} {result : OracleResultEvent} {readFailed : Bool}
    (h : (oracleMove cap a.1 a.2 (t.locals a.1) t.shared).1 =
      .handling observations result readFailed) :
    t.locals a.1 = .handling observations result readFailed ∨
      ∃ served, observations = (if served then t.shared.window else []) ∧ readFailed = !served := by
  obtain ⟨k, answer⟩ := a
  cases hpoint : t.locals k with
  | idle =>
      rw [hpoint] at h
      cases answer with
      | deliver r served =>
          cases h
          exact Or.inr ⟨served, rfl, rfl⟩
      | put applied => cases h
  | handling held r failed =>
      rw [hpoint] at h
      cases answer with
      | deliver r' served => exact Or.inl h
      | put applied => cases h

/-! ## The nodes -/

/-- What a node holds was written, and is the stored window or behind it. -/
structure HoldsPast (cap : Nat) (s : OracleStore) (held : List OracleObservation)
    (readFailed : Bool) : Prop where
  bounded : held.length ≤ cap
  written : ∀ o ∈ held, o.message ∈ s.written.map (·.message)
  past : held = s.window ∨ Behind held s.window
  failed : readFailed = true → held = []

structure WindowInv (cap : Nat) (t : Nodes κ) : Prop where
  bounded : t.shared.window.length ≤ cap
  written : ∀ o ∈ t.shared.window, o.message ∈ t.shared.written.map (·.message)
  once : (t.shared.written.map (·.message)).Nodup
  held : ∀ k observations result readFailed,
    t.locals k = .handling observations result readFailed →
      HoldsPast cap t.shared observations readFailed

omit [DecidableEq κ] in
theorem windowInv_start (cap : Nat) : WindowInv cap (oracleStart (κ := κ)) :=
  { bounded := Nat.zero_le cap
    written := fun _ ho => absurd ho List.not_mem_nil
    once := List.nodup_nil
    held := fun _ _ _ _ h => by cases h }

omit [DecidableEq κ] in
/-- A node that reads holds the stored window, or nothing. -/
theorem WindowInv.read {cap : Nat} {t : Nodes κ} (h : WindowInv cap t) (served : Bool) :
    HoldsPast cap t.shared (if served then t.shared.window else []) (!served) := by
  cases served with
  | true => exact ⟨h.bounded, h.written, Or.inl rfl, fun hfalse => by cases hfalse⟩
  | false =>
      refine ⟨Nat.zero_le cap, fun _ ho => absurd ho List.not_mem_nil, ?_, fun _ => rfl⟩
      rcases List.eq_nil_or_concat' t.shared.window with hnil | ⟨older, newest, hwindow⟩
      · exact Or.inl hnil.symm
      · exact Or.inr ⟨older, newest, hwindow, List.not_mem_nil⟩

/-- Where nothing is written, a node holds what it held, or what it has just read. -/
theorem WindowInv.quiet {cap : Nat} {t : Nodes κ} (h : WindowInv cap t) {a : κ × OracleAnswer}
    (quiet : ¬ Writes t a) : WindowInv cap (t.act (oracleMove cap) a) := by
  have hshared := act_quiet cap quiet
  refine ⟨by rw [hshared]; exact h.bounded, by rw [hshared]; exact h.written,
    by rw [hshared]; exact h.once, fun j observations result readFailed hj => ?_⟩
  rw [hshared]
  by_cases hjk : j = a.1
  · subst hjk
    rw [Threads.act_same] at hj
    rcases oracleMove_quiet quiet hj with hheld | ⟨served, rfl, rfl⟩
    · exact h.held _ observations result readFailed hheld
    · exact h.read served
  · rw [Threads.act_other _ _ _ _ hjk] at hj
    exact h.held j observations result readFailed hj

/-- A new window ends with an observation that nobody holds. -/
theorem HoldsPast.write {cap : Nat} {s : OracleStore} {held : List OracleObservation}
    {readFailed : Bool} (h : HoldsPast cap s held readFailed)
    {observations : List OracleObservation} {result : OracleResultEvent}
    (fresh : result.message ∉ s.written.map (·.message)) :
    HoldsPast cap
      ⟨some (enforceFifoCap (observations ++ [result.observation]) cap), s.written ++ [result]⟩
      held readFailed := by
  refine ⟨h.bounded, fun o ho => ?_, ?_, h.failed⟩
  · rw [List.map_append]
    exact List.mem_append_left _ (h.written o ho)
  · rcases Nat.eq_zero_or_pos cap with rfl | hpos
    · left
      rw [List.eq_nil_of_length_eq_zero (Nat.le_zero.mp h.bounded)]
      exact (enforceFifoCap_zero _).symm
    · right
      refine ⟨_, _, enforceFifoCap_concat observations result.observation hpos, fun hmem => ?_⟩
      exact fresh (h.written _ hmem)

theorem WindowInv.write {cap : Nat} {t : Nodes κ} (h : WindowInv cap t) {k : κ}
    {observations : List OracleObservation} {result : OracleResultEvent} {readFailed : Bool}
    (hpoint : t.locals k = .handling observations result readFailed)
    (fresh : result.message ∉ t.shared.written.map (·.message)) :
    WindowInv cap (t.act (oracleMove cap) (k, .put true)) := by
  have hheld := h.held k observations result readFailed hpoint
  have hshared := act_writes cap hpoint
  refine ⟨?_, ?_, ?_, fun j observations' result' readFailed' hj => ?_⟩
  · rw [hshared]
    exact enforceFifoCap_length_le _ cap
  · rw [hshared]
    intro o ho
    rw [List.map_append]
    rcases List.mem_append.mp (mem_of_mem_enforceFifoCap ho) with hold | hnew
    · exact List.mem_append_left _ (hheld.written o hold)
    · rw [List.mem_singleton.mp hnew]
      exact List.mem_append_right _ (List.mem_singleton_self _)
  · rw [hshared, List.map_append]
    exact h.once.append (List.nodup_singleton _) (by simpa using fresh)
  · rw [hshared]
    by_cases hjk : j = k
    · subst hjk
      rw [Threads.act_same, hpoint] at hj
      cases hj
    · rw [Threads.act_other _ _ _ _ hjk] at hj
      exact (h.held j observations' result' readFailed' hj).write fresh

/-- The invariant is kept by the steps whose result is not yet written. -/
theorem WindowInv.step {cap : Nat} {t : Nodes κ} (h : WindowInv cap t) {a : κ × OracleAnswer}
    (once : ((t.act (oracleMove cap) a).shared.written.map (·.message)).Nodup) :
    WindowInv cap (t.act (oracleMove cap) a) := by
  by_cases hwrites : Writes t a
  · obtain ⟨k, answer⟩ := a
    obtain ⟨observations, result, readFailed, hpoint, rfl⟩ := hwrites
    rw [act_writes cap hpoint] at once
    exact h.write hpoint (fresh_of_once once)
  · exact h.quiet hwrites

/-! ## Durable steps -/

theorem durable_of_quiet {cap : Nat} {t : Nodes κ} (h : WindowInv cap t) {a : κ × OracleAnswer}
    (quiet : ¬ Writes t a) : Durable cap t a := by
  have hshared := act_quiet cap quiet
  exact ⟨Or.inl hshared, by rw [hshared]; exact h.once, fun _ => by rw [hshared]⟩

section Write

variable {cap : Nat} {t : Nodes κ} {k : κ} {observations : List OracleObservation}
  {result : OracleResultEvent} {readFailed : Bool}

/-- A durable write found the window that the node holds, and its result is new. -/
theorem present_of_durable (h : WindowInv cap t)
    (hpoint : t.locals k = .handling observations result readFailed)
    (durable : Durable cap t (k, .put true)) :
    (cap ≤ 1 ∨ observations = t.shared.window) ∧
      result.message ∉ t.shared.written.map (·.message) := by
  have honce := durable.once
  have hwindow := durable.window
  rw [act_writes cap hpoint] at honce hwindow
  refine ⟨?_, fresh_of_once honce⟩
  rcases hwindow with hsame | ⟨r, hwritten, hextends⟩
  · have hlength := congrArg (fun s : OracleStore => s.written.length) hsame
    simp at hlength
  · have hr : result = r := by simpa using hwritten
    subst hr
    exact (extends_iff (h.held k observations result readFailed hpoint).past).mp hextends

theorem durable_of_present (h : WindowInv cap t)
    (hpoint : t.locals k = .handling observations result readFailed)
    (present : cap ≤ 1 ∨ observations = t.shared.window)
    (fresh : result.message ∉ t.shared.written.map (·.message)) :
    Durable cap t (k, .put true) := by
  have hheld := h.held k observations result readFailed hpoint
  have hshared := act_writes cap hpoint
  refine ⟨Or.inr ⟨result, ?_, ?_⟩, (h.write hpoint fresh).once, ?_⟩
  · rw [hshared]
  · rw [hshared]
    exact (extends_iff hheld.past).mpr present
  · rintro ⟨observations', result', hfailed⟩
    rw [hpoint] at hfailed
    cases hfailed
    have hempty := hheld.failed rfl
    subst hempty
    rw [hshared]
    rcases present with hcap | hsame
    · have hbounded := h.bounded
      have hlength : (enforceFifoCap [result.observation] cap).length = min 1 cap := by
        rw [enforceFifoCap_eq, List.length_drop, List.length_singleton]
        omega
      change t.shared.window.length ≤ (enforceFifoCap [result.observation] cap).length
      omega
    · rw [← hsame]
      exact Nat.zero_le _

end Write

/-- A step is durable exactly if it is undisturbed. -/
theorem durable_iff {cap : Nat} {t : Nodes κ} (h : WindowInv cap t) (a : κ × OracleAnswer) :
    Durable cap t a ↔ Undisturbed cap t a := by
  by_cases hwrites : Writes t a
  · obtain ⟨k, answer⟩ := a
    obtain ⟨observations, result, readFailed, hpoint, rfl⟩ := hwrites
    constructor
    · intro hdurable observations' result' readFailed' hpoint' _
      rw [hpoint] at hpoint'
      cases hpoint'
      exact present_of_durable h hpoint hdurable
    · intro hundisturbed
      obtain ⟨hpresent, hfresh⟩ := hundisturbed observations result readFailed hpoint rfl
      exact durable_of_present h hpoint hpresent hfresh
  · refine iff_of_true (durable_of_quiet h hwrites) ?_
    intro observations result readFailed hpoint hput
    exact absurd ⟨observations, result, readFailed, hpoint, hput⟩ hwrites

/-- From the empty store every step of a run is durable exactly if no write is disturbed. -/
theorem observations_durable_iff (cap : Nat) (actions : List (κ × OracleAnswer)) :
    RunMeets (Threads.step (oracleMove cap)) (Durable cap) oracleStart actions ↔
      RunMeets (Threads.step (oracleMove cap)) (Undisturbed cap) oracleStart actions := by
  apply runMeets_congr (I := WindowInv cap) (fun t a h => durable_iff h a) ?_
    (windowInv_start cap) actions
  intro t a t' h hdurable hstep
  obtain rfl := Option.some.inj hstep
  exact h.step hdurable.once

/-! ## A failed read and a second node -/

def resultOf (message : Nat) : OracleResultEvent :=
  ⟨message, "task", 9 / 10, true, 1 / 10, .code, message⟩

/-- One node loses two observations to a failed read. -/
def failedReadRun : List (Fin 1 × OracleAnswer) :=
  [(0, .deliver (resultOf 1) true), (0, .put true), (0, .deliver (resultOf 2) true),
    (0, .put true), (0, .deliver (resultOf 3) false), (0, .put true)]

/-- Two nodes record one result. -/
def twoNodesRun : List (Fin 2 × OracleAnswer) :=
  [(0, .deliver (resultOf 1) true), (0, .put true), (1, .deliver (resultOf 1) true),
    (1, .put true)]

theorem observations_lost_and_doubled :
    ¬ RunMeets (Threads.step (oracleMove 200)) (Durable 200) oracleStart failedReadRun ∧
      ¬ RunMeets (Threads.step (oracleMove 200)) (Durable 200) oracleStart twoNodesRun := by
  constructor
  · intro h
    have hlast := h.2.2.2.2.2.1
    have hshorter := hlast.failedRead ⟨_, _, rfl⟩
    revert hshorter
    decide
  · intro h
    have honce := h.2.2.2.1.once
    revert honce
    decide

end ControlPlane.Guarantees.OracleDurability
