import ControlPlane.Lib.Runs
import ControlPlane.Lib.Entries
import ControlPlane.Source.Engine.Topology
import Mathlib.Data.Nat.Choose.Basic
import Mathlib.Data.String.Basic
import Mathlib.Data.Sym.Sym2

/-!
# The correlation of pairs

Embeds `RhoEmaState` of `crates/h2ai-api/src/rho_ema.rs` and its update in `post_run` of
`task_pipeline.rs`, with the slots that the scores of a task come from: the explorers that
every wave provisions and the adapters that generation runs them with. Numbers are exact.
-/
namespace ControlPlane.Source.Tasks

open Lib Engine MapeK

structure RhoEmaState where
  ema : AList fun _ : String × String => ℚ
  nObservations : Nat

/-- The conservative prior. -/
def rhoPrior : ℚ := 45 / 100

namespace RhoEmaState

/-- `RhoEmaState::default`. -/
def empty : RhoEmaState := ⟨∅, 0⟩

/-- `update`; a pair is stored under its ids in their order. -/
def update (s : RhoEmaState) (pairs : List (String × String × ℚ)) (alpha : ℚ) : RhoEmaState :=
  { ema := pairs.foldl (fun ema pair =>
      let key := canonicalPair pair.1 pair.2.1
      let entry := (ema.lookup key).getD rhoPrior
      ema.insert key ((1 - alpha) * entry + alpha * pair.2.2)) s.ema
    nObservations := s.nObservations + 1 }

/-- `rho_mean`. -/
def rhoMean (s : RhoEmaState) : ℚ :=
  let values := s.ema.entries.map (·.2)
  if values.isEmpty then rhoPrior else max 0 (min (values.sum / values.length) (99 / 100))

end RhoEmaState

/-- The centered product of two scores. -/
def scoreProduct (pMean a b : ℚ) : ℚ :=
  let variance := max (pMean * (1 - pMean)) (1 / 100)
  max (-1) (min ((a - pMean) * (b - pMean) / variance) 1)

/-- The products of every two scores, in the order of the nested loops. -/
def scorePairs (pMean : ℚ) : List (String × ℚ) → List (String × String × ℚ)
  | [] => []
  | a :: rest => rest.map (fun b => (a.1, b.1, scoreProduct pMean a.2 b.2)) ++ scorePairs pMean rest

/-- The update in `post_run`, with the empirical value for the calibration once there are
enough observations. `pMean` is the one of the tenant's calibration. -/
def postRunRho (s : RhoEmaState) (pMean : Option ℚ) (events : List VerificationScoredEvent) :
    RhoEmaState × Option ℚ :=
  let scores := events.map fun e => (e.explorerId, e.score)
  if 2 ≤ scores.length then
    let s' := s.update (scorePairs (pMean.getD (7 / 10)) scores) (1 / 10)
    (s', if 30 ≤ s'.nObservations then some s'.rhoMean else none)
  else (s, none)

/-! ## The tasks of a tenant -/

/-- A scored proposal with the pool adapter that wrote it. -/
structure Seat (pool : Nat) where
  event : VerificationScoredEvent
  adapter : Fin pool

structure ScoredTask where
  waves : List ScoredWave
  pMean : Option ℚ

variable {pool : Nat}

/-- `explorer_adapters[(idx + adapter_rotation_offset) % pool_len]`. -/
def slotAdapter (pool : Nat) [NeZero pool] (idx offset : Nat) : Fin pool :=
  Fin.ofNat pool (idx + offset)

def slotSeats (pool : Nat) [NeZero pool] (ids : ExplorerIds) (drawn : Nat)
    (w : ScoredWave) : List (Seat pool) :=
  w.scored.map fun e => ⟨w.event ids drawn e, slotAdapter pool e.1 w.adapterRotationOffset⟩

def wavesDrawn (drawn : Nat) (waves : List ScoredWave) : Nat :=
  waves.foldl ScoredWave.drawnAfter drawn

/-- What is scored over the waves of a task. -/
def waveSeats (pool : Nat) [NeZero pool] (ids : ExplorerIds) :
    Nat → List ScoredWave → List (Seat pool)
  | _, [] => []
  | drawn, w :: rest => slotSeats pool ids drawn w ++ waveSeats pool ids (w.drawnAfter drawn) rest

/-- `post_run` of one task after the other. -/
def rhoRun (pool : Nat) [NeZero pool] (ids : ExplorerIds) :
    Nat → RhoEmaState → List ScoredTask → RhoEmaState
  | _, s, [] => s
  | drawn, s, task :: rest =>
      let events := (waveSeats pool ids drawn task.waves).map (·.event)
      rhoRun pool ids (wavesDrawn drawn task.waves) (postRunRho s task.pMean events).1 rest

/-! ## The updates of a pair -/

/-- An update of the state, with the adapters whose proposals it is made of. -/
structure PairUpdate (pool : Nat) where
  adapters : Sym2 (Fin pool)
  key : String × String
  product : ℚ
  deriving DecidableEq

def pairUpdate (pMean : ℚ) (a b : Seat pool) : PairUpdate pool :=
  { adapters := s(a.adapter, b.adapter)
    key := canonicalPair a.event.explorerId b.event.explorerId
    product := scoreProduct pMean a.event.score b.event.score }

def seatUpdates (pMean : ℚ) : List (Seat pool) → List (PairUpdate pool)
  | [] => []
  | a :: rest => rest.map (pairUpdate pMean a) ++ seatUpdates pMean rest

/-- The updates that the tasks make, one after the other. -/
def streamUpdates (pool : Nat) [NeZero pool] (ids : ExplorerIds) :
    Nat → List ScoredTask → List (PairUpdate pool)
  | _, [] => []
  | drawn, task :: rest =>
      seatUpdates (task.pMean.getD (7 / 10)) (waveSeats pool ids drawn task.waves) ++
        streamUpdates pool ids (wavesDrawn drawn task.waves) rest

/-- What an update does to its entry. -/
def emaUpsert : (AList fun _ : String × String => ℚ) → List ((String × String) × ℚ) →
    AList fun _ : String × String => ℚ := upsertAll rhoPrior (leaky (9 / 10))

def PairUpdate.entry (u : PairUpdate pool) : (String × String) × ℚ := (u.key, u.product)

theorem update_ema (s : RhoEmaState) (pairs : List (String × String × ℚ)) :
    (s.update pairs (1 / 10)).ema =
      emaUpsert s.ema (pairs.map fun p => (canonicalPair p.1 p.2.1, p.2.2)) := by
  unfold RhoEmaState.update emaUpsert upsertAll
  rw [List.foldl_map]
  apply List.foldl_ext
  intro ema p _
  unfold upsert leaky
  norm_num

theorem scorePairs_seats (pMean : ℚ) (seats : List (Seat pool)) :
    (scorePairs pMean ((seats.map (·.event)).map fun e => (e.explorerId, e.score))).map
        (fun p => (canonicalPair p.1 p.2.1, p.2.2)) =
      (seatUpdates pMean seats).map PairUpdate.entry := by
  induction seats with
  | nil => rfl
  | cons a rest ih =>
      rw [List.map_cons, List.map_cons, scorePairs, List.map_append, ih, seatUpdates,
        List.map_append, List.map_map, List.map_map, List.map_map, List.map_map]
      rfl

/-- `post_run` of a task folds the updates of its pairs into the state. -/
theorem postRunRho_ema (s : RhoEmaState) (pMean : Option ℚ) (seats : List (Seat pool)) :
    (postRunRho s pMean (seats.map (·.event))).1.ema =
      emaUpsert s.ema ((seatUpdates (pMean.getD (7 / 10)) seats).map PairUpdate.entry) := by
  unfold postRunRho
  dsimp only
  by_cases h : 2 ≤ ((seats.map (·.event)).map fun e => (e.explorerId, e.score)).length
  · rw [if_pos h, update_ema, scorePairs_seats]
  · rw [if_neg h]
    cases seats with
    | nil => rfl
    | cons a rest =>
        cases rest with
        | nil => rfl
        | cons b rest =>
            simp only [List.map_cons, List.length_cons] at h
            omega

theorem rhoRun_ema [NeZero pool] (ids : ExplorerIds) (tasks : List ScoredTask) (drawn : Nat)
    (s : RhoEmaState) :
    (rhoRun pool ids drawn s tasks).ema =
      emaUpsert s.ema ((streamUpdates pool ids drawn tasks).map PairUpdate.entry) := by
  induction tasks generalizing drawn s with
  | nil => rfl
  | cons task rest ih =>
      rw [rhoRun, ih, postRunRho_ema, streamUpdates, List.map_append]
      exact List.foldl_append.symm

/-! ## Ids are met once -/

/-- The seats whose ids are drawn from one number on and before another. -/
def DrawnWithin (ids : ExplorerIds) (first last : Nat) (seats : List (Seat pool)) : Prop :=
  ∀ s ∈ seats, ∃ n, first ≤ n ∧ n < last ∧ s.event.explorerId = ids.new n

def seatIds (seats : List (Seat pool)) : List String := seats.map (·.event.explorerId)

theorem seats_ids [NeZero pool] (ids : ExplorerIds) (drawn : Nat) (w : ScoredWave) :
    seatIds (slotSeats pool ids drawn w) = (w.events ids drawn).map (·.explorerId) := by
  unfold seatIds slotSeats ScoredWave.events
  rw [List.map_map, List.map_map]
  rfl

theorem seats_drawnWithin [NeZero pool] (ids : ExplorerIds) (drawn : Nat) (w : ScoredWave) :
    DrawnWithin ids drawn (w.drawnAfter drawn) (slotSeats pool ids drawn w) := by
  intro s hs
  have hid : s.event.explorerId ∈ seatIds (slotSeats pool ids drawn w) := List.mem_map_of_mem hs
  rw [seats_ids] at hid
  exact w.exists_new_of_event hid

theorem seats_nodup [NeZero pool] (ids : ExplorerIds) (drawn : Nat) (w : ScoredWave) :
    (seatIds (slotSeats pool ids drawn w)).Nodup := by
  rw [seats_ids]
  exact w.events_nodup ids drawn

theorem drawn_le_wavesDrawn (waves : List ScoredWave) (drawn : Nat) :
    drawn ≤ wavesDrawn drawn waves := by
  induction waves generalizing drawn with
  | nil => exact le_rfl
  | cons w rest ih => exact (w.drawn_le_drawnAfter drawn).trans (ih _)

theorem DrawnWithin.mono {ids : ExplorerIds} {first last first' last' : Nat}
    {seats : List (Seat pool)} (h : DrawnWithin ids first last seats) (hfirst : first' ≤ first)
    (hlast : last ≤ last') : DrawnWithin ids first' last' seats := by
  intro s hs
  obtain ⟨n, hlow, hhigh, hid⟩ := h s hs
  exact ⟨n, hfirst.trans hlow, hhigh.trans_le hlast, hid⟩

/-- Ids that are drawn at different times differ. -/
theorem DrawnWithin.disjoint {ids : ExplorerIds} {first middle last : Nat}
    {earlier later : List (Seat pool)} (h : DrawnWithin ids first middle earlier)
    (h' : DrawnWithin ids middle last later) {a b : Seat pool} (ha : a ∈ earlier)
    (hb : b ∈ later) : a.event.explorerId ≠ b.event.explorerId := by
  obtain ⟨m, _, hm, hida⟩ := h a ha
  obtain ⟨n, hn, _, hidb⟩ := h' b hb
  intro hid
  have hdrawn : m = n := ids.distinct (by rw [← hida, ← hidb, hid])
  omega

theorem waveSeats_drawnWithin [NeZero pool] (ids : ExplorerIds) (waves : List ScoredWave)
    (drawn : Nat) :
    DrawnWithin ids drawn (wavesDrawn drawn waves) (waveSeats pool ids drawn waves) := by
  induction waves generalizing drawn with
  | nil => exact fun s hs => absurd hs List.not_mem_nil
  | cons w rest ih =>
      intro s hs
      rcases List.mem_append.mp hs with hw | hrest
      · exact (seats_drawnWithin ids drawn w).mono le_rfl (drawn_le_wavesDrawn rest _) s hw
      · exact (ih _).mono (w.drawn_le_drawnAfter drawn) le_rfl s hrest

/-- No explorer is scored twice in a task. -/
theorem waveSeats_nodup [NeZero pool] (ids : ExplorerIds) (waves : List ScoredWave)
    (drawn : Nat) : (seatIds (waveSeats pool ids drawn waves)).Nodup := by
  induction waves generalizing drawn with
  | nil => exact List.nodup_nil
  | cons w rest ih =>
      rw [waveSeats, seatIds, List.map_append]
      apply (seats_nodup ids drawn w).append (ih _)
      intro id hw hrest
      obtain ⟨a, ha, rfl⟩ := List.mem_map.mp hw
      obtain ⟨b, hb, hid⟩ := List.mem_map.mp hrest
      exact (seats_drawnWithin ids drawn w).disjoint (waveSeats_drawnWithin ids rest _) ha hb
        hid.symm

theorem mem_seatUpdates {pMean : ℚ} {seats : List (Seat pool)} {u : PairUpdate pool}
    (h : u ∈ seatUpdates pMean seats) : ∃ a ∈ seats, ∃ b ∈ seats, u = pairUpdate pMean a b := by
  induction seats with
  | nil => cases h
  | cons a rest ih =>
      rcases List.mem_append.mp h with hfirst | hrest
      · obtain ⟨b, hb, rfl⟩ := List.mem_map.mp hfirst
        exact ⟨a, List.mem_cons_self, b, List.mem_cons_of_mem a hb, rfl⟩
      · obtain ⟨b, hb, c, hc, rfl⟩ := ih hrest
        exact ⟨b, List.mem_cons_of_mem a hb, c, List.mem_cons_of_mem a hc, rfl⟩

theorem pairUpdate_key_eq_iff {pMean pMean' : ℚ} {a b c d : Seat pool} :
    (pairUpdate pMean a b).key = (pairUpdate pMean' c d).key ↔
      s(a.event.explorerId, b.event.explorerId) = s(c.event.explorerId, d.event.explorerId) :=
  canonicalPair_eq_iff

/-- Different explorers have different keys for every two of them. -/
theorem seatUpdates_nodup {pMean : ℚ} {seats : List (Seat pool)} (nodup : (seatIds seats).Nodup) :
    ((seatUpdates pMean seats).map (·.key)).Nodup := by
  induction seats with
  | nil => exact List.nodup_nil
  | cons a rest ih =>
      rw [seatIds, List.map_cons, List.nodup_cons] at nodup
      obtain ⟨hfresh, hrest⟩ := nodup
      have hne : ∀ b ∈ rest, a.event.explorerId ≠ b.event.explorerId := by
        intro b hb heq
        exact hfresh (List.mem_map.mpr ⟨b, hb, heq.symm⟩)
      rw [seatUpdates, List.map_append]
      refine List.Nodup.append ?_ (ih hrest) ?_
      · have hkeys : ((rest.map (pairUpdate pMean a)).map (·.key)) =
            (seatIds rest).map (canonicalPair a.event.explorerId) := by
          rw [seatIds, List.map_map, List.map_map]
          rfl
        rw [hkeys]
        apply hrest.map
        intro x y hxy
        exact Sym2.congr_right.mp (canonicalPair_eq_iff.mp hxy)
      · intro key hfirst hother
        obtain ⟨u, hu, rfl⟩ := List.mem_map.mp hfirst
        obtain ⟨b, _, rfl⟩ := List.mem_map.mp hu
        obtain ⟨v, hv, hkey⟩ := List.mem_map.mp hother
        obtain ⟨c, hc, d, hd, rfl⟩ := mem_seatUpdates hv
        have hmem : a.event.explorerId ∈ s(c.event.explorerId, d.event.explorerId) := by
          rw [pairUpdate_key_eq_iff.mp hkey]
          exact Sym2.mem_mk_left _ _
        rcases Sym2.mem_iff.mp hmem with h | h
        · exact hne c hc h
        · exact hne d hd h

theorem tasks_drawnWithin [NeZero pool] {ids : ExplorerIds} {tasks : List ScoredTask}
    {drawn : Nat} {u : PairUpdate pool} (h : u ∈ streamUpdates pool ids drawn tasks) :
    ∃ pMean, ∃ a b : Seat pool, u = pairUpdate pMean a b ∧
      ∃ n, drawn ≤ n ∧ a.event.explorerId = ids.new n := by
  induction tasks generalizing drawn with
  | nil => cases h
  | cons task rest ih =>
      rcases List.mem_append.mp h with htask | hrest
      · obtain ⟨a, ha, b, _, rfl⟩ := mem_seatUpdates htask
        obtain ⟨n, hn, _, hid⟩ := waveSeats_drawnWithin ids task.waves drawn a ha
        exact ⟨_, a, b, rfl, n, hn, hid⟩
      · obtain ⟨pMean, a, b, rfl, n, hn, hid⟩ := ih hrest
        exact ⟨pMean, a, b, rfl, n, (drawn_le_wavesDrawn task.waves drawn).trans hn, hid⟩

/-- Over all tasks no key is met twice. -/
theorem streamUpdates_nodup [NeZero pool] (ids : ExplorerIds) (tasks : List ScoredTask)
    (drawn : Nat) : ((streamUpdates pool ids drawn tasks).map (·.key)).Nodup := by
  induction tasks generalizing drawn with
  | nil => exact List.nodup_nil
  | cons task rest ih =>
      rw [streamUpdates, List.map_append]
      refine (seatUpdates_nodup (waveSeats_nodup ids task.waves drawn)).append (ih _) ?_
      intro key htask hrest
      obtain ⟨u, hu, rfl⟩ := List.mem_map.mp htask
      obtain ⟨c, hc, d, hd, rfl⟩ := mem_seatUpdates hu
      obtain ⟨v, hv, hkey⟩ := List.mem_map.mp hrest
      obtain ⟨pMean, a, b, rfl, n, hn, hid⟩ := tasks_drawnWithin hv
      have hmem : a.event.explorerId ∈ s(c.event.explorerId, d.event.explorerId) := by
        rw [← pairUpdate_key_eq_iff.mp hkey]
        exact Sym2.mem_mk_left _ _
      have hearlier : ∀ s ∈ waveSeats pool ids drawn task.waves,
          a.event.explorerId ≠ s.event.explorerId := by
        intro s hs heq
        obtain ⟨m, _, hm, hids⟩ := waveSeats_drawnWithin ids task.waves drawn s hs
        have hdrawn : n = m := ids.distinct (by rw [← hid, ← hids, heq])
        omega
      rcases Sym2.mem_iff.mp hmem with h | h
      · exact hearlier c hc h
      · exact hearlier d hd h

/-! ## The number of updates -/

/-- The proposals that are scored in a task. -/
def ScoredTask.scoredCount (task : ScoredTask) : Nat := (task.waves.map (·.scored.length)).sum

theorem waveSeats_length [NeZero pool] (ids : ExplorerIds) (waves : List ScoredWave)
    (drawn : Nat) :
    (waveSeats pool ids drawn waves).length = (waves.map (·.scored.length)).sum := by
  induction waves generalizing drawn with
  | nil => rfl
  | cons w rest ih =>
      rw [waveSeats, List.length_append, ih, List.map_cons, List.sum_cons, slotSeats,
        List.length_map]

theorem seatUpdates_length (pMean : ℚ) (seats : List (Seat pool)) :
    (seatUpdates pMean seats).length = seats.length.choose 2 := by
  induction seats with
  | nil => rfl
  | cons a rest ih =>
      rw [seatUpdates, List.length_append, List.length_map, ih, List.length_cons,
        Nat.choose_succ_succ' rest.length 1, Nat.choose_one_right]

/-- Every two proposals that are scored in one task make an update. -/
theorem streamUpdates_length [NeZero pool] (ids : ExplorerIds) (tasks : List ScoredTask)
    (drawn : Nat) :
    (streamUpdates pool ids drawn tasks).length =
      (tasks.map fun task => task.scoredCount.choose 2).sum := by
  induction tasks generalizing drawn with
  | nil => rfl
  | cons task rest ih =>
      rw [streamUpdates, List.length_append, seatUpdates_length, waveSeats_length, ih]
      rfl

end ControlPlane.Source.Tasks
