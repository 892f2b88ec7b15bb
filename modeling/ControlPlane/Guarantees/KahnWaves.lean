import ControlPlane.Lib.Layers
import ControlPlane.Lib.Sequences
import ControlPlane.Source.Planning.Compound
import Mathlib.Data.Fintype.EquivFin

/-!
# Waves are the layers of the dependency relation

The loop of `topo_waves` keeps this invariant at the start of round `w`: the degree
of a subtask counts its dependencies that are not settled within `w` rounds, and the
ready subtasks are those of layer `w`. It follows that no decrement underflows, that
the waves are the layers, and that all subtasks are visited exactly when every
dependency is named and there is no cycle.
-/
namespace ControlPlane.Guarantees.KahnWaves

open Lib Source.Planning

/-! ## Ids and indices -/

section Index

variable {subtasks : List Subtask}

theorem idToIdx_some {id : SubtaskId} {i : Fin subtasks.length}
    (h : idToIdx subtasks id = some i) : (subtasks.get i).id = id := by
  have hfound := List.find?_some h
  simpa using hfound

theorem idToIdx_isSome_iff (id : SubtaskId) :
    (idToIdx subtasks id).isSome ↔ ∃ s ∈ subtasks, s.id = id := by
  unfold idToIdx
  rw [List.find?_isSome]
  constructor
  · rintro ⟨i, -, hi⟩
    exact ⟨subtasks.get i, List.get_mem _ _, by simpa using hi⟩
  · rintro ⟨s, hs, hid⟩
    obtain ⟨i, rfl⟩ := List.mem_iff_get.mp hs
    exact ⟨i, by simp, by simpa using hid⟩

/-- With distinct ids the map is the inverse of reading an id. -/
theorem idToIdx_eq_some_iff (distinct : (subtasks.map (·.id)).Nodup) (id : SubtaskId)
    (i : Fin subtasks.length) : idToIdx subtasks id = some i ↔ (subtasks.get i).id = id := by
  constructor
  · exact idToIdx_some
  · intro hid
    obtain ⟨j, hj⟩ := Option.isSome_iff_exists.mp
      ((idToIdx_isSome_iff id).mpr ⟨subtasks.get i, List.get_mem _ _, hid⟩)
    have hids : (subtasks.get j).id = (subtasks.get i).id := (idToIdx_some hj).trans hid.symm
    have hsame : (subtasks.map (·.id)).get (j.cast (by simp)) =
        (subtasks.map (·.id)).get (i.cast (by simp)) := by
      simpa using hids
    have hindex := distinct.get_inj_iff.mp hsame
    rw [hj, Option.some.injEq]
    exact Fin.ext (by simpa [Fin.ext_iff] using hindex)

end Index

/-! ## Edges -/

section Edges

variable (subtasks : List Subtask)

/-- Every dependency of the subtask is a subtask of the list. -/
def Resolved (i : Fin subtasks.length) : Prop :=
  ∀ d ∈ (subtasks.get i).dependsOn, (idToIdx subtasks d).isSome

def Edge (i j : Fin subtasks.length) : Prop :=
  ∃ d ∈ (subtasks.get i).dependsOn, idToIdx subtasks d = some j

/-- How often the subtask at `i` names the one at `idx`. -/
def edgeCount (i idx : Fin subtasks.length) : Nat :=
  (subtasks.get i).dependsOn.countP fun d => decide (idToIdx subtasks d = some idx)

theorem count_foldl_pushEdge (i v idx : Fin subtasks.length) (deps : List SubtaskId)
    (adj : Fin subtasks.length → List (Fin subtasks.length)) :
    ((deps.foldl (pushEdge subtasks i) adj) idx).count v =
      (adj idx).count v + if v = i then
        deps.countP fun d => decide (idToIdx subtasks d = some idx) else 0 := by
  induction deps generalizing adj with
  | nil => simp
  | cons d rest ih =>
      rw [List.foldl_cons, ih, List.countP_cons]
      cases hidx : idToIdx subtasks d with
      | none => simp [pushEdge, hidx]
      | some depIdx =>
          by_cases hsame : idx = depIdx
          · subst hsame
            by_cases hv : v = i
            · subst hv
              simp [pushEdge, hidx]
              omega
            · simp [pushEdge, hidx, hv, Ne.symm hv]
          · simp [pushEdge, hidx, hsame, Ne.symm hsame]

theorem count_adjacency (v idx : Fin subtasks.length) :
    (adjacency subtasks idx).count v = edgeCount subtasks v idx := by
  have hfold : ∀ (indices : List (Fin subtasks.length))
      (adj : Fin subtasks.length → List (Fin subtasks.length)),
      ((indices.foldl (fun adj i => (subtasks.get i).dependsOn.foldl (pushEdge subtasks i) adj)
        adj) idx).count v = (adj idx).count v + indices.count v * edgeCount subtasks v idx := by
    intro indices
    induction indices with
    | nil => simp
    | cons i rest ih =>
        intro adj
        rw [List.foldl_cons, ih, count_foldl_pushEdge, List.count_cons]
        by_cases hv : v = i
        · subst hv
          simp only [↓reduceIte, BEq.rfl, edgeCount, Nat.add_mul, Nat.one_mul]
          omega
        · simp [hv, Ne.symm hv]
  rw [adjacency, hfold]
  have hone : (List.finRange subtasks.length).count v = 1 :=
    List.count_eq_one_of_mem (List.nodup_finRange _) (List.mem_finRange v)
  simp [hone]

end Edges

/-! ## One round of decrements -/

section Release

variable {n : Nat}

/-- What is ready is listed once and has no open dependency. -/
structure ReadyOnce (state : WaveState n) : Prop where
  nodup : state.ready.Nodup
  zero : ∀ i ∈ state.ready, state.inDegree i = 0

theorem release_step {state : WaveState n} (once : ReadyOnce state) {target : Fin n}
    (hpos : 0 < state.inDegree target) :
    ∃ next, release state target = some next ∧ ReadyOnce next ∧
      (∀ i, next.inDegree i + (if i = target then 1 else 0) = state.inDegree i) ∧
      ∀ i, i ∈ next.ready ↔ i ∈ state.ready ∨ (i = target ∧ next.inDegree i = 0) := by
  obtain ⟨k, hk⟩ : ∃ k, state.inDegree target = k + 1 := ⟨state.inDegree target - 1, by omega⟩
  have hfresh : target ∉ state.ready := by
    intro hmem
    have := once.zero target hmem
    omega
  have hdegree : ∀ i, Function.update state.inDegree target k i +
      (if i = target then 1 else 0) = state.inDegree i := by
    intro i
    by_cases hsame : i = target
    · subst hsame
      simp [hk]
    · simp [hsame]
  refine ⟨⟨Function.update state.inDegree target k,
    if k = 0 then state.ready ++ [target] else state.ready⟩, by simp only [release, hk],
    ⟨?_, ?_⟩, hdegree, ?_⟩
  · by_cases hzero : k = 0
    · simp only [hzero, ↓reduceIte]
      exact once.nodup.append (List.nodup_singleton target) (List.disjoint_singleton.mpr hfresh)
    · simpa [hzero] using once.nodup
  · intro i hi
    have hsplit := hdegree i
    by_cases hsame : i = target
    · subst hsame
      by_cases hzero : k = 0
      · simp [hzero]
      · simp only [hzero, ↓reduceIte] at hi
        exact absurd hi hfresh
    · have hin : i ∈ state.ready := by
        by_cases hzero : k = 0
        · simpa [hzero, hsame] using hi
        · simpa [hzero] using hi
      have := once.zero i hin
      simp only
      omega
  · intro i
    by_cases hsame : i = target
    · subst hsame
      by_cases hzero : k = 0
      · simp [hzero]
      · simp [hzero]
    · by_cases hzero : k = 0
      · simp [hzero, hsame]
      · simp [hzero, hsame]

/-- Decrements within the degrees never underflow; what reaches zero becomes ready. -/
theorem release_all (targets : List (Fin n)) {state : WaveState n} (once : ReadyOnce state)
    (hcount : ∀ i, targets.count i ≤ state.inDegree i) :
    ∃ next, targets.foldlM release state = some next ∧ ReadyOnce next ∧
      (∀ i, next.inDegree i + targets.count i = state.inDegree i) ∧
      ∀ i, i ∈ next.ready ↔ i ∈ state.ready ∨ (i ∈ targets ∧ next.inDegree i = 0) := by
  induction targets generalizing state with
  | nil => exact ⟨state, rfl, once, by simp, by simp⟩
  | cons target rest ih =>
      have hcons : ∀ i, (target :: rest).count i = rest.count i + if i = target then 1 else 0 := by
        intro i
        rw [List.count_cons]
        congr 1
        by_cases hsame : i = target
        · simp [hsame]
        · simp [hsame, Ne.symm hsame]
      have hpos : 0 < state.inDegree target := by
        have := hcount target
        rw [hcons] at this
        simp only [↓reduceIte] at this
        omega
      obtain ⟨mid, hmid, hmidOnce, hmidDegree, hmidReady⟩ := release_step once hpos
      have hrest : ∀ i, rest.count i ≤ mid.inDegree i := by
        intro i
        have h1 := hcount i
        have h2 := hmidDegree i
        rw [hcons] at h1
        omega
      obtain ⟨next, hnext, hnextOnce, hdegree, hready⟩ := ih hmidOnce hrest
      refine ⟨next, ?_, hnextOnce, ?_, ?_⟩
      · rw [List.foldlM_cons, hmid]
        exact hnext
      · intro i
        have h1 := hdegree i
        have h2 := hmidDegree i
        rw [hcons]
        omega
      · intro i
        have h1 := hdegree i
        rw [hready, hmidReady, List.mem_cons]
        by_cases hin : i ∈ rest
        · have hle : mid.inDegree i = 0 → next.inDegree i = 0 := by omega
          constructor
          · rintro ((hold | ⟨rfl, hzero⟩) | ⟨-, hzero⟩)
            · exact .inl hold
            · exact .inr ⟨.inl rfl, hle hzero⟩
            · exact .inr ⟨.inr hin, hzero⟩
          · rintro (hold | ⟨-, hzero⟩)
            · exact .inl (.inl hold)
            · exact .inr ⟨hin, hzero⟩
        · have hnone := List.count_eq_zero_of_not_mem hin
          have heq : next.inDegree i = mid.inDegree i := by omega
          simp [hin, heq]

theorem releaseWave_eq (adj : Fin n → List (Fin n)) (waveIndices : List (Fin n))
    (state : WaveState n) :
    releaseWave adj waveIndices state = (waveIndices.flatMap adj).foldlM release state := by
  unfold releaseWave
  induction waveIndices generalizing state with
  | nil => rfl
  | cons idx rest ih =>
      rw [List.foldlM_cons, List.flatMap_cons, List.foldlM_append]
      congr 1
      funext next
      exact ih next

end Release

/-! ## The rounds of the loop -/

section Rounds

variable (subtasks : List Subtask)

/-- The entries of `depends_on` that are not among the indices done. -/
def pending (done : List (Fin subtasks.length)) (i : Fin subtasks.length) : Nat :=
  (subtasks.get i).dependsOn.countP fun d => !(idToIdx subtasks d).any (decide <| · ∈ done)

theorem pending_nil (i : Fin subtasks.length) :
    pending subtasks [] i = (subtasks.get i).dependsOn.length := by
  unfold pending
  rw [List.countP_eq_length]
  intro d _
  cases idToIdx subtasks d with
  | none => rfl
  | some j => simp

theorem pending_eq_zero_iff (done : List (Fin subtasks.length)) (i : Fin subtasks.length) :
    pending subtasks done i = 0 ↔
      Resolved subtasks i ∧ ∀ j, Edge subtasks i j → j ∈ done := by
  unfold pending
  rw [List.countP_eq_zero]
  constructor
  · intro hall
    refine ⟨?_, ?_⟩
    · intro d hd
      have hdone := hall d hd
      cases hidx : idToIdx subtasks d with
      | none => simp [hidx] at hdone
      | some j => rfl
    · rintro j ⟨d, hd, hidx⟩
      simpa [hidx] using hall d hd
  · rintro ⟨hresolved, hdone⟩ d hd
    obtain ⟨j, hidx⟩ := Option.isSome_iff_exists.mp (hresolved d hd)
    simpa [hidx] using hdone j ⟨d, hd, hidx⟩

/-- Doing one more index closes the entries that name it. -/
theorem pending_append_singleton {done : List (Fin subtasks.length)}
    {idx : Fin subtasks.length} (hnew : idx ∉ done) (i : Fin subtasks.length) :
    pending subtasks (done ++ [idx]) i + edgeCount subtasks i idx = pending subtasks done i := by
  unfold pending edgeCount
  induction (subtasks.get i).dependsOn with
  | nil => rfl
  | cons d rest ih =>
      have hd : (if !(idToIdx subtasks d).any (decide <| · ∈ done ++ [idx]) then 1 else 0) +
          (if decide (idToIdx subtasks d = some idx) then 1 else 0) =
          if !(idToIdx subtasks d).any (decide <| · ∈ done) then 1 else 0 := by
        cases hidx : idToIdx subtasks d with
        | none => simp
        | some j =>
            by_cases hsame : j = idx
            · subst hsame
              simp [hnew]
            · simp [hsame]
      simp only [List.countP_cons]
      omega

/-- Doing a whole wave closes as many entries as the wave makes decrements. -/
theorem pending_append (wave : List (Fin subtasks.length)) {done : List (Fin subtasks.length)}
    (hnodup : (done ++ wave).Nodup) (i : Fin subtasks.length) :
    pending subtasks (done ++ wave) i + (wave.flatMap (adjacency subtasks)).count i =
      pending subtasks done i := by
  induction wave generalizing done with
  | nil => simp
  | cons idx rest ih =>
      have hnew : idx ∉ done := by
        intro hmem
        exact (List.nodup_append.mp hnodup).2.2 idx hmem idx List.mem_cons_self rfl
      rw [List.append_cons] at hnodup ⊢
      have hrest := ih hnodup
      have hfirst := pending_append_singleton subtasks hnew i
      rw [List.flatMap_cons, List.count_append, count_adjacency]
      omega

/-- At the start of round `w` the indices of the waves so far are those settled within
`w` rounds, the degrees count open dependencies, and the ready ones are layer `w`. -/
structure RoundInv (w : Nat) (levels : List (List (Fin subtasks.length)))
    (state : WaveState subtasks.length) : Prop where
  length : levels.length = w
  nodup : levels.flatten.Nodup
  done : ∀ i, i ∈ levels.flatten ↔ Settled (Resolved subtasks) (Edge subtasks) w i
  level : ∀ v level, levels[v]? = some level → ∀ i, i ∈ level ↔
    Settled (Resolved subtasks) (Edge subtasks) (v + 1) i ∧
      ¬ Settled (Resolved subtasks) (Edge subtasks) v i
  degree : ∀ i, state.inDegree i = pending subtasks levels.flatten i
  ready : ∀ i, i ∈ state.ready ↔ Settled (Resolved subtasks) (Edge subtasks) (w + 1) i ∧
    ¬ Settled (Resolved subtasks) (Edge subtasks) w i
  once : state.ready.Nodup

variable {subtasks} {w : Nat} {levels : List (List (Fin subtasks.length))}
  {state : WaveState subtasks.length}

/-- A subtask has no open dependency exactly when the next round settles it. -/
theorem pending_eq_zero_iff_settled (done : List (Fin subtasks.length))
    (hdone : ∀ i, i ∈ done ↔ Settled (Resolved subtasks) (Edge subtasks) w i)
    (i : Fin subtasks.length) :
    pending subtasks done i = 0 ↔
      Settled (Resolved subtasks) (Edge subtasks) (w + 1) i := by
  rw [pending_eq_zero_iff]
  simp only [hdone]
  rfl

theorem firstState_inv (subtasks : List Subtask) :
    RoundInv subtasks 0 [] (firstState subtasks) where
  length := rfl
  nodup := List.nodup_nil
  done := by simp [Settled]
  level := by simp
  degree := by
    intro i
    exact (pending_nil subtasks i).symm
  ready := by
    intro i
    have hzero := pending_eq_zero_iff_settled (w := 0) [] (by simp [Settled]) i
    rw [pending_nil] at hzero
    simp only [firstState, List.mem_filter, List.mem_finRange, true_and, decide_eq_true_eq]
    rw [hzero]
    simp [Settled]
  once := (List.nodup_finRange _).filter _

theorem RoundInv.nodup_next (inv : RoundInv subtasks w levels state) :
    (levels.flatten ++ state.ready).Nodup := by
  refine inv.nodup.append inv.once ?_
  intro i hdone hready
  exact ((inv.ready i).mp hready).2 ((inv.done i).mp hdone)

/-- One round: no decrement underflows, and the invariant holds of the next round. -/
theorem RoundInv.step (inv : RoundInv subtasks w levels state) :
    ∃ next, releaseWave (adjacency subtasks) state.ready ⟨state.inDegree, []⟩ = some next ∧
      RoundInv subtasks (w + 1) (levels ++ [state.ready]) next := by
  have hpending := pending_append subtasks state.ready inv.nodup_next
  have honce : ReadyOnce (⟨state.inDegree, []⟩ : WaveState subtasks.length) :=
    ⟨List.nodup_nil, by simp⟩
  have hcount : ∀ i, (state.ready.flatMap (adjacency subtasks)).count i ≤ state.inDegree i := by
    intro i
    have h1 := hpending i
    have h2 := inv.degree i
    omega
  obtain ⟨next, hnext, hnextOnce, hdegree, hready⟩ := release_all _ honce hcount
  rw [← releaseWave_eq] at hnext
  have hflatten : (levels ++ [state.ready]).flatten = levels.flatten ++ state.ready := by simp
  have hnextDegree : ∀ i, next.inDegree i =
      pending subtasks (levels ++ [state.ready]).flatten i := by
    intro i
    have h1 := hpending i
    have h2 := inv.degree i
    have h3 := hdegree i
    rw [hflatten]
    simp only at h3
    omega
  have hdone : ∀ i, i ∈ (levels ++ [state.ready]).flatten ↔
      Settled (Resolved subtasks) (Edge subtasks) (w + 1) i := by
    intro i
    rw [hflatten, List.mem_append, inv.done, inv.ready]
    by_cases hold : Settled (Resolved subtasks) (Edge subtasks) w i
    · simp [hold, hold.succ]
    · simp [hold]
  refine ⟨next, hnext, ?_, ?_, hdone, ?_, hnextDegree, ?_, hnextOnce.nodup⟩
  · simp [inv.length]
  · rw [hflatten]
    exact inv.nodup_next
  · intro v level hlevel
    rcases getElem?_concat_cases hlevel with hold | ⟨hv, rfl⟩
    · exact inv.level v level hold
    · rw [inv.length] at hv
      subst hv
      exact inv.ready
  · intro i
    rw [hready]
    simp only [List.not_mem_nil, false_or]
    rw [← pending_eq_zero_iff_settled _ hdone, ← pending_eq_zero_iff_settled _ inv.done,
      ← hnextDegree, ← inv.degree, ← List.count_pos_iff]
    have h3 := hdegree i
    simp only at h3
    omega

/-- The ids of a layer. -/
def idsOf (subtasks : List Subtask) (level : List (Fin subtasks.length)) : List SubtaskId :=
  level.map fun i => (subtasks.get i).id

theorem RoundInv.visited_le (inv : RoundInv subtasks w levels state) :
    levels.flatten.length ≤ subtasks.length := by
  have hle := inv.nodup.length_le_card
  simpa using hle

/-- From any round the loop ends at a stable one; every wave visits a subtask, so there
are at most as many rounds as subtasks. -/
theorem RoundInv.loop (fuel : Nat) (inv : RoundInv subtasks w levels state)
    (hfuel : subtasks.length < levels.flatten.length + fuel) :
    ∃ last levels' final, RoundInv subtasks last levels' final ∧ final.ready = [] ∧
      waveLoop subtasks (adjacency subtasks) fuel state levels.flatten.length
          (levels.map (idsOf subtasks)) =
        some (levels'.flatten.length, levels'.map (idsOf subtasks)) := by
  induction fuel generalizing w levels state with
  | zero =>
      have := inv.visited_le
      omega
  | succ fuel ih =>
      by_cases hempty : state.ready.isEmpty
      · refine ⟨w, levels, state, inv, List.isEmpty_iff.mp hempty, ?_⟩
        simp only [waveLoop, hempty, ↓reduceIte]
      · obtain ⟨next, hnext, hinv⟩ := inv.step
        have hpos : 0 < state.ready.length := by
          rw [List.isEmpty_iff_length_eq_zero] at hempty
          omega
        have hlength : (levels ++ [state.ready]).flatten.length =
            levels.flatten.length + state.ready.length := by simp
        obtain ⟨last, levels', final, hlast, hready, hloop⟩ := ih hinv (by omega)
        refine ⟨last, levels', final, hlast, hready, ?_⟩
        rw [hlength, List.map_append] at hloop
        simp only [waveLoop, hempty, Bool.false_eq_true, ↓reduceIte, hnext, Option.bind_some]
        exact hloop

/-- A result does not depend on the fuel. -/
theorem waveLoop_more_fuel {adj : Fin subtasks.length → List (Fin subtasks.length)}
    {fuel more : Nat} (hle : fuel ≤ more) {visited : Nat} {waves : List (List SubtaskId)}
    {result : Nat × List (List SubtaskId)}
    (h : waveLoop subtasks adj fuel state visited waves = some result) :
    waveLoop subtasks adj more state visited waves = some result := by
  induction fuel generalizing more state visited waves with
  | zero => cases h
  | succ fuel ih =>
      obtain ⟨more, rfl⟩ : ∃ m, more = m + 1 := ⟨more - 1, by omega⟩
      by_cases hempty : state.ready.isEmpty
      · simp only [waveLoop, hempty, ↓reduceIte] at h ⊢
        exact h
      · simp only [waveLoop, hempty, Bool.false_eq_true, ↓reduceIte] at h ⊢
        cases hstep : releaseWave adj state.ready ⟨state.inDegree, []⟩ with
        | none =>
            rw [hstep] at h
            cases h
        | some next =>
            rw [hstep] at h
            exact ih (by omega) h

theorem RoundInv.stable (inv : RoundInv subtasks w levels state) (hready : state.ready = [])
    (i : Fin subtasks.length) (h : Settled (Resolved subtasks) (Edge subtasks) (w + 1) i) :
    Settled (Resolved subtasks) (Edge subtasks) w i := by
  by_contra hnew
  have hmem := (inv.ready i).mpr ⟨h, hnew⟩
  rw [hready] at hmem
  cases hmem

/-- All subtasks are visited exactly when all are settled. -/
theorem RoundInv.visited_eq_iff (inv : RoundInv subtasks w levels state) :
    levels.flatten.length = subtasks.length ↔
      ∀ i, Settled (Resolved subtasks) (Edge subtasks) w i := by
  have hcard := List.toFinset_card_of_nodup inv.nodup
  constructor
  · intro hall i
    have huniv : levels.flatten.toFinset = Finset.univ := by
      apply Finset.eq_univ_of_card
      rw [hcard, hall, Fintype.card_fin]
    have hmem : i ∈ levels.flatten.toFinset := huniv ▸ Finset.mem_univ i
    exact (inv.done i).mp (List.mem_toFinset.mp hmem)
  · intro hall
    have huniv : levels.flatten.toFinset = Finset.univ := by
      ext i
      simpa using (inv.done i).mpr (hall i)
    rw [← hcard, huniv, Finset.card_univ, Fintype.card_fin]

/-- `topo_waves` returns for all fuel beyond the number of subtasks: the layers, if
every dependency is in the list and no cycle is there. -/
theorem topoWaves_result (subtasks : List Subtask) :
    ∃ last levels final, RoundInv subtasks last levels final ∧ final.ready = [] ∧
      ∀ fuel, subtasks.length < fuel → topoWaves fuel subtasks =
        some (if levels.flatten.length ≠ subtasks.length then .error .cyclicDependency
          else .ok (levels.map (idsOf subtasks))) := by
  obtain ⟨last, levels, final, inv, hready, hloop⟩ :=
    (firstState_inv subtasks).loop (subtasks.length + 1) (by simp)
  refine ⟨last, levels, final, inv, hready, ?_⟩
  intro fuel hfuel
  have hmore := waveLoop_more_fuel (by omega : subtasks.length + 1 ≤ fuel) hloop
  simp only [List.flatten_nil, List.length_nil, List.map_nil] at hmore
  rw [topoWaves, hmore]
  rfl

end Rounds

/-! ## Waves and ids -/

section Ids

variable (subtasks : List Subtask)

def DependsOn (a b : SubtaskId) : Prop := ∃ s ∈ subtasks, s.id = a ∧ b ∈ s.dependsOn

/-- Every id of a `depends_on` names a subtask of the list. -/
def AllNamed : Prop := ∀ s ∈ subtasks, ∀ d ∈ s.dependsOn, ∃ t ∈ subtasks, t.id = d

theorem allNamed_iff : AllNamed subtasks ↔ ∀ i, Resolved subtasks i := by
  constructor
  · intro named i d hd
    exact (idToIdx_isSome_iff d).mpr (named _ (List.get_mem _ _) d hd)
  · intro resolved s hs d hd
    obtain ⟨i, rfl⟩ := List.mem_iff_get.mp hs
    exact (idToIdx_isSome_iff d).mp (resolved i d hd)

variable {subtasks} (distinct : (subtasks.map (·.id)).Nodup)

include distinct

theorem id_injective {i j : Fin subtasks.length} (h : (subtasks.get i).id = (subtasks.get j).id) :
    i = j := by
  have hi := (idToIdx_eq_some_iff distinct _ i).mpr h
  have hj := (idToIdx_eq_some_iff distinct _ j).mpr rfl
  rw [hj, Option.some.injEq] at hi
  exact hi.symm

theorem edge_iff (i j : Fin subtasks.length) :
    Edge subtasks i j ↔ DependsOn subtasks (subtasks.get i).id (subtasks.get j).id := by
  constructor
  · rintro ⟨d, hd, hidx⟩
    rw [idToIdx_some hidx]
    exact ⟨subtasks.get i, List.get_mem _ _, rfl, hd⟩
  · rintro ⟨s, hs, hid, hdep⟩
    obtain ⟨k, rfl⟩ := List.mem_iff_get.mp hs
    have hk := id_injective distinct hid
    subst hk
    exact ⟨_, hdep, (idToIdx_eq_some_iff distinct _ j).mpr rfl⟩

theorem acyclic_edge_iff : Acyclic (Edge subtasks) ↔ Acyclic (DependsOn subtasks) := by
  refine acyclic_iff_of_renaming (fun i => (subtasks.get i).id) (edge_iff distinct) ?_
  rintro a b ⟨s, hs, rfl, -⟩
  obtain ⟨i, rfl⟩ := List.mem_iff_get.mp hs
  exact ⟨i, rfl⟩

theorem chain_edge_iff (named : AllNamed subtasks) (k : Nat) (i : Fin subtasks.length) :
    Chain (Edge subtasks) k i ↔ Chain (DependsOn subtasks) k (subtasks.get i).id := by
  refine chain_iff_of_renaming (fun i => (subtasks.get i).id) (edge_iff distinct) ?_ k i
  rintro a b ⟨s, hs, rfl, hb⟩
  obtain ⟨t, ht, rfl⟩ := named s hs b hb
  obtain ⟨j, rfl⟩ := List.mem_iff_get.mp ht
  exact ⟨j, rfl⟩

end Ids

section Waves

variable {subtasks : List Subtask} {w : Nat} {levels : List (List (Fin subtasks.length))}
  {state : WaveState subtasks.length}

/-- The loop has visited all subtasks exactly when all can be scheduled. -/
theorem RoundInv.complete_iff (inv : RoundInv subtasks w levels state)
    (hready : state.ready = []) (distinct : (subtasks.map (·.id)).Nodup) :
    levels.flatten.length = subtasks.length ↔
      AllNamed subtasks ∧ Acyclic (DependsOn subtasks) := by
  rw [inv.visited_eq_iff, all_settled_iff (inv.stable hready), allNamed_iff,
    acyclic_edge_iff distinct]

/-- Whatever is settled within the rounds so far stands in one of the earlier waves. -/
theorem RoundInv.settled_level (inv : RoundInv subtasks w levels state) {v : Nat} (hv : v ≤ w)
    {i : Fin subtasks.length} (h : Settled (Resolved subtasks) (Edge subtasks) v i) :
    ∃ u < v, ∃ level, levels[u]? = some level ∧ i ∈ level := by
  induction v with
  | zero => exact h.elim
  | succ v ih =>
      by_cases hearlier : Settled (Resolved subtasks) (Edge subtasks) v i
      · obtain ⟨u, hu, hlevel⟩ := ih (by omega) hearlier
        exact ⟨u, by omega, hlevel⟩
      · have hlength := inv.length
        have hget := List.getElem?_eq_getElem (by omega : v < levels.length)
        exact ⟨v, by omega, levels[v], hget, (inv.level v _ hget i).mpr ⟨h, hearlier⟩⟩

/-- A dependency stands in an earlier wave, and the wave is as late as the longest chain. -/
theorem RoundInv.wave_spec (inv : RoundInv subtasks w levels state)
    (distinct : (subtasks.map (·.id)).Nodup) (named : AllNamed subtasks) {v : Nat}
    {level : List (Fin subtasks.length)} (hlevel : levels[v]? = some level)
    {i : Fin subtasks.length} (hi : i ∈ level) :
    (∀ d ∈ (subtasks.get i).dependsOn, ∃ u < v, ∃ earlier,
        (levels.map (idsOf subtasks))[u]? = some earlier ∧ d ∈ earlier) ∧
      Chain (DependsOn subtasks) v (subtasks.get i).id ∧
      ∀ k, Chain (DependsOn subtasks) k (subtasks.get i).id → k ≤ v := by
  obtain ⟨hsettled, hfirst⟩ := (inv.level v level hlevel i).mp hi
  refine ⟨?_, ?_⟩
  · intro d hd
    obtain ⟨j, hj⟩ := Option.isSome_iff_exists.mp (hsettled.1 d hd)
    have hv : v ≤ w := by
      have hlength := inv.length
      have := (List.getElem?_eq_some_iff.mp hlevel).1
      omega
    obtain ⟨u, hu, earlier, hearlier, hmem⟩ := inv.settled_level hv (hsettled.2 j ⟨d, hd, hj⟩)
    refine ⟨u, hu, idsOf subtasks earlier, by simp [hearlier], ?_⟩
    rw [← idToIdx_some hj]
    exact List.mem_map_of_mem hmem
  · have hlongest := longest_chain_of_layer ((allNamed_iff subtasks).mp named) hsettled hfirst
    simpa only [chain_edge_iff distinct named] using hlongest

theorem RoundInv.flatten_perm (inv : RoundInv subtasks w levels state)
    (hall : ∀ i, Settled (Resolved subtasks) (Edge subtasks) w i) :
    (levels.map (idsOf subtasks)).flatten.Perm (subtasks.map (·.id)) := by
  have hindices : levels.flatten.Perm (List.finRange subtasks.length) := by
    refine (List.perm_ext_iff_of_nodup inv.nodup (List.nodup_finRange _)).mpr ?_
    intro i
    simp only [List.mem_finRange, iff_true]
    exact (inv.done i).mpr (hall i)
  have hids : (levels.map (idsOf subtasks)).flatten =
      levels.flatten.map fun i => (subtasks.get i).id := by
    unfold idsOf
    rw [List.map_flatten]
  have hlist : (List.finRange subtasks.length).map (fun i => (subtasks.get i).id) =
      subtasks.map (·.id) := by
    apply List.ext_getElem
    · simp
    · simp
  rw [hids, ← hlist]
  exact hindices.map _

end Waves

/-- Where all dependencies are named, waves are returned exactly without a cycle. -/
theorem topoWaves_ok_iff_acyclic {subtasks : List Subtask}
    (distinct : (subtasks.map (·.id)).Nodup) (named : AllNamed subtasks) :
    ∃ schedule, (∀ fuel, subtasks.length < fuel → topoWaves fuel subtasks = some schedule) ∧
      ((∃ waves, schedule = .ok waves) ↔ Acyclic (Edge subtasks)) := by
  obtain ⟨last, levels, final, inv, hready, hresult⟩ := topoWaves_result subtasks
  have hcomplete := inv.complete_iff hready distinct
  refine ⟨_, hresult, ?_⟩
  rw [acyclic_edge_iff distinct]
  by_cases hall : levels.flatten.length = subtasks.length
  · simp only [hall, ne_eq, not_true_eq_false, ↓reduceIte, Except.ok.injEq, exists_eq', true_iff]
    exact (hcomplete.mp hall).2
  · simp only [hall, ne_eq, not_false_eq_true, ↓reduceIte, reduceCtorEq, exists_false, false_iff]
    exact fun acyclic => hall (hcomplete.mpr ⟨named, acyclic⟩)

/-- For every list of subtasks with distinct ids `topo_waves` returns, without an
underflow; it returns waves exactly when every dependency is named and the dependency
relation is acyclic. Then every id stands in exactly one wave exactly once, every
dependency in a strictly earlier wave, and the index of a wave is the length of the
longest dependency chain of each of its subtasks. -/
theorem topoWaves_correct (subtasks : List Subtask)
    (distinct : (subtasks.map (·.id)).Nodup) :
    ∃ result, (∀ fuel, subtasks.length < fuel → topoWaves fuel subtasks = some result) ∧
      ((∃ waves, result = .ok waves) ↔
        AllNamed subtasks ∧ Acyclic (DependsOn subtasks)) ∧
      ∀ waves, result = .ok waves →
        waves.flatten.Perm (subtasks.map (·.id)) ∧
        ∀ w wave, waves[w]? = some wave → ∀ s ∈ subtasks, s.id ∈ wave →
          (∀ d ∈ s.dependsOn, ∃ v < w, ∃ earlier, waves[v]? = some earlier ∧ d ∈ earlier) ∧
          Chain (DependsOn subtasks) w s.id ∧
          ∀ k, Chain (DependsOn subtasks) k s.id → k ≤ w := by
  obtain ⟨last, levels, final, inv, hready, hresult⟩ := topoWaves_result subtasks
  have hcomplete := inv.complete_iff hready distinct
  refine ⟨_, hresult, ?_, ?_⟩
  · rw [← hcomplete]
    by_cases hall : levels.flatten.length = subtasks.length
    · simp only [hall, ne_eq, not_true_eq_false, ↓reduceIte, Except.ok.injEq, exists_eq']
    · simp only [hall, ne_eq, not_false_eq_true, ↓reduceIte, reduceCtorEq, exists_false]
  · intro waves hok
    by_cases hall : levels.flatten.length = subtasks.length
    · simp only [hall, ne_eq, not_true_eq_false, ↓reduceIte, Except.ok.injEq] at hok
      subst hok
      refine ⟨inv.flatten_perm (inv.visited_eq_iff.mp hall), ?_⟩
      intro w wave hwave s hs hid
      obtain ⟨i, rfl⟩ := List.mem_iff_get.mp hs
      rw [List.getElem?_map, Option.map_eq_some_iff] at hwave
      obtain ⟨level, hlevel, rfl⟩ := hwave
      obtain ⟨j, hj, hsame⟩ := List.mem_map.mp hid
      have hij := id_injective distinct hsame
      subst hij
      exact inv.wave_spec distinct (hcomplete.mp hall).1 hlevel hj
    · simp only [hall, ne_eq, not_false_eq_true, ↓reduceIte, reduceCtorEq] at hok

section Example

/-- The first subtask names one of its two dependencies twice. -/
def diamond : List Subtask :=
  [⟨⟨3⟩, "merge", [⟨1⟩, ⟨2⟩, ⟨1⟩], none⟩, ⟨⟨1⟩, "left", [⟨0⟩], none⟩,
    ⟨⟨2⟩, "right", [⟨0⟩], none⟩, ⟨⟨0⟩, "outline", [], none⟩]

theorem diamond_waves :
    topoWaves 5 diamond = some (.ok [[⟨0⟩], [⟨1⟩, ⟨2⟩], [⟨3⟩]]) ∧
      AllNamed diamond ∧ Acyclic (DependsOn diamond) := by
  have hwaves : topoWaves 5 diamond = some (.ok [[⟨0⟩], [⟨1⟩, ⟨2⟩], [⟨3⟩]]) := by
    decide +kernel
  obtain ⟨result, hresult, hiff, -⟩ := topoWaves_correct diamond (by decide)
  rw [hresult 5 (by decide), Option.some.injEq] at hwaves
  refine ⟨by rw [hresult 5 (by decide), hwaves], hiff.mp ⟨_, hwaves⟩⟩

end Example

end ControlPlane.Guarantees.KahnWaves
