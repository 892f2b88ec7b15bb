import ControlPlane.Lib.Runs
import Mathlib.Data.Fintype.Card
import Mathlib.Data.List.Nodup

/-!
# Read, modify, write

Calls that read a shared value, hold what they derive from it and write that back. Each
call is folded into the value once exactly if no call is lost on the way, every derived
value is the one read with the call folded in, and nobody else holds a derived value when
a call writes: otherwise the count of the value falls behind and never catches up.
-/
namespace ControlPlane.Lib

structure Updates (κ ℓ σ V : Type) where
  view : σ → V
  /-- The derived value a call is on its way with. -/
  held : ℓ → Option V
  through : ℓ → Bool
  lost : ℓ → Bool
  fold : V → κ → V
  count : V → Nat
  idle : ∀ l, through l = true ∨ lost l = true → held l = none
  count_fold : ∀ v k, count (fold v k) = count v + 1

namespace Updates

variable {κ ℓ σ V ι : Type} (u : Updates κ ℓ σ V)

/-- What an operation of call `k` can do. -/
inductive Op (k : κ) (l : ℓ) (s : σ) (l' : ℓ) (s' : σ) : Prop where
  | kept (same : u.view s' = u.view s) (held : u.held l' = u.held l)
      (through : u.through l' = u.through l) (lost : u.lost l' = u.lost l)
  | read (same : u.view s' = u.view s) (free : u.held l = none) (value : V)
      (held : u.held l' = some value)
      (derived : value = u.fold (u.view s) k ∨ u.count value ≤ u.count (u.view s))
      (before : u.through l = false) (after : u.through l' = false)
      (fresh : u.lost l = false) (lost : u.lost l' = false)
  | wrote (held : u.held l = some (u.view s')) (free : u.held l' = none)
      (before : u.through l = false) (after : u.through l' = true)
      (fresh : u.lost l = false) (lost : u.lost l' = false)
  | dropped (same : u.view s' = u.view s) (free : u.held l' = none)
      (before : u.through l = false) (after : u.through l' = false)
      (fresh : u.lost l = false) (lost : u.lost l' = true)

variable [DecidableEq κ] (move : κ → ι → ℓ → σ → ℓ × σ)

/-- The next operation does not lose the call, derives the value with the call folded in,
and writes only if no other call holds a value. -/
structure Clean (t : Threads κ ℓ σ) (a : κ × ι) : Prop where
  survives : u.lost (t.locals a.1) = false →
    u.lost (move a.1 a.2 (t.locals a.1) t.shared).1 = false
  derives : u.held (t.locals a.1) = none →
    ∀ v, u.held (move a.1 a.2 (t.locals a.1) t.shared).1 = some v →
      v = u.fold (u.view t.shared) a.1
  alone : u.through (t.locals a.1) = false →
    u.through (move a.1 a.2 (t.locals a.1) t.shared).1 = true →
      ∀ k, k ≠ a.1 → u.held (t.locals k) = none

/-! ## Clean runs -/

/-- The calls that are through were folded in one by one, the others hold what follows the
present value, and none was lost. -/
structure Folded (init : V) (t : Threads κ ℓ σ) : Prop where
  order : ∃ order : List κ, order.Nodup ∧ (∀ k, k ∈ order ↔ u.through (t.locals k) = true) ∧
    u.view t.shared = order.foldl u.fold init
  fresh : ∀ k v, u.held (t.locals k) = some v → v = u.fold (u.view t.shared) k
  present : ∀ k, u.lost (t.locals k) = false

variable {u move}

/-- A held value after an operation is that of the call or was held before. -/
theorem held_act {t : Threads κ ℓ σ} {k j : κ} {i : ι} {v : V}
    (h : u.held ((t.act move (k, i)).locals j) = some v) :
    (j = k ∧ u.held (move k i (t.locals k) t.shared).1 = some v) ∨
      (j ≠ k ∧ u.held (t.locals j) = some v) := by
  by_cases hj : j = k
  · subst hj
    rw [Threads.act_same] at h
    exact Or.inl ⟨rfl, h⟩
  · rw [Threads.act_other move t k i hj] at h
    exact Or.inr ⟨hj, h⟩

theorem folded_act {init : V} {t : Threads κ ℓ σ} {k : κ} {i : ι} (h : u.Folded init t)
    (op : u.Op k (t.locals k) t.shared (move k i (t.locals k) t.shared).1
      (move k i (t.locals k) t.shared).2)
    (clean : u.Clean move t (k, i)) : u.Folded init (t.act move (k, i)) := by
  obtain ⟨order, hnodup, hmem, hview⟩ := h.order
  have hpresent : ∀ j, u.lost ((t.act move (k, i)).locals j) = false := by
    intro j
    by_cases hj : j = k
    · subst hj
      rw [Threads.act_same]
      exact clean.survives (h.present j)
    · rw [Threads.act_other move t k i hj]
      exact h.present j
  -- Which calls are through changes with a write only.
  have hsame : u.through (move k i (t.locals k) t.shared).1 = u.through (t.locals k) →
      ∀ j, j ∈ order ↔ u.through ((t.act move (k, i)).locals j) = true := by
    intro hk j
    by_cases hj : j = k
    · subst hj
      rw [Threads.act_same, hk]
      exact hmem j
    · rw [Threads.act_other move t k i hj]
      exact hmem j
  cases op with
  | kept same held through lost =>
      refine ⟨⟨order, hnodup, hsame through, ?_⟩, ?_, hpresent⟩
      · rw [Threads.act_shared, same, hview]
      · intro j v hv
        rw [Threads.act_shared, same]
        rcases held_act hv with ⟨rfl, hv⟩ | ⟨-, hv⟩
        · exact h.fresh j v (held ▸ hv)
        · exact h.fresh j v hv
  | read same free value held derived before after fresh lost =>
      refine ⟨⟨order, hnodup, hsame (after.trans before.symm), ?_⟩, ?_, hpresent⟩
      · rw [Threads.act_shared, same, hview]
      · intro j v hv
        rw [Threads.act_shared, same]
        rcases held_act hv with ⟨rfl, hv⟩ | ⟨-, hv⟩
        · exact clean.derives free v hv
        · exact h.fresh j v hv
  | wrote held free before after fresh lost =>
      have hnew : k ∉ order := by
        rw [hmem k, before]
        exact Bool.false_ne_true
      refine ⟨⟨order ++ [k], ?_, ?_, ?_⟩, ?_, hpresent⟩
      · exact hnodup.append (List.nodup_singleton k) (by simpa using hnew)
      · intro j
        rw [List.mem_append, List.mem_singleton]
        by_cases hj : j = k
        · subst hj
          simp [after]
        · rw [Threads.act_other move t k i hj, hmem j]
          simp [hj]
      · rw [Threads.act_shared, List.foldl_append, List.foldl_cons, List.foldl_nil, ← hview]
        exact h.fresh k _ held
      · intro j v hv
        rcases held_act hv with ⟨rfl, hv⟩ | ⟨hj, hv⟩
        · rw [free] at hv
          cases hv
        · rw [clean.alone before after j hj] at hv
          cases hv
  | dropped same free before after fresh lost =>
      have hkept := clean.survives fresh
      rw [lost] at hkept
      cases hkept

/-! ## Runs that fall behind -/

variable [Fintype κ]

/-- The number of calls that are through. -/
def passed (u : Updates κ ℓ σ V) (t : Threads κ ℓ σ) : Nat :=
  (Finset.univ.filter fun k => u.through (t.locals k) = true).card

/-- No value is ahead of the calls that are through. -/
structure Bounded (u : Updates κ ℓ σ V) (init : V) (t : Threads κ ℓ σ) : Prop where
  view : u.count (u.view t.shared) ≤ u.count init + u.passed t
  held : ∀ k v, u.held (t.locals k) = some v →
    u.count v ≤ u.count (u.view t.shared) + 1 ∨ u.count v ≤ u.count init + u.passed t

/-- A call is lost, the value is behind the calls that are through, or a call holds one
that will be. -/
def Behind (u : Updates κ ℓ σ V) (init : V) (t : Threads κ ℓ σ) : Prop :=
  (∃ k, u.lost (t.locals k) = true ∧ u.through (t.locals k) = false) ∨
    u.count (u.view t.shared) < u.count init + u.passed t ∨
    ∃ k v, u.held (t.locals k) = some v ∧ u.count v ≤ u.count init + u.passed t

theorem passed_act_same {t : Threads κ ℓ σ} {k : κ} {i : ι}
    (h : u.through (move k i (t.locals k) t.shared).1 = u.through (t.locals k)) :
    u.passed (t.act move (k, i)) = u.passed t := by
  unfold passed
  congr 1
  apply Finset.filter_congr
  intro j _
  by_cases hj : j = k
  · subst hj
    rw [Threads.act_same, h]
  · rw [Threads.act_other move t k i hj]

theorem passed_act_wrote {t : Threads κ ℓ σ} {k : κ} {i : ι}
    (before : u.through (t.locals k) = false)
    (after : u.through (move k i (t.locals k) t.shared).1 = true) :
    u.passed (t.act move (k, i)) = u.passed t + 1 := by
  have hinsert : (Finset.univ.filter fun j => u.through ((t.act move (k, i)).locals j) = true) =
      insert k (Finset.univ.filter fun j => u.through (t.locals j) = true) := by
    ext j
    rw [Finset.mem_insert, Finset.mem_filter, Finset.mem_filter]
    by_cases hj : j = k
    · subst hj
      simp [after]
    · simp [Threads.act_other move t k i hj, hj]
  unfold passed
  rw [hinsert, Finset.card_insert_of_notMem (by simp [before])]

theorem bounded_act {init : V} {t : Threads κ ℓ σ} {k : κ} {i : ι} (h : u.Bounded init t)
    (op : u.Op k (t.locals k) t.shared (move k i (t.locals k) t.shared).1
      (move k i (t.locals k) t.shared).2) : u.Bounded init (t.act move (k, i)) := by
  have hview := h.view
  cases op with
  | kept same held through lost =>
      have hpassed := passed_act_same through
      constructor
      · rwa [Threads.act_shared, same, hpassed]
      · intro j v hv
        rw [Threads.act_shared, same, hpassed]
        rcases held_act hv with ⟨rfl, hv⟩ | ⟨-, hv⟩
        · exact h.held j v (held ▸ hv)
        · exact h.held j v hv
  | read same free value held derived before after fresh lost =>
      have hpassed := passed_act_same (after.trans before.symm)
      constructor
      · rwa [Threads.act_shared, same, hpassed]
      · intro j v hv
        rw [Threads.act_shared, same, hpassed]
        rcases held_act hv with ⟨rfl, hv⟩ | ⟨-, hv⟩
        · obtain rfl := Option.some.inj (held.symm.trans hv)
          left
          rcases derived with rfl | hle
          · exact (u.count_fold _ _).le
          · omega
        · exact h.held j v hv
  | wrote held free before after fresh lost =>
      have hpassed := passed_act_wrote before after
      have hwritten := h.held k _ held
      constructor
      · rw [Threads.act_shared, hpassed]
        omega
      · intro j v hv
        rcases held_act hv with ⟨rfl, hv⟩ | ⟨-, hv⟩
        · rw [free] at hv
          cases hv
        · have hother := h.held j v hv
          right
          omega
  | dropped same free before after fresh lost =>
      have hpassed := passed_act_same (after.trans before.symm)
      constructor
      · rwa [Threads.act_shared, same, hpassed]
      · intro j v hv
        rw [Threads.act_shared, same, hpassed]
        rcases held_act hv with ⟨rfl, hv⟩ | ⟨-, hv⟩
        · rw [free] at hv
          cases hv
        · exact h.held j v hv

theorem passed_le_act {t : Threads κ ℓ σ} {k : κ} {i : ι}
    (op : u.Op k (t.locals k) t.shared (move k i (t.locals k) t.shared).1
      (move k i (t.locals k) t.shared).2) : u.passed t ≤ u.passed (t.act move (k, i)) := by
  cases op with
  | kept same held through lost => exact (passed_act_same through).ge
  | read same free value held derived before after fresh lost =>
      exact (passed_act_same (after.trans before.symm)).ge
  | wrote held free before after fresh lost =>
      rw [passed_act_wrote before after]
      exact Nat.le_succ _
  | dropped same free before after fresh lost =>
      exact (passed_act_same (after.trans before.symm)).ge

/-- A value once behind stays behind. -/
theorem behind_act {init : V} {t : Threads κ ℓ σ} {k : κ} {i : ι} (bounded : u.Bounded init t)
    (h : u.Behind init t)
    (op : u.Op k (t.locals k) t.shared (move k i (t.locals k) t.shared).1
      (move k i (t.locals k) t.shared).2) : u.Behind init (t.act move (k, i)) := by
  have hpassed := passed_le_act op
  rcases h with ⟨j, hlost, hthrough⟩ | hview | ⟨j, v, hheld, hv⟩
  · left
    refine ⟨j, ?_⟩
    by_cases hj : j = k
    · subst hj
      rw [Threads.act_same]
      cases op with
      | kept same held through lost => exact ⟨lost.trans hlost, through.trans hthrough⟩
      | read _ _ _ _ _ _ _ fresh _ => exact absurd (hlost.symm.trans fresh) (by decide)
      | wrote _ _ _ _ fresh _ => exact absurd (hlost.symm.trans fresh) (by decide)
      | dropped _ _ _ _ fresh _ => exact absurd (hlost.symm.trans fresh) (by decide)
    · rw [Threads.act_other move t k i hj]
      exact ⟨hlost, hthrough⟩
  · right; left
    rw [Threads.act_shared]
    cases op with
    | kept same _ _ _ =>
        rw [same]
        omega
    | read same _ _ _ _ _ _ _ _ =>
        rw [same]
        omega
    | wrote held free before after fresh lost =>
        have hwritten := bounded.held k _ held
        rw [passed_act_wrote before after]
        omega
    | dropped same _ _ _ _ _ =>
        rw [same]
        omega
  · by_cases hj : j = k
    · subst hj
      cases op with
      | kept same held through lost =>
          right; right
          refine ⟨j, v, ?_, by omega⟩
          rw [Threads.act_same, held, hheld]
      | read same free value held derived before after fresh lost =>
          rw [free] at hheld
          cases hheld
      | wrote held free before after fresh lost =>
          right; left
          obtain rfl := Option.some.inj (hheld.symm.trans held)
          rw [Threads.act_shared, passed_act_wrote before after]
          omega
      | dropped same free before after fresh lost =>
          left
          refine ⟨j, ?_⟩
          rw [Threads.act_same]
          exact ⟨lost, after⟩
    · right; right
      refine ⟨j, v, ?_, by omega⟩
      rw [Threads.act_other move t k i hj, hheld]

/-- An operation that is not clean puts the value behind. -/
theorem behind_of_not_clean {init : V} {t : Threads κ ℓ σ} {k : κ} {i : ι}
    (bounded : u.Bounded init t)
    (op : u.Op k (t.locals k) t.shared (move k i (t.locals k) t.shared).1
      (move k i (t.locals k) t.shared).2)
    (h : ¬ u.Clean move t (k, i)) : u.Behind init (t.act move (k, i)) := by
  have hview := bounded.view
  cases op with
  | kept same held through lost =>
      refine absurd ⟨fun hlost => lost.trans hlost, fun hnone v hv => ?_, fun hb ha => ?_⟩ h
      · rw [held, hnone] at hv
        cases hv
      · rw [through, hb] at ha
        cases ha
  | read same free value held derived before after fresh lost =>
      rcases derived with rfl | hbehind
      · refine absurd ⟨fun _ => lost, fun _ v hv => ?_, fun _ ha => ?_⟩ h
        · exact (Option.some.inj (held.symm.trans hv)).symm
        · rw [after] at ha
          cases ha
      · right; right
        refine ⟨k, value, ?_, ?_⟩
        · rw [Threads.act_same, held]
        · rw [passed_act_same (after.trans before.symm)]
          omega
  | wrote held free before after fresh lost =>
      by_cases halone : ∀ j, j ≠ k → u.held (t.locals j) = none
      · refine absurd ⟨fun _ => lost, fun hnone => ?_, fun _ _ => halone⟩ h
        rw [held] at hnone
        cases hnone
      · push Not at halone
        obtain ⟨j, hj, hheld⟩ := halone
        obtain ⟨v, hv⟩ := Option.ne_none_iff_exists'.mp hheld
        have hother := bounded.held j v hv
        right; right
        refine ⟨j, v, ?_, ?_⟩
        · rw [Threads.act_other move t k i hj, hv]
        · rw [passed_act_wrote before after]
          omega
  | dropped same free before after fresh lost =>
      left
      refine ⟨k, ?_⟩
      rw [Threads.act_same]
      exact ⟨lost, after⟩

/-! ## Whole runs -/

/-- Nobody has begun. -/
structure AtStart (u : Updates κ ℓ σ V) (t : Threads κ ℓ σ) : Prop where
  free : ∀ k, u.held (t.locals k) = none
  before : ∀ k, u.through (t.locals k) = false
  present : ∀ k, u.lost (t.locals k) = false

omit [DecidableEq κ] [Fintype κ] in
theorem AtStart.folded {t : Threads κ ℓ σ} (h : u.AtStart t) :
    u.Folded (u.view t.shared) t := by
  refine ⟨⟨[], List.nodup_nil, fun k => ?_, rfl⟩, fun k v hv => ?_, h.present⟩
  · simp [h.before k]
  · rw [h.free k] at hv
    cases hv

omit [DecidableEq κ] in
theorem AtStart.bounded {t : Threads κ ℓ σ} (h : u.AtStart t) :
    u.Bounded (u.view t.shared) t := by
  refine ⟨Nat.le_add_right _ _, fun k v hv => ?_⟩
  rw [h.free k] at hv
  cases hv

omit [DecidableEq κ] [Fintype κ] in
theorem count_foldl (order : List κ) (init : V) :
    u.count (order.foldl u.fold init) = u.count init + order.length := by
  induction order generalizing init with
  | nil => rfl
  | cons k rest ih =>
      rw [List.foldl_cons, ih, u.count_fold, List.length_cons]
      omega

/-- Every call was folded in once. -/
def FoldedOnce (u : Updates κ ℓ σ V) (init final : V) : Prop :=
  ∃ order : List κ, order.Nodup ∧ (∀ k, k ∈ order) ∧ final = order.foldl u.fold init

theorem FoldedOnce.count {init final : V} (h : u.FoldedOnce init final) :
    u.count final = u.count init + Fintype.card κ := by
  obtain ⟨order, hnodup, hall, rfl⟩ := h
  have huniv : order.toFinset = Finset.univ := by
    ext k
    simp [hall k]
  have hlength : order.length = Fintype.card κ := by
    rw [← List.toFinset_card_of_nodup hnodup, huniv, Finset.card_univ]
  rw [count_foldl, hlength]

omit [DecidableEq κ] in
/-- A value that is behind when every call has ended has not grown by all of them. -/
theorem Behind.count_lt {init : V} {t : Threads κ ℓ σ} (h : u.Behind init t)
    (bounded : u.Bounded init t)
    (ended : ∀ k, u.through (t.locals k) = true ∨ u.lost (t.locals k) = true) :
    u.count (u.view t.shared) < u.count init + Fintype.card κ := by
  have hview := bounded.view
  have hpassed : u.passed t ≤ Fintype.card κ := Finset.card_le_univ _
  rcases h with ⟨k, -, hthrough⟩ | hbehind | ⟨k, v, hheld, -⟩
  · have hmissing : u.passed t < Fintype.card κ :=
      Finset.card_lt_univ_of_notMem (by simp [hthrough] : k ∉ _)
    omega
  · omega
  · rw [u.idle _ (ended k)] at hheld
    cases hheld

/-- From the states with `J` every operation is one of the update, and keeps `J`. -/
structure Models (u : Updates κ ℓ σ V) (move : κ → ι → ℓ → σ → ℓ × σ)
    (J : Threads κ ℓ σ → Prop) : Prop where
  kept : ∀ t k i, J t → J (t.act move (k, i))
  ops : ∀ t k i, J t → u.Op k (t.locals k) t.shared (move k i (t.locals k) t.shared).1
    (move k i (t.locals k) t.shared).2

variable {J : Threads κ ℓ σ → Prop}

omit [Fintype κ] in
theorem folded_run {init : V} (models : u.Models move J)
    {actions : List (κ × ι)} {t t' : Threads κ ℓ σ} (hJ : J t) (h : u.Folded init t)
    (meets : RunMeets (Threads.step move) (u.Clean move) t actions)
    (run : runActions (Threads.step move) t actions = some t') : u.Folded init t' := by
  have hstep : ∀ t a t', J t ∧ u.Folded init t → u.Clean move t a →
      Threads.step move t a = some t' → J t' ∧ u.Folded init t' := by
    intro t a t' hinv clean hstep
    obtain rfl := Option.some.inj hstep
    exact ⟨models.kept t a.1 a.2 hinv.1, folded_act hinv.2 (models.ops t a.1 a.2 hinv.1) clean⟩
  exact (runMeets_holds hstep ⟨hJ, h⟩ meets run).2

theorem bounded_step {init : V} (models : u.Models move J) :
    ∀ t a t', J t ∧ u.Bounded init t → Threads.step move t a = some t' →
      J t' ∧ u.Bounded init t' := by
  intro t a t' hinv hstep
  obtain rfl := Option.some.inj hstep
  exact ⟨models.kept t a.1 a.2 hinv.1, bounded_act hinv.2 (models.ops t a.1 a.2 hinv.1)⟩

/-- A run with an operation that is not clean ends behind. -/
theorem behind_run {init : V} (models : u.Models move J)
    {actions : List (κ × ι)} {t t' : Threads κ ℓ σ} (hJ : J t) (bounded : u.Bounded init t)
    (h : ¬ RunMeets (Threads.step move) (u.Clean move) t actions)
    (run : runActions (Threads.step move) t actions = some t') : u.Behind init t' := by
  induction actions generalizing t with
  | nil => exact absurd trivial h
  | cons a rest ih =>
      have hkept := models.kept t a.1 a.2 hJ
      have hbounded := bounded_act bounded (models.ops t a.1 a.2 hJ)
      by_cases hclean : u.Clean move t a
      · exact ih hkept hbounded (fun hrest => h ⟨hclean, hrest⟩) run
      · have hbehind := behind_of_not_clean bounded (models.ops t a.1 a.2 hJ) hclean
        have hstep : ∀ t a t', (J t ∧ u.Bounded init t) ∧ u.Behind init t →
            Threads.step move t a = some t' →
            (J t' ∧ u.Bounded init t') ∧ u.Behind init t' := by
          intro t a t' hinv hstep
          refine ⟨bounded_step models t a t' hinv.1 hstep, ?_⟩
          obtain rfl := Option.some.inj hstep
          exact behind_act hinv.1.2 hinv.2 (models.ops t a.1 a.2 hinv.1.1)
        exact (run_holds hstep ⟨⟨hkept, hbounded⟩, hbehind⟩ run).2

/-- Every call is folded in once in exactly the clean runs in which all calls end. -/
theorem foldedOnce_iff_clean (models : u.Models move J)
    {actions : List (κ × ι)} {t t' : Threads κ ℓ σ} (hJ : J t) (start : u.AtStart t)
    (run : runActions (Threads.step move) t actions = some t')
    (ended : ∀ k, u.through (t'.locals k) = true ∨ u.lost (t'.locals k) = true) :
    u.FoldedOnce (u.view t.shared) (u.view t'.shared) ↔
      RunMeets (Threads.step move) (u.Clean move) t actions := by
  constructor
  · intro hfolded
    by_contra hnot
    have hbounded := (run_holds (bounded_step models) ⟨hJ, start.bounded⟩ run).2
    have hlt := (behind_run models hJ start.bounded hnot run).count_lt hbounded ended
    have hcount := hfolded.count
    omega
  · intro meets
    have hfolded := folded_run models hJ start.folded meets run
    obtain ⟨order, hnodup, hmem, hview⟩ := hfolded.order
    refine ⟨order, hnodup, fun k => (hmem k).mpr ((ended k).resolve_right ?_), hview⟩
    rw [hfolded.present k]
    exact Bool.false_ne_true

end Updates

end ControlPlane.Lib
