import ControlPlane.Source.Ensemble.Diagnostics
import Mathlib.Algebra.BigOperators.Group.Finset.Piecewise
import Mathlib.Algebra.Order.Ring.Rat
import Mathlib.Data.Rat.Floor
import Mathlib.Tactic.FieldSimp
import Mathlib.Tactic.Linarith
import Mathlib.Tactic.Positivity
import Mathlib.Tactic.Ring

/-!
# The rank histogram of the runners-up

The rank of the runner-up counts the scores above the second highest one, of which there is
one or, where the top is shared, none. So the histogram has two bins with anything in them,
the unused bin 0 among them, and a third one for vectors of which all but one score are
negative infinity. The bin of the last rank is dead for every number of adapters. The update
of the temperatures only sees mass at one edge, and widens the spread.
-/
namespace ControlPlane.Guarantees.RankHistogram

open Lib Source.Ensemble

variable {K : Type} [Field K] [LinearOrder K]

/-! ## Statement -/

section Statement

variable (f : SpreadMath K) (n : ℕ) (vectors : List (List (Score K)))

def BinZeroUnused : Prop :=
  ∀ d, fromVerificationScores f vectors = some d → d.rankHistogram.getD 0 0 = 0

/-- The bins from 1 on count the vectors of length `n`. -/
def CountsRuns : Prop :=
  ∀ d, fromVerificationScores f vectors = some d →
    ((List.range' 1 n).map fun r => d.rankHistogram.getD r 0).sum =
      vectors.countP fun scores => decide (scores.length = n)

def OrderFree : Prop :=
  ∀ vectors', List.Forall₂ List.Perm vectors vectors' →
    fromVerificationScores f vectors' = fromVerificationScores f vectors

/-- Some vector of length `n` is counted in bin `r`. -/
def Alive (r : ℕ) : Prop :=
  ∃ scores : List (Score K), scores.length = n ∧
    ∃ d, fromVerificationScores f [scores] = some d ∧ d.rankHistogram.getD r 0 = 1

def Reachable (state : CalibrationState) : Prop :=
  ∃ vectors : List (List (Score K)), vectors.head?.map List.length = some n ∧
    ∃ d, fromVerificationScores f vectors = some d ∧ d.calibrationState = state

structure HistogramOfRanks : Prop where
  unused : BinZeroUnused f vectors
  total : CountsRuns f n vectors
  orderFree : OrderFree f vectors
  alive : ∀ r, 1 ≤ r → r ≤ n → Alive f n r
  states : 3 ≤ n → Reachable f n .calibrated ∧ Reachable f n .overConfident ∧
    Reachable f n .underDispersed

/-- No vector of length `n` has its highest score twice, unless it is negative infinity. -/
def NoSharedTop : Prop :=
  ∀ scores ∈ vectors, scores.length = n →
    ¬∃ top, ⊥ < top ∧ (∀ s ∈ scores, s ≤ top) ∧ 2 ≤ scores.count top

end Statement

/-! ## The rank of one vector -/

section Rank

variable {S : Type} [LinearOrder S] [OrderBot S]

theorem topScore_spec {scores : List S} (nonempty : scores ≠ []) :
    scores[(topScore scores).1]? = some (topScore scores).2 ∧
      ∀ s ∈ scores, s ≤ (topScore scores).2 := by
  induction scores with
  | nil => exact absurd rfl nonempty
  | cons s rest ih =>
      rw [topScore]
      split
      · next hfirst =>
        refine ⟨rfl, ?_⟩
        intro x hx
        rcases List.mem_cons.mp hx with rfl | hx
        · exact le_refl _
        rcases hfirst with hempty | hbelow
        · rw [List.isEmpty_iff.mp hempty] at hx
          cases hx
        · exact ((ih (List.ne_nil_of_mem hx)).2 x hx).trans hbelow.le
      · next hlater =>
        rw [not_or, not_lt] at hlater
        have hrest := ih (by simpa using hlater.1)
        refine ⟨hrest.1, ?_⟩
        intro x hx
        rcases List.mem_cons.mp hx with rfl | hx
        · exact hlater.2
        · exact hrest.2 x hx

/-- One step of the scan for the second score. -/
def scanStep (topIdx : ℕ) (second : S) (e : S × ℕ) : S :=
  if e.2 ≠ topIdx ∧ second < e.1 then e.1 else second

omit [OrderBot S] in
theorem scan_le_iff (topIdx : ℕ) (l : List (S × ℕ)) (start x : S) :
    l.foldl (scanStep topIdx) start ≤ x ↔ start ≤ x ∧ ∀ e ∈ l, e.2 ≠ topIdx → e.1 ≤ x := by
  induction l generalizing start with
  | nil => simp
  | cons e rest ih =>
      rw [List.foldl_cons, ih, List.forall_mem_cons, ← and_assoc]
      refine and_congr_left fun _ => ?_
      unfold scanStep
      split
      · next h =>
        exact ⟨fun hle => ⟨h.2.le.trans hle, fun _ => hle⟩, fun hle => hle.2 h.1⟩
      · next h =>
        refine ⟨fun hle => ⟨hle, fun hother => ?_⟩, fun hle => hle.1⟩
        exact (not_lt.mp fun hlt => h ⟨hother, hlt⟩).trans hle

omit [OrderBot S] in
theorem scan_mem (topIdx : ℕ) (l : List (S × ℕ)) (start : S) :
    l.foldl (scanStep topIdx) start = start ∨
      ∃ e ∈ l, e.2 ≠ topIdx ∧ l.foldl (scanStep topIdx) start = e.1 := by
  induction l generalizing start with
  | nil => exact Or.inl rfl
  | cons e rest ih =>
      rw [List.foldl_cons]
      rcases ih (scanStep topIdx start e) with hstart | ⟨e', he', hother, heq⟩
      · rw [hstart]
        unfold scanStep
        split
        · next h => exact Or.inr ⟨e, List.mem_cons_self .., h.1, rfl⟩
        · exact Or.inl rfl
      · exact Or.inr ⟨e', List.mem_cons_of_mem e he', hother, heq⟩

omit [LinearOrder S] [OrderBot S] in
/-- The scan looks at the entries at the other indices. -/
theorem mem_others {scores : List S} {topIdx : ℕ} {s : S} :
    (∃ e ∈ scores.zipIdx, e.2 ≠ topIdx ∧ e.1 = s) ↔ s ∈ scores.eraseIdx topIdx := by
  rw [List.mem_eraseIdx_iff_getElem?]
  constructor
  · intro h
    obtain ⟨e, he, hother, rfl⟩ := h
    exact ⟨e.2, hother, List.mk_mem_zipIdx_iff_getElem?.mp he⟩
  · intro h
    obtain ⟨i, hother, hi⟩ := h
    exact ⟨(s, i), List.mk_mem_zipIdx_iff_getElem?.mpr hi, hother, rfl⟩

theorem secondScore_le_iff (scores : List S) (topIdx : ℕ) (x : S) :
    secondScore topIdx scores ≤ x ↔ ∀ s ∈ scores.eraseIdx topIdx, s ≤ x := by
  have hscan := scan_le_iff topIdx scores.zipIdx ⊥ x
  refine hscan.trans ?_
  simp only [bot_le, true_and]
  constructor
  · intro h s hs
    obtain ⟨e, he, hother, rfl⟩ := mem_others.mpr hs
    exact h e he hother
  · intro h e he hother
    exact h e.1 (mem_others.mp ⟨e, he, hother, rfl⟩)

theorem secondScore_mem (scores : List S) (topIdx : ℕ) :
    secondScore topIdx scores = ⊥ ∨ secondScore topIdx scores ∈ scores.eraseIdx topIdx := by
  rcases scan_mem topIdx scores.zipIdx (⊥ : S) with hbot | ⟨e, he, hother, heq⟩
  · exact Or.inl hbot
  · exact Or.inr (mem_others.mp ⟨e, he, hother, heq.symm⟩)

theorem perm_top_others {scores : List S} (nonempty : scores ≠ []) :
    scores.Perm ((topScore scores).2 :: scores.eraseIdx (topScore scores).1) := by
  obtain ⟨hi, htop⟩ := List.getElem?_eq_some_iff.mp (topScore_spec nonempty).1
  have hperm := List.getElem_cons_eraseIdx_perm hi
  rw [htop] at hperm
  exact hperm.symm

/-- Nothing is above the second score but a top that stands alone. -/
theorem runnerUpRank_eq {scores : List S} (nonempty : scores ≠ []) :
    runnerUpRank scores =
      if secondScore (topScore scores).1 scores = ⊥ then scores.length / 2
      else if secondScore (topScore scores).1 scores < (topScore scores).2 then 1 else 0 := by
  have hothers : (scores.eraseIdx (topScore scores).1).countP
      (fun s => decide (secondScore (topScore scores).1 scores < s)) = 0 := by
    apply List.countP_eq_zero.mpr
    intro s hs
    have hle := (secondScore_le_iff scores (topScore scores).1 _).mp (le_refl _) s hs
    simpa using hle
  unfold runnerUpRank
  dsimp only
  congr 1
  rw [(perm_top_others nonempty).countP_eq, List.countP_cons, hothers]
  simp

theorem topScore_perm {l l' : List S} (h : l.Perm l') : (topScore l).2 = (topScore l').2 := by
  by_cases hnil : l = []
  · rw [hnil] at h ⊢
    rw [h.nil_eq]
  have hspec := topScore_spec hnil
  have hnil' : l' ≠ [] := by
    intro h'
    rw [h'] at h
    exact hnil h.eq_nil
  have hspec' := topScore_spec hnil'
  apply le_antisymm
  · exact hspec'.2 _ (h.subset (List.mem_of_getElem? hspec.1))
  · exact hspec.2 _ (h.symm.subset (List.mem_of_getElem? hspec'.1))

theorem runnerUpRank_perm {l l' : List S} (h : l.Perm l') : runnerUpRank l = runnerUpRank l' := by
  by_cases hnil : l = []
  · rw [hnil] at h ⊢
    rw [h.nil_eq]
  have hnil' : l' ≠ [] := by
    intro h'
    rw [h'] at h
    exact hnil h.eq_nil
  have htop := topScore_perm h
  have hothers : (l.eraseIdx (topScore l).1).Perm (l'.eraseIdx (topScore l').1) := by
    have hcons := (perm_top_others hnil).symm.trans (h.trans (perm_top_others hnil'))
    rw [htop] at hcons
    exact hcons.cons_inv
  have hsecond : secondScore (topScore l).1 l = secondScore (topScore l').1 l' := by
    apply eq_of_forall_ge_iff
    intro x
    rw [secondScore_le_iff, secondScore_le_iff]
    constructor
    · intro h s hs
      exact h s (hothers.symm.subset hs)
    · intro h s hs
      exact h s (hothers.subset hs)
  rw [runnerUpRank_eq hnil, runnerUpRank_eq hnil', hsecond, htop, h.length_eq]

theorem runnerUpRank_cases {scores : List S} (nonempty : scores ≠ []) :
    runnerUpRank scores = 0 ∨ runnerUpRank scores = 1 ∨
      runnerUpRank scores = scores.length / 2 := by
  rw [runnerUpRank_eq nonempty]
  split_ifs
  · exact Or.inr (Or.inr rfl)
  · exact Or.inr (Or.inl rfl)
  · exact Or.inl rfl

theorem runnerUpRank_le {scores : List S} (length : 2 ≤ scores.length) :
    runnerUpRank scores ≤ scores.length := by
  have hcases := runnerUpRank_cases (List.ne_nil_of_length_pos (by omega : 0 < scores.length))
  omega

theorem runnerUpRank_eq_zero_iff {scores : List S} (length : 2 ≤ scores.length) :
    runnerUpRank scores = 0 ↔
      ∃ top, ⊥ < top ∧ (∀ s ∈ scores, s ≤ top) ∧ 2 ≤ scores.count top := by
  have hnonempty : scores ≠ [] := List.ne_nil_of_length_pos (by omega)
  have hspec := topScore_spec hnonempty
  have hcount : ∀ s, scores.count s =
      ((topScore scores).2 :: scores.eraseIdx (topScore scores).1).count s :=
    fun s => (perm_top_others hnonempty).count_eq s
  rw [runnerUpRank_eq hnonempty]
  constructor
  · intro h
    split_ifs at h with hbot hless
    · omega
    · -- the second score is the top itself
      have hmem := (secondScore_mem scores (topScore scores).1).resolve_left hbot
      have heq : secondScore (topScore scores).1 scores = (topScore scores).2 :=
        le_antisymm (hspec.2 _ (List.mem_of_mem_eraseIdx hmem)) (not_lt.mp hless)
      rw [heq] at hbot hmem
      refine ⟨(topScore scores).2, bot_lt_iff_ne_bot.mpr hbot, hspec.2, ?_⟩
      have := List.count_pos_iff.mpr hmem
      rw [hcount, List.count_cons_self]
      omega
  · intro h
    obtain ⟨top, hbot, hmax, htwice⟩ := h
    have hmem : top ∈ scores := List.count_pos_iff.mp (by omega)
    have heq : top = (topScore scores).2 :=
      le_antisymm (hspec.2 top hmem) (hmax _ (List.mem_of_getElem? hspec.1))
    have hother : top ∈ scores.eraseIdx (topScore scores).1 := by
      rw [hcount, ← heq, List.count_cons_self] at htwice
      exact List.count_pos_iff.mp (by omega)
    have hle := (secondScore_le_iff scores (topScore scores).1 _).mp (le_refl _) top hother
    rw [if_neg (hbot.trans_le hle).ne', if_neg (not_lt.mpr (heq ▸ hle))]

/-- A top that stands alone above equal scores. -/
theorem runnerUpRank_alone {a b : S} (hb : ⊥ < b) (hab : b < a) (k : ℕ) :
    runnerUpRank (a :: List.replicate (k + 1) b) = 1 := by
  have hnonempty : a :: List.replicate (k + 1) b ≠ [] := by simp
  have hspec := topScore_spec hnonempty
  have htop : (topScore (a :: List.replicate (k + 1) b)).2 = a := by
    have hle := hspec.2 a (List.mem_cons_self ..)
    rcases List.mem_cons.mp (List.mem_of_getElem? hspec.1) with heq | hmem
    · exact heq
    · rw [List.eq_of_mem_replicate hmem] at hle
      exact absurd hab (not_lt.mpr hle)
  have hothers : (List.replicate (k + 1) b).Perm
      ((a :: List.replicate (k + 1) b).eraseIdx (topScore (a :: List.replicate (k + 1) b)).1) := by
    have hperm := perm_top_others hnonempty
    rw [htop] at hperm
    exact hperm.cons_inv
  have hsecond : secondScore (topScore (a :: List.replicate (k + 1) b)).1
      (a :: List.replicate (k + 1) b) = b := by
    apply eq_of_forall_ge_iff
    intro x
    rw [secondScore_le_iff]
    constructor
    · intro h
      exact h b (hothers.subset (List.mem_replicate.mpr ⟨by omega, rfl⟩))
    · intro h s hs
      rw [List.eq_of_mem_replicate (hothers.symm.subset hs)]
      exact h
  rw [runnerUpRank_eq hnonempty, hsecond, htop, if_neg hb.ne', if_pos hab]

theorem runnerUpRank_bot (k : ℕ) :
    runnerUpRank (List.replicate (k + 1) (⊥ : S)) = (k + 1) / 2 := by
  have hsecond : ∀ topIdx, secondScore topIdx (List.replicate (k + 1) (⊥ : S)) = ⊥ := by
    intro topIdx
    rw [eq_bot_iff, secondScore_le_iff]
    intro s hs
    exact (List.eq_of_mem_replicate (List.mem_of_mem_eraseIdx hs)).le
  rw [runnerUpRank_eq (by simp), if_pos (hsecond _), List.length_replicate]

end Rank

/-! ## The histogram -/

section Histogram

variable {S : Type} [LinearOrder S] [OrderBot S] {n : ℕ}

omit [LinearOrder S] [OrderBot S] in
theorem mem_runsOf {vectors : List (List S)} {scores : List S} :
    scores ∈ runsOf n vectors ↔ scores ∈ vectors ∧ scores.length = n := by
  simp [runsOf]

/-- The ranks of the runs. -/
def ranksOf (n : ℕ) (vectors : List (List S)) : List ℕ := (runsOf n vectors).map runnerUpRank

theorem ranksOf_le (hn : 2 ≤ n) (vectors : List (List S)) : ∀ r ∈ ranksOf n vectors, r ≤ n := by
  intro r hr
  obtain ⟨scores, hscores, rfl⟩ := List.mem_map.mp hr
  have hlength := (mem_runsOf.mp hscores).2
  have hle := runnerUpRank_le (by omega : 2 ≤ scores.length)
  omega

theorem rankHistogram_getD (hn : 2 ≤ n) (vectors : List (List S)) {r : ℕ} (hr : r ≤ n) :
    (rankHistogram n vectors).getD r 0 = (ranksOf n vectors).count r := by
  have hlt : r < n + 1 := by omega
  have hcount : (runsOf n vectors).countP (fun scores => decide (min (runnerUpRank scores) n = r)) =
      (ranksOf n vectors).count r := by
    rw [ranksOf, List.count, List.countP_map]
    apply List.countP_congr
    intro scores hscores
    have hle := ranksOf_le hn vectors _ (List.mem_map_of_mem hscores)
    simp [min_eq_left hle]
  simpa [rankHistogram, List.getD_eq_getElem?_getD, hlt] using hcount

theorem sum_count_range (ranks : List ℕ) (h : ∀ r ∈ ranks, r ≤ n) :
    ((List.range (n + 1)).map ranks.count).sum = ranks.length := by
  change ∑ r ∈ Finset.range (n + 1), ranks.count r = ranks.length
  induction ranks with
  | nil => simp
  | cons r rest ih =>
      obtain ⟨hr, hrest⟩ := List.forall_mem_cons.mp h
      simp only [List.count_cons, Finset.sum_add_distrib, ih hrest, List.length_cons, beq_iff_eq]
      rw [Finset.sum_ite_eq, if_pos (Finset.mem_range.mpr (by omega))]

theorem sum_count_from_one (ranks : List ℕ) (h : ∀ r ∈ ranks, r ≤ n) :
    ranks.count 0 + ((List.range' 1 n).map ranks.count).sum = ranks.length := by
  have hsum := sum_count_range ranks h
  rwa [List.range_eq_range', List.range'_succ, List.map_cons, List.sum_cons] at hsum

omit [LinearOrder S] [OrderBot S] in
theorem runs_map_eq {β : Type} {g : List S → β} (hg : ∀ l l', l.Perm l' → g l = g l')
    {vectors vectors' : List (List S)} (h : List.Forall₂ List.Perm vectors vectors') :
    (runsOf n vectors).map g = (runsOf n vectors').map g := by
  induction h with
  | nil => rfl
  | @cons l l' rest rest' hhead _ ih =>
      unfold runsOf at ih ⊢
      rw [List.filter_cons, List.filter_cons, hhead.length_eq]
      split
      · rw [List.map_cons, List.map_cons, hg l l' hhead, ih]
      · exact ih

theorem rankHistogram_perm {vectors vectors' : List (List S)}
    (h : List.Forall₂ List.Perm vectors vectors') :
    rankHistogram n vectors = rankHistogram n vectors' := by
  have hranks : ∀ r, (fun scores : List S => decide (min (runnerUpRank scores) n = r)) =
      (fun k => decide (min k n = r)) ∘ runnerUpRank := fun _ => rfl
  unfold rankHistogram
  congr 1
  funext r
  rw [hranks, ← List.countP_map, ← List.countP_map,
    runs_map_eq (fun _ _ hperm => runnerUpRank_perm hperm) h]

end Histogram

section Diagnostic

variable {f : SpreadMath K} {n : ℕ} {vectors : List (List (Score K))}

theorem exists_diagnostic (hn : 2 ≤ n) (head : vectors.head?.map List.length = some n) :
    ∃ d, fromVerificationScores f vectors = some d ∧
      d.rankHistogram = rankHistogram n vectors := by
  obtain ⟨first, hfirst, rfl⟩ := Option.map_eq_some_iff.mp head
  obtain ⟨rest, rfl⟩ := List.head?_eq_some_iff.mp hfirst
  unfold fromVerificationScores
  dsimp only
  rw [if_neg (by omega)]
  exact ⟨_, rfl, rfl⟩

theorem rankHistogram_of_diagnostic (hn : 2 ≤ n) (head : vectors.head?.map List.length = some n)
    {d : TalagrandDiagnostic K} (h : fromVerificationScores f vectors = some d) :
    d.rankHistogram = rankHistogram n vectors := by
  obtain ⟨d', hd', hhistogram⟩ := exists_diagnostic (f := f) hn head
  rw [hd'] at h
  cases h
  exact hhistogram

omit [LinearOrder K] in
theorem meanScore_perm (f : SpreadMath K) {l l' : List (Score K)} (h : l.Perm l') :
    meanScore f l = meanScore f l' := by
  rw [meanScore, meanScore, (h.map f.value).sum_eq, h.length_eq]

omit [LinearOrder K] in
theorem spreadOf_perm (f : SpreadMath K) {l l' : List (Score K)} (h : l.Perm l') :
    spreadOf f l = spreadOf f l' := by
  unfold spreadOf
  dsimp only
  rw [meanScore_perm f h, (h.map fun s => (f.value s - meanScore f l') ^ 2).sum_eq, h.length_eq]

theorem gapOf_perm (f : SpreadMath K) {l l' : List (Score K)} (h : l.Perm l') :
    gapOf f l = gapOf f l' := by
  rw [gapOf, gapOf, meanScore_perm f h, topScore_perm h]

theorem orderFree (f : SpreadMath K) (vectors : List (List (Score K))) : OrderFree f vectors := by
  intro vectors' h
  have hlength := h.length_eq
  cases h with
  | nil => rfl
  | @cons l l' rest rest' hhead hrest =>
      have hall : List.Forall₂ List.Perm (l :: rest) (l' :: rest') := .cons hhead hrest
      have hspread := runs_map_eq (n := l.length) (fun l l' => spreadOf_perm f) hall
      have hgap := runs_map_eq (n := l.length) (fun l l' => gapOf_perm f) hall
      have hhistogram := rankHistogram_perm (n := l.length) hall
      unfold fromVerificationScores
      dsimp only
      rw [← hhead.length_eq, ← hspread, ← hgap, ← hhistogram, ← hlength]

end Diagnostic

/-! ## The update of the temperatures -/

section Update

variable {S : Type} [LinearOrder S] [OrderBot S] {n : ℕ} {vectors : List (List S)}

/-- Without negative infinity a runner-up has rank 1 or, below a shared top, rank 0. -/
theorem runnerUpRank_le_one {scores : List S} (length : 2 ≤ scores.length)
    (scored : ∀ s ∈ scores, ⊥ < s) : runnerUpRank scores ≤ 1 := by
  have hnonempty : scores ≠ [] := List.ne_nil_of_length_pos (by omega)
  have hothers : (scores.eraseIdx (topScore scores).1) ≠ [] := by
    intro hnil
    have hperm := (perm_top_others hnonempty).length_eq
    rw [hnil, List.length_singleton] at hperm
    omega
  have hsecond : secondScore (topScore scores).1 scores ≠ ⊥ := by
    intro hbot
    obtain ⟨s, hs⟩ := List.exists_mem_of_ne_nil _ hothers
    have hle := (secondScore_le_iff scores (topScore scores).1 ⊥).mp hbot.le s hs
    exact absurd (scored s (List.mem_of_mem_eraseIdx hs)) (not_lt.mpr hle)
  rw [runnerUpRank_eq hnonempty, if_neg hsecond]
  split <;> omega

theorem rankHistogram_bins (hn : 3 ≤ n)
    (scored : ∀ scores ∈ vectors, scores.length = n → ∀ s ∈ scores, ⊥ < s) :
    (rankHistogram n vectors).drop 1 =
      (ranksOf n vectors).count 1 :: List.replicate (n - 1) 0 := by
  have hbin : ∀ r ≤ n, (rankHistogram n vectors)[r]? = some ((ranksOf n vectors).count r) := by
    intro r hr
    have hlt : r < (rankHistogram n vectors).length := by
      simp [rankHistogram]
      omega
    have hcount := rankHistogram_getD (by omega) vectors hr
    rw [List.getD_eq_getElem?_getD, List.getElem?_eq_getElem hlt] at hcount
    rw [List.getElem?_eq_getElem hlt]
    exact congrArg some hcount
  have hempty : ∀ r, 2 ≤ r → (ranksOf n vectors).count r = 0 := by
    intro r hr
    apply List.count_eq_zero.mpr
    intro hmem
    obtain ⟨scores, hscores, rfl⟩ := List.mem_map.mp hmem
    obtain ⟨hin, hlength⟩ := mem_runsOf.mp hscores
    have hle := runnerUpRank_le_one (by omega) (scored scores hin hlength)
    omega
  apply List.ext_getElem?
  intro i
  rw [List.getElem?_drop]
  rcases Nat.lt_or_ge i n with hi | hi
  · rw [hbin (1 + i) (by omega)]
    cases i with
    | zero => rfl
    | succ i =>
        rw [List.getElem?_cons_succ, List.getElem?_replicate, if_pos (by omega),
          hempty (1 + (i + 1)) (by omega)]
  · rw [List.getElem?_eq_none (by simp [rankHistogram]; omega),
      List.getElem?_eq_none (by simp; omega)]

variable [IsStrictOrderedRing K]

/-- All of the mass in the first of at least three bins. -/
theorem talagrandKlDeltaTau_first {m : K} (hm : 1 ≤ m) (k : ℕ) (eta : K) :
    talagrandKlDeltaTau (m :: List.replicate (k + 2) 0) eta = eta * ((k + 2) / (k + 3)) := by
  have hpos : m ≠ 0 := (lt_of_lt_of_le one_pos hm).ne'
  have hn : ((k : K) + 3) ≠ 0 := by positivity
  have hsmall : (1 : K) / 10 ^ 10 < 1 := by norm_num
  have hedge : (1 : K) / 10 ^ 10 < 1 / 2 := by norm_num
  have htotal : (m :: List.replicate (k + 2) 0).sum = m := by simp
  have hmiddle : ∀ j : ℕ, middleMax (List.replicate (j + 1) (0 : K)) = 0 := by
    intro j
    induction j with
    | zero => rfl
    | succ j ih => simpa [middleMax, List.replicate_succ] using ih
  have hshares : (m :: List.replicate (k + 2) 0).map (fun c => c / m) =
      1 :: List.replicate (k + 2) 0 := by
    rw [List.map_cons, List.map_replicate, div_self hpos, zero_div]
  have hlength : (m :: List.replicate (k + 2) 0).length = k + 3 := by simp
  have hbins : ((k + 3 : ℕ) : K) = k + 3 := by push_cast; rfl
  have hvariance : (((1 : K) :: List.replicate (k + 2) 0).map
      fun v => (v - 1 / ((k : K) + 3)) ^ 2).sum / ((k : K) + 3) / (1 / ((k : K) + 3)) =
        (k + 2) / (k + 3) := by
    rw [List.map_cons, List.map_replicate, List.sum_cons, List.sum_replicate, nsmul_eq_mul]
    push_cast
    field_simp
    ring
  have hcentre : middleMax ((1 :: List.replicate (k + 2) (0 : K)).drop 1).dropLast = 0 := by
    rw [List.drop_succ_cons, List.drop_zero, List.dropLast_replicate]
    exact hmiddle k
  have hedges : (((1 :: List.replicate (k + 2) (0 : K)).headD 0) +
      (1 :: List.replicate (k + 2) (0 : K)).getLastD 0) / 2 = 1 / 2 := by
    simp [List.getLastD_eq_getLast?, List.replicate_succ', List.getLast?_cons]
  unfold talagrandKlDeltaTau
  dsimp only
  rw [hlength, if_neg (by omega), htotal, if_neg (not_lt.mpr (hsmall.le.trans hm)), hshares, hbins,
    hvariance, hcentre, hedges, if_pos hedge, zero_div, sub_zero]

/-- The update never contracts the spread, and its size does not depend on the scores. -/
theorem deltaTau_of_diagnostic {f : SpreadMath K} {vectors : List (List (Score K))}
    {d : TalagrandDiagnostic K} (hn : 3 ≤ n) (head : vectors.head?.map List.length = some n)
    (scored : ∀ scores ∈ vectors, scores.length = n → ∀ s ∈ scores, ⊥ < s)
    (h : fromVerificationScores f vectors = some d) (eta : K) :
    talagrandKlDeltaTau ((d.rankHistogram.drop 1).map fun c : ℕ => (c : K)) eta =
      if (ranksOf n vectors).count 1 = 0 then 0 else eta * ((n - 1) / n) := by
  obtain ⟨k, rfl⟩ : ∃ k, n = k + 3 := ⟨n - 3, by omega⟩
  rw [rankHistogram_of_diagnostic (by omega) head h, rankHistogram_bins hn scored, List.map_cons,
    List.map_replicate, Nat.cast_zero]
  split
  next hnone =>
    rw [hnone, Nat.cast_zero]
    simp [talagrandKlDeltaTau]
  next hsome =>
    have hone : (1 : K) ≤ ((ranksOf (k + 3) vectors).count 1 : K) :=
      Nat.one_le_cast.mpr (Nat.pos_of_ne_zero hsome)
    have hfirst := talagrandKlDeltaTau_first hone k eta
    have hshare : (((k + 3 : ℕ) : K) - 1) / ((k + 3 : ℕ) : K) = (k + 2) / (k + 3) := by
      push_cast
      congr 1
      ring
    rw [hshare]
    exact hfirst

end Update

/-! ## The guarantee -/

section

variable {f : SpreadMath K} {n : ℕ} {vectors : List (List (Score K))}

omit [Field K] in
theorem zero_count_iff (hn : 2 ≤ n) :
    (ranksOf n vectors).count 0 = 0 ↔ NoSharedTop n vectors := by
  rw [List.count_eq_zero, ranksOf, List.mem_map]
  constructor
  · intro h scores hscores hlength hshared
    exact h ⟨scores, mem_runsOf.mpr ⟨hscores, hlength⟩,
      (runnerUpRank_eq_zero_iff (by omega)).mpr hshared⟩
  · intro h hzero
    obtain ⟨scores, hscores, hrank⟩ := hzero
    obtain ⟨hmem, hlength⟩ := mem_runsOf.mp hscores
    exact h scores hmem hlength ((runnerUpRank_eq_zero_iff (by omega)).mp hrank)

theorem binZeroUnused_iff (hn : 2 ≤ n) (head : vectors.head?.map List.length = some n) :
    BinZeroUnused f vectors ↔ NoSharedTop n vectors := by
  obtain ⟨d, hd, hhistogram⟩ := exists_diagnostic (f := f) hn head
  have hbin := rankHistogram_getD hn vectors (Nat.zero_le n)
  rw [← zero_count_iff hn, ← hbin, ← hhistogram]
  constructor
  · intro h
    exact h d hd
  · intro h d' hd'
    rw [hd] at hd'
    cases hd'
    exact h

theorem countsRuns_iff (hn : 2 ≤ n) (head : vectors.head?.map List.length = some n) :
    CountsRuns f n vectors ↔ NoSharedTop n vectors := by
  obtain ⟨d, hd, hhistogram⟩ := exists_diagnostic (f := f) hn head
  have hsum := sum_count_from_one (ranksOf n vectors) (ranksOf_le hn vectors)
  have hbins : ((List.range' 1 n).map fun r => d.rankHistogram.getD r 0) =
      (List.range' 1 n).map (ranksOf n vectors).count := by
    apply List.map_congr_left
    intro r hr
    rw [List.mem_range'_1] at hr
    rw [hhistogram]
    exact rankHistogram_getD hn vectors (by omega)
  have hruns : (ranksOf n vectors).length =
      vectors.countP fun scores => decide (scores.length = n) := by
    rw [ranksOf, List.length_map, runsOf, List.countP_eq_length_filter]
  rw [hruns] at hsum
  rw [← zero_count_iff hn]
  constructor
  · intro h
    have htotal := h d hd
    rw [hbins] at htotal
    omega
  · intro h d' hd'
    rw [hd] at hd'
    cases hd'
    rw [hbins]
    omega

theorem alive_iff (hn : 2 ≤ n) {r : ℕ} (hr : 1 ≤ r) (hrn : r ≤ n) :
    Alive f n r ↔ r = 1 ∨ r = n / 2 := by
  have hcount : ∀ scores : List (Score K), scores.length = n →
      ((∃ d, fromVerificationScores f [scores] = some d ∧ d.rankHistogram.getD r 0 = 1) ↔
        runnerUpRank scores = r) := by
    intro scores hlength
    obtain ⟨d, hd, hhistogram⟩ := @exists_diagnostic K _ _ f n [scores] hn
      (by simp [hlength])
    have hranks : ranksOf n [scores] = [runnerUpRank scores] := by
      simp [ranksOf, runsOf, hlength]
    have hbin := rankHistogram_getD hn [scores] hrn
    rw [hranks, ← hhistogram] at hbin
    constructor
    · intro h
      obtain ⟨d', hd', hone⟩ := h
      rw [hd] at hd'
      cases hd'
      rw [hbin] at hone
      have hmem := List.count_pos_iff.mp (by omega : 0 < [runnerUpRank scores].count r)
      exact (List.mem_singleton.mp hmem).symm
    · intro h
      refine ⟨d, hd, ?_⟩
      rw [hbin, h]
      simp
  unfold Alive
  constructor
  · intro h
    obtain ⟨scores, hlength, hbin⟩ := h
    have hrank := (hcount scores hlength).mp hbin
    have hcases := runnerUpRank_cases (List.ne_nil_of_length_pos (by omega : 0 < scores.length))
    omega
  · intro h
    obtain ⟨k, rfl⟩ : ∃ k, n = k + 2 := ⟨n - 2, by omega⟩
    rcases h with rfl | rfl
    · refine ⟨⊤ :: List.replicate (k + 1) ((0 : K) : WithTop K), by simp, ?_⟩
      rw [hcount _ (by simp)]
      exact runnerUpRank_alone (WithBot.bot_lt_coe _)
        (WithBot.coe_lt_coe.mpr (WithTop.coe_lt_top 0)) k
    · refine ⟨List.replicate (k + 2) ⊥, by simp, ?_⟩
      rw [hcount _ (by simp)]
      exact runnerUpRank_bot (k + 1)

/-- The histogram is not one of ranks for any number of adapters: only the bins 1 and `n / 2`
are counted in, and where the top is shared the unused bin 0 is. -/
theorem histogram_of_ranks_never (f : SpreadMath K) (n : ℕ) (vectors : List (List (Score K)))
    (hn : 2 ≤ n) (head : vectors.head?.map List.length = some n) :
    ¬HistogramOfRanks f n vectors ∧
      (BinZeroUnused f vectors ↔ NoSharedTop n vectors) ∧
      (CountsRuns f n vectors ↔ NoSharedTop n vectors) ∧
      OrderFree f vectors ∧
      ∀ r, 1 ≤ r → r ≤ n → (Alive f n r ↔ r = 1 ∨ r = n / 2) := by
  refine ⟨?_, binZeroUnused_iff hn head, countsRuns_iff hn head, orderFree f vectors,
    fun r => alive_iff hn⟩
  intro h
  have hlast := (alive_iff hn (by omega) (le_refl n)).mp (h.alive n (by omega) (le_refl n))
  omega

/-- Two adapters that are rated the same. -/
def tiedVectors : List (List (Score ℚ)) :=
  [[((1 / 2 : ℚ) : WithTop ℚ), ((1 / 2 : ℚ) : WithTop ℚ)]]

def flatSpread : SpreadMath ℚ where
  value s := (s.unbotD 0).untopD 0
  sqrt x := x

theorem histogram_of_ranks_never_tied :
    2 ≤ 2 ∧ tiedVectors.head?.map List.length = some 2 ∧
      ¬HistogramOfRanks flatSpread 2 tiedVectors :=
  ⟨le_refl 2, rfl, (histogram_of_ranks_never flatSpread 2 tiedVectors (le_refl 2) rfl).1⟩

theorem tied_runner_up_in_bin_zero :
    ¬∀ (n : ℕ) (vectors : List (List (Score ℚ))), 2 ≤ n →
      vectors.head?.map List.length = some n → HistogramOfRanks flatSpread n vectors := by
  intro h
  have hzero := (h 2 tiedVectors (le_refl 2) rfl).unused
  have halone := (binZeroUnused_iff (le_refl 2) rfl).mp hzero
  refine halone _ (List.mem_singleton_self _) rfl ⟨((1 / 2 : ℚ) : WithTop ℚ), ?_, ?_, ?_⟩
  · exact WithBot.bot_lt_coe _
  · simp
  · simp

end

end ControlPlane.Guarantees.RankHistogram

/-!
# Coverage of the conformal half-width

A residual held out is covered exactly if it is at most the residual of the quantile index
among all of them, so that as many choices are covered as that index says. The index is
capped at the number of the others: where the cap is reached, the largest residual is not
covered unless it occurs twice.
-/
namespace ControlPlane.Guarantees.ConformalCoverage

open Lib Source.Ensemble

variable {K : Type} [Field K] [LinearOrder K] [IsStrictOrderedRing K] [FloorSemiring K]

/-! ## Statement -/

/-- The positions whose residual is at most the half-width computed from the others. -/
def coveredChoices (residuals : List K) (coverage : K) : Finset ℕ :=
  (Finset.range residuals.length).filter fun i =>
    (residuals[i]?).any fun r => decide (r ≤ qHat (residuals.eraseIdx i) coverage)

/-- At least the promised share of the choices is covered. -/
def Covers (residuals : List K) (coverage : K) : Prop :=
  coverage * (residuals.length : K) ≤ ((coveredChoices residuals coverage).card : K)

def LargestTwice (residuals : List K) : Prop :=
  ∃ z, (∀ r ∈ residuals, r ≤ z) ∧ 2 ≤ residuals.count z

/-! ## The choices that are covered -/

section

variable {residuals : List K} {coverage : K} {n : ℕ}

theorem quantileIndex_pos (hn : 1 ≤ n) (pos : 0 < coverage) : 1 ≤ quantileIndex n coverage := by
  have hproduct : 0 < ((n + 1 : ℕ) : K) * coverage := mul_pos (by positivity) pos
  exact le_min (Nat.ceil_pos.mpr hproduct) hn

/-- The residual at the quantile index among all of them. -/
theorem exists_threshold (length : residuals.length = n + 1) (hn : 1 ≤ n) (pos : 0 < coverage) :
    ∃ z, (sorted residuals)[quantileIndex n coverage - 1]? = some z ∧
      ∀ i v, residuals[i]? = some v → (v ≤ qHat (residuals.eraseIdx i) coverage ↔ v ≤ z) := by
  have hle : quantileIndex n coverage ≤ n := min_le_right _ _
  have hlt : quantileIndex n coverage - 1 < (sorted residuals).length := by
    rw [length_sorted, length]
    omega
  refine ⟨(sorted residuals)[quantileIndex n coverage - 1], List.getElem?_eq_getElem hlt, ?_⟩
  intro i v hv
  obtain ⟨hi, _⟩ := List.getElem?_eq_some_iff.mp hv
  have herase : (residuals.eraseIdx i).length = n := by
    rw [List.length_eraseIdx_of_lt hi, length]
    rfl
  have hothers : quantileIndex n coverage - 1 < (sorted (residuals.eraseIdx i)).length := by
    have := quantileIndex_pos hn pos
    rw [length_sorted, herase]
    omega
  have hhat : qHat (residuals.eraseIdx i) coverage =
      (sorted (residuals.eraseIdx i))[quantileIndex n coverage - 1] := by
    unfold qHat
    dsimp only
    rw [herase, List.getElem?_eq_getElem hothers, Option.getD_some]
  rw [hhat]
  exact le_sorted_eraseIdx_iff hv (List.getElem?_eq_getElem hothers) (List.getElem?_eq_getElem hlt)

omit [IsStrictOrderedRing K] in
theorem card_coveredChoices {z : K}
    (threshold : ∀ i v, residuals[i]? = some v →
      (v ≤ qHat (residuals.eraseIdx i) coverage ↔ v ≤ z)) :
    (coveredChoices residuals coverage).card = residuals.countP fun r => decide (r ≤ z) := by
  rw [countP_eq_card_positions, coveredChoices]
  congr 1
  apply Finset.filter_congr
  intro i _
  cases hv : residuals[i]? with
  | none => simp
  | some v => simp [threshold i v hv]

/-! ## The capped index -/

omit [Field K] [IsStrictOrderedRing K] [FloorSemiring K] in
/-- The place before the last holds a largest residual exactly if there are two of them. -/
theorem largestTwice_iff {z : K} (length : residuals.length = n + 1) (hn : 1 ≤ n)
    (hz : (sorted residuals)[n - 1]? = some z) :
    LargestTwice residuals ↔ ∀ r ∈ residuals, r ≤ z := by
  have hsplit : ∀ v, (∀ r ∈ residuals, r ≤ v) →
      below residuals v + residuals.count v = n + 1 := by
    intro v hv
    rw [← length, List.length_eq_countP_add_countP fun r => decide (r < v), below, List.count]
    congr 1
    apply List.countP_congr
    intro r hr
    have := hv r hr
    simp only [beq_iff_eq, decide_eq_true_eq, not_lt]
    exact ⟨fun h => h.ge, fun h => le_antisymm this h⟩
  constructor
  · intro h r hr
    obtain ⟨largest, hlargest, htwice⟩ := h
    have htotal := hsplit largest hlargest
    have hbelow := (below_le_iff_sorted hz largest).mp (by omega)
    exact (hlargest r hr).trans hbelow
  · intro hall
    have htotal := hsplit z hall
    have hbelow := (below_le_iff_sorted hz z).mpr (le_refl z)
    exact ⟨z, hall, by omega⟩

theorem covers_of_room (length : residuals.length = n + 1) (hn : 1 ≤ n) (pos : 0 < coverage)
    (room : coverage * (n + 1) ≤ n) : Covers residuals coverage := by
  obtain ⟨z, hz, hthreshold⟩ := exists_threshold length hn pos
  have hindex := quantileIndex_pos hn pos
  have hcount := lt_countP_le hz
  have hceil : quantileIndex n coverage = ⌈((n + 1 : ℕ) : K) * coverage⌉₊ := by
    apply min_eq_left
    rw [Nat.ceil_le, mul_comm]
    push_cast
    exact room
  have hreach : ((n + 1 : ℕ) : K) * coverage ≤ (quantileIndex n coverage : K) := by
    rw [hceil]
    exact Nat.le_ceil _
  have hcovered : quantileIndex n coverage ≤ residuals.countP fun r => decide (r ≤ z) := by
    omega
  rw [Covers, card_coveredChoices hthreshold, length, mul_comm]
  exact hreach.trans (Nat.cast_le.mpr hcovered)

theorem covers_iff_of_capped (length : residuals.length = n + 1) (hn : 1 ≤ n)
    (pos : 0 < coverage) (lt : coverage < 1) (capped : n < coverage * (n + 1)) :
    Covers residuals coverage ↔ LargestTwice residuals := by
  obtain ⟨z, hz, hthreshold⟩ := exists_threshold length hn pos
  have hfull : quantileIndex n coverage = n := by
    apply min_eq_right
    apply le_of_lt
    rw [Nat.lt_ceil, mul_comm]
    push_cast
    exact capped
  rw [hfull] at hz
  have hall : (residuals.countP fun r => decide (r ≤ z)) = residuals.length ↔
      ∀ r ∈ residuals, r ≤ z := by
    rw [List.countP_eq_length]
    simp
  have hle : (residuals.countP fun r => decide (r ≤ z)) ≤ residuals.length :=
    List.countP_le_length
  rw [largestTwice_iff length hn hz, ← hall, Covers, card_coveredChoices hthreshold]
  constructor
  · intro hcovers
    by_contra hless
    have hbound : ((residuals.countP fun r => decide (r ≤ z) : ℕ) : K) ≤ n :=
      Nat.cast_le.mpr (by omega)
    rw [length] at hcovers
    push_cast at hcovers
    linarith
  · intro hevery
    rw [hevery]
    exact mul_le_of_le_one_left (Nat.cast_nonneg _) lt.le

end

/-! ## What the interval contains -/

section

variable {residuals : List K} {coverage qPredicted y : K}

omit [IsStrictOrderedRing K] in
theorem qHat_nonneg (nonneg : ∀ r ∈ residuals, 0 ≤ r) : 0 ≤ qHat residuals coverage := by
  unfold qHat
  dsimp only
  cases hentry : (sorted residuals)[quantileIndex residuals.length coverage - 1]? with
  | none => exact zero_le_one
  | some r => exact nonneg r ((sorted_perm residuals).mem_iff.mp (List.mem_of_getElem? hentry))

/-- Within the range of qualities, the interval contains what is no further from the prediction
than the half-width. -/
theorem mem_conformalInterval_iff (nonempty : residuals ≠ []) (nonneg : ∀ r ∈ residuals, 0 ≤ r)
    (hq : qPredicted ∈ Set.Icc 0 1) (hy : y ∈ Set.Icc 0 1) :
    ((conformalInterval qPredicted residuals coverage).1 ≤ y ∧
        y ≤ (conformalInterval qPredicted residuals coverage).2) ↔
      |y - qPredicted| ≤ qHat residuals coverage := by
  have hwidth : 0 ≤ qHat residuals coverage := qHat_nonneg nonneg
  obtain ⟨hq0, hq1⟩ := hq
  obtain ⟨hy0, hy1⟩ := hy
  have hlower : clamp 0 1 (qPredicted - qHat residuals coverage) ≤ y ↔
      qPredicted - qHat residuals coverage ≤ y := by
    rw [clamp, min_eq_left (by linarith), max_le_iff]
    exact and_iff_right hy0
  have hupper : y ≤ clamp 0 1 (qPredicted + qHat residuals coverage) ↔
      y ≤ qPredicted + qHat residuals coverage := by
    rw [clamp, max_eq_right (le_min (by linarith) zero_le_one), le_min_iff]
    exact and_iff_left hy1
  rw [conformalInterval, if_neg (by simpa using nonempty)]
  dsimp only
  rw [hlower, hupper, abs_le]
  constructor
  · intro h
    constructor <;> linarith [h.1, h.2]
  · intro h
    constructor <;> linarith [h.1, h.2]

end

/-! ## The guarantee -/

theorem conformalInterval_covers_iff {residuals : List K} {coverage : K} {n : ℕ} (hn : 1 ≤ n)
    (length : residuals.length = n + 1) (pos : 0 < coverage) (lt : coverage < 1) :
    Covers residuals coverage ↔ coverage * (n + 1) ≤ n ∨ LargestTwice residuals := by
  by_cases hroom : coverage * (n + 1) ≤ n
  · exact iff_of_true (covers_of_room length hn pos hroom) (Or.inl hroom)
  · rw [covers_iff_of_capped length hn pos lt (not_le.mp hroom)]
    exact (or_iff_right hroom).symm

theorem threeResiduals_covers_iff :
    Covers [(0 : ℚ), 1 / 10, 2 / 10] (1 / 2) ↔
      (1 / 2 : ℚ) * ((2 : ℕ) + 1) ≤ (2 : ℕ) ∨ LargestTwice [(0 : ℚ), 1 / 10, 2 / 10] :=
  conformalInterval_covers_iff (by decide) rfl (by norm_num) (by norm_num)

/-- With one residual to compare with, the larger of two is never covered. -/
theorem twoResiduals_not_covered : ¬Covers [(0 : ℚ), 1] (9 / 10) := by
  rw [covers_iff_of_capped (n := 1) rfl (by decide) (by norm_num) (by norm_num) (by norm_num)]
  intro h
  obtain ⟨z, hlargest, htwice⟩ := h
  have hone : (1 : ℚ) ≤ z := hlargest 1 (by simp)
  have hzero : z ≠ 0 := by
    intro heq
    rw [heq] at hone
    norm_num at hone
  rw [List.count_cons_of_ne hzero.symm] at htwice
  have := List.count_le_length (a := z) (l := [(1 : ℚ)])
  rw [List.length_singleton] at this
  omega

end ControlPlane.Guarantees.ConformalCoverage
