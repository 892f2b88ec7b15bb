import Mathlib.Algebra.BigOperators.Ring.Finset
import Mathlib.Algebra.BigOperators.Ring.List
import Mathlib.Algebra.Order.BigOperators.Group.List
import Mathlib.Algebra.Order.Field.Basic
import Mathlib.Algebra.Ring.Nat
import Mathlib.Tactic.Linarith
import Mathlib.Tactic.Ring

/-!
# Run lengths

Observations, the newest first, are cut into runs. A history says of each observation whether
its run ended with it; its weight is the product of the weights of what it says and of every
observation under the earlier ones of its run. The histories that end in a run of one length
have a total weight that can be kept up to date one observation at a time, also where the
histories with a run of `cap` observations or more are left out.
-/
namespace ControlPlane.Lib.RunLengths

/-- The length of the run that is open at the end of a history. -/
def runLength : List Bool → ℕ
  | [] => 0
  | true :: _ => 0
  | false :: earlier => runLength earlier + 1

/-- No open run was ever `cap` observations long. -/
def Below (cap : ℕ) : List Bool → Prop
  | [] => True
  | ended :: earlier => runLength (ended :: earlier) < cap ∧ Below cap earlier

instance decidableBelow (cap : ℕ) : (history : List Bool) → Decidable (Below cap history)
  | [] => isTrue trivial
  | ended :: earlier =>
      have := decidableBelow cap earlier
      inferInstanceAs (Decidable (runLength (ended :: earlier) < cap ∧ Below cap earlier))

/-- The histories of `n` observations. -/
def histories : ℕ → List (List Bool)
  | 0 => [[]]
  | n + 1 => (histories n).map (true :: ·) ++ (histories n).map (false :: ·)

theorem mem_histories {n : ℕ} {history : List Bool} :
    history ∈ histories n ↔ history.length = n := by
  induction n generalizing history with
  | zero => simp [histories]
  | succ n ih =>
      cases history with
      | nil => simp [histories]
      | cons ended earlier => cases ended <;> simp [histories, ih]

theorem runLength_le (history : List Bool) : runLength history ≤ history.length := by
  induction history with
  | nil => exact Nat.le_refl 0
  | cons ended earlier ih =>
      cases ended with
      | true => exact Nat.zero_le _
      | false => exact Nat.succ_le_succ ih

/-- A bound that the number of observations keeps excludes no history. -/
theorem below_of_length_lt {cap : ℕ} {history : List Bool} (h : history.length < cap) :
    Below cap history := by
  induction history with
  | nil => exact trivial
  | cons ended earlier ih =>
      exact ⟨(runLength_le _).trans_lt h, ih (Nat.lt_of_succ_lt h)⟩

theorem Below.runLength_lt {cap : ℕ} (hcap : 0 < cap) {history : List Bool}
    (h : Below cap history) : runLength history < cap := by
  cases history with
  | nil => exact hcap
  | cons ended earlier => exact h.1

/-- A history whose open run has any length that the observations allow. -/
def openFor (r ended : ℕ) : List Bool := List.replicate r false ++ List.replicate ended true

theorem length_openFor (r ended : ℕ) : (openFor r ended).length = r + ended := by
  simp [openFor]

theorem runLength_openFor (r ended : ℕ) : runLength (openFor r ended) = r := by
  induction r with
  | zero => cases ended <;> rfl
  | succ r ih => exact congrArg (· + 1) ih

theorem below_openFor {cap r : ℕ} (hr : r < cap) (ended : ℕ) : Below cap (openFor r ended) := by
  induction r with
  | zero =>
      induction ended with
      | zero => exact trivial
      | succ ended ih => exact ⟨hr, ih⟩
  | succ r ih =>
      refine ⟨?_, ih (Nat.lt_of_succ_lt hr)⟩
      exact (runLength_openFor (r + 1) ended).trans_lt hr

theorem below_cut {cap : ℕ} (hcap : 0 < cap) (earlier : List Bool) :
    Below cap (true :: earlier) ↔ Below cap earlier :=
  ⟨fun h => h.2, fun h => ⟨hcap, h⟩⟩

/-! ## Weights -/

variable {X K : Type}

section Weights

variable [CommSemiring K] (predict : List X → X → K) (stay cut : K)

/-- The weight of a history together with the observations; an observation is weighed under
those of the run that was open before it. -/
def weight : List X → List Bool → K
  | x :: xs, ended :: earlier =>
      (if ended then cut else stay) *
        (predict (xs.take (runLength earlier)) x * weight xs earlier)
  | _, _ => 1

/-- The total weight of the histories with a property. -/
def total (P : List Bool → Prop) [DecidablePred P] (xs : List X) : K :=
  ((histories xs.length).map fun history =>
    if P history then weight predict stay cut xs history else 0).sum

/-- The total weight of the histories, with no run of `cap` observations, whose open run is
`r` observations long. -/
def joint (cap : ℕ) (xs : List X) (r : ℕ) : K :=
  total predict stay cut (fun history => Below cap history ∧ runLength history = r) xs

variable {predict stay cut}

/-- A total is the sum over what the last observation did. -/
theorem total_cons (P : List Bool → Prop) [DecidablePred P] (x : X) (xs : List X) :
    total predict stay cut P (x :: xs) =
      ((histories xs.length).map fun earlier => if P (true :: earlier) then
        cut * (predict (xs.take (runLength earlier)) x * weight predict stay cut xs earlier)
        else 0).sum +
      ((histories xs.length).map fun earlier => if P (false :: earlier) then
        stay * (predict (xs.take (runLength earlier)) x * weight predict stay cut xs earlier)
        else 0).sum := by
  simp only [total, List.length_cons, histories, List.map_append, List.sum_append, List.map_map,
    Function.comp_def, weight, if_true, Bool.false_eq_true, if_false]

theorem joint_nil_zero (cap : ℕ) : joint predict stay cut cap ([] : List X) 0 = 1 := by
  simp [joint, total, histories, Below, runLength, weight]

theorem joint_eq_zero {cap : ℕ} {xs : List X} {r : ℕ}
    (h : ∀ history : List Bool, history.length = xs.length → Below cap history →
      runLength history ≠ r) : joint predict stay cut cap xs r = 0 := by
  unfold joint total
  apply List.sum_eq_zero
  intro v hv
  obtain ⟨history, hmem, rfl⟩ := List.mem_map.mp hv
  exact if_neg fun hP => h history (mem_histories.mp hmem) hP.1 hP.2

theorem joint_of_length_lt {cap : ℕ} {xs : List X} {r : ℕ} (h : xs.length < r) :
    joint predict stay cut cap xs r = 0 := by
  apply joint_eq_zero
  intro history hlength _ hr
  have := runLength_le history
  omega

/-- The histories by the length of their open run. -/
theorem sum_joint_mul {cap : ℕ} (hcap : 0 < cap) (xs : List X) (f : ℕ → K) :
    ∑ i ∈ Finset.range cap, f i * joint predict stay cut cap xs i =
      ((histories xs.length).map fun history => if Below cap history then
        f (runLength history) * weight predict stay cut xs history else 0).sum := by
  unfold joint total
  induction histories xs.length with
  | nil => simp
  | cons history rest ih =>
      simp only [List.map_cons, List.sum_cons, mul_add, Finset.sum_add_distrib, ih]
      congr 1
      by_cases hbelow : Below cap history
      · rw [Finset.sum_eq_single (runLength history)]
        · simp [hbelow]
        · intro i _ hi
          simp [hbelow, hi.symm]
        · intro hi
          exact absurd (Finset.mem_range.mpr (hbelow.runLength_lt hcap)) hi
      · simp [hbelow]

theorem sum_joint {cap : ℕ} (hcap : 0 < cap) (xs : List X) :
    ∑ i ∈ Finset.range cap, joint predict stay cut cap xs i =
      total predict stay cut (Below cap) xs := by
  have h : ∑ i ∈ Finset.range cap, 1 * joint predict stay cut cap xs i = _ :=
    sum_joint_mul hcap xs fun _ => 1
  simpa only [one_mul, total] using h

/-- A run ends with an observation, however long it was. -/
theorem joint_cut {cap : ℕ} (hcap : 0 < cap) (x : X) (xs : List X) :
    joint predict stay cut cap (x :: xs) 0 =
      cut * ∑ i ∈ Finset.range cap, predict (xs.take i) x * joint predict stay cut cap xs i := by
  rw [sum_joint_mul hcap xs fun i => predict (xs.take i) x, joint, total_cons,
    ← List.sum_map_mul_left]
  have hopen : ((histories xs.length).map fun earlier =>
      if Below cap (false :: earlier) ∧ runLength (false :: earlier) = 0 then
        stay * (predict (xs.take (runLength earlier)) x * weight predict stay cut xs earlier)
        else 0).sum = 0 := by
    apply List.sum_eq_zero
    intro v hv
    obtain ⟨earlier, _, rfl⟩ := List.mem_map.mp hv
    exact if_neg fun h => Nat.succ_ne_zero _ h.2
  rw [hopen, add_zero]
  congr 1
  apply List.map_congr_left
  intro earlier _
  simp only [below_cut hcap, runLength, and_true, mul_ite, mul_zero]

/-- A run goes on with an observation, as long as it stays below the bound. -/
theorem joint_stay {cap : ℕ} (x : X) (xs : List X) (r : ℕ) :
    joint predict stay cut cap (x :: xs) (r + 1) =
      if r + 1 < cap then
        stay * (predict (xs.take r) x * joint predict stay cut cap xs r) else 0 := by
  rw [joint, total_cons]
  have hended : ((histories xs.length).map fun earlier =>
      if Below cap (true :: earlier) ∧ runLength (true :: earlier) = r + 1 then
        cut * (predict (xs.take (runLength earlier)) x * weight predict stay cut xs earlier)
        else 0).sum = 0 := by
    apply List.sum_eq_zero
    intro v hv
    obtain ⟨earlier, _, rfl⟩ := List.mem_map.mp hv
    exact if_neg fun h => Nat.succ_ne_zero r h.2.symm
  rw [hended, zero_add]
  by_cases hr : r + 1 < cap
  · rw [if_pos hr, joint, total, ← List.sum_map_mul_left, ← List.sum_map_mul_left]
    congr 1
    apply List.map_congr_left
    intro earlier _
    by_cases hlength : runLength earlier = r
    · simp [Below, runLength, hlength, hr]
    · simp [runLength, hlength]
  · rw [if_neg hr]
    apply List.sum_eq_zero
    intro v hv
    obtain ⟨earlier, _, rfl⟩ := List.mem_map.mp hv
    refine if_neg fun h => hr ?_
    have hbelow := h.1.1
    rwa [h.2] at hbelow

end Weights

/-! ## Positive weights -/

section Positive

variable [Field K] [LinearOrder K] [IsStrictOrderedRing K] {predict : List X → X → K}
  {stay cut : K}

theorem weight_pos (hpredict : ∀ run x, 0 < predict run x) (hstay : 0 < stay) (hcut : 0 < cut)
    (xs : List X) (history : List Bool) : 0 < weight predict stay cut xs history := by
  induction xs generalizing history with
  | nil => simp [weight]
  | cons x xs ih =>
      cases history with
      | nil => simp [weight]
      | cons ended earlier =>
          rw [weight]
          refine mul_pos ?_ (mul_pos (hpredict _ _) (ih earlier))
          cases ended
          · simpa using hstay
          · simpa using hcut

theorem total_pos (hpredict : ∀ run x, 0 < predict run x) (hstay : 0 < stay) (hcut : 0 < cut)
    {P : List Bool → Prop} [DecidablePred P] {xs : List X} (history : List Bool)
    (hlength : history.length = xs.length) (hP : P history) :
    0 < total predict stay cut P xs := by
  have hnonneg : ∀ v ∈ (histories xs.length).map fun history =>
      if P history then weight predict stay cut xs history else 0, 0 ≤ v := by
    intro v hv
    obtain ⟨other, _, rfl⟩ := List.mem_map.mp hv
    split
    · exact (weight_pos hpredict hstay hcut xs other).le
    · exact le_refl 0
  have hmem : weight predict stay cut xs history ∈ (histories xs.length).map fun history =>
      if P history then weight predict stay cut xs history else 0 :=
    List.mem_map.mpr ⟨history, mem_histories.mpr hlength, if_pos hP⟩
  exact (weight_pos hpredict hstay hcut xs history).trans_le
    (List.single_le_sum hnonneg _ hmem)

theorem joint_pos (hpredict : ∀ run x, 0 < predict run x) (hstay : 0 < stay) (hcut : 0 < cut)
    {cap r : ℕ} {xs : List X} (hr : r < cap) (hlength : r ≤ xs.length) :
    0 < joint predict stay cut cap xs r := by
  apply total_pos hpredict hstay hcut (openFor r (xs.length - r))
  · rw [length_openFor]
    omega
  · exact ⟨below_openFor hr _, runLength_openFor _ _⟩

end Positive

end ControlPlane.Lib.RunLengths
