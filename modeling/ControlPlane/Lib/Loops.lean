import Mathlib.Data.List.Basic
import Mathlib.Data.Option.Basic
import Mathlib.Order.Lattice
import Mathlib.Order.MinMax
import Mathlib.Tactic.Common

/-!
# Loops with an early exit

A loop over an arbitrary state whose body may stop it, run for a given number of
rounds. The states at the starts of the rounds are a function of their own: what
one round preserves holds of all of them, and a loop ends in one of them.
-/
namespace ControlPlane.Lib

/-- One round of a loop: go on with a new state, or stop with a result. -/
inductive Round (σ ρ : Type) where
  | next (s : σ)
  | stop (r : ρ)

variable {σ ρ : Type}

/-- `remaining` rounds of `body`, numbered from `i`. -/
def forRounds (body : Nat → σ → Round σ ρ) : Nat → Nat → σ → Round σ ρ
  | 0, _, s => .next s
  | remaining + 1, i, s =>
      match body i s with
      | .next s' => forRounds body remaining (i + 1) s'
      | .stop r => .stop r

/-- The state `n` rounds after round `i` was started with `s`, if the loop gets there. -/
def roundStart (body : Nat → σ → Round σ ρ) : Nat → σ → Nat → Option σ
  | _, s, 0 => some s
  | i, s, n + 1 =>
      match body i s with
      | .next s' => roundStart body (i + 1) s' n
      | .stop _ => none

/-! ## Starts of rounds -/

/-- The last step to a round. -/
theorem roundStart_succ_eq_some {body : Nat → σ → Round σ ρ} {i n : Nat} {s s'' : σ} :
    roundStart body i s (n + 1) = some s'' ↔
      ∃ s', roundStart body i s n = some s' ∧ body (i + n) s' = .next s'' := by
  induction n generalizing i s with
  | zero =>
      simp only [roundStart, Option.some.injEq, Nat.add_zero, exists_eq_left']
      cases body i s with
      | next s' => simp
      | stop r => simp
  | succ n ih =>
      rw [roundStart]
      cases hbody : body i s with
      | stop r => simp [roundStart, hbody]
      | next s' =>
          have hnum : i + 1 + n = i + (n + 1) := by omega
          simp only [ih, hnum]
          simp only [roundStart, hbody]

/-- Two loops that go on alike start their rounds alike. -/
theorem roundStart_congr {body body' : Nat → σ → Round σ ρ}
    (alike : ∀ i s s', body i s = .next s' ↔ body' i s = .next s') (i : Nat) (s : σ) (n : Nat) :
    roundStart body i s n = roundStart body' i s n := by
  induction n with
  | zero => rfl
  | succ n ih =>
      apply Option.ext
      intro s''
      rw [roundStart_succ_eq_some, roundStart_succ_eq_some, ih]
      constructor
      · rintro ⟨s', hstart, hbody⟩
        exact ⟨s', hstart, (alike (i + n) s' s'').mp hbody⟩
      · rintro ⟨s', hstart, hbody⟩
        exact ⟨s', hstart, (alike (i + n) s' s'').mpr hbody⟩

/-- A loop that reaches a round has reached every round before it. -/
theorem roundStart_of_le {body : Nat → σ → Round σ ρ} {i : Nat} {s : σ} {n m : Nat} {s'' : σ}
    (h : n ≤ m) (reached : roundStart body i s m = some s'') :
    ∃ s', roundStart body i s n = some s' := by
  induction h generalizing s'' with
  | refl => exact ⟨s'', reached⟩
  | step _ ih =>
      obtain ⟨s', hs', -⟩ := roundStart_succ_eq_some.mp reached
      exact ih hs'

/-- Invariant rule for the starts of all rounds. -/
theorem roundStart_holds {body : Nat → σ → Round σ ρ} {I : Nat → σ → Prop}
    (step : ∀ i s s', I i s → body i s = .next s' → I (i + 1) s') {i : Nat} {s : σ}
    (init : I i s) {n : Nat} {s' : σ} (h : roundStart body i s n = some s') : I (i + n) s' := by
  induction n generalizing s' with
  | zero =>
      simp only [roundStart, Option.some.injEq] at h
      exact h ▸ init
  | succ n ih =>
      obtain ⟨s₀, hstart, hbody⟩ := roundStart_succ_eq_some.mp h
      exact step (i + n) s₀ s' (ih hstart) hbody

/-! ## Ends of loops -/

/-- A loop runs out in the state behind its last round. -/
theorem forRounds_eq_next {body : Nat → σ → Round σ ρ} {remaining i : Nat} {s s' : σ} :
    forRounds body remaining i s = .next s' ↔ roundStart body i s remaining = some s' := by
  induction remaining generalizing i s with
  | zero => simp [forRounds, roundStart]
  | succ remaining ih =>
      simp only [forRounds, roundStart]
      cases body i s with
      | next s₁ => exact ih
      | stop r => simp

/-- A loop stops in a round that it reaches and whose body stops. -/
theorem forRounds_eq_stop {body : Nat → σ → Round σ ρ} {remaining i : Nat} {s : σ} {r : ρ} :
    forRounds body remaining i s = .stop r ↔
      ∃ n s', n < remaining ∧ roundStart body i s n = some s' ∧ body (i + n) s' = .stop r := by
  induction remaining generalizing i s with
  | zero => simp [forRounds]
  | succ remaining ih =>
      cases hbody : body i s with
      | stop r' =>
          simp only [forRounds, hbody, Round.stop.injEq]
          constructor
          · rintro rfl
            exact ⟨0, s, by omega, rfl, hbody⟩
          · rintro ⟨n, s', -, hstart, hstop⟩
            cases n with
            | zero =>
                cases hstart
                rw [Nat.add_zero, hbody] at hstop
                exact Round.stop.inj hstop
            | succ n => simp [roundStart, hbody] at hstart
      | next s₁ =>
          simp only [forRounds, hbody, ih]
          have hnum : ∀ n, i + 1 + n = i + (n + 1) := by omega
          constructor
          · rintro ⟨n, s', hn, hstart, hstop⟩
            refine ⟨n + 1, s', by omega, ?_, hnum n ▸ hstop⟩
            simp only [roundStart, hbody, hstart]
          · rintro ⟨n, s', hn, hstart, hstop⟩
            cases n with
            | zero =>
                cases hstart
                rw [Nat.add_zero, hbody] at hstop
                cases hstop
            | succ n =>
                simp only [roundStart, hbody] at hstart
                exact ⟨n, s', by omega, hstart, (hnum n).symm ▸ hstop⟩

/-- However many rounds are allowed, a loop stops with one result. -/
theorem forRounds_stop_unique {body : Nat → σ → Round σ ρ} {remaining remaining' i : Nat} {s : σ}
    {r r' : ρ} (h : forRounds body remaining i s = .stop r)
    (h' : forRounds body remaining' i s = .stop r') : r = r' := by
  induction remaining generalizing remaining' i s with
  | zero => cases h
  | succ remaining ih =>
      cases remaining' with
      | zero => cases h'
      | succ remaining' =>
          simp only [forRounds] at h h'
          cases hbody : body i s with
          | stop r₀ =>
              simp only [hbody] at h h'
              rw [← Round.stop.inj h]
              exact Round.stop.inj h'
          | next s' =>
              simp only [hbody] at h h'
              exact ih h h'

end ControlPlane.Lib

/-!
## Running minima and maxima that stop early

A loop that keeps the smallest (largest) value met so far and returns at once
when it touches a known bound computes the plain fold, provided the bound
really bounds the data. Nothing here depends on what the values are: the
statements hold over any linear order.
-/
namespace ControlPlane.Lib.ScanFold

variable {α : Type*} [LinearOrder α]

/-- Lower bounds of a running minimum: those of the start value and of every element. -/
theorem le_foldl_min_iff (values : List α) (start c : α) :
    c ≤ values.foldl min start ↔ c ≤ start ∧ ∀ a ∈ values, c ≤ a := by
  induction values generalizing start with
  | nil => simp
  | cons a rest ih =>
      simp only [List.foldl_cons, ih, le_min_iff, List.forall_mem_cons]
      exact and_assoc

/-- Strict lower bounds, likewise. -/
theorem lt_foldl_min_iff (values : List α) (start c : α) :
    c < values.foldl min start ↔ c < start ∧ ∀ a ∈ values, c < a := by
  induction values generalizing start with
  | nil => simp
  | cons a rest ih =>
      simp only [List.foldl_cons, ih, lt_min_iff, List.forall_mem_cons]
      exact and_assoc

/-- Upper bounds of a running maximum: those of the start value and of every element. -/
theorem foldl_max_le_iff (values : List α) (start c : α) :
    values.foldl max start ≤ c ↔ start ≤ c ∧ ∀ a ∈ values, a ≤ c := by
  induction values generalizing start with
  | nil => simp
  | cons a rest ih =>
      simp only [List.foldl_cons, ih, max_le_iff, List.forall_mem_cons]
      exact and_assoc

theorem foldl_min_le_start (values : List α) (start : α) :
    values.foldl min start ≤ start :=
  ((le_foldl_min_iff values start _).mp le_rfl).1

theorem start_le_foldl_max (values : List α) (start : α) :
    start ≤ values.foldl max start :=
  ((foldl_max_le_iff values start _).mp le_rfl).1

/-- Running minimum with an early exit at `floor`. -/
def scanMin (floor : α) : α → List α → α
  | acc, [] => acc
  | acc, a :: rest =>
      let next := if a < acc then a else acc
      if next ≤ floor then floor else scanMin floor next rest

/-- Running maximum with an early exit at `ceiling`. -/
def scanMax (ceiling : α) : α → List α → α
  | acc, [] => acc
  | acc, a :: rest =>
      let next := max acc a
      if ceiling ≤ next then ceiling else scanMax ceiling next rest

/-- Leaving at the floor is sound because nothing below the floor can follow. -/
theorem scanMin_eq_foldl (floor acc : α) (values : List α)
    (hacc : floor ≤ acc) (hvalues : ∀ a ∈ values, floor ≤ a) :
    scanMin floor acc values = values.foldl min acc := by
  induction values generalizing acc with
  | nil => rfl
  | cons a rest ih =>
      have hnext : (if a < acc then a else acc) = min acc a := by
        rw [min_comm]
        split
        next h => exact (min_eq_left h.le).symm
        next h => exact (min_eq_right (not_lt.mp h)).symm
      have hfloor : floor ≤ min acc a := le_min hacc (hvalues a (by simp))
      simp only [scanMin, hnext, List.foldl_cons]
      split
      next hstop =>
        have htouch : min acc a = floor := le_antisymm hstop hfloor
        rw [htouch]
        refine le_antisymm ?_ (foldl_min_le_start rest floor)
        rw [le_foldl_min_iff]
        exact ⟨le_rfl, fun b hb => hvalues b (by simp [hb])⟩
      next =>
        exact ih (min acc a) hfloor (fun b hb => hvalues b (by simp [hb]))

/-- Leaving at the ceiling is sound because nothing above the ceiling can follow. -/
theorem scanMax_eq_foldl (ceiling acc : α) (values : List α)
    (hacc : acc ≤ ceiling) (hvalues : ∀ a ∈ values, a ≤ ceiling) :
    scanMax ceiling acc values = values.foldl max acc := by
  induction values generalizing acc with
  | nil => rfl
  | cons a rest ih =>
      have hceiling : max acc a ≤ ceiling := max_le hacc (hvalues a (by simp))
      simp only [scanMax, List.foldl_cons]
      split
      next hstop =>
        have htouch : max acc a = ceiling := le_antisymm hceiling hstop
        rw [htouch]
        refine le_antisymm (start_le_foldl_max rest ceiling) ?_
        rw [foldl_max_le_iff]
        exact ⟨le_rfl, fun b hb => hvalues b (by simp [hb])⟩
      next =>
        exact ih (max acc a) hceiling (fun b hb => hvalues b (by simp [hb]))

section Holder

variable {β : Type*} (key : β → α)

/-- The first of the elements with the smallest key. -/
def FirstLowest (items : List β) (b : β) : Prop :=
  ∃ before after, items = before ++ b :: after ∧ (∀ c ∈ before, key b < key c) ∧
    ∀ c ∈ after, key b ≤ key c

theorem firstLowest_cons (b c : β) (rest : List β) :
    FirstLowest key (b :: rest) c ↔
      (c = b ∧ ∀ d ∈ rest, key b ≤ key d) ∨ (FirstLowest key rest c ∧ key c < key b) := by
  constructor
  · intro h
    obtain ⟨before, after, hsplit, hbefore, hafter⟩ := h
    cases before with
    | nil =>
        simp only [List.nil_append, List.cons.injEq] at hsplit
        obtain ⟨rfl, rfl⟩ := hsplit
        exact Or.inl ⟨rfl, hafter⟩
    | cons first before =>
        simp only [List.cons_append, List.cons.injEq] at hsplit
        obtain ⟨rfl, rfl⟩ := hsplit
        rw [List.forall_mem_cons] at hbefore
        exact Or.inr ⟨⟨before, after, rfl, hbefore.2, hafter⟩, hbefore.1⟩
  · intro h
    rcases h with ⟨rfl, hrest⟩ | ⟨⟨before, after, rfl, hbefore, hafter⟩, hlt⟩
    · exact ⟨[], rest, rfl, by simp, hrest⟩
    · exact ⟨b :: before, after, rfl, List.forall_mem_cons.mpr ⟨hlt, hbefore⟩, hafter⟩

/-- Running minimum of the keys with an early exit at `floor`, returning the element
that set it; `held` set the start value. -/
def holdLowest (floor : α) : α → Option β → List β → Option β
  | _, held, [] => held
  | acc, held, b :: rest =>
      let next := if key b < acc then key b else acc
      let setter := if key b < acc then some b else held
      if next ≤ floor then setter else holdLowest floor next setter rest

/-- What is held at the end is the first lowest element if it is below the start value,
and what was held at the start if no element is. -/
theorem holdLowest_eq_some_iff {floor acc : α} (held : Option β) {items : List β}
    (hacc : floor < acc) (hitems : ∀ b ∈ items, floor ≤ key b) (b : β) :
    holdLowest key floor acc held items = some b ↔
      (FirstLowest key items b ∧ key b < acc) ∨ (held = some b ∧ ∀ c ∈ items, acc ≤ key c) := by
  induction items generalizing acc held with
  | nil => simp [holdLowest, FirstLowest]
  | cons first rest ih =>
      obtain ⟨hfirst, hrest⟩ := List.forall_mem_cons.mp hitems
      rw [firstLowest_cons, List.forall_mem_cons]
      by_cases hlt : key first < acc
      · simp only [holdLowest, hlt, ↓reduceIte, not_le.mpr hlt, false_and, and_false, or_false]
        split
        next hstop =>
          -- the first element is at the floor, so nothing after it is lower
          have htouch : key first = floor := le_antisymm hstop hfirst
          have hnone : ¬(FirstLowest key rest b ∧ key b < key first) := by
            intro h
            obtain ⟨⟨before, after, rfl, _, _⟩, hb⟩ := h
            exact absurd (hrest b (by simp)) (not_le.mpr (htouch ▸ hb))
          simp only [hnone, or_false, Option.some.injEq]
          constructor
          · intro h
            subst h
            exact ⟨⟨rfl, fun d hd => htouch ▸ hrest d hd⟩, hlt⟩
          · intro h
            exact h.1.1.symm
        next hgo =>
          rw [ih (some first) (not_le.mp hgo) hrest, Option.some.injEq]
          constructor
          · intro h
            rcases h with ⟨hfl, hb⟩ | ⟨rfl, hall⟩
            · exact ⟨Or.inr ⟨hfl, hb⟩, hb.trans hlt⟩
            · exact ⟨Or.inl ⟨rfl, hall⟩, hlt⟩
          · intro h
            rcases h.1 with ⟨rfl, hall⟩ | hlater
            · exact Or.inr ⟨rfl, hall⟩
            · exact Or.inl hlater
      · simp only [holdLowest, hlt, ↓reduceIte, not_le.mpr hacc]
        rw [ih held hacc hrest]
        have hle : acc ≤ key first := not_lt.mp hlt
        constructor
        · intro h
          rcases h with ⟨hfl, hb⟩ | ⟨hheld, hall⟩
          · exact Or.inl ⟨Or.inr ⟨hfl, hb.trans_le hle⟩, hb⟩
          · exact Or.inr ⟨hheld, hle, hall⟩
        · intro h
          rcases h with ⟨⟨rfl, _⟩ | ⟨hfl, _⟩, hb⟩ | ⟨hheld, _, hall⟩
          · exact absurd hb hlt
          · exact Or.inl ⟨hfl, hb⟩
          · exact Or.inr ⟨hheld, hall⟩

end Holder

end ControlPlane.Lib.ScanFold

/-!
## Lists that are cut down item by item

A list over its limit loses the item that a rule picks, again and again, until it is short
enough. What every list keeps that is left after a removal holds of the result; a property
that no longer list has to have when a shorter one has it is lost in one of the rounds.
-/
namespace ControlPlane.Lib

variable {α : Type*}

/-- At most `fuel` removals; the length of the list is always enough. -/
def cutDown (drop : List α → Nat) (limit : Nat) : Nat → List α → List α
  | 0, l => l
  | fuel + 1, l =>
      if limit < l.length then cutDown drop limit fuel (l.eraseIdx (drop l)) else l

/-- The lists from which an item is removed, in order. -/
def cutRounds (drop : List α → Nat) (limit : Nat) : Nat → List α → List (List α)
  | 0, _ => []
  | fuel + 1, l =>
      if limit < l.length then l :: cutRounds drop limit fuel (l.eraseIdx (drop l)) else []

theorem cutDown_sublist (drop : List α → Nat) (limit fuel : Nat) (l : List α) :
    (cutDown drop limit fuel l).Sublist l := by
  induction fuel generalizing l with
  | zero => exact List.Sublist.refl l
  | succ fuel ih =>
      rw [cutDown]
      split
      · exact (ih _).trans (List.eraseIdx_sublist l (drop l))
      · exact List.Sublist.refl l

/-- A rule that picks an item of the list cuts it down to the limit. -/
theorem cutDown_length {drop : List α → Nat} {limit fuel : Nat} {l : List α}
    (picks : ∀ l : List α, limit < l.length → drop l < l.length)
    (enough : l.length ≤ limit + fuel) : (cutDown drop limit fuel l).length ≤ limit := by
  induction fuel generalizing l with
  | zero => exact enough
  | succ fuel ih =>
      rw [cutDown]
      split
      · next hover =>
        apply ih
        rw [List.length_eraseIdx_of_lt (picks l hover)]
        omega
      · next hfits => exact Nat.le_of_not_lt hfits

/-- Removing the last item again and again keeps the front. -/
theorem cutDown_last {limit fuel : Nat} {l : List α} (enough : l.length ≤ limit + fuel) :
    cutDown (fun l => l.length - 1) limit fuel l = l.take limit := by
  induction fuel generalizing l with
  | zero => exact (List.take_of_length_le enough).symm
  | succ fuel ih =>
      rw [cutDown]
      split
      · next hover =>
        have hlength : (l.eraseIdx (l.length - 1)).length = l.length - 1 :=
          List.length_eraseIdx_of_lt (by omega)
        rw [ih (by omega), List.eraseIdx_length_sub_one, List.dropLast_eq_take, List.take_take,
          Nat.min_eq_left (by omega)]
      · next hfits => exact (List.take_of_length_le (Nat.le_of_not_lt hfits)).symm

/-- A property that a list inherits from what is left of it holds of the result exactly if
it holds at first and no removal loses it. -/
theorem cutDown_iff {P : List α → Prop} (anti : ∀ l i, P (l.eraseIdx i) → P l)
    (drop : List α → Nat) (limit fuel : Nat) (l : List α) :
    P (cutDown drop limit fuel l) ↔
      P l ∧ ∀ m ∈ cutRounds drop limit fuel l, P m → P (m.eraseIdx (drop m)) := by
  induction fuel generalizing l with
  | zero => simp [cutDown, cutRounds]
  | succ fuel ih =>
      rw [cutDown, cutRounds]
      split
      · rw [ih, List.forall_mem_cons]
        constructor
        · intro ⟨hnext, hrounds⟩
          exact ⟨anti l _ hnext, fun _ => hnext, hrounds⟩
        · intro ⟨hl, hfirst, hrounds⟩
          exact ⟨hfirst hl, hrounds⟩
      · simp

/-- What holds at first and is kept by every removal holds in all rounds. -/
theorem cutRounds_holds {P : List α → Prop} {drop : List α → Nat} {limit fuel : Nat}
    {l : List α} (first : P l)
    (step : ∀ m ∈ cutRounds drop limit fuel l, P m → P (m.eraseIdx (drop m))) :
    ∀ m ∈ cutRounds drop limit fuel l, P m := by
  induction fuel generalizing l with
  | zero =>
      intro m hm
      cases hm
  | succ fuel ih =>
      rw [cutRounds] at step ⊢
      split at step
      · next hover =>
        rw [if_pos hover]
        rw [List.forall_mem_cons] at step ⊢
        exact ⟨first, ih (step.1 first) step.2⟩
      · next hfits =>
        rw [if_neg hfits]
        intro m hm
        cases hm

end ControlPlane.Lib
