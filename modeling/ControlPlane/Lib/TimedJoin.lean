import Mathlib.Data.List.Basic

/-!
# Calls joined under one timeout

All calls run at once; their results are handed over together when the last of them
has come back, unless the timeout fires first. The run is a list of events: which
call comes back next, and when the timeout fires.
-/
namespace ControlPlane.Lib

variable {α : Type}

inductive JoinEvent where
  /-- The call with this number comes back. -/
  | finished (i : Nat)
  | elapsed
  deriving DecidableEq, Repr

inductive Join (α : Type) where
  /-- The results so far, by call. -/
  | waiting (slots : List (Option α))
  | joined (results : List α)
  | timedOut
  deriving DecidableEq, Repr

namespace Join

/-- The join is over once no slot is open. -/
def settle (slots : List (Option α)) : Join α :=
  match slots.mapM id with
  | some results => .joined results
  | none => .waiting slots

def start (outputs : List α) : Join α := settle (outputs.map fun _ => none)

def step (outputs : List α) : Join α → JoinEvent → Join α
  | .waiting slots, .finished i => settle (slots.set i outputs[i]?)
  | .waiting _, .elapsed => .timedOut
  | ended, _ => ended

def run (outputs : List α) (events : List JoinEvent) : Join α :=
  events.foldl (step outputs) (start outputs)

end Join

/-- The calls that come back before the timeout. -/
def inTime : List JoinEvent → List Nat
  | [] => []
  | .finished i :: rest => i :: inTime rest
  | .elapsed :: _ => []

/-- All calls come back before the timeout. -/
def AllInTime (outputs : List α) (events : List JoinEvent) : Prop :=
  ∀ i < outputs.length, i ∈ inTime events

instance (outputs : List α) (events : List JoinEvent) : Decidable (AllInTime outputs events) :=
  inferInstanceAs (Decidable (∀ i < outputs.length, i ∈ inTime events))

/-- The slots of the calls in `back`. -/
def slotsOf (outputs : List α) (back : List Nat) : List (Option α) :=
  outputs.zipIdx.map fun o => if o.2 ∈ back then some o.1 else none

/-- The outputs of the calls in `back`. -/
def outputsOf (outputs : List α) (back : List Nat) : List α :=
  (outputs.zipIdx.filter fun o => o.2 ∈ back).map (·.1)

theorem slotsOf_nil (outputs : List α) : slotsOf outputs [] = outputs.map fun _ => none := by
  apply List.ext_getElem <;> simp [slotsOf]

theorem slotsOf_set (outputs : List α) (back : List Nat) (i : Nat) :
    (slotsOf outputs back).set i outputs[i]? = slotsOf outputs (back ++ [i]) := by
  apply List.ext_getElem
  · simp [slotsOf]
  · intro j hj hj'
    rw [List.getElem_set]
    by_cases hij : i = j
    · subst hij
      have hlt : i < outputs.length := by simpa [slotsOf] using hj'
      simp [slotsOf, hlt]
    · rw [if_neg hij]
      simp [slotsOf, show ¬j = i from fun h => hij h.symm]

theorem mapM_slotsOf {outputs : List α} {back : List Nat} :
    (slotsOf outputs back).mapM id =
      if ∀ i < outputs.length, i ∈ back then some outputs else none := by
  by_cases hall : ∀ i < outputs.length, i ∈ back
  · rw [if_pos hall]
    have hslots : slotsOf outputs back = outputs.map some := by
      apply List.ext_getElem
      · simp [slotsOf]
      · intro i hi hi'
        have hlt : i < outputs.length := by simpa using hi'
        simp [slotsOf, hall i hlt]
    rw [hslots]
    clear hall hslots
    induction outputs with
    | nil => rfl
    | cons o outputs ih => simp [ih]
  · rw [if_neg hall]
    push Not at hall
    obtain ⟨i, hi, hopen⟩ := hall
    have hnone : none ∈ slotsOf outputs back := by
      refine List.mem_map.mpr ⟨(outputs[i], i), ?_, by simp [hopen]⟩
      rw [List.mem_zipIdx_iff_getElem?]
      simp [hi]
    generalize slotsOf outputs back = slots at hnone
    induction slots with
    | nil => cases hnone
    | cons s slots ih =>
        cases s with
        | none => simp
        | some o =>
            have hrest := ih (by simpa using hnone)
            simp [hrest]

theorem settle_slotsOf (outputs : List α) (back : List Nat) :
    Join.settle (slotsOf outputs back) =
      if ∀ i < outputs.length, i ∈ back then .joined outputs
      else .waiting (slotsOf outputs back) := by
  unfold Join.settle
  rw [mapM_slotsOf]
  split_ifs <;> rfl

theorem foldl_step_joined (outputs results : List α) (events : List JoinEvent) :
    events.foldl (Join.step outputs) (.joined results) = .joined results := by
  induction events with
  | nil => rfl
  | cons event events ih => exact ih

theorem foldl_step_timedOut (outputs : List α) (events : List JoinEvent) :
    events.foldl (Join.step outputs) .timedOut = .timedOut := by
  induction events with
  | nil => rfl
  | cons event events ih => exact ih

/-- The run from the moment at which the calls in `back` have come back. -/
theorem foldl_step_settle (outputs : List α) (back : List Nat) (events : List JoinEvent) :
    events.foldl (Join.step outputs) (Join.settle (slotsOf outputs back)) =
      if ∀ i < outputs.length, i ∈ back ++ inTime events then .joined outputs
      else if .elapsed ∈ events then .timedOut
      else .waiting (slotsOf outputs (back ++ inTime events)) := by
  induction events generalizing back with
  | nil => simp [inTime, settle_slotsOf]
  | cons event events ih =>
      by_cases hall : ∀ i < outputs.length, i ∈ back
      · rw [settle_slotsOf, if_pos hall, foldl_step_joined, if_pos]
        intro i hi
        exact List.mem_append_left _ (hall i hi)
      · rw [List.foldl_cons, settle_slotsOf, if_neg hall]
        cases event with
        | finished i =>
            dsimp only [Join.step]
            rw [slotsOf_set, ih]
            simp [inTime]
        | elapsed =>
            dsimp only [Join.step]
            rw [foldl_step_timedOut, inTime, List.append_nil, if_neg hall]
            simp

/-- Which way a join ends is decided by the calls that come back before the timeout. -/
theorem Join.run_eq (outputs : List α) (events : List JoinEvent) :
    Join.run outputs events =
      if AllInTime outputs events then .joined outputs
      else if .elapsed ∈ events then .timedOut
      else .waiting (slotsOf outputs (inTime events)) := by
  have h := foldl_step_settle outputs [] events
  rw [slotsOf_nil] at h
  exact h

theorem outputsOf_all {outputs : List α} {back : List Nat}
    (h : ∀ i < outputs.length, i ∈ back) : outputsOf outputs back = outputs := by
  have hkept : (outputs.zipIdx.filter fun o => o.2 ∈ back) = outputs.zipIdx := by
    refine List.filter_eq_self.mpr fun o ho => ?_
    have hlt := List.snd_lt_of_mem_zipIdx ho
    simpa using h o.2 (by simpa using hlt)
  unfold outputsOf
  rw [hkept, List.zipIdx_map_fst]

theorem outputsOf_eq_nil {outputs : List α} {back : List Nat} :
    outputsOf outputs back = [] ↔ ∀ i < outputs.length, i ∉ back := by
  unfold outputsOf
  rw [List.map_eq_nil_iff, List.filter_eq_nil_iff]
  constructor
  · intro h i hi
    have hmem : (outputs[i], i) ∈ outputs.zipIdx := by
      rw [List.mem_zipIdx_iff_getElem?]
      simp [hi]
    simpa using h _ hmem
  · intro h o ho
    have hlt := List.snd_lt_of_mem_zipIdx ho
    simpa using h o.2 (by simpa using hlt)

end ControlPlane.Lib
