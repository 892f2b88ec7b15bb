import ControlPlane.Lib.Overlap
import ControlPlane.Source.Consensus.Krum
import Mathlib.Algebra.Order.Ring.Rat

/-!
# Multi-Krum and Krum agree

Each round of Multi-Krum shrinks the pool by the first candidate of minimum score, until `m`
are picked or `f + 2` remain. The first round scores the whole pool, as Krum does, and no
later round looks at how many are still to be picked.
-/
namespace ControlPlane.Guarantees.KrumAgreement

open Source.Constraints Source.Verification Source.Consensus Source.Consensus.Krum

variable {K : Type} [Field K] [LinearOrder K] {n : Nat}

/-! ## Statement -/

/-- A selection of up to `m` among `n` proposals, for every `m`, next to a selection of one. -/
structure Agrees (n f : Nat) (select : Nat → Option (List (Fin n))) (single : Option (Fin n)) :
    Prop where
  /-- The stopping conditions give exactly this many picks, no two of them alike. -/
  count : ∀ m, ∃ picks, select m = some picks ∧ picks.length = min m (n - f - 2) ∧ picks.Nodup
  isPrefix : ∀ m picks next, select m = some picks → select (m + 1) = some next → picks <+: next
  first : ∀ m, 1 ≤ m → ∃ i later, select m = some (i :: later) ∧ single = some i

/-! ## The rounds -/

section Rounds

variable {distances : Fin n → Fin n → K} {f : Nat}

/-- A round over more than `f + 2` candidates picks the best position and goes on. -/
theorem multiKrumRounds_succ (distances : Fin n → Fin n → K) {remaining : List (Fin n)} (h : remaining.length > f + 2) :
    ∃ best, bestPos distances f remaining = some best ∧ ∀ m,
      multiKrumRounds distances f (m + 1) remaining =
        (multiKrumRounds distances f m (remaining.eraseIdx best)).map
          (remaining.get best :: ·) := by
  obtain ⟨best, hbest⟩ := bestPos_isSome distances f remaining (by omega)
  refine ⟨best, hbest, ?_⟩
  intro m
  rw [multiKrumRounds, if_pos h, hbest]

theorem multiKrumRounds_stop {remaining : List (Fin n)} (h : ¬ remaining.length > f + 2) (m : Nat) :
    multiKrumRounds distances f m remaining = some [] := by
  cases m with
  | zero => rfl
  | succ m => rw [multiKrumRounds, if_neg h]

theorem multiKrumRounds_count (distances : Fin n → Fin n → K) (f m : Nat)
    {remaining : List (Fin n)} (nodup : remaining.Nodup) :
    ∃ picks, multiKrumRounds distances f m remaining = some picks ∧
      picks.length = min m (remaining.length - f - 2) ∧ picks.Nodup ∧
      ∀ i ∈ picks, i ∈ remaining := by
  induction m generalizing remaining with
  | zero => exact ⟨[], rfl, by simp, List.nodup_nil, by simp⟩
  | succ m ih =>
      by_cases hsize : remaining.length > f + 2
      · obtain ⟨best, -, hround⟩ := multiKrumRounds_succ distances hsize
        obtain ⟨picks, hpicks, hlength, hnodup, hmem⟩ := ih (nodup.eraseIdx best)
        have hpool := List.length_eraseIdx_of_lt best.isLt
        have hgone : remaining.get best ∉ remaining.eraseIdx best := by
          rw [← nodup.erase_get best]
          exact nodup.not_mem_erase
        refine ⟨remaining.get best :: picks, ?_, ?_, ?_, ?_⟩
        · rw [hround m, hpicks]
          rfl
        · rw [List.length_cons, hlength, hpool]
          omega
        · exact List.nodup_cons.mpr ⟨fun hin => hgone (hmem _ hin), hnodup⟩
        · intro i hi
          rcases List.mem_cons.mp hi with rfl | hlater
          · exact List.get_mem remaining best
          · exact List.mem_of_mem_eraseIdx (hmem i hlater)
      · refine ⟨[], multiKrumRounds_stop hsize _, ?_, List.nodup_nil, by simp⟩
        rw [List.length_nil]
        omega

theorem multiKrumRounds_prefix {m : Nat} {remaining picks next : List (Fin n)}
    (h : multiKrumRounds distances f m remaining = some picks)
    (h' : multiKrumRounds distances f (m + 1) remaining = some next) : picks <+: next := by
  induction m generalizing remaining picks next with
  | zero =>
      cases h
      exact List.nil_prefix
  | succ m ih =>
      by_cases hsize : remaining.length > f + 2
      · obtain ⟨best, -, hround⟩ := multiKrumRounds_succ distances hsize
        rw [hround m] at h
        rw [hround (m + 1)] at h'
        obtain ⟨rest, hrest, rfl⟩ := Option.map_eq_some_iff.mp h
        obtain ⟨rest', hrest', rfl⟩ := Option.map_eq_some_iff.mp h'
        exact List.cons_prefix_cons.mpr ⟨rfl, ih hrest hrest'⟩
      · rw [multiKrumRounds_stop hsize] at h
        cases h
        exact List.nil_prefix

/-- Over all proposals the best position is the one that Krum selects, ties included. -/
theorem krumIndex_of_bestPos {best : Fin (List.finRange n).length}
    (h : bestPos distances f (List.finRange n) = some best) :
    krumIndex distances (n - f - 2) = some ((List.finRange n).get best) := by
  have hlength : (List.finRange n).length = n := List.length_finRange
  have hk : (List.finRange n).length - f - 2 = n - f - 2 := by rw [hlength]
  refine List.argmin_eq_some_iff.mpr ⟨List.get_mem _ best, ?_, ?_⟩
  · intro i _
    have hbest := (bestPos_spec h (i.cast hlength.symm)).1
    rw [hk, List.get_finRange, List.get_finRange] at hbest
    rw [List.get_finRange]
    exact hbest
  · intro i _ hle
    rw [List.idxOf_finRange, List.idxOf_finRange, List.get_finRange]
    rw [List.get_finRange] at hle
    have hfirst := (bestPos_spec h (i.cast hlength.symm)).2
    rw [hk, List.get_finRange, List.get_finRange] at hfirst
    exact Fin.le_def.mp (hfirst hle)

end Rounds

/-! ## The guarantee -/

/-- On one matrix, whatever its entries. -/
theorem rounds_agree (distances : Fin n → Fin n → K) {f : Nat} (hn : 2 * f + 3 ≤ n) :
    Agrees n f (fun m => multiKrumRounds distances f m (List.finRange n))
      (krumIndex distances (n - f - 2)) := by
  have hlength : (List.finRange n).length = n := List.length_finRange
  refine ⟨?_, ?_, ?_⟩
  · intro m
    obtain ⟨picks, hpicks, hcount, hnodup, -⟩ :=
      multiKrumRounds_count distances f m (List.nodup_finRange n)
    rw [hlength] at hcount
    exact ⟨picks, hpicks, hcount, hnodup⟩
  · intro m picks next h h'
    exact multiKrumRounds_prefix h h'
  · intro m hm
    obtain ⟨m, rfl⟩ := Nat.exists_eq_add_of_le' hm
    have hsize : (List.finRange n).length > f + 2 := by omega
    obtain ⟨best, hbest, hround⟩ := multiKrumRounds_succ distances hsize
    obtain ⟨later, hlater⟩ :=
      multiKrumRounds_isSome distances f m ((List.finRange n).eraseIdx best)
    refine ⟨(List.finRange n).get best, later, ?_, krumIndex_of_bestPos hbest⟩
    rw [hround m, hlater]
    rfl

/-- With a quorum and a model, the selectors are the rounds and the scan over one matrix. -/
theorem selectors_eq (x : Externals) (sqrt : K → K) {proposals : List ProposalEvent} {f : Nat}
    (hf : 1 ≤ f) (hn : 2 * f + 3 ≤ proposals.length) (model : EmbeddingModel K) :
    (∀ m, multiKrumSelectSemantic x sqrt proposals f m (some model) =
      multiKrumRounds (semanticDistanceMatrix x sqrt proposals (some model)) f m
        (List.finRange proposals.length)) ∧
      krumSelectSemantic x sqrt proposals f (some model) =
        krumIndex (semanticDistanceMatrix x sqrt proposals (some model))
          (proposals.length - f - 2) := by
  have hnonempty : ¬ proposals.isEmpty := by
    rw [List.isEmpty_iff_length_eq_zero]
    omega
  have hzero : f ≠ 0 := by omega
  have hquorum : quorumSatisfied proposals.length f = true := decide_eq_true hn
  constructor
  · intro m
    cases m with
    | zero => simp [multiKrumSelectSemantic, multiKrumRounds]
    | succ m => simp [multiKrumSelectSemantic, hnonempty, hzero, hquorum]
  · simp [krumSelectSemantic, hnonempty, hzero, hquorum]

/-- For every `f`, every quorum of proposals and every matrix of distances, the one that a
model gives for the proposals in particular. -/
theorem multiKrum_agrees {proposals : List ProposalEvent} {f : Nat} (hf : 1 ≤ f)
    (hn : 2 * f + 3 ≤ proposals.length) :
    (∀ distances : Fin proposals.length → Fin proposals.length → K,
      Agrees proposals.length f
        (fun m => multiKrumRounds distances f m (List.finRange proposals.length))
        (krumIndex distances (proposals.length - f - 2))) ∧
      ∀ (x : Externals) (sqrt : K → K) (model : EmbeddingModel K),
        Agrees proposals.length f
          (fun m => multiKrumSelectSemantic x sqrt proposals f m (some model))
          (krumSelectSemantic x sqrt proposals f (some model)) := by
  refine ⟨fun distances => rounds_agree distances hn, ?_⟩
  intro x sqrt model
  obtain ⟨hmulti, hkrum⟩ := selectors_eq x sqrt hf hn model
  rw [funext hmulti, hkrum]
  exact rounds_agree _ hn

def note (text : String) : ProposalEvent := ⟨"task-1", text, 1 / 2, 0, text, 10⟩

def fiveNotes : List ProposalEvent := [note "a", note "b", note "b", note "c", note "b"]

/-- Five proposals and one fault, with a model that gives no vectors. -/
theorem five_notes_agree :
    Agrees 5 1
      (fun m => multiKrumSelectSemantic asciiExternals (id : ℚ → ℚ) fiveNotes 1 m
        (some ⟨fun _ => []⟩))
      (krumSelectSemantic asciiExternals (id : ℚ → ℚ) fiveNotes 1 (some ⟨fun _ => []⟩)) := by
  have hquorum : 2 * 1 + 3 ≤ fiveNotes.length := by decide
  exact (multiKrum_agrees (le_refl 1) hquorum).2 asciiExternals id ⟨fun _ => []⟩

end ControlPlane.Guarantees.KrumAgreement

/-!
# The token distance of Krum is a pseudometric

One minus `token_jaccard` is the Jaccard distance of the two token sets, where a text
without tokens is at distance 0 from another one and at distance 1 from any text that has
some. The distances between proposals without an embedding model are these.
-/
namespace ControlPlane.Guarantees.TokenDistance

open Lib Lib.Overlap Source.Constraints Source.Verification Source.Consensus Source.Consensus.Krum

/-! ## Statement -/

structure Pseudometric {α : Type} (d : α → α → ℚ) : Prop where
  nonneg : ∀ a b, 0 ≤ d a b
  le_one : ∀ a b, d a b ≤ 1
  self : ∀ a, d a a = 0
  comm : ∀ a b, d a b = d b a
  triangle : ∀ a b c, d a c ≤ d a b + d b c

def tokenDistance (x : Externals) (a b : String) : ℚ := 1 - tokenJaccard x a b

/-! ## Texts with and without tokens -/

section

variable {x : Externals} {a b : String}

theorem tokenJaccard_of_no_tokens (ha : tokenize x a = ∅) (hb : tokenize x b = ∅) :
    (tokenJaccard x a b : ℚ) = 1 := by
  unfold tokenJaccard
  exact if_pos ⟨ha, hb⟩

theorem tokenJaccard_of_tokens (h : ¬(tokenize x a = ∅ ∧ tokenize x b = ∅)) :
    (tokenJaccard x a b : ℚ) = jaccard (tokenize x a) (tokenize x b) := by
  unfold tokenJaccard
  exact if_neg h

/-- Next to a text with tokens the texts without any are like other texts. -/
theorem tokenDistance_of_left (ha : tokenize x a ≠ ∅) (b : String) :
    tokenDistance x a b = 1 - jaccard (tokenize x a) (tokenize x b) := by
  rw [tokenDistance, tokenJaccard_of_tokens (fun h => ha h.1)]

theorem tokenDistance_of_right (a : String) (hb : tokenize x b ≠ ∅) :
    tokenDistance x a b = 1 - jaccard (tokenize x a) (tokenize x b) := by
  rw [tokenDistance, tokenJaccard_of_tokens (fun h => hb h.2)]

theorem tokenDistance_of_no_tokens (ha : tokenize x a = ∅) (hb : tokenize x b = ∅) :
    tokenDistance x a b = 0 := by
  rw [tokenDistance, tokenJaccard_of_no_tokens ha hb, sub_self]

/-- The convention for two empty sets only ever shortens a distance. -/
theorem tokenDistance_le (a b : String) :
    tokenDistance x a b ≤ 1 - jaccard (tokenize x a) (tokenize x b) := by
  by_cases hempty : tokenize x a = ∅ ∧ tokenize x b = ∅
  · rw [tokenDistance_of_no_tokens hempty.1 hempty.2, hempty.1, jaccard_empty_left]
    norm_num
  · rw [tokenDistance, tokenJaccard_of_tokens hempty]

theorem tokenDistance_nonneg (a b : String) : 0 ≤ tokenDistance x a b := by
  by_cases hempty : tokenize x a = ∅ ∧ tokenize x b = ∅
  · rw [tokenDistance_of_no_tokens hempty.1 hempty.2]
  · have hle := jaccard_le_one (tokenize x a) (tokenize x b)
    rw [tokenDistance, tokenJaccard_of_tokens hempty]
    linarith

theorem tokenDistance_self (a : String) : tokenDistance x a a = 0 := by
  by_cases hempty : tokenize x a = ∅
  · exact tokenDistance_of_no_tokens hempty hempty
  · rw [tokenDistance_of_left hempty, jaccard_self (Finset.nonempty_iff_ne_empty.mpr hempty),
      sub_self]

theorem tokenDistance_comm (a b : String) : tokenDistance x a b = tokenDistance x b a := by
  by_cases hempty : tokenize x a = ∅ ∧ tokenize x b = ∅
  · rw [tokenDistance_of_no_tokens hempty.1 hempty.2,
      tokenDistance_of_no_tokens hempty.2 hempty.1]
  · rw [tokenDistance, tokenDistance, tokenJaccard_of_tokens hempty,
      tokenJaccard_of_tokens (fun h => hempty ⟨h.2, h.1⟩), jaccard_comm]

theorem tokenDistance_triangle (a b c : String) :
    tokenDistance x a c ≤ tokenDistance x a b + tokenDistance x b c := by
  by_cases hb : tokenize x b = ∅
  · -- a text without tokens between two others is far from those that have some
    by_cases ha : tokenize x a = ∅
    · by_cases hc : tokenize x c = ∅
      · rw [tokenDistance_of_no_tokens ha hc, tokenDistance_of_no_tokens ha hb,
          tokenDistance_of_no_tokens hb hc]
        norm_num
      · rw [tokenDistance_of_right a hc, tokenDistance_of_right b hc, ha, hb, jaccard_empty_left]
        have := @tokenDistance_nonneg x a b
        linarith
    · have hac := (tokenDistance_le (x := x) a c).trans
        (sub_le_self 1 (jaccard_nonneg (tokenize x a) (tokenize x c)))
      have hbc := @tokenDistance_nonneg x b c
      rw [tokenDistance_of_left ha b, hb, jaccard_empty_right]
      linarith
  · have hac := @tokenDistance_le x a c
    have htriangle := jaccard_triangle (tokenize x a) (tokenize x b) (tokenize x c)
    rw [tokenDistance_of_right a hb, tokenDistance_of_left hb c]
    linarith

end

/-! ## The guarantee -/

theorem tokenDistance_pseudometric (x : Externals) : Pseudometric (tokenDistance x) := by
  constructor
  case nonneg => exact tokenDistance_nonneg
  case le_one =>
    intro a b
    have hle := @tokenDistance_le x a b
    have hnonneg := jaccard_nonneg (tokenize x a) (tokenize x b)
    linarith
  case self => exact tokenDistance_self
  case comm => exact tokenDistance_comm
  case triangle => exact tokenDistance_triangle

/-- Without an embedding model the matrix of the proposals holds these distances. -/
theorem semanticDistanceMatrix_eq (x : Externals) (sqrt : ℚ → ℚ) (proposals : List ProposalEvent)
    (i j : Fin proposals.length) :
    semanticDistanceMatrix x sqrt proposals none i j =
      tokenDistance x (proposals.get i).rawOutput (proposals.get j).rawOutput := by
  have hmatrix := symmetricMatrix_of_comm (0 : ℚ)
    (fun i j => tokenDistance_comm (x := x) (proposals.get i).rawOutput (proposals.get j).rawOutput)
    i j
  refine Eq.trans hmatrix ?_
  split
  · next heq =>
    rw [heq, tokenDistance_self]
  · rfl

end ControlPlane.Guarantees.TokenDistance
