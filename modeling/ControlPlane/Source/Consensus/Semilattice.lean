import ControlPlane.Lib.BestMap
import ControlPlane.Source.MapeK.Types
import Mathlib.Data.List.Sort
import Mathlib.Data.Prod.Lex

/-!
# Proposal sets

Embeds `ProposalSet` and `SemilatticeResult::compile` of
`crates/h2ai-state/src/semilattice.rs`. Scores come from any linear order with a
zero (an `f64` that is not NaN). The hash map is an `AList`, whose list is the
order in which `into_values` and `into_iter` enumerate it; statements about
every iteration order range over every `AList` with the same entries.
-/
namespace ControlPlane.Source.Consensus

open Lib Verification MapeK

/-- `(ProposalEvent, u64, f64)`. -/
structure ScoredProposal (S : Type) where
  proposal : ProposalEvent
  generation : Nat
  score : S
  deriving DecidableEq, Repr

/-- `insert_scored` is the only writer: it files a proposal under its explorer and
copies its generation. -/
structure ProposalSet (S : Type) where
  table : AList fun _ : String => ScoredProposal S
  filed : ∀ explorerId held, table.lookup explorerId = some held →
    held.proposal.explorerId = explorerId ∧ held.generation = held.proposal.generation

variable {S : Type}

def ProposalSet.new : ProposalSet S := ⟨∅, by simp⟩

/-- Writing an entry for the explorer of a proposal. -/
def ProposalSet.file (set : ProposalSet S) (proposal : ProposalEvent) (score : S) :
    ProposalSet S where
  table := set.table.insert proposal.explorerId ⟨proposal, proposal.generation, score⟩
  filed := by
    intro explorerId held h
    by_cases hkey : explorerId = proposal.explorerId
    · subst hkey
      rw [AList.lookup_insert, Option.some.injEq] at h
      subst h
      exact ⟨rfl, rfl⟩
    · rw [AList.lookup_insert_ne hkey] at h
      exact set.filed explorerId held h

/-- A proposal as `insert_scored` would file it. -/
def ScoredProposal.of (proposal : ProposalEvent) (score : S) : ScoredProposal S :=
  ⟨proposal, proposal.generation, score⟩

/-- An entry of a set is what `insert_scored` would file for its proposal. -/
theorem ProposalSet.of_eq (set : ProposalSet S) {explorerId : String} {held : ScoredProposal S}
    (h : set.table.lookup explorerId = some held) :
    ScoredProposal.of held.proposal held.score = held := by
  have hgeneration := (set.filed explorerId held h).2
  cases held
  simp only at hgeneration
  simp [ScoredProposal.of, hgeneration]

variable [LinearOrder S]

/-- `insert_scored`. -/
def ProposalSet.insertScored (set : ProposalSet S) (proposal : ProposalEvent) (score : S) :
    ProposalSet S :=
  let incomingGen := proposal.generation
  match set.table.lookup proposal.explorerId with
  | some existing =>
      let shouldReplace := incomingGen > existing.generation ∨
        (incomingGen = existing.generation ∧ score > existing.score)
      if shouldReplace then set.file proposal score else set
  | none => set.file proposal score

/-- `join`: the entries of the right set, in the order it enumerates them. -/
def ProposalSet.join (lhs rhs : ProposalSet S) : ProposalSet S :=
  rhs.table.entries.foldl (fun set entry => set.insertScored entry.2.proposal entry.2.score) lhs

structure SemilatticeResult (S : Type) where
  taskId : String
  validProposals : List ProposalEvent
  validProposalScores : List S
  failedProposals : List ProposalEvent
  prunedProposals : List BranchPrunedEvent

/-- The non-pruned proposals with their scores, in enumeration order. -/
def scoredProposals (proposals : ProposalSet S) (pruned : List BranchPrunedEvent) :
    List (ProposalEvent × S) :=
  let prunedIds := pruned.map (·.explorerId)
  ((proposals.table.entries.map (·.2)).filter
    fun held => !decide (held.proposal.explorerId ∈ prunedIds)).map
      fun held => (held.proposal, held.score)

/-- `sort_by(|a, b| b.1.partial_cmp(&a.1))`, a stable sort. -/
def sortByScore (scored : List (ProposalEvent × S)) : List (ProposalEvent × S) :=
  scored.insertionSort fun a b => b.2 ≤ a.2

variable [Zero S]

/-- `SemilatticeResult::compile`. -/
def compile (taskId : String) (proposals : ProposalSet S) (pruned : List BranchPrunedEvent) :
    SemilatticeResult S :=
  let scored := sortByScore (scoredProposals proposals pruned)
  let valid := scored.filter fun p => decide (p.2 > 0)
  let failed := scored.filter fun p => !decide (p.2 > 0)
  { taskId := taskId
    validProposals := valid.map Prod.fst
    validProposalScores := valid.map Prod.snd
    failedProposals := failed.map Prod.fst
    prunedProposals := pruned }

/-! ## The set as a map of best proposals -/

omit [Zero S]

/-- Generation first, then score. -/
def ScoredProposal.rank (held : ScoredProposal S) : ℕ ×ₗ S :=
  toLex (held.generation, held.score)

theorem rank_lt_iff (a b : ScoredProposal S) :
    a.rank < b.rank ↔ b.generation > a.generation ∨
      (b.generation = a.generation ∧ b.score > a.score) := by
  simp only [ScoredProposal.rank, Prod.Lex.toLex_lt_toLex, gt_iff_lt, eq_comm]

theorem insertScored_table (set : ProposalSet S) (proposal : ProposalEvent) (score : S) :
    (set.insertScored proposal score).table =
      offer ScoredProposal.rank set.table proposal.explorerId
        (ScoredProposal.of proposal score) := by
  unfold ProposalSet.insertScored offer
  cases set.table.lookup proposal.explorerId with
  | none => rfl
  | some existing =>
      by_cases hreplace : existing.rank < (ScoredProposal.of proposal score).rank
      · have hsource := (rank_lt_iff _ _).mp hreplace
        simp only [ScoredProposal.of] at hsource
        simp only [hreplace, hsource, ↓reduceIte]
        rfl
      · have hsource := mt (rank_lt_iff _ _).mpr hreplace
        simp only [ScoredProposal.of] at hsource
        simp only [hreplace, hsource, ↓reduceIte]

theorem foldl_insertScored_table (inserts : List (ProposalEvent × S)) (set : ProposalSet S) :
    (inserts.foldl (fun set p => set.insertScored p.1 p.2) set).table =
      offerAll ScoredProposal.rank set.table
        (inserts.map fun p => (p.1.explorerId, ScoredProposal.of p.1 p.2)) := by
  induction inserts generalizing set with
  | nil => rfl
  | cons p rest ih =>
      simp only [List.foldl_cons, List.map_cons, ih, insertScored_table]
      rfl

/-- `join` keeps the better entry for each explorer, however the right set is
enumerated. -/
theorem join_lookup (lhs rhs : ProposalSet S) (explorerId : String) :
    (lhs.join rhs).table.lookup explorerId =
      better ScoredProposal.rank (lhs.table.lookup explorerId)
        (rhs.table.lookup explorerId) := by
  have htable : (lhs.join rhs).table =
      offerAll ScoredProposal.rank lhs.table (rhs.table.entries.map fun e => (e.1, e.2)) := by
    have hfold := foldl_insertScored_table
      (rhs.table.entries.map fun e => (e.2.proposal, e.2.score)) lhs
    rw [List.foldl_map, List.map_map] at hfold
    unfold ProposalSet.join
    rw [hfold]
    congr 1
    apply List.map_congr_left
    intro e he
    have hheld : rhs.table.lookup e.1 = some e.2 := AList.mem_lookup_iff.mpr he
    simp only [Function.comp_apply, (rhs.filed e.1 e.2 hheld).1, rhs.of_eq hheld]
  rw [htable, lookup_offerAll_entries]

/-! ## What `compile` sorts -/

omit [LinearOrder S] in
theorem mem_scoredProposals (set : ProposalSet S) (pruned : List BranchPrunedEvent)
    (p : ProposalEvent × S) :
    p ∈ scoredProposals set pruned ↔
      set.table.lookup p.1.explorerId = some (ScoredProposal.of p.1 p.2) ∧
        p.1.explorerId ∉ pruned.map (·.explorerId) := by
  simp only [scoredProposals, List.mem_map, List.mem_filter, Bool.not_eq_true',
    decide_eq_false_iff_not]
  constructor
  · rintro ⟨held, ⟨⟨entry, hentry, rfl⟩, hkept⟩, rfl⟩
    have hheld : set.table.lookup entry.1 = some entry.2 := AList.mem_lookup_iff.mpr hentry
    have hfiled := (set.filed entry.1 entry.2 hheld).1
    refine ⟨?_, by simpa using hkept⟩
    rw [set.of_eq hheld, hfiled]
    exact hheld
  · rintro ⟨hheld, hkept⟩
    refine ⟨_, ⟨⟨_, AList.mem_lookup_iff.mp hheld, rfl⟩, ?_⟩, rfl⟩
    simpa [ScoredProposal.of] using hkept

omit [LinearOrder S] in
/-- Every explorer contributes one proposal at most. -/
theorem scoredProposals_nodup (set : ProposalSet S) (pruned : List BranchPrunedEvent) :
    ((scoredProposals set pruned).map fun p => p.1.explorerId).Nodup := by
  have hkeys : (set.table.entries.map (·.2)).map (fun held => held.proposal.explorerId) =
      set.table.keys := by
    rw [List.map_map]
    apply List.map_congr_left
    intro entry hentry
    exact (set.filed entry.1 entry.2 (AList.mem_lookup_iff.mpr hentry)).1
  have hall : ((set.table.entries.map (·.2)).map
      fun held => held.proposal.explorerId).Nodup := by
    rw [hkeys]
    exact set.table.keys_nodup
  rw [scoredProposals, List.map_map]
  exact hall.sublist (List.filter_sublist.map _)

theorem sortByScore_perm (scored : List (ProposalEvent × S)) :
    (sortByScore scored).Perm scored :=
  List.perm_insertionSort _ scored

theorem sortByScore_pairwise (scored : List (ProposalEvent × S)) :
    (sortByScore scored).Pairwise fun a b => b.2 ≤ a.2 := by
  have htotal : Std.Total fun a b : ProposalEvent × S => b.2 ≤ a.2 :=
    ⟨fun a b => le_total b.2 a.2⟩
  have htrans : IsTrans (ProposalEvent × S) fun a b => b.2 ≤ a.2 :=
    ⟨fun _ _ _ hab hbc => hbc.trans hab⟩
  exact List.pairwise_insertionSort _ scored

end ControlPlane.Source.Consensus
