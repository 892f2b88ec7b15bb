import ControlPlane.Lib.Sequences
import ControlPlane.Source.Consensus.Semilattice
import Mathlib.Algebra.Order.Ring.Rat
import Mathlib.Logic.Relation

/-!
# Joining and compiling proposal sets

`join` is the left-preferring maximum by generation and score at each explorer.
It is associative and idempotent for every iteration order; it is commutative
unless two different proposals of one explorer tie. `compile` sorts by score
alone, so its lists depend on the order of enumeration and insertion exactly
when two different winning proposals of explorers that are not pruned tie.
-/
namespace ControlPlane.Guarantees.ProposalMerge

open Lib Source.Verification Source.MapeK Source.Consensus

variable {S : Type} [LinearOrder S]

/-! ## The laws of `join` -/

/-- No explorer has two different proposals of equal generation and score in the sets. -/
def NoConflict (lhs rhs : ProposalSet S) : Prop :=
  ∀ explorerId a b, lhs.table.lookup explorerId = some a → rhs.table.lookup explorerId = some b →
    a.generation = b.generation → a.score = b.score → a.proposal = b.proposal

omit [LinearOrder S] in
theorem rank_eq_iff (a b : ScoredProposal S) :
    a.rank = b.rank ↔ a.generation = b.generation ∧ a.score = b.score := by
  simp [ScoredProposal.rank]

theorem noConflict_iff (lhs rhs : ProposalSet S) :
    NoConflict lhs rhs ↔ SameMap (lhs.join rhs).table (rhs.join lhs).table := by
  unfold SameMap
  simp only [join_lookup, better_comm_iff]
  constructor
  · intro free explorerId a b ha hb hrank
    obtain ⟨hgeneration, hscore⟩ := (rank_eq_iff a b).mp hrank
    have hproposal := free explorerId a b ha hb hgeneration hscore
    cases a
    cases b
    simp_all
  · intro same explorerId a b ha hb hgeneration hscore
    rw [same explorerId a b ha hb ((rank_eq_iff a b).mpr ⟨hgeneration, hscore⟩)]

/-- For all proposal sets and all iteration orders: `join` is associative and
idempotent, and it is commutative exactly when no explorer has two different
proposals of equal generation and score in the two sets. -/
theorem join_laws_iff (A B C : ProposalSet S) :
    ((∀ A' B' : ProposalSet S, SameMap A'.table A.table → SameMap B'.table B.table →
        SameMap (A.join B).table (B'.join A').table) ↔ NoConflict A B) ∧
      (∀ B' C' D : ProposalSet S, SameMap B'.table B.table → SameMap C'.table C.table →
        SameMap D.table (B'.join C').table →
        SameMap ((A.join B).join C).table (A.join D).table) ∧
      (∀ A' : ProposalSet S, SameMap A'.table A.table → SameMap (A.join A').table A.table) := by
  refine ⟨?_, ?_, ?_⟩
  · rw [noConflict_iff]
    constructor
    · intro commutes
      exact commutes A B (SameMap.refl _) (SameMap.refl _)
    · intro commutes A' B' hA hB explorerId
      rw [commutes explorerId, join_lookup, join_lookup, hA explorerId, hB explorerId]
  · intro B' C' D hB hC hD explorerId
    rw [join_lookup, join_lookup, join_lookup, hD explorerId, join_lookup, hB explorerId,
      hC explorerId, better_assoc]
  · intro A' hA explorerId
    rw [join_lookup, hA explorerId, better_self]

section Example

def draft (text : String) : ProposalEvent := ⟨"task-1", "explorer-1", 1 / 2, 0, text, 10⟩

/-- Two drafts of one explorer, of the same generation and score. -/
theorem join_keeps_left_draft :
    let A : ProposalSet ℚ := ProposalSet.new.insertScored (draft "first") (4 / 5)
    let B : ProposalSet ℚ := ProposalSet.new.insertScored (draft "second") (4 / 5)
    ((A.join B).table.lookup "explorer-1").map (·.proposal) = some (draft "first") ∧
      ((B.join A).table.lookup "explorer-1").map (·.proposal) = some (draft "second") ∧
      ¬ SameMap (A.join B).table (B.join A).table := by
  refine ⟨by decide +kernel, by decide +kernel, ?_⟩
  intro same
  exact absurd (same "explorer-1") (by decide +kernel)

end Example

/-! ## Sets built by insertions -/

/-- `new` followed by `insert_scored` for each pair. -/
def insertAll (inserts : List (ProposalEvent × S)) : ProposalSet S :=
  inserts.foldl (fun set p => set.insertScored p.1 p.2) ProposalSet.new

/-- No insert of the same explorer has a higher generation, or the same and a higher score. -/
def Wins (inserts : List (ProposalEvent × S)) (p : ProposalEvent × S) : Prop :=
  ∀ q ∈ inserts, q.1.explorerId = p.1.explorerId →
    (ScoredProposal.of q.1 q.2).rank ≤ (ScoredProposal.of p.1 p.2).rank

theorem Wins.perm {inserts inserts' : List (ProposalEvent × S)} {p : ProposalEvent × S}
    (h : Wins inserts p) (perm : inserts'.Perm inserts) : Wins inserts' p :=
  fun q hq => h q (perm.mem_iff.mp hq)

/-- The offers that an explorer's entry is the best of. -/
theorem insertAll_lookup (inserts : List (ProposalEvent × S)) (explorerId : String) :
    (insertAll inserts).table.lookup explorerId =
      bestOf ScoredProposal.rank none
        ((inserts.filter fun p => decide (p.1.explorerId = explorerId)).map
          fun p => ScoredProposal.of p.1 p.2) := by
  unfold insertAll
  rw [foldl_insertScored_table, lookup_offerAll]
  simp only [ProposalSet.new, AList.lookup_empty, List.filter_map, List.map_map]
  rfl

theorem insertAll_wins {inserts : List (ProposalEvent × S)} {explorerId : String}
    {held : ScoredProposal S} (h : (insertAll inserts).table.lookup explorerId = some held) :
    (held.proposal, held.score) ∈ inserts ∧ Wins inserts (held.proposal, held.score) := by
  have hof := (insertAll inserts).of_eq h
  have hfiled := ((insertAll inserts).filed explorerId held h).1
  rw [insertAll_lookup] at h
  obtain ⟨hfrom, -, hbest⟩ := bestOf_wins _ h
  have hmem := hfrom.resolve_left (by simp)
  obtain ⟨p, hp, hpheld⟩ := List.mem_map.mp hmem
  refine ⟨?_, ?_⟩
  · have hpair : (held.proposal, held.score) = p := by rw [← hpheld]; rfl
    rw [hpair]
    exact (List.mem_filter.mp hp).1
  · intro q hq hsame
    rw [hof]
    refine hbest _ (List.mem_map.mpr ⟨q, List.mem_filter.mpr ⟨hq, ?_⟩, rfl⟩)
    simp only at hsame
    simp [hsame, hfiled]

theorem insertAll_some {inserts : List (ProposalEvent × S)} {p : ProposalEvent × S}
    (h : p ∈ inserts) : ∃ held, (insertAll inserts).table.lookup p.1.explorerId = some held := by
  rw [insertAll_lookup]
  refine bestOf_isSome _ (.inl ?_)
  exact List.ne_nil_of_mem (List.mem_map_of_mem (List.mem_filter.mpr ⟨h, by simp⟩))

/-- A winner that is inserted before the other inserts of its explorer stays. -/
theorem insertAll_first (before : List (ProposalEvent × S)) {after : List (ProposalEvent × S)}
    {p : ProposalEvent × S} (none : ∀ q ∈ before, q.1.explorerId ≠ p.1.explorerId)
    (wins : Wins (before ++ p :: after) p) :
    (insertAll (before ++ p :: after)).table.lookup p.1.explorerId =
      some (ScoredProposal.of p.1 p.2) := by
  have hbefore : before.filter (fun q => decide (q.1.explorerId = p.1.explorerId)) = [] :=
    List.filter_eq_nil_iff.mpr (fun q hq => by simpa using none q hq)
  rw [insertAll_lookup, List.filter_append, hbefore]
  simp only [List.nil_append, decide_true, List.filter_cons_of_pos, List.map_cons, bestOf_cons,
    better_none_left]
  refine bestOf_keeps _ ?_
  intro value hvalue
  obtain ⟨q, hq, rfl⟩ := List.mem_map.mp hvalue
  obtain ⟨hmem, hsame⟩ := List.mem_filter.mp hq
  exact wins q (by simp [hmem]) (by simpa using hsame)

/-! ## What `compile` sorts -/

/-- Sorting by score forgets the order of its input when scores do not tie. -/
theorem sortByScore_eq {scored scored' : List (ProposalEvent × S)}
    (perm : scored.Perm scored')
    (distinct : ∀ a ∈ scored, ∀ b ∈ scored, a.2 = b.2 → a = b) :
    sortByScore scored = sortByScore scored' := by
  refine List.Perm.eq_of_pairwise ?_ (sortByScore_pairwise scored) (sortByScore_pairwise scored')
    ((sortByScore_perm scored).trans (perm.trans (sortByScore_perm scored').symm))
  intro a b ha hb hba hab
  refine distinct a ((sortByScore_perm scored).mem_iff.mp ha) b ?_ (le_antisymm hab hba)
  exact perm.mem_iff.mpr ((sortByScore_perm scored').mem_iff.mp hb)

/-- The sort is stable: proposals of equal score keep their order. -/
theorem sortByScore_stable {scored : List (ProposalEvent × S)} {a b : ProposalEvent × S}
    (tie : a.2 = b.2) (h : List.Sublist [a, b] scored) :
    List.Sublist [a, b] (sortByScore scored) := by
  exact List.pair_sublist_insertionSort (by simp [tie]) h

/-! ## The two lists of a result -/

variable [Zero S]

/-- The list that a proposal of the given score goes to. -/
def side (score : S) (result : SemilatticeResult S) : List ProposalEvent :=
  if score > 0 then result.validProposals else result.failedProposals

theorem side_compile (taskId : String) (set : ProposalSet S) (pruned : List BranchPrunedEvent)
    (score : S) :
    side score (compile taskId set pruned) =
      ((sortByScore (scoredProposals set pruned)).filter
        fun p => decide (p.2 > 0) == decide (score > 0)).map Prod.fst := by
  by_cases h : score > 0
  · simp [side, compile, h]
  · simp [side, compile, h]

theorem mem_side (taskId : String) {set : ProposalSet S} {pruned : List BranchPrunedEvent}
    {p : ProposalEvent × S} (h : p ∈ scoredProposals set pruned) :
    p.1 ∈ side p.2 (compile taskId set pruned) := by
  rw [side_compile]
  exact List.mem_map_of_mem (List.mem_filter.mpr
    ⟨(sortByScore_perm _).mem_iff.mpr h, by simp⟩)

theorem of_mem_side {taskId : String} {set : ProposalSet S} {pruned : List BranchPrunedEvent}
    {score : S} {proposal : ProposalEvent}
    (h : proposal ∈ side score (compile taskId set pruned)) :
    ∃ s, (proposal, s) ∈ scoredProposals set pruned := by
  rw [side_compile] at h
  obtain ⟨p, hp, rfl⟩ := List.mem_map.mp h
  exact ⟨p.2, (sortByScore_perm _).mem_iff.mp (List.mem_filter.mp hp).1⟩

theorem side_nodup (taskId : String) (set : ProposalSet S) (pruned : List BranchPrunedEvent)
    (score : S) : (side score (compile taskId set pruned)).Nodup := by
  have hids : (((sortByScore (scoredProposals set pruned)).filter
      fun p => decide (p.2 > 0) == decide (score > 0)).map fun p => p.1.explorerId).Nodup := by
    have hsorted := ((sortByScore_perm (scoredProposals set pruned)).map
      fun p => p.1.explorerId).nodup_iff.mpr (scoredProposals_nodup set pruned)
    exact hsorted.sublist (List.filter_sublist.map _)
  rw [side_compile]
  refine List.Nodup.of_map (fun proposal : ProposalEvent => proposal.explorerId) ?_
  rw [List.map_map]
  exact hids

theorem pair_side (taskId : String) {set : ProposalSet S} {pruned : List BranchPrunedEvent}
    {a b : ProposalEvent × S} (tie : a.2 = b.2)
    (h : List.Sublist [a, b] (scoredProposals set pruned)) :
    List.Sublist [a.1, b.1] (side a.2 (compile taskId set pruned)) := by
  rw [side_compile]
  have hfiltered := (sortByScore_stable tie h).filter
    (fun p => decide (p.2 > 0) == decide (a.2 > 0))
  simp only [List.filter_cons, BEq.rfl, tie, ↓reduceIte, List.filter_nil] at hfiltered
  simpa [tie] using hfiltered.map Prod.fst

/-! ## Determinism -/

/-- The same valid and the same failed proposals, in the same order. -/
def SameLists (r r' : SemilatticeResult S) : Prop :=
  r.validProposals = r'.validProposals ∧ r.failedProposals = r'.failedProposals

/-- Two winning proposals of explorers that are not pruned have different scores,
unless they are one proposal. -/
def NoTie (inserts : List (ProposalEvent × S)) (pruned : List BranchPrunedEvent) : Prop :=
  ∀ p ∈ inserts, ∀ q ∈ inserts, Wins inserts p → Wins inserts q →
    p.1.explorerId ∉ pruned.map (·.explorerId) → q.1.explorerId ∉ pruned.map (·.explorerId) →
    p.2 = q.2 → p.1 = q.1

omit [Zero S] in
/-- Without ties, what is sorted is determined by the inserted pairs alone. -/
theorem NoTie.mem_scored {inserts inserts' : List (ProposalEvent × S)}
    {pruned : List BranchPrunedEvent} (free : NoTie inserts pruned)
    (perm : inserts'.Perm inserts) {set : ProposalSet S}
    (same : SameMap set.table (insertAll inserts').table) (p : ProposalEvent × S) :
    p ∈ scoredProposals set pruned ↔
      p ∈ inserts ∧ Wins inserts p ∧ p.1.explorerId ∉ pruned.map (·.explorerId) := by
  rw [mem_scoredProposals, same p.1.explorerId]
  constructor
  · rintro ⟨hheld, hkept⟩
    obtain ⟨hmem, hwins⟩ := insertAll_wins hheld
    exact ⟨perm.mem_iff.mp hmem, hwins.perm perm.symm, hkept⟩
  · rintro ⟨hmem, hwins, hkept⟩
    refine ⟨?_, hkept⟩
    obtain ⟨held, hheld⟩ := insertAll_some (perm.mem_iff.mpr hmem)
    obtain ⟨hheldMem, hheldWins⟩ := insertAll_wins hheld
    have hfiled := ((insertAll inserts').filed _ held hheld).1
    have hof := (insertAll inserts').of_eq hheld
    -- two winners of one explorer have the same rank
    have hrank : (ScoredProposal.of p.1 p.2).rank = held.rank := by
      rw [← hof]
      refine le_antisymm ?_ ?_
      · exact hheldWins p (perm.mem_iff.mpr hmem) hfiled.symm
      · exact hwins _ (perm.mem_iff.mp hheldMem) hfiled
    have hscore : p.2 = held.score := ((rank_eq_iff _ _).mp hrank).2
    have hproposal : p.1 = held.proposal :=
      free p hmem (held.proposal, held.score) (perm.mem_iff.mp hheldMem) hwins
        (hheldWins.perm perm.symm) hkept (by rw [hfiled]; exact hkept) hscore
    rw [hheld, ← hof, ← hproposal, ← hscore]

theorem NoTie.sameLists {inserts inserts' : List (ProposalEvent × S)}
    {pruned : List BranchPrunedEvent} (free : NoTie inserts pruned)
    (perm : inserts'.Perm inserts) {A B : ProposalSet S}
    (hA : SameMap A.table (insertAll inserts).table)
    (hB : SameMap B.table (insertAll inserts').table) (taskId : String) :
    SameLists (compile taskId A pruned) (compile taskId B pruned) := by
  have hmemA := free.mem_scored (List.Perm.refl inserts) hA
  have hmemB := free.mem_scored perm hB
  have hperm : (scoredProposals A pruned).Perm (scoredProposals B pruned) :=
    (List.perm_ext_iff_of_nodup (List.Nodup.of_map _ (scoredProposals_nodup A pruned))
      (List.Nodup.of_map _ (scoredProposals_nodup B pruned))).mpr
        (fun p => (hmemA p).trans (hmemB p).symm)
  have hsorted : sortByScore (scoredProposals A pruned) =
      sortByScore (scoredProposals B pruned) := by
    refine sortByScore_eq hperm ?_
    intro a ha b hb tie
    obtain ⟨hmemA', hwinsA, hkeptA⟩ := (hmemA a).mp ha
    obtain ⟨hmemB', hwinsB, hkeptB⟩ := (hmemA b).mp hb
    exact Prod.ext (free a hmemA' b hmemB' hwinsA hwinsB hkeptA hkeptB tie) tie
  exact ⟨by simp only [compile, hsorted], by simp only [compile, hsorted]⟩

omit [LinearOrder S] [Zero S] in
/-- A hash map may enumerate its entries in any order. -/
theorem exists_enumeration (set : ProposalSet S)
    {entries : List (Sigma fun _ : String => ScoredProposal S)}
    (perm : entries.Perm set.table.entries) :
    ∃ set' : ProposalSet S, set'.table.entries = entries ∧ SameMap set'.table set.table := by
  have hnodup : entries.NodupKeys := (List.perm_nodupKeys perm).mpr set.table.nodupKeys
  have hsame : SameMap ⟨entries, hnodup⟩ set.table := sameMap_of_perm perm
  refine ⟨⟨⟨entries, hnodup⟩, ?_⟩, rfl, hsame⟩
  intro explorerId held h
  rw [hsame explorerId] at h
  exact set.filed explorerId held h

omit [Zero S] in
/-- Two entries of different explorers can be enumerated next to each other. -/
theorem exists_enumeration_pair (set : ProposalSet S) (pruned : List BranchPrunedEvent)
    {a b : ProposalEvent × S} (ha : a ∈ scoredProposals set pruned)
    (hb : b ∈ scoredProposals set pruned) (different : a.1.explorerId ≠ b.1.explorerId) :
    ∃ set' : ProposalSet S, SameMap set'.table set.table ∧
      List.Sublist [a, b] (scoredProposals set' pruned) := by
  classical
  obtain ⟨haHeld, haKept⟩ := (mem_scoredProposals set pruned a).mp ha
  obtain ⟨hbHeld, hbKept⟩ := (mem_scoredProposals set pruned b).mp hb
  have haEntry := AList.mem_lookup_iff.mp haHeld
  have hbEntry := AList.mem_lookup_iff.mp hbHeld
  have hbRest : (⟨b.1.explorerId, ScoredProposal.of b.1 b.2⟩ :
      Sigma fun _ : String => ScoredProposal S) ∈
      set.table.entries.erase ⟨a.1.explorerId, ScoredProposal.of a.1 a.2⟩ :=
    (List.mem_erase_of_ne (fun h => different (congrArg Sigma.fst h).symm)).mpr hbEntry
  obtain ⟨set', hentries, hsame⟩ := exists_enumeration set
    (((List.perm_cons_erase haEntry).trans ((List.perm_cons_erase hbRest).cons _)).symm)
  refine ⟨set', hsame, ?_⟩
  rw [scoredProposals, hentries]
  simp only [List.map_cons, List.filter_cons, ScoredProposal.of, haKept, hbKept,
    decide_false, Bool.not_false, ↓reduceIte]
  exact (List.nil_sublist _).cons_cons b |>.cons_cons a

/-- The compiled lists do not depend on the order of insertion or enumeration. -/
def Deterministic (taskId : String) (inserts : List (ProposalEvent × S))
    (pruned : List BranchPrunedEvent) : Prop :=
  ∀ inserts' : List (ProposalEvent × S), inserts'.Perm inserts → ∀ A B : ProposalSet S,
    SameMap A.table (insertAll inserts).table → SameMap B.table (insertAll inserts').table →
    SameLists (compile taskId A pruned) (compile taskId B pruned)

section Necessity

variable {taskId : String} {inserts : List (ProposalEvent × S)}
  {pruned : List BranchPrunedEvent} {p q : ProposalEvent × S}

/-- All orders of insertion and enumeration give the lists of the given one. -/
theorem Deterministic.side_eq (h : Deterministic taskId inserts pruned)
    {inserts' : List (ProposalEvent × S)} (perm : inserts'.Perm inserts) {B : ProposalSet S}
    (hB : SameMap B.table (insertAll inserts').table) (score : S) :
    side score (compile taskId B pruned) =
      side score (compile taskId (insertAll inserts) pruned) := by
  obtain ⟨hvalid, hfailed⟩ := h inserts' perm _ B (SameMap.refl _) hB
  simp only [side, hvalid, hfailed]

/-- One explorer: whichever winner is inserted first is the one that is compiled. -/
theorem Deterministic.one_explorer (h : Deterministic taskId inserts pruned)
    (hp : p ∈ inserts) (hq : q ∈ inserts) (hpWins : Wins inserts p) (hqWins : Wins inserts q)
    (hpKept : p.1.explorerId ∉ pruned.map (·.explorerId)) (tie : p.2 = q.2)
    (hexplorer : p.1.explorerId = q.1.explorerId) : p.1 = q.1 := by
  classical
  have hpPerm := (List.perm_cons_erase hp).symm
  have hqPerm := (List.perm_cons_erase hq).symm
  have hpFirst := insertAll_first [] (by simp) (hpWins.perm hpPerm)
  have hqFirst := insertAll_first [] (by simp) (hqWins.perm hqPerm)
  have hpSide := mem_side taskId ((mem_scoredProposals _ pruned p).mpr ⟨hpFirst, hpKept⟩)
  simp only [List.nil_append] at hpSide hqFirst
  rw [h.side_eq hpPerm (SameMap.refl _), tie, ← h.side_eq hqPerm (SameMap.refl _)] at hpSide
  obtain ⟨s, hs⟩ := of_mem_side hpSide
  have hheld := ((mem_scoredProposals _ _ _).mp hs).1
  rw [show (p.1, s).1.explorerId = q.1.explorerId from hexplorer, hqFirst,
    Option.some.injEq] at hheld
  exact (congrArg ScoredProposal.proposal hheld).symm

/-- Two explorers: a set may enumerate their entries in either order. -/
theorem Deterministic.two_explorers (h : Deterministic taskId inserts pruned)
    (hp : p ∈ inserts) (hq : q ∈ inserts) (hpWins : Wins inserts p) (hqWins : Wins inserts q)
    (hpKept : p.1.explorerId ∉ pruned.map (·.explorerId))
    (hqKept : q.1.explorerId ∉ pruned.map (·.explorerId)) (tie : p.2 = q.2) :
    p.1.explorerId = q.1.explorerId := by
  by_contra different
  classical
  have hne : q ≠ p := fun heq => different (by rw [heq])
  have hqRest : q ∈ inserts.erase p := (List.mem_erase_of_ne hne).mpr hq
  have perm : (p :: q :: (inserts.erase p).erase q).Perm inserts :=
    ((List.perm_cons_erase hp).trans ((List.perm_cons_erase hqRest).cons p)).symm
  have hpHeld := insertAll_first [] (by simp) (hpWins.perm perm)
  have hqHeld := insertAll_first [p] (by simpa using different) (hqWins.perm perm)
  simp only [List.nil_append, List.singleton_append] at hpHeld hqHeld
  have hpMem := (mem_scoredProposals _ pruned p).mpr ⟨hpHeld, hpKept⟩
  have hqMem := (mem_scoredProposals _ pruned q).mpr ⟨hqHeld, hqKept⟩
  obtain ⟨A, hA, hpq⟩ := exists_enumeration_pair _ pruned hpMem hqMem different
  obtain ⟨B, hB, hqp⟩ := exists_enumeration_pair _ pruned hqMem hpMem (Ne.symm different)
  have hpqSide := pair_side taskId tie hpq
  have hqpSide := pair_side taskId tie.symm hqp
  rw [h.side_eq perm hA] at hpqSide
  rw [h.side_eq perm hB, ← tie] at hqpSide
  exact pair_order_unique (side_nodup taskId _ pruned p.2) hpqSide hqpSide

end Necessity

/-- For every sequence of insertions and every pruned list: the compiled lists are
the same for every order of insertion and of enumeration exactly when no two
different winning proposals of explorers that are not pruned have one score. -/
theorem compile_deterministic_iff (taskId : String) (inserts : List (ProposalEvent × S))
    (pruned : List BranchPrunedEvent) :
    Deterministic taskId inserts pruned ↔ NoTie inserts pruned := by
  constructor
  · intro h p hp q hq hpWins hqWins hpKept hqKept tie
    exact h.one_explorer hp hq hpWins hqWins hpKept tie
      (h.two_explorers hp hq hpWins hqWins hpKept hqKept tie)
  · intro free inserts' perm A B hA hB
    exact free.sameLists perm hA hB taskId

section Example

def draftOf (explorerId text : String) : ProposalEvent := ⟨"task-1", explorerId, 1 / 2, 0, text, 10⟩

def tiedDrafts : List (ProposalEvent × ℚ) :=
  [(draftOf "explorer-1" "first", 9 / 10), (draftOf "explorer-2" "second", 9 / 10)]

/-- Two explorers with one score: the winner at index 0 depends on the order. -/
theorem tied_drafts_swap :
    let A := insertAll tiedDrafts
    let B := insertAll tiedDrafts.reverse
    SameMap A.table B.table ∧
      (compile "task-1" A []).validProposals.head? = some (draftOf "explorer-2" "second") ∧
      (compile "task-1" B []).validProposals.head? = some (draftOf "explorer-1" "first") ∧
      ¬ Deterministic "task-1" tiedDrafts [] := by
  refine ⟨?_, by decide +kernel, by decide +kernel, ?_⟩
  · exact sameMap_of_perm (by decide +kernel)
  · intro h
    have hlists := h tiedDrafts.reverse (List.reverse_perm _) _ _ (SameMap.refl _) (SameMap.refl _)
    exact absurd (congrArg List.head? hlists.1) (by decide +kernel)

end Example

end ControlPlane.Guarantees.ProposalMerge

/-!
## Compiling loses no proposal

`compile` filters, sorts and splits in one pass over parallel vectors. Every explorer of the
set ends up in exactly one place, whatever the pruned list names; the scores stay next to
their proposals and do not increase along the list.
-/
namespace ControlPlane.Guarantees.CompilePartition

open Lib Source.Verification Source.MapeK Source.Consensus

variable {S : Type} [LinearOrder S] [Zero S]

/-! ## Statement -/

/-- The proposals of an explorer, in the order of the list. -/
def ofExplorer (explorerId : String) (proposals : List ProposalEvent) : List ProposalEvent :=
  proposals.filter fun q => decide (q.explorerId = explorerId)

/-- The result of `compile`, explorer by explorer and index by index. -/
structure Partitions (set : ProposalSet S) (pruned : List BranchPrunedEvent)
    (r : SemilatticeResult S) : Prop where
  /-- Listed once among the valid proposals, or not at all. -/
  valid : ∀ explorerId held, set.table.lookup explorerId = some held →
    ofExplorer explorerId r.validProposals =
      if explorerId ∉ pruned.map (·.explorerId) ∧ 0 < held.score then [held.proposal] else []
  failed : ∀ explorerId held, set.table.lookup explorerId = some held →
    ofExplorer explorerId r.failedProposals =
      if explorerId ∉ pruned.map (·.explorerId) ∧ held.score ≤ 0 then [held.proposal] else []
  /-- In neither list exactly if the pruned list names the explorer. -/
  neither : ∀ explorerId held, set.table.lookup explorerId = some held →
    ((ofExplorer explorerId r.validProposals = [] ∧ ofExplorer explorerId r.failedProposals = []) ↔
      ∃ e ∈ pruned, e.explorerId = explorerId)
  /-- Nothing is listed that the set does not hold. -/
  held : ∀ q, q ∈ r.validProposals ∨ q ∈ r.failedProposals →
    ∃ score, set.table.lookup q.explorerId = some (.of q score)
  aligned : List.Forall₂ (fun q score => set.table.lookup q.explorerId = some (.of q score))
    r.validProposals r.validProposalScores
  descending : r.validProposalScores.Pairwise (· ≥ ·)

/-! ## One explorer in a sorted list -/

omit [LinearOrder S] [Zero S] in
/-- Of pairs with distinct explorers, those that pass a test: each stands for its explorer. -/
theorem ofExplorer_filter {sorted : List (ProposalEvent × S)} {p : ProposalEvent × S}
    (nodup : (sorted.map fun q => q.1.explorerId).Nodup) (hp : p ∈ sorted)
    (test : ProposalEvent × S → Bool) :
    ofExplorer p.1.explorerId ((sorted.filter test).map Prod.fst) =
      if test p then [p.1] else [] := by
  have hone : sorted.filter
      ((fun q : ProposalEvent => decide (q.explorerId = p.1.explorerId)) ∘ Prod.fst) = [p] :=
    filter_eq_singleton_of_nodup nodup hp
  rw [ofExplorer, List.filter_map, List.filter_comm, hone]
  by_cases htest : test p = true
  · simp [htest]
  · simp [htest]

omit [LinearOrder S] [Zero S] in
theorem ofExplorer_eq_nil {sorted : List (ProposalEvent × S)} {explorerId : String}
    (absent : ∀ q ∈ sorted, q.1.explorerId ≠ explorerId) (test : ProposalEvent × S → Bool) :
    ofExplorer explorerId ((sorted.filter test).map Prod.fst) = [] := by
  rw [ofExplorer, List.filter_eq_nil_iff]
  intro q hq
  obtain ⟨p, hp, rfl⟩ := List.mem_map.mp hq
  simpa using absent p (List.mem_filter.mp hp).1

section Sorted

variable {set : ProposalSet S} {pruned : List BranchPrunedEvent}

/-- What `compile` splits. -/
abbrev sortedProposals (set : ProposalSet S) (pruned : List BranchPrunedEvent) :
    List (ProposalEvent × S) :=
  sortByScore (scoredProposals set pruned)

omit [Zero S] in
theorem mem_sortedProposals {p : ProposalEvent × S} :
    p ∈ sortedProposals set pruned ↔
      set.table.lookup p.1.explorerId = some (.of p.1 p.2) ∧
        p.1.explorerId ∉ pruned.map (·.explorerId) :=
  (sortByScore_perm _).mem_iff.trans (mem_scoredProposals set pruned p)

omit [Zero S] in
theorem sortedProposals_nodup :
    ((sortedProposals set pruned).map fun p => p.1.explorerId).Nodup :=
  ((sortByScore_perm _).map _).nodup_iff.mpr (scoredProposals_nodup set pruned)

omit [Zero S] in
/-- An explorer of the set in the part of the sorted list that passes a test of the score. -/
theorem ofExplorer_sorted {explorerId : String} {held : ScoredProposal S}
    (h : set.table.lookup explorerId = some held) (test : S → Bool) :
    ofExplorer explorerId
        (((sortedProposals set pruned).filter fun p => test p.2).map Prod.fst) =
      if explorerId ∉ pruned.map (·.explorerId) ∧ test held.score = true then [held.proposal]
      else [] := by
  have hfiled := (set.filed explorerId held h).1
  by_cases hpruned : explorerId ∈ pruned.map (·.explorerId)
  · have habsent : ∀ q ∈ sortedProposals set pruned, q.1.explorerId ≠ explorerId := by
      intro q hq hsame
      exact (mem_sortedProposals.mp hq).2 (hsame ▸ hpruned)
    rw [ofExplorer_eq_nil habsent]
    simp [hpruned]
  · have hmem : (held.proposal, held.score) ∈ sortedProposals set pruned := by
      rw [mem_sortedProposals, set.of_eq h, hfiled]
      exact ⟨h, hpruned⟩
    have hone := ofExplorer_filter sortedProposals_nodup hmem fun p => test p.2
    rw [hfiled] at hone
    rw [hone]
    simp [hpruned]

end Sorted

/-! ## The guarantee -/

theorem compile_held {set : ProposalSet S} {pruned : List BranchPrunedEvent} {taskId : String}
    {q : ProposalEvent} (h : q ∈ (compile taskId set pruned).validProposals ∨
      q ∈ (compile taskId set pruned).failedProposals) :
    ∃ score, set.table.lookup q.explorerId = some (.of q score) := by
  rcases h with hvalid | hfailed
  · obtain ⟨p, hp, rfl⟩ := List.mem_map.mp hvalid
    exact ⟨p.2, (mem_sortedProposals.mp (List.mem_filter.mp hp).1).1⟩
  · obtain ⟨p, hp, rfl⟩ := List.mem_map.mp hfailed
    exact ⟨p.2, (mem_sortedProposals.mp (List.mem_filter.mp hp).1).1⟩

/-- For every proposal set and every pruned list. -/
theorem compile_partitions (taskId : String) (set : ProposalSet S)
    (pruned : List BranchPrunedEvent) : Partitions set pruned (compile taskId set pruned) := by
  have hvalid : ∀ explorerId held, set.table.lookup explorerId = some held →
      ofExplorer explorerId (compile taskId set pruned).validProposals =
        if explorerId ∉ pruned.map (·.explorerId) ∧ 0 < held.score then [held.proposal] else [] := by
    intro explorerId held h
    exact (ofExplorer_sorted h fun score => decide (score > 0)).trans (by simp)
  have hfailed : ∀ explorerId held, set.table.lookup explorerId = some held →
      ofExplorer explorerId (compile taskId set pruned).failedProposals =
        if explorerId ∉ pruned.map (·.explorerId) ∧ held.score ≤ 0 then [held.proposal] else [] := by
    intro explorerId held h
    exact (ofExplorer_sorted h fun score => !decide (score > 0)).trans (by simp)
  refine ⟨hvalid, hfailed, ?_, fun q h => compile_held h, ?_, ?_⟩
  · intro explorerId held h
    rw [hvalid explorerId held h, hfailed explorerId held h, ← List.mem_map]
    by_cases hpruned : explorerId ∈ pruned.map (·.explorerId)
    · simp [hpruned]
    · rcases lt_or_ge 0 held.score with hpos | hneg
      · simp [hpruned, hpos]
      · simp [hpruned, hneg]
  · show List.Forall₂ _ (List.map Prod.fst _) (List.map Prod.snd _)
    rw [List.forall₂_map_left_iff, List.forall₂_map_right_iff, List.forall₂_same]
    intro p hp
    exact (mem_sortedProposals.mp (List.mem_filter.mp hp).1).1
  · exact ((sortByScore_pairwise _).filter _).map Prod.snd fun _ _ h => h

end ControlPlane.Guarantees.CompilePartition

/-!
# Replicas hold the lexicographic maximum

Any number of proposal sets that are written by `insert_scored` and joined, in any order and
as often as one likes. Whatever happened, the entry of an explorer is a proposal that was
inserted for it somewhere along the way, with the greatest generation and, for that, the
greatest score.
-/
namespace ControlPlane.Guarantees.ReplicaMaximum

open Lib Source.Verification Source.Consensus

variable {S : Type} [LinearOrder S] {ι : Type}

/-! ## Statement -/

/-- A set, with the pairs that were inserted into it or into a set that was joined to it. No
operation reads the pairs. -/
structure Replica (S : Type) where
  set : ProposalSet S
  inserted : List (ProposalEvent × S)

/-- No replica has seen a proposal. -/
def start : ι → Replica S := fun _ => ⟨.new, []⟩

/-- One operation on one of the replicas. A hash map is what it looks up, in any order of its
entries. -/
inductive Operation [DecidableEq ι] (s : ι → Replica S) : (ι → Replica S) → Prop where
  | insertScored (i : ι) (proposal : ProposalEvent) (score : S) (set : ProposalSet S)
      (same : SameMap set.table ((s i).set.insertScored proposal score).table) :
      Operation s (Function.update s i ⟨set, (s i).inserted ++ [(proposal, score)]⟩)
  | join (i j : ι) (set : ProposalSet S)
      (same : SameMap set.table ((s i).set.join (s j).set).table) :
      Operation s (Function.update s i ⟨set, (s i).inserted ++ (s j).inserted⟩)

/-- The generations and scores of the pairs inserted for an explorer. -/
def pairsFor (explorerId : String) (inserted : List (ProposalEvent × S)) : Set (ℕ ×ₗ S) :=
  {rank | ∃ p ∈ inserted, p.1.explorerId = explorerId ∧ rank = toLex (p.1.generation, p.2)}

/-- What a replica holds for an explorer: nothing if nothing was inserted, and else a proposal
that was inserted, under its own generation and its score, with the greatest such pair. -/
structure Characterized (r : Replica S) (explorerId : String) : Prop where
  absent : r.set.table.lookup explorerId = none ↔
    ∀ p ∈ r.inserted, p.1.explorerId ≠ explorerId
  inserted : ∀ held, r.set.table.lookup explorerId = some held →
    (held.proposal, held.score) ∈ r.inserted ∧ held.proposal.explorerId = explorerId ∧
      held.generation = held.proposal.generation
  greatest : ∀ held, r.set.table.lookup explorerId = some held →
    IsGreatest (pairsFor explorerId r.inserted) (toLex (held.generation, held.score))

/-! ## What an operation keeps -/

/-- The insertions as offers to the explorers. -/
def offersOf (inserted : List (ProposalEvent × S)) : List (String × ScoredProposal S) :=
  inserted.map fun p => (p.1.explorerId, ScoredProposal.of p.1 p.2)

/-- Every replica holds the best of its insertions. -/
def AllBest (s : ι → Replica S) : Prop :=
  ∀ i, HoldsBest ScoredProposal.rank (s i).set.table (offersOf (s i).inserted)

theorem allBest_start : AllBest (start : ι → Replica S) := by
  intro i
  exact HoldsBest.empty ScoredProposal.rank

theorem AllBest.step [DecidableEq ι] {s s' : ι → Replica S} (best : AllBest s)
    (operation : Operation s s') : AllBest s' := by
  cases operation with
  | insertScored i proposal score set same =>
      intro k
      by_cases hk : k = i
      · subst hk
        have hinsert := (best k).offer _ proposal.explorerId (ScoredProposal.of proposal score)
        rw [← insertScored_table] at hinsert
        simpa [offersOf] using hinsert.congr _ same
      · simpa [hk] using best k
  | join i j set same =>
      intro k
      by_cases hk : k = i
      · subst hk
        have hjoin := (best k).merge _ (best j) (join_lookup (s k).set (s j).set)
        simpa [offersOf] using hjoin.congr _ same
      · simpa [hk] using best k

theorem AllBest.run [DecidableEq ι] {s : ι → Replica S}
    (run : Relation.ReflTransGen Operation start s) : AllBest s := by
  induction run with
  | refl => exact allBest_start
  | tail _ operation ih => exact ih.step operation

/-! ## The guarantee -/

omit [LinearOrder S] in
theorem mem_offersTo_offersOf {inserted : List (ProposalEvent × S)} {explorerId : String}
    {held : ScoredProposal S} :
    held ∈ offersTo explorerId (offersOf inserted) ↔
      ∃ p ∈ inserted, p.1.explorerId = explorerId ∧ ScoredProposal.of p.1 p.2 = held := by
  rw [mem_offersTo, offersOf, List.mem_map]
  simp only [Prod.mk.injEq]

/-- A set that holds the best of its insertions is characterized by them. -/
theorem characterized_of_best {r : Replica S}
    (best : HoldsBest ScoredProposal.rank r.set.table (offersOf r.inserted))
    (explorerId : String) : Characterized r explorerId := by
  have hbest := best explorerId
  cases hlookup : r.set.table.lookup explorerId with
  | none =>
      rw [hlookup] at hbest
      have hnone : ∀ p ∈ r.inserted, p.1.explorerId ≠ explorerId := by
        intro p hp hexplorer
        have hmem := mem_offersTo_offersOf.mpr ⟨p, hp, hexplorer, rfl⟩
        rw [show offersTo explorerId (offersOf r.inserted) = [] from hbest] at hmem
        cases hmem
      refine ⟨⟨fun _ => hnone, fun _ => hlookup⟩, ?_, ?_⟩
      · intro held hheld
        rw [hlookup] at hheld
        cases hheld
      · intro held hheld
        rw [hlookup] at hheld
        cases hheld
  | some held =>
      rw [hlookup] at hbest
      obtain ⟨hmem, hgreatest⟩ := hbest
      obtain ⟨p, hp, hexplorer, hof⟩ := mem_offersTo_offersOf.mp hmem
      subst hof
      refine ⟨⟨?_, ?_⟩, ?_, ?_⟩
      · intro hnone
        rw [hlookup] at hnone
        cases hnone
      · intro hnone
        exact absurd hexplorer (hnone p hp)
      · intro held hheld
        rw [hlookup] at hheld
        cases hheld
        exact ⟨hp, hexplorer, rfl⟩
      · intro held hheld
        rw [hlookup] at hheld
        cases hheld
        refine ⟨⟨p, hp, hexplorer, rfl⟩, ?_⟩
        intro rank hrank
        obtain ⟨q, hq, hsame, rfl⟩ := hrank
        exact hgreatest _ (mem_offersTo_offersOf.mpr ⟨q, hq, hsame, rfl⟩)

/-- After every finite sequence of insertions and joins, every replica holds for each explorer
the lexicographic maximum of what was ever inserted for it. -/
theorem replica_characterized [DecidableEq ι] {s : ι → Replica S}
    (run : Relation.ReflTransGen Operation start s) (i : ι) (explorerId : String) :
    Characterized (s i) explorerId :=
  characterized_of_best (AllBest.run run i) explorerId

/-! ## A retry that scores less -/

def draft (generation : Nat) (text : String) : ProposalEvent :=
  ⟨"task-1", "explorer-1", 1 / 2, generation, text, 10⟩

/-- The first draft stands in one replica, its retry in the other. -/
def drafted : Bool → Replica ℚ :=
  Function.update (Function.update start false
    ⟨(ProposalSet.new).insertScored (draft 0 "first") (9 / 10), [(draft 0 "first", 9 / 10)]⟩) true
    ⟨(ProposalSet.new).insertScored (draft 1 "retry") (1 / 10), [(draft 1 "retry", 1 / 10)]⟩

theorem drafted_run : Relation.ReflTransGen Operation start drafted :=
  .tail (.single (.insertScored false (draft 0 "first") (9 / 10) _ (SameMap.refl _)))
    (.insertScored true (draft 1 "retry") (1 / 10) _ (SameMap.refl _))

/-- The retry, joined to the first draft, displaces it. -/
theorem retry_characterized :
    let joined := Function.update drafted false
      ⟨(drafted false).set.join (drafted true).set,
        (drafted false).inserted ++ (drafted true).inserted⟩
    (((joined false).set.table.lookup "explorer-1").map (·.proposal) = some (draft 1 "retry")) ∧
      Characterized (joined false) "explorer-1" :=
  ⟨by decide +kernel, replica_characterized
    (.tail drafted_run (.join false true _ (SameMap.refl _))) false "explorer-1"⟩

end ControlPlane.Guarantees.ReplicaMaximum
