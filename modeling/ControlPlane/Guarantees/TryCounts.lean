import ControlPlane.Lib.Sequences
import ControlPlane.Source.Memory.InductionRuns
import Mathlib.Algebra.BigOperators.Group.Finset.Piecewise

/-!
# Counted tries

A lookup after a failed wave is a try of every pattern it returns, and counts it once in
each bucket of the pattern; a success of that try is counted on top. The lookup returns a
pattern once for each bucket of the task it lies in, counts once for each tag though two
tags may have one bucket, and finds the entry by its hint text alone; a success counts
the try again. So the counters are those of the tries where patterns and buckets are kept
apart and no success is recorded.
-/
namespace ControlPlane.Guarantees.TryCounts

open Lib Source.Memory Source.Engine

/-! ## Statement -/

section Statement

variable {κ : Type} [Fintype κ] (tables : CaseTables)

open Classical in
noncomputable def countOf (P : κ → Prop) : Nat := (Finset.univ.filter P).card

/-- The call returned the pattern of the entry, and the bucket is one of its tags'. -/
def Returns (call : InductionCall) (returned : List TriggeredPattern) (b : MemoryBucket)
    (key : String) (i : Nat) : Prop :=
  ∃ p ∈ returned, (∃ tag ∈ p.triggerTags, tagKey tables call.context.tenantId tag = key) ∧
    (entryAt b key i).map forgetCounts = some (forgetCounts p)

/-- The call records a success of the hint of the entry, in a bucket of the task. -/
def Records (call : InductionCall) (b : MemoryBucket) (key : String) (i : Nat) : Prop :=
  ∃ hintTexts ctx, call = .recordSuccess hintTexts ctx ∧
    (∃ tag ∈ ctx.taskClassTags, tagKey tables ctx.tenantId tag = key) ∧
      ∃ p, entryAt b key i = some p ∧ p.hintText ∈ hintTexts

/-- Every try of a pattern is counted once in each of its buckets, and nothing else is. -/
structure TriesCounted (calls : κ → InductionCall) (start : MemoryBucket)
    (t : Threads κ Client MemoryBucket) : Prop where
  once : ∀ k, ((t.locals k).returned.map forgetCounts).Nodup
  stored : ∀ k, ∀ p ∈ (t.locals k).returned, ∀ tag ∈ p.triggerTags, ∃ i,
    (entryAt t.shared (tagKey tables (calls k).context.tenantId tag) i).map forgetCounts
      = some (forgetCounts p)
  atLeast : ∀ key i, attemptAt start key i + countOf (fun k => (t.locals k).stage = .finished ∧
    Returns tables (calls k) (t.locals k).returned t.shared key i) ≤ attemptAt t.shared key i
  atMost : ∀ key i, attemptAt t.shared key i ≤ attemptAt start key i + countOf fun k =>
    Returns tables (calls k) (t.locals k).returned t.shared key i
  successes : (∀ k, (t.locals k).stage = .finished) → ∀ key i,
    successAt t.shared key i = successAt start key i + countOf fun k =>
      Records tables (calls k) t.shared key i
  ordered : ∀ key i, successAt start key i ≤ attemptAt start key i →
    successAt t.shared key i ≤ attemptAt t.shared key i
  tries : ∀ key i, attemptAt t.shared key i ≤ attemptAt start key i + countOf fun k =>
    countsSuccess (calls k) = false

/-- A pattern in a bucket of the task. -/
def InTaskBucket (layout : PatternBuckets) (ctx : InductionContext) (p : TriggeredPattern) :
    Prop :=
  ∃ tag ∈ ctx.taskClassTags, p ∈ loadBucket layout (tagKey tables ctx.tenantId tag)

/-- A pattern in the bucket of a tag of such a pattern, whose exit reason and hint are of
no pattern in the buckets of the task. -/
def AcrossBridge (layout : PatternBuckets) (ctx : InductionContext) (p : TriggeredPattern) :
    Prop :=
  (∃ q, InTaskBucket tables layout ctx q ∧ ∃ tag ∈ q.triggerTags,
      p ∈ loadBucket layout (tagKey tables ctx.tenantId tag)) ∧
    ∀ q, InTaskBucket tables layout ctx q → hintIdentity q ≠ hintIdentity p

/-- A tag of the task, a violated constraint, or a tag of a pattern in a task bucket. -/
def Asks (layout : PatternBuckets) (ctx : InductionContext) (tag : String) : Prop :=
  tag ∈ ctx.taskClassTags ∨ tag ∈ ctx.violatedConstraintIds ∨
    ∃ q, InTaskBucket tables layout ctx q ∧ tag ∈ q.triggerTags

/-- The buckets lead to the pattern, and one of its tags is asked for. -/
def Leads (layout : PatternBuckets) (ctx : InductionContext) (p : TriggeredPattern) : Prop :=
  (InTaskBucket tables layout ctx p ∨ AcrossBridge tables layout ctx p) ∧
    ∃ own ∈ p.triggerTags, Asks tables layout ctx own

/-- No pattern lies twice in the buckets of the task; a pattern that they lead to has a
bucket of its own for each tag, lies there once, and is the first with its hint text. -/
structure KeptApart (layout : PatternBuckets) (ctx : InductionContext) : Prop where
  apart : (ctx.taskClassTags.flatMap fun tag =>
    loadBucket layout (tagKey tables ctx.tenantId tag)).Nodup
  buckets : ∀ p, Leads tables layout ctx p →
    (p.triggerTags.map (tagKey tables ctx.tenantId)).Nodup
  single : ∀ p, Leads tables layout ctx p → ∀ tag ∈ p.triggerTags,
    (loadBucket layout (tagKey tables ctx.tenantId tag)).count p = 1
  first : ∀ p, Leads tables layout ctx p → ∀ tag ∈ p.triggerTags,
    ((loadBucket layout (tagKey tables ctx.tenantId tag)).find? fun q =>
      q.hintText = p.hintText) = some p

/-- Every lookup finds its patterns kept apart, no success of a hint is recorded, and no
counter is about to run over. -/
structure MeetsTries (calls : κ → InductionCall) (start : MemoryBucket) : Prop where
  lookups : ∀ k ctx, calls k = .runRetroactive ctx →
    KeptApart tables (layoutOf (readBuckets start)) ctx
  successes : ∀ k hintTexts ctx, calls k = .recordSuccess hintTexts ctx → hintTexts = []
  room : ∀ key i, attemptAt start key i + Fintype.card κ < 2 ^ 64

end Statement

/-! ## One lookup on the layout -/

section Lookup

variable {tables : CaseTables} {layout : PatternBuckets} {ctx : InductionContext}
variable (walk : Walk String)

theorem appendUnseen_nodup {all : List TriggeredPattern} (distinct : all.Nodup)
    (found : List TriggeredPattern) : (appendUnseen all found).Nodup := by
  induction found generalizing all with
  | nil => exact distinct
  | cons p rest ih =>
    rw [appendUnseen_cons]
    split
    · exact ih distinct
    · rename_i new
      apply ih
      apply distinct.append (List.nodup_singleton p)
      intro q member same
      rw [List.mem_singleton.mp same] at member
      exact new ⟨p, member, rfl⟩

theorem sadRetrieve_nodup (kept : KeptApart tables layout ctx) :
    (sadRetrieve tables walk.run layout ctx).Nodup := by
  have first : (roundOne tables layout ctx).Nodup := by
    rw [roundOne, roundOneKeys, List.flatMap_map]
    exact kept.apart
  unfold sadRetrieve rankAndFilter
  rw [(List.perm_insertionSort _ _).nodup_iff]
  exact (appendUnseen_nodup first _).filter _

theorem inTaskBucket_iff {p : TriggeredPattern} :
    p ∈ roundOne tables layout ctx ↔ InTaskBucket tables layout ctx p := mem_roundOne

theorem leads_of_mem {p : TriggeredPattern}
    (member : p ∈ sadRetrieve tables walk.run layout ctx) : Leads tables layout ctx p := by
  obtain ⟨found, own, owned, matched⟩ := mem_rankAndFilter.mp member
  refine ⟨?_, own, owned, ?_⟩
  · obtain first | ⟨second, new⟩ := mem_of_mem_appendUnseen found
    · exact Or.inl (inTaskBucket_iff.mp first)
    · obtain ⟨key, asked, found⟩ := List.mem_flatMap.mp second
      obtain ⟨tag, bridge, rfl⟩ := List.mem_map.mp asked
      obtain ⟨-, q, first, named⟩ := mem_bridgeTags.mp bridge
      exact Or.inr ⟨⟨q, inTaskBucket_iff.mp first, tag, named, found⟩,
        fun q first => new q (inTaskBucket_iff.mpr first)⟩
  · obtain asked | violated := matched
    · obtain asked | bridge := List.mem_append.mp asked
      · exact Or.inl asked
      · obtain ⟨-, q, first, named⟩ := mem_bridgeTags.mp bridge
        exact Or.inr (Or.inr ⟨q, inTaskBucket_iff.mp first, named⟩)
    · exact Or.inr (Or.inl violated)

/-- The entry of a bucket of the layout. -/
def layoutEntry (layout : PatternBuckets) (key : String) (i : Nat) : Option TriggeredPattern :=
  (layout key).bind fun patterns => patterns[i]?

theorem layoutEntry_iff {key : String} {i : Nat} {p : TriggeredPattern} :
    layoutEntry layout key i = some p ↔ (loadBucket layout key)[i]? = some p := by
  unfold layoutEntry loadBucket
  cases layout key <;> simp

theorem target_iff {key hintText : String} {i : Nat} :
    target layout (key, hintText) = some i ↔
      (loadBucket layout key).findIdx? (fun p => p.hintText = hintText) = some i := by
  unfold target loadBucket
  cases layout key <;> simp

/-- The bucket is one of the pattern's, and the entry is the pattern. -/
def CountsAt (tables : CaseTables) (layout : PatternBuckets) (ctx : InductionContext)
    (key : String) (i : Nat) (p : TriggeredPattern) : Prop :=
  (∃ tag ∈ p.triggerTags, tagKey tables ctx.tenantId tag = key) ∧ layoutEntry layout key i = some p

open Classical in
/-- A pattern that is kept apart is counted once in each of its buckets. -/
theorem hits_of_pattern (kept : KeptApart tables layout ctx) {p : TriggeredPattern}
    (leads : Leads tables layout ctx p) (key : String) (i : Nat) :
    hits layout (p.triggerTags.map fun tag => (tagKey tables ctx.tenantId tag, p.hintText)) key i
      = if CountsAt tables layout ctx key i p then 1 else 0 := by
  have keys := kept.buckets p leads
  have counts : hits layout
      (p.triggerTags.map fun tag => (tagKey tables ctx.tenantId tag, p.hintText)) key i
      = (p.triggerTags.map (tagKey tables ctx.tenantId)).countP fun own =>
          own = key ∧ target layout (own, p.hintText) = some i := by
    rw [hits, List.countP_map, List.countP_map]
    rfl
  rw [counts]
  by_cases own : ∃ tag ∈ p.triggerTags, tagKey tables ctx.tenantId tag = key
  · have named : key ∈ p.triggerTags.map (tagKey tables ctx.tenantId) := List.mem_map.mpr own
    obtain ⟨tag, owned, rfl⟩ := own
    have entry : target layout (tagKey tables ctx.tenantId tag, p.hintText) = some i ↔
        layoutEntry layout (tagKey tables ctx.tenantId tag) i = some p := by
      rw [target_iff, layoutEntry_iff]
      exact findIdx?_of_first _ (kept.first p leads tag owned) (kept.single p leads tag owned) i
    by_cases found : layoutEntry layout (tagKey tables ctx.tenantId tag) i = some p
    · have here : CountsAt tables layout ctx (tagKey tables ctx.tenantId tag) i p :=
        ⟨⟨tag, owned, rfl⟩, found⟩
      rw [if_pos here, ← List.count_eq_one_of_mem keys named, List.count]
      apply List.countP_congr
      intro other _
      simp only [decide_eq_true_eq, beq_iff_eq]
      constructor
      · exact fun h => h.1
      · rintro rfl
        exact ⟨rfl, entry.mpr found⟩
    · have not : ¬ CountsAt tables layout ctx (tagKey tables ctx.tenantId tag) i p :=
        fun h => found h.2
      rw [if_neg not, List.countP_eq_zero]
      intro other _ counted
      obtain ⟨rfl, hit⟩ := of_decide_eq_true counted
      exact found (entry.mp hit)
  · have not : ¬ CountsAt tables layout ctx key i p := fun h => own h.1
    rw [if_neg not, List.countP_eq_zero]
    intro other member counted
    obtain ⟨tag, owned, rfl⟩ := List.mem_map.mp member
    exact own ⟨tag, owned, (of_decide_eq_true counted).1⟩

theorem hits_append (tasks more : List (String × String)) (key : String) (i : Nat) :
    hits layout (tasks ++ more) key i = hits layout tasks key i + hits layout more key i := by
  simp [hits]

open Classical in
/-- A lookup of patterns kept apart counts an entry once, if it returns its pattern. -/
theorem hits_of_keptApart (kept : KeptApart tables layout ctx) (key : String) (i : Nat) :
    hits layout (attemptCounts tables ctx (sadRetrieve tables walk.run layout ctx)) key i
      = if ∃ p ∈ sadRetrieve tables walk.run layout ctx, CountsAt tables layout ctx key i p then 1
        else 0 := by
  have distinct := sadRetrieve_nodup walk kept
  have leads : ∀ p ∈ sadRetrieve tables walk.run layout ctx, Leads tables layout ctx p :=
    fun p member => leads_of_mem walk member
  generalize sadRetrieve tables walk.run layout ctx = returned at distinct leads
  unfold attemptCounts
  induction returned with
  | nil => simp
  | cons p rest ih =>
    obtain ⟨new, distinct⟩ := List.nodup_cons.mp distinct
    rw [List.flatMap_cons, hits_append, hits_of_pattern kept (leads p List.mem_cons_self),
      ih distinct fun q member => leads q (List.mem_cons_of_mem p member)]
    by_cases here : CountsAt tables layout ctx key i p
    · have only : ¬ ∃ q ∈ rest, CountsAt tables layout ctx key i q := by
        intro again
        obtain ⟨q, member, counted⟩ := again
        have same : p = q := Option.some.inj (here.2.symm.trans counted.2)
        exact new (same ▸ member)
      rw [if_pos here, if_neg only, if_pos ⟨p, List.mem_cons_self, here⟩]
    · rw [if_neg here, Nat.zero_add]
      congr 1
      simp [here]

end Lookup

/-! ## All interleavings -/

section Runs

variable {κ : Type} {tables : CaseTables} {walks : κ → Walk String}
variable {calls : κ → InductionCall} {start : MemoryBucket} {t : Threads κ Client MemoryBucket}

theorem entryAt_layout (inv : TrafficInv tables walks calls start t) (key : String) (i : Nat) :
    (entryAt t.shared key i).map forgetCounts
      = layoutEntry (layoutOf (readBuckets start)) key i := by
  rw [← inv.layout, entryAt, layoutEntry, layoutOf]
  cases readBuckets t.shared key <;> simp

theorem returned_of_success (inv : TrafficInv tables walks calls start t) {k : κ}
    (success : countsSuccess (calls k) = true) : (t.locals k).returned = [] := by
  have follows := inv.follows k
  unfold Follows at follows
  split at follows
  · exact follows.1
  · exact follows.1
  · simpa [Retrieved, success] using follows

/-- What a lookup has returned is nothing yet, or what it finds on the layout. -/
theorem returned_of_lookup (inv : TrafficInv tables walks calls start t) {k : κ}
    {ctx : InductionContext} (lookup : calls k = .runRetroactive ctx) :
    ((t.locals k).returned = [] ∧ (t.locals k).planned tables (calls k) = []) ∨
      (((t.locals k).returned.map forgetCounts).Perm
          (sadRetrieve tables (walks k).run (layoutOf (readBuckets start)) ctx) ∧
        (t.locals k).planned tables (calls k)
          = attemptCounts tables ctx (t.locals k).returned) := by
  have follows := inv.follows k
  rw [lookup] at follows ⊢
  generalize t.locals k = c at follows
  obtain ⟨stage, returned, exhausted⟩ := c
  cases stage with
  | first tags found => exact Or.inl ⟨follows.1, rfl⟩
  | second bridge tags all => exact Or.inl ⟨follows.1, rfl⟩
  | read todo attempt => exact Or.inr ⟨follows, rfl⟩
  | swap task todo attempt patterns revision => exact Or.inr ⟨follows, rfl⟩
  | finished => exact Or.inr ⟨follows, rfl⟩

/-- A returned pattern is one that the lookup finds on the layout. -/
theorem found_of_returned (inv : TrafficInv tables walks calls start t) {k : κ}
    {ctx : InductionContext} (lookup : calls k = .runRetroactive ctx) {p : TriggeredPattern}
    (member : p ∈ (t.locals k).returned) :
    forgetCounts p ∈ sadRetrieve tables (walks k).run (layoutOf (readBuckets start)) ctx := by
  obtain ⟨none, -⟩ | ⟨same, -⟩ := returned_of_lookup inv lookup
  · rw [none] at member
    cases member
  · exact same.mem_iff.mp (List.mem_map_of_mem member)

theorem returns_iff (inv : TrafficInv tables walks calls start t) {k : κ} {ctx : InductionContext}
    (lookup : calls k = .runRetroactive ctx)
    (same : ((t.locals k).returned.map forgetCounts).Perm
      (sadRetrieve tables (walks k).run (layoutOf (readBuckets start)) ctx))
    (key : String) (i : Nat) :
    Returns tables (calls k) (t.locals k).returned t.shared key i ↔
      ∃ p ∈ sadRetrieve tables (walks k).run (layoutOf (readBuckets start)) ctx,
        CountsAt tables (layoutOf (readBuckets start)) ctx key i p := by
  unfold Returns CountsAt
  rw [entryAt_layout inv, lookup]
  constructor
  · intro returns
    obtain ⟨p, member, own, entry⟩ := returns
    exact ⟨_, same.mem_iff.mp (List.mem_map_of_mem member), own, entry⟩
  · intro found
    obtain ⟨q, member, own, entry⟩ := found
    obtain ⟨p, returned, rfl⟩ := List.mem_map.mp (same.mem_iff.mpr member)
    exact ⟨p, returned, own, entry⟩

theorem countOf_eq_sum [Fintype κ] (P : κ → Prop) [DecidablePred P] :
    countOf P = ∑ k, if P k then 1 else 0 := by
  unfold countOf
  rw [Finset.card_filter]
  apply Finset.sum_congr rfl
  intro k _
  by_cases h : P k <;> simp [h]

theorem not_returns_of_none {k : κ} (none : (t.locals k).returned = []) (key : String) (i : Nat) :
    ¬ Returns tables (calls k) (t.locals k).returned t.shared key i := by
  rw [none]
  intro returns
  obtain ⟨p, member, -⟩ := returns
  cases member

open Classical in
theorem countOf_mono [Fintype κ] {P Q : κ → Prop} (implied : ∀ k, P k → Q k) :
    countOf P ≤ countOf Q := by
  unfold countOf
  apply Finset.card_le_card
  intro k member
  rw [Finset.mem_filter] at member ⊢
  exact ⟨member.1, implied k member.2⟩

open Classical in
theorem countOf_eq_zero [Fintype κ] {P : κ → Prop} (none : ∀ k, ¬ P k) : countOf P = 0 := by
  unfold countOf
  rw [Finset.card_eq_zero, Finset.filter_eq_empty_iff]
  exact fun k _ => none k

open Classical in
/-- Under the condition a call plans one count for each entry that it returns. -/
theorem hits_planned {k : κ} (lookups : ∀ ctx, calls k = .runRetroactive ctx →
      KeptApart tables (layoutOf (readBuckets start)) ctx)
    (silent : ∀ hintTexts ctx, calls k = .recordSuccess hintTexts ctx → hintTexts = [])
    (inv : TrafficInv tables walks calls start t) (key : String) (i : Nat) :
    hits (layoutOf (readBuckets start)) ((t.locals k).planned tables (calls k)) key i
      = if Returns tables (calls k) (t.locals k).returned t.shared key i then 1 else 0 := by
  cases call : calls k with
  | runRetroactive ctx =>
    rw [← call]
    obtain ⟨none, planned⟩ | ⟨same, planned⟩ := returned_of_lookup inv call
    · rw [planned, if_neg (not_returns_of_none none key i)]
      rfl
    · rw [planned, hits_attemptCounts same, hits_of_keptApart (walks k) (lookups ctx call),
        if_congr (returns_iff inv call same key i).symm rfl rfl]
  | recordSuccess hintTexts ctx =>
    have none : (t.locals k).returned = [] := returned_of_success inv (by rw [call]; rfl)
    rw [← call, if_neg (not_returns_of_none none key i), call, silent hintTexts ctx call]
    cases stage : (t.locals k).stage <;> simp [Client.planned, stage, tasksOf, successCounts]

theorem once_of_inv {k : κ} (lookups : ∀ ctx, calls k = .runRetroactive ctx →
      KeptApart tables (layoutOf (readBuckets start)) ctx)
    (inv : TrafficInv tables walks calls start t) :
    ((t.locals k).returned.map forgetCounts).Nodup := by
  cases call : calls k with
  | runRetroactive ctx =>
    obtain ⟨none, -⟩ | ⟨same, -⟩ := returned_of_lookup inv call
    · simp [none]
    · exact same.nodup_iff.mpr (sadRetrieve_nodup _ (lookups ctx call))
  | recordSuccess hintTexts ctx =>
    have none : (t.locals k).returned = [] := returned_of_success inv (by rw [call]; rfl)
    simp [none]

/-- A returned pattern lies in the bucket of each of its tags. -/
theorem stored_of_inv {k : κ} (lookups : ∀ ctx, calls k = .runRetroactive ctx →
      KeptApart tables (layoutOf (readBuckets start)) ctx)
    (inv : TrafficInv tables walks calls start t) {p : TriggeredPattern}
    (member : p ∈ (t.locals k).returned) {tag : String} (owned : tag ∈ p.triggerTags) :
    ∃ i, (entryAt t.shared (tagKey tables (calls k).context.tenantId tag) i).map forgetCounts
      = some (forgetCounts p) := by
  cases call : calls k with
  | runRetroactive ctx =>
    have leads := leads_of_mem _ (found_of_returned inv call member)
    have here := List.mem_of_find?_eq_some ((lookups ctx call).first _ leads tag owned)
    obtain ⟨i, entry⟩ := List.mem_iff_getElem?.mp here
    refine ⟨i, ?_⟩
    rw [entryAt_layout inv]
    exact layoutEntry_iff.mpr entry
  | recordSuccess hintTexts ctx =>
    rw [returned_of_success inv (by rw [call]; rfl)] at member
    cases member

/-- Successes without hints leave the successes as they are. -/
theorem success_unchanged [DecidableEq κ]
    (silent : ∀ k hintTexts ctx, calls k = .recordSuccess hintTexts ctx → hintTexts = [])
    (reached : Reached tables walks calls start t) (key : String) (i : Nat) :
    successAt t.shared key i = successAt start key i := by
  have all := reached_holds (fun t => TrafficInv tables walks calls start t ∧
      (∀ k, countsSuccess (calls k) = true → (t.locals k).todo = []) ∧
        successAt t.shared key i = successAt start key i) ⟨startedClients_inv, ?_, rfl⟩ ?_ reached
  · exact all.2.2
  · intro k success
    show (startClient tables (calls k)).todo = []
    cases call : calls k with
    | runRetroactive ctx => rfl
    | recordSuccess hintTexts ctx =>
      rw [silent k hintTexts ctx call]
      rfl
  · intro t k holds
    obtain ⟨inv, idle, same⟩ := holds
    refine ⟨inv.act k, ?_, ?_⟩
    · intro j success
      by_cases own : j = k
      · subst own
        rw [Threads.act_same]
        exact (clientMove_idle _ success (inv.follows j) (idle j success)).1
      · rw [Threads.act_other _ t k () own]
        exact idle j success
    · rw [← same, Threads.act_shared]
      cases kind : countsSuccess (calls k) with
      | false => exact successAt_move (inv.holds k) kind key i
      | true =>
        have nothing := (clientMove_idle t.shared kind (inv.follows k) (idle k kind)).2
        show successAt (clientMove tables (walks k) (calls k) (t.locals k) t.shared).2 key i = _
        rw [nothing]

/-- What successes raise, they raise in both counters. -/
theorem successes_count_attempts [DecidableEq κ]
    (all : ∀ k, countsSuccess (calls k) = true) (reached : Reached tables walks calls start t)
    (key : String) (i : Nat) :
    attemptAt t.shared key i + successAt start key i
      ≡ successAt t.shared key i + attemptAt start key i [MOD 2 ^ 64] := by
  have both := reached_holds (fun t => TrafficInv tables walks calls start t ∧
      attemptAt t.shared key i + successAt start key i
        ≡ successAt t.shared key i + attemptAt start key i [MOD 2 ^ 64])
    ⟨startedClients_inv, by rw [Nat.add_comm]; rfl⟩ ?_ reached
  · exact both.2
  · intro t k holds
    refine ⟨holds.1.act k, ?_⟩
    have own := success_counts_attempt tables (walks k) (holds.1.holds k) (all k) key i
    have sofar := holds.2
    rw [Threads.act_shared]
    unfold Nat.ModEq at own sofar ⊢
    simp only [trafficMove] at own ⊢
    omega

section Finite

variable [Fintype κ]

theorem room_of_meets (meets : MeetsTries tables calls start) :
    Room tables walks calls start := by
  intro key i
  have each : ∀ k, hits (layoutOf (readBuckets start))
      (layoutTasks tables (walks k) (layoutOf (readBuckets start)) (calls k)) key i ≤ 1 := by
    intro k
    cases call : calls k with
    | runRetroactive ctx =>
      refine (hits_of_keptApart (walks k) (meets.lookups k ctx call) key i).le.trans ?_
      split <;> omega
    | recordSuccess hintTexts ctx =>
      rw [meets.successes k hintTexts ctx call]
      exact Nat.zero_le 1
  have total := Finset.sum_le_card_nsmul Finset.univ _ 1 fun k _ => each k
  rw [Finset.card_univ, smul_eq_mul, Nat.mul_one] at total
  have bound := meets.room key i
  omega

theorem sum_planned (meets : MeetsTries tables calls start)
    (inv : TrafficInv tables walks calls start t) (key : String) (i : Nat) :
    ∑ k, hits (layoutOf (readBuckets start)) ((t.locals k).planned tables (calls k)) key i
      = countOf fun k => Returns tables (calls k) (t.locals k).returned t.shared key i := by
  classical
  rw [countOf_eq_sum]
  apply Finset.sum_congr rfl
  intro k _
  exact hits_planned (meets.lookups k) (meets.successes k) inv key i

/-- A call that has ended has made its counts, the others at most what they planned. -/
theorem sum_todo (meets : MeetsTries tables calls start)
    (inv : TrafficInv tables walks calls start t) (key : String) (i : Nat) :
    ∑ k, hits (layoutOf (readBuckets start)) (t.locals k).todo key i
        + countOf (fun k => (t.locals k).stage = .finished ∧
          Returns tables (calls k) (t.locals k).returned t.shared key i)
      ≤ ∑ k, hits (layoutOf (readBuckets start)) ((t.locals k).planned tables (calls k)) key i := by
  classical
  rw [countOf_eq_sum, ← Finset.sum_add_distrib]
  apply Finset.sum_le_sum
  intro k _
  by_cases finished : (t.locals k).stage = .finished
  · have ended : (t.locals k).todo = [] := by simp [Client.todo, finished]
    rw [ended, hits_nil, Nat.zero_add, hits_planned (meets.lookups k) (meets.successes k) inv]
    exact le_of_eq (if_congr (and_iff_right finished) rfl rfl)
  · rw [if_neg fun h => finished h.1, Nat.add_zero]
    exact (inv.todo k).sublist.countP_le

theorem triesCounted_of_meets [DecidableEq κ] (meets : MeetsTries tables calls start)
    (reached : Reached tables walks calls start t)
    (calm : ∀ k, (t.locals k).exhausted = false) : TriesCounted tables calls start t := by
  have inv := reached_inv reached
  have accounted := reached_accounted (room_of_meets meets) reached calm
  have atLeast : ∀ key i, attemptAt start key i + countOf (fun k =>
      (t.locals k).stage = .finished ∧
        Returns tables (calls k) (t.locals k).returned t.shared key i)
      ≤ attemptAt t.shared key i := by
    intro key i
    have balance := accounted key i
    have done := sum_todo meets inv key i
    omega
  have atMost : ∀ key i, attemptAt t.shared key i ≤ attemptAt start key i + countOf fun k =>
      Returns tables (calls k) (t.locals k).returned t.shared key i := by
    intro key i
    have balance := accounted key i
    rw [sum_planned meets inv] at balance
    omega
  refine ⟨fun k => once_of_inv (meets.lookups k) inv,
    fun k p member tag owned => stored_of_inv (meets.lookups k) inv member owned,
    atLeast, atMost, ?_, ?_, ?_⟩
  · intro _ key i
    have none : (countOf fun k => Records tables (calls k) t.shared key i) = 0 := by
      apply countOf_eq_zero
      intro k records
      obtain ⟨hintTexts, ctx, call, -, p, -, member⟩ := records
      rw [meets.successes k hintTexts ctx call] at member
      cases member
    rw [success_unchanged meets.successes reached, none, Nat.add_zero]
  · intro key i ordered
    rw [success_unchanged meets.successes reached]
    have raised := atLeast key i
    omega
  · intro key i
    refine (atMost key i).trans (Nat.add_le_add_left ?_ _)
    apply countOf_mono
    intro k returns
    cases kind : countsSuccess (calls k) with
    | false => rfl
    | true => exact absurd returns (not_returns_of_none (returned_of_success inv kind) key i)

end Finite

/-- For every set of clients and every interleaving of their requests: where each lookup
finds its patterns kept apart and no success is recorded, the counters are those of the
tries; and successes always raise the attempts with the successes. -/
theorem tries_counted [Fintype κ] [DecidableEq κ] (tables : CaseTables)
    (walks : κ → Walk String) (calls : κ → InductionCall) (start : MemoryBucket)
    (t : Threads κ Client MemoryBucket) (reached : Reached tables walks calls start t) :
    (MeetsTries tables calls start → (∀ k, (t.locals k).exhausted = false) →
        TriesCounted tables calls start t) ∧
      ((∀ k, countsSuccess (calls k) = true) → ∀ key i,
        attemptAt t.shared key i + successAt start key i
          ≡ successAt t.shared key i + attemptAt start key i [MOD 2 ^ 64]) := by
  constructor
  · intro meets calm
    exact triesCounted_of_meets meets reached calm
  · intro all key i
    exact successes_count_attempts all reached key i

end Runs

/-! ## Two tries at once -/

section Example

def acmeKey (tag : String) : String := tagKey asciiTables "acme" tag

def issuerPattern (triggerTags : List String) : TriggeredPattern where
  hintText := "name the issuer"
  successCount := 1
  attemptCount := 3
  triggerTags := triggerTags
  exitReasonKind := "ZeroSurvival"

/-- A run of the clients in the order in which they are named. -/
def endState {κ : Type} [DecidableEq κ] (calls : κ → InductionCall) (start : MemoryBucket)
    (order : List κ) : Threads κ Client MemoryBucket :=
  (order.map fun k => (k, ())).foldl
    (Threads.act (trafficMove asciiTables (fun _ => Walk.stored) calls))
    (startedClients asciiTables calls start)

theorem endState_reached {κ : Type} [DecidableEq κ] (calls : κ → InductionCall)
    (start : MemoryBucket) (order : List κ) :
    Reached asciiTables (fun _ => Walk.stored) calls start (endState calls start order) :=
  ⟨_, runActions_total _ _ _⟩

def oneBucket : MemoryBucket :=
  Bucket.empty.write (acmeKey "auth") (some [issuerPattern ["auth"]])

def bothLookUp (_ : Bool) : InductionCall := .runRetroactive ⟨"acme", ["auth"], []⟩

/-- The first call to hold the value loses the swap and reads again. -/
def contended : Threads Bool Client MemoryBucket :=
  endState bothLookUp oneBucket
    [false, false, false, false, true, true, true, true, true, false, false, false, false, true]

theorem oneBucket_mem {key : String} {p : TriggeredPattern}
    (member : p ∈ loadBucket (layoutOf (readBuckets oneBucket)) key) :
    p = forgetCounts (issuerPattern ["auth"]) := by
  have bucket := readBuckets_write Bucket.empty (acmeKey "auth") [issuerPattern ["auth"]] key
  rw [loadBucket_layoutOf] at member
  obtain ⟨q, member, rfl⟩ := List.mem_map.mp member
  rw [loadBucket, oneBucket, bucket] at member
  split at member
  · rw [List.mem_singleton.mp member]
  · cases member

theorem oneBucket_leads {ctx : InductionContext} {p : TriggeredPattern}
    (leads : Leads asciiTables (layoutOf (readBuckets oneBucket)) ctx p) :
    p = forgetCounts (issuerPattern ["auth"]) := by
  obtain ⟨⟨tag, -, member⟩ | ⟨⟨q, -, tag, -, member⟩, -⟩, -⟩ := leads
  · exact oneBucket_mem member
  · exact oneBucket_mem member

theorem bothLookUp_meets : MeetsTries asciiTables bothLookUp oneBucket where
  lookups := by
    intro k ctx call
    obtain rfl : (⟨"acme", ["auth"], []⟩ : InductionContext) = ctx :=
      InductionCall.runRetroactive.inj call
    refine ⟨by decide +kernel, ?_, ?_, ?_⟩
    · intro p leads
      rw [oneBucket_leads leads]
      decide +kernel
    · intro p leads tag owned
      rw [oneBucket_leads leads] at owned ⊢
      rw [List.mem_singleton.mp owned]
      decide +kernel
    · intro p leads tag owned
      rw [oneBucket_leads leads] at owned ⊢
      rw [List.mem_singleton.mp owned]
      decide +kernel
  successes := by
    intro k hintTexts ctx call
    cases call
  room := by
    intro key i
    have small : attemptAt oneBucket key i ≤ 3 := by
      unfold attemptAt entryAt oneBucket
      rw [readBuckets_write]
      split
      · cases i <;> simp [issuerPattern]
      · simp [readBuckets, Bucket.empty]
    rw [Fintype.card_bool]
    omega

theorem contended_counted :
    TriesCounted asciiTables bothLookUp oneBucket contended ∧
      attemptAt contended.shared (acmeKey "auth") 0 = 5 :=
  ⟨(tries_counted asciiTables (fun _ => Walk.stored) bothLookUp oneBucket contended
      (endState_reached _ _ _)).1 bothLookUp_meets (by decide +kernel), by decide +kernel⟩

/-! ## Tries that are miscounted -/

/-- One pattern under both of its tags. -/
def twoBuckets : MemoryBucket :=
  (Bucket.empty.write (acmeKey "auth") (some [issuerPattern ["auth", "cache"]])).write
    (acmeKey "cache") (some [issuerPattern ["auth", "cache"]])

/-- The task has both tags. -/
def bothTags (_ : Unit) : InductionCall := .runRetroactive ⟨"acme", ["auth", "cache"], []⟩

/-- The first client looks up, the second records the success of that try. -/
def tryThenSuccess : Bool → InductionCall
  | false => .runRetroactive ⟨"acme", ["auth"], []⟩
  | true => .recordSuccess ["name the issuer"] ⟨"acme", ["auth"], []⟩

def returnedTwice : Threads Unit Client MemoryBucket :=
  endState bothTags twoBuckets (List.replicate 13 ())

def countedAgain : Threads Bool Client MemoryBucket :=
  endState tryThenSuccess oneBucket (List.replicate 6 false ++ List.replicate 3 true)

theorem returnedTwice_twice :
    ¬ ((returnedTwice.locals ()).returned.map forgetCounts).Nodup ∧
      attemptAt returnedTwice.shared (acmeKey "auth") 0 = 5 := by
  decide +kernel

theorem countedAgain_attempts :
    attemptAt countedAgain.shared (acmeKey "auth") 0 = 5 ∧
      successAt countedAgain.shared (acmeKey "auth") 0 = 2 ∧
        attemptAt oneBucket (acmeKey "auth") 0 = 3 := by
  decide +kernel

/-- A pattern with two tags of the task is returned twice and counted twice in each
bucket, and a success counts its try a second time. -/
theorem tries_miscounted :
    ¬ (∀ (calls : Unit → InductionCall) (start : MemoryBucket)
          (t : Threads Unit Client MemoryBucket),
        Reached asciiTables (fun _ => Walk.stored) calls start t →
          (∀ k, (t.locals k).exhausted = false) → TriesCounted asciiTables calls start t) ∧
      ¬ (∀ (calls : Bool → InductionCall) (start : MemoryBucket)
          (t : Threads Bool Client MemoryBucket),
        Reached asciiTables (fun _ => Walk.stored) calls start t →
          (∀ k, (t.locals k).exhausted = false) → TriesCounted asciiTables calls start t) := by
  constructor
  · intro all
    have counted := all bothTags twoBuckets returnedTwice (endState_reached _ _ _)
      (by decide +kernel)
    exact returnedTwice_twice.1 (counted.once ())
  · intro all
    have counted := all tryThenSuccess oneBucket countedAgain (endState_reached _ _ _)
      (by decide +kernel)
    have bound := counted.tries (acmeKey "auth") 0
    obtain ⟨after, -, before⟩ := countedAgain_attempts
    have once : (countOf fun k => countsSuccess (tryThenSuccess k) = false) = 1 := by
      rw [countOf_eq_sum]
      decide
    rw [after, before, once] at bound
    omega

end Example

end ControlPlane.Guarantees.TryCounts
