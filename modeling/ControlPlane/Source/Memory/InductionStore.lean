import ControlPlane.Lib.Sequences
import ControlPlane.Lib.Walks
import ControlPlane.Source.Engine.ActiveContext
import ControlPlane.Source.Identity

/-!
# Pattern store of the induction scheduler

Embeds `InductionContext`, `InductionResult` and `normalize_for_shingling` of
`crates/h2ai-orchestrator/src/induction/mod.rs`, `rank_and_filter` of `algorithmic.rs`,
and the two-round read and the counters of `NatsInductionScheduler` in
`nats_scheduler.rs`. A bucket that is absent or does not decode has no patterns, and no
other writer comes between the read and the update of a counter.
-/
namespace ControlPlane.Source.Memory

open Lib Engine

structure InductionContext where
  tenantId : String
  taskClassTags : List String
  violatedConstraintIds : List String
  deriving DecidableEq, Repr

/-- A hint pattern with what a lookup matches it by. -/
structure TriggeredPattern extends RetryHintPattern where
  triggerTags : List String
  exitReasonKind : String
  deriving DecidableEq, Repr

structure InductionResult where
  patterns : List TriggeredPattern
  triggerTags : List String
  deriving DecidableEq, Repr

/-- `is_compatible_with`. -/
def InductionResult.isCompatibleWith (result : InductionResult) (currentTags : List String) :
    Bool :=
  result.triggerTags.any currentTags.contains

/-! ## Tags -/

/-- The Unicode tables behind tag normalization, for which a full stop is punctuation. -/
structure CaseTables where
  isUppercase : Char → Bool
  isLowercase : Char → Bool
  isAlphanumeric : Char → Bool
  toLowercase : List Char → List Char
  dot_punctuation : isAlphanumeric '.' = false

def asciiTables : CaseTables :=
  { isUppercase := Char.isUpper
    isLowercase := Char.isLower
    isAlphanumeric := Char.isAlphanum
    toLowercase := List.map Char.toLower
    dot_punctuation := by decide }

def splitWhitespace (text : List Char) : List (List Char) :=
  (text.splitOnP Text.isWhitespace).filter fun w => !w.isEmpty

section Tags

variable (tables : CaseTables)

/-- A space in front of each uppercase letter behind a lowercase one. -/
def splitCamel : List Char → List Char
  | a :: b :: rest =>
      if tables.isLowercase a && tables.isUppercase b then a :: ' ' :: splitCamel (b :: rest)
      else a :: splitCamel (b :: rest)
  | text => text

/-- Version-like, numeric and hexadecimal words, which normalization drops. -/
def isNoise (word : List Char) : Bool :=
  let stripped := word.dropWhile (· == 'v')
  ((stripped.head?).any (·.isDigit) && stripped.all fun c => c.isDigit || c == '.') ||
    word.all (·.isDigit) ||
    (decide (6 ≤ word.length) && word.all fun c =>
      c.isDigit || (decide ('a' ≤ c) && decide (c ≤ 'f')) || (decide ('A' ≤ c) && decide (c ≤ 'F')))

/-- `normalize_for_shingling`. -/
def normalizeForShingling (text : List Char) : List Char :=
  let words := (splitWhitespace (tables.toLowercase (splitCamel tables text))).filter
    fun w => !isNoise w
  let cleaned := (List.intercalate [' '] words).map fun c =>
    if tables.isAlphanumeric c || c == ' ' then c else ' '
  List.intercalate [' '] (splitWhitespace cleaned)

/-- `normalize_tag`. -/
def normalizeTag (tag : String) : String :=
  String.ofList ((normalizeForShingling tables tag.toList).map fun c => if c = ' ' then '_' else c)

/-- The key `{tenant_id}.tag.{normalized_tag}`. -/
def tagKey (tenantId tag : String) : String := tenantId ++ ".tag." ++ normalizeTag tables tag

end Tags

/-! ## Reads -/

/-- What `load_bucket` finds under a key. -/
abbrev PatternBuckets := String → Option (List TriggeredPattern)

/-- `load_bucket`. -/
def loadBucket (store : PatternBuckets) (key : String) : List TriggeredPattern :=
  (store key).getD []

/-- `rank_and_filter`: best success rate first, ties in the order they came. -/
def rankAndFilter (patterns : List TriggeredPattern) (ctx : InductionContext) :
    List TriggeredPattern :=
  (patterns.filter fun p =>
      p.triggerTags.any (ctx.taskClassTags ++ ctx.violatedConstraintIds).contains).insertionSort
    fun a b => b.successRate ≤ a.successRate

section Retrieval

variable (tables : CaseTables) (walkTags : List String → List String) (store : PatternBuckets)
  (ctx : InductionContext)

/-- The buckets of the first round, one for each tag of the task. -/
def roundOneKeys : List String := ctx.taskClassTags.map (tagKey tables ctx.tenantId)

def roundOne : List TriggeredPattern := (roundOneKeys tables ctx).flatMap (loadBucket store)

/-- The vocabulary bridge: tags of patterns found that the query did not have, in the
order of their hash set. -/
def bridgeTags : List String :=
  walkTags (((roundOne tables store ctx).flatMap (·.triggerTags)).filter
    fun t => !ctx.taskClassTags.contains t).dedup

def roundTwoKeys : List String :=
  (bridgeTags tables walkTags store ctx).map (tagKey tables ctx.tenantId)

/-- Patterns that are new by exit reason and hint text are appended. -/
def appendUnseen (all : List TriggeredPattern) (found : List TriggeredPattern) :
    List TriggeredPattern :=
  found.foldl (fun all p =>
    if all.any fun q => q.exitReasonKind == p.exitReasonKind && q.hintText == p.hintText then all
    else all ++ [p]) all

/-- `sad_retrieve`. -/
def sadRetrieve : List TriggeredPattern :=
  rankAndFilter
    (appendUnseen (roundOne tables store ctx)
      ((roundTwoKeys tables walkTags store ctx).flatMap (loadBucket store)))
    { ctx with taskClassTags := ctx.taskClassTags ++ bridgeTags tables walkTags store ctx }

end Retrieval

/-! ## Counters -/

/-- The first pattern with the hint text counts an attempt, and a success. -/
def countHint (hintText : String) (success : Bool) :
    List TriggeredPattern → Option (List TriggeredPattern)
  | [] => none
  | p :: rest =>
      if p.hintText = hintText then
        some ({ p with
          attemptCount := (p.attemptCount + 1) % 2 ^ 64
          successCount := if success then (p.successCount + 1) % 2 ^ 64 else p.successCount } ::
            rest)
      else (countHint hintText success rest).map (p :: ·)

/-- `cas_increment_in_bucket`. -/
def casIncrement (success : Bool) (store : PatternBuckets) (count : String × String) :
    PatternBuckets :=
  match (store count.1).bind (countHint count.2 success) with
  | some patterns => fun key => if key = count.1 then some patterns else store key
  | none => store

section Calls

variable (tables : CaseTables) (walkTags : List String → List String) (store : PatternBuckets)
  (ctx : InductionContext)

/-- One count for each pattern and each of its tags. -/
def attemptCounts (matched : List TriggeredPattern) : List (String × String) :=
  matched.flatMap fun p => p.triggerTags.map fun tag => (tagKey tables ctx.tenantId tag, p.hintText)

/-- `run_retroactive`: what it returns, and the store it leaves. -/
def runRetroactive : Option InductionResult × PatternBuckets :=
  let matched := sadRetrieve tables walkTags store ctx
  if matched.isEmpty then (none, store)
  else
    (some ⟨matched, ctx.taskClassTags ++ ctx.violatedConstraintIds⟩,
      (attemptCounts tables ctx matched).foldl (casIncrement false) store)

/-- One count for each hint and each tag of the task, no other tag of its pattern. -/
def successCounts (hintTexts : List String) : List (String × String) :=
  hintTexts.flatMap fun hintText =>
    ctx.taskClassTags.map fun tag => (tagKey tables ctx.tenantId tag, hintText)

/-- `record_success`. -/
def recordSuccess (hintTexts : List String) : PatternBuckets :=
  (successCounts tables ctx hintTexts).foldl (casIncrement true) store

end Calls

/-! ## Keys belong to one tenant -/

theorem mem_of_mem_splitOnP {p : Char → Bool} {text : List Char} {w : List Char} {c : Char}
    (hw : w ∈ text.splitOnP p) (hc : c ∈ w) : c ∈ text := by
  induction text generalizing w with
  | nil =>
      simp only [List.splitOnP_nil, List.mem_singleton] at hw
      rw [hw] at hc
      cases hc
  | cons a rest ih =>
      rw [List.splitOnP_cons_eq_if_modifyHead] at hw
      split at hw
      · rcases List.mem_cons.mp hw with rfl | hw
        · cases hc
        · exact List.mem_cons_of_mem a (ih hw hc)
      · cases hsplit : rest.splitOnP p with
        | nil => simp [hsplit] at hw
        | cons first more =>
            rw [hsplit, List.modifyHead_cons] at hw
            rcases List.mem_cons.mp hw with rfl | hw
            · rcases List.mem_cons.mp hc with rfl | hc
              · exact List.mem_cons_self
              · exact List.mem_cons_of_mem a (ih (hsplit ▸ List.mem_cons_self) hc)
            · exact List.mem_cons_of_mem a (ih (hsplit ▸ List.mem_cons_of_mem first hw) hc)

theorem not_mem_joined {c : Char} (hc : c ≠ ' ') {words : List (List Char)}
    (h : ∀ w ∈ words, c ∉ w) : c ∉ List.intercalate [' '] words := by
  induction words with
  | nil => simp [List.intercalate]
  | cons w rest ih =>
      have hrest := ih fun v hv => h v (List.mem_cons_of_mem w hv)
      have hw := h w List.mem_cons_self
      cases rest with
      | nil => simpa [List.intercalate] using hw
      | cons v more =>
          simp only [List.intercalate, List.intersperse_cons_cons, List.flatten_cons,
            List.mem_append, List.mem_singleton, not_or] at hrest ⊢
          exact ⟨hw, hc, hrest⟩

/-- No normalized tag contains a full stop. -/
theorem normalizeTag_no_dot (tables : CaseTables) (tag : String) :
    '.' ∉ (normalizeTag tables tag).toList := by
  have hclean : ∀ text : List Char, '.' ∉ text.map fun c =>
      if tables.isAlphanumeric c || c == ' ' then c else ' ' := by
    intro text hmem
    obtain ⟨c, -, hc⟩ := List.mem_map.mp hmem
    split at hc
    · rename_i hkept
      rw [hc, tables.dot_punctuation] at hkept
      exact absurd hkept (by decide)
    · exact absurd hc (by decide)
  have hwords : '.' ∉ normalizeForShingling tables tag.toList := by
    refine not_mem_joined (by decide) ?_
    intro w hw hdot
    exact hclean _ (mem_of_mem_splitOnP (List.mem_filter.mp hw).1 hdot)
  intro hmem
  rw [normalizeTag, String.toList_ofList] at hmem
  obtain ⟨c, hc, heq⟩ := List.mem_map.mp hmem
  split at heq
  · exact absurd heq (by decide)
  · exact hwords (heq ▸ hc)

/-- A key names its tenant. -/
theorem tagKey_tenant {tables : CaseTables} {a b tag tag' : String}
    (h : tagKey tables a tag = tagKey tables b tag') : a = b := by
  have hkey : ∀ tenantId tag, (tagKey tables tenantId tag).toList =
      (tenantId ++ ".tag").toList ++ '.' :: (normalizeTag tables tag).toList := by
    intro tenantId tag
    simp [tagKey, String.toList_append]
  have hlists := congrArg String.toList h
  rw [hkey, hkey] at hlists
  have hfront := (last_separator_unique (normalizeTag_no_dot tables tag)
    (normalizeTag_no_dot tables tag') hlists).1
  rw [String.toList_append, String.toList_append, List.append_cancel_right_eq] at hfront
  exact String.toList_inj.mp hfront

theorem mem_appendUnseen {all found : List TriggeredPattern} {p : TriggeredPattern}
    (h : p ∈ all) : p ∈ appendUnseen all found := by
  unfold appendUnseen
  induction found generalizing all with
  | nil => exact h
  | cons q rest ih =>
      rw [List.foldl_cons]
      split
      · exact ih h
      · exact ih (List.mem_append_left _ h)

/-- A pattern is found in the bucket of each tag of the task that it is triggered by. -/
theorem mem_sadRetrieve {tables : CaseTables} (walkTags : List String → List String)
    {store : PatternBuckets} {ctx : InductionContext} {tag tag' : String} {p : TriggeredPattern}
    (stored : p ∈ loadBucket store (tagKey tables ctx.tenantId tag))
    (hmem : tag' ∈ ctx.taskClassTags)
    (same : normalizeTag tables tag = normalizeTag tables tag')
    (triggered : tag' ∈ p.triggerTags) : p ∈ sadRetrieve tables walkTags store ctx := by
  have hkey : tagKey tables ctx.tenantId tag = tagKey tables ctx.tenantId tag' := by
    simp [tagKey, same]
  have hone : p ∈ roundOne tables store ctx :=
    List.mem_flatMap.mpr ⟨_, List.mem_map_of_mem hmem, hkey ▸ stored⟩
  unfold sadRetrieve rankAndFilter
  rw [List.mem_insertionSort, List.mem_filter, List.any_eq_true]
  refine ⟨mem_appendUnseen hone, tag', triggered, ?_⟩
  simp [hmem]

theorem casIncrement_other (success : Bool) (store : PatternBuckets) {count : String × String}
    {key : String} (h : key ≠ count.1) : casIncrement success store count key = store key := by
  cases hcount : (store count.1).bind (countHint count.2 success) with
  | some patterns =>
      simp only [casIncrement, hcount]
      exact if_neg h
  | none => simp only [casIncrement, hcount]

/-- Counts under the keys of one tenant leave the buckets of another alone. -/
theorem counts_other {tables : CaseTables} {a b : String} (other : a ≠ b) (success : Bool)
    {counts : List (String × String)}
    (own : ∀ count ∈ counts, ∃ tag, count.1 = tagKey tables a tag) (store : PatternBuckets)
    (tag : String) :
    counts.foldl (casIncrement success) store (tagKey tables b tag) =
      store (tagKey tables b tag) := by
  induction counts generalizing store with
  | nil => rfl
  | cons count rest ih =>
      obtain ⟨tag', hkey⟩ := own count List.mem_cons_self
      have hne : tagKey tables b tag ≠ count.1 := by
        intro heq
        exact other (tagKey_tenant (heq.trans hkey)).symm
      rw [List.foldl_cons, ih fun c hc => own c (List.mem_cons_of_mem count hc)]
      exact casIncrement_other success store hne

theorem recordSuccess_other {tables : CaseTables} {ctx : InductionContext} {tenantId : String}
    (other : ctx.tenantId ≠ tenantId) (store : PatternBuckets) (hintTexts : List String)
    (tag : String) :
    recordSuccess tables store ctx hintTexts (tagKey tables tenantId tag) =
      store (tagKey tables tenantId tag) := by
  refine counts_other other true ?_ store tag
  intro count hcount
  obtain ⟨hintText, -, hmem⟩ := List.mem_flatMap.mp hcount
  obtain ⟨tag', -, rfl⟩ := List.mem_map.mp hmem
  exact ⟨tag', rfl⟩

theorem runRetroactive_other {tables : CaseTables} {ctx : InductionContext} {tenantId : String}
    (other : ctx.tenantId ≠ tenantId) (walkTags : List String → List String)
    (store : PatternBuckets) (tag : String) :
    (runRetroactive tables walkTags store ctx).2 (tagKey tables tenantId tag) =
      store (tagKey tables tenantId tag) := by
  unfold runRetroactive
  dsimp only
  split
  · rfl
  · refine counts_other other false ?_ store tag
    intro count hcount
    obtain ⟨p, -, hmem⟩ := List.mem_flatMap.mp hcount
    obtain ⟨tag', -, rfl⟩ := List.mem_map.mp hmem
    exact ⟨tag', rfl⟩

/-- A lookup depends on the buckets of its own tenant only. -/
theorem runRetroactive_congr {tables : CaseTables} {walkTags : List String → List String}
    {store store' : PatternBuckets} {ctx : InductionContext}
    (same : ∀ tag, store' (tagKey tables ctx.tenantId tag) = store (tagKey tables ctx.tenantId tag)) :
    (runRetroactive tables walkTags store' ctx).1 = (runRetroactive tables walkTags store ctx).1 := by
  have hload : ∀ tags : List String,
      (tags.map (tagKey tables ctx.tenantId)).flatMap (loadBucket store') =
        (tags.map (tagKey tables ctx.tenantId)).flatMap (loadBucket store) := by
    intro tags
    simp only [List.flatMap_map, loadBucket, same]
  have hone : roundOne tables store' ctx = roundOne tables store ctx := hload ctx.taskClassTags
  have hbridge : bridgeTags tables walkTags store' ctx = bridgeTags tables walkTags store ctx := by
    unfold bridgeTags
    rw [hone]
  have hfound : sadRetrieve tables walkTags store' ctx = sadRetrieve tables walkTags store ctx := by
    unfold sadRetrieve roundTwoKeys
    rw [hone, hbridge, hload]
  unfold runRetroactive
  dsimp only
  rw [hfound]
  split <;> rfl

end ControlPlane.Source.Memory

/-!
## Priming hints

`load_priming_hints` of the two schedulers of
`crates/h2ai-orchestrator/src/induction`: the direct filter of
`AlgorithmicInductionWorker` over one list, and the two rounds of bucket reads of
`NatsInductionScheduler`. What each of them returns is said by membership.
-/
namespace ControlPlane.Source.Memory

open Lib Engine

/-- `AlgorithmicInductionWorker::load_priming_hints` over `retry_hint_patterns`. -/
def algorithmicHints (patterns : List TriggeredPattern) (ctx : InductionContext) :
    List TriggeredPattern :=
  rankAndFilter patterns ctx

/-- `NatsInductionScheduler::load_priming_hints`. -/
def natsHints (tables : CaseTables) (walk : Walk String) (store : PatternBuckets)
    (ctx : InductionContext) : List TriggeredPattern :=
  sadRetrieve tables walk.run store ctx

/-- The deduplication of the second round goes by this pair. -/
def hintIdentity (p : TriggeredPattern) : String × String := (p.exitReasonKind, p.hintText)

/-! ## The filter -/

theorem mem_rankAndFilter {patterns : List TriggeredPattern} {ctx : InductionContext}
    {p : TriggeredPattern} :
    p ∈ rankAndFilter patterns ctx ↔
      p ∈ patterns ∧ ∃ tag ∈ p.triggerTags,
        tag ∈ ctx.taskClassTags ∨ tag ∈ ctx.violatedConstraintIds := by
  simp [rankAndFilter, List.mem_insertionSort]

/-- Best success rate first. -/
theorem rankAndFilter_sorted (patterns : List TriggeredPattern) (ctx : InductionContext) :
    (rankAndFilter patterns ctx).Pairwise fun a b => b.successRate ≤ a.successRate :=
  List.pairwise_insertionSort _ _

/-! ## The two rounds -/

section Rounds

variable {tables : CaseTables} {store : PatternBuckets} {ctx : InductionContext}

theorem mem_roundOne {p : TriggeredPattern} :
    p ∈ roundOne tables store ctx ↔
      ∃ tag ∈ ctx.taskClassTags, p ∈ loadBucket store (tagKey tables ctx.tenantId tag) := by
  simp [roundOne, roundOneKeys]

theorem mem_bridgeTags {walk : Walk String} {tag : String} :
    tag ∈ bridgeTags tables walk.run store ctx ↔
      tag ∉ ctx.taskClassTags ∧ ∃ p ∈ roundOne tables store ctx, tag ∈ p.triggerTags := by
  rw [bridgeTags, (walk.perm _).mem_iff, List.mem_dedup, List.mem_filter, List.mem_flatMap]
  simp [and_comm]

/-- A pattern found is appended unless its identity is already there. -/
theorem appendUnseen_cons (all : List TriggeredPattern) (p : TriggeredPattern)
    (rest : List TriggeredPattern) :
    appendUnseen all (p :: rest) =
      if ∃ q ∈ all, hintIdentity q = hintIdentity p then appendUnseen all rest
      else appendUnseen (all ++ [p]) rest := by
  have seen : (all.any fun q =>
      q.exitReasonKind == p.exitReasonKind && q.hintText == p.hintText) = true ↔
      ∃ q ∈ all, hintIdentity q = hintIdentity p := by
    simp [hintIdentity]
  rw [appendUnseen, List.foldl_cons]
  by_cases old : ∃ q ∈ all, hintIdentity q = hintIdentity p
  · rw [if_pos (seen.mpr old), if_pos old]
    rfl
  · rw [if_neg (fun h => old (seen.mp h)), if_neg old]
    rfl

/-- What is appended has an identity that was not there. -/
theorem mem_of_mem_appendUnseen {all found : List TriggeredPattern} {p : TriggeredPattern}
    (member : p ∈ appendUnseen all found) :
    p ∈ all ∨ p ∈ found ∧ ∀ q ∈ all, hintIdentity q ≠ hintIdentity p := by
  induction found generalizing all with
  | nil => exact Or.inl member
  | cons first rest ih =>
    rw [appendUnseen_cons] at member
    split at member
    · exact (ih member).imp_right fun later => ⟨List.mem_cons_of_mem first later.1, later.2⟩
    · rename_i new
      obtain earlier | later := ih member
      · obtain earlier | here := List.mem_append.mp earlier
        · exact Or.inl earlier
        · obtain rfl := List.mem_singleton.mp here
          exact Or.inr ⟨List.mem_cons_self, fun q old same => new ⟨q, old, same⟩⟩
      · exact Or.inr ⟨List.mem_cons_of_mem first later.1,
          fun q old => later.2 q (List.mem_append_left _ old)⟩

/-- No pattern found is lost but to another one of its identity. -/
theorem appendUnseen_keeps (all : List TriggeredPattern) {found : List TriggeredPattern}
    {p : TriggeredPattern} (member : p ∈ found) :
    p ∈ appendUnseen all found ∨
      ∃ q ∈ appendUnseen all found, q ≠ p ∧ hintIdentity q = hintIdentity p := by
  induction found generalizing all with
  | nil => simp at member
  | cons first rest ih =>
    rw [appendUnseen_cons]
    obtain rfl | later := List.mem_cons.mp member
    · split
      · rename_i old
        obtain ⟨q, member, same⟩ := old
        by_cases equal : q = p
        · exact Or.inl (equal ▸ mem_appendUnseen member)
        · exact Or.inr ⟨q, mem_appendUnseen member, equal, same⟩
      · exact Or.inl (mem_appendUnseen (by simp))
    · split
      · exact ih all later
      · exact ih (all ++ [first]) later

end Rounds

end ControlPlane.Source.Memory
