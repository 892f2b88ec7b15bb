import ControlPlane.Source.Text
import Mathlib.Data.List.Basic
import Mathlib.Tactic.Common

/-!
# Context compaction

Embeds `compact` of `crates/h2ai-context/src/compaction.rs`, which shortens the system
context before it is handed to the explorers. Token counts are estimated from the UTF-8
bytes, the slices are cut by characters.
-/
namespace ControlPlane.Source.Engine.Compaction

structure CompactionConfig where
  maxTokens : Nat
  preserveKeywords : List String
  deriving DecidableEq, Repr

def estimateTokens (s : String) : Nat := (s.utf8ByteSize + 3) / 4

def marker : String := "\n[...compacted...]\n"

/-- `build_keyword_suffix`: the keywords the text does not contain, each once. -/
def buildKeywordSuffix (context : String) (keywords : List String) : String :=
  " ".intercalate (keywords.eraseDups.filter fun kw =>
    !Text.containsText context.toList kw.toList)

/-- A suffix costs its own estimate and one token for the newline before it. -/
def suffixCost (suffix : String) : Nat :=
  if suffix.isEmpty then 0 else estimateTokens suffix + 1

/-- The estimate the fast path compares with `max_tokens`. -/
def totalTokens (context : String) (config : CompactionConfig) : Nat :=
  estimateTokens context + suffixCost (buildKeywordSuffix context config.preserveKeywords)

def allKeywordsSuffix (config : CompactionConfig) : String :=
  " ".intercalate config.preserveKeywords

def bodyBudget (config : CompactionConfig) : Nat :=
  config.maxTokens - suffixCost (allKeywordsSuffix config) - estimateTokens marker

def charBudget (config : CompactionConfig) : Nat := bodyBudget config * 4

def appendSuffix (body suffix : String) : String :=
  if suffix.isEmpty then body else body ++ "\n" ++ suffix

/-- The text that is kept of a context over budget. -/
def truncatedBody (context : String) (budget : Nat) : String :=
  let half := budget / 2
  let chars := context.toList
  let headEnd := min half chars.length
  let tailStart := chars.length - half
  if headEnd < tailStart then
    String.ofList (chars.take headEnd) ++ marker ++ String.ofList (chars.drop tailStart)
  else String.ofList (chars.take headEnd)

/-- `compact`. -/
def compact (context : String) (config : CompactionConfig) : String :=
  if totalTokens context config ≤ config.maxTokens then
    appendSuffix context (buildKeywordSuffix context config.preserveKeywords)
  else if charBudget config = 0 then
    if (allKeywordsSuffix config).isEmpty then "" else allKeywordsSuffix config
  else
    let body := truncatedBody context (charBudget config)
    appendSuffix body (buildKeywordSuffix body config.preserveKeywords)

/-! ## What the reserves cover -/

theorem eraseDups_sublist (l : List String) : l.eraseDups.Sublist l := by
  match l with
  | [] => exact List.Sublist.refl _
  | a :: l =>
      rw [List.eraseDups_cons]
      have hrest := eraseDups_sublist (l.filter fun b => !b == a)
      exact (hrest.trans List.filter_sublist).cons_cons a
termination_by l.length
decreasing_by
  have hle := List.length_filter_le (fun b => !b == a) l
  simp only [List.length_cons]
  omega

theorem utf8ByteSize_joined_cons (a : String) (l : List String) :
    (" ".intercalate l).utf8ByteSize ≤ (" ".intercalate (a :: l)).utf8ByteSize ∧
      a.utf8ByteSize ≤ (" ".intercalate (a :: l)).utf8ByteSize := by
  by_cases hl : l = []
  · subst hl
    simp
  · rw [String.intercalate_cons_of_ne_nil hl]
    simp only [String.utf8ByteSize_append]
    omega

theorem utf8ByteSize_joined_le {l m : List String} (h : l.Sublist m) :
    (" ".intercalate l).utf8ByteSize ≤ (" ".intercalate m).utf8ByteSize := by
  induction h with
  | slnil => exact Nat.le_refl _
  | cons a _ ih => exact Nat.le_trans ih (utf8ByteSize_joined_cons a _).1
  | @cons_cons l m a h ih =>
      by_cases hl : l = []
      · subst hl
        rw [String.intercalate_singleton]
        exact (utf8ByteSize_joined_cons a m).2
      · have hm : m ≠ [] := by
          rintro rfl
          exact hl (List.sublist_nil.mp h)
        rw [String.intercalate_cons_of_ne_nil hl, String.intercalate_cons_of_ne_nil hm]
        simp only [String.utf8ByteSize_append]
        omega

theorem suffixCost_mono {s t : String} (h : s.utf8ByteSize ≤ t.utf8ByteSize) :
    suffixCost s ≤ suffixCost t := by
  unfold suffixCost estimateTokens
  by_cases hs : s.isEmpty
  · simp [hs]
  · have ht : t.isEmpty = false := by
      simp only [String.isEmpty, beq_iff_eq, beq_eq_false_iff_ne] at hs ⊢
      omega
    simp only [hs, ht, Bool.false_eq_true, if_false]
    omega

/-- The reserve for all keywords covers those any text leaves missing. -/
theorem missing_le_reserve (context : String) (config : CompactionConfig) :
    suffixCost (buildKeywordSuffix context config.preserveKeywords) ≤
      suffixCost (allKeywordsSuffix config) :=
  suffixCost_mono (utf8ByteSize_joined_le (List.filter_sublist.trans (eraseDups_sublist _)))

/-- Text whose bytes fit the body budget passes the fast path. -/
theorem totalTokens_le_of_bytes {context : String} {config : CompactionConfig}
    (h : context.utf8ByteSize ≤ charBudget config) (hpos : 0 < charBudget config) :
    totalTokens context config ≤ config.maxTokens := by
  have hmissing := missing_le_reserve context config
  unfold totalTokens
  unfold charBudget bodyBudget at h hpos
  unfold estimateTokens at *
  omega

/-! ## What is kept -/

theorem truncatedBody_of_short {context : String} {budget : Nat}
    (h : context.toList.length ≤ budget / 2) : truncatedBody context budget = context := by
  have hno : ¬ min (budget / 2) context.toList.length < context.toList.length - budget / 2 := by
    omega
  simp only [truncatedBody, hno, if_false]
  rw [Nat.min_eq_right h, List.take_length, String.ofList_toList]

theorem truncatedBody_of_long {context : String} {budget : Nat} (heven : budget % 2 = 0)
    (h : budget < context.toList.length) :
    truncatedBody context budget =
      String.ofList (context.toList.take (budget / 2)) ++ marker ++
        String.ofList (context.toList.drop (context.toList.length - budget / 2)) := by
  have hhead : min (budget / 2) context.toList.length = budget / 2 := by omega
  have hgap : budget / 2 < context.toList.length - budget / 2 := by omega
  simp only [truncatedBody, hhead, hgap, if_true]

theorem charBudget_even (config : CompactionConfig) : charBudget config % 2 = 0 := by
  unfold charBudget
  omega

theorem body_prefix_appendSuffix (body suffix : String) :
    body.toList <+: (appendSuffix body suffix).toList := by
  unfold appendSuffix
  split
  · exact List.prefix_refl _
  · simp only [String.toList_append, List.append_assoc]
    exact List.prefix_append _ _

end ControlPlane.Source.Engine.Compaction
