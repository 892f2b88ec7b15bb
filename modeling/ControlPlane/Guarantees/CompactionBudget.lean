import ControlPlane.Source.Engine.Compaction

/-!
# Compaction, its keywords and its budget

Every way out of `compact` carries the keywords. The budget is kept by all of them but one:
where the context is cut, as many characters are kept as the budget has bytes, so that
characters of more than one byte can overrun it.
-/
namespace ControlPlane.Guarantees.CompactionBudget

open Source Source.Engine.Compaction

/-! ## Statement -/

structure RespectsBudget (context : String) (config : CompactionConfig) : Prop where
  keywords : ∀ kw ∈ config.preserveKeywords,
    kw.toList <:+: (compact context config).toList
  size : 0 < bodyBudget config → estimateTokens (compact context config) ≤ config.maxTokens

/-- The characters of a cut context that are kept. -/
def keptChars (context : String) (budget : Nat) : List Char :=
  if budget < context.toList.length then
    context.toList.take (budget / 2) ++ context.toList.drop (context.toList.length - budget / 2)
  else context.toList.take (budget / 2)

/-- The bytes that the characters have beyond one each. -/
def surplus (text : List Char) : Nat := (text.map fun c => c.utf8Size - 1).sum

def markerBytes (context : String) (budget : Nat) : Nat :=
  if budget < context.toList.length then marker.utf8ByteSize else 0

/-- What the keywords that the kept text lacks add to it, with their newline. -/
def missingBytes (context : String) (config : CompactionConfig) : Nat :=
  let missing := buildKeywordSuffix (truncatedBody context (charBudget config))
    config.preserveKeywords
  if missing.isEmpty then 0 else 1 + missing.utf8ByteSize

/-- The bytes of `max_tokens` that are left over with one byte a character. -/
def spareBytes (context : String) (config : CompactionConfig) : Nat :=
  4 * config.maxTokens - ((keptChars context (charBudget config)).length +
    markerBytes context (charBudget config) + missingBytes context config)

/-! ## Keywords -/

theorem infix_of_joined {a : String} {l : List String} (h : a ∈ l) :
    a.toList <:+: (" ".intercalate l).toList := by
  induction l with
  | nil => cases h
  | cons b l ih =>
      by_cases hl : l = []
      · subst hl
        obtain rfl := List.mem_singleton.mp h
        have hjoined : " ".intercalate [a] = a := String.intercalate_singleton
        exact hjoined ▸ List.infix_rfl
      · rw [String.intercalate_cons_of_ne_nil hl, String.toList_append, String.toList_append]
        rcases List.mem_cons.mp h with rfl | h
        · rw [List.append_assoc]
          exact (List.prefix_append _ _).isInfix
        · exact (ih h).trans (List.suffix_append _ _).isInfix

theorem keyword_in_appendSuffix (body : String) {kw : String} {keywords : List String}
    (h : kw ∈ keywords) :
    kw.toList <:+: (appendSuffix body (buildKeywordSuffix body keywords)).toList := by
  by_cases hcontains : Text.containsText body.toList kw.toList = true
  · exact (Text.containsText_iff.mp hcontains).trans (body_prefix_appendSuffix _ _).isInfix
  · have hmissing : kw ∈ keywords.eraseDups.filter fun kw =>
        !Text.containsText body.toList kw.toList :=
      List.mem_filter.mpr ⟨List.mem_eraseDups.mpr h, by simpa using hcontains⟩
    have hjoined : kw.toList <:+: (buildKeywordSuffix body keywords).toList :=
      infix_of_joined hmissing
    unfold appendSuffix
    split_ifs with hempty
    · -- a keyword that is missing is not the empty one
      rw [String.isEmpty_iff.mp hempty, String.toList_empty, List.infix_nil] at hjoined
      rw [hjoined] at hcontains
      exact absurd (Text.containsText_iff.mpr (List.nil_infix)) hcontains
    · rw [String.toList_append]
      exact hjoined.trans (List.suffix_append _ _).isInfix

theorem compact_keywords (context : String) (config : CompactionConfig) {kw : String}
    (h : kw ∈ config.preserveKeywords) : kw.toList <:+: (compact context config).toList := by
  unfold compact
  split_ifs with hfast hzero hempty
  · exact keyword_in_appendSuffix context h
  · have hjoined := infix_of_joined h
    rwa [show " ".intercalate config.preserveKeywords = "" from String.isEmpty_iff.mp hempty]
      at hjoined
  · exact infix_of_joined h
  · exact keyword_in_appendSuffix _ h

/-! ## Size -/

theorem estimateTokens_le_iff {s : String} {n : Nat} :
    estimateTokens s ≤ n ↔ s.utf8ByteSize ≤ 4 * n := by
  unfold estimateTokens
  omega

theorem appendSuffix_bytes (body suffix : String) :
    (appendSuffix body suffix).utf8ByteSize =
      body.utf8ByteSize + if suffix.isEmpty then 0 else 1 + suffix.utf8ByteSize := by
  unfold appendSuffix
  split_ifs
  · rfl
  · rw [String.utf8ByteSize_append, String.utf8ByteSize_append, Nat.add_assoc]
    rfl

theorem fast_size {context : String} {config : CompactionConfig}
    (h : totalTokens context config ≤ config.maxTokens) :
    estimateTokens (compact context config) ≤ config.maxTokens := by
  rw [compact, if_pos h, estimateTokens_le_iff, appendSuffix_bytes]
  unfold totalTokens suffixCost estimateTokens at h
  split_ifs at h ⊢
  · omega
  · omega

/-- Every character takes one byte and its surplus. -/
theorem ofList_bytes (text : List Char) :
    (String.ofList text).utf8ByteSize = text.length + surplus text := by
  induction text with
  | nil => rfl
  | cons c text ih =>
      have hc := Char.utf8Size_pos c
      have hsplit : String.ofList (c :: text) = String.singleton c ++ String.ofList text := by
        simp
      rw [hsplit, String.utf8ByteSize_append, ih, String.utf8ByteSize_singleton]
      simp only [surplus, List.map_cons, List.sum_cons, List.length_cons]
      omega

theorem truncatedBody_of_fitting {context : String} {budget : Nat}
    (h : context.toList.length ≤ budget) (heven : budget % 2 = 0) :
    truncatedBody context budget = String.ofList (context.toList.take (budget / 2)) := by
  have hno : ¬ min (budget / 2) context.toList.length < context.toList.length - budget / 2 := by
    omega
  simp only [truncatedBody, hno, if_false]
  rcases Nat.le_total (budget / 2) context.toList.length with hle | hge
  · rw [Nat.min_eq_left hle]
  · rw [Nat.min_eq_right hge, List.take_length, List.take_of_length_le hge]

theorem surplus_append (a b : List Char) : surplus (a ++ b) = surplus a + surplus b := by
  simp [surplus]

theorem truncatedBody_bytes (context : String) {budget : Nat} (heven : budget % 2 = 0) :
    (truncatedBody context budget).utf8ByteSize =
      (keptChars context budget).length + surplus (keptChars context budget) +
        markerBytes context budget := by
  unfold keptChars markerBytes
  split_ifs with hlong
  · rw [truncatedBody_of_long heven hlong, String.utf8ByteSize_append, String.utf8ByteSize_append,
      ofList_bytes, ofList_bytes, surplus_append, List.length_append]
    omega
  · rw [truncatedBody_of_fitting (Nat.le_of_not_lt hlong) heven, ofList_bytes]
    omega

theorem keptChars_length_le (context : String) (budget : Nat) :
    (keptChars context budget).length ≤ budget := by
  unfold keptChars
  split_ifs
  · rw [List.length_append, List.length_take, List.length_drop]
    omega
  · rw [List.length_take]
    omega

/-- With one byte a character the cut text is within the budget: the reserves cover what is
put around it. -/
theorem one_byte_fits {context : String} {config : CompactionConfig}
    (hbudget : 0 < bodyBudget config) :
    (keptChars context (charBudget config)).length + markerBytes context (charBudget config) +
      missingBytes context config ≤ 4 * config.maxTokens := by
  have hkept := keptChars_length_le context (charBudget config)
  have hmarker : markerBytes context (charBudget config) ≤ 19 := by
    unfold markerBytes
    split_ifs
    · decide
    · omega
  have hmarkerTokens : estimateTokens marker = 5 := by decide
  have htokens : config.maxTokens =
      bodyBudget config + suffixCost (allKeywordsSuffix config) + 5 := by
    unfold bodyBudget at hbudget ⊢
    omega
  have hreserve := missing_le_reserve (truncatedBody context (charBudget config)) config
  have hmissing : missingBytes context config ≤ 4 * suffixCost
      (buildKeywordSuffix (truncatedBody context (charBudget config)) config.preserveKeywords) := by
    unfold missingBytes suffixCost estimateTokens
    dsimp only
    split_ifs <;> omega
  unfold charBudget at hkept hmarker ⊢
  omega

theorem cut_size_iff {context : String} {config : CompactionConfig}
    (hfast : ¬ totalTokens context config ≤ config.maxTokens) (hbudget : 0 < bodyBudget config) :
    estimateTokens (compact context config) ≤ config.maxTokens ↔
      surplus (keptChars context (charBudget config)) ≤ spareBytes context config := by
  have hpositive : charBudget config ≠ 0 := by
    unfold charBudget
    omega
  have hfits := @one_byte_fits context config hbudget
  rw [compact, if_neg hfast, if_neg hpositive, estimateTokens_le_iff, appendSuffix_bytes,
    truncatedBody_bytes context (charBudget_even config)]
  unfold spareBytes
  unfold missingBytes at hfits ⊢
  dsimp only at hfits ⊢
  omega

/-! ## The guarantee -/

/-- For every context and configuration: the keywords and the budget are respected exactly
when the context is within the budget as it is, there is no budget for the body, or the
kept characters have no more surplus than is to spare. -/
theorem respectsBudget_iff (context : String) (config : CompactionConfig) :
    RespectsBudget context config ↔
      totalTokens context config ≤ config.maxTokens ∨ bodyBudget config = 0 ∨
        surplus (keptChars context (charBudget config)) ≤ spareBytes context config := by
  constructor
  · intro h
    by_cases hfast : totalTokens context config ≤ config.maxTokens
    · exact Or.inl hfast
    · rcases Nat.eq_zero_or_pos (bodyBudget config) with hzero | hbudget
      · exact Or.inr (Or.inl hzero)
      · exact Or.inr (Or.inr ((cut_size_iff hfast hbudget).mp (h.size hbudget)))
  · intro h
    refine ⟨fun kw hkw => compact_keywords context config hkw, fun hbudget => ?_⟩
    by_cases hfast : totalTokens context config ≤ config.maxTokens
    · exact fast_size hfast
    · refine (cut_size_iff hfast hbudget).mpr ((h.resolve_left hfast).resolve_left ?_)
      omega

/-- In particular when all characters take one byte. -/
theorem respectsBudget_of_ascii (context : String) (config : CompactionConfig)
    (h : ∀ c ∈ context.toList, c.utf8Size = 1) : RespectsBudget context config := by
  refine (respectsBudget_iff context config).mpr (Or.inr (Or.inr ?_))
  have hnone : surplus (keptChars context (charBudget config)) = 0 := by
    have hmem : ∀ c ∈ keptChars context (charBudget config), c ∈ context.toList := by
      intro c hc
      unfold keptChars at hc
      split_ifs at hc
      · rcases List.mem_append.mp hc with hc | hc
        · exact List.mem_of_mem_take hc
        · exact List.mem_of_mem_drop hc
      · exact List.mem_of_mem_take hc
    have hzero : (keptChars context (charBudget config)).map (fun c => c.utf8Size - 1) =
        (keptChars context (charBudget config)).map fun _ => 0 :=
      List.map_congr_left fun c hc => by rw [h c (hmem c hc)]
    rw [surplus, hzero]
    simp
  omega

/-! ## Characters of three bytes -/

/-- Forty characters of three bytes with a body budget of five tokens: the twenty that are
kept take sixty bytes, the marker nineteen. -/
theorem wide_characters_overrun :
    ¬ RespectsBudget (String.ofList (List.replicate 40 '€')) ⟨10, []⟩ := by
  intro h
  exact absurd (h.size (by decide +kernel)) (by decide +kernel)

end ControlPlane.Guarantees.CompactionBudget

/-!
## Compaction keeps what fits

The fast path compares bytes, the slices are cut by characters. A context that passes
either of them keeps every character. A longer one keeps as much of its head as of its
tail around the marker. Without a body budget nothing but the keywords is left.
-/
namespace ControlPlane.Guarantees.ContextCompaction

open Source.Engine.Compaction

/-! ## Statement -/

/-- No character of the context is dropped. -/
def Whole (context result : String) : Prop := context.toList <+: result.toList

/-- The first and the last `half` characters with the marker between them. -/
def headAndTail (context : String) (half : Nat) : List Char :=
  context.toList.take half ++ marker.toList ++
    context.toList.drop (context.toList.length - half)

/-- A context over the byte estimate whose characters fill between half of the body budget
and all of it is left open. -/
structure KeepsWhatFits (context : String) (config : CompactionConfig) : Prop where
  fits : context.toList.length ≤ charBudget config →
    context.toList.length ≤ charBudget config / 2 ∨
      totalTokens context config ≤ config.maxTokens →
    Whole context (compact context config)
  bytesFit : context.utf8ByteSize ≤ charBudget config → Whole context (compact context config)
  cut : ¬ Whole context (compact context config) → charBudget config < context.toList.length →
    0 < charBudget config →
    headAndTail context (charBudget config / 2) <+: (compact context config).toList
  noBudget : ¬ Whole context (compact context config) → charBudget config = 0 →
    compact context config = allKeywordsSuffix config

/-! ## The guarantee -/

section Paths

variable {context : String} {config : CompactionConfig}

theorem whole_of_fast (h : totalTokens context config ≤ config.maxTokens) :
    Whole context (compact context config) := by
  rw [compact, if_pos h]
  exact body_prefix_appendSuffix _ _

theorem compact_slow (h : ¬ totalTokens context config ≤ config.maxTokens)
    (hpos : 0 < charBudget config) :
    (truncatedBody context (charBudget config)).toList <+: (compact context config).toList := by
  rw [compact, if_neg h, if_neg (Nat.ne_of_gt hpos)]
  exact body_prefix_appendSuffix _ _

theorem compact_noBudget (h : ¬ totalTokens context config ≤ config.maxTokens)
    (hzero : charBudget config = 0) : compact context config = allKeywordsSuffix config := by
  rw [compact, if_neg h, if_pos hzero]
  by_cases hempty : (allKeywordsSuffix config).isEmpty = true
  · rw [if_pos hempty, String.isEmpty_iff.mp hempty]
  · rw [if_neg hempty]

theorem whole_of_short (h : context.toList.length ≤ charBudget config / 2) :
    Whole context (compact context config) := by
  by_cases hfast : totalTokens context config ≤ config.maxTokens
  · exact whole_of_fast hfast
  · rcases Nat.eq_zero_or_pos (charBudget config) with hzero | hpos
    · have hnil : context.toList = [] := List.length_eq_zero_iff.mp (by omega)
      rw [Whole, hnil]
      exact List.nil_prefix
    · have hbody := compact_slow hfast hpos
      rwa [truncatedBody_of_short h] at hbody

theorem whole_of_bytes (h : context.utf8ByteSize ≤ charBudget config) :
    Whole context (compact context config) := by
  rcases Nat.eq_zero_or_pos (charBudget config) with hzero | hpos
  · have hempty : context = "" := String.utf8ByteSize_eq_zero_iff.mp (by omega)
    rw [Whole, hempty, String.toList_empty]
    exact List.nil_prefix
  · exact whole_of_fast (totalTokens_le_of_bytes h hpos)

end Paths

/-- For every context and every configuration. -/
theorem compact_keeps (context : String) (config : CompactionConfig) :
    KeepsWhatFits context config := by
  refine ⟨?_, whole_of_bytes, ?_, ?_⟩
  · intro _ h
    rcases h with hhalf | hfast
    · exact whole_of_short hhalf
    · exact whole_of_fast hfast
  · intro hdropped hlong hpos
    have hslow : ¬ totalTokens context config ≤ config.maxTokens :=
      fun hfast => hdropped (whole_of_fast hfast)
    have hbody := compact_slow hslow hpos
    rw [truncatedBody_of_long (charBudget_even config) hlong] at hbody
    simpa only [headAndTail, String.toList_append, String.toList_ofList] using hbody
  · intro hdropped hzero
    exact compact_noBudget (fun hfast => hdropped (whole_of_fast hfast)) hzero

/-! ## Where the characters fit and are dropped -/

/-- One budget of characters for every context, whatever their bytes, and the marker
wherever something is dropped. -/
structure KeepsByCharacters (context : String) (config : CompactionConfig) : Prop where
  fits : context.toList.length ≤ charBudget config →
    context.toList.Sublist (compact context config).toList
  dropped : ¬ context.toList.Sublist (compact context config).toList →
    marker.toList <:+: (compact context config).toList ∧
      context.toList.take (charBudget config / 2) <:+: (compact context config).toList ∧
      context.toList.drop (context.toList.length - charBudget config / 2) <:+:
        (compact context config).toList

def euros : String := String.ofList (List.replicate 20 '€')

/-- Twenty three-byte characters fit twenty and lose half of them; without a budget the
marker is missing. -/
theorem characters_dropped :
    ¬ KeepsByCharacters euros ⟨10, []⟩ ∧ ¬ KeepsByCharacters "some long context" ⟨0, []⟩ := by
  refine ⟨fun h => ?_, fun h => ?_⟩
  · exact absurd (h.fits (by decide +kernel)) (by decide +kernel)
  · exact absurd (h.dropped (by decide +kernel)).1 (by decide +kernel)

end ControlPlane.Guarantees.ContextCompaction
