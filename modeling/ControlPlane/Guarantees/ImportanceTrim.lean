import ControlPlane.Lib.Sequences
import ControlPlane.Source.Engine.ContextAssembler
import Mathlib.Logic.Relation

/-!
# Trimming takes the least important text first

Each round of `importance_trim` cuts the first section of its order that has more than one
byte: a cut keeps at most three fifths of the bytes, so every such section can be cut. A
round leaves fewer characters than the one before, and the loop ends within the budget or
when nothing can be cut.
-/
namespace ControlPlane.Guarantees.ImportanceTrim

open Lib Source.Engine Source.Text

/-! ## Statement -/

/-- The section at `j` may be cut and is sorted in front of the one at `i`: it is less
important, or as important and further in front. -/
def SortedBefore (sections : List Section) (j i : Nat) : Prop :=
  ∃ a b, sections[j]? = some a ∧ sections[i]? = some b ∧ a.preserve = false ∧ b.preserve = false ∧
    (a.importance < b.importance ∨ (a.importance = b.importance ∧ j < i))

/-- One cut: a section that may be cut becomes a proper prefix of itself, when all that are
sorted in front of it are reduced to at most one byte. -/
inductive Cut : List Section → List Section → Prop where
  | at (sections : List Section) (i : Nat) (s : Section) (text : List Char)
      (stands : sections[i]? = some s) (free : s.preserve = false) (shorter : text <+: s.text)
      (proper : text ≠ s.text)
      (order : ∀ j a, SortedBefore sections j i → sections[j]? = some a → utf8Len a.text ≤ 1) :
      Cut sections (sections.set i { s with text := text })

/-- What becomes of a section. -/
structure SectionKept (s s' : Section) : Prop where
  tag : s'.tag = s.tag
  importance : s'.importance = s.importance
  preserve : s'.preserve = s.preserve
  preserved : s.preserve = true → s' = s
  text : s'.text <+: s.text

/-- The sections of the result are those of the list, one by one. -/
structure KeptAll (sections result : List Section) : Prop where
  length : result.length = sections.length
  each : ∀ (i : Nat) (s : Section), sections[i]? = some s → ∃ s', result[i]? = some s' ∧ SectionKept s s'

/-- How many characters the sections have. -/
def charCount (sections : List Section) : Nat := (sections.map fun s => s.text.length).sum

structure Trimmed (sections : List Section) (budget : Nat) (result : List Section) : Prop where
  run : Relation.ReflTransGen Cut sections result
  kept : KeptAll sections result
  ordered : ∀ (i j : Nat) (s s' a : Section), SortedBefore sections j i → sections[i]? = some s →
    result[i]? = some s' → result[j]? = some a → s'.text ≠ s.text → utf8Len a.text ≤ 1
  fits : totalTokens result ≤ budget ∨ ∀ s ∈ result, s.preserve = false → utf8Len s.text ≤ 1
  /-- More rounds than there are characters change nothing: the loop ends. -/
  ends : ∀ rounds, charCount sections ≤ rounds →
    trimLoop budget (trimOrder sections) rounds sections = result

/-! ## One cut of a text -/

theorem prefix_of_keepPrefix (keepBytes : Nat) (text : List Char) :
    keepPrefix keepBytes text <+: text := by
  induction text generalizing keepBytes with
  | nil => simp [keepPrefix]
  | cons c rest ih =>
      cases rest with
      | nil => simp [keepPrefix]
      | cons d rest =>
          rw [keepPrefix]
          split_ifs
          · exact (List.prefix_cons_inj c).mpr (ih _)
          · exact List.nil_prefix

/-- The last character is never kept. -/
theorem keepPrefix_length_lt (keepBytes : Nat) {text : List Char} (h : text ≠ []) :
    (keepPrefix keepBytes text).length < text.length := by
  induction text generalizing keepBytes with
  | nil => exact absurd rfl h
  | cons c rest ih =>
      cases rest with
      | nil => simp [keepPrefix]
      | cons d rest =>
          rw [keepPrefix]
          split_ifs
          · exact Nat.succ_lt_succ (ih _ (by simp))
          · simp

theorem prefix_of_untilLastStop {text kept : List Char} (h : untilLastStop text = some kept) :
    kept <+: text := by
  induction text generalizing kept with
  | nil => cases h
  | cons c rest ih =>
      unfold untilLastStop at h
      split at h
      next tail heq =>
        obtain ⟨rfl, rfl⟩ := List.cons.inj heq
        cases hrest : untilLastStop (' ' :: tail) with
        | none =>
            obtain rfl : ['.'] = kept := by simpa [hrest] using h
            exact ⟨' ' :: tail, rfl⟩
        | some before =>
            obtain rfl : '.' :: before = kept := by simpa [hrest] using h
            exact (List.prefix_cons_inj _).mpr (ih hrest)
      next tail _ heq =>
        obtain ⟨rfl, rfl⟩ := List.cons.inj heq
        obtain ⟨before, hrest, rfl⟩ := Option.map_eq_some_iff.mp h
        exact (List.prefix_cons_inj _).mpr (ih hrest)
      next heq => cases heq

theorem prefix_of_cut (keepBytes : Nat) (text : List Char) :
    (untilLastStop (keepPrefix keepBytes text)).getD (keepPrefix keepBytes text) <+:
      keepPrefix keepBytes text := by
  cases hstop : untilLastStop (keepPrefix keepBytes text) with
  | none => exact List.prefix_refl _
  | some kept => exact prefix_of_untilLastStop hstop

theorem trimText60_some {text trimmed : List Char} (h : trimText60 text = some trimmed) :
    trimmed <+: text ∧ trimmed ≠ text := by
  unfold trimText60 at h
  dsimp only at h
  split_ifs at h with _ hsame
  obtain rfl := Option.some.inj h
  exact ⟨(prefix_of_cut _ text).trans (prefix_of_keepPrefix _ text), hsame⟩

/-- Exactly the texts of at most one byte cannot be cut. -/
theorem trimText60_none_iff {text : List Char} : trimText60 text = none ↔ utf8Len text ≤ 1 := by
  unfold trimText60
  dsimp only
  split_ifs with hskip hsame
  · refine iff_of_true rfl ?_
    rcases Bool.or_eq_true_iff.mp hskip with hempty | hzero
    · rw [List.isEmpty_iff.mp hempty]
      exact Nat.zero_le 1
    · have hkeep : utf8Len text * 3 / 5 = 0 := by simpa using hzero
      omega
  · -- the cut is shorter than the text, because its last character is not kept
    have hne : text ≠ [] := by
      rintro rfl
      simp at hskip
    have hlength := keepPrefix_length_lt (utf8Len text * 3 / 5) hne
    have hle := (prefix_of_cut (utf8Len text * 3 / 5) text).length_le
    rw [hsame] at hle
    omega
  · refine iff_of_false (by simp) fun hone => hskip ?_
    have hzero : utf8Len text * 3 / 5 = 0 := by omega
    simp [hzero]

/-! ## The order -/

theorem mem_trimOrder {sections : List Section} {i : Nat} :
    i ∈ trimOrder sections ↔ ∃ s, sections[i]? = some s ∧ s.preserve = false := by
  unfold trimOrder
  rw [List.mem_map]
  constructor
  · intro h
    obtain ⟨⟨s, j⟩, hmem, rfl⟩ := h
    obtain ⟨hmem, hfree⟩ := List.mem_filter.mp ((List.mem_insertionSort _).mp hmem)
    exact ⟨s, List.mem_zipIdx_iff_getElem?.mp hmem, by simpa using hfree⟩
  · intro h
    obtain ⟨s, hs, hfree⟩ := h
    refine ⟨(s, i), (List.mem_insertionSort _).mpr (List.mem_filter.mpr ⟨?_, by simpa using hfree⟩),
      rfl⟩
    exact List.mem_zipIdx_iff_getElem?.mpr hs

theorem trimOrder_pairwise (sections : List Section) :
    (trimOrder sections).Pairwise fun j i => SortedBefore sections j i := by
  have hindices : (sections.zipIdx.filter fun s => !s.1.preserve).Pairwise
      fun a b => a.2 < b.2 := by
    refine List.Pairwise.filter _ ?_
    rw [← List.pairwise_map (f := Prod.snd), List.zipIdx_map_snd]
    exact List.pairwise_lt_range'
  have hsorted := pairwise_insertionSort_stable (fun s : Section × Nat => s.1.importance) hindices
  refine List.pairwise_map.mpr (hsorted.imp_of_mem fun {a b} ha hb hab => ?_)
  obtain ⟨ha, hfree⟩ := List.mem_filter.mp ((List.mem_insertionSort _).mp ha)
  obtain ⟨hb, hfree'⟩ := List.mem_filter.mp ((List.mem_insertionSort _).mp hb)
  exact ⟨a.1, b.1, List.mem_zipIdx_iff_getElem?.mp ha, List.mem_zipIdx_iff_getElem?.mp hb,
    by simpa using hfree, by simpa using hfree', hab⟩

theorem SortedBefore.asymm {sections : List Section} {j i : Nat} (h : SortedBefore sections j i) :
    ¬ SortedBefore sections i j := by
  obtain ⟨a, b, ha, hb, -, -, hab⟩ := h
  intro h'
  obtain ⟨b', a', hb', ha', -, -, hba⟩ := h'
  obtain rfl : a = a' := Option.some.inj (ha.symm.trans ha')
  obtain rfl : b = b' := Option.some.inj (hb.symm.trans hb')
  rcases hab with hlt | ⟨heq, hji⟩
  · rcases hba with hlt' | ⟨heq', -⟩
    · exact lt_asymm hlt hlt'
    · exact absurd heq'.symm hlt.ne
  · rcases hba with hlt' | ⟨-, hij⟩
    · exact absurd heq.symm hlt'.ne
    · omega

/-! ## What a cut keeps -/

theorem SectionKept.refl (s : Section) : SectionKept s s :=
  ⟨rfl, rfl, rfl, fun _ => rfl, List.prefix_refl _⟩

theorem SectionKept.trans {s s' s'' : Section} (h : SectionKept s s') (h' : SectionKept s' s'') :
    SectionKept s s'' where
  tag := h'.tag.trans h.tag
  importance := h'.importance.trans h.importance
  preserve := h'.preserve.trans h.preserve
  preserved hs := (h'.preserved (h.preserve.trans hs)).trans (h.preserved hs)
  text := h'.text.trans h.text

theorem KeptAll.refl (sections : List Section) : KeptAll sections sections :=
  ⟨rfl, fun _ s hs => ⟨s, hs, .refl s⟩⟩

theorem KeptAll.trans {sections sections' sections'' : List Section}
    (h : KeptAll sections sections') (h' : KeptAll sections' sections'') :
    KeptAll sections sections'' where
  length := h'.length.trans h.length
  each i s hs := by
    obtain ⟨s', hs', hkept⟩ := h.each i s hs
    obtain ⟨s'', hs'', hkept'⟩ := h'.each i s' hs'
    exact ⟨s'', hs'', hkept.trans hkept'⟩

section Kept

variable {sections sections' : List Section} {i j : Nat}

/-- A section of the result comes from the one at its place. -/
theorem KeptAll.back (h : KeptAll sections sections') {s' : Section} (hs' : sections'[i]? = some s') :
    ∃ s, sections[i]? = some s ∧ SectionKept s s' := by
  have hi : i < sections.length := by
    obtain ⟨hi, -⟩ := List.getElem?_eq_some_iff.mp hs'
    exact h.length ▸ hi
  obtain ⟨s'', hs'', hkept⟩ := h.each i _ (List.getElem?_eq_getElem hi)
  obtain rfl : s' = s'' := Option.some.inj (hs'.symm.trans hs'')
  exact ⟨_, List.getElem?_eq_getElem hi, hkept⟩

/-- The order is that of the list as it was. -/
theorem KeptAll.sortedBefore_iff (h : KeptAll sections sections') :
    SortedBefore sections' j i ↔ SortedBefore sections j i := by
  constructor
  · intro hbefore
    obtain ⟨a', b', ha', hb', hfree, hfree', horder⟩ := hbefore
    obtain ⟨a, ha, hkept⟩ := h.back ha'
    obtain ⟨b, hb, hkept'⟩ := h.back hb'
    rw [hkept.importance, hkept'.importance] at horder
    exact ⟨a, b, ha, hb, hkept.preserve ▸ hfree, hkept'.preserve ▸ hfree', horder⟩
  · intro hbefore
    obtain ⟨a, b, ha, hb, hfree, hfree', horder⟩ := hbefore
    obtain ⟨a', ha', hkept⟩ := h.each j a ha
    obtain ⟨b', hb', hkept'⟩ := h.each i b hb
    rw [← hkept.importance, ← hkept'.importance] at horder
    exact ⟨a', b', ha', hb', hkept.preserve.trans hfree, hkept'.preserve.trans hfree', horder⟩

theorem Cut.kept (h : Cut sections sections') : KeptAll sections sections' := by
  cases h with
  | «at» i s text stands free shorter proper order =>
      refine ⟨List.length_set, fun j a ha => ?_⟩
      rw [List.getElem?_set]
      split_ifs with hij hlen
      · subst hij
        obtain rfl : s = a := Option.some.inj (stands.symm.trans ha)
        exact ⟨_, rfl, rfl, rfl, rfl, fun hs => absurd (hs.symm.trans free) (by simp), shorter⟩
      · subst hij
        exact absurd (List.getElem?_eq_some_iff.mp ha).1 hlen
      · exact ⟨a, ha, .refl a⟩

theorem Cut.charCount_lt (h : Cut sections sections') : charCount sections' < charCount sections := by
  cases h with
  | «at» i s text stands free shorter proper order =>
      obtain ⟨hi, rfl⟩ := List.getElem?_eq_some_iff.mp stands
      have hless : text.length < sections[i].text.length :=
        lt_of_le_of_ne shorter.length_le fun hlen => proper (shorter.eq_of_length hlen)
      have hsplit := List.take_append_drop i sections
      rw [List.drop_eq_getElem_cons hi] at hsplit
      unfold charCount
      rw [List.set_eq_take_append_cons_drop, if_pos hi]
      conv_rhs => rw [← hsplit]
      simp only [List.map_append, List.map_cons, List.sum_append, List.sum_cons]
      omega

theorem run_kept (h : Relation.ReflTransGen Cut sections sections') : KeptAll sections sections' := by
  induction h with
  | refl => exact .refl sections
  | tail _ hcut ih => exact ih.trans hcut.kept

/-- What has been cut in a run, has nothing in front of it that could still be cut. -/
theorem run_ordered (h : Relation.ReflTransGen Cut sections sections') :
    ∀ (i j : Nat) (s s' a : Section), SortedBefore sections j i → sections[i]? = some s →
      sections'[i]? = some s' →
      sections'[j]? = some a → s'.text ≠ s.text → utf8Len a.text ≤ 1 := by
  induction h with
  | refl =>
      intro i j s s' a _ hs hs' _ hcut
      obtain rfl : s = s' := Option.some.inj (hs.symm.trans hs')
      exact absurd rfl hcut
  | @tail mid last hrun hcut ih =>
      intro i j s s' a hbefore hs hs' ha hshort
      have hkept := run_kept hrun
      obtain ⟨a₀, ha₀, hkepta⟩ := hcut.kept.back ha
      refine (utf8Len_mono hkepta.text).trans ?_
      obtain ⟨s₀, hs₀, hkepts⟩ := hcut.kept.back hs'
      by_cases hold : s₀.text = s.text
      · -- the section at `i` is cut now
        cases hcut with
        | «at» k c text stands free shorter proper order =>
            have hk : k = i := by
              by_contra hne
              rw [List.getElem?_set_ne hne] at hs'
              obtain rfl : s₀ = s' := Option.some.inj (hs₀.symm.trans hs')
              exact hshort hold
            subst hk
            exact order j a₀ (hkept.sortedBefore_iff.mpr hbefore) ha₀
      · exact ih i j s s₀ a₀ hbefore hs hs₀ ha₀ hold

end Kept

/-! ## The loop -/

section Loop

variable {sections current cut : List Section} {budget : Nat}

theorem trimOnce_cut (hkept : KeptAll sections current)
    (h : trimOnce (trimOrder sections) current = some cut) : Cut current cut := by
  obtain ⟨front, i, back, horder, hi, hfront⟩ := List.findSome?_eq_some_iff.mp h
  obtain ⟨s, hs, htext⟩ := Option.bind_eq_some_iff.mp hi
  obtain ⟨text, htrim, rfl⟩ := Option.map_eq_some_iff.mp htext
  have hpairwise := trimOrder_pairwise sections
  rw [horder] at hpairwise
  have hmem : i ∈ trimOrder sections := by simp [horder]
  obtain ⟨s₀, hs₀, hfree⟩ := mem_trimOrder.mp hmem
  obtain ⟨s', hs', hkepts⟩ := hkept.each i s₀ hs₀
  obtain rfl : s = s' := Option.some.inj (hs.symm.trans hs')
  refine .at current i s text hs (hkepts.preserve.trans hfree) (trimText60_some htrim).1
    (trimText60_some htrim).2 fun j a hbefore ha => ?_
  rw [hkept.sortedBefore_iff] at hbefore
  obtain ⟨a₀, ha₀, hkepta⟩ := hkept.back ha
  have hj : j ∈ trimOrder sections := by
    obtain ⟨b, _, hb, -, hfreeb, -⟩ := hbefore
    exact mem_trimOrder.mpr ⟨b, hb, hfreeb⟩
  rw [horder] at hj
  rcases List.mem_append.mp hj with hj | hj
  · have hnone := hfront j hj
    rw [ha, Option.bind_some, Option.map_eq_none_iff] at hnone
    exact trimText60_none_iff.mp hnone
  · exfalso
    rcases List.mem_cons.mp hj with rfl | hj
    · exact hbefore.asymm hbefore
    · have hafter := (List.pairwise_cons.mp (List.pairwise_append.mp hpairwise).2.1).1 j hj
      exact hbefore.asymm hafter

theorem trimOnce_none (hkept : KeptAll sections current)
    (h : trimOnce (trimOrder sections) current = none) :
    ∀ s ∈ current, s.preserve = false → utf8Len s.text ≤ 1 := by
  intro s hs hfree
  obtain ⟨i, hi, rfl⟩ := List.getElem_of_mem hs
  have hget := List.getElem?_eq_getElem hi
  obtain ⟨s₀, hs₀, hkepts⟩ := hkept.back hget
  have hmem := mem_trimOrder.mpr ⟨s₀, hs₀, hkepts.preserve ▸ hfree⟩
  have hnone := List.findSome?_eq_none_iff.mp h i hmem
  rw [hget, Option.bind_some, Option.map_eq_none_iff] at hnone
  exact trimText60_none_iff.mp hnone

theorem trimLoop_run (rounds : Nat) (hkept : KeptAll sections current) :
    Relation.ReflTransGen Cut current (trimLoop budget (trimOrder sections) rounds current) := by
  induction rounds generalizing current with
  | zero => exact .refl
  | succ rounds ih =>
      rw [trimLoop]
      split_ifs
      · exact .refl
      · cases honce : trimOnce (trimOrder sections) current with
        | none => exact .refl
        | some cut =>
            have hcut := trimOnce_cut hkept honce
            exact .head hcut (ih (hkept.trans hcut.kept))

/-- With a round for each character the loop runs to its end. -/
theorem trimLoop_settled (budget rounds : Nat) (hkept : KeptAll sections current)
    (henough : charCount current ≤ rounds) :
    totalTokens (trimLoop budget (trimOrder sections) rounds current) ≤ budget ∨
      trimOnce (trimOrder sections) (trimLoop budget (trimOrder sections) rounds current) =
        none := by
  induction rounds generalizing current with
  | zero =>
      right
      cases honce : trimOnce (trimOrder sections) current with
      | none => exact honce
      | some cut =>
          have hless := (trimOnce_cut hkept honce).charCount_lt
          omega
  | succ rounds ih =>
      rw [trimLoop]
      split_ifs with hfits
      · exact Or.inl hfits
      · cases honce : trimOnce (trimOrder sections) current with
        | none => exact Or.inr honce
        | some cut =>
            have hcut := trimOnce_cut hkept honce
            have hless := hcut.charCount_lt
            exact ih (hkept.trans hcut.kept) (by omega)

/-- A round more than there are characters changes nothing. -/
theorem trimLoop_succ (rounds : Nat) (hkept : KeptAll sections current)
    (henough : charCount current ≤ rounds) :
    trimLoop budget (trimOrder sections) (rounds + 1) current =
      trimLoop budget (trimOrder sections) rounds current := by
  induction rounds generalizing current with
  | zero =>
      rw [trimLoop, trimLoop]
      split_ifs
      · rfl
      · cases honce : trimOnce (trimOrder sections) current with
        | none => rfl
        | some cut =>
            have hless := (trimOnce_cut hkept honce).charCount_lt
            omega
  | succ rounds ih =>
      rw [trimLoop]
      conv_rhs => rw [trimLoop]
      split_ifs
      · rfl
      · cases honce : trimOnce (trimOrder sections) current with
        | none => rfl
        | some cut =>
            have hcut := trimOnce_cut hkept honce
            have hless := hcut.charCount_lt
            exact ih (hkept.trans hcut.kept) (by omega)

theorem trimLoop_rounds {rounds : Nat} (hkept : KeptAll sections current)
    (henough : charCount current ≤ rounds) :
    trimLoop budget (trimOrder sections) rounds current =
      trimLoop budget (trimOrder sections) (charCount current) current := by
  induction rounds, henough using Nat.le_induction with
  | base => rfl
  | succ rounds henough ih => rw [trimLoop_succ rounds hkept henough, ih]

end Loop

/-! ## The guarantee -/

/-- For every list of sections and every budget. -/
theorem importanceTrim_trimmed (sections : List Section) (budget : Nat) :
    Trimmed sections budget (importanceTrim sections budget) := by
  have hstart := KeptAll.refl sections
  have hrun : Relation.ReflTransGen Cut sections (importanceTrim sections budget) :=
    trimLoop_run _ hstart
  refine ⟨hrun, run_kept hrun, run_ordered hrun, ?_, ?_⟩
  · rcases trimLoop_settled budget _ hstart (Nat.le_refl _) with hfits | hnone
    · exact Or.inl hfits
    · exact Or.inr (trimOnce_none (run_kept hrun) hnone)
  · intro rounds henough
    exact trimLoop_rounds hstart henough

end ControlPlane.Guarantees.ImportanceTrim
