import ControlPlane.Source.Layout
import ControlPlane.Source.Verification.Corpus

/-!
# Verdicts and reasons of the checks

Two scanners read the same answer: one says which checks are PRESENT, the other keeps
the text of each check for the repair prompt. A check counts as PRESENT if any of its
segments says so, and its reason is the last of its segments. So the two agree when the
last segment of a check is as good as any earlier one. An answer in the two requested
layouts reads back as it was meant unless an explanation misleads the scanner: an arrow
in parentheses, or the word CHECK in front of the arrow.
-/
namespace ControlPlane.Guarantees.CheckSegments

open Lib Source.Text Source.Verification

/-! ## Statement -/

/-- A segment of check `i`, as its trimmed text and the text behind its colon. -/
def segmentAt (nChecks i : Nat) (segment : List Char) : Option (List Char × List Char) :=
  match parseCheckSegment nChecks segment with
  | some (idx, trimmed, after) => if idx = i then some (trimmed, after) else none
  | none => none

/-- All segments of check `i`, in order. -/
def segmentsOf (reason : String) (nChecks i : Nat) : List (List Char × List Char) :=
  (checkSegments reason).filterMap (segmentAt nChecks i)

/-- If a segment of the check says PRESENT, so does the last one. -/
def LastDecides (reason : String) (nChecks i : Nat) : Prop :=
  ∀ s ∈ segmentsOf reason nChecks i, isPresent s.2 = true →
    ∀ last, (segmentsOf reason nChecks i).getLast? = some last → isPresent last.2 = true

inductive Layout where
  /-- `CHECK k: PRESENT (e)`. -/
  | verdictFirst
  /-- `CHECK k: e → PRESENT`. -/
  | arrow
  deriving DecidableEq, Repr

/-- One check of a rendered answer, with the commas and white space behind it. -/
structure Item where
  present : Bool
  layout : Layout
  explanation : List Char
  gap : List Char
  plain : ¬"CHECK ".toList <:+: explanation
  spacing : ∀ c ∈ gap, c = ',' ∨ isWhitespace c = true

def Item.word (item : Item) : List Char :=
  if item.present then "PRESENT".toList else "MISSING".toList

/-- What follows the colon. -/
def Item.content (item : Item) : List Char :=
  match item.layout with
  | .verdictFirst => item.word ++ " (".toList ++ item.explanation ++ ")".toList ++ item.gap
  | .arrow => item.explanation ++ " → ".toList ++ item.word ++ item.gap

def Item.render (item : Item) (k : Nat) : List Char :=
  "CHECK ".toList ++ ((Nat.repr k).toList ++ ": ".toList ++ item.content)

/-- The items numbered from `k`. -/
def renderFrom : Nat → List Item → List Char
  | _, [] => []
  | k, item :: rest => item.render k ++ renderFrom (k + 1) rest

/-- A rendered answer; `n_checks` is a `usize`. -/
structure Rendering where
  items : List Item
  fits : items.length < 2 ^ 64

def Rendering.reason (r : Rendering) : String := String.ofList (renderFrom 1 r.items)

def Rendering.verdicts (r : Rendering) : List Bool := r.items.map (·.present)

/-- The text starts with PRESENT, up to case and white space. -/
def readsPresent (text : List Char) : Bool :=
  "PRESENT".toList.isPrefixOf (toAsciiUppercase (trim text))

/-- The explanation does not mislead: an arrow in parentheses is followed by what the
verdict is, and so reads what stands in front of a CHECK at the end of the explanation
before an arrow. -/
def Item.Readable (item : Item) : Prop :=
  match item.layout with
  | .verdictFirst => ∀ tail, afterLast '→' item.explanation = some tail →
      readsPresent tail = item.present
  | .arrow => ∀ front, item.explanation = front ++ "CHECK".toList →
      isPresent (trim front) = item.present

/-! ## One check in both scanners -/

section Scanners

variable {reason : String} {nChecks i : Nat}

/-- The verdict of a check is whether one of its segments says PRESENT. -/
theorem parseCheckVerdicts_getElem (hi : i < nChecks) :
    (parseCheckVerdicts reason nChecks)[i]? =
      some ((segmentsOf reason nChecks i).any fun s => isPresent s.2) := by
  have hstep : ∀ (verdicts : List Bool) (segment : List Char),
      (match parseCheckSegment nChecks segment with
        | some (idx, _, after) => if isPresent after then verdicts.set idx true else verdicts
        | none => verdicts)[i]? =
      verdicts[i]?.map fun v => v || (segmentAt nChecks i segment).any fun s => isPresent s.2 := by
    intro verdicts segment
    unfold segmentAt
    cases parseCheckSegment nChecks segment with
    | none => simp
    | some parsed =>
        obtain ⟨idx, trimmed, after⟩ := parsed
        by_cases hidx : idx = i
        · subst hidx
          cases hpresent : isPresent after with
          | true =>
              simp only [hpresent, ↓reduceIte, List.getElem?_set_self', Option.any_some, Bool.or_true]
              rfl
          | false => simp [hpresent]
        · cases hpresent : isPresent after with
          | true => simp [hidx, hpresent, List.getElem?_set_ne hidx]
          | false => simp [hidx, hpresent]
  unfold parseCheckVerdicts
  rw [if_neg (by omega)]
  refine (getElem?_foldl_pointwise hstep (checkSegments reason) _).trans ?_
  rw [List.getElem?_replicate, if_pos hi, Option.map_some, foldl_or_filterMap, Bool.false_or]
  rfl

/-- The reason of a check is its last segment. -/
theorem parseCheckReasons_getElem (hi : i < nChecks) :
    (parseCheckReasons reason nChecks)[i]? =
      some (((segmentsOf reason nChecks i).getLast?.map fun s =>
        "CHECK " ++ String.ofList s.1).getD "") := by
  have hstep : ∀ (out : List String) (segment : List Char),
      (match parseCheckSegment nChecks segment with
        | some (idx, trimmed, _) => out.set idx ("CHECK " ++ String.ofList trimmed)
        | none => out)[i]? =
      out[i]?.map fun r => ((segmentAt nChecks i segment).map fun s =>
        "CHECK " ++ String.ofList s.1).getD r := by
    intro out segment
    unfold segmentAt
    cases parseCheckSegment nChecks segment with
    | none => simp
    | some parsed =>
        obtain ⟨idx, trimmed, after⟩ := parsed
        by_cases hidx : idx = i
        · subst hidx
          simp only [↓reduceIte, List.getElem?_set_self', Option.map_some, Option.getD_some]
          rfl
        · simp [hidx, List.getElem?_set_ne hidx]
  unfold parseCheckReasons
  rw [if_neg (by omega)]
  refine (getElem?_foldl_pointwise hstep (checkSegments reason) _).trans ?_
  rw [List.getElem?_replicate, if_pos hi, Option.map_some, foldl_overwrite]
  rfl

theorem unbordered_check : Unbordered "CHECK ".toList := by decide

/-- A segment that is kept is trimmed, free of markers, and parses like the original. -/
theorem mem_segmentsOf {s : List Char × List Char} (h : s ∈ segmentsOf reason nChecks i) :
    ¬"CHECK ".toList <:+: s.1 ∧ segmentAt nChecks i s.1 = some s := by
  obtain ⟨segment, hmem, hparse⟩ := List.mem_filterMap.mp h
  have hfree : ¬"CHECK ".toList <:+: segment :=
    not_infix_of_mem_splitText (by decide) (List.mem_of_mem_drop hmem)
  have htrimmed : s.1 = trim segment := by
    unfold segmentAt parseCheckSegment at hparse
    dsimp only at hparse
    split at hparse
    next heq =>
      split_ifs at hparse
      obtain rfl := Option.some.inj hparse
      split at heq
      · cases heq
      · split at heq
        · cases heq
        · split_ifs at heq
          simp only [Option.some.injEq, Prod.mk.injEq] at heq
          exact heq.2.1.symm
    · cases hparse
  have hsame : segmentAt nChecks i (trim segment) = segmentAt nChecks i segment := by
    unfold segmentAt parseCheckSegment
    rw [trim_trim]
  refine ⟨fun hmarker => ?_, ?_⟩
  · rw [htrimmed] at hmarker
    exact hfree (hmarker.trans (trim_within segment))
  · rw [htrimmed, hsame]
    exact hparse

/-- The reason of a check, read alone, has one segment. -/
theorem segmentsOf_reason {s : List Char × List Char} (h : s ∈ segmentsOf reason nChecks i) :
    segmentsOf ("CHECK " ++ String.ofList s.1) nChecks i = [s] := by
  obtain ⟨hfree, hparse⟩ := mem_segmentsOf h
  have hsplit : checkSegments ("CHECK " ++ String.ofList s.1) = [s.1] := by
    have hjoin := splitText_join unbordered_check (by decide) [] [s.1]
      (by simpa [List.infix_nil] using hfree)
    rw [List.nil_append, List.flatMap_singleton] at hjoin
    have htext : ("CHECK " ++ String.ofList s.1).toList = "CHECK ".toList ++ s.1 := by
      simp
    rw [checkSegments, htext, hjoin]
    rfl
  unfold segmentsOf
  rw [hsplit, List.filterMap_cons, hparse]
  rfl

/-- Reading the reason of a check alone gives the verdict exactly when the last segment
decides. -/
theorem reread_iff (hi : i < nChecks) :
    (∀ r, (parseCheckReasons reason nChecks)[i]? = some r → r ≠ "" →
        (parseCheckVerdicts r nChecks)[i]? = (parseCheckVerdicts reason nChecks)[i]?) ↔
      LastDecides reason nChecks i := by
  rw [parseCheckReasons_getElem hi, parseCheckVerdicts_getElem hi]
  simp only [Option.some.injEq, forall_eq', LastDecides]
  cases hlast : (segmentsOf reason nChecks i).getLast? with
  | none =>
      have hnil : segmentsOf reason nChecks i = [] := List.getLast?_eq_none_iff.mp hlast
      simp [hnil]
  | some last =>
      have hmem : last ∈ segmentsOf reason nChecks i := List.mem_of_getLast? hlast
      have hne : "CHECK " ++ String.ofList last.1 ≠ "" := by
        intro hempty
        have htext := congrArg String.toList hempty
        simp at htext
      simp only [Option.map_some, Option.getD_some, ne_eq, hne, not_false_eq_true, forall_const,
        parseCheckVerdicts_getElem hi, segmentsOf_reason hmem, Option.some.injEq, forall_eq',
        List.any_cons, List.any_nil, Bool.or_false]
      constructor
      · intro hsame s hs hpresent
        rw [hsame, List.any_eq_true]
        exact ⟨s, hs, hpresent⟩
      · intro hdecides
        rw [Bool.eq_iff_iff, List.any_eq_true]
        constructor
        · intro hpresent
          exact ⟨last, hmem, hpresent⟩
        · intro hany
          obtain ⟨s, hs, hpresent⟩ := hany
          exact hdecides s hs hpresent

theorem verdict_of_no_reason (hi : i < nChecks)
    (h : (parseCheckReasons reason nChecks)[i]? = some "") :
    (parseCheckVerdicts reason nChecks)[i]? = some false := by
  rw [parseCheckReasons_getElem hi, Option.some.injEq] at h
  rw [parseCheckVerdicts_getElem hi]
  cases hlast : (segmentsOf reason nChecks i).getLast? with
  | none =>
      rw [List.getLast?_eq_none_iff.mp hlast]
      rfl
  | some last =>
      rw [hlast, Option.map_some, Option.getD_some] at h
      have htext := congrArg String.toList h
      simp at htext

end Scanners

/-! ## Reading PRESENT -/

section Reading

theorem visible_of_upper {c : Char} (h : toAsciiUppercase [c] = ['T']) :
    isWhitespace c = false := by
  simp only [toAsciiUppercase, List.map_cons, List.map_nil, List.cons.injEq, and_true] at h
  split_ifs at h with hlower
  · have hlow : 97 ≤ c.toNat := hlower.1
    have hhigh : c.toNat ≤ 122 := hlower.2
    simp [isWhitespace]
    omega
  · rw [h]
    decide

/-- PRESENT ends in a visible character, so white space behind it does not matter. -/
theorem readsPresent_eq (text : List Char) :
    readsPresent text = "PRESENT".toList.isPrefixOf (toAsciiUppercase (trimStart text)) := by
  unfold readsPresent
  rw [Bool.eq_iff_iff, List.isPrefixOf_iff_prefix, List.isPrefixOf_iff_prefix]
  constructor
  · intro h
    exact h.trans ((trimEnd_begins (trimStart text)).map _)
  · intro h
    obtain ⟨rest, hrest⟩ := h
    have hsplit : toAsciiUppercase (trimStart text) = "PRESEN".toList ++ 'T' :: rest := hrest.symm
    obtain ⟨front, back, htext, hfront, hback⟩ := List.map_eq_append_iff.mp hsplit
    obtain ⟨c, tail, rfl, hc, _⟩ := List.map_eq_cons_iff.mp hback
    have hvisible : isWhitespace c = false := by
      apply visible_of_upper
      rw [toAsciiUppercase, List.map_singleton, hc]
    rw [trim, htext, trimEnd_visible hvisible]
    refine ⟨toAsciiUppercase (trimEnd tail), ?_⟩
    simp only [toAsciiUppercase, List.map_append, List.map_cons, hc]
    rw [hfront]
    rfl

theorem readsPresent_trimEnd (text : List Char) :
    readsPresent (trimEnd text) = readsPresent text := by
  unfold readsPresent
  rw [trim_trimEnd]

/-- What stands behind a closing parenthesis does not matter. -/
theorem readsPresent_closed (text back : List Char) :
    readsPresent (text ++ ')' :: back) = readsPresent text := by
  have hupper : toAsciiUppercase (trimStart text ++ ')' :: back) =
      toAsciiUppercase (trimStart text) ++ ')' :: toAsciiUppercase back := by
    simp [toAsciiUppercase]
  rw [readsPresent_eq, readsPresent_eq, trimStart_visible (by decide), hupper, Bool.eq_iff_iff,
    List.isPrefixOf_iff_prefix, List.isPrefixOf_iff_prefix]
  constructor
  · intro h
    exact prefix_front (by decide) h
  · intro h
    exact h.trans (List.prefix_append _ _)

theorem readsPresent_word (item : Item) (back : List Char) :
    readsPresent (' ' :: (item.word ++ back)) = item.present := by
  rw [readsPresent_eq]
  unfold Item.word
  cases item.present <;> rfl

/-- The verdict of what stands behind the colon, before it is trimmed. -/
theorem isPresent_trim (text : List Char) :
    isPresent (trim text) =
      match afterLast '→' text with
      | some tail => readsPresent tail
      | none => readsPresent text := by
  have harrow : isWhitespace '→' = false := by decide
  cases hlast : afterLast '→' text with
  | some tail =>
      obtain ⟨front, rfl, hnot⟩ := afterLast_eq_some hlast
      have htrim : trim (front ++ '→' :: tail) = trimStart front ++ '→' :: trimEnd tail := by
        rw [trim, trimStart_visible harrow, trimEnd_visible harrow]
      have hnot' : '→' ∉ trimEnd tail := fun h => hnot ((trimEnd_begins tail).subset h)
      unfold isPresent
      rw [htrim, afterLast_last hnot']
      exact readsPresent_trimEnd tail
  | none =>
      have hnot : '→' ∉ trim text := fun h =>
        afterLast_eq_none_iff.mp hlast ((trim_within text).subset h)
      unfold isPresent
      rw [afterLast_eq_none_iff.mpr hnot]
      rfl

end Reading

/-! ## One rendered item -/

section Rendered

/-- The explanation without the CHECK at its end, where the space before the arrow makes a
marker of it. -/
def Item.cut (item : Item) : Option (List Char) :=
  match item.layout with
  | .verdictFirst => none
  | .arrow =>
      if "CHECK".toList <:+ item.explanation then
        some (item.explanation.take (item.explanation.length - "CHECK".toList.length))
      else none

/-- The segments of an item, without the markers in front of them. -/
def Item.pieces (item : Item) (k : Nat) : List (List Char) :=
  match item.cut with
  | some front =>
      [(Nat.repr k).toList ++ ':' :: ' ' :: front, "→ ".toList ++ item.word ++ item.gap]
  | none => [(Nat.repr k).toList ++ ':' :: ' ' :: item.content]

/-- The verdict that is read off an item. -/
def Item.heard (item : Item) : Bool :=
  match item.cut with
  | some front => isPresent (trim front)
  | none =>
      match item.layout with
      | .verdictFirst =>
          match afterLast '→' item.explanation with
          | some tail => readsPresent tail
          | none => item.present
      | .arrow => item.present

variable (item : Item)

theorem Item.cut_eq_some {front : List Char} :
    item.cut = some front ↔ item.layout = .arrow ∧ item.explanation = front ++ "CHECK".toList := by
  unfold Item.cut
  cases item.layout with
  | verdictFirst => simp
  | arrow =>
      simp only [Option.ite_none_right_eq_some, Option.some.injEq, true_and]
      constructor
      · intro h
        obtain ⟨⟨text, htext⟩, rfl⟩ := h
        have htake : item.explanation.take (item.explanation.length - "CHECK".toList.length) =
            text := by
          rw [← htext, List.length_append, Nat.add_sub_cancel, List.take_left]
        rw [htake, htext]
      · intro h
        rw [h]
        refine ⟨List.suffix_append _ _, ?_⟩
        rw [List.length_append, Nat.add_sub_cancel, List.take_left]

theorem Item.heard_iff : item.heard = item.present ↔ item.Readable := by
  unfold Item.heard Item.Readable
  cases hcut : item.cut with
  | some front =>
      obtain ⟨hlayout, hexplanation⟩ := item.cut_eq_some.mp hcut
      simp only [hlayout]
      constructor
      · intro h other hother
        rw [hexplanation] at hother
        rw [← List.append_cancel_right hother]
        exact h
      · intro h
        exact h front hexplanation
  | none =>
      cases hlayout : item.layout with
      | verdictFirst =>
          cases afterLast '→' item.explanation with
          | some tail => simp
          | none => simp
      | arrow =>
          simp only [true_iff]
          intro front hfront
          have hsome := item.cut_eq_some.mpr ⟨hlayout, hfront⟩
          rw [hcut] at hsome
          cases hsome

theorem Item.render_pieces (k : Nat) :
    item.render k = (item.pieces k).flatMap ("CHECK ".toList ++ ·) := by
  unfold Item.render Item.pieces
  cases hcut : item.cut with
  | some front =>
      obtain ⟨hlayout, hexplanation⟩ := item.cut_eq_some.mp hcut
      simp [Item.content, hlayout, hexplanation]
  | none => simp

theorem Item.not_mem_gap {c : Char} (hcomma : c ≠ ',') (hvisible : isWhitespace c = false) :
    c ∉ item.gap := by
  intro h
  rcases item.spacing c h with hc | hc
  · exact hcomma hc
  · rw [hvisible] at hc
    cases hc

theorem Item.not_mem_word {c : Char} (h : c ∉ "PRESENTMISSING".toList) : c ∉ item.word := by
  have hletters : item.word ⊆ "PRESENTMISSING".toList := by
    unfold Item.word
    cases item.present <;> decide
  exact fun hc => h (hletters hc)

theorem visible_of_digit {c : Char} (h : c.isDigit = true) :
    isWhitespace c = false ∧ c ≠ ':' ∧ c ≠ 'C' := by
  rw [Char.isDigit, Bool.and_eq_true, decide_eq_true_eq, decide_eq_true_eq] at h
  have hlow : 48 ≤ c.toNat := h.1
  have hhigh : c.toNat ≤ 57 := h.2
  refine ⟨?_, ?_, ?_⟩
  · simp [isWhitespace]
    omega
  · intro hc
    subst hc
    exact absurd hhigh (by decide)
  · intro hc
    subst hc
    exact absurd hhigh (by decide)

theorem digit_of_mem_repr {k : Nat} {c : Char} (h : c ∈ (Nat.repr k).toList) :
    c.isDigit = true := by
  rw [Nat.toList_repr] at h
  exact Nat.isDigit_of_mem_toDigits (by decide) (by decide) h

theorem marker_behind {x y : List Char} (h : 'C' ∉ x) (hs : "CHECK ".toList <:+: x ++ y) :
    "CHECK ".toList <:+: y :=
  @infix_behind Char 'C' "HECK ".toList x y h hs

theorem no_marker_without {text : List Char} (h : 'C' ∉ text) :
    ¬"CHECK ".toList <:+: text :=
  fun hmarker => h (hmarker.subset (by decide))

/-- What follows the colon holds a marker only where the explanation is cut. -/
theorem Item.content_free (hcut : item.cut = none) : ¬"CHECK ".toList <:+: item.content := by
  have hgap : 'C' ∉ item.gap := item.not_mem_gap (by decide) (by decide)
  have hword : 'C' ∉ item.word := item.not_mem_word (by decide)
  intro h
  unfold Item.content at h
  cases hlayout : item.layout with
  | verdictFirst =>
      simp only [hlayout, List.append_assoc] at h
      have hfront : 'C' ∉ item.word ++ " (".toList := by simp [hword]
      have hrest : "CHECK ".toList <:+: item.explanation ++ ')' :: item.gap := by
        apply marker_behind hfront
        simpa using h
      rcases infix_sides (by decide) hrest with hin | hin
      · exact item.plain hin
      · exact no_marker_without hgap hin
  | arrow =>
      simp only [hlayout, List.append_assoc] at h
      have hrest : "CHECK ".toList <:+: (item.explanation ++ [' ']) ++
          '→' :: ' ' :: (item.word ++ item.gap) := by
        simpa using h
      rcases infix_sides (by decide) hrest with hin | hin
      · -- a marker at the end would need a CHECK at the end of the explanation
        rcases List.infix_concat_iff.mp hin with hend | hin
        · obtain ⟨front, hfront⟩ := hend
          have hspaced : front ++ "CHECK".toList ++ [' '] = item.explanation ++ [' '] := by
            simpa using hfront
          have hcheck := List.append_cancel_right hspaced
          have hsome := item.cut_eq_some.mpr ⟨hlayout, hcheck.symm⟩
          rw [hcut] at hsome
          cases hsome
        · exact item.plain hin
      · exact no_marker_without (by simp [hgap, hword]) hin

/-- No marker stands in a piece. -/
theorem Item.pieces_free (k : Nat) : ∀ p ∈ item.pieces k, ¬"CHECK ".toList <:+: p := by
  have hnumber : 'C' ∉ (Nat.repr k).toList := fun h =>
    (visible_of_digit (digit_of_mem_repr h)).2.2 rfl
  have hbehind : ∀ text : List Char, "CHECK ".toList <:+: (Nat.repr k).toList ++ ':' :: ' ' :: text →
      "CHECK ".toList <:+: text := by
    intro text h
    have hfront : 'C' ∉ (Nat.repr k).toList ++ [':', ' '] := by
      rw [List.mem_append, not_or]
      exact ⟨hnumber, by decide⟩
    apply marker_behind hfront
    rw [List.append_assoc]
    exact h
  unfold Item.pieces
  cases hcut : item.cut with
  | some front =>
      obtain ⟨_, hexplanation⟩ := item.cut_eq_some.mp hcut
      have hgap : 'C' ∉ item.gap := item.not_mem_gap (by decide) (by decide)
      have hword : 'C' ∉ item.word := item.not_mem_word (by decide)
      simp only [List.forall_mem_cons, List.not_mem_nil, false_implies, implies_true, and_true]
      refine ⟨fun h => item.plain ?_, no_marker_without (by simp [hgap, hword])⟩
      rw [hexplanation]
      exact (hbehind front h).trans (List.prefix_append _ _).isInfix
  | none =>
      simp only [List.mem_singleton, forall_eq]
      exact fun h => item.content_free hcut (hbehind item.content h)

/-! ## What is read off it -/

/-- A numbered segment gives its number and the text behind the colon. -/
theorem parseCheckSegment_numbered {nChecks k : Nat} (hk : 1 ≤ k) (hle : k ≤ nChecks)
    (fits : k < 2 ^ 64) (text : List Char) :
    ∃ trimmed, parseCheckSegment nChecks ((Nat.repr k).toList ++ ':' :: ' ' :: text) =
      some (k - 1, trimmed, trim text) := by
  have hvisible : ∀ c ∈ (Nat.repr k).toList, isWhitespace c = false := fun c hc =>
    (visible_of_digit (digit_of_mem_repr hc)).1
  have hcolon : ':' ∉ (Nat.repr k).toList := fun h =>
    (visible_of_digit (digit_of_mem_repr h)).2.1 rfl
  have hstart : trimStart (Nat.repr k).toList = (Nat.repr k).toList :=
    List.dropWhile_eq_self_iff.mpr fun hpos => by
      rw [hvisible _ (List.getElem_mem hpos)]
      exact Bool.false_ne_true
  have hspace : isWhitespace ':' = false := by decide
  have htrim : trim ((Nat.repr k).toList ++ ':' :: ' ' :: text) =
      (Nat.repr k).toList ++ ':' :: trimEnd (' ' :: text) := by
    rw [trim, trimStart_visible hspace, trimEnd_visible hspace, hstart]
  have hafter : trim (trimEnd (' ' :: text)) = trim text := by
    rw [trim_trimEnd, trim_space (by decide)]
  refine ⟨(Nat.repr k).toList ++ ':' :: trimEnd (' ' :: text), ?_⟩
  unfold parseCheckSegment
  rw [htrim]
  dsimp only
  rw [splitAtFirst_append hcolon]
  dsimp only
  rw [trim_of_visible hvisible, parseUsize_repr_of_lt fits]
  dsimp only
  rw [if_pos (by omega), hafter]

theorem parseCheckSegment_no_colon {segment : List Char} (h : ':' ∉ segment) (nChecks : Nat) :
    parseCheckSegment nChecks segment = none := by
  have htrimmed : ':' ∉ trim segment := fun hc => h ((trim_within segment).subset hc)
  unfold parseCheckSegment
  dsimp only
  rw [splitAtFirst_eq_none htrimmed]

/-- Whether one of the segments says that check `i` is PRESENT. -/
def saysPresent (nChecks i : Nat) (segments : List (List Char)) : Bool :=
  (segments.filterMap (segmentAt nChecks i)).any fun s => isPresent s.2

theorem saysPresent_append (nChecks i : Nat) (a b : List (List Char)) :
    saysPresent nChecks i (a ++ b) = (saysPresent nChecks i a || saysPresent nChecks i b) := by
  unfold saysPresent
  rw [List.filterMap_append, List.any_append]

theorem saysPresent_numbered {nChecks k : Nat} (hk : 1 ≤ k) (hle : k ≤ nChecks)
    (fits : k < 2 ^ 64) (i : Nat) (text : List Char) :
    saysPresent nChecks i [(Nat.repr k).toList ++ ':' :: ' ' :: text] =
      (decide (k - 1 = i) && isPresent (trim text)) := by
  obtain ⟨trimmed, hparse⟩ := parseCheckSegment_numbered hk hle fits text
  unfold saysPresent
  rw [List.filterMap_cons, segmentAt, hparse]
  by_cases hi : k - 1 = i <;> simp [hi]

theorem Item.heard_eq_content (h : item.cut = none) :
    isPresent (trim item.content) = item.heard := by
  have hgap : '→' ∉ item.gap := item.not_mem_gap (by decide) (by decide)
  have hword : '→' ∉ item.word := item.not_mem_word (by decide)
  have hpresent : ∀ back : List Char, readsPresent (item.word ++ back) = item.present := by
    intro back
    have hspaced := readsPresent_word item back
    unfold readsPresent at hspaced ⊢
    rwa [trim_space (by decide)] at hspaced
  rw [isPresent_trim]
  unfold Item.heard Item.content
  rw [h]
  cases item.layout with
  | verdictFirst =>
      have hfront : '→' ∉ item.word ++ " (".toList := by
        rw [List.mem_append, not_or]
        exact ⟨hword, by decide⟩
      have hback : '→' ∉ ")".toList ++ item.gap := by
        rw [List.mem_append, not_or]
        exact ⟨by decide, hgap⟩
      have hlast : afterLast '→' (item.word ++ " (".toList ++ item.explanation ++ ")".toList ++
          item.gap) = (afterLast '→' item.explanation).map (· ++ (")".toList ++ item.gap)) := by
        rw [List.append_assoc, List.append_assoc, afterLast_behind hfront, afterLast_append hback]
      dsimp only
      rw [hlast]
      cases afterLast '→' item.explanation with
      | some tail => exact readsPresent_closed tail item.gap
      | none =>
          dsimp only [Option.map_none]
          rw [List.append_assoc, List.append_assoc, List.append_assoc]
          exact hpresent _
  | arrow =>
      have hback : '→' ∉ ' ' :: (item.word ++ item.gap) := by
        rw [List.mem_cons, List.mem_append, not_or, not_or]
        exact ⟨by decide, hword, hgap⟩
      have hlast : afterLast '→' (item.explanation ++ " → ".toList ++ item.word ++ item.gap) =
          some (' ' :: (item.word ++ item.gap)) := by
        have hsplit : item.explanation ++ " → ".toList ++ item.word ++ item.gap =
            (item.explanation ++ [' ']) ++ '→' :: ' ' :: (item.word ++ item.gap) := by
          simp
        rw [hsplit, afterLast_last hback]
      dsimp only
      rw [hlast]
      exact readsPresent_word item item.gap

/-- An item is heard at its own number only. -/
theorem Item.saysPresent_pieces {nChecks k : Nat} (hk : 1 ≤ k) (hle : k ≤ nChecks)
    (fits : k < 2 ^ 64) (i : Nat) :
    saysPresent nChecks i (item.pieces k) = (decide (k - 1 = i) && item.heard) := by
  unfold Item.pieces
  cases hcut : item.cut with
  | some front =>
      have hcolon : ':' ∉ "→ ".toList ++ item.word ++ item.gap := by
        rw [List.mem_append, List.mem_append, not_or, not_or]
        exact ⟨⟨by decide, item.not_mem_word (by decide)⟩,
          item.not_mem_gap (by decide) (by decide)⟩
      have hsilent : saysPresent nChecks i ["→ ".toList ++ item.word ++ item.gap] = false := by
        unfold saysPresent
        rw [List.filterMap_cons, segmentAt, parseCheckSegment_no_colon hcolon]
        rfl
      have hheard : item.heard = isPresent (trim front) := by
        unfold Item.heard
        rw [hcut]
      dsimp only
      rw [← List.singleton_append, saysPresent_append, hsilent, Bool.or_false,
        saysPresent_numbered hk hle fits, hheard]
  | none =>
      dsimp only
      rw [saysPresent_numbered hk hle fits, item.heard_eq_content hcut]

end Rendered

/-! ## The whole answer -/

section Answer

/-- The segments of the items numbered from `k`. -/
def piecesFrom : Nat → List Item → List (List Char)
  | _, [] => []
  | k, item :: rest => item.pieces k ++ piecesFrom (k + 1) rest

theorem renderFrom_pieces (items : List Item) (k : Nat) :
    renderFrom k items = (piecesFrom k items).flatMap ("CHECK ".toList ++ ·) := by
  induction items generalizing k with
  | nil => rfl
  | cons item rest ih =>
      rw [renderFrom, piecesFrom, List.flatMap_append, ih, item.render_pieces]

theorem piecesFrom_free (items : List Item) (k : Nat) :
    ∀ p ∈ piecesFrom k items, ¬"CHECK ".toList <:+: p := by
  induction items generalizing k with
  | nil => simp [piecesFrom]
  | cons item rest ih =>
      intro p hp
      rcases List.mem_append.mp hp with hp | hp
      · exact item.pieces_free k p hp
      · exact ih (k + 1) p hp

theorem saysPresent_piecesFrom {nChecks k : Nat} (hk : 1 ≤ k) (items : List Item)
    (hle : k + items.length ≤ nChecks + 1) (fits : nChecks < 2 ^ 64) (i : Nat) :
    saysPresent nChecks i (piecesFrom k items) =
      if i + 1 < k then false else ((items[i + 1 - k]?).map Item.heard).getD false := by
  induction items generalizing k with
  | nil => simp [piecesFrom, saysPresent]
  | cons item rest ih =>
      rw [List.length_cons] at hle
      rw [piecesFrom, saysPresent_append, item.saysPresent_pieces hk (by omega) (by omega),
        ih (by omega) (by omega)]
      rcases Nat.lt_trichotomy (i + 1) k with hlt | heq | hgt
      · have hne : k - 1 ≠ i := by omega
        rw [if_pos hlt, if_pos (by omega)]
        simp [hne]
      · have hzero : i + 1 - k = 0 := by omega
        have hi : k - 1 = i := by omega
        rw [if_pos (by omega), if_neg (by omega), hzero]
        simp [hi]
      · have hne : k - 1 ≠ i := by omega
        have hsucc : i + 1 - k = (i + 1 - (k + 1)) + 1 := by omega
        rw [if_neg (by omega), if_neg (by omega), hsucc, List.getElem?_cons_succ]
        simp [hne]

/-- Every check gets the verdict that is read off its item. -/
theorem parseCheckVerdicts_rendering (r : Rendering) :
    parseCheckVerdicts r.reason r.items.length = r.items.map Item.heard := by
  have hsegments : checkSegments r.reason = piecesFrom 1 r.items := by
    have hjoin := splitText_join unbordered_check (by decide) [] (piecesFrom 1 r.items)
      (List.forall_mem_cons.mpr ⟨by decide, piecesFrom_free r.items 1⟩)
    rw [List.nil_append] at hjoin
    unfold checkSegments Rendering.reason
    rw [String.toList_ofList, renderFrom_pieces, hjoin]
    rfl
  apply List.ext_getElem?
  intro i
  by_cases hi : i < r.items.length
  · have hsays := saysPresent_piecesFrom (le_refl 1) r.items (by omega) r.fits i
    rw [if_neg (by omega), Nat.add_sub_cancel] at hsays
    rw [parseCheckVerdicts_getElem hi, segmentsOf, hsegments, List.getElem?_map,
      List.getElem?_eq_getElem hi]
    rw [List.getElem?_eq_getElem hi] at hsays
    exact congrArg some hsays
  · rw [List.getElem?_eq_none (by rw [parseCheckVerdicts_length]; omega),
      List.getElem?_eq_none (by rw [List.length_map]; omega)]

end Answer

/-! ## The guarantee -/

/-- For every text and number of checks, both scanners give one entry a check, and a check
without a reason is not PRESENT. The reason of a check, read alone, gives its verdict
exactly when its last segment decides. And every rendered answer reads back as its
verdicts exactly when no explanation misleads. -/
theorem check_segments_agree_iff (reason : String) (nChecks : Nat) (r : Rendering) :
    ((parseCheckVerdicts reason nChecks).length = nChecks ∧
      (parseCheckReasons reason nChecks).length = nChecks ∧
      ∀ i < nChecks,
        ((parseCheckReasons reason nChecks)[i]? = some "" →
          (parseCheckVerdicts reason nChecks)[i]? = some false) ∧
        ((∀ text, (parseCheckReasons reason nChecks)[i]? = some text → text ≠ "" →
            (parseCheckVerdicts text nChecks)[i]? = (parseCheckVerdicts reason nChecks)[i]?) ↔
          LastDecides reason nChecks i)) ∧
    (parseCheckVerdicts r.reason r.items.length = r.verdicts ↔
      ∀ item ∈ r.items, item.Readable) := by
  constructor
  · exact ⟨parseCheckVerdicts_length reason nChecks, parseCheckReasons_length reason nChecks,
      fun i hi => ⟨verdict_of_no_reason hi, reread_iff hi⟩⟩
  · rw [parseCheckVerdicts_rendering, Rendering.verdicts, List.map_inj_left]
    simp only [Item.heard_iff]

/-! ## A reason that contradicts its verdict, and an arrow in an explanation -/

section Example

def arrowItem : Item :=
  { present := true
    layout := .verdictFirst
    explanation := "maps a → b".toList
    gap := []
    plain := by decide
    spacing := by simp }

def arrowAnswer : Rendering := ⟨[arrowItem], by decide⟩

/-- The judge corrects itself: the verdict keeps the first line, the reason the second one.
And a PRESENT whose explanation has an arrow is read as MISSING. -/
theorem scanners_disagree :
    (parseCheckReasons "CHECK 1: a → PRESENT\nCHECK 1: a → MISSING" 1 =
        ["CHECK 1: a → MISSING"] ∧
      parseCheckVerdicts "CHECK 1: a → PRESENT\nCHECK 1: a → MISSING" 1 = [true] ∧
      parseCheckVerdicts "CHECK 1: a → MISSING" 1 = [false]) ∧
    arrowAnswer.reason = "CHECK 1: PRESENT (maps a → b)" ∧
      arrowAnswer.verdicts = [true] ∧
      parseCheckVerdicts arrowAnswer.reason arrowAnswer.items.length = [false] := by
  decide +kernel

end Example

end ControlPlane.Guarantees.CheckSegments
