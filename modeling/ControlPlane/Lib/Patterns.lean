import ControlPlane.Lib.Sequences

/-!
# Patterns

Search patterns of symbol classes, sequences, choices and repetitions. The matcher works as
a backtracking one does: of a choice it takes the first alternative that lets the rest match,
of a repetition as many symbols as possible. It matches at the front of a text exactly if
some prefix is in the language of the pattern, so that replacing every match by a marker no
match can reach into leaves no match, and takes nothing but matches away.
-/
namespace ControlPlane.Lib

inductive Pattern (α : Type) where
  | symbol (p : α → Bool)
  /-- `least` or more symbols of a class. -/
  | many (p : α → Bool) (least : Nat)
  | seq (first second : Pattern α)
  | choice (first second : Pattern α)

namespace Pattern

variable {α β : Type}

/-! ## Language -/

inductive Matches : Pattern α → List α → Prop where
  | symbol {p : α → Bool} {c : α} (holds : p c = true) : Matches (.symbol p) [c]
  | many {p : α → Bool} {least : Nat} {w : List α} (all : ∀ c ∈ w, p c = true)
      (enough : least ≤ w.length) : Matches (.many p least) w
  | seq {a b : Pattern α} {v w : List α} (first : Matches a v) (second : Matches b w) :
      Matches (.seq a b) (v ++ w)
  | first {a b : Pattern α} {w : List α} (h : Matches a w) : Matches (.choice a b) w
  | second {a b : Pattern α} {w : List α} (h : Matches b w) : Matches (.choice a b) w

/-- No occurrence of the pattern anywhere. -/
def Clean (r : Pattern α) (text : List α) : Prop := ∀ w, w <:+: text → ¬r.Matches w

/-- The symbols that can stand in a match. -/
def admits : Pattern α → α → Bool
  | .symbol p, c => p c
  | .many p _, c => p c
  | .seq a b, c => a.admits c || b.admits c
  | .choice a b, c => a.admits c || b.admits c

/-- No match is empty. -/
def proper : Pattern α → Bool
  | .symbol _ => true
  | .many _ least => decide (0 < least)
  | .seq a b => a.proper || b.proper
  | .choice a b => a.proper && b.proper

/-! ## Matcher -/

/-- `least` more symbols of a class and as many as possible, such that the rest goes on. -/
def manyLoop (p : α → Bool) : Nat → List α → (List α → Option β) → Option β
  | 0, [], next => next []
  | _ + 1, [], _ => none
  | 0, c :: rest, next =>
      if p c then (manyLoop p 0 rest next).or (next (c :: rest)) else next (c :: rest)
  | least + 1, c :: rest, next => if p c then manyLoop p least rest next else none

def symbolStep (p : α → Bool) (next : List α → Option β) : List α → Option β
  | [] => none
  | c :: rest => if p c then next rest else none

/-- The matcher, with what has to match behind. -/
def run : Pattern α → List α → (List α → Option β) → Option β
  | .symbol p, text, next => symbolStep p next text
  | .many p least, text, next => manyLoop p least text next
  | .seq a b, text, next => a.run text fun behind => b.run behind next
  | .choice a b, text, next => (a.run text next).or (b.run text next)

/-- What is behind the match at the front. -/
def matchFront (r : Pattern α) (text : List α) : Option (List α) := r.run text some

/-- `skip` counts the symbols of a match already found that are still to be dropped. -/
def replaceLoop (r : Pattern α) (marker : List α) : Nat → List α → List α
  | _, [] => []
  | skip + 1, _ :: rest => replaceLoop r marker skip rest
  | 0, c :: rest =>
      match r.matchFront (c :: rest) with
      | none => c :: replaceLoop r marker 0 rest
      | some behind => marker ++ replaceLoop r marker (rest.length - behind.length) rest

/-- Every match from the left replaced by the marker, for a pattern without empty matches. -/
def replaceAll (r : Pattern α) (marker text : List α) : List α := replaceLoop r marker 0 text

/-! ## The matcher follows the language -/

theorem Matches.admits {r : Pattern α} {w : List α} (h : r.Matches w) :
    ∀ c ∈ w, r.admits c = true := by
  induction h with
  | symbol holds =>
      intro c hc
      rw [List.mem_singleton] at hc
      exact hc ▸ holds
  | many all _ => exact all
  | seq _ _ iha ihb =>
      intro c hc
      rw [Pattern.admits, Bool.or_eq_true]
      rcases List.mem_append.mp hc with hv | hw
      · exact Or.inl (iha c hv)
      · exact Or.inr (ihb c hw)
  | first _ ih =>
      intro c hc
      rw [Pattern.admits, ih c hc, Bool.true_or]
  | second _ ih =>
      intro c hc
      rw [Pattern.admits, ih c hc, Bool.or_true]

theorem Matches.ne_nil {r : Pattern α} {w : List α} (h : r.Matches w) (hr : r.proper = true) :
    w ≠ [] := by
  induction h with
  | symbol _ => exact List.cons_ne_nil _ _
  | many _ enough =>
      rw [proper, decide_eq_true_eq] at hr
      exact List.ne_nil_of_length_pos (hr.trans_le enough)
  | seq _ _ iha ihb =>
      rw [proper, Bool.or_eq_true] at hr
      rcases hr with ha | hb
      · exact List.append_ne_nil_of_left_ne_nil (iha ha) _
      · exact List.append_ne_nil_of_right_ne_nil _ (ihb hb)
  | first _ ih =>
      rw [proper, Bool.and_eq_true] at hr
      exact ih hr.1
  | second _ ih =>
      rw [proper, Bool.and_eq_true] at hr
      exact ih hr.2

theorem manyLoop_sound {p : α → Bool} {least : Nat} {text : List α} {next : List α → Option β}
    {b : β} (h : manyLoop p least text next = some b) :
    ∃ w behind, text = w ++ behind ∧ (∀ c ∈ w, p c = true) ∧ least ≤ w.length ∧
      next behind = some b := by
  induction text generalizing least with
  | nil =>
      cases least with
      | zero => exact ⟨[], [], rfl, by simp, le_rfl, h⟩
      | succ least => cases h
  | cons c rest ih =>
      -- A symbol taken in front of what the induction gives.
      have htake : ∀ {m n : Nat}, n ≤ m + 1 → p c = true → manyLoop p m rest next = some b →
          ∃ w behind, c :: rest = w ++ behind ∧ (∀ c ∈ w, p c = true) ∧ n ≤ w.length ∧
            next behind = some b := by
        intro m n hn hc hrest
        obtain ⟨w, behind, rfl, hall, henough, hnext⟩ := ih hrest
        refine ⟨c :: w, behind, rfl, ?_, ?_, hnext⟩
        · intro d hd
          rcases List.mem_cons.mp hd with rfl | hd
          · exact hc
          · exact hall d hd
        · rw [List.length_cons]
          omega
      cases least with
      | zero =>
          rw [manyLoop] at h
          split at h
          next hc =>
            rcases Option.or_eq_some_iff.mp h with hrest | ⟨-, hnext⟩
            · exact htake (Nat.zero_le _) hc hrest
            · exact ⟨[], c :: rest, rfl, by simp, Nat.zero_le _, hnext⟩
          next => exact ⟨[], c :: rest, rfl, by simp, Nat.zero_le _, h⟩
      | succ least =>
          rw [manyLoop] at h
          split at h
          next hc => exact htake le_rfl hc h
          next => cases h

theorem manyLoop_complete {p : α → Bool} {least : Nat} {w behind : List α}
    {next : List α → Option β} (all : ∀ c ∈ w, p c = true) (enough : least ≤ w.length)
    (hnext : (next behind).isSome = true) :
    (manyLoop p least (w ++ behind) next).isSome = true := by
  induction w generalizing least with
  | nil =>
      obtain rfl : least = 0 := Nat.le_zero.mp enough
      cases behind with
      | nil => exact hnext
      | cons c rest =>
          rw [List.nil_append, manyLoop]
          split
          · rw [Option.isSome_or, hnext, Bool.or_true]
          · exact hnext
  | cons c w ih =>
      have hc := all c List.mem_cons_self
      have hw : ∀ d ∈ w, p d = true := fun d hd => all d (List.mem_cons_of_mem c hd)
      cases least with
      | zero =>
          rw [List.cons_append, manyLoop, if_pos hc, Option.isSome_or, ih hw (Nat.zero_le _),
            Bool.true_or]
      | succ least =>
          rw [List.cons_append, manyLoop, if_pos hc]
          exact ih hw (Nat.succ_le_succ_iff.mp enough)

theorem run_sound {r : Pattern α} {text : List α} {next : List α → Option β} {b : β}
    (h : r.run text next = some b) :
    ∃ w behind, text = w ++ behind ∧ r.Matches w ∧ next behind = some b := by
  induction r generalizing text next with
  | symbol p =>
      rw [run] at h
      cases text with
      | nil => cases h
      | cons c rest =>
          rw [symbolStep] at h
          split at h
          next hc => exact ⟨[c], rest, rfl, .symbol hc, h⟩
          next => cases h
  | many p least =>
      obtain ⟨w, behind, htext, hall, henough, hnext⟩ := manyLoop_sound h
      exact ⟨w, behind, htext, .many hall henough, hnext⟩
  | seq a b iha ihb =>
      obtain ⟨v, middle, rfl, hv, hb⟩ := iha h
      obtain ⟨w, behind, rfl, hw, hnext⟩ := ihb hb
      exact ⟨v ++ w, behind, (List.append_assoc v w behind).symm, .seq hv hw, hnext⟩
  | choice a b iha ihb =>
      rcases Option.or_eq_some_iff.mp h with ha | ⟨-, hb⟩
      · obtain ⟨w, behind, htext, hw, hnext⟩ := iha ha
        exact ⟨w, behind, htext, .first hw, hnext⟩
      · obtain ⟨w, behind, htext, hw, hnext⟩ := ihb hb
        exact ⟨w, behind, htext, .second hw, hnext⟩

theorem run_complete {r : Pattern α} {w : List α} (h : r.Matches w) (behind : List α)
    {next : List α → Option β} (hnext : (next behind).isSome = true) :
    (r.run (w ++ behind) next).isSome = true := by
  induction h generalizing behind next with
  | symbol holds =>
      rw [List.singleton_append, run, symbolStep, if_pos holds]
      exact hnext
  | many all enough => exact manyLoop_complete all enough hnext
  | @seq a b v w _ _ iha ihb =>
      rw [List.append_assoc, run]
      exact iha (w ++ behind) (ihb behind hnext)
  | first _ ih => rw [run, Option.isSome_or, ih behind hnext, Bool.true_or]
  | second _ ih => rw [run, Option.isSome_or, ih behind hnext, Bool.or_true]

theorem matchFront_some {r : Pattern α} {text behind : List α}
    (h : r.matchFront text = some behind) : ∃ w, text = w ++ behind ∧ r.Matches w := by
  obtain ⟨w, behind', htext, hw, hbehind⟩ := run_sound h
  rw [Option.some.injEq] at hbehind
  exact ⟨w, hbehind ▸ htext, hw⟩

theorem matchFront_none {r : Pattern α} {text : List α} (h : r.matchFront text = none) :
    ∀ w, w <+: text → ¬r.Matches w := by
  rintro w ⟨behind, rfl⟩ hw
  have hsome : (r.matchFront (w ++ behind)).isSome = true := run_complete hw behind rfl
  rw [h] at hsome
  cases hsome

/-- A text is clean if the matcher finds nothing at any place. -/
theorem clean_of_tails {r : Pattern α} {text : List α}
    (h : ∀ t ∈ text.tails, r.matchFront t = none) : r.Clean text := by
  intro w hw
  obtain ⟨t, hwt, ht⟩ := List.infix_iff_prefix_suffix.mp hw
  exact matchFront_none (h t ((List.mem_tails _ _).mpr ht)) w hwt

/-! ## Replacement -/

/-- A text and what replacing makes of it: a symbol stays where no match begins, and only
matches are cut out. -/
inductive Replaced (r : Pattern α) (marker : List α) : List α → List α → Prop where
  | done : Replaced r marker [] []
  | keep {c : α} {text out : List α} (free : ∀ w, w <+: c :: text → ¬r.Matches w)
      (rest : Replaced r marker text out) : Replaced r marker (c :: text) (c :: out)
  | cut {w text out : List α} (found : r.Matches w) (rest : Replaced r marker text out) :
      Replaced r marker (w ++ text) (marker ++ out)

theorem replaceLoop_drop (r : Pattern α) (marker : List α) (skip : Nat) (text : List α) :
    replaceLoop r marker skip text = replaceAll r marker (text.drop skip) := by
  induction text generalizing skip with
  | nil => rw [List.drop_nil, replaceAll, replaceLoop, replaceLoop]
  | cons c rest ih =>
      cases skip with
      | zero => rfl
      | succ skip => rw [replaceLoop, ih, List.drop_succ_cons]

theorem replaced_replaceAll {r : Pattern α} (hr : r.proper = true) (marker text : List α) :
    r.Replaced marker text (replaceAll r marker text) := by
  induction hn : text.length using Nat.strong_induction_on generalizing text with
  | _ n ih =>
      cases text with
      | nil => exact .done
      | cons c rest =>
          rw [List.length_cons] at hn
          rw [replaceAll, replaceLoop]
          split
          next hnone => exact .keep (matchFront_none hnone) (ih rest.length (by omega) rest rfl)
          next behind hsome =>
            obtain ⟨w, htext, hw⟩ := matchFront_some hsome
            obtain ⟨d, w, rfl⟩ := List.exists_cons_of_ne_nil (hw.ne_nil hr)
            rw [List.cons_append, List.cons.injEq] at htext
            obtain ⟨rfl, rfl⟩ := htext
            have hskip : (w ++ behind).length - behind.length = w.length := by
              rw [List.length_append, Nat.add_sub_cancel]
            rw [hskip, replaceLoop_drop, List.drop_left]
            refine .cut hw (ih behind.length ?_ behind rfl)
            rw [List.length_append] at hn
            omega

section Marker

variable {r : Pattern α} {opening closing : α} {body text out : List α}

/-- What no match begins in goes over unchanged up to the first marker. -/
theorem Replaced.front (h : r.Replaced (opening :: (body ++ [closing])) text out) {w : List α}
    (hw : opening ∉ w) (hout : w <+: out) : w <+: text := by
  induction h generalizing w with
  | done => exact hout
  | keep _ _ ih =>
      cases w with
      | nil => exact List.nil_prefix
      | cons d w =>
          obtain ⟨rfl, hrest⟩ := List.cons_prefix_cons.mp hout
          exact List.cons_prefix_cons.mpr
            ⟨rfl, ih (List.not_mem_of_not_mem_cons hw) hrest⟩
  | cut _ _ _ =>
      cases w with
      | nil => exact List.nil_prefix
      | cons d w =>
          rw [List.cons_append] at hout
          exact absurd List.mem_cons_self ((List.cons_prefix_cons.mp hout).1 ▸ hw)

/-- With a marker whose ends no match admits and that holds none, no match is left. -/
theorem Replaced.clean (hr : r.proper = true) (hopening : r.admits opening = false)
    (hclosing : r.admits closing = false) (hbody : r.Clean body)
    (h : r.Replaced (opening :: (body ++ [closing])) text out) : r.Clean out := by
  have hout : ∀ {d : α} {w : List α}, r.admits d = false → r.Matches w → d ∉ w := by
    intro d w hd hw hmem
    rw [hw.admits d hmem] at hd
    cases hd
  induction h with
  | done =>
      intro w hw hmatch
      exact hmatch.ne_nil hr (List.infix_nil.mp hw)
  | @keep c text out free rest ih =>
      intro w hw hmatch
      rcases List.infix_cons_iff.mp hw with hstart | hlater
      · have hfree : opening ∉ w := hout hopening hmatch
        cases w with
        | nil => exact hmatch.ne_nil hr rfl
        | cons d w =>
            obtain ⟨rfl, hrest⟩ := List.cons_prefix_cons.mp hstart
            exact free _ (List.cons_prefix_cons.mpr
              ⟨rfl, rest.front (List.not_mem_of_not_mem_cons hfree) hrest⟩) hmatch
      · exact ih w hlater hmatch
  | @cut v text out found rest ih =>
      intro w hw hmatch
      rw [List.cons_append, List.append_assoc, List.singleton_append] at hw
      have hin : w <:+: [] ++ opening :: (body ++ closing :: out) := hw
      rcases infix_sides (hout hopening hmatch) hin with hnil | hbehind
      · exact hmatch.ne_nil hr (List.infix_nil.mp hnil)
      · rcases infix_sides (hout hclosing hmatch) hbehind with hinside | hlater
        · exact hbody w hinside hmatch
        · exact ih w hlater hmatch

end Marker

/-- A clean text stays as it is. -/
theorem replaceAll_of_clean {r : Pattern α} (marker : List α) {text : List α}
    (h : r.Clean text) : replaceAll r marker text = text := by
  induction text with
  | nil => rfl
  | cons c rest ih =>
      rw [replaceAll, replaceLoop]
      split
      next =>
        have hrest : r.Clean rest := fun w hw => h w (List.infix_cons hw)
        exact congrArg (c :: ·) (ih hrest)
      next behind hsome =>
        obtain ⟨w, htext, hw⟩ := matchFront_some hsome
        exact absurd hw (h w ⟨[], behind, by rw [htext, List.nil_append]⟩)

end Pattern

end ControlPlane.Lib
