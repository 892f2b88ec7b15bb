import Mathlib.Data.Finset.Card
import Mathlib.Data.Finset.Range
import Mathlib.Data.List.Basic
import Mathlib.Data.List.Forall2
import Mathlib.Data.List.Induction
import Mathlib.Data.List.Perm.Basic
import Mathlib.Data.List.Sort
import Mathlib.Data.Set.Card

/-!
# Lists in order

`OrderedSplit all left right` says that every element of `all` went to exactly
one of the two sides and that each side keeps the order of `all`. The partner
lemmas find, for an element of one of two related lists, its counterpart. Two
elements of a list without repetitions have one order. Counting elements is
counting the positions that hold them. A list is cut at its last separator in one way.
The first hit of a search stands at its index. Where no two elements have one key, an
element is all there is under its key. A fold that treats the positions of a list one by
one is a fold at each of them. An occurrence of a list starts with its first element and
does not hold any other.
-/
namespace ControlPlane.Lib

variable {α β : Type*}

inductive OrderedSplit : List α → List α → List α → Prop where
  | nil : OrderedSplit [] [] []
  | left (a : α) {all left right : List α} (rest : OrderedSplit all left right) :
      OrderedSplit (a :: all) (a :: left) right
  | right (a : α) {all left right : List α} (rest : OrderedSplit all left right) :
      OrderedSplit (a :: all) left (a :: right)

/-- Filtering by a test and by its negation is such a split. -/
theorem orderedSplit_filter (test : α → Bool) (all : List α) :
    OrderedSplit all (all.filter test) (all.filter fun a => !test a) := by
  induction all with
  | nil => exact .nil
  | cons a rest ih =>
      cases h : test a with
      | true => simpa [h] using OrderedSplit.left a ih
      | false => simpa [h] using OrderedSplit.right a ih

theorem OrderedSplit.map (f : α → β) {all left right : List α}
    (h : OrderedSplit all left right) :
    OrderedSplit (all.map f) (left.map f) (right.map f) := by
  induction h with
  | nil => exact .nil
  | left a _ ih => exact .left (f a) ih
  | right a _ ih => exact .right (f a) ih

theorem OrderedSplit.mem_or {all left right : List α} (h : OrderedSplit all left right) {a : α}
    (member : a ∈ all) : a ∈ left ∨ a ∈ right := by
  induction h with
  | nil => simp at member
  | left b _ ih =>
      rcases List.mem_cons.mp member with rfl | later
      · exact .inl (by simp)
      · exact (ih later).imp (List.mem_cons_of_mem _) id
  | right b _ ih =>
      rcases List.mem_cons.mp member with rfl | later
      · exact .inr (by simp)
      · exact (ih later).imp id (List.mem_cons_of_mem _)

theorem exists_left_of_forall₂ {R : α → β → Prop} {as : List α} {bs : List β}
    (h : List.Forall₂ R as bs) {b : β} (member : b ∈ bs) : ∃ a ∈ as, R a b := by
  induction h with
  | nil => simp at member
  | cons hab _ ih =>
      rcases List.mem_cons.mp member with rfl | later
      · exact ⟨_, by simp, hab⟩
      · obtain ⟨a, ha, hrel⟩ := ih later
        exact ⟨a, by simp [ha], hrel⟩

theorem exists_right_of_forall₂ {R : α → β → Prop} {as : List α} {bs : List β}
    (h : List.Forall₂ R as bs) {a : α} (member : a ∈ as) : ∃ b ∈ bs, R a b := by
  exact exists_left_of_forall₂ h.flip member

theorem exists_forall₂ {R : α → β → Prop} {bs : List β} (h : ∀ b ∈ bs, ∃ a, R a b) :
    ∃ as, List.Forall₂ R as bs := by
  induction bs with
  | nil => exact ⟨[], .nil⟩
  | cons b rest ih =>
      obtain ⟨hhead, htail⟩ := List.forall_mem_cons.mp h
      obtain ⟨a, ha⟩ := hhead
      obtain ⟨as, has⟩ := ih htail
      exact ⟨a :: as, .cons ha has⟩

theorem map_eq_of_forall₂ {γ : Type*} {f : α → γ} {g : β → γ} {as : List α} {bs : List β}
    (h : List.Forall₂ (fun a b => f a = g b) as bs) : as.map f = bs.map g := by
  induction h with
  | nil => rfl
  | cons hhead _ ih => rw [List.map_cons, List.map_cons, hhead, ih]

/-- Without repetitions, two elements stand in one order only. -/
theorem pair_order_unique {a b : α} {l : List α} (nodup : l.Nodup)
    (hab : List.Sublist [a, b] l) (hba : List.Sublist [b, a] l) : False := by
  induction l with
  | nil => cases hab
  | cons c rest ih =>
      have hnew := (List.nodup_cons.mp nodup).1
      cases hab with
      | cons _ hab =>
          cases hba with
          | cons _ hba => exact ih (List.nodup_cons.mp nodup).2 hab hba
          | cons_cons _ _ => exact hnew (hab.subset (by simp))
      | cons_cons _ hb =>
          cases hba with
          | cons _ hba => exact hnew (hba.subset (by simp))
          | cons_cons _ _ => exact hnew (hb.subset (by simp))

theorem countP_eq_card_positions {α : Type*} (p : α → Bool) (l : List α) :
    l.countP p = ((Finset.range l.length).filter fun j => (l[j]?).any p).card := by
  induction l using List.reverseRecOn with
  | nil => rfl
  | append_singleton l a ih =>
      have hbefore : ((Finset.range l.length).filter fun j => ((l ++ [a])[j]?).any p) =
          (Finset.range l.length).filter fun j => (l[j]?).any p := by
        refine Finset.filter_congr ?_
        intro j hj
        rw [List.getElem?_append_left (Finset.mem_range.mp hj)]
      rw [List.countP_append, ih, List.length_append, List.length_singleton,
        Finset.range_add_one, Finset.filter_insert, hbefore]
      by_cases ha : p a
      · simp [ha]
      · simp [ha]

/-- In lists without repetition a value is counted once for each list that has it. -/
theorem count_flatMap_of_nodup [DecidableEq β] {l : List α} {f : α → List β}
    (nodup : ∀ a ∈ l, (f a).Nodup) (b : β) :
    (l.flatMap f).count b = l.countP fun a => decide (b ∈ f a) := by
  induction l with
  | nil => rfl
  | cons a rest ih =>
      have hrest := ih fun a ha => nodup a (List.mem_cons_of_mem _ ha)
      rw [List.flatMap_cons, List.count_append, hrest, List.countP_cons,
        (nodup a List.mem_cons_self).count]
      by_cases h : b ∈ f a
      · simp [h, Nat.add_comm]
      · simp [h]

/-- An entry of an extended list is an old one or the last. -/
theorem getElem?_concat_cases {l : List α} {a b : α} {i : Nat} (h : (l ++ [b])[i]? = some a) :
    l[i]? = some a ∨ (i = l.length ∧ a = b) := by
  rcases Nat.lt_or_ge i l.length with hold | hnew
  · rw [List.getElem?_append_left hold] at h
    exact .inl h
  · obtain ⟨hlength, -⟩ := List.getElem?_eq_some_iff.mp h
    rw [List.length_append, List.length_singleton] at hlength
    have hi : i = l.length := by omega
    subst hi
    rw [List.getElem?_concat_length, Option.some.injEq] at h
    exact .inr ⟨rfl, h.symm⟩

/-- The last separator cuts a list in one way. -/
theorem last_separator_unique {c : α} {x y t u : List α} (ht : c ∉ t) (hu : c ∉ u)
    (h : x ++ c :: t = y ++ c :: u) : x = y ∧ t = u := by
  rcases List.append_eq_append_iff.mp h with ⟨mid, hy, htail⟩ | ⟨mid, hx, htail⟩
  · cases mid with
    | nil => exact ⟨by simpa using hy.symm, by simpa using htail⟩
    | cons d rest =>
        have hmem : c ∈ t := by
          rw [List.cons_append, List.cons.injEq] at htail
          simp [htail.2]
        exact absurd hmem ht
  · cases mid with
    | nil => exact ⟨by simpa using hx, by simpa using htail.symm⟩
    | cons d rest =>
        have hmem : c ∈ u := by
          rw [List.cons_append, List.cons.injEq] at htail
          simp [htail.2]
        exact absurd hmem hu

/-- A fallible map that succeeds has succeeded at every element. -/
theorem forall₂_of_mapM_ok {ε : Type*} {f : α → Except ε β} {l : List α} {l' : List β}
    (h : l.mapM f = .ok l') : List.Forall₂ (fun a b => f a = .ok b) l l' := by
  induction l generalizing l' with
  | nil =>
      cases h
      exact .nil
  | cons a rest ih =>
      rw [List.mapM_cons] at h
      cases ha : f a with
      | error e =>
          rw [ha] at h
          cases h
      | ok b =>
          rw [ha] at h
          cases hrest : rest.mapM f with
          | error e =>
              rw [hrest] at h
              cases h
          | ok bs =>
              rw [hrest] at h
              cases h
              exact .cons ha (ih hrest)

theorem toOption_mapM {ε : Type*} (f : α → Except ε β) (l : List α) :
    (l.mapM f).toOption = l.mapM fun a => (f a).toOption := by
  induction l with
  | nil => rfl
  | cons a rest ih =>
      rw [List.mapM_cons, List.mapM_cons, ← ih]
      cases f a with
      | error e => rfl
      | ok b => cases rest.mapM f <;> rfl

theorem forall₂_of_mapM_some {f : α → Option β} {l : List α} {l' : List β}
    (h : l.mapM f = some l') : List.Forall₂ (fun a b => f a = some b) l l' := by
  induction l generalizing l' with
  | nil =>
      cases h
      exact .nil
  | cons a rest ih =>
      rw [List.mapM_cons] at h
      obtain ⟨b, hb, h⟩ := Option.bind_eq_some_iff.mp h
      obtain ⟨bs, hbs, h⟩ := Option.bind_eq_some_iff.mp h
      cases h
      exact .cons hb (ih hbs)

/-- An entry that occurs once is found where it stands, if it is the first to be found. -/
theorem findIdx?_of_first [DecidableEq α] {q : α → Bool} {p : α} (l : List α)
    (first : l.find? q = some p) (single : l.count p = 1) (i : Nat) :
    l.findIdx? q = some i ↔ l[i]? = some p := by
  have holds : q p = true := List.find?_some first
  induction l generalizing i with
  | nil => cases first
  | cons x rest ih =>
    rw [List.findIdx?_cons]
    by_cases here : q x = true
    · obtain rfl : x = p := by simpa [List.find?_cons, here] using first
      have absent : x ∉ rest := by
        rw [List.count_cons_self] at single
        exact List.count_eq_zero.mp (by omega)
      rw [if_pos here]
      cases i with
      | zero => simp
      | succ i =>
        have later : ¬ rest[i]? = some x := fun found => absent (List.mem_of_getElem? found)
        simpa using later
    · have differs : x ≠ p := fun same => here (same ▸ holds)
      rw [List.find?_cons_of_neg here] at first
      rw [List.count_cons_of_ne differs] at single
      rw [if_neg here]
      cases i with
      | zero => simpa using differs
      | succ i => simpa using ih first single i

/-- Of elements with distinct keys, only one has the key of a given one. -/
theorem filter_eq_singleton_of_nodup [DecidableEq β] {key : α → β} {l : List α} {a : α}
    (nodup : (l.map key).Nodup) (h : a ∈ l) :
    (l.filter fun b => decide (key b = key a)) = [a] := by
  induction l with
  | nil => cases h
  | cons x rest ih =>
    obtain ⟨fresh, hrest⟩ := List.nodup_cons.mp nodup
    rcases List.mem_cons.mp h with rfl | hmem
    · have hnone : (rest.filter fun b => decide (key b = key a)) = [] := by
        rw [List.filter_eq_nil_iff]
        intro b hb hsame
        exact fresh (List.mem_map.mpr ⟨b, hb, of_decide_eq_true hsame⟩)
      simp [hnone]
    · have hdiffers : key x ≠ key a := fun hsame =>
        fresh (List.mem_map.mpr ⟨a, hmem, hsame.symm⟩)
      simp [hdiffers, ih hrest hmem]

/-- The order that a stable sort by a key leaves. -/
def KeyThen {α β : Type} [LinearOrder β] (key : α → β) (R : α → α → Prop) (a b : α) : Prop :=
  key a < key b ∨ (key a = key b ∧ R a b)

theorem pairwise_orderedInsert {α β : Type} [LinearOrder β] (key : α → β) {R : α → α → Prop}
    {a : α} {l : List α} (ha : ∀ b ∈ l, R a b) (hl : l.Pairwise (KeyThen key R)) :
    (l.orderedInsert (fun a b => key a ≤ key b) a).Pairwise (KeyThen key R) := by
  induction l with
  | nil => exact List.pairwise_singleton _ _
  | cons b l ih =>
      obtain ⟨hbl, hl'⟩ := List.pairwise_cons.mp hl
      rw [List.orderedInsert]
      split_ifs with hab
      · refine List.pairwise_cons.mpr ⟨fun c hc => ?_, hl⟩
        have hac : key a ≤ key c := by
          rcases List.mem_cons.mp hc with rfl | hc
          · exact hab
          · rcases hbl c hc with hlt | ⟨heq, -⟩
            · exact hab.trans hlt.le
            · exact hab.trans heq.le
        rcases hac.lt_or_eq with hlt | heq
        · exact Or.inl hlt
        · exact Or.inr ⟨heq, ha c hc⟩
      · refine List.pairwise_cons.mpr
          ⟨fun c hc => ?_, ih (fun c hc => ha c (List.mem_cons_of_mem _ hc)) hl'⟩
        rcases (List.mem_orderedInsert _).mp hc with rfl | hc
        · exact Or.inl (not_le.mp hab)
        · exact hbl c hc

/-- Insertion sort by a key keeps the order of elements with equal keys. -/
theorem pairwise_insertionSort_stable {α β : Type} [LinearOrder β] (key : α → β)
    {R : α → α → Prop} {l : List α} (h : l.Pairwise R) :
    (l.insertionSort fun a b => key a ≤ key b).Pairwise (KeyThen key R) := by
  induction l with
  | nil => exact List.Pairwise.nil
  | cons a l ih =>
      obtain ⟨ha, hl⟩ := List.pairwise_cons.mp h
      exact pairwise_orderedInsert key
        (fun b hb => ha b ((List.mem_insertionSort _).mp hb)) (ih hl)

/-- Replacing the first element for which there is something else, when there is no second
one. -/
theorem replaceF_eq_map {α : Type} {f : α → Option α} {l : List α}
    (h : l.Pairwise fun a b => f a = none ∨ f b = none) :
    l.replaceF f = l.map fun a => (f a).getD a := by
  induction l with
  | nil => rfl
  | cons a l ih =>
      obtain ⟨ha, hl⟩ := List.pairwise_cons.mp h
      cases hfa : f a with
      | none =>
          rw [List.replaceF_cons_of_none f hfa, ih hl, List.map_cons, hfa]
          rfl
      | some a' =>
          have hrest : l.map (fun b => (f b).getD b) = l := by
            refine (List.map_congr_left fun b hb => ?_).trans (List.map_id l)
            rw [(ha b hb).resolve_left (by simp [hfa])]
            rfl
          rw [List.replaceF_cons_of_some f hfa, List.map_cons, hfa, hrest]
          rfl

/-- A fold that treats every position by itself, seen at one position. -/
theorem getElem?_foldl_pointwise {σ : Type*} {step : List σ → β → List σ} {update : β → σ → σ}
    {i : Nat} (h : ∀ l b, (step l b)[i]? = l[i]?.map (update b)) (bs : List β) (l : List σ) :
    (bs.foldl step l)[i]? = l[i]?.map fun s => bs.foldl (fun s b => update b s) s := by
  induction bs generalizing l with
  | nil => simp
  | cons b bs ih =>
      rw [List.foldl_cons, ih, h, Option.map_map]
      rfl

theorem length_foldl_of_step {σ : Type*} {step : List σ → β → List σ}
    (h : ∀ l b, (step l b).length = l.length) (bs : List β) (l : List σ) :
    (bs.foldl step l).length = l.length := by
  induction bs generalizing l with
  | nil => rfl
  | cons b bs ih => rw [List.foldl_cons, ih, h]

theorem foldl_or_filterMap (f : β → Option α) (p : α → Bool) (bs : List β) (v : Bool) :
    bs.foldl (fun v b => v || (f b).any p) v = (v || (bs.filterMap f).any p) := by
  induction bs generalizing v with
  | nil => simp
  | cons b bs ih =>
      rw [List.foldl_cons, ih, List.filterMap_cons]
      cases f b with
      | none => simp
      | some a => simp [Bool.or_assoc]

/-- A fold that overwrites keeps what came last. -/
theorem foldl_overwrite {σ : Type*} (f : β → Option α) (g : α → σ) (bs : List β) (r : σ) :
    bs.foldl (fun r b => ((f b).map g).getD r) r = ((bs.filterMap f).getLast?.map g).getD r := by
  induction bs generalizing r with
  | nil => simp
  | cons b bs ih =>
      rw [List.foldl_cons, ih, List.filterMap_cons]
      cases f b with
      | none => rfl
      | some a =>
          rw [List.getLast?_cons]
          cases (bs.filterMap f).getLast? <;> rfl

/-- Where its first element does not occur, no occurrence of a list starts. -/
theorem infix_behind {a : α} {s x y : List α} (h : a ∉ x) (hs : a :: s <:+: x ++ y) :
    a :: s <:+: y := by
  induction x with
  | nil => exact hs
  | cons b x ih =>
      obtain ⟨hb, hx⟩ := List.ne_and_not_mem_of_not_mem_cons h
      rw [List.cons_append] at hs
      rcases List.infix_cons_iff.mp hs with hstart | hlater
      · exact absurd (List.cons_prefix_cons.mp hstart).1 hb
      · exact ih hx hlater

/-- An element that a list does not have is not in front of its end. -/
theorem prefix_front {c : α} {s x y : List α} (h : c ∉ s) (hs : s <+: x ++ c :: y) : s <+: x := by
  rcases List.prefix_or_prefix_of_prefix hs (List.prefix_append x (c :: y)) with hle | hge
  · exact hle
  · obtain ⟨t, rfl⟩ := hge
    cases t with
    | nil => simp
    | cons d t =>
        have hd : d :: t <+: c :: y := (List.prefix_append_right_inj x).mp hs
        obtain rfl := (List.cons_prefix_cons.mp hd).1
        exact absurd (by simp) h

/-- Nor is it inside an occurrence. -/
theorem infix_sides {c : α} {s x y : List α} (h : c ∉ s) (hs : s <:+: x ++ c :: y) :
    s <:+: x ∨ s <:+: y := by
  induction x with
  | nil =>
      rcases List.infix_cons_iff.mp hs with hstart | hlater
      · have hnil : s <+: [] := prefix_front h hstart
        rw [List.prefix_nil] at hnil
        exact Or.inl (hnil ▸ List.infix_rfl)
      · exact Or.inr hlater
  | cons b x ih =>
      rw [List.cons_append] at hs
      rcases List.infix_cons_iff.mp hs with hstart | hlater
      · rw [← List.cons_append] at hstart
        exact Or.inl (prefix_front h hstart).isInfix
      · exact (ih hlater).imp_left fun hx => hx.trans (List.suffix_cons b x).isInfix

/-- The last element that passes a filter, when nothing behind it does. -/
theorem getLast?_filter_split {α : Type} {p : α → Bool} {l : List α} {a : α} (front back : List α)
    (hsplit : l = front ++ a :: back) (ha : p a = true) (hback : back.filter p = []) :
    (l.filter p).getLast? = some a := by
  rw [hsplit, List.filter_append, List.filter_cons_of_pos ha, hback]
  simp

end ControlPlane.Lib

/-!
## Interleavings of programs

A run interleaves a list of programs if it takes their actions one at a time, those of each
program in order, until nothing is left. Whatever the order, a run is a permutation of all
the actions. One of several non-empty programs makes up the whole run only if it is the
only one.
-/
namespace ControlPlane.Lib

variable {α : Type}

inductive Interleaves : List (List α) → List α → Prop where
  | done {programs : List (List α)} (finished : ∀ program ∈ programs, program = []) :
      Interleaves programs []
  | next {before after : List (List α)} {a : α} {rest run : List α}
      (tail : Interleaves (before ++ rest :: after) run) :
      Interleaves (before ++ (a :: rest) :: after) (a :: run)

namespace Interleaves

theorem perm {programs : List (List α)} {run : List α} (h : Interleaves programs run) :
    run.Perm programs.flatten := by
  induction h with
  | done finished => rw [List.flatten_eq_nil_iff.mpr finished]
  | @next before after a rest run tail ih =>
      have hfront : ((before ++ rest :: after).flatten).Perm
          (before.flatten ++ (rest ++ after.flatten)) := by
        rw [List.flatten_append, List.flatten_cons]
      rw [List.flatten_append, List.flatten_cons, List.cons_append]
      exact ((ih.trans hfront).cons a).trans List.perm_middle.symm

/-- The programs one after the other. -/
theorem sequential (programs : List (List α)) : Interleaves programs programs.flatten := by
  have hgen : ∀ done programs : List (List α), (∀ p ∈ done, p = []) →
      Interleaves (done ++ programs) programs.flatten := by
    intro done programs
    induction programs generalizing done with
    | nil =>
        intro hdone
        exact .done (by simpa using hdone)
    | cons program programs ih =>
        intro hdone
        rw [List.flatten_cons]
        induction program with
        | nil =>
            have hshift := ih (done ++ [[]]) (by
              intro p hp
              rcases List.mem_append.mp hp with hp | hp
              · exact hdone p hp
              · exact List.mem_singleton.mp hp)
            simpa using hshift
        | cons a rest ihRest => exact .next ihRest
  exact hgen [] programs (by simp)

end Interleaves

/-- A set of positions has as many elements as its filter keeps. -/
theorem ncard_eq_length_filter {n : ℕ} {s : Set (Fin n)} {keep : Fin n → Bool}
    (h : ∀ i, i ∈ s ↔ keep i = true) : s.ncard = ((List.finRange n).filter keep).length := by
  have hset : s = (((List.finRange n).filter keep).toFinset : Set (Fin n)) := by
    ext i
    rw [h, Finset.mem_coe, List.mem_toFinset, List.mem_filter]
    exact ⟨fun hi => ⟨List.mem_finRange i, hi⟩, And.right⟩
  rw [hset, Set.ncard_coe_finset, List.toFinset_card_of_nodup]
  exact (List.nodup_finRange n).filter _

/-- One of several non-empty lists is as long as all of them only on its own. -/
theorem length_flatten_eq_iff {l : List (List α)} {x : List α} (hx : x ∈ l)
    (nonempty : ∀ y ∈ l, y ≠ []) : l.flatten.length = x.length ↔ l.length ≤ 1 := by
  obtain ⟨before, after, rfl⟩ := List.append_of_mem hx
  constructor
  · intro h
    have hothers : before.flatten ++ after.flatten = [] := by
      apply List.eq_nil_of_length_eq_zero
      simp only [List.flatten_append, List.flatten_cons, List.length_append] at h ⊢
      omega
    obtain ⟨hbefore, hafter⟩ := List.append_eq_nil_iff.mp hothers
    have hnone : ∀ side : List (List α), (∀ y ∈ side, y ∈ before ++ x :: after) →
        side.flatten = [] → side = [] := by
      intro side hside hflat
      cases side with
      | nil => rfl
      | cons y side =>
          have hy := List.flatten_eq_nil_iff.mp hflat y List.mem_cons_self
          exact absurd hy (nonempty y (hside y List.mem_cons_self))
    rw [hnone before (fun y hy => List.mem_append_left _ hy) hbefore,
      hnone after (fun y hy => List.mem_append_right _ (List.mem_cons_of_mem x hy)) hafter]
    exact Nat.le_refl 1
  · intro h
    simp only [List.length_append, List.length_cons] at h
    have hbefore : before = [] := List.length_eq_zero_iff.mp (by omega)
    have hafter : after = [] := List.length_eq_zero_iff.mp (by omega)
    simp [hbefore, hafter]

end ControlPlane.Lib

/-!
# Order statistics

The entry at an index of a sorted list is at least `v` exactly if no more entries than the
index are below `v`. What is below an entry does not change when the entry itself is taken
out, so that an entry is compared with the others as it is with all.
-/
namespace ControlPlane.Lib

variable {α : Type} [LinearOrder α]

/-- How many entries are below `v`. -/
def below (l : List α) (v : α) : ℕ := l.countP fun x => decide (x < v)

def sorted (l : List α) : List α := l.insertionSort (· ≤ ·)

theorem sorted_perm (l : List α) : (sorted l).Perm l := List.perm_insertionSort (· ≤ ·) l

theorem length_sorted (l : List α) : (sorted l).length = l.length := (sorted_perm l).length_eq

theorem sorted_pairwise (l : List α) : (sorted l).Pairwise (· ≤ ·) :=
  List.pairwise_insertionSort (· ≤ ·) l

theorem below_of_perm {l l' : List α} (h : l.Perm l') (v : α) : below l v = below l' v :=
  h.countP_eq _

theorem below_le_iff {s : List α} (hs : s.Pairwise (· ≤ ·)) {k : ℕ} {z : α} (hz : s[k]? = some z)
    (v : α) : below s v ≤ k ↔ v ≤ z := by
  induction s generalizing k with
  | nil => simp at hz
  | cons a rest ih =>
      obtain ⟨hhead, hrest⟩ := List.pairwise_cons.mp hs
      by_cases ha : a < v
      · have hcount : below (a :: rest) v = below rest v + 1 := by simp [below, ha]
        rw [hcount]
        cases k with
        | zero =>
            rw [List.getElem?_cons_zero, Option.some_inj] at hz
            rw [← hz]
            constructor
            · intro h
              omega
            · intro h
              exact absurd ha (not_lt.mpr h)
        | succ k =>
            rw [List.getElem?_cons_succ] at hz
            rw [Nat.add_le_add_iff_right, ih hrest hz]
      · have hle : ∀ x ∈ a :: rest, v ≤ x := by
          intro x hx
          rcases List.mem_cons.mp hx with rfl | hx
          · exact not_lt.mp ha
          · exact (not_lt.mp ha).trans (hhead x hx)
        have hnone : below (a :: rest) v = 0 :=
          List.countP_eq_zero.mpr fun x hx => by simpa using hle x hx
        have hmem : z ∈ a :: rest := List.mem_of_getElem? hz
        rw [hnone]
        exact iff_of_true (Nat.zero_le k) (hle z hmem)

theorem below_le_iff_sorted {l : List α} {k : ℕ} {z : α} (hz : (sorted l)[k]? = some z) (v : α) :
    below l v ≤ k ↔ v ≤ z := by
  rw [← below_of_perm (sorted_perm l) v]
  exact below_le_iff (sorted_pairwise l) hz v

theorem below_eraseIdx {l : List α} {i : ℕ} {v : α} (h : l[i]? = some v) :
    below (l.eraseIdx i) v = below l v := by
  obtain ⟨hi, hv⟩ := List.getElem?_eq_some_iff.mp h
  have hperm := List.getElem_cons_eraseIdx_perm hi
  rw [hv] at hperm
  rw [← below_of_perm hperm v]
  simp [below]

/-- An entry taken out reaches a place among the others exactly if it reaches it among all. -/
theorem le_sorted_eraseIdx_iff {l : List α} {i k : ℕ} {v y z : α} (h : l[i]? = some v)
    (hy : (sorted (l.eraseIdx i))[k]? = some y) (hz : (sorted l)[k]? = some z) :
    v ≤ y ↔ v ≤ z := by
  rw [← below_le_iff_sorted hy, ← below_le_iff_sorted hz, below_eraseIdx h]

/-- More entries are at most the one at an index than the index says. -/
theorem lt_countP_le {l : List α} {k : ℕ} {z : α} (hz : (sorted l)[k]? = some z) :
    k < l.countP fun x => decide (x ≤ z) := by
  obtain ⟨hk, hget⟩ := List.getElem?_eq_some_iff.mp hz
  have hprefix : ∀ x ∈ (sorted l).take (k + 1), decide (x ≤ z) = true := by
    intro x hx
    obtain ⟨j, hj, hx⟩ := List.mem_iff_getElem.mp hx
    rw [List.length_take] at hj
    rw [List.getElem_take] at hx
    rw [← hx, ← hget, decide_eq_true_eq]
    rcases Nat.lt_or_ge j k with hlt | hge
    · exact List.pairwise_iff_getElem.mp (sorted_pairwise l) j k (by omega) hk hlt
    · have heq : j = k := by omega
      simp [heq]
  have hcount := List.countP_eq_length.mpr hprefix
  have hle : ((sorted l).take (k + 1)).countP (fun x => decide (x ≤ z)) ≤
      (sorted l).countP fun x => decide (x ≤ z) := (List.take_sublist _ _).countP_le
  rw [List.length_take] at hcount
  rw [← (sorted_perm l).countP_eq]
  omega

end ControlPlane.Lib
