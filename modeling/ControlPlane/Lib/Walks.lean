import Mathlib.Data.List.Sort

/-!
# Walks over a hash map

A hash map promises no order in which it is walked: a walk may be any rearrangement of the
entries. What is made of a walk is blind to the order when all rearrangements lead to the
same result. The rules below say when the usual uses of a walk are: a map over the entries,
the first hit, a filter, and a stable sort whose entries are then written out.
-/
namespace ControlPlane.Lib

variable {α β γ : Type}

/-- An order of iteration, for any entries. -/
structure Walk (α : Type) where
  run : List α → List α
  perm : ∀ entries, (run entries).Perm entries

namespace Walk

def stored : Walk α := ⟨fun entries => entries, fun _ => .refl _⟩

def backwards : Walk α := ⟨List.reverse, List.reverse_perm⟩

end Walk

/-- Any rearrangement of the entries is their walk in some order. -/
theorem exists_walk {l l' : List α} (h : l'.Perm l) : ∃ w : Walk α, w.run l = l' := by
  classical
  refine ⟨⟨fun entries => if l'.Perm entries then l' else entries, ?_⟩, if_pos h⟩
  intro entries
  split
  next hperm => exact hperm
  next => exact .refl _

/-- Any two entries can be met first. -/
theorem exists_perm_cons_cons {l : List α} {a b : α} (ha : a ∈ l) (hb : b ∈ l) (hne : a ≠ b) :
    ∃ rest, (a :: b :: rest).Perm l := by
  obtain ⟨p, q, rfl⟩ := List.append_of_mem ha
  have hb' : b ∈ p ++ q := by
    rcases List.mem_append.mp hb with hp | hq
    · exact List.mem_append_left q hp
    · exact List.mem_append_right p (List.mem_of_ne_of_mem hne.symm hq)
  obtain ⟨p', q', hsplit⟩ := List.append_of_mem hb'
  refine ⟨p' ++ q', ?_⟩
  calc (a :: b :: (p' ++ q')).Perm (a :: (p' ++ b :: q')) :=
        List.perm_middle.symm.cons a
    _ = a :: (p ++ q) := by rw [hsplit]
    List.Perm _ (p ++ a :: q) := List.perm_middle.symm

theorem length_le_one_iff {l : List α} (nodup : l.Nodup) :
    l.length ≤ 1 ↔ ∀ a ∈ l, ∀ b ∈ l, a = b := by
  match l with
  | [] => simp
  | [x] => simp
  | x :: y :: rest =>
      constructor
      · intro h
        simp at h
      · intro h
        have heq : x = y := h x (by simp) y (by simp)
        subst heq
        simp at nodup

/-! ## Order blindness -/

/-- All orders of iteration over `l` lead to the same result. -/
def OrderBlind (g : List α → β) (l : List α) : Prop :=
  ∀ w w' : Walk α, g (w.run l) = g (w'.run l)

theorem orderBlind_iff {g : List α → β} {l : List α} :
    OrderBlind g l ↔ ∀ l' : List α, l'.Perm l → g l' = g l := by
  constructor
  · intro h l' hperm
    obtain ⟨w, rfl⟩ := exists_walk hperm
    exact h w .stored
  · intro h w w'
    rw [h _ (w.perm l), h _ (w'.perm l)]

theorem orderBlind_congr {g g' : List α → β} {l : List α}
    (h : ∀ l' : List α, l'.Perm l → g l' = g' l') : OrderBlind g l ↔ OrderBlind g' l := by
  unfold OrderBlind
  simp only [h _ (Walk.perm _ l)]

/-- What tells all results apart neither adds nor removes a dependence on the order. -/
theorem orderBlind_comp {h : β → γ} (inj : h.Injective) {g : List α → β} {l : List α} :
    OrderBlind (fun entries => h (g entries)) l ↔ OrderBlind g l := by
  simp only [OrderBlind, inj.eq_iff]

/-- No two entries, no order. -/
theorem orderBlind_of_length_le_one {l : List α} (h : l.length ≤ 1) (g : List α → β) :
    OrderBlind g l := by
  rw [orderBlind_iff]
  intro l' hperm
  match l, h with
  | [], _ => rw [hperm.eq_nil]
  | [a], _ => rw [List.perm_singleton.mp hperm]

theorem orderBlind_map_iff {f : α → β} {l : List α} (nodup : l.Nodup)
    (inj : ∀ a ∈ l, ∀ b ∈ l, f a = f b → a = b) :
    OrderBlind (List.map f) l ↔ l.length ≤ 1 := by
  refine ⟨?_, fun h => orderBlind_of_length_le_one h _⟩
  rw [orderBlind_iff]
  intro h
  match l with
  | [] => exact Nat.zero_le 1
  | [a] => exact le_rfl
  | a :: b :: rest =>
      have hheads : f b = f a := (List.cons.inj (h _ (.swap a b rest))).1
      have heq : b = a := inj b (by simp) a (by simp) hheads
      subst heq
      simp at nodup

theorem orderBlind_filter_iff {g : List α → β} {keep : α → Bool} {l : List α} :
    OrderBlind (fun entries => g (entries.filter keep)) l ↔ OrderBlind g (l.filter keep) := by
  rw [orderBlind_iff, orderBlind_iff]
  constructor
  · intro h kept hperm
    -- the entries that are dropped are walked after the others
    have hall : (kept ++ l.filter fun a => !keep a).Perm l :=
      (hperm.append_right _).trans (List.filter_append_perm keep l)
    have hkept : (kept ++ l.filter fun a => !keep a).filter keep = kept := by
      have hin : kept.filter keep = kept := by
        rw [List.filter_eq_self]
        intro a ha
        exact (List.mem_filter.mp (hperm.mem_iff.mp ha)).2
      have hout : (l.filter fun a => !keep a).filter keep = [] := by
        simp
      rw [List.filter_append, hin, hout, List.append_nil]
    rw [← h _ hall, hkept]
  · intro h l' hperm
    exact h _ (hperm.filter keep)

/-- Every hit can be the first one. -/
theorem exists_walk_findSome? {f : α → Option β} {l : List α} {a : α} {b : β} (ha : a ∈ l)
    (hit : f a = some b) : ∃ w : Walk α, (w.run l).findSome? f = some b := by
  obtain ⟨p, q, rfl⟩ := List.append_of_mem ha
  have hfirst : (a :: (p ++ q)).Perm (p ++ a :: q) := List.perm_middle.symm
  obtain ⟨w, hw⟩ := exists_walk hfirst
  refine ⟨w, ?_⟩
  rw [hw, List.findSome?_cons, hit]

/-! ## Sorting before writing -/

section Sorting

variable {κ : Type} [LinearOrder κ] {key : α → κ} {f : α → List β}

/-- What commutes with every part of a text commutes with the text. -/
theorem flatMap_append_comm {p : List α} {e : α} (h : ∀ a ∈ p, f a ++ f e = f e ++ f a) :
    p.flatMap f ++ f e = f e ++ p.flatMap f := by
  induction p with
  | nil => simp
  | cons a rest ih =>
      have hrest := ih fun b hb => h b (List.mem_cons_of_mem a hb)
      calc (a :: rest).flatMap f ++ f e = f a ++ (rest.flatMap f ++ f e) := by
            rw [List.flatMap_cons, List.append_assoc]
        _ = (f a ++ f e) ++ rest.flatMap f := by rw [hrest, List.append_assoc]
        _ = f e ++ (a :: rest).flatMap f := by
            rw [h a List.mem_cons_self, List.append_assoc, List.flatMap_cons]

/-- Two sorted arrangements of the same entries read the same when ties commute. -/
theorem flatMap_eq_of_sorted {s t : List α} (hs : s.Pairwise fun a b => key b ≤ key a)
    (ht : t.Pairwise fun a b => key b ≤ key a) (hperm : s.Perm t)
    (ties : ∀ a ∈ s, ∀ b ∈ s, key a = key b → f a ++ f b = f b ++ f a) :
    s.flatMap f = t.flatMap f := by
  induction s generalizing t with
  | nil => rw [hperm.nil_eq]
  | cons e rest ih =>
      obtain ⟨p, q, rfl⟩ := List.append_of_mem (hperm.mem_iff.mp List.mem_cons_self)
      have hrest : rest.Perm (p ++ q) := (hperm.trans List.perm_middle).cons_inv
      -- what the second arrangement has in front of `e` is tied with it
      have htied : ∀ a ∈ p, key a = key e := by
        intro a ha
        apply le_antisymm
        · have hmem : a ∈ rest := hrest.mem_iff.mpr (List.mem_append_left q ha)
          exact List.rel_of_pairwise_cons hs hmem
        · exact (List.pairwise_append.mp ht).2.2 a ha e List.mem_cons_self
      have hcommute : p.flatMap f ++ f e = f e ++ p.flatMap f := by
        apply flatMap_append_comm
        intro a ha
        have hmem : a ∈ rest := hrest.mem_iff.mpr (List.mem_append_left q ha)
        exact ties a (List.mem_cons_of_mem e hmem) e List.mem_cons_self (htied a ha)
      have hsorted : (p ++ q).Pairwise fun a b => key b ≤ key a :=
        ht.sublist ((List.sublist_cons_self e q).append_left p)
      have htail : rest.flatMap f = (p ++ q).flatMap f := by
        apply ih (List.pairwise_cons.mp hs).2 hsorted hrest
        intro a ha b hb
        exact ties a (List.mem_cons_of_mem e ha) b (List.mem_cons_of_mem e hb)
      calc (e :: rest).flatMap f = f e ++ (p ++ q).flatMap f := by
            rw [List.flatMap_cons, htail]
        _ = (p.flatMap f ++ f e) ++ q.flatMap f := by
            rw [List.flatMap_append, hcommute, List.append_assoc]
        _ = (p ++ e :: q).flatMap f := by
            rw [List.flatMap_append, List.flatMap_cons, List.append_assoc]

/-- Descending by key; the sort is stable. -/
def sortDescending (key : α → κ) (l : List α) : List α :=
  l.insertionSort fun a b => key b ≤ key a

theorem sortDescending_perm (l : List α) : (sortDescending key l).Perm l :=
  List.perm_insertionSort _ l

theorem sortDescending_sorted (l : List α) :
    (sortDescending key l).Pairwise fun a b => key b ≤ key a := by
  have : Std.Total fun a b : α => key b ≤ key a := ⟨fun a b => le_total (key b) (key a)⟩
  have : IsTrans α fun a b : α => key b ≤ key a := ⟨fun _ _ _ h h' => h'.trans h⟩
  exact List.pairwise_insertionSort _ l

/-- Two tied entries that are inserted last stand next to each other, as they were met. -/
theorem orderedInsert_tied {a b : α} (h : key a = key b) (l : List α) :
    ∃ p q,
      (l.orderedInsert (fun x y => key y ≤ key x) b).orderedInsert (fun x y => key y ≤ key x) a =
        p ++ a :: b :: q ∧
      (l.orderedInsert (fun x y => key y ≤ key x) a).orderedInsert (fun x y => key y ≤ key x) b =
        p ++ b :: a :: q := by
  induction l with
  | nil => exact ⟨[], [], by simp [h], by simp [h]⟩
  | cons e rest ih =>
      by_cases hle : key e ≤ key b
      · exact ⟨[], e :: rest, by simp [h, hle], by simp [h, hle]⟩
      · obtain ⟨p, q, hab, hba⟩ := ih
        refine ⟨e :: p, q, ?_, ?_⟩
        · simp only [List.orderedInsert_cons, h, hle, ↓reduceIte, hab, List.cons_append]
        · simp only [List.orderedInsert_cons, h, hle, ↓reduceIte, hba, List.cons_append]

/-- A sorted text is blind to the order exactly when tied parts commute. -/
theorem orderBlind_sorted_iff {l : List α} :
    OrderBlind (fun entries => (sortDescending key entries).flatMap f) l ↔
      ∀ a ∈ l, ∀ b ∈ l, key a = key b → f a ++ f b = f b ++ f a := by
  rw [orderBlind_iff]
  constructor
  · intro h a ha b hb htied
    by_cases hne : a = b
    · rw [hne]
    · obtain ⟨rest, hfirst⟩ := exists_perm_cons_cons ha hb hne
      have hsecond : (b :: a :: rest).Perm l := (List.Perm.swap a b rest).trans hfirst
      have htexts := (h _ hfirst).trans (h _ hsecond).symm
      obtain ⟨p, q, hab, hba⟩ := orderedInsert_tied htied (sortDescending key rest)
      have hfront : sortDescending key (a :: b :: rest) = p ++ a :: b :: q := hab
      have hback : sortDescending key (b :: a :: rest) = p ++ b :: a :: q := hba
      rw [hfront, hback, List.flatMap_append, List.flatMap_append,
        List.append_cancel_left_eq, List.flatMap_cons, List.flatMap_cons, List.flatMap_cons,
        List.flatMap_cons, ← List.append_assoc, ← List.append_assoc,
        List.append_cancel_right_eq] at htexts
      exact htexts
  · intro ties l' hperm
    have hsorts : (sortDescending key l').Perm (sortDescending key l) :=
      ((sortDescending_perm l').trans hperm).trans (sortDescending_perm l).symm
    apply flatMap_eq_of_sorted (sortDescending_sorted l') (sortDescending_sorted l) hsorts
    have hmem : ∀ a ∈ sortDescending key l', a ∈ l := fun a ha =>
      hperm.mem_iff.mp ((sortDescending_perm l').mem_iff.mp ha)
    intro a ha b hb
    exact ties a (hmem a ha) b (hmem b hb)

end Sorting

end ControlPlane.Lib
