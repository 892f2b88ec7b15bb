import Mathlib.Data.Fintype.Card
import Mathlib.Logic.Relation

/-!
# Layers of a dependency relation

`r a b` reads "`a` depends on `b`". `Settled ok r w a` says that `a` can be done
within `w` rounds, each of which does everything whose dependencies are done; `ok`
marks what can be done at all. Where all is ok, being settled within `w` rounds is
having no chain of `w` dependencies. A stable round settles everything exactly when
all is ok and the relation has no cycle.
-/
namespace ControlPlane.Lib

variable {α β : Type*} {ok : α → Prop} {r : α → α → Prop}

def Acyclic (r : α → α → Prop) : Prop := ∀ a, ¬ Relation.TransGen r a a

def Settled (ok : α → Prop) (r : α → α → Prop) : ℕ → α → Prop
  | 0, _ => False
  | w + 1, a => ok a ∧ ∀ b, r a b → Settled ok r w b

/-- A chain of `k` dependencies that starts at `a`. -/
def Chain (r : α → α → Prop) : ℕ → α → Prop
  | 0, _ => True
  | k + 1, a => ∃ b, r a b ∧ Chain r k b

/-! ## Rounds -/

theorem Settled.succ {w : ℕ} {a : α} (h : Settled ok r w a) : Settled ok r (w + 1) a := by
  induction w generalizing a with
  | zero => exact h.elim
  | succ w ih => exact ⟨h.1, fun b hb => ih (h.2 b hb)⟩

theorem Settled.mono {w v : ℕ} (hle : w ≤ v) {a : α} (h : Settled ok r w a) :
    Settled ok r v a := by
  induction hle with
  | refl => exact h
  | step _ ih => exact ih.succ

/-- A round that settles nothing new is the last one. -/
theorem Settled.of_stable {w : ℕ} (stable : ∀ a, Settled ok r (w + 1) a → Settled ok r w a)
    (wf : WellFounded (flip r)) (all : ∀ a, ok a) (a : α) : Settled ok r w a := by
  induction a using wf.induction with
  | _ a ih => exact stable a ⟨all a, fun b hb => ih b hb⟩

theorem Settled.doable {w : ℕ} {a : α} (h : Settled ok r w a) : ok a := by
  cases w with
  | zero => exact h.elim
  | succ w => exact h.1

theorem Settled.acc {w : ℕ} {a : α} (h : Settled ok r w a) : Acc (flip r) a := by
  induction w generalizing a with
  | zero => exact h.elim
  | succ w ih => exact ⟨a, fun b hb => ih (h.2 b hb)⟩

/-! ## Chains -/

theorem settled_iff_not_chain (all : ∀ a, ok a) (w : ℕ) (a : α) :
    Settled ok r w a ↔ ¬ Chain r w a := by
  induction w generalizing a with
  | zero => simp [Settled, Chain]
  | succ w ih =>
      constructor
      · rintro ⟨-, hdeps⟩ ⟨b, hb, hchain⟩
        exact (ih b).mp (hdeps b hb) hchain
      · intro hnone
        refine ⟨all a, ?_⟩
        intro b hb
        exact (ih b).mpr (fun hchain => hnone ⟨b, hb, hchain⟩)

theorem Chain.of_succ {k : ℕ} {a : α} (h : Chain r (k + 1) a) : Chain r k a := by
  induction k generalizing a with
  | zero => trivial
  | succ k ih =>
      obtain ⟨b, hb, hchain⟩ := h
      exact ⟨b, hb, ih hchain⟩

theorem Chain.of_le {k l : ℕ} (hle : k ≤ l) {a : α} (h : Chain r l a) : Chain r k a := by
  induction hle with
  | refl => exact h
  | step _ ih => exact ih h.of_succ

/-- The first round that settles `a` is the length of its longest chain. -/
theorem longest_chain_of_layer (all : ∀ a, ok a) {w : ℕ} {a : α} (h : Settled ok r (w + 1) a)
    (hfirst : ¬ Settled ok r w a) : Chain r w a ∧ ∀ k, Chain r k a → k ≤ w := by
  rw [settled_iff_not_chain all] at h hfirst
  refine ⟨not_not.mp hfirst, ?_⟩
  intro k hchain
  by_contra hlong
  exact h (hchain.of_le (by omega))

/-! ## Cycles -/

theorem acyclic_of_acc (h : ∀ a, Acc (flip r) a) : Acyclic r := by
  intro a hcycle
  have hwf : WellFounded (Relation.TransGen (flip r)) := WellFounded.transGen ⟨h⟩
  have hswap : Relation.TransGen (flip r) a a := Relation.transGen_swap.mpr hcycle
  exact hwf.asymmetric a a hswap hswap

theorem Acyclic.wellFounded [Finite α] (acyclic : Acyclic r) : WellFounded (flip r) := by
  have hirrefl : Std.Irrefl (Relation.TransGen (flip r)) :=
    ⟨fun a h => acyclic a (Relation.transGen_swap.mp h)⟩
  have hwf : WellFounded (Relation.TransGen (flip r)) :=
    Finite.wellFounded_of_trans_of_irrefl _
  exact Subrelation.wf Relation.TransGen.single hwf

/-- At a stable round, everything is settled exactly when all is ok and there is no cycle. -/
theorem all_settled_iff [Finite α] {w : ℕ}
    (stable : ∀ a, Settled ok r (w + 1) a → Settled ok r w a) :
    (∀ a, Settled ok r w a) ↔ (∀ a, ok a) ∧ Acyclic r := by
  constructor
  · intro all
    exact ⟨fun a => (all a).doable, acyclic_of_acc fun a => (all a).acc⟩
  · rintro ⟨all, acyclic⟩ a
    exact Settled.of_stable stable acyclic.wellFounded all a

/-! ## Renaming -/

section Renaming

variable {s : β → β → Prop} (name : α → β)

/-- A renaming that reflects single dependencies on named elements and whose image holds
every element with a dependency has the same cycles. -/
theorem acyclic_iff_of_renaming (hedge : ∀ a b, r a b ↔ s (name a) (name b))
    (hsource : ∀ x y, s x y → ∃ a, name a = x) : Acyclic r ↔ Acyclic s := by
  constructor
  · intro acyclic x hcycle
    have hlift : ∀ y, Relation.TransGen s x y → ∀ a b, name a = x → name b = y →
        Relation.TransGen r a b := by
      intro y hpath
      induction hpath with
      | single h =>
          rintro a b rfl rfl
          exact .single ((hedge a b).mpr h)
      | tail _ hlast ih =>
          rintro a b rfl rfl
          obtain ⟨c, rfl⟩ := hsource _ _ hlast
          exact .tail (ih a c rfl rfl) ((hedge c b).mpr hlast)
    obtain ⟨a, rfl⟩ : ∃ a, name a = x := by
      cases hcycle with
      | single h => exact hsource _ _ h
      | tail hpath _ =>
          obtain ⟨y, hy, -⟩ := Relation.TransGen.head'_iff.mp hpath
          exact hsource _ _ hy
    exact acyclic a (hlift _ hcycle a a rfl rfl)
  · intro acyclic a hcycle
    exact acyclic (name a) (hcycle.lift name fun a b => (hedge a b).mp)

theorem chain_iff_of_renaming (hedge : ∀ a b, r a b ↔ s (name a) (name b))
    (htarget : ∀ x y, s x y → ∃ b, name b = y) (k : ℕ) (a : α) :
    Chain r k a ↔ Chain s k (name a) := by
  induction k generalizing a with
  | zero => simp [Chain]
  | succ k ih =>
      constructor
      · rintro ⟨b, hb, hchain⟩
        exact ⟨name b, (hedge a b).mp hb, (ih b).mp hchain⟩
      · rintro ⟨y, hy, hchain⟩
        obtain ⟨b, rfl⟩ := htarget _ _ hy
        exact ⟨b, (hedge a b).mpr hy, (ih b).mpr hchain⟩

end Renaming

end ControlPlane.Lib
