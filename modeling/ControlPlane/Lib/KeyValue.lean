import Mathlib.Data.List.Basic
import Mathlib.Logic.Function.Basic

/-!
# A key-value bucket with revisions

A bucket numbers its writes. Every key carries the number of its last write as
its revision (0 for a key that was never written) and a value, unless it is
absent or deleted. A delete is a write too: it leaves a marker with a revision
of its own. `update` is the compare-and-swap on the revision, `create` the
write that needs a free key.
-/
namespace ControlPlane.Lib

structure Slot (ν : Type) where
  revision : Nat
  value : Option ν

structure Bucket (κ ν : Type) where
  seq : Nat
  slots : κ → Slot ν
  numbered : ∀ key, (slots key).revision ≤ seq

namespace Bucket

variable {κ ν : Type}

def empty : Bucket κ ν := ⟨0, fun _ => ⟨0, none⟩, fun _ => Nat.le_refl 0⟩

variable [DecidableEq κ]

def write (b : Bucket κ ν) (key : κ) (value : Option ν) : Bucket κ ν where
  seq := b.seq + 1
  slots := Function.update b.slots key ⟨b.seq + 1, value⟩
  numbered := by
    intro other
    have := b.numbered other
    by_cases h : other = key
    · simp [h]
    · simp only [Function.update_of_ne h]
      omega

/-- The new bucket and the revision of the write. -/
def put (b : Bucket κ ν) (key : κ) (value : ν) : Bucket κ ν × Nat :=
  (b.write key (some value), b.seq + 1)

def update (b : Bucket κ ν) (key : κ) (value : ν) (revision : Nat) :
    Option (Bucket κ ν × Nat) :=
  if (b.slots key).revision = revision then some (b.put key value) else none

def create (b : Bucket κ ν) (key : κ) (value : ν) : Option (Bucket κ ν × Nat) :=
  match (b.slots key).value with
  | some _ => none
  | none => some (b.put key value)

def delete (b : Bucket κ ν) (key : κ) : Bucket κ ν := b.write key none

@[simp] theorem write_slots_same (b : Bucket κ ν) (key : κ) (value : Option ν) :
    (b.write key value).slots key = ⟨b.seq + 1, value⟩ := by
  simp [write]

@[simp] theorem write_slots_other (b : Bucket κ ν) {key other : κ} (h : other ≠ key)
    (value : Option ν) : (b.write key value).slots other = b.slots other := by
  simp [write, h]

@[simp] theorem write_seq (b : Bucket κ ν) (key : κ) (value : Option ν) :
    (b.write key value).seq = b.seq + 1 := rfl

/-- A write never takes a revision back. -/
theorem revision_le_write (b : Bucket κ ν) (key other : κ) (value : Option ν) :
    (b.slots other).revision ≤ ((b.write key value).slots other).revision := by
  by_cases h : other = key
  · subst h
    have := b.numbered other
    simp only [write_slots_same]
    omega
  · simp [h]

/-- A compare-and-swap on another revision is refused. -/
theorem update_eq_none {b : Bucket κ ν} {key : κ} {expected : Nat}
    (h : (b.slots key).revision ≠ expected) (value : ν) : b.update key value expected = none := by
  simp [update, h]

/-- A compare-and-swap that succeeds is a write at the revision it expects. -/
theorem update_eq_some {b b' : Bucket κ ν} {key : κ} {value : ν} {expected revision : Nat}
    (h : b.update key value expected = some (b', revision)) :
    (b.slots key).revision = expected ∧ b' = b.write key (some value) := by
  unfold update at h
  split at h
  next hcurrent =>
    simp only [put, Option.some.injEq, Prod.mk.injEq] at h
    exact ⟨hcurrent, h.1.symm⟩
  next => cases h

theorem create_eq_some {b b' : Bucket κ ν} {key : κ} {value : ν} {revision : Nat}
    (h : b.create key value = some (b', revision)) :
    (b.slots key).value = none ∧ b' = b.write key (some value) := by
  unfold create at h
  split at h
  next => cases h
  next hfree =>
    simp only [put, Option.some.injEq, Prod.mk.injEq] at h
    exact ⟨hfree, h.1.symm⟩

/-! ## Reads before a compare-and-swap -/

/-- A value read with its revision: as long as the revision is current, so is the value. -/
def ReadAt (b : Bucket κ ν) (key : κ) (revision : Nat) (value : Option ν) : Prop :=
  revision ≤ (b.slots key).revision ∧
    ((b.slots key).revision = revision → (b.slots key).value = value)

omit [DecidableEq κ] in
theorem readAt_self (b : Bucket κ ν) (key : κ) :
    b.ReadAt key (b.slots key).revision (b.slots key).value :=
  ⟨Nat.le_refl _, fun _ => rfl⟩

/-- A write makes an earlier read of its key stale and leaves the others alone. -/
theorem ReadAt.write {b : Bucket κ ν} {key : κ} {revision : Nat} {value : Option ν}
    (read : b.ReadAt key revision value) (written : κ) (new : Option ν) :
    (b.write written new).ReadAt key revision value := by
  by_cases h : key = written
  · subst h
    have bound := b.numbered key
    have older := read.1
    constructor
    · rw [write_slots_same]
      show revision ≤ b.seq + 1
      omega
    · intro current
      rw [write_slots_same] at current
      have equal : b.seq + 1 = revision := current
      omega
  · rw [ReadAt, write_slots_other b h]
    exact read

/-- A compare-and-swap that succeeds writes over the value that was read. -/
theorem ReadAt.of_update {b b' : Bucket κ ν} {key : κ} {revision written : Nat}
    {value : Option ν} {new : ν} (read : b.ReadAt key revision value)
    (swapped : b.update key new revision = some (b', written)) :
    (b.slots key).value = value ∧ b' = b.write key (some new) := by
  obtain ⟨current, written⟩ := update_eq_some swapped
  exact ⟨read.2 current, written⟩

end Bucket

end ControlPlane.Lib

/-!
## A bounded cache with least-recently-used eviction

The entries are kept most recently used first. `get` moves the entry it finds to
the front, `put` drops what exceeds the capacity from the end, and `pop` removes
one key.
-/
namespace ControlPlane.Lib

structure Lru (κ ν : Type) where
  capacity : Nat
  entries : List (κ × ν)
  deriving DecidableEq

namespace Lru

variable {κ ν : Type} [DecidableEq κ]

def new (capacity : Nat) : Lru κ ν := ⟨capacity, []⟩

def find (c : Lru κ ν) (key : κ) : Option ν :=
  (c.entries.find? (·.1 == key)).map (·.2)

def pop (c : Lru κ ν) (key : κ) : Lru κ ν :=
  { c with entries := c.entries.filter (·.1 != key) }

def put (c : Lru κ ν) (key : κ) (value : ν) : Lru κ ν :=
  { c with entries := ((key, value) :: (c.pop key).entries).take c.capacity }

/-- The value under the key, and the cache with the entry at the front. -/
def get (c : Lru κ ν) (key : κ) : Option ν × Lru κ ν :=
  match c.find key with
  | none => (none, c)
  | some value => (some value, { c with entries := (key, value) :: (c.pop key).entries })

/-! ## Lookups -/

@[simp] theorem find_new (capacity : Nat) (key : κ) :
    (new capacity : Lru κ ν).find key = none := rfl

@[simp] theorem find_pop_same (c : Lru κ ν) (key : κ) : (c.pop key).find key = none := by
  simp [find, pop]

@[simp] theorem find_pop_other (c : Lru κ ν) {key other : κ} (h : other ≠ key) :
    (c.pop key).find other = c.find other := by
  unfold find pop
  rw [List.find?_filter]
  congr 2
  funext entry
  by_cases hentry : entry.1 = other
  · simp [hentry, h]
  · simp [hentry]

/-- Popping a key adds nothing. -/
theorem find_pop_some {c : Lru κ ν} {key other : κ} {value : ν}
    (h : (c.pop key).find other = some value) : c.find other = some value := by
  by_cases hsame : other = key
  · subst hsame
    simp at h
  · rwa [find_pop_other c hsame] at h

theorem find?_of_take {α : Type} {p : α → Bool} {l : List α} {n : Nat} {a : α}
    (h : (l.take n).find? p = some a) : l.find? p = some a := by
  conv_lhs => rw [← List.take_append_drop n l]
  rw [List.find?_append, h]
  rfl

/-- After a `put` a key holds the new value or what it held before. -/
theorem find_put_some {c : Lru κ ν} {key other : κ} {new value : ν}
    (h : (c.put key new).find other = some value) :
    (other = key ∧ value = new) ∨ (other ≠ key ∧ c.find other = some value) := by
  unfold find put at h
  rw [Option.map_eq_some_iff] at h
  obtain ⟨entry, hfind, rfl⟩ := h
  have hall := find?_of_take hfind
  rw [List.find?_cons] at hall
  split at hall
  next hhead =>
    cases hall
    exact .inl ⟨(beq_iff_eq.mp hhead).symm, rfl⟩
  next hhead =>
    have hne : other ≠ key := fun hsame => by simp [hsame] at hhead
    have hpop : (c.pop key).find other = some entry.2 := by
      unfold find
      rw [hall]
      rfl
    exact .inr ⟨hne, find_pop_some hpop⟩

/-- A lookup changes the order only. -/
@[simp] theorem find_get (c : Lru κ ν) (key other : κ) :
    (c.get key).2.find other = c.find other := by
  unfold get
  split
  next => rfl
  next value hfind =>
    by_cases hsame : other = key
    · subst hsame
      rw [hfind]
      simp [find]
    · have hpop := find_pop_other c hsame
      have hne : (key == other) = false := by simpa using Ne.symm hsame
      rw [← hpop]
      simp [find, hne]

@[simp] theorem get_fst (c : Lru κ ν) (key : κ) : (c.get key).1 = c.find key := by
  unfold get
  split
  next h => exact h.symm
  next value h => exact h.symm

end Lru

end ControlPlane.Lib
