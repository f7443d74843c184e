/-!
# Handles

A handle is a number that stands for something a client may want to look into later. Handles count
from one; zero stands for nothing to look into. Every request for a handle makes a new one, also for
something that has one already, and no handle is ever given up.

## Main definitions

* `Handles` — what the handles made so far stand for
* `Handles.create`, `Handles.get?` — making a handle, and what a handle stands for

## Main results

* `Handles.get?_create_self` — a new handle stands for what it was made for
* `Handles.get?_create_of_get?` — making a handle changes no other one
* `Handles.get?_isSome_iff` — the handles made so far are the numbers from one on
-/

namespace LWorkbench

/-- What the handles made so far stand for, in the order in which they were made. -/
structure Handles (α : Type) where
  entities : Array α

namespace Handles

variable {α : Type}

/-- No handles. -/
def empty : Handles α := ⟨#[]⟩

/-- The number of handles made so far. -/
def size (handles : Handles α) : Nat := handles.entities.size

/-- Makes a handle. -/
def create (handles : Handles α) (entity : α) : Nat × Handles α :=
  (handles.size + 1, ⟨handles.entities.push entity⟩)

/-- What a handle stands for; nothing for a number that is no handle. -/
def get? (handles : Handles α) (handle : Int) : Option α :=
  if handle < 1 then none else handles.entities[handle.toNat - 1]?

@[simp] theorem size_empty : (empty : Handles α).size = 0 := rfl

@[simp] theorem create_fst (handles : Handles α) (entity : α) :
    (handles.create entity).1 = handles.size + 1 := rfl

@[simp] theorem size_create (handles : Handles α) (entity : α) :
    (handles.create entity).2.size = handles.size + 1 := by
  simp [create, size]

/-- The handles made so far are the numbers from one on. -/
theorem get?_isSome_iff (handles : Handles α) (handle : Int) :
    (handles.get? handle).isSome ↔ 1 ≤ handle ∧ handle ≤ handles.size := by
  unfold get? size
  split
  · simp only [Option.isSome_none, Bool.false_eq_true, false_iff]
    omega
  · simp only [Option.isSome_iff_exists, Array.getElem?_eq_some_iff]
    constructor
    · rintro ⟨_, h, _⟩
      omega
    · intro h
      exact ⟨_, by omega, rfl⟩

/-- A new handle stands for what it was made for. -/
theorem get?_create_self (handles : Handles α) (entity : α) :
    (handles.create entity).2.get? (handles.create entity).1 = some entity := by
  have hpos : ¬ ((handles.size + 1 : Nat) : Int) < 1 := by omega
  simp only [get?, create_fst, hpos, if_false, Int.toNat_natCast, Nat.add_sub_cancel]
  simp [create, size]

/-- Making a handle changes no other one. -/
theorem get?_create_of_get? {handles : Handles α} {entity other : α} {handle : Int}
    (h : handles.get? handle = some other) :
    (handles.create entity).2.get? handle = some other := by
  unfold get? at h ⊢
  split at h
  · simp at h
  · obtain ⟨hlt, _⟩ := Array.getElem?_eq_some_iff.1 h
    simp only [create]
    rw [if_neg ‹_›, Array.getElem?_push_lt hlt, ← h, Array.getElem?_eq_getElem hlt]

end Handles

end LWorkbench
