import LWorkbench.Uri

/-!
# Tables of documents

An editor names documents by uri. A table has at most one value for each uri, and its entries are in
the order of the texts of the uris, so that going through all documents has one order whatever
happened before.

## Main definitions

* `UriMap` — a table
* `UriMap.get?`, `UriMap.insert`, `UriMap.erase` — finding, setting and removing a value

## Main results

* `UriMap.get?_insert_self`, `UriMap.get?_insert_of_ne` — what is found after setting a value
* `UriMap.get?_erase_self`, `UriMap.get?_erase_of_ne` — what is found after removing one
-/

namespace LWorkbench

/-- A table of values by uri, in the order of the texts of the uris. -/
structure UriMap (α : Type) where
  entries : List (Uri × α)

namespace UriMap

variable {α : Type}

/-- The table without values. -/
def empty : UriMap α := ⟨[]⟩

/-- The value for a uri. -/
def get? (map : UriMap α) (uri : Uri) : Option α :=
  (map.entries.find? (·.1 == uri)).map (·.2)

/-- Whether there is a value for a uri. -/
def contains (map : UriMap α) (uri : Uri) : Bool := (map.get? uri).isSome

/-- The number of values. -/
def size (map : UriMap α) : Nat := map.entries.length

/-- The entries with a value put in its place. -/
def insertEntry (uri : Uri) (value : α) : List (Uri × α) → List (Uri × α)
  | [] => [(uri, value)]
  | entry :: rest =>
    if entry.1 == uri then (uri, value) :: rest
    else if uri.render < entry.1.render then (uri, value) :: entry :: rest
    else entry :: insertEntry uri value rest

/-- Sets the value for a uri. -/
def insert (map : UriMap α) (uri : Uri) (value : α) : UriMap α :=
  ⟨insertEntry uri value map.entries⟩

/-- Removes the value for a uri. -/
def erase (map : UriMap α) (uri : Uri) : UriMap α :=
  ⟨map.entries.filter (·.1 != uri)⟩

theorem get?_insert_self (map : UriMap α) (uri : Uri) (value : α) :
    (map.insert uri value).get? uri = some value := by
  simp only [get?, insert]
  induction map.entries with
  | nil => simp [insertEntry]
  | cons entry rest ih =>
    unfold insertEntry
    split
    · simp
    · split
      · simp
      · simpa only [List.find?_cons, eq_false_of_ne_true ‹¬ (entry.1 == uri) = true›] using ih

theorem get?_insert_of_ne {uri other : Uri} (map : UriMap α) (value : α) (hne : other ≠ uri) :
    (map.insert uri value).get? other = map.get? other := by
  have hskip : (uri == other) = false := by simpa using Ne.symm hne
  simp only [get?, insert]
  induction map.entries with
  | nil => simp [insertEntry, hskip]
  | cons entry rest ih =>
    unfold insertEntry
    split
    · rename_i heq
      rw [beq_iff_eq] at heq
      simp only [List.find?_cons, heq, hskip]
    · split
      · simp only [List.find?_cons, hskip]
      · simp only [List.find?_cons]
        split
        · rfl
        · exact ih

theorem get?_erase_self (map : UriMap α) (uri : Uri) : (map.erase uri).get? uri = none := by
  simp only [get?, erase, Option.map_eq_none_iff, List.find?_eq_none, List.mem_filter]
  intro entry h
  simpa using h.2

theorem get?_erase_of_ne {uri other : Uri} (map : UriMap α) (hne : other ≠ uri) :
    (map.erase uri).get? other = map.get? other := by
  simp only [get?, erase]
  induction map.entries with
  | nil => rfl
  | cons entry rest ih =>
    simp only [List.filter_cons, List.find?_cons]
    split
    · simp only [List.find?_cons]
      split
      · rfl
      · exact ih
    · rename_i hdrop
      have hskip : (entry.1 == other) = false := by
        have heq : entry.1 = uri := by simpa using hdrop
        simpa [heq] using Ne.symm hne
      simpa only [hskip] using ih

end UriMap

end LWorkbench
