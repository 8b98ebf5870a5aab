set_option autoImplicit false

/-!
# Lists of values in key order

A `Keyed α` holds at most one value for each text, in ascending order of the texts. Texts are
compared by their code points, which is also the order of their UTF-8 bytes. `Ascending` is the
invariant; `insert` and `ofList` keep it.
-/
namespace LayeredConfig

abbrev Keyed (α : Type) : Type := List (String × α)

namespace Keyed

variable {α : Type}

def Ascending (entries : Keyed α) : Prop :=
  (entries.map Prod.fst).Pairwise (· < ·)

def keys (entries : Keyed α) : List String := entries.map Prod.fst

def find? (key : String) : Keyed α → Option α
  | [] => none
  | (k, v) :: rest => if k = key then some v else find? key rest

/-- The new value takes the place of the old one, or goes in front of the first greater key. -/
def insert (key : String) (value : α) : Keyed α → Keyed α
  | [] => [(key, value)]
  | (k, v) :: rest =>
    if k = key then (key, value) :: rest
    else if key < k then (key, value) :: (k, v) :: rest
    else (k, v) :: insert key value rest

/-- Adds entries one by one; a later entry replaces an earlier one of the same key. -/
def insertAll (entries : Keyed α) (more : List (String × α)) : Keyed α :=
  more.foldl (fun acc entry => insert entry.1 entry.2 acc) entries

def ofList (entries : List (String × α)) : Keyed α := insertAll [] entries

theorem find?_insert_self (key : String) (value : α) (entries : Keyed α) :
    find? key (insert key value entries) = some value := by
  induction entries with
  | nil => simp [insert, find?]
  | cons entry rest ih =>
    obtain ⟨k, v⟩ := entry
    unfold insert
    split
    · simp [find?]
    · split
      · simp [find?]
      · simp [find?, *]

theorem find?_insert_of_ne {key other : String} (h : other ≠ key) (value : α)
    (entries : Keyed α) : find? other (insert key value entries) = find? other entries := by
  induction entries with
  | nil => simp [insert, find?, Ne.symm h]
  | cons entry rest ih =>
    obtain ⟨k, v⟩ := entry
    unfold insert
    split
    · rename_i hk
      subst hk
      simp [find?, Ne.symm h]
    · split
      · simp [find?, Ne.symm h]
      · simp [find?, ih]

end Keyed

end LayeredConfig
