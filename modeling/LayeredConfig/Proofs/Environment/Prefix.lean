import LayeredConfig.Environment.Basic
import LayeredConfig.Proofs.Keyed

set_option autoImplicit false

/-!
# Entries under a prefix

The view under a prefix has an entry for every longer name that starts with the separated prefix: it
is found under the rest of its name, and the order stays that of the names.
-/
namespace LayeredConfig.Environment

theorem rest?_eq_some_iff {start name rest : List Char} :
    rest? start name = some rest ↔ rest ≠ [] ∧ name = start ++ rest := by
  unfold rest?
  constructor
  · intro h
    split at h
    next hname =>
      obtain ⟨tail, rfl⟩ := List.isPrefixOf_iff_prefix.1 hname.1
      obtain rfl : tail = rest := by simpa using h
      refine ⟨?_, rfl⟩
      rintro rfl
      simp at hname
    next => cases h
  · rintro ⟨hne, rfl⟩
    have hlength : 0 < rest.length := List.length_pos_iff.2 hne
    simp [hlength]

theorem lt_of_append_lt {start first second : List Char} (h : start ++ first < start ++ second) :
    first < second := by
  induction start with
  | nil => exact h
  | cons c start ih =>
    rw [List.cons_append, List.cons_append, List.cons_lt_cons_iff] at h
    rcases h with h | ⟨-, h⟩
    · exact absurd h (lt_irrefl c)
    · exact ih h

/-- Names that share a prefix are in order as their rests are. -/
theorem ascending_under (separator : Char) (pre : String) {entries : Keyed String}
    (h : Keyed.Ascending entries) : Keyed.Ascending (under separator pre entries) := by
  refine List.pairwise_map.2 (List.Pairwise.filterMap _ ?_ (List.pairwise_map.1 h))
  intro first second hlt left hleft right hright
  rw [Option.map_eq_some_iff] at hleft hright
  obtain ⟨firstRest, hfirst, rfl⟩ := hleft
  obtain ⟨secondRest, hsecond, rfl⟩ := hright
  rw [String.lt_iff_toList_lt, (rest?_eq_some_iff.1 hfirst).2,
    (rest?_eq_some_iff.1 hsecond).2] at hlt
  rw [String.lt_iff_toList_lt, String.toList_ofList, String.toList_ofList]
  exact lt_of_append_lt hlt

theorem find?_under (separator : Char) (pre : String) {rest : String} (h : rest ≠ "")
    (entries : Keyed String) : Keyed.find? rest (under separator pre entries) =
      Keyed.find? (withSeparator separator pre ++ rest) entries := by
  unfold under
  generalize withSeparator separator pre = start
  have hne : rest.toList ≠ [] := fun hnil => h (String.toList_eq_nil_iff.1 hnil)
  -- The first entry answers on the one side exactly if it does on the other.
  induction entries with
  | nil => rfl
  | cons entry more ih =>
    obtain ⟨name, value⟩ := entry
    have hname : name = start ++ rest ↔ rest? start.toList name.toList = some rest.toList := by
      rw [rest?_eq_some_iff, ← String.toList_append, String.toList_inj]
      exact ⟨fun heq => ⟨hne, heq⟩, And.right⟩
    cases hrest : rest? start.toList name.toList with
    | none =>
      have hskip : name ≠ start ++ rest := by simp [hname, hrest]
      simp [hrest, Keyed.find?, hskip, ih]
    | some tail =>
      have htail : String.ofList tail = rest ↔ name = start ++ rest := by
        rw [hname, hrest, Option.some_inj, ← String.toList_inj, String.toList_ofList]
      simp [hrest, Keyed.find?, htail, ih]

theorem find?_empty_under (separator : Char) (pre : String) (entries : Keyed String) :
    Keyed.find? "" (under separator pre entries) = none := by
  apply Keyed.find?_eq_none
  intro entry hentry
  obtain ⟨source, -, hmap⟩ := List.mem_filterMap.1 hentry
  obtain ⟨tail, htail, rfl⟩ := Option.map_eq_some_iff.1 hmap
  intro hempty
  -- A name that is the prefix itself has no rest to be found under.
  exact (rest?_eq_some_iff.1 htail).1 (String.ofList_eq_empty_iff.1 hempty)

end LayeredConfig.Environment
