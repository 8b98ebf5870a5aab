import Mathlib.Data.List.Perm.Subperm
import Mathlib.Data.String.Basic
import LayeredConfig.Keyed

set_option autoImplicit false

/-!
# Lists in key order

Inserting keeps the order of the keys, and an entry that is inserted where it already stands leaves
the list as it was. In a list with ascending keys no key stands twice, so that looking a key up and
being an entry are the same. Of the added entries with one key the last is kept.
-/
namespace LayeredConfig.Keyed

variable {α : Type}

theorem ascending_cons {key : String} {value : α} {rest : Keyed α} :
    Ascending ((key, value) :: rest) ↔ (∀ entry ∈ rest, key < entry.1) ∧ Ascending rest := by
  simp [Ascending]

theorem mem_of_find? {key : String} {value : α} {entries : Keyed α}
    (h : find? key entries = some value) : (key, value) ∈ entries := by
  induction entries with
  | nil => simp [find?] at h
  | cons entry rest ih =>
    obtain ⟨k, v⟩ := entry
    by_cases hk : k = key
    · have hv : v = value := by simpa [find?, hk] using h
      simp [hk, hv]
    · exact List.mem_cons_of_mem _ (ih (by simpa [find?, hk] using h))

theorem find?_eq_none {key : String} {entries : Keyed α} (h : ∀ entry ∈ entries, entry.1 ≠ key) :
    find? key entries = none := by
  cases hf : find? key entries with
  | none => rfl
  | some value => exact absurd rfl (h _ (mem_of_find? hf))

theorem find?_isSome_iff {key : String} {entries : Keyed α} :
    (find? key entries).isSome ↔ key ∈ entries.map Prod.fst := by
  induction entries with
  | nil => simp [find?]
  | cons entry rest ih =>
    obtain ⟨k, v⟩ := entry
    by_cases hk : k = key
    · simp [find?, hk]
    · simpa [find?, hk, Ne.symm hk] using ih

/-- The first key of an ascending list does not come again. -/
theorem find?_tail {key : String} {value : α} {rest : Keyed α}
    (h : Ascending ((key, value) :: rest)) : find? key rest = none :=
  find?_eq_none fun entry hentry => ((ascending_cons.1 h).1 entry hentry).ne'

theorem Ascending.nodup {entries : Keyed α} (h : Ascending entries) :
    (entries.map Prod.fst).Nodup :=
  List.Pairwise.imp ne_of_lt h

theorem find?_of_mem {key : String} {value : α} {entries : Keyed α} (h : Ascending entries)
    (hmem : (key, value) ∈ entries) : find? key entries = some value := by
  induction entries with
  | nil => simp at hmem
  | cons entry rest ih =>
    obtain ⟨k, v⟩ := entry
    obtain ⟨hlt, hrest⟩ := ascending_cons.1 h
    rcases List.mem_cons.1 hmem with hhead | htail
    · obtain ⟨rfl, rfl⟩ : key = k ∧ value = v := Prod.mk.inj hhead
      simp [find?]
    · have hne : k ≠ key := ne_of_lt (hlt _ htail)
      have hfound : find? key rest = some value := ih hrest htail
      simpa [find?, hne] using hfound

theorem mem_iff_find? {key : String} {value : α} {entries : Keyed α} (h : Ascending entries) :
    (key, value) ∈ entries ↔ find? key entries = some value :=
  ⟨find?_of_mem h, mem_of_find?⟩

theorem filter_key_eq {entries : Keyed α} (h : Ascending entries) (key : String) :
    entries.filter (·.1 = key) = ((find? key entries).map fun value => (key, value)).toList := by
  induction entries with
  | nil => rfl
  | cons entry rest ih =>
    obtain ⟨k, v⟩ := entry
    have hrest := ih (ascending_cons.1 h).2
    by_cases hk : k = key
    · subst hk
      rw [find?_tail h] at hrest
      rw [List.filter_cons_of_pos (by simp), hrest]
      simp [find?]
    · rw [List.filter_cons_of_neg (by simpa using hk), hrest]
      simp [find?, hk]

/-- Lists in key order that find the same under every key are equal. -/
theorem eq_of_find?_eq {left right : Keyed α} (hleft : Ascending left) (hright : Ascending right)
    (h : ∀ key, find? key left = find? key right) : left = right := by
  induction left generalizing right with
  | nil =>
    cases right with
    | nil => rfl
    | cons entry rest =>
      have hhead := h entry.1
      simp [find?] at hhead
  | cons entry rest ih =>
    obtain ⟨k, v⟩ := entry
    cases right with
    | nil =>
      have hhead := h k
      simp [find?] at hhead
    | cons other more =>
      obtain ⟨l, w⟩ := other
      obtain ⟨hk, hrest⟩ := ascending_cons.1 hleft
      obtain ⟨hl, hmore⟩ := ascending_cons.1 hright
      have hfound : find? k ((l, w) :: more) = some v := by simpa [find?] using (h k).symm
      have hfound' : find? l ((k, v) :: rest) = some w := by simpa [find?] using h l
      -- Each first key stands in the other list, in front of which nothing smaller comes.
      have hkey : k = l := by
        rcases List.mem_cons.1 (mem_of_find? hfound) with hhead | hmem
        · exact congrArg Prod.fst hhead
        · rcases List.mem_cons.1 (mem_of_find? hfound') with hhead | hmem'
          · exact (congrArg Prod.fst hhead).symm
          · exact absurd (hl _ hmem) (hk _ hmem').asymm
      subst hkey
      have hvalue : w = v := by simpa [find?] using hfound
      subst hvalue
      have htails : ∀ key, find? key rest = find? key more := by
        intro key
        by_cases hkey : k = key
        · subst hkey
          rw [find?_tail hleft, find?_tail hright]
        · simpa [find?, hkey] using h key
      rw [ih hrest hmore htails]

theorem eq_of_mem_iff {left right : Keyed α} (hleft : Ascending left) (hright : Ascending right)
    (h : ∀ entry, entry ∈ left ↔ entry ∈ right) : left = right := by
  apply eq_of_find?_eq hleft hright
  intro key
  apply Option.ext
  intro value
  constructor
  · intro hfound
    exact find?_of_mem hright ((h _).1 (mem_of_find? hfound))
  · intro hfound
    exact find?_of_mem hleft ((h _).2 (mem_of_find? hfound))

/-- The entry that no key comes in front of is the first. -/
theorem exists_eq_cons {key : String} {value : α} {entries : Keyed α} (h : Ascending entries)
    (hmem : (key, value) ∈ entries) (hfirst : ∀ entry ∈ entries, ¬ entry.1 < key) :
    ∃ rest, entries = (key, value) :: rest := by
  cases entries with
  | nil => simp at hmem
  | cons entry rest =>
    rcases List.mem_cons.1 hmem with rfl | htail
    · exact ⟨rest, rfl⟩
    · have hlt : entry.1 < key := (ascending_cons.1 h).1 _ htail
      exact absurd hlt (hfirst entry List.mem_cons_self)

theorem insert_of_find? {key : String} {value : α} {entries : Keyed α} (h : Ascending entries)
    (hf : find? key entries = some value) : insert key value entries = entries := by
  induction entries with
  | nil => simp [find?] at hf
  | cons entry rest ih =>
    obtain ⟨k, v⟩ := entry
    obtain ⟨hlt, hrest⟩ := ascending_cons.1 h
    by_cases hk : k = key
    · have hv : v = value := by simpa [find?, hk] using hf
      simp [insert, hk, hv]
    · have hf' : find? key rest = some value := by simpa [find?, hk] using hf
      have hkey : ¬ key < k := (hlt _ (mem_of_find? hf')).asymm
      simp [insert, hk, hkey, ih hrest hf']

theorem insert_insert_self (key : String) (value other : α) (entries : Keyed α) :
    insert key value (insert key other entries) = insert key value entries := by
  induction entries with
  | nil => simp [insert]
  | cons entry rest ih =>
    obtain ⟨k, v⟩ := entry
    by_cases hk : k = key
    · simp [insert, hk]
    · by_cases hlt : key < k
      · simp [insert, hk, hlt]
      · simp [insert, hk, hlt, ih]

theorem insert_comm {first second : String} (h : first ≠ second) (x y : α) (entries : Keyed α) :
    insert first x (insert second y entries) = insert second y (insert first x entries) := by
  induction entries with
  | nil =>
    rcases lt_or_gt_of_ne h with hlt | hgt
    · have hnot : ¬ second < first := hlt.asymm
      simp [insert, h, h.symm, hlt, hnot]
    · have hnot : ¬ first < second := hgt.asymm
      simp [insert, h, h.symm, hgt, hnot]
  | cons entry rest ih =>
    obtain ⟨k, v⟩ := entry
    grind [insert]

theorem mem_insert {key : String} {value : α} {entries : Keyed α} {entry : String × α}
    (h : entry ∈ insert key value entries) : entry = (key, value) ∨ entry ∈ entries := by
  induction entries with
  | nil => simpa [insert] using h
  | cons first rest ih =>
    obtain ⟨k, v⟩ := first
    unfold insert at h
    split at h
    · rcases List.mem_cons.1 h with h | h
      · exact .inl h
      · exact .inr (List.mem_cons_of_mem _ h)
    · split at h
      · exact List.mem_cons.1 h
      · rcases List.mem_cons.1 h with h | h
        · exact .inr (List.mem_cons.2 (.inl h))
        · exact (ih h).imp_right (List.mem_cons_of_mem _)

theorem ascending_insert {entries : Keyed α} (key : String) (value : α) (h : Ascending entries) :
    Ascending (insert key value entries) := by
  induction entries with
  | nil => simp [insert, Ascending]
  | cons first rest ih =>
    obtain ⟨k, v⟩ := first
    obtain ⟨hlt, hrest⟩ := ascending_cons.1 h
    unfold insert
    split
    next hk =>
      subst hk
      exact ascending_cons.2 ⟨hlt, hrest⟩
    next hk =>
      split
      next hkey =>
        refine ascending_cons.2 ⟨fun entry hentry => ?_, h⟩
        rcases List.mem_cons.1 hentry with rfl | hentry
        · exact hkey
        · exact hkey.trans (hlt entry hentry)
      next hkey =>
        refine ascending_cons.2 ⟨fun entry hentry => ?_, ih hrest⟩
        rcases mem_insert hentry with rfl | hentry
        · exact lt_of_le_of_ne (not_lt.1 hkey) hk
        · exact hlt entry hentry

theorem ascending_insertAll {entries : Keyed α} (more : List (String × α)) (h : Ascending entries) :
    Ascending (insertAll entries more) := by
  induction more generalizing entries with
  | nil => exact h
  | cons entry rest ih => exact ih (ascending_insert entry.1 entry.2 h)

theorem ascending_ofList (entries : List (String × α)) : Ascending (ofList entries) :=
  ascending_insertAll entries List.Pairwise.nil

theorem find?_insertAll_of_notMem {key : String} {more : List (String × α)}
    (h : key ∉ more.map Prod.fst) (entries : Keyed α) :
    find? key (insertAll entries more) = find? key entries := by
  induction more generalizing entries with
  | nil => rfl
  | cons entry rest ih =>
    obtain ⟨hne, hrest⟩ : key ≠ entry.1 ∧ key ∉ rest.map Prod.fst := by simpa using h
    exact (ih hrest _).trans (find?_insert_of_ne hne _ _)

/-- Of the entries with one key the last is kept. -/
theorem find?_ofList_append_cons {key : String} {after : List (String × α)}
    (h : key ∉ after.map Prod.fst) (before : List (String × α)) (value : α) :
    find? key (ofList (before ++ (key, value) :: after)) = some value := by
  have hall : ofList (before ++ (key, value) :: after) =
      insertAll (insert key value (ofList before)) after := List.foldl_append
  rw [hall, find?_insertAll_of_notMem h, find?_insert_self]

theorem exists_last_entry {key : String} {entries : List (String × α)}
    (h : key ∈ entries.map Prod.fst) : ∃ before value after,
      entries = before ++ (key, value) :: after ∧ key ∉ after.map Prod.fst := by
  induction entries with
  | nil => simp at h
  | cons entry rest ih =>
    by_cases hrest : key ∈ rest.map Prod.fst
    · obtain ⟨before, value, after, rfl, hafter⟩ := ih hrest
      exact ⟨entry :: before, value, after, rfl, hafter⟩
    · obtain rfl : key = entry.1 := (List.mem_cons.1 h).resolve_right hrest
      exact ⟨[], entry.2, rest, rfl, hrest⟩

theorem find?_ofList_isSome_iff {key : String} {entries : List (String × α)} :
    (find? key (ofList entries)).isSome ↔ key ∈ entries.map Prod.fst := by
  constructor
  · intro h
    by_contra hnot
    have hnone : find? key (ofList entries) = none := find?_insertAll_of_notMem hnot []
    simp [hnone] at h
  · intro h
    obtain ⟨before, value, after, rfl, hafter⟩ := exists_last_entry h
    simp [find?_ofList_append_cons hafter]

/-- An added entry hides the one that was there. -/
theorem find?_insertAll {more : Keyed α} (h : Ascending more) (key : String) (entries : Keyed α) :
    find? key (insertAll entries more) = (find? key more).or (find? key entries) := by
  induction more generalizing entries with
  | nil => rfl
  | cons entry rest ih =>
    obtain ⟨k, v⟩ := entry
    have hrest := ih (ascending_cons.1 h).2 (insert k v entries)
    change find? key (insertAll (insert k v entries) rest) = _
    by_cases hk : k = key
    · subst hk
      rw [find?_tail h, find?_insert_self] at hrest
      simpa [find?] using hrest
    · rw [find?_insert_of_ne (Ne.symm hk)] at hrest
      simpa [find?, hk] using hrest

theorem insert_of_forall_lt {key : String} {entries : Keyed α}
    (h : ∀ entry ∈ entries, entry.1 < key) (value : α) :
    insert key value entries = entries ++ [(key, value)] := by
  induction entries with
  | nil => rfl
  | cons entry rest ih =>
    obtain ⟨k, v⟩ := entry
    obtain ⟨hk, hrest⟩ := List.forall_mem_cons.1 h
    have hne : k ≠ key := ne_of_lt hk
    have hnot : ¬ key < k := lt_asymm hk
    simp [insert, hne, hnot, ih hrest]

/-- Entries that come in key order are added at the end one by one. -/
theorem insertAll_of_ascending {front back : Keyed α} (h : Ascending (front ++ back)) :
    insertAll front back = front ++ back := by
  induction back generalizing front with
  | nil => simp [insertAll]
  | cons entry rest ih =>
    obtain ⟨key, value⟩ := entry
    have hlt : ∀ other ∈ front, other.1 < key := by
      intro other hother
      have hkeys : (front.map Prod.fst ++ ((key, value) :: rest).map Prod.fst).Pairwise
          (· < ·) := by
        rw [← List.map_append]
        exact h
      have hpair := (List.pairwise_append.1 hkeys).2.2
      exact hpair other.1 (List.mem_map_of_mem hother) key (by simp)
    have happend : front ++ (key, value) :: rest = front ++ [(key, value)] ++ rest := by simp
    calc insertAll front ((key, value) :: rest)
        = insertAll (insert key value front) rest := rfl
      _ = insertAll (front ++ [(key, value)]) rest := by rw [insert_of_forall_lt hlt]
      _ = front ++ [(key, value)] ++ rest := ih (happend ▸ h)
      _ = front ++ (key, value) :: rest := happend.symm

theorem ofList_of_ascending {entries : Keyed α} (h : Ascending entries) :
    ofList entries = entries :=
  insertAll_of_ascending h

theorem perm_insert {key : String} {entries : Keyed α} (h : key ∉ entries.map Prod.fst)
    (value : α) : (insert key value entries).Perm ((key, value) :: entries) := by
  induction entries with
  | nil => exact .refl _
  | cons entry rest ih =>
    obtain ⟨k, v⟩ := entry
    obtain ⟨hne, hrest⟩ : key ≠ k ∧ key ∉ rest.map Prod.fst := by simpa using h
    unfold insert
    rw [if_neg hne.symm]
    split
    · exact .refl _
    · exact ((ih hrest).cons (k, v)).trans (.swap _ _ rest)

theorem perm_insertAll {entries more : List (String × α)}
    (h : ((more ++ entries).map Prod.fst).Nodup) :
    (insertAll entries more).Perm (more ++ entries) := by
  induction more generalizing entries with
  | nil => exact .refl _
  | cons entry rest ih =>
    obtain ⟨hnotMem, hrest⟩ := List.nodup_cons.1 h
    have hinsert : (insert entry.1 entry.2 entries).Perm (entry :: entries) :=
      perm_insert (fun hmem => hnotMem (by simp [List.map_append, hmem])) entry.2
    have hmove : (rest ++ insert entry.1 entry.2 entries).Perm (entry :: (rest ++ entries)) :=
      (hinsert.append_left rest).trans List.perm_middle
    exact (ih ((hmove.map Prod.fst).nodup_iff.2 h)).trans hmove

/-- No entry is lost where no key stands twice. -/
theorem perm_ofList {entries : List (String × α)} (h : (entries.map Prod.fst).Nodup) :
    (ofList entries).Perm entries := by
  have hall : (insertAll [] entries).Perm (entries ++ []) := perm_insertAll (by simpa using h)
  rwa [List.append_nil] at hall

/-- An entry is lost exactly where a key stands twice. -/
theorem length_ofList_eq_iff {entries : List (String × α)} :
    (ofList entries).length = entries.length ↔ (entries.map Prod.fst).Nodup := by
  constructor
  · intro h
    have hsubset : (ofList entries).map Prod.fst ⊆ entries.map Prod.fst := fun key hkey =>
      find?_ofList_isSome_iff.1 (find?_isSome_iff.2 hkey)
    have hlength : (entries.map Prod.fst).length ≤ ((ofList entries).map Prod.fst).length := by
      simp [h]
    have hnodup := (ascending_ofList entries).nodup
    exact ((hnodup.subperm hsubset).perm_of_length_le hlength).nodup_iff.1 hnodup
  · intro h
    exact (perm_ofList h).length_eq

/-- Where no key stands twice, the order in which entries are added does not matter. -/
theorem ofList_eq_of_perm {left right : List (String × α)} (h : left.Perm right)
    (hnodup : (left.map Prod.fst).Nodup) : ofList left = ofList right := by
  have hright : (right.map Prod.fst).Nodup := (h.map Prod.fst).nodup_iff.1 hnodup
  apply eq_of_mem_iff (ascending_ofList left) (ascending_ofList right)
  intro entry
  exact (((perm_ofList hnodup).trans h).trans (perm_ofList hright).symm).mem_iff

end LayeredConfig.Keyed
