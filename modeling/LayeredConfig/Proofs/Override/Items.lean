import LayeredConfig.Proofs.Decimal.TextOrder
import LayeredConfig.Proofs.Environment.Prefix
import LayeredConfig.Proofs.Override.Run
import LayeredConfig.Proofs.Path.Rendering

set_option autoImplicit false

/-!
# Items one after the other

The path of an item is a name with an index in brackets. A write reaches at most the place just past
the end of an array, so that writes to all items have to come in the order of the indices. Up to ten
paths are in this order as texts. Of more paths the second one has the greatest power of ten as its
index, which is out of bounds by then.
-/
namespace LayeredConfig

namespace Path

variable {name : String} {index : Nat} {body done : List Char}

/-- The path of one item of an array. -/
def itemPath (name : String) (index : Nat) : String :=
  render [.property name, .index (.at index)]

theorem toList_itemPath (name : String) (index : Nat) :
    (itemPath name index).toList = name.toList ++ '[' :: Decimal.ofNat index ++ [']'] := by
  rw [itemPath, render, String.toList_ofList]
  show ('.' :: name.toList ++ ('[' :: Decimal.ofNat index ++ [']'] ++ [])).tail = _
  simp

theorem place?_ofNat (index : Nat) : place? (Decimal.ofNat index) =
    if index < 2 ^ 63 then .ok (.at index) else .error .noInteger := by
  have hread : Decimal.integer? 10 true (Decimal.ofNat index) = some (index : Int) :=
    Decimal.integer?_ten_eq_some_iff.2 (.plain (Decimal.isNatural_ofNat index))
  by_cases hlt : index < 2 ^ 63
  · rw [if_pos hlt]
    exact place?_eq_ok_iff.2 (.at (.plain (Decimal.isNatural_ofNat index)) hlt)
  · have hbody : Decimal.ofNat index ≠ ".length".toList := by
      intro hbody
      have hdigit : '.'.isDigit := (Decimal.isNatural_ofNat index).2.1 '.' (by rw [hbody]; decide)
      exact absurd hdigit (by decide)
    have hpow : (Nat.pow 2 63 : Int) = 2 ^ 63 := rfl
    have hrange : (index : Int) < -(Nat.pow 2 63 : Int) ∨ (Nat.pow 2 63 : Int) ≤ index := by
      rw [hpow]
      omega
    unfold place?
    rw [if_neg hbody, hread, if_neg hlt]
    simp only [hrange, if_true]

theorem element?_indexed (hname : IsName name.toList) (hne : body ≠ []) (hclosing : ']' ∉ body) :
    element? [] (name.toList ++ '[' :: body ++ [']']) = (place? body).map fun place =>
      ([segment (.property name) name.toList ('[' :: body ++ [']']),
        segment (.index place) (name.toList ++ '[' :: body ++ [']']) []],
        name.toList ++ '[' :: body ++ [']'], []) := by
  obtain ⟨htake, hdrop⟩ := hname.span ('[' :: (body ++ [']'])) (.inr (.inr rfl))
  have hindex := index?_of_closing hne hclosing []
  unfold element?
  simp only [List.append_assoc, List.cons_append, htake, hdrop, hindex]
  cases place? body <;> simp [Except.map, hname.1, afterIndex?]

theorem parse_itemPath (hname : IsName name.toList) (index : Nat) :
    parse (itemPath name index) = (place? (Decimal.ofNat index)).map fun place =>
      ⟨itemPath name index, itemPath name index,
        [segment (.property name) name.toList ('[' :: Decimal.ofNat index ++ [']']),
          segment (.index place) (itemPath name index).toList []]⟩ := by
  obtain ⟨hnonempty, hdigits, -⟩ := Decimal.isNatural_ofNat index
  have hclosing : ']' ∉ Decimal.ofNat index := fun hmem => absurd (hdigits _ hmem) (by decide)
  have hread := element?_indexed hname hnonempty hclosing
  rw [← toList_itemPath] at hread
  have hdot : dropFinalDot (itemPath name index).toList = (itemPath name index).toList := by
    rw [toList_itemPath, dropFinalDot, List.getLast?_concat, if_neg (by decide)]
  have hne : (itemPath name index).toList ≠ [] := by simp [toList_itemPath]
  unfold parse
  simp only [hdot]
  rw [segments?_eq_bind hne, hread]
  cases place? (Decimal.ofNat index) <;> simp [Except.map, Except.bind, segments?]

theorem lt_of_itemPath_lt {other : Nat} (h : itemPath name index < itemPath name other) :
    Decimal.ofNat index ++ [']'] < Decimal.ofNat other ++ [']'] := by
  rw [String.lt_iff_toList_lt, toList_itemPath, toList_itemPath, List.append_assoc,
    List.append_assoc] at h
  have hbracket : '[' :: (Decimal.ofNat index ++ [']']) < '[' :: (Decimal.ofNat other ++ [']']) :=
    Environment.lt_of_append_lt h
  rcases List.cons_lt_cons_iff.1 hbracket with hlt | ⟨-, hlt⟩
  · exact absurd hlt (lt_irrefl _)
  · exact hlt

theorem itemPath_inj {other : Nat} (h : itemPath name index = itemPath name other) :
    index = other := by
  have htexts := congrArg String.toList h
  simp only [toList_itemPath, List.append_assoc, List.append_cancel_left_eq, List.cons_append,
    List.cons.injEq, true_and, List.append_cancel_right_eq] at htexts
  rw [← (Decimal.isNatural_ofNat index).2.2, htexts, (Decimal.isNatural_ofNat other).2.2]

/-! ## Paths and values of all items -/

variable {start : Nat} {values : List String} {entries : Keyed String}

/-- The values by the paths of items, from the index `start` on. -/
def itemEntries (name : String) (start : Nat) (values : List String) : Keyed String :=
  (values.zipIdx start).map fun entry => (itemPath name entry.2, entry.1)

theorem itemEntries_cons (value : String) (rest : List String) :
    itemEntries name start (value :: rest) =
      (itemPath name start, value) :: itemEntries name (start + 1) rest := by
  simp [itemEntries, List.zipIdx_cons]

theorem exists_index_of_mem {entry : String × String} (h : entry ∈ itemEntries name start values) :
    ∃ index, entry.1 = itemPath name index ∧ start ≤ index ∧ index < start + values.length := by
  obtain ⟨⟨value, index⟩, hmem, rfl⟩ := List.mem_map.1 h
  obtain ⟨hle, hlt, -⟩ := List.mem_zipIdx hmem
  exact ⟨index, rfl, hle, hlt⟩

theorem mem_itemEntries (h : index < values.length) :
    (itemPath name index, values[index]) ∈ itemEntries name 0 values := by
  refine List.mem_map.2 ⟨(values[index], index), ?_, rfl⟩
  rw [List.mem_zipIdx_iff_getElem?]
  exact List.getElem?_eq_getElem h

theorem itemPath_lt {other : Nat} (h : index < other) (hother : other < 10) :
    itemPath name index < itemPath name other := by
  have hdigits := Decimal.ofNat_lt_ofNat h hother
  have hbracket : '[' :: (Decimal.ofNat index ++ [']']) < '[' :: (Decimal.ofNat other ++ [']']) :=
    List.cons_lt_cons_iff.2 (.inr ⟨rfl, hdigits⟩)
  rw [String.lt_iff_toList_lt, toList_itemPath, toList_itemPath, List.append_assoc,
    List.append_assoc]
  exact List.append_left_lt hbracket

theorem ascending_itemEntries (h : start + values.length ≤ 10) :
    Keyed.Ascending (itemEntries name start values) := by
  induction values generalizing start with
  | nil => exact List.Pairwise.nil
  | cons value rest ih =>
    rw [List.length_cons] at h
    rw [itemEntries_cons, Keyed.ascending_cons]
    refine ⟨?_, ih (by omega)⟩
    intro entry hentry
    obtain ⟨index, hkey, hle, hlt⟩ := exists_index_of_mem hentry
    rw [hkey]
    exact itemPath_lt (by omega) (by omega)

/-- With more than ten items the second name in order is that of a power of ten. -/
theorem exists_second_entry (hascending : Keyed.Ascending entries)
    (hmem : ∀ entry, entry ∈ entries ↔ entry ∈ itemEntries name 0 values)
    (hlength : 10 < values.length) :
    ∃ k first second rest, 10 ^ k < values.length ∧ values.length ≤ 10 ^ (k + 1) ∧
      entries = (itemPath name 0, first) :: (itemPath name (10 ^ k), second) :: rest := by
  have hpos : 0 < values.length := by omega
  -- No name comes in front of that of index zero, and behind it none in front of that of the power.
  have hfirst : ∃ rest, entries = (itemPath name 0, values[0]) :: rest := by
    apply Keyed.exists_eq_cons hascending
    · exact (hmem _).2 (mem_itemEntries hpos)
    · intro entry hentry hlt
      obtain ⟨index, hkey, -, -⟩ := exists_index_of_mem ((hmem _).1 hentry)
      rw [hkey] at hlt
      exact Decimal.zero_first index (lt_of_itemPath_lt hlt)
  obtain ⟨others, rfl⟩ := hfirst
  obtain ⟨hbehind, hothers⟩ := Keyed.ascending_cons.1 hascending
  obtain ⟨k, hindex, hmost⟩ := Decimal.exists_pow_lt_le (by omega : 1 < values.length)
  have hkpos : 0 < 10 ^ k := Nat.pow_pos (by decide)
  have hsecond : ∃ rest, others = (itemPath name (10 ^ k), values[10 ^ k]) :: rest := by
    apply Keyed.exists_eq_cons hothers
    · rcases List.mem_cons.1 ((hmem _).2 (mem_itemEntries hindex)) with heq | hother
      · have hzero : 10 ^ k = 0 := itemPath_inj (congrArg Prod.fst heq)
        omega
      · exact hother
    · intro entry hentry hbefore
      obtain ⟨index, hkey, -, hbound⟩ :=
        exists_index_of_mem ((hmem entry).1 (List.mem_cons_of_mem _ hentry))
      have hnonzero : 0 < index := by
        rcases Nat.eq_zero_or_pos index with rfl | hpos
        · exact absurd (hbehind entry hentry) (by rw [hkey]; exact lt_irrefl _)
        · exact hpos
      rw [hkey] at hbefore
      exact Decimal.pow_first hnonzero (by omega) (lt_of_itemPath_lt hbefore)
  obtain ⟨rest, rfl⟩ := hsecond
  exact ⟨k, _, _, rest, hindex, hmost, rfl⟩

end Path

/-! ## Writing items -/

/-- The items under a name, where nothing and null count as no items. -/
def Node.itemsAt? (name : String) (fields : Keyed Node) : Option (List Node) :=
  ((Keyed.find? name fields).getD .null).openItems?

theorem Node.itemsAt?_of_find? {name : String} {fields : Keyed Node}
    (h : Keyed.find? name fields = none) : itemsAt? name fields = some [] := by
  rw [itemsAt?, h]
  rfl

theorem Node.itemsAt?_insert (name : String) (items : List Node) (fields : Keyed Node) :
    itemsAt? name (Keyed.insert name (.array items) fields) = some items := by
  rw [itemsAt?, Keyed.find?_insert_self]
  rfl

namespace Override

variable {name : String} {index : Nat} {fields : Keyed Node} {items done : List Node}
  {values : List String}

theorem write_itemPath (hname : Path.IsName name.toList) (hindex : index < 2 ^ 63)
    (hitems : Node.itemsAt? name fields = some items) (value : Option String) :
    write ⟨Path.itemPath name index, value⟩ (.object fields) =
      if index ≤ items.length then
        ⟨.object (Keyed.insert name (.array (setItem items index (Node.ofText? value))) fields),
          none⟩
      else ⟨.object (Keyed.insert name (.array items) fields),
        some (.invalidWrite (.outOfBounds name index items.length))⟩ := by
  unfold Node.itemsAt? at hitems
  unfold write
  simp only [Path.parse_itemPath hname, Path.place?_ofNat, if_pos hindex, Except.map]
  by_cases hle : index ≤ items.length
  · simp [Path.write, Path.writeBelow, Path.segment, Node.openFields?, hitems, hle]
  · simp [Path.write, Path.writeBelow, Path.segment, Node.openFields?, hitems, hle]

/-- A 63-bit index beyond the end is out of bounds; a greater one is not even a path. -/
theorem error_write_itemPath (hname : Path.IsName name.toList)
    (hitems : Node.itemsAt? name fields = some items) (hlt : items.length < index)
    (value : Option String) :
    (write ⟨Path.itemPath name index, value⟩ (.object fields)).error =
      some (if index < 2 ^ 63 then .invalidWrite (.outOfBounds name index items.length)
        else .invalidPath (Path.itemPath name index) .noInteger) := by
  by_cases hindex : index < 2 ^ 63
  · rw [write_itemPath hname hindex hitems, if_neg hlt.not_ge, if_pos hindex]
  · rw [if_neg hindex]
    unfold write
    simp only [Path.parse_itemPath hname, Path.place?_ofNat, if_neg hindex, Except.map]

def ofProperties (properties : Keyed String) : List Override :=
  properties.map fun entry => ⟨entry.1, some entry.2⟩

/-- A run over items in the order of their indices appends one after the other. -/
theorem applyAll_itemEntries (hname : Path.IsName name.toList)
    (hdone : Node.itemsAt? name fields = some done)
    (hlength : done.length + values.length ≤ 2 ^ 63) (hne : values ≠ []) :
    applyAll (.object fields) (ofProperties (Path.itemEntries name done.length values)) =
      ⟨.object (Keyed.insert name (.array (done ++ values.map .scalar)) fields), none⟩ := by
  induction values generalizing fields done with
  | nil => exact absurd rfl hne
  | cons value rest ih =>
    rw [List.length_cons] at hlength
    have hindex : done.length < 2 ^ 63 := by omega
    have hwrite := write_itemPath hname hindex hdone (some value)
    rw [if_pos le_rfl] at hwrite
    have happend : setItem done done.length (Node.ofText? (some value)) =
        done ++ [.scalar value] := if_pos rfl
    rw [happend] at hwrite
    rw [Path.itemEntries_cons]
    show applyAll (.object fields) (⟨Path.itemPath name done.length, some value⟩ ::
      ofProperties (Path.itemEntries name (done.length + 1) rest)) = _
    rw [applyAll, hwrite]
    cases rest with
    | nil => rfl
    | cons second more =>
      have happended := Node.itemsAt?_insert name (done ++ [.scalar value]) fields
      have hbound : (done ++ [Node.scalar value]).length + (second :: more).length ≤ 2 ^ 63 := by
        rw [List.length_append, List.length_singleton]
        omega
      have hnext := ih happended hbound (List.cons_ne_nil _ _)
      rw [List.length_append, List.length_singleton, Keyed.insert_insert_self] at hnext
      simpa using hnext

theorem error_applyAll_second (hname : Path.IsName name.toList)
    (hfresh : Keyed.find? name fields = none) (hindex : 1 < index) (first second : String)
    (rest : Keyed String) :
    (applyAll (.object fields) (ofProperties
      ((Path.itemPath name 0, first) :: (Path.itemPath name index, second) :: rest))).error =
      some (.invalidOverride (Path.itemPath name index)
        (if index < 2 ^ 63 then .invalidWrite (.outOfBounds name index 1)
          else .invalidPath (Path.itemPath name index) .noInteger)) := by
  have hempty : Node.itemsAt? name fields = some [] := Node.itemsAt?_of_find? hfresh
  have hwrite := write_itemPath hname (by decide : 0 < 2 ^ 63) hempty (some first)
  rw [List.length_nil, if_pos le_rfl] at hwrite
  have hone := Node.itemsAt?_insert name [.scalar first] fields
  have herror := error_write_itemPath hname hone hindex (some second)
  show (applyAll (.object fields) (⟨Path.itemPath name 0, some first⟩ ::
    ⟨Path.itemPath name index, some second⟩ :: ofProperties rest)).error = _
  rw [applyAll, hwrite]
  show (applyAll (.object (Keyed.insert name (.array [.scalar first]) fields))
    (⟨Path.itemPath name index, some second⟩ :: ofProperties rest)).error = _
  rw [applyAll, herror]
  rfl

end Override

end LayeredConfig
