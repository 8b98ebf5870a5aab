import Mathlib.Algebra.Group.Nat.Defs
import Mathlib.Data.List.Forall2
import LayeredConfig.Path.Parser
import LayeredConfig.Proofs.Decimal.Digits

set_option autoImplicit false

/-!
# The grammar of paths

A path is a sequence of elements between dots, and one more dot may follow. An element is a name, or
a name with one place in brackets. The parser accepts exactly the texts of this grammar, and the
steps of the path are those of its elements.
-/
namespace LayeredConfig.Path

/-- A name has no dot and no opening bracket, but may have a closing one. -/
def IsName (cs : List Char) : Prop := cs ≠ [] ∧ '.' ∉ cs ∧ '[' ∉ cs

/-- What stands between brackets. An index may have a sign and leading zeros. -/
inductive PlaceText : List Char → Place → Prop where
  | pastEnd : PlaceText ".length".toList .pastEnd
  | «at» {body : List Char} {index : Nat} :
      Decimal.IsInteger true body index → index < 2 ^ 63 → PlaceText body (.at index)

structure Element where
  name : String
  place : Option Place

def Element.steps (element : Element) : List Step :=
  .property element.name :: (element.place.map .index).toList

inductive ElementText : List Char → Element → Prop where
  | name {name : List Char} : IsName name → ElementText name ⟨String.ofList name, none⟩
  | indexed {name body : List Char} {place : Place} : IsName name → PlaceText body place →
      ElementText (name ++ '[' :: body ++ [']']) ⟨String.ofList name, some place⟩

/-- The elements between dots. -/
def ChainText (text : List Char) (elements : List Element) : Prop :=
  ∃ texts, List.Forall₂ ElementText texts elements ∧ text = ['.'].intercalate texts

/-- The elements between dots, with or without a dot at the end. -/
def Spells (source : String) (elements : List Element) : Prop :=
  ∃ text, ChainText text elements ∧ (source.toList = text ∨ source.toList = text ++ ['.'])

variable {name body text rest next done after : List Char} {place : Place} {element : Element}
variable {elements : List Element}

theorem PlaceText.ne_nil (h : PlaceText body place) : body ≠ [] := by
  cases h with
  | pastEnd => decide
  | «at» hinteger hlt => exact hinteger.ne_nil

theorem PlaceText.closing_notMem (h : PlaceText body place) : ']' ∉ body := by
  cases h with
  | pastEnd => decide
  | «at» hinteger hlt =>
    intro hmem
    rcases hinteger.sign_or_digit hmem with hc | hc | hc
    · exact absurd hc (by decide)
    · exact absurd hc (by decide)
    · exact absurd hc (by decide)

theorem place?_eq_ok_iff : place? body = .ok place ↔ PlaceText body place := by
  have hpow : (Nat.pow 2 63 : Int) = 2 ^ 63 := rfl
  constructor
  · intro h
    unfold place? at h
    split at h
    · rename_i hbody
      obtain rfl : Place.pastEnd = place := Except.ok.inj h
      exact hbody ▸ .pastEnd
    · split at h
      · simp at h
      · rename_i n hn
        have hinteger : Decimal.IsInteger true body n := Decimal.integer?_ten_eq_some_iff.1 hn
        split at h
        · simp at h
        · rename_i hrange
          split at h
          · simp at h
          · obtain rfl : Place.at n.toNat = place := Except.ok.inj h
            rw [hpow] at hrange
            have hcast : (n.toNat : Int) = n := by omega
            refine .at (hcast.symm ▸ hinteger) ?_
            omega
  · rintro (_ | ⟨hinteger, hlt⟩)
    · rfl
    · rename_i index
      have hread : Decimal.integer? 10 true body = some (index : Int) :=
        Decimal.integer?_ten_eq_some_iff.2 hinteger
      have hbody : body ≠ ".length".toList := by
        rintro rfl
        exact absurd hread (by simp [Decimal.integer?, Decimal.natural?, Decimal.foldDigits,
          Decimal.digit?_ten])
      have hrange : ¬ ((index : Int) < -(Nat.pow 2 63 : Int) ∨ (Nat.pow 2 63 : Int) ≤ index) := by
        rw [hpow]
        omega
      unfold place?
      rw [if_neg hbody, hread]
      simp only [hrange, if_false]
      simp

/-- The closing bracket that counts is the first one. -/
theorem index?_of_closing (hne : body ≠ []) (hclosing : ']' ∉ body) (after : List Char) :
    index? ('[' :: (body ++ ']' :: after)) =
      (place? body).map fun place => (place, '[' :: body ++ [']'], after) := by
  have hbody : ∀ c ∈ body, c != ']' := by
    intro c hc
    have hother : c ≠ ']' := fun heq => hclosing (heq ▸ hc)
    simpa using hother
  have hsize : ¬ (String.ofList ('[' :: (body ++ ']' :: after))).utf8ByteSize < 3 := by
    obtain ⟨first, more, rfl⟩ := List.exists_cons_of_ne_nil hne
    have hfirst := first.utf8Size_pos
    have hopen : '['.utf8Size = 1 := rfl
    have hclose : ']'.utf8Size = 1 := rfl
    simp only [List.cons_append, String.ofList_cons, String.ofList_append,
      String.utf8ByteSize_append, String.utf8ByteSize_singleton]
    omega
  have htake : (body ++ ']' :: after).takeWhile (· != ']') = body := by
    rw [List.takeWhile_append_of_pos hbody]
    simp
  have hdrop : (body ++ ']' :: after).dropWhile (· != ']') = ']' :: after := by
    rw [List.dropWhile_append_of_pos hbody]
    simp
  unfold index?
  rw [if_neg hsize]
  simp only [List.tail_cons, htake, hdrop]
  cases place? body <;> rfl

/-- No place contains a closing bracket. -/
theorem index?_eq_ok_iff {written : List Char} :
    index? ('[' :: rest) = .ok (place, written, after) ↔
      ∃ body, PlaceText body place ∧ rest = body ++ ']' :: after ∧
        written = '[' :: body ++ [']'] := by
  constructor
  · intro h
    unfold index? at h
    split at h
    · simp at h
    · dsimp only [List.tail_cons] at h
      split at h
      · simp at h
      · rename_i c behind hdrop
        split at h
        · simp at h
        · rename_i found hplace
          obtain ⟨rfl, rfl, rfl⟩ : found = place ∧
              '[' :: rest.takeWhile (· != ']') ++ [']'] = written ∧ behind = after := by
            simpa using h
          have hsplit := List.takeWhile_append_dropWhile (p := (· != ']')) (l := rest)
          have hclosing : c = ']' := by
            have hhead := List.head?_dropWhile_not (· != ']') rest
            simpa [hdrop] using hhead
          rw [hdrop, hclosing] at hsplit
          exact ⟨_, place?_eq_ok_iff.1 hplace, hsplit.symm, rfl⟩
  · rintro ⟨body, hbody, rfl, rfl⟩
    rw [index?_of_closing hbody.ne_nil hbody.closing_notMem, place?_eq_ok_iff.2 hbody]
    rfl

/-- The rest is the element alone, or a dot and more text stand behind it. -/
def Continues (text next rest : List Char) : Prop :=
  next = [] ∧ rest = text ∨ next ≠ [] ∧ rest = text ++ '.' :: next

theorem afterIndex?_eq_ok_iff : afterIndex? after = .ok next ↔ Continues [] next after := by
  unfold afterIndex? Continues
  split <;> simp_all [eq_comm]

theorem Continues.append (h : Continues [] next after) (text : List Char) :
    Continues text next (text ++ after) := by
  rcases h with ⟨hnext, rfl⟩ | ⟨hnext, rfl⟩
  · exact .inl ⟨hnext, List.append_nil text⟩
  · exact .inr ⟨hnext, rfl⟩

theorem Continues.exists_append (h : Continues text next rest) :
    ∃ after, Continues [] next after ∧ rest = text ++ after := by
  rcases h with ⟨hnext, rfl⟩ | ⟨hnext, rfl⟩
  · exact ⟨[], .inl ⟨hnext, rfl⟩, (List.append_nil rest).symm⟩
  · exact ⟨'.' :: next, .inr ⟨hnext, rfl⟩, rfl⟩

theorem isNameChar_iff {c : Char} : isNameChar c ↔ c ≠ '.' ∧ c ≠ '[' := by
  simp [isNameChar]

theorem isName_takeWhile (h : rest.takeWhile isNameChar ≠ []) :
    IsName (rest.takeWhile isNameChar) := by
  have hchars : ∀ c ∈ rest.takeWhile isNameChar, c ≠ '.' ∧ c ≠ '[' := fun c hc =>
    isNameChar_iff.1 (List.all_eq_true.1 List.all_takeWhile c hc)
  exact ⟨h, fun hdot => (hchars _ hdot).1 rfl, fun hopen => (hchars _ hopen).2 rfl⟩

/-- A name ends where the text ends or a dot or an opening bracket comes. -/
theorem IsName.span (h : IsName name) (tail : List Char)
    (htail : tail = [] ∨ tail.head? = some '.' ∨ tail.head? = some '[') :
    (name ++ tail).takeWhile isNameChar = name ∧ (name ++ tail).dropWhile isNameChar = tail := by
  have hname : ∀ c ∈ name, isNameChar c := by
    intro c hc
    exact isNameChar_iff.2 ⟨fun heq => h.2.1 (heq ▸ hc), fun heq => h.2.2 (heq ▸ hc)⟩
  rw [List.takeWhile_append_of_pos hname, List.dropWhile_append_of_pos hname]
  cases tail with
  | nil => simp
  | cons c more =>
    have hstop : isNameChar c = false := by
      rcases htail with hnil | hdot | hopen
      · exact absurd hnil (List.cons_ne_nil _ _)
      · obtain rfl : c = '.' := by simpa using hdot
        rfl
      · obtain rfl : c = '[' := by simpa using hopen
        rfl
    simp [hstop]

theorem exists_elementText_of_element? {segments : List Segment} {consumed : List Char}
    (h : element? done rest = .ok (segments, consumed, next)) :
    ∃ text element, ElementText text element ∧ Continues text next rest ∧
      segments.map Segment.step = element.steps := by
  have hsplit := List.takeWhile_append_dropWhile (p := isNameChar) (l := rest)
  unfold element? at h
  dsimp only at h
  split at h
  · simp at h
  · rename_i hempty
    have hname : IsName (rest.takeWhile isNameChar) := isName_takeWhile (by simpa using hempty)
    split at h
    · rename_i htail
      obtain ⟨rfl, -, rfl⟩ : _ = segments ∧ _ = consumed ∧ [] = next := by simpa using h
      rw [htail, List.append_nil] at hsplit
      exact ⟨_, _, .name hname, .inl ⟨rfl, hsplit.symm⟩, rfl⟩
    · rename_i behind htail
      split at h
      · simp at h
      · rename_i hbehind
        obtain ⟨rfl, -, rfl⟩ : _ = segments ∧ _ = consumed ∧ behind = next := by simpa using h
        rw [htail] at hsplit
        exact ⟨_, _, .name hname, .inr ⟨by simpa using hbehind, hsplit.symm⟩, rfl⟩
    · rename_i c behind hdot htail
      split at h
      · simp at h
      · rename_i place written after hindex
        split at h
        · simp at h
        · rename_i following hafter
          obtain ⟨rfl, -, rfl⟩ : _ = segments ∧ _ = consumed ∧ following = next := by simpa using h
          have hopen : c = '[' := by
            have hhead := List.head?_dropWhile_not isNameChar rest
            rw [htail] at hhead
            by_contra hc
            have hin : isNameChar c := isNameChar_iff.2 ⟨fun heq => hdot heq, hc⟩
            simp [hin] at hhead
          rw [htail, hopen] at hindex
          obtain ⟨body, hbody, rfl, -⟩ := index?_eq_ok_iff.1 hindex
          rw [htail, hopen] at hsplit
          have hcontinues := (afterIndex?_eq_ok_iff.1 hafter).append
            (rest.takeWhile isNameChar ++ '[' :: body ++ [']'])
          refine ⟨_, _, .indexed hname hbody, ?_, rfl⟩
          simpa [hsplit] using hcontinues

/-- The text consumed in front of what comes next, with the dot between them. -/
def upTo (done next : List Char) : List Char := if next.isEmpty then done else done ++ ['.']

theorem element?_name (hname : IsName name) (hrest : Continues name next rest)
    (done : List Char) : element? done rest =
      .ok ([segment (.property (String.ofList name)) (done ++ name) next], upTo (done ++ name) next,
        next) := by
  rcases hrest with ⟨rfl, rfl⟩ | ⟨hnext, rfl⟩
  · obtain ⟨htake, hdrop⟩ := hname.span [] (.inl rfl)
    rw [List.append_nil] at htake hdrop
    unfold element?
    simp [htake, hdrop, hname.1, upTo]
  · obtain ⟨htake, hdrop⟩ := hname.span ('.' :: next) (.inr (.inl rfl))
    unfold element?
    simp [htake, hdrop, hname.1, hnext, upTo]

theorem element?_placed (hname : IsName name) (hbody : PlaceText body place)
    (hafter : Continues [] next after) (done : List Char) :
    element? done (name ++ '[' :: (body ++ ']' :: after)) =
      .ok ([segment (.property (String.ofList name)) (done ++ name) ('[' :: (body ++ ']' :: after)),
          segment (.index place) (done ++ (name ++ '[' :: body ++ [']'])) next],
        upTo (done ++ (name ++ '[' :: body ++ [']'])) next, next) := by
  have hindex : index? ('[' :: (body ++ ']' :: after)) =
      .ok (place, '[' :: body ++ [']'], after) := index?_eq_ok_iff.2 ⟨body, hbody, rfl, rfl⟩
  have hread := afterIndex?_eq_ok_iff.2 hafter
  obtain ⟨htake, hdrop⟩ := hname.span ('[' :: (body ++ ']' :: after)) (.inr (.inr rfl))
  unfold element?
  simp [htake, hdrop, hname.1, hindex, hread, upTo]

theorem element?_of_elementText (h : ElementText text element) (hrest : Continues text next rest)
    (done : List Char) : ∃ segments,
      element? done rest = .ok (segments, upTo (done ++ text) next, next) ∧
        segments.map Segment.step = element.steps := by
  cases h with
  | name hname => exact ⟨_, element?_name hname hrest done, rfl⟩
  | @indexed name body place hname hbody =>
    obtain ⟨after, hafter, rfl⟩ := hrest.exists_append
    have hread := element?_placed hname hbody hafter done
    rw [show name ++ '[' :: body ++ [']'] ++ after = name ++ '[' :: (body ++ ']' :: after) by simp]
    exact ⟨_, hread, rfl⟩

theorem ElementText.ne_nil (h : ElementText text element) : text ≠ [] := by
  cases h with
  | name hname => exact hname.1
  | indexed hname hbody => simp

theorem ElementText.getLast?_ne_dot (h : ElementText text element) : text.getLast? ≠ some '.' := by
  cases h with
  | name hname => exact fun hlast => hname.2.1 (List.mem_of_getLast? hlast)
  | indexed hname hbody =>
    rw [List.getLast?_concat]
    decide

theorem chainText_nil_iff : ChainText text [] ↔ text = [] := by
  constructor
  · rintro ⟨texts, htexts, rfl⟩
    cases htexts
    rfl
  · rintro rfl
    exact ⟨[], .nil, rfl⟩

theorem ChainText.ne_nil (h : ChainText text (element :: elements)) : text ≠ [] := by
  obtain ⟨texts, htexts, rfl⟩ := h
  cases htexts with
  | @cons front _ fronts _ hfront hfronts =>
    cases fronts with
    | nil => simpa using hfront.ne_nil
    | cons second more => simp [List.intercalate_cons_cons, hfront.ne_nil]

theorem chainText_cons_iff : ChainText rest (element :: elements) ↔
    ∃ text next, ElementText text element ∧ Continues text next rest ∧ ChainText next elements := by
  constructor
  · rintro ⟨texts, htexts, rfl⟩
    cases htexts with
    | @cons front _ fronts _ hfront hfronts =>
      have hchain : ChainText (['.'].intercalate fronts) elements := ⟨fronts, hfronts, rfl⟩
      refine ⟨front, ['.'].intercalate fronts, hfront, ?_, hchain⟩
      cases hfronts with
      | nil => exact .inl ⟨rfl, by simp⟩
      | cons hsecond hmore => exact .inr ⟨hchain.ne_nil, by simp [List.intercalate_cons_cons]⟩
  · rintro ⟨text, next, htext, hrest, texts, htexts, rfl⟩
    refine ⟨text :: texts, .cons htext htexts, ?_⟩
    cases htexts with
    | nil =>
      rcases hrest with ⟨-, rfl⟩ | ⟨hnext, -⟩
      · simp
      · simp at hnext
    | @cons second element' fronts elements' hsecond hmore =>
      have hne : ['.'].intercalate (second :: fronts) ≠ [] :=
        ChainText.ne_nil ⟨second :: fronts, .cons hsecond hmore, rfl⟩
      rcases hrest with ⟨hnil, -⟩ | ⟨-, rfl⟩
      · exact absurd hnil hne
      · simp [List.intercalate_cons_cons]

theorem ChainText.of_elementText (h : ElementText text element) : ChainText text [element] :=
  chainText_cons_iff.2 ⟨text, [], h, .inl ⟨rfl, rfl⟩, chainText_nil_iff.2 rfl⟩

theorem Continues.getLast?_ne_dot (h : Continues text next rest) (htext : text.getLast? ≠ some '.')
    (hnext : next.getLast? ≠ some '.') : rest.getLast? ≠ some '.' := by
  rcases h with ⟨-, rfl⟩ | ⟨hne, rfl⟩
  · exact htext
  · obtain ⟨c, more, rfl⟩ := List.exists_cons_of_ne_nil hne
    rwa [List.getLast?_append_of_ne_nil _ (List.cons_ne_nil _ _), List.getLast?_cons_cons]

theorem ChainText.getLast?_ne_dot (h : ChainText text elements) : text.getLast? ≠ some '.' := by
  induction elements generalizing text with
  | nil => simp [chainText_nil_iff.1 h]
  | cons element rest ih =>
    obtain ⟨front, next, hfront, hrest, hnext⟩ := chainText_cons_iff.1 h
    exact hrest.getLast?_ne_dot hfront.getLast?_ne_dot (ih hnext)

theorem exists_chainText_of_segments? {segments : List Segment}
    (h : segments? done rest = .ok segments) :
    ∃ elements, ChainText rest elements ∧
      segments.map Segment.step = elements.flatMap Element.steps := by
  fun_induction segments? done rest generalizing segments with
  | case1 done rest hempty =>
    obtain rfl : [] = segments := Except.ok.inj h
    exact ⟨[], chainText_nil_iff.2 (by simpa using hempty), rfl⟩
  | case2 done rest hempty fault helement => simp at h
  | case3 done rest hempty first consumed next helement fault hmore ih => simp at h
  | case4 done rest hempty first consumed next helement more hmore ih =>
    obtain rfl : first ++ more = segments := Except.ok.inj h
    obtain ⟨text, element, htext, hrest, hfirst⟩ := exists_elementText_of_element? helement
    obtain ⟨elements, hnext, hsteps⟩ := ih hmore
    refine ⟨element :: elements, chainText_cons_iff.2 ⟨text, next, htext, hrest, hnext⟩, ?_⟩
    rw [List.map_append, hfirst, hsteps, List.flatMap_cons]

/-- The first element, then the segments of what follows it. -/
theorem segments?_eq_bind (h : rest ≠ []) : segments? done rest =
    (element? done rest).bind fun read => (segments? read.2.1 read.2.2).map (read.1 ++ ·) := by
  have hfalse : rest.isEmpty = false := by simpa using h
  rw [segments?, hfalse]
  simp only [Bool.false_eq_true, if_false]
  split
  · rename_i hread
    rw [hread]
    rfl
  · rename_i first consumed next hread
    rw [hread]
    show _ = (segments? consumed next).map (first ++ ·)
    cases segments? consumed next <;> rfl

theorem segments?_of_chainText (h : ChainText rest elements) (done : List Char) :
    ∃ segments, segments? done rest = .ok segments ∧
      segments.map Segment.step = elements.flatMap Element.steps := by
  induction elements generalizing done rest with
  | nil =>
    obtain rfl := chainText_nil_iff.1 h
    exact ⟨[], by simp [segments?], rfl⟩
  | cons element elements ih =>
    obtain ⟨text, next, htext, hrest, hnext⟩ := chainText_cons_iff.1 h
    obtain ⟨first, helement, hfirst⟩ := element?_of_elementText htext hrest done
    obtain ⟨more, hmore, hsteps⟩ := ih hnext (upTo (done ++ text) next)
    refine ⟨first ++ more, ?_, ?_⟩
    · rw [segments?_eq_bind h.ne_nil, helement, Except.bind, hmore, Except.map]
    · rw [List.map_append, hfirst, hsteps, List.flatMap_cons]

theorem spells_iff {source : String} :
    Spells source elements ↔ ChainText (dropFinalDot source.toList) elements := by
  unfold dropFinalDot
  constructor
  · rintro ⟨text, htext, hsource | hsource⟩
    · rw [hsource, if_neg htext.getLast?_ne_dot]
      exact htext
    · rw [hsource]
      simpa using htext
  · intro h
    refine ⟨_, h, ?_⟩
    split
    · rename_i hdot
      exact .inr (List.dropLast_append_getLast? _ hdot).symm
    · exact .inl rfl

/-- The parser accepts what the grammar spells, with the steps of the elements. -/
theorem exists_parse_iff {source : String} {steps : List Step} :
    (∃ path, parse source = .ok path ∧ path.steps = steps) ↔
      ∃ elements, Spells source elements ∧ elements.flatMap Element.steps = steps := by
  constructor
  · rintro ⟨path, hparse, rfl⟩
    unfold parse at hparse
    dsimp only at hparse
    split at hparse
    · simp at hparse
    · rename_i segments hsegments
      obtain ⟨elements, hchain, hsteps⟩ := exists_chainText_of_segments? hsegments
      refine ⟨elements, spells_iff.2 hchain, ?_⟩
      rw [← hsteps, ← Except.ok.inj hparse]
      rfl
  · rintro ⟨elements, hspells, rfl⟩
    obtain ⟨segments, hsegments, hsteps⟩ := segments?_of_chainText (spells_iff.1 hspells) []
    refine ⟨⟨source, String.ofList (dropFinalDot source.toList), segments⟩, ?_, hsteps⟩
    unfold parse
    simp only [hsegments]

end LayeredConfig.Path
