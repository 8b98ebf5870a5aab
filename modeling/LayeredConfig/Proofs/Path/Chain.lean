import LayeredConfig.Path.Read
import LayeredConfig.Proofs.Node
import LayeredConfig.Proofs.Path.Grammar

set_option autoImplicit false

/-!
# The chain of a path

Each position of the chain splits the text of the path: what is consumed there is a path of its own,
with the steps up to the position, and what is left stands behind a dot or begins with a bracket. So
the node at a position is what reading the consumed text as a path gives.
-/
namespace LayeredConfig.Path

variable {rest text next done front remaining consumed : List Char}
variable {segments first before after : List Segment} {segment : Segment} {element : Element}
variable {steps : List Step} {source : String} {path : Path}

/-! ## Texts split at a segment -/

/-- What stands between the texts consumed and left. -/
def separator (remaining : List Char) : List Char :=
  if remaining = [] ∨ remaining.head? = some '[' then [] else ['.']

/-- The front of the text spells the steps, and the rest is left. -/
structure Splits (text : List Char) (steps : List Step) (front remaining : List Char) : Prop where
  text_eq : text = front ++ separator remaining ++ remaining
  front_ne_nil : front ≠ []
  spelled : ∃ elements, ChainText front elements ∧ elements.flatMap Element.steps = steps

/-- Up to the end of the first element. No name begins with a bracket, so a dot stands in front of
the next one. -/
theorem ElementText.splits (h : ElementText text element) (hrest : Continues text next rest)
    (hnext : next.head? ≠ some '[') : Splits rest element.steps text next where
  text_eq := by
    rcases hrest with ⟨rfl, rfl⟩ | ⟨hne, rfl⟩
    · simp [separator]
    · simp [separator, hne, hnext]
  front_ne_nil := h.ne_nil
  spelled := ⟨[element], .of_elementText h, List.flatMap_singleton _ _⟩

/-- Up to the bracket behind a name. -/
theorem IsName.splits {name : List Char} (h : IsName name) (behind : List Char) :
    Splits (name ++ '[' :: behind) [.property (String.ofList name)] name ('[' :: behind) where
  text_eq := by simp [separator]
  front_ne_nil := h.1
  spelled := ⟨[⟨String.ofList name, none⟩], .of_elementText (.name h), rfl⟩

/-- Behind an element and a dot. -/
theorem Splits.behind (h : Splits next steps front remaining) (helement : ElementText text element) :
    Splits (text ++ '.' :: next) (element.steps ++ steps) (text ++ '.' :: front) remaining where
  text_eq := by
    have hnext := h.text_eq
    simp [← hnext]
  front_ne_nil := by simp
  spelled := by
    obtain ⟨elements, hchain, rfl⟩ := h.spelled
    refine ⟨element :: elements, ?_, List.flatMap_cons⟩
    exact chainText_cons_iff.2 ⟨text, front, helement, .inr ⟨h.front_ne_nil, rfl⟩, hchain⟩

theorem ElementText.head?_ne_bracket (h : ElementText text element) : text.head? ≠ some '[' := by
  cases h with
  | name hname => exact fun hhead => hname.2.2 (List.mem_of_head? hhead)
  | indexed hname hbody =>
    rw [List.append_assoc, List.head?_append_of_ne_nil _ hname.1]
    exact fun hhead => hname.2.2 (List.mem_of_head? hhead)

theorem ChainText.head?_ne_bracket {elements : List Element} (h : ChainText text elements) :
    text.head? ≠ some '[' := by
  cases elements with
  | nil => simp [chainText_nil_iff.1 h]
  | cons element elements =>
    obtain ⟨front, next, hfront, hrest, -⟩ := chainText_cons_iff.1 h
    obtain ⟨after, -, rfl⟩ := hrest.exists_append
    rw [List.head?_append_of_ne_nil _ hfront.ne_nil]
    exact hfront.head?_ne_bracket

/-- The segment carries the texts of a split, behind what was consumed before. -/
def Carries (done text : List Char) (steps : List Step) (isLast : Prop) (segment : Segment) :
    Prop :=
  ∃ front remaining, segment.incoming = String.ofList (done ++ front) ∧
    segment.remaining = String.ofList remaining ∧ Splits text steps front remaining ∧
    (remaining = [] ↔ isLast)

theorem carries_of_element? (h : element? done rest = .ok (first, consumed, next))
    (hnext : next.head? ≠ some '[') (hsplit : first = before ++ segment :: after) :
    Carries done rest ((before ++ [segment]).map Segment.step) (after = [] ∧ next = [])
      segment := by
  obtain ⟨text, element, htext, hrest, -⟩ := exists_elementText_of_element? h
  have hwhole := htext.splits hrest hnext
  cases htext with
  | name hname =>
    rw [element?_name hname hrest done] at h
    obtain ⟨rfl, -⟩ := Prod.mk.inj (Except.ok.inj h)
    cases before with
    | nil =>
      obtain ⟨rfl, rfl⟩ := List.cons.inj hsplit
      exact ⟨_, next, rfl, rfl, hwhole, by simp⟩
    | cons other before => simp at hsplit
  | @indexed name body place hname hbody =>
    obtain ⟨behind, hbehind, rfl⟩ := hrest.exists_append
    have hname' := hname.splits (body ++ ']' :: behind)
    rw [show name ++ '[' :: body ++ [']'] ++ behind = name ++ '[' :: (body ++ ']' :: behind) by
      simp] at h hwhole ⊢
    rw [element?_placed hname hbody hbehind done] at h
    obtain ⟨rfl, -⟩ := Prod.mk.inj (Except.ok.inj h)
    rcases before with _ | ⟨own, _ | ⟨other, before⟩⟩
    · obtain ⟨rfl, rfl⟩ := List.cons.inj hsplit
      exact ⟨_, _, rfl, rfl, hname', by simp⟩
    · obtain ⟨rfl, hsecond⟩ := List.cons.inj hsplit
      obtain ⟨rfl, rfl⟩ := List.cons.inj hsecond
      exact ⟨_, next, rfl, rfl, hwhole, by simp⟩
    · simp at hsplit

theorem segments?_eq_nil_iff : segments? done rest = .ok [] ↔ rest = [] := by
  constructor
  · intro h
    obtain ⟨elements, hchain, hsteps⟩ := exists_chainText_of_segments? h
    cases elements with
    | nil => exact chainText_nil_iff.1 hchain
    | cons element elements => simp [Element.steps] at hsteps
  · rintro rfl
    simp [segments?]

/-- A segment of two lists behind one another is in the second or in the first. -/
theorem append_eq_append_cons {more : List Segment} (h : first ++ more = before ++ segment :: after) :
    (∃ front, before = first ++ front ∧ more = front ++ segment :: after) ∨
      ∃ back, first = before ++ segment :: back ∧ after = back ++ more := by
  rcases List.append_eq_append_iff.1 h with ⟨front, hbefore, hmore⟩ | ⟨back, hfirst, hback⟩
  · exact .inl ⟨front, hbefore, hmore⟩
  · cases back with
    | nil => exact .inl ⟨[], by simpa using hfirst.symm, by simpa using hback.symm⟩
    | cons own back =>
      obtain ⟨rfl, hafter⟩ := List.cons.inj hback
      exact .inr ⟨back, hfirst, hafter⟩

/-- Behind the first element and its dot the texts go on in those of what follows. -/
theorem Carries.behind {isLast : Prop}
    (h : Carries (upTo (done ++ text) next) next steps isLast segment)
    (helement : ElementText text element) (hrest : Continues text next rest) (hne : next ≠ []) :
    Carries done rest (element.steps ++ steps) isLast segment := by
  obtain ⟨front, remaining, hincoming, hremaining, hsplits, hlast⟩ := h
  obtain rfl : rest = text ++ '.' :: next := by
    rcases hrest with ⟨hnil, -⟩ | ⟨-, hrest⟩
    · exact absurd hnil hne
    · exact hrest
  refine ⟨text ++ '.' :: front, remaining, ?_, hremaining, hsplits.behind helement, hlast⟩
  simpa [upTo, hne] using hincoming

theorem carries_of_segments? (h : segments? done rest = .ok segments)
    (hsplit : segments = before ++ segment :: after) :
    Carries done rest ((before ++ [segment]).map Segment.step) (after = []) segment := by
  fun_induction segments? done rest generalizing segments before with
  | case1 done rest hempty =>
    obtain rfl : [] = segments := Except.ok.inj h
    simp at hsplit
  | case2 done rest hempty fault helement => simp at h
  | case3 done rest hempty first consumed next helement fault hmore ih => simp at h
  | case4 done rest hempty first consumed next helement more hmore ih =>
    obtain rfl : first ++ more = segments := Except.ok.inj h
    obtain ⟨text, element, htext, hrest, -⟩ := exists_elementText_of_element? helement
    obtain ⟨own, hown, hsteps⟩ := element?_of_elementText htext hrest done
    obtain ⟨rfl, rfl, -⟩ : first = own ∧ consumed = upTo (done ++ text) next ∧ next = next := by
      simpa [helement] using hown
    rcases append_eq_append_cons hsplit with ⟨front, rfl, hback⟩ | ⟨back, hfirst, rfl⟩
    · have hne : next ≠ [] := by
        rintro rfl
        rw [segments?_eq_nil_iff.2 rfl, hback] at hmore
        simp at hmore
      have hcarries := (ih hmore hback).behind htext hrest hne
      simpa [hsteps] using hcarries
    · obtain ⟨elements, hchain, -⟩ := exists_chainText_of_segments? hmore
      have hcarries := carries_of_element? helement hchain.head?_ne_bracket hfirst
      have hmore_nil : more = [] ↔ next = [] := by
        rw [← segments?_eq_nil_iff, hmore, Except.ok.injEq]
      simpa [hmore_nil] using hcarries

/-! ## Positions -/

theorem foldl_push {links : List Link} (h : links ≠ []) (segments : List Segment) :
    segments.foldl push links = links ++ segments.mapIdx fun i segment =>
      ⟨some segment.step, some (links.length - 1 + i), segment.incoming, segment.remaining⟩ := by
  induction segments generalizing links with
  | nil => simp
  | cons segment rest ih =>
    have hpos : 0 < links.length := List.length_pos_iff.2 h
    have hparent : ∀ i, links.length + 1 - 1 + i = links.length - 1 + (i + 1) := by
      intro i
      omega
    rw [List.foldl_cons, ih (by simp [push]), push, List.mapIdx_cons, List.append_assoc,
      List.length_append, List.length_singleton]
    simp only [hparent]
    rfl

theorem chain_eq (path : Path) : path.chain = ⟨none, none, "", path.text⟩ ::
    path.segments.mapIdx fun i segment =>
      ⟨some segment.step, some i, segment.incoming, segment.remaining⟩ := by
  simp [chain, foldl_push]

theorem length_chain (path : Path) : path.chain.length = path.segments.length + 1 := by
  simp [chain_eq]

theorem map_step_chain (path : Path) :
    path.chain.map Link.step = none :: path.steps.map some := by
  rw [chain_eq, List.map_cons, steps, List.map_map]
  refine congrArg (none :: ·) (List.ext_getElem? fun i => ?_)
  simp [Function.comp_def]

theorem getElem?_incomings (path : Path) (i : Nat) :
    path.incomings[i]? = path.chain[i]?.map Link.incoming := by
  rw [chain_eq, incomings]
  cases i <;> simp [Function.comp_def]

theorem exists_segment_of_chain {i : Nat} {link : Link} (h : path.chain[i + 1]? = some link) :
    ∃ segment, path.segments[i]? = some segment ∧
      link = ⟨some segment.step, some i, segment.incoming, segment.remaining⟩ := by
  rw [chain_eq, List.getElem?_cons_succ, List.getElem?_mapIdx] at h
  obtain ⟨segment, hsegment, rfl⟩ := Option.map_eq_some_iff.1 h
  exact ⟨segment, hsegment, rfl⟩

theorem length_trail (node : Option Node) (steps : List Step) :
    (trail node steps).length = steps.length + 1 := by
  induction steps generalizing node with
  | nil => rfl
  | cons step rest ih => simp [trail, ih]

theorem getElem?_trail (node : Option Node) {i : Nat} (h : i ≤ steps.length) :
    (trail node steps)[i]? = some (node.bind (·.follow? (steps.take i))) := by
  induction steps generalizing node i with
  | nil =>
    obtain rfl : i = 0 := Nat.le_zero.1 h
    cases node <;> rfl
  | cons step rest ih =>
    cases i with
    | zero => cases node <;> rfl
    | succ i =>
      rw [trail, List.getElem?_cons_succ, ih _ (Nat.le_of_succ_le_succ h), Option.bind_assoc]
      simp only [List.take_succ_cons, Node.follow?_cons]

theorem trail_none (steps : List Step) : trail none steps = List.replicate (steps.length + 1) none := by
  induction steps with
  | nil => rfl
  | cons step rest ih =>
    rw [trail, Option.bind_none, ih]
    rfl

/-- The tree is there up to some position and missing from the next one on. -/
theorem exists_trail_eq (root : Node) (steps : List Step) : ∃ found missing, found ≠ [] ∧
    trail (some root) steps = found.map some ++ List.replicate missing none := by
  induction steps generalizing root with
  | nil => exact ⟨[root], 0, by simp, rfl⟩
  | cons step rest ih =>
    rw [trail, Option.bind_some]
    cases root.step? step with
    | none => exact ⟨[root], rest.length + 1, by simp, by rw [trail_none]; rfl⟩
    | some child =>
      obtain ⟨found, missing, -, htrail⟩ := ih child
      exact ⟨root :: found, missing, by simp, by rw [htrail]; rfl⟩

/-! ## Parsed paths -/

theorem toList_text_of_parse (h : parse source = .ok path) :
    path.text.toList = dropFinalDot source.toList ∧
      segments? [] path.text.toList = .ok path.segments := by
  unfold parse at h
  dsimp only at h
  split at h
  · simp at h
  · rename_i segments hsegments
    obtain rfl := Except.ok.inj h
    simpa using hsegments

theorem getLast?_text_of_parse (h : parse source = .ok path) :
    path.text.toList.getLast? ≠ some '.' := by
  obtain ⟨elements, hchain, -⟩ := exists_chainText_of_segments? (toList_text_of_parse h).2
  exact hchain.getLast?_ne_dot

theorem source_of_parse (h : parse source = .ok path) :
    source = path.text ∨ source = path.text ++ "." := by
  have htext := (toList_text_of_parse h).1
  unfold dropFinalDot at htext
  split at htext
  · rename_i hdot
    refine .inr (String.toList_inj.1 ?_)
    rw [String.toList_append, htext]
    exact (List.dropLast_append_getLast? _ hdot).symm
  · exact .inl (String.toList_inj.1 htext.symm)

theorem ofList_eq_empty_iff {cs : List Char} : String.ofList cs = "" ↔ cs = [] := by
  rw [← String.toList_inj, String.toList_ofList]
  rfl

theorem ofList_separator (remaining : List Char) : String.ofList (separator remaining) =
    if String.ofList remaining = "" ∨ (String.ofList remaining).toList.head? = some '[' then ""
    else "." := by
  unfold separator
  simp only [ofList_eq_empty_iff, String.toList_ofList]
  split <;> rfl

/-- The texts at a segment, and the path that the text consumed there is by itself. -/
theorem texts_of_parse (h : parse source = .ok path) {i : Nat}
    (hi : path.segments[i]? = some segment) :
    path.text = segment.incoming ++
      (if segment.remaining = "" ∨ segment.remaining.toList.head? = some '[' then "" else ".") ++
        segment.remaining ∧
    (segment.remaining = "" ↔ i + 1 = path.segments.length) ∧
    ∃ own, parse segment.incoming = .ok own ∧ own.steps = path.steps.take (i + 1) := by
  obtain ⟨hlt, rfl⟩ := List.getElem?_eq_some_iff.1 hi
  have hsplit : path.segments = path.segments.take i ++ path.segments[i] ::
      path.segments.drop (i + 1) := by simp
  obtain ⟨front, remaining, hincoming, hremaining, hsplits, hlast⟩ :=
    carries_of_segments? (toList_text_of_parse h).2 hsplit
  obtain ⟨elements, hchain, hsteps⟩ := hsplits.spelled
  rw [List.nil_append] at hincoming
  refine ⟨?text, ?last, ?own⟩
  case text =>
    rw [hincoming, hremaining, ← ofList_separator, ← String.ofList_append, ← String.ofList_append,
      ← hsplits.text_eq, String.ofList_toList]
  case last =>
    rw [hremaining, ofList_eq_empty_iff, hlast, List.drop_eq_nil_iff]
    omega
  case own =>
    obtain ⟨own, hparse, hown⟩ := exists_parse_iff.2
      ⟨elements, ⟨front, hchain, .inl String.toList_ofList⟩, hsteps⟩
    refine ⟨own, hincoming ▸ hparse, ?_⟩
    rw [hown, steps, ← List.map_take, List.take_add_one, List.getElem?_eq_getElem hlt]
    rfl

theorem getElem?_positions (path : Path) (root : Node) {i : Nat} {link : Link}
    (h : path.chain[i]? = some link) : (path.positions root)[i]? =
      some (link.incoming, root.follow? (path.steps.take i)) := by
  have hle : i ≤ path.steps.length := by
    have hlt := (List.getElem?_eq_some_iff.1 h).1
    rw [length_chain] at hlt
    simpa [steps] using Nat.le_of_lt_succ hlt
  have hincoming : path.incomings[i]? = some link.incoming := by
    rw [getElem?_incomings, h, Option.map_some]
  have hnode := getElem?_trail (some root) hle
  rw [positions, List.getElem?_zip_eq_some]
  exact ⟨hincoming, hnode⟩

theorem length_positions (path : Path) (root : Node) :
    (path.positions root).length = path.chain.length := by
  simp [positions, incomings, length_trail, length_chain, steps]

theorem getLast?_positions (path : Path) (root : Node) :
    (path.positions root).getLast? = some (path.terminal, path.read root) := by
  have hlt : path.segments.length < path.chain.length := by
    rw [length_chain]
    exact Nat.lt_succ_self _
  have hlink := List.getElem?_eq_getElem hlt
  have hlast := getElem?_positions path root hlink
  have hterminal : path.terminal = path.chain[path.segments.length].incoming := by
    rw [terminal, List.getLastD_eq_getLast?, List.getLast?_eq_getElem?, getElem?_incomings]
    simp [incomings, hlink]
  have htake : path.steps.take path.segments.length = path.steps :=
    List.take_of_length_le (by simp [steps])
  rw [List.getLast?_eq_getElem?, length_positions, length_chain, Nat.add_sub_cancel, hlast,
    hterminal, htake, read]

theorem map_snd_positions (path : Path) (root : Node) :
    (path.positions root).map Prod.snd = trail (some root) path.steps := by
  rw [positions, List.map_snd_zip]
  simp [incomings, length_trail, steps]

/-- The chain of an accepted text carries this text, less one final dot, at each of its positions:
consumed, left, and a dot between the two unless one is empty or the rest begins with a bracket.
What is consumed at a position is by itself a path with the steps up to there, and the position has
the node that this path reads. In any tree nodes are there up to some position and missing from the
next one on, and the last is what the whole path reads. -/
theorem chain_of_parse (h : parse source = .ok path) :
    (source = path.text ∨ source = path.text ++ ".") ∧ path.text.toList.getLast? ≠ some '.' ∧
    path.chain[0]? = some ⟨none, none, "", path.text⟩ ∧
    (∀ i link, path.chain[i]? = some link →
      (0 < i → link.parent = some (i - 1) ∧ link.step.isSome) ∧
      path.text = link.incoming ++
        (if i = 0 ∨ link.remaining = "" ∨ link.remaining.toList.head? = some '[' then "" else ".") ++
          link.remaining ∧
      (link.remaining = "" ↔ i + 1 = path.chain.length) ∧
      ∃ own, parse link.incoming = .ok own ∧
        own.chain.map Link.step = (path.chain.take (i + 1)).map Link.step ∧
        ∀ root, (path.positions root)[i]? = some (link.incoming, own.read root)) ∧
    ∀ root, (path.positions root).length = path.chain.length ∧
      (path.positions root).getLast? = some (path.terminal, path.read root) ∧
      ∃ found missing, found ≠ [] ∧ (path.positions root).map Prod.snd =
        found.map some ++ List.replicate missing none := by
  refine ⟨source_of_parse h, getLast?_text_of_parse h, by rw [chain_eq]; rfl, ?_, ?_⟩
  · intro i link hlink
    -- The text consumed at a position is a path of as many steps as lie above the position.
    have hown : ∀ own : Path, own.steps = path.steps.take i →
        own.chain.map Link.step = (path.chain.take (i + 1)).map Link.step ∧
          ∀ root, (path.positions root)[i]? = some (link.incoming, own.read root) := by
      intro own hsteps
      refine ⟨?_, fun root => ?_⟩
      · rw [List.map_take, map_step_chain, map_step_chain, hsteps, List.take_succ_cons,
          List.map_take]
      · rw [read, hsteps]
        exact getElem?_positions path root hlink
    cases i with
    | zero =>
      obtain rfl : ⟨none, none, "", path.text⟩ = link := by
        rw [chain_eq] at hlink
        exact Option.some.inj hlink
      refine ⟨fun hpos => absurd hpos (Nat.lt_irrefl 0), by simp, ?_, ⟨"", "", []⟩, ?_, hown _ rfl⟩
      · have hnil : path.text.toList = [] ↔ path.segments = [] := by
          rw [← segments?_eq_nil_iff, (toList_text_of_parse h).2, Except.ok.injEq]
        rw [length_chain, Nat.add_right_cancel_iff, eq_comm (a := 0), List.length_eq_zero_iff, ← hnil,
          ← String.toList_inj]
        rfl
      · simp [parse, dropFinalDot, segments?]
    | succ i =>
      obtain ⟨segment, hsegment, rfl⟩ := exists_segment_of_chain hlink
      obtain ⟨htext, hlast, own, hparse, hsteps⟩ := texts_of_parse h hsegment
      refine ⟨fun _ => ⟨rfl, rfl⟩, ?_, ?_, own, hparse, hown own hsteps⟩
      · simpa using htext
      · rw [length_chain, Nat.add_right_cancel_iff]
        exact hlast
  · intro root
    refine ⟨length_positions path root, ?_, ?_⟩
    · exact getLast?_positions path root
    · rw [map_snd_positions]
      exact exists_trail_eq root path.steps

/-- The position behind the index, in a tree that ends above it. -/
theorem chain_of_parse_indexed :
    ∃ path, parse "a.b[2].ü." = .ok path ∧
      path.chain[3]? = some ⟨some (.index (.at 2)), some 2, "a.b[2]", "ü"⟩ ∧
      path.text = "a.b[2]" ++ "." ++ "ü" ∧
      (∃ own, parse "a.b[2]" = .ok own ∧ own.chain.map Link.step =
        [none, some (.property "a"), some (.property "b"), some (.index (.at 2))]) ∧
      ∃ found missing, found ≠ [] ∧
        [some (Node.object [("a", .null)]), some .null, none, none, none] =
          found.map some ++ List.replicate missing none := by
  have hparse : parse "a.b[2].ü." = .ok ⟨"a.b[2].ü.", "a.b[2].ü",
      [⟨.property "a", "a", "b[2].ü"⟩, ⟨.property "b", "a.b", "[2].ü"⟩,
        ⟨.index (.at 2), "a.b[2]", "ü"⟩, ⟨.property "ü", "a.b[2].ü", ""⟩]⟩ := by decide +kernel
  obtain ⟨-, -, -, hlinks, hpositions⟩ := chain_of_parse hparse
  obtain ⟨-, htext, -, own, hown, hsteps, -⟩ := hlinks 3 _ rfl
  rw [if_neg (by decide)] at htext
  exact ⟨_, hparse, rfl, htext, ⟨own, hown, hsteps⟩, (hpositions _).2.2⟩

end LayeredConfig.Path
