import LayeredConfig.Proofs.Node
import LayeredConfig.Proofs.Path.Grammar
import LayeredConfig.Settings.Basic

set_option autoImplicit false

/-!
# Paths behind paths

The steps that a text gives do not depend on what was read in front of it. So a path with a dot and
a second text behind it gives its own steps and then those of the second text, or is refused for the
same reason as the second text, and reading it is reading the one from where the other leads.
-/
namespace LayeredConfig

namespace Path

variable {rest text next : List Char} {front : List Element} {p q : String} {path : Path}

/-! ## Steps without the texts around them -/

/-- What an element gives, less the texts that its segments carry. -/
def stepsAndNext (read : List Segment × List Char × List Char) : List Step × List Char :=
  (read.1.map Segment.step, read.2.2)

theorem element?_stepsAndNext (done other rest : List Char) :
    (element? done rest).map stepsAndNext = (element? other rest).map stepsAndNext := by
  unfold element?
  dsimp only
  split
  · rfl
  · split
    · rfl
    · split <;> rfl
    · split
      · rfl
      · split <;> rfl

/-- The steps of a text that nothing stands in front of. -/
def steps? (text : List Char) : Except Fault (List Step) :=
  (segments? [] text).map (List.map Segment.step)

/-- What stands in front of a text changes neither its steps nor its fault. -/
theorem segments?_steps (done text : List Char) :
    (segments? done text).map (List.map Segment.step) = steps? text := by
  by_cases hempty : text = []
  · subst hempty
    simp [steps?, segments?]
  -- One element is read in the same way everywhere, and the text behind it is shorter.
  · have hread : ∀ done, (segments? done text).map (List.map Segment.step) =
        ((element? done text).map stepsAndNext).bind fun read =>
          (steps? read.2).map (read.1 ++ ·) := by
      intro done
      rw [segments?_eq_bind hempty]
      rcases helement : element? done text with fault | ⟨first, consumed, next⟩
      · rfl
      · have hshorter : next.length < text.length := element?_length helement
        have hnext := segments?_steps consumed next
        show ((segments? consumed next).map (first ++ ·)).map (List.map Segment.step) =
          (steps? next).map (first.map Segment.step ++ ·)
        rw [← hnext]
        cases segments? consumed next <;> simp [Except.map]
    rw [steps?, hread done, hread [], element?_stepsAndNext done []]
termination_by text.length

theorem steps?_of_elementText {element : Element} (h : ElementText text element)
    (hrest : Continues text next rest) :
    steps? rest = (steps? next).map (element.steps ++ ·) := by
  obtain ⟨first, hread, hfirst⟩ := element?_of_elementText h hrest []
  have hne : rest ≠ [] := by
    rcases hrest with ⟨-, rfl⟩ | ⟨-, rfl⟩
    · exact h.ne_nil
    · simp
  have hbelow : steps? next = (segments? (upTo text next) next).map (List.map Segment.step) :=
    (segments?_steps _ next).symm
  rw [hbelow, ← hfirst]
  unfold steps?
  rw [segments?_eq_bind hne, hread, Except.bind, List.nil_append]
  cases segments? (upTo text next) next <;> simp [Except.map]

theorem parse_steps (source : String) :
    (parse source).map steps = steps? (dropFinalDot source.toList) := by
  unfold parse steps?
  dsimp only
  cases segments? [] (dropFinalDot source.toList) <;> rfl

/-! ## Texts behind texts -/

/-- Both texts with a dot between them, unless one is empty. -/
def join (text rest : List Char) : List Char :=
  if rest = [] then text else if text = [] then rest else text ++ '.' :: rest

theorem Continues.join (h : Continues text next rest) (htext : text ≠ []) (more : List Char) :
    Continues text (join next more) (join rest more) := by
  have hrest : rest ≠ [] := by
    rcases h with ⟨-, rfl⟩ | ⟨-, rfl⟩
    · exact htext
    · simp
  by_cases hmore : more = []
  · simpa [Path.join, hmore] using h
  · rcases h with ⟨rfl, rfl⟩ | ⟨hnext, rfl⟩
    · exact .inr (by simp [Path.join, hmore, htext])
    · exact .inr (by simp [Path.join, hmore, hnext])

theorem steps?_join (h : ChainText text front) (rest : List Char) :
    steps? (join text rest) = (steps? rest).map (front.flatMap Element.steps ++ ·) := by
  induction front generalizing text with
  | nil =>
    obtain rfl : text = [] := chainText_nil_iff.1 h
    have hjoin : join [] rest = rest := by by_cases hrest : rest = [] <;> simp [join, hrest]
    rw [hjoin]
    cases steps? rest <;> rfl
  | cons element front ih =>
    obtain ⟨own, next, hown, hcontinues, hnext⟩ := chainText_cons_iff.1 h
    rw [steps?_of_elementText hown (hcontinues.join hown.ne_nil rest), ih hnext]
    cases steps? rest <;> simp [Except.map]

theorem dropFinalDot_append (htext : text ≠ []) (hdot : text.getLast? ≠ some '.')
    (hrest : rest ≠ ['.']) :
    dropFinalDot (text ++ '.' :: rest) = join text (dropFinalDot rest) := by
  cases rest with
  | nil => simp [dropFinalDot, join]
  | cons c more =>
    by_cases hlast : (c :: more).getLast? = some '.'
    · have hne : (c :: more).dropLast ≠ [] := by
        intro hnil
        have hsplit := List.dropLast_append_getLast? _ hlast
        rw [hnil] at hsplit
        exact hrest hsplit.symm
      simp_all [dropFinalDot, join, List.getLast?_append]
    · simp_all [dropFinalDot, join, List.getLast?_append]

/-- The steps of the joined text are those of the path and then those of the second text, and the
joined text has no faults but those of the second. -/
theorem parse_append (hp : parse p = .ok path) (hroot : path.steps ≠ [])
    (hdot : p.toList.getLast? ≠ some '.') (hq : q ≠ ".") :
    (parse (p ++ "." ++ q)).map steps = (parse q).map fun rest => path.steps ++ rest.steps := by
  obtain ⟨front, hspells, hsteps⟩ := exists_parse_iff.1 ⟨path, hp, rfl⟩
  have htext : dropFinalDot p.toList = p.toList := if_neg hdot
  have hchain : ChainText p.toList front := htext ▸ spells_iff.1 hspells
  have hne : p.toList ≠ [] := by
    intro hnil
    cases front with
    | nil => exact hroot hsteps.symm
    | cons element rest => exact hchain.ne_nil hnil
  have hrest : q.toList ≠ ['.'] := fun hdot => hq (String.toList_inj.1 hdot)
  have hjoined : (p ++ "." ++ q).toList = p.toList ++ '.' :: q.toList := by simp
  rw [parse_steps, hjoined, dropFinalDot_append hne hdot hrest, steps?_join hchain, hsteps,
    ← parse_steps]
  cases parse q <;> rfl

end Path

theorem Node.getD_follow?_emptyObject (steps : List Step) :
    (emptyObject.follow? steps).getD emptyObject = emptyObject := by
  cases steps with
  | nil => rfl
  | cons step rest =>
    cases step with
    | property name => rfl
    | index place => cases place <;> rfl

namespace Settings

variable {text : String} {path : Path} {fault : Path.Fault}

theorem get_of_parse (h : Path.parse text = .ok path) (settings : Settings) :
    settings.get text = .ok (path.read settings.root) := by
  simp only [get, h]

theorem sectionAt_of_parse (h : Path.parse text = .ok path) (settings : Settings) :
    settings.sectionAt text = .ok ((path.read settings.root).getD .emptyObject) := by
  simp only [sectionAt, get, h, Except.map]

theorem sectionAt_of_fault (h : Path.parse text = .error fault) (settings : Settings) :
    settings.sectionAt text = .error (.invalidPath text fault) := by
  simp only [sectionAt, get, h, Except.map]

/-- A dot and a second text behind a path are read from where the path leads: as steps, as a look-up
and as a section, where the section at the path may be missing or of any kind. What is wrong with
the joined text is wrong with the second one. -/
theorem sectionAt_append {p q : String} (hp : Path.parse p = .ok path) (hroot : path.steps ≠ [])
    (hdot : p.toList.getLast? ≠ some '.') (hq : q ≠ ".") :
    (Path.parse (p ++ "." ++ q)).map Path.steps =
      ((Path.parse q).map fun rest => path.steps ++ rest.steps) ∧
    (∀ rest, Path.parse q = .ok rest → ∀ settings : Settings,
      settings.get (p ++ "." ++ q) = .ok ((path.read settings.root).bind rest.read) ∧
      settings.sectionAt (p ++ "." ++ q) =
        (settings.sectionAt p).bind fun root => sectionAt ⟨root⟩ q) ∧
    ∀ fault, Path.parse q = .error fault → ∀ settings : Settings,
      settings.sectionAt (p ++ "." ++ q) = .error (.invalidPath (p ++ "." ++ q) fault) ∧
      ((settings.sectionAt p).bind fun root => sectionAt ⟨root⟩ q) =
        .error (.invalidPath q fault) := by
  have hsteps := Path.parse_append hp hroot hdot hq
  refine ⟨hsteps, ?_, ?_⟩
  · intro rest hrest settings
    rw [hrest] at hsteps
    cases hjoined : Path.parse (p ++ "." ++ q) with
    | error fault =>
      rw [hjoined] at hsteps
      cases hsteps
    | ok joined =>
      rw [hjoined] at hsteps
      have hsame : joined.steps = path.steps ++ rest.steps := Except.ok.inj hsteps
      have hread : joined.read settings.root = (path.read settings.root).bind rest.read := by
        unfold Path.read
        rw [hsame, Node.follow?_append]
      rw [get_of_parse hjoined, sectionAt_of_parse hjoined, sectionAt_of_parse hp, hread]
      refine ⟨rfl, ?_⟩
      rw [Except.bind, sectionAt_of_parse hrest]
      cases path.read settings.root with
      | some found => rfl
      | none => exact congrArg Except.ok (Node.getD_follow?_emptyObject rest.steps).symm
  · intro fault hfault settings
    rw [hfault] at hsteps
    cases hjoined : Path.parse (p ++ "." ++ q) with
    | error cause =>
      rw [hjoined] at hsteps
      obtain rfl : cause = fault := Except.error.inj hsteps
      rw [sectionAt_of_fault hjoined, sectionAt_of_parse hp]
      exact ⟨rfl, sectionAt_of_fault hfault _⟩
    | ok joined =>
      rw [hjoined] at hsteps
      cases hsteps

/-- The way leads through a null, of which the section below is missing. -/
theorem sectionAt_append_null :
    ∃ path rest, Path.parse "a[0]" = .ok path ∧ path.steps ≠ [] ∧
      "a[0]".toList.getLast? ≠ some '.' ∧ "b." ≠ "." ∧ Path.parse "b." = .ok rest ∧
      (Path.parse ("a[0]" ++ "." ++ "b.")).map Path.steps =
        .ok [.property "a", .index (.at 0), .property "b"] ∧
      sectionAt ⟨.object [("a", .array [.null])]⟩ ("a[0]" ++ "." ++ "b.") = .ok .emptyObject := by
  have hp : Path.parse "a[0]" = .ok ⟨"a[0]", "a[0]",
      [⟨.property "a", "a", "[0]"⟩, ⟨.index (.at 0), "a[0]", ""⟩]⟩ := by decide +kernel
  have hq : Path.parse "b." = .ok ⟨"b.", "b", [⟨.property "b", "b", ""⟩]⟩ := by decide +kernel
  have hroot : ∀ segment rest, Path.steps ⟨"a[0]", "a[0]", segment :: rest⟩ ≠ [] := by
    intro segment rest
    exact List.cons_ne_nil _ _
  have hdot : "a[0]".toList.getLast? ≠ some '.' := by decide
  have hne : "b." ≠ "." := by decide
  obtain ⟨hsteps, hread, -⟩ := sectionAt_append hp (hroot _ _) hdot hne
  refine ⟨_, _, hp, hroot _ _, hdot, hne, hq, ?_, ?_⟩
  · rw [hsteps, hq]
    rfl
  · rw [(hread _ hq _).2, sectionAt_of_parse hp, Except.bind, sectionAt_of_parse hq]
    rfl

end Settings

end LayeredConfig
