import LayeredConfig.Proofs.Format
import LayeredConfig.Proofs.Settings.Build

set_option autoImplicit false

/-!
# Sources without a document

A source is vacant if it loads, but there is no document or only a null. Its place among the other
sources does not matter: a build is the same without it.
-/
namespace LayeredConfig

/-- The source loads, and there is no document or only a null. -/
def Source.Vacant (files : Files) (source : Source) : Prop :=
  source.load files = .ok none ∨ source.load files = .ok (some .null)

namespace Source

variable {files : Files} {parser : Parser} {name path text : String}

theorem vacant_document (name : String) : (document name .null).Vacant files := .inr rfl

theorem vacant_parsed (h : parser.parse name text.toUTF8 = .ok .null) :
    (parsed name text parser).Vacant files :=
  .inr (congrArg (Except.map some) h)

theorem vacant_missing (h : files.read path = .missing) (own : Option Parser) :
    (file path false own).Vacant files := by
  left
  change FileSource.load ⟨path, false, own⟩ files = _
  rw [FileSource.load, FileSource.bytes?, h]
  rfl

/-- A file is vacant if its own parser, or else that of its format, finds a null in it. -/
theorem vacant_file {bytes : ByteArray} {own : Option Parser}
    (hread : files.read path = .bytes bytes)
    (h : (own.getD (Format.ofPath path).parser).parse path bytes = .ok .null) (required : Bool) :
    (file path required own).Vacant files := by
  right
  change FileSource.load ⟨path, required, own⟩ files = _
  rw [FileSource.load, FileSource.bytes?, hread]
  exact congrArg (Except.map some) h

end Source

namespace Layers

/-- Some vacant sources of a list are taken out, and `kept` are left in their order. -/
inductive Thins (files : Files) : List Source → List Source → Prop
  | nil : Thins files [] []
  | keep (source : Source) {kept sources : List Source} (h : Thins files kept sources) :
      Thins files (source :: kept) (source :: sources)
  | drop {source : Source} {kept sources : List Source} (hvacant : source.Vacant files)
      (h : Thins files kept sources) : Thins files kept (source :: sources)

variable {files : Files} {kept sources : List Source} {source : Source}

theorem documents_cons_of_vacant (h : source.Vacant files) (rest : List Source) :
    documents files (source :: rest) = documents files rest := by
  rw [documents]
  rcases h with h | h <;> rw [h] <;> cases documents files rest <;> rfl

theorem documents_of_thins (h : Thins files kept sources) :
    documents files kept = documents files sources := by
  induction h with
  | nil => rfl
  | keep source h ih => rw [documents, documents, ih]
  | drop hvacant h ih => rw [documents_cons_of_vacant hvacant, ih]

/-- A build without some of its vacant sources, wherever they stand, gives the same settings or the
same error. Vacant are a null given in code, an optional file that is missing, and a text or a file
in which its parser finds a null. The parser of a format does in a text that spells one. -/
theorem build_thinned (files : Files) (layers : Layers) :
    (∀ kept, Thins files kept layers.sources →
      build files { layers with sources := kept } = layers.build files) ∧
    (∀ name, (Source.document name .null).Vacant files) ∧
    (∀ path own, files.read path = .missing → (Source.file path false own).Vacant files) ∧
    (∀ (parser : Parser) name text, parser.parse name text.toUTF8 = .ok .null →
      (Source.parsed name text parser).Vacant files) ∧
    (∀ path required own bytes, files.read path = .bytes bytes →
      (own.getD (Format.ofPath path).parser).parse path bytes = .ok .null →
      (Source.file path required own).Vacant files) ∧
    ∀ format text, Format.SpellsNull format text →
      (∀ name, (Source.text name text format).Vacant files) ∧
      ∀ path required own, files.read path = .bytes text.toUTF8 →
        own.getD (Format.ofPath path).parser = format.parser →
        (Source.file path required own).Vacant files := by
  refine ⟨?thinned, Source.vacant_document, fun _ own h => Source.vacant_missing h own,
    fun _ _ _ => Source.vacant_parsed,
    fun _ required _ _ hread h => Source.vacant_file hread h required,
    fun format text h =>
      ⟨fun name => Source.vacant_parsed (Format.parse_of_spellsNull h name), ?file⟩⟩
  case thinned =>
    intro kept hkept
    unfold build
    rw [documents_of_thins hkept]
    rfl
  case file =>
    intro path required own hread hown
    refine Source.vacant_file hread ?_ required
    rw [hown]
    exact Format.parse_of_spellsNull h path

/-- A missing file stands first and two nulls between the objects, of which one is found in a file
by the parser that comes with it. A source of another kind has no document, and behind it stand a
blank text and a JSON null. -/
theorem build_thinned_between : ∃ (files : Files) (sources : List Source),
    files.read "/etc/app.ini" = .bytes "".toUTF8 ∧
    sources = [.file "app.yml" false none, .document "a" (.object [("x", .scalar "1")]),
      .document "nothing" .null, .file "/etc/app.ini" true (some ⟨fun _ _ => .ok .null⟩),
      .document "b" (.object [("y", .scalar "2")]), ⟨"remote", fun _ => .ok none⟩,
      .text "blank" "\t\n" .yaml, .text "last" " null\n" .json] ∧
    Thins files [.document "a" (.object [("x", .scalar "1")]),
      .document "b" (.object [("y", .scalar "2")])] sources ∧
    build files ⟨sources, none, [⟨"y", none⟩]⟩ =
      .ok ⟨.object [("x", .scalar "1"), ("y", .null)]⟩ := by
  have hblank : Format.SpellsNull .yaml "\t\n" := .yaml (by simp [Format.asciiBlanks])
  have hword : Format.SpellsNull .json (String.ofList ([' '] ++ "null".toList ++ ['\n'])) :=
    .json (by simp [Json.isSpace]) (by simp [Json.isSpace])
  let files : Files := ⟨fun path => if path = "/etc/app.ini" then .bytes "".toUTF8 else .missing⟩
  have hread : files.read "/etc/app.ini" = .bytes "".toUTF8 := by simp [files]
  have hnone : files.read "app.yml" = .missing := by simp [files]
  obtain ⟨-, hdocument, hmissing, -, hfile, hspelled⟩ := build_thinned files ⟨[], none, []⟩
  have hthins := Thins.drop (hmissing "app.yml" none hnone)
    (.keep (.document "a" (.object [("x", .scalar "1")]))
      (.drop (hdocument "nothing")
        (.drop (hfile "/etc/app.ini" true (some ⟨fun _ _ => .ok .null⟩) _ hread rfl)
          (.keep (.document "b" (.object [("y", .scalar "2")]))
            (.drop (.inl rfl : (⟨"remote", fun _ => .ok none⟩ : Source).Vacant files)
              (.drop ((hspelled _ _ hblank).1 "blank")
                (.drop ((hspelled _ _ hword).1 "last") .nil)))))))
  refine ⟨files, _, hread, rfl, hthins, ?_⟩
  have hbuild := (build_thinned _ ⟨_, none, [⟨"y", none⟩]⟩).1 _ hthins
  exact hbuild.symm.trans (build_of_applyAll rfl (by decide +kernel))

end Layers

end LayeredConfig
