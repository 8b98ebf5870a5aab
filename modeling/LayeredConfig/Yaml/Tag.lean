set_option autoImplicit false

/-!
# Tags

A tag is a run of bytes, since its escapes may spell bytes that are no characters, and each of its
parts ends at a NUL. A tag that starts with an exclamation mark is local to its document; any other
is a name that all documents share.
-/
namespace LayeredConfig.Yaml

structure Tag where
  bytes : List UInt8
deriving DecidableEq, Repr

namespace Tag

def ofString (s : String) : Tag := ⟨s.toUTF8.data.toList⟩

/-- A part of a tag, which ends at the first NUL. -/
def part (bytes : List UInt8) : Tag := ⟨bytes.takeWhile (· != 0)⟩

/-- A tag in full: what its handle stands for, and the suffix. -/
def join (start suffix : Tag) : Tag := ⟨start.bytes ++ suffix.bytes⟩

def isEmpty (tag : Tag) : Bool := tag.bytes.isEmpty

def isLocal (tag : Tag) : Bool := tag.bytes.head? == some '!'.toUInt8

/-- The characters of a tag, if its bytes spell any. -/
def text? (tag : Tag) : Option String := String.fromUTF8? ⟨tag.bytes.toArray⟩

/-- Drops an exclamation mark in front of something else. -/
def dropMark : List Char → List Char
  | '!' :: c :: rest => c :: rest
  | cs => cs

/-- The name that a local tag gives to its value. A second exclamation mark makes no other name. -/
def name? (tag : Tag) : Option String :=
  if tag.isLocal then tag.text?.map fun s => String.ofList (dropMark (dropMark s.toList)) else none

/-- A standard tag, which asks for one kind of value. -/
def standard (kind : String) : Tag := ofString ("tag:yaml.org,2002:" ++ kind)

end Tag

end LayeredConfig.Yaml
