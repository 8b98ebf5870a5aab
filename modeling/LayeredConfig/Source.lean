import LayeredConfig.Parser

set_option autoImplicit false

/-!
# Sources

One layer of a configuration. A source has a name, and loading it gives a document, none at all, or
an error; what it loads may depend on the files there are. A tree given in code, a text with a
parser, and a file are sources. A file that does not exist is an error if it is required, and no
document otherwise.
-/
namespace LayeredConfig

/-- `origin` is what messages call the source. -/
structure Source where
  origin : String
  load : Files → Except ConfigError (Option Node)

/-- A file. Without a parser of its own it has that of its format. -/
structure FileSource where
  path : String
  required : Bool
  parser : Option Parser

namespace FileSource

/-- The bytes of the file, if it exists. -/
def bytes? (file : FileSource) (files : Files) : Except ConfigError (Option ByteArray) :=
  match files.read file.path with
  | .bytes bytes => .ok (some bytes)
  | .missing => if file.required then .error (.fileNotFound file.path) else .ok none
  | .unreadable words => .error (.unreadable file.path words)

def load (file : FileSource) (files : Files) : Except ConfigError (Option Node) :=
  (file.bytes? files).bind fun found =>
    match found with
    | none => .ok none
    | some bytes =>
      ((file.parser.getD (Format.ofPath file.path).parser).parse file.path bytes).map some

end FileSource

namespace Source

def document (name : String) (root : Node) : Source := ⟨name, fun _ => .ok (some root)⟩

def parsed (name text : String) (parser : Parser) : Source :=
  ⟨name, fun _ => (parser.parse name text.toUTF8).map some⟩

def text (name text : String) (format : Format) : Source := parsed name text format.parser

def file (path : String) (required : Bool) (parser : Option Parser) : Source :=
  ⟨path, FileSource.load ⟨path, required, parser⟩⟩

end Source

end LayeredConfig
