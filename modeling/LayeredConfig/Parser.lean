import LayeredConfig.Error
import LayeredConfig.Json.Parser
import LayeredConfig.Text.Blank
import LayeredConfig.Toml.Parser
import LayeredConfig.Yaml.Conversion
import LayeredConfig.Yaml.Parser

set_option autoImplicit false

/-!
# Parsers of documents

A parser turns the bytes of a source into a tree, and an error of it may be any. Each format is one:
its bytes have to be UTF-8, and a YAML document of nothing but ASCII white space is empty.
-/
namespace LayeredConfig

/-- The origin names the source in errors. -/
structure Parser where
  parse : (origin : String) → (bytes : ByteArray) → Except ConfigError Node

namespace Format

/-- The tree that the bytes describe. -/
def parse? (format : Format) (bytes : ByteArray) : Option Node :=
  match format with
  | .yaml =>
    if bytes.toList.all Text.isAsciiBlank then some .null
    else (String.fromUTF8? bytes).bind fun text => (Yaml.parse? text.toList).map (·.toNode)
  | .json => (String.fromUTF8? bytes).bind fun text => (Json.parse? text.toList).map (·.toNode)
  | .toml => (String.fromUTF8? bytes).bind fun text => (Toml.parse? text.toList).map (·.toNode)

def parse (format : Format) (origin : String) (bytes : ByteArray) : Except ConfigError Node :=
  match format.parse? bytes with
  | some root => .ok root
  | none => .error (.unparsable origin (.format format bytes.data.toList))

def parser (format : Format) : Parser := ⟨format.parse⟩

end Format

end LayeredConfig
