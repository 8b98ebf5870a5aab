import LayeredConfig.Error
import LayeredConfig.Path.Parser
import LayeredConfig.Path.Read
import LayeredConfig.Schema.Decode

set_option autoImplicit false

/-!
# Finished settings

A tree whose sections are looked up by path and decoded at a schema. A section that is missing or
null decodes as an empty object.
-/
namespace LayeredConfig

def Node.decode (node : Node) (schema : Schema) : Except ConfigError Value :=
  (schema.decode .parsed node).mapError .undecodable

structure Settings where
  root : Node

namespace Settings

/-- The node at a path, if the tree reaches it. -/
def get (settings : Settings) (path : String) : Except ConfigError (Option Node) :=
  match Path.parse path with
  | .error fault => .error (.invalidPath path fault)
  | .ok parsed => .ok (parsed.read settings.root)

/-- The node at a path, or an empty object. -/
def sectionAt (settings : Settings) (path : String) : Except ConfigError Node :=
  (settings.get path).map (·.getD .emptyObject)

def decode (settings : Settings) (path : String) (schema : Schema) : Except ConfigError Value :=
  (settings.get path).bind fun found =>
    match found with
    | none => Node.emptyObject.decode schema
    | some .null => Node.emptyObject.decode schema
    | some node => node.decode schema

end Settings

end LayeredConfig
