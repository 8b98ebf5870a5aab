import LayeredConfig.Yaml.Composition
import LayeredConfig.Yaml.Raw.Grammar
import LayeredConfig.Yaml.Token.Stream

set_option autoImplicit false

/-!
# Reading YAML

One document, from its tokens through its nodes to its value.
-/
namespace LayeredConfig.Yaml

def parse? (cs : List Char) : Option Value :=
  match tokens? cs with
  | none => none
  | some tokens => (RawDocument.ofTokens? tokens).bind RawDocument.value?

end LayeredConfig.Yaml
