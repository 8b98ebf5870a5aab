import LayeredConfig.Yaml.Tag

set_option autoImplicit false

/-!
# Tokens of YAML

Indentation shows as tokens that open and close block collections, and a key in front of a colon as
a token before the key. `plain` tells whether a scalar stands without quotes.
-/
namespace LayeredConfig.Yaml

inductive Token where
  | versionDirective (major minor : Nat)
  | tagDirective (handle : String) (start : Tag)
  | documentStart
  | documentEnd
  | streamEnd
  | blockSequenceStart
  | blockMappingStart
  | blockEnd
  | flowSequenceStart
  | flowSequenceEnd
  | flowMappingStart
  | flowMappingEnd
  | blockEntry
  | flowEntry
  | key
  | value
  | alias (name : String)
  | anchor (name : String)
  | tag (handle : String) (suffix : Tag)
  | scalar (text : String) (plain : Bool)
deriving DecidableEq, Repr

end LayeredConfig.Yaml
