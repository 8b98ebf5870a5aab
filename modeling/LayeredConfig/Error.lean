import LayeredConfig.Format
import LayeredConfig.Path.Fault
import LayeredConfig.Path.Write
import LayeredConfig.Schema.Error

set_option autoImplicit false

/-!
# Errors of a configuration

Each error is its cause with what a message has to name. What the reader of a format finds wrong
depends on nothing but the bytes it was given. Its words are those of its library, and no message
here has them; the words of any other error end the message.
-/
namespace LayeredConfig

/-- Why a document was refused. -/
inductive Refusal where
  | format (format : Format) (bytes : List UInt8)
  | said (words : String)
deriving DecidableEq, Repr

inductive ConfigError where
  | fileNotFound (path : String)
  | unreadable (path words : String)
  | unparsable (origin : String) (cause : Refusal)
  | invalidPath (path : String) (fault : Path.Fault)
  | invalidWrite (cause : WriteError)
  | invalidOverride (path : String) (cause : ConfigError)
  | undecodable (cause : DecodeError)
deriving DecidableEq, Repr

def inQuotes (s : String) : String := "'" ++ s ++ "'"

def WriteError.message : WriteError → String
  | .emptyPath => "cannot write through an empty config path"
  | .unexpectedNode path field expected found =>
    "cannot write " ++ inQuotes field ++ ": expected " ++ expected.name ++ " node at " ++
      inQuotes path ++ ", found " ++ found.name
  | .outOfBounds path index length =>
    "array index " ++ toString index ++ " is out of bounds at " ++ inQuotes path ++
      " (length " ++ toString length ++ ")"

/-- How a message goes on with the words of an error. -/
def Refusal.tail : Refusal → String
  | .format _ _ => ""
  | .said words => ": " ++ words

def ConfigError.message : ConfigError → String
  | .fileNotFound path => "required config file not found: " ++ path
  | .unreadable path words => "failed to read config file " ++ inQuotes path ++ ": " ++ words
  | .unparsable origin cause =>
    "failed to parse config source " ++ inQuotes origin ++ cause.tail
  | .invalidPath path fault => "invalid config path " ++ inQuotes path ++ ": " ++ fault.message
  | .invalidWrite cause => cause.message
  | .invalidOverride path cause =>
    "invalid override for " ++ inQuotes path ++ ": " ++ cause.message
  | .undecodable cause => "failed to deserialize config: " ++ cause.message

end LayeredConfig
