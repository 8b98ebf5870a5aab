import LayeredConfig.Settings.Layers

set_option autoImplicit false

/-!
# Application contexts

A context owns the settings of one run. They are attached as finished settings or as layers that
are built with the context; the last attachment counts.
-/
namespace LayeredConfig

inductive Attachment where
  | settings (settings : Settings)
  | layers (layers : Layers)

inductive ContextError where
  | configuration (cause : ConfigError)
  | atSection (path : String) (cause : ConfigError)
  | noConfiguration
deriving DecidableEq, Repr

def ContextError.message : ContextError → String
  | .configuration cause => "configuration error: " ++ cause.message
  | .atSection path cause =>
    "failed to create configuration at " ++ inQuotes path ++ ": " ++ cause.message
  | .noConfiguration => "application context requires a configuration"

structure Context where
  settings : Settings

namespace Context

def build (files : Files) (attachments : List Attachment) : Except ContextError Context :=
  match attachments.getLast? with
  | none => .error .noConfiguration
  | some (.settings settings) => .ok ⟨settings⟩
  | some (.layers layers) => ((layers.build files).mapError .configuration).map .mk

def decode (context : Context) (path : String) (schema : Schema) : Except ContextError Value :=
  (context.settings.decode path schema).mapError (.atSection path)

end Context

end LayeredConfig
