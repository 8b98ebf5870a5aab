import LayeredConfig.Context
import LayeredConfig.Environment.Builder
import LayeredConfig.Json.Printer
import LayeredConfig.Proofs.Path.WriteFailure
import LayeredConfig.Proofs.Settings.Precedence
import LayeredConfig.Proofs.Override.Document
import LayeredConfig.Proofs.Path.Agreement
import LayeredConfig.Proofs.Override.Replay
import LayeredConfig.Proofs.Decimal.Digits
import LayeredConfig.Proofs.Path.Grammar
import LayeredConfig.Proofs.Path.Rendering
import LayeredConfig.Proofs.Json.RoundTrip
import LayeredConfig.Proofs.Merge.Grouping
import LayeredConfig.Proofs.Override.Order
import LayeredConfig.Proofs.Path.Concatenation
import LayeredConfig.Proofs.Decimal.TextOrder
import LayeredConfig.Proofs.Settings.IndexedProperties
import LayeredConfig.Proofs.Path.Chain
import LayeredConfig.Proofs.Override.Failure
import LayeredConfig.Proofs.Settings.FirstFailure
import LayeredConfig.Proofs.Settings.Root
import LayeredConfig.Proofs.Schema.Encoding
import LayeredConfig.Proofs.Schema.Primitive
import LayeredConfig.Proofs.Schema.Records
import LayeredConfig.Proofs.Schema.RoundTrip
import LayeredConfig.Proofs.Schema.Sequence
import LayeredConfig.Proofs.Format
import LayeredConfig.Proofs.Settings.Vacancy
import LayeredConfig.Proofs.Settings.Section
import LayeredConfig.Proofs.Environment.Resolution
import LayeredConfig.Proofs.Settings.Isolation
import LayeredConfig.Proofs.Path.Overwrite
import LayeredConfig.Proofs.Path.Outcome
import LayeredConfig.Proofs.Document
import LayeredConfig.Proofs.Override.Appending
import LayeredConfig.Proofs.Merge.Repetition
import LayeredConfig.Proofs.Environment.VariableName
import LayeredConfig.Proofs.Environment.Views
import LayeredConfig.Proofs.Text.Trim
import LayeredConfig.Proofs.Yaml.Keys
import LayeredConfig.Proofs.Environment.Interleaving
import LayeredConfig.Proofs.Schema.Variants
import LayeredConfig.Proofs.Schema.Maps
import LayeredConfig.Proofs.Schema.Reading
import LayeredConfig.Proofs.Schema.Untagged
