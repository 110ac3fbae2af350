import Phrasebook.Text.Blank
import Phrasebook.Text.Bytes
import Phrasebook.Text.Hex
import Phrasebook.Files.Path
import Phrasebook.Dict
import Phrasebook.Tag
import Phrasebook.Decimal.Binary
import Phrasebook.Decimal.Shortest
import Phrasebook.Decimal.Reader
import Phrasebook.Json.Basic
import Phrasebook.Json.Reader
import Phrasebook.Variables
import Phrasebook.Template
import Phrasebook.Language
import Phrasebook.Locale
import Phrasebook.Negotiation
import Phrasebook.Catalog.Source
import Phrasebook.Catalog
import Phrasebook.Settings.Basic
import Phrasebook.Settings.Identifier
import Phrasebook.Settings.Validity
import Phrasebook.Data.Basic
import Phrasebook.Data.Scalar
import Phrasebook.Settings.Codec
import Phrasebook.Json.Document
import Phrasebook.Translator
import Phrasebook.Display
import Phrasebook.Display.Channel
import Phrasebook.Display.Record
import Phrasebook.Console.Screen
import Phrasebook.Console.Command
import Phrasebook.Files.Basic
import Phrasebook.Files.Directory
import Phrasebook.Settings.Format
import Phrasebook.Settings.Store
import Phrasebook.Console
import Phrasebook.Session
import Phrasebook.Text.Alphanumeric
import Phrasebook.LogFilter
import Phrasebook.Yaml.Document
import Phrasebook.Toml.Table
import Phrasebook.Toml.Document
import Phrasebook.Toml.Printer
import Phrasebook.Yaml.Printer
import Phrasebook.Main
import Phrasebook.Proofs.Dict
import Phrasebook.Proofs.Text.Blank
import Phrasebook.Proofs.Text.Bytes
import Phrasebook.Proofs.Text.Order
import Phrasebook.Proofs.Files.Path
import Phrasebook.Proofs.Tag.Substitution
import Phrasebook.Proofs.Json.Canonical
import Phrasebook.Proofs.Json.Text
import Phrasebook.Proofs.Template
import Phrasebook.Proofs.Data.Shape
import Phrasebook.Proofs.Tag.Cut
import Phrasebook.Proofs.Tag.Scan
import Phrasebook.Proofs.Tag.Splice
import Phrasebook.Proofs.Tag.Pass
import Phrasebook.Proofs.Tag.Simultaneous
import Phrasebook.Proofs.Template.Canonical
import Phrasebook.Proofs.Catalog.Decoding
import Phrasebook.Proofs.Catalog.Source
import Phrasebook.Proofs.Catalog.Leaves
import Phrasebook.Proofs.Catalog.Flattening
import Phrasebook.Proofs.Catalog.Compilation
import Phrasebook.Proofs.Negotiation
import Phrasebook.Proofs.Negotiation.Best
import Phrasebook.Proofs.Translator
import Phrasebook.Proofs.Translator.Switching
import Phrasebook.Proofs.Translator.Expansion
import Phrasebook.Proofs.Translator.Passes
import Phrasebook.Proofs.Translator.Coverage
import Phrasebook.Proofs.Locale
import Phrasebook.Proofs.Locale.Sources
import Phrasebook.Proofs.Decimal.Value
import Phrasebook.Proofs.Settings.Identifier
import Phrasebook.Proofs.Settings.Validity
import Phrasebook.Proofs.Settings.Faults
import Phrasebook.Proofs.Settings.Codec
import Phrasebook.Proofs.Settings.Store
import Phrasebook.Proofs.Files.Directory
import Phrasebook.Proofs.Display.Walk
import Phrasebook.Proofs.Display.FanOut
import Phrasebook.Proofs.Display.Traversal
import Phrasebook.Proofs.Console.Run
import Phrasebook.Proofs.Console.History
import Phrasebook.Proofs.Negotiation.Primary
import Phrasebook.Proofs.Console.Frame
import Phrasebook.Proofs.Console.Selection
import Phrasebook.Proofs.Console.Screen
import Phrasebook.Proofs.Console.Outline
import Phrasebook.Proofs.Console.Surface
import Phrasebook.Proofs.Console.Reading
import Phrasebook.Proofs.Console.Labels
import Phrasebook.Proofs.Console.Restart
import Phrasebook.Proofs.Console.Grammar
import Phrasebook.Proofs.Template.Reading
