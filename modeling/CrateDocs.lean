import CrateDocs.Cache.Basic
import CrateDocs.Command.Chain
import CrateDocs.Command.Request
import CrateDocs.Command.Run
import CrateDocs.Command.Switch
import CrateDocs.Command.Usage
import CrateDocs.Crate.Load
import CrateDocs.Crate.Parse
import CrateDocs.Disk.Basic
import CrateDocs.Disk.Error
import CrateDocs.Disk.Folder
import CrateDocs.Disk.Foreign
import CrateDocs.Disk.Replace
import CrateDocs.Event
import CrateDocs.Extract.Basic
import CrateDocs.Extract.Crate
import CrateDocs.Extract.Kind
import CrateDocs.Extract.Modifiers
import CrateDocs.Fault
import CrateDocs.FunctionDoc.Basic
import CrateDocs.FunctionDoc.Schema
import CrateDocs.FunctionDoc.Tags
import CrateDocs.Generate.Basic
import CrateDocs.Generate.Discover
import CrateDocs.Json.Basic
import CrateDocs.Json.Reader
import CrateDocs.Json.Token
import CrateDocs.Json.Writer
import CrateDocs.Log.Config
import CrateDocs.Log.Kit
import CrateDocs.Log.Level
import CrateDocs.Log.Setup
import CrateDocs.Log.State
import CrateDocs.Main
import CrateDocs.Manifest
import CrateDocs.Package.Basic
import CrateDocs.Package.Version
import CrateDocs.Path
import CrateDocs.Proofs.Cache.Account
import CrateDocs.Proofs.Cache.Contents
import CrateDocs.Proofs.Cache.Failed
import CrateDocs.Proofs.Cache.Fuller
import CrateDocs.Proofs.Cache.Interleaved
import CrateDocs.Proofs.Cache.Map
import CrateDocs.Proofs.Cache.Slots
import CrateDocs.Proofs.Cache.Steps
import CrateDocs.Proofs.Cache.Stored
import CrateDocs.Proofs.Cache.Uncaught
import CrateDocs.Proofs.Cache.Update
import CrateDocs.Proofs.Command.Chain
import CrateDocs.Proofs.Crate.Asked
import CrateDocs.Proofs.Crate.Clean
import CrateDocs.Proofs.Crate.Declared
import CrateDocs.Proofs.Crate.Ends
import CrateDocs.Proofs.Crate.Grafts
import CrateDocs.Proofs.Crate.Layout
import CrateDocs.Proofs.Crate.Loaded
import CrateDocs.Proofs.Crate.Located
import CrateDocs.Proofs.Crate.Stops
import CrateDocs.Proofs.Crate.Survey
import CrateDocs.Proofs.Crate.Visits
import CrateDocs.Proofs.Disk.Files
import CrateDocs.Proofs.Disk.Folder
import CrateDocs.Proofs.Disk.Locate
import CrateDocs.Proofs.Disk.Making
import CrateDocs.Proofs.Disk.Marks
import CrateDocs.Proofs.Disk.Replace
import CrateDocs.Proofs.Disk.Storing
import CrateDocs.Proofs.Extract.Comments
import CrateDocs.Proofs.Extract.Documented
import CrateDocs.Proofs.Extract.Modifiers
import CrateDocs.Proofs.FunctionDoc.Conformance
import CrateDocs.Proofs.FunctionDoc.Layout
import CrateDocs.Proofs.FunctionDoc.Problems
import CrateDocs.Proofs.FunctionDoc.RoundTrip
import CrateDocs.Proofs.Generate.All
import CrateDocs.Proofs.Generate.Apart
import CrateDocs.Proofs.Generate.Each
import CrateDocs.Proofs.Generate.Effect
import CrateDocs.Proofs.Generate.Escapes
import CrateDocs.Proofs.Generate.Order
import CrateDocs.Proofs.Generate.Registry
import CrateDocs.Proofs.Json.Proper
import CrateDocs.Proofs.Json.RoundTrip
import CrateDocs.Proofs.Log.Applied
import CrateDocs.Proofs.Log.Explicit
import CrateDocs.Proofs.Log.Hierarchy
import CrateDocs.Proofs.Package.Key
import CrateDocs.Proofs.Package.Precedence
import CrateDocs.Proofs.Package.SemVer
import CrateDocs.Proofs.Package.Tokens
import CrateDocs.Proofs.Package.Version
import CrateDocs.Proofs.Query.ByName
import CrateDocs.Proofs.Query.Outcomes
import CrateDocs.Proofs.Query.Resolve
import CrateDocs.Proofs.Result
import CrateDocs.Proofs.Rust.Lexemes
import CrateDocs.Proofs.Rust.Signatures
import CrateDocs.Proofs.Settings.Home
import CrateDocs.Proofs.Syntax.Errors
import CrateDocs.Proofs.Syntax.Leaves
import CrateDocs.Proofs.Syntax.Neat
import CrateDocs.Proofs.Syntax.Passes
import CrateDocs.Proofs.Syntax.Reading
import CrateDocs.Proofs.Syntax.Tokens
import CrateDocs.Proofs.Text.Percent
import CrateDocs.Proofs.Text.Raw
import CrateDocs.Proofs.Text.Split
import CrateDocs.Proofs.Text.Trim
import CrateDocs.Proofs.Text.Utf8
import CrateDocs.Proofs.Work.Gives
import CrateDocs.Proofs.Work.Reads
import CrateDocs.Query.Basic
import CrateDocs.Query.Resolve
import CrateDocs.Rust.Grammar
import CrateDocs.Rust.Lexeme
import CrateDocs.Rust.Parse
import CrateDocs.Rust.Rule
import CrateDocs.Settings.Basic
import CrateDocs.Settings.EnvFile
import CrateDocs.Settings.Home
import CrateDocs.Syntax.Node
import CrateDocs.Syntax.Pattern
import CrateDocs.Syntax.Signature
import CrateDocs.Syntax.Source
import CrateDocs.Syntax.Tree
import CrateDocs.Text.Blank
import CrateDocs.Text.Digit
import CrateDocs.Text.Identifier
import CrateDocs.Text.Percent
import CrateDocs.Text.Pieces
import CrateDocs.Text.Printable
import CrateDocs.Text.Quoted
import CrateDocs.Text.Ranges
import CrateDocs.Text.Raw
import CrateDocs.Text.Utf8
import CrateDocs.Toml.Basic
import CrateDocs.Toml.Document
import CrateDocs.Toml.Number
import CrateDocs.Toml.Text
import CrateDocs.Toml.Value
import CrateDocs.World
import CrateDocs.Yaml.Document
import CrateDocs.Yaml.Scalar
import CrateDocs.Yaml.Token
import CrateDocs.Yaml.Value
