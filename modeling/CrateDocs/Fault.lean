import CrateDocs.Disk.Error
import CrateDocs.FunctionDoc.Schema
import CrateDocs.Syntax.Source
import CrateDocs.Text.Raw
import CrateDocs.Toml.Basic
import CrateDocs.Yaml.Value

namespace CrateDocs

-- Why the content of a manifest cannot be read.
inductive ManifestFlaw
  | notUtf8
  | notToml (flaw : Toml.Flaw)
deriving DecidableEq, Repr

-- The errors of the program itself, each with what led to it.
inductive Fault
  | noManifest (root : Path) (cause : DiskError)
  | unreadableManifest (manifest : Path) (cause : DiskError)
  | invalidManifest (manifest : Path) (flaw : ManifestFlaw)
  | noPackageTable (manifest : Path)
  | badPackageField (manifest : Path) (key : String)
  | noEntryPoint (root : Path)
  | unparsable (entry : Path) (diagnostics : List Syntax.Diagnostic)
  | unsupportedVisibility (text : String) (span : Syntax.Span)
  | unsupportedQualifier (text : String) (span : Syntax.Span)
  | unsupportedAbi (name : String) (span : Syntax.Span)
  | cacheNotWritten (file : Path) (cause : DiskTrouble)
  | cacheNotListed (root : Path) (cause : DiskError)
  | cacheNotRemoved (folder : Path) (cause : DiskError)
  | registryNotListed (folder : Path) (cause : DiskError)
  | noHome
  | allFailed (failures : List (Path × Fault))
deriving Repr

namespace Fault

-- The places of an entry file below a package's root, in the order they are looked at.
def entryPoints : List String := ["src/lib.rs", "src/main.rs"]

def message : Fault → String
  | noManifest root _ => s!"No Cargo.toml found in {root.text}"
  | unreadableManifest manifest _ => s!"Could not read {manifest.text}"
  | invalidManifest manifest _ => s!"{manifest.text} is not valid UTF-8 TOML"
  | noPackageTable manifest => s!"{manifest.text} has no [package] table"
  | badPackageField manifest key => s!"{manifest.text}: package.{key} must be a non-empty string"
  | noEntryPoint root =>
    "No entry point in " ++ root.text ++ ": expected one of " ++ ", ".intercalate entryPoints
  | unparsable entry diagnostics => s!"Failed to parse {entry.text}: {diagnostics.length} error(s)"
  | unsupportedVisibility text span =>
    s!"Unsupported visibility {Text.quoted text} at {span.text}"
  | unsupportedQualifier text span =>
    s!"Unsupported function qualifier {Text.quoted text} at {span.text}"
  | unsupportedAbi name span => s!"Unsupported ABI {Text.quoted name} at {span.text}"
  | cacheNotWritten file _ => s!"Failed to write documentation cache {file.text}"
  | cacheNotListed root _ => s!"Failed to list documentation cache root {root.text}"
  | cacheNotRemoved folder _ => s!"Failed to remove documentation cache {folder.text}"
  | registryNotListed folder _ => s!"Failed to list Cargo registry sources {folder.text}"
  | noHome => "Could not determine the home directory"
  | allFailed failures => s!"Documentation generation failed for all {failures.length} packages"

end Fault

-- Why a configuration of the log is refused.
inductive LogFlaw
  | noVersion
  | unsupportedVersion (version : String)
  | unknownLevel (name : String)
  | badLogger (name : String)
  | badHandler (name : String)
  | badFormatter (name : String)
  | badFilter (name : String)
  | noHandler (name : String)
  | badRoot
  | notIterable (kind : String)
  | notSequence
  | notPairs (length : Nat)
  | notYaml (flaw : Yaml.Flaw)
deriving DecidableEq, Repr

-- Everything that can end an operation, or lead to something that does.
inductive Failure
  | fault (f : Fault)
  | disk (e : DiskError)
  | manifest (flaw : ManifestFlaw)
  | unknownTag (tag kind : String)
  | homeUnknown
  | digits (e : Text.TooManyDigits)
  | schema (problems : List FunctionDoc.Problem)
  | log (flaw : LogFlaw)
  | notUtf8
  | broken (flaw : Toml.Flaw)
  | noPath
  | unencodable (e : Unencodable)
  | unserializable (e : Unencodable)
  | tooDeep
  | otherNode (kind : String)
deriving Repr

def LogFlaw.message : LogFlaw → String
  | noVersion => "dictionary doesn't specify a version"
  | unsupportedVersion version => s!"Unsupported version: {version}"
  | unknownLevel name => s!"Unknown level: {Text.quoted name}"
  | badLogger name => s!"Unable to configure logger {Text.quoted name}"
  | badHandler name => s!"Unable to configure handler {Text.quoted name}"
  | badFormatter name => s!"Unable to configure formatter {Text.quoted name}"
  | badFilter name => s!"Unable to configure filter {Text.quoted name}"
  | noHandler name => s!"No handler found with name {Text.quoted name}"
  | badRoot => "Unable to configure root logger"
  | notIterable kind => s!"'{kind}' object is not iterable"
  | notSequence => "cannot convert dictionary update sequence element #0 to a sequence"
  | notPairs length => s!"dictionary update sequence element #0 has length {length}; 2 is required"
  | notYaml _ => "not a YAML document"

namespace Failure

def message : Failure → String
  | fault f => f.message
  | disk e => e.message
  | manifest .notUtf8 => "not UTF-8"
  | manifest (.notToml _) => "not TOML"
  | unknownTag name kind => s!"{Text.quoted name} is not a valid {kind}"
  | homeUnknown => "Could not determine home directory."
  | digits e => e.message
  | schema problems => s!"{problems.length} problems in the data"
  | log flaw => flaw.message
  | notUtf8 => "not UTF-8"
  | broken .malformed => "against the grammar"
  | broken .openText => "a text that never ends"
  | broken .openLiteral => "a literal text that never ends"
  | broken .unknownEscape => "an unknown escape"
  | broken .blocked => "a key that leads to no table"
  | broken .noSuchDay => "a day that does not exist"
  | broken (.digits e) => e.message
  | broken .tooDeep => "nested too deep"
  | noPath => "expected str, bytes or os.PathLike object, not list"
  | unencodable _ => "no text, but a half of a character"
  | unserializable _ => "no text to write, but a half of a character"
  | tooDeep => "maximum recursion depth exceeded"
  | otherNode kind => s!"Expected a RustNode, got {kind}"

end Failure

-- What led to a flaw of a manifest, nearest first. A plain breach of the grammar has nothing behind it.
def ManifestFlaw.origins : ManifestFlaw → List Failure
  | notUtf8 => [.manifest .notUtf8]
  | notToml .malformed => [.manifest (.notToml .malformed)]
  | notToml flaw => [.manifest (.notToml flaw), .broken flaw]

-- What led to a fault, nearest first.
mutual
def Fault.origins : Fault → List Failure
  | .noManifest _ e | .unreadableManifest _ e | .cacheNotListed _ e | .cacheNotRemoved _ e
  | .registryNotListed _ e => [.disk e]
  | .cacheNotWritten _ t => .disk t.error :: t.earlier.map .disk
  | .invalidManifest _ flaw => flaw.origins
  | .unsupportedAbi name _ => [.unknownTag name "Abi"]
  | .noHome => [.homeUnknown]
  | .allFailed failures => originsOfLast failures
  | .noPackageTable _ | .badPackageField _ _ | .noEntryPoint _ | .unparsable _ _
  | .unsupportedVisibility _ _ | .unsupportedQualifier _ _ => []
-- The last of some faults, and what led to it.
def originsOfLast : List (Path × Fault) → List Failure
  | [] => []
  | [(_, f)] => .fault f :: f.origins
  | _ :: next :: rest => originsOfLast (next :: rest)
end

end CrateDocs
