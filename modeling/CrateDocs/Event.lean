import CrateDocs.Fault
import CrateDocs.Log.State
import CrateDocs.Package.Basic

namespace CrateDocs

-- Everything that the program tells its log.
inductive Event
  | diagnosed (diagnostic : Syntax.Diagnostic)
  | parsed (entry : Path) (files : Nat)
  | extracted (functions others : Nat)
  | noCache (root : Path)
  | cacheWritten (functions : Nat) (package : Package) (file : Path)
  | cacheRemoved (package : Package)
  | strayFolder (folder : Path)
  | cacheUnreadable (file : Path) (reason : Failure)
  | emptyTerm (term : String)
  | answered (term : String) (functions : Nat)
  | noRegistry (folder : Path)
  | indexSkipped (folder : Path) (reason : Failure)
  | discovered (packages : Nat) (folder : Path)
  | generating (package : Package) (entry : Path)
  | packageFailed (root : Path) (reason : Failure)
  | someFailed (generated failed : Nat)
  | allGenerated (packages : Nat)
  | nothingToGenerate
  | noQuery
  | failed (reason : Failure)
  | causedBy (reason : Failure)
  | said (logger : String) (level : Level) (text : String)

namespace Event

-- The logger that an event goes to.
def logger : Event → String
  | diagnosed _ | parsed _ _ => "oxidoc.syntax.rust"
  | extracted _ _ => "oxidoc.extractor"
  | noCache _ | cacheWritten _ _ _ | cacheRemoved _ | strayFolder _ | cacheUnreadable _ _ => "oxidoc.store"
  | emptyTerm _ | answered _ _ => "oxidoc.driver"
  | noRegistry _ | indexSkipped _ _ | discovered _ _ | generating _ _ | packageFailed _ _
  | someFailed _ _ | allGenerated _ | nothingToGenerate => "oxidoc.generator"
  | noQuery | failed _ | causedBy _ => "oxidoc.cli"
  | said logger _ _ => logger

def level : Event → Level
  | diagnosed _ | parsed _ _ | extracted _ _ | noCache _ | answered _ _ | discovered _ _ => Level.debug
  | cacheWritten _ _ _ | cacheRemoved _ | generating _ _ | allGenerated _ => Level.info
  | strayFolder _ | cacheUnreadable _ _ | emptyTerm _ | noRegistry _ | indexSkipped _ _ | someFailed _ _
  | nothingToGenerate => Level.warning
  | packageFailed _ _ | noQuery | failed _ | causedBy _ => Level.error
  | said _ level _ => level

-- The text of an event, in which failures are told by `describe`.
def text (describe : Failure → String) : Event → String
  | diagnosed diagnostic => diagnostic.text
  | parsed entry files => s!"Parsed {entry.text} ({files} files)"
  | extracted functions others =>
    s!"Extracted {functions} free functions ({others} other function-like declarations skipped)"
  | noCache root => s!"Cache root {root.text} does not exist yet"
  | cacheWritten functions package file => s!"Wrote {functions} functions for {package.text} to {file.text}"
  | cacheRemoved package => s!"Removed documentation cache for {package.text}"
  | strayFolder folder => s!"Skipping {folder.text}: not a documentation cache directory"
  | cacheUnreadable file reason => s!"Failed to read documentation cache {file.text}: {describe reason}"
  | emptyTerm term => s!"Ignoring empty query term {Text.quoted term}"
  | answered term functions => s!"Query {Text.quoted term} matched {functions} functions"
  | noRegistry folder => s!"No Cargo registry sources at {folder.text}"
  | indexSkipped folder reason => s!"Skipping registry index {folder.text}: {describe reason}"
  | discovered packages folder => s!"Discovered {packages} packages under {folder.text}"
  | generating package entry => s!"Generating documentation for {package.text} from {entry.text}"
  | packageFailed root reason => s!"Failed to generate documentation for {root.text}: {describe reason}"
  | someFailed generated others => s!"Generated documentation for {generated} packages; {others} failed"
  | allGenerated packages => s!"Generated documentation for {packages} packages"
  | nothingToGenerate => "No packages to generate documentation for"
  | noQuery => "error: No search query was provided."
  | failed reason => s!"error: {describe reason}"
  | causedBy reason => s!"caused by: {describe reason}"
  | said _ _ text => text

end Event

end CrateDocs
