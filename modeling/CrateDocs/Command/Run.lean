import CrateDocs.Command.Chain
import CrateDocs.Command.Usage
import CrateDocs.Generate.Basic
import CrateDocs.Log.Setup
import CrateDocs.Query.Resolve
import CrateDocs.Settings.Home

namespace CrateDocs.Command

-- How a call of the program ends: its status, what it writes to its two outputs, and whether the first goes
-- through a pager.
structure Result where
  status : Nat
  output : String
  complaint : String
  paged : Bool
deriving DecidableEq, Repr

-- The word that stands for every package of the registry.
def everyPackage : String := "all"

-- Documents one package, or all of them.
def generateFor (grammar : Crate.Grammar) (settings : Settings) (target : String) : Work Unit := do
  let cache : Cache := ⟨← settings.resolvedCacheRoot⟩
  if target == everyPackage then
    let roots ← Generate.discover (← settings.resolvedCargoHome)
    let _ ← Generate.generateAll grammar cache roots
  else
    let _ ← Generate.generate grammar cache (Path.ofText target)

-- Does what a request asks for, apart from telling the version.
def perform (grammar : Crate.Grammar) (settings : Settings) (terminal : Bool) (r : Request) : Work Result := do
  match r.generate, r.query.getD [] with
  | some [target], _ =>
    generateFor grammar settings target
    return ⟨0, "", "", false⟩
  | some _, _ =>
    let _ ← settings.resolvedCacheRoot
    throw .noPath
  | none, [] =>
    Work.note .noQuery
    return ⟨1, "", usage, false⟩
  | none, terms =>
    let shown ← Query.display ⟨← settings.resolvedCacheRoot⟩ settings.matchPolicy terms terminal
    return ⟨0, shown.text, "", shown.paged⟩

-- Does some work and turns its faults into messages and a status.
def reportingFaults (work : Work Result) : Work Result :=
  tryCatch work fun
    | .fault f => do
      tellFault f
      return ⟨1, "", "", false⟩
    | other => throw other

-- A call of the program. The log is set up before anything is done.
def run {Config : Type} (means : Log.Means Config) (grammar : Crate.Grammar) (settings : Settings) (terminal : Bool)
    (words : List String) : Work Result := do
  match Request.read words with
  | .error misuse => return ⟨2, "", misuseText misuse, false⟩
  | .ok .help => return ⟨0, help, "", false⟩
  | .ok (.request r) =>
    Log.setup means none (if r.verbose then some "DEBUG" else none)
    if r.version then return ⟨0, versionLine, "", false⟩
    reportingFaults (perform grammar settings terminal r)

end CrateDocs.Command
