import CrateDocs.Crate.Parse
import CrateDocs.Extract.Crate
import CrateDocs.Generate.Discover

namespace CrateDocs.Generate

-- Documents one package and replaces its cache. Nothing is written unless every step succeeds.
def generate (grammar : Crate.Grammar) (cache : Cache) (root : Path) : Work Package := do
  let package ← Manifest.read root
  let entry ← entryPoint root
  Work.note (.generating package entry)
  let crate ← Crate.parse grammar entry
  let docs ← Extract.documentTree crate.root (some package.name)
  let _ ← cache.put package docs
  return package

-- How a run over many packages went.
structure Report where
  generated : List Package
  failures : List (Path × Fault)

def Report.attempted (r : Report) : Nat :=
  r.generated.length + r.failures.length

-- Documents one package; a fault is told and becomes the result, any other failure stays one.
def attempt (grammar : Crate.Grammar) (cache : Cache) (root : Path) : Work (Except Fault Package) :=
  tryCatch (Except.ok <$> generate grammar cache root) fun
    | .fault f => do
      Work.note (.packageFailed root (.fault f))
      return .error f
    | other => throw other

-- Documents packages one after the other. A fault of one does not stop the others.
def generateEach (grammar : Crate.Grammar) (cache : Cache) : List Path → Work Report
  | [] => return ⟨[], []⟩
  | root :: rest => do
    let result ← attempt grammar cache root
    let report ← generateEach grammar cache rest
    match result with
    | .ok package => return { report with generated := package :: report.generated }
    | .error f => return { report with failures := (root, f) :: report.failures }

-- Documents every package. It fails only if each of them did.
def generateAll (grammar : Crate.Grammar) (cache : Cache) (roots : List Path) : Work Report := do
  let report ← generateEach grammar cache roots
  match report.generated, report.failures with
  | [], [] => Work.note .nothingToGenerate
  | [], failures => Work.fail (.allFailed failures)
  | generated, [] => Work.note (.allGenerated generated.length)
  | generated, failures => Work.note (.someFailed generated.length failures.length)
  return report

end CrateDocs.Generate
