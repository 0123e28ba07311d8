import CrateDocs.Text.Blank
import CrateDocs.Toml.Document
import CrateDocs.World

namespace CrateDocs.Manifest

-- The name of the file that describes a package.
def fileName : String := "Cargo.toml"

-- A field of a package that has to be a text with more than blanks in it.
def requiredText (manifest : Path) (package : Toml.Fields) (key : String) : Except Fault String :=
  match package.lookup key with
  | some (.text value) => if Text.allBlank value then .error (.badPackageField manifest key) else .ok value
  | _ => .error (.badPackageField manifest key)

-- The package that the fields of a manifest describe.
def packageOf (manifest : Path) (fields : Toml.Fields) : Except Fault Package :=
  match fields.lookup "package" with
  | some (.table package) => do
    return ⟨← requiredText manifest package "name", ← requiredText manifest package "version"⟩
  | _ => .error (.noPackageTable manifest)

-- The package that the bytes of a manifest describe. Numbers that are too long and values that are too deep
-- are no matter of the manifest.
def ofBytes (depth : Nat) (manifest : Path) (bytes : List UInt8) : Except Failure Package :=
  match Utf8.decode? bytes with
  | none => .error (.fault (.invalidManifest manifest .notUtf8))
  | some text =>
    match Toml.parse depth text with
    | .error (.digits e) => .error (.digits e)
    | .error .tooDeep => .error .tooDeep
    | .error flaw => .error (.fault (.invalidManifest manifest (.notToml flaw)))
    | .ok fields => (packageOf manifest fields).mapError .fault

-- Reads the manifest in the root of a package.
def read (root : Path) : Work Package := do
  let manifest := root.child fileName
  let d := (← get).disk
  match d.read manifest with
  | .error e =>
    if e.refusal = .noEntry then Work.fail (.noManifest root e)
    else if e.fromSystem then Work.fail (.unreadableManifest manifest e)
    else throw (.disk e)
  | .ok bytes =>
    match ofBytes d.limits.depth manifest bytes with
    | .ok package => return package
    | .error failure => throw failure

end CrateDocs.Manifest
