import CrateDocs.Disk.Basic

namespace CrateDocs.Disk

-- How an operation ended, and the disk it left.
abbrev Outcome := Except DiskTrouble Unit × Disk

-- A refusal to make a directory does not matter if it is there.
def unlessThere (d : Disk) (p : Path) (e : DiskError) : Outcome :=
  match d.isFolder p with
  | .ok true => (.ok (), d)
  | .ok false => (.error (.first e), d)
  | .error e₂ => (.error ⟨e₂, [e]⟩, d)

-- Makes a directory and the directories above it that are missing. The components are given back
-- to front.
def makeFoldersBack (anchor : Anchor) : List String → Disk → Outcome
  | [], d =>
    let p : Path := ⟨anchor, []⟩
    match d.makeFolder p with
    | .ok made => (.ok (), made)
    | .error e => if e.refusal = .noEntry then (.error (.first e), d) else unlessThere d p e
  | part :: above, d =>
    let p : Path := ⟨anchor, (part :: above).reverse⟩
    match d.makeFolder p with
    | .ok made => (.ok (), made)
    | .error e =>
      if e.refusal = .noEntry then
        match makeFoldersBack anchor above d with
        | (.error trouble, left) => (.error (trouble.during e), left)
        | (.ok (), left) =>
          match left.makeFolder p with
          | .ok made => (.ok (), made)
          | .error e₂ =>
            if e₂.refusal = .noEntry then (.error ⟨e₂, [e]⟩, left)
            else
              match unlessThere left p e₂ with
              | (.error trouble, last) => (.error (trouble.during e), last)
              | done => done
      else unlessThere d p e

def makeFolders (d : Disk) (p : Path) : Outcome :=
  makeFoldersBack p.anchor p.parts.reverse d

-- How many calls are open at once while directories are made: each that finds nothing above its own directory makes
-- that first. The components are given back to front.
def callsToMakeBack (anchor : Anchor) : List String → Disk → Nat
  | [], _ => 1
  | part :: above, d =>
    match d.makeFolder ⟨anchor, (part :: above).reverse⟩ with
    | .ok _ => 1
    | .error e => if e.refusal = .noEntry then callsToMakeBack anchor above d + 1 else 1

def callsToMake (d : Disk) (p : Path) : Nat :=
  callsToMakeBack p.anchor p.parts.reverse d

-- The eight characters that tell temporary files apart.
def temporaryMark (n : Nat) : String :=
  let digits := (Nat.toDigits 10 n).take 8
  String.ofList (List.replicate (8 - digits.length) '0' ++ digits)

-- The first name of a temporary file for `name` that is not taken.
def temporaryName? (name : String) (taken : List String) : Option String :=
  let candidates := (List.range (taken.length + 1)).map fun n =>
    "." ++ name ++ "." ++ temporaryMark n ++ ".tmp"
  candidates.find? fun candidate => !taken.contains candidate

-- The path of a new temporary file beside `p`.
def temporaryPath? (d : Disk) (p : Path) : Option Path :=
  let spot := d.resolve p.parent
  let taken := match d.root.find? spot with
    | some (.folder inner) => inner.names
    | _ => []
  (temporaryName? p.name taken).map fun name => ⟨.root, spot ++ [name]⟩

-- Replaces a file in one move: the content goes to a temporary file beside it, which then takes
-- its name. If the move is refused, the temporary file is taken away again.
def replaceFile (d : Disk) (p : Path) (content : List UInt8) : Outcome :=
  match d.temporaryPath? p with
  | none => (.error (.first ⟨.taken, none⟩), d)
  | some temporary =>
    match d.writeFile temporary content with
    | .error e => (.error (.first { e with path := none }), d)
    | .ok written =>
      match written.moveFile temporary p with
      | .ok moved => (.ok (), moved)
      | .error refusal =>
        let cleaned := (written.removeFile temporary).toOption.getD written
        (.error (.first ⟨refusal, none⟩), cleaned)

-- Replaces a file, after making the directories above it.
def replaceFileBelow (d : Disk) (p : Path) (content : List UInt8) : Outcome :=
  match d.makeFolders p.parent with
  | (.ok (), made) => made.replaceFile p content
  | failed => failed

end CrateDocs.Disk
