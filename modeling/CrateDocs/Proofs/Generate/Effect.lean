import CrateDocs.Generate.Basic
import CrateDocs.Proofs.Cache.Update
import CrateDocs.Proofs.Crate.Loaded

namespace CrateDocs

open Work (Reads)

-- Everything that is done before a cache is replaced only looks at the disk.

namespace Manifest

-- The package that the manifest on a disk describes.
def readAt (root : Path) (d : Disk) : Except Failure Package :=
  match d.read (root.child fileName) with
  | .error e =>
    .error (if e.refusal = .noEntry then .fault (.noManifest root e)
      else if e.fromSystem then .fault (.unreadableManifest (root.child fileName) e)
      else .disk e)
  | .ok bytes => ofBytes d.limits.depth (root.child fileName) bytes

theorem reads_read (root : Path) : Reads (read root) (readAt root) := by
  refine Reads.disk (fun d _ => readAt root d) fun w => ?_
  dsimp only [readAt]
  cases w.disk.read (root.child fileName) with
  | error e =>
      dsimp only
      split
      · exact Reads.fail _
      · split
        · exact Reads.fail _
        · exact Reads.throw _
  | ok bytes =>
      dsimp only
      cases ofBytes w.disk.limits.depth (root.child fileName) bytes with
      | ok package => exact Reads.pure package
      | error failure => exact Reads.throw failure

theorem ne_empty_of_requiredText {manifest : Path} {fields : Toml.Fields} {key value : String}
    (h : requiredText manifest fields key = .ok value) : value ≠ "" := by
  rw [requiredText] at h
  split at h
  · split at h
    · cases h
    · rename_i hblank
      cases h
      rintro rfl
      exact hblank rfl
  · cases h

theorem named_of_packageOf {manifest : Path} {fields : Toml.Fields} {package : Package}
    (h : packageOf manifest fields = .ok package) : package.Named := by
  rw [packageOf] at h
  split at h
  · obtain ⟨name, hname, h⟩ := Work.bind_eq_ok h
    obtain ⟨version, hversion, h⟩ := Work.bind_eq_ok h
    cases h
    exact ⟨ne_empty_of_requiredText hname, ne_empty_of_requiredText hversion⟩
  · cases h

theorem named_of_readAt {root : Path} {d : Disk} {package : Package} (h : readAt root d = .ok package) :
    package.Named := by
  rw [readAt] at h
  split at h
  · cases h
  · rw [ofBytes] at h
    split at h
    · cases h
    · split at h
      · cases h
      · cases h
      · cases h
      · rename_i fields _
        cases hpackage : packageOf (root.child fileName) fields with
        | error f =>
            rw [hpackage] at h
            cases h
        | ok found =>
            rw [hpackage] at h
            cases h
            exact named_of_packageOf hpackage

end Manifest

theorem Extract.reads_documentTree (root : Syntax.Tree) (crate : Option String) :
    Reads (documentTree root crate) fun _ => ((functions root crate).mapError .fault).map (·.docs) := by
  rw [documentTree]
  cases functions root crate with
  | ok found => exact Reads.note_bind _ (Reads.pure found.docs)
  | error f => exact Reads.fail f

namespace Generate

-- The first of some places that is a file on a disk.
def firstFileAt (root : Path) (d : Disk) : List String → Except Failure Path
  | [] => .error (.fault (.noEntryPoint root))
  | place :: rest =>
    ((d.isFile (root.child place)).mapError .disk).bind fun answer =>
      if answer then .ok (root.child place) else firstFileAt root d rest

theorem reads_firstFile (root : Path) (places : List String) :
    Reads (firstFile root places) fun d => firstFileAt root d places := by
  induction places with
  | nil => exact Reads.fail _
  | cons place rest ih =>
      refine (Reads.answer (fun d => d.isFile (root.child place)) ih (Reads.pure (root.child place))).congr ?_
      intro d
      rw [firstFileAt]
      rcases d.isFile (root.child place) with e | (_ | _) <;> rfl

-- The functions of the crate with a given entry file.
def documentEntry (grammar : Crate.Grammar) (entry : Path) (name : String) : Work (List FunctionDoc) := do
  let crate ← Crate.parse grammar entry
  Extract.documentTree crate.root (some name)

def documentAt (grammar : Crate.Grammar) (entry : Path) (name : String) (d : Disk) :
    Except Failure (List FunctionDoc) :=
  (Crate.parseAt grammar entry d).bind fun crate =>
    ((Extract.functions crate.root (some name)).mapError .fault).map (·.docs)

theorem reads_documentEntry (grammar : Crate.Grammar) (entry : Path) (name : String) :
    Reads (documentEntry grammar entry name) (documentAt grammar entry name) :=
  (Crate.reads_parse grammar entry).bind fun crate => Extract.reads_documentTree crate.root (some name)

-- All that is known before a cache is replaced: the package and its functions.
def prepare (grammar : Crate.Grammar) (root : Path) : Work (Package × List FunctionDoc) := do
  let package ← Manifest.read root
  let entry ← entryPoint root
  Work.note (.generating package entry)
  let docs ← documentEntry grammar entry package.name
  return (package, docs)

theorem generate_eq (grammar : Crate.Grammar) (cache : Cache) (root : Path) :
    generate grammar cache root = do
      let (package, docs) ← prepare grammar root
      let _ ← cache.put package docs
      return package := by
  simp only [generate, prepare, documentEntry, bind_assoc, pure_bind]

def prepareAt (grammar : Crate.Grammar) (root : Path) (d : Disk) : Except Failure (Package × List FunctionDoc) :=
  (Manifest.readAt root d).bind fun package =>
    (firstFileAt root d Fault.entryPoints).bind fun entry =>
      (documentAt grammar entry package.name d).bind fun docs => .ok (package, docs)

theorem reads_prepare (grammar : Crate.Grammar) (root : Path) :
    Reads (prepare grammar root) (prepareAt grammar root) :=
  (Manifest.reads_read root).bind fun package =>
    (reads_firstFile root Fault.entryPoints).bind fun entry =>
      Reads.note_bind _ ((reads_documentEntry grammar entry package.name).bind fun _ => Reads.pure _)

theorem firstFileAt_two {root entry : Path} {d : Disk} {first second : String}
    (h : firstFileAt root d [first, second] = .ok entry) :
    entry = if d.isFile (root.child first) = .ok true then root.child first else root.child second := by
  rw [firstFileAt, firstFileAt] at h
  cases hfirst : d.isFile (root.child first) with
  | error e =>
      rw [hfirst] at h
      cases h
  | ok answer =>
      rw [hfirst] at h
      cases answer with
      | true => exact (Except.ok.inj h).symm
      | false =>
          cases hsecond : d.isFile (root.child second) with
          | error e =>
              rw [hsecond] at h
              cases h
          | ok answer =>
              rw [hsecond] at h
              cases answer with
              | true => exact (Except.ok.inj h).symm
              | false => cases h

-- The entry file of a package.
def entryFile (root : Path) (d : Disk) : Path :=
  if d.isFile (root.child "src/lib.rs") = .ok true then root.child "src/lib.rs" else root.child "src/main.rs"

theorem prepareAt_eq_ok {grammar : Crate.Grammar} {root : Path} {d : Disk} {package : Package}
    {docs : List FunctionDoc} (h : prepareAt grammar root d = .ok (package, docs)) :
    package.Named ∧ documentAt grammar (entryFile root d) package.name d = .ok docs := by
  obtain ⟨found, hpackage, h⟩ := Work.bind_eq_ok h
  obtain ⟨entry, hentry, h⟩ := Work.bind_eq_ok h
  obtain ⟨all, hdocs, h⟩ := Work.bind_eq_ok h
  cases h
  have hfile : entry = entryFile root d := firstFileAt_two hentry
  rw [← hfile]
  exact ⟨Manifest.named_of_readAt hpackage, hdocs⟩

-- A cache is replaced with what was prepared on the disk as it was, and there is no other change.
theorem runIn_generate (grammar : Crate.Grammar) (cache : Cache) (root : Path) (w : World) :
    ∃ events, (generate grammar cache root).runIn w =
      match prepareAt grammar root w.disk with
      | .error failure => (.error failure, { w with events := events })
      | .ok (package, docs) =>
        Work.runIn (do
          let _ ← cache.put package docs
          return package) { w with events := events } := by
  obtain ⟨events, hprepare⟩ := reads_prepare grammar root w
  refine ⟨events, ?_⟩
  rw [generate_eq, Work.runIn_bind, hprepare]
  cases prepareAt grammar root w.disk <;> rfl

theorem generate_of_ok {grammar : Crate.Grammar} {cache : Cache} {root : Path} {w left : World}
    {package : Package} (h : (generate grammar cache root).runIn w = (.ok package, left)) :
    ∃ docs, prepareAt grammar root w.disk = .ok (package, docs) ∧
      w.disk.replaceFileBelow (cache.fileFor package) (FunctionDoc.toBytes docs) = (.ok (), left.disk) := by
  obtain ⟨events, hrun⟩ := runIn_generate grammar cache root w
  rw [hrun] at h
  cases hprepare : prepareAt grammar root w.disk with
  | error failure =>
      rw [hprepare] at h
      cases h
  | ok prepared =>
      obtain ⟨found, docs⟩ := prepared
      rw [hprepare] at h
      obtain ⟨file, between, hput, hreturn⟩ := Work.runIn_bind_eq_ok h
      cases hreturn
      exact ⟨docs, rfl, (Cache.runIn_put_eq_ok hput).2⟩

theorem generate_of_error {grammar : Crate.Grammar} {cache : Cache} {root : Path}
    {w left : World} {failure : Failure} (h : (generate grammar cache root).runIn w = (.error failure, left))
    (hfailure : failure.ofCache = false) : left.disk = w.disk := by
  obtain ⟨events, hrun⟩ := runIn_generate grammar cache root w
  rw [hrun] at h
  cases hprepare : prepareAt grammar root w.disk with
  | error failure =>
      rw [hprepare] at h
      cases h
      rfl
  | ok prepared =>
      obtain ⟨package, docs⟩ := prepared
      rw [hprepare] at h
      dsimp only at h
      rw [Work.runIn_bind] at h
      cases hput : (cache.put package docs).runIn { w with events := events } with
      | mk result between =>
          rw [hput] at h
          cases result with
          | ok file => cases h
          | error found =>
              cases h
              have hdisk := Cache.runIn_put_unchanged hput hfailure
              exact hdisk

-- A package with one function.
def samplePackage (rest : Folder) : Folder :=
  .folder "a" (.file "Cargo.toml" (Utf8.encode "[package]\nname = 'a'\nversion = '1'")
    (.folder "src" (.file "lib.rs" (Utf8.encode "fn run()\x7b\x7d") .empty) .empty)) rest

-- The package beside a cache that holds another package, and beside one that may not be listed once it is there.
def sampleWorld : World :=
  .ofDisk (.ofFolder (samplePackage
    (.folder "cache" (.folder "b-1" (.file "b-1.json" (Utf8.encode "[]") .empty) .empty) .empty)))

def barredWorld : World :=
  .ofDisk { Disk.ofFolder (samplePackage .empty) with limits := { Limits.usual with unlistable := ["cache"] } }

def sampleCache : Cache := ⟨⟨.here, ["cache"]⟩⟩

def sampleGrammar : Crate.Grammar := fun _ => Crate.sampleFile 3

end Generate

end CrateDocs
