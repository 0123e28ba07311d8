import CrateDocs.Proofs.Cache.Update
import CrateDocs.Proofs.Disk.Marks
import Mathlib.Logic.Relation

namespace CrateDocs.Cache

open Function (update)
open Relation (ReflTransGen)

-- A call that replaces the cache of a package.
structure Put where
  package : Package
  docs : List FunctionDoc
deriving DecidableEq

def Put.payload (put : Put) : List UInt8 :=
  FunctionDoc.toBytes put.docs

-- How far such a call has come: it is making directories, it has a temporary file under a mark and some
-- bytes left for it, or it does nothing any more.
inductive Phase
  | starting
  | writing (mark : String) (left : List UInt8)
  | ended
deriving DecidableEq

-- The temporary file of a package, whatever tells it apart from others.
def temporaryName (key mark : String) : String :=
  "." ++ (key ++ ".json") ++ "." ++ mark ++ ".tmp"

def temporaryFor (cache : Cache) (d : Disk) (package : Package) (mark : String) : Path :=
  Path.below ⟨.root, d.resolve (cache.folderFor package)⟩ (temporaryName package.key mark)

-- What a call does to the disk in one go. It is not known when the next step is taken, or whether there is
-- one: a call may stop anywhere.
inductive Put.Step (cache : Cache) (put : Put) : Disk × Phase → Disk × Phase → Prop
  | makeFolder {d made : Disk} {folder : Path} (hanchor : folder.anchor = (cache.folderFor put.package).anchor)
      (hparts : folder.parts <+: (cache.folderFor put.package).parts) (h : d.makeFolder folder = .ok made) :
      Step cache put (d, .starting) (made, .starting)
  | create {d created : Disk} {mark : String}
      (hfree : d.hasEntry (cache.temporaryFor d put.package mark) = .ok false)
      (h : d.writeFile (cache.temporaryFor d put.package mark) [] = .ok created) :
      Step cache put (d, .starting) (created, .writing mark put.payload)
  | append {d written : Disk} {mark : String} {current chunk left : List UInt8}
      (hread : d.read (cache.temporaryFor d put.package mark) = .ok current)
      (h : d.writeFile (cache.temporaryFor d put.package mark) (current ++ chunk) = .ok written) :
      Step cache put (d, .writing mark (chunk ++ left)) (written, .writing mark left)
  | rename {d moved : Disk} {mark : String}
      (h : d.moveFile (cache.temporaryFor d put.package mark) (cache.fileFor put.package) = .ok moved) :
      Step cache put (d, .writing mark []) (moved, .ended)
  | unlink {d removed : Disk} {mark : String} {left : List UInt8}
      (h : d.removeFile (cache.temporaryFor d put.package mark) = .ok removed) :
      Step cache put (d, .writing mark left) (removed, .ended)
  | stop {d : Disk} {phase : Phase} : Step cache put (d, phase) (d, .ended)

-- Where the files of a package are, below the location of the root.

def fileSpot (root : Location) (key : String) : Location :=
  root ++ [key, key ++ ".json"]

def temporarySpot (root : Location) (key mark : String) : Location :=
  root ++ [key, temporaryName key mark]

theorem fileSpot_injective (root : Location) : Function.Injective (fileSpot root) := by
  intro key other h
  have hlast := List.append_cancel_left h
  simp only [List.cons.injEq] at hlast
  exact hlast.1

-- One ends in `.tmp`, the other in `.json`.
theorem temporarySpot_ne_fileSpot (root : Location) (key mark other : String) :
    temporarySpot root key mark ≠ fileSpot root other := by
  intro h
  have hlast := List.append_cancel_left h
  simp only [List.cons.injEq, and_true] at hlast
  have hend := congrArg (fun name => name.toList.getLast?) hlast.2
  have htmp : ".tmp".toList.getLast? = some 'p' := by decide
  have hjson : ".json".toList.getLast? = some 'n' := by decide
  simp only [temporaryName, String.toList_append, List.getLast?_append, htmp, hjson, Option.some_or] at hend
  cases hend

theorem resolve_fileFor (cache : Cache) (d : Disk) (p : Package) :
    d.resolve (cache.fileFor p) = fileSpot (d.resolve cache.root) p.key := by
  rw [fileFor_eq, d.resolve_below _ (ne_up_of_isFileName p.isFileName_key_json),
    d.resolve_below _ (ne_up_of_isFileName p.isFileName_key), List.append_assoc]
  rfl

theorem temporaryName_ne_up (key mark : String) : temporaryName key mark ≠ ".." := by
  intro h
  have hlength := congrArg String.length h
  have hdot : ".".length = 1 := by decide
  have hjson : ".json".length = 5 := by decide
  have hup : "..".length = 2 := by decide
  simp only [temporaryName, String.length_append, hdot, hjson, hup] at hlength
  omega

theorem plain_temporaryFor (cache : Cache) (d : Disk) (p : Package) (mark : String) :
    (cache.temporaryFor d p mark).Plain :=
  Path.plain_below (d.plain_resolve (cache.folderFor p)) (temporaryName_ne_up p.key mark)

theorem temporaryFor_congr (cache : Cache) {d e : Disk} (h : e.here = d.here) (p : Package) (mark : String) :
    cache.temporaryFor e p mark = cache.temporaryFor d p mark := by
  rw [temporaryFor, temporaryFor, Disk.resolve_congr h]

theorem resolve_temporaryFor (cache : Cache) (d : Disk) (p : Package) (mark : String) :
    d.resolve (cache.temporaryFor d p mark) = temporarySpot (d.resolve cache.root) p.key mark := by
  rw [temporaryFor, d.resolve_below _ (temporaryName_ne_up _ _), d.resolve_root (d.up_notMem_resolve _), folderFor_eq,
    d.resolve_below _ (ne_up_of_isFileName p.isFileName_key), List.append_assoc]
  rfl

-- What a step does to the files, and what it finds there.
inductive Put.Change (root : Location) (put : Put) :
    (Location → Option (List UInt8)) × Phase → (Location → Option (List UInt8)) × Phase → Prop
  | keep {files : Location → Option (List UInt8)} {phase next : Phase} (h : next = phase ∨ next = .ended) :
      Change root put (files, phase) (files, next)
  | create {files : Location → Option (List UInt8)} {mark : String}
      (hfree : files (temporarySpot root put.package.key mark) = none) :
      Change root put (files, .starting)
        (update files (temporarySpot root put.package.key mark) (some []), .writing mark put.payload)
  | append {files : Location → Option (List UInt8)} {mark : String} {current chunk left : List UInt8}
      (hread : files (temporarySpot root put.package.key mark) = some current) :
      Change root put (files, .writing mark (chunk ++ left))
        (update files (temporarySpot root put.package.key mark) (some (current ++ chunk)), .writing mark left)
  | rename {files : Location → Option (List UInt8)} {mark : String} {content : List UInt8}
      (hread : files (temporarySpot root put.package.key mark) = some content) :
      Change root put (files, .writing mark [])
        (update (update files (temporarySpot root put.package.key mark) none) (fileSpot root put.package.key)
          (some content), .ended)
  | unlink {files : Location → Option (List UInt8)} {mark : String} {left : List UInt8} :
      Change root put (files, .writing mark left) (update files (temporarySpot root put.package.key mark) none, .ended)

variable {cache : Cache} {put : Put}

theorem fileAt_of_hasEntry {d written : Disk} {p : Path} {content : List UInt8} (hfree : d.hasEntry p = .ok false)
    (h : d.writeFile p content = .ok written) : d.fileAt (d.resolve p) = none := by
  rw [Disk.fileAt_eq_mark, Disk.mark?_of_hasEntry hfree h]

theorem Put.Step.change {d d' : Disk} {phase next : Phase} (h : put.Step cache (d, phase) (d', next)) :
    d'.here = d.here ∧ put.Change (d.resolve cache.root) (d.fileAt, phase) (d'.fileAt, next) := by
  cases h with
  | makeFolder _ _ h =>
      obtain ⟨hhere, hfiles⟩ := Disk.makeFolder_files h
      rw [hfiles]
      exact ⟨hhere, .keep (Or.inl rfl)⟩
  | create hfree h =>
      have hnone := fileAt_of_hasEntry hfree h
      obtain ⟨hhere, hfiles⟩ := Disk.writeFile_files (temporaryName_ne_up _ _) h
      rw [← temporaryFor] at hfiles
      rw [resolve_temporaryFor] at hnone hfiles
      rw [hfiles]
      exact ⟨hhere, .create hnone⟩
  | append hread h =>
      have hsome := Disk.fileAt_of_read hread
      obtain ⟨hhere, hfiles⟩ := Disk.writeFile_files (temporaryName_ne_up _ _) h
      rw [← temporaryFor] at hfiles
      rw [resolve_temporaryFor] at hsome hfiles
      rw [hfiles]
      exact ⟨hhere, .append hsome⟩
  | rename h =>
      rw [fileFor_eq] at h
      obtain ⟨hhere, content, hsome, hfiles⟩ := Disk.moveFile_files (ne_up_of_isFileName put.package.isFileName_key_json) h
      rw [← fileFor_eq] at hfiles
      rw [resolve_temporaryFor] at hsome hfiles
      rw [hfiles, resolve_fileFor]
      exact ⟨hhere, .rename hsome⟩
  | unlink h =>
      obtain ⟨hhere, hfiles⟩ := Disk.removeFile_files h
      rw [hfiles, resolve_temporaryFor]
      exact ⟨hhere, .unlink⟩
  | stop => exact ⟨rfl, .keep (Or.inr rfl)⟩

-- The program's own call takes such steps and no others.

theorem steps_makeFolder {d made : Disk} {anchor : Anchor} {parts : List String}
    (hanchor : anchor = (cache.folderFor put.package).anchor) (hparts : parts <+: (cache.folderFor put.package).parts)
    (h : d.makeFolder ⟨anchor, parts⟩ = .ok made) :
    ReflTransGen (put.Step cache) (d, .starting) (made, .starting) :=
  .single (.makeFolder hanchor hparts h)

theorem steps_makeFoldersBack {anchor : Anchor} (hanchor : anchor = (cache.folderFor put.package).anchor)
    {back : List String} (hback : back.reverse <+: (cache.folderFor put.package).parts) (d : Disk) :
    ReflTransGen (put.Step cache) (d, .starting) ((Disk.makeFoldersBack anchor back d).2, .starting) := by
  induction back with
  | nil =>
      rw [Disk.makeFoldersBack]
      split
      · rename_i made hmade
        exact steps_makeFolder hanchor hback hmade
      · split
        · exact .refl
        · rw [Disk.unlessThere_disk]
  | cons part above ih =>
      have habove := ih ((List.prefix_append above.reverse [part]).trans (by rwa [List.reverse_cons] at hback))
      rw [Disk.makeFoldersBack]
      split
      · rename_i made hmade
        exact steps_makeFolder hanchor hback hmade
      · split
        · split
          · rename_i hleft
            rwa [hleft] at habove
          · rename_i left hleft
            rw [hleft] at habove
            split
            · rename_i made hmade
              exact habove.trans (steps_makeFolder hanchor hback hmade)
            · split
              · exact habove
              · split
                · rename_i trouble last hlast
                  have hdisk := congrArg Prod.snd hlast
                  rw [Disk.unlessThere_disk] at hdisk
                  subst hdisk
                  exact habove
                · rw [Disk.unlessThere_disk]
                  exact habove
        · rw [Disk.unlessThere_disk]

theorem exists_temporaryFor {d : Disk} {p : Package} {temporary : Path}
    (h : d.temporaryPath? (cache.fileFor p) = some temporary) :
    ∃ mark, temporary = cache.temporaryFor d p mark ∧ d.root.find? (d.resolve temporary) = none := by
  rw [fileFor_eq, ← folderFor_eq] at h
  obtain ⟨_, made, rfl, hmade, hfree⟩ := Disk.temporaryPath?_below h
  obtain ⟨_, n, hname⟩ := Disk.temporaryName?_eq_some hmade
  rw [← temporaryName] at hname
  subst hname
  refine ⟨Disk.temporaryMark n, rfl, ?_⟩
  rw [d.resolve_below _ (temporaryName_ne_up p.key _), d.resolve_root (d.up_notMem_resolve _)]
  exact hfree

theorem hasEntry_of_find? {d written : Disk} {p : Path} {content : List UInt8} (h : d.writeFile p content = .ok written)
    (hfree : d.root.find? (d.resolve p) = none) : d.hasEntry p = .ok false := by
  obtain ⟨spot, hlocate, _, _⟩ := (Disk.writeFile_eq_ok_iff d p content written).mp h
  rw [← Disk.locate_eq_resolve hlocate] at hfree
  simp [Disk.hasEntry, Disk.test, Disk.entry_eq, hlocate, hfree, Refusal.meansAbsent]

-- Writing a temporary file at once is making it and adding all of the payload.
theorem steps_writeFile {d written : Disk} {mark : String}
    (hfree : d.root.find? (d.resolve (cache.temporaryFor d put.package mark)) = none)
    (h : d.writeFile (cache.temporaryFor d put.package mark) put.payload = .ok written) :
    ReflTransGen (put.Step cache) (d, .starting) (written, .writing mark []) := by
  obtain ⟨created, hcreated, hread, hagain⟩ := Disk.writeFile_again (plain_temporaryFor cache d _ mark) h []
  have hhere := (Disk.writeFile_files (temporaryName_ne_up _ _) hcreated).1
  rw [← temporaryFor, ← temporaryFor_congr cache hhere] at hread hagain
  have hcreate : put.Step cache (d, .starting) (created, .writing mark put.payload) :=
    .create (hasEntry_of_find? h hfree) hcreated
  have happend : put.Step cache (created, .writing mark (put.payload ++ [])) (written, .writing mark []) :=
    .append hread hagain
  rw [List.append_nil] at happend
  exact (ReflTransGen.single hcreate).tail happend

theorem steps_replaceFile (d : Disk) :
    ∃ phase, ReflTransGen (put.Step cache) (d, .starting)
      ((d.replaceFile (cache.fileFor put.package) put.payload).2, phase) := by
  rw [Disk.replaceFile]
  split
  · exact ⟨_, .refl⟩
  · rename_i temporary htemporary
    obtain ⟨mark, rfl, hfree⟩ := exists_temporaryFor htemporary
    split
    · exact ⟨_, .refl⟩
    · rename_i written hwritten
      have hwriting := steps_writeFile hfree hwritten
      have hhere := (Disk.writeFile_files (temporaryName_ne_up _ _) hwritten).1
      rw [← temporaryFor_congr cache hhere]
      split
      · rename_i moved hmoved
        exact ⟨_, hwriting.tail (.rename hmoved)⟩
      · cases hremoved : written.removeFile (cache.temporaryFor written put.package mark) with
        | error e => exact ⟨_, hwriting⟩
        | ok removed => exact ⟨_, hwriting.tail (.unlink hremoved)⟩

theorem steps_put (cache : Cache) (put : Put) (w : World) :
    ∃ phase, ReflTransGen (put.Step cache) (w.disk, .starting)
      (((cache.put put.package put.docs).runIn w).2.disk, phase) := by
  have hdisk : ((cache.put put.package put.docs).runIn w).2.disk =
      (w.disk.replaceFileBelow (cache.fileFor put.package) put.payload).2 := by
    obtain ⟨events, hrun⟩ := runIn_put cache put.package put.docs w
    rw [hrun, Put.payload]
    split <;> rename_i hdone <;> rw [hdone]
  have hparent : (cache.fileFor put.package).parent = cache.folderFor put.package := by
    rw [fileFor_eq, Path.parent_below, folderFor_eq]
  have hback : (cache.folderFor put.package).parts.reverse.reverse <+: (cache.folderFor put.package).parts := by
    simp
  have hfolders := steps_makeFoldersBack rfl hback w.disk
  rw [← Disk.makeFolders, ← hparent] at hfolders
  rw [hdisk, Disk.replaceFileBelow]
  split
  · rename_i made hmade
    rw [hmade] at hfolders
    obtain ⟨phase, hfile⟩ := steps_replaceFile made
    exact ⟨phase, hfolders.trans hfile⟩
  · exact ⟨_, hfolders⟩

end CrateDocs.Cache
