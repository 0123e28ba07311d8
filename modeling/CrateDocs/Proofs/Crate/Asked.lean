import CrateDocs.Proofs.Crate.Ends
import CrateDocs.Proofs.Disk.Files

namespace CrateDocs.Crate

open Syntax (Node Source Tree)
open Target (Reached)

-- The paths that loading a crate asks the disk about: the files that it leads to, and the places of every module
-- that they declare. Once a module has its file, its other place is not asked for.
inductive Asked (grammar : Grammar) (d : Disk) (entry : Path) : Path → Prop
  | file {t : Target} (ht : Reached grammar d entry t) : Asked grammar d entry t.file
  | given {t : Target} {s : Source} {decl : Declaration} {target : String} (ht : Reached grammar d entry t)
      (hdecl : t.Declares grammar d s decl) (h : PathAttribute s decl.before target) :
      Asked grammar d entry (attributeFile s t.directory decl target)
  | flat {t : Target} {s : Source} {decl : Declaration} (ht : Reached grammar d entry t)
      (hdecl : t.Declares grammar d s decl) (h : ∀ target, ¬PathAttribute s decl.before target) :
      Asked grammar d entry (flatFile t.directory decl)
  | nested {t : Target} {s : Source} {decl : Declaration} (ht : Reached grammar d entry t)
      (hdecl : t.Declares grammar d s decl) (h : ∀ target, ¬PathAttribute s decl.before target)
      (hflat : d.isFile (flatFile t.directory decl) = .ok false) : Asked grammar d entry (nestedFile t.directory decl)

-- Disks that say the same about a path.
structure Alike (d e : Disk) (p : Path) : Prop where
  read : e.read p = d.read p
  isFile : e.isFile p = d.isFile p

variable {grammar : Grammar} {d e : Disk}

section declared

variable {load other : Path → Path → Loading (Option Tree)} {s : Source} {directory : Path} {decl : Declaration}

theorem loadDeclaration_congr (hlocate : locateDeclared e s directory decl = locateDeclared d s directory decl)
    (hload : ∀ file beside, Located d s directory decl file beside →
      other file (childFolder file beside) = load file (childFolder file beside)) :
    loadDeclaration other e s directory decl = loadDeclaration load d s directory decl := by
  rw [locateDeclared] at hlocate
  rw [loadDeclaration, loadDeclaration, loadModule, loadModule, hlocate, ← locateDeclared]
  rcases hfound : locateDeclared d s directory decl with refusal | (_ | ⟨file, beside⟩)
  · rfl
  · rfl
  · have hsame := hload file beside ((locateDeclared_eq_some_iff file beside).mp hfound)
    exact congrArg (fun loaded : Loading (Option Tree) => do
      return ((← loaded).map fun tree => (decl.site.node.start, tree)).toList) hsame

theorem loadDeclarations_congr {decls : List Declaration}
    (h : ∀ decl ∈ decls, loadDeclaration other e s directory decl = loadDeclaration load d s directory decl) :
    loadDeclarations other e s directory decls = loadDeclarations load d s directory decls := by
  induction decls with
  | nil => rfl
  | cons decl decls ih =>
      rw [List.forall_mem_cons] at h
      rw [loadDeclarations, loadDeclarations, h.1, ih h.2]

end declared

section alike

variable {entry : Path} (hhere : e.here = d.here) (halike : ∀ p, Asked grammar d entry p → Alike d e p)

include halike

theorem locateDeclared_congr {t : Target} {s : Source} {decl : Declaration} (ht : Reached grammar d entry t)
    (hdecl : t.Declares grammar d s decl) :
    locateDeclared e s t.directory decl = locateDeclared d s t.directory decl := by
  by_cases hpath : ∃ target, PathAttribute s decl.before target
  · obtain ⟨target, htarget⟩ := hpath
    rw [locateDeclared_of_attribute htarget, locateDeclared_of_attribute htarget,
      (halike _ (.given ht hdecl htarget)).isFile]
  · rw [not_exists] at hpath
    rw [locateDeclared_of_none hpath, locateDeclared_of_none hpath, (halike _ (.flat ht hdecl hpath)).isFile]
    rcases hflat : d.isFile (flatFile t.directory decl) with refusal | (_ | _)
    · rfl
    · dsimp only
      rw [(halike _ (.nested ht hdecl hpath hflat)).isFile]
    · rfl

include hhere

-- What is loaded depends on nothing else.
theorem loadFile_congr (limit : Nat) {t : Target} (ht : Reached grammar d entry t) :
    loadFile grammar e limit t.file t.directory = loadFile grammar d limit t.file t.directory := by
  induction limit generalizing t with
  | zero => rfl
  | succ limit ih =>
      rw [loadFile, loadFile, Disk.resolve_congr hhere, (halike _ (.file ht)).read]
      cases hread : d.read t.file with
      | error refusal => rfl
      | ok bytes =>
          have hsame : ∀ decl ∈ declarations ⟨t.file, bytes⟩ [] [] [] (grammar bytes),
              loadDeclaration (loadFile grammar e limit) e ⟨t.file, bytes⟩ t.directory decl =
                loadDeclaration (loadFile grammar d limit) d ⟨t.file, bytes⟩ t.directory decl := by
            intro decl hmem
            have hdecl : t.Declares grammar d ⟨t.file, bytes⟩ decl := ⟨rfl, hread, hmem⟩
            refine loadDeclaration_congr (locateDeclared_congr halike ht hdecl) fun file beside hfile => ?_
            exact ih (t := ⟨file, childFolder file beside⟩) (ht.tail ⟨decl, _, hdecl, beside, hfile, rfl⟩)
          have hmodules : loadModules (loadFile grammar e limit) e ⟨t.file, bytes⟩ t.directory t.file.parent []
                (grammar bytes).children =
              loadModules (loadFile grammar d limit) d ⟨t.file, bytes⟩ t.directory t.file.parent []
                (grammar bytes).children := by
            have hall := loadDeclarations_congr hsame
            rwa [← loadModules_root, ← loadModules_root] at hall
          dsimp only
          rw [hmodules]

-- The bounds on the depth may differ, but neither cuts anything off.
theorem load_congr : load grammar e entry = load grammar d entry := by
  obtain ⟨_, found, _, hfound⟩ := exists_ends grammar d entry entry.parent
  obtain ⟨_, found', _, hfound'⟩ := exists_ends grammar e entry entry.parent
  have hlimit := loadFile_congr hhere halike (max (fileLimit d) (fileLimit e)) (t := Target.entry entry)
    Relation.ReflTransGen.refl
  have hone := hfound _ (Nat.le_max_left (fileLimit d) (fileLimit e))
  have hother := hfound' _ (Nat.le_max_right (fileLimit d) (fileLimit e))
  rw [Target.entry] at hlimit
  rw [hlimit, hone] at hother
  rw [load, load, hfound _ (Nat.le_refl _), hfound' _ (Nat.le_refl _), hother]

end alike

end CrateDocs.Crate
