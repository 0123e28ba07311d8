import CrateDocs.Proofs.Crate.Loaded
import CrateDocs.Proofs.Syntax.Errors
import Mathlib.Logic.Relation

namespace CrateDocs

namespace Crate

open Syntax (Node Source Site sites)

-- The attribute that names the file of a module, among the nodes before the declaration from the last to the
-- first. It is the nearest of those that name one, with nothing but attributes and comments between.
def NearestPath (s : Source) (target : String) (ns : List Node) : Prop :=
  ∃ nearer n farther, ns = nearer ++ n :: farther ∧
    (∀ m ∈ nearer, m.isComment = true ∨ m.kind = "attribute_item" ∧ pathOfAttribute? (s.text m) = none) ∧
    n.kind = "attribute_item" ∧ pathOfAttribute? (s.text n) = some target

def PathAttribute (s : Source) (before : List Node) (target : String) : Prop :=
  NearestPath s target (before.filter (·.named))

theorem nearestPath_cons {s : Source} {target : String} {first : Node} {ns : List Node} :
    NearestPath s target (first :: ns) ↔
      first.kind = "attribute_item" ∧ pathOfAttribute? (s.text first) = some target ∨
        (first.isComment = true ∨ first.kind = "attribute_item" ∧ pathOfAttribute? (s.text first) = none) ∧
          NearestPath s target ns := by
  constructor
  · rintro ⟨_ | ⟨m, nearer⟩, n, farther, heq, hnearer, hn⟩
    · obtain ⟨rfl, rfl⟩ := List.cons.inj heq
      exact Or.inl hn
    · obtain ⟨rfl, rfl⟩ := List.cons.inj heq
      rw [List.forall_mem_cons] at hnearer
      exact Or.inr ⟨hnearer.1, nearer, n, farther, rfl, hnearer.2, hn⟩
  · rintro (hn | ⟨hfirst, nearer, n, farther, rfl, hnearer, hn⟩)
    · exact ⟨[], first, ns, rfl, by simp, hn⟩
    · exact ⟨first :: nearer, n, farther, rfl, List.forall_mem_cons.mpr ⟨hfirst, hnearer⟩, hn⟩

theorem kind_ne_of_isComment {n : Node} (h : n.isComment = true) : n.kind ≠ "attribute_item" := by
  intro hkind
  rw [Node.isComment, hkind] at h
  revert h
  decide

theorem findSome?_takeWhile_iff (s : Source) (target : String) (ns : List Node) :
    (ns.takeWhile fun n => n.kind == "attribute_item" || n.isComment).findSome?
        (fun n => if n.kind == "attribute_item" then pathOfAttribute? (s.text n) else none) = some target ↔
      NearestPath s target ns := by
  induction ns with
  | nil => simp [NearestPath]
  | cons first ns ih =>
      rw [nearestPath_cons, ← ih]
      by_cases hkind : first.kind = "attribute_item"
      · have hcomment : first.isComment = false := by
          by_contra h
          exact kind_ne_of_isComment (Bool.not_eq_false _ ▸ h) hkind
        cases hpath : pathOfAttribute? (s.text first) with
        | none => simp [hkind, hcomment, hpath]
        | some found => simp [hkind, hcomment, hpath]
      · cases hcomment : first.isComment with
        | false => simp [hkind, hcomment]
        | true => simp [hkind, hcomment]

theorem pathBefore?_eq_some_iff (s : Source) (before : List Node) (target : String) :
    pathBefore? s before = some target ↔ PathAttribute s before target :=
  findSome?_takeWhile_iff s target (before.filter (·.named))

theorem PathAttribute.unique {s : Source} {before : List Node} {target other : String}
    (h : PathAttribute s before target) (hother : PathAttribute s before other) : target = other := by
  rw [← pathBefore?_eq_some_iff] at h hother
  exact Option.some.inj (h.symm.trans hother)

section located

variable (d : Disk) (s : Source) (directory : Path) (decl : Declaration)

-- The places that the file of a module may have.

def attributeFile (target : String) : Path :=
  (attributeFolderIn directory s.path.parent decl.outer).child target

def flatFile : Path :=
  (folderIn directory decl.outer).child (decl.name ++ ".rs")

def nestedFile : Path :=
  ((folderIn directory decl.outer).child decl.name).child "mod.rs"

-- The file of a declared module, and whether the modules in it are looked for beside it. An attribute decides
-- alone, and of the two usual places the flat one comes first.
inductive Located : Path → Bool → Prop
  | given {target : String} (h : PathAttribute s decl.before target)
      (hfile : d.isFile (attributeFile s directory decl target) = .ok true) :
      Located (attributeFile s directory decl target) true
  | flat (h : ∀ target, ¬PathAttribute s decl.before target) (hfile : d.isFile (flatFile directory decl) = .ok true) :
      Located (flatFile directory decl) false
  | nested (h : ∀ target, ¬PathAttribute s decl.before target)
      (hflat : d.isFile (flatFile directory decl) = .ok false)
      (hfile : d.isFile (nestedFile directory decl) = .ok true) : Located (nestedFile directory decl) true

-- Whether the disk answers when it is asked for the file.
structure Answered : Prop where
  given : ∀ target, PathAttribute s decl.before target →
    ∃ answer, d.isFile (attributeFile s directory decl target) = .ok answer
  flat : (∀ target, ¬PathAttribute s decl.before target) → ∃ answer, d.isFile (flatFile directory decl) = .ok answer
  nested : (∀ target, ¬PathAttribute s decl.before target) → d.isFile (flatFile directory decl) = .ok false →
    ∃ answer, d.isFile (nestedFile directory decl) = .ok answer

def locateDeclared : Except DiskError (Option (Path × Bool)) :=
  locate d (folderIn directory decl.outer) (attributeFolderIn directory s.path.parent decl.outer)
    (pathBefore? s decl.before) decl.name

variable {d s directory decl}

theorem pathBefore?_eq_none_iff : pathBefore? s decl.before = none ↔ ∀ target, ¬PathAttribute s decl.before target := by
  rw [Option.eq_none_iff_forall_ne_some]
  exact forall_congr' fun target => not_congr (pathBefore?_eq_some_iff s decl.before target)

theorem locateDeclared_of_attribute {target : String} (h : PathAttribute s decl.before target) :
    locateDeclared d s directory decl =
      (d.isFile (attributeFile s directory decl target)).map fun there =>
        if there then some (attributeFile s directory decl target, true) else none := by
  rw [locateDeclared, (pathBefore?_eq_some_iff s decl.before target).mpr h, locate, ← attributeFile]
  cases d.isFile (attributeFile s directory decl target) <;> rfl

theorem locateDeclared_of_none (h : ∀ target, ¬PathAttribute s decl.before target) :
    locateDeclared d s directory decl =
      match d.isFile (flatFile directory decl) with
      | .error e => .error e
      | .ok true => .ok (some (flatFile directory decl, false))
      | .ok false =>
        (d.isFile (nestedFile directory decl)).map fun there =>
          if there then some (nestedFile directory decl, true) else none := by
  rw [locateDeclared, pathBefore?_eq_none_iff.mpr h, locate, ← flatFile, ← nestedFile]
  rcases d.isFile (flatFile directory decl) with e | (_ | _)
  · rfl
  · cases hnested : d.isFile (nestedFile directory decl) <;>
      simp [bind, Except.bind, pure, Except.pure, Except.map, hnested]
  · rfl

theorem map_ite_eq_ok_some_iff {x : Except DiskError Bool} {file found : Path} {beside beside' : Bool} :
    (x.map fun there => if there then some (file, beside) else none) = .ok (some (found, beside')) ↔
      x = .ok true ∧ found = file ∧ beside' = beside := by
  rcases x with e | (_ | _) <;> simp [Except.map, eq_comm]

theorem locateDeclared_eq_some_iff (file : Path) (beside : Bool) :
    locateDeclared d s directory decl = .ok (some (file, beside)) ↔ Located d s directory decl file beside := by
  by_cases hpath : ∃ target, PathAttribute s decl.before target
  · obtain ⟨target, htarget⟩ := hpath
    rw [locateDeclared_of_attribute htarget, map_ite_eq_ok_some_iff]
    constructor
    · rintro ⟨hfile, rfl, rfl⟩
      exact .given htarget hfile
    · intro h
      cases h with
      | @given other hother hfile =>
          obtain rfl := htarget.unique hother
          exact ⟨hfile, rfl, rfl⟩
      | flat hnone => exact absurd htarget (hnone target)
      | nested hnone => exact absurd htarget (hnone target)
  · rw [not_exists] at hpath
    rw [locateDeclared_of_none hpath]
    constructor
    · intro h
      rcases hflat : d.isFile (flatFile directory decl) with e | (_ | _)
      · rw [hflat] at h
        cases h
      · rw [hflat] at h
        obtain ⟨hfile, rfl, rfl⟩ := map_ite_eq_ok_some_iff.mp h
        exact .nested hpath hflat hfile
      · rw [hflat] at h
        cases h
        exact .flat hpath hflat
    · intro h
      cases h with
      | given htarget => exact absurd htarget (hpath _)
      | flat _ hfile => rw [hfile]
      | nested _ hflat hfile =>
          rw [hflat, hfile]
          rfl

theorem exists_map_eq_ok_iff {α : Type} {x : Except DiskError Bool} {f : Bool → α} :
    (∃ found, x.map f = .ok found) ↔ ∃ answer, x = .ok answer := by
  cases x <;> simp [Except.map]

theorem exists_locateDeclared_iff :
    (∃ found?, locateDeclared d s directory decl = .ok found?) ↔ Answered d s directory decl := by
  by_cases hpath : ∃ target, PathAttribute s decl.before target
  · obtain ⟨target, htarget⟩ := hpath
    rw [locateDeclared_of_attribute htarget, exists_map_eq_ok_iff]
    constructor
    · intro hanswer
      refine ⟨fun other hother => ?_, fun hnone => absurd htarget (hnone target), fun hnone => absurd htarget (hnone target)⟩
      obtain rfl := htarget.unique hother
      exact hanswer
    · exact fun h => h.given target htarget
  · rw [not_exists] at hpath
    rw [locateDeclared_of_none hpath]
    constructor
    · intro h
      refine ⟨fun target htarget => absurd htarget (hpath target), fun _ => ?_, fun _ hflat => ?_⟩
      · cases hflat : d.isFile (flatFile directory decl) with
        | error e =>
            rw [hflat] at h
            obtain ⟨_, h⟩ := h
            cases h
        | ok answer => exact ⟨answer, rfl⟩
      · rw [hflat] at h
        exact exists_map_eq_ok_iff.mp h
    · intro h
      obtain ⟨answer, hflat⟩ := h.flat hpath
      rw [hflat]
      cases answer with
      | true => exact ⟨_, rfl⟩
      | false => exact exists_map_eq_ok_iff.mpr (h.nested hpath hflat)

-- What is located is a file that can be read.
theorem Located.isFile {file : Path} {beside : Bool} (h : Located d s directory decl file beside) :
    d.isFile file = .ok true := by
  cases h <;> assumption

end located

-- A file that was not reached yet or is about to be, and the folder that its modules are looked for in.
structure Target where
  file : Path
  directory : Path
deriving DecidableEq

namespace Target

variable (grammar : Grammar) (d : Disk)

def entry (path : Path) : Target :=
  ⟨path, path.parent⟩

-- The file itself, whatever path leads to it.
def spot (t : Target) : Location :=
  d.resolve t.file

-- A declaration in the file, as it reads.
structure Declares (t : Target) (s : Source) (decl : Declaration) : Prop where
  path : s.path = t.file
  read : d.read t.file = .ok s.bytes
  mem : decl ∈ declarations s [] [] [] (grammar s.bytes)

-- A declaration in the file, and the file of the module.
def Leads (t : Target) (decl : Declaration) (next : Target) : Prop :=
  ∃ s, t.Declares grammar d s decl ∧ ∃ beside,
    Located d s t.directory decl next.file beside ∧ next.directory = childFolder next.file beside

def Follows (t next : Target) : Prop :=
  ∃ decl, t.Leads grammar d decl next

-- The files that a crate leads to from its entry file.
def Reached (path : Path) : Target → Prop :=
  Relation.ReflTransGen (Follows grammar d) (entry path)

variable {grammar d}

theorem declares_iff {t : Target} {s : Source} {decl : Declaration} {bytes : List UInt8}
    (hread : d.read t.file = .ok bytes) :
    t.Declares grammar d s decl ↔
      s = ⟨t.file, bytes⟩ ∧ decl ∈ declarations ⟨t.file, bytes⟩ [] [] [] (grammar bytes) := by
  constructor
  · intro h
    have hsource : s = ⟨t.file, bytes⟩ := by
      rw [← h.path, ← Except.ok.inj (h.read.symm.trans hread)]
    have hmem := h.mem
    rw [hsource] at hmem
    exact ⟨hsource, hmem⟩
  · rintro ⟨rfl, hmem⟩
    exact ⟨rfl, hread, hmem⟩

end Target

end Crate

end CrateDocs
