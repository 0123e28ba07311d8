import CrateDocs.Crate.Parse
import CrateDocs.Proofs.Crate.Declared
import CrateDocs.Proofs.Disk.Locate
import CrateDocs.Proofs.Work.Reads

namespace CrateDocs.Crate

open Syntax (Node Source Tree Diagnostic)
open Work (Reads)

-- The folder that modules are looked for in below the modules `outer`, which have a body.
def folderIn (directory : Path) (outer : List String) : Path :=
  outer.foldl Path.child directory

-- The folder that the path in an attribute starts from there.
def attributeFolderIn (directory own : Path) (outer : List String) : Path :=
  if outer = [] then own else folderIn directory outer

section declarations

variable (load : Path → Path → Loading (Option Tree)) (d : Disk) (s : Source) (directory : Path)

def loadDeclaration (decl : Declaration) : Loading (List (Nat × Tree)) :=
  loadModule load d s (folderIn directory decl.outer)
    (attributeFolderIn directory s.path.parent decl.outer) decl.before decl.site.node decl.name

def loadDeclarations : List Declaration → Loading (List (Nat × Tree))
  | [] => return []
  | decl :: rest => do
    let here ← loadDeclaration load d s directory decl
    let others ← loadDeclarations rest
    return here ++ others

theorem loadDeclarations_append (decls more : List Declaration) :
    loadDeclarations load d s directory (decls ++ more) = do
      let here ← loadDeclarations load d s directory decls
      let others ← loadDeclarations load d s directory more
      return here ++ others := by
  induction decls with
  | nil => simp [loadDeclarations]
  | cons decl decls ih =>
      simp only [List.cons_append, loadDeclarations, ih, bind_assoc, pure_bind, List.append_assoc]

theorem loadDeclarations_singleton (decl : Declaration) :
    loadDeclarations load d s directory [decl] = loadDeclaration load d s directory decl := by
  simp [loadDeclarations]

theorem folderIn_append (outer : List String) (name : String) :
    folderIn directory (outer ++ [name]) = (folderIn directory outer).child name := by
  simp [folderIn]

-- What some nodes declare is loaded in the order of the declarations.
mutual
theorem loadModules_eq (ns : List Node) (way : List Nat) (index : Nat) (above : List Node)
    (outer : List String) (before : List Node) :
    loadModules load d s (folderIn directory outer) (attributeFolderIn directory s.path.parent outer)
        before ns =
      loadDeclarations load d s directory (declaredIn s way index above outer before ns) := by
  cases ns with
  | nil => rfl
  | cons n ns =>
      rw [loadModules, declaredIn, loadDeclarations_append,
        loadDeclared_eq n (way ++ [index]) above outer before,
        loadModules_eq ns way (index + 1) above outer (n :: before)]
theorem loadDeclared_eq (n : Node) (way : List Nat) (above : List Node) (outer : List String)
    (before : List Node) :
    loadDeclared load d s (folderIn directory outer) (attributeFolderIn directory s.path.parent outer)
        before n =
      loadDeclarations load d s directory (declaredBy s way above outer before n) := by
  cases n with
  | mk kind start stop field named missing children =>
      rw [loadDeclared, declaredBy]
      cases Node.child? ⟨kind, start, stop, field, named, missing, children⟩ "name" with
      | none => rfl
      | some nameNode =>
          by_cases hmodule : (named && kind == "mod_item") = true
          · simp only [hmodule, if_true]
            exact loadBody_eq children way 0 above outer before _ _
          · simp only [hmodule, Bool.false_eq_true, if_false]
            rfl
theorem loadBody_eq (ns : List Node) (way : List Nat) (index : Nat) (above : List Node)
    (outer : List String) (before : List Node) (n : Node) (name : String) :
    loadBody load d s (folderIn directory outer) (attributeFolderIn directory s.path.parent outer)
        before n name ns =
      loadDeclarations load d s directory (declaredBelow s way index above outer before n name ns) := by
  cases ns with
  | nil =>
      rw [loadBody, declaredBelow, loadDeclarations_singleton]
      rfl
  | cons c ns =>
      cases c with
      | mk kind start stop field named missing children =>
          rw [loadBody, declaredBelow]
          split
          · rw [← loadModules_eq children, folderIn_append, attributeFolderIn, if_neg (by simp),
              folderIn_append]
          · exact loadBody_eq ns way (index + 1) above outer before n name
end

end declarations

namespace Loading

theorem run_bind_eq_ok {α β : Type} {x : Loading α} {next : α → Loading β} {p q : Progress} {b : β}
    (h : (x >>= next).run p = .ok (b, q)) :
    ∃ a r, x.run p = .ok (a, r) ∧ (next a).run r = .ok (b, q) := by
  rw [StateT.run_bind] at h
  cases hx : x.run p with
  | error e => rw [hx] at h; cases h
  | ok found => exact ⟨found.1, found.2, rfl, by rw [hx] at h; exact h⟩

theorem run_pure_eq_ok {α : Type} {a b : α} {p q : Progress}
    (h : (pure a : Loading α).run p = .ok (b, q)) : b = a ∧ q = p := by
  cases h
  exact ⟨rfl, rfl⟩

theorem run_lift_eq_ok {α : Type} {x : Except DiskError α} {a : α} {p q : Progress}
    (h : (liftM x : Loading α).run p = .ok (a, q)) : x = .ok a ∧ q = p := by
  cases x with
  | error e => cases h
  | ok found =>
      cases h
      exact ⟨rfl, rfl⟩

-- Loading that takes no problem back.
def Adds {α : Type} (x : Loading α) : Prop :=
  ∀ (p q : Progress) (a : α), x.run p = .ok (a, q) → p.diagnostics <+: q.diagnostics

theorem Adds.bind {α β : Type} {x : Loading α} {next : α → Loading β} (hx : Adds x)
    (hnext : ∀ a, Adds (next a)) : Adds (x >>= next) := by
  intro p q b h
  obtain ⟨a, r, hrun, hrest⟩ := run_bind_eq_ok h
  exact (hx p r a hrun).trans (hnext a r q b hrest)

theorem Adds.pure {α : Type} (a : α) : Adds (pure a) := by
  intro p q b h
  obtain ⟨_, rfl⟩ := run_pure_eq_ok h
  exact List.prefix_rfl

theorem Adds.throw {α : Type} (e : DiskError) : Adds (throw e : Loading α) := by
  intro p q b h
  cases h

theorem Adds.lift {α : Type} (x : Except DiskError α) : Adds (liftM x : Loading α) := by
  intro p q a h
  obtain ⟨_, rfl⟩ := run_lift_eq_ok h
  exact List.prefix_rfl

theorem Adds.modify {change : Progress → Progress}
    (h : ∀ p, p.diagnostics <+: (change p).diagnostics) : Adds (modify change : Loading Unit) := by
  intro p q a hrun
  cases hrun
  exact h p

theorem Adds.get : Adds (get : Loading Progress) := by
  intro p q a h
  cases h
  exact List.prefix_rfl

theorem Adds.report (problem : Diagnostic) : Adds (report problem) :=
  Adds.modify fun p => List.prefix_append p.diagnostics [problem]

end Loading

open Loading (Adds)

theorem adds_loadDeclaration {load : Path → Path → Loading (Option Tree)}
    (hload : ∀ path directory, Adds (load path directory)) (d : Disk) (s : Source) (directory : Path)
    (decl : Declaration) : Adds (loadDeclaration load d s directory decl) := by
  rw [loadDeclaration, loadModule]
  refine (Adds.lift _).bind fun found => ?_
  cases found with
  | none => exact (Adds.report _).bind fun _ => Adds.pure _
  | some found => exact (hload _ _).bind fun _ => Adds.pure _

theorem adds_loadDeclarations {load : Path → Path → Loading (Option Tree)}
    (hload : ∀ path directory, Adds (load path directory)) (d : Disk) (s : Source) (directory : Path)
    (decls : List Declaration) : Adds (loadDeclarations load d s directory decls) := by
  induction decls with
  | nil => exact Adds.pure []
  | cons decl decls ih =>
      exact (adds_loadDeclaration hload d s directory decl).bind fun here =>
        ih.bind fun others => Adds.pure (here ++ others)

theorem loadModules_root (load : Path → Path → Loading (Option Tree)) (d : Disk) (s : Source)
    (directory : Path) (root : Node) :
    loadModules load d s directory s.path.parent [] root.children =
      loadDeclarations load d s directory (declarations s [] [] [] root) :=
  loadModules_eq load d s directory root.children [] 0 [root] [] []

theorem adds_loadFile (grammar : Grammar) (d : Disk) (limit : Nat) (path directory : Path) :
    Adds (loadFile grammar d limit path directory) := by
  induction limit generalizing path directory with
  | zero => exact Adds.pure none
  | succ limit ih =>
      rw [loadFile]
      refine Adds.get.bind fun p => ?_
      split
      · exact (Adds.report _).bind fun _ => Adds.pure none
      · refine Adds.bind (Adds.modify ?_) fun _ => ?_
        · exact fun p => List.prefix_rfl
        split
        · split
          · exact (Adds.report _).bind fun _ => Adds.pure none
          · exact Adds.throw _
        · rename_i bytes hbytes
          refine (Adds.modify fun p => List.prefix_append _ _).bind fun _ => ?_
          rw [loadModules_root _ d ⟨path, bytes⟩]
          exact (adds_loadDeclarations ih d _ directory _).bind fun _ => Adds.pure _

-- A file that was loaded, the folder its modules were looked for in, and the files of those modules
-- in the order of their declarations.
structure ModuleFile where
  source : Source
  directory : Path
  modules : List ModuleFile

namespace ModuleFile

def root (grammar : Grammar) (m : ModuleFile) : Node :=
  grammar m.source.bytes

def declared (grammar : Grammar) (m : ModuleFile) : List Declaration :=
  declarations m.source [] [] [] (m.root grammar)

-- The tree of a file with those of its modules in it.
mutual
def tree (grammar : Grammar) : ModuleFile → Tree
  | ⟨source, directory, modules⟩ =>
    let m : ModuleFile := ⟨source, directory, modules⟩
    Tree.ofNode source (((m.declared grammar).map (·.site.node.start)).zip (trees grammar modules))
      (m.root grammar)
def trees (grammar : Grammar) : List ModuleFile → List Tree
  | [] => []
  | m :: rest => m.tree grammar :: trees grammar rest
end

theorem trees_eq (grammar : Grammar) (ms : List ModuleFile) : trees grammar ms = ms.map (tree grammar) := by
  induction ms with
  | nil => rfl
  | cons m ms ih => rw [trees, ih, List.map_cons]

-- The trees of a file's modules, each with the start of its declaration.
def grafts (grammar : Grammar) (m : ModuleFile) : List (Nat × Tree) :=
  ((m.declared grammar).map (·.site.node.start)).zip (m.modules.map (tree grammar))

theorem tree_eq (grammar : Grammar) (m : ModuleFile) :
    m.tree grammar = Tree.ofNode m.source (m.grafts grammar) (m.root grammar) := by
  cases m
  rw [tree, trees_eq]
  rfl

-- A file and all files below it, each before those of its modules.
mutual
def all : ModuleFile → List ModuleFile
  | ⟨source, directory, modules⟩ => ⟨source, directory, modules⟩ :: allIn modules
def allIn : List ModuleFile → List ModuleFile
  | [] => []
  | m :: rest => m.all ++ allIn rest
end

theorem allIn_eq (ms : List ModuleFile) : allIn ms = ms.flatMap all := by
  induction ms with
  | nil => rfl
  | cons m ms ih => rw [allIn, ih, List.flatMap_cons]

theorem all_eq (m : ModuleFile) : m.all = m :: m.modules.flatMap all := by
  cases m
  rw [all, allIn_eq]

theorem mem_all_self (m : ModuleFile) : m ∈ m.all := by
  rw [all_eq]
  exact List.mem_cons_self

def spots (d : Disk) (m : ModuleFile) : List Location :=
  m.all.map fun file => d.resolve file.source.path

theorem spots_eq (d : Disk) (m : ModuleFile) :
    m.spots d = d.resolve m.source.path :: m.modules.flatMap (spots d) := by
  rw [spots, all_eq, List.map_cons, List.map_flatMap]
  rfl

end ModuleFile

-- Where the file of a declared module is.
def Finds (d : Disk) (s : Source) (directory : Path) (decl : Declaration) (m : ModuleFile) : Prop :=
  ∃ beside,
    locate d (folderIn directory decl.outer) (attributeFolderIn directory s.path.parent decl.outer)
        (pathBefore? s decl.before) decl.name = .ok (some (m.source.path, beside)) ∧
      m.directory = childFolder m.source.path beside

-- A file that was read without a problem, with the files of all modules it declares.
inductive Loaded (grammar : Grammar) (d : Disk) : ModuleFile → Prop
  | file {source : Source} {directory : Path} {modules : List ModuleFile}
      (hread : d.read source.path = .ok source.bytes)
      (hclean : source.syntaxErrors (grammar source.bytes) = [])
      (hfound : List.Forall₂ (Finds d source directory)
        (declarations source [] [] [] (grammar source.bytes)) modules)
      (hmodules : ∀ m ∈ modules, Loaded grammar d m) :
      Loaded grammar d ⟨source, directory, modules⟩

-- Different locations of files.
def FileSpots (d : Disk) (spots : List Location) : Prop :=
  spots.Nodup ∧ ∀ spot ∈ spots, ∃ content, d.root.find? spot = some (.file content)

-- Where loading a file without a problem goes, from the files loaded before to those after.
structure Result (grammar : Grammar) (d : Disk) (m : ModuleFile) (before after : List Location) :
    Prop where
  loaded : Loaded grammar d m
  files : after = before ++ m.spots d
  fileSpots : FileSpots d after

-- Loading of single files that gives the file or reports a problem, as long as `limit` is more than
-- the number of files that are left.
def Complete (grammar : Grammar) (d : Disk) (limit : Nat)
    (load : Path → Path → Loading (Option Tree)) : Prop :=
  ∀ (path directory : Path) (p q : Progress) (tree? : Option Tree),
    (load path directory).run p = .ok (tree?, q) → q.diagnostics = [] → FileSpots d p.files →
    d.root.fileCount < p.files.length + limit →
    ∃ m : ModuleFile, m.source.path = path ∧ m.directory = directory ∧
      tree? = some (m.tree grammar) ∧ Result grammar d m p.files q.files

theorem report_ne_nil {problem : Diagnostic} {p q : Progress} {done : Unit}
    (h : (Loading.report problem).run p = .ok (done, q)) : q.diagnostics ≠ [] := by
  cases h
  exact List.append_ne_nil_of_right_ne_nil p.diagnostics (List.cons_ne_nil problem [])

theorem loadDeclaration_complete {grammar : Grammar} {d : Disk} {limit : Nat}
    {load : Path → Path → Loading (Option Tree)} (hload : Complete grammar d limit load) {s : Source}
    {directory : Path} {decl : Declaration} {p q : Progress} {grafts : List (Nat × Tree)}
    (h : (loadDeclaration load d s directory decl).run p = .ok (grafts, q)) (hq : q.diagnostics = [])
    (hspots : FileSpots d p.files) (hlimit : d.root.fileCount < p.files.length + limit) :
    ∃ m : ModuleFile, Finds d s directory decl m ∧
      grafts = [(decl.site.node.start, m.tree grammar)] ∧ Result grammar d m p.files q.files := by
  rw [loadDeclaration, loadModule] at h
  obtain ⟨found, r, hlocate, hrest⟩ := Loading.run_bind_eq_ok h
  obtain ⟨hfile, rfl⟩ := Loading.run_lift_eq_ok hlocate
  cases found with
  | none =>
      obtain ⟨_, r, hreport, hpure⟩ := Loading.run_bind_eq_ok hrest
      obtain ⟨_, rfl⟩ := Loading.run_pure_eq_ok hpure
      exact absurd hq (report_ne_nil hreport)
  | some found =>
      obtain ⟨file, beside⟩ := found
      obtain ⟨tree?, r, hrun, hpure⟩ := Loading.run_bind_eq_ok hrest
      obtain ⟨rfl, rfl⟩ := Loading.run_pure_eq_ok hpure
      obtain ⟨m, rfl, hdirectory, rfl, hresult⟩ := hload _ _ _ _ _ hrun hq hspots hlimit
      exact ⟨m, ⟨beside, hfile, hdirectory⟩, rfl, hresult⟩

theorem loadDeclarations_complete {grammar : Grammar} {d : Disk} {limit : Nat}
    {load : Path → Path → Loading (Option Tree)} (hload : Complete grammar d limit load)
    (hadds : ∀ path directory, Adds (load path directory)) {s : Source} {directory : Path}
    {decls : List Declaration} {p q : Progress} {grafts : List (Nat × Tree)}
    (h : (loadDeclarations load d s directory decls).run p = .ok (grafts, q)) (hq : q.diagnostics = [])
    (hspots : FileSpots d p.files) (hlimit : d.root.fileCount < p.files.length + limit) :
    ∃ modules : List ModuleFile, List.Forall₂ (Finds d s directory) decls modules ∧
      (∀ m ∈ modules, Loaded grammar d m) ∧
      grafts = (decls.map (·.site.node.start)).zip (modules.map (ModuleFile.tree grammar)) ∧
      q.files = p.files ++ modules.flatMap (ModuleFile.spots d) ∧ FileSpots d q.files := by
  induction decls generalizing p grafts with
  | nil =>
      obtain ⟨rfl, rfl⟩ := Loading.run_pure_eq_ok h
      exact ⟨[], .nil, by simp, rfl, by simp, hspots⟩
  | cons decl decls ih =>
      rw [loadDeclarations] at h
      obtain ⟨here, r, hhere, hrest⟩ := Loading.run_bind_eq_ok h
      obtain ⟨others, r', hothers, hpure⟩ := Loading.run_bind_eq_ok hrest
      obtain ⟨rfl, rfl⟩ := Loading.run_pure_eq_ok hpure
      have hr : r.diagnostics = [] := by
        have hadded := adds_loadDeclarations hadds d s directory decls r q others hothers
        rw [hq] at hadded
        exact List.prefix_nil.mp hadded
      obtain ⟨m, hfinds, rfl, hresult⟩ := loadDeclaration_complete hload hhere hr hspots hlimit
      have hlonger : d.root.fileCount < r.files.length + limit := by
        rw [hresult.files, List.length_append]
        omega
      obtain ⟨modules, hfound, hloaded, rfl, hfiles, hafter⟩ :=
        ih hothers hresult.fileSpots hlonger
      refine ⟨m :: modules, .cons hfinds hfound, ?_, rfl, ?_, hafter⟩
      · exact List.forall_mem_cons.mpr ⟨hresult.loaded, hloaded⟩
      · rw [hfiles, hresult.files, List.flatMap_cons, List.append_assoc]

theorem FileSpots.append {d : Disk} {spots : List Location} (h : FileSpots d spots) {path : Path}
    {bytes : List UInt8} (hnew : d.resolve path ∉ spots) (hread : d.read path = .ok bytes) :
    FileSpots d (spots ++ [d.resolve path]) := by
  obtain ⟨hnodup, hfiles⟩ := h
  refine ⟨List.nodup_append.mpr ⟨hnodup, by simp, ?_⟩, ?_⟩
  · rintro one hone other hother rfl
    rw [List.mem_singleton] at hother
    exact hnew (hother ▸ hone)
  · intro spot hspot
    rw [List.mem_append, List.mem_singleton] at hspot
    cases hspot with
    | inl hspot => exact hfiles spot hspot
    | inr hspot => exact ⟨bytes, hspot ▸ Disk.find?_resolve hread⟩

-- No more files are loaded than there are locations of files, so `limit` is never used up.
theorem loadFile_complete (grammar : Grammar) (d : Disk) (limit : Nat) :
    Complete grammar d limit (loadFile grammar d limit) := by
  induction limit with
  | zero =>
      intro path directory p q tree? h hq hspots hlimit
      have hcount := Folder.length_le_fileCount hspots.1 hspots.2
      omega
  | succ limit ih =>
      intro path directory p q tree? h hq hspots hlimit
      rw [loadFile] at h
      obtain ⟨now, r, hget, h⟩ := Loading.run_bind_eq_ok h
      cases hget
      split at h
      · obtain ⟨_, r, hreport, hpure⟩ := Loading.run_bind_eq_ok h
        obtain ⟨_, rfl⟩ := Loading.run_pure_eq_ok hpure
        exact absurd hq (report_ne_nil hreport)
      · rename_i hnew
        rw [List.contains_iff_mem] at hnew
        obtain ⟨_, r, hmodify, h⟩ := Loading.run_bind_eq_ok h
        cases hmodify
        cases hread : d.read path with
        | error e =>
            simp only [hread] at h
            split at h
            · obtain ⟨_, r, hreport, hpure⟩ := Loading.run_bind_eq_ok h
              obtain ⟨_, rfl⟩ := Loading.run_pure_eq_ok hpure
              exact absurd hq (report_ne_nil hreport)
            · cases h
        | ok bytes =>
            simp only [hread] at h
            obtain ⟨_, r, hmodify, h⟩ := Loading.run_bind_eq_ok h
            cases hmodify
            rw [loadModules_root _ d ⟨path, bytes⟩] at h
            obtain ⟨grafts, r, hgrafts, hpure⟩ := Loading.run_bind_eq_ok h
            obtain ⟨rfl, rfl⟩ := Loading.run_pure_eq_ok hpure
            have hadded := adds_loadDeclarations (adds_loadFile grammar d limit) d _ directory _ _ q
              grafts hgrafts
            rw [hq, List.prefix_nil, List.append_eq_nil_iff] at hadded
            obtain ⟨modules, hfound, hloaded, rfl, hfiles, hafter⟩ :=
              loadDeclarations_complete ih (adds_loadFile grammar d limit) hgrafts hq
                (hspots.append hnew hread) (by simp only [List.length_append, List.length_singleton]; omega)
            refine ⟨⟨⟨path, bytes⟩, directory, modules⟩, rfl, rfl, ?_, ?_, ?_, hafter⟩
            · rw [ModuleFile.tree_eq]
              rfl
            · exact .file hread hadded.2 hfound hloaded
            · rw [hfiles, ModuleFile.spots_eq, List.append_assoc, List.singleton_append]

-- A crate that is loaded without a problem is a file with the files of its modules.
theorem load_eq_ok {grammar : Grammar} {d : Disk} {entry : Path} {tree? : Option Tree}
    {progress : Progress} (h : load grammar d entry = .ok (tree?, progress))
    (hclean : progress.diagnostics = []) :
    ∃ m : ModuleFile, m.source.path = entry ∧ m.directory = entry.parent ∧
      tree? = some (m.tree grammar) ∧ Loaded grammar d m ∧ progress.files = m.spots d ∧
      (m.spots d).Nodup := by
  obtain ⟨m, hpath, hdirectory, htree, hloaded, hfiles, hspots⟩ :=
    loadFile_complete grammar d (fileLimit d) entry entry.parent ⟨[], []⟩ progress tree? h hclean
      ⟨List.nodup_nil, by simp⟩ (by simp [fileLimit])
  rw [List.nil_append] at hfiles
  exact ⟨m, hpath, hdirectory, htree, hloaded, hfiles, hfiles ▸ hspots.1⟩

-- What becomes of a crate that was loaded.
def accept (entry : Path) : Option Syntax.Tree × Progress → Except Failure Crate
  | (some root, ⟨[], files⟩) => .ok ⟨root, files⟩
  | (_, progress) => .error (.fault (.unparsable entry progress.diagnostics))

-- The crate that is parsed from an entry file on a disk.
def parseAt (grammar : Grammar) (entry : Path) (d : Disk) : Except Failure Crate :=
  ((load grammar d entry).mapError .disk).bind (accept entry)

theorem reads_parse (grammar : Grammar) (entry : Path) : Reads (parse grammar entry) (parseAt grammar entry) := by
  refine @Reads.bind _ _ _ _ _ (fun loaded _ => accept entry loaded) (Reads.ask _) ?_
  rintro ⟨root?, diagnostics, files⟩
  have hrefused : Reads (do
      diagnostics.forM fun diagnostic => Work.note (.diagnosed diagnostic)
      (Work.fail (.unparsable entry diagnostics) : Work Crate))
      fun _ => .error (.fault (.unparsable entry diagnostics)) :=
    (Reads.forM (fun diagnostic => Reads.note _) diagnostics).bind fun _ => Reads.fail _
  cases root? with
  | none => exact hrefused
  | some root =>
      cases diagnostics with
      | nil => exact Reads.note_bind _ (Reads.pure _)
      | cons first rest => exact hrefused

theorem load_of_parse {grammar : Grammar} {entry : Path} {w left : World} {crate : Crate}
    (h : (parse grammar entry).runIn w = (.ok crate, left)) :
    load grammar w.disk entry = .ok (some crate.root, ⟨[], crate.files⟩) := by
  obtain ⟨events, hrun⟩ := reads_parse grammar entry w
  rw [hrun] at h
  have hparse : parseAt grammar entry w.disk = .ok crate := congrArg Prod.fst h
  obtain ⟨⟨root?, progress⟩, hload, haccept⟩ := Work.bind_eq_ok hparse
  cases hfound : load grammar w.disk entry with
  | error e => rw [hfound] at hload; cases hload
  | ok found =>
      rw [hfound] at hload
      cases hload
      unfold accept at haccept
      split at haccept
      · rename_i root files heq
        cases haccept
        exact congrArg Except.ok heq
      · cases haccept

theorem loaded_of_parse {grammar : Grammar} {entry : Path} {w left : World} {crate : Crate}
    (h : (parse grammar entry).runIn w = (.ok crate, left)) :
    ∃ m : ModuleFile, m.source.path = entry ∧ m.directory = entry.parent ∧
      crate.root = m.tree grammar ∧ Loaded grammar w.disk m ∧ crate.files = m.spots w.disk ∧
      (m.spots w.disk).Nodup := by
  obtain ⟨m, hpath, hdirectory, hroot, hloaded, hfiles, hnodup⟩ := load_eq_ok (load_of_parse h) rfl
  exact ⟨m, hpath, hdirectory, Option.some.inj hroot, hloaded, hfiles, hnodup⟩

-- The parts of the trees that the sample crates below are read as.

def sampleName (start stop : Nat) : Node := ⟨"identifier", start, stop, some "name", true, false, []⟩

-- Two brackets side by side.
def sampleBrackets (kind opening closing : String) (start : Nat) (field : String) : Node :=
  ⟨kind, start, start + 2, some field, true, false,
    [.leaf opening start (start + 1) false, .leaf closing (start + 1) (start + 2) false]⟩

-- A file that holds one function without parameters and body, with a name of `length` letters.
def sampleFile (length : Nat) : Node :=
  ⟨"source_file", 0, length + 7, none, true, false, [⟨"function_item", 0, length + 7, none, true, false,
    [.leaf "fn" 0 2 false, sampleName 3 (length + 3),
      sampleBrackets "parameters" "(" ")" (length + 3) "parameters",
      sampleBrackets "block" "\x7b" "\x7d" (length + 5) "body"]⟩]⟩

end CrateDocs.Crate
