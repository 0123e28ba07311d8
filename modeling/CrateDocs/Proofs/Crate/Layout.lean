import CrateDocs.Proofs.Crate.Grafts
import CrateDocs.Proofs.Package.Key
import CrateDocs.Proofs.Result

namespace CrateDocs.Crate

open Syntax (Node Source Tree Site)
open Extract (Occurrence documented functions declaredName? scopeBelow rootScope)

-- Names that lead one step down, or nowhere if they are a dot.
def PlainName (name : String) : Prop :=
  name ≠ "" ∧ '/' ∉ name.toList

instance (name : String) : Decidable (PlainName name) :=
  inferInstanceAs (Decidable (_ ∧ _))

-- The file of the module `name` in a folder: the flat one if it is there, and else the nested one.
def LookedUp (d : Disk) (folder : Path) (name : String) (file : Path) : Prop :=
  d.isFile (folder.child (name ++ ".rs")) = .ok true ∧ file = folder.child (name ++ ".rs") ∨
    d.isFile (folder.child (name ++ ".rs")) = .ok false ∧
      d.isFile ((folder.child name).child "mod.rs") = .ok true ∧
      file = (folder.child name).child "mod.rs"

theorem childFolder_flat (folder : Path) {name : String} (h : PlainName name) :
    childFolder (folder.child (name ++ ".rs")) false = folder.child name := by
  obtain ⟨hempty, hslash⟩ := h
  have hlist : (name ++ ".rs").toList = name.toList ++ '.' :: ['r', 's'] := by
    rw [String.toList_append]
    rfl
  have hchars : name.toList ≠ [] := by simpa using hempty
  have hfile : folder.child (name ++ ".rs") = folder.below (name ++ ".rs") := by
    apply Path.child_of_notMem
    · intro heq
      have := congrArg String.toList heq
      simp [hlist] at this
    · intro heq
      have := congrArg (fun s => s.toList.length) heq
      simp [hlist] at this
    · simp [hlist, hslash]
  have hstem : (folder.below (name ++ ".rs")).stem = name := by
    have hname : (folder.below (name ++ ".rs")).name = name ++ ".rs" := by simp [Path.name, Path.below]
    rw [Path.stem, hname, hlist, Text.cutLast?_append _ _ (by decide)]
    simp [hchars]
  rw [childFolder, if_neg Bool.false_ne_true, hfile, hstem, Path.parent_below]

theorem childFolder_nested (folder : Path) : childFolder (folder.child "mod.rs") true = folder := by
  rw [childFolder, if_pos rfl, Path.child_of_notMem folder (by decide) (by decide) (by decide),
    Path.parent_below]

theorem locate_of_no_attribute {d : Disk} {directory attributeFolder file : Path} {name : String}
    {beside : Bool} (h : locate d directory attributeFolder none name = .ok (some (file, beside)))
    (hname : PlainName name) :
    LookedUp d directory name file ∧ childFolder file beside = directory.child name := by
  rw [locate] at h
  cases hflat : d.isFile (directory.child (name ++ ".rs")) with
  | error e => rw [hflat] at h; cases h
  | ok flat =>
      rw [hflat] at h
      cases flat with
      | true =>
          cases h
          exact ⟨Or.inl ⟨hflat, rfl⟩, childFolder_flat directory hname⟩
      | false =>
          cases hnested : d.isFile ((directory.child name).child "mod.rs") with
          | error e => simp [hnested, bind, Except.bind] at h
          | ok nested =>
              cases nested with
              | false => simp [hnested, bind, Except.bind, pure, Except.pure] at h
              | true =>
                  simp only [hnested, bind, Except.bind, pure, Except.pure, Bool.false_eq_true,
                    if_false, if_true, Except.ok.injEq, Option.some.injEq, Prod.mk.injEq] at h
                  obtain ⟨rfl, rfl⟩ := h
                  exact ⟨Or.inr ⟨hflat, hnested, rfl⟩, childFolder_nested _⟩

-- Whether the bodies of all modules at module level are lists of declarations.
def BodiesAreLists (c : Node) : Prop :=
  ∀ way n b body, Node.ModuleLevel c way n → n.IsModule → n.body? = some (b, body) →
    body.kind = "declaration_list"

-- What the layout of files goes by: the shape that the language gives to a file, and declarations with
-- plain names and without a path of their own.
structure Regular (s : Source) (root : Node) : Prop where
  rootKind : root.kind = "source_file"
  bodies : BodiesAreLists root
  plainNames : ∀ decl ∈ declarations s [] [] [] root, PlainName decl.name
  noPaths : ∀ decl ∈ declarations s [] [] [] root, pathBefore? s decl.before = none

-- The names of the modules among some nodes.
def modulePath (above : List Tree) : List String :=
  above.filterMap fun t => if t.kind = "mod_item" then declaredName? t else none

theorem lookup_fieldTexts (s : Source) (ns : List Node) (name : String) :
    (ns.filterMap fun n => n.field.map fun field => (field, s.text n)).lookup name =
      (ns.find? fun n => n.field == some name).map s.text := by
  induction ns with
  | nil => rfl
  | cons n ns ih =>
      cases hfield : n.field with
      | none => simp [hfield, ih]
      | some field =>
          by_cases hname : field = name
          · simp [hfield, hname]
          · have hne : (name == field) = false := by simpa using Ne.symm hname
            simp [hfield, hname, List.lookup_cons, hne, ih]

theorem declaredName?_ofNode (s : Source) (grafts : List (Nat × Tree)) {n : Node} (h : n.IsModule) :
    declaredName? (Tree.ofNode s grafts n) = some (moduleName s n) := by
  obtain ⟨nameNode, hname⟩ := Option.ne_none_iff_exists'.mp h.2.2
  have hfields : (Tree.ofNode s grafts n).fields = Tree.fieldTexts s n := by
    cases n
    rfl
  rw [declaredName?, Tree.field?, hfields, Tree.fieldTexts, lookup_fieldTexts, moduleName]
  rw [Node.child?] at hname
  rw [Node.child?, hname]
  rfl

-- Kinds of nodes that hold declarations and give no name to what is in them.
def IsHolder (kind : String) : Prop :=
  kind = "source_file" ∨ kind = "declaration_list"

-- Text that grows by the name of every module above a declaration, and by nothing else, grows by the
-- names of the modules around it.
theorem outer_of_mem_declarations {s : Source} (along : List Node → List String)
    (hholder : ∀ above c, IsHolder c.kind → along (above ++ [c]) = along above)
    (hmodule : ∀ above n, n.IsModule → along (above ++ [n]) = along above ++ [moduleName s n]) (c : Node)
    (hc : IsHolder c.kind)
    (hbodies : BodiesAreLists c)
    {way : List Nat} {above : List Node} {outer base : List String} {decl : Declaration}
    (h : decl ∈ declarations s way above outer c) (habove : along above = base ++ outer) :
    along decl.site.above = base ++ decl.outer := by
  induction c using Node.holder_induction generalizing way above outer with
  | h c ih =>
      obtain ⟨i, n, hn, hn', hdecl⟩ := (mem_declarations_iff s way above outer c decl).mp h
      cases hbody : n.body? with
      | none =>
          rw [hbody] at hdecl
          subst hdecl
          rw [hholder above c hc, habove]
      | some found =>
          obtain ⟨b, body⟩ := found
          rw [hbody] at hdecl
          have hkind := hbodies [i] n b body (.child hn hn'.1) hn' hbody
          refine ih n (List.mem_of_getElem? hn) b body hbody (Or.inr hkind) ?_ hdecl ?_
          · intro way m b' body' hlevel
            exact hbodies (i :: b :: way) m b' body' (.inner hn hn' hbody hlevel)
          · have hsplit : above ++ [c, n] = above ++ [c] ++ [n] := by simp
            rw [hsplit, hmodule _ n hn', hholder above c hc, habove, List.append_assoc]

-- Both the names of modules and the scope of functions grow so.

theorem modulePath_append (above below : List Tree) :
    modulePath (above ++ below) = modulePath above ++ modulePath below := by
  simp [modulePath]

theorem modulePath_holder {t : Tree} (h : IsHolder t.kind) : modulePath [t] = [] := by
  rcases h with h | h <;> simp [modulePath, h]

theorem modulePath_module (s : Source) (grafts : List (Nat × Tree)) {n : Node} (h : n.IsModule) :
    modulePath [Tree.ofNode s grafts n] = [moduleName s n] := by
  simp [modulePath, kind_ofNode, h.2.1, declaredName?_ofNode s grafts h]

theorem scopeBelow_holder (crate : Option String) (above : List Tree) {t : Tree} (h : IsHolder t.kind) :
    scopeBelow crate (above ++ [t]) = scopeBelow crate above := by
  have hsegment : Occurrence.segment? ⟨above, t⟩ = none := by
    rw [Occurrence.segment?, if_neg]
    rcases h with h | h <;> simp [Occurrence.NamesPath, h]
  rw [Extract.scopeBelow_append, hsegment, Option.toList_none, List.append_nil]

theorem scopeBelow_module (crate : Option String) (above : List Tree) (s : Source)
    (grafts : List (Nat × Tree)) {n : Node} (h : n.IsModule) :
    scopeBelow crate (above ++ [Tree.ofNode s grafts n]) = scopeBelow crate above ++ [moduleName s n] := by
  have hsegment : Occurrence.segment? ⟨above, Tree.ofNode s grafts n⟩ = some (moduleName s n) := by
    have hnames : Occurrence.NamesPath ⟨above, Tree.ofNode s grafts n⟩ :=
      Or.inl ((kind_ofNode s grafts n).trans h.2.1)
    rw [Occurrence.segment?, if_pos hnames, declaredName?_ofNode s grafts h]
  rw [Extract.scopeBelow_append, hsegment, Option.toList_some]

section station

variable {grammar : Grammar} {st : Station} (hregular : Regular st.file.source (st.file.root grammar))
  {decl : Declaration} (hdecl : decl ∈ st.file.declared grammar)

include hregular hdecl

theorem modulePath_siteVisit :
    modulePath (siteVisit st.file.source (st.file.grafts grammar) st.above decl.site).above =
      modulePath st.above ++ decl.outer := by
  refine outer_of_mem_declarations
    (fun nodes => modulePath
      (st.above ++ nodes.map (Tree.ofNode st.file.source (st.file.grafts grammar))))
    (fun above c hc => ?_) (fun above n hn => ?_) _ (Or.inl hregular.rootKind) hregular.bodies hdecl ?_
  · have hkind : IsHolder (Tree.ofNode st.file.source (st.file.grafts grammar) c).kind := by
      rw [kind_ofNode]
      exact hc
    simp [modulePath_append, modulePath_holder hkind]
  · simp [modulePath_append, modulePath_module _ _ hn]
  · simp

theorem scopeBelow_siteVisit (crate : Option String) :
    scopeBelow crate (siteVisit st.file.source (st.file.grafts grammar) st.above decl.site).above =
      scopeBelow crate st.above ++ decl.outer := by
  refine outer_of_mem_declarations
    (fun nodes => scopeBelow crate
      (st.above ++ nodes.map (Tree.ofNode st.file.source (st.file.grafts grammar))))
    (fun above c hc => ?_) (fun above n hn => ?_) _ (Or.inl hregular.rootKind) hregular.bodies hdecl ?_
  · have hkind : IsHolder (Tree.ofNode st.file.source (st.file.grafts grammar) c).kind := by
      rw [kind_ofNode]
      exact hc
    rw [List.map_append, ← List.append_assoc]
    exact scopeBelow_holder crate _ hkind
  · rw [List.map_append, ← List.append_assoc]
    exact scopeBelow_module crate _ st.file.source _ hn
  · simp

theorem modulePath_below :
    modulePath (st.below grammar decl.site) = modulePath st.above ++ decl.outer ++ [decl.name] := by
  obtain ⟨hmodule, _, hname, _⟩ := declaresFile_of_mem _ hdecl
  rw [← modulePath_siteVisit hregular hdecl, hname, Station.below, belowSite, modulePath_append,
    modulePath_module st.file.source _ hmodule]
  rfl

theorem scopeBelow_below (crate : Option String) :
    scopeBelow crate (st.below grammar decl.site) =
      scopeBelow crate st.above ++ decl.outer ++ [decl.name] := by
  obtain ⟨hmodule, _, hname, _⟩ := declaresFile_of_mem _ hdecl
  rw [← scopeBelow_siteVisit hregular hdecl, hname, Station.below, belowSite,
    scopeBelow_module crate _ st.file.source _ hmodule]
  rfl

end station

-- A loaded file whose modules are looked for where its own place in the crate says, and whose
-- functions get their segments from there.
structure Placed (base : Path) (st : Station) : Prop where
  directory : st.file.directory = folderIn base (modulePath st.above)
  scope : ∀ crate, scopeBelow crate st.above = rootScope crate ++ modulePath st.above

theorem finds_of_mem_zip {grammar : Grammar} {d : Disk} {m f : ModuleFile} (h : Loaded grammar d m)
    {decl : Declaration} (hpair : (decl, f) ∈ (m.declared grammar).zip m.modules) :
    Finds d m.source m.directory decl f := by
  cases h with
  | file hread hclean hfound hmodules => exact (List.forall₂_iff_zip.mp hfound).2 hpair

theorem folderIn_folderIn (base : Path) (path outer : List String) :
    folderIn (folderIn base path) outer = folderIn base (path ++ outer) := by
  simp [folderIn]

-- Where the file of a module is looked for, and where its own modules are.
theorem Placed.lookedUp {grammar : Grammar} {d : Disk} {base : Path} {st : Station} (h : Placed base st)
    (hloaded : Loaded grammar d st.file) (hregular : Regular st.file.source (st.file.root grammar))
    {decl : Declaration} {f : ModuleFile}
    (hpair : (decl, f) ∈ (st.file.declared grammar).zip st.file.modules) :
    LookedUp d (folderIn base (modulePath st.above ++ decl.outer)) decl.name f.source.path ∧
      Placed base ⟨st.below grammar decl.site, f⟩ := by
  have hdecl : decl ∈ st.file.declared grammar := (List.of_mem_zip hpair).1
  obtain ⟨beside, hlocate, hdirectory⟩ := finds_of_mem_zip hloaded hpair
  rw [hregular.noPaths decl hdecl, h.directory, folderIn_folderIn] at hlocate
  obtain ⟨hlookedUp, hfolder⟩ := locate_of_no_attribute hlocate (hregular.plainNames decl hdecl)
  refine ⟨hlookedUp, ?_, fun crate => ?_⟩
  · rw [modulePath_below hregular hdecl, folderIn_append, hdirectory, hfolder]
  · rw [scopeBelow_below hregular hdecl, modulePath_below hregular hdecl, h.scope]
    simp

theorem mem_stations_self (grammar : Grammar) (above : List Tree) (m : ModuleFile) :
    ⟨above, m⟩ ∈ stations grammar above m := by
  rw [stations_eq grammar ⟨above, m⟩]
  exact List.mem_cons_self

-- What holds of the first file and goes on from a file to the files of its modules holds of all.
theorem stations_induction {grammar : Grammar} {d : Disk} {m : ModuleFile} (h : Loaded grammar d m)
    {motive : Station → Prop} {above : List Tree} (hfirst : motive ⟨above, m⟩)
    (hnext : ∀ st decl f, st.file ∈ m.all → motive st →
      (decl, f) ∈ (st.file.declared grammar).zip st.file.modules →
      motive ⟨st.below grammar decl.site, f⟩) :
    ∀ st ∈ stations grammar above m, motive st := by
  induction h generalizing above with
  | @file source directory modules hread hclean hfound hmodules ih =>
      generalize hm : (⟨source, directory, modules⟩ : ModuleFile) = m at *
      intro st hst
      rw [stations_eq grammar ⟨above, m⟩, List.mem_cons, List.mem_flatMap] at hst
      rcases hst with rfl | ⟨⟨decl, f⟩, hpair, hst⟩
      · exact hfirst
      · have hmem : f ∈ m.modules := (List.of_mem_zip hpair).2
        refine ih f (by rw [← hm] at hmem; exact hmem) ?_ (fun st decl f' hall => ?_) st hst
        · exact hnext ⟨above, m⟩ decl f m.mem_all_self hfirst hpair
        · exact hnext st decl f' (ModuleFile.mem_all_of_mem_modules hmem hall)

theorem mem_stations_below {grammar : Grammar} {d : Disk} {m : ModuleFile} (h : Loaded grammar d m)
    {above : List Tree} {st : Station} (hst : st ∈ stations grammar above m) {decl : Declaration}
    {f : ModuleFile} (hpair : (decl, f) ∈ (st.file.declared grammar).zip st.file.modules) :
    ⟨st.below grammar decl.site, f⟩ ∈ stations grammar above m := by
  induction h generalizing above with
  | @file source directory modules hread hclean hfound hmodules ih =>
      generalize hm : (⟨source, directory, modules⟩ : ModuleFile) = m at *
      rw [stations_eq grammar ⟨above, m⟩, List.mem_cons, List.mem_flatMap] at hst ⊢
      right
      rcases hst with rfl | ⟨pair, hmem, hst⟩
      · exact ⟨(decl, f), hpair, mem_stations_self grammar _ f⟩
      · have hinner : pair.2 ∈ modules := by
          have := (List.of_mem_zip hmem).2
          rw [← hm] at this
          exact this
        exact ⟨pair, hmem, ih pair.2 hinner hst⟩

theorem scopeBelow_isPrefix (crate : Option String) (above more : List Tree) :
    scopeBelow crate above <+: scopeBelow crate (above ++ more) := by
  rw [scopeBelow, scopeBelow, Extract.lineage_append, List.filterMap_append, ← List.append_assoc]
  exact List.prefix_append _ _

theorem nodup_station_paths {grammar : Grammar} {d : Disk} {m : ModuleFile} (h : Loaded grammar d m)
    (hnodup : (m.spots d).Nodup) : ((stations grammar [] m).map (·.file.source.path)).Nodup := by
  refine List.Nodup.of_map d.resolve ?_
  have hfiles := congrArg (List.map fun f => d.resolve f.source.path) (file_stations h [])
  rw [List.map_map] at hfiles ⊢
  exact hfiles ▸ hnodup

-- The functions of a file have its scope in their paths.
theorem scope_isPrefix_symbolPath {grammar : Grammar} {d : Disk} {m : ModuleFile}
    (h : Loaded grammar d m) (hnodup : (m.spots d).Nodup)
    (hdistinct : ∀ f ∈ m.all, DistinctModules (f.root grammar)) {st : Station}
    (hst : st ∈ stations grammar [] m) {o : Occurrence} (ho : o ∈ documented (m.tree grammar))
    (hpath : o.node.span.path = st.file.source.path) (crate : Option String) :
    scopeBelow crate st.above <+: o.symbolPath crate := by
  have ho : o ∈ Extract.occurrences [] (m.tree grammar) := List.mem_of_mem_filter ho
  rw [← toOccurrence_visits _ m.source.path []] at ho
  obtain ⟨v, hv, rfl⟩ := List.mem_map.mp ho
  obtain ⟨other, hother, hv⟩ := List.mem_flatMap.mp ((visits_tree h hnodup hdistinct []).mem_iff.mp hv)
  obtain ⟨site, _, rfl⟩ := List.mem_map.mp hv
  have hsame : other = st := List.inj_on_of_nodup_map (nodup_station_paths h hnodup) hother hst
    ((path_ofNode _ _ _).symm.trans hpath)
  subst hsame
  exact (scopeBelow_isPrefix crate _ _).trans (List.prefix_append _ _)

theorem path_of_document {t : Tree} {path : List String} {doc : FunctionDoc}
    (h : Extract.document t path = .ok doc) : doc.path = path := by
  obtain ⟨qualifiers, _, h⟩ := Work.bind_eq_ok h
  obtain ⟨visibility, _, h⟩ := Work.bind_eq_ok h
  cases h
  rfl

theorem forall₂_documented {root : Tree} {crate : Option String} {found : Extract.Found}
    (h : functions root crate = .ok found) :
    List.Forall₂ (fun o doc => doc.path = Occurrence.symbolPath crate o) (documented root) found.docs := by
  have hdocs := Extract.functions_docs root crate
  rw [h] at hdocs
  exact (Result.mapM_eq_ok_iff.mp hdocs.symm).imp fun o doc => path_of_document

theorem exists_found {root : Tree} (h : ∀ o ∈ documented root, Extract.Supported o.node)
    (crate : Option String) : ∃ found, functions root crate = .ok found := by
  obtain ⟨docs, hdocs, _⟩ := Extract.mapM_document crate (documented root) h
  have hfunctions := (Extract.functions_docs root crate).trans hdocs
  cases hfound : functions root crate with
  | error fault => rw [hfound] at hfunctions; cases hfunctions
  | ok found => exact ⟨found, rfl⟩

theorem placed_stations {grammar : Grammar} {d : Disk} {m : ModuleFile} (h : Loaded grammar d m)
    (hregular : ∀ f ∈ m.all, Regular f.source (f.root grammar)) {base : Path} (hbase : m.directory = base) :
    ∀ st ∈ stations grammar [] m, Placed base st := by
  refine stations_induction h ⟨hbase, fun crateName => ?_⟩ fun st decl f hst hplaced hpair => ?_
  · simp [scopeBelow, Extract.lineage, modulePath]
  · exact (hplaced.lookedUp (h.of_mem_all hst) (hregular _ hst) hpair).2

-- The module path of a file among some files of a crate.
def modulesOf (sts : List Station) (s : Source) : List String :=
  ((sts.find? fun st => st.file.source.path = s.path).map fun st => modulePath st.above).getD []

theorem modulesOf_eq {sts : List Station} (h : (sts.map (·.file.source.path)).Nodup) {st : Station}
    (hst : st ∈ sts) : modulesOf sts st.file.source = modulePath st.above := by
  have hsome : (sts.find? fun other => other.file.source.path = st.file.source.path).isSome :=
    List.find?_isSome.mpr ⟨st, hst, by simp⟩
  obtain ⟨other, hother⟩ := Option.isSome_iff_exists.mp hsome
  have hpath : other.file.source.path = st.file.source.path := by simpa using List.find?_some hother
  have hsame : other = st :=
    List.inj_on_of_nodup_map h (List.mem_of_find?_eq_some hother) hst hpath
  rw [modulesOf, hother, hsame]
  rfl

-- How the modules of a crate are laid out in files, if `modules` gives every file its module path.
structure LaidOut (grammar : Grammar) (d : Disk) (base : Path) (sources : List Source)
    (modules : Source → List String) : Prop where
  entry : sources.head?.map modules = some []
  -- The file of a declared module is looked up below the folder of the crate, where its path says.
  declared : ∀ s ∈ sources, ∀ way, (grammar s.bytes).DeclaresFile way →
    ∃ decl ∈ declarations s [] [] [] (grammar s.bytes), decl.site.way = way ∧
      ∃ t ∈ sources, modules t = modules s ++ decl.outer ++ [decl.name] ∧
        LookedUp d (folderIn base (modules s ++ decl.outer)) decl.name t.path

-- How the tree of a crate shows the module paths of its files.
structure Mirrored (grammar : Grammar) (entry : Path) (root : Tree) (sources : List Source)
    (modules : Source → List String) : Prop where
  -- A declaration stands below the modules of its path, and has the file of its module as its graft.
  declared : ∀ s ∈ sources, ∀ decl ∈ declarations s [] [] [] (grammar s.bytes),
    ∃ v ∈ visits entry [] [] root, v.file = s.path ∧ v.way = decl.site.way ∧
      modulePath v.above = modules s ++ decl.outer ∧ declaredName? v.node = some decl.name ∧
      ∃ t ∈ sources, modules t = modules s ++ decl.outer ++ [decl.name] ∧ v.graft? = some t.path
  extracts : (∀ o ∈ documented root, Extract.Supported o.node) →
    ∀ crateName, ∃ found, functions root crateName = .ok found
  -- The functions of a file have the crate and its module path in front of their own names.
  paths : ∀ crateName found, functions root crateName = .ok found →
    List.Forall₂ (fun o doc => ∀ s ∈ sources, o.node.span.path = s.path →
      rootScope crateName ++ modules s <+: doc.path) (documented root) found.docs

section loaded

variable {grammar : Grammar} {d : Disk} {m : ModuleFile} (h : Loaded grammar d m)
  (hnodup : (m.spots d).Nodup) (hregular : ∀ f ∈ m.all, Regular f.source (f.root grammar))

include h

theorem exists_station {s : Source} (hs : s ∈ m.all.map (·.source)) :
    ∃ st ∈ stations grammar [] m, st.file.source = s ∧ st.file ∈ m.all := by
  obtain ⟨f, hf, rfl⟩ := List.mem_map.mp hs
  have hmem := hf
  rw [← file_stations h []] at hf
  obtain ⟨st, hst, rfl⟩ := List.mem_map.mp hf
  exact ⟨st, hst, rfl, hmem⟩

theorem source_mem_of_mem_stations {st : Station} (hst : st ∈ stations grammar [] m) :
    st.file.source ∈ m.all.map (·.source) := by
  rw [← file_stations h [], List.map_map]
  exact List.mem_map_of_mem hst

include hnodup hregular

theorem laidOut_files :
    LaidOut grammar d m.directory (m.all.map (·.source)) (modulesOf (stations grammar [] m)) := by
  have hmodules := fun {st} => @modulesOf_eq (stations grammar [] m) (nodup_station_paths h hnodup) st
  refine ⟨?_, fun s hs way hdeclares => ?_⟩
  · have hfirst := hmodules (mem_stations_self grammar [] m)
    rw [ModuleFile.all_eq, List.map_cons, List.head?_cons, Option.map_some, hfirst]
    rfl
  · obtain ⟨st, hst, rfl, hmem⟩ := exists_station h hs
    have hown := h.of_mem_all hmem
    obtain ⟨decl, hdecl, hway⟩ := (declaresFile_iff st.file.source _ way).mp hdeclares
    obtain ⟨f, hpair⟩ := hown.exists_module hdecl
    have hnext := mem_stations_below h hst hpair
    obtain ⟨hlookedUp, _⟩ := (placed_stations h hregular rfl st hst).lookedUp hown (hregular _ hmem) hpair
    refine ⟨decl, hdecl, hway, f.source, source_mem_of_mem_stations h hnext, ?_, ?_⟩
    · rw [hmodules hnext, hmodules hst, modulePath_below (hregular _ hmem) hdecl]
    · rw [hmodules hst]
      exact hlookedUp

theorem mirrored_tree (hdistinct : ∀ f ∈ m.all, DistinctModules (f.root grammar)) :
    Mirrored grammar m.source.path (m.tree grammar) (m.all.map (·.source))
      (modulesOf (stations grammar [] m)) := by
  have hmodules := fun {st} => @modulesOf_eq (stations grammar [] m) (nodup_station_paths h hnodup) st
  refine ⟨fun s hs decl hdecl => ?_, exists_found, fun crateName found hfound => ?_⟩
  · obtain ⟨st, hst, rfl, hmem⟩ := exists_station h hs
    have hown := h.of_mem_all hmem
    obtain ⟨f, hpair⟩ := hown.exists_module hdecl
    have hnext := mem_stations_below h hst hpair
    obtain ⟨hmodule, _, hname, _⟩ := declaresFile_of_mem _ hdecl
    have hsite : decl.site ∈ st.file.sites grammar :=
      (ModuleFile.declared_sublist grammar st.file).subset (List.mem_map_of_mem hdecl)
    refine ⟨siteVisit st.file.source (st.file.grafts grammar) st.above decl.site, ?_, rfl, rfl, ?_, ?_,
      f.source, source_mem_of_mem_stations h hnext, ?_, ?_⟩
    · refine (visits_tree h hnodup hdistinct []).mem_iff.mpr (List.mem_flatMap.mpr ⟨st, hst, ?_⟩)
      exact List.mem_map_of_mem hsite
    · rw [modulePath_siteVisit (hregular _ hmem) hdecl, hmodules hst]
    · rw [hname]
      exact declaredName?_ofNode _ _ hmodule
    · rw [hmodules hnext, hmodules hst, modulePath_below (hregular _ hmem) hdecl]
    · rw [graft?_siteVisit (grafts_path_ne h hnodup hmem)]
      exact (graftFor?_path_iff hown (hdistinct _ hmem) hsite _).mpr ⟨(decl, f), hpair, rfl, rfl⟩
  · have hsymbols : ∀ o ∈ documented (m.tree grammar), ∀ s ∈ m.all.map (·.source),
        o.node.span.path = s.path →
          rootScope crateName ++ modulesOf (stations grammar [] m) s <+: o.symbolPath crateName := by
      intro o ho s hs hpath
      obtain ⟨st, hst, rfl, _⟩ := exists_station h hs
      rw [hmodules hst, ← (placed_stations h hregular rfl st hst).scope]
      exact scope_isPrefix_symbolPath h hnodup hdistinct hst ho hpath crateName
    refine ((List.forall₂_and_left _ _).mpr ⟨hsymbols, forall₂_documented hfound⟩).imp ?_
    rintro o doc ⟨hsymbol, hdoc⟩
    rw [hdoc]
    exact hsymbol

end loaded

theorem text_congr {s t : Source} (h : s.bytes = t.bytes) (n : Node) : s.text n = t.text n := by
  rw [Source.text, Source.text, Source.slice, Source.slice, h]

theorem mem_declarations_congr {s t : Source} (h : s.bytes = t.bytes) (c : Node) {way : List Nat}
    {above : List Node} {outer : List String} {decl : Declaration}
    (hdecl : decl ∈ declarations s way above outer c) : decl ∈ declarations t way above outer c := by
  have hname : ∀ n, moduleName s n = moduleName t n := by
    intro n
    simp only [moduleName, text_congr h]
  induction c using Node.holder_induction generalizing way above outer with
  | h c ih =>
      obtain ⟨i, n, hn, hmodule, hdecl⟩ := (mem_declarations_iff s way above outer c decl).mp hdecl
      refine (mem_declarations_iff t way above outer c decl).mpr ⟨i, n, hn, hmodule, ?_⟩
      cases hbody : n.body? with
      | none =>
          rw [hbody, hname] at hdecl
          exact hdecl
      | some found =>
          rw [hbody, hname] at hdecl
          exact ih n (List.mem_of_getElem? hn) found.1 found.2 hbody hdecl

theorem Regular.of_bytes {s t : Source} (h : s.bytes = t.bytes) {root : Node} (hs : Regular s root) :
    Regular t root := by
  refine ⟨hs.rootKind, hs.bodies, fun decl hdecl => ?_, fun decl hdecl => ?_⟩
  · exact hs.plainNames decl (mem_declarations_congr h.symm root hdecl)
  · rw [← hs.noPaths decl (mem_declarations_congr h.symm root hdecl)]
    simp only [pathBefore?, text_congr h]

theorem bodiesAreLists_of_children {c : Node}
    (h : ∀ n ∈ c.children, n.IsModule → ∀ b body, n.body? = some (b, body) →
      body.kind = "declaration_list" ∧ BodiesAreLists body) : BodiesAreLists c := by
  intro way n b body hlevel hmodule hbody
  cases hlevel with
  | child hn hnamed => exact (h n (List.mem_of_getElem? hn) hmodule b body hbody).1
  | inner hn houter hinner hm =>
      exact (h _ (List.mem_of_getElem? hn) houter _ _ hinner).2 _ n b body hm hmodule hbody

theorem regular_of_no_modules {s : Source} {root : Node} (hkind : root.kind = "source_file")
    (h : ∀ n ∈ root.children, ¬n.IsModule) : Regular s root := by
  have hnone : declarations s [] [] [] root = [] := by
    rw [List.eq_nil_iff_forall_not_mem]
    intro decl hdecl
    obtain ⟨i, n, hn, hmodule, _⟩ := (mem_declarations_iff s [] [] [] root decl).mp hdecl
    exact h n (List.mem_of_getElem? hn) hmodule
  refine ⟨hkind, ?_, by simp [hnone], by simp [hnone]⟩
  exact bodiesAreLists_of_children fun n hn hmodule => absurd hmodule (h n hn)

theorem bodiesAreLists_of_no_bodies {c : Node} (h : ∀ n ∈ c.children, n.body? = none) : BodiesAreLists c := by
  refine bodiesAreLists_of_children fun n hn hmodule b body hbody => ?_
  rw [h n hn] at hbody
  cases hbody

theorem regular_nestedGrammar (s : Source) : Regular s (nestedGrammar s.bytes) := by
  unfold nestedGrammar
  split
  · rename_i hbytes
    let fixed : Source := ⟨⟨.here, []⟩, Utf8.encode nestedText⟩
    have hfixed : fixed.bytes = s.bytes := hbytes.symm
    refine Regular.of_bytes hfixed ⟨rfl, ?_, by decide +kernel, by decide +kernel⟩
    refine bodiesAreLists_of_children fun n hn hmodule b body hbody => ?_
    rcases List.mem_pair.mp hn with rfl | rfl
    · cases hbody
    · cases hbody
      refine ⟨rfl, bodiesAreLists_of_no_bodies fun n hn => ?_⟩
      simp only [List.mem_cons, List.not_mem_nil, or_false] at hn
      rcases hn with rfl | rfl | rfl <;> rfl
  · split
    · exact regular_of_no_modules rfl (by simp [sampleFile, Node.IsModule])
    · exact regular_of_no_modules rfl (by simp)

end CrateDocs.Crate
