import CrateDocs.Proofs.Crate.Visits

namespace CrateDocs.Crate

open Syntax (Node Source Tree Site sites)

-- The file whose root is the last child of a node from another file.
def Visit.graft? (v : Visit) : Option Path :=
  v.node.children.getLast?.bind fun t => if t.span.path = v.file then none else some t.span.path

theorem graft?_siteVisit {s : Source} {grafts : List (Nat × Tree)}
    (hgrafts : ∀ graft ∈ grafts, graft.2.span.path ≠ s.path) (above : List Tree) (site : Site) :
    (siteVisit s grafts above site).graft? = (graftFor? grafts site.node).map (·.span.path) := by
  rw [Visit.graft?, siteVisit]
  simp only [children_ofNode]
  cases hfor : graftFor? grafts site.node with
  | some t =>
      obtain ⟨start, hmem⟩ := mem_of_graftFor? hfor
      simp [hgrafts _ hmem]
  | none =>
      rw [Option.toList_none, List.append_nil, List.getLast?_map]
      cases site.node.children.getLast? with
      | none => rfl
      | some n => simp [path_ofNode]

theorem kind_of_graftFor? {grafts : List (Nat × Tree)} {n : Node} (h : (graftFor? grafts n).isSome) :
    n.kind = "mod_item" := by
  by_contra hkind
  rw [graftFor?, if_neg hkind] at h
  cases h

theorem filterMap_graft? {grammar : Grammar} {d : Disk} {st : Station} (h : Loaded grammar d st.file)
    (hnodup : (st.file.spots d).Nodup) (hdistinct : DistinctModules (st.file.root grammar)) :
    (st.visits grammar).filterMap Visit.graft? = st.file.modules.map (·.source.path) := by
  have hpaths : ∀ graft ∈ st.file.grafts grammar, graft.2.span.path ≠ st.file.source.path :=
    fun graft hgraft => ModuleFile.path_ne_of_mem_grafts hnodup hgraft
  have hgrafts := ModuleFile.flatMap_grafts hdistinct h.length_declared fun _ t => [t.span.path]
  have hsecond : ((st.file.declared grammar).zip st.file.modules).map (·.2) = st.file.modules :=
    List.map_snd_zip (Nat.le_of_eq h.length_declared.symm)
  rw [Station.visits, List.filterMap_map, List.filterMap_eq_flatMap_toList]
  calc (st.file.sites grammar).flatMap _
      = (st.file.sites grammar).flatMap fun site =>
          (graftFor? (st.file.grafts grammar) site.node).toList.flatMap fun t => [t.span.path] := by
        refine List.flatMap_congr fun site _ => ?_
        rw [Function.comp_apply, graft?_siteVisit hpaths]
        cases graftFor? (st.file.grafts grammar) site.node <;> rfl
    _ = ((st.file.declared grammar).zip st.file.modules).map fun pair => pair.2.source.path := by
        rw [hgrafts, List.map_eq_flatMap]
        simp only [ModuleFile.path_tree]
    _ = st.file.modules.map (·.source.path) := by
        conv_rhs => rw [← hsecond, List.map_map]
        rfl

-- What is grafted at a site is the file of the module that is declared there.
theorem graftFor?_path_iff {grammar : Grammar} {d : Disk} {m : ModuleFile} (h : Loaded grammar d m)
    (hdistinct : DistinctModules (m.root grammar)) {site : Site} (hsite : site ∈ m.sites grammar)
    (file : Path) :
    (graftFor? (m.grafts grammar) site.node).map (·.span.path) = some file ↔
      ∃ pair ∈ (m.declared grammar).zip m.modules,
        pair.1.site.way = site.way ∧ pair.2.source.path = file := by
  have hways : ((m.sites grammar).flatMap fun site =>
      (graftFor? (m.grafts grammar) site.node).toList.flatMap fun t => [(site.way, t.span.path)]) =
      ((m.declared grammar).zip m.modules).map fun pair => (pair.1.site.way, pair.2.source.path) := by
    rw [ModuleFile.flatMap_grafts hdistinct h.length_declared fun site t => [(site.way, t.span.path)],
      ← List.map_eq_flatMap]
    simp only [ModuleFile.path_tree]
  have hpairs : (∃ pair ∈ (m.declared grammar).zip m.modules,
      pair.1.site.way = site.way ∧ pair.2.source.path = file) ↔
      (site.way, file) ∈ ((m.declared grammar).zip m.modules).map fun pair =>
        (pair.1.site.way, pair.2.source.path) := by
    simp [List.mem_map, Prod.ext_iff]
  rw [hpairs, ← hways, List.mem_flatMap]
  constructor
  · intro hfile
    obtain ⟨t, ht, hpath⟩ := Option.map_eq_some_iff.mp hfile
    exact ⟨site, hsite, by simp [ht, hpath]⟩
  · rintro ⟨other, hother, hmem⟩
    cases hfor : graftFor? (m.grafts grammar) other.node with
    | none => simp [hfor] at hmem
    | some t =>
        obtain ⟨hway, hfile⟩ : site.way = other.way ∧ file = t.span.path := by simpa [hfor] using hmem
        have hsame : site = other :=
          List.inj_on_of_nodup_map (Syntax.nodup_ways (m.root grammar) [] []) hsite hother hway
        rw [hsame, hfor, hfile]
        rfl

theorem Loaded.exists_module {grammar : Grammar} {d : Disk} {m : ModuleFile} (h : Loaded grammar d m)
    {decl : Declaration} (hdecl : decl ∈ m.declared grammar) :
    ∃ f, (decl, f) ∈ (m.declared grammar).zip m.modules := by
  have hfirst : ((m.declared grammar).zip m.modules).map (·.1) = m.declared grammar :=
    List.map_fst_zip (Nat.le_of_eq h.length_declared)
  rw [← hfirst] at hdecl
  obtain ⟨⟨_, f⟩, hpair, rfl⟩ := List.mem_map.mp hdecl
  exact ⟨f, hpair⟩

-- A site has a graft if it is one of the declarations of its file.
theorem isSome_graftFor?_iff {grammar : Grammar} {d : Disk} {m : ModuleFile} (h : Loaded grammar d m)
    (hdistinct : DistinctModules (m.root grammar)) {site : Site} (hsite : site ∈ m.sites grammar) :
    (graftFor? (m.grafts grammar) site.node).isSome ↔ (m.root grammar).DeclaresFile site.way := by
  have hpath := graftFor?_path_iff h hdistinct hsite
  rw [declaresFile_iff m.source]
  constructor
  · intro hsome
    obtain ⟨t, ht⟩ := Option.isSome_iff_exists.mp hsome
    obtain ⟨pair, hpair, hway, _⟩ := (hpath t.span.path).mp (by rw [ht]; rfl)
    exact ⟨pair.1, (List.of_mem_zip hpair).1, hway⟩
  · rintro ⟨decl, hdecl, hway⟩
    obtain ⟨f, hpair⟩ := h.exists_module hdecl
    have hfile := (hpath f.source.path).mpr ⟨(decl, f), hpair, hway, rfl⟩
    obtain ⟨t, ht, _⟩ := Option.map_eq_some_iff.mp hfile
    rw [ht]
    rfl

-- A node by itself.
def alone (t : Tree) : Tree :=
  { t with children := [] }

theorem alone_ofNode (s : Source) (grafts : List (Nat × Tree)) (n : Node) :
    alone (Tree.ofNode s grafts n) = alone (Tree.ofNode s [] n) := by
  cases n
  rfl

-- A node by itself with the place it comes from.
def Visit.image (v : Visit) : Path × List Nat × Tree :=
  (v.file, v.way, alone v.node)

-- The nodes of a file, each by itself with its place.
def images (grammar : Grammar) (s : Source) : List (Path × List Nat × Tree) :=
  (sites [] [] (grammar s.bytes)).map fun site => (s.path, site.way, alone (Tree.ofNode s [] site.node))

theorem image_visits (grammar : Grammar) (st : Station) :
    (st.visits grammar).map Visit.image = images grammar st.file.source := by
  rw [Station.visits, List.map_map]
  refine List.map_congr_left fun site _ => ?_
  rw [Function.comp_apply, siteVisit, Visit.image]
  exact congrArg (fun t => (st.file.source.path, site.way, t)) (alone_ofNode _ _ _)

theorem nodup_places (grammar : Grammar) {sources : List Source}
    (h : (sources.map (·.path)).Nodup) :
    ((sources.flatMap (images grammar)).map fun image => (image.1, image.2.1)).Nodup := by
  rw [List.map_flatMap, List.nodup_flatMap]
  constructor
  · intro s _
    have hways := Syntax.nodup_ways (grammar s.bytes) [] []
    rw [images, List.map_map]
    refine List.Nodup.of_map Prod.snd ?_
    rw [List.map_map]
    exact hways
  · refine (List.pairwise_map.mp h).imp fun {s t} hne place hs ht => hne ?_
    have hfile : ∀ {s : Source}, place ∈ (images grammar s).map (fun image => (image.1, image.2.1)) →
        place.1 = s.path := by
      intro s hmem
      obtain ⟨image, himage, rfl⟩ := List.mem_map.mp hmem
      obtain ⟨site, _, rfl⟩ := List.mem_map.mp himage
      rfl
    rw [← hfile hs, hfile ht]

theorem Loaded.of_mem_all {grammar : Grammar} {d : Disk} {m f : ModuleFile} (h : Loaded grammar d m)
    (hf : f ∈ m.all) : Loaded grammar d f := by
  induction h with
  | @file source directory modules hread hclean hfound hmodules ih =>
      rw [ModuleFile.all_eq, List.mem_cons, List.mem_flatMap] at hf
      rcases hf with rfl | ⟨inner, hinner, hf⟩
      · exact .file hread hclean hfound hmodules
      · exact ih inner hinner hf

theorem Loaded.read {grammar : Grammar} {d : Disk} {m : ModuleFile} (h : Loaded grammar d m) :
    d.read m.source.path = .ok m.source.bytes := by
  cases h with
  | file hread hclean hfound hmodules => exact hread

-- The files of a crate as they were read, in the order they were loaded in.
theorem Loaded.sources {grammar : Grammar} {d : Disk} {m : ModuleFile} (h : Loaded grammar d m) :
    (m.all.map (·.source)).map (fun s => d.resolve s.path) = m.spots d ∧
      ∀ s ∈ m.all.map (·.source), d.read s.path = .ok s.bytes := by
  constructor
  · rw [List.map_map]
    rfl
  · intro s hs
    obtain ⟨f, hf, rfl⟩ := List.mem_map.mp hs
    exact (h.of_mem_all hf).read

theorem nodup_spots_of_mem_all {grammar : Grammar} {d : Disk} {m f : ModuleFile} (h : Loaded grammar d m)
    (hnodup : (m.spots d).Nodup) (hf : f ∈ m.all) : (f.spots d).Nodup := by
  induction h with
  | @file source directory modules hread hclean hfound hmodules ih =>
      rw [ModuleFile.all_eq, List.mem_cons, List.mem_flatMap] at hf
      rcases hf with rfl | ⟨inner, hinner, hf⟩
      · exact hnodup
      · exact ih inner hinner (ModuleFile.nodup_spots_of_mem_modules hnodup hinner) hf

-- What is grafted in a file of a crate comes from another file.
theorem grafts_path_ne {grammar : Grammar} {d : Disk} {m f : ModuleFile} (h : Loaded grammar d m)
    (hnodup : (m.spots d).Nodup) (hf : f ∈ m.all) :
    ∀ graft ∈ f.grafts grammar, graft.2.span.path ≠ f.source.path := by
  intro graft hgraft
  exact ModuleFile.path_ne_of_mem_grafts (nodup_spots_of_mem_all h hnodup hf) hgraft

-- All files but the first are files of modules of the files.
theorem modules_perm {grammar : Grammar} {d : Disk} {m : ModuleFile} (h : Loaded grammar d m) :
    (m.all.flatMap (·.modules)).Perm m.all.tail := by
  induction h with
  | @file source directory modules hread hclean hfound hmodules ih =>
      rw [ModuleFile.all_eq, List.flatMap_cons, List.tail_cons, List.flatMap_assoc]
      have hinner : (modules.flatMap fun inner => inner.all.flatMap (·.modules)).Perm
          (modules.flatMap fun inner => inner.all.tail) :=
        List.Perm.flatMap_left modules ih
      have hall : modules.flatMap ModuleFile.all = modules.flatMap fun inner => [inner] ++ inner.all.tail := by
        refine List.flatMap_congr fun inner _ => ?_
        rw [ModuleFile.all_eq]
        rfl
      rw [hall]
      refine (hinner.append_left modules).trans ?_
      have hsplit := List.flatMap_append_perm modules (fun inner => [inner]) fun inner => inner.all.tail
      rw [List.flatMap_singleton'] at hsplit
      exact hsplit

-- How the files of a crate are put together in the walk of its tree.
structure Grafted (grammar : Grammar) (sources : List Source) (walk : List Visit) : Prop where
  -- Every file but the first is grafted at exactly one node.
  files : (walk.filterMap Visit.graft?).Perm (sources.tail.map (·.path))
  -- The nodes with a graft are the declarations of modules that are in files of their own.
  nodes : ∀ v ∈ walk, v.graft?.isSome ↔
    ∃ s ∈ sources, s.path = v.file ∧ (grammar s.bytes).DeclaresFile v.way
  -- They are module declarations in the tree, too.
  kinds : ∀ v ∈ walk, v.graft?.isSome → v.node.kind = "mod_item"
  -- Every node of every file is visited, and no other.
  images : (walk.map Visit.image).Perm (sources.flatMap (images grammar))
  -- No node is visited twice.
  once : (walk.map fun v => (v.file, v.way)).Nodup

theorem grafted_walk {grammar : Grammar} {d : Disk} {m : ModuleFile} (h : Loaded grammar d m)
    (hnodup : (m.spots d).Nodup) (hdistinct : ∀ f ∈ m.all, DistinctModules (f.root grammar)) :
    Grafted grammar (m.all.map (·.source)) (visits m.source.path [] [] (m.tree grammar)) := by
  have hwalk := visits_tree h hnodup hdistinct []
  have hfiles := file_stations h []
  have hpaths : (m.all.map (·.source.path)).Nodup := by
    refine List.Nodup.of_map d.resolve ?_
    rw [List.map_map]
    exact hnodup
  have hall : ∀ st ∈ stations grammar [] m, st.file ∈ m.all := by
    intro st hst
    rw [← hfiles]
    exact List.mem_map_of_mem hst
  have himages : ((visits m.source.path [] [] (m.tree grammar)).map Visit.image).Perm
      ((m.all.map (·.source)).flatMap (images grammar)) := by
    refine (hwalk.map Visit.image).trans (List.Perm.of_eq ?_)
    rw [List.map_flatMap, ← hfiles, List.map_map, List.flatMap_map]
    exact List.flatMap_congr fun st _ => image_visits grammar st
  refine ⟨?_, ?_, ?_, himages, ?_⟩
  · refine (hwalk.filterMap Visit.graft?).trans ?_
    have hown : ∀ st ∈ stations grammar [] m,
        (st.visits grammar).filterMap Visit.graft? = st.file.modules.map (·.source.path) := by
      intro st hst
      exact filterMap_graft? (h.of_mem_all (hall st hst)) (nodup_spots_of_mem_all h hnodup (hall st hst))
        (hdistinct st.file (hall st hst))
    rw [List.filterMap_flatMap, List.flatMap_congr hown,
      ← List.flatMap_map Station.file fun f => f.modules.map (·.source.path), hfiles]
    rw [← List.map_flatMap, ← List.map_tail, List.map_map]
    exact (modules_perm h).map _
  · intro v hv
    obtain ⟨st, hst, hv⟩ := List.mem_flatMap.mp (hwalk.mem_iff.mp hv)
    obtain ⟨site, hsite, rfl⟩ := List.mem_map.mp hv
    have hmem := hall st hst
    have hloaded := h.of_mem_all hmem
    rw [graft?_siteVisit (grafts_path_ne h hnodup hmem), Option.isSome_map,
      isSome_graftFor?_iff hloaded (hdistinct st.file hmem) hsite]
    constructor
    · intro hdeclares
      exact ⟨st.file.source, List.mem_map_of_mem hmem, rfl, hdeclares⟩
    · rintro ⟨s, hs, hpath, hdeclares⟩
      obtain ⟨f, hf, rfl⟩ := List.mem_map.mp hs
      have hsame : f = st.file := List.inj_on_of_nodup_map hpaths hf hmem hpath
      exact hsame ▸ hdeclares
  · intro v hv hsome
    obtain ⟨st, hst, hv⟩ := List.mem_flatMap.mp (hwalk.mem_iff.mp hv)
    obtain ⟨site, _, rfl⟩ := List.mem_map.mp hv
    rw [graft?_siteVisit (grafts_path_ne h hnodup (hall st hst)), Option.isSome_map] at hsome
    exact (kind_ofNode _ _ _).trans (kind_of_graftFor? hsome)
  · have hsources : ((m.all.map (·.source)).map (·.path)).Nodup := by
      rw [List.map_map]
      exact hpaths
    have hplaces := nodup_places grammar hsources
    have hperm := himages.map fun image => (image.1, image.2.1)
    rw [List.map_map] at hperm
    exact hperm.nodup_iff.mpr hplaces

-- A crate that parses is put together from files that were loaded once each, and the walk of its tree
-- visits every node of every file once.
theorem parse_visits_each_node_once {grammar : Grammar} {entry : Path} {w left : World} {crate : Crate}
    (h : (parse grammar entry).runIn w = (.ok crate, left))
    (hdistinct : ∀ path bytes, w.disk.resolve path ∈ crate.files → w.disk.read path = .ok bytes →
      DistinctModules (grammar bytes)) :
    crate.files.Nodup ∧ crate.files.head? = some (w.disk.resolve entry) ∧
      (visits entry [] [] crate.root).map (·.node) = (crate.root.preorder 0).map (·.2) ∧
      ∃ sources : List Source,
        sources.map (fun s => w.disk.resolve s.path) = crate.files ∧
        (∀ s ∈ sources, w.disk.read s.path = .ok s.bytes) ∧
        sources.head?.map (·.path) = some entry ∧
        Grafted grammar sources (visits entry [] [] crate.root) := by
  obtain ⟨m, rfl, _, hroot, hloaded, hfiles, hnodup⟩ := loaded_of_parse h
  have hall : ∀ f ∈ m.all, DistinctModules (f.root grammar) := by
    intro f hf
    refine hdistinct f.source.path f.source.bytes ?_ (hloaded.of_mem_all hf).read
    rw [hfiles]
    exact List.mem_map_of_mem hf
  obtain ⟨hspots, hread⟩ := hloaded.sources
  rw [hroot, hfiles]
  refine ⟨hnodup, ?_, ?_, m.all.map (·.source), hspots, hread, ?_, grafted_walk hloaded hnodup hall⟩
  · rw [ModuleFile.spots_eq, List.head?_cons]
  · rw [← node_occurrences (m.tree grammar) 0 [], ← toOccurrence_visits _ m.source.path [], List.map_map]
    rfl
  · rw [ModuleFile.all_eq, List.map_cons, List.head?_cons, Option.map_some]

-- A crate of three files. The first declares a module, and another one inside a module with a body;
-- that one has a function.
def nestedText : String := "mod a;mod b{mod c;}"

def nestedModules : World :=
  .ofDisk (.ofFolder (.file "lib.rs" (Utf8.encode nestedText) (.file "a.rs" []
    (.folder "b" (.file "c.rs" (Utf8.encode "fn f(){}") .empty) .empty))))

-- A module whose text starts at `start`, with a name of one letter and what follows the name.
def sampleModule (start stop : Nat) (rest : List Node) : Node :=
  ⟨"mod_item", start, stop, none, true, false,
    .leaf "mod" start (start + 3) false :: sampleName (start + 4) (start + 5) :: rest⟩

-- A module that has no body.
def declaredModule (start : Nat) : Node :=
  sampleModule start (start + 6) [.leaf ";" (start + 5) (start + 6) false]

def nestedGrammar : Grammar := fun bytes =>
  if bytes = Utf8.encode nestedText then
    ⟨"source_file", 0, 19, none, true, false, [declaredModule 0,
      sampleModule 6 19 [⟨"declaration_list", 11, 19, some "body", true, false,
        [.leaf "\x7b" 11 12 false, declaredModule 12, .leaf "\x7d" 18 19 false]⟩]]⟩
  else if bytes = Utf8.encode "fn f(){}" then sampleFile 1
  else ⟨"source_file", 0, 0, none, true, false, []⟩

theorem distinctModules_nestedGrammar (bytes : List UInt8) : DistinctModules (nestedGrammar bytes) := by
  rw [nestedGrammar]
  split
  · decide
  · split
    · decide
    · decide

theorem parse_visits_nestedModules :
    ∃ crate left, (parse nestedGrammar ⟨.here, ["lib.rs"]⟩).runIn nestedModules = (.ok crate, left) ∧
      crate.files = [["lib.rs"], ["a.rs"], ["b", "c.rs"]] ∧
      ∃ sources : List Source, sources.length = 3 ∧
        Grafted nestedGrammar sources (visits ⟨.here, ["lib.rs"]⟩ [] [] crate.root) := by
  have hfiles : ((parse nestedGrammar ⟨.here, ["lib.rs"]⟩).runIn nestedModules).1.toOption.map (·.files) =
      some [["lib.rs"], ["a.rs"], ["b", "c.rs"]] := by
    decide +kernel
  obtain ⟨crate, hcrate, hfiles⟩ := Option.map_eq_some_iff.mp hfiles
  have hrun := Work.runIn_eq_ok hcrate
  obtain ⟨_, _, _, sources, hsources, _, _, hgrafted⟩ :=
    parse_visits_each_node_once hrun fun _ bytes _ _ => distinctModules_nestedGrammar bytes
  have hlength := congrArg List.length hsources
  rw [List.length_map, hfiles] at hlength
  exact ⟨crate, _, hrun, hfiles, sources, hlength, hgrafted⟩

end CrateDocs.Crate
