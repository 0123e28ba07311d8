import CrateDocs.Proofs.Crate.Loaded
import CrateDocs.Proofs.Extract.Documented
import Mathlib.Data.List.Nodup
import Mathlib.Data.List.Perm.Basic

namespace CrateDocs.Crate

open Syntax (Node Source Tree Site sites sitesIn sites_eq)
open Extract (Occurrence occurrences occurrencesIn)

-- A node of a crate's tree with the nodes above it, the file it comes from, and the way to it in the
-- tree of this file.
structure Visit extends Occurrence where
  file : Path
  way : List Nat

-- The nodes of a tree, each before those below it. The tree stands below the nodes `above`, in a file
-- and at the end of a way in it. A child from another file is the root of that file.
mutual
def visits (file : Path) (way : List Nat) (above : List Tree) : Tree → List Visit
  | ⟨kind, fields, text, signature, span, children⟩ =>
    let t : Tree := ⟨kind, fields, text, signature, span, children⟩
    ⟨⟨above, t⟩, file, way⟩ :: visitsIn file way 0 (above ++ [t]) children
def visitsIn (file : Path) (way : List Nat) (index : Nat) (above : List Tree) : List Tree → List Visit
  | [] => []
  | t :: rest =>
    (if t.span.path = file then visits file (way ++ [index]) above t
      else visits t.span.path [] above t) ++
      visitsIn file way (index + 1) above rest
end

theorem visits_eq (file : Path) (way : List Nat) (above : List Tree) (t : Tree) :
    visits file way above t =
      ⟨⟨above, t⟩, file, way⟩ :: visitsIn file way 0 (above ++ [t]) t.children := by
  cases t
  rfl

theorem visitsIn_append (file : Path) (way : List Nat) (index : Nat) (above ts us : List Tree) :
    visitsIn file way index above (ts ++ us) =
      visitsIn file way index above ts ++ visitsIn file way (index + ts.length) above us := by
  induction ts generalizing index with
  | nil => rfl
  | cons t ts ih =>
      have hindex : index + 1 + ts.length = index + (ts.length + 1) := by omega
      rw [List.cons_append, visitsIn, visitsIn, ih, List.append_assoc, List.length_cons, hindex]

-- Files and ways aside, it is the walk in which functions are documented.
mutual
theorem toOccurrence_visits (t : Tree) (file : Path) (way : List Nat) (above : List Tree) :
    (visits file way above t).map (·.toOccurrence) = occurrences above t := by
  cases t with
  | mk kind fields text signature span children =>
      rw [visits, occurrences, List.map_cons, toOccurrence_visitsIn children]
theorem toOccurrence_visitsIn (ts : List Tree) (file : Path) (way : List Nat) (index : Nat)
    (above : List Tree) :
    (visitsIn file way index above ts).map (·.toOccurrence) = occurrencesIn above ts := by
  cases ts with
  | nil => rfl
  | cons t ts =>
      rw [visitsIn, occurrencesIn, List.map_append, toOccurrence_visitsIn ts]
      split
      · rw [toOccurrence_visits t]
      · rw [toOccurrence_visits t]
end

mutual
theorem node_occurrences (t : Tree) (depth : Nat) (above : List Tree) :
    (occurrences above t).map (·.node) = (t.preorder depth).map (·.2) := by
  cases t with
  | mk kind fields text signature span children =>
      rw [occurrences, Tree.preorder, List.map_cons, List.map_cons,
        node_occurrencesIn children (depth + 1)]
theorem node_occurrencesIn (ts : List Tree) (depth : Nat) (above : List Tree) :
    (occurrencesIn above ts).map (·.node) = (Tree.preorders depth ts).map (·.2) := by
  cases ts with
  | nil => rfl
  | cons t ts =>
      rw [occurrencesIn, Tree.preorders, List.map_append, List.map_append,
        node_occurrences t depth, node_occurrencesIn ts depth]
end

-- The tree of a file, node by node.

-- The graft that belongs to a node.
def graftFor? (grafts : List (Nat × Tree)) (n : Node) : Option Tree :=
  if n.kind = "mod_item" then grafts.reverse.lookup n.start else none

theorem ofNodes_eq (s : Source) (grafts : List (Nat × Tree)) (ns : List Node) :
    Tree.ofNodes s grafts ns = ns.map (Tree.ofNode s grafts) := by
  induction ns with
  | nil => rfl
  | cons n ns ih => rw [Tree.ofNodes, ih, List.map_cons]

theorem children_ofNode (s : Source) (grafts : List (Nat × Tree)) (n : Node) :
    (Tree.ofNode s grafts n).children =
      n.children.map (Tree.ofNode s grafts) ++ (graftFor? grafts n).toList := by
  cases n with
  | mk kind start stop field named missing children =>
      rw [Tree.ofNode, ofNodes_eq, graftFor?]
      by_cases hkind : kind = "mod_item" <;> simp [hkind]

theorem kind_ofNode (s : Source) (grafts : List (Nat × Tree)) (n : Node) :
    (Tree.ofNode s grafts n).kind = n.kind := by
  cases n
  rfl

theorem path_ofNode (s : Source) (grafts : List (Nat × Tree)) (n : Node) :
    (Tree.ofNode s grafts n).span.path = s.path := by
  cases n
  rfl

theorem mem_of_graftFor? {grafts : List (Nat × Tree)} {n : Node} {t : Tree}
    (h : graftFor? grafts n = some t) : ∃ start, (start, t) ∈ grafts := by
  rw [graftFor?] at h
  split at h
  · obtain ⟨before, after, hsplit, _⟩ := List.lookup_eq_some_iff.mp h
    exact ⟨n.start, by rw [← List.mem_reverse, hsplit]; simp⟩
  · cases h

section file

variable (s : Source) (grafts : List (Nat × Tree)) (above : List Tree)

-- The nodes above what is grafted at a site.
def belowSite (site : Site) : List Tree :=
  above ++ site.above.map (Tree.ofNode s grafts) ++ [Tree.ofNode s grafts site.node]

-- The visit of a site of the file.
def siteVisit (site : Site) : Visit :=
  ⟨⟨above ++ site.above.map (Tree.ofNode s grafts), Tree.ofNode s grafts site.node⟩, s.path, site.way⟩

-- The visits of what is grafted at a site.
def graftVisits (site : Site) : List Visit :=
  (graftFor? grafts site.node).toList.flatMap fun t =>
    visits t.span.path [] (belowSite s grafts above site) t

variable {s grafts}

-- The walk goes over every site of the file, and at each over what is grafted there.
mutual
theorem visits_ofNode (hgrafts : ∀ graft ∈ grafts, graft.2.span.path ≠ s.path) (n : Node)
    (way : List Nat) (line : List Node) :
    (visits s.path way (above ++ line.map (Tree.ofNode s grafts)) (Tree.ofNode s grafts n)).Perm
      ((sites way line n).flatMap fun site =>
        siteVisit s grafts above site :: graftVisits s grafts above site) := by
  have hgraft : visitsIn s.path way (0 + (n.children.map (Tree.ofNode s grafts)).length)
      (belowSite s grafts above ⟨way, line, n⟩) (graftFor? grafts n).toList =
      graftVisits s grafts above ⟨way, line, n⟩ := by
    rw [graftVisits]
    cases hfor : graftFor? grafts n with
    | none => rfl
    | some t =>
        obtain ⟨start, hmem⟩ := mem_of_graftFor? hfor
        simp [visitsIn, hgrafts _ hmem]
  have hbelow : above ++ line.map (Tree.ofNode s grafts) ++ [Tree.ofNode s grafts n] =
      above ++ (line ++ [n]).map (Tree.ofNode s grafts) := by
    simp
  rw [visits_eq, children_ofNode, visitsIn_append]
  rw [show above ++ line.map (Tree.ofNode s grafts) ++ [Tree.ofNode s grafts n] =
    belowSite s grafts above ⟨way, line, n⟩ from rfl, hgraft]
  rw [sites_eq, List.flatMap_cons, List.cons_append]
  refine List.Perm.cons _ (List.perm_append_comm.trans (List.Perm.append_left _ ?_))
  rw [belowSite, hbelow]
  cases n with
  | mk kind start stop field named missing children =>
      exact visitsIn_ofNodes hgrafts children way 0 _
theorem visitsIn_ofNodes (hgrafts : ∀ graft ∈ grafts, graft.2.span.path ≠ s.path) (ns : List Node)
    (way : List Nat) (index : Nat) (line : List Node) :
    (visitsIn s.path way index (above ++ line.map (Tree.ofNode s grafts))
        (ns.map (Tree.ofNode s grafts))).Perm
      ((sitesIn way index line ns).flatMap fun site =>
        siteVisit s grafts above site :: graftVisits s grafts above site) := by
  cases ns with
  | nil => rfl
  | cons n ns =>
      rw [List.map_cons, visitsIn, if_pos (path_ofNode s grafts n), sitesIn, List.flatMap_append]
      exact (visits_ofNode hgrafts n _ line).append (visitsIn_ofNodes hgrafts ns way (index + 1) line)
end

end file

-- Grafts and the declarations they belong to.

-- The starts of the module declarations among some sites.
def moduleStarts (l : List Site) : List Nat :=
  (l.filter fun site => site.node.kind = "mod_item").map (·.node.start)

theorem mem_moduleStarts {l : List Site} {site : Site} (hmem : site ∈ l)
    (hkind : site.node.kind = "mod_item") : site.node.start ∈ moduleStarts l := by
  apply List.mem_map_of_mem
  simpa [hkind] using hmem

theorem nodup_moduleStarts_of_cons {site : Site} {l : List Site} (h : (moduleStarts (site :: l)).Nodup) :
    (moduleStarts l).Nodup ∧ (site.node.kind = "mod_item" → site.node.start ∉ moduleStarts l) := by
  by_cases hkind : site.node.kind = "mod_item"
  · simp only [moduleStarts, List.filter_cons, hkind, decide_true, if_true, List.map_cons,
      List.nodup_cons] at h
    exact ⟨h.2, fun _ => h.1⟩
  · simp only [moduleStarts, List.filter_cons, hkind, decide_false, Bool.false_eq_true, if_false] at h
    exact ⟨h, fun hmodule => absurd hmodule hkind⟩

theorem graftFor?_eq_none {grafts : List (Nat × Tree)} {n : Node}
    (h : n.kind = "mod_item" → n.start ∉ grafts.map (·.1)) : graftFor? grafts n = none := by
  rw [graftFor?]
  split
  · rename_i hkind
    rw [List.lookup_eq_none_iff]
    intro graft hgraft
    have hne : n.start ≠ graft.1 := by
      intro heq
      exact h hkind (heq ▸ List.mem_map_of_mem (List.mem_reverse.mp hgraft))
    simpa using hne
  · rfl

theorem graftFor?_cons_self {start : Nat} {t : Tree} {grafts : List (Nat × Tree)} {n : Node}
    (hkind : n.kind = "mod_item") (hstart : n.start = start) (hnew : start ∉ grafts.map (·.1)) :
    graftFor? ((start, t) :: grafts) n = some t := by
  have hnone : graftFor? grafts n = none := graftFor?_eq_none fun _ => hstart ▸ hnew
  rw [graftFor?, if_pos hkind] at hnone ⊢
  rw [List.reverse_cons, List.lookup_append, hnone, hstart]
  simp

theorem graftFor?_cons_of_ne {start : Nat} {t : Tree} {grafts : List (Nat × Tree)} {n : Node}
    (h : n.kind = "mod_item" → n.start ≠ start) :
    graftFor? ((start, t) :: grafts) n = graftFor? grafts n := by
  rw [graftFor?, graftFor?]
  split
  · rename_i hkind
    have hne : (n.start == start) = false := by simpa using h hkind
    rw [List.reverse_cons, List.lookup_append]
    simp [List.lookup_cons, hne]
  · rfl

-- Where module declarations start at different places, every declaration has its own graft, and no
-- other node has one.
theorem flatMap_graftFor? {β : Type} {declared l : List Site} (hsub : declared.Sublist l)
    (hkind : ∀ site ∈ declared, site.node.kind = "mod_item") (hnodup : (moduleStarts l).Nodup)
    {trees : List Tree} (hlength : declared.length = trees.length) (each : Site → Tree → List β) :
    (l.flatMap fun site =>
        (graftFor? ((declared.map (·.node.start)).zip trees) site.node).toList.flatMap (each site)) =
      (declared.zip trees).flatMap fun pair => each pair.1 pair.2 := by
  induction hsub generalizing trees with
  | slnil => simp
  | @cons declared l site hsub ih =>
      obtain ⟨hnodup, hnew⟩ := nodup_moduleStarts_of_cons hnodup
      have hnone : graftFor? ((declared.map (·.node.start)).zip trees) site.node = none := by
        apply graftFor?_eq_none
        intro hmodule hmem
        rw [List.map_fst_zip (by simp [hlength])] at hmem
        obtain ⟨other, hother, heq⟩ := List.mem_map.mp hmem
        exact hnew hmodule (heq ▸ mem_moduleStarts (hsub.subset hother) (hkind other hother))
      rw [List.flatMap_cons, hnone, ih hkind hnodup hlength]
      rfl
  | @cons_cons declared l site hsub ih =>
      obtain ⟨hnodup, hnew⟩ := nodup_moduleStarts_of_cons hnodup
      obtain ⟨hmodule, hkind⟩ := List.forall_mem_cons.mp hkind
      cases trees with
      | nil => cases hlength
      | cons t trees =>
          have hlength : declared.length = trees.length := by simpa using hlength
          have hfirst : site.node.start ∉ ((declared.map (·.node.start)).zip trees).map (·.1) := by
            rw [List.map_fst_zip (by simp [hlength])]
            intro hmem
            obtain ⟨other, hother, heq⟩ := List.mem_map.mp hmem
            exact hnew hmodule (heq ▸ mem_moduleStarts (hsub.subset hother) (hkind other hother))
          have hrest : ∀ other ∈ l,
              (graftFor? (((site :: declared).map (·.node.start)).zip (t :: trees)) other.node).toList.flatMap
                  (each other) =
                (graftFor? ((declared.map (·.node.start)).zip trees) other.node).toList.flatMap
                  (each other) := by
            intro other hother
            rw [List.map_cons, List.zip_cons_cons, graftFor?_cons_of_ne]
            intro hkind heq
            exact hnew hmodule (heq ▸ mem_moduleStarts hother hkind)
          rw [List.flatMap_cons, List.flatMap_congr hrest, ih hkind hnodup hlength, List.map_cons,
            List.zip_cons_cons, graftFor?_cons_self hmodule rfl hfirst, List.zip_cons_cons,
            List.flatMap_cons]
          simp

-- Whether the module declarations in a tree start at different places.
def DistinctModules (root : Node) : Prop :=
  (moduleStarts (sites [] [] root)).Nodup

instance (root : Node) : Decidable (DistinctModules root) :=
  inferInstanceAs (Decidable (List.Nodup _))

namespace ModuleFile

def sites (grammar : Grammar) (m : ModuleFile) : List Site :=
  Syntax.sites [] [] (m.root grammar)

theorem declared_sublist (grammar : Grammar) (m : ModuleFile) :
    ((m.declared grammar).map (·.site)).Sublist (m.sites grammar) :=
  declarations_sublist m.source (m.root grammar)

theorem kind_of_mem_declared {grammar : Grammar} {m : ModuleFile} {site : Site}
    (h : site ∈ (m.declared grammar).map (·.site)) : site.node.kind = "mod_item" := by
  obtain ⟨decl, hdecl, rfl⟩ := List.mem_map.mp h
  exact (declaresFile_of_mem _ hdecl).1.2.1

-- What is grafted in the tree of a file, site by site, is what its declarations stand for.
theorem flatMap_grafts {β : Type} {grammar : Grammar} {m : ModuleFile}
    (hdistinct : DistinctModules (m.root grammar))
    (hlength : (m.declared grammar).length = m.modules.length) (each : Site → Tree → List β) :
    ((m.sites grammar).flatMap fun site =>
        (graftFor? (m.grafts grammar) site.node).toList.flatMap (each site)) =
      ((m.declared grammar).zip m.modules).flatMap fun pair =>
        each pair.1.site (pair.2.tree grammar) := by
  have htrees : ((m.declared grammar).map (·.site)).length = (m.modules.map (tree grammar)).length := by
    simpa using hlength
  have h := flatMap_graftFor? (declared_sublist grammar m) (fun _ => kind_of_mem_declared) hdistinct
    htrees each
  rw [List.map_map] at h
  refine h.trans ?_
  rw [List.zip_map, List.flatMap_map]
  rfl

theorem mem_all_of_mem_modules {m inner f : ModuleFile} (hinner : inner ∈ m.modules) (hf : f ∈ inner.all) :
    f ∈ m.all := by
  rw [all_eq]
  exact List.mem_cons_of_mem m (List.mem_flatMap.mpr ⟨inner, hinner, hf⟩)

theorem nodup_spots_of_mem_modules {d : Disk} {m inner : ModuleFile} (h : (m.spots d).Nodup)
    (hinner : inner ∈ m.modules) : (inner.spots d).Nodup := by
  rw [spots_eq, List.nodup_cons] at h
  exact (List.nodup_flatMap.mp h.2).1 inner hinner

theorem path_ne_of_mem_modules {d : Disk} {m inner : ModuleFile} (h : (m.spots d).Nodup)
    (hinner : inner ∈ m.modules) : inner.source.path ≠ m.source.path := by
  intro heq
  rw [spots_eq, List.nodup_cons] at h
  apply h.1
  refine List.mem_flatMap.mpr ⟨inner, hinner, ?_⟩
  rw [spots_eq, heq]
  exact List.mem_cons_self

theorem path_tree (grammar : Grammar) (m : ModuleFile) : (m.tree grammar).span.path = m.source.path := by
  rw [tree_eq, path_ofNode]

theorem path_ne_of_mem_grafts {d : Disk} {grammar : Grammar} {m : ModuleFile} (h : (m.spots d).Nodup)
    {graft : Nat × Tree} (hgraft : graft ∈ m.grafts grammar) : graft.2.span.path ≠ m.source.path := by
  obtain ⟨inner, hinner, heq⟩ := List.mem_map.mp (List.of_mem_zip hgraft).2
  rw [← heq, path_tree]
  exact path_ne_of_mem_modules h hinner

end ModuleFile

-- A loaded file in a crate, with the nodes above its root.
structure Station where
  above : List Tree
  file : ModuleFile

namespace Station

-- The nodes above what is grafted at a site of the file.
def below (grammar : Grammar) (st : Station) (site : Site) : List Tree :=
  belowSite st.file.source (st.file.grafts grammar) st.above site

-- The visits of the file's own nodes.
def visits (grammar : Grammar) (st : Station) : List Visit :=
  (st.file.sites grammar).map (siteVisit st.file.source (st.file.grafts grammar) st.above)

end Station

-- The files of a crate, each before those of its modules.
mutual
def stations (grammar : Grammar) (above : List Tree) : ModuleFile → List Station
  | ⟨source, directory, modules⟩ =>
    let st : Station := ⟨above, ⟨source, directory, modules⟩⟩
    st :: stationsIn grammar ((st.file.declared grammar).map fun decl => st.below grammar decl.site) modules
def stationsIn (grammar : Grammar) : List (List Tree) → List ModuleFile → List Station
  | above :: rest, m :: ms => stations grammar above m ++ stationsIn grammar rest ms
  | _, _ => []
end

theorem stationsIn_eq (grammar : Grammar) (aboves : List (List Tree)) (ms : List ModuleFile) :
    stationsIn grammar aboves ms = (aboves.zip ms).flatMap fun pair => stations grammar pair.1 pair.2 := by
  induction ms generalizing aboves with
  | nil => cases aboves <;> simp [stationsIn]
  | cons m ms ih =>
      cases aboves with
      | nil => simp [stationsIn]
      | cons above aboves => rw [stationsIn, ih, List.zip_cons_cons, List.flatMap_cons]

theorem stations_eq (grammar : Grammar) (st : Station) :
    stations grammar st.above st.file =
      st :: ((st.file.declared grammar).zip st.file.modules).flatMap fun pair =>
        stations grammar (st.below grammar pair.1.site) pair.2 := by
  obtain ⟨above, source, directory, modules⟩ := st
  rw [stations, stationsIn_eq, List.zip_map_left, List.flatMap_map]
  rfl

theorem Loaded.length_declared {grammar : Grammar} {d : Disk} {m : ModuleFile} (h : Loaded grammar d m) :
    (m.declared grammar).length = m.modules.length := by
  cases h with
  | file hread hclean hfound hmodules => exact hfound.length_eq

theorem file_stations {grammar : Grammar} {d : Disk} {m : ModuleFile} (h : Loaded grammar d m)
    (above : List Tree) : (stations grammar above m).map (·.file) = m.all := by
  induction h generalizing above with
  | @file source directory modules hread hclean hfound hmodules ih =>
      let m : ModuleFile := ⟨source, directory, modules⟩
      have hlength : (m.declared grammar).length = modules.length := hfound.length_eq
      have hpairs : ∀ pair ∈ (m.declared grammar).zip modules,
          (stations grammar (Station.below grammar ⟨above, m⟩ pair.1.site) pair.2).map (·.file) =
            pair.2.all :=
        fun pair hpair => ih pair.2 (List.of_mem_zip hpair).2 _
      have hsecond : ((m.declared grammar).zip modules).map (·.2) = modules :=
        List.map_snd_zip (by omega)
      rw [stations_eq grammar ⟨above, m⟩, ModuleFile.all_eq, List.map_cons, List.map_flatMap,
        List.flatMap_congr hpairs, ← List.flatMap_map, hsecond]

-- The walk of a crate goes over every node of every file.
theorem visits_tree {grammar : Grammar} {d : Disk} {m : ModuleFile} (h : Loaded grammar d m)
    (hnodup : (m.spots d).Nodup) (hdistinct : ∀ f ∈ m.all, DistinctModules (f.root grammar))
    (above : List Tree) :
    (visits m.source.path [] above (m.tree grammar)).Perm
      ((stations grammar above m).flatMap (Station.visits grammar)) := by
  induction h generalizing above with
  | @file source directory modules hread hclean hfound hmodules ih =>
      generalize hm : (⟨source, directory, modules⟩ : ModuleFile) = m at *
      have hlength : (m.declared grammar).length = m.modules.length := by
        rw [← hm]
        exact hfound.length_eq
      have hpaths : ∀ graft ∈ m.grafts grammar, graft.2.span.path ≠ m.source.path :=
        fun graft hgraft => ModuleFile.path_ne_of_mem_grafts hnodup hgraft
      have hwalk := visits_ofNode above hpaths (m.root grammar) [] []
      rw [List.map_nil, List.append_nil, ← ModuleFile.tree_eq] at hwalk
      have hpairs : ∀ pair ∈ (m.declared grammar).zip m.modules,
          (visits (pair.2.tree grammar).span.path []
              (Station.below grammar ⟨above, m⟩ pair.1.site) (pair.2.tree grammar)).Perm
            ((stations grammar (Station.below grammar ⟨above, m⟩ pair.1.site) pair.2).flatMap
              (Station.visits grammar)) := by
        intro pair hpair
        have hmem : pair.2 ∈ m.modules := (List.of_mem_zip hpair).2
        rw [ModuleFile.path_tree]
        apply ih pair.2 (by rw [← hm] at hmem; exact hmem)
        · exact ModuleFile.nodup_spots_of_mem_modules hnodup hmem
        · exact fun f hf => hdistinct f (ModuleFile.mem_all_of_mem_modules hmem hf)
      refine hwalk.trans ((List.flatMap_append_perm _ (fun site => [_]) _).symm.trans ?_)
      rw [stations_eq grammar ⟨above, m⟩, List.flatMap_cons, List.flatMap_assoc]
      refine List.Perm.append ?_ ?_
      · rw [← List.map_eq_flatMap]
        exact List.Perm.refl _
      · have hgrafts := ModuleFile.flatMap_grafts (hdistinct m m.mem_all_self) hlength
          fun site t => visits t.span.path [] (Station.below grammar ⟨above, m⟩ site) t
        refine (List.Perm.of_eq hgrafts).trans ?_
        exact List.Perm.flatMap_left _ hpairs

end CrateDocs.Crate
