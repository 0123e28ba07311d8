import CrateDocs.Extract.Basic

namespace CrateDocs.Extract

open Syntax (Tree)

-- A node of a tree, with the nodes above it, the root first.
structure Occurrence where
  above : List Tree
  node : Tree

-- The nodes of a tree that stands below the nodes `above`, each before those below it.
mutual
def occurrences (above : List Tree) : Tree → List Occurrence
  | ⟨kind, fields, text, signature, span, children⟩ =>
    let t : Tree := ⟨kind, fields, text, signature, span, children⟩
    ⟨above, t⟩ :: occurrencesIn (above ++ [t]) children
def occurrencesIn (above : List Tree) : List Tree → List Occurrence
  | [] => []
  | t :: rest => occurrences above t ++ occurrencesIn above rest
end

-- The container that the nearest of some nodes opens for what is below all of them.
def containerBelow (above : List Tree) : Container :=
  (above.reverse.findSome? fun t => containerOf? t.kind).getD .module

-- Containers whose functions belong to a type, a trait or another language.
def Container.ownsFunctions (c : Container) : Prop :=
  c = .impl ∨ c = .trait ∨ c = .foreign

instance (c : Container) : Decidable c.ownsFunctions :=
  inferInstanceAs (Decidable (_ ∨ _))

namespace Occurrence

-- Whether a node is a free function with a name that no macro hides.
def Documented (o : Occurrence) : Prop :=
  o.node.kind = "function_item" ∧ (declaredName? o.node).isSome ∧
    (∀ t ∈ o.above, isSealed t.kind = false) ∧ ¬(containerBelow o.above).ownsFunctions

instance (o : Occurrence) : Decidable o.Documented :=
  inferInstanceAs (Decidable (_ ∧ _))

-- Whether the name of a node is part of the paths below it. A function without a body counts only
-- where it belongs to a type, a trait or another language.
def NamesPath (o : Occurrence) : Prop :=
  o.node.kind = "mod_item" ∨ o.node.kind = "function_item" ∨
    o.node.kind = "function_signature_item" ∧ (containerBelow o.above).ownsFunctions

instance (o : Occurrence) : Decidable o.NamesPath :=
  inferInstanceAs (Decidable (_ ∨ _))

-- The segment that a node adds to the paths below it.
def segment? (o : Occurrence) : Option String :=
  if o.NamesPath then declaredName? o.node else none

end Occurrence

-- The nodes of a line of descent that goes on from the nodes `before`, each with all above it.
def lineage (before : List Tree) : List Tree → List Occurrence
  | [] => []
  | t :: rest => ⟨before, t⟩ :: lineage (before ++ [t]) rest

-- The segments that the nodes above a place give to the paths of what is there.
def scopeBelow (crate : Option String) (above : List Tree) : List String :=
  rootScope crate ++ (lineage [] above).filterMap Occurrence.segment?

-- The path of a documented function.
def Occurrence.symbolPath (crate : Option String) (o : Occurrence) : List String :=
  scopeBelow crate o.above ++ (declaredName? o.node).toList

-- The functions of a crate that are documented, in the order they are written in.
def documented (root : Tree) : List Occurrence :=
  (occurrences [] root).filter fun o => o.Documented

-- What the nodes above a place tell the walk about it, one node further down.

theorem lineage_append (before above below : List Tree) :
    lineage before (above ++ below) = lineage before above ++ lineage (before ++ above) below := by
  induction above generalizing before with
  | nil => simp [lineage]
  | cons t rest ih => simp [lineage, ih]

theorem scopeBelow_append (crate : Option String) (above : List Tree) (t : Tree) :
    scopeBelow crate (above ++ [t]) =
      scopeBelow crate above ++ (Occurrence.segment? ⟨above, t⟩).toList := by
  simp only [scopeBelow, lineage_append, List.nil_append, lineage, List.filterMap_append,
    List.append_assoc]
  cases h : Occurrence.segment? ⟨above, t⟩ <;> simp [h]

theorem containerBelow_append (above : List Tree) (t : Tree) :
    containerBelow (above ++ [t]) = (containerOf? t.kind).getD (containerBelow above) := by
  simp only [containerBelow, List.reverse_append, List.reverse_singleton, List.singleton_append,
    List.findSome?_cons]
  cases containerOf? t.kind <;> simp

theorem opensScope_classify (o : Occurrence) :
    opensScope o.node.kind (classify o.node.kind (containerBelow o.above)) = decide o.NamesPath := by
  cases hc : containerBelow o.above <;>
    by_cases hm : o.node.kind = "mod_item" <;>
    by_cases hf : o.node.kind = "function_item" <;>
    by_cases hs : o.node.kind = "function_signature_item" <;>
    by_cases hl : o.node.kind = "closure_expression" <;>
    simp_all [classify, opensScope, Occurrence.NamesPath, Container.ownsFunctions]

-- The frame that the walk holds for a node.
def Occurrence.frame (crate : Option String) (o : Occurrence) : Frame :=
  ⟨o.node, scopeBelow crate o.above, containerBelow o.above⟩

theorem below_frame (crate : Option String) (above : List Tree) (t : Tree) :
    (Occurrence.frame crate ⟨above, t⟩).below =
      t.children.map fun child => Occurrence.frame crate ⟨above ++ [t], child⟩ := by
  have hs := opensScope_classify ⟨above, t⟩
  simp only [Occurrence.frame, Frame.below, scopeBelow_append, containerBelow_append, hs,
    Occurrence.segment?, decide_eq_true_eq]

-- The control of the walk: it takes in, in order, every node that no macro hides.

def Occurrence.Open (o : Occurrence) : Prop :=
  isSealed o.node.kind = false ∧ ∀ t ∈ o.above, isSealed t.kind = false

instance (o : Occurrence) : Decidable o.Open :=
  inferInstanceAs (Decidable (_ ∧ _))

-- The frames of the nodes among some that no macro hides.
def openFrames (crate : Option String) (os : List Occurrence) : List Frame :=
  (os.filter fun o => o.Open).map (Occurrence.frame crate)

theorem openFrames_append (crate : Option String) (os us : List Occurrence) :
    openFrames crate (os ++ us) = openFrames crate os ++ openFrames crate us := by
  simp [openFrames]

-- Whatever a node is below, everything in its tree is below.
mutual
theorem above_subset_of_mem_occurrences (t : Tree) (above : List Tree) (o : Occurrence)
    (ho : o ∈ occurrences above t) : above ⊆ o.above := by
  cases t with
  | mk kind fields text signature span children =>
      rw [occurrences, List.mem_cons] at ho
      cases ho with
      | inl ho => rw [ho]; exact List.Subset.refl above
      | inr ho =>
          exact List.Subset.trans (List.subset_append_left above _) (above_subset_of_mem_occurrencesIn children _ o ho)
theorem above_subset_of_mem_occurrencesIn (ts : List Tree) (above : List Tree) (o : Occurrence)
    (ho : o ∈ occurrencesIn above ts) : above ⊆ o.above := by
  cases ts with
  | nil => simp [occurrencesIn] at ho
  | cons t rest =>
      rw [occurrencesIn, List.mem_append] at ho
      cases ho with
      | inl ho => exact above_subset_of_mem_occurrences t above o ho
      | inr ho => exact above_subset_of_mem_occurrencesIn rest above o ho
end

theorem not_open_of_mem_above {o : Occurrence} {t : Tree} (ht : t ∈ o.above) (hs : isSealed t.kind = true) :
    ¬o.Open := by
  rintro ⟨_, hopen⟩
  simp [hopen t ht] at hs

theorem openFrames_of_sealed (crate : Option String) (above : List Tree) (t : Tree)
    (hs : isSealed t.kind = true) : openFrames crate (occurrences above t) = [] := by
  cases t with
  | mk kind fields text signature span children =>
      rw [occurrences, openFrames, List.map_eq_nil_iff, List.filter_eq_nil_iff]
      intro o ho
      rw [decide_eq_true_eq]
      cases List.mem_cons.mp ho with
      | inl ho =>
          subst ho
          rintro ⟨hopen, _⟩
          simp [hopen] at hs
      | inr ho =>
          have hbelow := above_subset_of_mem_occurrencesIn children _ o ho
          exact not_open_of_mem_above (hbelow (List.mem_append_right above List.mem_cons_self)) hs

-- One step of the walk, and the whole of it over a tree: the frames that follow are looked at after
-- every node of the tree, with what those nodes left.
mutual
theorem walk_frame (crate : Option String) (t : Tree) (above : List Tree) (rest : List Frame)
    (found : Found) (hopen : ∀ u ∈ above, isSealed u.kind = false) :
    walk (Occurrence.frame crate ⟨above, t⟩ :: rest) found =
      (openFrames crate (occurrences above t)).foldlM Found.add found >>= walk rest := by
  by_cases hs : isSealed t.kind = true
  · rw [walk, openFrames_of_sealed crate above t hs]
    simp only [Occurrence.frame, hs, if_true, List.foldlM_nil, pure_bind]
  · have hs : isSealed t.kind = false := by simpa using hs
    have hbelow := below_frame crate above t
    cases t with
    | mk kind fields text signature span children =>
        generalize ht : (⟨kind, fields, text, signature, span, children⟩ : Tree) = t at *
        have hchildren : t.children = children := by rw [← ht]
        have hhead : Occurrence.Open ⟨above, t⟩ := ⟨hs, hopen⟩
        have hframes : openFrames crate (occurrences above t) =
            Occurrence.frame crate ⟨above, t⟩ ::
              openFrames crate (occurrencesIn (above ++ [t]) children) := by
          rw [← ht] at hhead ⊢
          simp [occurrences, openFrames, hhead]
        have hopen' : ∀ u ∈ above ++ [t], isSealed u.kind = false := by
          intro u hu
          cases List.mem_append.mp hu with
          | inl hu => exact hopen u hu
          | inr hu => rw [List.mem_singleton.mp hu]; exact hs
        rw [walk, hframes, List.foldlM_cons]
        simp only [Occurrence.frame, hs, Bool.false_eq_true, if_false] at hbelow ⊢
        cases hadd : Found.add found ⟨t, scopeBelow crate above, containerBelow above⟩ with
        | error fault => rfl
        | ok more =>
            simp only [hbelow, hchildren]
            exact walk_frames crate children (above ++ [t]) rest more hopen'
theorem walk_frames (crate : Option String) (ts : List Tree) (above : List Tree) (rest : List Frame)
    (found : Found) (hopen : ∀ u ∈ above, isSealed u.kind = false) :
    walk ((ts.map fun t => Occurrence.frame crate ⟨above, t⟩) ++ rest) found =
      (openFrames crate (occurrencesIn above ts)).foldlM Found.add found >>= walk rest := by
  cases ts with
  | nil => simp [occurrencesIn, openFrames]
  | cons t ts =>
      rw [List.map_cons, List.cons_append, walk_frame crate t above _ found hopen, occurrencesIn,
        openFrames_append, List.foldlM_append, bind_assoc]
      congr 1
      funext more
      exact walk_frames crate ts above rest more hopen
end

-- What a node adds: its record if it is documented, and else at most to the count of the others.

theorem isSealed_function : isSealed "function_item" = false := by decide

theorem Occurrence.Documented.open {o : Occurrence} (h : o.Documented) : o.Open :=
  ⟨h.1 ▸ isSealed_function, h.2.2.1⟩

theorem classify_eq_freeFunction_iff (kind : String) (c : Container) :
    classify kind c = some .freeFunction ↔ kind = "function_item" ∧ ¬c.ownsFunctions := by
  cases c <;> by_cases hf : kind = "function_item" <;>
    by_cases hl : kind = "closure_expression" <;>
    by_cases hs : kind = "function_signature_item" <;>
    simp_all [classify, Container.ownsFunctions]

theorem add_of_documented (crate : Option String) (found : Found) (o : Occurrence)
    (h : o.Documented) :
    found.add (o.frame crate) =
      (document o.node (o.symbolPath crate)).map fun doc =>
        { found with docs := found.docs ++ [doc] } := by
  obtain ⟨hkind, hname, _, hcontainer⟩ := h
  have hclass := (classify_eq_freeFunction_iff o.node.kind (containerBelow o.above)).mpr
    ⟨hkind, hcontainer⟩
  obtain ⟨name, hname⟩ := Option.isSome_iff_exists.mp hname
  simp only [Found.add, Occurrence.frame, hclass, hname, Occurrence.symbolPath, Option.toList_some]
  cases document o.node (scopeBelow crate o.above ++ [name]) <;> rfl

theorem add_of_not_documented (crate : Option String) (found : Found) (o : Occurrence)
    (hopen : o.Open) (h : ¬o.Documented) :
    ∃ others, found.add (o.frame crate) = .ok { found with others := others } := by
  cases hclass : classify o.node.kind (containerBelow o.above) with
  | none =>
      refine ⟨found.others, ?_⟩
      simp only [Found.add, Occurrence.frame, hclass]
  | some declared =>
      by_cases hfree : declared = .freeFunction
      · -- A free function that is not documented has no name.
        subst hfree
        have hfree := (classify_eq_freeFunction_iff _ _).mp hclass
        have hname : declaredName? o.node = none := by
          cases hname : declaredName? o.node with
          | none => rfl
          | some name => exact absurd ⟨hfree.1, by simp [hname], hopen.2, hfree.2⟩ h
        refine ⟨found.others, ?_⟩
        simp only [Found.add, Occurrence.frame, hclass, hname]
      · refine ⟨found.others + 1, ?_⟩
        cases declared with
        | freeFunction => exact absurd rfl hfree
        | method | foreignFunction | closure => simp only [Found.add, Occurrence.frame, hclass]

-- The records of the documented nodes among some, or the first fault of one of them.
def records (crate : Option String) (os : List Occurrence) : Except Fault (List FunctionDoc) :=
  (os.filter fun o => o.Documented).mapM fun o => document o.node (o.symbolPath crate)

theorem records_cons_of_not_documented (crate : Option String) (o : Occurrence) (os : List Occurrence)
    (h : ¬o.Documented) : records crate (o :: os) = records crate os := by
  simp [records, h]

theorem records_cons_of_documented (crate : Option String) (o : Occurrence) (os : List Occurrence)
    (h : o.Documented) :
    records crate (o :: os) =
      (document o.node (o.symbolPath crate)).bind fun doc => (records crate os).map (doc :: ·) := by
  simp only [records, h, decide_true, List.filter_cons_of_pos, List.mapM_cons]
  rfl

theorem foldlM_add_docs (crate : Option String) (os : List Occurrence) (found : Found) :
    ((openFrames crate os).foldlM Found.add found).map (·.docs) =
      (records crate os).map (found.docs ++ ·) := by
  induction os generalizing found with
  | nil => simp [openFrames, records, Except.map, pure, Except.pure]
  | cons o os ih =>
      by_cases hopen : o.Open
      · have hframes : openFrames crate (o :: os) = o.frame crate :: openFrames crate os := by
          simp [openFrames, hopen]
        rw [hframes, List.foldlM_cons]
        by_cases hd : o.Documented
        · rw [add_of_documented crate found o hd, records_cons_of_documented crate o os hd]
          cases document o.node (o.symbolPath crate) with
          | error fault => rfl
          | ok doc =>
              refine (ih { found with docs := found.docs ++ [doc] }).trans ?_
              cases records crate os <;> simp [Except.map, Except.bind]
        · obtain ⟨others, hadd⟩ := add_of_not_documented crate found o hopen hd
          rw [hadd, records_cons_of_not_documented crate o os hd]
          exact ih { found with others := others }
      · have hd : ¬o.Documented := fun hd => hopen hd.open
        have hframes : openFrames crate (o :: os) = openFrames crate os := by simp [openFrames, hopen]
        rw [hframes, records_cons_of_not_documented crate o os hd]
        exact ih found

-- The walk of a whole crate ends with the records of what is documented, or with the first fault
-- among them.
theorem functions_docs (root : Tree) (crate : Option String) :
    (functions root crate).map (·.docs) = records crate (occurrences [] root) := by
  have hstart : (⟨root, rootScope crate, .module⟩ : Frame) = Occurrence.frame crate ⟨[], root⟩ := by
    simp [Occurrence.frame, scopeBelow, lineage, containerBelow]
  have hend : ∀ found, walk [] found = .ok found := fun found => by rw [walk]
  have hwalk : functions root crate =
      (openFrames crate (occurrences [] root)).foldlM Found.add ⟨[], 0⟩ := by
    rw [functions, hstart, walk_frame crate root [] [] ⟨[], 0⟩ (by simp), funext hend]
    exact bind_pure _
  rw [hwalk, foldlM_add_docs]
  cases records crate (occurrences [] root) <;> simp [Except.map]

-- Whether every modifier of a function is one that a record can hold.
def Supported (t : Tree) : Prop :=
  (qualifiersOf t).isOk ∧ (visibilityOf t).isOk

instance (t : Tree) : Decidable (Supported t) :=
  inferInstanceAs (Decidable (_ ∧ _))

theorem exists_document {t : Tree} (h : Supported t) (path : List String) :
    ∃ doc, document t path = .ok doc ∧ doc.path = path := by
  obtain ⟨hq, hv⟩ := h
  cases hqualifiers : qualifiersOf t with
  | error fault => simp [hqualifiers, Except.isOk, Except.toBool] at hq
  | ok qualifiers =>
      cases hvisibility : visibilityOf t with
      | error fault => simp [hvisibility, Except.isOk, Except.toBool] at hv
      | ok visibility =>
          exact ⟨_, by simp only [document, hqualifiers, hvisibility]; rfl, rfl⟩

theorem mapM_document (crate : Option String) (os : List Occurrence)
    (h : ∀ o ∈ os, Supported o.node) :
    ∃ docs, (os.mapM fun o => document o.node (o.symbolPath crate)) = .ok docs ∧
      docs.map (·.path) = os.map (Occurrence.symbolPath crate) ∧
      docs.map .ok = os.map fun o => document o.node (o.symbolPath crate) := by
  induction os with
  | nil => exact ⟨[], rfl, rfl, rfl⟩
  | cons o os ih =>
      obtain ⟨doc, hdoc, hpath⟩ := exists_document (h o List.mem_cons_self) (o.symbolPath crate)
      obtain ⟨docs, hdocs, hpaths, hall⟩ := ih fun u hu => h u (List.mem_cons_of_mem o hu)
      refine ⟨doc :: docs, ?_, ?_, ?_⟩
      · rw [List.mapM_cons, hdoc, hdocs]
        rfl
      · rw [List.map_cons, List.map_cons, hpath, hpaths]
      · rw [List.map_cons, List.map_cons, hdoc, hall]

-- The walk with an explicit stack documents exactly the free functions that the tree shows, in the
-- order they are written in, under the names of the nodes above them.
theorem functions_eq_documented (root : Tree) (crate : Option String)
    (h : ∀ o ∈ documented root, Supported o.node) :
    ∃ found, functions root crate = .ok found ∧
      found.docs.map (·.path) = (documented root).map (Occurrence.symbolPath crate) ∧
      found.docs.map .ok = (documented root).map fun o => document o.node (o.symbolPath crate) := by
  obtain ⟨docs, hdocs, hpaths, hall⟩ := mapM_document crate (documented root) h
  have hfunctions := functions_docs root crate
  rw [records] at hfunctions
  rw [documented] at hdocs
  rw [hdocs] at hfunctions
  cases hfound : functions root crate with
  | error fault => rw [hfound] at hfunctions; cases hfunctions
  | ok found =>
      rw [hfound] at hfunctions
      obtain rfl : found.docs = docs := Except.ok.inj hfunctions
      exact ⟨found, rfl, hpaths, hall⟩

-- A node with a name, or without one if it is empty.
def plainNode (kind name : String) (children : List Tree) : Tree :=
  ⟨kind, if name = "" then [] else [("name", name)], name, name, ⟨⟨.here, []⟩, ⟨1, 1⟩, ⟨1, 1⟩⟩, children⟩

-- Functions in a method, in a constant among methods, in a macro and in a module's own list.
def nestedFunctions : Tree :=
  plainNode "source_file" "" [
    plainNode "mod_item" "r#mod" [
      plainNode "impl_item" "" [
        plainNode "function_item" "method" [plainNode "block" "" [plainNode "function_item" "inner" []]],
        plainNode "const_item" "LIMIT" [plainNode "block" "" [plainNode "function_item" "start" []]]]],
    plainNode "macro_invocation" "" [plainNode "function_item" "hidden" []],
    plainNode "function_item" "main" []]

theorem functions_nestedFunctions :
    (∀ o ∈ documented nestedFunctions, Supported o.node) ∧
      ∃ found, functions nestedFunctions (some "my-crate") = .ok found ∧
        found.docs.map (·.path) =
          [["my_crate", "mod", "method", "inner"], ["my_crate", "mod", "start"], ["my_crate", "main"]] := by
  have hsupported : ∀ o ∈ documented nestedFunctions, Supported o.node := by decide +kernel
  have hpaths : (documented nestedFunctions).map (Occurrence.symbolPath (some "my-crate")) =
      [["my_crate", "mod", "method", "inner"], ["my_crate", "mod", "start"], ["my_crate", "main"]] := by
    decide +kernel
  obtain ⟨found, hfound, hdocs, _⟩ :=
    functions_eq_documented nestedFunctions (some "my-crate") hsupported
  exact ⟨hsupported, found, hfound, hdocs.trans hpaths⟩

end CrateDocs.Extract
