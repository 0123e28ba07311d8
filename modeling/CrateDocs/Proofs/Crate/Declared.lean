import CrateDocs.Crate.Load

namespace CrateDocs

namespace Syntax

-- A node of a file's tree: the way to it by the indices of children, and the nodes above it, the
-- root first.
structure Site where
  way : List Nat
  above : List Node
  node : Node

-- The nodes of a tree that is reached by `way` below the nodes `above`, each before those below it.
mutual
def sites (way : List Nat) (above : List Node) : Node → List Site
  | ⟨kind, start, stop, field, named, missing, children⟩ =>
    let n : Node := ⟨kind, start, stop, field, named, missing, children⟩
    ⟨way, above, n⟩ :: sitesIn way 0 (above ++ [n]) children
def sitesIn (way : List Nat) (index : Nat) (above : List Node) : List Node → List Site
  | [] => []
  | n :: rest => sites (way ++ [index]) above n ++ sitesIn way (index + 1) above rest
end

theorem sites_eq (way : List Nat) (above : List Node) (n : Node) :
    sites way above n = ⟨way, above, n⟩ :: sitesIn way 0 (above ++ [n]) n.children := by
  cases n
  rfl

-- Every node has a way of its own.
mutual
theorem way_of_mem_sites (n : Node) {way : List Nat} {above : List Node} {site : Site}
    (h : site ∈ sites way above n) : ∃ rest, site.way = way ++ rest := by
  cases n with
  | mk kind start stop field named missing children =>
      rw [sites, List.mem_cons] at h
      cases h with
      | inl h => exact ⟨[], by rw [h, List.append_nil]⟩
      | inr h =>
          obtain ⟨index, rest, _, hway⟩ := way_of_mem_sitesIn children h
          exact ⟨index :: rest, hway⟩
theorem way_of_mem_sitesIn (ns : List Node) {way : List Nat} {index : Nat} {above : List Node}
    {site : Site} (h : site ∈ sitesIn way index above ns) :
    ∃ i rest, index ≤ i ∧ site.way = way ++ i :: rest := by
  cases ns with
  | nil => simp [sitesIn] at h
  | cons n ns =>
      rw [sitesIn, List.mem_append] at h
      cases h with
      | inl h =>
          obtain ⟨rest, hway⟩ := way_of_mem_sites n h
          exact ⟨index, rest, Nat.le_refl _, by rw [hway, List.append_assoc, List.singleton_append]⟩
      | inr h =>
          obtain ⟨i, rest, hi, hway⟩ := way_of_mem_sitesIn ns h
          exact ⟨i, rest, by omega, hway⟩
end

mutual
theorem nodup_ways (n : Node) (way : List Nat) (above : List Node) :
    ((sites way above n).map (·.way)).Nodup := by
  cases n with
  | mk kind start stop field named missing children =>
      rw [sites, List.map_cons, List.nodup_cons]
      refine ⟨fun hmem => ?_, nodup_waysIn children way 0 _⟩
      obtain ⟨site, hsite, hway⟩ := List.mem_map.mp hmem
      obtain ⟨i, rest, _, hlonger⟩ := way_of_mem_sitesIn children hsite
      rw [hlonger] at hway
      simp at hway
theorem nodup_waysIn (ns : List Node) (way : List Nat) (index : Nat) (above : List Node) :
    ((sitesIn way index above ns).map (·.way)).Nodup := by
  cases ns with
  | nil => simp [sitesIn]
  | cons n ns =>
      rw [sitesIn, List.map_append, List.nodup_append]
      refine ⟨nodup_ways n _ above, nodup_waysIn ns way (index + 1) above, ?_⟩
      intro one hone other hother heq
      obtain ⟨site, hsite, rfl⟩ := List.mem_map.mp hone
      obtain ⟨site', hsite', rfl⟩ := List.mem_map.mp hother
      obtain ⟨rest, hway⟩ := way_of_mem_sites n hsite
      obtain ⟨i, rest', hi, hway'⟩ := way_of_mem_sitesIn ns hsite'
      rw [hway, hway', List.append_assoc, List.append_cancel_left_eq, List.singleton_append,
        List.cons.injEq] at heq
      omega
end

namespace Node

-- The first of some nodes that fills the field of a body, with its index.
def firstBody? : List Node → Option (Nat × Node)
  | [] => none
  | n :: rest =>
    if n.field == some "body" then some (0, n) else (firstBody? rest).map fun (b, body) => (b + 1, body)

def body? (n : Node) : Option (Nat × Node) :=
  firstBody? n.children

theorem firstBody?_eq_some {ns : List Node} {b : Nat} {body : Node} (h : firstBody? ns = some (b, body)) :
    ns[b]? = some body := by
  induction ns generalizing b with
  | nil => cases h
  | cons n ns ih =>
      rw [firstBody?] at h
      split at h
      · cases h
        rfl
      · obtain ⟨⟨b', body'⟩, hfirst, heq⟩ := Option.map_eq_some_iff.mp h
        cases heq
        rw [List.getElem?_cons_succ]
        exact ih hfirst

theorem map_firstBody? (ns : List Node) :
    (firstBody? ns).map (·.2) = ns.find? fun child => child.field == some "body" := by
  induction ns with
  | nil => rfl
  | cons n ns ih =>
      rw [firstBody?, List.find?_cons]
      cases n.field == some "body" with
      | true => rfl
      | false => simpa [Function.comp_def] using ih

theorem body?_eq_none_iff (n : Node) : n.body? = none ↔ n.child? "body" = none := by
  rw [body?, child?, ← map_firstBody?, Option.map_eq_none_iff]

-- A module declaration that has a name.
def IsModule (n : Node) : Prop :=
  n.named = true ∧ n.kind = "mod_item" ∧ n.child? "name" ≠ none

-- Induction over the nodes that hold declarations: what holds of the bodies of a node's modules holds
-- of the node.
theorem holder_induction {motive : Node → Prop}
    (h : ∀ c : Node, (∀ n ∈ c.children, ∀ b body, n.body? = some (b, body) → motive body) → motive c)
    (c : Node) : motive c := by
  have hsmaller : ∀ {n c : Node}, n ∈ c.children → sizeOf n < sizeOf c := by
    intro n c hn
    cases c with
    | mk kind start stop field named missing children =>
        have hlt : sizeOf n < sizeOf children := List.sizeOf_lt_of_mem hn
        rw [mk.sizeOf_spec]
        omega
  refine (measure (sizeOf : Node → Nat)).wf.induction c fun c ih => h c ?_
  intro n hn b body hbody
  have hmem : body ∈ n.children := List.mem_of_getElem? (firstBody?_eq_some hbody)
  exact ih body (Nat.lt_trans (hsmaller hmem) (hsmaller hn))

-- The nodes at module level below a node that holds declarations: its named children, and what is at
-- module level in the body of one of them that is a module.
inductive ModuleLevel : Node → List Nat → Node → Prop
  | child {c n : Node} {i : Nat} (hn : c.children[i]? = some n) (hnamed : n.named = true) :
      ModuleLevel c [i] n
  | inner {c n body m : Node} {i b : Nat} {way : List Nat} (hn : c.children[i]? = some n)
      (hmodule : n.IsModule) (hbody : n.body? = some (b, body)) (hm : ModuleLevel body way m) :
      ModuleLevel c (i :: b :: way) m

-- The declarations of modules that are in files of their own: at module level, with a name and
-- without a body.
def DeclaresFile (root : Node) (way : List Nat) : Prop :=
  ∃ n, ModuleLevel root way n ∧ n.IsModule ∧ n.child? "body" = none

end Node

end Syntax

namespace Crate

open Syntax (Node Source Tree Site sites sitesIn sites_eq)

-- A declaration of a module that is in a file of its own: the name of the module, the names of the
-- modules with a body around it, and the nodes before it, nearest first.
structure Declaration where
  site : Site
  name : String
  outer : List String
  before : List Node

-- The declarations among some nodes, in the order they are written in.
mutual
def declaredIn (s : Source) (way : List Nat) (index : Nat) (above : List Node) (outer : List String)
    (before : List Node) : List Node → List Declaration
  | [] => []
  | n :: rest =>
    declaredBy s (way ++ [index]) above outer before n ++
      declaredIn s way (index + 1) above outer (n :: before) rest
termination_by structural nodes => nodes
def declaredBy (s : Source) (way : List Nat) (above : List Node) (outer : List String)
    (before : List Node) : Node → List Declaration
  | ⟨kind, start, stop, field, named, missing, children⟩ =>
    let n : Node := ⟨kind, start, stop, field, named, missing, children⟩
    match n.child? "name" with
    | some nameNode =>
      if named && kind == "mod_item" then
        declaredBelow s way 0 above outer before n (Text.withoutStart "r#" (s.text nameNode)) children
      else []
    | none => []
termination_by structural n => n
def declaredBelow (s : Source) (way : List Nat) (index : Nat) (above : List Node) (outer : List String)
    (before : List Node) (n : Node) (name : String) : List Node → List Declaration
  | [] => [⟨⟨way, above, n⟩, name, outer, before⟩]
  | ⟨kind, start, stop, field, named, missing, children⟩ :: rest =>
    let c : Node := ⟨kind, start, stop, field, named, missing, children⟩
    if field == some "body" then
      declaredIn s (way ++ [index]) 0 (above ++ [n, c]) (outer ++ [name]) [] children
    else declaredBelow s way (index + 1) above outer before n name rest
termination_by structural children => children
end

-- The declarations below a node that holds them.
def declarations (s : Source) (way : List Nat) (above : List Node) (outer : List String) (c : Node) :
    List Declaration :=
  declaredIn s way 0 (above ++ [c]) outer [] c.children

-- The name of a module.
def moduleName (s : Source) (n : Node) : String :=
  ((n.child? "name").map fun nameNode => Text.withoutStart "r#" (s.text nameNode)).getD ""

theorem declaredBelow_eq (s : Source) (way : List Nat) (index : Nat) (above : List Node)
    (outer : List String) (before : List Node) (n : Node) (name : String) (ns : List Node) :
    declaredBelow s way index above outer before n name ns =
      match Node.firstBody? ns with
      | none => [⟨⟨way, above, n⟩, name, outer, before⟩]
      | some (b, body) => declarations s (way ++ [index + b]) (above ++ [n]) (outer ++ [name]) body := by
  induction ns generalizing index with
  | nil => rfl
  | cons c ns ih =>
      cases c with
      | mk kind start stop field named missing children =>
          rw [declaredBelow, Node.firstBody?]
          by_cases hbody : (field == some "body") = true
          · simp [hbody, declarations]
          · rw [if_neg hbody, if_neg hbody, ih (index + 1)]
            cases Node.firstBody? ns with
            | none => rfl
            | some found => simp [Nat.add_assoc, Nat.add_comm 1]

theorem declaredBy_of_module (s : Source) (way : List Nat) (above : List Node) (outer : List String)
    (before : List Node) {n : Node} (h : n.IsModule) :
    declaredBy s way above outer before n =
      match n.body? with
      | none => [⟨⟨way, above, n⟩, moduleName s n, outer, before⟩]
      | some (b, body) =>
        declarations s (way ++ [b]) (above ++ [n]) (outer ++ [moduleName s n]) body := by
  obtain ⟨hnamed, hkind, hname⟩ := h
  obtain ⟨nameNode, hname⟩ := Option.ne_none_iff_exists'.mp hname
  cases n with
  | mk kind start stop field named missing children =>
      dsimp only at hnamed hkind
      subst hnamed hkind
      rw [declaredBy]
      simp [hname, moduleName, declaredBelow_eq, Node.body?]

theorem declaredBy_of_not_module (s : Source) (way : List Nat) (above : List Node) (outer : List String)
    (before : List Node) {n : Node} (h : ¬n.IsModule) : declaredBy s way above outer before n = [] := by
  cases n with
  | mk kind start stop field named missing children =>
      rw [declaredBy]
      split
      · rename_i nameNode hname
        rw [if_neg]
        intro hmodule
        simp only [Bool.and_eq_true, beq_iff_eq] at hmodule
        exact h ⟨hmodule.1, hmodule.2, by simp [hname]⟩
      · rfl

theorem mem_declaredIn_iff (s : Source) (way : List Nat) (index : Nat) (above : List Node)
    (outer : List String) (before ns : List Node) (decl : Declaration) :
    decl ∈ declaredIn s way index above outer before ns ↔
      ∃ i n, ns[i]? = some n ∧
        decl ∈ declaredBy s (way ++ [index + i]) above outer ((ns.take i).reverse ++ before) n := by
  induction ns generalizing index before with
  | nil => simp [declaredIn]
  | cons n ns ih =>
      rw [declaredIn, List.mem_append, ih]
      constructor
      · rintro (h | ⟨i, m, hm, h⟩)
        · exact ⟨0, n, rfl, by simpa using h⟩
        · refine ⟨i + 1, m, by simpa using hm, ?_⟩
          simpa [Nat.add_assoc, Nat.add_comm 1] using h
      · rintro ⟨i, m, hm, h⟩
        cases i with
        | zero =>
            obtain rfl : n = m := by simpa using hm
            exact Or.inl (by simpa using h)
        | succ i =>
            refine Or.inr ⟨i, m, by simpa using hm, ?_⟩
            simpa [Nat.add_assoc, Nat.add_comm 1] using h

-- What a node that holds declarations declares: its modules without a body, and what the bodies of
-- its other modules declare.
theorem mem_declarations_iff (s : Source) (way : List Nat) (above : List Node) (outer : List String)
    (c : Node) (decl : Declaration) :
    decl ∈ declarations s way above outer c ↔
      ∃ (i : Nat) (n : Node), c.children[i]? = some n ∧ n.IsModule ∧
        match n.body? with
        | none =>
          decl = ⟨⟨way ++ [i], above ++ [c], n⟩, moduleName s n, outer, (c.children.take i).reverse⟩
        | some (b, body) =>
          decl ∈ declarations s (way ++ [i, b]) (above ++ [c, n]) (outer ++ [moduleName s n]) body := by
  rw [declarations, mem_declaredIn_iff]
  constructor
  · rintro ⟨i, n, hn, h⟩
    by_cases hmodule : n.IsModule
    · refine ⟨i, n, hn, hmodule, ?_⟩
      rw [declaredBy_of_module s _ _ _ _ hmodule] at h
      cases hbody : n.body? with
      | none => simpa [hbody] using h
      | some found => simpa [hbody] using h
    · rw [declaredBy_of_not_module s _ _ _ _ hmodule] at h
      cases h
  · rintro ⟨i, n, hn, hmodule, h⟩
    refine ⟨i, n, hn, ?_⟩
    rw [declaredBy_of_module s _ _ _ _ hmodule]
    cases hbody : n.body? with
    | none => simpa [hbody] using h
    | some found => simpa [hbody] using h

theorem exists_declaration {s : Source} {c m : Node} {rest : List Nat} (h : Node.ModuleLevel c rest m)
    (hmodule : m.IsModule) (hbody : m.child? "body" = none) (way : List Nat) (above : List Node)
    (outer : List String) :
    ∃ decl ∈ declarations s way above outer c, decl.site.way = way ++ rest := by
  induction h generalizing way above outer with
  | @child c n i hn hnamed =>
      rw [← Node.body?_eq_none_iff] at hbody
      let decl : Declaration :=
        ⟨⟨way ++ [i], above ++ [c], n⟩, moduleName s n, outer, (c.children.take i).reverse⟩
      refine ⟨decl, (mem_declarations_iff s way above outer c decl).mpr ⟨i, n, hn, hmodule, ?_⟩, rfl⟩
      rw [hbody]
  | @inner c n body m i b rest hn houter hinner hm ih =>
      obtain ⟨decl, hdecl, hway⟩ := ih hmodule hbody (way ++ [i, b]) (above ++ [c, n])
        (outer ++ [moduleName s n])
      refine ⟨decl, (mem_declarations_iff s way above outer c decl).mpr ⟨i, n, hn, houter, ?_⟩, ?_⟩
      · rw [hinner]
        exact hdecl
      · rw [hway, List.append_assoc]
        rfl

theorem declaresFile_of_mem {s : Source} (c : Node) {way : List Nat} {above : List Node}
    {outer : List String} {decl : Declaration} (h : decl ∈ declarations s way above outer c) :
    decl.site.node.IsModule ∧ decl.site.node.child? "body" = none ∧
      decl.name = moduleName s decl.site.node ∧
      ∃ rest, decl.site.way = way ++ rest ∧ Node.ModuleLevel c rest decl.site.node := by
  induction c using Node.holder_induction generalizing way above outer with
  | h c ih =>
      obtain ⟨i, n, hn, hmodule, hdecl⟩ := (mem_declarations_iff s way above outer c decl).mp h
      cases hbody : n.body? with
      | none =>
          rw [hbody] at hdecl
          subst hdecl
          exact ⟨hmodule, (Node.body?_eq_none_iff n).mp hbody, rfl, [i], rfl, .child hn hmodule.1⟩
      | some found =>
          obtain ⟨b, body⟩ := found
          rw [hbody] at hdecl
          obtain ⟨hdeclared, hnone, hname, rest, hway, hlevel⟩ :=
            ih n (List.mem_of_getElem? hn) b body hbody hdecl
          refine ⟨hdeclared, hnone, hname, i :: b :: rest, ?_, .inner hn hmodule hbody hlevel⟩
          rw [hway, List.append_assoc]
          rfl

-- The declarations of a file are the sites that declare files.
theorem declaresFile_iff (s : Source) (root : Node) (way : List Nat) :
    root.DeclaresFile way ↔ ∃ decl ∈ declarations s [] [] [] root, decl.site.way = way := by
  constructor
  · rintro ⟨n, hlevel, hmodule, hbody⟩
    exact exists_declaration hlevel hmodule hbody [] [] []
  · rintro ⟨decl, hdecl, rfl⟩
    obtain ⟨hmodule, hbody, _, rest, hway, hlevel⟩ := declaresFile_of_mem root hdecl
    rw [List.nil_append] at hway
    rw [hway]
    exact ⟨_, hlevel, hmodule, hbody⟩

-- The declarations stand among the nodes of the file in the same order.
mutual
theorem declaredIn_sublist (s : Source) (ns : List Node) (way : List Nat) (index : Nat)
    (above : List Node) (outer : List String) (before : List Node) :
    ((declaredIn s way index above outer before ns).map (·.site)).Sublist (sitesIn way index above ns) := by
  cases ns with
  | nil => simp [declaredIn, sitesIn]
  | cons n ns =>
      rw [declaredIn, sitesIn, List.map_append]
      exact (declaredBy_sublist s n _ above outer before).append
        (declaredIn_sublist s ns way (index + 1) above outer (n :: before))
theorem declaredBy_sublist (s : Source) (n : Node) (way : List Nat) (above : List Node)
    (outer : List String) (before : List Node) :
    ((declaredBy s way above outer before n).map (·.site)).Sublist (sites way above n) := by
  cases n with
  | mk kind start stop field named missing children =>
      rw [declaredBy]
      split
      · rename_i nameNode hname
        split
        · rcases declaredBelow_sublist s children way 0 above outer before
            ⟨kind, start, stop, field, named, missing, children⟩ _ with h | h
          · rw [h, sites]
            exact (List.nil_sublist _).cons_cons _
          · rw [sites]
            exact h.cons _
        · exact List.nil_sublist _
      · exact List.nil_sublist _
theorem declaredBelow_sublist (s : Source) (ns : List Node) (way : List Nat) (index : Nat)
    (above : List Node) (outer : List String) (before : List Node) (n : Node) (name : String) :
    (declaredBelow s way index above outer before n name ns).map (·.site) = [⟨way, above, n⟩] ∨
      ((declaredBelow s way index above outer before n name ns).map (·.site)).Sublist
        (sitesIn way index (above ++ [n]) ns) := by
  cases ns with
  | nil => exact Or.inl rfl
  | cons c ns =>
      cases c with
      | mk kind start stop field named missing children =>
          rw [declaredBelow, sitesIn, sites]
          split
          · refine Or.inr (List.sublist_append_of_sublist_left (List.Sublist.cons _ ?_))
            have h := declaredIn_sublist s children (way ++ [index]) 0
              (above ++ [n, ⟨kind, start, stop, field, named, missing, children⟩]) (outer ++ [name]) []
            simpa using h
          · rcases declaredBelow_sublist s ns way (index + 1) above outer before n name with h | h
            · exact Or.inl h
            · exact Or.inr (List.sublist_append_of_sublist_right h)
end

theorem declarations_sublist (s : Source) (root : Node) :
    ((declarations s [] [] [] root).map (·.site)).Sublist (sites [] [] root) := by
  rw [sites_eq]
  exact (declaredIn_sublist s root.children [] 0 _ [] []).cons _

end Crate

end CrateDocs
