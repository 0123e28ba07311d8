import CrateDocs.Syntax.Signature
import Mathlib.Data.List.Sort

namespace CrateDocs.Syntax.Signature

-- The leaves that make up a declaration, told by where they stand in the tree.

-- The node at an address, which is the line of indices that leads to it from child to child.
def nodeAt (n : Node) : List Nat → Option Node
  | [] => some n
  | i :: rest => n.children[i]?.bind fun c => nodeAt c rest

-- A leaf: a node with nothing below it or taken whole, that stands in no comment and no literal.
structure LeafAt (n : Node) (address : List Nat) (leaf : Node) : Prop where
  there : nodeAt n address = some leaf
  whole : leaf.children = [] ∨ isAtomic leaf.kind = true
  literal : ∀ q m, q <+: address → q ≠ address → nodeAt n q = some m → isAtomic m.kind = false
  comment : ∀ q m, q <+: address → nodeAt n q = some m → m.isComment = false

-- The index of the child that is the body of a declaration.
def bodyIndex? (n : Node) : Option Nat :=
  n.children.findIdx? fun child => child.field == some "body"

-- The leaves of a declaration outside its body, from left to right.
def LeafSequence (n : Node) (leaves : List Node) : Prop :=
  ∃ placed : List (List Nat × Node), placed.Pairwise (fun a b => a.1 < b.1) ∧
    (∀ address leaf, (address, leaf) ∈ placed ↔
      LeafAt n address leaf ∧ ∀ i, address.head? = some i → bodyIndex? n ≠ some i) ∧
    leaves = placed.map (·.2)

variable {n leaf : Node} {address : List Nat}

theorem leafAt_nil : LeafAt n [] leaf ↔
    leaf = n ∧ n.isComment = false ∧ (n.children = [] ∨ isAtomic n.kind = true) := by
  constructor
  · rintro ⟨hthere, hwhole, _, hcomment⟩
    obtain rfl : n = leaf := Option.some.inj hthere
    exact ⟨rfl, hcomment [] n List.nil_prefix rfl, hwhole⟩
  · rintro ⟨rfl, hcomment, hwhole⟩
    refine ⟨rfl, hwhole, ?_, ?_⟩
    · intro q m hq hne
      exact absurd (List.prefix_nil.mp hq) hne
    · intro q m hq hm
      rw [List.prefix_nil.mp hq] at hm
      obtain rfl : leaf = m := Option.some.inj hm
      exact hcomment

theorem leafAt_cons {i : Nat} : LeafAt n (i :: address) leaf ↔
    n.isComment = false ∧ isAtomic n.kind = false ∧ ∃ c, n.children[i]? = some c ∧ LeafAt c address leaf := by
  constructor
  · rintro ⟨hthere, hwhole, hliteral, hcomment⟩
    obtain ⟨c, hc, hthere⟩ := Option.bind_eq_some_iff.mp hthere
    have hbelow : ∀ q, nodeAt n (i :: q) = nodeAt c q := by
      intro q
      rw [nodeAt, hc, Option.bind_some]
    refine ⟨hcomment [] n List.nil_prefix rfl, hliteral [] n List.nil_prefix (by simp) rfl, c, hc, hthere, hwhole, ?_, ?_⟩
    · intro q m hq hne hm
      refine hliteral (i :: q) m ((List.prefix_cons_inj i).mpr hq) ?_ ((hbelow q).trans hm)
      exact fun heq => hne (List.cons.inj heq).2
    · intro q m hq hm
      exact hcomment (i :: q) m ((List.prefix_cons_inj i).mpr hq) ((hbelow q).trans hm)
  · rintro ⟨hcomment, hatomic, c, hc, hleaf⟩
    have hbelow : ∀ q, nodeAt n (i :: q) = nodeAt c q := by
      intro q
      rw [nodeAt, hc, Option.bind_some]
    refine ⟨(hbelow address).trans hleaf.there, hleaf.whole, ?_, ?_⟩
    · intro q m hq hne hm
      rcases List.prefix_cons_iff.mp hq with rfl | ⟨rest, rfl, hrest⟩
      · obtain rfl : n = m := Option.some.inj hm
        exact hatomic
      · refine hleaf.literal rest m hrest ?_ ((hbelow rest).symm.trans hm)
        exact fun heq => hne (by rw [heq])
    · intro q m hq hm
      rcases List.prefix_cons_iff.mp hq with rfl | ⟨rest, rfl, hrest⟩
      · obtain rfl : n = m := Option.some.inj hm
        exact hcomment
      · exact hleaf.comment rest m hrest ((hbelow rest).symm.trans hm)

-- The leaves of a tree with their addresses. Those of a list of nodes have the index of their node in front,
-- counted from `i`.
mutual
def placed : Node → List (List Nat × Node)
  | ⟨kind, start, stop, field, named, missing, children⟩ =>
    if Node.isCommentKind kind then []
    else if children.isEmpty || isAtomic kind then [([], ⟨kind, start, stop, field, named, missing, children⟩)]
    else placedIn 0 children
def placedIn (i : Nat) : List Node → List (List Nat × Node)
  | [] => []
  | n :: rest => ((placed n).map fun p => (i :: p.1, p.2)) ++ placedIn (i + 1) rest
end

mutual
theorem map_placed (n : Node) : (placed n).map (·.2) = leaves n := by
  cases n with
  | mk kind start stop field named missing children =>
      rw [placed, leaves]
      split
      · rfl
      split
      · rfl
      · exact map_placedIn 0 children
theorem map_placedIn (i : Nat) (ns : List Node) : (placedIn i ns).map (·.2) = leavesIn ns := by
  cases ns with
  | nil => rfl
  | cons n rest =>
      rw [placedIn, leavesIn, List.map_append, List.map_map, map_placedIn (i + 1) rest, ← map_placed n]
      rfl
end

mutual
theorem mem_placed (n : Node) (address : List Nat) (leaf : Node) :
    (address, leaf) ∈ placed n ↔ LeafAt n address leaf := by
  cases n with
  | mk kind start stop field named missing children =>
      have hbelow := mem_placedIn 0 children
      rw [placed]
      by_cases hcomment : Node.isCommentKind kind = true
      · cases address <;> simp [leafAt_nil, leafAt_cons, Node.isComment, hcomment]
      by_cases hempty : children = []
      · cases address <;> simp [leafAt_nil, leafAt_cons, Node.isComment, hcomment, hempty]
      by_cases hatomic : isAtomic kind = true
      · cases address <;> simp [leafAt_nil, leafAt_cons, Node.isComment, hcomment, hatomic]
      · cases address <;> simp [leafAt_nil, leafAt_cons, Node.isComment, hcomment, hempty, hatomic, hbelow]
theorem mem_placedIn (i : Nat) (ns : List Node) (address : List Nat) (leaf : Node) :
    (address, leaf) ∈ placedIn i ns ↔
      ∃ j c rest, address = (i + j) :: rest ∧ ns[j]? = some c ∧ LeafAt c rest leaf := by
  cases ns with
  | nil => simp [placedIn]
  | cons n ns =>
      have hhead := mem_placed n
      have htail := mem_placedIn (i + 1) ns address leaf
      rw [placedIn, List.mem_append, htail, List.mem_map]
      constructor
      · rintro (⟨⟨rest, l⟩, hl, heq⟩ | ⟨j, c, rest, rfl, hc, hleaf⟩)
        · obtain ⟨rfl, rfl⟩ := Prod.mk.inj heq
          exact ⟨0, n, rest, rfl, rfl, (hhead rest l).mp hl⟩
        · exact ⟨j + 1, c, rest, by rw [Nat.add_assoc, Nat.add_comm 1 j], hc, hleaf⟩
      · rintro ⟨j, c, rest, rfl, hc, hleaf⟩
        cases j with
        | zero =>
            obtain rfl : n = c := Option.some.inj hc
            exact .inl ⟨(rest, leaf), (hhead rest leaf).mpr hleaf, rfl⟩
        | succ j => exact .inr ⟨j, c, rest, by rw [Nat.add_assoc, Nat.add_comm 1 j], hc, hleaf⟩
end

-- The addresses stand in order: those below one child all come before those below the next.
mutual
theorem pairwise_placed (n : Node) : (placed n).Pairwise fun a b => a.1 < b.1 := by
  cases n with
  | mk kind start stop field named missing children =>
      have hbelow := pairwise_placedIn 0 children
      rw [placed]
      split
      · exact .nil
      split
      · exact List.pairwise_singleton _ _
      · exact hbelow
theorem pairwise_placedIn (i : Nat) (ns : List Node) : (placedIn i ns).Pairwise fun a b => a.1 < b.1 := by
  cases ns with
  | nil => exact .nil
  | cons n ns =>
      have hhead := pairwise_placed n
      have htail := pairwise_placedIn (i + 1) ns
      rw [placedIn, List.pairwise_append, List.pairwise_map]
      refine ⟨hhead.imp fun h => List.cons_lt_cons_iff.mpr (.inr ⟨rfl, h⟩), htail, ?_⟩
      rintro a ha ⟨address, leaf⟩ hb
      obtain ⟨p, _, rfl⟩ := List.mem_map.mp ha
      obtain ⟨j, c, rest, rfl, _, _⟩ := (mem_placedIn (i + 1) ns address leaf).mp hb
      exact List.cons_lt_cons_iff.mpr (.inl (by omega))
end

-- Leaving out what is below one child is taking that child out.
theorem map_filter_placedIn (i b : Nat) (ns : List Node) :
    ((placedIn i ns).filter fun p => p.1.head? != some (i + b)).map (·.2) = leavesIn (ns.eraseIdx b) := by
  induction ns generalizing i b with
  | nil => rfl
  | cons n ns ih =>
      rw [placedIn, List.filter_append, List.map_append, List.filter_map, List.map_map]
      cases b with
      | zero =>
          have htail : (placedIn (i + 1) ns).filter (fun p => p.1.head? != some (i + 0)) = placedIn (i + 1) ns := by
            rw [List.filter_eq_self]
            rintro ⟨address, leaf⟩ hp
            obtain ⟨j, c, rest, rfl, _, _⟩ := (mem_placedIn (i + 1) ns address leaf).mp hp
            simp [Nat.add_assoc]
          rw [htail, map_placedIn, List.eraseIdx_cons_zero]
          simp [Function.comp_def]
      | succ b =>
          have hindex : i + (b + 1) = i + 1 + b := by omega
          rw [hindex, ih, List.eraseIdx_cons_succ, leavesIn, ← map_placed n]
          have hhead : (some i != some (i + 1 + b)) = true := by
            simp only [bne_iff_ne, ne_eq, Option.some.injEq]
            omega
          simp [Function.comp_def, hhead]

-- A leaf of a declaration is outside its body.
def outsideBody (n : Node) (p : List Nat × Node) : Bool :=
  p.1.head?.all fun i => bodyIndex? n != some i

theorem outsideBody_iff {p : List Nat × Node} :
    outsideBody n p = true ↔ ∀ i, p.1.head? = some i → bodyIndex? n ≠ some i := by
  rw [outsideBody]
  cases p.1.head? <;> simp

theorem leavesIn_withoutBody (n : Node) :
    leavesIn (withoutBody n.children) = ((placedIn 0 n.children).filter (outsideBody n)).map (·.2) := by
  rw [withoutBody, List.eraseP_eq_eraseIdx]
  cases hbody : n.children.findIdx? fun child => child.field == some "body" with
  | none =>
      have hall : (placedIn 0 n.children).filter (outsideBody n) = placedIn 0 n.children := by
        rw [List.filter_eq_self]
        intro p _
        rw [outsideBody_iff, bodyIndex?, hbody]
        simp
      rw [hall, map_placedIn]
  | some b =>
      have hother : ∀ p ∈ placedIn 0 n.children, outsideBody n p = (p.1.head? != some (0 + b)) := by
        rintro ⟨address, leaf⟩ hp
        obtain ⟨j, c, rest, rfl, _, _⟩ := (mem_placedIn 0 n.children address leaf).mp hp
        rw [outsideBody, bodyIndex?, hbody]
        simp only [List.head?_cons, Option.all_some, Nat.zero_add]
        exact bne_comm
      rw [List.filter_congr hother, map_filter_placedIn]

theorem map_filter_placed (n : Node) : ((placed n).filter (outsideBody n)).map (·.2) = declarationLeaves n := by
  have hplaced : placed n = if n.isComment then [] else if isLeaf n then [([], n)] else placedIn 0 n.children := by
    cases n
    rw [placed]
    rfl
  rw [hplaced, declarationLeaves_eq]
  split
  · rfl
  split
  · rfl
  · rw [leavesIn_withoutBody]

theorem leafSequence_iff {n : Node} {ls : List Node} : LeafSequence n ls ↔ ls = declarationLeaves n := by
  have hmem : ∀ address leaf, (address, leaf) ∈ (placed n).filter (outsideBody n) ↔
      LeafAt n address leaf ∧ ∀ i, address.head? = some i → bodyIndex? n ≠ some i := by
    intro address leaf
    rw [List.mem_filter, mem_placed, outsideBody_iff]
  have hordered := (pairwise_placed n).filter (outsideBody n)
  rw [← map_filter_placed]
  constructor
  · rintro ⟨found, hfound, hfoundMem, rfl⟩
    let before (a b : List Nat × Node) : Prop := a.1 < b.1
    have : Std.Irrefl before := ⟨fun a => List.lt_irrefl a.1⟩
    have : Std.Antisymm before := ⟨fun a b hab hba => absurd hba (List.lt_asymm hab)⟩
    rw [List.Pairwise.eq_of_mem_iff (r := before) hfound hordered fun p => (hfoundMem p.1 p.2).trans (hmem p.1 p.2).symm]
  · rintro rfl
    exact ⟨_, hordered, hmem, rfl⟩

-- What a leaf gives to the text of a declaration: its own text, and whether anything stands between it and the
-- next leaf.
structure Piece where
  text : String
  gap : Bool
deriving DecidableEq, Repr

def pieces (s : Source) : List Node → List Piece
  | [] => []
  | [leaf] => [⟨s.text leaf, false⟩]
  | leaf :: next :: rest => ⟨s.text leaf, leaf.stop < next.start⟩ :: pieces s (next :: rest)

-- The texts of pieces, with one blank in each gap.
def joined : List Piece → String
  | [] => ""
  | p :: rest => p.text ++ (if p.gap then " " else "") ++ joined rest

theorem spaced_cons (s : Source) (last : Option Nat) (leaf : Node) (rest : List Node) :
    spaced s last (leaf :: rest) =
      (if last.any (· < leaf.start) then " " else "") ++ joined (pieces s (leaf :: rest)) := by
  induction rest generalizing last leaf with
  | nil => simp [spaced, pieces, joined]
  | cons next rest ih =>
      rw [spaced, ih, pieces, joined]
      simp [String.append_assoc]

theorem spaced_eq_joined (s : Source) (leaves : List Node) : spaced s none leaves = joined (pieces s leaves) := by
  cases leaves with
  | nil => rfl
  | cons leaf rest => simp [spaced_cons]

-- Whether there is anything between a leaf and the next.
def Separated (leaves : List Node) (i : Nat) : Prop :=
  ∃ a b, leaves[i]? = some a ∧ leaves[i + 1]? = some b ∧ a.stop < b.start

theorem separated_zero {a b : Node} {rest : List Node} : Separated (a :: b :: rest) 0 ↔ a.stop < b.start := by
  simp [Separated]

theorem pieces_eq {s s' : Source} {ls ls' : List Node} (htexts : ls.map s.text = ls'.map s'.text)
    (hgaps : ∀ i, Separated ls i ↔ Separated ls' i) : pieces s ls = pieces s' ls' := by
  induction ls generalizing ls' with
  | nil =>
      rw [List.map_nil, eq_comm, List.map_eq_nil_iff] at htexts
      rw [htexts, pieces, pieces]
  | cons a rest ih =>
      obtain ⟨a', rest', rfl, htext, hrest⟩ := List.map_eq_cons_iff.mp htexts.symm
      have htail := ih hrest.symm fun i => hgaps (i + 1)
      cases rest with
      | nil =>
          obtain rfl : rest' = [] := List.map_eq_nil_iff.mp hrest
          rw [pieces, pieces, htext]
      | cons b rest =>
          obtain ⟨b', rest', rfl, _, _⟩ := List.map_eq_cons_iff.mp hrest
          have hgap : decide (a.stop < b.start) = decide (a'.stop < b'.start) :=
            decide_eq_decide.mpr (separated_zero.symm.trans ((hgaps 0).trans separated_zero))
          rw [pieces, pieces, htext, hgap, htail]

-- A signature depends on nothing but the texts of the leaves and on which neighbours are apart: declarations that
-- agree in these are rendered alike, in whatever files, trees and layouts they stand.
theorem ofNode_of_same_leaves {s s' : Source} {n n' : Node} {ls ls' : List Node} (h : LeafSequence n ls)
    (h' : LeafSequence n' ls') (htexts : ls.map s.text = ls'.map s'.text)
    (hgaps : ∀ i, Separated ls i ↔ Separated ls' i) :
    ofNode s n = ofNode s' n' ∧ ofNode s n = tidy (joined (pieces s ls)) := by
  obtain rfl := leafSequence_iff.mp h
  obtain rfl := leafSequence_iff.mp h'
  have hrendered : ∀ (s : Source) (n : Node), ofNode s n = tidy (joined (pieces s (declarationLeaves n))) := by
    intro s n
    rw [ofNode, spaced_eq_joined]
  rw [hrendered, hrendered, pieces_eq htexts hgaps]
  exact ⟨rfl, rfl⟩

-- Two layouts of one declaration, the first with a comment between two of its leaves.

def firstLayout : Source := ⟨⟨.here, ["a.rs"]⟩, Utf8.encode "fn f( /* c */ a,\n) \x7b\x7d"⟩
def secondLayout : Source := ⟨⟨.here, ["b.rs"]⟩, Utf8.encode "fn\tf(\na, ) \x7b 1 \x7d"⟩

def sampleName : Node := ⟨"identifier", 3, 4, some "name", true, false, []⟩

def firstDeclaration : Node :=
  ⟨"function_item", 0, 21, none, true, false, [
    .leaf "fn" 0 2 false, sampleName,
    ⟨"parameters", 4, 18, some "parameters", true, false, [
      .leaf "(" 4 5 false,
      ⟨"block_comment", 6, 13, none, true, false, [.leaf "/*" 6 8 false, .leaf "*/" 11 13 false]⟩,
      .leaf "type_identifier" 14 15 true, .leaf "," 15 16 false, .leaf ")" 17 18 false]⟩,
    ⟨"block", 19, 21, some "body", true, false, [.leaf "\x7b" 19 20 false, .leaf "\x7d" 20 21 false]⟩]⟩

def secondDeclaration : Node :=
  ⟨"function_item", 0, 16, none, true, false, [
    .leaf "fn" 0 2 false, sampleName,
    ⟨"parameters", 4, 10, some "parameters", true, false, [
      .leaf "(" 4 5 false, .leaf "type_identifier" 6 7 true, .leaf "," 7 8 false, .leaf ")" 9 10 false]⟩,
    ⟨"block", 11, 16, some "body", true, false, [
      .leaf "\x7b" 11 12 false, .leaf "integer_literal" 13 14 true, .leaf "\x7d" 15 16 false]⟩]⟩

def firstLeaves : List Node :=
  [.leaf "fn" 0 2 false, sampleName, .leaf "(" 4 5 false, .leaf "type_identifier" 14 15 true, .leaf "," 15 16 false,
    .leaf ")" 17 18 false]

def secondLeaves : List Node :=
  [.leaf "fn" 0 2 false, sampleName, .leaf "(" 4 5 false, .leaf "type_identifier" 6 7 true, .leaf "," 7 8 false,
    .leaf ")" 9 10 false]

theorem ofNode_two_layouts :
    LeafSequence firstDeclaration firstLeaves ∧ LeafSequence secondDeclaration secondLeaves ∧
      firstLeaves.map firstLayout.text = secondLeaves.map secondLayout.text ∧
      (∀ i, Separated firstLeaves i ↔ Separated secondLeaves i) ∧
      ofNode firstLayout firstDeclaration = ofNode secondLayout secondDeclaration ∧
      ofNode firstLayout firstDeclaration = "fn f(a)" := by
  have hfirst : LeafSequence firstDeclaration firstLeaves := by
    rw [leafSequence_iff, declarationLeaves_eq]
    rfl
  have hsecond : LeafSequence secondDeclaration secondLeaves := by
    rw [leafSequence_iff, declarationLeaves_eq]
    rfl
  have htexts : firstLeaves.map firstLayout.text = secondLeaves.map secondLayout.text := by decide +kernel
  have hgaps : ∀ i, Separated firstLeaves i ↔ Separated secondLeaves i := by
    rintro (_ | _ | _ | _ | _ | _ | i) <;> simp [Separated, firstLeaves, secondLeaves, sampleName, Node.leaf]
  obtain ⟨hsame, htidy⟩ := ofNode_of_same_leaves hfirst hsecond htexts hgaps
  refine ⟨hfirst, hsecond, htexts, hgaps, hsame, ?_⟩
  rw [htidy]
  decide +kernel

end CrateDocs.Syntax.Signature
