import CrateDocs.Proofs.Cache.Contents
import CrateDocs.Proofs.FunctionDoc.RoundTrip
import CrateDocs.Proofs.Package.Version
import CrateDocs.Query.Resolve
import Mathlib.Data.List.Perm.Basic

namespace CrateDocs

theorem Text.occursIn_iff (part cs : List Char) : occursIn part cs = true ↔ part <:+: cs := by
  induction cs with
  | nil => simp [occursIn]
  | cons c cs ih => rw [occursIn, Bool.or_eq_true, ih, List.isPrefixOf_iff_prefix, List.infix_cons_iff]

namespace Query

-- A path that ends in the segments of a query.
def Exact (query path : List String) : Prop :=
  query <:+ path

-- A path that ends in the segments of a query but its last, and then in a segment which that last
-- one is part of.
def Partial (query path : List String) : Prop :=
  ∃ front segment part, path = front ++ query.dropLast ++ [segment] ∧ query.getLast? = some part ∧
    part.toList <:+: segment.toList

variable {query path : List String}

theorem isExact_iff (hquery : query ≠ []) : isExact path query = true ↔ Exact query path := by
  simp [isExact, Exact, hquery]

theorem isPartial_iff : isPartial path query = true ↔ Partial query path := by
  constructor
  · intro h
    rw [isPartial] at h
    split at h
    · rename_i segment part hsegment hpart
      rw [Bool.and_eq_true, List.isSuffixOf_iff_suffix, Text.occursIn_iff] at h
      obtain ⟨⟨front, hfront⟩, hinfix⟩ := h
      refine ⟨front, segment, part, ?_, hpart, hinfix⟩
      rw [hfront, List.dropLast_append_getLast? segment hsegment]
    · cases h
  · rintro ⟨front, segment, part, rfl, hpart, hinfix⟩
    simp only [isPartial, List.getLast?_concat, hpart, List.dropLast_concat, Bool.and_eq_true,
      List.isSuffixOf_iff_suffix, Text.occursIn_iff]
    exact ⟨List.suffix_append front _, hinfix⟩

theorem Exact.partial (h : Exact query path) (hquery : query ≠ []) : Partial query path := by
  obtain ⟨front, rfl⟩ := h
  obtain ⟨part, hpart⟩ := Option.ne_none_iff_exists'.mp (mt List.getLast?_eq_none_iff.mp hquery)
  refine ⟨front, part, part, ?_, hpart, List.infix_rfl⟩
  rw [List.append_assoc, List.dropLast_append_getLast? part hpart]

-- The paths that a policy selects. Whether the fallback is taken is decided over all packages.
def Selected (policy : MatchPolicy) (installed : Installed) (query path : List String) : Prop :=
  let anyExact := ∃ entry ∈ installed, ∃ doc ∈ entry.2, Exact query doc.path
  match policy with
  | .exact => Exact query path
  | .substring => Partial query path
  | .exactThenSubstring => anyExact ∧ Exact query path ∨ ¬anyExact ∧ Partial query path

-- A function of a package, told apart from others like it by its position among all of the package.
structure Place where
  package : Package
  position : Nat
  doc : FunctionDoc
deriving DecidableEq

namespace Place

def found (place : Place) : Match :=
  ⟨place.package, place.doc⟩

-- Whether a function is among those of some packages.
def In (installed : Installed) (place : Place) : Prop :=
  ∃ docs, (place.package, docs) ∈ installed ∧ docs[place.position]? = some place.doc

-- Whether one function is listed before another: by the names of their packages, the versions, the
-- keys, and at last by position.
def Before (a b : Place) : Prop :=
  ∃ k l, Version.key a.package.version = .ok k ∧ Version.key b.package.version = .ok l ∧
    (Ord.compare a.package.name b.package.name).then ((k.compare l).then
      ((Ord.compare a.package.key b.package.key).then (Ord.compare a.position b.position))) = .lt

theorem not_before_self (a : Place) : ¬a.Before a := by
  rintro ⟨k, l, hk, hl, h⟩
  obtain rfl := Except.ok.inj (hk.symm.trans hl)
  simp [Std.ReflCmp.compare_self] at h

end Place

-- A list that has every selected function of some packages exactly once, in the order of packages and
-- positions.
def Lists (policy : MatchPolicy) (installed : Installed) (query : List String) (found : List Match) : Prop :=
  ∃ places : List Place, found = places.map Place.found ∧ places.Nodup ∧ places.Pairwise Place.Before ∧
    ∀ place, place ∈ places ↔ place.In installed ∧ Selected policy installed query place.doc.path

-- The functions whose paths satisfy `p`, with their positions.
def places (installed : Installed) (p : List String → Bool) : List Place :=
  installed.flatMap fun (package, docs) =>
    (docs.zipIdx.filter fun item => p item.1.path).map fun item => ⟨package, item.2, item.1⟩

theorem collect_eq (installed : Installed) (p : List String → Bool) :
    collect installed p = (places installed p).map Place.found := by
  rw [collect, places, List.map_flatMap]
  congr 1
  funext ⟨package, docs⟩
  have hdocs : docs.filter (fun doc => p doc.path) =
      (docs.zipIdx.filter fun item => p item.1.path).map (·.1) := by
    conv_lhs => rw [← List.zipIdx_map_fst 0 docs, List.filter_map]
    rfl
  simp only [hdocs, List.map_map]
  rfl

theorem mem_places_iff {installed : Installed} {p : List String → Bool} {place : Place} :
    place ∈ places installed p ↔ place.In installed ∧ p place.doc.path = true := by
  simp only [places, List.mem_flatMap, List.mem_map, List.mem_filter, Place.In]
  constructor
  · rintro ⟨⟨package, docs⟩, hentry, ⟨doc, position⟩, ⟨hitem, hp⟩, rfl⟩
    exact ⟨⟨docs, hentry, List.mem_zipIdx_iff_getElem?.mp hitem⟩, hp⟩
  · rintro ⟨⟨docs, hentry, hitem⟩, hp⟩
    exact ⟨(place.package, docs), hentry, (place.doc, place.position),
      ⟨List.mem_zipIdx_iff_getElem?.mpr hitem, hp⟩, rfl⟩

-- The order of packages: by name, by version, and at last by key.
def Precedes (a b : Package × List FunctionDoc) : Prop :=
  ∃ k l, Version.key a.1.version = .ok k ∧ Version.key b.1.version = .ok l ∧
    (Ord.compare a.1.name b.1.name).then ((k.compare l).then (Ord.compare a.1.key b.1.key)) = .lt

theorem pairwise_places {installed : Installed} (hkeys : ∀ entry ∈ installed, ∃ k, Version.key entry.1.version = .ok k)
    (hordered : installed.Pairwise Precedes) (p : List String → Bool) :
    (places installed p).Pairwise Place.Before := by
  rw [places, List.pairwise_flatMap]
  constructor
  · rintro ⟨package, docs⟩ hentry
    obtain ⟨k, hk⟩ := hkeys _ hentry
    have hpositions : docs.zipIdx.Pairwise fun a b => a.2 < b.2 := by
      rw [List.pairwise_iff_getElem]
      intro i j hi hj hij
      simpa using hij
    rw [List.pairwise_map]
    refine (hpositions.filter _).imp fun {a b} hlt => ⟨k, k, hk, hk, ?_⟩
    simpa [Std.ReflCmp.compare_self] using Nat.compare_eq_lt.mpr hlt
  · refine hordered.imp fun {a b} hab x hx y hy => ?_
    obtain ⟨k, l, hk, hl, hlt⟩ := hab
    obtain ⟨_, _, rfl⟩ := List.mem_map.mp hx
    obtain ⟨_, _, rfl⟩ := List.mem_map.mp hy
    refine ⟨k, l, hk, hl, ?_⟩
    -- The first difference is one of the packages, so the positions do not count.
    rw [← Ordering.then_assoc] at hlt ⊢
    rw [← Ordering.then_assoc, hlt, Ordering.lt_then]

-- What a policy asks of a path, as it is decided for a query.
def selects (policy : MatchPolicy) (installed : Installed) (query path : List String) : Bool :=
  match policy with
  | .exact => isExact path query
  | .substring => isPartial path query
  | .exactThenSubstring =>
    if (collect installed (isExact · query)).isEmpty then isPartial path query else isExact path query

theorem answer_eq (policy : MatchPolicy) (installed : Installed) (query : List String) :
    answer policy installed query = collect installed (selects policy installed query) := by
  cases policy with
  | exact => rfl
  | substring => rfl
  | exactThenSubstring =>
      have hselects : selects .exactThenSubstring installed query = fun path =>
          if (collect installed (isExact · query)).isEmpty then isPartial path query else isExact path query := rfl
      rw [hselects, answer]
      cases (collect installed (isExact · query)).isEmpty <;> rfl

theorem collect_isEmpty_iff (installed : Installed) (hquery : query ≠ []) :
    (collect installed (isExact · query)).isEmpty = false ↔
      ∃ entry ∈ installed, ∃ doc ∈ entry.2, Exact query doc.path := by
  rw [List.isEmpty_eq_false_iff_exists_mem]
  simp only [collect, List.mem_flatMap, List.mem_map, List.mem_filter, isExact_iff hquery]
  constructor
  · rintro ⟨_, entry, hentry, doc, ⟨hdoc, hexact⟩, _⟩
    exact ⟨entry, hentry, doc, hdoc, hexact⟩
  · rintro ⟨entry, hentry, doc, hdoc, hexact⟩
    exact ⟨_, entry, hentry, doc, ⟨hdoc, hexact⟩, rfl⟩

theorem selects_iff (policy : MatchPolicy) (installed : Installed) (hquery : query ≠ []) :
    selects policy installed query path = true ↔ Selected policy installed query path := by
  cases policy with
  | exact => exact isExact_iff hquery
  | substring => exact isPartial_iff
  | exactThenSubstring =>
      have hany := collect_isEmpty_iff installed hquery
      simp only [selects, Selected, ← hany]
      cases (collect installed (isExact · query)).isEmpty with
      | true => simp [isPartial_iff]
      | false => simp [isExact_iff hquery]

-- The blocks that a list of answers is made of are those of packages in order.
theorem lists_answer {installed ordered : Installed} (hperm : ordered.Perm installed)
    (hkeys : ∀ entry ∈ installed, ∃ k, Version.key entry.1.version = .ok k)
    (hordered : ordered.Pairwise Precedes) (policy : MatchPolicy) (hquery : query ≠ []) :
    Lists policy installed query (answer policy ordered query) := by
  have hbefore := pairwise_places (fun entry hentry => hkeys entry (hperm.mem_iff.mp hentry)) hordered
    (selects policy ordered query)
  refine ⟨places ordered (selects policy ordered query), ?_, ?_, hbefore, fun place => ?_⟩
  · rw [answer_eq, collect_eq]
  · refine hbefore.imp fun {a b} hab hsame => ?_
    subst hsame
    exact a.not_before_self hab
  · have hselected : Selected policy ordered query place.doc.path ↔
        Selected policy installed query place.doc.path := by
      simp only [Selected, hperm.mem_iff]
    rw [mem_places_iff, selects_iff policy ordered hquery, hselected]
    simp only [Place.In, hperm.mem_iff]

theorem answer_exact_sublist (installed : Installed) (hquery : query ≠ []) :
    (answer .exact installed query).Sublist (answer .substring installed query) := by
  have hpartial : ∀ path, isExact path query = true → isPartial path query = true := fun path hexact =>
    isPartial_iff.mpr (((isExact_iff hquery).mp hexact).partial hquery)
  simp only [answer, collect]
  induction installed with
  | nil => exact List.Sublist.refl []
  | cons entry installed ih =>
      rw [List.flatMap_cons, List.flatMap_cons]
      refine List.Sublist.append (List.Sublist.map _ ?_) ih
      exact List.monotone_filter_right _ fun doc hdoc => hpartial doc.path hdoc

-- Sorting keeps the order of what compares alike.
theorem pairwise_mergeSort_ties {α : Type} {le : α → α → Bool} {r : α → α → Prop}
    (htrans : ∀ a b c, le a b = true → le b c = true → le a c = true)
    (htotal : ∀ a b, (le a b || le b a) = true) {l : List α} (h : l.Pairwise r) :
    (l.mergeSort le).Pairwise fun a b => le a b = true ∧ (le b a = true → r a b) := by
  rw [List.pairwise_iff_forall_sublist]
  intro a b hab
  have hle := List.pairwise_iff_forall_sublist.mp (List.pairwise_mergeSort htrans htotal l) hab
  refine ⟨hle, fun hba => ?_⟩
  -- What compares like `a` stands in the sorted list as it did before.
  let like : α → Bool := fun x => le a x && le x a
  have hlike : ∀ x y, like x = true → like y = true → le x y = true := by
    intro x y hx hy
    simp only [like, Bool.and_eq_true] at hx hy
    exact htrans x a y hx.2 hy.1
  have hties : (l.filter like).Pairwise fun x y => le x y = true := by
    refine List.Pairwise.imp_of_mem (fun {x y} hx hy _ => ?_) (List.pairwise_of_forall fun _ _ => trivial)
    exact hlike x y (List.of_mem_filter hx) (List.of_mem_filter hy)
  have hsub := (List.sublist_mergeSort htrans htotal hties List.filter_sublist).filter like
  rw [List.filter_filter] at hsub
  simp only [Bool.and_self] at hsub
  have hsame := hsub.eq_of_length ((List.mergeSort_perm l le).filter like).length_eq.symm
  have haa : le a a = true := by simpa using htotal a a
  have hpair : [a, b].filter like = [a, b] := by simp [like, haa, hle, hba]
  have hfound : [a, b].Sublist (l.filter like) := by
    rw [hsame, ← hpair]
    exact hab.filter like
  exact List.pairwise_iff_forall_sublist.mp h (hfound.trans List.filter_sublist)

theorem comesBefore_iff (a b : Package × Version.Key) :
    comesBefore a b = (compareLex (compareOn (·.1.name)) (fun a b => a.2.compare b.2) a b).isLE :=
  rfl

instance : Std.TransCmp (fun a b : Package × Version.Key => a.2.compare b.2) where
  eq_swap := Std.OrientedCmp.eq_swap
  isLE_trans := Std.TransCmp.isLE_trans

theorem comesBefore_trans (a b c : Package × Version.Key) (hab : comesBefore a b = true)
    (hbc : comesBefore b c = true) : comesBefore a c = true := by
  rw [comesBefore_iff] at *
  exact Std.TransCmp.isLE_trans hab hbc

theorem comesBefore_total (a b : Package × Version.Key) : (comesBefore a b || comesBefore b a) = true := by
  rw [comesBefore_iff, comesBefore_iff, Bool.or_eq_true, or_iff_not_imp_left]
  intro hnot
  exact Ordering.isLE_of_eq_lt (Std.OrientedCmp.lt_of_not_isLE hnot)

theorem keyed_of_mapM {installed : Installed} {keyed : List ((Package × List FunctionDoc) × Version.Key)}
    (h : (installed.mapM fun entry => do return (entry, ← Version.key entry.1.version)) = .ok keyed) :
    keyed.map (·.1) = installed ∧ ∀ item ∈ keyed, Version.key item.1.1.version = .ok item.2 := by
  induction Result.mapM_eq_ok_iff.mp h with
  | nil => exact ⟨rfl, nofun⟩
  | @cons entry item installed keyed hitem hrest ih =>
      obtain ⟨hmap, hkeys⟩ := ih (Result.mapM_eq_ok_iff.mpr hrest)
      obtain ⟨k, hk, hitem⟩ := Work.bind_eq_ok hitem
      cases hitem
      exact ⟨by rw [List.map_cons, hmap], List.forall_mem_cons.mpr ⟨hk, hkeys⟩⟩

theorem compare_eq_lt_of_lt {s t : String} (h : s < t) : Ord.compare s t = .lt :=
  compareOfLessAndEq_eq_lt.mpr h

-- Packages that compare alike are in the order of their keys.
theorem precedes_of_comesBefore {a b : (Package × List FunctionDoc) × Version.Key}
    (ha : Version.key a.1.1.version = .ok a.2) (hb : Version.key b.1.1.version = .ok b.2)
    (hle : comesBefore (a.1.1, a.2) (b.1.1, b.2) = true)
    (htie : comesBefore (b.1.1, b.2) (a.1.1, a.2) = true → a.1.1.key < b.1.1.key) : Precedes a.1 b.1 := by
  refine ⟨a.2, b.2, ha, hb, ?_⟩
  rw [comesBefore, Ordering.isLE_iff_eq_lt_or_eq_eq] at hle
  rw [← Ordering.then_assoc]
  rcases hle with hlt | heq
  · rw [hlt, Ordering.lt_then]
  · have hback : comesBefore (b.1.1, b.2) (a.1.1, a.2) = true := by
      rw [comesBefore_iff] at *
      exact Ordering.isLE_of_eq_eq (Std.OrientedCmp.eq_symm heq)
    rw [heq, Ordering.eq_then]
    exact compare_eq_lt_of_lt (htie hback)

theorem exists_inOrder {installed : Installed}
    (hkeys : ∀ entry ∈ installed, ∃ k, Version.key entry.1.version = .ok k)
    (hsorted : installed.Pairwise fun a b => a.1.key < b.1.key) :
    ∃ ordered, inOrder installed = .ok ordered ∧ ordered.Perm installed ∧ ordered.Pairwise Precedes := by
  obtain ⟨keyed, hkeyed⟩ : ∃ keyed,
      (installed.mapM fun entry => do return (entry, ← Version.key entry.1.version)) = .ok keyed := by
    rw [Result.mapM_isOk_iff]
    intro entry hentry
    obtain ⟨k, hk⟩ := hkeys entry hentry
    exact ⟨(entry, k), by rw [hk]; rfl⟩
  obtain ⟨rfl, hitems⟩ := keyed_of_mapM hkeyed
  rw [List.pairwise_map] at hsorted
  let le (a b : (Package × List FunctionDoc) × Version.Key) : Bool := comesBefore (a.1.1, a.2) (b.1.1, b.2)
  have hties := pairwise_mergeSort_ties (fun a b c => comesBefore_trans _ _ _ : ∀ a b c, le a b → le b c → le a c)
    (fun a b => comesBefore_total _ _ : ∀ a b, (le a b || le b a) = true) hsorted
  have hperm := List.mergeSort_perm keyed le
  have hinOrder : inOrder (keyed.map (·.1)) = .ok ((keyed.mergeSort le).map (·.1)) := by
    simp only [inOrder, hkeyed]
    rfl
  refine ⟨_, hinOrder, hperm.map _, ?_⟩
  rw [List.pairwise_map]
  refine hties.imp_of_mem fun {a b} ha hb hab => ?_
  have hmema := hperm.mem_iff.mp ha
  have hmemb := hperm.mem_iff.mp hb
  exact precedes_of_comesBefore (hitems a hmema) (hitems b hmemb) hab.1 hab.2

open Work (Reads)

-- The blocks of some terms, one after the other. A term without segments has none.
def blocks (policy : MatchPolicy) (installed : Installed) (terms : List String) : List Match :=
  ((terms.map segments).filter (· ≠ [])).flatMap (answer policy installed)

theorem reads_answerTerms (policy : MatchPolicy) (installed : Installed) (terms : List String) :
    Reads (answerTerms policy installed terms) fun _ => .ok (blocks policy installed terms) := by
  induction terms with
  | nil => exact Reads.pure []
  | cons term terms ih =>
      rw [answerTerms]
      by_cases hempty : segments term = []
      · have hblocks : blocks policy installed (term :: terms) = blocks policy installed terms := by
          simp [blocks, hempty]
        simp only [hempty, List.isEmpty_nil, if_true]
        rw [hblocks]
        exact Reads.note_bind _ ih
      · have hblocks : blocks policy installed (term :: terms) =
            answer policy installed (segments term) ++ blocks policy installed terms := by
          simp [blocks, hempty]
        rw [if_neg (by simpa using hempty), hblocks]
        exact Reads.note_bind _ (ih.bind fun found => Reads.pure _)

theorem reads_resolve_foreign (cache : Cache) (policy : MatchPolicy) (terms : List String) (foreign : List Foreign) :
    Reads (resolve cache policy terms foreign) fun d => (cache.contentsWith foreign d).bind fun all =>
      match inOrder all with
      | .error e => .error (.digits e)
      | .ok ordered => .ok (blocks policy ordered terms) := by
  refine (Cache.reads_getAll_foreign cache foreign).bind fun all => ?_
  cases inOrder all with
  | error e => exact Reads.throw _
  | ok ordered => exact reads_answerTerms policy ordered terms

theorem reads_resolve (cache : Cache) (policy : MatchPolicy) (terms : List String) :
    Reads (resolve cache policy terms) fun d => (cache.contents d).bind fun all =>
      match inOrder all with
      | .error e => .error (.digits e)
      | .ok ordered => .ok (blocks policy ordered terms) :=
  (reads_resolve_foreign cache policy terms []).congr fun d => by rw [cache.contentsWith_nil]

theorem blocks_append (policy : MatchPolicy) (installed : Installed) (terms more : List String) :
    blocks policy installed (terms ++ more) = blocks policy installed terms ++ blocks policy installed more := by
  simp [blocks]

-- Over what is cached, a query answers with one block of functions for each term that has segments.
-- A block has exactly the functions that the policy selects, in order.
theorem resolve_lists {cache : Cache} {w : World} {installed : Installed}
    (hall : (cache.getAll.runIn w).1 = .ok installed)
    (hruns : ∀ entry ∈ installed, Version.ShortRuns entry.1.version) :
    ∃ block : MatchPolicy → List String → List Match,
      (∀ policy query, query ≠ [] → Lists policy installed query (block policy query)) ∧
      (∀ query, query ≠ [] → (block .exact query).Sublist (block .substring query)) ∧
      (∀ policy terms, ∃ events, (resolve cache policy terms).runIn w =
        (.ok (((terms.map segments).filter (· ≠ [])).flatMap (block policy)), { w with events := events })) ∧
      ∀ policy terms more, ∃ found others, ((resolve cache policy terms).runIn w).1 = .ok found ∧
        ((resolve cache policy more).runIn w).1 = .ok others ∧
        ((resolve cache policy (terms ++ more)).runIn w).1 = .ok (found ++ others) := by
  obtain ⟨events, hread⟩ := Cache.reads_getAll cache w
  rw [hread] at hall
  have hcontents : cache.contents w.disk = .ok installed := hall
  have hkeys : ∀ entry ∈ installed, ∃ k, Version.key entry.1.version = .ok k := fun entry hentry =>
    Version.exists_key (hruns entry hentry)
  obtain ⟨ordered, hordered, hperm, hpairwise⟩ := exists_inOrder hkeys (Cache.pairwise_contents hcontents)
  have hresolve : ∀ policy terms, ∃ events, (resolve cache policy terms).runIn w =
      (.ok (blocks policy ordered terms), { w with events := events }) := by
    intro policy terms
    obtain ⟨events, hrun⟩ := reads_resolve cache policy terms w
    refine ⟨events, ?_⟩
    rw [hrun]
    simp only [hcontents, Except.bind, hordered]
  refine ⟨fun policy query => answer policy ordered query, ?_, ?_, hresolve, ?_⟩
  · intro policy query hquery
    exact lists_answer hperm hkeys hpairwise policy hquery
  · intro query hquery
    exact answer_exact_sublist ordered hquery
  · intro policy terms more
    obtain ⟨_, hterms⟩ := hresolve policy terms
    obtain ⟨_, hmore⟩ := hresolve policy more
    obtain ⟨_, hboth⟩ := hresolve policy (terms ++ more)
    refine ⟨_, _, by rw [hterms], by rw [hmore], ?_⟩
    rw [hboth, blocks_append]

-- A cache with two versions of a package, the keys of which are not in the order of the versions.
def sampleDoc (path : List String) : FunctionDoc := ⟨path, "fn run()", .normal, .plain, .exported, .rust⟩

def olderSample : Package × List FunctionDoc :=
  (⟨"a", "1.9"⟩, [sampleDoc ["a", "rerun"], sampleDoc ["a", "b", "run"]])

def newerSample : Package × List FunctionDoc :=
  (⟨"a", "1.10"⟩, [sampleDoc ["a", "run"]])

def sampleCache : Cache := ⟨⟨.here, ["cache"]⟩⟩

def sampleFolder : Folder :=
  .folder "a-1.9" (.file "a-1.9.json" (FunctionDoc.toBytes olderSample.2) .empty)
    (.folder "a-1.10" (.file "a-1.10.json" (FunctionDoc.toBytes newerSample.2) .empty) .empty)

def sampleWorld : World := .ofDisk (.ofFolder (.folder "cache" sampleFolder .empty))

theorem mergeSort_pair {α : Type} (le : α → α → Bool) (a b : α) :
    [a, b].mergeSort le = if le a b then [a, b] else [b, a] := by
  simp [List.mergeSort, List.merge]

theorem entryAt_of_entry {cache : Cache} {d : Disk} {p : Package} {docs : List FunctionDoc} {name : String}
    {file : Path} (hnamed : p.Named) (hname : name = p.key) (hfile : cache.fileFor p = file)
    (hentry : d.entry file = .ok (.file (FunctionDoc.toBytes docs))) :
    Cache.entryAt d (cache.root.below name) = .ok (some (p, docs)) := by
  refine (Cache.entryAt_eq_some_iff cache d name p docs).mpr ⟨hname, hnamed, ?_⟩
  refine (Cache.docsAt?_eq_some_iff d _ docs).mpr ⟨_, ?_, FunctionDoc.ofBytes_toBytes docs⟩
  rw [hfile]
  exact hentry

theorem entryAt_newerSample :
    Cache.entryAt sampleWorld.disk (sampleCache.root.below "a-1.10") = .ok (some newerSample) :=
  entryAt_of_entry (by decide) (by decide +kernel)
    (by decide +kernel : _ = ⟨.here, ["cache", "a-1.10", "a-1.10.json"]⟩) rfl

theorem entryAt_olderSample :
    Cache.entryAt sampleWorld.disk (sampleCache.root.below "a-1.9") = .ok (some olderSample) :=
  entryAt_of_entry (by decide) (by decide +kernel)
    (by decide +kernel : _ = ⟨.here, ["cache", "a-1.9", "a-1.9.json"]⟩) rfl

-- Stated for any way of reading, so that no file is read while it is checked.
theorem filterMap_pair {read : Path → Except Failure (Option (Package × List FunctionDoc))} {a b : Path}
    {x y : Package × List FunctionDoc} (ha : read a = .ok (some x)) (hb : read b = .ok (some y)) :
    [x, y] = [a, b].filterMap fun entry => (read entry).toOption.join := by
  simp only [List.filterMap_cons, List.filterMap_nil, ha, hb, Except.toOption, Option.join_some]

theorem contents_sample : sampleCache.contents sampleWorld.disk = .ok [newerSample, olderSample] := by
  have hroot : sampleWorld.disk.entry sampleCache.root = .ok (.folder sampleFolder) := rfl
  have hnames : sampleFolder.names = ["a-1.9", "a-1.10"] := by decide
  refine (Cache.contents_eq_ok_iff _ _ _).mpr (Or.inr ⟨List.not_mem_nil, sampleFolder, hroot, ?_, ?_⟩)
  · intro name hname
    have hfit : ∀ name ∈ ["a-1.9", "a-1.10"], Disk.textRefusal? (sampleCache.root.below name) = none ∧
        Utf8.size name ≤ Disk.nameLimit := by
      decide +kernel
    exact Or.inr (hfit name (hnames ▸ (Folder.mem_names_iff sampleFolder name).mpr hname))
  · have hnot : ¬decide ((sampleCache.root.below "a-1.9").name ≤ (sampleCache.root.below "a-1.10").name) = true := by
      decide
    rw [hnames, List.map_cons, List.map_singleton, Cache.sortByName, mergeSort_pair, if_neg hnot]
    exact filterMap_pair entryAt_newerSample entryAt_olderSample

theorem inOrder_sample : inOrder [newerSample, olderSample] = .ok [olderSample, newerSample] := by
  have hkeyed : ([newerSample, olderSample].mapM fun entry => do return (entry, ← Version.key entry.1.version)) =
      .ok [(newerSample, ⟨[.number 1, .number 10], true, []⟩), (olderSample, ⟨[.number 1, .number 9], true, []⟩)] := rfl
  rw [inOrder, hkeyed]
  simp only [bind, Except.bind, mergeSort_pair]
  rfl

theorem resolve_lists_sample :
    (sampleCache.getAll.runIn sampleWorld).1 = .ok [newerSample, olderSample] ∧
      (∀ entry ∈ [newerSample, olderSample], Version.ShortRuns entry.1.version) ∧
      ∃ found, ((resolve sampleCache .exactThenSubstring ["run", " :: "]).runIn sampleWorld).1 = .ok found ∧
        Lists .exactThenSubstring [newerSample, olderSample] ["run"] found ∧
        found.map (·.doc.path) = [["a", "b", "run"], ["a", "run"]] := by
  obtain ⟨_, hread⟩ := Cache.reads_getAll sampleCache sampleWorld
  have hall : (sampleCache.getAll.runIn sampleWorld).1 = .ok [newerSample, olderSample] := by
    rw [hread, contents_sample]
  have hruns : ∀ entry ∈ [newerSample, olderSample], Version.ShortRuns entry.1.version := by
    intro entry hentry run hrun _
    have hlength : ∀ entry ∈ [newerSample, olderSample], entry.1.version.toList.length ≤ 4 := by decide
    exact (hrun.length_le.trans (hlength entry hentry)).trans (by decide)
  obtain ⟨block, hlists, _, hresolve, _⟩ := resolve_lists hall hruns
  obtain ⟨_, hrun⟩ := hresolve .exactThenSubstring ["run", " :: "]
  have hterms : (["run", " :: "].map segments).filter (· ≠ []) = [["run"]] := by decide +kernel
  rw [hterms, List.flatMap_singleton] at hrun
  -- The block is the one that is found by looking at the packages in order.
  obtain ⟨_, hpure⟩ := reads_resolve sampleCache .exactThenSubstring ["run", " :: "] sampleWorld
  simp only [contents_sample, Except.bind, inOrder_sample] at hpure
  rw [hpure] at hrun
  have hblock := Except.ok.inj (Prod.mk.inj hrun).1
  refine ⟨hall, hruns, _, by rw [hpure], ?_, ?_⟩
  · rw [hblock]
    exact hlists _ _ (by decide)
  · decide +kernel

end Query

end CrateDocs
