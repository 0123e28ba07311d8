import CrateDocs.Proofs.Query.Resolve
import CrateDocs.Proofs.Text.Split

namespace CrateDocs.Query

-- A segment that a query term can spell.
structure Segment (s : String) : Prop where
  nonempty : s ≠ ""
  no_colon : ':' ∉ s.toList
  first : ∀ c, s.toList.head? = some c → Text.isBlank c = false
  last : ∀ c, s.toList.getLast? = some c → Text.isBlank c = false

-- Such segments are told apart again when a term is taken to pieces.
theorem segments_intercalate {path : List String} (hne : path ≠ []) (h : ∀ s ∈ path, Segment s) :
    segments ("::".intercalate path) = path := by
  have hcolons : "::".toList = ':' :: [':'] := by decide
  have hsplit : Text.split "::" ("::".intercalate path) = path :=
    Text.split_intercalate hcolons hne fun s hs => (h s hs).no_colon
  have htrim : path.map Text.trimBlanks = path.map id :=
    List.map_congr_left fun s hs => Text.trimBlanks_of_ends (h s hs).first (h s hs).last
  have hkept : path.filter (· != "") = path := by
    rw [List.filter_eq_self]
    intro s hs
    simpa using (h s hs).nonempty
  rw [segments, hsplit, htrim, List.map_id, hkept]

theorem mem_answer_iff (policy : MatchPolicy) (installed : Installed) {query : List String} (hquery : query ≠ [])
    (m : Match) :
    m ∈ answer policy installed query ↔
      (∃ docs, (m.package, docs) ∈ installed ∧ m.doc ∈ docs) ∧ Selected policy installed query m.doc.path := by
  rw [answer_eq, ← selects_iff policy installed hquery]
  simp only [collect, List.mem_flatMap, List.mem_map, List.mem_filter]
  constructor
  · rintro ⟨⟨package, docs⟩, hentry, doc, ⟨hdoc, hselected⟩, rfl⟩
    exact ⟨⟨docs, hentry, hdoc⟩, hselected⟩
  · rintro ⟨⟨docs, hentry, hdoc⟩, hselected⟩
    exact ⟨(m.package, docs), hentry, m.doc, ⟨hdoc, hselected⟩, rfl⟩

-- Whatever else is cached, no policy passes over a path that ends in the query: the fallback is taken
-- only if there is no such path.
theorem Exact.selected {installed : Installed} {query : List String} {package : Package}
    {docs : List FunctionDoc} {doc : FunctionDoc} (h : Exact query doc.path) (hquery : query ≠ [])
    (hentry : (package, docs) ∈ installed) (hdoc : doc ∈ docs) (policy : MatchPolicy) :
    Selected policy installed query doc.path := by
  cases policy with
  | exact => exact h
  | substring => exact h.partial hquery
  | exactThenSubstring =>
      have hany : ∃ entry ∈ installed, ∃ doc ∈ entry.2, Exact query doc.path :=
        ⟨(package, docs), hentry, doc, hdoc, h⟩
      exact Or.inl ⟨hany, h⟩

-- One term with segments is answered by the packages in order.
theorem exists_resolve_one {cache : Cache} {w : World} {installed : Installed}
    (hall : (cache.getAll.runIn w).1 = .ok installed)
    (hkeys : ∀ entry ∈ installed, ∃ k, Version.key entry.1.version = .ok k) {term : String}
    (hterm : segments term ≠ []) (policy : MatchPolicy) :
    ∃ ordered : Installed, ordered.Perm installed ∧
      ((resolve cache policy [term]).runIn w).1 = .ok (answer policy ordered (segments term)) := by
  obtain ⟨_, hread⟩ := Cache.reads_getAll cache w
  rw [hread] at hall
  have hcontents : cache.contents w.disk = .ok installed := hall
  obtain ⟨ordered, hordered, hperm, _⟩ := exists_inOrder hkeys (Cache.pairwise_contents hcontents)
  obtain ⟨_, hrun⟩ := reads_resolve cache policy [term] w
  have hblocks : blocks policy ordered [term] = answer policy ordered (segments term) := by
    simp [blocks, hterm]
  refine ⟨ordered, hperm, ?_⟩
  rw [hrun]
  simp only [hcontents, Except.bind, hordered, hblocks]

-- Every cached function is found under each end of its path, and so under its whole name, by every
-- policy.
theorem resolve_finds {cache : Cache} {w : World} {installed : Installed}
    (hall : (cache.getAll.runIn w).1 = .ok installed)
    (hkeys : ∀ entry ∈ installed, ∃ k, Version.key entry.1.version = .ok k) (policy : MatchPolicy)
    {package : Package} {docs : List FunctionDoc} (hentry : (package, docs) ∈ installed) {doc : FunctionDoc}
    (hdoc : doc ∈ docs) (hpath : doc.path ≠ []) (hsegments : ∀ s ∈ doc.path, Segment s) :
    (∀ suffix, suffix ≠ [] → suffix <:+ doc.path →
      ∃ found, ((resolve cache policy ["::".intercalate suffix]).runIn w).1 = .ok found ∧
        ⟨package, doc⟩ ∈ found) ∧
    ∃ found, ((resolve cache policy [doc.qualifiedName]).runIn w).1 = .ok found ∧ ⟨package, doc⟩ ∈ found := by
  have hends : ∀ suffix, suffix ≠ [] → suffix <:+ doc.path →
      ∃ found, ((resolve cache policy ["::".intercalate suffix]).runIn w).1 = .ok found ∧
        ⟨package, doc⟩ ∈ found := by
    intro suffix hne hsuffix
    have hterm : segments ("::".intercalate suffix) = suffix :=
      segments_intercalate hne fun s hs => hsegments s (hsuffix.subset hs)
    obtain ⟨ordered, hperm, hrun⟩ := exists_resolve_one hall hkeys (hterm.symm ▸ hne) policy
    rw [hterm] at hrun
    have hordered := hperm.mem_iff.mpr hentry
    refine ⟨_, hrun, (mem_answer_iff policy ordered hne _).mpr ⟨⟨docs, hordered, hdoc⟩, ?_⟩⟩
    exact Exact.selected hsuffix hne hordered hdoc policy
  exact ⟨hends, hends doc.path hpath List.suffix_rfl⟩

theorem resolve_finds_sample :
    (sampleCache.getAll.runIn sampleWorld).1 = .ok [newerSample, olderSample] ∧
      (∀ s ∈ ["a", "b", "run"], Segment s) ∧
      ∃ found, ((resolve sampleCache .exactThenSubstring ["b::run"]).runIn sampleWorld).1 = .ok found ∧
        ⟨⟨"a", "1.9"⟩, sampleDoc ["a", "b", "run"]⟩ ∈ found := by
  obtain ⟨_, hread⟩ := Cache.reads_getAll sampleCache sampleWorld
  have hall : (sampleCache.getAll.runIn sampleWorld).1 = .ok [newerSample, olderSample] := by
    rw [hread, contents_sample]
  have hkeys : ∀ entry ∈ [newerSample, olderSample], ∃ k, Version.key entry.1.version = .ok k := by
    simp only [List.forall_mem_cons]
    exact ⟨⟨_, rfl⟩, ⟨_, rfl⟩, nofun⟩
  have hsegments : ∀ s ∈ ["a", "b", "run"], Segment s := by
    have hplain : ∀ s ∈ ["a", "b", "run"], s ≠ "" ∧ ':' ∉ s.toList ∧ s.toList.any Text.isBlank = false := by decide
    intro s hs
    obtain ⟨hne, hcolon, hblank⟩ := hplain s hs
    have hnone : ∀ c ∈ s.toList, Text.isBlank c = false :=
      fun c hc => Bool.eq_false_iff.mpr (List.any_eq_false.mp hblank c hc)
    exact ⟨hne, hcolon, fun c hc => hnone c (List.mem_of_head? hc), fun c hc => hnone c (List.mem_of_getLast? hc)⟩
  have hentry : ((⟨"a", "1.9"⟩ : Package), olderSample.2) ∈ [newerSample, olderSample] := by simp [olderSample]
  have hdoc : sampleDoc ["a", "b", "run"] ∈ olderSample.2 := by simp [olderSample]
  have hfinds := resolve_finds hall hkeys .exactThenSubstring hentry hdoc (by decide) hsegments
  obtain ⟨found, hfound, hmem⟩ := hfinds.1 ["b", "run"] (by decide) ⟨["a"], rfl⟩
  exact ⟨hall, hsegments, found, hfound, hmem⟩

end CrateDocs.Query
