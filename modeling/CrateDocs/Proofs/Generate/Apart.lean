import CrateDocs.Proofs.Cache.Fuller
import CrateDocs.Proofs.Crate.Clean
import CrateDocs.Proofs.Generate.Each

namespace CrateDocs.Generate

-- The paths that documenting a package asks the disk about: its manifest, the places of its entry file, and what
-- its crate leads to.
inductive Asked (grammar : Crate.Grammar) (root : Path) (d : Disk) : Path → Prop
  | manifest : Asked grammar root d (root.child Manifest.fileName)
  | place {place : String} (h : place ∈ Fault.entryPoints) : Asked grammar root d (root.child place)
  | crate {path : Path} (h : Crate.Asked grammar d (entryFile root d) path) : Asked grammar root d path

-- A cache that overlaps none of the files of a package.
def Apart (grammar : Crate.Grammar) (cache : Cache) (d : Disk) (root : Path) : Prop :=
  ∀ path, Asked grammar root d path → cache.Spares d path

variable {grammar : Crate.Grammar} {cache : Cache} {root : Path} {d e : Disk}

theorem firstFileAt_congr {places : List String}
    (h : ∀ place ∈ places, e.isFile (root.child place) = d.isFile (root.child place)) :
    firstFileAt root e places = firstFileAt root d places := by
  induction places with
  | nil => rfl
  | cons place rest ih =>
      rw [List.forall_mem_cons] at h
      rw [firstFileAt, firstFileAt, h.1, ih h.2]

theorem prepareAt_congr (hhere : e.here = d.here) (hlimits : e.limits = d.limits)
    (halike : ∀ path, Asked grammar root d path → Crate.Alike d e path) :
    prepareAt grammar root e = prepareAt grammar root d := by
  have hmanifest : Manifest.readAt root e = Manifest.readAt root d := by
    rw [Manifest.readAt, Manifest.readAt, (halike _ .manifest).read, hlimits]
  have hplaces : firstFileAt root e Fault.entryPoints = firstFileAt root d Fault.entryPoints :=
    firstFileAt_congr fun place hplace => (halike _ (.place hplace)).isFile
  have hload : Crate.load grammar e (entryFile root d) = Crate.load grammar d (entryFile root d) :=
    Crate.load_congr hhere fun path hpath => halike path (.crate hpath)
  rw [prepareAt, prepareAt, hmanifest, hplaces]
  refine congrArg (Manifest.readAt root d).bind (funext fun package => ?_)
  cases hentry : firstFileAt root d Fault.entryPoints with
  | error failure => dsimp only [Except.bind]
  | ok entry =>
      have hfile : entry = entryFile root d := firstFileAt_two hentry
      dsimp only [Except.bind]
      rw [documentAt, documentAt, Crate.parseAt, Crate.parseAt, hfile, hload]

-- What is known of a package does not change with what is in the cache.
theorem Apart.prepareAt_eq (h : Apart grammar cache d root) (hbeside : cache.Beside d e) :
    prepareAt grammar root e = prepareAt grammar root d :=
  prepareAt_congr hbeside.here hbeside.limits fun path hpath => hbeside.alike (h path hpath)

-- Documenting a package with what is known of it beforehand: nothing, or a call to the cache.
theorem generateAt_cases (hroot : cache.root.Plain) (grammar : Crate.Grammar) (root : Path) (d : Disk) :
    (∃ failure, prepareAt grammar root d = .error failure ∧ generateAt grammar cache root d = (.error failure, d)) ∨
      ∃ package docs, prepareAt grammar root d = .ok (package, docs) ∧
        cache.Stores d (generateAt grammar cache root d).2 ⟨package, docs⟩ ∧
        (cache.refusal? d package = none ∧ (generateAt grammar cache root d).1 = .ok package ∨
          ∃ trouble, cache.refusal? d package = some trouble.error.refusal ∧
            (generateAt grammar cache root d).1 =
              .error (if trouble.error.fromSystem then .fault (.cacheNotWritten (cache.fileFor package) trouble)
                else .disk trouble.error)) := by
  rw [generateAt]
  cases hprepare : prepareAt grammar root d with
  | error failure => exact Or.inl ⟨failure, rfl, rfl⟩
  | ok prepared =>
      obtain ⟨package, docs⟩ := prepared
      refine Or.inr ⟨package, docs, rfl, ?_⟩
      obtain ⟨hrefusal, hstores⟩ := Cache.replaceFileBelow_put hroot d ⟨package, docs⟩
      dsimp only [Cache.Put.payload] at hrefusal hstores ⊢
      rcases hdone : d.replaceFileBelow (cache.fileFor package) (FunctionDoc.toBytes docs) with ⟨trouble | ⟨⟩, left⟩
      · rw [hdone] at hrefusal hstores
        exact ⟨hstores, Or.inr ⟨trouble, hrefusal.symm, rfl⟩⟩
      · rw [hdone] at hrefusal hstores
        exact ⟨hstores, Or.inl ⟨hrefusal.symm, rfl⟩⟩

-- It can be computed that a cache is apart from a package, from targets that lead nowhere else.

instance (path : Path) : Decidable path.Usable :=
  inferInstanceAs (Decidable ((_ ∧ _) ∧ _))

-- A path that is neither on the way to the root of a cache nor below it.
def Clear (cache : Cache) (d : Disk) (path : Path) : Prop :=
  path.Plain ∧ path.Usable ∧ ¬d.spot cache.root <+: d.spot path ∧ ¬d.spot path <+: d.spot cache.root

instance (path : Path) : Decidable (Clear cache d path) :=
  inferInstanceAs (Decidable (_ ∧ _))

theorem Clear.spares {path : Path} (h : Clear cache d path) : cache.Spares d path := by
  obtain ⟨hplain, husable, hbelow, habove⟩ := h
  refine Or.inl ⟨hplain, husable, ?_⟩
  rintro (⟨name, rest, hspot⟩ | ⟨hleads, _⟩)
  · rw [hspot] at hbelow
    exact hbelow (List.prefix_append _ _)
  · exact habove hleads

def askedBy (grammar : Crate.Grammar) (d : Disk) (t : Crate.Target) : List Path :=
  t.file ::
    match d.read t.file with
    | .error _ => []
    | .ok bytes =>
      (Crate.declarations ⟨t.file, bytes⟩ [] [] [] (grammar bytes)).flatMap fun decl =>
        match Crate.pathBefore? ⟨t.file, bytes⟩ decl.before with
        | some target => [Crate.attributeFile ⟨t.file, bytes⟩ t.directory decl target]
        | none => [Crate.flatFile t.directory decl, Crate.nestedFile t.directory decl]

theorem mem_askedBy {t : Crate.Target} {s : Syntax.Source} {decl : Crate.Declaration} (h : t.Declares grammar d s decl)
    {path : Path} (hpath : path ∈ match Crate.pathBefore? s decl.before with
      | some target => [Crate.attributeFile s t.directory decl target]
      | none => [Crate.flatFile t.directory decl, Crate.nestedFile t.directory decl]) :
    path ∈ askedBy grammar d t := by
  obtain ⟨bytes, hread⟩ : ∃ bytes, d.read t.file = .ok bytes := ⟨_, h.read⟩
  obtain ⟨rfl, hmem⟩ := (Crate.Target.declares_iff hread).mp h
  rw [askedBy, hread]
  exact List.mem_cons_of_mem _ (List.mem_flatMap.mpr ⟨decl, hmem, hpath⟩)

theorem apart_of_clear {ts : List Crate.Target} (hentry : Crate.Target.entry (entryFile root d) ∈ ts)
    (hled : ∀ t ∈ ts, ∀ next ∈ t.led grammar d, next ∈ ts)
    (hplaces : ∀ place ∈ Manifest.fileName :: Fault.entryPoints, Clear cache d (root.child place))
    (hasked : ∀ t ∈ ts, ∀ path ∈ askedBy grammar d t, Clear cache d path) : Apart grammar cache d root := by
  intro path hpath
  apply Clear.spares
  cases hpath with
  | manifest => exact hplaces _ List.mem_cons_self
  | place hplace => exact hplaces _ (List.mem_cons_of_mem _ hplace)
  | crate hpath =>
      cases hpath with
      | file ht => exact hasked _ (Crate.reached_subset hentry hled ht) _ List.mem_cons_self
      | given ht hdecl hgiven =>
          refine hasked _ (Crate.reached_subset hentry hled ht) _ (mem_askedBy hdecl ?_)
          rw [(Crate.pathBefore?_eq_some_iff _ _ _).mpr hgiven]
          exact List.mem_singleton.mpr rfl
      | flat ht hdecl hnone =>
          refine hasked _ (Crate.reached_subset hentry hled ht) _ (mem_askedBy hdecl ?_)
          rw [Crate.pathBefore?_eq_none_iff.mpr hnone]
          exact List.mem_cons_self
      | nested ht hdecl hnone =>
          refine hasked _ (Crate.reached_subset hentry hled ht) _ (mem_askedBy hdecl ?_)
          rw [Crate.pathBefore?_eq_none_iff.mpr hnone]
          exact List.mem_cons_of_mem _ List.mem_cons_self

end CrateDocs.Generate
