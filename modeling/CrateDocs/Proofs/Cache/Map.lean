import CrateDocs.Proofs.Cache.Update

namespace CrateDocs.Cache

-- A change that is asked of a cache, and what it is answered with.
inductive Call
  | put (package : Package) (docs : List FunctionDoc)
  | remove (package : Package)

inductive Answer
  | stored (file : Path)
  | removed (present : Bool)
deriving DecidableEq

def Call.package : Call → Package
  | put package _ => package
  | remove package => package

-- Whether a call makes the root if it is missing.
def Call.stores : Call → Bool
  | put _ _ => true
  | remove _ => false

def perform (cache : Cache) : Call → Work Answer
  | .put package docs => return .stored (← cache.put package docs)
  | .remove package => return .removed (← cache.remove package)

def performAll (cache : Cache) (calls : List Call) : Work (List Answer) :=
  calls.mapM cache.perform

-- The functions of each package, as a map.
abbrev Shelf := Package → Option (List FunctionDoc)

namespace Shelf

def empty : Shelf := fun _ => none

def set (shelf : Shelf) (package : Package) (docs? : Option (List FunctionDoc)) : Shelf :=
  fun other => if other = package then docs? else shelf other

theorem set_none {shelf : Shelf} {package : Package} (h : shelf package = none) :
    shelf.set package none = shelf := by
  funext other
  rw [set]
  split
  · rename_i hother
    rw [hother, h]
  · rfl

-- One call played on a map.
def after (shelf : Shelf) : Call → Shelf
  | .put package docs => shelf.set package (some docs)
  | .remove package => shelf.set package none

-- What a call has to be answered with. A package was removed if it was in the map.
def answer (shelf : Shelf) (cache : Cache) : Call → Answer
  | .put package _ => .stored (cache.fileFor package)
  | .remove package => .removed (shelf package).isSome

def play (shelf : Shelf) (cache : Cache) : List Call → List Answer × Shelf
  | [] => ([], shelf)
  | call :: calls =>
    let (answers, last) := (shelf.after call).play cache calls
    (shelf.answer cache call :: answers, last)

end Shelf

-- A cache that has no entries yet.
def Fresh (cache : Cache) (d : Disk) : Prop :=
  d.hasEntry cache.root = .ok false ∨ d.entry cache.root = .ok (.folder .empty)

-- Calls that leave a root which is there but may not be listed.
def Barred (cache : Cache) (d : Disk) (calls : List Call) : Prop :=
  cache.root.text ∈ d.limits.unlistable ∧ (d.hasEntry cache.root = .ok true ∨ ∃ call ∈ calls, call.stores = true)

-- A cache on a disk and a map with the same functions. No name in the root is there for nothing. The flag says whether
-- the root itself is there.
structure Keeps (cache : Cache) (d : Disk) (there : Bool) (shelf : Shelf) : Prop where
  place : if there then ∃ inner, d.entry cache.root = .ok (.folder inner) else d.hasEntry cache.root = .ok false
  held : ∀ package docs, shelf package = some docs → cache.Holds d package docs
  names : ∀ name, cache.HasName d name → ∃ package, package.Named ∧ package.key = name ∧ shelf package ≠ none

variable {cache : Cache} {d d' : Disk} {there : Bool} {shelf : Shelf} {p : Package} {docs : List FunctionDoc}

theorem Fresh.keeps (h : cache.Fresh d) : ∃ there, d.hasEntry cache.root = .ok there ∧ cache.Keeps d there Shelf.empty := by
  rcases h with hmissing | hempty
  · exact ⟨false, hmissing, hmissing, nofun, fun name hname => absurd hmissing hname.there⟩
  · refine ⟨true, (Disk.hasEntry_eq_true_iff d _).mpr ⟨_, hempty⟩, ⟨_, hempty⟩, nofun, fun name hname => ?_⟩
    obtain ⟨inner, hinner, hget⟩ := hname
    rw [hempty] at hinner
    cases hinner
    exact absurd rfl hget

theorem Keeps.holds_iff (h : cache.Keeps d there shelf) :
    cache.Holds d p docs ↔ shelf p = some docs := by
  constructor
  · intro hholds
    obtain ⟨package, _, hkey, hthere⟩ := h.names p.key hholds.hasName
    obtain rfl := Package.key_injective hkey
    obtain ⟨found, hfound⟩ := Option.ne_none_iff_exists'.mp hthere
    rw [hfound, (h.held _ found hfound).unique hholds]
  · exact h.held p docs

-- A change under the name of one package is a change of that package in the map.
theorem Keeps.set (h : cache.Keeps d there shelf) (hroot : cache.root.Plain) (hp : p.Named)
    (hsame : cache.SameBut d d' p.key) (hplace : ∃ inner, d'.entry cache.root = .ok (.folder inner))
    {docs? : Option (List FunctionDoc)} (hheld : ∀ docs, docs? = some docs → cache.Holds d' p docs)
    (hname : cache.HasName d' p.key → docs? ≠ none) : cache.Keeps d' true (shelf.set p docs?) := by
  refine ⟨hplace, fun other found hfound => ?_, fun name hthere => ?_⟩
  · by_cases hother : other = p
    · rw [Shelf.set, if_pos hother] at hfound
      rw [hother]
      exact hheld found hfound
    · rw [Shelf.set, if_neg hother] at hfound
      exact (hsame.holds_iff hroot hother).mpr (h.held other found hfound)
  · by_cases hkey : name = p.key
    · refine ⟨p, hp, hkey.symm, ?_⟩
      rw [Shelf.set, if_pos rfl]
      exact hname (hkey ▸ hthere)
    · obtain ⟨other, hnamed, rfl, hbefore⟩ := h.names name ((hsame.hasName_iff hroot hkey).mp hthere)
      refine ⟨other, hnamed, rfl, ?_⟩
      rwa [Shelf.set, if_neg]
      rintro rfl
      exact hkey rfl

theorem Keeps.put (h : cache.Keeps d there shelf) (hroot : cache.root.Plain) (hp : p.Named)
    (hdone : d.replaceFileBelow (cache.fileFor p) (FunctionDoc.toBytes docs) = (.ok (), d')) :
    cache.Keeps d' true (shelf.set p (some docs)) ∧ d'.limits = d.limits := by
  obtain ⟨hsame, hholds⟩ := replaceFileBelow_fileFor hroot hp hdone
  obtain ⟨inner, hinner, _⟩ := hholds.hasName
  refine ⟨h.set hroot hp hsame ⟨inner, hinner⟩ (fun found hfound => ?_) nofun, hsame.limits⟩
  rwa [← Option.some.inj hfound]

theorem Keeps.remove (h : cache.Keeps d there shelf) (hroot : cache.root.Plain) (hp : p.Named)
    (hdone : d.removeFolder (cache.folderFor p) = .ok (true, d')) :
    cache.Keeps d' true (shelf.set p none) ∧ d'.limits = d.limits := by
  obtain ⟨hsame, hgone, hplace⟩ := removeFolder_folderFor hroot hdone
  exact ⟨h.set hroot hp hsame hplace nofun fun hname => absurd hname hgone, hsame.limits⟩

-- There is a folder for a package exactly if the package is in the map.
theorem Keeps.hasEntry_folderFor (h : cache.Keeps d there shelf) {present : Bool}
    (hentry : d.hasEntry (cache.folderFor p) = .ok present) : present = (shelf p).isSome := by
  cases present with
  | true =>
      obtain ⟨e, he⟩ := (Disk.hasEntry_eq_true_iff d _).mp hentry
      rw [folderFor_eq, Disk.entry_below_eq_ok_iff d _ (ne_up_of_isFileName p.isFileName_key)] at he
      obtain ⟨_, _, inner, hinner, hget⟩ := he
      obtain ⟨package, _, hkey, hthere⟩ := h.names p.key ⟨inner, hinner, by simp [hget]⟩
      obtain rfl := Package.key_injective hkey
      exact (Option.isSome_iff_ne_none.mpr hthere).symm
  | false =>
      cases hfound : shelf p with
      | none => rfl
      | some found =>
          obtain ⟨inner, hinner⟩ := (h.held p found hfound).folder
          rw [(Disk.hasEntry_eq_true_iff d _).mpr ⟨_, hinner⟩] at hentry
          cases hentry

-- One call does to a cache and answers what it does to the map.
theorem perform_ok (hroot : cache.root.Plain) {call : Call} (hcall : call.package.Named) {w left : World}
    (h : cache.Keeps w.disk there shelf) {answer : Answer}
    (hrun : (cache.perform call).runIn w = (.ok answer, left)) :
    answer = shelf.answer cache call ∧ cache.Keeps left.disk (there || call.stores) (shelf.after call) ∧
      left.disk.limits = w.disk.limits := by
  cases call with
  | put package docs =>
      obtain ⟨file, between, hput, hanswer⟩ := Work.runIn_bind_eq_ok hrun
      cases hanswer
      obtain ⟨hfile, hdone⟩ := runIn_put_eq_ok hput
      rw [Call.stores, Bool.or_true]
      exact ⟨by rw [Shelf.answer, hfile], h.put hroot hcall hdone⟩
  | remove package =>
      obtain ⟨present, between, hremove, hanswer⟩ := Work.runIn_bind_eq_ok hrun
      cases hanswer
      obtain ⟨hentry, hdone⟩ := runIn_remove_eq_ok hremove
      have hpresent : present = (shelf package).isSome := h.hasEntry_folderFor hentry
      refine ⟨by rw [Shelf.answer, hpresent], ?_⟩
      rw [Call.stores, Bool.or_false]
      cases present with
      | true =>
          -- What was removed was in the root.
          have hthere : there = true := by
            obtain ⟨e, he⟩ := (Disk.hasEntry_eq_true_iff _ _).mp hentry
            rw [folderFor_eq, Disk.entry_below_eq_ok_iff _ _ (ne_up_of_isFileName package.isFileName_key)] at he
            obtain ⟨_, _, inner, hinner, _⟩ := he
            have hplace := h.place
            cases there with
            | true => rfl
            | false =>
                have hmissing : w.disk.hasEntry cache.root = .ok false := hplace
                rw [(Disk.hasEntry_eq_true_iff _ _).mpr ⟨_, hinner⟩] at hmissing
                cases hmissing
          rw [hthere]
          exact h.remove hroot hcall hdone
      | false =>
          have hnone : shelf package = none := Option.not_isSome_iff_eq_none.mp (by simp [← hpresent])
          have hsame : left.disk = w.disk := hdone
          rw [Shelf.after, Shelf.set_none hnone, hsame]
          exact ⟨h, rfl⟩

-- So does a run of calls.
theorem performAll_ok (hroot : cache.root.Plain) {calls : List Call}
    (hcalls : ∀ call ∈ calls, call.package.Named) {w left : World} (h : cache.Keeps w.disk there shelf)
    {answers : List Answer} (hrun : (cache.performAll calls).runIn w = (.ok answers, left)) :
    answers = (shelf.play cache calls).1 ∧
      cache.Keeps left.disk (there || calls.any Call.stores) (shelf.play cache calls).2 ∧
      left.disk.limits = w.disk.limits := by
  induction calls generalizing there shelf w answers with
  | nil =>
      cases hrun
      rw [List.any_nil, Bool.or_false]
      exact ⟨rfl, h, rfl⟩
  | cons call calls ih =>
      rw [List.forall_mem_cons] at hcalls
      rw [performAll, List.mapM_cons] at hrun
      obtain ⟨answer, next, hfirst, hrun⟩ := Work.runIn_bind_eq_ok hrun
      obtain ⟨others, last, hrest, hrun⟩ := Work.runIn_bind_eq_ok hrun
      cases hrun
      obtain ⟨rfl, hnext, hlimits⟩ := perform_ok hroot hcalls.1 h hfirst
      obtain ⟨rfl, hlast, hlimits'⟩ := ih hcalls.2 hnext hrest
      rw [List.any_cons, ← Bool.or_assoc]
      exact ⟨rfl, hlast, hlimits'.trans hlimits⟩

-- What a cache and a map have in common can be read back from a root that may be listed.
theorem Keeps.contents (h : cache.Keeps d there shelf) (hlist : there = true → cache.root.text ∉ d.limits.unlistable) :
    ∃ all, cache.contents d = .ok all := by
  rw [exists_contents_iff]
  have hplace := h.place
  cases there with
  | false => exact Or.inl hplace
  | true =>
      refine Or.inr ⟨hlist rfl, hplace, fun name hname => ?_⟩
      obtain ⟨package, hnamed, rfl, hthere⟩ := h.names name hname
      obtain ⟨docs, hdocs⟩ := Option.ne_none_iff_exists'.mp hthere
      exact (h.held package docs hdocs).askable

-- Calls about packages with names that would be paths, one of them stored twice and another removed
-- again.
def sampleCache : Cache := ⟨⟨.here, ["docs", "cache"]⟩⟩

def sampleDoc : FunctionDoc := ⟨["a_b", "run"], "fn run(c: char) // \"🦀\"", .normal, .plain, .exported, .rust⟩

def sampleCalls : List Call :=
  [.put ⟨"a-b", "1.0-rc.1"⟩ [sampleDoc], .put ⟨"../x", "%2D"⟩ [],
    .put ⟨"a-b", "1.0-rc.1"⟩ [sampleDoc, sampleDoc], .remove ⟨"../x", "%2D"⟩, .remove ⟨"a", "b-1.0-rc.1"⟩]

def emptyWorld : World := .ofDisk (.ofFolder .empty)

-- The same, with a root that may not be listed once it is there.
def barredWorld : World :=
  .ofDisk { Disk.ofFolder .empty with limits := { Limits.usual with unlistable := ["docs/cache"] } }

end CrateDocs.Cache
