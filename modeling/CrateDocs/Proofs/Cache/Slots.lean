import CrateDocs.Proofs.Cache.Steps

namespace CrateDocs

namespace Package

-- What a key is made of.

theorem isAlphanum_or_mem_of_isCodeChar {c : Char} (h : Percent.isCodeChar c = true) :
    c.isAlphanum = true ∨ c ∈ ['_', '.', '~', '-', '%'] := by
  have hcodes : ∀ n < 0x80, Percent.isCodeChar (Char.ofNat n) = true →
      (Char.ofNat n).isAlphanum = true ∨ Char.ofNat n ∈ ['_', '.', '~', '-', '%'] := by decide
  have hlt : c.toNat < 0x80 := by
    simp only [Percent.isCodeChar, Bool.or_eq_true, Bool.and_eq_true, beq_iff_eq, decide_eq_true_eq] at h
    rcases h with rfl | ⟨hlt, _⟩
    · decide
    · exact hlt
  have hc := hcodes c.toNat hlt
  rw [Char.ofNat_toNat] at hc
  exact hc h

theorem key_ne (p : Package) : p.key ≠ "" ∧ p.key ≠ "." ∧ p.key ≠ ".." := by
  have hname := p.isFileName_key
  simp only [isFileName, Bool.and_eq_true, bne_iff_ne] at hname
  exact ⟨hname.1.1.1, hname.1.1.2, hname.1.2⟩

end Package

namespace Cache

open Relation (ReflTransGen)

variable {cache : Cache} {p q : Package} {put : Put}

-- The directory of a package, by the text of its path alone. Nothing else is touched for the package.
def slot (cache : Cache) (d : Disk) (p : Package) : Location :=
  d.resolve (cache.folderFor p)

theorem slot_eq (cache : Cache) (d : Disk) (p : Package) : cache.slot d p = d.resolve cache.root ++ [p.key] := by
  rw [slot, folderFor_eq, d.resolve_below _ (ne_up_of_isFileName p.isFileName_key)]

theorem slot_congr {d e : Disk} (h : e.here = d.here) : cache.slot e p = cache.slot d p :=
  Disk.resolve_congr h _

-- No location is in the directories of two packages.
theorem slot_apart (h : p ≠ q) (d : Disk) (rest : List String) : ¬cache.slot d p <+: cache.slot d q ++ rest := by
  rw [slot_eq, slot_eq, List.append_assoc, List.prefix_append_right_inj, List.singleton_append, List.cons_prefix_cons]
  rintro ⟨hkey, _⟩
  exact h (Package.key_injective hkey)

-- A step of a call that stores a package, and a run of such steps, leave all files outside its directory.

theorem Put.Change.off {root location : Location} {files files' : Location → Option (List UInt8)} {phase next : Phase}
    (h : put.Change root (files, phase) (files', next)) (hl : ¬root ++ [put.package.key] <+: location) :
    files' location = files location := by
  have hinside : ∀ name, location ≠ root ++ [put.package.key, name] := by
    rintro name rfl
    apply hl
    rw [List.prefix_append_right_inj]
    exact List.prefix_append [put.package.key] [name]
  have htemporary : ∀ mark, location ≠ temporarySpot root put.package.key mark := fun mark => hinside _
  have hfile : location ≠ fileSpot root put.package.key := hinside _
  cases h with
  | keep _ => rfl
  | create _ => rw [Function.update_of_ne (htemporary _)]
  | append _ => rw [Function.update_of_ne (htemporary _)]
  | rename _ => rw [Function.update_of_ne hfile, Function.update_of_ne (htemporary _)]
  | unlink => rw [Function.update_of_ne (htemporary _)]

theorem fileAt_of_steps {before after : Disk × Phase} (h : ReflTransGen (put.Step cache) before after)
    {location : Location} (hl : ¬cache.slot before.1 put.package <+: location) :
    after.1.here = before.1.here ∧ after.1.fileAt location = before.1.fileAt location := by
  induction h with
  | refl => exact ⟨rfl, rfl⟩
  | tail _ hstep ih =>
      obtain ⟨hhere, hsame⟩ := ih
      obtain ⟨hhere', hchange⟩ := hstep.change
      rw [← slot_congr hhere, slot_eq] at hl
      exact ⟨hhere'.trans hhere, (hchange.off hl).trans hsame⟩

theorem fileAt_put (cache : Cache) (p : Package) (docs : List FunctionDoc) (w : World) {location : Location}
    (hl : ¬cache.slot w.disk p <+: location) :
    ((cache.put p docs).runIn w).2.disk.fileAt location = w.disk.fileAt location := by
  obtain ⟨phase, hsteps⟩ := steps_put cache ⟨p, docs⟩ w
  dsimp only at hsteps
  generalize ((cache.put p docs).runIn w).2.disk = left at hsteps ⊢
  exact (fileAt_of_steps hsteps hl).2

theorem fileAt_remove (cache : Cache) (p : Package) (w : World) {location : Location}
    (hl : ¬cache.slot w.disk p <+: location) :
    ((cache.remove p).runIn w).2.disk.fileAt location = w.disk.fileAt location := by
  obtain ⟨events, hrun⟩ := runIn_remove cache p w
  rw [hrun]
  rcases w.disk.hasEntry (cache.folderFor p) with e | (_ | _)
  · rfl
  · rfl
  · cases hremoved : w.disk.removeFolder (cache.folderFor p) with
    | error e => rfl
    | ok removed => exact Disk.removeFolder_files hremoved hl

-- A package, whatever its name and version are, has a directory of its own directly below the root and a file in it,
-- and what is done for it leaves the files of all other packages as they are.
theorem slots_apart (cache : Cache) {p q : Package} (h : p ≠ q) :
    (∀ c ∈ p.key.toList, c.isAlphanum = true ∨ c ∈ ['_', '.', '~', '-', '%']) ∧
      (p.key ≠ "" ∧ p.key ≠ "." ∧ p.key ≠ "..") ∧
      cache.folderFor p = ⟨cache.root.anchor, cache.root.parts ++ [p.key]⟩ ∧
      cache.fileFor p = ⟨cache.root.anchor, cache.root.parts ++ [p.key, p.key ++ ".json"]⟩ ∧
      cache.folderFor p ≠ cache.folderFor q ∧
      ∀ w : World, (¬cache.slot w.disk p <+: cache.slot w.disk q ∧ ¬cache.slot w.disk q <+: cache.slot w.disk p) ∧
        ∀ rest : List String,
          (∀ docs, ((cache.put p docs).runIn w).2.disk.fileAt (cache.slot w.disk q ++ rest) =
            w.disk.fileAt (cache.slot w.disk q ++ rest)) ∧
          ((cache.remove p).runIn w).2.disk.fileAt (cache.slot w.disk q ++ rest) =
            w.disk.fileAt (cache.slot w.disk q ++ rest) := by
  have hfolders : ∀ p : Package, cache.folderFor p = ⟨cache.root.anchor, cache.root.parts ++ [p.key]⟩ := by
    intro p
    rw [folderFor_eq, Path.below]
  have hfile : cache.fileFor p = ⟨cache.root.anchor, cache.root.parts ++ [p.key, p.key ++ ".json"]⟩ := by
    rw [fileFor_eq, Path.below, Path.below, List.append_assoc, List.singleton_append]
  refine ⟨fun c hc => Package.isAlphanum_or_mem_of_isCodeChar (Package.mem_key hc), p.key_ne, hfolders p, hfile, ?_, ?_⟩
  · rw [hfolders, hfolders, Ne, Path.mk.injEq, List.append_cancel_left_eq, List.singleton_inj]
    rintro ⟨_, hkey⟩
    exact h (Package.key_injective hkey)
  · intro w
    have hapart : ∀ rest, ¬cache.slot w.disk p <+: cache.slot w.disk q ++ rest := slot_apart h w.disk
    have hback : ¬cache.slot w.disk q <+: cache.slot w.disk p ++ [] := slot_apart h.symm w.disk []
    rw [List.append_nil] at hback
    refine ⟨⟨fun hinside => hapart [] (by rwa [List.append_nil]), hback⟩, fun rest => ⟨fun docs => ?_, ?_⟩⟩
    · exact fileAt_put cache p docs w (hapart rest)
    · exact fileAt_remove cache p w (hapart rest)

-- A root whose path leads through the directory of a package, and a package with a name that would lead up.

def throughCache : Cache := ⟨⟨.here, ["a-1", ".."]⟩⟩

def throughWorld : World :=
  .ofDisk (.ofFolder (.folder "a-1" (.file "a-1.json" [0x5B, 0x5D] .empty) .empty))

theorem slots_apart_through :
    (⟨"..", "/"⟩ : Package) ≠ ⟨"a", "1"⟩ ∧
      throughCache.fileFor ⟨"..", "/"⟩ = ⟨.here, ["a-1", "..", "..-%2F", "..-%2F.json"]⟩ ∧
      ((throughCache.put ⟨"..", "/"⟩ []).runIn throughWorld).2.disk.fileAt ["a-1", "a-1.json"] = some [0x5B, 0x5D] ∧
      ((throughCache.remove ⟨"..", "/"⟩).runIn throughWorld).2.disk.fileAt ["a-1", "a-1.json"] = some [0x5B, 0x5D] := by
  have hne : (⟨"..", "/"⟩ : Package) ≠ ⟨"a", "1"⟩ := by decide
  have hslot : throughCache.slot throughWorld.disk ⟨"a", "1"⟩ = ["a-1"] := by
    rw [slot_eq]
    decide +kernel
  have hkey : Package.key ⟨"..", "/"⟩ = "..-%2F" := by decide +kernel
  have hbefore : throughWorld.disk.fileAt ["a-1", "a-1.json"] = some [0x5B, 0x5D] := by decide
  obtain ⟨_, _, _, hfile, _, hworld⟩ := slots_apart throughCache hne
  obtain ⟨hput, hremove⟩ := (hworld throughWorld).2 ["a-1.json"]
  rw [hslot] at hput hremove
  rw [hkey] at hfile
  exact ⟨hne, hfile, (hput []).trans hbefore, hremove.trans hbefore⟩

end Cache

end CrateDocs
