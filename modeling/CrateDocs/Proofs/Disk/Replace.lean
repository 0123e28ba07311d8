import CrateDocs.Disk.Replace
import CrateDocs.Proofs.Disk.Locate

namespace CrateDocs.Disk

-- The same disk but for one location and the directories above it.
structure AgreesOff (d e : Disk) (spot : Location) : Prop where
  here : e.here = d.here
  limits : e.limits = d.limits
  find : ∀ location, ¬location <+: spot → e.root.find? location = d.root.find? location

theorem AgreesOff.refl (d : Disk) (spot : Location) : AgreesOff d d spot :=
  ⟨rfl, rfl, fun _ _ => rfl⟩

theorem AgreesOff.trans {d e f : Disk} {spot : Location} (h : AgreesOff d e spot)
    (h' : AgreesOff e f spot) : AgreesOff d f spot :=
  ⟨h'.here.trans h.here, h'.limits.trans h.limits,
    fun location hl => (h'.find location hl).trans (h.find location hl)⟩

theorem AgreesOff.mono {d e : Disk} {spot more : Location} (h : AgreesOff d e spot)
    (hspot : spot <+: more) : AgreesOff d e more :=
  ⟨h.here, h.limits, fun location hl => h.find location fun habove => hl (habove.trans hspot)⟩

theorem AgreesOff.start_eq {d e : Disk} {spot : Location} (h : AgreesOff d e spot) (p : Path) :
    e.start p = d.start p := by
  rw [start, start, h.here]

theorem AgreesOff.spot_eq {d e : Disk} {spot : Location} (h : AgreesOff d e spot) (p : Path) :
    e.spot p = d.spot p := by
  rw [Disk.spot, Disk.spot, h.start_eq]

theorem agreesOff_change {d : Disk} {spot : Location} {e : Option Entry}
    (hbefore : ∀ g, d.root.find? spot ≠ some (.folder g))
    (hafter : ∀ next rest, e.bind (·.find? (next :: rest)) = none) :
    AgreesOff d { d with root := d.root.change spot e } spot := by
  refine ⟨rfl, rfl, fun location hl => ?_⟩
  rcases List.eq_nil_or_concat spot with rfl | ⟨above, name, rfl⟩
  · exact absurd rfl (hbefore d.root)
  · rw [List.concat_eq_append] at hbefore hl ⊢
    exact Folder.find?_change_of_not_prefix hbefore hafter hl

theorem agreesOff_putFile {d : Disk} {spot : Location} (hbefore : ∀ g, d.root.find? spot ≠ some (.folder g))
    (content : List UInt8) : AgreesOff d (d.put spot (.file content)) spot :=
  agreesOff_change hbefore fun _ _ => rfl

theorem agreesOff_drop {d : Disk} {spot : Location} (hbefore : ∀ g, d.root.find? spot ≠ some (.folder g)) :
    AgreesOff d (d.drop spot) spot :=
  agreesOff_change hbefore fun _ _ => rfl

-- When the single operations are allowed, and what they do then.

theorem refuse_eq_ok_iff {α : Type} (p : Path) (x : Except Refusal α) (a : α) :
    refuse p x = .ok a ↔ x = .ok a := by
  cases x <;> simp [refuse, Except.mapError]

theorem makeFolder_eq_ok_iff (d : Disk) (p : Path) (made : Disk) :
    d.makeFolder p = .ok made ↔
      ∃ spot, d.locate p = .ok spot ∧ d.root.find? spot = none ∧ made = d.put spot (.folder .empty) := by
  rw [makeFolder, refuse_eq_ok_iff]
  cases d.locate p with
  | error refusal => simp [bind, Except.bind]
  | ok spot =>
      cases hfind : d.root.find? spot <;>
        simp [bind, Except.bind, pure, Except.pure, throw, throwThe, MonadExceptOf.throw, hfind, eq_comm]

theorem writeFile_eq_ok_iff (d : Disk) (p : Path) (content : List UInt8) (written : Disk) :
    d.writeFile p content = .ok written ↔
      ∃ spot, d.locate p = .ok spot ∧ (∀ g, d.root.find? spot ≠ some (.folder g)) ∧
        written = d.put spot (.file content) := by
  rw [writeFile, refuse_eq_ok_iff]
  cases d.locate p with
  | error refusal => simp [bind, Except.bind]
  | ok spot =>
      rcases hfind : d.root.find? spot with _ | (_ | _) <;>
        simp [bind, Except.bind, pure, Except.pure, throw, throwThe, MonadExceptOf.throw, hfind, eq_comm]

-- A directory goes, or what cannot be cleared stays in it.
theorem removeFolder_eq_ok_iff (d : Disk) (p : Path) (gone : Bool) (left : Disk) :
    d.removeFolder p = .ok (gone, left) ↔
      ∃ spot g, d.locate p = .ok spot ∧ d.root.find? spot = some (.folder g) ∧
        gone = decide (g.uncleared d.limits.depth = .empty) ∧
        left = if gone then d.drop spot else d.put spot (.folder (g.uncleared d.limits.depth)) := by
  rw [removeFolder, refuse_eq_ok_iff]
  cases d.locate p with
  | error refusal => simp [bind, Except.bind]
  | ok spot =>
      rcases hfind : d.root.find? spot with _ | (_ | g)
      · simp [bind, Except.bind, throw, throwThe, MonadExceptOf.throw, hfind]
      · simp [bind, Except.bind, throw, throwThe, MonadExceptOf.throw, hfind]
      · cases hleft : g.uncleared d.limits.depth <;> cases gone <;>
          simp [bind, Except.bind, pure, Except.pure, hfind, hleft, eq_comm]

theorem moveFile_eq_ok_iff (d : Disk) (source target : Path) (moved : Disk) :
    d.moveFile source target = .ok moved ↔
      ∃ origin content spot, d.locate source = .ok origin ∧ d.root.find? origin = some (.file content) ∧
        d.locate target = .ok spot ∧ (∀ g, d.root.find? spot ≠ some (.folder g)) ∧
        moved = (d.drop origin).put spot (.file content) := by
  rw [moveFile]
  cases d.locate source with
  | error refusal => simp [bind, Except.bind]
  | ok origin =>
      rcases hfile : d.root.find? origin with _ | (content | inner)
      · simp [bind, Except.bind, throw, throwThe, MonadExceptOf.throw, hfile]
      · cases d.locate target with
        | error refusal => simp [bind, Except.bind, hfile]
        | ok spot =>
            rcases hfind : d.root.find? spot with _ | (_ | _) <;>
              simp [bind, Except.bind, pure, Except.pure, throw, throwThe, MonadExceptOf.throw, hfile,
                hfind, eq_comm]
      · simp [bind, Except.bind, throw, throwThe, MonadExceptOf.throw, hfile]

-- Making directories changes nothing but their own place.

theorem agreesOff_makeFolder {d made : Disk} {p : Path} (hp : p.Plain) (h : d.makeFolder p = .ok made) :
    AgreesOff d made (d.spot p) := by
  obtain ⟨found, hlocate, hfind, rfl⟩ := (makeFolder_eq_ok_iff d p made).mp h
  obtain ⟨rfl, _⟩ := locate_plain hp hlocate
  refine agreesOff_change (by simp [hfind]) fun next rest => ?_
  rw [Option.bind_some, Entry.find?, Folder.find?_cons]
  rfl

theorem unlessThere_disk (d : Disk) (p : Path) (e : DiskError) : (unlessThere d p e).2 = d := by
  rw [unlessThere]
  split <;> rfl

theorem agreesOff_makeFoldersBack (anchor : Anchor) {back : List String} (hback : ".." ∉ back) (d : Disk) :
    AgreesOff d (makeFoldersBack anchor back d).2 (d.spot ⟨anchor, back.reverse⟩) := by
  induction back with
  | nil =>
      rw [makeFoldersBack]
      split
      · rename_i made hmade
        exact agreesOff_makeFolder hback hmade
      · split
        · exact AgreesOff.refl d _
        · rw [unlessThere_disk]
          exact AgreesOff.refl d _
  | cons part above ih =>
      have hplain : (⟨anchor, (part :: above).reverse⟩ : Path).Plain := by
        rwa [Path.Plain, List.mem_reverse]
      have hpath : (⟨anchor, (part :: above).reverse⟩ : Path) = Path.below ⟨anchor, above.reverse⟩ part := by
        rw [Path.below, List.reverse_cons]
      -- What is made above the last component is made on the way to it.
      have habove : AgreesOff d (makeFoldersBack anchor above d).2 (d.spot ⟨anchor, (part :: above).reverse⟩) := by
        refine (ih fun hmem => hback (List.mem_cons_of_mem part hmem)).mono ?_
        rw [hpath, spot_below]
        exact List.prefix_append _ _
      rw [makeFoldersBack]
      split
      · rename_i made hmade
        exact agreesOff_makeFolder hplain hmade
      · split
        · split
          · rename_i hleft
            rwa [hleft] at habove
          · rename_i left hleft
            rw [hleft] at habove
            split
            · rename_i made hmade
              have hlast := agreesOff_makeFolder hplain hmade
              rw [habove.spot_eq] at hlast
              exact habove.trans hlast
            · split
              · exact habove
              · split
                · rename_i trouble last hlast
                  have hdisk := congrArg Prod.snd hlast
                  rw [unlessThere_disk] at hdisk
                  subst hdisk
                  exact habove
                · rw [unlessThere_disk]
                  exact habove
        · rw [unlessThere_disk]
          exact AgreesOff.refl d _

-- A temporary file has a name of its own, in the directory of the file that it is for.

theorem resolve_plain (d : Disk) {p : Path} (hp : p.Plain) : d.resolve p = d.spot p := by
  have hfold : ∀ (parts : List String) (spot : Location), ".." ∉ parts →
      parts.foldl (fun spot part => if part = ".." then spot.dropLast else spot ++ [part]) spot =
        spot ++ parts := by
    intro parts
    induction parts with
    | nil => simp
    | cons part parts ih =>
        intro spot hparts
        rw [List.mem_cons, not_or] at hparts
        rw [List.foldl_cons, if_neg (Ne.symm hparts.1), ih _ hparts.2, List.append_assoc,
          List.singleton_append]
  exact hfold p.parts (d.start p) hp

theorem isFileName_of_mem_start {d : Disk} {p : Path} {name : String} (h : name ∈ d.start p) :
    isFileName name = true := by
  rw [start] at h
  split at h
  · exact List.all_eq_true.mp d.here_names name h
  · cases h

theorem plain_spot (d : Disk) {p : Path} (hp : p.Plain) : (⟨.root, d.spot p⟩ : Path).Plain := by
  rw [Path.Plain, spot, List.mem_append, not_or]
  exact ⟨fun hmem => ne_up_of_isFileName (isFileName_of_mem_start hmem) rfl, hp⟩

theorem temporaryName?_eq_some {name made : String} {taken : List String}
    (h : temporaryName? name taken = some made) :
    made ∉ taken ∧ ∃ n, made = "." ++ name ++ "." ++ temporaryMark n ++ ".tmp" := by
  have hfree := List.find?_some h
  obtain ⟨n, _, rfl⟩ := List.mem_map.mp (List.mem_of_find?_eq_some h)
  exact ⟨by simpa using hfree, n, rfl⟩

-- It is longer than the name it is made from.
theorem temporaryName?_ne {name made : String} {taken : List String}
    (h : temporaryName? name taken = some made) : made ≠ ".." ∧ made ≠ name := by
  obtain ⟨_, n, hmade⟩ := temporaryName?_eq_some h
  have hlength : made.length = name.length + (temporaryMark n).length + 6 := by
    have hdot : ".".length = 1 := by decide
    have hend : ".tmp".length = 4 := by decide
    simp only [hmade, String.length_append, hdot, hend]
    omega
  have hup : "..".length = 2 := by decide
  refine ⟨fun heq => ?_, fun heq => ?_⟩
  · rw [heq] at hlength
    omega
  · rw [heq] at hlength
    omega

theorem temporaryPath?_below {d : Disk} {p temporary : Path} {name : String}
    (h : d.temporaryPath? (p.below name) = some temporary) :
    ∃ taken made, temporary = Path.below ⟨.root, d.resolve p⟩ made ∧
      temporaryName? name taken = some made ∧ d.root.find? (d.resolve p ++ [made]) = none := by
  have hparent : (p.below name).parent = p := by simp [Path.below, Path.parent]
  have hname : (p.below name).name = name := by simp [Path.below, Path.name]
  rw [temporaryPath?, hparent, hname] at h
  obtain ⟨made, hmade, rfl⟩ := Option.map_eq_some_iff.mp h
  refine ⟨_, made, rfl, hmade, ?_⟩
  have hfree := (temporaryName?_eq_some hmade).1
  rw [Folder.find?_append]
  split at hfree
  · rename_i inner hinner
    rw [hinner]
    rw [Folder.mem_names_iff] at hfree
    simpa [Entry.find?, Folder.find?] using hfree
  · rename_i hfile
    cases hspot : d.root.find? (d.resolve p) with
    | none => rfl
    | some e =>
        cases e with
        | file content => rfl
        | folder inner => exact absurd hspot (hfile inner)

-- A file that was replaced has the content, and nothing else has changed.

theorem replaceFile_eq_ok {d done : Disk} {p : Path} {content : List UInt8}
    (h : d.replaceFile p content = (.ok (), done)) :
    ∃ temporary written, d.temporaryPath? p = some temporary ∧
      d.writeFile temporary content = .ok written ∧ written.moveFile temporary p = .ok done := by
  rw [replaceFile] at h
  cases htemporary : d.temporaryPath? p with
  | none => simp [htemporary] at h
  | some temporary =>
      cases hwritten : d.writeFile temporary content with
      | error e => simp [htemporary, hwritten] at h
      | ok written =>
          cases hmoved : written.moveFile temporary p with
          | error refusal => simp [htemporary, hwritten, hmoved] at h
          | ok moved =>
              simp only [htemporary, hwritten, hmoved, Prod.mk.injEq, true_and] at h
              exact ⟨temporary, written, rfl, hwritten, h ▸ hmoved⟩

-- A detour over a free name in the same directory leaves no trace.
theorem agreesOff_detour {d : Disk} {above : Location} {g : Folder} (habove : d.root.find? above = some (.folder g))
    {made name : String} (hne : made ≠ name) (hfree : d.root.find? (above ++ [made]) = none)
    {content : List UInt8}
    (hname : ∀ g, (d.put (above ++ [made]) (.file content)).root.find? (above ++ [name]) ≠ some (.folder g)) :
    let done := ((d.put (above ++ [made]) (.file content)).drop (above ++ [made])).put (above ++ [name])
      (.file content)
    AgreesOff d done (above ++ [name]) ∧ done.root.find? (above ++ [name]) = some (.file content) := by
  let written := d.put (above ++ [made]) (.file content)
  let cleaned := written.drop (above ++ [made])
  have hmade : written.root.find? (above ++ [made]) = some (.file content) :=
    Folder.find?_change_at habove made (some (.file content)) []
  have hwritten : AgreesOff d written (above ++ [made]) := agreesOff_putFile (by simp [hfree]) content
  have hcleaned : AgreesOff written cleaned (above ++ [made]) := agreesOff_drop (by simp [hmade])
  obtain ⟨g₁, hg₁⟩ := Folder.find?_change_above habove made (some (.file content)) (List.prefix_refl above)
  obtain ⟨g₂, hg₂⟩ := Folder.find?_change_above hg₁ made none (List.prefix_refl above)
  have hgone : cleaned.root.find? (above ++ [made]) = none := Folder.find?_change_at hg₁ made none []
  have hback : ∀ location, ¬location <+: above → cleaned.root.find? location = d.root.find? location := by
    intro location hl
    by_cases hmade : location <+: above ++ [made]
    · rcases List.prefix_concat_iff.mp hmade with rfl | habove
      · rw [hgone, hfree]
      · exact absurd habove hl
    · exact (hwritten.trans hcleaned).find location hmade
  have hbefore : ∀ g, cleaned.root.find? (above ++ [name]) ≠ some (.folder g) := by
    intro g
    rw [hcleaned.find]
    · exact hname g
    · intro hl
      have heq := hl.eq_of_length (by simp)
      exact hne (List.singleton_inj.mp (List.append_cancel_left heq)).symm
  have hdone := agreesOff_putFile hbefore content
  refine ⟨⟨rfl, rfl, fun location hl => ?_⟩, Folder.find?_change_at hg₂ name (some (.file content)) []⟩
  rw [hdone.find location hl, hback location fun h => hl (h.trans (List.prefix_append _ _))]

theorem replaceFile_ok {d done : Disk} {p : Path} (hp : p.Plain) {name : String} (hname : name ≠ "..")
    {content : List UInt8} (h : d.replaceFile (p.below name) content = (.ok (), done)) :
    (p.below name).Usable ∧ AgreesOff d done (d.spot (p.below name)) ∧
      done.root.find? (d.spot (p.below name)) = some (.file content) := by
  obtain ⟨temporary, written, htemporary, hwritten, hmoved⟩ := replaceFile_eq_ok h
  obtain ⟨_, made, htemporary, hmade, hfree⟩ := temporaryPath?_below htemporary
  rw [resolve_plain d hp] at htemporary hfree
  subst htemporary
  obtain ⟨hup, hne⟩ := temporaryName?_ne hmade
  have hroot : (⟨.root, d.spot p⟩ : Path).Plain := plain_spot d hp
  have htarget : (p.below name).Plain := Path.plain_below hp hname
  obtain ⟨place, hplace, _, rfl⟩ := (writeFile_eq_ok_iff d _ content written).mp hwritten
  obtain ⟨_, _, above, inner, habove, hinner, rfl⟩ := (locate_below_eq_ok_iff d _ hup place).mp hplace
  obtain ⟨rfl, _⟩ := locate_plain hroot habove
  -- The move takes the file that was written, and finds its target where it was.
  obtain ⟨origin, found, target, horigin, hfound, hplaced, hbefore, rfl⟩ :=
    (moveFile_eq_ok_iff _ _ _ _).mp hmoved
  obtain ⟨rfl, _⟩ := locate_plain (Path.plain_below hroot hup) horigin
  obtain ⟨rfl, husable⟩ := locate_plain htarget hplaced
  have hspot : d.spot ⟨.root, d.spot p⟩ = d.spot p := rfl
  have horigin : ∀ e : Disk, e.spot (Path.below ⟨.root, d.spot p⟩ made) = d.spot p ++ [made] := fun _ => rfl
  have htarget : ∀ e : Entry, (d.put (d.spot p ++ [made]) e).spot (p.below name) = d.spot p ++ [name] :=
    fun e => spot_below d p name
  simp only [hspot, horigin, htarget] at hinner hfound hbefore ⊢
  obtain rfl : content = found := by
    have hcontent := Folder.find?_change_at hinner made (some (.file content)) []
    exact Entry.file.inj (Option.some.inj (hcontent.symm.trans hfound))
  rw [spot_below]
  exact ⟨husable, agreesOff_detour hinner hne hfree hbefore⟩

theorem replaceFileBelow_ok {d done : Disk} {p : Path} (hp : p.Plain) {name : String} (hname : name ≠ "..")
    {content : List UInt8} (h : d.replaceFileBelow (p.below name) content = (.ok (), done)) :
    (p.below name).Usable ∧ AgreesOff d done (d.spot (p.below name)) ∧
      done.root.find? (d.spot (p.below name)) = some (.file content) := by
  have hparent : (p.below name).parent = p := by simp [Path.below, Path.parent]
  rw [replaceFileBelow, hparent] at h
  split at h
  · rename_i made hmade
    obtain ⟨husable, hdone, hfile⟩ := replaceFile_ok hp hname h
    have hfolders : AgreesOff d made (d.spot (p.below name)) := by
      have hback : ".." ∉ p.parts.reverse := fun hmem => hp (List.mem_reverse.mp hmem)
      have hfolders := agreesOff_makeFoldersBack p.anchor hback d
      rw [List.reverse_reverse, ← makeFolders, hmade] at hfolders
      refine hfolders.mono ?_
      rw [spot_below]
      exact List.prefix_append _ _
    rw [hfolders.spot_eq] at hdone hfile
    exact ⟨husable, hfolders.trans hdone, hfile⟩
  · rename_i hfailed
    exact absurd h (hfailed done)

-- A directory that was removed is gone with all that was in it, and nothing else has changed.
theorem removeFolder_ok {d removed : Disk} {p : Path} (hp : p.Plain) {name : String} (hname : name ≠ "..")
    (h : d.removeFolder (p.below name) = .ok (true, removed)) :
    p.Usable ∧ removed.here = d.here ∧ removed.limits = d.limits ∧
      (∃ g, removed.root.find? (d.spot p) = some (.folder g)) ∧
      (∀ below, removed.root.find? (d.spot (p.below name) ++ below) = none) ∧
      ∀ location, ¬location <+: d.spot p → ¬d.spot (p.below name) <+: location →
        removed.root.find? location = d.root.find? location := by
  obtain ⟨place, g, hplace, _, _, rfl⟩ := (removeFolder_eq_ok_iff d _ true removed).mp h
  obtain ⟨_, _, above, inner, habove, hinner, rfl⟩ := (locate_below_eq_ok_iff d _ hname place).mp hplace
  obtain ⟨rfl, husable⟩ := locate_plain hp habove
  rw [spot_below, if_pos rfl]
  refine ⟨husable, rfl, rfl, Folder.find?_change_above hinner name none (List.prefix_refl _), fun below => ?_, ?_⟩
  · rw [List.append_assoc, List.singleton_append]
    exact Folder.find?_change_at hinner name none below
  · intro location hl hbelow
    exact Folder.find?_change_beside d.root (d.spot p) name none hl hbelow

-- A path with a zero byte is refused before anything is changed; without one, only the system
-- refuses.

theorem fromSystem_iff (e : DiskError) : e.fromSystem = true ↔ e.refusal ≠ .zeroByte := by
  simp [DiskError.fromSystem]

theorem fromSystem_of_test {d : Disk} {p : Path} {holds : Entry → Bool} {e : DiskError}
    (h : d.test p holds = .error e) : e.fromSystem = true := by
  rw [test] at h
  split at h
  · cases h
  · rename_i refusal _
    split at h
    · cases h
    · cases h
      cases refusal <;> simp_all [DiskError.fromSystem, Refusal.meansAbsent]

theorem fromSystem_of_refuse {α : Type} {p : Path} {x : Except Refusal α} (hx : x ≠ .error .zeroByte)
    {e : DiskError} (h : refuse p x = .error e) : e.fromSystem = true := by
  cases x with
  | ok a => cases h
  | error refusal =>
      cases h
      rw [fromSystem_iff]
      rintro rfl
      exact hx rfl

theorem bind_ne_zeroByte {α β : Type} {x : Except Refusal α} {f : α → Except Refusal β}
    (hx : x ≠ .error .zeroByte) (hf : ∀ a, f a ≠ .error .zeroByte) : (x >>= f) ≠ .error .zeroByte := by
  cases x with
  | error refusal =>
      intro h
      cases h
      exact hx rfl
  | ok a => exact hf a

theorem fromSystem_of_read {d : Disk} {p : Path} (hzero : '\x00' ∉ p.text.toList) {e : DiskError}
    (h : d.read p = .error e) : e.fromSystem = true := by
  refine fromSystem_of_refuse (bind_ne_zeroByte (bind_ne_zeroByte ?_ fun spot => ?_) fun entry => ?_) h
  · exact mt (locate_eq_zeroByte_iff d p).mp hzero
  · split <;> nofun
  · split <;> nofun

theorem read_of_zeroByte (d : Disk) {p : Path} (hzero : '\x00' ∈ p.text.toList) :
    d.read p = .error ⟨.zeroByte, some p.text⟩ := by
  rw [read, entry, (locate_eq_zeroByte_iff d p).mpr hzero]
  rfl

theorem fromSystem_of_makeFolder {d : Disk} {p : Path} (hzero : '\x00' ∉ p.text.toList) {e : DiskError}
    (h : d.makeFolder p = .error e) : e.fromSystem = true := by
  refine fromSystem_of_refuse (bind_ne_zeroByte ?_ fun spot => ?_) h
  · exact mt (locate_eq_zeroByte_iff d p).mp hzero
  · split <;> nofun

theorem fromSystem_of_writeFile {d : Disk} {p : Path} (hzero : '\x00' ∉ p.text.toList) {content : List UInt8}
    {e : DiskError} (h : d.writeFile p content = .error e) : e.fromSystem = true := by
  refine fromSystem_of_refuse (bind_ne_zeroByte ?_ fun spot => ?_) h
  · exact mt (locate_eq_zeroByte_iff d p).mp hzero
  · split <;> nofun

theorem moveFile_ne_zeroByte (d : Disk) {source target : Path} (hsource : '\x00' ∉ source.text.toList)
    (htarget : '\x00' ∉ target.text.toList) : d.moveFile source target ≠ .error .zeroByte := by
  refine bind_ne_zeroByte ?_ fun origin => ?_
  · exact mt (locate_eq_zeroByte_iff d source).mp hsource
  · split
    · refine bind_ne_zeroByte ?_ fun spot => ?_
      · exact mt (locate_eq_zeroByte_iff d target).mp htarget
      · split <;> nofun
    · nofun
    · nofun

theorem unlessThere_fromSystem {d : Disk} {p : Path} {e : DiskError} (he : e.fromSystem = true)
    {trouble : DiskTrouble} (h : (unlessThere d p e).1 = .error trouble) : trouble.error.fromSystem = true := by
  rw [unlessThere] at h
  split at h
  · cases h
  · cases h
    exact he
  · rename_i hfolder
    cases h
    exact fromSystem_of_test hfolder

theorem makeFoldersBack_fromSystem {anchor : Anchor} {back : List String}
    (hzero : '\x00' ∉ (⟨anchor, back.reverse⟩ : Path).text.toList) {d : Disk} {trouble : DiskTrouble}
    (h : (makeFoldersBack anchor back d).1 = .error trouble) : trouble.error.fromSystem = true := by
  induction back generalizing trouble with
  | nil =>
      rw [makeFoldersBack] at h
      split at h
      · cases h
      · rename_i e he
        have hsystem := fromSystem_of_makeFolder hzero he
        split at h
        · cases h
          exact hsystem
        · exact unlessThere_fromSystem hsystem h
  | cons part above ih =>
      have habove : '\x00' ∉ (⟨anchor, above.reverse⟩ : Path).text.toList := by
        simp only [Path.zero_mem_text_iff, List.mem_reverse] at hzero ⊢
        exact fun ⟨name, hname, hmem⟩ => hzero ⟨name, List.mem_cons_of_mem part hname, hmem⟩
      rw [makeFoldersBack] at h
      split at h
      · cases h
      · rename_i e he
        have hsystem := fromSystem_of_makeFolder hzero he
        split at h
        · split at h
          · rename_i inner left hinner
            cases h
            have hfirst : inner.error.fromSystem = true := ih habove (congrArg Prod.fst hinner)
            exact hfirst
          · rename_i left hleft
            split at h
            · cases h
            · rename_i e₂ he₂
              have hsystem₂ := fromSystem_of_makeFolder hzero he₂
              split at h
              · cases h
                exact hsystem₂
              · split at h
                · rename_i inner last hlast
                  cases h
                  have hfirst : inner.error.fromSystem = true :=
                    unlessThere_fromSystem hsystem₂ (congrArg Prod.fst hlast)
                  exact hfirst
                · exact unlessThere_fromSystem hsystem₂ h
        · exact unlessThere_fromSystem hsystem h

theorem makeFoldersBack_of_zero (anchor : Anchor) (back : List String)
    (hzero : '\x00' ∈ (⟨anchor, back.reverse⟩ : Path).text.toList) (d : Disk) :
    makeFoldersBack anchor back d =
      (.error (.first ⟨.zeroByte, some (⟨anchor, back.reverse⟩ : Path).text⟩), d) := by
  have hlocate := (locate_eq_zeroByte_iff d _).mpr hzero
  have hmake : d.makeFolder ⟨anchor, back.reverse⟩ =
      .error ⟨.zeroByte, some (⟨anchor, back.reverse⟩ : Path).text⟩ := by
    rw [makeFolder, hlocate]
    rfl
  have hthere : ∀ e, unlessThere d ⟨anchor, back.reverse⟩ e = (.error (.first e), d) := by
    simp [unlessThere, isFolder, test, entry_eq, hlocate, Refusal.meansAbsent]
  cases back with
  | nil =>
      rw [List.reverse_nil] at hmake hthere
      simp only [makeFoldersBack, hmake, hthere, reduceCtorEq, if_false, List.reverse_nil]
  | cons part above => simp only [makeFoldersBack, hmake, hthere, reduceCtorEq, if_false]

theorem zero_notMem_temporaryMark (n : Nat) : '\x00' ∉ (temporaryMark n).toList := by
  intro h
  rw [temporaryMark, String.toList_ofList, List.mem_append] at h
  cases h with
  | inl hfill => cases (List.mem_replicate.mp hfill).2
  | inr hdigit =>
      have hdigit := Nat.isDigit_of_mem_toDigits (by decide) (by decide) (List.mem_of_mem_take hdigit)
      cases hdigit

-- A location by its text alone has no names but those of the path and the place it starts from.
theorem mem_resolve {d : Disk} {p : Path} {name : String} (h : name ∈ d.resolve p) : name ∈ d.start p ∨ name ∈ p.parts := by
  have hfold : ∀ (parts : List String) (spot : Location),
      name ∈ parts.foldl (fun spot part => if part = ".." then spot.dropLast else spot ++ [part]) spot →
        name ∈ spot ∨ name ∈ parts := by
    intro parts
    induction parts with
    | nil => exact fun spot hmem => Or.inl hmem
    | cons part parts ih =>
        intro spot hmem
        rcases ih _ hmem with hmem | hmem
        · dsimp only at hmem
          split at hmem
          · exact Or.inl ((List.dropLast_sublist spot).mem hmem)
          · rw [List.mem_append, List.mem_singleton] at hmem
            rcases hmem with hmem | rfl
            · exact Or.inl hmem
            · exact Or.inr List.mem_cons_self
        · exact Or.inr (List.mem_cons_of_mem part hmem)
  exact hfold p.parts _ h

theorem zero_notMem_temporaryPath {d : Disk} {p temporary : Path} {name : String}
    (h : d.temporaryPath? (p.below name) = some temporary) (hzero : '\x00' ∉ (p.below name).text.toList) :
    '\x00' ∉ temporary.text.toList := by
  obtain ⟨_, made, htemporary, hmade, _⟩ := temporaryPath?_below h
  subst htemporary
  obtain ⟨_, n, rfl⟩ := temporaryName?_eq_some hmade
  rw [Path.zero_mem_text_below, not_or] at hzero ⊢
  rw [Path.zero_mem_text_iff] at hzero ⊢
  constructor
  · rintro ⟨part, hpart, hmem⟩
    rcases mem_resolve hpart with hstart | hparts
    · exact zero_notMem_of_isFileName (isFileName_of_mem_start hstart) hmem
    · exact hzero.1 ⟨part, hparts, hmem⟩
  · simp [hzero.2, zero_notMem_temporaryMark]

theorem replaceFile_fromSystem {d done : Disk} {p : Path} {name : String}
    (hzero : '\x00' ∉ (p.below name).text.toList) {content : List UInt8} {trouble : DiskTrouble}
    (h : d.replaceFile (p.below name) content = (.error trouble, done)) : trouble.error.fromSystem = true := by
  rw [replaceFile] at h
  split at h
  · cases h
    rfl
  · rename_i temporary htemporary
    have htext := zero_notMem_temporaryPath htemporary hzero
    split at h
    · rename_i e he
      have hsystem := fromSystem_of_writeFile htext he
      cases h
      exact hsystem
    · rename_i written _
      split at h
      · cases h
      · rename_i refusal hmoved
        cases h
        rw [fromSystem_iff]
        rintro rfl
        exact moveFile_ne_zeroByte written htext hzero hmoved

-- Replacing a file fails so if the path of its directory has a zero byte, and in no other case.
theorem replaceFileBelow_of_zero {d : Disk} {p : Path} (hzero : '\x00' ∈ p.text.toList) (name : String)
    (content : List UInt8) :
    d.replaceFileBelow (p.below name) content = (.error (.first ⟨.zeroByte, some p.text⟩), d) := by
  have hpath : (⟨p.anchor, p.parts.reverse.reverse⟩ : Path) = p := by rw [List.reverse_reverse]
  have hmake := makeFoldersBack_of_zero p.anchor p.parts.reverse (by rwa [hpath]) d
  rw [hpath] at hmake
  rw [replaceFileBelow, Path.parent_below, makeFolders, hmake]

theorem replaceFileBelow_fromSystem {d done : Disk} {p : Path} (hzero : '\x00' ∉ p.text.toList) {name : String}
    (hname : '\x00' ∉ name.toList) {content : List UInt8} {trouble : DiskTrouble}
    (h : d.replaceFileBelow (p.below name) content = (.error trouble, done)) : trouble.error.fromSystem = true := by
  have hpath : (⟨p.anchor, p.parts.reverse.reverse⟩ : Path) = p := by rw [List.reverse_reverse]
  rw [replaceFileBelow, Path.parent_below, makeFolders] at h
  split at h
  · refine replaceFile_fromSystem (fun hmem => ?_) h
    rcases (Path.zero_mem_text_below p name).mp hmem with hmem | hmem
    · exact hzero hmem
    · exact hname hmem
  · exact makeFoldersBack_fromSystem (by rwa [hpath]) (congrArg Prod.fst h)

theorem replaceFileBelow_of_zeroByte {d done : Disk} {p : Path} {name : String}
    (hname : '\x00' ∉ name.toList) {content : List UInt8} {trouble : DiskTrouble}
    (h : d.replaceFileBelow (p.below name) content = (.error trouble, done))
    (hsystem : trouble.error.fromSystem = false) : done = d := by
  by_cases hzero : '\x00' ∈ p.text.toList
  · rw [replaceFileBelow_of_zero hzero] at h
    exact (congrArg Prod.snd h).symm
  · rw [replaceFileBelow_fromSystem hzero hname h] at hsystem
    cases hsystem

end CrateDocs.Disk
