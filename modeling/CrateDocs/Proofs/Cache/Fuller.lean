import CrateDocs.Proofs.Cache.Stored

namespace CrateDocs.Cache

variable {cache : Cache} {d e left left' : Disk}

-- A disk that has all that another has, and empty directories of the cache besides: on the way to its root, or
-- for a package in it.
structure Fuller (cache : Cache) (d e : Disk) : Prop where
  here : e.here = d.here
  limits : e.limits = d.limits
  marks : ∀ l, e.mark? l = d.mark? l ∨ d.mark? l = none ∧ e.mark? l = some .folder ∧ d.start cache.root <+: l ∧
    (l <+: d.spot cache.root ∨ ∃ p : Package, l = d.spot cache.root ++ [p.key] ∧ (cache.folderFor p).Usable)

theorem pairwise_sortByName_takenAt (root : Path) (d : Disk) (location : Location) :
    (sortByName ((d.takenAt location).map root.below)).Pairwise fun a b => a.name < b.name := by
  rw [Disk.takenAt]
  split
  · exact pairwise_sortByName root _
  · simp [sortByName]

-- What gives nothing can be left out.
theorem mapM_filter {α β : Type} {f g : α → Except Failure (Option β)} {keep : α → Bool} {l : List α}
    (hout : ∀ a ∈ l, keep a = false → f a = .ok none) (hin : ∀ a ∈ l, keep a = true → f a = g a) :
    (l.mapM f).map (·.filterMap id) = ((l.filter keep).mapM g).map (·.filterMap id) := by
  induction l with
  | nil => rfl
  | cons a l ih =>
      rw [List.forall_mem_cons] at hout hin
      have hrest := ih hout.2 hin.2
      rw [List.mapM_cons]
      cases hkeep : keep a with
      | false =>
          rw [List.filter_cons_of_neg (by simp [hkeep]), hout.1 hkeep, ← hrest]
          cases l.mapM f <;> rfl
      | true =>
          rw [List.filter_cons_of_pos hkeep, List.mapM_cons, hin.1 hkeep]
          cases g a with
          | error failure => rfl
          | ok b =>
              dsimp only [bind, Except.bind]
              cases hf : l.mapM f with
              | error failure =>
                  cases hg : (l.filter keep).mapM g with
                  | error failure' =>
                      rw [hf, hg] at hrest
                      exact hrest
                  | ok bs =>
                      rw [hf, hg] at hrest
                      cases hrest
              | ok bs =>
                  cases hg : (l.filter keep).mapM g with
                  | error failure =>
                      rw [hf, hg] at hrest
                      cases hrest
                  | ok bs' =>
                      rw [hf, hg] at hrest
                      have hfound : bs.filterMap id = bs'.filterMap id := Except.ok.inj hrest
                      simp only [pure, Except.pure, Except.map, List.filterMap_cons, hfound]

namespace Fuller

theorem of_same (hhere : e.here = d.here) (hlimits : e.limits = d.limits) (h : e.mark? = d.mark?) :
    cache.Fuller d e :=
  ⟨hhere, hlimits, fun l => Or.inl (congrFun h l)⟩

theorem start (h : cache.Fuller d e) (path : Path) : e.start path = d.start path :=
  Disk.start_congr h.here path

theorem spot (h : cache.Fuller d e) (path : Path) : e.spot path = d.spot path := by
  rw [Disk.spot, Disk.spot, h.start]

theorem mark?_of_ne (h : cache.Fuller d e) {l : Location} (hl : d.mark? l ≠ none) : e.mark? l = d.mark? l := by
  rcases h.marks l with hsame | ⟨hnone, _⟩
  · exact hsame
  · exact absurd hnone hl

theorem mark?_of_none (h : cache.Fuller d e) {l : Location} (hl : e.mark? l = none) : d.mark? l = none := by
  by_contra hne
  rw [← h.mark?_of_ne hne] at hne
  exact hne hl

-- Nothing is different below the directory of a package.
theorem mark?_below (h : cache.Fuller d e) (key name : String) (rest : List String) :
    e.mark? (d.spot cache.root ++ key :: name :: rest) = d.mark? (d.spot cache.root ++ key :: name :: rest) := by
  rcases h.marks (d.spot cache.root ++ key :: name :: rest) with hsame | ⟨_, _, _, hleads | ⟨p, hp, _⟩⟩
  · exact hsame
  · have hlength := hleads.length_le
    rw [List.length_append, List.length_cons] at hlength
    omega
  · have hlength := congrArg List.length hp
    simp only [List.length_append, List.length_cons, List.length_nil] at hlength
    omega

theorem sameWay (h : cache.Fuller d e) (p : Package) : d.SameWay e (cache.folderFor p) := by
  refine ⟨h.here, ?_, fun l _ => ?_, fun name => ?_⟩
  · rw [start_folderFor]
    rcases h.marks (d.start cache.root).dropLast with hsame | ⟨hnone, _, hstart, _⟩
    · rw [hsame]
    · -- Only the start itself is a prefix of what is above it, and only if it is the top.
      have hlength := hstart.length_le
      rw [List.length_dropLast] at hlength
      have hnil : d.start cache.root = [] := List.eq_nil_of_length_eq_zero (by omega)
      rw [hnil, List.dropLast_nil, Disk.mark?_root] at hnone
      cases hnone
  · rw [Disk.blocks, Disk.blocks]
    rcases h.marks l with hsame | ⟨hnone, hfolder, _⟩
    · rw [hsame]
    · rw [hnone, hfolder]
  · rw [spot_folderFor, List.append_assoc, List.singleton_append]
    exact h.mark?_below p.key name []

theorem refusal?_eq (h : cache.Fuller d e) (p : Package) : cache.refusal? e p = cache.refusal? d p :=
  (h.sameWay p).storeRefusal? _

theorem madeFor_iff (h : cache.Fuller d e) (p : Package) (l : Location) : cache.MadeFor e p l ↔ cache.MadeFor d p l :=
  (h.sameWay p).madeFor_iff l

-- A call that stores its package does so on both disks.
theorem stores (h : cache.Fuller d e) {put : Put} (hd : cache.Stores d left put) (he : cache.Stores e left' put) :
    cache.Fuller left left' := by
  obtain ⟨hhere, hlimits, hfile, hnew, hsame⟩ := he
  simp only [h.refusal?_eq, h.madeFor_iff, h.spot] at hfile hnew hsame
  have hleft : ∀ path, left.start path = d.start path := Disk.start_congr hd.here
  refine ⟨hhere.trans (h.here.trans hd.here.symm), hlimits.trans (h.limits.trans hd.limits.symm), fun l => ?_⟩
  rw [hd.spot, hleft]
  by_cases hdone : cache.refusal? d put.package = none ∧ l = fileSpot (d.spot cache.root) put.package.key
  · rw [hdone.2, hfile hdone.1, hd.file hdone.1]
    exact Or.inl rfl
  · rw [not_and] at hdone
    by_cases hl : d.mark? l = none ∧ cache.MadeFor d put.package l
    · rw [hd.made l hl.1 hl.2]
      by_cases hthere : e.mark? l = none
      · rw [hnew l hthere hl.2]
        exact Or.inl rfl
      · rcases h.marks l with hbefore | ⟨_, hfolder, _⟩
        · rw [hbefore] at hthere
          exact absurd hl.1 hthere
        · rw [hsame l hdone fun hnone => absurd hnone hthere, hfolder]
          exact Or.inl rfl
    · rw [not_and] at hl
      rw [hd.same l hdone hl, hsame l hdone fun hnone => hl (h.mark?_of_none hnone)]
      exact h.marks l

-- A call that fails leaves directories at most.
theorem stores_of_refused (h : cache.Fuller d e) {put : Put} (he : cache.Stores e left put)
    (hrefused : cache.refusal? e put.package ≠ none) : cache.Fuller d left := by
  refine ⟨he.here.trans h.here, he.limits.trans h.limits, fun l => ?_⟩
  by_cases hl : e.mark? l = none ∧ cache.MadeFor e put.package l
  · obtain ⟨hstart, hplace⟩ := hl.2.cases
    rw [h.start] at hstart
    rw [h.spot] at hplace
    refine Or.inr ⟨h.mark?_of_none hl.1, he.made l hl.1 hl.2, hstart, hplace.imp_right ?_⟩
    rintro ⟨hspot, husable⟩
    exact ⟨put.package, hspot, husable⟩
  · rw [not_and] at hl
    rw [he.same l (fun hdone => absurd hdone hrefused) hl]
    exact h.marks l

-- On the way to what stands in the root nothing is different.
theorem mark?_way (h : cache.Fuller d e) {name : String} (hthere : d.mark? (d.spot cache.root ++ [name]) ≠ none)
    {l : Location} (hl : l <+: d.spot cache.root ++ [name]) : e.mark? l = d.mark? l := by
  apply h.mark?_of_ne
  rcases List.prefix_concat_iff.mp hl with rfl | hleads
  · exact hthere
  · rw [Disk.mark?_folder_above (Disk.mark?_above hthere) hleads]
    nofun

section contents

variable (h : cache.Fuller d e) (hroot : cache.root.Plain)

include h hroot

-- What stands in the root is read alike.

theorem agree_below {name : String} (hthere : d.mark? (d.spot cache.root ++ [name]) ≠ none) :
    Disk.Agree d e (cache.root.below name) := by
  refine ⟨h.here, fun l hl => h.mark?_way hthere ?_⟩
  rcases Disk.mem_trail_concat hroot hl with hleads | rfl
  · exact hleads.trans (List.prefix_append _ _)
  · exact List.prefix_refl _

theorem agree_file {name : String} (hname : isFileName name = true)
    (hthere : d.mark? (d.spot cache.root ++ [name]) ≠ none) (file : String) :
    Disk.Agree d e ((cache.root.below name).below file) := by
  have hspot : d.start cache.root ++ (cache.root.below name).parts = d.spot cache.root ++ [name] :=
    Disk.spot_below d _ name
  refine ⟨h.here, fun l hl => ?_⟩
  rcases Disk.mem_trail_concat (Path.plain_below hroot (ne_up_of_isFileName hname)) hl with hleads | rfl
  · refine h.mark?_way hthere ?_
    rw [← hspot]
    exact hleads
  · have hbelow := h.mark?_below name file []
    rw [← List.singleton_append, ← List.append_assoc, ← hspot] at hbelow
    exact hbelow

theorem entryAt_eq {name : String} (hthere : d.mark? (d.spot cache.root ++ [name]) ≠ none) :
    entryAt e (cache.root.below name) = entryAt d (cache.root.below name) := by
  have hfolder : e.isFolder (cache.root.below name) = d.isFolder (cache.root.below name) := by
    rw [Disk.isFolder_eq_mark, Disk.isFolder_eq_mark, (h.agree_below hroot hthere).entry]
  rw [entryAt, entryAt, hfolder, name_below]
  split
  · rfl
  · rfl
  · split
    · rfl
    · rename_i package hkey
      obtain ⟨rfl, _⟩ := Package.key_of_ofKey? hkey
      have hread := (h.agree_file hroot package.isFileName_key hthere (package.key ++ ".json")).read
      rw [← Path.child_of_isFileName _ package.isFileName_key_json] at hread
      rw [docsAt?, docsAt?, hread]

-- A directory that only one of the disks has holds nothing.
theorem entryAt_new {name : String} (hthere : e.mark? (d.spot cache.root ++ [name]) ≠ none)
    (hnone : d.mark? (d.spot cache.root ++ [name]) = none) : entryAt e (cache.root.below name) = .ok none := by
  obtain ⟨p, rfl, husable, hfolder⟩ : ∃ p : Package, name = p.key ∧ (cache.root.below p.key).Usable ∧
      e.mark? (d.spot cache.root ++ [p.key]) = some .folder := by
    rcases h.marks (d.spot cache.root ++ [name]) with hsame | ⟨_, hfolder, _, hleads | ⟨p, hp, husable⟩⟩
    · rw [hsame] at hthere
      exact absurd hnone hthere
    · have hlength := hleads.length_le
      rw [List.length_append, List.length_singleton] at hlength
      omega
    · rw [List.append_cancel_left_eq, List.singleton_inj] at hp
      rw [hp] at hfolder
      rw [folderFor_eq] at husable
      exact ⟨p, hp, husable, hfolder⟩
  have hplain := Path.plain_below hroot (ne_up_of_isFileName p.isFileName_key)
  have hisFolder : e.isFolder (cache.root.below p.key) = .ok true := by
    obtain ⟨inner, hinner⟩ := (Disk.mark?_eq_folder_iff e _).mp hfolder
    rw [Disk.isFolder_eq_true_iff]
    refine ⟨inner, (Disk.entry_plain_iff e hplain _).mpr ⟨husable, ?_⟩⟩
    rw [Disk.spot_below, h.spot]
    exact hinner
  have hdocs : docsAt? e ((cache.root.below p.key).child (p.key ++ ".json")) = none := by
    rw [Option.eq_none_iff_forall_ne_some]
    intro docs hdocs
    rw [Path.child_of_isFileName _ p.isFileName_key_json, docsAt?_eq_some_iff] at hdocs
    obtain ⟨bytes, hentry, _⟩ := hdocs
    have hfile := ((Disk.entry_plain_iff e
      (Path.plain_below hplain (ne_up_of_isFileName p.isFileName_key_json)) _).mp hentry).2
    rw [Disk.spot_below, Disk.spot_below, h.spot, ← Disk.mark?_eq_file_iff, List.append_assoc, List.singleton_append,
      h.mark?_below, ← List.singleton_append, ← List.append_assoc, Disk.mark?_below_none hnone] at hfile
    cases hfile
  rw [entryAt, hisFolder, name_below]
  dsimp only
  rw [hdocs]
  split <;> rfl

-- So the root is read alike, once it is there.
theorem mapM_entryAt {inner : Folder} (hinner : e.root.find? (d.spot cache.root) = some (.folder inner)) :
    ((sortByName (inner.names.map cache.root.below)).mapM (entryAt e)).map (·.filterMap id) =
      ((sortByName ((d.takenAt (d.spot cache.root)).map cache.root.below)).mapM (entryAt d)).map (·.filterMap id) := by
  have hnames : ∀ name, name ∈ inner.names ↔ e.mark? (d.spot cache.root ++ [name]) ≠ none := by
    intro name
    rw [Folder.mem_names_iff, Ne, Ne, Disk.mark?_eq_none_iff, Folder.find?_snoc hinner]
  have hold : ∀ name, name ∈ d.takenAt (d.spot cache.root) → name ∈ inner.names := by
    intro name hname
    rw [Disk.mem_takenAt_iff] at hname
    rwa [hnames, h.mark?_of_ne hname]
  have hsorted : (sortByName (inner.names.map cache.root.below)).filter
        (fun entry => decide (entry.name ∈ d.takenAt (d.spot cache.root))) =
      sortByName ((d.takenAt (d.spot cache.root)).map cache.root.below) := by
    have hordered := (pairwise_sortByName cache.root inner).filter
      fun entry => decide (entry.name ∈ d.takenAt (d.spot cache.root))
    refine eq_of_pairwise_lt Path.name hordered (pairwise_sortByName_takenAt _ d _) fun entry => ?_
    simp only [List.mem_filter, sortByName, List.mem_mergeSort, List.mem_map, decide_eq_true_eq]
    constructor
    · rintro ⟨⟨name, _, rfl⟩, hname⟩
      rw [name_below] at hname
      exact ⟨name, hname, rfl⟩
    · rintro ⟨name, hname, rfl⟩
      rw [name_below]
      exact ⟨⟨name, hold name hname, rfl⟩, hname⟩
  rw [← hsorted]
  refine mapM_filter ?_ ?_
  · intro entry hentry hkeep
    rw [sortByName, List.mem_mergeSort, List.mem_map] at hentry
    obtain ⟨name, hname, rfl⟩ := hentry
    rw [name_below, decide_eq_false_iff_not, Disk.mem_takenAt_iff, not_not] at hkeep
    exact h.entryAt_new hroot ((hnames name).mp hname) hkeep
  · intro entry hentry hkeep
    rw [sortByName, List.mem_mergeSort, List.mem_map] at hentry
    obtain ⟨name, _, rfl⟩ := hentry
    rw [name_below, decide_eq_true_eq, Disk.mem_takenAt_iff] at hkeep
    exact h.entryAt_eq hroot hkeep

theorem contents_of_entry (hentry : (e.entry cache.root).map Entry.mark = (d.entry cache.root).map Entry.mark) :
    cache.contents e = cache.contents d := by
  rw [contents, contents, Disk.hasEntry_eq_mark, Disk.hasEntry_eq_mark, hentry, Disk.list_eq, Disk.list_eq, h.limits]
  rcases hd : d.entry cache.root with refusal | (content | inner)
  · dsimp only [Except.map]
    cases refusal.meansAbsent <;> rfl
  · rw [hd] at hentry
    rcases he : e.entry cache.root with refusal | (content' | inner')
    · rw [he] at hentry
      cases hentry
    · by_cases hdenied : cache.root.text ∈ d.limits.unlistable <;> simp [Except.map, hdenied]
    · rw [he] at hentry
      cases hentry
  · rw [hd] at hentry
    rcases he : e.entry cache.root with refusal | (content' | inner')
    · rw [he] at hentry
      cases hentry
    · rw [he] at hentry
      cases hentry
    · have hfound := ((Disk.entry_plain_iff d hroot _).mp hd).2
      have hfound' := ((Disk.entry_plain_iff e hroot _).mp he).2
      rw [h.spot] at hfound'
      have hnames : d.takenAt (d.spot cache.root) = inner.names := by rw [Disk.takenAt, hfound]
      have hread := h.mapM_entryAt hroot hfound'
      rw [hnames] at hread
      by_cases hdenied : cache.root.text ∈ d.limits.unlistable
      · simp [Except.map, hdenied]
      · dsimp only [Except.map]
        rw [if_neg hdenied, if_neg hdenied]
        exact hread

-- A root that was made in the meantime holds nothing.
theorem contents_of_missing (hmissing : d.hasEntry cache.root = .ok false)
    (hsizes : ∀ part ∈ cache.root.parts, Utf8.size part ≤ Disk.nameLimit) (hlistable : cache.root.text ∉ d.limits.unlistable) :
    cache.contents e = cache.contents d := by
  cases htext : Disk.textRefusal? cache.root with
  | some refusal =>
      refine h.contents_of_entry hroot ?_
      rw [Disk.map_mark_entry, Disk.map_mark_entry, htext]
  | none =>
      have husable : cache.root.Usable := ⟨(Disk.textRefusal?_eq_none_iff _).mp htext, hsizes⟩
      by_cases hspot : e.mark? (d.spot cache.root) = d.mark? (d.spot cache.root)
      · refine h.contents_of_entry hroot ?_
        rw [Disk.map_mark_entry, Disk.map_mark_entry, htext, h.start]
        refine Disk.lookup_congr hroot hsizes (fun front _ => ?_) hspot
        rcases h.marks (d.start cache.root ++ front) with hsame | ⟨hnone, hfolder, _⟩
        · exact Or.inl hsame
        · exact Or.inr ⟨hnone, hfolder⟩
      · obtain ⟨hnone, hfolder⟩ : d.mark? (d.spot cache.root) = none ∧ e.mark? (d.spot cache.root) = some .folder := by
          rcases h.marks (d.spot cache.root) with hsame | ⟨hnone, hfolder, _⟩
          · exact absurd hsame hspot
          · exact ⟨hnone, hfolder⟩
        obtain ⟨inner, hinner⟩ := (Disk.mark?_eq_folder_iff e _).mp hfolder
        have hentry : e.entry cache.root = .ok (.folder inner) := by
          rw [Disk.entry_plain_iff e hroot, h.spot]
          exact ⟨husable, hinner⟩
        have hthere : e.hasEntry cache.root = .ok true := (Disk.hasEntry_eq_true_iff e _).mpr ⟨_, hentry⟩
        have hnames : d.takenAt (d.spot cache.root) = [] := by
          rw [Disk.takenAt, (Disk.mark?_eq_none_iff d _).mp hnone]
        have hempty : sortByName [] = [] := by simp [sortByName]
        have hread := h.mapM_entryAt hroot hinner
        rw [hnames, List.map_nil, hempty] at hread
        rw [contents, contents, hmissing, hthere, Disk.list_eq, h.limits, if_neg hlistable, hentry]
        exact hread

-- The empty directories never show, unless the root was missing before and cannot be asked about or listed
-- once a directory above it is there.
theorem contents_eq (hreach : d.hasEntry cache.root = .ok false →
      (∀ part ∈ cache.root.parts, Utf8.size part ≤ Disk.nameLimit) ∧ cache.root.text ∉ d.limits.unlistable) :
    cache.contents e = cache.contents d := by
  by_cases hmissing : d.hasEntry cache.root = .ok false
  · exact h.contents_of_missing hroot hmissing (hreach hmissing).1 (hreach hmissing).2
  · refine h.contents_of_entry hroot ?_
    rw [Disk.hasEntry_eq_mark] at hmissing
    rw [Disk.map_mark_entry] at hmissing ⊢
    rw [Disk.map_mark_entry]
    cases htext : Disk.textRefusal? cache.root with
    | some refusal => rfl
    | none =>
        rw [htext] at hmissing
        dsimp only at hmissing ⊢
        rw [h.start]
        have hway : ∀ front, front <+: cache.root.parts →
            e.mark? (d.start cache.root ++ front) = d.mark? (d.start cache.root ++ front) ∨
              d.mark? (d.start cache.root ++ front) = none := by
          intro front _
          exact (h.marks _).imp_right fun hmade => hmade.1
        rcases Disk.lookup_more hroot hway with hnone | hsame
        · rw [hnone] at hmissing
          exact absurd rfl hmissing
        · exact hsame

end contents

end Fuller

end CrateDocs.Cache
