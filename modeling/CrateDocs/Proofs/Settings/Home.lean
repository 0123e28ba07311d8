import CrateDocs.Proofs.Disk.Locate
import CrateDocs.Proofs.Text.Split
import CrateDocs.Proofs.Text.Trim
import CrateDocs.Proofs.Work.Reads
import CrateDocs.Settings.Home

namespace CrateDocs

-- Whether a path starts in the home directory of a user: it is relative, and its first component is a tilde with the
-- name of the user. The empty name is that of the user the program runs as.
def Path.StartsIn (p : Path) (user : String) : Prop :=
  ∃ rest, p = ⟨.here, ("~" ++ user) :: rest⟩

theorem Path.StartsIn.unique {p : Path} {user other : String} (h : p.StartsIn user) (hother : p.StartsIn other) :
    other = user := by
  obtain ⟨rest, rfl⟩ := h
  obtain ⟨more, hmore⟩ := hother
  have hfirst : "~" ++ user = "~" ++ other := (List.cons.inj (Path.mk.inj hmore).2).1
  rw [← String.toList_inj, String.toList_append, String.toList_append, List.append_cancel_left_eq,
    String.toList_inj] at hfirst
  exact hfirst.symm

namespace Settings

variable {w : World} {user text : String} {p : Path}

-- What is on record as the home directory of a user. The variable counts before the account.
inductive Recorded (w : World) : String → String → Prop
  | environment {text : String} (h : w.environment.lookup "HOME" = some text) : Recorded w "" text
  | account {text : String} (hvariable : w.environment.lookup "HOME" = none) (h : w.ownHome = some text) :
      Recorded w "" text
  | named {name text : String} (hne : name ≠ "") (hzero : '\x00' ∉ name.toList) (h : w.users.lookup name = some text) :
      Recorded w name text

-- A home directory on record without the slashes at its end; nothing else is the root.
def withoutSlashes (text : String) : String :=
  let cut := Text.dropEndWhile (· == '/') text.toList
  if cut.isEmpty then "/" else String.ofList cut

-- A home directory that a path can start in. One on record that starts with a tilde itself is none.
def HomeOf (w : World) (user : String) (home : Path) : Prop :=
  ∃ text, Recorded w user text ∧ text.toList.head? ≠ some '~' ∧ home = Path.ofText (withoutSlashes text)

-- The outcomes of replacing the tilde at the start of a path.
inductive Expands (w : World) : Path → Except Failure Path → Prop
  | plain {p : Path} (h : ∀ user, ¬p.StartsIn user) : Expands w p (.ok p)
  | home {user : String} {home : Path} (hhome : HomeOf w user home) (rest : List String) :
      Expands w ⟨.here, ("~" ++ user) :: rest⟩ (.ok ⟨home.anchor, home.parts ++ rest⟩)
  | unknown {user : String} (hzero : '\x00' ∉ user.toList) (hhome : ∀ home, ¬HomeOf w user home) (rest : List String) :
      Expands w ⟨.here, ("~" ++ user) :: rest⟩ (.error .homeUnknown)
  | zeroByte {user : String} (hzero : '\x00' ∈ user.toList) (rest : List String) :
      Expands w ⟨.here, ("~" ++ user) :: rest⟩ (.error (.disk ⟨.zeroByte, none⟩))

theorem Recorded.unique {other : String} (h : Recorded w user text) (hother : Recorded w user other) :
    other = text := by
  cases h with
  | environment h =>
      cases hother with
      | environment hother => exact Option.some.inj (hother.symm.trans h)
      | account hnone _ => cases hnone.symm.trans h
      | named hne _ _ => exact absurd rfl hne
  | account hnone h =>
      cases hother with
      | environment hother => cases hnone.symm.trans hother
      | account _ hother => exact Option.some.inj (hother.symm.trans h)
      | named hne _ _ => exact absurd rfl hne
  | named hne _ h =>
      cases hother with
      | environment _ => exact absurd rfl hne
      | account _ _ => exact absurd rfl hne
      | named _ _ hother => exact Option.some.inj (hother.symm.trans h)

theorem startsWith_withoutSlashes (text : String) :
    Text.startsWith "~" (withoutSlashes text) = true ↔ text.toList.head? = some '~' := by
  obtain ⟨ending, htext, hending⟩ := Text.dropEndWhile_append_ending (· == '/') text.toList
  have hhead : text.toList.head? = (Text.dropEndWhile (· == '/') text.toList ++ ending).head? := by rw [htext]
  rw [hhead, Text.startsWith, withoutSlashes]
  cases Text.dropEndWhile (· == '/') text.toList with
  | nil =>
      -- Nothing but slashes.
      refine iff_of_false (by decide) fun htilde => ?_
      have hslash := hending '~' (List.mem_of_head? htilde)
      revert hslash
      decide
  | cons c cut =>
      rw [List.isEmpty_cons, if_neg Bool.false_ne_true, String.toList_ofList, String.toList_ofList,
        List.isPrefixOf_iff_prefix, List.singleton_prefix_iff_head?_eq_some, List.cons_append, List.head?_cons,
        List.head?_cons]

-- What the system answers about a user.

theorem homeOf?_of_zero (hzero : '\x00' ∈ user.toList) :
    (homeOf? user).runIn w = (.error (.disk ⟨.zeroByte, none⟩), w) := by
  have hne : user.isEmpty = false := by
    rw [← Bool.not_eq_true, String.isEmpty_iff]
    rintro rfl
    cases hzero
  rw [homeOf?, Work.runIn_get_bind, hne, if_neg Bool.false_ne_true, if_pos (List.contains_iff_mem.mpr hzero)]
  rfl

theorem homeOf?_own : (homeOf? "").runIn w =
    (.ok (((w.environment.lookup "HOME").or w.ownHome).map withoutSlashes), w) :=
  rfl

theorem homeOf?_named (hne : user ≠ "") (hzero : '\x00' ∉ user.toList) :
    (homeOf? user).runIn w = (.ok ((w.users.lookup user).map withoutSlashes), w) := by
  have hempty : user.isEmpty = false := by
    rwa [← Bool.not_eq_true, String.isEmpty_iff]
  rw [homeOf?, Work.runIn_get_bind, hempty, if_neg Bool.false_ne_true,
    if_neg fun h => hzero (List.contains_iff_mem.mp h)]
  rfl

theorem Recorded.homeOf?_eq (h : Recorded w user text) :
    (homeOf? user).runIn w = (.ok (some (withoutSlashes text)), w) := by
  cases h with
  | environment h => rw [homeOf?_own, h, Option.some_or, Option.map_some]
  | account hnone h => rw [homeOf?_own, hnone, Option.none_or, h, Option.map_some]
  | named hne hzero h => rw [homeOf?_named hne hzero, h, Option.map_some]

theorem homeOf?_of_none (hzero : '\x00' ∉ user.toList) (h : ∀ text, ¬Recorded w user text) :
    (homeOf? user).runIn w = (.ok none, w) := by
  by_cases hne : user = ""
  · subst hne
    have hvariable : w.environment.lookup "HOME" = none :=
      Option.eq_none_iff_forall_ne_some.mpr fun text htext => h text (.environment htext)
    have haccount : w.ownHome = none :=
      Option.eq_none_iff_forall_ne_some.mpr fun text htext => h text (.account hvariable htext)
    rw [homeOf?_own, hvariable, haccount, Option.none_or, Option.map_none]
  · have hnone : w.users.lookup user = none :=
      Option.eq_none_iff_forall_ne_some.mpr fun text htext => h text (.named hne hzero htext)
    rw [homeOf?_named hne hzero, hnone, Option.map_none]

-- Replacing the tilde, by the user that it names.

theorem expandHome_of_plain (h : ∀ user, ¬p.StartsIn user) : (expandHome p).runIn w = (.ok p, w) := by
  obtain ⟨anchor, parts⟩ := p
  cases anchor with
  | root => rfl
  | doubleRoot => rfl
  | here =>
      cases parts with
      | nil => rfl
      | cons first rest =>
          rw [expandHome]
          dsimp only
          split
          · rename_i user htilde
            have hfirst : first = "~" ++ String.ofList user := by
              rw [← String.toList_inj, htilde, String.toList_append, String.toList_ofList, String.toList_ofList,
                List.singleton_append]
            exact absurd ⟨rest, by rw [hfirst]⟩ (h (String.ofList user))
          · rfl

theorem expandHome_of_user (user : String) (rest : List String) :
    (expandHome ⟨.here, ("~" ++ user) :: rest⟩).runIn w =
      match (homeOf? user).runIn w with
      | (.error failure, left) => (.error failure, left)
      | (.ok none, left) => (.error .homeUnknown, left)
      | (.ok (some text), left) =>
        if Text.startsWith "~" text then (.error .homeUnknown, left)
        else (.ok ⟨(Path.ofText text).anchor, (Path.ofText text).parts ++ rest⟩, left) := by
  have htilde : ("~" ++ user).toList = '~' :: user.toList := String.toList_append
  simp only [expandHome, htilde, String.ofList_toList]
  rw [Work.runIn_bind]
  rcases (homeOf? user).runIn w with ⟨failure | text, left⟩
  · rfl
  · cases text with
    | none => rfl
    | some text =>
        dsimp only
        split <;> rfl

theorem expandHome_of_known (hzero : '\x00' ∉ user.toList) (rest : List String) :
    (∃ home, HomeOf w user home ∧
      (expandHome ⟨.here, ("~" ++ user) :: rest⟩).runIn w = (.ok ⟨home.anchor, home.parts ++ rest⟩, w)) ∨
    (∀ home, ¬HomeOf w user home) ∧
      (expandHome ⟨.here, ("~" ++ user) :: rest⟩).runIn w = (.error .homeUnknown, w) := by
  rw [expandHome_of_user]
  by_cases hrecorded : ∃ text, Recorded w user text
  · obtain ⟨text, htext⟩ := hrecorded
    rw [htext.homeOf?_eq]
    dsimp only
    by_cases htilde : text.toList.head? = some '~'
    · rw [if_pos ((startsWith_withoutSlashes text).mpr htilde)]
      refine Or.inr ⟨?_, rfl⟩
      rintro home ⟨other, hother, hnot, _⟩
      rw [htext.unique hother] at hnot
      exact hnot htilde
    · rw [if_neg (mt (startsWith_withoutSlashes text).mp htilde)]
      exact Or.inl ⟨_, ⟨text, htext, htilde, rfl⟩, rfl⟩
  · rw [homeOf?_of_none hzero (not_exists.mp hrecorded)]
    refine Or.inr ⟨?_, rfl⟩
    rintro home ⟨text, htext, _⟩
    exact hrecorded ⟨text, htext⟩

-- A tilde is replaced, or one of two failures ends the work; nothing else happens.
theorem exists_expands (w : World) (p : Path) :
    ∃ outcome, (expandHome p).runIn w = (outcome, w) ∧ Expands w p outcome := by
  by_cases huser : ∃ user, p.StartsIn user
  · obtain ⟨user, rest, rfl⟩ := huser
    by_cases hzero : '\x00' ∈ user.toList
    · refine ⟨_, ?_, .zeroByte hzero rest⟩
      rw [expandHome_of_user, homeOf?_of_zero hzero]
    · rcases expandHome_of_known hzero rest with ⟨home, hhome, hrun⟩ | ⟨hhome, hrun⟩
      · exact ⟨_, hrun, .home hhome rest⟩
      · exact ⟨_, hrun, .unknown hzero hhome rest⟩
  · exact ⟨.ok p, expandHome_of_plain (not_exists.mp huser), .plain (not_exists.mp huser)⟩

-- The outcomes of looking for a directory: it is set, or it has a place of its own, or it is below the home directory
-- under a name.
inductive Resolves (w : World) (set own : Option Path) (name : String) : Except Failure Path → Prop
  | set {path : Path} {outcome : Except Failure Path} (hset : set = some path) (h : Expands w path outcome) :
      Resolves w set own name outcome
  | own {path : Path} (hset : set = none) (hown : own = some path) : Resolves w set own name (.ok path)
  | below {home : Path} (hset : set = none) (hown : own = none) (hhome : HomeOf w "" home) :
      Resolves w set own name (.ok (home.below name))
  | noHome (hset : set = none) (hown : own = none) (hhome : ∀ home, ¬HomeOf w "" home) :
      Resolves w set own name (.error (.fault .noHome))

-- Only where nothing is set is an unknown home directory a fault of the program's own.
theorem exists_resolves_home {name : String} (hname : isFileName name = true) (w : World) :
    ∃ outcome, Work.runIn (do return (← home).child name) w = (outcome, w) ∧ Resolves w none none name outcome := by
  have hzero : '\x00' ∉ "".toList := List.not_mem_nil
  have hown := expandHome_of_known (w := w) hzero []
  rw [String.append_empty] at hown
  rw [Work.runIn_bind, home, Work.runIn_tryCatch]
  rcases hown with ⟨path, hpath, hrun⟩ | ⟨hpath, hrun⟩
  · rw [List.append_nil] at hrun
    rw [hrun]
    refine ⟨.ok (path.below name), ?_, .below rfl rfl hpath⟩
    rw [← Path.child_of_isFileName path hname]
    rfl
  · rw [hrun]
    exact ⟨.error (.fault .noHome), rfl, .noHome rfl rfl hpath⟩

theorem exists_resolvedCacheRoot (settings : Settings) (w : World) :
    ∃ outcome, settings.resolvedCacheRoot.runIn w = (outcome, w) ∧
      Resolves w settings.cacheRoot none ".oxidoc" outcome := by
  rw [resolvedCacheRoot]
  cases settings.cacheRoot with
  | some path =>
      obtain ⟨outcome, hrun, hexpands⟩ := exists_expands w path
      exact ⟨outcome, hrun, .set rfl hexpands⟩
  | none => exact exists_resolves_home (by decide) w

-- The directory that a variable of the environment names, if it is not empty.
def cargoVariable (w : World) : Option Path :=
  ((w.environment.lookup "CARGO_HOME").filter (· != "")).map Path.ofText

theorem exists_resolvedCargoHome (settings : Settings) (w : World) :
    ∃ outcome, settings.resolvedCargoHome.runIn w = (outcome, w) ∧
      Resolves w settings.cargoHome (cargoVariable w) ".cargo" outcome := by
  rw [resolvedCargoHome]
  cases settings.cargoHome with
  | some path =>
      obtain ⟨outcome, hrun, hexpands⟩ := exists_expands w path
      exact ⟨outcome, hrun, .set rfl hexpands⟩
  | none =>
      have hvariable : (Work.valueOf? "CARGO_HOME").runIn w = (.ok (w.environment.lookup "CARGO_HOME"), w) := rfl
      dsimp only
      rw [Work.runIn_bind_of_ok hvariable]
      cases hfilter : (w.environment.lookup "CARGO_HOME").filter (· != "") with
      | some path => exact ⟨.ok (Path.ofText path), rfl, .own rfl (by rw [cargoVariable, hfilter, Option.map_some])⟩
      | none =>
          rw [cargoVariable, hfilter, Option.map_none]
          exact exists_resolves_home (by decide) w

-- What looking for a directory is meant to end with: a path, or the fault that there is no home directory.
def Meant (outcome : Except Failure Path) : Prop :=
  (∃ path, outcome = .ok path) ∨ outcome = .error (.fault .noHome)

-- Whether the home directory that a set path starts in can be found out.
def Known (w : World) (set : Option Path) : Prop :=
  ∀ path user, set = some path → path.StartsIn user → ∃ home, HomeOf w user home

theorem not_meant {failure : Failure} (h : failure ≠ .fault .noHome) : ¬Meant (.error failure) := by
  rintro (⟨_, hok⟩ | herror)
  · cases hok
  · exact h (Except.error.inj herror)

theorem Expands.meant_iff {outcome : Except Failure Path} (h : Expands w p outcome) :
    Meant outcome ↔ ∀ user, p.StartsIn user → ∃ home, HomeOf w user home := by
  cases h with
  | plain hplain => exact iff_of_true (Or.inl ⟨p, rfl⟩) fun user huser => absurd huser (hplain user)
  | @home user home hhome rest =>
      refine iff_of_true (Or.inl ⟨_, rfl⟩) fun other hother => ?_
      rw [Path.StartsIn.unique ⟨rest, rfl⟩ hother]
      exact ⟨home, hhome⟩
  | @unknown user _ hhome rest =>
      refine iff_of_false (not_meant Failure.noConfusion) fun hknown => ?_
      obtain ⟨home, hfound⟩ := hknown user ⟨rest, rfl⟩
      exact hhome home hfound
  | @zeroByte user hzero rest =>
      refine iff_of_false (not_meant Failure.noConfusion) fun hknown => ?_
      obtain ⟨home, text, hrecorded, _⟩ := hknown user ⟨rest, rfl⟩
      cases hrecorded with
      | environment _ => cases hzero
      | account _ _ => cases hzero
      | named _ hnot _ => exact hnot hzero

theorem Resolves.meant_iff {set own : Option Path} {name : String} {outcome : Except Failure Path}
    (h : Resolves w set own name outcome) : Meant outcome ↔ Known w set := by
  have hunset : set = none → Known w set := by
    rintro rfl path user ⟨⟩
  cases h with
  | @set path _ hset hexpands =>
      rw [hexpands.meant_iff, hset]
      constructor
      · rintro hknown _ user ⟨⟩
        exact hknown user
      · exact fun hknown user => hknown path user rfl
  | own hset _ => exact iff_of_true (Or.inl ⟨_, rfl⟩) (hunset hset)
  | below hset _ _ => exact iff_of_true (Or.inl ⟨_, rfl⟩) (hunset hset)
  | noHome hset _ _ => exact iff_of_true (Or.inr rfl) (hunset hset)

-- Looking for either directory changes nothing and has the outcomes of `Resolves`. They are the meant ones exactly if
-- the home directory that a set path starts in can be found out; where nothing is set they always are.
theorem resolved_outcomes (settings : Settings) (w : World) :
    (∃ outcome, settings.resolvedCacheRoot.runIn w = (outcome, w) ∧
      Resolves w settings.cacheRoot none ".oxidoc" outcome ∧ (Meant outcome ↔ Known w settings.cacheRoot)) ∧
    ∃ outcome, settings.resolvedCargoHome.runIn w = (outcome, w) ∧
      Resolves w settings.cargoHome (cargoVariable w) ".cargo" outcome ∧
      (Meant outcome ↔ Known w settings.cargoHome) := by
  obtain ⟨cache, hcache, hresolves⟩ := exists_resolvedCacheRoot settings w
  obtain ⟨cargo, hcargo, hresolves'⟩ := exists_resolvedCargoHome settings w
  exact ⟨⟨cache, hcache, hresolves, hresolves.meant_iff⟩, cargo, hcargo, hresolves', hresolves'.meant_iff⟩

-- A path that is set and starts in the home directory of nobody there is.
example :
    ((resolvedCacheRoot ⟨some ⟨.here, ["~nobody", "docs"]⟩, none, .exact⟩).runIn
      ⟨.emptyAt [], [("HOME", "/home/a")], [("b", "/home/b")], ⟨[], Level.warning, false⟩, [], none⟩).1 =
      .error .homeUnknown := by
  rfl

end Settings

end CrateDocs
