import CrateDocs.Json.Reader
import Mathlib.Data.List.Nodup

namespace CrateDocs.Json

-- A value in which no object has a key twice.
inductive Proper : Json → Prop
  | null : Proper .null
  | bool (value : Bool) : Proper (.bool value)
  | number (digits : String) : Proper (.number digits)
  | string (value : String) : Proper (.string value)
  | array {items : List Json} (hitems : ∀ item ∈ items, Proper item) : Proper (.array items)
  | object {fields : List (String × Json)} (hkeys : (fields.map (·.1)).Nodup)
      (hfields : ∀ field ∈ fields, Proper field.2) : Proper (.object fields)

attribute [simp] Proper.null Proper.bool Proper.number Proper.string

@[simp] theorem proper_array_iff {items : List Json} : Proper (.array items) ↔ ∀ item ∈ items, Proper item := by
  constructor
  · rintro (_ | _ | _ | _ | hitems | _)
    exact hitems
  · exact .array

@[simp] theorem proper_object_iff {fields : List (String × Json)} :
    Proper (.object fields) ↔ (fields.map (·.1)).Nodup ∧ ∀ field ∈ fields, Proper field.2 := by
  constructor
  · rintro (_ | _ | _ | _ | _ | ⟨hkeys, hfields⟩)
    exact ⟨hkeys, hfields⟩
  · exact fun h => .object h.1 h.2

-- Setting fields one after the other leaves every key once.

theorem map_fst_setField (fields : List (String × Json)) (key : String) (value : Json) :
    (setField fields key value).map (·.1) =
      if key ∈ fields.map (·.1) then fields.map (·.1) else fields.map (·.1) ++ [key] := by
  have hany : (fields.any fun field => field.1 == key) = true ↔ key ∈ fields.map (·.1) := by
    simp [List.any_eq_true]
  rw [setField]
  by_cases hkey : key ∈ fields.map (·.1)
  · rw [if_pos (hany.mpr hkey), if_pos hkey, List.map_map]
    refine List.map_congr_left fun field _ => ?_
    rw [Function.comp_apply]
    split
    · rename_i heq
      exact (beq_iff_eq.mp heq).symm
    · rfl
  · rw [if_neg (mt hany.mp hkey), if_neg hkey, List.map_append, List.map_singleton]

theorem mem_setField {fields : List (String × Json)} {key : String} {value : Json} {field : String × Json}
    (h : field ∈ setField fields key value) : field ∈ fields ∨ field = (key, value) := by
  rw [setField] at h
  split at h
  · obtain ⟨other, hother, rfl⟩ := List.mem_map.mp h
    split
    · exact Or.inr rfl
    · exact Or.inl hother
  · rwa [List.mem_append, List.mem_singleton] at h

theorem nodup_setField {fields : List (String × Json)} (h : (fields.map (·.1)).Nodup) (key : String) (value : Json) :
    ((setField fields key value).map (·.1)).Nodup := by
  rw [map_fst_setField]
  split
  · exact h
  · rename_i hkey
    exact List.nodup_append.mpr ⟨h, List.nodup_singleton key, fun k hk l hl hkl =>
      hkey (List.mem_singleton.mp hl ▸ hkl ▸ hk)⟩

theorem proper_mergeFields {fields : List (String × Json)} (h : ∀ field ∈ fields, Proper field.2) :
    Proper (.object (mergeFields fields)) := by
  -- The invariant of the fold: distinct keys so far, and no value but those of the fields.
  have hfold : ∀ merged : List (String × Json), Proper (.object merged) →
      Proper (.object (fields.foldl (fun merged field => setField merged field.1 field.2) merged)) := by
    induction fields with
    | nil => exact fun merged hmerged => hmerged
    | cons field fields ih =>
        rintro merged (_ | _ | _ | _ | _ | ⟨hkeys, hvalues⟩)
        rw [List.forall_mem_cons] at h
        refine ih h.2 _ (.object (nodup_setField hkeys field.1 field.2) fun other hother => ?_)
        rcases mem_setField hother with hother | rfl
        · exact hvalues other hother
        · exact h.1
  exact hfold [] (.object List.nodup_nil fun field hfield => absurd hfield List.not_mem_nil)

-- The atoms of a text are plain values.

def Token.Plain : Token → Prop
  | .atom value => value.Proper
  | _ => True

theorem proper_of_word? {cs left : List Char} {value : Json} (h : Token.word? cs = some (value, left)) :
    value.Proper := by
  obtain ⟨word, hword, heq⟩ := Option.map_eq_some_iff.mp h
  obtain ⟨rfl, _⟩ := Prod.mk.inj heq
  have hmem := List.mem_of_find?_eq_some hword
  simp only [Token.words, List.mem_cons, List.not_mem_nil, or_false] at hmem
  rcases hmem with rfl | rfl | rfl | rfl | rfl | rfl
  · exact .null
  · exact .bool true
  · exact .bool false
  all_goals exact .number _

theorem plain_of_first? {cs left : List Char} {token : Token} (h : Token.first? cs = some (token, left)) :
    token.Plain := by
  cases cs with
  | nil => cases h
  | cons c rest =>
      rw [Token.first?] at h
      iterate 6
        split at h
        · cases h
          trivial
      split at h
      · obtain ⟨_, _, heq⟩ := Option.map_eq_some_iff.mp h
        rw [← (Prod.mk.inj heq).1]
        trivial
      · split at h
        · rename_i hword
          cases h
          exact proper_of_word? hword
        · dsimp only at h
          split at h
          · cases h
            exact Proper.number _
          · cases h

theorem plain_of_scan {cs : List Char} {tokens : List Token} (h : Token.scan cs = some tokens) :
    ∀ token ∈ tokens, token.Plain := by
  fun_induction Token.scan cs generalizing tokens with
  | case1 => cases h; exact fun token htoken => absurd htoken List.not_mem_nil
  | case2 c rest hspace ih => exact ih h
  | case3 c rest hspace hnone => cases h
  | case4 c rest hspace token left hfirst hlength ih =>
      obtain ⟨others, hothers, rfl⟩ := Option.map_eq_some_iff.mp h
      exact List.forall_mem_cons.mpr ⟨plain_of_first? hfirst, ih hothers⟩
  | case5 c rest hspace token left hfirst hlength => cases h

-- Everything that is read so far is proper: what a token adds is, and a container becomes so when it is closed.

def Frame.Plain : Frame → Prop
  | .array items => ∀ item ∈ items, Proper item
  | .object fields | .field fields _ => ∀ field ∈ fields, Proper field.2

def Expected.Plain : Expected → Prop
  | .nothing read => read.Proper
  | _ => True

namespace Progress

structure Plain (p : Progress) : Prop where
  frames : ∀ frame ∈ p.frames, frame.Plain
  expected : p.expected.Plain

variable {frames : List Frame} {value : Json} {p q : Progress} {limit : Nat}

theorem plain_accept (hvalue : value.Proper) (hframes : ∀ frame ∈ frames, frame.Plain)
    (h : accept value frames = some q) : q.Plain := by
  cases frames with
  | nil => cases h; exact ⟨hframes, hvalue⟩
  | cons frame outer =>
      rw [List.forall_mem_cons] at hframes
      cases frame with
      | array items =>
          cases h
          exact ⟨List.forall_mem_cons.mpr ⟨List.forall_mem_cons.mpr ⟨hvalue, hframes.1⟩, hframes.2⟩, trivial⟩
      | object fields => cases h
      | field fields key =>
          cases h
          exact ⟨List.forall_mem_cons.mpr ⟨List.forall_mem_cons.mpr ⟨hvalue, hframes.1⟩, hframes.2⟩, trivial⟩

theorem plain_enter {frame : Frame} {expected : Expected} (h : enter limit frames frame expected = some q)
    (hframe : frame.Plain) (hexpected : expected.Plain) (hframes : ∀ frame ∈ frames, frame.Plain) : q.Plain := by
  rw [enter] at h
  split at h
  · cases h
    exact ⟨List.forall_mem_cons.mpr ⟨hframe, hframes⟩, hexpected⟩
  · cases h

theorem plain_leaveArray (hframes : ∀ frame ∈ frames, frame.Plain) (h : leaveArray frames = some q) : q.Plain := by
  rw [leaveArray.eq_def] at h
  split at h
  · rw [List.forall_mem_cons] at hframes
    refine plain_accept (.array fun item hitem => ?_) hframes.2 h
    exact hframes.1 item (List.mem_reverse.mp hitem)
  · cases h

theorem plain_leaveObject (hframes : ∀ frame ∈ frames, frame.Plain) (h : leaveObject frames = some q) :
    q.Plain := by
  rw [leaveObject.eq_def] at h
  split at h
  · rw [List.forall_mem_cons] at hframes
    refine plain_accept (proper_mergeFields fun field hfield => ?_) hframes.2 h
    exact hframes.1 field (List.mem_reverse.mp hfield)
  · cases h

theorem plain_takeValue {token : Token} (htoken : token.Plain) (hframes : ∀ frame ∈ frames, frame.Plain)
    (h : takeValue limit frames token = some q) : q.Plain := by
  have harray : (Frame.array []).Plain := fun item hitem => absurd hitem List.not_mem_nil
  have hobject : (Frame.object []).Plain := fun field hfield => absurd hfield List.not_mem_nil
  cases token with
  | openArray => exact plain_enter h harray trivial hframes
  | openObject => exact plain_enter h hobject trivial hframes
  | text value => exact plain_accept (.string value) hframes h
  | atom value => exact plain_accept htoken hframes h
  | _ => cases h

theorem plain_takeKey {key : String} (hframes : ∀ frame ∈ frames, frame.Plain) (h : takeKey key frames = some q) :
    q.Plain := by
  rw [takeKey.eq_def] at h
  split at h
  · cases h
    rw [List.forall_mem_cons] at hframes
    exact ⟨List.forall_mem_cons.mpr hframes, trivial⟩
  · cases h

theorem plain_step {token : Token} (htoken : token.Plain) (hp : p.Plain) (h : step limit p token = some q) :
    q.Plain := by
  rw [step.eq_def] at h
  split at h
  · exact plain_leaveArray hp.frames h
  · exact plain_takeValue htoken hp.frames h
  · exact plain_takeValue htoken hp.frames h
  · exact plain_leaveObject hp.frames h
  · exact plain_takeKey hp.frames h
  · exact plain_takeKey hp.frames h
  · cases h
    exact ⟨hp.frames, trivial⟩
  · exact plain_leaveArray hp.frames h
  · exact plain_leaveObject hp.frames h
  · split at h
    · cases h
      exact ⟨hp.frames, trivial⟩
    · cases h
      exact ⟨hp.frames, trivial⟩
    · cases h
  · cases h

theorem plain_foldlM {tokens : List Token} (htokens : ∀ token ∈ tokens, token.Plain) (hp : p.Plain)
    (h : tokens.foldlM (step limit) p = some q) : q.Plain := by
  induction tokens generalizing p with
  | nil => cases h; exact hp
  | cons token tokens ih =>
      rw [List.foldlM_cons] at h
      obtain ⟨next, hnext, hrest⟩ := Option.bind_eq_some_iff.mp h
      rw [List.forall_mem_cons] at htokens
      exact ih htokens.2 (plain_step htokens.1 hp hnext) hrest

end Progress

theorem proper_of_parse? {limit : Nat} {text : String} {value : Json} (h : parse? limit text = some value) :
    value.Proper := by
  obtain ⟨tokens, htokens, hread⟩ := Option.bind_eq_some_iff.mp h
  obtain ⟨last, hlast, hvalue⟩ := Option.bind_eq_some_iff.mp hread
  have hinitial : Progress.initial.Plain := ⟨fun frame hframe => absurd hframe List.not_mem_nil, trivial⟩
  have hplain := (Progress.plain_foldlM (plain_of_scan htokens) hinitial hlast).expected
  split at hvalue
  · rename_i heq
    obtain rfl := Option.some.inj hvalue
    rw [heq] at hplain
    exact hplain
  · cases hvalue

end CrateDocs.Json
