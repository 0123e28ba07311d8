import CrateDocs.Proofs.Syntax.Tokens
import CrateDocs.Syntax.Pattern

namespace CrateDocs.Utf8

open Syntax.Pattern (Cursor)

-- A glyph at the start of a byte sequence, with the other glyphs those of the bytes after it.
def Starts (bytes : List UInt8) (g : Glyph) : Prop :=
  glyphs bytes = g :: glyphs (bytes.drop g.width)

theorem exists_starts {bytes : List UInt8} (char? : Option Char) {width : Nat} (hpos : 0 < width)
    (h : ∀ m, Starts (bytes.take (m + width)) ⟨char?, width⟩) :
    ∃ g : Glyph, 0 < g.width ∧ ∀ m, g.width ≤ m → Starts (bytes.take m) g := by
  refine ⟨⟨char?, width⟩, hpos, fun m hm => ?_⟩
  obtain ⟨m, rfl⟩ := Nat.exists_eq_add_of_le' hm
  exact h m

-- The first glyph is the same wherever the bytes after its own are cut off. The cases are those of the decoder: a
-- sequence that is cut short is one glyph, whether other bytes follow or the end.
theorem starts_take (bytes : List UInt8) (hne : bytes ≠ []) :
    ∃ g : Glyph, 0 < g.width ∧ ∀ m, g.width ≤ m → Starts (bytes.take m) g := by
  obtain ⟨a, r, rfl⟩ := List.exists_cons_of_ne_nil hne
  by_cases hascii : a < 0x80
  · exact exists_starts (some (Char.ofNat a.toNat)) (by decide : 0 < 1) fun m => by simp [Starts, glyphs, hascii]
  cases htail : tail? a with
  | none => exact exists_starts none (by decide : 0 < 1) fun m => by simp [Starts, glyphs, hascii, htail]
  | some entry =>
      obtain ⟨count, low, high⟩ := entry
      rcases r with _ | ⟨b, r⟩
      · exact exists_starts none (by decide : 0 < 1) fun m => by simp [Starts, glyphs, hascii, htail]
      cases hb : low ≤ b && b ≤ high with
      | false =>
          refine exists_starts none (by decide : 0 < 1) fun m => ?_
          cases m with
          | zero => simp [Starts, glyphs, hascii, htail]
          | succ m =>
              simp only [Starts, List.take_succ_cons, List.drop_succ_cons, List.drop_zero]
              rw [glyphs, if_neg hascii]
              simp [htail, hb]
      | true =>
          by_cases hone : count = 1
          · refine exists_starts (some (Char.ofNat (a.toNat % 32 * 64 + payload b))) (by decide : 0 < 2) fun m => ?_
            simp [Starts, glyphs, hascii, htail, hb, hone]
          rcases r with _ | ⟨c, r⟩
          · exact exists_starts none (by decide : 0 < 2) fun m => by simp [Starts, glyphs, hascii, htail, hb, hone]
          cases hc : isContinuation c with
          | false =>
              refine exists_starts none (by decide : 0 < 2) fun m => ?_
              cases m with
              | zero => simp [Starts, glyphs, hascii, htail, hb, hone]
              | succ m =>
                  simp only [Starts, List.take_succ_cons, List.drop_succ_cons, List.drop_zero]
                  rw [glyphs, if_neg hascii]
                  simp [htail, hb, hone, hc]
          | true =>
              by_cases htwo : count = 2
              · refine exists_starts (some (Char.ofNat (a.toNat % 16 * 4096 + payload b * 64 + payload c)))
                  (by decide : 0 < 3) fun m => ?_
                simp [Starts, glyphs, hascii, htail, hb, hc, htwo]
              rcases r with _ | ⟨d, r⟩
              · exact exists_starts none (by decide : 0 < 3) fun m => by
                  simp [Starts, glyphs, hascii, htail, hb, hone, hc, htwo]
              cases hd : isContinuation d with
              | false =>
                  refine exists_starts none (by decide : 0 < 3) fun m => ?_
                  cases m with
                  | zero => simp [Starts, glyphs, hascii, htail, hb, hone, hc, htwo]
                  | succ m =>
                      simp only [Starts, List.take_succ_cons, List.drop_succ_cons, List.drop_zero]
                      rw [glyphs, if_neg hascii]
                      simp [htail, hb, hone, hc, htwo, hd]
              | true =>
                  refine exists_starts
                    (some (Char.ofNat (a.toNat % 8 * 262144 + payload b * 4096 + payload c * 64 + payload d)))
                    (by decide : 0 < 4) fun m => ?_
                  simp [Starts, glyphs, hascii, htail, hb, hone, hc, htwo, hd]

theorem exists_starts_all (bytes : List UInt8) (hne : bytes ≠ []) :
    ∃ g : Glyph, 0 < g.width ∧ Starts bytes g ∧ ∀ m, g.width ≤ m → Starts (bytes.take m) g := by
  obtain ⟨g, hpos, htake⟩ := starts_take bytes hne
  refine ⟨g, hpos, ?_, htake⟩
  have hall := htake (bytes.length + g.width) (by omega)
  rwa [List.take_of_length_le (by omega)] at hall

-- Glyphs are read from any place between two of them as from the start.
theorem glyphs_drop (bytes : List UInt8) (count : Nat) :
    (glyphs bytes).drop count = glyphs (bytes.drop (Cursor.width ((glyphs bytes).take count))) := by
  induction count generalizing bytes with
  | zero => rfl
  | succ count ih =>
      by_cases hne : bytes = []
      · rw [hne]
        rfl
      obtain ⟨g, -, hg, -⟩ := exists_starts_all bytes hne
      rw [Starts] at hg
      rw [hg, List.drop_succ_cons, List.take_succ_cons, Cursor.width, ih, List.drop_drop]

-- The bytes up to such a place have the glyphs before it.
theorem glyphs_take (bytes : List UInt8) (count : Nat) :
    glyphs (bytes.take (Cursor.width ((glyphs bytes).take count))) = (glyphs bytes).take count := by
  induction count generalizing bytes with
  | zero => rfl
  | succ count ih =>
      by_cases hne : bytes = []
      · rw [hne]
        rfl
      obtain ⟨g, -, hg, htake⟩ := exists_starts_all bytes hne
      rw [Starts] at hg
      rw [hg, List.take_succ_cons, Cursor.width, htake _ (Nat.le_add_right ..), List.drop_take,
        Nat.add_sub_cancel_left, ih]

end CrateDocs.Utf8

namespace CrateDocs.Syntax

open Signature (isLeaf leaves leaves_eq leavesIn isAtomic declarationLeaves declarationLeaves_eq withoutBody IsToken
  nodeAt)
open Utf8 (Glyph glyphs)

-- The characters of glyphs, as they are read back.
def letters (gs : List Glyph) : List Char :=
  gs.map fun glyph => glyph.char?.getD '\uFFFD'

namespace Pattern

-- A cursor that stands between two glyphs of a byte sequence.
def Cursor.At (bytes : List UInt8) (c : Cursor) : Prop :=
  c.rest = glyphs (bytes.drop c.offset)

theorem Cursor.At.advance {bytes : List UInt8} {c : Cursor} (h : c.At bytes) (count : Nat) :
    (c.advance count).At bytes := by
  rw [At] at h
  rw [At, Cursor.advance, h, Utf8.glyphs_drop, List.drop_drop]

theorem Cursor.At.slice {s : Source} {c : Cursor} (h : c.At s.bytes) (count : Nat) :
    s.slice c.offset (c.advance count).offset = String.ofList (letters (c.rest.take count)) := by
  rw [At] at h
  rw [Source.slice, Cursor.advance, Nat.add_sub_cancel_left, Utf8.decodeLossy, h, Utf8.glyphs_take]
  rfl

end Pattern

-- A tree whose leaves, comments apart, cover what `q` holds of, and in which only leaves are taken as they are written.
inductive Made (q : Nat → Nat → Prop) : Node → Prop
  | leaf {n : Node} (hchildren : n.children = []) (hleaf : n.isComment = false → q n.start n.stop) : Made q n
  | inner {n : Node} (hchildren : n.children ≠ []) (hkind : isAtomic n.kind = false)
      (h : ∀ child ∈ n.children, Made q child) : Made q n

namespace Made

variable {q : Nat → Nat → Prop} {n : Node}

theorem mem_leavesIn {leaf : Node} {children : List Node} :
    leaf ∈ leavesIn children ↔ ∃ child ∈ children, leaf ∈ leaves child := by
  induction children with
  | nil => simp [leavesIn]
  | cons child rest ih => simp [leavesIn, ih]

theorem of_mem_leaves (h : Made q n) : ∀ leaf ∈ leaves n, q leaf.start leaf.stop := by
  induction h with
  | leaf hchildren hleaf =>
      intro leaf hmem
      rw [leaves_eq, isLeaf, hchildren] at hmem
      split at hmem
      · cases hmem
      · rename_i hcomment
        obtain rfl := List.mem_singleton.mp hmem
        exact hleaf (by simpa using hcomment)
  | inner hchildren hkind _ ih =>
      intro leaf hmem
      rw [leaves_eq, isLeaf, hkind] at hmem
      split at hmem
      · cases hmem
      · rw [if_neg (by simpa using hchildren)] at hmem
        obtain ⟨child, hchild, hmem⟩ := mem_leavesIn.mp hmem
        exact ih child hchild leaf hmem

theorem of_mem_declarationLeaves (h : Made q n) : ∀ leaf ∈ declarationLeaves n, q leaf.start leaf.stop := by
  intro leaf hmem
  apply h.of_mem_leaves
  rw [leaves_eq]
  rw [declarationLeaves_eq] at hmem
  split at hmem
  · cases hmem
  · rename_i hcomment
    rw [if_neg hcomment]
    split at hmem
    · rename_i hatom
      rwa [if_pos hatom]
    · rename_i hatom
      rw [if_neg hatom]
      obtain ⟨child, hchild, hmem⟩ := mem_leavesIn.mp hmem
      exact mem_leavesIn.mpr ⟨child, List.mem_of_mem_eraseP hchild, hmem⟩

theorem nodeAt (h : Made q n) {address : List Nat} {m : Node} (hm : nodeAt n address = some m) : Made q m := by
  induction address generalizing n with
  | nil =>
      obtain rfl : n = m := Option.some.inj hm
      exact h
  | cons i address ih =>
      obtain ⟨child, hchild, hm⟩ := Option.bind_eq_some_iff.mp hm
      have hmem := List.mem_of_getElem? hchild
      cases h with
      | leaf hchildren _ =>
          rw [hchildren] at hmem
          cases hmem
      | inner _ _ hbelow => exact ih (hbelow child hmem) hm

end Made

namespace Pattern

variable {q : Nat → Nat → Prop} {trivia : Trivia} {bytes : List UInt8}

-- Comments are what the kinds of comments say.
def Trivia.Plain (trivia : Trivia) : Prop :=
  ∀ entry ∈ trivia.comments, Node.isCommentKind entry.1 = true

theorem skip_at (htrivia : trivia.Plain) (fuel : Nat) {c : Cursor} (hc : c.At bytes) :
    (skip trivia fuel c).1.At bytes ∧ ∀ n ∈ (skip trivia fuel c).2, n.children = [] ∧ n.isComment = true := by
  induction fuel generalizing c with
  | zero => exact ⟨hc, by simp [skip]⟩
  | succ fuel ih =>
      rw [skip]
      split
      · exact ih (hc.advance _)
      dsimp only
      split
      · exact ⟨hc, by simp⟩
      · rename_i kind count hcomment
        obtain ⟨entry, hentry, hread⟩ := List.exists_of_findSome?_eq_some hcomment
        obtain ⟨_, _, hpair⟩ := Option.map_eq_some_iff.mp hread
        have hkind : Node.isCommentKind kind = true := by
          rw [← (Prod.mk.inj hpair).1]
          exact htrivia entry hentry
        obtain ⟨hlast, hnodes⟩ := ih (hc.advance count)
        refine ⟨hlast, fun n hn => ?_⟩
        rcases List.mem_cons.mp hn with rfl | hn
        · exact ⟨rfl, hkind⟩
        · exact hnodes n hn

-- A token is read after the blanks and comments before it.
theorem run_token {ρ : Type} {grammar : ρ → Pattern ρ} (htrivia : trivia.Plain) {fuel : Nat} {t : Terminal}
    {c after : Cursor} (hc : c.At bytes) {nodes : List Node}
    (h : run trivia grammar fuel (.token t) c = some (after, nodes)) :
    ∃ (place : Cursor) (count : Nat) (comments : List Node), place.At bytes ∧ t.lexeme place.rest = some count ∧
      after = place.advance count ∧ (∀ n ∈ comments, n.children = [] ∧ n.isComment = true) ∧
      nodes = comments ++ [⟨t.kind, place.offset, after.offset, none, t.named, false, []⟩] := by
  cases fuel with
  | zero => cases h
  | succ fuel =>
      obtain ⟨hplace, hcomments⟩ := skip_at htrivia (c.rest.length + 1) hc
      rw [run] at h
      dsimp only at h
      split at h
      · cases h
      · rename_i count hread
        obtain ⟨rfl, rfl⟩ := Prod.mk.inj (Option.some.inj h)
        exact ⟨_, count, _, hplace, hread, rfl, hcomments, rfl⟩

section Inversion

variable {ρ : Type} {grammar : ρ → Pattern ρ} {fuel : Nat} {p first second : Pattern ρ} {c after : Cursor}
  {nodes : List Node}

theorem run_nothing (h : run trivia grammar fuel .nothing c = some (after, nodes)) : after = c ∧ nodes = [] := by
  cases fuel with
  | zero => cases h
  | succ fuel =>
      obtain ⟨rfl, rfl⟩ := Prod.mk.inj (Option.some.inj h)
      exact ⟨rfl, rfl⟩

theorem run_seq (h : run trivia grammar fuel (.seq first second) c = some (after, nodes)) :
    ∃ depth < fuel, ∃ middle nodes₁ nodes₂, run trivia grammar depth first c = some (middle, nodes₁) ∧
      run trivia grammar depth second middle = some (after, nodes₂) ∧ nodes = nodes₁ ++ nodes₂ := by
  cases fuel with
  | zero => cases h
  | succ fuel =>
      rw [run] at h
      split at h
      · cases h
      rename_i middle nodes₁ hfirst
      split at h
      · cases h
      rename_i last nodes₂ hsecond
      obtain ⟨rfl, rfl⟩ := Prod.mk.inj (Option.some.inj h)
      exact ⟨fuel, Nat.lt_succ_self fuel, middle, nodes₁, nodes₂, hfirst, hsecond, rfl⟩

theorem run_choice (h : run trivia grammar fuel (.choice first second) c = some (after, nodes)) :
    ∃ depth < fuel, run trivia grammar depth first c = some (after, nodes) ∨
      run trivia grammar depth second c = some (after, nodes) := by
  cases fuel with
  | zero => cases h
  | succ fuel =>
      rw [run] at h
      refine ⟨fuel, Nat.lt_succ_self fuel, ?_⟩
      split at h
      · rename_i hfirst
        exact Or.inl (hfirst.trans h)
      · exact Or.inr h

theorem run_many (h : run trivia grammar fuel (.many p) c = some (after, nodes)) :
    after = c ∧ nodes = [] ∨
      ∃ depth < fuel, ∃ middle nodes₁ nodes₂, run trivia grammar depth p c = some (middle, nodes₁) ∧
        run trivia grammar depth (.many p) middle = some (after, nodes₂) ∧ nodes = nodes₁ ++ nodes₂ := by
  cases fuel with
  | zero => cases h
  | succ fuel =>
      rw [run] at h
      split at h
      · obtain ⟨rfl, rfl⟩ := Prod.mk.inj (Option.some.inj h)
        exact Or.inl ⟨rfl, rfl⟩
      rename_i middle nodes₁ hfirst
      split at h
      · obtain ⟨rfl, rfl⟩ := Prod.mk.inj (Option.some.inj h)
        exact Or.inl ⟨rfl, rfl⟩
      split at h
      · cases h
      rename_i last nodes₂ hrest
      obtain ⟨rfl, rfl⟩ := Prod.mk.inj (Option.some.inj h)
      exact Or.inr ⟨fuel, Nat.lt_succ_self fuel, middle, nodes₁, nodes₂, hfirst, hrest, rfl⟩

end Inversion

theorem made_wrap {kind : String} (hkind : isAtomic kind = false) {nodes : List Node} (h : ∀ n ∈ nodes, Made q n) :
    ∀ n ∈ wrap kind nodes, Made q n := by
  intro n hn
  rw [wrap] at hn
  have hleading : ∀ m ∈ nodes.takeWhile (·.isComment), Made q m :=
    fun m hm => h m ((List.takeWhile_sublist _).subset hm)
  split at hn
  · rename_i first last hfirst _
    rcases List.mem_append.mp hn with hn | hn
    · exact hleading n hn
    · rw [List.mem_singleton.mp hn]
      refine .inner (List.ne_nil_of_mem (List.mem_of_head? hfirst)) hkind fun child hchild => ?_
      exact h child ((List.dropWhile_sublist _).subset hchild)
  · exact hleading n hn

theorem made_mark {name : String} {nodes : List Node} (h : ∀ n ∈ nodes, Made q n) :
    ∀ n ∈ mark name nodes, Made q n := by
  intro n hn
  obtain ⟨m, hm, rfl⟩ := List.mem_map.mp hn
  split
  · exact h m hm
  · cases h m hm with
    | leaf hchildren hleaf => exact .leaf hchildren hleaf
    | inner hchildren hkind hbelow => exact .inner hchildren hkind hbelow

-- A terminal that reads nothing but tokens.
def Terminal.ReadsTokens (t : Terminal) : Prop :=
  ∀ gs count, t.lexeme gs = some count → IsToken (String.ofList (letters (gs.take count)))

-- A pattern whose nodes are made of what such terminals read. What is only looked at makes no nodes.
def OfTokens {ρ : Type} : Pattern ρ → Prop
  | .nothing => True
  | .token t => Terminal.ReadsTokens t
  | .rule _ => True
  | .seq first second => first.OfTokens ∧ second.OfTokens
  | .choice first second => first.OfTokens ∧ second.OfTokens
  | .many p => p.OfTokens
  | .ahead _ => True
  | .notAhead _ => True
  | .node kind p => isAtomic kind = false ∧ p.OfTokens
  | .field _ p => p.OfTokens

-- Matching moves from one place between glyphs to another, and the leaves it makes are tokens. The induction is on the
-- depth that bounds the search, since a rule leads to a pattern that is no part of the one at hand.
theorem run_made {ρ : Type} {grammar : ρ → Pattern ρ} {s : Source} (htrivia : trivia.Plain)
    (hgrammar : ∀ r, (grammar r).OfTokens) {fuel : Nat} {p : Pattern ρ} (hp : p.OfTokens) {c after : Cursor}
    (hc : c.At s.bytes) {nodes : List Node} (h : run trivia grammar fuel p c = some (after, nodes)) :
    after.At s.bytes ∧ ∀ n ∈ nodes, Made (fun start stop => IsToken (s.slice start stop)) n := by
  induction fuel using Nat.strong_induction_on generalizing p c after nodes with
  | _ fuel ih =>
      cases p with
      | nothing =>
          obtain ⟨rfl, rfl⟩ := run_nothing h
          exact ⟨hc, by simp⟩
      | token t =>
          obtain ⟨place, count, comments, hplace, hread, rfl, hcomments, rfl⟩ := run_token htrivia hc h
          refine ⟨hplace.advance count, fun n hn => ?_⟩
          rcases List.mem_append.mp hn with hn | hn
          · obtain ⟨hchildren, hcomment⟩ := hcomments n hn
            exact .leaf hchildren fun hnot => absurd hcomment (by simp [hnot])
          · rw [List.mem_singleton.mp hn]
            refine .leaf rfl fun _ => ?_
            rw [hplace.slice count]
            exact hp _ _ hread
      | seq first second =>
          obtain ⟨depth, hdepth, middle, nodes₁, nodes₂, hfirst, hsecond, rfl⟩ := run_seq h
          obtain ⟨hmiddle, hnodes₁⟩ := ih depth hdepth hp.1 hc hfirst
          obtain ⟨hlast, hnodes₂⟩ := ih depth hdepth hp.2 hmiddle hsecond
          exact ⟨hlast, List.forall_mem_append.mpr ⟨hnodes₁, hnodes₂⟩⟩
      | choice first second =>
          obtain ⟨depth, hdepth, hread | hread⟩ := run_choice h
          · exact ih depth hdepth hp.1 hc hread
          · exact ih depth hdepth hp.2 hc hread
      | rule r =>
          cases fuel with
          | zero => cases h
          | succ depth => exact ih depth (Nat.lt_succ_self depth) (hgrammar r) hc h
      | many p =>
          rcases run_many h with ⟨rfl, rfl⟩ | ⟨depth, hdepth, middle, nodes₁, nodes₂, hfirst, hrest, rfl⟩
          · exact ⟨hc, by simp⟩
          · obtain ⟨hmiddle, hnodes₁⟩ := ih depth hdepth (p := p) hp hc hfirst
            obtain ⟨hlast, hnodes₂⟩ := ih depth hdepth (p := .many p) hp hmiddle hrest
            exact ⟨hlast, List.forall_mem_append.mpr ⟨hnodes₁, hnodes₂⟩⟩
      | ahead p =>
          cases fuel with
          | zero => cases h
          | succ depth =>
              obtain ⟨_, _, hpair⟩ := Option.map_eq_some_iff.mp h
              obtain ⟨rfl, rfl⟩ := Prod.mk.inj hpair
              exact ⟨hc, by simp⟩
      | notAhead p =>
          cases fuel with
          | zero => cases h
          | succ depth =>
              rw [run] at h
              split at h
              · cases h
              · obtain ⟨rfl, rfl⟩ := Prod.mk.inj (Option.some.inj h)
                exact ⟨hc, by simp⟩
      | node kind p =>
          cases fuel with
          | zero => cases h
          | succ depth =>
              obtain ⟨⟨last, inner⟩, hinner, hpair⟩ := Option.map_eq_some_iff.mp h
              obtain ⟨rfl, rfl⟩ := Prod.mk.inj hpair
              obtain ⟨hlast, hmade⟩ := ih depth (Nat.lt_succ_self depth) hp.2 hc hinner
              exact ⟨hlast, made_wrap hp.1 hmade⟩
      | field name p =>
          cases fuel with
          | zero => cases h
          | succ depth =>
              obtain ⟨⟨last, inner⟩, hinner, hpair⟩ := Option.map_eq_some_iff.mp h
              obtain ⟨rfl, rfl⟩ := Prod.mk.inj hpair
              obtain ⟨hlast, hmade⟩ := ih depth (Nat.lt_succ_self depth) (p := p) hp hc hinner
              exact ⟨hlast, made_mark hmade⟩

end Pattern

end CrateDocs.Syntax
