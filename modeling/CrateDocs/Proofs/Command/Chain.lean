import CrateDocs.Command.Chain
import CrateDocs.Proofs.Work.Gives
import Mathlib.Data.Fintype.Card
import Mathlib.Data.List.Chain
import Mathlib.Logic.Relation

namespace CrateDocs.Command

open Relation (ReflTransGen)

namespace Raised

-- One failure leads to another: it was raised from it or, being raised from none, while that was dealt with. A link
-- to a place where there is no failure leads nowhere.
def Leads (raised : List Raised) (place next : Fin raised.length) : Prop :=
  raised[place].cause = some next.val ∨ raised[place].cause = none ∧ raised[place].context = some next.val

-- A way along the links, from the topmost failure on, that comes to no failure twice.
structure Way (raised : List Raised) (top : Fin raised.length) (way : List (Fin raised.length)) : Prop where
  starts : ∀ first ∈ way.head?, first = top
  linked : way.IsChain (Leads raised)
  once : way.Nodup

-- The failure that comes next when some were told of: what the last of them leads to, or the topmost one at first.
def Due (raised : List Raised) (top : Fin raised.length) (told : List (Fin raised.length))
    (next : Fin raised.length) : Prop :=
  match told.getLast? with
  | none => next = top
  | some last => Leads raised last next

-- A way that goes no further: the links end there, or come back to a failure on the way.
structure WholeWay (raised : List Raised) (top : Fin raised.length) (way : List (Fin raised.length)) : Prop
    extends Way raised top way where
  ends : ∀ next, Due raised top way next → next ∈ way

-- One round of telling: the failure that comes next is told of, unless it was before.
def Round (raised : List Raised) (top : Fin raised.length) (told later : List (Fin raised.length)) : Prop :=
  ∃ next, Due raised top told next ∧ next ∉ told ∧ later = told ++ [next]

variable {raised : List Raised} {top : Fin raised.length} {told later way places : List (Fin raised.length)}
  {place last next other : Fin raised.length}

theorem leads_iff : Leads raised place next ↔ (raised[place.val]?).bind behind? = some next.val := by
  rw [List.getElem?_eq_getElem place.isLt, Option.bind_some, Leads, behind?, Fin.getElem_fin]
  cases raised[place.val].cause with
  | none => simp
  | some cause => simp

@[simp] theorem due_nil : Due raised top [] next ↔ next = top :=
  Iff.rfl

theorem due_of_getLast? (h : told.getLast? = some last) : Due raised top told next ↔ Leads raised last next := by
  rw [Due, h]

@[simp] theorem due_concat : Due raised top (told ++ [last]) next ↔ Leads raised last next :=
  due_of_getLast? List.getLast?_concat

-- There is one failure at most that comes next.
theorem Due.unique (h : Due raised top told next) (h' : Due raised top told other) : next = other := by
  cases told using List.reverseRecOn with
  | nil => exact (due_nil.mp h).trans (due_nil.mp h').symm
  | append_singleton told last =>
      rw [due_concat, leads_iff] at h h'
      exact Fin.ext (Option.some.inj (h.symm.trans h'))

theorem Way.nil (top : Fin raised.length) : Way raised top [] :=
  ⟨fun first hfirst => absurd hfirst (Option.not_mem_none first), List.isChain_nil, List.nodup_nil⟩

-- A way goes on to the failure that comes next, if it was not there before, and to no other.
theorem way_concat_iff :
    Way raised top (told ++ [next]) ↔ Way raised top told ∧ Due raised top told next ∧ next ∉ told := by
  have honce : (told ++ [next]).Nodup ↔ told.Nodup ∧ next ∉ told := by
    rw [← List.concat_eq_append, List.nodup_concat, and_comm]
  cases told using List.reverseRecOn with
  | nil =>
      constructor
      · intro h
        exact ⟨Way.nil top, h.starts next rfl, List.not_mem_nil⟩
      · rintro ⟨-, rfl, -⟩
        exact ⟨fun first hfirst => (Option.some.inj hfirst).symm, List.isChain_singleton _, List.nodup_singleton _⟩
  | append_singleton told last =>
      have hhead : (told ++ [last] ++ [next]).head? = (told ++ [last]).head? :=
        List.head?_append_of_ne_nil _ (List.concat_ne_nil last told)
      have hlinked : (told ++ [last] ++ [next]).IsChain (Leads raised) ↔
          (told ++ [last]).IsChain (Leads raised) ∧ Leads raised last next := by
        rw [List.isChain_append, List.getLast?_concat]
        simp
      rw [due_concat]
      constructor
      · intro h
        obtain ⟨hbefore, hleads⟩ := hlinked.mp h.linked
        obtain ⟨hnodup, hnew⟩ := honce.mp h.once
        exact ⟨⟨hhead ▸ h.starts, hbefore, hnodup⟩, hleads, hnew⟩
      · rintro ⟨h, hleads, hnew⟩
        exact ⟨hhead ▸ h.starts, hlinked.mpr ⟨h.linked, hleads⟩, honce.mpr ⟨h.once, hnew⟩⟩

theorem Way.left_of_append (h : Way raised top (told ++ later)) : Way raised top told := by
  induction later using List.reverseRecOn with
  | nil => rwa [List.append_nil] at h
  | append_singleton later next ih =>
      rw [← List.append_assoc] at h
      exact ih (way_concat_iff.mp h).1

theorem Way.due_of_append_cons (h : Way raised top (told ++ next :: later)) :
    Due raised top told next ∧ next ∉ told := by
  rw [List.append_cons] at h
  exact (way_concat_iff.mp h.left_of_append).2

-- The links leave no choice: of two ways, the shorter one is where the longer one begins.
theorem Way.prefix_of_length_le (h : Way raised top told) (h' : Way raised top way)
    (hle : told.length ≤ way.length) : told <+: way := by
  induction told using List.reverseRecOn with
  | nil => exact List.nil_prefix
  | append_singleton told next ih =>
      obtain ⟨hbefore, hdue, -⟩ := way_concat_iff.mp h
      rw [List.length_append, List.length_singleton] at hle
      obtain ⟨rest, rfl⟩ := ih hbefore (Nat.le_of_succ_le hle)
      cases rest with
      | nil =>
          rw [List.append_nil] at hle
          exact absurd hle (Nat.not_succ_le_self _)
      | cons other rest =>
          rw [hdue.unique h'.due_of_append_cons.1]
          exact ⟨rest, (List.append_cons told other rest).symm⟩

theorem WholeWay.longest (h : WholeWay raised top places) : Way raised top way ↔ way <+: places := by
  constructor
  · intro hway
    rcases Nat.le_total way.length places.length with hle | hle
    · exact hway.prefix_of_length_le h.toWay hle
    · obtain ⟨rest, rfl⟩ := h.toWay.prefix_of_length_le hway hle
      cases rest with
      | nil => rw [List.append_nil]
      | cons next rest =>
          obtain ⟨hdue, hnew⟩ := hway.due_of_append_cons
          exact absurd (h.ends next hdue) hnew
  · rintro ⟨rest, rfl⟩
    exact h.toWay.left_of_append

-- Telling passes through the ways, and through nothing else.
theorem reached_iff_way : ReflTransGen (Round raised top) [] told ↔ Way raised top told := by
  constructor
  · intro h
    induction h with
    | refl => exact Way.nil top
    | tail _ hround ih =>
        obtain ⟨next, hdue, hnew, rfl⟩ := hround
        exact way_concat_iff.mpr ⟨ih, hdue, hnew⟩
  · intro h
    induction told using List.reverseRecOn with
    | nil => exact ReflTransGen.refl
    | append_singleton told next ih =>
        obtain ⟨hbefore, hdue, hnew⟩ := way_concat_iff.mp h
        exact (ih hbefore).tail ⟨next, hdue, hnew, rfl⟩

-- Each round tells of a failure that was not told of, and there are only so many.
theorem wellFounded_round (raised : List Raised) (top : Fin raised.length) :
    WellFounded fun later told => Round raised top told later := by
  refine Subrelation.wf ?_ (measure fun told : List (Fin raised.length) => (told.toFinsetᶜ).card).wf
  rintro _ told ⟨next, -, hnew, rfl⟩
  refine Finset.card_lt_card (Finset.compl_ssubset_compl.mpr ?_)
  rw [List.toFinset_append]
  refine Finset.ssubset_iff_subset_ne.mpr ⟨Finset.subset_union_left, fun hsame => hnew ?_⟩
  rw [← List.mem_toFinset, hsame]
  simp

-- The places that are left when some were told of.
structure Remain (raised : List Raised) (told : List (Fin raised.length)) (unseen : List Nat) : Prop where
  nodup : unseen.Nodup
  lt : ∀ place ∈ unseen, place < raised.length
  mem_iff : ∀ place : Fin raised.length, place.val ∈ unseen ↔ place ∉ told

theorem Remain.range (raised : List Raised) : Remain raised [] (List.range raised.length) where
  nodup := List.nodup_range
  lt _ hplace := List.mem_range.mp hplace
  mem_iff place := iff_of_true (List.mem_range.mpr place.isLt) List.not_mem_nil

theorem Remain.erase {unseen : List Nat} (h : Remain raised told unseen) (place : Fin raised.length) :
    Remain raised (told ++ [place]) (unseen.erase place) where
  nodup := h.nodup.erase _
  lt other hother := h.lt other (List.mem_of_mem_erase hother)
  mem_iff other := by
    rw [h.nodup.mem_erase_iff, h.mem_iff, List.mem_append, List.mem_singleton, not_or, and_comm, ne_eq, Fin.val_inj]

section trail

variable {unseen : List Nat} {place : Nat} (hway : Way raised top told) (hremain : Remain raised told unseen)
  (hdue : ∀ next, Due raised top told next ↔ next.val = place)

include hway hremain hdue

theorem exists_concat_way (hfound : place ∈ unseen) :
    ∃ first : Fin raised.length, first.val = place ∧ Way raised top (told ++ [first]) := by
  let first : Fin raised.length := ⟨place, hremain.lt place hfound⟩
  exact ⟨first, rfl, way_concat_iff.mpr ⟨hway, (hdue first).mpr rfl, (hremain.mem_iff first).mp hfound⟩⟩

-- From any way, the trail goes on to the end of the whole one. What it may still come to are the places that the way has
-- left out.
theorem trail_completes : ∃ rest, trail raised unseen place = rest.map Fin.val ∧ WholeWay raised top (told ++ rest) := by
  fun_induction trail raised unseen place generalizing told with
  | case1 unseen place hfound next hnext ih =>
      obtain ⟨first, rfl, hfirst⟩ := exists_concat_way hway hremain hdue hfound
      have hthen : ∀ other, Due raised top (told ++ [first]) other ↔ other.val = next := by
        intro other
        rw [due_concat, leads_iff, hnext, Option.some.injEq, eq_comm]
      obtain ⟨rest, htrail, hwhole⟩ := ih hfirst (hremain.erase first) hthen
      refine ⟨first :: rest, ?_, ?_⟩
      · rw [htrail, List.map_cons]
      · rwa [List.append_cons]
  | case2 unseen place hfound hnone =>
      obtain ⟨first, rfl, hfirst⟩ := exists_concat_way hway hremain hdue hfound
      refine ⟨[first], rfl, hfirst, fun next hnext => ?_⟩
      rw [due_concat, leads_iff, hnone] at hnext
      cases hnext
  | case3 unseen place hmissing =>
      refine ⟨[], rfl, ?_⟩
      rw [List.append_nil]
      refine ⟨hway, fun next hnext => ?_⟩
      rw [← (hdue next).mp hnext, hremain.mem_iff, not_not] at hmissing
      exact hmissing

end trail

theorem exists_wholeWay (raised : List Raised) (top : Fin raised.length) :
    ∃ rest, trail raised (List.range raised.length) top = (top :: rest).map Fin.val ∧
      WholeWay raised top (top :: rest) := by
  obtain ⟨places, htrail, hwhole⟩ := trail_completes (Way.nil top) (Remain.range raised)
    fun next => due_nil.trans Fin.ext_iff
  cases places with
  | nil => exact absurd (hwhole.ends top (due_nil.mpr rfl)) List.not_mem_nil
  | cons first rest =>
      obtain rfl := hwhole.starts first rfl
      exact ⟨rest, htrail, hwhole⟩

theorem chain_eq_map {start : Nat} (h : trail raised (List.range raised.length) start = places.map Fin.val) :
    chain raised start = places.map fun place => raised[place].failure := by
  have heach : (fun place => (raised[place]?).map failure) ∘ Fin.val =
      fun place : Fin raised.length => some raised[place].failure := by
    funext place
    simp
  rw [chain, h, List.filterMap_map, heach, List.filterMap_eq_map']

theorem logger_level_of_mem_events {failures : List Failure} :
    ∀ event ∈ events failures, event.logger = "oxidoc.cli" ∧ event.level = Level.error := by
  cases failures with
  | nil => exact fun event hevent => absurd hevent List.not_mem_nil
  | cons first rest =>
      rw [events, List.forall_mem_cons, List.forall_mem_map]
      exact ⟨⟨rfl, rfl⟩, fun failure _ => ⟨rfl, rfl⟩⟩

theorem text_events (describe : Failure → String) (first : Failure) (rest : List Failure) :
    (events (first :: rest)).map (Event.text describe) =
      ("error: " ++ describe first) :: rest.map fun failure => "caused by: " ++ describe failure := by
  rw [events, List.map_cons, List.map_map]
  rfl

end Raised

open Raised

theorem runIn_tellChain (raised : List Raised) (top : Nat) (w : World) :
    (tellChain raised top).runIn w = (.ok (), { w with
      events := w.events ++ if w.log.lets "oxidoc.cli" Level.error then events (chain raised top) else [] }) := by
  have hgives := Work.Gives.forM (l := events (chain raised top)) fun event _ => Work.Gives.note w.disk event
  rw [List.flatMap_singleton'] at hgives
  rw [← World.tell_of_same w logger_level_of_mem_events]
  exact hgives w rfl

-- Telling of a failure and of what is behind it ends, whatever leads to whatever. No run of rounds goes on for ever,
-- and all of them pass through the same places, which are the longest way along the links that comes to no failure
-- twice: it stops where the links end, or where they come back to a failure that was told of. The log gets one message
-- for each place, the topmost failure first.
theorem tellChain_tells_each_once (raised : List Raised) (top : Fin raised.length) :
    Acc (fun later told => Round raised top told later) [] ∧
      ∃ rest : List (Fin raised.length),
        (∀ told, ReflTransGen (Round raised top) [] told ↔ told <+: top :: rest) ∧
        (∀ way, Way raised top way ↔ way <+: top :: rest) ∧
        (∀ last ∈ (top :: rest).getLast?,
          (∀ next, ¬Leads raised last next) ∨ ∃ next ∈ top :: rest, Leads raised last next) ∧
        rest.length < raised.length ∧
        ∃ messages : List Event,
          messages = .failed raised[top].failure :: rest.map (fun place => .causedBy raised[place].failure) ∧
          (∀ describe, messages.map (Event.text describe) =
            ("error: " ++ describe raised[top].failure) ::
              rest.map fun place => "caused by: " ++ describe raised[place].failure) ∧
          ∀ w : World, (tellChain raised top).runIn w = (.ok (), { w with
            events := w.events ++ if w.log.lets "oxidoc.cli" Level.error then messages else [] }) := by
  obtain ⟨rest, htrail, hwhole⟩ := exists_wholeWay raised top
  have hchain := chain_eq_map htrail
  rw [List.map_cons] at hchain
  refine ⟨(wellFounded_round raised top).apply [], rest, fun told => ?_, fun way => hwhole.longest,
    fun last hlast => ?_, ?_, events (chain raised top), ?_, fun describe => ?_, runIn_tellChain raised top⟩
  · rw [reached_iff_way, hwhole.longest]
  · by_cases hleads : ∃ next, Leads raised last next
    · obtain ⟨next, hleads⟩ := hleads
      exact Or.inr ⟨next, hwhole.ends next ((due_of_getLast? hlast).mpr hleads), hleads⟩
    · exact Or.inl (not_exists.mp hleads)
  · have hle := hwhole.once.length_le_card
    rwa [Fintype.card_fin] at hle
  · rw [hchain, events, List.map_map]
    rfl
  · rw [hchain, text_events, List.map_map]
    rfl

-- Two failures that lead to each other are told of once.
example : chain [⟨.noPath, some 1, none⟩, ⟨.notUtf8, none, some 2⟩, ⟨.homeUnknown, some 1, some 0⟩] 0 =
    [.noPath, .notUtf8, .homeUnknown] := by
  cbv

end CrateDocs.Command
