import CrateDocs.Log.Config
import CrateDocs.Proofs.Log.Hierarchy
import CrateDocs.Proofs.Work.Reads

namespace CrateDocs.Log

-- The loggers that a configuration has entries for, with these entries.
def loggerEntries (config : Json) : List (String × Json) :=
  match section? config "loggers" with
  | .ok entries => entries
  | .error _ => []

-- The level that the entry of a logger gives it.
def entryLevel? : Json → Option Level
  | .object fields => (levelSet? fields).join
  | _ => none

-- The level that some entries give a logger. Of several for one logger, the last that gives a level counts.
def levelGiven? (name : String) : List (String × Json) → Option Level
  | [] => none
  | (first, config) :: rest => (levelGiven? name rest).or (if first = name then entryLevel? config else none)

-- Whether a logger loses the level that it had: it has no entry, but one above it has, and that one was known before.
def isCleared (entries : List (String × Json)) (before : Log) (name : String) : Bool :=
  !(entries.map (·.1)).contains name &&
    (entries.map (·.1)).any fun outer => before.knownNames.contains outer && Text.startsWith (outer ++ ".") name

-- The level that a logger has after a configuration. One that only adjusts what there is takes no level away.
def levelAfter (config : Json) (before : Log) (name : String) : Level :=
  (levelGiven? name (loggerEntries config)).getD
    (if !isIncremental config && isCleared (loggerEntries config) before name then Level.unset
    else before.ownLevel name)

theorem levelGiven?_of_notMem {name : String} {entries : List (String × Json)} (h : name ∉ entries.map (·.1)) :
    levelGiven? name entries = none := by
  induction entries with
  | nil => rfl
  | cons entry entries ih =>
      rw [List.map_cons, List.mem_cons, not_or] at h
      rw [levelGiven?, ih h.2, if_neg (Ne.symm h.1)]
      rfl

variable {kit : Kit} {config : Json} {log : Log} {named : List (String × Json) → Bool} {entries : List (String × Json)}

theorem loggerEntries_of_section? (h : section? config "loggers" = .ok entries) : loggerEntries config = entries := by
  rw [loggerEntries, h]

theorem loggerEntries_of_sections (h : sections kit config = .ok (named, entries)) : loggerEntries config = entries := by
  obtain ⟨formatters, _, h⟩ := Work.bind_eq_ok h
  dsimp only at h
  split at h
  · cases h
  · obtain ⟨filters, _, h⟩ := Work.bind_eq_ok h
    split at h
    · cases h
    · obtain ⟨handlers, _, h⟩ := Work.bind_eq_ok h
      split at h
      · cases h
      · obtain ⟨found, hfound, h⟩ := Work.bind_eq_ok h
        rw [loggerEntries_of_section? hfound, (Prod.mk.inj (Except.ok.inj h)).2]

theorem loggerEntries_of_adjustments (h : adjustments kit config = .ok entries) : loggerEntries config = entries := by
  obtain ⟨handlers, _, h⟩ := Work.bind_eq_ok h
  dsimp only at h
  split at h
  · cases h
  · exact loggerEntries_of_section? h

-- One entry, and then all of them.

theorem ownLevel_configureLogger {name : String} {left : Log}
    (h : configureLogger named log name config = (.ok (), left)) (other : String) :
    left.ownLevel other =
      if name = other then (entryLevel? config).getD (log.ownLevel other) else log.ownLevel other := by
  rw [configureLogger.eq_def] at h
  dsimp only at h
  split at h
  · rename_i fields
    split at h
    · cases h
    · rename_i level hlevel
      split at h
      · obtain rfl := (Prod.mk.inj h).2
        rw [ownLevel_change (f := fun logger => { logger with disabled := false }) fun _ => rfl, entryLevel?, hlevel,
          Option.join_some]
        cases level with
        | none => simp [ownLevel_touch]
        | some level => simp [ownLevel_setLevel, ownLevel_touch, eq_comm]
      · cases h
  · cases h

theorem ownLevel_configureLoggers {left : Log} (h : configureLoggers named entries log = (.ok (), left))
    (name : String) : left.ownLevel name = (levelGiven? name entries).getD (log.ownLevel name) := by
  induction entries generalizing log with
  | nil =>
      obtain rfl := (Prod.mk.inj h).2
      rfl
  | cons entry entries ih =>
      rw [configureLoggers] at h
      split at h
      · rename_i next hnext
        rw [ih h, ownLevel_configureLogger hnext name, levelGiven?]
        by_cases hname : entry.1 = name
        · cases levelGiven? name entries <;> simp [hname]
        · cases levelGiven? name entries <;> simp [hname]
      · rename_i hfailed
        obtain ⟨hresult, hleft⟩ := Prod.mk.inj h
        exact absurd (Prod.ext hresult hleft) (hfailed left)

-- The loggers without an entry, and the root.

theorem ownLevel_settleOthers (before configured : List String) (disable : Bool) (log : Log) (name : String) :
    (settleOthers before configured disable log).ownLevel name =
      if before.contains name && (!configured.contains name && configured.any fun outer =>
        before.contains outer && Text.startsWith (outer ++ ".") name) then Level.unset else log.ownLevel name := by
  let settle (name : String) (logger : Logger) : Logger :=
    if !before.contains name || configured.contains name then logger
    else if configured.any fun outer => before.contains outer && Text.startsWith (outer ++ ".") name then
      { logger with level := Level.unset }
    else { logger with disabled := disable }
  have hentries : (settleOthers before configured disable log).loggers =
      log.loggers.map fun entry => (entry.1, settle entry.1 entry.2) := by
    refine List.map_congr_left fun entry _ => ?_
    dsimp only [settle]
    split
    · rfl
    · split <;> rfl
  rw [ownLevel, logger?, hentries, lookup_map_values, ownLevel, logger?]
  cases log.loggers.lookup name with
  | none => simp
  | some logger =>
      dsimp only [Option.map_some, Option.getD_some, settle]
      cases before.contains name <;> cases configured.contains name <;> simp
      split <;> rfl

-- The root is only given a level of its own.
theorem ownLevel_configureRoot (root? : Option Json) (name : String) :
    (configureRoot named log root?).2.ownLevel name = log.ownLevel name := by
  cases root? with
  | none => rfl
  | some config =>
      rw [configureRoot.eq_def]
      dsimp only
      split
      · rfl
      · split
        · split
          · rfl
          · split <;> rfl
        · rfl

theorem ownLevel_rebuild (hnot : isIncremental config = false) (h : (rebuild kit config log).1 = .ok ())
    (name : String) : (rebuild kit config log).2.ownLevel name = levelAfter config log name := by
  rw [rebuild] at h ⊢
  dsimp only at h ⊢
  split at h
  · cases h
  · rename_i named entries hsections
    split at h
    · cases h
    · rename_i left hleft
      simp only [ownLevel_configureRoot, ownLevel_settleOthers, ownLevel_configureLoggers hleft]
      rw [levelAfter, loggerEntries_of_sections hsections, isCleared, hnot]
      by_cases hmem : name ∈ entries.map (·.1)
      · simp [hmem]
      · rw [levelGiven?_of_notMem hmem]
        by_cases hknown : name ∈ log.knownNames
        · rw [List.contains_iff_mem.mpr hknown, Bool.true_and]
          rfl
        · simp [hknown, ownLevel_of_notMem hknown]

theorem ownLevel_adjust (hincremental : isIncremental config = true) (h : (adjust kit config log).1 = .ok ())
    (name : String) : (adjust kit config log).2.ownLevel name = levelAfter config log name := by
  rw [adjust] at h ⊢
  split at h
  · cases h
  · rename_i entries hentries
    split at h
    · cases h
    · rename_i left hleft
      simp only [ownLevel_configureRoot, ownLevel_configureLoggers hleft]
      rw [levelAfter, loggerEntries_of_adjustments hentries, hincremental]
      rfl

theorem ownLevel_applySections (h : (applySections kit config log).1 = .ok ()) (name : String) :
    (applySections kit config log).2.ownLevel name = levelAfter config log name := by
  rw [applySections] at h ⊢
  cases hincremental : isIncremental config with
  | true =>
      rw [hincremental, if_pos rfl] at h
      exact ownLevel_adjust hincremental h name
  | false =>
      rw [hincremental, if_neg (by decide)] at h
      exact ownLevel_rebuild hincremental h name

theorem ownLevel_applyConfig (h : (applyConfig kit config log).1 = .ok ()) (name : String) :
    (applyConfig kit config log).2.ownLevel name = levelAfter config log name := by
  rw [applyConfig.eq_def] at h ⊢
  split at h
  · split at h
    · cases h
    · split at h
      · rename_i hone
        simp only [hone, if_true]
        exact ownLevel_applySections h name
      · cases h
  · cases h

end CrateDocs.Log
