import CrateDocs.World

namespace CrateDocs.Work

theorem bind_eq_ok {ε α β : Type} {x : Except ε α} {next : α → Except ε β} {b : β} (h : x.bind next = .ok b) :
    ∃ a, x = .ok a ∧ next a = .ok b := by
  cases x with
  | error e => cases h
  | ok a => exact ⟨a, rfl, h⟩

theorem runIn_bind {α β : Type} (work : Work α) (next : α → Work β) (w : World) :
    (work >>= next).runIn w =
      match work.runIn w with
      | (.ok a, left) => (next a).runIn left
      | (.error failure, left) => (.error failure, left) := by
  have hrun : (work >>= next).runIn w =
      StateT.run (ExceptT.bindCont next (work.runIn w).1) (work.runIn w).2 := rfl
  rw [hrun]
  rcases work.runIn w with ⟨result, left⟩
  cases result <;> rfl

theorem runIn_bind_of_ok {α β : Type} {work : Work α} {next : α → Work β} {w left : World} {a : α}
    (h : work.runIn w = (.ok a, left)) : (work >>= next).runIn w = (next a).runIn left := by
  rw [runIn_bind, h]

theorem runIn_tryCatch {α : Type} (work : Work α) (handler : Failure → Work α) (w : World) :
    (tryCatch work handler).runIn w =
      match work.runIn w with
      | (.ok a, left) => (.ok a, left)
      | (.error failure, left) => (handler failure).runIn left := by
  unfold runIn ExceptT.run StateT.run
  simp only [tryCatch, tryCatchThe, MonadExceptOf.tryCatch, ExceptT.tryCatch, ExceptT.mk, bind, StateT.bind]
  cases work w with
  | mk result left => cases result <;> rfl

theorem runIn_map {α β : Type} (f : α → β) (work : Work α) (w : World) :
    (f <$> work).runIn w = ((work.runIn w).1.map f, (work.runIn w).2) := by
  rw [map_eq_pure_bind, runIn_bind]
  rcases work.runIn w with ⟨result, left⟩
  cases result <;> rfl

theorem runIn_eq_ok {α : Type} {work : Work α} {w : World} {a : α} (h : (work.runIn w).1.toOption = some a) :
    work.runIn w = (.ok a, (work.runIn w).2) := by
  revert h
  rcases work.runIn w with ⟨result, left⟩
  cases result with
  | error failure => intro h; cases h
  | ok b => intro h; cases h; rfl

theorem runIn_bind_eq_ok {α β : Type} {work : Work α} {next : α → Work β} {w left : World} {b : β}
    (h : (work >>= next).runIn w = (.ok b, left)) :
    ∃ a between, work.runIn w = (.ok a, between) ∧ (next a).runIn between = (.ok b, left) := by
  rw [runIn_bind] at h
  cases hwork : work.runIn w with
  | mk result between =>
      rw [hwork] at h
      cases result with
      | error failure => cases h
      | ok a => exact ⟨a, between, rfl, h⟩

theorem runIn_get_bind {β : Type} (next : World → Work β) (w : World) :
    Work.runIn (get >>= next) w = (next w).runIn w :=
  rfl

theorem runIn_set_bind {β : Type} (next : PUnit → Work β) (left w : World) :
    Work.runIn (set left >>= next) w = (next ⟨⟩).runIn left :=
  rfl

theorem runIn_ask_bind {α β : Type} (question : Disk → Except DiskError α) (next : α → Work β) (w : World) :
    (ask question >>= next).runIn w =
      match question w.disk with
      | .ok answer => (next answer).runIn w
      | .error e => (.error (.disk e), w) := by
  have hask : (ask question).runIn w = ((question w.disk).mapError .disk, w) := by
    rw [ask, runIn_get_bind]
    cases question w.disk <;> rfl
  rw [runIn_bind, hask]
  cases question w.disk <;> rfl

-- Work that only looks at the disk: its result is the answer to a question about the disk, and it
-- leaves nothing behind but what it told the log.
def Reads {α : Type} (work : Work α) (question : Disk → Except Failure α) : Prop :=
  ∀ w, ∃ events, work.runIn w = (question w.disk, { w with events := events })

theorem Reads.congr {α : Type} {work : Work α} {question other : Disk → Except Failure α}
    (h : Reads work question) (heq : ∀ d, question d = other d) : Reads work other :=
  fun w => heq w.disk ▸ h w

theorem Reads.pure {α : Type} (a : α) : Reads (pure a) fun _ => .ok a :=
  fun w => ⟨w.events, rfl⟩

theorem Reads.throw {α : Type} (failure : Failure) : Reads (throw failure : Work α) fun _ => .error failure :=
  fun w => ⟨w.events, rfl⟩

theorem Reads.fail {α : Type} (f : Fault) : Reads (fail f : Work α) fun _ => .error (.fault f) :=
  Reads.throw (.fault f)

theorem Reads.note (event : Event) : Reads (note event) fun _ => .ok () := by
  intro w
  have hrun : (Work.note event).runIn w = (.ok (),
      if w.log.lets event.logger event.level then { w with events := w.events ++ [event] } else w) := rfl
  rw [hrun]
  split
  · exact ⟨_, rfl⟩
  · exact ⟨w.events, rfl⟩

theorem Reads.bind {α β : Type} {work : Work α} {question : Disk → Except Failure α} {next : α → Work β}
    {follow : α → Disk → Except Failure β} (hwork : Reads work question)
    (hnext : ∀ a, Reads (next a) (follow a)) :
    Reads (work >>= next) fun d => (question d).bind fun a => follow a d := by
  intro w
  obtain ⟨events, hrun⟩ := hwork w
  rw [runIn_bind, hrun]
  dsimp only
  cases question w.disk with
  | error failure => exact ⟨events, rfl⟩
  | ok a => exact hnext a { w with events := events }

-- Telling the log something first makes no difference.
theorem Reads.note_bind {β : Type} (event : Event) {next : Unit → Work β}
    {question : Disk → Except Failure β} (hnext : Reads (next ()) question) :
    Reads (Work.note event >>= next) question :=
  (Reads.note event).bind fun _ => hnext

-- Work that goes by the disk it finds.
theorem Reads.disk {β : Type} {next : World → Work β} (question : Disk → Disk → Except Failure β)
    (hnext : ∀ w, Reads (next w) (question w.disk)) : Reads (get >>= next) fun d => question d d :=
  fun w => hnext w w

theorem Reads.ask {α : Type} (question : Disk → Except DiskError α) :
    Reads (ask question) fun d => (question d).mapError .disk := by
  refine Reads.disk (fun d _ => (question d).mapError .disk) fun w => ?_
  cases question w.disk with
  | ok answer => exact Reads.pure answer
  | error e => exact Reads.throw (.disk e)

-- Work that goes by what the disk answers.
theorem Reads.answer {α : Type} (question : Disk → Except DiskError Bool) {next : Bool → Work α}
    {ifNo ifYes : Disk → Except Failure α} (hno : Reads (next false) ifNo) (hyes : Reads (next true) ifYes) :
    Reads (Work.ask question >>= next) fun d =>
      match question d with
      | .error e => .error (.disk e)
      | .ok false => ifNo d
      | .ok true => ifYes d := by
  have hnext : ∀ answer : Bool, Reads (next answer) fun d => if answer then ifYes d else ifNo d := by
    intro answer
    cases answer with
    | false => exact hno
    | true => exact hyes
  refine ((Reads.ask question).bind hnext).congr fun d => ?_
  rcases question d with e | (_ | _) <;> rfl

theorem Reads.mapM {α β : Type} {each : α → Work β} {question : α → Disk → Except Failure β}
    (heach : ∀ a, Reads (each a) (question a)) (l : List α) :
    Reads (l.mapM each) fun d => l.mapM fun a => question a d := by
  induction l with
  | nil => exact Reads.pure []
  | cons a l ih =>
      simp only [List.mapM_cons]
      exact (heach a).bind fun b => ih.bind fun bs => Reads.pure (b :: bs)

theorem Reads.forM {α : Type} {each : α → Work Unit} (heach : ∀ a, Reads (each a) fun _ => .ok ())
    (l : List α) : Reads (l.forM each) fun _ => .ok () := by
  induction l with
  | nil => exact Reads.pure ()
  | cons a l ih => exact (heach a).bind fun _ => ih

end CrateDocs.Work
