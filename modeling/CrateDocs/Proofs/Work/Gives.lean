import CrateDocs.Proofs.Work.Reads

namespace CrateDocs

-- The world after some events, of which the log keeps those that it lets through.
def World.tell (w : World) (told : List Event) : World :=
  { w with events := w.events ++ told.filter fun event => w.log.lets event.logger event.level }

@[simp] theorem World.tell_nil (w : World) : w.tell [] = w := by
  simp [World.tell]

theorem World.tell_append (w : World) (told more : List Event) : w.tell (told ++ more) = (w.tell told).tell more := by
  simp [World.tell]

@[simp] theorem World.tell_disk (w : World) (told : List Event) : (w.tell told).disk = w.disk :=
  rfl

-- Events of one logger and one level are kept all together or not at all.
theorem World.tell_of_same (w : World) {told : List Event} {logger : String} {level : Level}
    (h : ∀ event ∈ told, event.logger = logger ∧ event.level = level) :
    w.tell told = { w with events := w.events ++ if w.log.lets logger level then told else [] } := by
  have hlets : ∀ event ∈ told, w.log.lets event.logger event.level = w.log.lets logger level := by
    intro event hevent
    rw [(h event hevent).1, (h event hevent).2]
  rw [World.tell, List.filter_congr hlets]
  cases w.log.lets logger level <;> simp

namespace Work

-- Work that ends well on a disk, leaves the disk alone, and tells the log just these events.
def Gives {α : Type} (d : Disk) (work : Work α) (a : α) (told : List Event) : Prop :=
  ∀ w : World, w.disk = d → work.runIn w = (.ok a, w.tell told)

variable {α β : Type} {d : Disk}

theorem Gives.pure (d : Disk) (a : α) : Gives d (pure a) a [] := by
  intro w _
  rw [World.tell_nil]
  rfl

theorem Gives.note (d : Disk) (event : Event) : Gives d (note event) () [event] := by
  intro w _
  have hrun : (Work.note event).runIn w = (.ok (),
      if w.log.lets event.logger event.level then { w with events := w.events ++ [event] } else w) := rfl
  rw [hrun]
  by_cases hlets : w.log.lets event.logger event.level = true
  · simp [World.tell, hlets]
  · simp [World.tell, hlets]

theorem Gives.bind {work : Work α} {next : α → Work β} {a : α} {b : β} {told more : List Event}
    (hwork : Gives d work a told) (hnext : Gives d (next a) b more) :
    Gives d (work >>= next) b (told ++ more) := by
  intro w hw
  rw [runIn_bind, hwork w hw, World.tell_append]
  exact hnext (w.tell told) hw

theorem Gives.map {work : Work α} {a : α} {told : List Event} (hwork : Gives d work a told) (f : α → β) :
    Gives d (do return f (← work)) (f a) told := by
  rw [← List.append_nil told]
  exact hwork.bind (Gives.pure d (f a))

-- Work that goes by the disk it finds.
theorem Gives.disk {next : World → Work β} {b : β} {told : List Event}
    (hnext : ∀ w : World, w.disk = d → Gives d (next w) b told) : Gives d (get >>= next) b told :=
  fun w hw => hnext w hw w hw

theorem Gives.ask {question : Disk → Except DiskError α} {a : α} (h : question d = .ok a) :
    Gives d (ask question) a [] := by
  refine Gives.disk fun w hw => ?_
  simp only [hw, h]
  exact Gives.pure d a

theorem Gives.mapM {each : α → Work β} {answer : α → β} {told : α → List Event} {l : List α}
    (h : ∀ a ∈ l, Gives d (each a) (answer a) (told a)) :
    Gives d (l.mapM each) (l.map answer) (l.flatMap told) := by
  induction l with
  | nil => exact Gives.pure d []
  | cons a l ih =>
      rw [List.forall_mem_cons] at h
      rw [List.mapM_cons, List.map_cons, List.flatMap_cons]
      exact h.1.bind ((ih h.2).map (answer a :: ·))

theorem Gives.forM {each : α → Work Unit} {told : α → List Event} {l : List α}
    (h : ∀ a ∈ l, Gives d (each a) () (told a)) : Gives d (l.forM each) () (l.flatMap told) := by
  induction l with
  | nil => exact Gives.pure d ()
  | cons a l ih =>
      rw [List.forall_mem_cons] at h
      rw [List.flatMap_cons]
      exact h.1.bind (ih h.2)

end Work

end CrateDocs
