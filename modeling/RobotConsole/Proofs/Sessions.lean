import RobotConsole.Proofs.CommandEffect

/-!
# Sessions

A session is a list of turns, each of which performs one command on the tables that the turn before
has left.  A turn comes with its own surroundings, answers and sink.  The store may refuse its
changes or refuse to be used at all while the turn lasts, and the deletion of a robot may break off
after any number of its steps.  Whatever happens, a turn leaves the tables alone, makes the change
that its command is due to make, or takes the first steps of a deletion.
-/

set_option autoImplicit false

namespace RobotConsole

open Index (Tables Store Keep)

/-! ## Deletions that break off -/

/-- Takes some steps of a deletion and then fails. -/
def Index.Keep.breakOff (steps : Nat) (code : String) : Keep Unit := do
  ((Tables.deletionSteps code).take steps).forM Keep.changing
  throw .storage

def Run.breakOffDeletion (steps : Nat) (code : String) : Run Page :=
  withResource .robot Keep.robotUrl? code fun resource =>
    removeAndDrop resource.delete (Keep.breakOff steps code) (Page.robotDeleted code)

theorem Index.Tables.deletion_cases (code : String) (steps : Nat) (tables : Tables) :
    Tables.applySteps ((Tables.deletionSteps code).take steps) tables = tables ∨
      Tables.applySteps ((Tables.deletionSteps code).take steps) tables =
        tables.dropExecutionsOf code ∨
      Tables.applySteps ((Tables.deletionSteps code).take steps) tables =
        (tables.dropExecutionsOf code).dropPeriodicalsOf code ∨
      Tables.applySteps ((Tables.deletionSteps code).take steps) tables =
        (Change.dropRobot code).apply tables := by
  rcases steps with _ | _ | _ | steps
  · exact Or.inl rfl
  · exact Or.inr (Or.inl rfl)
  · exact Or.inr (Or.inr (Or.inl rfl))
  · rw [List.take_of_length_le (Nat.le_add_left 3 steps)]
    exact Or.inr (Or.inr (Or.inr rfl))

namespace Index.Keep

theorem breakOff_sound (steps : Nat) (code : String) (tables : Tables) :
    (breakOff steps code).run (.sound tables) =
      (.error .storage, .sound (Tables.applySteps
        ((Tables.deletionSteps code).take steps) tables)) := by
  rw [breakOff, bind_run, forM_changing_sound]
  rfl

theorem breakOff_unsound (steps : Nat) (code : String) (store : Store)
    (unsound : ∀ tables, store ≠ .sound tables) :
    ((breakOff steps code).run store).2 = store := by
  have kept := forM_changing_unsound ((Tables.deletionSteps code).take steps) store unsound
  rw [breakOff, bind_run]
  cases ran : (((Tables.deletionSteps code).take steps).forM changing).run store with
  | mk outcome left =>
      rw [ran] at kept
      cases outcome <;> exact kept

end Index.Keep

namespace Run

/-- The index is touched by the drop alone, and only if the removal has been answered. -/
theorem removeAndDrop_store {Result : Type} (drop : Keep Result) (url : String) (page : Page)
    (desk : Desk) :
    ((removeAndDrop (Talk.delete url) drop page).run desk).2.store = desk.store ∨
      ((removeAndDrop (Talk.delete url) drop page).run desk).2.store = (drop.run desk.store).2 := by
  cases replied : desk.exchange.reply url with
  | error fault =>
      left
      simp only [removeAndDrop, bind_run, talk_run, Talk.delete_run, replied, Except.map,
        Except.mapError]
  | ok reply =>
      right
      simp only [removeAndDrop, bind_run, talk_run, Talk.delete_run, replied, Except.map,
        Except.mapError, keep_run]
      cases (drop.run desk.store).1 <;> rfl

theorem breakOffDeletion_cases (steps : Nat) (code : String) (desk : Desk) :
    ((breakOffDeletion steps code).run desk).2.store = desk.store ∨
      ∃ tables, desk.store = .sound tables ∧
        ((breakOffDeletion steps code).run desk).2.store =
          .sound (Tables.applySteps ((Tables.deletionSteps code).take steps) tables) := by
  have looks : Keep.robotUrl? code = Keep.reading fun tables => tables.robotUrl? code := rfl
  unfold breakOffDeletion
  rcases withResource_cases looks with same | ⟨tables, address, readable, found, ran⟩
  · exact Or.inl (congrArg Desk.store same)
  · rw [ran]
    rcases removeAndDrop_store (Keep.breakOff steps code) (Address.stem address)
      (Page.robotDeleted code) desk with
      kept | dropped
    · exact Or.inl kept
    · by_cases sound : ∃ tables, desk.store = .sound tables
      · obtain ⟨tables, sound⟩ := sound
        right
        refine ⟨tables, sound, dropped.trans ?_⟩
        rw [sound, Keep.breakOff_sound]
      · left
        exact dropped.trans (Keep.breakOff_unsound steps code desk.store fun tables same =>
          sound ⟨tables, same⟩)

end Run

/-! ## Turns -/

inductive Access where
  | full
  | readOnly
  | refused
  deriving DecidableEq, Repr

def Access.store (tables : Tables) : Access → Store
  | .full => .sound tables
  | .readOnly => .sealed tables
  | .refused => .damaged

structure Turn where
  surroundings : Surroundings
  command : Command
  exchange : Exchange
  sink : Sink
  access : Access
  /-- After how many of its steps the deletion of a robot breaks off, if it does. -/
  breaksOff : Option Nat

namespace Turn

variable (turn : Turn) (tables : Tables)

def desk : Desk := ⟨turn.access.store tables, turn.exchange⟩

def finish : Desk :=
  match turn.command, turn.breaksOff with
  | .deleteRobot code, some steps => ((Run.breakOffDeletion steps code).run (turn.desk tables)).2
  | command, _ => (command.perform turn.surroundings (turn.desk tables) turn.sink).2.1

/-- The tables that the next turn finds.  A store that cannot be read now is there again then. -/
def run : Tables :=
  (turn.finish tables).store.tables?.getD tables

end Turn

def Session.run : List Turn → Tables → Tables
  | [], tables => tables
  | turn :: rest, tables => Session.run rest (turn.run tables)

/-! ## What a turn may do -/

/-- The ways in which a turn may leave the tables. -/
inductive Turn.Leaves (turn : Turn) (tables : Tables) : Tables → Prop where
  | alone : Leaves turn tables tables
  | changed {reply : Response} {rest : List Answer} {request : Request} {change : Change}
      (answered : turn.exchange.answers = .response reply :: rest)
      (due : Due turn.surroundings tables reply turn.command request change) :
      Leaves turn tables (change.apply tables)
  | brokenOff {code : String} (steps : Nat) (deletion : turn.command = .deleteRobot code) :
      Leaves turn tables (Tables.applySteps ((Tables.deletionSteps code).take steps) tables)

theorem Access.getD_store (access : Access) (tables : Tables) :
    (access.store tables).tables?.getD tables = tables := by
  cases access <;> rfl

theorem Access.eq_of_sound {access : Access} {tables found : Tables}
    (sound : access.store tables = .sound found) :
    found = tables := by
  cases access with
  | full => exact (Store.sound.inj sound).symm
  | readOnly => cases sound
  | refused => cases sound

namespace Turn

variable (turn : Turn) (tables : Tables)

theorem finish_cases :
    turn.finish tables = ((turn.command.run turn.surroundings).run (turn.desk tables)).2 ∨
      ∃ steps code, turn.command = .deleteRobot code ∧
        turn.finish tables = ((Run.breakOffDeletion steps code).run (turn.desk tables)).2 := by
  unfold finish
  split
  · rename_i code steps command breaksOff
    exact Or.inr ⟨steps, code, command, rfl⟩
  · exact Or.inl (Command.desk_perform _ _ _ _)

theorem leaves : turn.Leaves tables (turn.run tables) := by
  rcases turn.finish_cases tables with performed | ⟨steps, code, deletion, broken⟩
  · rcases run_cases turn.surroundings turn.command (turn.desk tables) with
      kept | ⟨found, reply, rest, request, change, sound, answered, due⟩
    · rw [run, performed, kept, desk, Access.getD_store]
      exact .alone
    · obtain rfl := Access.eq_of_sound sound
      obtain ⟨page, ran⟩ := run_of_due due sound answered
      rw [run, performed, ran]
      exact .changed answered due
  · rcases Run.breakOffDeletion_cases steps code
      (turn.desk tables) with kept | ⟨found, sound, dropped⟩
    · rw [run, broken, kept, desk, Access.getD_store]
      exact .alone
    · obtain rfl := Access.eq_of_sound sound
      rw [run, broken, dropped]
      exact .brokenOff steps deletion

end Turn

end RobotConsole
