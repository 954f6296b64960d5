import RobotConsole.Command.Run
import RobotConsole.Proofs.Requests

/-!
# What the steps of a command do

The steps of a command on its desk: talking leaves the store alone, keeping leaves the exchange
alone, and looking at the index or reading a definition leaves both alone.  A row is added only to a
sound index and only under the code in the address of its resource.  A command on a known resource
goes on just when the index has an address for its code.
-/

set_option autoImplicit false

namespace RobotConsole

/-! ## The index -/

namespace Index

namespace Store

def tables? : Store → Option Tables
  | .sound tables => some tables
  | .sealed tables => some tables
  | .damaged => none

end Store

namespace Keep

theorem reading_run {Result : Type} (view : Tables → Result) (store : Store) :
    (reading view).run store =
      (match store.tables? with
        | some tables => .ok (view tables)
        | none => .error .storage,
        store) := by
  cases store <;> rfl

theorem changing_sound (change : Tables → Tables) (tables : Tables) :
    (changing change).run (.sound tables) = (.ok (), .sound (change tables)) := rfl

/-- A store that is not sound stays as it is. -/
theorem withTables_unsound {Result : Type} (step : Tables → Result × Tables) (store : Store)
    (unsound : ∀ tables, store ≠ .sound tables) :
    (withTables step).run store = (.error .storage, store) := by
  cases store with
  | sound tables => exact absurd rfl (unsound tables)
  | «sealed» tables => rfl
  | damaged => rfl

def add (url : String) (push : String → Tables → Tables) : Keep String := do
  let code ← codeOf url
  changing (push code)
  return code

theorem codeOf_run (url : String) (store : Store) :
    (liftM (codeOf url) : Keep String).run store =
      (match Code.find? url with
        | some code => .ok code
        | none => .error (.noCode url),
        store) := by
  unfold codeOf
  cases Code.find? url <;> rfl

theorem add_sound (url code : String) (push : String → Tables → Tables) (tables : Tables)
    (coded : Code.find? url = some code) :
    (add url push).run (.sound tables) = (.ok code, .sound (push code tables)) := by
  simp only [add, bind_run, codeOf_run, coded, changing_sound, pure_run]

/-- A row can only have been added to a sound index, under the code in the address. -/
theorem add_eq_ok {url code : String} {push : String → Tables → Tables} {store left : Store}
    (done : (add url push).run store = (.ok code, left)) :
    ∃ tables, store = .sound tables ∧ Code.find? url = some code ∧
      left = .sound (push code tables) := by
  cases coded : Code.find? url with
  | none =>
      simp only [add, bind_run, codeOf_run, coded] at done
      cases done
  | some found =>
      by_cases sound : ∃ tables, store = .sound tables
      · obtain ⟨tables, rfl⟩ := sound
        rw [add_sound url found push tables coded] at done
        cases done
        exact ⟨tables, rfl, rfl, rfl⟩
      · have unsound : ∀ tables, store ≠ .sound tables := fun tables same => sound ⟨tables, same⟩
        simp only [add, bind_run, codeOf_run, coded, changing, withTables_unsound _ store unsound]
          at done
        cases done

theorem add_cases (url : String) (push : String → Tables → Tables) (store : Store) :
    ((add url push).run store).2 = store ∨
      ∃ tables code, store = .sound tables ∧ Code.find? url = some code ∧
        ((add url push).run store).2 = .sound (push code tables) := by
  cases coded : Code.find? url with
  | none =>
      left
      simp only [add, bind_run, codeOf_run, coded]
  | some code =>
      by_cases sound : ∃ tables, store = .sound tables
      · obtain ⟨tables, rfl⟩ := sound
        right
        refine ⟨tables, code, rfl, rfl, ?_⟩
        rw [add_sound url code push tables coded]
      · left
        have unsound : ∀ tables, store ≠ .sound tables := fun tables same => sound ⟨tables, same⟩
        simp only [add, bind_run, codeOf_run, coded, changing, withTables_unsound _ store unsound]

theorem forM_changing_cons (change : Tables → Tables) (changes : List (Tables → Tables)) :
    (change :: changes).forM changing = (changing change >>= fun _ => changes.forM changing) := rfl

theorem forM_changing_sound (changes : List (Tables → Tables)) (tables : Tables) :
    (changes.forM changing).run (.sound tables) =
      (.ok (), .sound (Tables.applySteps changes tables)) := by
  induction changes generalizing tables with
  | nil => rfl
  | cons change changes ih =>
      rw [forM_changing_cons, bind_run, changing_sound]
      exact ih (change tables)

theorem forM_changing_unsound (changes : List (Tables → Tables)) (store : Store)
    (unsound : ∀ tables, store ≠ .sound tables) :
    ((changes.forM changing).run store).2 = store := by
  cases changes with
  | nil => rfl
  | cons change changes =>
      rw [forM_changing_cons, bind_run, changing, withTables_unsound _ store unsound]

end Keep

end Index

/-! ## The steps of a command -/

def Surroundings.definition? (surroundings : Surroundings) : Option String → Option String
  | some path => surroundings.files.text? path
  | none => String.fromUTF8? surroundings.input

namespace Run

theorem talk_run {Result : Type} (step : Talk Result) (desk : Desk) :
    (talk step).run desk =
      ((step.run desk.exchange).1.mapError Trouble.fault,
        { desk with exchange := (step.run desk.exchange).2 }) := by
  simp only [talk, ExceptT.run]
  cases step desk.exchange with
  | mk outcome exchange => cases outcome <;> rfl

theorem keep_run {Result : Type} (step : Index.Keep Result) (desk : Desk) :
    (keep step).run desk =
      ((step.run desk.store).1.mapError Trouble.fault,
        { desk with store := (step.run desk.store).2 }) := by
  simp only [keep, ExceptT.run]
  cases step desk.store with
  | mk outcome store => cases outcome <;> rfl

theorem server_run (surroundings : Surroundings) (explicit : Option String) (desk : Desk) :
    (server surroundings explicit).run desk =
      (match explicit.or surroundings.defaultServer with
        | some server => .ok server
        | none => .error .noServer,
        desk) := by
  unfold server
  cases explicit.or surroundings.defaultServer <;> rfl

def unread : Option String → Trouble
  | some path => .unreadableFile path
  | none => .unreadableInput

theorem definition_run (surroundings : Surroundings) (file : Option String) (desk : Desk) :
    (definition surroundings file).run desk =
      (match surroundings.definition? file with
        | some text => .ok (Text.trim text)
        | none => .error (unread file),
        desk) := by
  unfold definition Surroundings.definition?
  cases file with
  | none => dsimp only; cases String.fromUTF8? surroundings.input <;> rfl
  | some path => dsimp only; cases surroundings.files.text? path <;> rfl

/-! ## Going on with a resource of the index -/

section Resources

variable {kind : Kind} {find : String → Index.Keep (Option String)}
    {view : Index.Tables → Option String}
  {code : String} {next : Resource kind → Run Page} {desk : Desk} {tables : Index.Tables}

theorem withResource_run (looks : find code = Index.Keep.reading view) :
    (withResource kind find code next).run desk =
      match desk.store.tables? with
      | none => (.error (.fault .storage), desk)
      | some tables =>
          match view tables with
          | none => (.ok (Page.notFound kind code), desk)
          | some url => (next (Resource.ofUrl url)).run desk := by
  simp only [withResource, bind_run, looks, keep_run, Index.Keep.reading_run]
  cases desk.store.tables? with
  | none => rfl
  | some tables =>
      simp only [Except.mapError]
      cases view tables <;> rfl

theorem withResource_found {url : String} (looks : find code = Index.Keep.reading view)
    (readable : desk.store.tables? = some tables) (found : view tables = some url) :
    (withResource kind find code next).run desk = (next (Resource.ofUrl url)).run desk := by
  simp only [withResource_run looks, readable, found]

/-- Either the index has an address to go on with, or nothing happens on the desk. -/
theorem withResource_cases (looks : find code = Index.Keep.reading view) :
    ((withResource kind find code next).run desk).2 = desk ∨
      ∃ tables url, desk.store.tables? = some tables ∧ view tables = some url ∧
        (withResource kind find code next).run desk = (next (Resource.ofUrl url)).run desk := by
  cases readable : desk.store.tables? with
  | none =>
      left
      simp only [withResource_run looks, readable]
  | some tables =>
      cases found : view tables with
      | none =>
          left
          simp only [withResource_run looks, readable, found]
      | some url =>
          right
          exact ⟨tables, url, rfl, found, withResource_found looks readable found⟩

end Resources

/-! ## Steps that leave the index alone -/

/-- However the step ends, the store on the desk is the one from before. -/
def LeavesStore {Result : Type} (step : Run Result) : Prop :=
  ∀ desk, (step.run desk).2.store = desk.store

namespace LeavesStore

variable {First Last : Type}

theorem pure (result : Last) : LeavesStore (pure result : Run Last) := fun _ => rfl

theorem throw (trouble : Trouble) : LeavesStore (throw trouble : Run Last) := fun _ => rfl

theorem bind {step : Run First} {next : First → Run Last} (first : LeavesStore step)
    (rest : ∀ result, LeavesStore (next result)) : LeavesStore (step >>= next) := by
  intro desk
  have kept := first desk
  rw [bind_run]
  cases ran : step.run desk with
  | mk outcome middle =>
      rw [ran] at kept
      cases outcome with
      | error trouble => exact kept
      | ok result => exact (rest result middle).trans kept

theorem talk (step : Talk Last) : LeavesStore (talk step) := by
  intro desk
  rw [talk_run]

theorem looking (view : Index.Tables → Last) : LeavesStore (keep (Index.Keep.reading view)) := by
  intro desk
  rw [keep_run, Index.Keep.reading_run]

theorem report (fit : Report.Fit Last) (value : Json) : LeavesStore (report fit value) := by
  unfold Run.report
  cases fit value with
  | error misfit => exact throw _
  | ok report => exact pure _

theorem withReport {kind : Kind} (surroundings : Surroundings) (resource : Resource kind)
    (fit : Report.Fit First)
    (code : String) (page : First → Page) :
    LeavesStore (withReport surroundings resource fit code page) := by
  apply bind (talk _)
  intro found
  cases found with
  | none => exact pure _
  | some value => exact bind (report fit value) fun _ => pure _

theorem withResource {kind : Kind} {find : String → Index.Keep (Option String)}
    {view : Index.Tables → Option String}
    {code : String} {next : Resource kind → Run Page} (looks : find code = Index.Keep.reading view)
    (rest : ∀ resource, LeavesStore (next resource)) :
    LeavesStore (withResource kind find code next) := by
  apply bind (looks ▸ looking view)
  intro found
  cases found with
  | none => exact pure _
  | some url => exact rest _

theorem server (surroundings : Surroundings) (explicit : Option String) :
    LeavesStore (server surroundings explicit) := by
  intro desk
  rw [server_run]

theorem definition (surroundings : Surroundings) (file : Option String) :
    LeavesStore (definition surroundings file) := by
  intro desk
  rw [definition_run]

theorem codeOf (url : String) : LeavesStore (codeOf url) := by
  unfold Run.codeOf
  cases Index.codeOf url with
  | error fault => exact throw _
  | ok code => exact pure _

/-! The commands that only show something. -/

theorem listRobots (json : Bool) : LeavesStore (listRobots json) :=
  bind (looking _) fun _ => pure _

theorem showRobot (surroundings : Surroundings) (code : String) (facet : Facet) :
    LeavesStore (showRobot surroundings code facet) :=
  withResource rfl fun resource => withReport surroundings resource _ code _

theorem showExecution (surroundings : Surroundings) (code : String) :
    LeavesStore (showExecution surroundings code) :=
  withResource rfl fun resource => withReport surroundings resource _ code _

theorem showPeriodical (surroundings : Surroundings) (code : String) :
    LeavesStore (showPeriodical surroundings code) :=
  withResource rfl fun resource => withReport surroundings resource _ code _

theorem executeOnce (surroundings : Surroundings) (explicit file : Option String)
    (inputs : List String) :
    LeavesStore (executeOnce surroundings explicit file inputs) := by
  apply bind (server surroundings explicit)
  intro root
  apply bind (definition surroundings file)
  intro text
  apply bind (talk _)
  intro execution
  apply bind (codeOf _)
  intro code
  exact withReport surroundings execution _ code _

end LeavesStore

end Run

end RobotConsole
