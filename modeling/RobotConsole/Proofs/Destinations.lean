import RobotConsole.Proofs.Polling
import RobotConsole.Proofs.Sessions

/-!
# Where commands send their requests

A command on a code sends its requests to the address that the index has for the code, or under that
address, and it sends no others.  This is so whatever the service answers, and also when the store
cannot be changed or a deletion breaks off.  A command that cannot look at the index sends nothing.
-/

set_option autoImplicit false

namespace RobotConsole

open Index (Tables Keep)

/-! ## Where the ends of commands send their requests -/

namespace Run

theorem exchange_createAndAdd {base : Kind} (created : Kind) (resource : Resource base)
    (relative : String)
    (payload : Payload) (push : String → String → Tables → Tables) (page : String → Page)
    (desk : Desk) :
    ((createAndAdd (resource.create created relative payload) push page).run desk).2.exchange =
      desk.exchange.after (Talk.postRequest (resource.path relative) payload) := by
  simp only [createAndAdd, bind_run, talk_run, Resource.create_run]
  cases desk.exchange.created (resource.path relative) with
  | error fault => rfl
  | ok location =>
      simp only [Except.map, Except.mapError, keep_run, Resource.url_ofUrl]
      cases ((Keep.add (Address.stem location) (push (Address.stem location))).run desk.store).1 <;>
        rfl

theorem exchange_removeAndDrop {Result : Type} (drop : Keep Result) (url : String) (page : Page)
    (desk : Desk) :
    ((removeAndDrop (Talk.delete url) drop page).run desk).2.exchange =
      desk.exchange.after (Talk.deleteRequest url) := by
  simp only [removeAndDrop, bind_run, talk_run, Talk.delete_run]
  cases desk.exchange.reply url with
  | error fault => rfl
  | ok reply =>
      simp only [Except.map, Except.mapError, keep_run]
      cases (drop.run desk.store).1 <;> rfl

theorem report_run {Result : Type} (fit : Report.Fit Result) (value : Json) (desk : Desk) :
    (report fit value).run desk =
      ((fit value).mapError fun misfit => .fault (.badReport misfit), desk) := by
  unfold report
  cases fit value <;> rfl

/-- A report is asked for by polling. -/
theorem polled_withReport {Result : Type} {kind : Kind} (surroundings : Surroundings)
    (resource : Resource kind)
    (fit : Report.Fit Result) (code : String) (page : Result → Page) (desk : Desk) :
    ∃ again, Exchange.Polled surroundings.patience
      (Talk.getRequest resource.url Talk.jsonType) again desk.exchange
      ((withReport surroundings resource fit code page).run desk).2.exchange := by
  have passed : ((withReport surroundings resource fit code page).run desk).2.exchange =
      ((Talk.getJson surroundings.patience resource.url).run desk.exchange).2 := by
    simp only [withReport, bind_run, talk_run, Resource.fetch]
    cases ran : ((Talk.getJson surroundings.patience resource.url).run desk.exchange).1 with
    | error fault => rfl
    | ok found =>
        cases found with
        | none => rfl
        | some value =>
            simp only [Except.mapError, bind_run, report_run]
            cases fit value <;> rfl
  rw [passed]
  exact Talk.polled_getJson surroundings.patience desk.exchange resource.url

end Run

/-! ## Where commands send their requests -/

namespace Turn

/-- What a turn sends if it can look at the index; otherwise it sends nothing. -/
def Sends (turn : Turn) (tables : Tables) (requests : List Request) : Prop :=
  (turn.finish tables).exchange.sent = turn.exchange.sent ++ if turn.access = .refused then []
    else requests

variable (turn : Turn) (tables : Tables)

theorem finish_of_no_deletion (other : ∀ code, turn.command ≠ .deleteRobot code) :
    turn.finish tables = ((turn.command.run turn.surroundings).run (turn.desk tables)).2 := by
  rcases turn.finish_cases tables with performed | ⟨steps, code, deletion, -⟩
  · exact performed
  · exact absurd deletion (other code)

theorem tables?_desk :
    (turn.desk tables).store.tables? = if turn.access = .refused then none else some tables := by
  unfold desk
  cases turn.access <;> rfl

variable {tables} {kind : Kind} {find : String → Keep (Option String)}
    {view : Tables → Option String}
  {code address : String} {next : Resource kind → Run Page} {requests : List Request}

theorem sent_withResource (looks : find code = Keep.reading view)
    (found : view tables = some address)
    (sent : ((next (Resource.ofUrl address)).run (turn.desk tables)).2.exchange.sent =
      turn.exchange.sent ++ requests) :
    ((Run.withResource kind find code next).run (turn.desk tables)).2.exchange.sent =
      turn.exchange.sent ++ if turn.access = .refused then [] else requests := by
  have reads := turn.tables?_desk tables
  by_cases refused : turn.access = .refused
  · rw [if_pos refused] at reads
    rw [Run.withResource_run looks, reads, if_pos refused, List.append_nil]
    rfl
  · rw [if_neg refused] at reads
    rw [Run.withResource_found looks reads found, if_neg refused]
    exact sent

theorem sent_removing {Result : Type} (drop : Keep Result) (page : Page)
    (looks : find code = Keep.reading view) (found : view tables = some address) :
    ((Run.withResource kind find code fun resource =>
      Run.removeAndDrop resource.delete drop page).run
        (turn.desk tables)).2.exchange.sent =
      turn.exchange.sent ++ if turn.access = .refused then []
        else [Talk.deleteRequest (Address.stem address)] := by
  apply turn.sent_withResource looks found
  rw [Resource.delete, Run.exchange_removeAndDrop, Exchange.sent_after]
  rfl

end Turn

def Polls (tables : Tables) (command : Command) (url : String) : Prop :=
  ∀ turn : Turn, turn.command = command →
    ∃ again, turn.Sends tables (List.replicate (again + 1) (Talk.getRequest url Talk.jsonType))

/-- On these tables a command sends one request. -/
def Asks (tables : Tables) (command : Command) (request : Request) : Prop :=
  ∀ turn : Turn, turn.command = command → turn.Sends tables [request]

structure RobotAt (tables : Tables) (code url : String) : Prop where
  shown : ∀ facet, Polls tables (.showRobot code facet) url
  executed : ∀ inputs, Asks tables (.executeRobot code inputs)
    (Talk.postRequest (url ++ "/execute") (.form (Service.executionForm inputs)))
  scheduled : ∀ period inputs, Asks tables (.scheduleRobot code period inputs)
    (Talk.postRequest (url ++ "/periodical") (.form (Service.periodicalForm period inputs)))
  deleted : Asks tables (.deleteRobot code) (Talk.deleteRequest url)

structure ExecutionAt (tables : Tables) (code url : String) : Prop where
  shown : Polls tables (.showExecution code) url
  deleted : Asks tables (.deleteExecution code) (Talk.deleteRequest url)

structure PeriodicalAt (tables : Tables) (code url : String) : Prop where
  shown : Polls tables (.showPeriodical code) url
  deleted : Asks tables (.deletePeriodical code) (Talk.deleteRequest url)

theorem Address.join_execute (address : String) :
    join address "execute" = stem address ++ "/execute" := by
  rw [join_eq_append address "execute" (by decide), String.append_assoc]
  rfl

theorem Address.join_periodical (address : String) :
    join address "periodical" = stem address ++ "/periodical" := by
  rw [join_eq_append address "periodical" (by decide), String.append_assoc]
  rfl

section Addresses

variable {tables : Tables} {code address : String}

theorem polls_of_run {Result : Type} {kind : Kind} {command : Command}
    {find : String → Keep (Option String)}
    {view : Tables → Option String} {fit : Report.Fit Result} {page : Result → Page}
    (looks : find code = Keep.reading view) (found : view tables = some address)
    (runs : ∀ surroundings, command.run surroundings =
      Run.withResource kind find code fun resource =>
      Run.withReport surroundings resource fit code page)
    (other : ∀ code, command ≠ .deleteRobot code) :
    Polls tables command (Address.stem address) := by
  intro turn asked
  obtain ⟨again, polled⟩ :=
    Run.polled_withReport turn.surroundings (Resource.ofUrl address : Resource kind) fit code page
      (turn.desk tables)
  refine ⟨again, ?_⟩
  rw [Turn.Sends, turn.finish_of_no_deletion tables (asked ▸ other), asked, runs]
  exact turn.sent_withResource looks found polled.sent

theorem asks_of_creating {base created : Kind} {command : Command} {relative : String}
    {payload : Payload}
    {push : Surroundings → String → String → Tables → Tables} {page : String → Page}
    (found : tables.robotUrl? code = some address)
    (runs : ∀ surroundings, command.run surroundings =
      Run.withResource base Keep.robotUrl? code fun resource =>
      Run.createAndAdd (resource.create created relative payload) (push surroundings) page)
    (other : ∀ code, command ≠ .deleteRobot code) :
    Asks tables command (Talk.postRequest (Address.join address relative) payload) := by
  intro turn asked
  rw [Turn.Sends, turn.finish_of_no_deletion tables (asked ▸ other), asked, runs]
  have looks : Keep.robotUrl? code = Keep.reading fun tables => tables.robotUrl? code := rfl
  apply turn.sent_withResource looks found
  rw [Run.exchange_createAndAdd, Exchange.sent_after, Resource.path_ofUrl]
  rfl

theorem asks_of_removing {Result : Type} {kind : Kind} {command : Command}
    {find : String → Keep (Option String)}
    {view : Tables → Option String} {drop : Keep Result} {page : Page}
    (looks : find code = Keep.reading view) (found : view tables = some address)
    (runs : ∀ surroundings, command.run surroundings =
      Run.withResource kind find code fun resource =>
      Run.removeAndDrop resource.delete drop page)
    (other : ∀ code, command ≠ .deleteRobot code) :
    Asks tables command (Talk.deleteRequest (Address.stem address)) := by
  intro turn asked
  rw [Turn.Sends, turn.finish_of_no_deletion tables (asked ▸ other), asked, runs]
  exact turn.sent_removing drop page looks found

/-- A deletion that breaks off has sent its request before. -/
theorem asks_deleteRobot (found : tables.robotUrl? code = some address) :
    Asks tables (.deleteRobot code) (Talk.deleteRequest (Address.stem address)) := by
  intro turn asked
  have looks : Keep.robotUrl? code = Keep.reading fun tables => tables.robotUrl? code := rfl
  rcases turn.finish_cases tables with performed | ⟨steps, other, deletion, broken⟩
  · rw [Turn.Sends, performed, asked, Command.run, Run.deleteRobot_eq]
    exact turn.sent_removing (Keep.deleteRobot code) (Page.robotDeleted code) looks found
  · rw [asked] at deletion
    cases deletion
    rw [Turn.Sends, broken, Run.breakOffDeletion]
    exact turn.sent_removing (Keep.breakOff steps code) (Page.robotDeleted code) looks found

theorem robotAt (found : tables.robotUrl? code = some address) :
    RobotAt tables code (Address.stem address) where
  shown facet := polls_of_run rfl found (fun _ => rfl) (by intro other same; cases same)
  executed inputs := by
    rw [← Address.join_execute]
    exact asks_of_creating found (fun surroundings => Run.executeRobot_eq surroundings code inputs)
      (by intro other same; cases same)
  scheduled period inputs := by
    rw [← Address.join_periodical]
    exact asks_of_creating found
      (fun surroundings => Run.scheduleRobot_eq surroundings code period inputs)
      (by intro other same; cases same)
  deleted := asks_deleteRobot found

theorem executionAt (found : tables.executionUrl? code = some address) :
    ExecutionAt tables code (Address.stem address) where
  shown := polls_of_run rfl found (fun _ => rfl) (by intro other same; cases same)
  deleted := asks_of_removing rfl found (fun _ => Run.deleteExecution_eq code)
    (by intro other same; cases same)

theorem periodicalAt (found : tables.periodicalUrl? code = some address) :
    PeriodicalAt tables code (Address.stem address) where
  shown := polls_of_run rfl found (fun _ => rfl) (by intro other same; cases same)
  deleted := asks_of_removing rfl found (fun _ => Run.deletePeriodical_eq code)
    (by intro other same; cases same)

end Addresses

end RobotConsole
