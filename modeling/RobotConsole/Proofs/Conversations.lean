import RobotConsole.Proofs.Destinations

/-!
# How commands talk with the service

A command may stay silent, send one request that creates or removes something, or poll a resource.
Only a command that runs a robot once does two of these: it polls the resource that its request has
created.  How often a resource is polled is limited by the settings.
-/

set_option autoImplicit false

namespace RobotConsole

namespace Command

def shows : Command → Bool
  | .showRobot _ _ | .showExecution _ | .showPeriodical _ => true
  | _ => false

/-- What a command asks the root of a service for: the server that the command line names, the path
of what is asked for, and the file that the definition comes from. -/
structure AtRoot where
  server : Option String
  relative : String
  file : Option String
  deriving DecidableEq, Repr

def atRoot? : Command → Option AtRoot
  | .createRobot server _ file => some ⟨server, "robot/create", file⟩
  | .executeOnce server file _ => some ⟨server, "robot/execute", file⟩
  | _ => none

def asks : Command → Bool
  | .listRobots _ | .showRobot _ _ | .showExecution _ | .showPeriodical _ => false
  | _ => true

end Command

/-- What may have passed between a command and the service from `before` on. -/
inductive Conversation (patience : Talk.Patience) (before : Exchange) :
    Command → Exchange → Prop where
  | silent (command : Command) : Conversation patience before command before
  | asked {command : Command} {request : Request} (asks : command.asks = true)
      (change : request.method ≠ .get) : Conversation patience before command (before.after request)
  | polled {command : Command} {url : String} {again : Nat} {after : Exchange}
      (shows : command.shows = true)
      (polled : Exchange.Polled patience (Talk.getRequest url Talk.jsonType) again before after) :
      Conversation patience before command after
  | followed {server file : Option String} {inputs : List String} {request : Request}
      {location code : String}
      {again : Nat} {after : Exchange} (posted : request.method = .post)
        (creates : before.Creates location code)
      (polled : Exchange.Polled patience
        (Talk.getRequest (Address.stem location) Talk.jsonType) again
        (before.after request) after) :
      Conversation patience before (.executeOnce server file inputs) after

/-! ## Each command has such a conversation -/

theorem Run.codeOf_run (url : String) (desk : Desk) :
    (Run.codeOf url).run desk =
      (match Code.find? url with
        | some code => .ok code
        | none => .error (.fault (.noCode url)),
        desk) := by
  unfold Run.codeOf Index.codeOf
  cases Code.find? url <;> rfl

section Commands

variable (surroundings : Surroundings) (desk : Desk)

theorem conversation_withResource {command : Command} {kind : Kind}
    {find : String → Index.Keep (Option String)}
    {view : Index.Tables → Option String} {code : String} {next : Resource kind → Run Page}
    (looks : find code = Index.Keep.reading view)
    (rest : ∀ resource, Conversation surroundings.patience desk.exchange command
      ((next resource).run desk).2.exchange) :
    Conversation surroundings.patience desk.exchange command
      ((Run.withResource kind find code next).run desk).2.exchange := by
  rcases Run.withResource_cases looks with same | ⟨tables, url, -, -, ran⟩
  · rw [same]
    exact .silent command
  · rw [ran]
    exact rest _

theorem conversation_createAndAdd {command : Command} (asks : command.asks = true) {base : Kind}
    (created : Kind) (resource : Resource base) (relative : String) (payload : Payload)
    (push : String → String → Index.Tables → Index.Tables) (page : String → Page) :
    Conversation surroundings.patience desk.exchange command
      ((Run.createAndAdd (resource.create created relative payload) push page).run
        desk).2.exchange := by
  rw [Run.exchange_createAndAdd]
  exact .asked asks (by simp [Talk.postRequest])

theorem conversation_removeAndDrop {command : Command} (asks : command.asks = true) {Result : Type}
    (drop : Index.Keep Result) (url : String) (page : Page) :
    Conversation surroundings.patience desk.exchange command
      ((Run.removeAndDrop (Talk.delete url) drop page).run desk).2.exchange := by
  rw [Run.exchange_removeAndDrop]
  exact .asked asks (by simp [Talk.deleteRequest])

theorem conversation_withReport {command : Command} (shows : command.shows = true) {Result : Type}
    {kind : Kind}
    (resource : Resource kind) (fit : Report.Fit Result) (code : String) (page : Result → Page) :
    Conversation surroundings.patience desk.exchange command
      ((Run.withReport surroundings resource fit code page).run desk).2.exchange := by
  obtain ⟨again, polled⟩ := Run.polled_withReport surroundings resource fit code page desk
  exact .polled shows polled

theorem conversation_listRobots (json : Bool) :
    Conversation surroundings.patience desk.exchange (.listRobots json)
      ((Run.listRobots json).run desk).2.exchange := by
  have same : ((Run.listRobots json).run desk).2.exchange = desk.exchange := by
    simp only [Run.listRobots, Index.Keep.listing, bind_run, Run.keep_run, Index.Keep.reading_run]
    cases desk.store.tables? <;> rfl
  rw [same]
  exact .silent _

/-- The code is looked for in the address that the service has told, so it is the code of its
location. -/
theorem creates_of_created {exchange : Exchange} {address location code : String}
    (created : exchange.created address = .ok location)
    (coded : Code.find? (Address.stem location) = some code) :
    exchange.Creates location code := by
  obtain ⟨reply, left, answered, success, located⟩ :=
    (exchange.created_eq_ok_iff address location).mp created
  obtain ⟨least, most⟩ := (isSuccess_iff reply).mp success
  rw [Code.find?_stem] at coded
  exact ⟨⟨reply, left, answered, least, most, located⟩, coded⟩

def FollowsPost (patience : Talk.Patience) (before : Exchange) (command : Command)
    (request : Request) (after : Exchange) : Prop :=
  after = before.after request ∨
    (∃ server file inputs, command = .executeOnce server file inputs) ∧
      ∃ location code again, before.Creates location code ∧
        Exchange.Polled patience (Talk.getRequest (Address.stem location) Talk.jsonType) again
          (before.after request) after

/-- A command that asks the root of a service needs a server and then a definition; without either
it does nothing. -/
theorem run_atRoot {command : Command} {asked : Command.AtRoot}
    (asks : command.atRoot? = some asked) :
    match asked.server.or surroundings.defaultServer, surroundings.definition? asked.file with
    | none, _ => (command.run surroundings).run desk = (.error .noServer, desk)
    | some _, none => (command.run surroundings).run desk = (.error (Run.unread asked.file), desk)
    | some root, some _ =>
        ∃ payload, FollowsPost surroundings.patience desk.exchange command
          (Talk.postRequest (Address.join root asked.relative) payload)
          ((command.run surroundings).run desk).2.exchange := by
  cases command with
  | createRobot server xml file =>
      cases asks
      simp only [Command.run, Run.createRobot_eq, bind_run, Run.server_run, Run.definition_run]
      cases server.or surroundings.defaultServer with
      | none => rfl
      | some root =>
          cases surroundings.definition? file with
          | none => rfl
          | some text =>
              refine ⟨(if xml then Definition.xml (Text.trim text)
                else .minilanguage (Text.trim text)).payload, ?_⟩
              left
              rw [Run.exchange_createAndAdd, Resource.path_ofUrl]
  | executeOnce server file inputs =>
      cases asks
      simp only [Command.run, Run.executeOnce, bind_run, Run.server_run, Run.definition_run]
      cases server.or surroundings.defaultServer with
      | none => rfl
      | some root =>
          cases surroundings.definition? file with
          | none => rfl
          | some text =>
              refine ⟨.form (Service.onceForm (Text.trim text) inputs), ?_⟩
              simp only [Run.talk_run, Service.executeOnce, Resource.create_run,
                Resource.path_ofUrl]
              -- it is polled if it has been created, and if its code can be told from its address
              cases created : desk.exchange.created (Address.join root "robot/execute") with
              | error fault => exact Or.inl rfl
              | ok location =>
                  simp only [Except.map, Except.mapError, Run.codeOf_run, Resource.url_ofUrl]
                  cases coded : Code.find? (Address.stem location) with
                  | none => exact Or.inl rfl
                  | some code =>
                      obtain ⟨again, polled⟩ := Run.polled_withReport surroundings
                        (Resource.ofUrl location : Resource .execution) Report.Execution.ofJson code
                        (Page.execution code)
                        ⟨desk.store,
                          desk.exchange.after (Talk.postRequest (Address.join root "robot/execute")
                          (.form (Service.onceForm (Text.trim text) inputs)))⟩
                      exact Or.inr ⟨⟨server, file, inputs, rfl⟩, location, code, again,
                        creates_of_created created coded, polled⟩
  | listRobots | showRobot | deleteRobot | executeRobot | scheduleRobot | showExecution
  | deleteExecution | showPeriodical | deletePeriodical => cases asks

theorem conversation_atRoot {command : Command} {asked : Command.AtRoot}
    (asks : command.atRoot? = some asked) (creates : command.asks = true) :
    Conversation surroundings.patience desk.exchange command
      ((command.run surroundings).run desk).2.exchange := by
  have ran := run_atRoot surroundings desk asks
  split at ran
  · rw [ran]
    exact .silent _
  · rw [ran]
    exact .silent _
  · obtain ⟨payload, passed | ⟨⟨server, file, inputs, rfl⟩, location, code, again, created,
        polled⟩⟩ := ran
    · rw [passed]
      exact .asked creates (by simp [Talk.postRequest])
    · exact .followed rfl created polled

theorem conversation (command : Command) :
    Conversation surroundings.patience desk.exchange command
      ((command.run surroundings).run desk).2.exchange := by
  cases command with
  | listRobots json => exact conversation_listRobots surroundings desk json
  | createRobot server xml file => exact conversation_atRoot surroundings desk rfl rfl
  | showRobot code facet =>
      exact conversation_withResource surroundings desk rfl fun _ =>
        conversation_withReport surroundings desk rfl _ _ _ _
  | deleteRobot code =>
      rw [Command.run, Run.deleteRobot_eq]
      exact conversation_withResource surroundings desk rfl fun _ =>
        conversation_removeAndDrop surroundings desk rfl _ _ _
  | executeRobot robot inputs =>
      rw [Command.run, Run.executeRobot_eq]
      exact conversation_withResource surroundings desk rfl fun _ =>
        conversation_createAndAdd surroundings desk rfl _ _ _ _ _ _
  | scheduleRobot robot period inputs =>
      rw [Command.run, Run.scheduleRobot_eq]
      exact conversation_withResource surroundings desk rfl fun _ =>
        conversation_createAndAdd surroundings desk rfl _ _ _ _ _ _
  | showExecution code =>
      exact conversation_withResource surroundings desk rfl fun _ =>
        conversation_withReport surroundings desk rfl _ _ _ _
  | deleteExecution code =>
      rw [Command.run, Run.deleteExecution_eq]
      exact conversation_withResource surroundings desk rfl fun _ =>
        conversation_removeAndDrop surroundings desk rfl _ _ _
  | showPeriodical code =>
      exact conversation_withResource surroundings desk rfl fun _ =>
        conversation_withReport surroundings desk rfl _ _ _ _
  | deletePeriodical code =>
      rw [Command.run, Run.deletePeriodical_eq]
      exact conversation_withResource surroundings desk rfl fun _ =>
        conversation_removeAndDrop surroundings desk rfl _ _ _
  | executeOnce server file inputs => exact conversation_atRoot surroundings desk rfl rfl

end Commands

end RobotConsole
