import RobotConsole.Proofs.CodeOfStem
import RobotConsole.Proofs.Display
import RobotConsole.Proofs.RunSteps

/-!
# The effect of a command on the index

A command makes one change to the tables or none.  `Due` says which change a command is due to make
once the service has answered its one request: a creating command adds one row for the resource that
the answer tells of, and a deleting command removes the rows of its code.  A command makes the
change that it is due to make, and no other.
-/

set_option autoImplicit false

namespace RobotConsole

open Index (Tables Store Keep)

/-! ## Changes -/

inductive Change where
  | addRobot (row : Index.RobotRow)
  | addExecution (row : Index.ExecutionRow)
  | addPeriodical (row : Index.PeriodicalRow)
  /-- A robot goes with its executions and periodical executions. -/
  | dropRobot (code : String)
  | dropExecution (code : String)
  | dropPeriodical (code : String)
  deriving DecidableEq, Repr

namespace Change

def apply : Change → Tables → Tables
  | .addRobot row, tables => { tables with robots := tables.robots ++ [row] }
  | .addExecution row, tables => { tables with executions := tables.executions ++ [row] }
  | .addPeriodical row, tables => { tables with periodicals := tables.periodicals ++ [row] }
  | .dropRobot code, tables =>
      ⟨tables.robots.filter fun row => row.code != code,
        tables.executions.filter fun row => row.robot != code,
        tables.periodicals.filter fun row => row.robot != code⟩
  | .dropExecution code, tables =>
      { tables with executions := tables.executions.filter fun row => row.code != code }
  | .dropPeriodical code, tables =>
      { tables with periodicals := tables.periodicals.filter fun row => row.code != code }

end Change

/-! ## What a command is due to do -/

/-- A response has a status from 200 to 299 and a location that carries a code; the resource is
known by the location without the slashes at its end. -/
structure Created (reply : Response) (url code : String) : Prop where
  least : 200 ≤ reply.status
  most : reply.status < 300
  located : ∃ location, reply.location = some location ∧ Address.IsStem url location
  coded : Code.find? url = some code

/-- The change that a command is due to make to some tables, and the one request that it sends for
this, if the request is answered by `reply`. -/
inductive Due (surroundings : Surroundings) (tables : Tables) (reply : Response) :
    Command → Request → Change → Prop where
  | robot {server file : Option String} {xml : Bool} {root text url code : String}
      (rooted : server.or surroundings.defaultServer = some root)
      (given : surroundings.definition? file = some text)
      (created : Created reply url code) :
      Due surroundings tables reply (.createRobot server xml file)
        (Talk.postRequest (Address.join root "robot/create")
          (if xml then .xml (Text.trim text)
            else .form (Form.empty.bind "minilanguage" (Text.trim text))))
        (.addRobot ⟨code, url, surroundings.now, Index.summarize (Text.trim text)⟩)
  | execution {robot address url code : String} {inputs : List String}
      (found : tables.robotUrl? robot = some address)
      (created : Created reply url code) :
      Due surroundings tables reply (.executeRobot robot inputs)
        (Talk.postRequest (Address.join address "execute") (.form (Service.executionForm inputs)))
        (.addExecution ⟨code, robot, url, Text.quoteList inputs, surroundings.now⟩)
  | periodical {robot address url code : String} {period : Period} {inputs : List String}
      (found : tables.robotUrl? robot = some address)
      (created : Created reply url code) :
      Due surroundings tables reply (.scheduleRobot robot period inputs)
        (Talk.postRequest (Address.join address "periodical")
          (.form (Service.periodicalForm period inputs)))
        (.addPeriodical ⟨code, robot, url, period.wire, Text.quoteList inputs, surroundings.now⟩)
  | robotRemoval {code address : String}
      (found : tables.robotUrl? code = some address) :
      Due surroundings tables reply (.deleteRobot code) (Talk.deleteRequest (Address.stem address))
        (.dropRobot code)
  | executionRemoval {code address : String}
      (found : tables.executionUrl? code = some address) :
      Due surroundings tables reply (.deleteExecution code)
        (Talk.deleteRequest (Address.stem address)) (.dropExecution code)
  | periodicalRemoval {code address : String}
      (found : tables.periodicalUrl? code = some address) :
      Due surroundings tables reply (.deletePeriodical code)
        (Talk.deleteRequest (Address.stem address)) (.dropPeriodical code)

theorem isSuccess_iff (reply : Response) :
    reply.isSuccess = true ↔ 200 ≤ reply.status ∧ reply.status < 300 := by
  simp [Response.isSuccess]

theorem created_iff (exchange : Exchange) (address url code : String) :
    ((∃ location, exchange.created address = .ok location ∧ Address.stem location = url) ∧
        Code.find? url = some code) ↔
      ∃ reply left, exchange.answers = .response reply :: left ∧ Created reply url code := by
  constructor
  · rintro ⟨⟨location, created, stem⟩, coded⟩
    obtain ⟨reply, left, answered, success, located⟩ :=
      (exchange.created_eq_ok_iff address location).mp created
    obtain ⟨least, most⟩ := (isSuccess_iff reply).mp success
    exact ⟨reply, left, answered,
      ⟨least, most, ⟨location, located, Address.isStem_iff.mpr stem⟩, coded⟩⟩
  · rintro ⟨reply, left, answered, created⟩
    obtain ⟨location, located, stem⟩ := created.located
    have success := (isSuccess_iff reply).mpr ⟨created.least, created.most⟩
    have accepted := (exchange.created_eq_ok_iff address location).mpr
        ⟨reply, left, answered, success, located⟩
    exact ⟨⟨location, accepted, Address.isStem_iff.mp stem⟩, created.coded⟩

/-- The next answer is a success that carries the location of a new resource, and the location
carries a code. -/
structure Exchange.Creates (exchange : Exchange) (location code : String) : Prop where
  answered : ∃ reply left, exchange.answers = .response reply :: left ∧ 200 ≤ reply.status ∧
    reply.status < 300 ∧
    reply.location = some location
  coded : Code.find? location = some code

theorem Exchange.Creates.created {exchange : Exchange} {location code : String}
    (creates : exchange.Creates location code) :
    ∃ reply left, exchange.answers = .response reply :: left ∧
      Created reply (Address.stem location) code := by
  obtain ⟨reply, left, answered, least, most, located⟩ := creates.answered
  have coded : Code.find? (Address.stem location) = some code := by
    rw [Code.find?_stem]
    exact creates.coded
  exact ⟨reply, left, answered, least, most, ⟨location, located, Address.isStem_iff.mpr rfl⟩, coded⟩

/-! ## Steps that change a sound index -/

/-- On a sound store the step makes the change and succeeds; it leaves any other store alone. -/
structure Changes {Result : Type} (step : Keep Result) (change : Tables → Tables) : Prop where
  sound : ∀ tables, ∃ result, step.run (.sound tables) = (.ok result, .sound (change tables))
  unsound : ∀ store, (∀ tables, store ≠ .sound tables) → (step.run store).2 = store

theorem deleteRobot_changes (code : String) :
    Changes (Keep.deleteRobot code) (Change.dropRobot code).apply where
  sound tables := ⟨(), Keep.forM_changing_sound (Tables.deletionSteps code) tables⟩
  unsound store unsound := Keep.forM_changing_unsound (Tables.deletionSteps code) store unsound

theorem deleteExecution_changes (code : String) :
    Changes (Keep.deleteExecution code) (Change.dropExecution code).apply where
  sound tables := ⟨_, rfl⟩
  unsound store unsound := by rw [Keep.deleteExecution, Keep.withTables_unsound _ store unsound]

theorem deletePeriodical_changes (code : String) :
    Changes (Keep.deletePeriodical code) (Change.dropPeriodical code).apply where
  sound tables := ⟨_, rfl⟩
  unsound store unsound := by rw [Keep.deletePeriodical, Keep.withTables_unsound _ store unsound]

/-! ## The ends of commands -/

namespace Run

def createAndAdd {kind : Kind} (creation : Talk (Resource kind))
    (push : String → String → Tables → Tables) (page : String → Page) : Run Page := do
  let resource ← talk creation
  let code ← keep (Keep.add resource.url (push resource.url))
  return page code

def removeAndDrop {Result : Type} (removal : Talk Unit) (drop : Keep Result) (page : Page) :
    Run Page := do
  talk removal
  let _ ← keep drop
  return page

section Creating

variable {base : Kind} (created : Kind) (resource : Resource base) (relative : String)
    (payload : Payload)
  (push : String → String → Tables → Tables) (page : String → Page) (desk : Desk)

theorem createAndAdd_created (tables : Tables) (reply : Response) (left : List Answer)
    (url code : String)
    (sound : desk.store = .sound tables)
    (answered : desk.exchange.answers = .response reply :: left)
    (creation : Created reply url code) :
    (createAndAdd (resource.create created relative payload) push page).run desk =
      (.ok (page code),
        ⟨.sound (push url code tables),
          desk.exchange.record (Talk.postRequest (resource.path relative) payload) left⟩) := by
  obtain ⟨⟨location, accepted, stem⟩, coded⟩ :=
    (created_iff desk.exchange (resource.path relative) url code).mpr
      ⟨reply, left, answered, creation⟩
  have addressed : (Resource.ofUrl location : Resource created).url = url := stem
  have noted := desk.exchange.after_eq_record
      (Talk.postRequest (resource.path relative) payload) _ left answered
  simp only [createAndAdd, bind_run, talk_run, Resource.create_run, accepted, Except.map,
    Except.mapError, keep_run,
    addressed, sound, Keep.add_sound url code (push url) tables coded, pure_run, noted]

theorem createAndAdd_cases :
    ((createAndAdd (resource.create created relative payload) push page).run desk).2.store =
      desk.store ∨
      ∃ tables reply left url code, desk.store = .sound tables ∧
        desk.exchange.answers = .response reply :: left ∧ Created reply url code := by
  cases accepted : desk.exchange.created (resource.path relative) with
  | error fault =>
      left
      simp only [createAndAdd, bind_run, talk_run, Resource.create_run, accepted, Except.map,
        Except.mapError]
  | ok location =>
      rcases Keep.add_cases (Address.stem location) (push (Address.stem location)) desk.store with
        kept | ⟨tables, code, sound, coded, -⟩
      · left
        simp only [createAndAdd, bind_run, talk_run, Resource.create_run, accepted, Except.map,
          Except.mapError, keep_run, Resource.url_ofUrl]
        cases ran : (Keep.add (Address.stem location) (push (Address.stem location))).run
          desk.store with
        | mk outcome store =>
            rw [ran] at kept
            cases outcome <;> exact kept
      · right
        obtain ⟨reply, left, answered, creation⟩ :=
          (created_iff desk.exchange (resource.path relative) (Address.stem location) code).mp
            ⟨⟨location, accepted, rfl⟩, coded⟩
        exact ⟨tables, reply, left, _, code, sound, answered, creation⟩

end Creating

section Removing

variable {Result : Type} {drop : Keep Result} {change : Tables → Tables}
    (changes : Changes drop change)
  (url : String) (page : Page) (desk : Desk)
include changes

theorem removeAndDrop_answered (tables : Tables) (reply : Response) (left : List Answer)
    (sound : desk.store = .sound tables)
    (answered : desk.exchange.answers = .response reply :: left) :
    (removeAndDrop (Talk.delete url) drop page).run desk =
      (.ok page, ⟨.sound (change tables), desk.exchange.record (Talk.deleteRequest url) left⟩) := by
  obtain ⟨result, ran⟩ := changes.sound tables
  have replied := (desk.exchange.reply_eq_ok_iff url reply).mpr ⟨left, answered⟩
  have noted := desk.exchange.after_eq_record (Talk.deleteRequest url) _ left answered
  simp only [removeAndDrop, bind_run, talk_run, Talk.delete_run, replied, Except.map,
    Except.mapError, keep_run, sound, ran, pure_run, noted]

theorem removeAndDrop_cases :
    ((removeAndDrop (Talk.delete url) drop page).run desk).2.store = desk.store ∨
      ∃ tables reply left, desk.store = .sound tables ∧
        desk.exchange.answers = .response reply :: left := by
  cases replied : desk.exchange.reply url with
  | error fault =>
      left
      simp only [removeAndDrop, bind_run, talk_run, Talk.delete_run, replied, Except.map,
        Except.mapError]
  | ok reply =>
      obtain ⟨left, answered⟩ := (desk.exchange.reply_eq_ok_iff url reply).mp replied
      by_cases sound : ∃ tables, desk.store = .sound tables
      · obtain ⟨tables, sound⟩ := sound
        exact Or.inr ⟨tables, reply, left, sound, answered⟩
      · left
        have kept := changes.unsound desk.store fun tables same => sound ⟨tables, same⟩
        simp only [removeAndDrop, bind_run, talk_run, Talk.delete_run, replied, Except.map,
          Except.mapError, keep_run]
        cases ran : drop.run desk.store with
        | mk outcome store =>
            rw [ran] at kept
            cases outcome <;> exact kept

end Removing

/-! ## The commands by their ends -/

theorem payload_of_xml (xml : Bool) (text : String) :
    (if xml then Definition.xml text else Definition.minilanguage text).payload =
      if xml then .xml text else .form (Form.empty.bind "minilanguage" text) := by
  cases xml <;> rfl

theorem createRobot_eq (surroundings : Surroundings) (server : Option String) (xml : Bool)
    (file : Option String) :
    createRobot surroundings server xml file = (do
      let root ← Run.server surroundings server
      let text ← definition surroundings file
      createAndAdd
        ((Resource.ofUrl root : Resource .root).create .robot "robot/create"
          (if xml then Definition.xml text else Definition.minilanguage text).payload)
        (fun url code tables =>
          tables.pushRobot ⟨code, url, surroundings.now, Index.summarize text⟩)
        Page.robotCreated) := rfl

theorem executeRobot_eq (surroundings : Surroundings) (robot : String) (inputs : List String) :
    executeRobot surroundings robot inputs =
      withResource .robot Keep.robotUrl? robot fun resource =>
        createAndAdd (resource.create .execution "execute" (.form (Service.executionForm inputs)))
          (fun url code tables =>
            tables.pushExecution ⟨code, robot, url, Text.quoteList inputs, surroundings.now⟩)
          Page.executionCreated := rfl

theorem scheduleRobot_eq (surroundings : Surroundings) (robot : String) (period : Period)
    (inputs : List String) :
    scheduleRobot surroundings robot period inputs =
      withResource .robot Keep.robotUrl? robot fun resource =>
        createAndAdd (resource.create .periodical "periodical"
          (.form (Service.periodicalForm period inputs)))
          (fun url code tables =>
            tables.pushPeriodical
              ⟨code, robot, url, period.wire, Text.quoteList inputs, surroundings.now⟩)
          Page.periodicalCreated := rfl

theorem deleteRobot_eq (code : String) :
    deleteRobot code = withResource .robot Keep.robotUrl? code fun resource =>
      removeAndDrop resource.delete (Keep.deleteRobot code) (Page.robotDeleted code) := rfl

theorem deleteExecution_eq (code : String) :
    deleteExecution code = withResource .execution Keep.executionUrl? code fun resource =>
      removeAndDrop resource.delete (Keep.deleteExecution code) (Page.executionDeleted code) := rfl

theorem deletePeriodical_eq (code : String) :
    deletePeriodical code = withResource .periodical Keep.periodicalUrl? code fun resource =>
      removeAndDrop resource.delete (Keep.deletePeriodical code) (Page.periodicalDeleted code) :=
        rfl

end Run

/-! ## The change that is due is made -/

section Due

variable {surroundings : Surroundings} {tables : Tables} {reply : Response} {command : Command}
    {request : Request}
  {change : Change} {desk : Desk} {left : List Answer}

theorem run_of_due (due : Due surroundings tables reply command request change)
    (sound : desk.store = .sound tables)
    (answered : desk.exchange.answers = .response reply :: left) :
    ∃ page, (command.run surroundings).run desk =
      (.ok page, ⟨.sound (change.apply tables), desk.exchange.record request left⟩) := by
  have readable : desk.store.tables? = some tables := by rw [sound]; rfl
  cases due with
  | @robot server file xml root text url code rooted given created =>
      refine ⟨Page.robotCreated code, ?_⟩
      simp only [Command.run, Run.createRobot_eq, bind_run, Run.server_run, rooted,
        Run.definition_run, given]
      rw [Run.createAndAdd_created _ _ _ _ _ _ desk tables reply left url code sound answered
        created, Resource.path_ofUrl, Run.payload_of_xml]
      rfl
  | @execution robot address url code inputs found created =>
      refine ⟨Page.executionCreated code, ?_⟩
      rw [Command.run, Run.executeRobot_eq, Run.withResource_found rfl readable found,
        Run.createAndAdd_created _ _ _ _ _ _ desk tables reply left url code sound answered created,
        Resource.path_ofUrl]
      rfl
  | @periodical robot address url code period inputs found created =>
      refine ⟨Page.periodicalCreated code, ?_⟩
      rw [Command.run, Run.scheduleRobot_eq, Run.withResource_found rfl readable found,
        Run.createAndAdd_created _ _ _ _ _ _ desk tables reply left url code sound answered created,
        Resource.path_ofUrl]
      rfl
  | @robotRemoval code address found =>
      refine ⟨Page.robotDeleted code, ?_⟩
      rw [Command.run, Run.deleteRobot_eq, Run.withResource_found rfl readable found]
      exact Run.removeAndDrop_answered
        (deleteRobot_changes code) _ _ desk tables reply left sound answered
  | @executionRemoval code address found =>
      refine ⟨Page.executionDeleted code, ?_⟩
      rw [Command.run, Run.deleteExecution_eq, Run.withResource_found rfl readable found]
      exact Run.removeAndDrop_answered
        (deleteExecution_changes code) _ _ desk tables reply left sound answered
  | @periodicalRemoval code address found =>
      refine ⟨Page.periodicalDeleted code, ?_⟩
      rw [Command.run, Run.deletePeriodical_eq, Run.withResource_found rfl readable found]
      exact Run.removeAndDrop_answered
        (deletePeriodical_changes code) _ _ desk tables reply left sound answered

end Due

/-! ## No other change is made -/

section Changed

variable (surroundings : Surroundings) (command : Command) (desk : Desk)

def IsDue : Prop :=
  ∃ tables reply left request change, desk.store = .sound tables ∧
    desk.exchange.answers = .response reply :: left ∧
      Due surroundings tables reply command request change

theorem creating_cases {view : Tables → Option String} {find : String → Keep (Option String)}
    {base created : Kind}
    {code : String} (relative : String) (payload : Payload)
    (push : String → String → Tables → Tables)
    (page : String → Page) (looks : find code = Keep.reading view)
    (due : ∀ tables reply address url new, view tables = some address → Created reply url new →
      ∃ request change, Due surroundings tables reply command request change) :
    ((Run.withResource base find code fun resource =>
        Run.createAndAdd (resource.create created relative payload) push page).run desk).2.store =
          desk.store ∨
      IsDue surroundings command desk := by
  rcases Run.withResource_cases looks with same | ⟨tables, address, readable, found, ran⟩
  · exact Or.inl (congrArg Desk.store same)
  · rw [ran]
    rcases Run.createAndAdd_cases created
      (Resource.ofUrl address) relative payload push page desk with
      kept | ⟨tables', reply, left, url, new, sound, answered, creation⟩
    · exact Or.inl kept
    · right
      rw [sound] at readable
      cases readable
      obtain ⟨request, change, due⟩ := due tables reply address url new found creation
      exact ⟨tables, reply, left, request, change, sound, answered, due⟩

theorem removing_cases {Result : Type} {view : Tables → Option String}
    {find : String → Keep (Option String)}
    {base : Kind} {code : String} {drop : Keep Result} {effect : Tables → Tables}
    (changes : Changes drop effect)
    (page : Page) (looks : find code = Keep.reading view)
    (due : ∀ tables reply address, view tables = some address →
      ∃ request change, Due surroundings tables reply command request change) :
    ((Run.withResource base find code fun resource =>
        Run.removeAndDrop resource.delete drop page).run desk).2.store = desk.store ∨
      IsDue surroundings command desk := by
  rcases Run.withResource_cases looks with same | ⟨tables, address, readable, found, ran⟩
  · exact Or.inl (congrArg Desk.store same)
  · rw [ran]
    rcases Run.removeAndDrop_cases changes _ page desk with kept | ⟨tables', reply, left, sound,
      answered⟩
    · exact Or.inl kept
    · right
      rw [sound] at readable
      cases readable
      obtain ⟨request, change, due⟩ := due tables reply address found
      exact ⟨tables, reply, left, request, change, sound, answered, due⟩

theorem createRobot_cases (server : Option String) (xml : Bool) (file : Option String) :
    (((Command.createRobot server xml file).run surroundings).run desk).2.store = desk.store ∨
      IsDue surroundings (.createRobot server xml file) desk := by
  simp only [Command.run, Run.createRobot_eq, bind_run, Run.server_run, Run.definition_run]
  cases rooted : server.or surroundings.defaultServer with
  | none => exact Or.inl rfl
  | some root =>
      cases given : surroundings.definition? file with
      | none => exact Or.inl rfl
      | some text =>
          dsimp only
          rcases Run.createAndAdd_cases .robot
            (Resource.ofUrl root : Resource .root) "robot/create" _ _ Page.robotCreated desk with
            kept | ⟨tables, reply, left, url, code, sound, answered, creation⟩
          · exact Or.inl kept
          · exact Or.inr ⟨tables, reply, left, _, _, sound, answered, .robot rooted given creation⟩

/-- A command leaves the store as it is, or it was due to change it. -/
theorem run_cases :
    ((command.run surroundings).run desk).2.store = desk.store ∨
      IsDue surroundings command desk := by
  cases command with
  | listRobots json => exact Or.inl (Run.LeavesStore.listRobots json desk)
  | createRobot server xml file => exact createRobot_cases surroundings desk server xml file
  | showRobot code facet => exact Or.inl (Run.LeavesStore.showRobot surroundings code facet desk)
  | deleteRobot code =>
      rw [Command.run, Run.deleteRobot_eq]
      exact removing_cases surroundings _ desk (deleteRobot_changes code) _ rfl
        fun _ _ _ found => ⟨_, _, .robotRemoval found⟩
  | executeRobot robot inputs =>
      rw [Command.run, Run.executeRobot_eq]
      exact creating_cases surroundings _ desk "execute" _ _ _ rfl
        fun _ _ _ _ _ found created => ⟨_, _, .execution found created⟩
  | scheduleRobot robot period inputs =>
      rw [Command.run, Run.scheduleRobot_eq]
      exact creating_cases surroundings _ desk "periodical" _ _ _ rfl
        fun _ _ _ _ _ found created => ⟨_, _, .periodical found created⟩
  | showExecution code => exact Or.inl (Run.LeavesStore.showExecution surroundings code desk)
  | deleteExecution code =>
      rw [Command.run, Run.deleteExecution_eq]
      exact removing_cases surroundings _ desk (deleteExecution_changes code) _ rfl
        fun _ _ _ found => ⟨_, _, .executionRemoval found⟩
  | showPeriodical code => exact Or.inl (Run.LeavesStore.showPeriodical surroundings code desk)
  | deletePeriodical code =>
      rw [Command.run, Run.deletePeriodical_eq]
      exact removing_cases surroundings _ desk (deletePeriodical_changes code) _ rfl
        fun _ _ _ found => ⟨_, _, .periodicalRemoval found⟩
  | executeOnce server file inputs =>
      exact Or.inl (Run.LeavesStore.executeOnce surroundings server file inputs desk)

end Changed

/-! ## The effect of a command, shown on any sink -/

theorem filter_ne_self {Row : Type} {rows : List Row} {keep : Row → Bool} {row : Row}
    (member : row ∈ rows) (dropped : keep row = false) : rows.filter keep ≠ rows := by
  intro same
  have kept := List.filter_eq_self.mp same row member
  rw [dropped] at kept
  exact Bool.false_ne_true kept

theorem mem_of_find?_code {Row : Type} {rows : List Row} {codeOf urlOf : Row → String}
    {code url : String} (found : (rows.find? fun row => codeOf row == code).map urlOf = some url) :
    ∃ row ∈ rows, codeOf row = code := by
  obtain ⟨row, found, -⟩ := Option.map_eq_some_iff.mp found
  exact ⟨row, List.mem_of_find?_eq_some found, by simpa using List.find?_some found⟩

theorem Due.apply_ne {surroundings : Surroundings} {tables : Tables} {reply : Response}
    {command : Command}
    {request : Request} {change : Change}
    (due : Due surroundings tables reply command request change) :
    change.apply tables ≠ tables := by
  cases due with
  | robot => intro same; simpa [Change.apply] using congrArg Tables.robots same
  | execution => intro same; simpa [Change.apply] using congrArg Tables.executions same
  | periodical => intro same; simpa [Change.apply] using congrArg Tables.periodicals same
  | robotRemoval found =>
      obtain ⟨row, member, coded⟩ := mem_of_find?_code found
      intro same
      exact filter_ne_self member (by simp [coded]) (congrArg Tables.robots same)
  | executionRemoval found =>
      obtain ⟨row, member, coded⟩ := mem_of_find?_code found
      intro same
      exact filter_ne_self member (by simp [coded]) (congrArg Tables.executions same)
  | periodicalRemoval found =>
      obtain ⟨row, member, coded⟩ := mem_of_find?_code found
      intro same
      exact filter_ne_self member (by simp [coded]) (congrArg Tables.periodicals same)

namespace Command

/-- What is shown, and whether it can be shown, makes no difference on the desk. -/
theorem desk_perform (surroundings : Surroundings) (command : Command) (desk : Desk) (sink : Sink) :
    (command.perform surroundings desk sink).2.1 = ((command.run surroundings).run desk).2 := by
  rw [perform_eq]
  cases (command.run surroundings).run desk with
  | mk outcome desk => cases outcome <;> rfl

/-- Either no change is due and the store stays as it is, or the one change that is due is made,
after one request. -/
theorem perform_effect (surroundings : Surroundings) (command : Command) (desk : Desk)
    (sink : Sink) :
    (¬ IsDue surroundings command desk ∧
      (command.perform surroundings desk sink).2.1.store = desk.store) ∨
      ∃ tables reply left request change, desk.store = .sound tables ∧
        desk.exchange.answers = .response reply :: left ∧
        Due surroundings tables reply command request change ∧ change.apply tables ≠ tables ∧
        (command.perform surroundings desk sink).2.1 =
          ⟨.sound (change.apply tables), desk.exchange.record request left⟩ := by
  rw [desk_perform]
  by_cases isDue : IsDue surroundings command desk
  · right
    obtain ⟨tables, reply, left, request, change, sound, answered, due⟩ := isDue
    obtain ⟨page, ran⟩ := run_of_due due sound answered
    exact ⟨tables, reply, left, request, change, sound, answered, due, due.apply_ne,
      congrArg Prod.snd ran⟩
  · left
    exact ⟨isDue, (run_cases surroundings command desk).resolve_right isDue⟩

end Command

end RobotConsole
