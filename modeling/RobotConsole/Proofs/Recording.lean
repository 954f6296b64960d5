import RobotConsole.Proofs.CommandEffect
import RobotConsole.Proofs.FormRoundTrip

/-!
# What is recorded is what was sent

A creating command writes its definition, its inputs and its period twice: into the body of a
request, and into a row of the index.  The body reads back as exactly the texts that were given, in
their order, and the row is made from the same texts.  Blanks around a definition are gone before
either is written.
-/

set_option autoImplicit false

namespace RobotConsole

open Index (Tables)

/-! ## The pairs of the forms -/

namespace Form

theorem pairs_executionForm (inputs : List String) :
    (Service.executionForm inputs).pairs = inputs.map fun input => ("input", input) := by
  simp [Service.executionForm, bindAll, bindIn, empty, pairs]

theorem pairs_periodicalForm (period : Period) (inputs : List String) :
    (Service.periodicalForm period inputs).pairs =
      ("period", period.wire) :: inputs.map fun input => ("input", input) := by
  simp [Service.periodicalForm, bind, bindAll, bindIn, empty, pairs]

end Form

/-! ## One request and one row -/

/-- Between two desks one body is posted, and the index comes to hold some tables. -/
structure Desk.Posted (before after : Desk) (url mediaType body : String) (tables : Tables) :
    Prop where
  sent : after.exchange.sent = before.exchange.sent ++
    [⟨.post, url, [("Content-Type", mediaType)], some body⟩]
  stored : after.store = .sound tables

theorem posted_of_due {surroundings : Surroundings} {tables : Tables} {reply : Response}
    {command : Command}
    {url : String} {payload : Payload} {change : Change} {desk : Desk} {left : List Answer}
    (due : Due surroundings tables reply command (Talk.postRequest url payload) change)
    (sound : desk.store = .sound tables)
    (answered : desk.exchange.answers = .response reply :: left) (sink : Sink) :
    desk.Posted (command.perform surroundings desk sink).2.1 url payload.contentType payload.body
      (change.apply tables) := by
  obtain ⟨page, ran⟩ := run_of_due due sound answered
  rw [Command.desk_perform, ran]
  exact ⟨desk.exchange.sent_record _ left, rfl⟩

/-! ## Blanks around a definition -/

theorem createRobot_blanks {surroundings padded : Surroundings} {file paddedFile : Option String}
    {lead text trail : String} (sameTime : padded.now = surroundings.now)
    (sameServer : padded.defaultServer = surroundings.defaultServer)
    (given : surroundings.definition? file = some text)
    (around : padded.definition? paddedFile = some (lead ++ text ++ trail))
    (leadBlank : Text.IsBlank lead)
    (trailBlank : Text.IsBlank trail) (server : Option String) (xml : Bool) (desk : Desk) :
    (Run.createRobot padded server xml paddedFile).run desk =
      (Run.createRobot surroundings server xml file).run desk := by
  have trimmed := Text.trim_blanks_around lead text trail leadBlank trailBlank
  simp only [Run.createRobot_eq, bind_run, Run.server_run, Run.definition_run, given, around,
    sameTime, sameServer, trimmed]

/-! ## The creating commands -/

namespace Command

/-- On a sound index, and answered with a location that carries a code: a creating command posts one
body, which reads back as its own texts, and adds one row, which is made from the same texts.
Nothing that passes or stays depends on the blanks around a definition. -/
theorem records_what_was_sent (surroundings : Surroundings) (desk : Desk) (sink : Sink)
    (tables : Tables)
    (location code : String) (sound : desk.store = .sound tables)
    (creates : desk.exchange.Creates location code) :
    (∀ (server file : Option String) (xml : Bool) (root text : String),
      server.or surroundings.defaultServer = some root → surroundings.definition? file = some text →
      ∃ body,
        desk.Posted ((Command.createRobot server xml file).perform surroundings desk sink).2.1
          (Address.join root "robot/create")
          (if xml then "application/xml" else "application/x-www-form-urlencoded") body
          (tables.pushRobot
            ⟨code, Address.stem location, surroundings.now,
              String.ofList ((Text.trim text).toList.take 100)⟩) ∧
        (xml = true → body = Text.trim text) ∧
        (xml = false → Form.decode? body = some [("minilanguage", Text.trim text)])) ∧
    (∀ (robot address : String) (inputs : List String), tables.robotUrl? robot = some address →
      ∃ body,
        desk.Posted ((Command.executeRobot robot inputs).perform surroundings desk sink).2.1
          (Address.join address "execute") "application/x-www-form-urlencoded" body
          (tables.pushExecution
            ⟨code, robot, Address.stem location, Text.quoteList inputs, surroundings.now⟩) ∧
        Form.decode? body = some (inputs.map fun input => ("input", input))) ∧
    (∀ (robot address : String) (period : Period) (inputs : List String),
      tables.robotUrl? robot = some address →
      ∃ body,
        desk.Posted ((Command.scheduleRobot robot period inputs).perform surroundings desk sink).2.1
          (Address.join address "periodical") "application/x-www-form-urlencoded" body
          (tables.pushPeriodical
            ⟨code, robot, Address.stem location, period.wire, Text.quoteList inputs,
              surroundings.now⟩) ∧
        Form.decode? body = some (("period", period.wire) :: inputs.map fun input =>
          ("input", input))) ∧
    ∀ (padded : Surroundings) (server file paddedFile : Option String) (xml : Bool)
      (lead text trail : String),
      padded.now = surroundings.now → padded.defaultServer = surroundings.defaultServer →
      surroundings.definition? file = some text →
        padded.definition? paddedFile = some (lead ++ text ++ trail) →
      Text.IsBlank lead → Text.IsBlank trail →
      (Command.createRobot server xml paddedFile).perform padded desk sink =
        (Command.createRobot server xml file).perform surroundings desk sink := by
  obtain ⟨reply, left, answered, created⟩ := creates.created
  refine ⟨?_, ?_, ?_, ?_⟩
  · intro server file xml root text rooted given
    have due : Due surroundings tables reply (.createRobot server xml file) _ _ :=
      .robot rooted given created
    have posted := posted_of_due due sound answered sink
    cases xml with
    | true => exact ⟨_, posted, fun _ => rfl, fun asForm => absurd asForm.symm Bool.false_ne_true⟩
    | false => exact ⟨_, posted, fun asXml => absurd asXml Bool.false_ne_true,
        fun _ => Form.decode?_encode _⟩
  · intro robot address inputs found
    refine ⟨_, posted_of_due (.execution found created) sound answered sink, ?_⟩
    rw [← Form.pairs_executionForm]
    exact Form.decode?_encode _
  · intro robot address period inputs found
    refine ⟨_, posted_of_due (.periodical found created) sound answered sink, ?_⟩
    rw [← Form.pairs_periodicalForm]
    exact Form.decode?_encode _
  · intro padded server file paddedFile xml lead text trail sameTime sameServer given around
      leadBlank trailBlank
    have same := createRobot_blanks sameTime sameServer given around leadBlank trailBlank server xml
        desk
    simp only [perform_eq, Command.run, same]

/-! A definition is typed in, and inputs are given, in front of an index that knows one robot and of
a service that is about to create something. -/

def typed (definition : String) : Surroundings :=
  ⟨60, some "http://h/", ⟨1, none⟩, Files.Tree.fresh, definition.toByteArray⟩

theorem definition_typed (definition : String) :
    (typed definition).definition? none = some definition :=
  Form.fromUTF8?_toByteArray definition

def oneRobot : Tables :=
  ⟨[⟨"11111111-1111-1111-1111-111111111111", "http://h/1", 5, "a <- b"⟩], [], []⟩

def awaiting : Desk :=
  ⟨.sound oneRobot, .start [.response
    ⟨201, some "http://h/22222222-2222-2222-2222-222222222222/", ""⟩] .unreachable⟩

theorem records_what_was_sent_typed :
    (∃ body,
      awaiting.Posted ((Command.createRobot none false none).perform (typed " a <- 1\n") awaiting
        ⟨none, []⟩).2.1
        "http://h/robot/create" "application/x-www-form-urlencoded" body
        (oneRobot.pushRobot
          ⟨"22222222-2222-2222-2222-222222222222", "http://h/22222222-2222-2222-2222-222222222222",
            60, "a <- 1"⟩) ∧
      Form.decode? body = some [("minilanguage", "a <- 1")]) ∧
    (∃ body,
      awaiting.Posted
        ((Command.executeRobot "11111111-1111-1111-1111-111111111111" ["x", "y z"]).perform
          (typed "") awaiting
          ⟨none, []⟩).2.1
        "http://h/1/execute" "application/x-www-form-urlencoded" body
        (oneRobot.pushExecution
          ⟨"22222222-2222-2222-2222-222222222222", "11111111-1111-1111-1111-111111111111",
            "http://h/22222222-2222-2222-2222-222222222222", "[\"x\", \"y z\"]", 60⟩) ∧
      Form.decode? body = some [("input", "x"), ("input", "y z")]) ∧
    (∃ body,
      awaiting.Posted
        ((Command.scheduleRobot "11111111-1111-1111-1111-111111111111"
          ⟨5, .minutes, by decide, by decide⟩ ["x"]).perform
          (typed "") awaiting ⟨none, []⟩).2.1
        "http://h/1/periodical" "application/x-www-form-urlencoded" body
        (oneRobot.pushPeriodical
          ⟨"22222222-2222-2222-2222-222222222222", "11111111-1111-1111-1111-111111111111",
            "http://h/22222222-2222-2222-2222-222222222222", "5m", "[\"x\"]", 60⟩) ∧
      Form.decode? body = some [("period", "5m"), ("input", "x")]) ∧
    (Command.createRobot none true none).perform (typed " \na <- 1\t") awaiting ⟨none, []⟩ =
      (Command.createRobot none true none).perform (typed "a <- 1") awaiting ⟨none, []⟩ := by
  have creates : awaiting.exchange.Creates "http://h/22222222-2222-2222-2222-222222222222/"
      "22222222-2222-2222-2222-222222222222" :=
    ⟨⟨_, _, rfl, by decide, by decide, rfl⟩, by decide +kernel⟩
  obtain ⟨robot, -, -, -⟩ := records_what_was_sent (typed " a <- 1\n") awaiting
      ⟨none, []⟩ oneRobot _ _ rfl creates
  obtain ⟨-, execution, periodical, -⟩ :=
    records_what_was_sent (typed "") awaiting ⟨none, []⟩ oneRobot _ _ rfl creates
  obtain ⟨-, -, -, blanks⟩ := records_what_was_sent (typed "a <- 1") awaiting
      ⟨none, []⟩ oneRobot _ _ rfl creates
  refine ⟨?_, ?_, ?_, ?_⟩
  · obtain ⟨body, posted, -, decoded⟩ :=
      robot none none false "http://h/" " a <- 1\n" rfl (definition_typed _)
    exact ⟨body, posted, decoded rfl⟩
  · exact execution "11111111-1111-1111-1111-111111111111" "http://h/1" ["x", "y z"] (by decide)
  · exact periodical "11111111-1111-1111-1111-111111111111" "http://h/1"
      ⟨5, .minutes, by decide, by decide⟩ ["x"] (by decide)
  · exact blanks (typed " \na <- 1\t") none none none true " \n" "a <- 1" "\t" rfl rfl
      (definition_typed _) (definition_typed _) (by decide) (by decide)

end Command

end RobotConsole
