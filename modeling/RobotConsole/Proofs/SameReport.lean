import RobotConsole.Proofs.Creations

/-!
# One report, asked for in two ways

An execution that runs once is reported on right after it has been created; one on record is
reported on when it is shown.  What polling does depends on the answers to come and on nothing that
has passed.  So if the record holds the address at which the execution was created, both commands
poll this address in the same way, and show the same.
-/

set_option autoImplicit false

namespace RobotConsole

open Index (Store Tables)

/-! ## Polling with the same answers to come -/

namespace Talk

variable {one other : Exchange} (patience : Patience) (url : String)

theorem get_alike (accept : String) (answers : one.answers = other.answers)
    (silence : one.silence = other.silence) :
    ∃ result again,
      (get patience url accept).run one =
        (result, one.afterPolls (getRequest url accept) patience.interval again) ∧
      (get patience url accept).run other =
        (result, other.afterPolls (getRequest url accept) patience.interval again) := by
  have unready_iff (count : Nat) : one.Unready count ↔ other.Unready count := by
    simp only [Exchange.Unready, answers]
  have reply_eq (count : Nat) : one.replyAt url count = other.replyAt url count := by
    unfold Exchange.replyAt Exchange.meeting
    rw [answers, silence]
  obtain ⟨count, unready, turn⟩ := one.exists_turn
  by_cases allowed : ∀ limit, patience.limit = some limit → count < max limit 1
  · refine ⟨settle (one.replyAt url count), count,
      get_of_turn patience one url accept unready turn allowed, ?_⟩
    rw [unready_iff] at unready turn
    rw [reply_eq, get_of_turn patience other url accept unready turn allowed]
  · push Not at allowed
    obtain ⟨limit, limited, most⟩ := allowed
    have spent := unready.mono most
    exact ⟨.error (.notReady url (max limit 1)), max limit 1 - 1,
      get_of_spent patience one url accept limited spent,
      get_of_spent patience other url accept limited ((unready_iff _).mp spent)⟩

theorem getJson_alike (answers : one.answers = other.answers)
    (silence : one.silence = other.silence) :
    ∃ result again,
      (getJson patience url).run one =
        (result, one.afterPolls (getRequest url jsonType) patience.interval again) ∧
      (getJson patience url).run other =
        (result, other.afterPolls (getRequest url jsonType) patience.interval again) := by
  obtain ⟨got, again, first, second⟩ := get_alike patience url jsonType answers silence
  simp only [getJson, bind_run, first, second]
  cases got with
  | error fault => exact ⟨.error fault, again, rfl, rfl⟩
  | ok found =>
      cases found with
      | none => exact ⟨.ok none, again, rfl, rfl⟩
      | some response =>
          dsimp only
          cases Json.read response.body with
          | error flaw => exact ⟨.error (.badJson flaw), again, rfl, rfl⟩
          | ok value => exact ⟨.ok (some value), again, rfl, rfl⟩

end Talk

/-! ## Reports -/

namespace Run

/-- What asking for a report can come to. -/
inductive Reported {Result : Type} (kind : Kind) (code : String) (page : Result → Page) :
    Except Trouble Page → Prop where
  | failed (trouble : Trouble) : Reported kind code page (.error trouble)
  | missing : Reported kind code page (.ok (Page.notFound kind code))
  | found (report : Result) : Reported kind code page (.ok (page report))

theorem withReport_alike {Result : Type} {kind : Kind} (surroundings later : Surroundings)
    (resource : Resource kind)
    (fit : Report.Fit Result) (code : String) (page : Result → Page) (first second : Desk)
    (patient : later.patience = surroundings.patience)
    (answers : first.exchange.answers = second.exchange.answers)
    (silence : first.exchange.silence = second.exchange.silence) :
    ∃ outcome again, Reported kind code page outcome ∧
      (withReport surroundings resource fit code page).run first =
        (outcome, ⟨first.store,
          first.exchange.afterPolls (Talk.getRequest resource.url Talk.jsonType)
          surroundings.patience.interval again⟩) ∧
      (withReport later resource fit code page).run second =
        (outcome, ⟨second.store,
          second.exchange.afterPolls (Talk.getRequest resource.url Talk.jsonType)
          surroundings.patience.interval again⟩) := by
  obtain ⟨got, again, one, other⟩ :=
    Talk.getJson_alike surroundings.patience resource.url answers silence
  simp only [withReport, bind_run, talk_run, Resource.fetch, patient, one, other]
  cases got with
  | error fault => exact ⟨_, again, .failed (.fault fault), rfl, rfl⟩
  | ok found =>
      cases found with
      | none => exact ⟨_, again, .missing, rfl, rfl⟩
      | some value =>
          simp only [Except.mapError, bind_run, report_run]
          cases fit value with
          | error misfit => exact ⟨_, again, .failed (.fault (.badReport misfit)), rfl, rfl⟩
          | ok report => exact ⟨_, again, .found report, rfl, rfl⟩

end Run

def Display.ending (outcome : Except Trouble Page) (sink : Sink) : Except Trouble Unit × Sink :=
  match outcome with
  | .error trouble => (.error trouble, sink)
  | .ok page => sink.putPage page

theorem Command.perform_of_run {surroundings : Surroundings} {command : Command} {desk after : Desk}
    {outcome : Except Trouble Page} (ran : (command.run surroundings).run desk = (outcome, after))
    (sink : Sink) :
    command.perform surroundings desk sink =
      ((Display.ending outcome sink).1, after, (Display.ending outcome sink).2) := by
  rw [perform_eq, ran]
  cases outcome <;> rfl

/-- An execution is created at an address with a code, and the index has this address, less the
slashes at its end, for the code.  Then the command that has had it created and a command that shows
the execution of this code, with the same answers to come, send the same requests from then on, with
the same waits, all of them to this address.  They end in the same way and show the same: that there
is no such execution, or the report on it, or nothing if there is a trouble.  The store stays as it
is. -/
theorem once_shows_as_registered (surroundings later : Surroundings) (store : Store)
    {tables : Tables}
    (server file : Option String) (inputs : List String) {root text location code : String}
    (reply : Response)
    (rooted : server.or surroundings.defaultServer = some root)
    (given : surroundings.definition? file = some text)
    (patient : later.patience = surroundings.patience) (least : 200 ≤ reply.status)
    (most : reply.status < 300)
    (located : reply.location = some location) (coded : Index.codeOf location = .ok code)
    (readable : store.tables? = some tables)
    (registered : tables.executionUrl? code = some (Address.stem location))
    (answers : List Answer) (silence : String → Fault) (before earlier : List Event) (sink : Sink) :
    let posted := Talk.postRequest (Address.join root "robot/execute")
      (.form (Service.onceForm (Text.trim text) inputs))
    let once := (Command.executeOnce server file inputs).perform surroundings
      ⟨store, ⟨.response reply :: answers, silence, before⟩⟩ sink
    let shown := (Command.showExecution code).perform later
        ⟨store, ⟨answers, silence, earlier⟩⟩ sink
    (∃ outcome, Run.Reported .execution code (Page.execution code) outcome ∧
      (once.1, once.2.2) = Display.ending outcome sink ∧
        (shown.1, shown.2.2) = Display.ending outcome sink) ∧
    (∃ again,
      let polls := Exchange.pollEvents (Talk.getRequest (Address.stem location) Talk.jsonType)
        surroundings.patience.interval again
      once.2.1.exchange = ⟨answers.drop (again + 1), silence, before ++ .sent posted :: polls⟩ ∧
      shown.2.1.exchange = ⟨answers.drop (again + 1), silence, earlier ++ polls⟩) ∧
    once.2.1.store = store ∧ shown.2.1.store = store := by
  have creating : Creating surroundings tables (.executeOnce server file inputs) _ _ :=
    .once rooted given
  have start : (Desk.mk store ⟨.response reply :: answers, silence, before⟩).store.tables? =
      some tables := readable
  have created := creating.run_judged start (.created least most located coded)
  have found : ((Command.showExecution code).run later).run ⟨store, ⟨answers, silence, earlier⟩⟩ =
      (Run.withReport later (⟨Address.stem location⟩ : Resource .execution) Report.Execution.ofJson
        code (Page.execution code)).run ⟨store, ⟨answers, silence, earlier⟩⟩ := by
    rw [Command.run, Run.showExecution, Run.withResource_found rfl readable registered,
      Resource.ofUrl, Address.stem_stem]
  -- from the answer to the post on, both are the same asking for a report
  obtain ⟨outcome, again, reported, one, other⟩ := Run.withReport_alike surroundings later
    (⟨Address.stem location⟩ : Resource .execution) Report.Execution.ofJson code
      (Page.execution code)
    ⟨store, Exchange.after ⟨.response reply :: answers, silence, before⟩ (Talk.postRequest
      (Address.join root "robot/execute") (.form (Service.onceForm (Text.trim text) inputs)))⟩
    ⟨store, ⟨answers, silence, earlier⟩⟩ patient rfl rfl
  intro posted once shown
  have onceEq := Command.perform_of_run (created.trans one) sink
  have shownEq := Command.perform_of_run (found.trans other) sink
  refine ⟨⟨outcome, reported, ?_, ?_⟩, ⟨again, ?_, ?_⟩, ?_, ?_⟩
  · exact congrArg (fun ended => (ended.1, ended.2.2)) onceEq
  · exact congrArg (fun ended => (ended.1, ended.2.2)) shownEq
  · have sent := congrArg (fun ended => ended.2.1.exchange) onceEq
    rwa [Exchange.afterPolls, Exchange.after, Exchange.record, ← List.append_cons] at sent
  · exact congrArg (fun ended => ended.2.1.exchange) shownEq
  · exact congrArg (fun ended => ended.2.1.store) onceEq
  · exact congrArg (fun ended => ended.2.1.store) shownEq

/-! An execution on record, and a service that has a report on it at the second poll. -/

def Command.oneExecution : Tables :=
  ⟨[], [⟨"22222222-2222-2222-2222-222222222222", "11111111-1111-1111-1111-111111111111",
    "http://h/22222222-2222-2222-2222-222222222222", "[]", 5⟩], []⟩

def Answer.slowReport : List Answer :=
  [.response ⟨204, none, ""⟩, .response
    ⟨200, none, "\x7b\"date\": 7000, \"resultLines\": [\"x\", \"y\"]\x7d"⟩]

theorem once_shows_as_registered_slow :
    let once := (Command.executeOnce none none []).perform (Command.typed "a <- 1")
      ⟨.sound Command.oneExecution, .start
        (.response ⟨201, some "http://h/22222222-2222-2222-2222-222222222222//", ""⟩ ::
          Answer.slowReport) .unreachable⟩
      ⟨none, []⟩
    let shown := (Command.showExecution "22222222-2222-2222-2222-222222222222").perform
        (Command.typed "")
      ⟨.sound Command.oneExecution, .start Answer.slowReport .unreachable⟩ ⟨none, []⟩
    (shown.1, shown.2.2.text) =
      (.ok (), "execution 22222222-2222-2222-2222-222222222222\n" ++
        "Date: Thu, 01 Jan 1970 00:00:07\nExecution time: 0 ms\nx\ny\n") ∧
    (once.1, once.2.2) = (shown.1, shown.2.2) ∧
    once.2.1.exchange.sent.length = shown.2.1.exchange.sent.length + 1 ∧
    once.2.1.store = shown.2.1.store := by
  have coded : Index.codeOf "http://h/22222222-2222-2222-2222-222222222222//" =
      .ok "22222222-2222-2222-2222-222222222222" := rfl
  obtain ⟨⟨outcome, -, one, other⟩, ⟨again, onceExchange, shownExchange⟩, onceStore, shownStore⟩ :=
    once_shows_as_registered (Command.typed "a <- 1") (Command.typed "")
      (.sound Command.oneExecution) none none []
      ⟨201, some "http://h/22222222-2222-2222-2222-222222222222//", ""⟩ rfl
        (Command.definition_typed _) rfl (by decide)
      (by decide) rfl coded rfl (by decide +kernel) Answer.slowReport .unreachable [] [] ⟨none, []⟩
  refine ⟨?_, one.trans other.symm, ?_, onceStore.trans shownStore.symm⟩
  · decide +kernel
  · decide +kernel

end RobotConsole
