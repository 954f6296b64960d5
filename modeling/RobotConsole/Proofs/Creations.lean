import RobotConsole.Proofs.CodeOfPaths
import RobotConsole.Proofs.Conversations
import RobotConsole.Proofs.Recording

/-!
# How creations end

A command that has the service create something posts one request, and there are five ways in which
this can end: the request does not get through; the service refuses it; it says nothing about where
the new resource is; the address that it gives carries no code; or it gives an address with a code.
The ways exclude each other, and they are looked at in this order.  The first four end the command
with a fault of their own and leave the index as it is; in the last the command goes on with the
address, less the slashes at its end, and with the code.
-/

set_option autoImplicit false

namespace RobotConsole

open Index (Tables Keep)

inductive Verdict where
  | failed (fault : Fault)
  | refused (status : Nat) (body : String)
  | unplaced
  | uncoded (location : String)
  | created (location code : String)
  deriving DecidableEq, Repr

def Verdict.outcome (url : String) : Verdict → Except Fault (String × String)
  | .failed fault => .error fault
  | .refused status body => .error (.refused status body)
  | .unplaced => .error (.noLocation url)
  | .uncoded location => .error (.noCode (Address.stem location))
  | .created location code => .ok (Address.stem location, code)

/-- What a creating request comes to when it meets a fault or a response at the far end. -/
inductive Judged : Except Fault Response → Verdict → Prop where
  | failed (fault : Fault) : Judged (.error fault) (.failed fault)
  | refused {reply : Response} (outside : reply.status < 200 ∨ 300 ≤ reply.status) :
      Judged (.ok reply) (.refused reply.status reply.body)
  | unplaced {reply : Response} (least : 200 ≤ reply.status) (most : reply.status < 300)
      (missing : reply.location = none) : Judged (.ok reply) .unplaced
  | uncoded {reply : Response} {location : String} (least : 200 ≤ reply.status)
      (most : reply.status < 300)
      (located : reply.location = some location) (bare : ∀ code, Index.codeOf location ≠ .ok code) :
      Judged (.ok reply) (.uncoded location)
  | created {reply : Response} {location code : String} (least : 200 ≤ reply.status)
      (most : reply.status < 300)
      (located : reply.location = some location) (coded : Index.codeOf location = .ok code) :
      Judged (.ok reply) (.created location code)

theorem Judged.unique {reply : Except Fault Response} {one other : Verdict}
    (first : Judged reply one) (second : Judged reply other) : one = other := by
  cases first with
  | failed => cases second; rfl
  | refused outside =>
      cases second with
      | refused => rfl
      | unplaced least most | uncoded least most | created least most => omega
  | unplaced least most missing =>
      cases second with
      | refused outside => omega
      | unplaced => rfl
      | uncoded _ _ located | created _ _ located => cases missing.symm.trans located
  | uncoded least most located bare =>
      cases second with
      | refused outside => omega
      | unplaced _ _ missing => cases missing.symm.trans located
      | uncoded _ _ again =>
          obtain rfl := Option.some.inj (located.symm.trans again)
          rfl
      | created _ _ again coded =>
          obtain rfl := Option.some.inj (located.symm.trans again)
          exact absurd coded (bare _)
  | created least most located coded =>
      cases second with
      | refused outside => omega
      | unplaced _ _ missing => cases missing.symm.trans located
      | uncoded _ _ again bare =>
          obtain rfl := Option.some.inj (located.symm.trans again)
          exact absurd coded (bare _)
      | created _ _ again codedToo =>
          obtain rfl := Option.some.inj (located.symm.trans again)
          obtain rfl := Except.ok.inj (coded.symm.trans codedToo)
          rfl

theorem exists_judged (reply : Except Fault Response) : ∃ verdict, Judged reply verdict := by
  cases reply with
  | error fault => exact ⟨_, .failed fault⟩
  | ok reply =>
      by_cases success : 200 ≤ reply.status ∧ reply.status < 300
      · obtain ⟨least, most⟩ := success
        cases located : reply.location with
        | none => exact ⟨_, .unplaced least most located⟩
        | some location =>
            by_cases coded : ∃ code, Index.codeOf location = .ok code
            · obtain ⟨code, coded⟩ := coded
              exact ⟨_, .created least most located coded⟩
            · exact ⟨_, .uncoded least most located (not_exists.mp coded)⟩
      · exact ⟨_, .refused (by omega)⟩

/-! ## A request and what follows it -/

namespace Index

theorem codeOf_eq_ok_iff_find? (url code : String) :
    codeOf url = .ok code ↔ Code.find? url = some code := by
  unfold codeOf
  cases Code.find? url <;> simp

end Index

/-- After a success nothing but the location decides. -/
theorem Exchange.created_of_success {exchange : Exchange} {url : String} {reply : Response}
    (met : exchange.reply url = .ok reply) (least : 200 ≤ reply.status)
    (most : reply.status < 300) :
    exchange.created url =
      match reply.location with
      | some location => .ok location
      | none => .error (.noLocation url) := by
  have accepted := (exchange.accepted_eq_ok_iff url reply).mpr
      ⟨met, (isSuccess_iff reply).mpr ⟨least, most⟩⟩
  cases located : reply.location <;> simp only [created, accepted, located]

namespace Run

def createThen {kind : Kind} (creation : Talk (Resource kind)) (next : String → String → Run Page) :
    Run Page := do
  let resource ← talk creation
  let code ← codeOf resource.url
  next resource.url code

theorem createThen_judged {base : Kind} (created : Kind) (resource : Resource base)
    (relative : String) (payload : Payload)
    (next : String → String → Run Page) (desk : Desk) {verdict : Verdict}
    (judged : Judged (desk.exchange.reply (resource.path relative)) verdict) :
    (createThen (resource.create created relative payload) next).run desk =
      match verdict.outcome (resource.path relative) with
      | .error fault =>
          (.error (.fault fault),
            ⟨desk.store, desk.exchange.after (Talk.postRequest (resource.path relative) payload)⟩)
      | .ok (url, code) =>
          (next url code).run ⟨desk.store,
            desk.exchange.after (Talk.postRequest (resource.path relative) payload)⟩ := by
  generalize met : desk.exchange.reply (resource.path relative) = reply at judged
  simp only [createThen, bind_run, talk_run, Resource.create_run]
  cases judged with
  | failed fault =>
      simp only [Exchange.created, Exchange.accepted, met]
      rfl
  | @refused reply outside =>
      have refused : reply.isSuccess ≠ true := by
        rw [Ne, isSuccess_iff]
        omega
      simp only [Exchange.created, Exchange.accepted, met, if_neg refused]
      rfl
  | unplaced least most missing =>
      simp only [Exchange.created_of_success met least most, missing]
      rfl
  | @uncoded reply location least most located bare =>
      have codeless : Code.find? (Address.stem location) = none := by
        rw [Code.find?_stem, Option.eq_none_iff_forall_ne_some]
        intro code found
        exact bare code ((Index.codeOf_eq_ok_iff_find? location code).mpr found)
      simp only [Exchange.created_of_success met least most, located, Except.map, Except.mapError,
        codeOf_run, Resource.url_ofUrl, codeless]
      rfl
  | @created reply location code least most located coded =>
      have found : Code.find? (Address.stem location) = some code := by
        rw [Code.find?_stem]
        exact (Index.codeOf_eq_ok_iff_find? location code).mp coded
      simp only [Exchange.created_of_success met least most, located, Except.map, Except.mapError,
        codeOf_run, Resource.url_ofUrl, found]
      rfl

def register (change : Tables → Tables) (page : Page) : Run Page := do
  keep (Keep.changing change)
  return page

/-- The code is looked for before the index is touched, whichever of the two does it. -/
theorem createAndAdd_eq_createThen {kind : Kind} (creation : Talk (Resource kind))
    (push : String → String → Tables → Tables) (page : String → Page) (desk : Desk) :
    (createAndAdd creation push page).run desk =
      (createThen creation fun url code => register (push url code) (page code)).run desk := by
  simp only [createAndAdd, createThen, bind_run, talk_run]
  cases (creation.run desk.exchange).1 with
  | error fault => rfl
  | ok resource =>
      simp only [Except.mapError, keep_run, codeOf_run, Keep.add, bind_run, Keep.codeOf_run]
      cases Code.find? resource.url with
      | none => rfl
      | some code =>
          simp only [register, bind_run, keep_run]
          cases (Keep.changing (push resource.url code)).run desk.store with
          | mk outcome store => cases outcome <;> rfl

end Run

/-! ## Creating commands -/

/-- A command that has something created, with all it needs for that: the request that it posts, and
how it goes on once it has the address and the code of the new resource. -/
inductive Creating (surroundings : Surroundings) (tables : Tables) :
    Command → Request → (String → String → Run Page) → Prop where
  | robot {server file : Option String} {xml : Bool} {root text : String}
      (rooted : server.or surroundings.defaultServer = some root)
      (given : surroundings.definition? file = some text) :
      Creating surroundings tables (.createRobot server xml file)
        (Talk.postRequest (Address.join root "robot/create")
          (if xml then .xml (Text.trim text)
            else .form (Form.empty.bind "minilanguage" (Text.trim text))))
        fun url code =>
          Run.register
            (fun tables => tables.pushRobot
              ⟨code, url, surroundings.now, Index.summarize (Text.trim text)⟩)
            (Page.robotCreated code)
  | once {server file : Option String} {inputs : List String} {root text : String}
      (rooted : server.or surroundings.defaultServer = some root)
      (given : surroundings.definition? file = some text) :
      Creating surroundings tables (.executeOnce server file inputs)
        (Talk.postRequest (Address.join root "robot/execute")
          (.form (Service.onceForm (Text.trim text) inputs)))
        fun url code =>
          Run.withReport surroundings (⟨url⟩ : Resource .execution) Report.Execution.ofJson code
            (Page.execution code)
  | execution {robot address : String} {inputs : List String}
      (found : tables.robotUrl? robot = some address) :
      Creating surroundings tables (.executeRobot robot inputs)
        (Talk.postRequest (Address.join address "execute") (.form (Service.executionForm inputs)))
        fun url code =>
          Run.register
            (fun tables => tables.pushExecution
              ⟨code, robot, url, Text.quoteList inputs, surroundings.now⟩)
            (Page.executionCreated code)
  | periodical {robot address : String} {period : Period} {inputs : List String}
      (found : tables.robotUrl? robot = some address) :
      Creating surroundings tables (.scheduleRobot robot period inputs)
        (Talk.postRequest (Address.join address "periodical")
          (.form (Service.periodicalForm period inputs)))
        fun url code =>
          Run.register
            (fun tables => tables.pushPeriodical
              ⟨code, robot, url, period.wire, Text.quoteList inputs, surroundings.now⟩)
            (Page.periodicalCreated code)

section Ends

variable {surroundings : Surroundings} {tables : Tables} {command : Command} {request : Request}
  {next : String → String → Run Page}

/-- Every creating command posts to an address under some resource and goes on from there. -/
theorem Creating.run_eq (creating : Creating surroundings tables command request next) {desk : Desk}
    (readable : desk.store.tables? = some tables) :
    ∃ (base created : Kind) (resource : Resource base) (relative : String) (payload : Payload),
      request = Talk.postRequest (resource.path relative) payload ∧
      (command.run surroundings).run desk =
        (Run.createThen (resource.create created relative payload) next).run desk := by
  cases creating with
  | @robot server file xml root text rooted given =>
      refine ⟨.root, .robot, .ofUrl root, "robot/create",
        if xml then .xml (Text.trim text)
        else .form (Form.empty.bind "minilanguage" (Text.trim text)), ?_, ?_⟩
      · rw [Resource.path_ofUrl]
      · simp only [Command.run, Run.createRobot_eq, bind_run, Run.server_run, rooted,
          Run.definition_run, given, Run.createAndAdd_eq_createThen, Run.payload_of_xml]
  | @once server file inputs root text rooted given =>
      refine ⟨.root, .execution, .ofUrl root, "robot/execute",
        .form (Service.onceForm (Text.trim text) inputs), ?_, ?_⟩
      · rw [Resource.path_ofUrl]
      · simp only [Command.run, Run.executeOnce, Run.createThen, bind_run, Run.server_run, rooted,
          Run.definition_run, given]
        rfl
  | @execution robot address inputs found =>
      refine ⟨.robot, .execution, .ofUrl address, "execute", .form (Service.executionForm inputs),
        ?_, ?_⟩
      · rw [Resource.path_ofUrl]
      · rw [Command.run, Run.executeRobot_eq, Run.withResource_found rfl readable found,
          Run.createAndAdd_eq_createThen]
  | @periodical robot address period inputs found =>
      refine ⟨.robot, .periodical, .ofUrl address, "periodical",
        .form (Service.periodicalForm period inputs), ?_, ?_⟩
      · rw [Resource.path_ofUrl]
      · rw [Command.run, Run.scheduleRobot_eq, Run.withResource_found rfl readable found,
          Run.createAndAdd_eq_createThen]

theorem Creating.run_judged (creating : Creating surroundings tables command request next)
    {desk : Desk} (readable : desk.store.tables? = some tables) {verdict : Verdict}
    (judged : Judged (desk.exchange.reply request.url) verdict) :
    (command.run surroundings).run desk =
      match verdict.outcome request.url with
      | .error fault => (.error (.fault fault), ⟨desk.store, desk.exchange.after request⟩)
      | .ok (url, code) => (next url code).run ⟨desk.store, desk.exchange.after request⟩ := by
  obtain ⟨base, created, resource, relative, payload, rfl, ran⟩ := creating.run_eq readable
  rw [ran]
  exact Run.createThen_judged created resource relative payload next desk judged

end Ends

def Display.showing (run : Run Page) : Display Unit := do
  let page ← act run
  lines page

theorem Display.showing_run (run : Run Page) (desk : Desk) (sink : Sink) :
    (showing run).run (desk, sink) =
      match run.run desk with
      | (.error trouble, desk) => (.error trouble, desk, sink)
      | (.ok page, desk) =>
          match sink.putPage page with
          | (result, sink) => (result, desk, sink) := by
  rw [showing, bind_run, act_run]
  cases run.run desk with
  | mk outcome after => cases outcome <;> rfl

/-- A creating command posts one request, and what that meets is judged in exactly one way; a status
of 204 is a success like others.  If the verdict is a fault, the command ends with it: nothing more
is sent, nothing is shown, and the index is as it was.  Otherwise the command goes on with the
address and the code. -/
theorem creations_end_as_judged {surroundings : Surroundings} {tables : Tables} {command : Command}
    {request : Request}
    {next : String → String → Run Page}
    (creating : Creating surroundings tables command request next) (desk : Desk)
    (sink : Sink) (readable : desk.store.tables? = some tables) :
    (request.method = .post ∧ (desk.exchange.after request).sent =
      desk.exchange.sent ++ [request]) ∧
    (∃! verdict, Judged (desk.exchange.reply request.url) verdict) ∧
    (∀ reply : Response, reply.status = notReadyStatus → ∀ status body,
      ¬ Judged (.ok reply) (.refused status body)) ∧
    ∀ verdict, Judged (desk.exchange.reply request.url) verdict →
      command.perform surroundings desk sink =
        match verdict.outcome request.url with
        | .error fault => (.error (.fault fault), ⟨desk.store, desk.exchange.after request⟩, sink)
        | .ok (url, code) => (Display.showing (next url code)).run
            (⟨desk.store, desk.exchange.after request⟩, sink) := by
  refine ⟨⟨?_, desk.exchange.sent_after request⟩, ?_, ?_, ?_⟩
  · cases creating <;> rfl
  · obtain ⟨verdict, judged⟩ := exists_judged (desk.exchange.reply request.url)
    exact ⟨verdict, judged, fun _ again => again.unique judged⟩
  · intro reply unready status body judged
    have within : reply.status = 204 := unready
    cases judged with
    | refused outside => omega
  · intro verdict judged
    rw [Command.perform_eq, creating.run_judged readable judged]
    cases verdict.outcome request.url with
    | error fault => rfl
    | ok found => exact (Display.showing_run (next found.1 found.2) _ sink).symm

/-- A desk with one robot in its index, whose next request meets the answer. -/
def Desk.facing (answer : Answer) : Desk :=
  ⟨.sound Command.oneRobot, .start [answer] .unreachable⟩

theorem creations_end_as_judged_facing :
    ((Command.executeRobot "11111111-1111-1111-1111-111111111111" ["x"]).perform (Command.typed "")
        (.facing (.broken "reset")) ⟨none, []⟩).1 =
      .error (.fault (.io "reset")) ∧
    ((Command.scheduleRobot "11111111-1111-1111-1111-111111111111"
      ⟨5, .minutes, by decide, by decide⟩ []).perform
        (Command.typed "") (.facing
          (.response ⟨500, some "http://h/22222222-2222-2222-2222-222222222222", "down"⟩))
        ⟨none, []⟩).1 =
      .error (.fault (.refused 500 "down")) ∧
    ((Command.createRobot none true none).perform (Command.typed "<robot/>")
      (.facing (.response ⟨204, none, ""⟩))
        ⟨none, []⟩).1 =
      .error (.fault (.noLocation "http://h/robot/create")) ∧
    ((Command.executeOnce none none ["x"]).perform (Command.typed "a <- 1")
        (.facing (.response ⟨201, some "http://h/none//", ""⟩)) ⟨none, []⟩).1 =
      .error (.fault (.noCode "http://h/none")) ∧
    ((Command.createRobot none false none).perform (Command.typed "a <- 1")
        (.facing (.response ⟨204, some "http://h/22222222-2222-2222-2222-222222222222/", ""⟩))
          ⟨none, []⟩).2.1.store =
      .sound (Command.oneRobot.pushRobot
        ⟨"22222222-2222-2222-2222-222222222222", "http://h/22222222-2222-2222-2222-222222222222",
          60, "a <- 1"⟩) := by
  have known : Command.oneRobot.robotUrl? "11111111-1111-1111-1111-111111111111" =
      some "http://h/1" := by decide
  have rooted (text : String) :
      Option.or none (Command.typed text).defaultServer = some "http://h/" := rfl
  have bare : ∀ code, Index.codeOf "http://h/none//" ≠ .ok code := by
    intro code coded
    have codeless : Index.codeOf "http://h/none//" = .error (.noCode "http://h/none//") := rfl
    exact nomatch codeless.symm.trans coded
  have coded : Index.codeOf "http://h/22222222-2222-2222-2222-222222222222/" =
      .ok "22222222-2222-2222-2222-222222222222" := rfl
  have robot (text : String) (xml : Bool) :
      Creating (Command.typed text) Command.oneRobot (.createRobot none xml none) _ _ :=
    .robot (rooted text) (Command.definition_typed text)
  have once : Creating (Command.typed "a <- 1") Command.oneRobot
      (.executeOnce none none ["x"]) _ _ :=
    .once (rooted _) (Command.definition_typed _)
  have execution : Creating (Command.typed "") Command.oneRobot
      (.executeRobot "11111111-1111-1111-1111-111111111111" ["x"]) _ _ := .execution known
  have periodical : Creating (Command.typed "") Command.oneRobot
      (.scheduleRobot "11111111-1111-1111-1111-111111111111" ⟨5, .minutes, by decide, by decide⟩ [])
        _ _ :=
    .periodical known
  obtain ⟨-, -, -, failed⟩ := creations_end_as_judged execution (.facing (.broken "reset"))
      ⟨none, []⟩ rfl
  obtain ⟨-, -, -, refused⟩ := creations_end_as_judged periodical
    (.facing (.response ⟨500, some "http://h/22222222-2222-2222-2222-222222222222", "down"⟩))
      ⟨none, []⟩ rfl
  obtain ⟨-, -, -, unplaced⟩ :=
    creations_end_as_judged (robot "<robot/>" true) (.facing (.response ⟨204, none, ""⟩))
    ⟨none, []⟩ rfl
  obtain ⟨-, -, -, uncoded⟩ := creations_end_as_judged once
      (.facing (.response ⟨201, some "http://h/none//", ""⟩))
    ⟨none, []⟩ rfl
  obtain ⟨-, -, -, created⟩ := creations_end_as_judged (robot "a <- 1" false)
    (.facing (.response ⟨204, some "http://h/22222222-2222-2222-2222-222222222222/", ""⟩))
      ⟨none, []⟩ rfl
  refine ⟨?_, ?_, ?_, ?_, ?_⟩
  · rw [failed _ (.failed (.io "reset"))]
    rfl
  · rw [refused _ (.refused (by decide))]
    rfl
  · rw [unplaced _ (.unplaced (by decide) (by decide) rfl)]
    rfl
  · rw [uncoded _ (.uncoded (by decide) (by decide) rfl bare)]
    rfl
  · rw [created _ (.created (by decide) (by decide) rfl coded)]
    rfl

end RobotConsole
