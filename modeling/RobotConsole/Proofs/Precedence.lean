import RobotConsole.Proofs.Conversations
import RobotConsole.Proofs.IndexFootprint
import RobotConsole.Proofs.Runs

/-!
# Which settings a run goes by

The index of a run is named by the first of the command line, the environment and the settings file
that names one, or else it lies in the user's home; and the server of a command that needs one is
found in the same way, except that there is no other to fall back on.  A run touches no index but
its own.  Commands that need no server do the same under any, and how a resource is polled is told
by the settings file alone.
-/

set_option autoImplicit false

namespace RobotConsole

/-! ## Commands that need a server -/

namespace Command

/-- A command that does not ask the root of a service has no use for a server. -/
theorem run_any_server {command : Command} (away : command.atRoot? = none)
    (surroundings : Surroundings) (other : Option String) :
    command.run { surroundings with defaultServer := other } = command.run surroundings := by
  cases command with
  | createRobot server xml file => cases away
  | executeOnce server file inputs => cases away
  | listRobots | showRobot | deleteRobot | executeRobot | scheduleRobot | showExecution
  | deleteExecution | showPeriodical | deletePeriodical => rfl

theorem perform_any_server {command : Command} (away : command.atRoot? = none)
    (surroundings : Surroundings) (other : Option String) (desk : Desk) (sink : Sink) :
    command.perform { surroundings with defaultServer := other } desk sink =
      command.perform surroundings desk sink := by
  rw [perform_eq, perform_eq, run_any_server away]

/-- A post to an address comes first, and nothing but fetches after it. -/
def PostsTo (url : String) (sent : List Request) : Prop :=
  ∃ payload rest, sent = Talk.postRequest url payload :: rest ∧ ∀ request ∈ rest,
    request.method = .get

section Root

variable {command : Command} {asked : AtRoot} (asks : command.atRoot? = some asked)
    (surroundings : Surroundings)
  (desk : Desk)
include asks

/-- Without a server nothing happens, and there is no look at the definition. -/
theorem run_no_server (nowhere : asked.server.or surroundings.defaultServer = none) :
    (command.run surroundings).run desk = (.error .noServer, desk) := by
  have ran := run_atRoot surroundings desk asks
  rw [nowhere] at ran
  exact ran

theorem run_no_definition {root : String}
    (rooted : asked.server.or surroundings.defaultServer = some root)
    (missing : surroundings.definition? asked.file = none) :
    (command.run surroundings).run desk = (.error (Run.unread asked.file), desk) := by
  have ran := run_atRoot surroundings desk asks
  rw [rooted, missing] at ran
  exact ran

/-- With a server and a definition, a post goes to the root that it is for. -/
theorem run_postsTo {root text : String}
    (rooted : asked.server.or surroundings.defaultServer = some root)
    (given : surroundings.definition? asked.file = some text) (fresh : desk.exchange.sent = []) :
    PostsTo (Address.join root asked.relative)
      ((command.run surroundings).run desk).2.exchange.sent := by
  have ran := run_atRoot surroundings desk asks
  rw [rooted, given] at ran
  obtain ⟨payload, passed | ⟨-, location, code, again, -, polled⟩⟩ := ran
  · refine ⟨payload, [], ?_, by simp⟩
    rw [passed, Exchange.sent_after, fresh, List.nil_append]
  · refine ⟨payload, List.replicate (again + 1)
      (Talk.getRequest (Address.stem location) Talk.jsonType), ?_, ?_⟩
    · rw [polled.sent, Exchange.sent_after, fresh, List.nil_append, List.singleton_append]
    · intro request member
      rw [List.eq_of_mem_replicate member]
      rfl

end Root

/-- A command neither seals nor breaks the store that it finds, and it repairs none. -/
theorem store_perform (surroundings : Surroundings) (command : Command) (desk : Desk)
    (sink : Sink) :
    (command.perform surroundings desk sink).2.1.store = desk.store ∨
      ∃ found left, desk.store = .sound found ∧
        (command.perform surroundings desk sink).2.1.store = .sound left := by
  rcases perform_effect surroundings command desk sink with
    ⟨-, kept⟩ | ⟨tables, reply, left, request, change, sound, -, -, -, finish⟩
  · exact Or.inl kept
  · exact Or.inr ⟨tables, change.apply tables, sound, by rw [finish]⟩

end Command

/-! ## The index of a run -/

namespace Program

open Files (Tree)

section Stages

variable {files : Tree} {index : String} {staged : Stage}

theorem stage_eq_ok (begun : stage files index = .ok staged) :
    ∃ opened, files.openIndex index = (.ok (), opened) ∧
      staged = ⟨opened, (opened.hold index).1, (opened.hold index).2⟩ := by
  unfold stage at begun
  split at begun
  · cases begun
  · rename_i opened ran
    exact ⟨opened, ran, (Except.ok.inj begun).symm⟩

theorem stage_error_touches {fault : Fault} {left : Tree}
    (refused : stage files index = .error (fault, left)) :
    Tree.TouchesOnly (files.placesOf index) files left := by
  have first := files.openIndex_touches index
  unfold stage at refused
  split at refused
  · rename_i ran
    cases refused
    rw [ran] at first
    exact first
  · cases refused

theorem stage_touches (begun : stage files index = .ok staged) :
    Tree.TouchesOnly (files.placesOf index) files staged.files := by
  obtain ⟨opened, ran, rfl⟩ := stage_eq_ok begun
  have first := files.openIndex_touches index
  rw [ran] at first
  have second := opened.hold_touches index
  rw [Tree.placesOf_congr first.working] at second
  exact first.trans second

/-- The tables that a command finds, if it finds any, are those in the file of the index. -/
theorem stage_cases (begun : stage files index = .ok staged) :
    staged.holding = ⟨.damaged, none, false⟩ ∨
      ∃ place tables, files.placesOf index = Tree.ownPlaces place ∧
        staged.holding.place = some place ∧
        staged.files.node? place = some (.index tables) ∧
        (staged.holding.store = .sound tables ∨ staged.holding.store = .sealed tables) := by
  obtain ⟨opened, ran, rfl⟩ := stage_eq_ok begun
  have first := files.openIndex_touches index
  rw [ran] at first
  rw [← Tree.placesOf_congr first.working]
  exact opened.hold_cases index

/-- A store that a command has not changed leaves the files as they are. -/
theorem keep_same (begun : stage files index = .ok staged) :
    staged.files.keep staged.holding staged.holding.store = staged.files := by
  rcases stage_cases begun with broken | ⟨place, tables, -, placed, found, sound | still⟩
  · rw [broken]
    rfl
  · rw [sound]
    exact Tree.keep_unchanged placed found
  · rw [still]
    rfl

/-- What a command has left in the store is in the file of the index afterwards. -/
theorem keep_cases (begun : stage files index = .ok staged) {store : Index.Store}
    (kept : store = staged.holding.store ∨ ∃ found left, staged.holding.store = .sound found ∧
      store = .sound left) :
    staged.holding.store = .damaged ∨
      ∃ place ∈ files.placesOf index, ∃ found left,
        staged.files.node? place = some (.index found) ∧ staged.holding.store.tables? = some found ∧
        store.tables? = some left ∧
          (staged.files.keep staged.holding store).node? place = some (.index left) := by
  rcases stage_cases begun with broken | ⟨place, tables, places, placed, held, whole⟩
  · exact Or.inl (congrArg Files.Holding.store broken)
  · have mine : place ∈ files.placesOf index := by simp [places, Tree.ownPlaces]
    have readable : staged.holding.store.tables? = some tables := by
      rcases whole with sound | still
      · rw [sound]
        rfl
      · rw [still]
        rfl
    refine Or.inr ⟨place, mine, tables, ?_⟩
    rcases kept with rfl | ⟨_, left, -, rfl⟩
    · exact ⟨tables, held, readable, readable, by rw [keep_same begun]; exact held⟩
    · exact ⟨left, held, readable, rfl, Tree.keep_sound placed held⟩

theorem keep_touches (begun : stage files index = .ok staged) (store : Index.Store) :
    Tree.TouchesOnly (files.placesOf index) files (staged.files.keep staged.holding store) := by
  apply (stage_touches begun).trans
  rcases stage_cases begun with broken | ⟨place, -, places, placed, -⟩
  · rw [broken]
    cases store <;> exact Tree.TouchesOnly.refl staged.files
  · rw [places]
    exact Tree.keep_touches placed store staged.files

end Stages

/-- How a run uses the index that a locator names, and no other: it ends if it cannot open the
index; the tables that its command finds are those in the file of the index, the tables that the
command leaves are in the same file afterwards; and apart from new folders, no other file is
touched. -/
structure UsesIndex (occasion : Occasion) (index : String) (server : Option String)
    (patience : Talk.Patience) (command : Command) (outcome : Outcome) : Prop where
  refused : ∀ fault files, stage occasion.files index = .error (fault, files) →
    outcome = .early (.index index fault) files occasion.room
  used : ∀ staged, stage occasion.files index = .ok staged →
    outcome.index = some index ∧
    (staged.holding.store = .damaged ∨
      ∃ place ∈ occasion.files.placesOf index, ∃ found left,
        staged.files.node? place = some (.index found) ∧ staged.holding.store.tables? = some found ∧
        (staged.perform occasion server patience command).2.1.store.tables? = some left ∧
        outcome.files.node? place = some (.index left))
  touched : Tree.TouchesOnly (occasion.files.placesOf index) occasion.files outcome.files

theorem carryOut_usesIndex (occasion : Occasion) (index : String) (server : Option String)
    (patience : Talk.Patience) (command : Command) :
    UsesIndex occasion index server patience command
      (carryOut occasion index server patience command) where
  refused fault files refused := by simp only [carryOut, refused]
  used staged begun := by
    simp only [carryOut, begun]
    exact ⟨trivial, keep_cases begun
      (command.store_perform (staged.surroundings occasion server patience)
      (staged.desk occasion) (Sink.ofRoom occasion.room))⟩
  touched := by
    cases begun : stage occasion.files index with
    | error refusal =>
        simp only [carryOut, begun]
        exact stage_error_touches begun
    | ok staged =>
        simp only [carryOut, begun]
        exact keep_touches begun _

/-! ## The server of a run -/

section Carrying

variable (occasion : Occasion) (index : String) {server : Option String} (patience : Talk.Patience)
    {command : Command}

theorem carryOut_any_server (away : command.atRoot? = none) (other : Option String) :
    carryOut occasion index other patience command =
      carryOut occasion index server patience command := by
  cases begun : stage occasion.files index with
  | error refusal => simp only [carryOut, begun]
  | ok staged =>
      have same : staged.perform occasion other patience command =
          staged.perform occasion server patience command :=
        Command.perform_any_server away (staged.surroundings occasion server patience) other _ _
      simp only [carryOut, begun, same]

variable {asked : Command.AtRoot} {staged : Stage} {index : String}
    (asks : command.atRoot? = some asked)
  (begun : stage occasion.files index = .ok staged)
include asks begun

theorem carryOut_no_server (nowhere : asked.server.or server = none) :
    carryOut occasion index server patience command =
      ⟨.error (.command .noServer), Sink.ofRoom occasion.room, [], [], staged.files,
        some index⟩ := by
  have stopped := Command.run_no_server asks (staged.surroundings occasion server patience)
      (staged.desk occasion) nowhere
  have same : staged.files.keep staged.holding (staged.desk occasion).store = staged.files :=
    keep_same begun
  simp only [carryOut, begun, Stage.perform, Command.perform_eq, stopped, same]
  rfl

theorem carryOut_server {root : String} (rooted : asked.server.or server = some root) :
    ((staged.surroundings occasion server patience).definition? asked.file = none →
      (carryOut occasion index server patience command).result =
        .error (.command (Run.unread asked.file)) ∧
        (carryOut occasion index server patience command).sent = []) ∧
    ∀ text, (staged.surroundings occasion server patience).definition? asked.file = some text →
      Command.PostsTo (Address.join root asked.relative)
        (carryOut occasion index server patience command).sent := by
  constructor
  · intro missing
    have stopped := Command.run_no_definition asks (staged.surroundings occasion server patience)
        (staged.desk occasion)
      rooted missing
    simp only [carryOut, begun, Stage.perform, Command.perform_eq, stopped]
    exact ⟨rfl, rfl⟩
  · intro text given
    have posts := Command.run_postsTo asks (staged.surroundings occasion server patience)
        (staged.desk occasion)
      rooted given rfl
    rw [← command.desk_perform _ _ (Sink.ofRoom occasion.room)] at posts
    simp only [carryOut, begun]
    exact posts

end Carrying

/-! ## Precedence -/

/-- The locator on the command line, or else in the environment, or else in the file of the
settings. -/
def indexNamed (named : Option String) (environment : Environment) (fromFile : Settings) :
    Option String :=
  named.or ((nonEmpty? environment.store).or fromFile.storePath)

def indexInUse (named : Option String) (environment : Environment) (fromFile : Settings) : String :=
  (indexNamed named environment fromFile).getD (Files.joinPath environment.homeFolder ".dare")

def serverInUse (environment : Environment) (fromFile : Settings) : Option String :=
  (nonEmpty? environment.server).or fromFile.server

section Planning

variable {occasion : Occasion} {invocation : CommandLine.Invocation} {fromFile : Settings}
  (parsed : CommandLine.parse occasion.words = .ok invocation)
  (read : Settings.ofFile occasion.files occasion.environment.configFile = .ok fromFile)
include parsed read

theorem plan_by_precedence :
    plan occasion.words occasion.environment occasion.files =
      .ok ⟨{ fromFile with
          server := serverInUse occasion.environment fromFile
          storePath := indexNamed invocation.store occasion.environment fromFile },
        indexInUse invocation.store occasion.environment fromFile, invocation.command⟩ := by
  simp only [plan, parsed, Settings.load, read]
  rfl

theorem run_by_precedence :
    run occasion =
      carryOut occasion (indexInUse invocation.store occasion.environment fromFile)
        (serverInUse occasion.environment fromFile) fromFile.patience invocation.command := by
  rw [run_of_plan (plan_by_precedence parsed read)]
  rfl

end Planning

/-- A run of a command line that is accepted, under settings that load, goes by the index and the
server that come first; all else is as the file of the settings says.  The root of a service is
asked at the first server that is present; without any, the command fails before it does anything,
and whatever its definition is.  All other commands do the same whatever servers the environment and
the settings name. -/
theorem settings_by_precedence (occasion : Occasion) (invocation : CommandLine.Invocation)
    (fromFile : Settings)
    (index : String) (server : Option String)
    (parsed : CommandLine.parse occasion.words = .ok invocation)
    (read : Settings.ofFile occasion.files occasion.environment.configFile = .ok fromFile)
    (indexFirst : index = indexInUse invocation.store occasion.environment fromFile)
    (serverFirst : server = serverInUse occasion.environment fromFile) :
    (∃ settings, plan occasion.words occasion.environment occasion.files =
      .ok ⟨settings, index, invocation.command⟩ ∧
      settings.server = server ∧
        settings.storePath = indexNamed invocation.store occasion.environment fromFile ∧
      settings.pollSeconds = fromFile.pollSeconds ∧ settings.maxPolls = fromFile.maxPolls ∧
      settings.timeoutSeconds = fromFile.timeoutSeconds) ∧
    run occasion = carryOut occasion index server
      ⟨fromFile.pollSeconds, fromFile.maxPolls⟩ invocation.command ∧
    UsesIndex occasion index server ⟨fromFile.pollSeconds, fromFile.maxPolls⟩ invocation.command
      (run occasion) ∧
    (∀ asked staged, invocation.command.atRoot? = some asked →
      stage occasion.files index = .ok staged →
      (asked.server.or server = none → run occasion =
        ⟨.error (.command .noServer), Sink.ofRoom occasion.room, [], [], staged.files,
          some index⟩) ∧
      ∀ root, asked.server.or server = some root →
        ((staged.surroundings occasion server fromFile.patience).definition? asked.file = none →
          (run occasion).result = .error (.command (Run.unread asked.file)) ∧
            (run occasion).sent = []) ∧
        ∀ text, (staged.surroundings occasion server fromFile.patience).definition? asked.file =
          some text →
          Command.PostsTo (Address.join root asked.relative) (run occasion).sent) ∧
    (invocation.command.atRoot? = none → ∀ (environment : Environment) (other : Option String),
      environment.homeFolder = occasion.environment.homeFolder →
        environment.store = occasion.environment.store →
      Settings.ofFile occasion.files environment.configFile =
        .ok { fromFile with server := other } →
      run { occasion with environment := environment } = run occasion) := by
  subst indexFirst serverFirst
  have ran := run_by_precedence parsed read
  rw [ran]
  refine ⟨⟨_, plan_by_precedence parsed read, rfl, rfl, rfl, rfl, rfl⟩, rfl,
    carryOut_usesIndex _ _ _ _ _, ?_, ?_⟩
  · -- commands that ask the root of a service
    intro asked staged asks begun
    exact ⟨carryOut_no_server occasion fromFile.patience asks begun,
      fun root => carryOut_server occasion fromFile.patience asks begun⟩
  · -- all other commands: the index is the same, and the server makes no difference
    intro away environment other sameHome sameStore readOther
    have ranOther : run { occasion with environment := environment } = _ :=
      run_by_precedence parsed readOther
    have sameIndex : indexInUse invocation.store environment { fromFile with server := other } =
        indexInUse invocation.store occasion.environment fromFile := by
      simp only [indexInUse, indexNamed, sameHome, sameStore]
    rw [ranOther, sameIndex]
    exact carryOut_any_server occasion _ fromFile.patience away _

/-! A store on the command line goes before the one in the environment, and an empty server there
counts for nothing. -/

def layered : Occasion :=
  ⟨["--store=/tmp/s", "robot", "create"], { atHome with server := some "", store := some "/tmp/e" },
    homeWith "server = \"http://f/\"\nstore_path = \"/tmp/f\"" .empty, 0, "url".toUTF8,
    [.response ⟨201, some "http://f/robot/11111111-1111-1111-1111-111111111111", ""⟩], .unreachable,
    none⟩

theorem settings_by_precedence_layered :
    ∃ invocation fromFile, CommandLine.parse layered.words = .ok invocation ∧
      Settings.ofFile layered.files layered.environment.configFile = .ok fromFile ∧
      indexInUse invocation.store layered.environment fromFile = "/tmp/s" ∧
      serverInUse layered.environment fromFile = some "http://f/" ∧
      run layered = carryOut layered "/tmp/s" (some "http://f/") ⟨2, none⟩
        (.createRobot none false none) ∧
      Command.PostsTo "http://f/robot/create" (run layered).sent := by
  have parsed : CommandLine.parse layered.words =
      .ok ⟨some "/tmp/s", .createRobot none false none⟩ := by
    decide +kernel
  have read : Settings.ofFile layered.files layered.environment.configFile =
      .ok ⟨some "http://f/", 2, none, some "/tmp/f", none⟩ := by
    decide +kernel
  have index : "/tmp/s" = indexInUse (some "/tmp/s") layered.environment
      ⟨some "http://f/", 2, none, some "/tmp/f", none⟩ := by
    decide +kernel
  have server : some "http://f/" = serverInUse layered.environment
      ⟨some "http://f/", 2, none, some "/tmp/f", none⟩ := by
    decide +kernel
  obtain ⟨-, ran, -, root, -⟩ := settings_by_precedence layered _ _ _ _ parsed read index server
  refine ⟨_, _, parsed, read, index.symm, server.symm, ran, ?_⟩
  cases begun : stage layered.files "/tmp/s" with
  | error refusal =>
      have opens : (stage layered.files "/tmp/s").toOption.isSome = true := by decide +kernel
      simp [begun, Except.toOption] at opens
  | ok staged =>
      obtain ⟨-, served⟩ := root _ staged rfl begun
      have given : String.fromUTF8? layered.input = some "url" := by decide +kernel
      exact (served "http://f/" rfl).2 "url" given

end Program

end RobotConsole
