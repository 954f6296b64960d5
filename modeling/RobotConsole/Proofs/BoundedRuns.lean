import RobotConsole.Proofs.Conversations
import RobotConsole.Proofs.Recording
import RobotConsole.Proofs.Runs

/-!
# Runs under a limit of polls

When the settings limit how often a resource is polled, every run of the program sends a bounded
number of requests and waits a bounded number of times, whatever the service answers and however
long it goes on to answer that it is not ready.  Settings that load have no limit of zero.
-/

set_option autoImplicit false

namespace RobotConsole

/-! ## How much passes in a conversation -/

section Amounts

variable {patience : Talk.Patience} {command : Command} {answers : List Answer}
    {silence : String → Fault}
  {after : Exchange}

/-- At most one request of another kind comes first, then the fetches of one resource, with a wait
before each of these but the first. -/
theorem Conversation.passed (said : Conversation patience (.start answers silence) command after) :
    ∃ others url fetches,
      after.sent = others ++ List.replicate fetches (Talk.getRequest url Talk.jsonType) ∧
      others.length ≤ 1 ∧ (∀ request ∈ others, request.method ≠ .get) ∧
      after.waits = List.replicate (fetches - 1) patience.interval ∧
      ∀ limit, patience.limit = some limit → fetches ≤ max limit 1 := by
  cases said with
  | silent command => exact ⟨[], "", 0, rfl, Nat.zero_le _, by simp, rfl, fun _ _ => Nat.zero_le _⟩
  | @asked command request asks change =>
      exact ⟨[request], "", 0, rfl, Nat.le_refl _, by simp [change], rfl, fun _ _ => Nat.zero_le _⟩
  | @polled command url again after shows polled =>
      exact ⟨[], url, again + 1, polled.sent, Nat.zero_le _, by simp, polled.waits, polled.limited⟩
  | @followed server file inputs request location code again after posted creates polled =>
      exact ⟨[request], Address.stem location, again + 1, polled.sent,
        Nat.le_refl _, by simp [posted], polled.waits, polled.limited⟩

/-- Under a limit there are at most so many fetches, all of one resource, at most one other request,
and waits of one length between the fetches only. -/
structure Exchange.Within (patience : Talk.Patience) (limit : Nat) (exchange : Exchange) :
    Prop where
  fetches : (exchange.sent.countP fun request => request.method = .get) ≤ limit
  waits : exchange.waits.length ≤ limit - 1
  evenly : ∀ seconds ∈ exchange.waits, seconds = patience.interval
  others : (exchange.sent.countP fun request => request.method = .post ∨ request.method = .delete) ≤
    1
  oneResource : ∃ url, ∀ request ∈ exchange.sent, request.method = .get → request.url = url

theorem Conversation.within {limit : Nat}
    (said : Conversation patience (.start answers silence) command after)
    (limited : patience.limit = some limit) (positive : 1 ≤ limit) :
    after.Within patience limit := by
  obtain ⟨others, url, fetches, sent, one, changing, waits, few⟩ := said.passed
  have few := few limit limited
  refine ⟨?_, ?_, ?_, ?_, ⟨url, ?_⟩⟩
  · have none : (others.countP fun request => request.method = .get) = 0 := by
      simpa [List.countP_eq_zero] using changing
    rw [sent, List.countP_append, none, List.countP_replicate, Nat.zero_add]
    split <;> omega
  · rw [waits, List.length_replicate]
    omega
  · intro seconds member
    rw [waits] at member
    exact List.eq_of_mem_replicate member
  · rw [sent, List.countP_append, List.countP_replicate, if_neg (by simp [Talk.getRequest]),
      Nat.add_zero]
    exact List.countP_le_length.trans one
  · intro request member fetch
    rw [sent, List.mem_append] at member
    rcases member with other | polled
    · exact absurd fetch (changing request other)
    · rw [List.eq_of_mem_replicate polled]
      rfl

/-- Who fetches at all: a command that shows something, or one that has first created what it
fetches. -/
theorem Conversation.fetching (said : Conversation patience (.start answers silence) command after)
    (fetches : ∃ request ∈ after.sent, request.method = .get) :
    command.shows = true ∨
      (∃ server file inputs, command = .executeOnce server file inputs) ∧
        ∃ post location code, after.sent.head? = some post ∧ post.method = .post ∧
          (Exchange.start answers silence).Creates location code ∧
          ∀ request ∈ after.sent, request.method = .get → request.url = Address.stem location := by
  cases said with
  | silent command =>
      obtain ⟨request, member, -⟩ := fetches
      cases member
  | @asked command request asks change =>
      obtain ⟨found, member, fetch⟩ := fetches
      obtain rfl : found = request := List.mem_singleton.mp member
      exact absurd fetch change
  | polled shows polled => exact Or.inl shows
  | @followed server file inputs request location code again after posted creates polled =>
      have sent : after.sent =
          request :: List.replicate (again + 1)
            (Talk.getRequest (Address.stem location) Talk.jsonType) := polled.sent
      refine Or.inr ⟨⟨server, file, inputs, rfl⟩, request, location,
        code, by rw [sent]; rfl, posted, creates, ?_⟩
      intro found member fetch
      rw [sent, List.mem_cons] at member
      rcases member with rfl | polled
      · rw [posted] at fetch
        cases fetch
      · rw [List.eq_of_mem_replicate polled]
        rfl

theorem Conversation.sent_listRobots {json : Bool}
    (said : Conversation patience (.start answers silence) (.listRobots json) after) :
    after.sent = [] := by
  cases said with
  | silent => rfl
  | asked asks change => cases asks
  | polled shows polled => cases shows

end Amounts

/-! ## Settings that load -/

namespace Settings

theorem ofText_limit {path text : String} {settings : Settings}
    (read : ofText path text = .ok settings) :
    settings.maxPolls ≠ some 0 := by
  unfold ofText at read
  cases found : (Toml.read? text).bind ofEntries? with
  | none => simp [found] at read
  | some settings' =>
      rw [found] at read
      dsimp only at read
      split at read
      · cases read
      · rename_i positive
        cases read
        exact positive

theorem ofFile_limit {files : Files.Tree} {path : String} {settings : Settings}
    (read : ofFile files path = .ok settings) :
    settings.maxPolls ≠ some 0 := by
  unfold ofFile at read
  split at read
  · cases read
    simp [default]
  · split at read
    · cases read
    · exact ofText_limit read

/-- The environment has no say in how often a resource is polled. -/
theorem load_eq_ok {files : Files.Tree} {environment : Environment} {settings : Settings}
    (loaded : load files environment = .ok settings) :
    ∃ fromFile, ofFile files environment.configFile = .ok fromFile ∧
      settings = fromFile.override environment.server environment.store := by
  unfold load at loaded
  cases read : ofFile files environment.configFile with
  | error fault => simp [read] at loaded
  | ok fromFile =>
      rw [read] at loaded
      exact ⟨fromFile, rfl, (Except.ok.inj loaded).symm⟩

theorem load_limit {files : Files.Tree} {environment : Environment} {settings : Settings}
    {limit : Nat}
    (loaded : load files environment = .ok settings) (limited : settings.maxPolls = some limit) :
    1 ≤ limit := by
  obtain ⟨fromFile, read, rfl⟩ := load_eq_ok loaded
  have positive := ofFile_limit read
  have same : fromFile.maxPolls = some limit := limited
  rcases limit with _ | limit
  · exact absurd same positive
  · exact Nat.succ_le_succ (Nat.zero_le limit)

end Settings

/-! ## Runs -/

namespace Program

/-- What passes in a run is a conversation of its command, unless the run ends before the command
begins. -/
theorem carryOut_conversation (occasion : Occasion) (index : String) (server : Option String)
    (patience : Talk.Patience) (command : Command) :
    ∃ after, Conversation patience (.start occasion.answers occasion.silence) command after ∧
      (carryOut occasion index server patience command).sent = after.sent ∧
      (carryOut occasion index server patience command).waits = after.waits := by
  cases staged : stage occasion.files index with
  | error refusal =>
      obtain ⟨fault, files⟩ := refusal
      refine ⟨_, .silent command, ?_⟩
      simp only [carryOut, staged]
      exact ⟨rfl, rfl⟩
  | ok stage =>
      have said := conversation (stage.surroundings occasion server patience)
          (stage.desk occasion) command
      have desk := command.desk_perform (stage.surroundings occasion server patience)
          (stage.desk occasion)
        (Sink.ofRoom occasion.room)
      refine ⟨_, said, ?_⟩
      simp only [carryOut, staged]
      rw [← desk]
      exact ⟨rfl, rfl⟩

/-- When the settings limit the polls, the limit is not zero, and a run fetches at most so often and
always the same resource, waits only between two fetches and for as long as the settings say, and
sends at most one other request.  Only a command that shows something fetches it at once; a robot
that runs once is fetched after a request has created it under an address with a code; and a list of
robots is made without any request. -/
theorem polls_are_limited (occasion : Occasion) (settings : Settings) (limit : Nat)
    (loaded : Settings.load occasion.files occasion.environment = .ok settings)
    (limited : settings.maxPolls = some limit) :
    1 ≤ limit ∧
      ((run occasion).sent.countP fun request => request.method = .get) ≤ limit ∧
      (run occasion).waits.length ≤ limit - 1 ∧
      (∀ seconds ∈ (run occasion).waits, seconds = settings.pollSeconds) ∧
      ((run occasion).sent.countP fun request => request.method = .post ∨
        request.method = .delete) ≤ 1 ∧
      (∃ url, ∀ request ∈ (run occasion).sent, request.method = .get → request.url = url) ∧
      ∀ invocation, CommandLine.parse occasion.words = .ok invocation →
        ((∃ request ∈ (run occasion).sent, request.method = .get) →
          invocation.command.shows = true ∨
            ∃ server file inputs, invocation.command = .executeOnce server file inputs) ∧
        (∀ server file inputs, invocation.command = .executeOnce server file inputs →
          (∃ request ∈ (run occasion).sent, request.method = .get) →
            ∃ post location code, (run occasion).sent.head? = some post ∧ post.method = .post ∧
              (Exchange.start occasion.answers occasion.silence).Creates location code ∧
              ∀ request ∈ (run occasion).sent, request.method = .get →
                request.url = Address.stem location) ∧
        ∀ json, invocation.command = .listRobots json → (run occasion).sent = [] := by
  have positive := Settings.load_limit loaded limited
  refine ⟨positive, ?_⟩
  cases parsed : CommandLine.parse occasion.words with
  | error fault =>
      have unplanned : plan occasion.words occasion.environment occasion.files =
          .error (.usage fault) := by
        simp only [plan, parsed]
      rw [run_unplanned unplanned]
      simp [Outcome.early]
  | ok invocation =>
      obtain ⟨after, said, sent, waits⟩ := carryOut_conversation occasion
        ((invocation.store.or settings.storePath).getD occasion.environment.defaultStore)
          settings.server
        settings.patience invocation.command
      have within := said.within limited positive
      rw [run_of_load parsed loaded, sent, waits]
      refine ⟨within.fetches, within.waits, within.evenly, within.others, within.oneResource, ?_⟩
      intro same isSame
      obtain rfl := Except.ok.inj isSame
      refine ⟨fun fetches => (said.fetching fetches).imp_right And.left, ?_, ?_⟩
      · intro server file inputs once fetches
        rcases said.fetching fetches with shows | ⟨-, created⟩
        · rw [once] at shows
          cases shows
        · exact created
      · intro json list
        rw [list] at said
        exact said.sent_listRobots

/-! A robot is to be shown, with two polls allowed, and the service is never ready. -/

def neverReady : Occasion :=
  ⟨["robot", "show", "11111111-1111-1111-1111-111111111111"], atHome,
    homeWith "max_polls = 2" Command.oneRobot, 0,
    ByteArray.empty, List.replicate 9 (.response ⟨204, none, ""⟩), .unreachable, none⟩

theorem polls_are_limited_never_ready :
    Settings.load neverReady.files neverReady.environment = .ok ⟨none, 2, some 2, none, none⟩ ∧
      ((run neverReady).sent.countP fun request => request.method = .get) ≤ 2 ∧
        (run neverReady).waits.length ≤ 1 ∧
      (run neverReady).sent = List.replicate 2 (Talk.getRequest "http://h/1" Talk.jsonType) ∧
      (run neverReady).waits = [2] := by
  have loaded : Settings.load neverReady.files neverReady.environment =
      .ok ⟨none, 2, some 2, none, none⟩ := by
    decide +kernel
  obtain ⟨-, fetches, waits, -⟩ := polls_are_limited neverReady _ 2 loaded rfl
  exact ⟨loaded, fetches, waits, by decide +kernel, by decide +kernel⟩

end Program

end RobotConsole
