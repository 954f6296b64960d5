import RobotConsole.Program
import RobotConsole.Proofs.CommandEffect

/-!
# Runs by their plans

Once its plan is made, a run opens its index and performs its command there.  `carryOut` says what
it does, given only the index, the server and the patience that the plan has settled on; where these
come from is a matter of the plan.
-/

set_option autoImplicit false

namespace RobotConsole.Program

/-- What a command meets when it is performed in a run. -/
structure Stage where
  opened : Files.Tree
  holding : Files.Holding
  files : Files.Tree

/-- Opens an index and finds what it holds. -/
def stage (files : Files.Tree) (index : String) : Except (Fault × Files.Tree) Stage :=
  match files.openIndex index with
  | (.error fault, files) => .error (fault, files)
  | (.ok (), opened) => .ok ⟨opened, (opened.hold index).1, (opened.hold index).2⟩

namespace Stage

variable (stage : Stage) (occasion : Occasion) (server : Option String) (patience : Talk.Patience)

def surroundings : Surroundings :=
  ⟨occasion.now, server, patience, stage.files, occasion.input⟩

def desk : Desk :=
  ⟨stage.holding.store, Exchange.start occasion.answers occasion.silence⟩

def perform (command : Command) : Except Trouble Unit × Desk × Sink :=
  command.perform (stage.surroundings occasion server patience) (stage.desk occasion)
    (Sink.ofRoom occasion.room)

end Stage

def carryOut (occasion : Occasion) (index : String) (server : Option String)
    (patience : Talk.Patience) (command : Command) : Outcome :=
  match stage occasion.files index with
  | .error (fault, files) => .early (.index index fault) files occasion.room
  | .ok stage =>
      let (result, desk, sink) := stage.perform occasion server patience command
      ⟨result.mapError .command, sink, desk.exchange.sent, desk.exchange.waits,
        stage.files.keep stage.holding desk.store, some index⟩

theorem run_of_plan {occasion : Occasion} {chosen : Plan}
    (planned : plan occasion.words occasion.environment occasion.files = .ok chosen) :
    run occasion = carryOut occasion chosen.index chosen.settings.server chosen.settings.patience
      chosen.command := by
  simp only [run, planned, carryOut, stage]
  cases occasion.files.openIndex chosen.index with
  | mk result files =>
      cases result with
      | error fault => rfl
      | ok _ =>
          simp only [performOn, Stage.perform, Stage.desk, Stage.surroundings, surroundings]
          cases files.hold chosen.index with
          | mk holding settled =>
              dsimp only
              cases chosen.command.perform _ _ _ with
              | mk result rest => cases result <;> rfl

theorem run_of_load {occasion : Occasion} {invocation : CommandLine.Invocation} {loaded : Settings}
    (parsed : CommandLine.parse occasion.words = .ok invocation)
    (loads : Settings.load occasion.files occasion.environment = .ok loaded) :
    run occasion =
      carryOut occasion ((invocation.store.or loaded.storePath).getD
        occasion.environment.defaultStore) loaded.server
        loaded.patience invocation.command := by
  have planned : plan occasion.words occasion.environment occasion.files =
      .ok ⟨{ loaded with storePath := invocation.store.or loaded.storePath },
        (invocation.store.or loaded.storePath).getD occasion.environment.defaultStore,
        invocation.command⟩ := by
    simp only [plan, parsed, loads]
    rfl
  rw [run_of_plan planned]
  rfl

/-- A command line that is refused, or settings that do not load, end a run before anything is
sent. -/
theorem run_unplanned {occasion : Occasion} {setback : Setback}
    (unplanned : plan occasion.words occasion.environment occasion.files = .error setback) :
    run occasion = .early setback occasion.files occasion.room := by
  simp only [run, unplanned]

/-! ## A user's home -/

def atHome : Environment := ⟨some "/tmp/h", none, none, none, none⟩

def homeWith (settings : String) (tables : Index.Tables) : Files.Tree :=
  (Files.Tree.fresh.write "/tmp/h/.config/dare/config.toml" settings.toUTF8).put
    [Files.bytesOf "tmp", Files.bytesOf "h", Files.bytesOf ".dare"] (.index tables)

end RobotConsole.Program
