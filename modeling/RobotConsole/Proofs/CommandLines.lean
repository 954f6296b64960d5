import RobotConsole.Proofs.PeriodText
import RobotConsole.Proofs.Scanning

/-!
# Command lines that are read back

A command is written with the words that lead to it, its options in any order, the word `--`, and
then its codes, its period and its inputs.  Whatever these are, the line is read back as the same
command, and as the index that is named at its beginning or among the options.
-/

set_option autoImplicit false

namespace RobotConsole.CommandLine

/-! ## How commands are written -/

def given (name : String) (value : Option String) : List Setting :=
  value.toList.map fun text => ⟨name, some text⟩

def flag (name : String) (set : Bool) : List Setting :=
  if set then [⟨name, none⟩] else []

def Level.paths : Level → List (List String)
  | .top => []
  | .robot => []
  | .robotList => [["robot", "list"], ["robot", "ls"]]
  | .robotCreate => [["robot", "create"]]
  | .robotShow => [["robot", "show"]]
  | .robotDelete => [["robot", "delete"], ["robot", "rm"]]
  | .robotExecute => [["robot", "execute"]]
  | .robotSchedule => [["robot", "create-periodical"]]
  | .execution => [["execution"]]
  | .periodical => [["periodical"]]
  | .executeOnce => [["execute"]]

/-- What is written of a command: its level, its options, and the words for its places. -/
structure Form where
  level : Level
  settings : List Setting
  places : List String

namespace Form

def scheduling (code period : String) (inputs : List String) : Form :=
  ⟨.robotSchedule, [], code :: period :: inputs⟩

def of : Command → Form
  | .listRobots json => ⟨.robotList, flag "json" json, []⟩
  | .createRobot server xml file =>
      ⟨.robotCreate, given "server" server ++ flag "xml" xml ++ given "file" file, []⟩
  | .showRobot code facet =>
      ⟨.robotShow, flag "xml" (facet == .xmlOnly || facet == .sources) ++
        flag "minilanguage" (facet == .minilanguageOnly || facet == .sources), [code]⟩
  | .deleteRobot code => ⟨.robotDelete, [], [code]⟩
  | .executeRobot code inputs => ⟨.robotExecute, [], code :: inputs⟩
  | .scheduleRobot code period inputs => scheduling code period.wire inputs
  | .showExecution code => ⟨.execution, [], ["show", code]⟩
  | .deleteExecution code => ⟨.execution, [], ["delete", code]⟩
  | .showPeriodical code => ⟨.periodical, [], ["show", code]⟩
  | .deletePeriodical code => ⟨.periodical, [], ["delete", code]⟩
  | .executeOnce server file inputs =>
      ⟨.executeOnce, given "server" server ++ given "file" file, inputs⟩

/-- The lines for a form, with an index at the beginning or among the options. -/
inductive Line (form : Form) (store : Option String) : List String → Prop where
  | before {path : List String} {settings : List Setting} (leads : path ∈ form.level.paths)
      (anyOrder : settings.Perm form.settings) :
      Line form store
        ((given "store" store).map Setting.word ++
          (path ++ (settings.map Setting.word ++ "--" :: form.places)))
  | among {path : List String} {settings : List Setting} (leads : path ∈ form.level.paths)
      (anyOrder : settings.Perm (given "store" store ++ form.settings)) :
      Line form store (path ++ (settings.map Setting.word ++ "--" :: form.places))

end Form

/-! ## What is bound by a line -/

@[simp]
theorem values?_given (name : String) (value : Option String) (other : String) :
    Bindings.values? ((given name value).map Setting.binding) other =
      if name = other then value.map fun text => [text] else none := by
  cases value <;> simp [given, Setting.binding]

namespace Form

def bound (form : Form) (store : Option String) (places : Bindings) : Bindings :=
  (given "store" store ++ form.settings).map Setting.binding ++ places

/-- The words of a form fit its level. -/
structure Fits (form : Form) (places : Bindings) : Prop where
  laid : Laid form.level.slots form.places places
  known : ∀ setting ∈ form.settings, form.level.Knows setting
  distinct : ("store" :: (form.settings.map Setting.name ++ places.map Prod.fst)).Nodup

/-- What the words of a form bind is a command. -/
structure Tells (form : Form) (places : Bindings) (command : Command) : Prop
    extends form.Fits places where
  accepted : ∀ store, form.level.accepts (form.bound store places) = true
  tells : ∀ store, (Layer.mk form.level (form.bound store places)).command? = some command

/-! ## Each command is told by its form -/

def boundInputs : List String → Bindings
  | [] => []
  | word :: words => [("inputs", word :: words)]

theorem laid_inputs (inputs : List String) :
    Laid [⟨"inputs", .text, true⟩] inputs (boundInputs inputs) := by
  cases inputs with
  | nil => exact .noneLeft rfl
  | cons word words => exact .allLeft rfl fun _ _ => rfl

theorem path_fits {path : Option String} (named : path ≠ some "") :
    ∀ text ∈ path, Shape.path.fault? text = none := by
  rintro text rfl
  have full : text.isEmpty = false := by
    rw [String.isEmpty_eq_false_iff]
    rintro rfl
    exact named rfl
  simp [Shape.fault?, full]

section Known

variable {level : Level} {name : String}

theorem knows_given {letter : Option Char} {shape : Shape} {value : Option String}
    (choice : (level.choices.find? fun choice => choice.name == name) =
      some ⟨name, letter, .value shape⟩)
    (fits : ∀ text ∈ value, shape.fault? text = none) : ∀ setting ∈ given name value,
      level.Knows setting := by
  intro setting member
  obtain ⟨text, held, rfl⟩ := List.mem_map.mp member
  exact ⟨_, choice, shape, rfl, fits text (Option.mem_toList.mp held)⟩

theorem knows_flag {letter : Option Char} (set : Bool)
    (choice : (level.choices.find? fun choice => choice.name == name) =
      some ⟨name, letter, .flag⟩) :
    ∀ setting ∈ flag name set, level.Knows setting := by
  intro setting member
  cases set with
  | false => cases member
  | true =>
      rw [List.mem_singleton.mp member]
      exact ⟨_, choice, rfl⟩

end Known

theorem tells_listRobots (json : Bool) : (of (.listRobots json)).Tells [] (.listRobots json) where
  laid := .nil
  known := knows_flag json rfl
  distinct := by cases json <;> decide
  accepted store := by cases json <;> cases store <;> rfl
  tells store := by cases json <;> cases store <;> rfl

theorem tells_createRobot (server : Option String) (xml : Bool) {file : Option String}
    (named : file ≠ some "") :
    (of (.createRobot server xml file)).Tells [] (.createRobot server xml file) where
  laid := .nil
  known := List.forall_mem_append.mpr ⟨List.forall_mem_append.mpr
    ⟨knows_given rfl fun _ _ => rfl, knows_flag xml rfl⟩, knows_given rfl (path_fits named)⟩
  distinct := by cases server <;> cases xml <;> cases file <;> simp [of, given, flag]
  accepted store := by cases server <;> cases xml <;> cases file <;> cases store <;> rfl
  tells store := by cases server <;> cases xml <;> cases file <;> cases store <;> rfl

theorem fits_showRobot (code : String) (facet : Facet) :
    (of (.showRobot code facet)).Fits [("code", [code])] where
  laid := .one rfl rfl .nil
  known := List.forall_mem_append.mpr ⟨knows_flag _ rfl, knows_flag _ rfl⟩
  distinct := by cases facet <;> simp [of, flag]

theorem tells_showRobot (code : String) {facet : Facet} (single : facet ≠ .sources) :
    (of (.showRobot code facet)).Tells [("code", [code])] (.showRobot code facet) where
  toFits := fits_showRobot code facet
  accepted store := by
    cases facet with
    | sources => exact absurd rfl single
    | everything | xmlOnly | minilanguageOnly => cases store <;> rfl
  tells store := by cases facet <;> cases store <;> rfl

theorem tells_deleteRobot (code : String) :
    (of (.deleteRobot code)).Tells [("code", [code])] (.deleteRobot code) where
  laid := .one rfl rfl .nil
  known := List.forall_mem_nil _
  distinct := by simp [of]
  accepted store := by cases store <;> rfl
  tells store := by cases store <;> rfl

theorem tells_executeRobot (code : String) (inputs : List String) :
    (of (.executeRobot code inputs)).Tells (("code", [code]) :: boundInputs inputs)
      (.executeRobot code inputs) where
  laid := .one rfl rfl (laid_inputs inputs)
  known := List.forall_mem_nil _
  distinct := by cases inputs <;> simp [of, boundInputs]
  accepted store := by cases store <;> rfl
  tells store := by cases store <;> cases inputs <;> rfl

theorem tells_scheduling {text : String} {period : Period} (read : Period.read text = .ok period)
    (code : String) (inputs : List String) :
    (scheduling code text inputs).Tells
      (("code", [code]) :: ("period", [text]) :: boundInputs inputs)
      (.scheduleRobot code period inputs) where
  laid := .one rfl rfl (.one rfl (by simp [Shape.fault?, read]) (laid_inputs inputs))
  known := List.forall_mem_nil _
  distinct := by cases inputs <;> simp [scheduling, boundInputs]
  accepted store := by cases store <;> rfl
  tells store := by
    cases store <;> cases inputs <;>
      simp [bound, scheduling, boundInputs, given, Setting.binding, Layer.command?, Layer.first?,
        Layer.period?, Layer.all, read, Except.toOption]

/-- Executions and periodical executions are shown and deleted alike. -/
theorem tells_action {level : Level} (levels : level = .execution ∨ level = .periodical)
    {action : String} (known : action ∈ actionWords) {code : String} {command : Command}
    (tells : ∀ store, (Layer.mk level
      (bound ⟨level, [], [action, code]⟩ store [("action", [action]), ("code", [code])])).command? =
        some command) :
    (Form.mk level [] [action, code]).Tells [("action", [action]), ("code", [code])] command where
  laid := by
    have fits : Shape.action.fault? action = none := by simp [Shape.fault?, known]
    rcases levels with rfl | rfl <;> exact .one rfl fits (.one rfl rfl .nil)
  known := List.forall_mem_nil _
  distinct := by simp
  accepted store := by rcases levels with rfl | rfl <;> cases store <;> rfl
  tells := tells

theorem tells_executeOnce (server : Option String) {file : Option String} (named : file ≠ some "")
    (inputs : List String) :
    (of (.executeOnce server file inputs)).Tells (boundInputs inputs)
      (.executeOnce server file inputs) where
  laid := laid_inputs inputs
  known := List.forall_mem_append.mpr
    ⟨knows_given rfl fun _ _ => rfl, knows_given rfl (path_fits named)⟩
  distinct := by cases server <;> cases file <;> cases inputs <;> simp [of, given, boundInputs]
  accepted store := by cases server <;> cases file <;> cases store <;> rfl
  tells store := by cases server <;> cases file <;> cases store <;> cases inputs <;> rfl

theorem exists_tells (command : Command) (named : command.source ≠ .file "")
    (single : ∀ code, command ≠ .showRobot code .sources) :
    ∃ places, (of command).Tells places command := by
  cases command with
  | listRobots json => exact ⟨_, tells_listRobots json⟩
  | createRobot server xml file =>
      exact ⟨_, tells_createRobot server xml fun nameless => named (by rw [nameless]; rfl)⟩
  | showRobot code facet =>
      exact ⟨_, tells_showRobot code fun both => single code (by rw [both])⟩
  | deleteRobot code => exact ⟨_, tells_deleteRobot code⟩
  | executeRobot code inputs => exact ⟨_, tells_executeRobot code inputs⟩
  | scheduleRobot code period inputs => exact ⟨_, tells_scheduling period.read_wire code inputs⟩
  | showExecution code =>
      exact ⟨_, tells_action (.inl rfl) (by simp [actionWords]) fun store => by cases store <;> rfl⟩
  | deleteExecution code =>
      exact ⟨_, tells_action (.inl rfl) (by simp [actionWords]) fun store => by cases store <;> rfl⟩
  | showPeriodical code =>
      exact ⟨_, tells_action (.inr rfl) (by simp [actionWords]) fun store => by cases store <;> rfl⟩
  | deletePeriodical code =>
      exact ⟨_, tells_action (.inr rfl) (by simp [actionWords]) fun store => by cases store <;> rfl⟩
  | executeOnce server file inputs =>
      exact ⟨_, tells_executeOnce server (fun nameless => named (by rw [nameless]; rfl)) inputs⟩

end Form

/-! ## Reading a line -/

theorem knows_store (level : Level) {store : Option String} (named : store ≠ some "") :
    ∀ setting ∈ given "store" store, level.Knows setting := by
  have choice : (level.choices.find? fun choice => choice.name == "store") =
      some ⟨"store", none, .value .path⟩ := by
    cases level <;> rfl
  exact Form.knows_given choice (Form.path_fits named)

theorem Level.paths_lead (level : Level) :
    ∀ path ∈ level.paths, path ≠ [] ∧ Level.top.descend? path = some level := by
  cases level <;> decide

theorem scanWords_options {level : Level} {settings : List Setting}
    (known : ∀ setting ∈ settings, level.Knows setting)
    (distinct : (settings.map Setting.name).Nodup) (places : List String) :
    scanWords level .start (settings.map Setting.word ++ "--" :: places) =
      scanWords level (.past (settings.map Setting.binding) 0) places := by
  have passed : (Scan.amid (settings.map Setting.binding)).take level "--" =
      .ok (.past (settings.map Setting.binding) 0) := by
    simp [Scan.take, Scan.amid, Scan.past]
  have noWord : level.isWord "--" = false := level.isWord_hyphen (by simp)
  rw [scanWords_first_settings settings _ known distinct, scanWords, noWord, Bool.and_false,
    if_neg Bool.false_ne_true, passed]

section Top

variable {level : Level} {path rest : List String} {outside : Option String}

theorem scanWords_store (named : outside ≠ some "") (rest : List String) :
    scanWords .top .start ((given "store" outside).map Setting.word ++ rest) =
      scanWords .top (.amid ((given "store" outside).map Setting.binding)) rest :=
  scanWords_first_settings _ rest (knows_store .top named) (by cases outside <;> simp [given])

theorem parse_of_error {fault : UsageFault} (named : outside ≠ some "") (leads : path ∈ level.paths)
    (refused : scanWords level .start rest = .error fault) :
    parse ((given "store" outside).map Setting.word ++ (path ++ rest)) = .error fault := by
  obtain ⟨long, leads⟩ := level.paths_lead path leads
  cases path with
  | nil => exact absurd rfl long
  | cons word words => rw [parse, scanWords_store named, scanWords_path_error refused word leads]

theorem parse_of_ok {layer : Layer} {command : Command} (named : outside ≠ some "")
    (leads : path ∈ level.paths)
    (scanned : scanWords level .start rest = .ok [layer]) (tells : layer.command? = some command) :
    parse ((given "store" outside).map Setting.word ++ (path ++ rest)) =
      .ok ⟨(layer.first? "store").or outside, command⟩ := by
  obtain ⟨long, leads⟩ := level.paths_lead path leads
  cases path with
  | nil => exact absurd rfl long
  | cons word words =>
      obtain ⟨outer, unbound, whole⟩ := scanWords_path_ok scanned (by simp) word leads
        ((given "store" outside).map Setting.binding)
      have between : (outer.findSome? fun layer => layer.first? "store") = none := by
        rw [List.findSome?_eq_none_iff]
        intro layer member
        rw [Layer.first?, unbound layer member]
        rfl
      have atTop : (Layer.mk .top ((given "store" outside).map Setting.binding)).first? "store" =
          outside := by
        cases outside <;> rfl
      rw [parse, scanWords_store named, whole]
      simp only [ofLayers, List.cons_append, List.findSome?_cons, List.findSome?_append, tells,
        between, atTop]
      cases layer.first? "store" <;> cases outside <;> rfl

end Top

section Leaf

variable {level : Level} {one other : Bindings}
    (same : ∀ name, one.values? name = other.values? name)
include same

theorem accepts_congr : level.accepts one = level.accepts other := by
  simp only [Level.accepts, Bindings.isBound, same]

theorem first?_congr (name : String) :
    (Layer.mk level one).first? name = (Layer.mk level other).first? name := by
  simp only [Layer.first?, same]

theorem command?_congr : (Layer.mk level one).command? = (Layer.mk level other).command? := by
  have isSet (name : String) : (Layer.mk level one).isSet name =
      (Layer.mk level other).isSet name := by
    simp only [Layer.isSet, Bindings.isBound, same]
  have all (name : String) : (Layer.mk level one).all name = (Layer.mk level other).all name := by
    simp only [Layer.all, same]
  cases level <;>
    simp only [Layer.command?, Layer.actionOn?, Layer.period?, Layer.facet, first?_congr same,
      isSet, all]

end Leaf

namespace Form

variable {form : Form} {places : Bindings} {command : Command}

theorem names_binding (settings : List Setting) :
    (settings.map Setting.binding).map Prod.fst = settings.map Setting.name := by
  rw [List.map_map]
  rfl

theorem Fits.distinct_bound (fits : form.Fits places) (store : Option String) :
    ((form.bound store places).map Prod.fst).Nodup := by
  rw [bound, List.map_append, names_binding, List.map_append, List.append_assoc]
  cases store with
  | none => exact (List.nodup_cons.mp fits.distinct).2
  | some text => exact fits.distinct

theorem Tells.first?_store (tells : form.Tells places command) (store : Option String) :
    (Layer.mk form.level (form.bound store places)).first? "store" = store := by
  have fresh : Bindings.values? (form.settings.map Setting.binding ++ places) "store" = none := by
    rw [Bindings.values?_eq_none_iff, List.map_append, names_binding]
    exact (List.nodup_cons.mp tells.distinct).1
  rw [Layer.first?, bound, List.map_append, List.append_assoc, Bindings.values?_append, fresh,
    values?_given, if_pos rfl]
  cases store <;> rfl

/-- The innermost level of a line for a form, with its options in any order and perhaps with an
index among them, comes to its end with the same names bound to the same values. -/
theorem Fits.scanned (fits : form.Fits places) {store : Option String} (named : store ≠ some "")
    {settings : List Setting} (anyOrder : settings.Perm (given "store" store ++ form.settings)) :
    ∃ bindings : Bindings,
      (∀ name, bindings.values? name = (form.bound store places).values? name) ∧
      ∀ outcome, (∀ (last : Scan) (place : Nat), last.settle = .ok (.past bindings place) →
          finish form.level last [] = outcome) →
        scanWords form.level .start (settings.map Setting.word ++ "--" :: form.places) =
          outcome := by
  have perm : (settings.map Setting.binding ++ places).Perm (form.bound store places) :=
    (anyOrder.map Setting.binding).append_right places
  have distinct : ((settings.map Setting.binding ++ places).map Prod.fst).Nodup :=
    (perm.map Prod.fst).nodup_iff.mpr (fits.distinct_bound store)
  have known : ∀ setting ∈ settings, form.level.Knows setting := by
    intro setting member
    rcases List.mem_append.mp (anyOrder.mem_iff.mp member) with isStore | own
    · exact knows_store form.level named setting isStore
    · exact fits.known setting own
  refine ⟨_, Bindings.values?_eq_of_perm perm distinct, ?_⟩
  intro outcome ends
  rw [List.map_append, names_binding] at distinct
  rw [scanWords_options known (List.nodup_append.mp distinct).1]
  exact scanWords_laid fits.laid (Scan.sound_past _ 0) rfl (by rwa [names_binding]) ends

theorem Tells.scanned (tells : form.Tells places command) {store : Option String}
    (named : store ≠ some "") {settings : List Setting}
    (anyOrder : settings.Perm (given "store" store ++ form.settings)) :
    ∃ layer,
      scanWords form.level .start (settings.map Setting.word ++ "--" :: form.places) = .ok [layer] ∧
      layer.command? = some command ∧ layer.first? "store" = store := by
  obtain ⟨bindings, same, scanned⟩ := tells.toFits.scanned named anyOrder
  refine ⟨⟨form.level, bindings⟩, ?_, ?_, ?_⟩
  · apply scanned
    intro last place settles
    apply finish_accepted settles
    rw [accepts_congr same]
    exact tells.accepted store
  · rw [command?_congr same]
    exact tells.tells store
  · rw [first?_congr same]
    exact tells.first?_store store

/-- Wherever the index is named, it is the index of the line. -/
theorem Line.exists_placing {store : Option String} {line : List String}
    (written : form.Line store line) (named : store ≠ some "") :
    ∃ (outside inside : Option String) (path : List String) (settings : List Setting),
      outside ≠ some "" ∧ inside ≠ some "" ∧ inside.or outside = store ∧ path ∈ form.level.paths ∧
      settings.Perm (given "store" inside ++ form.settings) ∧
      line = (given "store" outside).map Setting.word ++
        (path ++ (settings.map Setting.word ++ "--" :: form.places)) := by
  cases written with
  | before leads anyOrder => exact ⟨store, none, _, _, named, nofun, Option.none_or, leads,
      anyOrder, rfl⟩
  | among leads anyOrder => exact ⟨none, store, _, _, nofun, named, Option.or_none, leads, anyOrder,
      rfl⟩

theorem exists_line (form : Form) (store : Option String) (below : form.level.paths ≠ []) :
    ∃ line, form.Line store line := by
  obtain ⟨path, leads⟩ := List.exists_mem_of_ne_nil _ below
  exact ⟨_, .before leads (List.Perm.refl _)⟩

theorem Tells.parse_line (tells : form.Tells places command) {store : Option String}
    (named : store ≠ some "")
    {line : List String} (written : form.Line store line) : parse line = .ok ⟨store, command⟩ := by
  obtain ⟨outside, inside, path, settings, outsideNamed, insideNamed, chosen, leads, anyOrder,
      rfl⟩ :=
    written.exists_placing named
  obtain ⟨layer, scanned, told, held⟩ := tells.scanned insideNamed anyOrder
  rw [parse_of_ok outsideNamed leads scanned told, held, chosen]

/-- A text that is no period is refused in the place of one. -/
theorem parse_no_period {text : String} {fault : PeriodFault}
    (refused : Period.read text = .error fault)
    {code : String} {inputs : List String} {store : Option String} (named : store ≠ some "")
    {line : List String}
    (written : (scheduling code text inputs).Line store line) :
    parse line = .error .valueValidation := by
  obtain ⟨outside, inside, path, settings, outsideNamed, insideNamed, chosen, leads, anyOrder,
      rfl⟩ :=
    written.exists_placing named
  apply parse_of_error outsideNamed leads
  -- there are no options here but the index
  obtain rfl : settings = given "store" inside := by
    cases inside with
    | none => exact anyOrder.eq_nil
    | some text => exact List.perm_singleton.mp anyOrder
  rw [scanWords_options (knows_store _ insideNamed) (by cases inside <;> simp [given])]
  have codeFresh : "code" ∉ ((given "store" inside).map Setting.binding).map Prod.fst := by
    cases inside <;> simp [given, Setting.binding]
  have periodFresh : "period" ∉
      ((given "store" inside).map Setting.binding ++ [("code", [code])]).map Prod.fst := by
    cases inside <;> simp [given, Setting.binding]
  have unfit : Shape.period.fault? text = some .valueValidation := by simp [Shape.fault?, refused]
  have first : Level.robotSchedule.slots[0]? = some ⟨"code", .text, false⟩ := rfl
  have second : Level.robotSchedule.slots[1]? = some ⟨"period", .period, false⟩ := rfl
  have coded : (Scan.holding ((given "store" inside).map Setting.binding) ⟨"code", .text, false⟩
      [code] 1).Sound ((given "store" inside).map Setting.binding ++ [("code", [code])]) 1 :=
    Scan.sound_holding rfl codeFresh rfl
  rw [scheduling, scanWords_place (Scan.sound_past _ 0) first]
  exact scanWords_unfit coded second rfl rfl periodFresh unfit inputs

/-- The two options that ask for one source alone are refused together. -/
theorem parse_rivals {code : String} {store : Option String} (named : store ≠ some "")
    {line : List String} (written : (of (.showRobot code .sources)).Line store line) :
    parse line = .error .argumentConflict := by
  obtain ⟨outside, inside, path, settings, outsideNamed, insideNamed, chosen, leads, anyOrder,
      rfl⟩ :=
    written.exists_placing named
  apply parse_of_error outsideNamed leads
  obtain ⟨bindings, same, scanned⟩ := (fits_showRobot code .sources).scanned insideNamed anyOrder
  apply scanned
  intro last place settles
  apply finish_rivals settles rfl
  simp only [Bindings.isBound, same]
  cases inside <;> rfl

end Form

/-! ## All lines -/

/-- Every command can be written, and however it is written it is read back, with its index,
unless it asks for both sources of a robot alone: such a line is refused.  A periodical execution
is written with any text in the place of its period, and is refused if the text is no period. -/
theorem lines_read_back :
    (∀ (command : Command) (store : Option String),
      ∃ line, (Form.of command).Line store line) ∧
    (∀ (command : Command) (store : Option String) (line : List String), store ≠ some "" →
      command.source ≠ .file "" → (∀ code, command ≠ .showRobot code .sources) →
      (Form.of command).Line store line → parse line = .ok ⟨store, command⟩) ∧
    (∀ (code : String) (store : Option String) (line : List String), store ≠ some "" →
      (Form.of (.showRobot code .sources)).Line store line →
        parse line = .error .argumentConflict) ∧
    ∀ (code text : String) (inputs : List String) (store : Option String) (line : List String),
      store ≠ some "" → (Form.scheduling code text inputs).Line store line →
        parse line =
          match Period.read text with
          | .ok period => .ok ⟨store, .scheduleRobot code period inputs⟩
          | .error _ => .error .valueValidation := by
  refine ⟨?_, ?_, ?_, ?_⟩
  · intro command store
    apply Form.exists_line
    cases command <;> exact List.cons_ne_nil _ _
  · intro command store line named definition single written
    obtain ⟨places, tells⟩ := Form.exists_tells command definition single
    exact tells.parse_line named written
  · intro code store line named written
    exact Form.parse_rivals named written
  · intro code text inputs store line named written
    cases read : Period.read text with
    | ok period => exact (Form.tells_scheduling read code inputs).parse_line named written
    | error fault => exact Form.parse_no_period read named written

/-! An index among the options, options in another order, inputs that look like options, options
that do not go together, and a text that is no period. -/

def once : Command := .executeOnce (some "http://x") (some "f") ["", "--", "--json"]

theorem lines_read_back_once :
    (Form.of once).Line (some "/tmp/s")
      ["execute", "--file=f", "--store=/tmp/s", "--server=http://x", "--", "", "--", "--json"] ∧
    parse ["execute", "--file=f", "--store=/tmp/s", "--server=http://x", "--", "", "--", "--json"] =
      .ok ⟨some "/tmp/s", once⟩ ∧
    parse ["robot", "show", "--minilanguage", "--xml", "--", "c"] = .error .argumentConflict ∧
    parse ["robot", "create-periodical", "--", "c", "2 weeks"] = .error .valueValidation := by
  have leads : ["execute"] ∈ Level.executeOnce.paths := by decide
  have anyOrder : List.Perm [⟨"file", some "f"⟩, ⟨"store", some "/tmp/s"⟩,
      ⟨"server", some "http://x"⟩] (given "store" (some "/tmp/s") ++ (Form.of once).settings) := by
    decide
  have written : (Form.of once).Line (some "/tmp/s")
      ["execute", "--file=f", "--store=/tmp/s", "--server=http://x", "--", "", "--", "--json"] :=
    .among leads anyOrder
  have leadsToShow : ["robot", "show"] ∈ Level.robotShow.paths := by decide
  have bothFlags : List.Perm [⟨"minilanguage", none⟩, ⟨"xml", none⟩]
      (Form.of (.showRobot "c" .sources)).settings := by
    decide
  have leadsToSchedule : ["robot", "create-periodical"] ∈ Level.robotSchedule.paths := by decide
  have noOptions : List.Perm [] (Form.scheduling "c" "2 weeks" []).settings := List.Perm.refl []
  have scheduled : (Form.scheduling "c" "2 weeks" []).Line none
      ["robot", "create-periodical", "--", "c", "2 weeks"] :=
    .before leadsToSchedule noOptions
  obtain ⟨-, reads, conflicts, schedules⟩ := lines_read_back
  refine ⟨written, reads once (some "/tmp/s") _ (by decide) (by decide) nofun written, ?_, ?_⟩
  · exact conflicts "c" none _ (by decide) (.before leadsToShow bothFlags)
  · rw [schedules "c" "2 weeks" [] none _ (by decide) scheduled]
    decide

end RobotConsole.CommandLine
