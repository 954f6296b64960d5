import RobotConsole.Proofs.Layouts
import RobotConsole.Report

/-!
# The layouts of reports

A report on a robot, an execution or a periodical execution is exactly what a JSON value tells by
the layout of such reports: a value is accepted if what it gives under the names of the slots is of
their kinds, and under no two names for the same slot, and whatever else an object holds does not
count.  Reports that come as arrays tell the same as objects with the same values, and may end
early.
-/

set_option autoImplicit false

namespace RobotConsole.Report

section Kinds

variable {Record : Type} (name : String)

def Slot.text (get : Record → String) : Slot Record := ⟨name, [], String, IsText, "", get⟩

def Slot.long (aliases : List String) (get : Record → Int) : Slot Record :=
  ⟨name, aliases, Int, IsLong, 0, get⟩

def Slot.optional {Value : Type} (means : Meaning Value) (get : Record → Option Value) :
    Slot Record :=
  ⟨name, [], Option Value, OrNull means, none, get⟩

def Slot.texts (get : Record → List String) : Slot Record :=
  ⟨name, [], List String, ListOf IsText, [], get⟩

end Kinds

theorem reads_optional_text : Fit.Reads (fitOptional fitText) (OrNull IsText) :=
  reads_optional reads_text nofun

theorem reads_optional_count : Fit.Reads (fitOptional fitCount) (OrNull IsCount) :=
  reads_optional reads_count fun _ count => Json.noConfusion count.1

theorem reads_texts : Fit.Reads (fitList fitText) (ListOf IsText) :=
  reads_list reads_text

/-! ## Robots -/

def Robot.layout : Layout Robot :=
  [ .text "code" Robot.code,
    .long "creationDateMillis" [] Robot.createdMillis,
    .optional "robotXML" IsText Robot.xml,
    .optional "robotInMinilanguage" IsText Robot.minilanguage ]

theorem Robot.covers : Robot.layout.Covers where
  compose found := by
    refine ⟨⟨found (.text "code" Robot.code),
      found (.long "creationDateMillis" [] Robot.createdMillis),
      found (.optional "robotXML" IsText Robot.xml),
      found (.optional "robotInMinilanguage" IsText Robot.minilanguage)⟩, ?_⟩
    simp [Robot.layout, Slot.text, Slot.long, Slot.optional]
  ext one other same := by
    cases one
    cases other
    simpa [Robot.layout, Slot.text, Slot.long, Slot.optional] using same
  apart := by
    simp [Robot.layout, Slot.names, Slot.text, Slot.long, Slot.optional]

theorem Robot.schema_follows : Robot.schema.Follows Robot.layout where
  covers := Robot.covers
  fills := by
    refine .cons (Field.fills_of Robot.covers reads_text ?_ ?_ ?_) <|
      .cons (Field.fills_of Robot.covers reads_long ?_ ?_ ?_) <|
      .cons (Field.fills_of Robot.covers reads_optional_text ?_ ?_ ?_) <|
      .cons (Field.fills_of Robot.covers reads_optional_text ?_ ?_ ?_) .nil
    all_goals simp [Robot.layout, Slot.text, Slot.long, Slot.optional]
  absent := by
    simp [Robot.layout, Robot.schema, Slot.text, Slot.long, Slot.optional]

/-! ## Executions -/

def Execution.layout : Layout Execution :=
  [ .long "creationDateMillis" ["date"] Execution.createdMillis,
    .long "executionTime" [] Execution.durationMillis,
    .optional "createdFrom" IsText Execution.origin,
    .texts "inputs" Execution.inputs,
    .texts "resultLines" Execution.resultLines ]

theorem Execution.covers : Execution.layout.Covers where
  compose found := by
    refine ⟨⟨found (.long "creationDateMillis" ["date"] Execution.createdMillis),
      found (.long "executionTime" [] Execution.durationMillis),
      found (.optional "createdFrom" IsText Execution.origin),
      found (.texts "inputs" Execution.inputs), found (.texts "resultLines" Execution.resultLines)⟩,
      ?_⟩
    simp [Execution.layout, Slot.long, Slot.optional, Slot.texts]
  ext one other same := by
    cases one
    cases other
    simpa [Execution.layout, Slot.long, Slot.optional, Slot.texts] using same
  apart := by
    simp [Execution.layout, Slot.names, Slot.long, Slot.optional, Slot.texts]

theorem Execution.schema_follows : Execution.schema.Follows Execution.layout where
  covers := Execution.covers
  fills := by
    refine .cons (Field.fills_of Execution.covers reads_long ?_ ?_ ?_) <|
      .cons (Field.fills_of Execution.covers reads_long ?_ ?_ ?_) <|
      .cons (Field.fills_of Execution.covers reads_optional_text ?_ ?_ ?_) <|
      .cons (Field.fills_of Execution.covers reads_texts ?_ ?_ ?_) <|
      .cons (Field.fills_of Execution.covers reads_texts ?_ ?_ ?_) .nil
    all_goals simp [Execution.layout, Slot.long, Slot.optional, Slot.texts]
  absent := by
    simp [Execution.layout, Execution.schema, Slot.long, Slot.optional, Slot.texts]

/-- Null tells no record. -/
theorem reads_optional_execution :
    Fit.Reads (fitOptional Execution.schema.fit) (OrNull Execution.layout.Tells) :=
  reads_optional Execution.schema_follows.reads nofun

/-! ## Periodical executions -/

def Periodical.layout : Layout Periodical :=
  [ .text "code" Periodical.code,
    .long "creationDateMillis" [] Periodical.createdMillis,
    .optional "robot" IsText Periodical.robot,
    .optional "periodUnit" IsText Periodical.periodUnit,
    .optional "periodAmount" IsCount Periodical.periodAmount,
    .texts "inputs" Periodical.inputs,
    .optional "lastExecutionResult" Execution.layout.Tells Periodical.lastExecution ]

theorem Periodical.covers : Periodical.layout.Covers where
  compose found := by
    refine ⟨⟨found (.text "code" Periodical.code),
      found (.long "creationDateMillis" [] Periodical.createdMillis),
      found (.optional "robot" IsText Periodical.robot),
      found (.optional "periodUnit" IsText Periodical.periodUnit),
      found (.optional "periodAmount" IsCount Periodical.periodAmount),
      found (.texts "inputs" Periodical.inputs),
      found (.optional "lastExecutionResult" Execution.layout.Tells Periodical.lastExecution)⟩, ?_⟩
    simp [Periodical.layout, Slot.text, Slot.long, Slot.optional, Slot.texts]
  ext one other same := by
    cases one
    cases other
    simpa [Periodical.layout, Slot.text, Slot.long, Slot.optional, Slot.texts] using same
  apart := by
    simp [Periodical.layout, Slot.names, Slot.text, Slot.long, Slot.optional, Slot.texts]

theorem Periodical.schema_follows : Periodical.schema.Follows Periodical.layout where
  covers := Periodical.covers
  fills := by
    refine .cons (Field.fills_of Periodical.covers reads_text ?_ ?_ ?_) <|
      .cons (Field.fills_of Periodical.covers reads_long ?_ ?_ ?_) <|
      .cons (Field.fills_of Periodical.covers reads_optional_text ?_ ?_ ?_) <|
      .cons (Field.fills_of Periodical.covers reads_optional_text ?_ ?_ ?_) <|
      .cons (Field.fills_of Periodical.covers reads_optional_count ?_ ?_ ?_) <|
      .cons (Field.fills_of Periodical.covers reads_texts ?_ ?_ ?_) <|
      .cons (Field.fills_of Periodical.covers reads_optional_execution ?_ ?_ ?_) .nil
    all_goals simp [Periodical.layout, Slot.text, Slot.long, Slot.optional, Slot.texts]
  absent := by
    simp [Periodical.layout, Periodical.schema, Slot.text, Slot.long, Slot.optional, Slot.texts]

/-! ## Reports -/

theorem Robot.namedOnce (members : List (String × Json)) :
    ∀ slot ∈ Robot.layout, slot.NamedOnce members := by
  intro slot inside
  apply Slot.namedOnce_of_no_aliases
  revert slot
  simp [Robot.layout, Slot.text, Slot.long, Slot.optional]

theorem Periodical.namedOnce (members : List (String × Json)) :
    ∀ slot ∈ Periodical.layout, slot.NamedOnce members := by
  intro slot inside
  apply Slot.namedOnce_of_no_aliases
  revert slot
  simp [Periodical.layout, Slot.text, Slot.long, Slot.optional, Slot.texts]

/-- Only the date of an execution goes by two names. -/
theorem Execution.namedOnce_iff (members : List (String × Json)) :
    (∀ slot ∈ Execution.layout, slot.NamedOnce members) ↔
      ¬ ("creationDateMillis" ∈ members.map Prod.fst ∧ "date" ∈ members.map Prod.fst) := by
  constructor
  · rintro once ⟨long, short⟩
    have same := once _ List.mem_cons_self "creationDateMillis" (by decide) "date"
        (by decide) long short
    exact absurd same (by decide)
  · intro single slot inside
    rcases List.mem_cons.mp inside with rfl | other
    · intro one first other second oneKey otherKey
      simp only [Slot.names, Slot.long, List.mem_cons, List.not_mem_nil, or_false] at first second
      rcases first with rfl | rfl <;> rcases second with rfl | rfl
      · rfl
      · exact absurd ⟨oneKey, otherKey⟩ single
      · exact absurd ⟨otherKey, oneKey⟩ single
      · rfl
    · apply Slot.namedOnce_of_no_aliases
      clear inside
      revert slot
      simp [Slot.long, Slot.optional, Slot.texts]

/-- An object is accepted as a report just when what it gives under the names of the layout is of
the right kinds, and it does not date an execution in two ways; and reports are what objects and
arrays tell by their layouts. -/
theorem reports_are_read_by_their_layouts :
    (∀ members : List (String × Json), (members.map Prod.fst).Nodup →
      ((∃ report, Robot.ofJson (.object members) = .ok report) ↔ Robot.layout.Admits members) ∧
      ((∃ report, Execution.ofJson (.object members) = .ok report) ↔
        Execution.layout.Admits members ∧
          ¬ ("creationDateMillis" ∈ members.map Prod.fst ∧ "date" ∈ members.map Prod.fst)) ∧
      ((∃ report, Periodical.ofJson (.object members) = .ok report) ↔
        Periodical.layout.Admits members)) ∧
    Robot.layout.ReadBy Robot.ofJson ∧ Execution.layout.ReadBy Execution.ofJson ∧
      Periodical.layout.ReadBy Periodical.ofJson := by
  refine ⟨?_, Robot.schema_follows.readBy, Execution.schema_follows.readBy,
    Periodical.schema_follows.readBy⟩
  intro members distinct
  refine ⟨?_, ?_, ?_⟩
  · exact (Robot.schema_follows.accepts_iff distinct).trans (and_iff_left (Robot.namedOnce members))
  · exact (Execution.schema_follows.accepts_iff distinct).trans
      (and_congr_right' (Execution.namedOnce_iff members))
  · exact (Periodical.schema_follows.accepts_iff distinct).trans
      (and_iff_left (Periodical.namedOnce members))

theorem reports_are_read_by_their_layouts_dated :
    (["date", "shape"].Nodup ∧ "creationDateMillis" ∉ ["date", "shape"]) ∧
      ∃ report, Execution.ofJson (.object [("date", .integer 5), ("shape", .null)]) =
        .ok report := by
  have distinct : ["date", "shape"].Nodup := by decide
  have undated : "creationDateMillis" ∉ ["date", "shape"] := by decide
  refine ⟨⟨distinct, undated⟩, ?_⟩
  refine ((reports_are_read_by_their_layouts.1
    [("date", .integer 5), ("shape", .null)] distinct).2.1).mpr ⟨?_, ?_⟩
  · simp [Execution.layout, Layout.Admits, Slot.names, Slot.long, Slot.optional, Slot.texts, IsLong,
      IsWhole]
  · exact fun both => undated both.1

end RobotConsole.Report
