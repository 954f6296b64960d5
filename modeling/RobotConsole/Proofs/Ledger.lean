import RobotConsole.Proofs.CommandEffect
import RobotConsole.Proofs.NewestFirst

/-!
# Rows under their numbers

A database keeps every row of a table under a number.  A new row gets a number above all those in
its table, so the number of a row that was deleted may come again.  A ledger is an index kept in
this way, and notes for every row how many operations came before the one that added it.  Whatever
is added and deleted, numbers and moments rise together along a table; so the order by time and
number, in which a database lists rows, is the order by time and moment.
-/

set_option autoImplicit false

namespace RobotConsole.Index

/-! ## Operations on a store -/

inductive Operation where
  | addRobot (now : Int) (url definition : String)
  | addExecution (now : Int) (robot url : String) (inputs : List String)
  | addPeriodical (now : Int) (robot url period : String) (inputs : List String)
  | deleteRobot (code : String)
  | deleteExecution (code : String)
  | deletePeriodical (code : String)
  deriving DecidableEq, Repr

namespace Operation

def run (store : Store) : Operation → Store
  | .addRobot now url definition => ((Keep.addRobot now url definition).run store).2
  | .addExecution now robot url inputs => ((Keep.addExecution now robot url inputs).run store).2
  | .addPeriodical now robot url period inputs =>
      ((Keep.addPeriodical now robot url period inputs).run store).2
  | .deleteRobot code => ((Keep.deleteRobot code).run store).2
  | .deleteExecution code => ((Keep.deleteExecution code).run store).2
  | .deletePeriodical code => ((Keep.deletePeriodical code).run store).2

def runAll (history : List Operation) (store : Store) : Store :=
  history.foldl run store

/-- The change that an operation makes to the tables; none if the address of a new resource has no
code. -/
def change? : Operation → Option Change
  | .addRobot now url definition =>
      (Code.find? url).map fun code => .addRobot ⟨code, url, now, summarize definition⟩
  | .addExecution now robot url inputs =>
      (Code.find? url).map fun code => .addExecution ⟨code, robot, url, Text.quoteList inputs, now⟩
  | .addPeriodical now robot url period inputs =>
      (Code.find? url).map fun code =>
        .addPeriodical ⟨code, robot, url, period, Text.quoteList inputs, now⟩
  | .deleteRobot code => some (.dropRobot code)
  | .deleteExecution code => some (.dropExecution code)
  | .deletePeriodical code => some (.dropPeriodical code)

end Operation

theorem Keep.add_run_sound (url : String) (push : String → Tables → Tables) (tables : Tables) :
    ((add url push).run (.sound tables)).2 =
      match Code.find? url with
      | none => .sound tables
      | some code => .sound (push code tables) := by
  cases coded : Code.find? url with
  | none => simp only [add, bind_run, codeOf_run, coded]
  | some code => rw [add_sound url code push tables coded]

theorem Operation.run_sound (operation : Operation) (tables : Tables) :
    operation.run (.sound tables) =
      match operation.change? with
      | none => .sound tables
      | some change => .sound (change.apply tables) := by
  -- an adding operation is an instance of `Keep.add`
  have adding : ∀ (url : String) (change : String → Change),
      ((Keep.add url fun code tables => (change code).apply tables).run (.sound tables)).2 =
        match (Code.find? url).map change with
        | none => .sound tables
        | some change => .sound (change.apply tables) := by
    intro url change
    rw [Keep.add_run_sound]
    cases Code.find? url <;> rfl
  cases operation with
  | addRobot now url definition =>
      exact adding url fun code => .addRobot ⟨code, url, now, summarize definition⟩
  | addExecution now robot url inputs =>
      exact adding url fun code => .addExecution ⟨code, robot, url, Text.quoteList inputs, now⟩
  | addPeriodical now robot url period inputs =>
      exact adding url fun code =>
        .addPeriodical ⟨code, robot, url, period, Text.quoteList inputs, now⟩
  | deleteRobot code =>
      exact congrArg Prod.snd (Keep.forM_changing_sound (Tables.deletionSteps code) tables)
  | deleteExecution code => rfl
  | deletePeriodical code => rfl

/-! ## Numbers and moments -/

structure Entry (Row : Type) where
  number : Nat
  moment : Nat
  row : Row
  deriving DecidableEq, Repr

/-- How a database numbers a new row: above all numbers in the table. -/
structure Numbering where
  next : List Nat → Nat
  above : ∀ (numbers : List Nat) (number : Nat), number ∈ numbers → number < next numbers

def Numbering.greatest : Numbering where
  next numbers := numbers.foldr max 0 + 1
  above numbers number member := by
    induction numbers with
    | nil => cases member
    | cons first rest ih =>
        rw [List.foldr_cons]
        rcases List.mem_cons.mp member with rfl | member
        · omega
        · have := ih member
          omega

section Entries

variable {Row : Type}

/-- Along the entries numbers and moments rise, and no entry is later than a moment. -/
structure Rising (moment : Nat) (entries : List (Entry Row)) : Prop where
  rise : entries.Pairwise fun first second => first.number < second.number ∧
    first.moment < second.moment
  past : ∀ entry ∈ entries, entry.moment < moment

namespace Rising

variable {moment : Nat} {entries : List (Entry Row)}

theorem nil : Rising moment ([] : List (Entry Row)) :=
  ⟨List.Pairwise.nil, fun _ member => absurd member List.not_mem_nil⟩

theorem later (rising : Rising moment entries) : Rising (moment + 1) entries :=
  ⟨rising.rise, fun entry member => Nat.lt_succ_of_lt (rising.past entry member)⟩

theorem thinned (rising : Rising moment entries) (keep : Entry Row → Bool) :
    Rising (moment + 1) (entries.filter keep) :=
  ⟨rising.rise.filter keep, fun entry member =>
    rising.later.past entry (List.mem_of_mem_filter member)⟩

theorem entered (rising : Rising moment entries) (numbering : Numbering) (row : Row) :
    Rising (moment + 1) (entries ++
      [⟨numbering.next (entries.map Entry.number), moment, row⟩]) := by
  constructor
  · apply List.pairwise_append.mpr
    refine ⟨rising.rise, List.pairwise_singleton _ _, ?_⟩
    intro entry member new isNew
    rw [List.mem_singleton.mp isNew]
    exact ⟨numbering.above _ _ (List.mem_map_of_mem member), rising.past entry member⟩
  · intro entry member
    rcases List.mem_append.mp member with old | isNew
    · exact rising.later.past entry old
    · rw [List.mem_singleton.mp isNew]
      exact Nat.lt_succ_self moment

end Rising

/-! ## Ordering by time and number -/

/-- An entry stands in front of another: it is newer, or of the same time and added later, under a
higher number. -/
def Entry.Precedes (created : Row → Int) (first second : Entry Row) : Prop :=
  created second.row < created first.row ∨
    created second.row = created first.row ∧ second.number < first.number ∧
      second.moment < first.moment

/-- The rows are those of the entries, each once, in the order by time and number. -/
def Lists (created : Row → Int) (entries : List (Entry Row)) (rows : List Row) : Prop :=
  ∃ ordered, List.Perm ordered entries ∧ ordered.Pairwise (Entry.Precedes created) ∧
    ordered.map Entry.row = rows

variable {created : Row → Int}

theorem newestFirst_map {Source : Type} (row : Source → Row) (sources : List Source) :
    newestFirst created (sources.map row) =
      (newestFirst (fun source => created (row source)) sources).map row := by
  induction sources using List.reverseRecOn with
  | nil => rfl
  | append_singleton sources source ih =>
      rw [List.map_append, List.map_singleton, newestFirst_push, newestFirst_push, ih]
      exact (map_splice created row source _).symm

theorem precedes_newestFirst {entries : List (Entry Row)}
    (rise : entries.Pairwise fun first second => first.number < second.number ∧
      first.moment < second.moment) :
    (newestFirst (fun entry => created entry.row) entries).Pairwise (Entry.Precedes created) := by
  induction entries using List.reverseRecOn with
  | nil => exact List.Pairwise.nil
  | append_singleton entries entry ih =>
      obtain ⟨rise, -, before⟩ := List.pairwise_append.mp rise
      have ordered := ih rise
      rw [newestFirst_push]
      apply List.pairwise_append.mpr
      refine ⟨ordered.filter _, List.pairwise_cons.mpr ⟨?_, ordered.filter _⟩, ?_⟩
      · -- the new entry is later than all others, so it precedes those of its own time too
        intro old member
        obtain ⟨listed, late⟩ := List.mem_filter.mp member
        have among : old ∈ entries := (mem_newestFirst _ old entries).mp listed
        obtain ⟨number, moment⟩ := before old among entry (List.mem_singleton_self entry)
        rcases Int.lt_or_eq_of_le (of_decide_eq_true late) with older | same
        · exact Or.inl older
        · exact Or.inr ⟨same, number, moment⟩
      · intro newer early other late
        have above := of_decide_eq_true (List.mem_filter.mp early).2
        rcases List.mem_cons.mp late with rfl | late
        · exact Or.inl above
        · have below := of_decide_eq_true (List.mem_filter.mp late).2
          exact Or.inl (Int.lt_of_le_of_lt below above)

theorem Rising.lists {moment : Nat} {entries : List (Entry Row)} (rising : Rising moment entries)
    (created : Row → Int) : Lists created entries
    (newestFirst created (entries.map Entry.row)) := by
  refine ⟨newestFirst (fun entry => created entry.row) entries, newestFirst_perm _ entries, ?_, ?_⟩
  · exact precedes_newestFirst rising.rise
  · exact (newestFirst_map Entry.row entries).symm

end Entries

/-! ## Ledgers -/

structure Ledger where
  moment : Nat
  robots : List (Entry RobotRow)
  executions : List (Entry ExecutionRow)
  periodicals : List (Entry PeriodicalRow)

namespace Ledger

def empty : Ledger := ⟨0, [], [], []⟩

def tables (ledger : Ledger) : Tables :=
  ⟨ledger.robots.map Entry.row, ledger.executions.map Entry.row, ledger.periodicals.map Entry.row⟩

def enter {Row : Type} (numbering : Numbering) (ledger : Ledger) (row : Row)
    (entries : List (Entry Row)) : List (Entry Row) :=
  entries ++ [⟨numbering.next (entries.map Entry.number), ledger.moment, row⟩]

def make (numbering : Numbering) (ledger : Ledger) : Change → Ledger
  | .addRobot row => { ledger with robots := ledger.enter numbering row ledger.robots }
  | .addExecution row => { ledger with executions := ledger.enter numbering row ledger.executions }
  | .addPeriodical row =>
      { ledger with periodicals := ledger.enter numbering row ledger.periodicals }
  | .dropRobot code =>
      { ledger with
        robots := ledger.robots.filter fun entry => entry.row.code != code
        executions := ledger.executions.filter fun entry => entry.row.robot != code
        periodicals := ledger.periodicals.filter fun entry => entry.row.robot != code }
  | .dropExecution code =>
      { ledger with executions := ledger.executions.filter fun entry => entry.row.code != code }
  | .dropPeriodical code =>
      { ledger with periodicals := ledger.periodicals.filter fun entry => entry.row.code != code }

/-- Takes one operation into the ledger. -/
def take (numbering : Numbering) (ledger : Ledger) (operation : Operation) : Ledger :=
  match operation.change? with
  | none => { ledger with moment := ledger.moment + 1 }
  | some change => { ledger.make numbering change with moment := ledger.moment + 1 }

def after (numbering : Numbering) (history : List Operation) : Ledger :=
  history.foldl (take numbering) empty

theorem tables_make (numbering : Numbering) (ledger : Ledger) (change : Change) :
    (ledger.make numbering change).tables = change.apply ledger.tables := by
  cases change <;> simp [make, enter, tables, Change.apply, List.filter_map, Function.comp_def]

theorem tables_take (numbering : Numbering) (ledger : Ledger) (operation : Operation) :
    operation.run (.sound ledger.tables) = .sound (ledger.take numbering operation).tables := by
  rw [Operation.run_sound, take]
  cases operation.change? with
  | none => rfl
  | some change => exact congrArg Store.sound (tables_make numbering ledger change).symm

structure InOrder (ledger : Ledger) : Prop where
  robots : Rising ledger.moment ledger.robots
  executions : Rising ledger.moment ledger.executions
  periodicals : Rising ledger.moment ledger.periodicals

theorem InOrder.take {ledger : Ledger} (ordered : ledger.InOrder) (numbering : Numbering)
    (operation : Operation) :
    (ledger.take numbering operation).InOrder := by
  obtain ⟨robots, executions, periodicals⟩ := ordered
  unfold Ledger.take
  cases operation.change? with
  | none => exact ⟨robots.later, executions.later, periodicals.later⟩
  | some change =>
      cases change with
      | addRobot row => exact ⟨robots.entered numbering row, executions.later, periodicals.later⟩
      | addExecution row => exact ⟨robots.later, executions.entered numbering row,
          periodicals.later⟩
      | addPeriodical row => exact ⟨robots.later, executions.later,
          periodicals.entered numbering row⟩
      | dropRobot code => exact ⟨robots.thinned _, executions.thinned _, periodicals.thinned _⟩
      | dropExecution code => exact ⟨robots.later, executions.thinned _, periodicals.later⟩
      | dropPeriodical code => exact ⟨robots.later, executions.later, periodicals.thinned _⟩

theorem foldl_take (numbering : Numbering) (history : List Operation) (ledger : Ledger)
    (ordered : ledger.InOrder) :
    Operation.runAll history (.sound ledger.tables) =
      .sound (history.foldl (take numbering) ledger).tables ∧
      (history.foldl (take numbering) ledger).InOrder := by
  induction history generalizing ledger with
  | nil => exact ⟨rfl, ordered⟩
  | cons operation rest ih =>
      rw [Operation.runAll, List.foldl_cons, tables_take numbering]
      exact ih (ledger.take numbering operation) (ordered.take numbering operation)

/-- A ledger has the tables that the operations leave, with numbers and moments in order. -/
theorem after_history (numbering : Numbering) (history : List Operation) :
    Operation.runAll history (.sound .empty) = .sound (after numbering history).tables ∧
      (after numbering history).InOrder :=
  foldl_take numbering history empty ⟨.nil, .nil, .nil⟩

end Ledger

end RobotConsole.Index
