import Mathlib.Data.List.Basic
import RobotConsole.Proofs.JsonRoundTrip
import RobotConsole.Proofs.Ledger
import RobotConsole.Proofs.Output
import RobotConsole.Proofs.Recording

/-!
# The listing in JSON tells all of the listing

What the listing in JSON shows is one document and a line break.  Read back, the document is an
array that has an object for every record of the listing, in the order of the listing: with the
columns of the robot's row, and with its executions and periodical executions as arrays of such
objects.  So the records can be told from what is shown, whatever their texts hold.
-/

set_option autoImplicit false

namespace RobotConsole

open Index (Tables Store Operation RobotRow ExecutionRow PeriodicalRow RobotRecord)

/-! ## Records as they are read back -/

namespace Index

/-- An execution as it is read back, with its members in the order of their keys. -/
def ExecutionRow.told (row : ExecutionRow) : Json :=
  .object
    [("code", .string row.code), ("creation_time", .integer row.created),
      ("inputs", .string row.inputs), ("robot_code", .string row.robot), ("url", .string row.url)]

def PeriodicalRow.told (row : PeriodicalRow) : Json :=
  .object
    [("code", .string row.code), ("creation_time", .integer row.created),
      ("inputs", .string row.inputs),
      ("period", .string row.period), ("robot_code", .string row.robot), ("url", .string row.url)]

def RobotRecord.told (record : RobotRecord) : Json :=
  .object
    [("code", .string record.row.code), ("creation_time", .integer record.row.created),
      ("executions", .array (record.executions.map ExecutionRow.told)),
      ("periodicals", .array (record.periodicals.map PeriodicalRow.told)),
      ("summary", .string record.row.summary), ("url", .string record.row.url)]

theorem ExecutionRow.told_injective : Function.Injective ExecutionRow.told := by
  intro one other same
  cases one
  cases other
  simp only [told, Json.object.injEq, List.cons.injEq, Prod.mk.injEq, Json.string.injEq,
    Json.integer.injEq] at same
  simp [same]

theorem PeriodicalRow.told_injective : Function.Injective PeriodicalRow.told := by
  intro one other same
  cases one
  cases other
  simp only [told, Json.object.injEq, List.cons.injEq, Prod.mk.injEq, Json.string.injEq,
    Json.integer.injEq] at same
  simp [same]

theorem RobotRecord.told_injective : Function.Injective RobotRecord.told := by
  intro one other same
  obtain ⟨⟨_, _, _, _⟩, _, _⟩ := one
  obtain ⟨⟨_, _, _, _⟩, _, _⟩ := other
  simp only [told, Json.object.injEq, List.cons.injEq, Prod.mk.injEq, Json.string.injEq,
    Json.integer.injEq,
    Json.array.injEq, ExecutionRow.told_injective.list_map.eq_iff,
    PeriodicalRow.told_injective.list_map.eq_iff] at same
  simp [same]

theorem ExecutionRow.kept_toJson (row : ExecutionRow) : row.toJson.kept = row.told := by
  simp only [toJson, told, Json.kept, Json.keptMembers, Json.sortMembers, List.foldl_cons,
    List.foldl_nil, Json.insertMember, String.reduceLT, String.reduceEq, if_true, if_false]

theorem PeriodicalRow.kept_toJson (row : PeriodicalRow) : row.toJson.kept = row.told := by
  simp only [toJson, told, Json.kept, Json.keptMembers, Json.sortMembers, List.foldl_cons,
    List.foldl_nil, Json.insertMember, String.reduceLT, String.reduceEq, if_true, if_false]

theorem RobotRecord.kept_toJson (record : RobotRecord) : record.toJson.kept = record.told := by
  have executions : Json.keptItems (record.executions.map ExecutionRow.toJson) =
      record.executions.map ExecutionRow.told := by
    rw [Json.keptItems_eq_map, List.map_map]
    exact List.map_congr_left fun row _ => row.kept_toJson
  have periodicals : Json.keptItems (record.periodicals.map PeriodicalRow.toJson) =
      record.periodicals.map PeriodicalRow.told := by
    rw [Json.keptItems_eq_map, List.map_map]
    exact List.map_congr_left fun row _ => row.kept_toJson
  simp only [toJson, told, Json.kept, Json.keptMembers, executions, periodicals, Json.sortMembers,
    List.foldl_cons,
    List.foldl_nil, Json.insertMember, String.reduceLT, String.reduceEq, if_true, if_false]

theorem kept_listingJson (records : List RobotRecord) :
    (listingJson records).kept = .array (records.map RobotRecord.told) := by
  rw [listingJson, Json.kept, Json.keptItems_eq_map, List.map_map]
  exact congrArg Json.array (List.map_congr_left fun record _ => record.kept_toJson)

/-! ## Times of 64 bits -/

def IsTime (seconds : Int) : Prop :=
  -0x8000000000000000 ≤ seconds ∧ seconds ≤ 0x7FFFFFFFFFFFFFFF

/-- All rows were created at times of 64 bits. -/
structure Tables.Timed (tables : Tables) : Prop where
  robots : ∀ row ∈ tables.robots, IsTime row.created
  executions : ∀ row ∈ tables.executions, IsTime row.created
  periodicals : ∀ row ∈ tables.periodicals, IsTime row.created

def AddsTimed : Change → Prop
  | .addRobot row => IsTime row.created
  | .addExecution row => IsTime row.created
  | .addPeriodical row => IsTime row.created
  | .dropRobot _ | .dropExecution _ | .dropPeriodical _ => True

theorem Tables.Timed.apply {tables : Tables} (rows : tables.Timed) {change : Change}
    (adds : AddsTimed change) :
    (change.apply tables).Timed := by
  obtain ⟨robots, executions, periodicals⟩ := rows
  cases change with
  | addRobot row => exact ⟨List.forall_mem_append.mpr ⟨robots, List.forall_mem_singleton.mpr adds⟩,
      executions, periodicals⟩
  | addExecution row =>
      exact ⟨robots, List.forall_mem_append.mpr ⟨executions, List.forall_mem_singleton.mpr adds⟩,
        periodicals⟩
  | addPeriodical row =>
      exact ⟨robots, executions,
        List.forall_mem_append.mpr ⟨periodicals, List.forall_mem_singleton.mpr adds⟩⟩
  | dropRobot code =>
      exact ⟨fun row kept => robots row (List.mem_of_mem_filter kept),
        fun row kept => executions row (List.mem_of_mem_filter kept),
        fun row kept => periodicals row (List.mem_of_mem_filter kept)⟩
  | dropExecution code => exact ⟨robots,
      fun row kept => executions row (List.mem_of_mem_filter kept), periodicals⟩
  | dropPeriodical code => exact ⟨robots, executions,
      fun row kept => periodicals row (List.mem_of_mem_filter kept)⟩

def Operation.Timed : Operation → Prop
  | .addRobot now _ _ => IsTime now
  | .addExecution now _ _ _ => IsTime now
  | .addPeriodical now _ _ _ _ => IsTime now
  | .deleteRobot _ | .deleteExecution _ | .deletePeriodical _ => True

theorem Operation.run_timed {operation : Operation} (timed : operation.Timed) {tables : Tables}
    (rows : tables.Timed) :
    ∃ left, operation.run (.sound tables) = .sound left ∧ left.Timed := by
  have adds : ∀ change, operation.change? = some change → AddsTimed change := by
    intro change due
    cases operation with
    | addRobot now url definition
    | addExecution now robot url inputs
    | addPeriodical now robot url period inputs =>
        obtain ⟨code, -, rfl⟩ := Option.map_eq_some_iff.mp due
        exact timed
    | deleteRobot code | deleteExecution code | deletePeriodical code =>
        obtain rfl := Option.some.inj due
        exact trivial
  rw [run_sound]
  cases due : operation.change? with
  | none => exact ⟨tables, rfl, rows⟩
  | some change => exact ⟨_, rfl, rows.apply (adds change due)⟩

/-- Whatever is added and deleted at times of 64 bits, the rows keep such times. -/
theorem Operation.runAll_timed (history : List Operation)
    (timed : ∀ operation ∈ history, operation.Timed) {tables : Tables} (rows : tables.Timed) :
    ∃ left, Operation.runAll history (.sound tables) = .sound left ∧ left.Timed := by
  induction history generalizing tables with
  | nil => exact ⟨tables, rfl, rows⟩
  | cons operation rest ih =>
      obtain ⟨first, others⟩ := List.forall_mem_cons.mp timed
      obtain ⟨between, ran, timed⟩ := operation.run_timed first rows
      rw [runAll, List.foldl_cons, ran]
      exact ih others timed

theorem IsTime.plain {seconds : Int} (time : IsTime seconds) (height : Nat) :
    Json.Plain height (.integer seconds) :=
  .integer time.1 (by have := time.2; omega)

theorem ExecutionRow.plain {row : ExecutionRow} (time : IsTime row.created) :
    Json.Plain 1 row.toJson := by
  refine .object ?_
  simp only [List.forall_mem_cons]
  exact ⟨.string _, .string _, .string _, .string _, time.plain 0, nofun⟩

theorem PeriodicalRow.plain {row : PeriodicalRow} (time : IsTime row.created) :
    Json.Plain 1 row.toJson := by
  refine .object ?_
  simp only [List.forall_mem_cons]
  exact ⟨.string _, .string _, .string _, .string _, .string _, time.plain 0, nofun⟩

theorem RobotRecord.plain {record : RobotRecord} (time : IsTime record.row.created)
    (executions : ∀ row ∈ record.executions, IsTime row.created)
    (periodicals : ∀ row ∈ record.periodicals, IsTime row.created) :
    Json.Plain 3 record.toJson := by
  have executions : Json.Plain 2 (.array (record.executions.map ExecutionRow.toJson)) :=
    .array (List.forall_mem_map.mpr fun row member => ExecutionRow.plain (executions row member))
  have periodicals : Json.Plain 2 (.array (record.periodicals.map PeriodicalRow.toJson)) :=
    .array (List.forall_mem_map.mpr fun row member => PeriodicalRow.plain (periodicals row member))
  refine .object ?_
  simp only [List.forall_mem_cons]
  exact ⟨.string _, .string _, time.plain 2, .string _, executions, periodicals, nofun⟩

theorem Tables.Timed.plain_listing {tables : Tables} (timed : tables.Timed) :
    Json.Plain 4 (listingJson tables.listing) := by
  refine .array (List.forall_mem_map.mpr ?_)
  intro record listed
  obtain ⟨row, known, rfl⟩ := (Tables.mem_listing tables record).mp listed
  refine RobotRecord.plain (timed.robots row known) ?_ ?_
  · exact fun execution member =>
      timed.executions execution ((Tables.mem_executionsOf tables execution row.code).mp member).1
  · exact fun periodical member =>
      timed.periodicals periodical
        ((Tables.mem_periodicalsOf tables periodical row.code).mp member).1

/-- The listing is read back from its document, with spaces behind it or without. -/
theorem Tables.Timed.read_listing {tables : Tables} (timed : tables.Timed) {spaces : String}
    (blank : ∀ c ∈ spaces.toList, Json.isSpace c = true) :
    Json.read ((listingJson tables.listing).pretty ++ spaces) =
      .ok (.array (tables.listing.map RobotRecord.told)) := by
  rw [timed.plain_listing.read_pretty (by decide) blank, kept_listingJson]

end Index

/-! ## What is shown -/

theorem toList_loop (bytes : ByteArray) (place : Nat) (before : List UInt8) :
    ByteArray.toList.loop bytes place before = before.reverse ++ bytes.data.toList.drop place := by
  rw [ByteArray.toList.loop.eq_def]
  split
  · rename_i inside
    have inside : place < bytes.data.toList.length := inside
    have byte : bytes.get! place = bytes.data.toList[place] := getElem!_pos bytes.data place inside
    rw [toList_loop bytes (place + 1), List.reverse_cons, List.append_assoc,
      List.drop_eq_getElem_cons inside, byte]
    rfl
  · rename_i outside
    have outside : bytes.data.toList.length ≤ place := Nat.not_lt.mp outside
    rw [List.drop_eq_nil_of_le outside, List.append_nil]
termination_by bytes.size - place

theorem toUTF8_toList_inj {one other : String} (same : one.toUTF8.toList = other.toUTF8.toList) :
    one = other := by
  rw [ByteArray.toList, ByteArray.toList, toList_loop, toList_loop] at same
  apply String.toByteArray_inj.mp
  exact ByteArray.ext (Array.toList_inj.mp same)

namespace Command

/-- The document of the listing and a line break are all that is shown, and nothing else happens. -/
theorem perform_listRobots_json (surroundings : Surroundings) {desk : Desk} {tables : Tables}
    (readable : desk.store.tables? = some tables) :
    (listRobots true).perform surroundings desk (Sink.ofRoom none) =
      (.ok (), desk, ⟨none, ((Index.listingJson tables.listing).pretty ++
        "\n").toUTF8.toList⟩) := by
  have ran : ((listRobots true).run surroundings).run desk =
      (.ok (Page.listingJson tables.listing), desk) := by
    simp only [Command.run, Run.listRobots, bind_run, Run.keep_run, Index.Keep.listing,
      Index.Keep.reading_run, readable, Except.mapError, if_true]
    rfl
  rw [perform_eq, ran]
  simp only [Sink.ofRoom, Sink.putPage_unlimited, List.nil_append]
  simp [Page.bytes, Page.listingJson, Sink.lineBytes]

/-- The index that is left of any history of operations, at times of 64 bits, has rows of such
times.  If an index has such rows, the listing in JSON shows a document and a line break, and the
document is read back as the array of all records in their order.  So if the same is shown of two
indexes, they have the same listing. -/
theorem json_listing_tells_all (surroundings : Surroundings) :
    (∀ history : List Operation, (∀ operation ∈ history, operation.Timed) →
      ∃ tables, Operation.runAll history (.sound .empty) = .sound tables ∧ tables.Timed) ∧
    ∀ (desk : Desk) (tables : Tables), desk.store.tables? = some tables → tables.Timed →
      (∃ document : String,
        (listRobots true).perform surroundings desk (Sink.ofRoom none) =
          (.ok (), desk, ⟨none, (document ++ "\n").toUTF8.toList⟩) ∧
        Json.read document = .ok (.array (tables.listing.map RobotRecord.told)) ∧
        Json.read (document ++ "\n") = Json.read document) ∧
      ∀ (other : Desk) (others : Tables), other.store.tables? = some others → others.Timed →
        tables.listing ≠ others.listing →
          ((listRobots true).perform surroundings desk (Sink.ofRoom none)).2.2.shown ≠
            ((listRobots true).perform surroundings other (Sink.ofRoom none)).2.2.shown := by
  have blank : ∀ c ∈ "\n".toList, Json.isSpace c = true := by
    intro c member
    rw [show "\n".toList = ['\n'] from rfl, List.mem_singleton] at member
    rw [member]
    rfl
  refine ⟨?_, ?_⟩
  · intro history timed
    exact Operation.runAll_timed history timed ⟨nofun, nofun, nofun⟩
  · intro desk tables readable timed
    have broken := timed.read_listing blank
    have bare := timed.read_listing (show ∀ c ∈ "".toList, Json.isSpace c = true from nofun)
    rw [String.append_empty] at bare
    refine ⟨⟨_, perform_listRobots_json surroundings readable, bare, broken.trans bare.symm⟩, ?_⟩
    intro other others otherReadable otherTimed different shown
    rw [perform_listRobots_json surroundings readable,
      perform_listRobots_json surroundings otherReadable] at shown
    have otherBroken := otherTimed.read_listing blank
    rw [← toUTF8_toList_inj shown, broken] at otherBroken
    have same : tables.listing.map RobotRecord.told = others.listing.map RobotRecord.told :=
      Json.array.inj (Except.ok.inj otherBroken)
    exact different (Index.RobotRecord.told_injective.list_map same)

def unusualTables : Tables :=
  ⟨[⟨"11111111-1111-1111-1111-111111111111", "http://h/1", 5, "a \"é\"\n\x01"⟩],
    [⟨"22222222-2222-2222-2222-222222222222", "11111111-1111-1111-1111-111111111111",
      "http://h/2", "[]", -7⟩], []⟩

theorem json_listing_tells_all_unusual :
    (∃ tables, Operation.runAll [.addRobot 5 "http://h/" "a"] (.sound .empty) = .sound tables ∧
      tables.Timed) ∧
    ∃ document : String,
      (listRobots true).perform (typed "") ⟨.sound unusualTables, .start [] .unreachable⟩
        (Sink.ofRoom none) =
        (.ok (), ⟨.sound unusualTables, .start [] .unreachable⟩,
          ⟨none, (document ++ "\n").toUTF8.toList⟩) ∧
      Json.read document = .ok (.array
        [.object
          [("code", .string "11111111-1111-1111-1111-111111111111"), ("creation_time", .integer 5),
            ("executions", .array
              [.object
                [("code", .string "22222222-2222-2222-2222-222222222222"),
                  ("creation_time", .integer (-7)),
                  ("inputs", .string "[]"),
                    ("robot_code", .string "11111111-1111-1111-1111-111111111111"),
                  ("url", .string "http://h/2")]]),
            ("periodicals", .array []), ("summary", .string "a \"é\"\n\x01"),
              ("url", .string "http://h/1")]]) := by
  obtain ⟨reached, shown⟩ := json_listing_tells_all (typed "")
  have timed : unusualTables.Timed := by
    constructor <;> simp [unusualTables, Index.IsTime]
  have dated : ∀ operation ∈ [Operation.addRobot 5 "http://h/" "a"], operation.Timed := by
    simp [Operation.Timed, Index.IsTime]
  obtain ⟨⟨document, performed, read, -⟩, -⟩ :=
    shown ⟨.sound unusualTables, .start [] .unreachable⟩ unusualTables rfl timed
  exact ⟨reached _ dated, document, performed, read⟩

end Command

end RobotConsole
