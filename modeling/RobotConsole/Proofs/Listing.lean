import RobotConsole.Index.Listing

/-!
# What the listing shows

Rows change their order in the listing, but none is lost and none is added.  The listing shows a row
of an execution or a periodical execution just when the index has the row and knows its robot.
-/

set_option autoImplicit false

namespace RobotConsole.Index

open List (Perm)

section Order

variable {Row : Type} (created : Row → Int)

theorem place_perm (row : Row) (rows : List Row) : Perm (place created row rows) (row :: rows) := by
  induction rows with
  | nil => exact Perm.refl _
  | cons next rest ih =>
      unfold place
      split
      · exact Perm.refl _
      · exact (ih.cons next).trans (Perm.swap row next rest)

theorem foldl_place_perm (rows placed : List Row) :
    Perm (rows.foldl (fun placed row => place created row placed) placed) (placed ++ rows) := by
  induction rows generalizing placed with
  | nil => simp
  | cons row rest ih =>
      have first : Perm (place created row placed ++ rest) (row :: placed ++ rest) :=
        (place_perm created row placed).append_right rest
      exact ((ih (place created row placed)).trans first).trans List.perm_middle.symm

theorem newestFirst_perm (rows : List Row) : Perm (newestFirst created rows) rows :=
  foldl_place_perm created rows []

@[simp]
theorem mem_newestFirst (row : Row) (rows : List Row) :
    row ∈ newestFirst created rows ↔ row ∈ rows :=
  (newestFirst_perm created rows).mem_iff

end Order

namespace Tables

variable (tables : Tables)

def Knows (robot : String) : Prop :=
  ∃ row ∈ tables.robots, row.code = robot

theorem mem_listing (record : RobotRecord) :
    record ∈ tables.listing ↔ ∃ row ∈ tables.robots, tables.recordOf row = record := by
  simp [listing]

/-- If the robots stay and every record is edited alike, the listing is edited record by record. -/
theorem listing_eq_map (left : Tables) (edit : RobotRecord → RobotRecord)
    (robots : left.robots = tables.robots)
    (records : ∀ row, left.recordOf row = edit (tables.recordOf row)) :
    left.listing = tables.listing.map edit := by
  rw [listing, listing, List.map_map, robots]
  exact List.map_congr_left fun row _ => records row

theorem mem_executionsOf (row : ExecutionRow) (robot : String) :
    row ∈ tables.executionsOf robot ↔ row ∈ tables.executions ∧ row.robot = robot := by
  simp [executionsOf]

theorem mem_periodicalsOf (row : PeriodicalRow) (robot : String) :
    row ∈ tables.periodicalsOf robot ↔ row ∈ tables.periodicals ∧ row.robot = robot := by
  simp [periodicalsOf]

theorem execution_listed_iff (row : ExecutionRow) :
    (∃ record ∈ tables.listing, row ∈ record.executions) ↔ row ∈ tables.executions ∧
      tables.Knows row.robot := by
  constructor
  · rintro ⟨record, listed, member⟩
    obtain ⟨robot, known, rfl⟩ := (mem_listing tables record).mp listed
    obtain ⟨stored, owned⟩ := (mem_executionsOf tables row robot.code).mp member
    exact ⟨stored, robot, known, owned.symm⟩
  · rintro ⟨stored, robot, known, owns⟩
    refine ⟨tables.recordOf robot, (mem_listing tables _).mpr ⟨robot, known, rfl⟩, ?_⟩
    exact (mem_executionsOf tables row robot.code).mpr ⟨stored, owns.symm⟩

theorem periodical_listed_iff (row : PeriodicalRow) :
    (∃ record ∈ tables.listing, row ∈ record.periodicals) ↔ row ∈ tables.periodicals ∧
      tables.Knows row.robot := by
  constructor
  · rintro ⟨record, listed, member⟩
    obtain ⟨robot, known, rfl⟩ := (mem_listing tables record).mp listed
    obtain ⟨stored, owned⟩ := (mem_periodicalsOf tables row robot.code).mp member
    exact ⟨stored, robot, known, owned.symm⟩
  · rintro ⟨stored, robot, known, owns⟩
    refine ⟨tables.recordOf robot, (mem_listing tables _).mpr ⟨robot, known, rfl⟩, ?_⟩
    exact (mem_periodicalsOf tables row robot.code).mpr ⟨stored, owns.symm⟩

end Tables

end RobotConsole.Index
