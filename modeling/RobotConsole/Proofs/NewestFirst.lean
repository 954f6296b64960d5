import Mathlib.Data.List.Induction
import RobotConsole.Proofs.Listing

/-!
# Rows with the newest first

In a list that has the newest first, every time splits the rows: those that are newer stand in front
of the others.  A row that is added to a table comes between these two parts of the listing, in
front of rows of its own time, and rows that are taken from a table leave the listing without any
other change.
-/

set_option autoImplicit false

namespace RobotConsole.Index

section Order

variable {Row : Type} (created : Row → Int)

def HasNewestFirst (rows : List Row) : Prop :=
  rows.Pairwise fun first second => created second ≤ created first

/-- The rows that are newer than a row, then the row itself, then the others. -/
def splice (row : Row) (rows : List Row) : List Row :=
  (rows.filter fun old => created row < created old) ++ row :: rows.filter fun old => created old ≤
    created row

variable {created}

theorem HasNewestFirst.le_of_mem {next : Row} {rest : List Row}
    (ordered : HasNewestFirst created (next :: rest))
    {time : Int} (late : created next ≤ time) : ∀ row ∈ next :: rest, created row ≤ time := by
  intro row member
  rcases List.mem_cons.mp member with rfl | member
  · exact late
  · exact Int.le_trans ((List.pairwise_cons.mp ordered).1 row member) late

theorem newer_append_others {rows : List Row} (ordered : HasNewestFirst created rows) (time : Int) :
    ((rows.filter fun row => time < created row) ++ rows.filter fun row => created row ≤ time) =
      rows := by
  induction rows with
  | nil => rfl
  | cons next rest ih =>
      by_cases late : created next ≤ time
      · have allLate := ordered.le_of_mem late
        have newer : (next :: rest).filter (fun row => time < created row) =
            [] := by simpa using allLate
        have others : (next :: rest).filter (fun row => created row ≤ time) =
            next :: rest := by simpa using allLate
        rw [newer, others, List.nil_append]
      · have newer : time < created next := Int.not_le.mp late
        simp only [List.filter_cons, newer, late, decide_true, decide_false, if_true,
          Bool.false_eq_true, if_false, List.cons_append, ih (List.pairwise_cons.mp ordered).2]

theorem place_eq_splice {rows : List Row} (ordered : HasNewestFirst created rows) (row : Row) :
    place created row rows = splice created row rows := by
  induction rows with
  | nil => rfl
  | cons next rest ih =>
      unfold place
      by_cases late : created next ≤ created row
      · -- no row is newer, so the others are all there are
        have split := newer_append_others ordered (created row)
        have newer : (next :: rest).filter (fun old => created row < created old) = [] := by
          simpa using ordered.le_of_mem late
        rw [newer, List.nil_append] at split
        rw [if_pos late, splice, newer, split, List.nil_append]
      · have newer : created row < created next := Int.not_le.mp late
        rw [if_neg late, ih (List.pairwise_cons.mp ordered).2]
        simp only [splice, List.filter_cons, newer, late, decide_true, decide_false, if_true,
          Bool.false_eq_true, if_false, List.cons_append]

theorem hasNewestFirst_splice {rows : List Row} (ordered : HasNewestFirst created rows)
    (row : Row) :
    HasNewestFirst created (splice created row rows) := by
  apply List.pairwise_append.mpr
  refine ⟨ordered.filter _, ?_, ?_⟩
  · apply List.pairwise_cons.mpr
    refine ⟨?_, ordered.filter _⟩
    intro old member
    simpa using (List.mem_filter.mp member).2
  · intro newer early other late
    have above : created row < created newer := by simpa using (List.mem_filter.mp early).2
    rcases List.mem_cons.mp late with rfl | late
    · omega
    · have below : created other ≤ created row := by simpa using (List.mem_filter.mp late).2
      omega

theorem filter_splice {rows : List Row} (ordered : HasNewestFirst created rows) (row : Row)
    (keep : Row → Bool) :
    (splice created row rows).filter keep =
      if keep row then splice created row (rows.filter keep) else rows.filter keep := by
  have split := newer_append_others (ordered.filter keep) (created row)
  cases kept : keep row with
  | true =>
      simp only [splice, List.filter_append, List.filter_cons, kept, if_true, List.filter_filter,
        Bool.and_comm]
  | false =>
      rw [if_neg Bool.false_ne_true, ← split]
      simp only [splice, List.filter_append, List.filter_cons, kept, Bool.false_eq_true, if_false,
        List.filter_filter, Bool.and_comm]

theorem map_splice {Record : Type} (date : Record → Int) (record : Row → Record) (row : Row)
    (rows : List Row) :
    (splice (fun row => date (record row)) row rows).map record = splice date (record row)
      (rows.map record) := by
  simp only [splice, List.map_append, List.map_cons, List.filter_map, Function.comp_def]

/-! ## The order of a listing -/

theorem newestFirst_concat (rows : List Row) (row : Row) :
    newestFirst created (rows ++ [row]) = place created row (newestFirst created rows) := by
  rw [newestFirst, List.foldl_append]
  rfl

theorem hasNewestFirst_newestFirst (rows : List Row) :
    HasNewestFirst created (newestFirst created rows) := by
  induction rows using List.reverseRecOn with
  | nil => exact List.Pairwise.nil
  | append_singleton rows row ih =>
      rw [newestFirst_concat, place_eq_splice ih]
      exact hasNewestFirst_splice ih row

/-- A row that is added goes behind the newer ones and in front of all others. -/
theorem newestFirst_push (rows : List Row) (row : Row) :
    newestFirst created (rows ++ [row]) = splice created row (newestFirst created rows) := by
  rw [newestFirst_concat, place_eq_splice (hasNewestFirst_newestFirst rows)]

/-- Rows that are taken away leave the others in their order. -/
theorem newestFirst_filter (keep : Row → Bool) (rows : List Row) :
    newestFirst created (rows.filter keep) = (newestFirst created rows).filter keep := by
  induction rows using List.reverseRecOn with
  | nil => rfl
  | append_singleton rows row ih =>
      rw [newestFirst_push, filter_splice (hasNewestFirst_newestFirst rows), List.filter_append,
        ← ih]
      cases kept : keep row with
      | true => rw [List.filter_cons_of_pos kept, List.filter_nil, newestFirst_push, if_pos rfl]
      | false =>
          have dropped : ¬ keep row = true := by simp [kept]
          rw [List.filter_cons_of_neg dropped, List.filter_nil, List.append_nil,
            if_neg Bool.false_ne_true]

/-- A row that is added comes into the history of its owner alone. -/
theorem newestFirst_filter_push (owner : Row → String) (rows : List Row) (row : Row)
    (name : String) :
    newestFirst created ((rows ++ [row]).filter fun row => owner row == name) =
      if name = owner row then splice created row
        (newestFirst created (rows.filter fun row => owner row == name))
      else newestFirst created (rows.filter fun row => owner row == name) := by
  rw [List.filter_append]
  by_cases own : name = owner row
  · rw [if_pos own, List.filter_cons_of_pos (by simp [own]), List.filter_nil, newestFirst_push]
  · rw [if_neg own, List.filter_cons_of_neg (by simpa using Ne.symm own), List.filter_nil,
      List.append_nil]

end Order

end RobotConsole.Index
