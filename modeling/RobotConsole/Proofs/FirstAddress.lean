import RobotConsole.Proofs.Ledger

/-!
# What is found after adding

A row comes to the end of its table, and a code is looked up from the front.  So what is found right
after adding is the address that the code had before; the address just added is found if the code
had none.  Codes are not kept apart by the index, which relies on the service for that.
-/

set_option autoImplicit false

namespace RobotConsole.Index

/-! ## One row more -/

section Rows

variable {Row : Type} (codeOf urlOf : Row → String) (rows : List Row) (row : Row)

theorem url?_append :
    ((rows ++ [row]).find? fun other => codeOf other == codeOf row).map urlOf =
      some (((rows.find? fun other => codeOf other == codeOf row).map urlOf).getD (urlOf row)) := by
  rw [List.find?_append]
  cases rows.find? fun other => codeOf other == codeOf row with
  | none => simp
  | some first => rfl

end Rows

namespace Tables

variable (tables : Tables)

theorem robotUrl?_pushRobot (row : RobotRow) :
    (tables.pushRobot row).robotUrl? row.code = some ((tables.robotUrl? row.code).getD row.url) :=
  url?_append RobotRow.code RobotRow.url tables.robots row

theorem executionUrl?_pushExecution (row : ExecutionRow) :
    (tables.pushExecution row).executionUrl? row.code =
      some ((tables.executionUrl? row.code).getD row.url) :=
  url?_append ExecutionRow.code ExecutionRow.url tables.executions row

theorem periodicalUrl?_pushPeriodical (row : PeriodicalRow) :
    (tables.pushPeriodical row).periodicalUrl? row.code =
      some ((tables.periodicalUrl? row.code).getD row.url) :=
  url?_append PeriodicalRow.code PeriodicalRow.url tables.periodicals row

end Tables

namespace Keep

/-- A lookup of a code gives in `left` the address that it gives in `store`, and `url` if it gives
none there. -/
def FoundAfter (find : String → Keep (Option String)) (code url : String) (store left : Store) :
    Prop :=
  ∃ earlier, (find code).run store = (.ok earlier, store) ∧
    (find code).run left = (.ok (some (earlier.getD url)), left)

theorem foundAfter_add {find : String → Keep (Option String)}
    {view : String → Tables → Option String}
    {push : String → Tables → Tables} {url code : String} {store left : Store}
    (looks : ∀ code, find code = reading (view code))
    (pushed : ∀ code tables, view code (push code tables) = some ((view code tables).getD url))
    (done : (add url push).run store = (.ok code, left)) :
    Code.find? url = some code ∧ FoundAfter find code url store left := by
  obtain ⟨tables, rfl, coded, rfl⟩ := add_eq_ok done
  refine ⟨coded, view code tables, ?_, ?_⟩
  · rw [looks, reading_run]
    rfl
  · rw [looks, reading_run, ← pushed]
    rfl

/-- Right after a row has been added, its code is found at the address that it had before, or at the
new one if it had none. -/
theorem first_address_is_found (store left : Store) (now : Int) (url code : String) :
    (∀ definition, (addRobot now url definition).run store = (.ok code, left) →
      Code.find? url = some code ∧ FoundAfter robotUrl? code url store left) ∧
    (∀ robot inputs, (addExecution now robot url inputs).run store = (.ok code, left) →
      Code.find? url = some code ∧ FoundAfter executionUrl? code url store left) ∧
    ∀ robot period inputs, (addPeriodical now robot url period inputs).run store =
      (.ok code, left) →
      Code.find? url = some code ∧ FoundAfter periodicalUrl? code url store left := by
  refine ⟨?_, ?_, ?_⟩
  · intro definition done
    exact foundAfter_add (fun _ => rfl)
      (fun code tables => tables.robotUrl?_pushRobot ⟨code, url, now, summarize definition⟩) done
  · intro robot inputs done
    exact foundAfter_add (fun _ => rfl)
      (fun code tables => tables.executionUrl?_pushExecution
        ⟨code, robot, url, Text.quoteList inputs, now⟩) done
  · intro robot period inputs done
    exact foundAfter_add (fun _ => rfl)
      (fun code tables =>
        tables.periodicalUrl?_pushPeriodical ⟨code, robot, url, period, Text.quoteList inputs, now⟩)
          done

/-! A resource of every kind, and others that the service gives the same codes. -/

def robotCode : String := "11111111-1111-1111-1111-111111111111"

def executionCode : String := "22222222-2222-2222-2222-222222222222"

def periodicalCode : String := "33333333-3333-3333-3333-333333333333"

def addressAt (host code : String) : String :=
  "http://" ++ host ++ "/" ++ code

def once : List Operation :=
  [.addRobot 5 (addressAt "h" robotCode) "a <- 1",
    .addExecution 6 robotCode (addressAt "h" executionCode) [],
    .addPeriodical 7 robotCode (addressAt "h" periodicalCode) "5m" []]

def taken : Tables :=
  ⟨[⟨robotCode, addressAt "h" robotCode, 5, "a <- 1"⟩],
    [⟨executionCode, robotCode, addressAt "h" executionCode, "[]", 6⟩],
    [⟨periodicalCode, robotCode, addressAt "h" periodicalCode, "5m", "[]", 7⟩]⟩

theorem runAll_once : Operation.runAll once (.sound .empty) = .sound taken := by
  decide +kernel

theorem addRobot_taken : (addRobot 8 (addressAt "other" robotCode) "b <- 2").run (.sound taken) =
    (.ok robotCode, .sound (taken.pushRobot
      ⟨robotCode, addressAt "other" robotCode, 8, summarize "b <- 2"⟩)) :=
  add_sound _ _ _ taken (by decide +kernel)

theorem addExecution_taken : (addExecution 8 robotCode (addressAt "other" executionCode) ["x"]).run
    (.sound taken) =
    (.ok executionCode,
      .sound (taken.pushExecution
        ⟨executionCode, robotCode, addressAt "other" executionCode, Text.quoteList ["x"], 8⟩)) :=
  add_sound _ _ _ taken (by decide +kernel)

theorem addPeriodical_taken :
    (addPeriodical 8 robotCode (addressAt "other" periodicalCode) "2d" []).run (.sound taken) =
      (.ok periodicalCode,
        .sound (taken.pushPeriodical
          ⟨periodicalCode, robotCode, addressAt "other" periodicalCode, "2d", Text.quoteList [],
            8⟩)) :=
  add_sound _ _ _ taken (by decide +kernel)

theorem first_address_is_found_taken :
    (∃ left, (addRobot 8 (addressAt "other" robotCode) "b <- 2").run (.sound taken) =
      (.ok robotCode, left) ∧
      FoundAfter robotUrl? robotCode (addressAt "other" robotCode) (.sound taken) left) ∧
    (∃ left, (addExecution 8 robotCode (addressAt "other" executionCode) ["x"]).run (.sound taken) =
        (.ok executionCode, left) ∧
      FoundAfter executionUrl? executionCode (addressAt "other" executionCode)
        (.sound taken) left) ∧
    ∃ left, (addPeriodical 8 robotCode (addressAt "other" periodicalCode) "2d" []).run
      (.sound taken) =
        (.ok periodicalCode, left) ∧
      FoundAfter periodicalUrl? periodicalCode (addressAt "other" periodicalCode)
        (.sound taken) left := by
  obtain ⟨robot, -, -⟩ := first_address_is_found (.sound taken) _ 8
      (addressAt "other" robotCode) robotCode
  obtain ⟨-, execution, -⟩ := first_address_is_found (.sound taken) _ 8
      (addressAt "other" executionCode) executionCode
  obtain ⟨-, -, periodical⟩ :=
    first_address_is_found (.sound taken) _ 8 (addressAt "other" periodicalCode) periodicalCode
  exact ⟨⟨_, addRobot_taken, (robot "b <- 2" addRobot_taken).2⟩,
    ⟨_, addExecution_taken, (execution robotCode ["x"] addExecution_taken).2⟩,
    ⟨_, addPeriodical_taken, (periodical robotCode "2d" [] addPeriodical_taken).2⟩⟩

/-- The address just added is not always the one that is found: the service may have given its code
before. -/
theorem repeated_code_keeps_first_address :
    (¬ ∀ (history : List Operation) (now : Int) (url definition code : String) (left : Store),
      (addRobot now url definition).run (Operation.runAll history (.sound .empty)) =
        (.ok code, left) →
        ((robotUrl? code).run left).1 = .ok (some url)) ∧
    (¬ ∀ (history : List Operation) (now : Int) (robot url : String) (inputs : List String)
      (code : String) (left : Store),
      (addExecution now robot url inputs).run (Operation.runAll history (.sound .empty)) =
        (.ok code, left) →
        ((executionUrl? code).run left).1 = .ok (some url)) ∧
    ¬ ∀ (history : List Operation) (now : Int) (robot url period : String) (inputs : List String)
      (code : String) (left : Store),
      (addPeriodical now robot url period inputs).run (Operation.runAll history (.sound .empty)) =
        (.ok code, left) →
        ((periodicalUrl? code).run left).1 = .ok (some url) := by
  refine ⟨?_, ?_, ?_⟩
  · intro latest
    have found := latest once 8 (addressAt "other" robotCode) "b <- 2" robotCode _
        (runAll_once ▸ addRobot_taken)
    exact absurd found (by decide +kernel)
  · intro latest
    have found := latest once 8 robotCode (addressAt "other" executionCode) ["x"] executionCode _
      (runAll_once ▸ addExecution_taken)
    exact absurd found (by decide +kernel)
  · intro latest
    have found := latest once 8 robotCode (addressAt "other" periodicalCode) "2d"
        [] periodicalCode _
      (runAll_once ▸ addPeriodical_taken)
    exact absurd found (by decide +kernel)

end Keep

end RobotConsole.Index
