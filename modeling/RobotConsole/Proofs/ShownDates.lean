import Mathlib.Order.Bounds.Defs
import RobotConsole.Proofs.SameReport

/-!
# The dates of reports

A report is shown by four commands, and each of its instants as the date of one second.  From the
epoch on this is the second that contains the instant.  Before the epoch it is the second after,
unless the instant is a whole second, because the fraction is cut off towards the epoch.
-/

set_option autoImplicit false

namespace RobotConsole

open Index (Tables)

/-! ## Seconds of instants -/

/-- The second is the last one that has begun at the instant. -/
def Contains (second millis : Int) : Prop :=
  IsGreatest {begun : Int | 1000 * begun ≤ millis} second

theorem contains_iff (second millis : Int) : Contains second millis ↔ second = millis / 1000 := by
  constructor
  · rintro ⟨begun, last⟩
    have least : millis / 1000 ≤ second := last (show 1000 * (millis / 1000) ≤ millis by omega)
    have most : 1000 * second ≤ millis := begun
    omega
  · rintro rfl
    refine ⟨show 1000 * (millis / 1000) ≤ millis by omega, ?_⟩
    intro other begun
    have most : 1000 * other ≤ millis := begun
    omega

/-- Cutting off towards the epoch comes to the second that contains the instant, or to the one
after. -/
theorem contains_tdiv (millis : Int) :
    (0 ≤ millis ∨ 1000 ∣ millis → Contains (millis.tdiv 1000) millis) ∧
      (¬ (0 ≤ millis ∨ 1000 ∣ millis) → Contains (millis.tdiv 1000 - 1) millis) := by
  have cut := Int.tdiv_eq_ediv (a := millis) (b := 1000)
  constructor
  · intro whole
    rw [if_pos whole] at cut
    rw [contains_iff, cut, Int.add_zero]
  · intro between
    rw [if_neg between] at cut
    rw [contains_iff, cut]
    exact Int.add_sub_cancel _ _

/-! ## Commands that come to a report -/

inductive AnyReport where
  | robot (facet : Facet) (report : Report.Robot)
  | execution (code : String) (report : Report.Execution)
  | periodical (code : String) (report : Report.Periodical)

def AnyReport.page : AnyReport → Page
  | .robot facet report => Page.robot facet report
  | .execution code report => Page.execution code report
  | .periodical code report => Page.periodical code report

def Command.ShowsReport : Command → Prop
  | .showRobot _ _ | .showExecution _ | .showPeriodical _ | .executeOnce _ _ _ => True
  | _ => False

/-- Polling the address ends with a description that fits as the report. -/
def Describes {Result : Type} (patience : Talk.Patience) (exchange : Exchange) (url : String)
    (fit : Report.Fit Result) (report : Result) : Prop :=
  ∃ value, ((Talk.getJson patience url).run exchange).1 = .ok (some value) ∧ fit value = .ok report

/-- The request that has an execution created and run once. -/
def onceRequest (root text : String) (inputs : List String) : Request :=
  Talk.postRequest (Address.join root "robot/execute")
    (.form (Service.onceForm (Text.trim text) inputs))

/-- The command comes to the report: the index has the address to ask, or the service has just given
it. -/
inductive ComesTo (surroundings : Surroundings) (desk : Desk) : Command → AnyReport → Prop where
  | robot {tables : Tables} {code url : String} {facet : Facet} {report : Report.Robot}
      (readable : desk.store.tables? = some tables) (known : tables.robotUrl? code = some url)
      (described : Describes surroundings.patience desk.exchange
        (Address.stem url) Report.Robot.ofJson report) :
      ComesTo surroundings desk (.showRobot code facet) (.robot facet report)
  | execution {tables : Tables} {code url : String} {report : Report.Execution}
      (readable : desk.store.tables? = some tables) (known : tables.executionUrl? code = some url)
      (described : Describes surroundings.patience desk.exchange
        (Address.stem url) Report.Execution.ofJson report) :
      ComesTo surroundings desk (.showExecution code) (.execution code report)
  | periodical {tables : Tables} {code url : String} {report : Report.Periodical}
      (readable : desk.store.tables? = some tables) (known : tables.periodicalUrl? code = some url)
      (described : Describes surroundings.patience desk.exchange
        (Address.stem url) Report.Periodical.ofJson report) :
      ComesTo surroundings desk (.showPeriodical code) (.periodical code report)
  | once {server file : Option String} {inputs : List String} {root text location code : String}
      {report : Report.Execution} (rooted : server.or surroundings.defaultServer = some root)
      (given : surroundings.definition? file = some text)
      (created : Judged (desk.exchange.reply (onceRequest root text inputs).url)
        (.created location code))
      (described : Describes surroundings.patience
        (desk.exchange.after (onceRequest root text inputs))
        (Address.stem location) Report.Execution.ofJson report) :
      ComesTo surroundings desk (.executeOnce server file inputs) (.execution code report)

namespace Run

variable {Result : Type} {kind : Kind} {fit : Report.Fit Result} {code : String}
    {page : Result → Page}
  {resource : Resource kind}

theorem withReport_described (surroundings : Surroundings) (desk : Desk) {report : Result}
    (described : Describes surroundings.patience desk.exchange resource.url fit report) :
    ((withReport surroundings resource fit code page).run desk).1 = .ok (page report) := by
  obtain ⟨value, got, fits⟩ := described
  simp only [withReport, bind_run, talk_run, Resource.fetch, got, Except.mapError, report_run, fits]
  rfl

/-- Where there is a page, the service has nothing, or a description that fits. -/
theorem withReport_ok (surroundings : Surroundings) (desk : Desk) {shown : Page}
    (done : ((withReport surroundings resource fit code page).run desk).1 = .ok shown) :
    shown = Page.notFound kind code ∨
      ∃ report, Describes surroundings.patience desk.exchange resource.url fit report ∧
        shown = page report := by
  simp only [withReport, bind_run, talk_run, Resource.fetch] at done
  cases got : ((Talk.getJson surroundings.patience resource.url).run desk.exchange).1 with
  | error fault =>
      simp only [got, Except.mapError] at done
      cases done
  | ok found =>
      cases found with
      | none =>
          simp only [got, Except.mapError] at done
          cases done
          exact Or.inl rfl
      | some value =>
          simp only [got, Except.mapError, bind_run, report_run] at done
          cases fits : fit value with
          | error misfit =>
              simp only [fits] at done
              cases done
          | ok report =>
              simp only [fits] at done
              cases done
              exact Or.inr ⟨report, ⟨value, got, fits⟩, rfl⟩

end Run

section Runs

variable {surroundings : Surroundings} {command : Command} {desk : Desk}

/-- What comes of a one-off execution is decided by the answer to its request. -/
theorem run_executeOnce {server file : Option String} {inputs : List String} {root text : String}
    {verdict : Verdict}
    (rooted : server.or surroundings.defaultServer = some root)
    (given : surroundings.definition? file = some text)
    (judged : Judged (desk.exchange.reply (onceRequest root text inputs).url) verdict) :
    ((Command.executeOnce server file inputs).run surroundings).run desk =
      match verdict.outcome (onceRequest root text inputs).url with
      | .error fault => (.error (.fault fault),
        ⟨desk.store, desk.exchange.after (onceRequest root text inputs)⟩)
      | .ok (url, code) =>
          (Run.withReport surroundings (⟨url⟩ : Resource .execution) Report.Execution.ofJson code
            (Page.execution code)).run
              ⟨desk.store, desk.exchange.after (onceRequest root text inputs)⟩ := by
  have posted : onceRequest root text inputs =
      Talk.postRequest ((Resource.ofUrl root : Resource .root).path "robot/execute")
      (.form (Service.onceForm (Text.trim text) inputs)) := by
    rw [Resource.path_ofUrl]
    rfl
  rw [posted] at judged ⊢
  refine Eq.trans ?_ (Run.createThen_judged .execution (Resource.ofUrl root) "robot/execute" _
    (fun url code => Run.withReport surroundings
      (⟨url⟩ : Resource .execution) Report.Execution.ofJson code (Page.execution code)) desk judged)
  simp only [Command.run, Run.executeOnce, Run.createThen, bind_run, Run.server_run, rooted,
    Run.definition_run, given]
  rfl

theorem ComesTo.run_eq {found : AnyReport} (comes : ComesTo surroundings desk command found) :
    ∃ left, (command.run surroundings).run desk = (.ok found.page, left) := by
  suffices done : ((command.run surroundings).run desk).1 =
      .ok found.page from ⟨_, Prod.ext done rfl⟩
  cases comes with
  | robot readable known described =>
      rw [Command.run, Run.showRobot, Run.withResource_found rfl readable known]
      exact Run.withReport_described surroundings desk described
  | execution readable known described =>
      rw [Command.run, Run.showExecution, Run.withResource_found rfl readable known]
      exact Run.withReport_described surroundings desk described
  | periodical readable known described =>
      rw [Command.run, Run.showPeriodical, Run.withResource_found rfl readable known]
      exact Run.withReport_described surroundings desk described
  | once rooted given created described =>
      rw [run_executeOnce rooted given created]
      exact Run.withReport_described surroundings _ described

theorem page_of_executeOnce {server file : Option String} {inputs : List String} {page : Page}
    (done : (((Command.executeOnce server file inputs).run surroundings).run desk).1 = .ok page) :
    (∃ kind code, page = Page.notFound kind code) ∨
      ∃ found, ComesTo surroundings desk (.executeOnce server file inputs) found ∧
        page = found.page := by
  cases rooted : server.or surroundings.defaultServer with
  | none =>
      simp only [Command.run, Run.executeOnce, bind_run, Run.server_run, rooted] at done
      cases done
  | some root =>
      cases given : surroundings.definition? file with
      | none =>
          simp only [Command.run, Run.executeOnce, bind_run, Run.server_run, rooted,
            Run.definition_run, given] at done
          cases done
      | some text =>
          obtain ⟨verdict, judged⟩ :=
            exists_judged (desk.exchange.reply (onceRequest root text inputs).url)
          rw [run_executeOnce rooted given judged] at done
          cases verdict with
          | failed | refused | unplaced | uncoded => cases done
          | created location code =>
              rcases Run.withReport_ok surroundings _ done with rfl | ⟨report, described, rfl⟩
              · exact Or.inl ⟨_, _, rfl⟩
              · exact Or.inr ⟨_, .once rooted given judged described, rfl⟩

/-- A page that shows no report says that there is nothing. -/
theorem page_of_withResource {Result : Type} {kind : Kind}
    {find : String → Index.Keep (Option String)}
    {view : Tables → Option String} {code : String} {fit : Report.Fit Result}
    {pageOf : Result → Page} {page : Page}
    (looks : find code = Index.Keep.reading view)
    (done : ((Run.withResource kind find code fun resource =>
      Run.withReport surroundings resource fit code pageOf).run desk).1 = .ok page) :
    page = Page.notFound kind code ∨
      ∃ tables url report, desk.store.tables? = some tables ∧ view tables = some url ∧
        Describes surroundings.patience desk.exchange (Address.stem url) fit report ∧
          page = pageOf report := by
  rw [Run.withResource_run looks] at done
  cases readable : desk.store.tables? with
  | none =>
      rw [readable] at done
      cases done
  | some tables =>
      rw [readable] at done
      dsimp only at done
      cases known : view tables with
      | none =>
          rw [known] at done
          cases done
          exact Or.inl rfl
      | some url =>
          rw [known] at done
          rcases Run.withReport_ok surroundings desk done with rfl | ⟨report, described, rfl⟩
          · exact Or.inl rfl
          · exact Or.inr ⟨tables, url, report, rfl, known, described, rfl⟩

theorem page_of_run (shows : command.ShowsReport) {page : Page}
    (done : ((command.run surroundings).run desk).1 = .ok page) :
    (∃ kind code, page = Page.notFound kind code) ∨
      ∃ found, ComesTo surroundings desk command found ∧ page = found.page := by
  cases command with
  | showRobot code facet =>
      rcases page_of_withResource rfl done with rfl | ⟨tables, url, report, readable, known,
        described, rfl⟩
      · exact Or.inl ⟨_, _, rfl⟩
      · exact Or.inr ⟨_, .robot readable known described, rfl⟩
  | showExecution code =>
      rcases page_of_withResource rfl done with rfl | ⟨tables, url, report, readable, known,
        described, rfl⟩
      · exact Or.inl ⟨_, _, rfl⟩
      · exact Or.inr ⟨_, .execution readable known described, rfl⟩
  | showPeriodical code =>
      rcases page_of_withResource rfl done with rfl | ⟨tables, url, report, readable, known,
        described, rfl⟩
      · exact Or.inl ⟨_, _, rfl⟩
      · exact Or.inr ⟨_, .periodical readable known described, rfl⟩
  | executeOnce server file inputs => exact page_of_executeOnce done
  | _ => exact shows.elim

end Runs

/-! ## The dates on the page -/

/-- Reports that differ in one instant only, which is shown as a date. -/
inductive Dated : (Int → AnyReport) → Prop where
  | robot (report : Report.Robot) : Dated fun millis =>
      .robot .everything { report with createdMillis := millis }
  | execution (code : String) (report : Report.Execution) :
      Dated fun millis => .execution code { report with createdMillis := millis }
  | periodical (code : String) (report : Report.Periodical) :
      Dated fun millis => .periodical code { report with createdMillis := millis }
  | last (code : String) (report : Report.Periodical) (last : Report.Execution) :
      Dated fun millis =>
        .periodical code
          { report with lastExecution := some { last with createdMillis := millis } }

/-- The line with the date stands in the same place, whatever the instant is. -/
theorem Dated.exists_line {found : Int → AnyReport} (dated : Dated found) :
    ∃ before margin after, ∀ millis,
      (found millis).page = before ++ (margin ++ ("Date: " ++ Page.millisText millis)) ::
        after := by
  cases dated with
  | robot report =>
      refine ⟨["robot " ++ report.code], "",
        ["XML:", report.xml.getD "", "Minilanguage:", report.minilanguage.getD ""],
        fun millis => ?_⟩
      rw [String.empty_append]
      rfl
  | execution code report =>
      refine ⟨["execution " ++ code], "",
        Page.durationLine report.durationMillis ::
          (Page.originLines report.origin ++ report.resultLines), fun millis => ?_⟩
      rw [String.empty_append]
      exact List.append_assoc _ _ _
  | periodical code report =>
      refine ⟨["periodical " ++ code], "", Page.optionalLine "Robot: " report.robot
        ++ Page.optionalLine "Period: " report.periodText? ++
          ["Inputs: " ++ ", ".intercalate report.inputs]
        ++ Page.lastExecution report.lastExecution, fun millis => ?_⟩
      rw [String.empty_append]
      simp only [AnyReport.page, Page.periodical, List.append_assoc]
      rfl
  | last code report last =>
      refine ⟨["periodical " ++ code, "Date: " ++ Page.millisText report.createdMillis]
        ++ Page.optionalLine "Robot: " report.robot ++
          Page.optionalLine "Period: " report.periodText?
        ++ ["Inputs: " ++ ", ".intercalate report.inputs] ++ ["Last execution:"], Page.margin,
        Page.indent (Page.durationLine last.durationMillis :: last.resultLines), fun millis => ?_⟩
      rw [List.append_assoc _ ["Last execution:"]]
      rfl

/-- A command that shows a report comes to it and puts its page on the sink; where it comes to
another page, the service has nothing.  On the page of a report every instant stands as the date of
one second.  If the instant is at the epoch or after it, or is a whole second, this second contains
it.  If not, the second before is the one that contains it. -/
theorem dates_are_cut_towards_epoch (surroundings : Surroundings) :
    (∀ (command : Command) (desk left : Desk) (page : Page), command.ShowsReport →
      (command.run surroundings).run desk = (.ok page, left) →
        (∃ kind code, page = Page.notFound kind code) ∨
          ∃ found, ComesTo surroundings desk command found ∧ page = found.page) ∧
    ∀ found, Dated found → ∃ before margin after, ∀ millis, ∃ second,
      (0 ≤ millis ∨ 1000 ∣ millis → Contains second millis) ∧
      (¬ (0 ≤ millis ∨ 1000 ∣ millis) → Contains (second - 1) millis) ∧
      ∀ command desk sink, ComesTo surroundings desk command (found millis) →
        let shown := sink.putPage
          (before ++ (margin ++ ("Date: " ++ Calendar.dateText second)) :: after)
        ∃ left, command.perform surroundings desk sink = (shown.1, left, shown.2) := by
  constructor
  · intro command desk left page shows ran
    exact page_of_run shows (congrArg Prod.fst ran)
  · intro found dated
    obtain ⟨before, margin, after, line⟩ := dated.exists_line
    refine ⟨before, margin, after, fun millis => ?_⟩
    obtain ⟨whole, between⟩ := contains_tdiv millis
    refine ⟨millis.tdiv 1000, whole, between, fun command desk sink comes => ?_⟩
    obtain ⟨left, ran⟩ := comes.run_eq
    have performed := Command.perform_of_run ran sink
    rw [line millis] at performed
    exact ⟨left, performed⟩

/-! An execution that runs once, and a text that is sent as the report on it. -/

theorem describes_of_answer {Result : Type} {fit : Report.Fit Result} {patience : Talk.Patience}
    {exchange : Exchange} {text : String} {answers : List Answer} {report : Result} (url : String)
    (next : exchange.answers = .response ⟨200, none, text⟩ :: answers)
    (told : (Json.read text).toOption.map fit = some (.ok report)) :
    Describes patience exchange url fit report := by
  have got : (Talk.get patience url Talk.jsonType).run exchange =
      (.ok (some ⟨200, none, text⟩),
        exchange.record (Talk.getRequest url Talk.jsonType) answers) := by
    change Talk.pollFrom patience (Talk.getRequest url Talk.jsonType) exchange.answers 1 exchange =
        _
    rw [next]
    rfl
  obtain ⟨value, read, fits⟩ := Option.map_eq_some_iff.mp told
  refine ⟨value, ?_, fits⟩
  cases document : Json.read text with
  | error flaw =>
      rw [document] at read
      cases read
  | ok whole =>
      rw [document] at read
      cases read
      simp only [Talk.getJson, bind_run, got, document]
      rfl

def Command.once : Command := .executeOnce none none []

def Desk.reporting (text : String) : Desk :=
  ⟨.sound ⟨[], [], []⟩, .start [.response
    ⟨201, some "http://h/22222222-2222-2222-2222-222222222222", ""⟩,
    .response ⟨200, none, text⟩] .unreachable⟩

theorem comesTo_reporting {text : String} {report : Report.Execution}
    (told : (Json.read text).toOption.map Report.Execution.ofJson = some (.ok report)) :
    ComesTo (Command.typed "a <- 1") (Desk.reporting text) Command.once
      (.execution "22222222-2222-2222-2222-222222222222" report) :=
  .once rfl (Command.definition_typed _) (.created (by decide) (by decide) rfl rfl)
    (describes_of_answer _ rfl told)

/-- The same distance after the epoch and before it is cut to the same distance. -/
theorem dates_are_cut_towards_epoch_both_sides :
    let later := Desk.reporting "\x7b\"date\": 1999\x7d"
    let earlier := Desk.reporting "\x7b\"date\": -1999\x7d"
    (∃ page left, (Command.once.run (Command.typed "a <- 1")).run later = (.ok page, left) ∧
      ((∃ kind code, page = Page.notFound kind code) ∨
        ∃ found, ComesTo (Command.typed "a <- 1") later Command.once found ∧ page = found.page)) ∧
    ∃ before margin after,
      (∃ second, Contains second 1999 ∧
        let shown := Sink.putPage
            (before ++ (margin ++ ("Date: " ++ Calendar.dateText second)) :: after) ⟨none, []⟩
        ∃ left, Command.once.perform (Command.typed "a <- 1") later ⟨none, []⟩ =
          (shown.1, left, shown.2)) ∧
      ∃ second, Contains (second - 1) (-1999) ∧
        let shown := Sink.putPage
            (before ++ (margin ++ ("Date: " ++ Calendar.dateText second)) :: after) ⟨none, []⟩
        ∃ left, Command.once.perform (Command.typed "a <- 1") earlier ⟨none, []⟩ =
          (shown.1, left, shown.2) := by
  intro later earlier
  have comesLater : ComesTo (Command.typed "a <- 1") later Command.once
      (.execution "22222222-2222-2222-2222-222222222222" ⟨1999, 0, none, [], []⟩) :=
    comesTo_reporting (by decide +kernel)
  have comesEarlier : ComesTo (Command.typed "a <- 1") earlier Command.once
      (.execution "22222222-2222-2222-2222-222222222222" ⟨-1999, 0, none, [], []⟩) :=
    comesTo_reporting (by decide +kernel)
  obtain ⟨pages, dates⟩ := dates_are_cut_towards_epoch (Command.typed "a <- 1")
  obtain ⟨left, ran⟩ := comesLater.run_eq
  obtain ⟨before, margin, after, lines⟩ :=
    dates _ (.execution "22222222-2222-2222-2222-222222222222" ⟨0, 0, none, [], []⟩)
  obtain ⟨second, whole, -, shown⟩ := lines 1999
  obtain ⟨secondEarlier, -, between, shownEarlier⟩ := lines (-1999)
  refine ⟨⟨_, left, ran, pages _ _ _ _ trivial ran⟩, before, margin, after, ?_, ?_⟩
  · exact ⟨second, whole (by decide), shown _ _ _ comesLater⟩
  · exact ⟨secondEarlier, between (by decide), shownEarlier _ _ _ comesEarlier⟩

/-- The last thousandth of a second before the epoch is shown as the first second after it. -/
theorem last_instant_before_epoch_is_shown_after_it :
    Contains (-1) (-1) ∧
    Calendar.dateText (-1) = "Wed, 31 Dec 1969 23:59:59" ∧
    let once := Command.once.perform (Command.typed "a <- 1")
      (Desk.reporting "\x7b\"date\": -1\x7d") ⟨none, []⟩
    (once.1, once.2.2.text) =
      (.ok (), "execution 22222222-2222-2222-2222-222222222222\n" ++
        "Date: Thu, 01 Jan 1970 00:00:00\nExecution time: 0 ms\n") := by
  refine ⟨?_, by decide +kernel, by decide +kernel⟩
  rw [contains_iff]
  decide

end RobotConsole
