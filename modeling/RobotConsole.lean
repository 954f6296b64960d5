import RobotConsole.Code
import RobotConsole.Period
import RobotConsole.Calendar
import RobotConsole.Form.Encoding
import RobotConsole.Report
import RobotConsole.Service
import RobotConsole.Index.Archive
import RobotConsole.Settings
import RobotConsole.CommandLine
import RobotConsole.Program
import RobotConsole.Main
import RobotConsole.Proofs.Trimming
import RobotConsole.Proofs.QuotedLists
import RobotConsole.Proofs.CodeOfStem
import RobotConsole.Proofs.FirstCode
import RobotConsole.Proofs.CodeOfPaths
import RobotConsole.Proofs.FormRoundTrip
import RobotConsole.Proofs.FormBuilding
import RobotConsole.Proofs.Requests
import RobotConsole.Proofs.Joining
import RobotConsole.Proofs.Polling
import RobotConsole.Proofs.Display
import RobotConsole.Proofs.RunSteps
import RobotConsole.Proofs.CommandEffect
import RobotConsole.Proofs.Sessions
import RobotConsole.Proofs.Output
import RobotConsole.Proofs.Listing
import RobotConsole.Proofs.NewestFirst
import RobotConsole.Proofs.Ledger
import RobotConsole.Proofs.FirstAddress
import RobotConsole.Proofs.Insertion
import RobotConsole.Proofs.Deletion
import RobotConsole.Proofs.NoOrphans
import RobotConsole.Proofs.Recording
import RobotConsole.Proofs.RowHistory
import RobotConsole.Proofs.SteadyAddress
import RobotConsole.Proofs.InterruptedDeletion
import RobotConsole.Proofs.Answers
import RobotConsole.Proofs.Conversations
import RobotConsole.Proofs.Creations
import RobotConsole.Proofs.Runs
import RobotConsole.Proofs.BoundedRuns
import RobotConsole.Proofs.IndexFootprint
import RobotConsole.Proofs.Precedence
import RobotConsole.Proofs.PeriodText
import RobotConsole.Proofs.PeriodGrammar
import RobotConsole.Proofs.PlainSpelling
import RobotConsole.Proofs.ReportedPeriods
import RobotConsole.Proofs.Scanning
import RobotConsole.Proofs.CommandLines
import RobotConsole.Proofs.SameReport
import RobotConsole.Proofs.Layouts
import RobotConsole.Proofs.ReportLayouts
import RobotConsole.Proofs.JsonRoundTrip
import RobotConsole.Proofs.ListingJson
import RobotConsole.Proofs.TomlNumerals
import RobotConsole.Proofs.TomlTexts
import RobotConsole.Proofs.TomlNumbers
import RobotConsole.Proofs.TomlFractions
import RobotConsole.Proofs.TomlDates
import RobotConsole.Proofs.TomlTables
import RobotConsole.Proofs.TomlDefinitions
import RobotConsole.Proofs.TomlValues
import RobotConsole.Proofs.TomlLines
import RobotConsole.Proofs.TomlGiven
import RobotConsole.Proofs.SettingsFiles
import RobotConsole.Proofs.DateTexts
import RobotConsole.Proofs.ShownDates
