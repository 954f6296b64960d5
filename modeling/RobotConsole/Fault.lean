import RobotConsole.Json.Flaw
import RobotConsole.Period
import RobotConsole.Report.Schema

/-!
# Faults

What can go wrong while the service is asked or the index of known resources is used, each with its
cause.
-/

set_option autoImplicit false

namespace RobotConsole

inductive Fault where
  /-- An address of a new resource holds no code. -/
  | noCode (url : String)
  /-- The service answered a creating request with a status outside 200 to 299. -/
  | refused (status : Nat) (body : String)
  /-- The service accepted a creating request without telling where the new resource is. -/
  | noLocation (url : String)
  /-- The service still had no result after the last poll allowed. -/
  | notReady (url : String) (attempts : Nat)
  | badPeriod (cause : PeriodFault)
  /-- The index file cannot be used. -/
  | storage
  /-- The service cannot be reached. -/
  | unreachable (detail : String)
  | badJson (cause : Json.SyntaxFault)
  | badReport (cause : Report.Misfit)
  | io (detail : String)
  deriving DecidableEq, Repr

namespace Fault

def message : Fault → String
  | .noCode url => "a DARE code has not been found in the url " ++ url
  | .refused status body => "Unexpected error code " ++ Text.natText status ++ " and content:\n " ++
      body
  | .noLocation url => "Response from " ++ url ++ " has no Location header"
  | .notReady url attempts => url ++ " was still not ready after " ++ Text.natText attempts ++
      " polls"
  | .badPeriod cause => "Invalid period: " ++ cause.message
  | .storage => "Storage error"
  | .unreachable detail => "HTTP error: " ++ detail
  | .badJson cause => "Invalid JSON: " ++ cause.message
  | .badReport cause => "Invalid JSON: " ++ cause.message
  | .io detail => "IO error: " ++ detail

end Fault

end RobotConsole
