import RobotConsole.Fault
import RobotConsole.Form.Encoding
import RobotConsole.Json.Reader

/-!
# Exchanges with the service

An exchange is what passes between this side and the service during one run: the answers still to
come, and the requests sent and the waits made so far, in the order in which they took place.  A
request takes the next answer.  When no answer is left the request is still sent, and fails as
`silence` says.
-/

set_option autoImplicit false

namespace RobotConsole

inductive Method where
  | get
  | post
  | delete
  deriving DecidableEq, Repr

def Method.name : Method → String
  | .get => "GET"
  | .post => "POST"
  | .delete => "DELETE"

structure Request where
  method : Method
  url : String
  headers : List (String × String)
  body : Option String
  deriving DecidableEq, Repr

/-- The value of the first header with a name; ASCII case does not count. -/
def Request.header? (request : Request) (name : String) : Option String :=
  (request.headers.find? fun header => Text.sameLetters header.1 name).map Prod.snd

structure Response where
  status : Nat
  location : Option String
  body : String
  deriving DecidableEq, Repr

def Response.isSuccess (response : Response) : Bool :=
  decide (200 ≤ response.status) && decide (response.status < 300)

def notReadyStatus : Nat := 204

/-- What a request meets at the far end: a response, or a connection that breaks. -/
inductive Answer where
  | response (reply : Response)
  | broken (detail : String)
  deriving DecidableEq, Repr

def Answer.outcome : Answer → Except Fault Response
  | .response reply => .ok reply
  | .broken detail => .error (.io detail)

inductive Event where
  | sent (request : Request)
  | waited (seconds : Nat)
  deriving DecidableEq, Repr

namespace Event

def request? : Event → Option Request
  | .sent request => some request
  | .waited _ => none

def seconds? : Event → Option Nat
  | .sent _ => none
  | .waited seconds => some seconds

end Event

structure Exchange where
  answers : List Answer
  silence : String → Fault
  /-- Oldest first. -/
  events : List Event

namespace Exchange

def start (answers : List Answer) (silence : String → Fault) : Exchange :=
  ⟨answers, silence, []⟩

def sent (exchange : Exchange) : List Request :=
  exchange.events.filterMap Event.request?

def waits (exchange : Exchange) : List Nat :=
  exchange.events.filterMap Event.seconds?

def record (exchange : Exchange) (request : Request) (left : List Answer) : Exchange :=
  { exchange with answers := left, events := exchange.events ++ [.sent request] }

def wait (exchange : Exchange) (seconds : Nat) : Exchange :=
  { exchange with events := exchange.events ++ [.waited seconds] }

variable (exchange : Exchange) (request : Request) (left : List Answer) (seconds : Nat)

@[simp]
theorem sent_record : (exchange.record request left).sent = exchange.sent ++ [request] :=
  List.filterMap_append

@[simp]
theorem waits_record : (exchange.record request left).waits = exchange.waits := by
  simp [waits, record, Event.seconds?]

@[simp]
theorem sent_wait : (exchange.wait seconds).sent = exchange.sent := by
  simp [sent, wait, Event.request?]

@[simp]
theorem waits_wait : (exchange.wait seconds).waits = exchange.waits ++ [seconds] :=
  List.filterMap_append

end Exchange

/-- A step of an exchange: it may fail, and what has passed until then stays noted. -/
abbrev Talk := ExceptT Fault (StateM Exchange)

namespace Talk

def send (request : Request) : Talk Response := fun exchange =>
  match exchange.answers with
  | [] => (.error (exchange.silence request.url), exchange.record request [])
  | answer :: left => (answer.outcome, exchange.record request left)

/-- How long to wait between two polls of a resource, in seconds, and how many polls to make at
most. -/
structure Patience where
  interval : Nat
  limit : Option Nat
  deriving DecidableEq, Repr

def Patience.isSpent (patience : Patience) (attempts : Nat) : Bool :=
  match patience.limit with
  | none => false
  | some limit => decide (limit ≤ attempts)

/-- Sends the same request until it is answered otherwise than by the not-ready status.  The final
response counts only when it is a success. -/
def pollFrom (patience : Patience) (request : Request) :
    List Answer → Nat → Exchange → Except Fault (Option Response) × Exchange
  | [], _, exchange => (.error (exchange.silence request.url), exchange.record request [])
  | answer :: left, attempt, exchange =>
      let after := exchange.record request left
      match answer.outcome with
      | .error fault => (.error fault, after)
      | .ok response =>
          if response.status = notReadyStatus then
            if patience.isSpent attempt then (.error (.notReady request.url attempt), after)
            else pollFrom patience request left (attempt + 1) (after.wait patience.interval)
          else (.ok (if response.isSuccess then some response else none), after)

def getRequest (url accept : String) : Request :=
  ⟨.get, url, [("Accept", accept)], none⟩

def get (patience : Patience) (url accept : String) : Talk (Option Response) := fun exchange =>
  pollFrom patience (getRequest url accept) exchange.answers 1 exchange

def jsonType : String := "application/json"

def getJson (patience : Patience) (url : String) : Talk (Option Json) := do
  match ← get patience url jsonType with
  | none => return none
  | some response =>
      match Json.read response.body with
      | .ok value => return some value
      | .error cause => throw (.badJson cause)

end Talk

inductive Payload where
  | form (fields : Form)
  | xml (text : String)
  deriving DecidableEq, Repr

def Payload.contentType : Payload → String
  | .form _ => "application/x-www-form-urlencoded"
  | .xml _ => "application/xml"

def Payload.body : Payload → String
  | .form fields => fields.encode
  | .xml text => text

namespace Talk

def postRequest (url : String) (payload : Payload) : Request :=
  ⟨.post, url, [("Content-Type", payload.contentType)], some payload.body⟩

def post (url : String) (payload : Payload) : Talk Response := do
  let response ← send (postRequest url payload)
  if response.isSuccess then return response
  else throw (.refused response.status response.body)

def postForLocation (url : String) (payload : Payload) : Talk String := do
  let response ← post url payload
  match response.location with
  | some location => return location
  | none => throw (.noLocation url)

def deleteRequest (url : String) : Request :=
  ⟨.delete, url, [], none⟩

/-- Asks for a resource to be removed; the answer is not looked at, as long as there is one. -/
def delete (url : String) : Talk Unit := do
  let _ ← send (deleteRequest url)
  return ()

end Talk

end RobotConsole
