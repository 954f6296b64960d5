import RobotConsole.Service
import RobotConsole.Proofs.Trimming

/-!
# What requests come to

Every request to the service is given in closed form: it takes the next answer and is noted,
whatever the answer is.  A creating request comes to the address that its answer carries.  A run of
steps is taken apart at its first step, which either hands on a result or ends the run.
-/

set_option autoImplicit false

namespace RobotConsole

section Sequence

variable {Cause State First Last : Type}

/-- The first step hands on its result, or ends the run. -/
theorem bind_run (step : ExceptT Cause (StateM State) First)
    (next : First → ExceptT Cause (StateM State) Last) (state : State) :
    (step >>= next).run state =
      match step.run state with
      | (.ok result, state) => (next result).run state
      | (.error cause, state) => (.error cause, state) := by
  simp only [ExceptT.run, bind, ExceptT.bind, ExceptT.mk, StateT.bind]
  cases step state with
  | mk outcome state => cases outcome <;> rfl

@[simp]
theorem pure_run (result : Last) (state : State) :
    (pure result : ExceptT Cause (StateM State) Last).run state = (.ok result, state) := rfl

@[simp]
theorem throw_run (cause : Cause) (state : State) :
    (throw cause : ExceptT Cause (StateM State) Last).run state = (.error cause, state) := rfl

end Sequence

/-! ## Requests -/

namespace Exchange

def reply (exchange : Exchange) (url : String) : Except Fault Response :=
  match exchange.answers with
  | [] => .error (exchange.silence url)
  | answer :: _ => answer.outcome

def accepted (exchange : Exchange) (url : String) : Except Fault Response :=
  match exchange.reply url with
  | .error fault => .error fault
  | .ok response =>
      if response.isSuccess then .ok response else .error (.refused response.status response.body)

def created (exchange : Exchange) (url : String) : Except Fault String :=
  match exchange.accepted url with
  | .error fault => .error fault
  | .ok response =>
      match response.location with
      | some location => .ok location
      | none => .error (.noLocation url)

def after (exchange : Exchange) (request : Request) : Exchange :=
  exchange.record request exchange.answers.tail

@[simp]
theorem sent_after (exchange : Exchange) (request : Request) :
    (exchange.after request).sent = exchange.sent ++ [request] :=
  exchange.sent_record request exchange.answers.tail

theorem after_eq_record (exchange : Exchange) (request : Request) (answer : Answer)
    (left : List Answer)
    (answered : exchange.answers = answer :: left) :
    exchange.after request = exchange.record request left := by
  rw [after, answered, List.tail_cons]

theorem reply_eq_ok_iff (exchange : Exchange) (url : String) (response : Response) :
    exchange.reply url = .ok response ↔ ∃ left, exchange.answers = .response response :: left := by
  unfold reply
  cases exchange.answers with
  | nil => simp
  | cons answer left => cases answer <;> simp [Answer.outcome]

theorem accepted_eq_ok_iff (exchange : Exchange) (url : String) (response : Response) :
    exchange.accepted url = .ok response ↔ exchange.reply url = .ok response ∧
      response.isSuccess = true := by
  unfold accepted
  cases exchange.reply url with
  | error fault => simp
  | ok found =>
      cases success : found.isSuccess with
      | false =>
          simp only [success, Bool.false_eq_true, if_false, reduceCtorEq, false_iff,
            Except.ok.injEq]
          rintro ⟨same, accepted⟩
          rw [← same, success] at accepted
          exact Bool.false_ne_true accepted
      | true =>
          simp only [success, if_true, Except.ok.injEq]
          constructor
          · intro same
            exact ⟨same, same ▸ success⟩
          · exact And.left

/-- A creating request comes to an address just when its answer is a success that carries it. -/
theorem created_eq_ok_iff (exchange : Exchange) (url location : String) :
    exchange.created url = .ok location ↔
      ∃ response left, exchange.answers = .response response :: left ∧ response.isSuccess = true ∧
        response.location = some location := by
  constructor
  · intro done
    unfold created at done
    cases accept : exchange.accepted url with
    | error fault => simp [accept] at done
    | ok response =>
        obtain ⟨replied, success⟩ := (accepted_eq_ok_iff exchange url response).mp accept
        obtain ⟨left, answered⟩ := (reply_eq_ok_iff exchange url response).mp replied
        cases located : response.location with
        | none => simp [accept, located] at done
        | some found =>
            simp only [accept, located, Except.ok.injEq] at done
            exact ⟨response, left, answered, success, done ▸ located⟩
  · rintro ⟨response, left, answered, success, located⟩
    have replied := (reply_eq_ok_iff exchange url response).mpr ⟨left, answered⟩
    have accept := (accepted_eq_ok_iff exchange url response).mpr ⟨replied, success⟩
    simp only [created, accept, located]

end Exchange

namespace Talk

theorem send_run (request : Request) (exchange : Exchange) :
    (send request).run exchange = (exchange.reply request.url, exchange.after request) := by
  simp only [send, ExceptT.run, Exchange.reply, Exchange.after]
  cases exchange.answers with
  | nil => rfl
  | cons answer left => rfl

theorem post_run (url : String) (payload : Payload) (exchange : Exchange) :
    (post url payload).run exchange =
      (exchange.accepted url, exchange.after (postRequest url payload)) := by
  simp only [post, bind_run, send_run, postRequest, Exchange.accepted]
  cases exchange.reply url with
  | error fault => rfl
  | ok response => cases success : response.isSuccess <;> simp [success]

theorem postForLocation_run (url : String) (payload : Payload) (exchange : Exchange) :
    (postForLocation url payload).run exchange =
      (exchange.created url, exchange.after (postRequest url payload)) := by
  simp only [postForLocation, bind_run, post_run, Exchange.created]
  cases exchange.accepted url with
  | error fault => rfl
  | ok response => cases located : response.location <;> simp [located]

theorem delete_run (url : String) (exchange : Exchange) :
    (delete url).run exchange =
      ((exchange.reply url).map fun _ => (), exchange.after (deleteRequest url)) := by
  simp only [delete, bind_run, send_run, deleteRequest]
  cases exchange.reply url with
  | error fault => rfl
  | ok response => rfl

end Talk

namespace Resource

variable {kind : Kind}

/-- A created resource is known by the stem of the address that its answer carries. -/
theorem create_run (created : Kind) (resource : Resource kind) (relative : String)
    (payload : Payload) (exchange : Exchange) :
    (resource.create created relative payload).run exchange =
      ((exchange.created (resource.path relative)).map Resource.ofUrl,
        exchange.after (Talk.postRequest (resource.path relative) payload)) := by
  simp only [create, bind_run, Talk.postForLocation_run]
  cases exchange.created (resource.path relative) with
  | error fault => rfl
  | ok location => rfl

theorem url_ofUrl (url : String) : (ofUrl url : Resource kind).url = Address.stem url := rfl

@[simp]
theorem path_ofUrl (url relative : String) :
    (ofUrl url : Resource kind).path relative = Address.join url relative := by
  rw [path, url_ofUrl, Address.join_stem]

end Resource

end RobotConsole
