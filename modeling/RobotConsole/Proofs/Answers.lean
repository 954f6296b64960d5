import RobotConsole.Proofs.Recording

/-!
# Changes and the answers before them

A command that changes the index has sent one request, and the service has answered it.  A request
that creates something must have been answered by a success.  A request to remove something may have
been answered by anything: what the index knows of the resource is dropped even if the service has
refused to remove it.
-/

set_option autoImplicit false

namespace RobotConsole

/-- The requests that have passed since `before`, each with the answer that it has taken, if one was
left. -/
def Exchange.dealings (before after : Exchange) : List (Request × Option Answer) :=
  (after.sent.drop before.sent.length).mapIdx fun position request =>
    (request, before.answers[position]?)

theorem Exchange.dealings_record (exchange : Exchange) (request : Request) (answer : Answer)
    (left : List Answer) (answered : exchange.answers = answer :: left) :
    exchange.dealings (exchange.record request left) = [(request, some answer)] := by
  simp [dealings, answered]

/-- The request of a change that is due removes something, or it creates something and has been
answered by a success. -/
theorem Due.removal_or_success {surroundings : Surroundings} {tables : Index.Tables}
    {reply : Response} {command : Command} {request : Request} {change : Change}
    (due : Due surroundings tables reply command request change) :
    request.method = .delete ∨ request.method = .post ∧ 200 ≤ reply.status ∧
      reply.status < 300 := by
  cases due with
  | robot _ _ created => exact Or.inr ⟨rfl, created.least, created.most⟩
  | execution _ created => exact Or.inr ⟨rfl, created.least, created.most⟩
  | periodical _ created => exact Or.inr ⟨rfl, created.least, created.most⟩
  | robotRemoval _ => exact Or.inl rfl
  | executionRemoval _ => exact Or.inl rfl
  | periodicalRemoval _ => exact Or.inl rfl

namespace Command

/-- If some table is not what it was, one request has been sent and the service has answered it: a
removal in any way, and a creation by a success. -/
theorem changes_follow_answers (surroundings : Surroundings) (command : Command) (desk : Desk)
    (sink : Sink)
    (changed : (command.perform surroundings desk sink).2.1.store.tables? ≠ desk.store.tables?) :
    ∃ request reply,
      desk.exchange.dealings (command.perform surroundings desk sink).2.1.exchange =
        [(request, some (.response reply))] ∧
      (request.method = .delete ∨ request.method = .post ∧ 200 ≤ reply.status ∧
        reply.status < 300) := by
  rcases perform_effect surroundings command desk sink with
    ⟨-, kept⟩ | ⟨tables, reply, left, request, change, -, answered, due, -, finish⟩
  · exact absurd (congrArg Index.Store.tables? kept) changed
  · refine ⟨request, reply, ?_, due.removal_or_success⟩
    rw [finish]
    exact desk.exchange.dealings_record request _ left answered

/-! A service that refuses to remove a robot. -/

def refusing : Desk :=
  ⟨.sound oneRobot, .start [.response ⟨500, none, "busy"⟩] .unreachable⟩

def removal : Command := .deleteRobot "11111111-1111-1111-1111-111111111111"

def refused : Desk :=
  (removal.perform (typed "") refusing ⟨none, []⟩).2.1

theorem changes_follow_answers_refused :
    refused.store.tables? ≠ refusing.store.tables? ∧
      ∃ request reply, refusing.exchange.dealings refused.exchange =
        [(request, some (.response reply))] ∧
        (request.method = .delete ∨ request.method = .post ∧ 200 ≤ reply.status ∧
          reply.status < 300) := by
  have changed : refused.store.tables? ≠ refusing.store.tables? := by decide +kernel
  exact ⟨changed, changes_follow_answers (typed "") removal refusing ⟨none, []⟩ changed⟩

/-- A change does not show that every request has been answered by a success: the robot is gone from
the index although the service has refused to remove it. -/
theorem refused_removal_changes_index :
    ¬ ∀ (surroundings : Surroundings) (command : Command) (desk : Desk) (sink : Sink),
      (command.perform surroundings desk sink).2.1.store.tables? ≠ desk.store.tables? →
        ∀ dealing ∈ desk.exchange.dealings (command.perform surroundings desk sink).2.1.exchange,
          ∃ reply, dealing.2 = some (.response reply) ∧ 200 ≤ reply.status ∧
            reply.status < 300 := by
  intro succeeded
  have changed : refused.store.tables? ≠ refusing.store.tables? := by decide +kernel
  have passed : (Talk.deleteRequest "http://h/1", some (.response ⟨500, none, "busy"⟩)) ∈
      refusing.exchange.dealings refused.exchange := by decide +kernel
  obtain ⟨reply, answer, -, most⟩ :=
    succeeded (typed "") removal refusing ⟨none, []⟩ changed _ passed
  have reply_eq : ⟨500, none, "busy"⟩ = reply := Answer.response.inj (Option.some.inj answer)
  rw [← reply_eq] at most
  exact absurd most (by decide)

end Command

end RobotConsole
