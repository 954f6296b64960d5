import RobotConsole.Proofs.Requests

/-!
# Polling a resource

A resource is asked for until an answer says something else than that it is not ready, or until a
limit of attempts is spent.  As long as answers say so, every round is one request and one wait.
What passes is therefore told by the number of these answers, and what polling comes to by the
answer behind them alone.  A limit can turn a result into a fault, and does nothing else; and a
counter of 32 bits holds every number of attempts that such a limit allows.
-/

set_option autoImplicit false

namespace RobotConsole

/-! ## What passes -/

namespace Exchange

/-- The next answers, as many as `count`, say that a resource is not ready. -/
def Unready (exchange : Exchange) (count : Nat) : Prop :=
  ∀ position < count, ∃ response,
    exchange.answers[position]? = some (.response response) ∧ response.status = notReadyStatus

/-- What a request meets: an answer, or the silence when there is none. -/
def meeting (exchange : Exchange) (url : String) : Option Answer → Except Fault Response
  | none => .error (exchange.silence url)
  | some answer => answer.outcome

def replyAt (exchange : Exchange) (url : String) (position : Nat) : Except Fault Response :=
  exchange.meeting url exchange.answers[position]?

def pollEvents (request : Request) (interval again : Nat) : List Event :=
  .sent request :: (List.replicate again [.waited interval, .sent request]).flatten

def afterPolls (exchange : Exchange) (request : Request) (interval again : Nat) : Exchange :=
  { exchange with
    answers := exchange.answers.drop (again + 1)
    events := exchange.events ++ pollEvents request interval again }

/-- How an exchange stands when a request has been sent `rounds` times and the wait after the last
one is over. -/
def beforePoll (exchange : Exchange) (request : Request) (interval : Nat) : Nat → Exchange
  | 0 => exchange
  | rounds + 1 => (exchange.afterPolls request interval rounds).wait interval

/-- The same request has been sent once and then `again` more times, with a wait before each of
these, and no more often than a limit allows. -/
structure Polled (patience : Talk.Patience) (request : Request) (again : Nat)
    (before after : Exchange) : Prop where
  sent : after.sent = before.sent ++ List.replicate (again + 1) request
  waits : after.waits = before.waits ++ List.replicate again patience.interval
  limited : ∀ limit, patience.limit = some limit → again + 1 ≤ max limit 1

variable (exchange : Exchange) (request : Request) (interval : Nat)

theorem answers_beforePoll (rounds : Nat) :
    (exchange.beforePoll request interval rounds).answers = exchange.answers.drop rounds := by
  cases rounds <;> rfl

theorem meeting_beforePoll (rounds : Nat) :
    (exchange.beforePoll request interval rounds).meeting = exchange.meeting := by
  cases rounds <;> rfl

theorem after_beforePoll (rounds : Nat) :
    (exchange.beforePoll request interval rounds).after request =
      exchange.afterPolls request interval rounds := by
  cases rounds with
  | zero => simp [beforePoll, afterPolls, pollEvents, after, record]
  | succ rounds =>
      simp [beforePoll, afterPolls, pollEvents, after, record, wait, List.replicate_succ',
        List.flatten_append]

theorem sent_afterPolls (again : Nat) :
    (exchange.afterPolls request interval again).sent =
      exchange.sent ++ List.replicate (again + 1) request := by
  induction again with
  | zero => rw [← after_beforePoll, sent_after, beforePoll, List.replicate_one]
  | succ again ih =>
      rw [← after_beforePoll, sent_after, beforePoll, sent_wait, ih,
        List.replicate_succ' (n := again + 1), List.append_assoc]

theorem waits_afterPolls (again : Nat) :
    (exchange.afterPolls request interval again).waits =
      exchange.waits ++ List.replicate again interval := by
  have unmoved : ∀ exchange : Exchange, (exchange.after request).waits = exchange.waits := by
    intro exchange
    exact exchange.waits_record request exchange.answers.tail
  induction again with
  | zero => rw [← after_beforePoll, unmoved, beforePoll, List.replicate_zero, List.append_nil]
  | succ again ih =>
      rw [← after_beforePoll, unmoved, beforePoll, waits_wait, ih,
        List.replicate_succ' (n := again), List.append_assoc]

theorem record_beforePoll (rounds : Nat) :
    (exchange.beforePoll request interval rounds).record request
      (exchange.answers.drop (rounds + 1)) =
      exchange.afterPolls request interval rounds := by
  rw [← after_beforePoll, after, answers_beforePoll, List.tail_drop]

theorem Unready.mono {exchange : Exchange} {fewer count : Nat} (unready : exchange.Unready count)
    (less : fewer ≤ count) : exchange.Unready fewer := by
  intro position small
  exact unready position (by omega)

theorem Unready.succ {exchange : Exchange} {count : Nat} {response : Response}
    (unready : exchange.Unready count)
    (found : exchange.answers[count]? = some (.response response))
    (notReady : response.status = notReadyStatus) :
    exchange.Unready (count + 1) := by
  intro position small
  by_cases last : position = count
  · rw [last]
    exact ⟨response, found, notReady⟩
  · exact unready position (by omega)

theorem Unready.exists_next {exchange : Exchange} {rounds : Nat}
    (unready : exchange.Unready (rounds + 1)) :
    ∃ response : Response, response.status = notReadyStatus ∧
      exchange.answers.drop rounds = .response response :: exchange.answers.drop (rounds + 1) := by
  obtain ⟨response, found, notReady⟩ := unready rounds (Nat.lt_succ_self rounds)
  obtain ⟨inside, same⟩ := List.getElem?_eq_some_iff.mp found
  refine ⟨response, notReady, ?_⟩
  rw [List.drop_eq_getElem_cons inside, same]

/-- Some answer, or the silence behind the last one, ends the answers that say not ready. -/
theorem exists_turn (exchange : Exchange) :
    ∃ count, exchange.Unready count ∧ ¬ exchange.Unready (count + 1) := by
  by_contra! never
  have always : ∀ count, exchange.Unready count := by
    intro count
    induction count with
    | zero =>
        intro position small
        omega
    | succ count ih => exact never count ih
  obtain ⟨response, found, -⟩ :=
    always (exchange.answers.length + 1) exchange.answers.length (by omega)
  rw [List.getElem?_eq_none (Nat.le_refl _)] at found
  cases found

end Exchange

/-! ## The rounds of a loop -/

namespace Talk

variable (patience : Patience) (request : Request) (exchange : Exchange)

theorem pollFrom_unready {response : Response} (unready : response.status = notReadyStatus)
    (left : List Answer) (attempt : Nat) :
    pollFrom patience request (.response response :: left) attempt exchange =
      if patience.isSpent attempt
        then (.error (.notReady request.url attempt), exchange.record request left)
      else
        pollFrom patience request left (attempt + 1)
          ((exchange.record request left).wait patience.interval) := by
  simp [pollFrom, Answer.outcome, unready]

def settle (reply : Except Fault Response) : Except Fault (Option Response) :=
  reply.map fun response => if 200 ≤ response.status ∧
    response.status < 300 then some response else none

theorem pollFrom_settled (answers : List Answer) (attempt : Nat)
    (settled : ∀ response, answers.head? = some (.response response) →
      response.status ≠ notReadyStatus) :
    pollFrom patience request answers attempt exchange =
      (settle (exchange.meeting request.url answers.head?),
        exchange.record request answers.tail) := by
  cases answers with
  | nil => rfl
  | cons answer left =>
      cases answer with
      | broken detail => rfl
      | response response =>
          have other : response.status ≠ notReadyStatus := settled response rfl
          simp [pollFrom, Answer.outcome, Exchange.meeting, settle, Except.map, Response.isSuccess,
            other]

variable (url accept : String)

/-- After some rounds without an end, polling goes on as it has begun. -/
theorem get_after_rounds (rounds : Nat) (unready : exchange.Unready rounds)
    (unspent : ∀ attempt, 1 ≤ attempt → attempt ≤ rounds → patience.isSpent attempt = false) :
    (get patience url accept).run exchange =
      pollFrom patience (getRequest url accept) (exchange.answers.drop rounds) (rounds + 1)
        (exchange.beforePoll (getRequest url accept) patience.interval rounds) := by
  induction rounds with
  | zero => rfl
  | succ rounds ih =>
      have earlier := ih (unready.mono (Nat.le_succ rounds))
        (fun attempt first last => unspent attempt first (Nat.le_succ_of_le last))
      obtain ⟨response, notReady, next⟩ := unready.exists_next
      have goesOn : patience.isSpent (rounds + 1) = false :=
        unspent (rounds + 1) (by omega) (by omega)
      rw [earlier, next, pollFrom_unready _ _ _ notReady, goesOn, if_neg Bool.false_ne_true,
        Exchange.record_beforePoll]
      rfl

theorem unspent_of_lt {patience : Patience} {count : Nat}
    (allowed : ∀ limit, patience.limit = some limit → count < max limit 1) :
    ∀ attempt, 1 ≤ attempt → attempt ≤ count → patience.isSpent attempt = false := by
  intro attempt first last
  unfold Patience.isSpent
  cases limited : patience.limit with
  | none => rfl
  | some limit =>
      have below := allowed limit limited
      have unspent : ¬ limit ≤ attempt := by omega
      simp [unspent]

/-- The first answer that says something else ends the polling, if the limit lets the polling come
to it. -/
theorem get_of_turn {count : Nat} (unready : exchange.Unready count)
    (turn : ¬ exchange.Unready (count + 1))
    (allowed : ∀ limit, patience.limit = some limit → count < max limit 1) :
    (get patience url accept).run exchange =
      (settle (exchange.replyAt url count),
        exchange.afterPolls (getRequest url accept) patience.interval count) := by
  have settled : ∀ response, (exchange.answers.drop count).head? = some (.response response) →
      response.status ≠ notReadyStatus := by
    intro response head notReady
    rw [List.head?_drop] at head
    exact turn (unready.succ head notReady)
  rw [get_after_rounds patience exchange url accept count unready (unspent_of_lt allowed),
    pollFrom_settled _ _ _ _ _ settled, List.tail_drop, Exchange.record_beforePoll,
    Exchange.meeting_beforePoll,
    List.head?_drop]
  rfl

/-- Answers that say not ready for as long as the limit allows end the polling in a fault. -/
theorem get_of_spent {limit : Nat} (limited : patience.limit = some limit)
    (unready : exchange.Unready (max limit 1)) :
    (get patience url accept).run exchange =
      (.error (.notReady url (max limit 1)),
        exchange.afterPolls (getRequest url accept) patience.interval (max limit 1 - 1)) := by
  obtain ⟨rounds, last⟩ : ∃ rounds, max limit 1 = rounds + 1 := ⟨max limit 1 - 1, by omega⟩
  have allowed : ∀ other, patience.limit = some other → rounds < max other 1 := by
    intro other same
    rw [limited] at same
    cases same
    omega
  rw [last] at unready ⊢
  obtain ⟨response, notReady, next⟩ := unready.exists_next
  have spent : patience.isSpent (rounds + 1) = true := by
    simp only [Patience.isSpent, limited, decide_eq_true_eq]
    omega
  rw [get_after_rounds patience exchange url accept rounds (unready.mono (Nat.le_succ rounds))
    (unspent_of_lt allowed),
    next, pollFrom_unready _ _ _ notReady, if_pos spent, Exchange.record_beforePoll,
    Nat.add_sub_cancel]
  rfl

/-- Polling either comes to an answer that says something else, or spends its limit. -/
theorem get_cases :
    (∃ count, exchange.Unready count ∧ ¬ exchange.Unready (count + 1) ∧
      (∀ limit, patience.limit = some limit → count < max limit 1) ∧
      (get patience url accept).run exchange =
        (settle (exchange.replyAt url count),
          exchange.afterPolls (getRequest url accept) patience.interval count)) ∨
    ∃ limit, patience.limit = some limit ∧
      (get patience url accept).run exchange =
        (.error (.notReady url (max limit 1)),
          exchange.afterPolls (getRequest url accept) patience.interval (max limit 1 - 1)) := by
  obtain ⟨count, unready, turn⟩ := exchange.exists_turn
  by_cases allowed : ∀ limit, patience.limit = some limit → count < max limit 1
  · exact Or.inl ⟨count, unready, turn, allowed,
      get_of_turn patience exchange url accept unready turn allowed⟩
  · push Not at allowed
    obtain ⟨limit, limited, most⟩ := allowed
    exact Or.inr ⟨limit, limited,
      get_of_spent patience exchange url accept limited (unready.mono most)⟩

theorem polled_get :
    ∃ again, Exchange.Polled patience (getRequest url accept) again exchange
      ((get patience url accept).run exchange).2 := by
  rcases get_cases patience exchange url accept with ⟨count, -, -, allowed, ran⟩ | ⟨limit, limited,
    ran⟩
  · refine ⟨count, ?_, ?_, ?_⟩
    · rw [ran, Exchange.sent_afterPolls]
    · rw [ran, Exchange.waits_afterPolls]
    · intro limit limited
      have below := allowed limit limited
      omega
  · refine ⟨max limit 1 - 1, ?_, ?_, ?_⟩
    · rw [ran, Exchange.sent_afterPolls]
    · rw [ran, Exchange.waits_afterPolls]
    · intro other same
      rw [limited] at same
      cases same
      omega

theorem polled_getJson :
    ∃ again, Exchange.Polled patience (getRequest url jsonType) again exchange
      ((getJson patience url).run exchange).2 := by
  have passed : ((getJson patience url).run exchange).2 =
      ((get patience url jsonType).run exchange).2 := by
    simp only [getJson, bind_run]
    cases (get patience url jsonType).run exchange with
    | mk outcome exchange =>
        cases outcome with
        | error fault => rfl
        | ok found =>
            cases found with
            | none => rfl
            | some response => cases read : Json.read response.body <;> simp [read]
  rw [passed]
  exact polled_get patience exchange url jsonType

/-! ## Limits and counters -/

/-- Waits of the same length, and a limit that is higher or none at all. -/
structure Patience.Relaxed (patience relaxed : Patience) : Prop where
  interval : relaxed.interval = patience.interval
  limit : ∀ higher, relaxed.limit = some higher → ∃ limit, patience.limit = some limit ∧
    limit ≤ higher

variable {patience} in
theorem get_relaxed {relaxed : Patience} (wider : patience.Relaxed relaxed)
    (ready : ∀ other attempts, ((get patience url accept).run exchange).1 ≠
      .error (.notReady other attempts)) :
    (get relaxed url accept).run exchange = (get patience url accept).run exchange := by
  rcases get_cases patience exchange url accept with ⟨count, unready, turn, allowed, ran⟩ | ⟨limit,
    -, ran⟩
  · have still : ∀ higher, relaxed.limit = some higher → count < max higher 1 := by
      intro higher isHigher
      obtain ⟨limit, limited, above⟩ := wider.limit higher isHigher
      have below := allowed limit limited
      omega
    rw [ran, get_of_turn relaxed exchange url accept unready turn still, wider.interval]
  · rw [ran] at ready
    exact absurd rfl (ready url (max limit 1))

theorem status_of_get {response : Response}
    (got : ((get patience url accept).run exchange).1 = .ok (some response)) :
    response.status ≠ notReadyStatus := by
  rcases get_cases patience exchange url accept with ⟨count, unready, turn, -, ran⟩ | ⟨limit, -,
    ran⟩
  · rw [ran] at got
    simp only [settle, Exchange.replyAt] at got
    cases found : exchange.answers[count]? with
    | none =>
        rw [found] at got
        cases got
    | some answer =>
        cases answer with
        | broken detail =>
            rw [found] at got
            cases got
        | response final =>
            rw [found] at got
            simp only [Exchange.meeting, Answer.outcome, Except.map, Except.ok.injEq] at got
            split at got
            · cases got
              intro notReady
              exact turn (unready.succ found notReady)
            · cases got
  · rw [ran] at got
    cases got

/-- Polling with the attempts counted in 32 bits; nothing, if there is no next number. -/
def pollCounted (next? : UInt32 → Option UInt32) (patience : Patience) (request : Request) :
    List Answer → UInt32 → Exchange → Option (Except Fault (Option Response) × Exchange)
  | [], _, exchange => some (.error (exchange.silence request.url), exchange.record request [])
  | answer :: left, attempt, exchange =>
      let after := exchange.record request left
      match answer.outcome with
      | .error fault => some (.error fault, after)
      | .ok response =>
          if response.status = notReadyStatus then
            if patience.isSpent attempt.toNat then
              some (.error (.notReady request.url attempt.toNat), after)
            else
              (next? attempt).bind fun next =>
                pollCounted next? patience request left next (after.wait patience.interval)
          else some (.ok (if response.isSuccess then some response else none), after)

/-- The number after the last one is missing. -/
def checkedNext? (attempt : UInt32) : Option UInt32 :=
  if attempt.toNat + 1 < UInt32.size then some (attempt + 1) else none

/-- The number after the last one is zero. -/
def wrappingNext? (attempt : UInt32) : Option UInt32 :=
  some (attempt + 1)

/-- Under a limit of 32 bits the counter does not run over, and counts the attempts. -/
theorem pollCounted_checked {limit : UInt32} (limited : patience.limit = some limit.toNat)
    (answers : List Answer) (attempt : UInt32) :
    pollCounted checkedNext? patience request answers attempt exchange =
      some (pollFrom patience request answers attempt.toNat exchange) := by
  induction answers generalizing attempt exchange with
  | nil => rfl
  | cons answer left ih =>
      simp only [pollCounted, pollFrom]
      cases answer.outcome with
      | error fault => rfl
      | ok response =>
          by_cases unready : response.status = notReadyStatus
          · simp only [if_pos unready]
            by_cases spent : patience.isSpent attempt.toNat = true
            · simp only [if_pos spent]
            · have below : attempt.toNat < limit.toNat := by
                simpa [Patience.isSpent, limited] using spent
              have inside : attempt.toNat + 1 < UInt32.size := by
                have most := limit.toNat_lt
                simp only [UInt32.size]
                omega
              have counted : (attempt + 1).toNat = attempt.toNat + 1 := by
                rw [UInt32.toNat_add]
                exact Nat.mod_eq_of_lt inside
              simp only [if_neg spent, checkedNext?, if_pos inside, Option.bind_some, ih, counted]
          · simp only [if_neg unready]

/-- Without a limit it does not matter what the counter says. -/
theorem pollCounted_wrapping (unlimited : patience.limit = none) (answers : List Answer)
    (counter : UInt32) (attempt : Nat) :
    pollCounted wrappingNext? patience request answers counter exchange =
      some (pollFrom patience request answers attempt exchange) := by
  have unspent (attempts : Nat) : patience.isSpent attempts = false := by
    simp only [Patience.isSpent, unlimited]
  induction answers generalizing counter attempt exchange with
  | nil => rfl
  | cons answer left ih =>
      simp only [pollCounted, pollFrom, unspent, Bool.false_eq_true, if_false, wrappingNext?,
        Option.bind_some]
      cases answer.outcome with
      | error fault => rfl
      | ok response =>
          by_cases unready : response.status = notReadyStatus
          · simp only [if_pos unready, ih _ _ (attempt + 1)]
          · simp only [if_neg unready]

/-! ## Polling told by the answers -/

/-- When `count` answers say not ready before one does not, and the limit lets polling come to that
one, then `count + 1` equal requests are sent with one wait between each two, and the result is told
by that answer alone.  When as many answers as the limit allows say not ready, however many more of
them there are, as many requests are sent, and polling fails.  A counter of 32 bits does not run
over under a limit, and may run over without one.  No response that says not ready is handed on, and
a higher limit or none leaves every result as it is that was not a fault of the limit. -/
theorem get_as_answered (patience : Patience) (url accept : String) (exchange : Exchange) :
    let request := getRequest url accept
    let polling := (get patience url accept).run exchange
    (∀ again,
      (exchange.afterPolls request patience.interval again).sent =
          exchange.sent ++ List.replicate (again + 1) request ∧
      (exchange.afterPolls request patience.interval again).waits =
        exchange.waits ++ List.replicate again patience.interval) ∧
    (∀ count, exchange.Unready count → ¬ exchange.Unready (count + 1) →
      (∀ limit, patience.limit = some limit → count < max limit 1) →
      polling = (settle (exchange.replyAt url count),
        exchange.afterPolls request patience.interval count)) ∧
    (∀ limit, patience.limit = some limit → exchange.Unready (max limit 1) →
      polling =
        (.error (.notReady url (max limit 1)),
          exchange.afterPolls request patience.interval (max limit 1 - 1))) ∧
    (∀ limit : UInt32, patience.limit = some limit.toNat →
      pollCounted checkedNext? patience request exchange.answers 1 exchange = some polling) ∧
    (patience.limit = none →
      pollCounted wrappingNext? patience request exchange.answers 1 exchange = some polling) ∧
    (∀ response, polling.1 = .ok (some response) → response.status ≠ notReadyStatus) ∧
    ∀ relaxed, patience.Relaxed relaxed →
      (∀ other attempts, polling.1 ≠ .error (.notReady other attempts)) →
      (get relaxed url accept).run exchange = polling := by
  intro request polling
  refine ⟨?_, ?_, ?_, ?_, ?_, ?_, ?_⟩
  · intro again
    exact ⟨exchange.sent_afterPolls request patience.interval again,
      exchange.waits_afterPolls request patience.interval again⟩
  · intro count unready turn allowed
    exact get_of_turn patience exchange url accept unready turn allowed
  · intro limit limited unready
    exact get_of_spent patience exchange url accept limited unready
  · intro limit limited
    exact pollCounted_checked patience request exchange limited exchange.answers 1
  · intro unlimited
    exact pollCounted_wrapping patience request exchange unlimited exchange.answers 1 1
  · intro response got
    exact status_of_get patience exchange url accept got
  · intro relaxed wider ready
    exact get_relaxed exchange url accept wider ready

/-! A resource that is ready when it is asked for the third time. -/

def slow : Exchange :=
  .start [.response ⟨204, none, ""⟩, .response ⟨204, none, ""⟩, .response ⟨200, none, "done"⟩]
    .unreachable

theorem get_as_answered_slow :
    (get ⟨3, some 3⟩ "http://h/1" "text/plain").run slow =
      (.ok (some ⟨200, none, "done"⟩), slow.afterPolls (getRequest "http://h/1" "text/plain") 3 2) ∧
    (get ⟨3, some 2⟩ "http://h/1" "text/plain").run slow =
      (.error (.notReady "http://h/1" 2),
        slow.afterPolls (getRequest "http://h/1" "text/plain") 3 1) ∧
    (get ⟨3, some 0⟩ "http://h/1" "text/plain").run slow =
      (.error (.notReady "http://h/1" 1),
        slow.afterPolls (getRequest "http://h/1" "text/plain") 3 0) ∧
    pollCounted checkedNext? ⟨3, some 4294967295⟩ (getRequest "http://h/1" "text/plain")
      slow.answers 1 slow = some ((get ⟨3, some 4294967295⟩ "http://h/1" "text/plain").run slow) ∧
    pollCounted wrappingNext? ⟨3, none⟩ (getRequest "http://h/1" "text/plain") slow.answers 1
      slow = some ((get ⟨3, none⟩ "http://h/1" "text/plain").run slow) ∧
    (Response.mk 200 none "done").status ≠ notReadyStatus ∧
    (get ⟨3, none⟩ "http://h/1" "text/plain").run slow =
      (get ⟨3, some 3⟩ "http://h/1" "text/plain").run slow := by
  have two : slow.Unready 2 := by
    intro position small
    match position, small with
    | 0, _ => exact ⟨⟨204, none, ""⟩, rfl, rfl⟩
    | 1, _ => exact ⟨⟨204, none, ""⟩, rfl, rfl⟩
  have notThree : ¬ slow.Unready 3 := by
    intro unready
    obtain ⟨response, found, notReady⟩ := unready 2 (by omega)
    cases found
    cases notReady
  obtain ⟨-, ready, -, -, -, handed, relaxed⟩ :=
    get_as_answered ⟨3, some 3⟩ "http://h/1" "text/plain" slow
  obtain ⟨-, -, spent, -⟩ := get_as_answered ⟨3, some 2⟩ "http://h/1" "text/plain" slow
  obtain ⟨-, -, spentAtOnce, -⟩ := get_as_answered ⟨3, some 0⟩ "http://h/1" "text/plain" slow
  obtain ⟨-, -, -, counted, -⟩ :=
    get_as_answered ⟨3, some 4294967295⟩ "http://h/1" "text/plain" slow
  obtain ⟨-, -, -, -, wrapped, -⟩ := get_as_answered ⟨3, none⟩ "http://h/1" "text/plain" slow
  have done := ready 2 two notThree (by rintro limit ⟨⟩; omega)
  refine ⟨done, spent 2 rfl two, spentAtOnce 0 rfl (two.mono (by omega)), counted 4294967295 rfl,
    wrapped rfl, handed ⟨200, none, "done"⟩ (by rw [done]; rfl), ?_⟩
  refine relaxed ⟨3, none⟩ ⟨rfl, by rintro higher ⟨⟩⟩ ?_
  intro other attempts failed
  rw [done] at failed
  cases failed

end Talk

end RobotConsole
