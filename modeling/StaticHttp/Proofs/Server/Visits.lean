import StaticHttp.Proofs.Pool.Run
import StaticHttp.Proofs.Server.Dispatcher

/-!
# Where every visitor is

A server is steady in every state that it reaches (`Server.Steady`): its dispatcher stands where an
owner stands that has offered all visitors that were let in. If accepting never fails it is orderly
(`Server.Orderly`). Whoever has come has been put into the queue, was turned away, is in the hand of
the dispatcher, or waits in the backlog, in the order of arrival (`Server.Received`). Nobody is
turned away unless the stop signal is raised (`turnedAway_of_steps`).
-/

namespace StaticHttp

namespace Server

/-- A server whose crew is steady and whose dispatcher goes the way of an owner, whatever its
schedule and its files. -/
structure Steady (capacity workers : Nat) (server : Server) : Prop where
  crew : server.crew.Steady capacity
  length_eq : server.crew.workers.length = workers
  stands : server.dispatcher.owner.Stands (server.enqueued ++ server.dispatcher.offered) server.crew

/-- A server whose accepting does not fail is orderly. -/
structure Orderly (capacity workers : Nat) (server : Server) : Prop
    extends Steady capacity workers server where
  unfailed : server.dispatcher.failure? = none

/-- All who have come, in the order of arrival. -/
def visitors (server : Server) : List Visitor :=
  server.enqueued ++ server.turnedAway ++ server.dispatcher.inHand ++ server.backlog

/-- Nobody is lost, and nothing has happened on the connections but what the workers do. -/
structure Received (server : Server) : Prop where
  numbers : server.visitors.map (·.number) = List.range server.arrivals
  fresh : ∀ visitor ∈ server.visitors, visitor.connection.log = {}
  serving : server.dispatcher.isDraining = false → server.turnedAway = []
  few : server.turnedAway.length ≤ 1

/-- The visitor that a move brings to the listener. -/
def newcomer? (server : Server) : ServerMove → Option Visitor
  | .arrive connection =>
    if server.isStopped then none
    else some ⟨server.arrivals, { connection with log := {} }, false⟩
  | .raise caller =>
    match server.callers[caller]? with
    | some .connecting => if server.isStopped then none else some ⟨server.arrivals, {}, true⟩
    | _ => none
  | _ => none

variable {capacity workers : Nat} {server next : Server} {move : ServerMove}

theorem steady_start (site : Site) (capacity workers : Nat) :
    (start site capacity workers).Steady capacity workers where
  crew := Crew.steady_start site capacity workers
  length_eq := List.length_replicate
  stands := .between rfl rfl rfl rfl

theorem received_start (site : Site) (capacity workers : Nat) :
    (start site capacity workers).Received where
  numbers := rfl
  fresh := fun _ h => nomatch h
  serving := fun _ => rfl
  few := Nat.zero_le 1

/-! ## One more connection -/

section Connect

variable (server) (connection : Connection) (isWakeUp : Bool)

@[simp] theorem connect_crew : (server.connect connection isWakeUp).crew = server.crew := by
  unfold connect
  split <;> rfl

@[simp] theorem connect_dispatcher :
    (server.connect connection isWakeUp).dispatcher = server.dispatcher := by
  unfold connect
  split <;> rfl

@[simp] theorem connect_stopping :
    (server.connect connection isWakeUp).stopping = server.stopping := by
  unfold connect
  split <;> rfl

@[simp] theorem connect_callers :
    (server.connect connection isWakeUp).callers = server.callers := by
  unfold connect
  split <;> rfl

@[simp] theorem connect_enqueued :
    (server.connect connection isWakeUp).enqueued = server.enqueued := by
  unfold connect
  split <;> rfl

@[simp] theorem connect_turnedAway :
    (server.connect connection isWakeUp).turnedAway = server.turnedAway := by
  unfold connect
  split <;> rfl

/-- A connection makes one more visitor, unless the listener is gone. -/
private theorem connect_visitors :
    (server.connect connection isWakeUp).visitors = server.visitors ++
      (if server.isStopped then none
        else some ⟨server.arrivals, { connection with log := {} }, isWakeUp⟩).toList := by
  unfold connect
  split
  · simp only [Option.toList_none, List.append_nil]
  · simp only [visitors, Option.toList_some, List.append_assoc]

private theorem connect_arrivals :
    (server.connect connection isWakeUp).arrivals =
      server.arrivals + (!server.isStopped).toNat := by
  unfold connect
  cases server.isStopped <;> rfl

end Connect

/-! ## The dispatcher -/

/-- The crew stays steady by a move of the dispatcher. -/
private theorem steady_of_change {crew after : Crew} {owner owner' : Owner}
    (change : Owner.Change crew owner after owner') (h : crew.Steady capacity) :
    after.Steady capacity := by
  rcases change.transition with rfl | step
  · exact h
  · exact step.steady h

namespace Steady

/-- A move after which the dispatcher is to the queue what it was before. -/
private theorem of_same (h : server.Steady capacity workers) (crew : next.crew = server.crew)
    (owner : next.dispatcher.owner = server.dispatcher.owner)
    (visitors : next.enqueued ++ next.dispatcher.offered =
      server.enqueued ++ server.dispatcher.offered) : next.Steady capacity workers where
  crew := crew ▸ h.crew
  length_eq := crew ▸ h.length_eq
  stands := by
    rw [crew, owner, visitors]
    exact h.stands

/-- A move of the dispatcher that is a move of an owner. -/
private theorem of_change (h : server.Steady capacity workers)
    (change : Owner.Change server.crew server.dispatcher.owner next.crew next.dispatcher.owner)
    (visitors : next.enqueued ++ next.dispatcher.offered =
      server.enqueued ++ server.dispatcher.offered) : next.Steady capacity workers where
  crew := steady_of_change change h.crew
  length_eq := change.length_workers.trans h.length_eq
  stands := by
    rw [visitors]
    exact change.stands h.crew.seated h.stands

/-- A move of another than the dispatcher. -/
private theorem of_crew (h : server.Steady capacity workers) {crew : Crew}
    {mover : Option Nat} (step : server.crew.Transition mover crew) (other : mover ≠ some 0) :
    { server with crew }.Steady capacity workers where
  crew := step.steady h.crew
  length_eq := (step.length_workers other).trans h.length_eq
  stands := h.stands.spared h.crew.seated step other

/-- The dispatcher was not refused at the queue. -/
theorem not_refused (h : server.Steady capacity workers) {visitor : Visitor} {e : QueueError}
    (offering : server.dispatcher = .offering visitor)
    (found : server.crew.sharing.threads[0]? = some (.answered (.failed e))) : False := by
  have stands := h.stands
  rw [offering] at stands
  exact stands.not_refused found

end Steady

/-- Every move keeps a server steady. -/
theorem Transition.steady (step : server.Transition move next)
    (h : server.Steady capacity workers) : next.Steady capacity workers := by
  have stands := h.stands
  cases step with
  | arrive | wakeUp => refine h.of_same ?_ ?_ ?_ <;> simp
  | change files => exact ⟨h.crew.changes _, h.length_eq, stands.changes _⟩
  | call | set => exact h.of_same rfl rfl rfl
  | goOn was | accept was | interrupt was =>
    refine h.of_same rfl ?_ ?_ <;> rw [was] <;> rfl
  | stop was | turnAway was | fail _ was =>
    refine h.of_change ?_ ?_ <;> rw [was]
    · exact .drain
    · rfl
  | @letIn _ visitor was =>
    rw [was] at stands
    simp only [Dispatcher.offered, List.append_nil] at stands
    exact ⟨h.crew, h.length_eq, stands.offers visitor⟩
  | offer was change =>
    refine h.of_change ?_ rfl
    rw [was]
    exact change
  | enqueue was change =>
    refine h.of_change ?_ ?_ <;> rw [was]
    · exact change
    · exact List.append_nil _
  | refuse was found => exact (h.not_refused was found).elim
  | drain was change =>
    refine h.of_change ?_ ?_ <;> rw [was]
    · exact change
    · rfl
  | work step | rouse step => exact h.of_crew step nofun

/-- A dispatcher that has not failed fails only if accepting does. -/
theorem Transition.unfailed (step : server.Transition move next)
    (h : server.Steady capacity workers) (unfailed : server.dispatcher.failure? = none)
    (calm : ∀ e, move ≠ .fail e) : next.dispatcher.failure? = none := by
  cases step with
  | arrive | wakeUp => simp [unfailed]
  | refuse was found => exact (h.not_refused was found).elim
  | drain was =>
    rw [was] at unfailed
    exact unfailed
  | fail e => exact absurd rfl (calm e)
  | change | call | set | offer | work | rouse => exact unfailed
  | _ => rfl

/-! ## The visitors -/

/-- A dispatcher that drains the queue goes on doing so. -/
theorem Transition.draining_mono (step : server.Transition move next)
    (draining : server.dispatcher.isDraining = true) : next.dispatcher.isDraining = true := by
  cases step with
  | arrive | wakeUp => simp [draining]
  | goOn was | accept was | letIn was | enqueue was | interrupt was =>
    rw [was] at draining
    cases draining
  | change | call | set | offer | work | rouse => exact draining
  | _ => rfl

/-- No move loses a visitor, or puts one before another. -/
theorem Transition.visitors_eq (step : server.Transition move next)
    (h : server.Steady capacity workers) (received : server.Received) :
    next.visitors = server.visitors ++ (server.newcomer? move).toList := by
  have serving := received.serving
  have same : ∀ {visitors : List Visitor}, visitors = server.visitors →
      visitors = server.visitors ++ [] := fun heq => heq.trans (List.append_nil _).symm
  cases step with
  | arrive connection => exact server.connect_visitors connection false
  | wakeUp connecting =>
    simp only [newcomer?, connecting]
    exact connect_visitors _ {} true
  | set setting =>
    simp only [newcomer?, setting]
    exact same rfl
  | goOn was | interrupt was | stop was | fail _ was | letIn was | drain was =>
    refine same ?_
    simp only [visitors, was, Dispatcher.inHand]
  | accept was waiting =>
    refine same ?_
    simp only [visitors, was, waiting, Dispatcher.inHand, List.append_nil, List.append_assoc,
      List.singleton_append]
  | turnAway was =>
    refine same ?_
    simp only [visitors, was, Dispatcher.inHand, List.append_nil, List.append_assoc]
  | enqueue was =>
    rw [was] at serving
    refine same ?_
    simp only [visitors, was, serving rfl, Dispatcher.inHand, List.append_nil]
  | refuse was found => exact (h.not_refused was found).elim
  | change | call | offer | work | rouse => exact same rfl

/-- The newcomers have the numbers in order, and nothing has happened on their connections. -/
private theorem newcomer?_cases (server : Server) (move : ServerMove) :
    server.newcomer? move = none ∨ ∃ visitor, server.newcomer? move = some visitor ∧
      visitor.number = server.arrivals ∧ visitor.connection.log = {} := by
  unfold newcomer?
  split
  · split
    · exact .inl rfl
    · exact .inr ⟨_, rfl, rfl, rfl⟩
  · split
    · split
      · exact .inl rfl
      · exact .inr ⟨_, rfl, rfl, rfl⟩
    · exact .inl rfl
  · exact .inl rfl

theorem Transition.arrivals_eq (step : server.Transition move next) :
    next.arrivals = server.arrivals + (server.newcomer? move).toList.length := by
  cases step with
  | arrive connection =>
    rw [connect_arrivals, newcomer?]
    cases server.isStopped <;> rfl
  | wakeUp connecting =>
    rw [connect_arrivals]
    simp only [newcomer?, connecting]
    show server.arrivals + (!server.isStopped).toNat = _
    cases server.isStopped <;> rfl
  | set setting =>
    simp only [newcomer?, setting]
    rfl
  | _ => rfl

/-- Only a visitor whom the dispatcher looks at while the stop signal is raised is turned away, and
then the dispatcher drains the queue. -/
theorem Transition.turnedAway_cases (step : server.Transition move next) :
    next.turnedAway = server.turnedAway ∨
    ∃ visitor, next.turnedAway = server.turnedAway ++ [visitor] ∧
      server.dispatcher = .rechecking visitor ∧ server.stopping = true ∧
      next.dispatcher.isDraining = true := by
  cases step with
  | arrive | wakeUp =>
    left
    simp
  | turnAway rechecking stopping => exact .inr ⟨_, rfl, rechecking, stopping, rfl⟩
  | _ => exact .inl rfl

/-- No move loses a visitor. -/
theorem Transition.received (step : server.Transition move next)
    (steady : server.Steady capacity workers) (h : server.Received) : next.Received where
  numbers := by
    rw [step.visitors_eq steady h, step.arrivals_eq, List.map_append, h.numbers]
    rcases server.newcomer?_cases move with none | ⟨visitor, comes, number, _⟩
    · rw [none]
      exact List.append_nil _
    · rw [comes]
      show List.range server.arrivals ++ [visitor.number] = List.range (server.arrivals + 1)
      rw [number, List.range_succ]
  fresh := by
    rw [step.visitors_eq steady h]
    intro visitor hv
    rcases List.mem_append.mp hv with before | comes
    · exact h.fresh visitor before
    · rcases server.newcomer?_cases move with none | ⟨last, some, _, fresh⟩
      · rw [none] at comes
        cases comes
      · rw [some] at comes
        cases List.mem_singleton.mp comes
        exact fresh
  serving := by
    intro going
    have before : server.dispatcher.isDraining = false := Bool.eq_false_of_not_eq_true fun h =>
      Bool.noConfusion (going.symm.trans (step.draining_mono h))
    rcases step.turnedAway_cases with same | ⟨_, _, _, _, draining⟩
    · exact same.trans (h.serving before)
    · cases going.symm.trans draining
  few := by
    rcases step.turnedAway_cases with same | ⟨visitor, more, rechecking, _, _⟩
    · exact same ▸ h.few
    · rw [more, h.serving (rechecking ▸ rfl)]
      exact Nat.le_refl 1

/-! ## Runs -/

variable {site : Site} {moves : List ServerMove}

/-- A server is steady in every state that it reaches, and has lost nobody. -/
theorem steady_of_steps (h : (start site capacity workers).steps moves = some server) :
    server.Steady capacity workers ∧ server.Received := by
  refine foldlM_induction (motive := fun _ server =>
    server.Steady capacity workers ∧ server.Received)
    ⟨steady_start site capacity workers, received_start site capacity workers⟩ ?_ h
  intro moves server move next _ ⟨steady, received⟩ hstep
  have step := transition_of_step hstep
  exact ⟨step.steady steady, step.received steady received⟩

/-- A server whose accepting does not fail is orderly in every state that it reaches, and has lost
nobody. -/
theorem orderly_of_steps (h : (start site capacity workers).steps moves = some server)
    (calm : ∀ e, .fail e ∉ moves) : server.Orderly capacity workers ∧ server.Received := by
  obtain ⟨steady, received⟩ := steady_of_steps h
  refine ⟨⟨steady, ?_⟩, received⟩
  refine foldlM_induction (motive := fun moves server =>
    (∀ e, .fail e ∉ moves) → server.dispatcher.failure? = none) (fun _ => rfl) ?_ h calm
  intro moves server move next hrun ih hstep calm
  refine (transition_of_step hstep).unfailed (steady_of_steps hrun).1
    (ih fun e he => calm e (List.mem_append_left _ he)) fun e same => ?_
  exact calm e (List.mem_append_right _ (same ▸ List.mem_singleton_self move))

/-- Whoever was turned away was in the hand of the dispatcher at a moment at which the stop signal
was raised. -/
theorem turnedAway_of_steps (h : (start site capacity workers).steps moves = some server) :
    ∀ visitor ∈ server.turnedAway, ∃ before after moment, moves = before ++ after ∧
      (start site capacity workers).steps before = some moment ∧
      moment.dispatcher = .rechecking visitor ∧ moment.stopping = true := by
  refine exists_moment_of_mem turnedAway rfl (fun _ hstep => ?_) h
  refine (transition_of_step hstep).turnedAway_cases.imp_right ?_
  rintro ⟨visitor, more, rechecking, stopping, _⟩
  exact ⟨visitor, more, rechecking, stopping⟩

end Server

end StaticHttp
