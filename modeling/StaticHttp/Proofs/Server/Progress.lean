import StaticHttp.Proofs.Pool.Progress
import StaticHttp.Proofs.Server.Signal

/-!
# A server does not get stuck

When neither the dispatcher nor a worker nor a caller of the stop signal can go on
(`Server.Stuck`), and no visitor has brought a worker down, the server has stopped, or it waits for
visitors and nobody has called the stop signal (`stuck_cases`). The dispatcher cannot wait in vain
at a full queue, for there all workers would be down; nor for the end of a worker, for that worker
can go on; nor for a visitor once the stop signal is raised, for the connection that wakes it was
not let in and so waits in the backlog.
-/

namespace StaticHttp

namespace Server

variable {capacity workers : Nat} {server next : Server} {move : ServerMove}

/-- Nobody can go on by himself. Visitors may still come, accepting may be interrupted or fail, and
waiting threads may be roused. -/
structure Stuck (server : Server) : Prop where
  dispatcher : ∀ wake, server.step (.dispatch wake) = none
  workers : ∀ i wake elapsed, server.step (.work i wake elapsed) = none
  callers : ∀ i, server.step (.raise i) = none

/-- The server waits for visitors: nobody stands at the listener, and each of so many workers waits
at the empty queue. -/
structure Waits (workers : Nat) (server : Server) : Prop where
  accepting : server.dispatcher = .accepting
  wanted : server.stopping = false
  backlog : server.backlog = []
  empty : server.crew.sharing.queue.toList = []
  taking : ∀ i < workers, server.crew.sharing.threads[Crew.threadOf i]? = some (.parked .take)

/-! ## The callers -/

/-- Who calls the stop signal stays among its callers. -/
theorem Transition.callers_ne_nil (step : server.Transition move next)
    (called : move = .call ∨ server.callers ≠ []) : next.callers ≠ [] := by
  have before : move ≠ .call → server.callers ≠ [] := called.resolve_left
  cases step with
  | arrive | wakeUp => simpa using before nofun
  | call => exact List.concat_ne_nil _ _
  | set => simpa using before nofun
  | _ => exact before nofun

theorem callers_ne_nil_of_steps {site : Site} {moves : List ServerMove}
    (run : (start site capacity workers).steps moves = some server) (called : .call ∈ moves) :
    server.callers ≠ [] := by
  refine foldlM_induction (motive := fun moves server => .call ∈ moves → server.callers ≠ [])
    (fun none => absurd none List.not_mem_nil) ?_ run called
  intro moves server move next _ ih hstep called
  refine (transition_of_step hstep).callers_ne_nil ?_
  rcases List.mem_append.mp called with before | last
  · exact .inr (ih before)
  · exact .inl (List.mem_singleton.mp last).symm

namespace Stuck

/-- Every caller of the stop signal is through. -/
theorem finished (stuck : server.Stuck) {i : Nat} {place : Caller}
    (found : server.callers[i]? = some place) : place = .finished := by
  have none := stuck.callers i
  cases place with
  | setting | connecting => simp only [step, raise, found, reduceCtorEq] at none
  | finished => rfl

/-- If the stop signal is raised, the connection that wakes the dispatcher has been made. -/
theorem exists_wakeUp {reached knocked : List Nat} (stuck : server.Stuck)
    (signalled : server.Signalled reached knocked) (woken : server.Woken knocked)
    (stopping : server.stopping = true) (going : server.isStopped = false) :
    ∃ visitor ∈ server.visitors, visitor.isWakeUp = true := by
  obtain ⟨first, rest, rfl⟩ := List.exists_cons_of_ne_nil (signalled.stopping_iff.mp stopping)
  have knocked_pos : 0 < knocked.length := by
    refine List.length_pos_of_ne_nil fun nobody => ?_
    cases stuck.finished ((signalled.connecting_iff first).mpr ⟨rfl, nobody⟩)
  rw [← woken.count_eq going, List.countP_pos_iff] at knocked_pos
  exact knocked_pos

/-- If the stop signal is not raised, nobody has called it. -/
theorem callers_eq_nil {reached knocked : List Nat} (stuck : server.Stuck)
    (signalled : server.Signalled reached knocked) (wanted : server.stopping = false) :
    server.callers = [] := by
  cases called : server.callers with
  | nil => rfl
  | cons place rest =>
    have found : server.callers[0]? = some place := congrArg (·[0]?) called
    have past : place ≠ .setting := by
      rw [stuck.finished found]
      exact nofun
    have mem := (signalled.reached_iff 0).mpr ⟨place, found, past⟩
    rw [(signalled.eq_nil_of_not_stopping wanted).1] at mem
    cases mem

/-! ## The dispatcher -/

theorem halted (stuck : server.Stuck) : server.crew.Halted := fun i wake =>
  Option.map_eq_none_iff.mp (stuck.workers i wake {})

/-- A dispatcher that waits for a visitor has not been asked to stop. -/
theorem wanted_of_accepting {reached knocked : List Nat} (stuck : server.Stuck)
    (received : server.Received) (signalled : server.Signalled reached knocked)
    (woken : server.Woken knocked) (accepting : server.dispatcher = .accepting)
    (backlog : server.backlog = []) : server.stopping = false := by
  refine Bool.eq_false_of_not_eq_true fun stopping => ?_
  have going : server.isStopped = false := by rw [isStopped, accepting]
  obtain ⟨visitor, mem, isWakeUp⟩ := stuck.exists_wakeUp signalled woken stopping going
  -- He was not let in, so he would have to wait at the listener.
  have turnedAway := received.serving (by rw [accepting]; rfl)
  simp only [visitors, accepting, backlog, turnedAway, Dispatcher.inHand, List.append_nil] at mem
  cases (woken.refused visitor (List.mem_append_left _ mem)).symm.trans isWakeUp

/-- A dispatcher that waits for a visitor waits at an empty backlog, and all workers at an empty
queue. -/
theorem waits_of_accepting {reached knocked : List Nat} (stuck : server.Stuck)
    (steady : server.Steady capacity workers) (received : server.Received)
    (signalled : server.Signalled reached knocked) (woken : server.Woken knocked)
    (staffed : 0 < workers) (up : ∀ i : Nat, server.crew.workers[i]? ≠ some (.ended .crashed))
    (accepting : server.dispatcher = .accepting) :
    server.callers = [] ∧ server.Waits workers := by
  have backlog : server.backlog = [] := by
    cases waiting : server.backlog with
    | nil => rfl
    | cons visitor rest =>
      have none := stuck.dispatcher none
      simp only [step, dispatch, accepting, waiting, reduceCtorEq] at none
  have wanted := stuck.wanted_of_accepting received signalled woken accepting backlog
  refine ⟨stuck.callers_eq_nil signalled wanted, ?_⟩
  have stands := steady.stands
  rw [accepting] at stands
  cases stands with
  | between _ found isOpen =>
    have taking : ∀ i < workers,
        server.crew.sharing.threads[Crew.threadOf i]? = some (.parked .take) := by
      intro i hi
      have worker := List.getElem?_eq_getElem (steady.length_eq.symm ▸ hi)
      refine (stuck.halted.down_or_waits steady.crew isOpen worker).resolve_left fun down => ?_
      exact up i (worker.trans (congrArg some down))
    refine ⟨accepting, wanted, backlog, ?_, taking⟩
    exact stuck.halted.empty_of_waits steady.crew.seated isOpen found rfl (taking 0 staffed)
  | putting plan | put plan => cases plan

/-- A dispatcher that puts a visitor into the queue can go on. -/
theorem not_offering (stuck : server.Stuck) (h : server.Steady capacity workers)
    (positive : 0 < capacity) (staffed : 0 < workers)
    (up : ∀ i : Nat, server.crew.workers[i]? ≠ some (.ended .crashed)) {visitor : Visitor} :
    server.dispatcher ≠ .offering visitor := by
  intro offering
  have stands := h.stands
  rw [offering] at stands
  have awake : ∀ {p : Phase Visitor}, server.crew.sharing.threads[0]? = some p →
      (∀ who, p.isParked who = false) → False := by
    intro p found awake
    obtain ⟨wake, reply, sharing, hturn⟩ :=
      Owner.exists_turn (.busy [.offer visitor]) rfl found awake
    have none := stuck.dispatcher wake
    rcases reply with _ | ⟨_ | _ | _ | _⟩ <;>
      simp only [step, dispatch, offering, hturn, reduceCtorEq] at none
  cases stands with
  | between _ found => exact awake found fun _ => rfl
  | put _ found => exact awake found fun _ => rfl
  | @putting _ _ _ p _ found puts isOpen =>
    cases p with
    | parked c =>
      cases puts
      have worker := List.getElem?_eq_getElem (h.length_eq.symm ▸ staffed)
      have down := (stuck.halted.all_down h.crew positive isOpen found).2 0 _ worker
      exact up 0 (worker.trans (congrArg some down))
    | entering | notified | roused => exact awake found fun _ => rfl
    | _ => cases puts

/-- A dispatcher that drains the queue can go on until all workers have ended and it has taken the
queue apart. -/
theorem stopped_of_draining (stuck : server.Stuck) (h : server.Steady capacity workers)
    (draining : server.dispatcher.isDraining = true) :
    server.stage = .stopped ∧ ∀ worker ∈ server.crew.workers, ∃ e, worker = .ended e := by
  have stands := h.stands
  cases was : server.dispatcher with
  | draining failure drain =>
    rw [was] at stands
    cases going : drain.isDone with
    | false =>
      obtain ⟨wake, after, hdrain⟩ := stands.exists_drain h.crew.seated stuck.halted going
      have none := stuck.dispatcher wake
      simp only [step, dispatch, was, hdrain, Option.map_some, reduceCtorEq] at none
    | true =>
      refine ⟨by simp only [stage, was, going, if_true], fun worker mem => ?_⟩
      obtain ⟨i, found⟩ := List.getElem?_of_mem mem
      cases stands with
      | @done endings _ _ _ seen all =>
        have hlt := (List.getElem?_eq_some_iff.mp found).1
        rw [all] at hlt
        have ended := seen i _ (List.getElem?_eq_getElem hlt)
        exact ⟨_, Option.some.inj (found.symm.trans ended)⟩
      | _ => cases going
  | _ =>
    rw [was] at draining
    cases draining

end Stuck

/-! ## Runs -/

/-- In every run of a server with room in its queue and at least one worker, whoever comes, raises
the stop signal, interrupts or fails the dispatcher, or rouses a thread: when nobody can go on and
no visitor has brought a worker down, the server has stopped and all workers have ended, or nobody
has called the stop signal and the server waits for visitors. So if somebody has called it, the
server has stopped. -/
theorem stuck_cases {site : Site} {moves : List ServerMove} (positive : 0 < capacity)
    (staffed : 0 < workers) (run : (start site capacity workers).steps moves = some server)
    (unharmed : ∀ service ∈ server.crew.services, service.result ≠ .error .crash)
    (stuck : server.Stuck) :
    ((server.stage = .stopped ∧ ∀ worker ∈ server.crew.workers, ∃ e, worker = .ended e) ∨
      (.call ∉ moves ∧ server.Waits workers)) ∧
    (.call ∈ moves → server.stage = .stopped) := by
  obtain ⟨steady, received⟩ := steady_of_steps run
  obtain ⟨signalled, woken⟩ := signalled_of_steps run
  have up := steady.crew.ledger.not_down unharmed
  have cases : (server.stage = .stopped ∧ ∀ worker ∈ server.crew.workers, ∃ e, worker = .ended e) ∨
      (.call ∉ moves ∧ server.Waits workers) := by
    cases was : server.dispatcher with
    | polling =>
      have none := stuck.dispatcher none
      simp only [step, dispatch, was, reduceCtorEq] at none
    | accepting =>
      obtain ⟨uncalled, waits⟩ :=
        stuck.waits_of_accepting steady received signalled woken staffed up was
      exact .inr ⟨fun called => callers_ne_nil_of_steps run called uncalled, waits⟩
    | rechecking visitor =>
      have none := stuck.dispatcher none
      cases flag : server.stopping <;>
        simp only [step, dispatch, was, flag, if_true, Bool.false_eq_true, if_false,
          reduceCtorEq] at none
    | offering visitor => exact absurd was (stuck.not_offering steady positive staffed up)
    | draining failure drain => exact .inl (stuck.stopped_of_draining steady (by rw [was]; rfl))
  refine ⟨cases, fun called => ?_⟩
  rcases cases with ⟨stopped, _⟩ | ⟨uncalled, _⟩
  · exact stopped
  · exact absurd called uncalled

/-- The stop signal is called while the dispatcher waits at a full queue: the server stops. -/
theorem stuck_cases_full_queue :
    ∃ server, (start ⟨⟨.directory [], [], true⟩, []⟩ 1 1).steps
        [List.replicate 2 (.arrive {}), List.replicate 11 (.dispatch none),
          [.call, .raise 0, .raise 0, .work 0 none {}, .work 0 (some 0) {}],
          List.replicate 8 (.dispatch none), List.replicate 9 (.work 0 none {}),
          List.replicate 2 (.dispatch none)].flatten = some server ∧
      server.Stuck ∧ server.stage = .stopped ∧
      ∃ waiting visitor, (start ⟨⟨.directory [], [], true⟩, []⟩ 1 1).steps
        (List.replicate 2 (.arrive {}) ++ List.replicate 11 (.dispatch none)) = some waiting ∧
        waiting.crew.sharing.threads[0]? = some (.parked (.put visitor)) := by
  have run : (start ⟨⟨.directory [], [], true⟩, []⟩ 1 1).steps
      [List.replicate 2 (.arrive {}), List.replicate 11 (.dispatch none),
        [.call, .raise 0, .raise 0, .work 0 none {}, .work 0 (some 0) {}],
        List.replicate 8 (.dispatch none), List.replicate 9 (.work 0 none {}),
        List.replicate 2 (.dispatch none)].flatten = some _ := rfl
  have waits : ∃ waiting visitor, (start ⟨⟨.directory [], [], true⟩, []⟩ 1 1).steps
      (List.replicate 2 (.arrive {}) ++ List.replicate 11 (.dispatch none)) = some waiting ∧
      waiting.crew.sharing.threads[0]? = some (.parked (.put visitor)) := ⟨_, _, rfl, rfl⟩
  refine ⟨_, run, ⟨fun _ => rfl, ?_, ?_⟩, (stuck_cases (by decide) (by decide) run (by decide)
    ⟨fun _ => rfl, ?_, ?_⟩).2 (by simp), waits⟩
  all_goals
    intro i
    cases i <;> intros <;> rfl

end Server

end StaticHttp
