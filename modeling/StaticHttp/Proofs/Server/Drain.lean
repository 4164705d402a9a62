import StaticHttp.Proofs.Pool.Drain
import StaticHttp.Proofs.Server.Visits

/-!
# The first failure is reported

A server that drains its queue goes on to the end whatever fails, and remembers what each part came
to: what had failed before, closing the queue, the worker of each number, and taking the queue
apart. `ServerReport.failures` lists what failed of these, in this order. What the server reports is
the first of them, or its numbers if there is none (`drain_of_drains`).

The server is followed from the moment at which it begins to drain its queue, in whatever state its
queue and its workers are then. Every run that drains its queue has such a moment
(`begins_drain_of_steps`) and is a drain from there on (`BeginsDrain.drains_of_steps`), but a drain
may also meet with what no run has: a lock that is poisoned, and workers that the queue has failed.
-/

namespace StaticHttp

/-! ## What is reported -/

/-- What a part that has failed at the queue is reported as. -/
def queueFailure? {α : Type} : Except QueueError α → Option ServerError
  | .ok _ => none
  | .error e => some (.queue e)

/-- The failures of workers that ended so, in the order of their numbers. -/
def workerFailures (endings : List Ending) : List ServerError :=
  endings.zipIdx.filterMap fun (ending, id) => ending.failure? id

theorem firstFailure?_eq_head? (endings : List Ending) :
    firstFailure? 0 endings = (workerFailures endings).head? := by
  have from_first : ∀ first, firstFailure? first endings =
      ((endings.zipIdx first).filterMap fun (ending, id) => ending.failure? id).head? := by
    induction endings with
    | nil => exact fun _ => rfl
    | cons ending rest ih =>
      intro first
      simp only [firstFailure?, List.zipIdx_cons, List.filterMap_cons]
      cases ending.failure? first with
      | none => exact ih (first + 1)
      | some failure => rfl
  exact from_first 0

namespace ServerReport

/-- What has failed of a server that has come to its end, the earliest first. -/
def failures (failure : Option ServerError) (closed : Except QueueError Unit)
    (endings : List Ending) (discarded : Except QueueError Nat) : List ServerError :=
  failure.toList ++ (queueFailure? closed).toList ++ workerFailures endings ++
    (queueFailure? discarded).toList

section Conclude

variable {accepted : Nat} {metrics : Metrics} {failure : Option ServerError}
  {closed : Except QueueError Unit} {endings : List Ending} {discarded : Except QueueError Nat}

/-- The earliest failure is reported, and the numbers only if there is none. -/
private theorem conclude_eq :
    conclude accepted metrics failure closed endings discarded =
      match (failures failure closed endings discarded).head? with
      | some e => .error e
      | none =>
        .ok ⟨accepted, total Ending.handled endings, discarded.toOption.getD 0, metrics⟩ := by
  simp only [failures, List.head?_append, Option.head?_toList, ← firstFailure?_eq_head?, conclude,
    joinAll]
  cases failure with
  | some e => rfl
  | none =>
    cases closed with
    | error e => rfl
    | ok =>
      cases firstFailure? 0 endings with
      | some e => rfl
      | none => cases discarded <;> rfl

/-- The earliest failure is reported. -/
theorem conclude_eq_error_iff {e : ServerError} :
    conclude accepted metrics failure closed endings discarded = .error e ↔
      (failures failure closed endings discarded).head? = some e := by
  rw [conclude_eq]
  split <;> simp [*]

/-- The numbers are reported if and only if nothing has failed. -/
theorem conclude_eq_ok_iff {report : ServerReport} :
    conclude accepted metrics failure closed endings discarded = .ok report ↔
      failures failure closed endings discarded = [] ∧ report.accepted = accepted ∧
      report.handled = total Ending.handled endings ∧ discarded = .ok report.discarded ∧
      report.metrics = metrics := by
  rw [conclude_eq, ← List.head?_eq_none_iff]
  cases discarded with
  | error e =>
    have failed : (failures failure closed endings (.error e)).head? ≠ none := by
      simp [failures, queueFailure?]
    split <;> simp_all
  | ok discarded =>
    obtain ⟨accepted', handled', discarded', metrics'⟩ := report
    split <;> simp [*, Except.toOption, eq_comm]

end Conclude

end ServerReport

/-- A move of the dispatcher. -/
def ServerMove.isDispatch : ServerMove → Bool
  | dispatch _ => true
  | _ => false

namespace Server

/-- A server that begins to drain its queue, whatever has become of the queue and the workers. -/
structure BeginsDrain (failure : Option ServerError) (server : Server) : Prop where
  dispatcher : server.dispatcher = .draining failure .closing
  idle : server.crew.sharing.threads[0]? = some .idle
  sound : server.crew.sharing.queue.Sound

/-- Where a server can be that has gone on from its origin by so many moves of its dispatcher. -/
inductive Drains (origin : Server) : Nat → Server → Prop
  | start : Drains origin 0 origin
  | meanwhile {made : Nat} {server later : Server} (drains : Drains origin made server)
      (others : server.crew.Meanwhile later.crew)
      (dispatcher : later.dispatcher = server.dispatcher)
      (enqueued : later.enqueued = server.enqueued) : Drains origin made later
  | dispatch {made : Nat} {wake : Option Nat} {server next : Server}
      (drains : Drains origin made server) (step : server.step (.dispatch wake) = some next) :
      Drains origin (made + 1) next

variable {capacity workers : Nat} {origin server next : Server} {move : ServerMove}
  {failure : Option ServerError} {drain : Drain} {made : Nat}

/-! ## The drain of a server -/

/-- The dispatcher does nothing but drain the queue, and the failure that it knows of is the one
that it knew of in the beginning. -/
theorem BeginsDrain.along (begins : origin.BeginsDrain failure)
    (drains : origin.Drains made server) :
    ∃ drain, server.dispatcher = .draining failure drain ∧ server.enqueued = origin.enqueued ∧
      origin.crew.Drains .closing made drain server.crew := by
  induction drains with
  | start => exact ⟨.closing, begins.dispatcher, rfl, .start⟩
  | meanwhile _ others dispatcher enqueued ih =>
    obtain ⟨drain, draining, before, drains⟩ := ih
    exact ⟨drain, dispatcher.trans draining, enqueued.trans before, drains.meanwhile others⟩
  | dispatch _ hstep ih =>
    obtain ⟨drain, draining, before, drains⟩ := ih
    simp only [step, Server.dispatch, draining] at hstep
    obtain ⟨⟨after, crew⟩, hdrain, rfl⟩ := Option.map_eq_some_iff.mp hstep
    exact ⟨after, rfl, before, drains.move hdrain⟩

/-- Every move of a server that drains its queue takes the drain further or leaves it alone. -/
theorem BeginsDrain.goes_on (begins : origin.BeginsDrain failure)
    (drains : origin.Drains made server) (hstep : server.step move = some next) :
    origin.Drains (made + move.isDispatch.toNat) next := by
  obtain ⟨drain, draining, -, crew⟩ := begins.along drains
  have sound := (crew.along begins.idle begins.sound).2.1
  cases transition_of_step hstep with
  | goOn | stop | accept | turnAway | letIn | offer | enqueue | refuse | drain =>
    exact drains.dispatch hstep
  | arrive | wakeUp =>
    refine drains.meanwhile ?_ ?_ ?_ <;> simp [Crew.Meanwhile.refl]
  | call | set => exact drains.meanwhile (.refl _) rfl rfl
  | change => exact drains.meanwhile ⟨fun _ found _ => found, id, id, rfl, fun _ _ => id⟩ rfl rfl
  | work step => exact drains.meanwhile (step.meanwhile nofun sound) rfl rfl
  | rouse step => exact drains.meanwhile (step.meanwhile nofun sound) rfl rfl
  | interrupt was | fail _ was => cases draining.symm.trans was

/-- A run of a server that begins to drain its queue is a drain. -/
theorem BeginsDrain.drains_of_steps {moves : List ServerMove}
    (begins : origin.BeginsDrain failure) (run : origin.steps moves = some server) :
    origin.Drains (moves.countP (·.isDispatch)) server := by
  refine foldlM_induction
    (motive := fun moves server => origin.Drains (moves.countP (·.isDispatch)) server) .start ?_ run
  intro moves server move next _ drains hstep
  rw [List.countP_append, List.countP_singleton]
  have further := begins.goes_on drains hstep
  cases h : move.isDispatch <;> simpa [h] using further

/-- A move that makes a steady server drain its queue finds the dispatcher back from its calls. -/
private theorem Transition.begins_drain (step : server.Transition move next)
    (h : server.Steady capacity workers) (after : next.Steady capacity workers)
    (serving : server.dispatcher.isDraining = false)
    (draining : next.dispatcher = .draining failure drain) : next.BeginsDrain failure := by
  have sound := after.crew.seated.reached.sound
  have idle : server.dispatcher.owner = .busy [] →
      server.crew.sharing.threads[0]? = some .idle := by
    intro owner
    have stands := h.stands
    rw [owner] at stands
    cases stands with
    | between _ found => exact found
    | putting plan | put plan => cases plan
  cases step with
  | stop was | turnAway was | fail _ was =>
    cases draining
    exact ⟨rfl, idle (by rw [was]; rfl), sound⟩
  | refuse offering found => exact (h.not_refused offering found).elim
  | goOn | accept | letIn | enqueue | interrupt => cases draining
  | drain was =>
    rw [was] at serving
    cases serving
  | offer was => cases was.symm.trans draining
  | arrive | wakeUp =>
    rw [connect_dispatcher] at draining
    rw [draining] at serving
    cases serving
  | call | set | change | work | rouse =>
    rw [show server.dispatcher = _ from draining] at serving
    cases serving

/-- A run that has come to drain the queue has begun to at one of its moments. -/
theorem begins_drain_of_steps {site : Site} {moves : List ServerMove}
    (run : (start site capacity workers).steps moves = some server)
    (draining : server.dispatcher = .draining failure drain) :
    ∃ before after origin, moves = before ++ after ∧
      (start site capacity workers).steps before = some origin ∧ origin.BeginsDrain failure ∧
      origin.steps after = some server := by
  -- A run that drains already stays with its moment; else its latest move is the moment.
  refine foldlM_induction (motive := fun moves server => ∀ failure drain,
    server.dispatcher = .draining failure drain → ∃ before after origin, moves = before ++ after ∧
      (start site capacity workers).steps before = some origin ∧ origin.BeginsDrain failure ∧
      origin.steps after = some server) ?_ ?_ run failure drain draining
  · intro failure drain draining
    cases draining
  · intro moves server move next hrun ih hstep failure drain draining
    have step := transition_of_step hstep
    have steady := (steady_of_steps hrun).1
    cases was : server.dispatcher with
    | draining failed far =>
      obtain ⟨before, after, origin, rfl, hbefore, begins, hafter⟩ := ih failed far was
      have run : origin.steps (after ++ [move]) = some next := by
        rw [steps, foldlM_concat]
        exact Option.bind_eq_some_iff.mpr ⟨server, hafter, hstep⟩
      obtain ⟨drain', draining', -⟩ := begins.along (begins.drains_of_steps run)
      cases draining.symm.trans draining'
      exact ⟨before, after ++ [move], origin, List.append_assoc .., hbefore, begins, run⟩
    | _ =>
      refine ⟨moves ++ [move], [], next, (List.append_nil _).symm, ?_, ?_, rfl⟩
      · rw [steps, foldlM_concat]
        exact Option.bind_eq_some_iff.mpr ⟨server, hrun, hstep⟩
      · exact step.begins_drain steady (step.steady steady) (by rw [was]; rfl) draining

/-! ## The end of a drain -/

/-- A server that has stopped: what each part of its drain came to, and what it reports. -/
structure Drained (server origin : Server) (failure : Option ServerError)
    (closed : Except QueueError Unit) (endings : List Ending)
    (discarded : Except QueueError Nat) : Prop where
  stopped : server.dispatcher = .draining failure (.done closed endings discarded)
  workers_eq : server.crew.workers = endings.map .ended
  isClosed : server.crew.sharing.queue.closed = true
  /-- Closing the queue failed if and only if its lock was poisoned then. -/
  shut : ∃ here, origin.crew.Passes 1 .closing here (endings.length + 6)
      (.done closed endings discarded) server.crew ∧
    closed = if here.sharing.queue.poisoned then .error .poisoned else .ok ()
  /-- The queue was taken apart when all workers had ended. That failed if and only if its lock was
  poisoned then. -/
  apart : ∃ here, origin.crew.Passes (endings.length + 5) (.joining closed endings) here
      (endings.length + 6) (.done closed endings discarded) server.crew ∧
    here.workers = endings.map .ended ∧
    discarded = if here.sharing.queue.poisoned then .error .poisoned
      else .ok here.sharing.queue.toList.length
  error_iff : ∀ e, server.report? = some (.error e) ↔
    (ServerReport.failures failure closed endings discarded).head? = some e
  ok_iff : ∀ report, server.report? = some (.ok report) ↔
    ServerReport.failures failure closed endings discarded = [] ∧
    report.accepted = origin.enqueued.length ∧ report.handled = total Ending.handled endings ∧
    discarded = .ok report.discarded ∧ report.metrics = server.crew.metrics

/-- A drain that is done has gone through all of its parts. -/
private theorem drained_of_along {closed : Except QueueError Unit} {endings : List Ending}
    {discarded : Except QueueError Nat}
    (along : origin.crew.Along server.crew made (.done closed endings discarded))
    (stopped : server.dispatcher = .draining failure (.done closed endings discarded))
    (enqueued : server.enqueued = origin.enqueued) :
    server.Drained origin failure closed endings discarded := by
  cases along with
  | done count isClosed shut all apart =>
    subst count
    refine ⟨stopped, all, isClosed, ?_, ?_, fun e => ?_, fun report => ?_⟩
    · obtain ⟨here, passes, rfl⟩ := shut
      refine ⟨here, passes, ?_⟩
      cases here.sharing.queue.poisoned <;> rfl
    · obtain ⟨here, passes, joined, sound, rfl⟩ := apart
      refine ⟨here, passes, joined, ?_⟩
      have ended : ∀ i < here.workers.length, ∃ e, here.workers[i]? = some (.ended e) := by
        rw [joined, List.length_map]
        intro i hi
        exact ⟨endings[i], by rw [List.getElem?_map, List.getElem?_eq_getElem hi]; rfl⟩
      rw [Queue.destroy, Crew.owners_eq_one ended, if_neg (not_not_intro rfl), sound.length_eq]
    · rw [report?, stopped]
      simp only [Option.some.injEq]
      exact ServerReport.conclude_eq_error_iff
    · rw [report?, stopped, enqueued]
      simp only [Option.some.injEq]
      exact ServerReport.conclude_eq_ok_iff

section Drain

variable (begins : origin.BeginsDrain failure) (drains : origin.Drains made server)

include begins drains

theorem made_le : made ≤ origin.crew.workers.length + 6 ∧
    (server.isStopped = true ↔ made = origin.crew.workers.length + 6) := by
  obtain ⟨drain, draining, -, crew⟩ := begins.along drains
  obtain ⟨along, -, length_eq⟩ := crew.along begins.idle begins.sound
  rw [isStopped, draining]
  exact along.moves_eq length_eq

/-- The dispatcher can go on unless it waits for a worker that has not ended. -/
theorem exists_dispatch (going : server.isStopped = false)
    (ended : ∀ closed endings, server.dispatcher = .draining failure (.joining closed endings) →
      ∀ w, server.crew.workers[endings.length]? = some w → ∃ e, w = .ended e) :
    ∃ next, server.step (.dispatch none) = some next ∧
      next.crew.workers = server.crew.workers := by
  obtain ⟨drain, draining, -, crew⟩ := begins.along drains
  rw [isStopped, draining] at going
  obtain ⟨along, -⟩ := crew.along begins.idle begins.sound
  obtain ⟨⟨after, crew⟩, hdrain⟩ := along.exists_drain going fun closed endings joining =>
    ended closed endings (by rw [draining, joining])
  refine ⟨{ server with crew, dispatcher := .draining failure after }, ?_, ?_⟩
  · simp only [step, dispatch, draining, hdrain, Option.map_some]
  · exact (Owner.Change.of_drain none hdrain).workers_eq

theorem drained_of_isStopped (stopped : server.isStopped = true) :
    ∃ closed endings discarded, server.Drained origin failure closed endings discarded := by
  obtain ⟨drain, draining, enqueued, crew⟩ := begins.along drains
  obtain ⟨along, -⟩ := crew.along begins.idle begins.sound
  rw [isStopped, draining] at stopped
  cases drain with
  | done closed endings discarded =>
    exact ⟨closed, endings, discarded, drained_of_along along draining enqueued⟩
  | _ => cases stopped

end Drain

/-- When all workers have ended, the dispatcher drains the queue to the end by itself. -/
theorem exists_drained (begins : origin.BeginsDrain failure) (more : Nat) :
    ∀ {made : Nat} {server : Server}, origin.Drains made server →
      (∀ w ∈ server.crew.workers, ∃ e, w = .ended e) →
      made + more = origin.crew.workers.length + 6 →
      ∃ closed endings discarded last, server.steps (List.replicate more (.dispatch none)) =
        some last ∧ last.Drained origin failure closed endings discarded := by
  induction more with
  | zero =>
    intro made server drains ended count
    have stopped := (made_le begins drains).2.mpr count
    obtain ⟨closed, endings, discarded, drained⟩ := drained_of_isStopped begins drains stopped
    exact ⟨closed, endings, discarded, server, rfl, drained⟩
  | succ more ih =>
    intro made server drains ended count
    have going : server.isStopped = false := by
      refine Bool.eq_false_of_not_eq_true fun stopped => ?_
      have := (made_le begins drains).2.mp stopped
      omega
    obtain ⟨next, hstep, same⟩ := exists_dispatch begins drains going
      fun _ _ _ w found => ended w (List.mem_of_getElem? found)
    obtain ⟨closed, endings, discarded, last, run, drained⟩ :=
      ih (drains.dispatch hstep) (same ▸ ended) (by omega)
    refine ⟨closed, endings, discarded, last, ?_, drained⟩
    rw [List.replicate_succ]
    exact Option.bind_eq_some_iff.mpr ⟨next, hstep, run⟩

/-- The course of a drain, seen after so many moves of the dispatcher. -/
structure Course (server origin : Server) (failure : Option ServerError) (made : Nat) : Prop where
  draining : server.dispatcher.isDraining = true
  failure_eq : server.dispatcher.failure? = failure
  /-- The dispatcher makes one move for each worker and six more. -/
  stopped_iff : server.isStopped = true ↔ made = origin.crew.workers.length + 6
  /-- It has closed the queue before it sees workers end, and sees them in the order of their
  numbers. -/
  joining : ∀ closed endings, server.dispatcher = .draining failure (.joining closed endings) →
    made = endings.length + 5 ∧ server.crew.sharing.queue.closed = true ∧
    ∀ (i : Nat) e, endings[i]? = some e → server.crew.workers[i]? = some (.ended e)
  /-- Nothing keeps it from going on but a worker that has not ended. -/
  goes_on : server.isStopped = true ∨ (∃ next, server.step (.dispatch none) = some next) ∨
    ∃ closed endings worker, server.dispatcher = .draining failure (.joining closed endings) ∧
      server.crew.workers[endings.length]? = some worker ∧ worker.isRunning = true
  /-- When all workers have ended it needs nobody else to come to the end. -/
  ends : (∀ worker ∈ server.crew.workers, ∃ e, worker = .ended e) →
    ∃ closed endings discarded last,
      server.steps (List.replicate (origin.crew.workers.length + 6 - made) (.dispatch none)) =
        some last ∧ last.Drained origin failure closed endings discarded
  drained : server.isStopped = true →
    ∃ closed endings discarded, server.Drained origin failure closed endings discarded

/-- Whatever had failed when a server began to drain its queue, and in whatever state its queue and
its workers were then, its dispatcher goes through the whole drain, and the server reports the
earliest failure in the end, or its numbers if there is none. -/
theorem drain_of_drains (begins : origin.BeginsDrain failure)
    (drains : origin.Drains made server) : server.Course origin failure made := by
  obtain ⟨few, stopped_iff⟩ := made_le begins drains
  obtain ⟨drain, draining, -, crew⟩ := begins.along drains
  refine ⟨by rw [draining]; rfl, by rw [draining]; rfl, stopped_iff, ?_, ?_, fun ended => ?_,
    drained_of_isStopped begins drains⟩
  · intro closed endings joining
    cases draining.symm.trans joining
    cases (crew.along begins.idle begins.sound).1 with
    | joining count isClosed shut seen => exact ⟨count, isClosed, seen⟩
  · refine Classical.or_iff_not_imp_left.mpr fun going => ?_
    by_cases waits : ∃ closed endings worker,
        server.dispatcher = .draining failure (.joining closed endings) ∧
        server.crew.workers[endings.length]? = some worker ∧ worker.isRunning = true
    · exact .inr waits
    · have ended : ∀ closed endings,
          server.dispatcher = .draining failure (.joining closed endings) →
          ∀ worker, server.crew.workers[endings.length]? = some worker →
            ∃ e, worker = .ended e := by
        intro closed endings joining worker found
        cases worker with
        | ended e => exact ⟨e, rfl⟩
        | _ => exact absurd ⟨closed, endings, _, joining, found, rfl⟩ waits
      obtain ⟨next, hstep, -⟩ :=
        exists_dispatch begins drains (Bool.eq_false_of_not_eq_true going) ended
      exact .inl ⟨next, hstep⟩
  · exact exists_drained begins _ drains ended (by omega)

/-- A server that begins to drain its queue when two of its three workers are down. -/
def twoDown : Server where
  crew :=
    { site := ⟨⟨.directory [], [], true⟩, []⟩
      sharing := .start 2 4
      workers := [.ended (.failed .poisoned), .ended .crashed, .taking 5] }
  dispatcher := .draining none .closing

/-- The dispatcher waits for the third worker as well, and reports the first. -/
theorem drain_of_drains_two_down :
    ∃ server closed discarded,
      twoDown.steps (List.replicate 7 (.dispatch none) ++ List.replicate 3 (.work 2 none {}) ++
        List.replicate 2 (.dispatch none)) = some server ∧
      server.Drained twoDown none closed [.failed .poisoned, .crashed, .finished 5] discarded ∧
      server.report? = some (.error (.worker 0 .poisoned)) := by
  have run : twoDown.steps (List.replicate 7 (.dispatch none) ++
      List.replicate 3 (.work 2 none {}) ++ List.replicate 2 (.dispatch none)) = some _ := rfl
  have begins : twoDown.BeginsDrain none := ⟨rfl, rfl, Queue.sound_ofCapacity 2⟩
  obtain ⟨closed, endings, discarded, drained⟩ :=
    (drain_of_drains begins (begins.drains_of_steps run)).drained rfl
  have stopped := drained.stopped
  cases stopped
  exact ⟨_, _, _, run, drained, rfl⟩

end Server

end StaticHttp
