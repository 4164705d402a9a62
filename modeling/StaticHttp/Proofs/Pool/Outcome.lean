import StaticHttp.Proofs.Pool.Progress

/-!
# What a run comes to

The owner reports the failure of the worker with the smallest number (`firstFailure?_of_get`), and
without a failure the sum of what all workers have counted. So the outcome of a run over a list of
visitors does not depend on its schedule (`outcome_of_steps`): which worker serves which visitor
does, and how long it takes, but not which visitors are served, what becomes of each of them, what
the counters say and how many are left in the queue.
-/

namespace StaticHttp

/-! ## The endings of the workers -/

/-- The first worker that did not finish decides what is reported. -/
theorem firstFailure?_of_get (first : Nat) {endings : List Ending} {i : Nat} {e : Ending}
    {failure : ServerError} (found : endings[i]? = some e)
    (fails : e.failure? (first + i) = some failure)
    (before : ∀ j < i, ∃ n, endings[j]? = some (.finished n)) :
    firstFailure? first endings = some failure := by
  induction endings generalizing first i with
  | nil => cases found
  | cons head rest ih =>
    cases i with
    | zero =>
      cases found
      rw [Nat.add_zero] at fails
      simp only [firstFailure?, fails]
    | succ i =>
      obtain ⟨n, hn⟩ := before 0 (Nat.succ_pos i)
      cases hn
      simp only [firstFailure?, Ending.failure?]
      refine ih (first + 1) found ?_ fun j hj => before (j + 1) (Nat.succ_lt_succ hj)
      rwa [Nat.add_assoc, Nat.add_comm 1 i]

/-- Workers that have all finished report the sum of what they have counted. -/
theorem joinAll_of_finished {endings : List Ending}
    (finished : ∀ e ∈ endings, ∃ n, e = .finished n) :
    joinAll endings = .ok (total Ending.handled endings) := by
  have none : ∀ first, firstFailure? first endings = none := by
    induction endings with
    | nil => exact fun _ => rfl
    | cons head rest ih =>
      intro first
      obtain ⟨n, rfl⟩ := finished _ List.mem_cons_self
      exact ih (fun e he => finished e (List.mem_cons_of_mem _ he)) (first + 1)
  unfold joinAll
  rw [none 0]

/-- If a worker is down and none has failed otherwise, the first that is down is reported. -/
theorem joinAll_of_down {endings : List Ending} (unfailed : ∀ e, .failed e ∉ endings)
    (down : .crashed ∈ endings) :
    ∃ id : Nat, joinAll endings = .error (.workerPanicked id) ∧ endings[id]? = some .crashed ∧
      ∀ j : Nat, endings[j]? = some .crashed → id ≤ j := by
  classical
  have exists_down : ∃ i : Nat, endings[i]? = some .crashed := List.getElem?_of_mem down
  have found := Nat.find_spec exists_down
  refine ⟨Nat.find exists_down, ?_, found, fun j hj => Nat.find_min' exists_down hj⟩
  unfold joinAll
  rw [firstFailure?_of_get 0 found (by rw [Nat.zero_add]; rfl) fun j hj => ?_]
  have hlt := Nat.lt_trans hj (List.getElem?_eq_some_iff.mp found).1
  have hget := List.getElem?_eq_getElem hlt
  cases he : endings[j] with
  | finished n => exact ⟨n, he ▸ hget⟩
  | failed e => exact absurd (he ▸ List.getElem_mem hlt) (unfailed e)
  | crashed => exact absurd (he ▸ hget) (Nat.find_min exists_down hj)

/-! ## The end of a crew -/

namespace Crew

variable {capacity : Nat} {crew : Crew}

/-- All workers have ended, and the owner is outside any call. -/
structure Over (crew : Crew) (endings : List Ending) : Prop where
  ended : crew.workers = endings.map .ended
  idle : crew.sharing.threads[0]? = some .idle

namespace Over

variable {endings : List Ending}

theorem get_worker (isOver : crew.Over endings) {i : Nat} {e : Ending} :
    crew.workers[i]? = some (.ended e) ↔ endings[i]? = some e := by
  rw [isOver.ended, List.getElem?_map, Option.map_eq_some_iff]
  constructor
  · rintro ⟨e', he', heq⟩
    cases heq
    exact he'
  · intro he
    exact ⟨e, he, rfl⟩

theorem ended_of_get (isOver : crew.Over endings) {i : Nat} {w : Worker}
    (found : crew.workers[i]? = some w) : ∃ e, w = .ended e := by
  rw [isOver.ended, List.getElem?_map, Option.map_eq_some_iff] at found
  obtain ⟨e, _, rfl⟩ := found
  exact ⟨e, rfl⟩

/-- At the end nobody has a visitor in hand. -/
theorem carried_eq (isOver : crew.Over endings) (h : crew.Seated capacity) (f : Visitor → Nat) :
    crew.carried f = total f (crew.services.map (·.visitor)) := by
  have hands : total (Worker.inHand f) crew.workers = 0 := by
    rw [isOver.ended, total_map]
    exact total_eq_zero fun _ _ => rfl
  have replies : total (Phase.taken f) crew.sharing.threads = 0 := by
    apply total_eq_zero
    intro p hp
    obtain ⟨j, found⟩ := List.getElem?_of_mem hp
    cases j with
    | zero =>
      cases found.symm.trans isOver.idle
      rfl
    | succ i =>
      have hlt := (List.getElem?_eq_some_iff.mp found).1
      rw [h.length_eq] at hlt
      have hw := List.getElem?_eq_getElem (Nat.lt_of_succ_lt_succ hlt)
      obtain ⟨q, hq, seated⟩ := h.seat i _ hw
      cases found.symm.trans hq
      obtain ⟨e, he⟩ := isOver.ended_of_get hw
      rw [he] at seated
      cases (seated : p = .idle)
      rfl
  rw [carried, hands, replies, Nat.add_zero]

/-- At the end every delivered visitor has been served. -/
theorem total_services (isOver : crew.Over endings) (h : crew.Steady capacity)
    (f : Visitor → Nat) :
    total f (crew.services.map (·.visitor)) = total f crew.sharing.delivered := by
  rw [← isOver.carried_eq h.seated]
  exact (h.conserved f).symm

/-- At the end the services are those of the delivered visitors, each once. -/
theorem services_perm (isOver : crew.Over endings) (h : crew.Steady capacity) :
    (crew.services.map (·.visitor)).Perm crew.sharing.delivered :=
  perm_of_total (isOver.total_services h)

/-- At the end either all workers are down, or the queue was closed and is empty. -/
theorem down_or_finished (isOver : crew.Over endings) (h : crew.Steady capacity) :
    (∀ e ∈ endings, e = .crashed) ∨
    (crew.sharing.queue.closed = true ∧ crew.sharing.queue.toList = []) := by
  by_cases all : ∀ e ∈ endings, e = .crashed
  · exact .inl all
  · right
    simp only [not_forall] at all
    obtain ⟨e, he, up⟩ := all
    obtain ⟨i, hi⟩ := List.getElem?_of_mem he
    cases e with
    | finished n => exact h.finished i n (isOver.get_worker.mpr hi)
    | failed e => exact absurd (isOver.get_worker.mpr hi) (h.ledger.unfailed i e)
    | crashed => exact absurd rfl up

/-- At the end as many workers are down as delivered visitors bring workers down. -/
theorem countP_delivered (isOver : crew.Over endings) (h : crew.Steady capacity) :
    crew.sharing.delivered.countP crew.site.felledBy = crew.workers.countP Worker.isDown := by
  rw [h.ledger.down_count, ← (isOver.services_perm h).countP_eq, List.countP_map]
  rfl

/-- What was delivered is what was accepted, up to the visitor that brought the last worker down. -/
theorem delivered_eq (isOver : crew.Over endings) (h : crew.Steady capacity) :
    crew.sharing.delivered =
      upToCrash crew.site.felledBy crew.workers.length crew.sharing.accepted := by
  have ordered := h.seated.reached.ordered
  have stopped : upToCrash _ _ _ = _ := h.stopped
  rcases isOver.down_or_finished h with all | ⟨_, empty⟩
  · have down : crew.workers.countP Worker.isDown = crew.workers.length := by
      apply List.countP_eq_length.mpr
      intro w hw
      rw [isOver.ended] at hw
      obtain ⟨e, he, rfl⟩ := List.mem_map.mp hw
      rw [all e he]
      rfl
    rw [← ordered, upToCrash_of_prefix stopped ((isOver.countP_delivered h).trans down)]
  · rw [empty, List.append_nil] at ordered
    rw [← ordered, stopped]

/-- No visitor has brought a worker down, if none does. -/
theorem countP_isDown_of_none (isOver : crew.Over endings) (h : crew.Steady capacity)
    (none : crew.sharing.accepted.countP crew.site.felledBy = 0) :
    crew.workers.countP Worker.isDown = 0 := by
  rw [← isOver.countP_delivered h]
  rw [← h.seated.reached.ordered, List.countP_append] at none
  exact Nat.eq_zero_of_add_eq_zero_right none

private theorem countP_isDown_eq_zero (isOver : crew.Over endings) :
    crew.workers.countP Worker.isDown = 0 ↔ .crashed ∉ endings := by
  rw [isOver.ended, List.countP_map, List.countP_eq_zero]
  constructor
  · intro up down
    exact up _ down rfl
  · intro up e he down
    cases Worker.isDown_iff.mp down
    exact up he

/-- If no worker is down, the queue is empty, and all that was accepted was delivered. -/
theorem delivered_eq_accepted (isOver : crew.Over endings) (h : crew.Steady capacity)
    (staffed : 0 < crew.workers.length) (up : crew.workers.countP Worker.isDown = 0) :
    crew.sharing.queue.toList = [] ∧ crew.sharing.delivered = crew.sharing.accepted := by
  have ordered := h.seated.reached.ordered
  rcases isOver.down_or_finished h with all | ⟨_, empty⟩
  · rw [isOver.ended, List.length_map] at staffed
    exact absurd (all _ (List.getElem_mem staffed) ▸ List.getElem_mem staffed)
      (isOver.countP_isDown_eq_zero.mp up)
  · rw [empty, List.append_nil] at ordered
    exact ⟨empty, ordered⟩

/-- The owner is told the number of visitors, if no worker is down. -/
theorem joinAll_ok (isOver : crew.Over endings) (h : crew.Steady capacity)
    (staffed : 0 < crew.workers.length) (up : crew.workers.countP Worker.isDown = 0) :
    joinAll endings = .ok crew.sharing.accepted.length := by
  have unfelled := isOver.countP_isDown_eq_zero.mp up
  have finished : ∀ e ∈ endings, ∃ n, e = .finished n := by
    intro e he
    obtain ⟨i, hi⟩ := List.getElem?_of_mem he
    cases e with
    | finished n => exact ⟨n, rfl⟩
    | failed e => exact absurd (isOver.get_worker.mpr hi) (h.ledger.unfailed i e)
    | crashed => exact absurd he unfelled
  have counted : total Ending.handled endings = crew.services.length := by
    rw [← h.ledger.handled_eq up, isOver.ended, total_map]
    rfl
  rw [joinAll_of_finished finished, counted, ← (isOver.delivered_eq_accepted h staffed up).2,
    ← (isOver.services_perm h).length_eq, List.length_map]

/-- The owner is told the smallest number of a worker that was brought down, if some visitor brings
workers down. -/
theorem joinAll_down (isOver : crew.Over endings) (h : crew.Steady capacity)
    (staffed : 0 < crew.workers.length)
    (many : 0 < crew.sharing.accepted.countP crew.site.felledBy) :
    ∃ id, joinAll endings = .error (.workerPanicked id) ∧
      (∃ service ∈ crew.services, service.worker = id ∧
        crew.site.felledBy service.visitor = true) ∧
      ∀ service ∈ crew.services, crew.site.felledBy service.visitor = true →
        id ≤ service.worker := by
  have down : .crashed ∈ endings := by
    by_contra up
    have none := isOver.countP_isDown_eq_zero.mpr up
    have delivered := (isOver.delivered_eq_accepted h staffed none).2
    rw [← isOver.countP_delivered h, delivered] at none
    omega
  have unfailed : ∀ e, .failed e ∉ endings := by
    intro e he
    obtain ⟨i, hi⟩ := List.getElem?_of_mem he
    exact h.ledger.unfailed i e (isOver.get_worker.mpr hi)
  obtain ⟨id, joined, found, least⟩ := joinAll_of_down unfailed down
  refine ⟨id, joined, (h.ledger.down_iff id).mp (isOver.get_worker.mpr found), ?_⟩
  intro service hs felled
  exact least _ (isOver.get_worker.mp ((h.ledger.down_iff _).mpr ⟨service, hs, rfl, felled⟩))

end Over

end Crew

/-- An owner that has taken the queue apart has done so without a failure, and all workers have
ended. -/
theorem Owner.Stands.over {visitors : List Visitor} {crew : Crew} {failure : Option IoError}
    {closed : Except QueueError Unit} {endings : List Ending} {discarded : Except QueueError Nat}
    (stands : Owner.Stands visitors crew (.draining failure (.done closed endings discarded))) :
    failure = none ∧ closed = .ok () ∧ discarded = .ok crew.sharing.queue.toList.length ∧
      crew.sharing.accepted = visitors ∧ crew.Over endings := by
  cases stands with
  | done found free accepted seen all =>
    refine ⟨rfl, rfl, rfl, accepted, ?_, found⟩
    exact Crew.workers_eq_of_seen seen (List.getElem?_eq_none (Nat.le_of_eq all))

/-! ## Every schedule -/

namespace Run

/-- What a run over these visitors comes to, and what the owner learns of it. -/
structure Outcome (site : Site) (workers : Nat) (visitors : List Visitor) (run : Run)
    (result : RunResult) : Prop where
  /-- The owner has met with no failure of its own. -/
  failure_eq : result.failure = none
  /-- Closing the queue has succeeded. -/
  closed_eq : result.closed = .ok ()
  /-- All workers have ended. -/
  ended : run.crew.workers = result.endings.map .ended
  length_eq : result.endings.length = workers
  /-- The visitors up to the one that brings the last worker down are taken, in order. -/
  delivered_eq : run.crew.sharing.delivered = upToCrash site.felledBy workers visitors
  /-- All are taken, if some worker survives them. -/
  delivered_all : visitors.countP site.felledBy < workers →
    run.crew.sharing.delivered = visitors
  /-- Each of them is served once. -/
  served : (run.crew.services.map (·.visitor)).Perm (upToCrash site.felledBy workers visitors)
  /-- A service is by one of the workers, comes to what the visitor comes to alone, and closes its
  connection once. -/
  faithful : ∀ service ∈ run.crew.services, service.worker < workers ∧ service.Faithful site ∧
    service.log.closed = service.visitor.connection.log.closed + 1
  /-- Every counter is the sum of what those visitors add to it alone that bring no worker down. -/
  counted : ∀ k, run.crew.metrics.count k =
    total (fun visitor => site.alone k visitor.connection)
      ((upToCrash site.felledBy workers visitors).filter fun visitor => !site.felledBy visitor)
  /-- If no visitor brings a worker down, joining the workers gives the number of the visitors. -/
  joined_ok : visitors.countP site.felledBy = 0 → joinAll result.endings = .ok visitors.length
  /-- Else it gives the smallest number of a worker that was brought down. -/
  joined_down : 0 < visitors.countP site.felledBy →
    ∃ id, joinAll result.endings = .error (.workerPanicked id) ∧
      (∃ service ∈ run.crew.services, service.worker = id ∧
        site.felledBy service.visitor = true) ∧
      ∀ service ∈ run.crew.services, site.felledBy service.visitor = true → id ≤ service.worker
  /-- The visitors that were not taken are left in the queue. -/
  discarded_eq : result.discarded =
    .ok (visitors.length - (upToCrash site.felledBy workers visitors).length)

variable {site : Site} {capacity workers : Nat} {visitors : List Visitor} {run : Run}

/-- A run that is over has come to its outcome. -/
theorem Orderly.outcome (h : run.Orderly site capacity workers visitors) (staffed : 0 < workers)
    {result : RunResult} (isOver : run.result? = some result) :
    run.Outcome site workers visitors result := by
  obtain ⟨orderly, rfl, rfl, stands⟩ := h
  obtain ⟨crew, owner⟩ := run
  unfold result? at isOver
  dsimp only at *
  split at isOver <;> cases isOver
  next failure closed endings discarded =>
  obtain ⟨rfl, rfl, rfl, accepted, isOver⟩ := stands.over
  have steady := orderly.toSteady
  have delivered := isOver.delivered_eq steady
  have served := isOver.services_perm steady
  have length_eq : endings.length = crew.workers.length := by rw [isOver.ended, List.length_map]
  rw [accepted] at delivered
  refine ⟨rfl, rfl, isOver.ended, length_eq, delivered, ?_, delivered ▸ served, ?_, ?_, ?_, ?_, ?_⟩
  · intro few
    exact delivered.trans (upToCrash_of_few few)
  · intro service hs
    obtain ⟨hlt, faithful⟩ := orderly.booked.faithful service hs
    exact ⟨hlt, faithful, faithful.closed_eq⟩
  · intro k
    rw [total_filter, ← delivered, ← total_perm _ served, total_map, orderly.booked.counted k]
    intro visitor hv
    exact Site.alone_of_crashes (Bool.not_eq_eq_eq_not.mp hv) k
  · intro none
    rw [← accepted] at none ⊢
    exact isOver.joinAll_ok steady staffed (isOver.countP_isDown_of_none steady none)
  · intro many
    rw [← accepted] at many
    exact isOver.joinAll_down steady staffed many
  · have ordered := congrArg List.length orderly.seated.reached.ordered
    rw [List.length_append, accepted] at ordered
    have left : crew.sharing.queue.toList.length =
        visitors.length - crew.sharing.delivered.length := by omega
    rw [← delivered]
    exact congrArg Except.ok left

/-- Workers and an owner that offers visitors and then closes the queue, whatever their schedule: a
run has no more moves than a number that depends on the workers and the visitors alone, and two for
each time a waiting thread is roused for no reason; as long as it is not over somebody can go on;
and if it is over, nobody can move, and it has come to its outcome. The queue has to hold all
visitors, or some worker has to survive them: else the owner may wait for ever. -/
theorem outcome_of_steps (positive : 0 < capacity) (staffed : 0 < workers)
    (room : visitors.length ≤ capacity ∨ visitors.countP site.felledBy < workers)
    {moves : List RunMove}
    (h : (start site capacity workers (visitors.map .offer)).steps moves = some run) :
    moves.length ≤ (4 * workers + 17) * (workers + visitors.length + 1) +
      2 * moves.countP (·.isSpurious) ∧
    ((∀ move : RunMove, move.isSpurious = false → run.step move = none) →
      run.result?.isSome = true) ∧
    ∀ result, run.result? = some result →
      (∀ move, run.step move = none) ∧ run.Outcome site workers visitors result := by
  obtain ⟨orderly, paid⟩ := Orderly.of_steps h
  have budget := rank_start site capacity workers visitors
  refine ⟨by omega, orderly.progress positive room, fun result isOver => ?_⟩
  exact ⟨orderly.step_eq_none (isOver ▸ rfl), orderly.outcome staffed isOver⟩

/-- Of three visitors the second brings the only worker down, and the third is left. -/
theorem outcome_of_steps_last_worker :
    ∃ run result, (start ⟨⟨.directory [], [], true⟩, []⟩ 3 1
        ([⟨0, {}, false⟩, ⟨1, ⟨[.crash], [], none, {}⟩, false⟩, ⟨2, {}, false⟩].map .offer)).steps
        (List.replicate 15 (.manage none) ++ List.replicate 8 (.work 0 none {}) ++
          List.replicate 2 (.manage none)) = some run ∧
      run.result? = some result ∧
      run.Outcome ⟨⟨.directory [], [], true⟩, []⟩ 1
        [⟨0, {}, false⟩, ⟨1, ⟨[.crash], [], none, {}⟩, false⟩, ⟨2, {}, false⟩] result ∧
      result.discarded = .ok 1 ∧ joinAll result.endings = .error (.workerPanicked 0) := by
  have h : (start ⟨⟨.directory [], [], true⟩, []⟩ 3 1
      ([⟨0, {}, false⟩, ⟨1, ⟨[.crash], [], none, {}⟩, false⟩, ⟨2, {}, false⟩].map .offer)).steps
      (List.replicate 15 (.manage none) ++ List.replicate 8 (.work 0 none {}) ++
        List.replicate 2 (.manage none)) = some _ := rfl
  have all := outcome_of_steps (by decide) (by decide) (.inl (by decide)) h
  exact ⟨_, _, h, rfl, (all.2.2 _ rfl).2, rfl, rfl⟩

end Run

end StaticHttp
