import StaticHttp.Proofs.Pool.Inheritance

/-!
# Workers that cannot all be started

An owner starts workers one after the other, and one of them cannot be started. Then it closes the
queue and waits for those before it, who have been serving meanwhile, and only then is it back with
the error (`Run.startError?`). Nothing is left running, and no visitor is lost (`disbanded_of_steps`).

`Owner.Recruits` says where such an owner can be, and `Owner.Recruitment` what its moves can do. From
the failure on it drains the queue as any owner does, so that what is known of a drain applies to it
as it is. A worker that is started may have as many moves ahead of it as all that are there already;
so `Owner.recruitRank` pays for each worker in advance.
-/

namespace StaticHttp

/-- The error with which an owner is back from starting workers, if it could not start all of them:
it has seen those end that it did start. -/
def Run.startError? (run : Run) : Option ServerError :=
  match run.owner with
  | .draining (some e) (.joining _ endings) =>
    if endings.length = run.crew.workers.length then some (.spawn e) else none
  | .draining (some e) (.done ..) => some (.spawn e)
  | _ => none

namespace Owner

/-- Where an owner stands that is to start so many workers and cannot start one more, at a queue to
which it adds nothing. -/
inductive Recruits (accepted : List Visitor) (workers : Nat) (e : IoError) (crew : Crew) :
    Owner → Prop
  | hiring {todo rest : List Duty} {left : Nat}
      (plan : todo = List.replicate left .start ++ .startFailing e :: rest)
      (found : crew.sharing.threads[0]? = some .idle) (same : crew.sharing.accepted = accepted)
      (count : crew.workers.length + left = workers) : Recruits accepted workers e crew (.busy todo)
  | draining {drain : Drain} (count : crew.workers.length = workers)
      (shut : drain = .closing ∨ crew.sharing.queue.closed = true)
      (stands : Stands accepted crew (.draining none drain)) :
      Recruits accepted workers e crew (.draining (some e) drain)

/-- What a move of such an owner can do. -/
inductive Recruitment (crew : Crew) : Owner → Crew → Owner → Prop
  | start (rest : List Duty) : Recruitment crew (.busy (.start :: rest)) crew.hire (.busy rest)
  | fail (e : IoError) (rest : List Duty) :
      Recruitment crew (.busy (.startFailing e :: rest)) crew (.draining (some e) .closing)
  | drain {failure : Option IoError} {drain after : Drain} {next : Crew} {wake : Option Nat}
      (step : crew.drain wake drain = some (after, next)) :
      Recruitment crew (.draining failure drain) next (.draining failure after)

variable {capacity workers : Nat} {accepted : List Visitor} {e : IoError} {crew next : Crew}
  {owner owner' : Owner} {mover : Option Nat}

/-- A move of an owner that recruits is one of these. -/
theorem Recruitment.of_manage {run next : Run} {wake : Option Nat}
    (recruits : Recruits accepted workers e run.crew run.owner)
    (h : run.manage wake = some next) :
    Recruitment run.crew run.owner next.crew next.owner := by
  obtain ⟨crew, owner⟩ := run
  cases recruits with
  | @hiring _ rest left plan =>
    subst plan
    cases left with
    | zero =>
      cases h
      exact .fail e rest
    | succ left =>
      cases h
      exact .start _
  | draining =>
    obtain ⟨⟨after, crew'⟩, hdrain, heq⟩ := Option.map_eq_some_iff.mp h
    cases heq
    exact .drain hdrain

theorem Recruitment.transition (move : Recruitment crew owner next owner') :
    next = crew ∨ crew.Transition (some 0) next := by
  cases move with
  | start => exact .inr .hire
  | fail => exact .inl rfl
  | drain step => exact (Change.of_drain none step).transition

namespace Recruits

theorem accepted_eq (h : Recruits accepted workers e crew owner) :
    crew.sharing.accepted = accepted := by
  cases h with
  | hiring _ _ same => exact same
  | draining _ _ stands =>
    cases stands with
    | closing _ _ _ same | closed _ _ _ same | joining _ _ _ same | done _ _ same => exact same

theorem length_le (h : Recruits accepted workers e crew owner) :
    crew.workers.length ≤ workers := by
  cases h with
  | hiring _ _ _ count => exact Nat.le.intro count
  | draining count => exact Nat.le_of_eq count

/-- The moves of others leave the owner where it stands. -/
theorem spared (h : Recruits accepted workers e crew owner) (seated : crew.Seated capacity)
    (step : crew.Transition mover next) (other : mover ≠ some 0) :
    Recruits accepted workers e next owner := by
  have spares := step.spares seated other
  have length_eq := step.length_workers other
  cases h with
  | hiring plan found same count =>
    obtain ⟨q, back, stirs⟩ := spares.owner _ found
    cases stirs
    exact .hiring plan back (spares.accepted_eq.trans same) (length_eq ▸ count)
  | draining count shut stands =>
    exact .draining (length_eq.trans count) (shut.imp_right spares.closed_eq.trans)
      (stands.spared seated step other)

/-- An owner that waits for workers to end has closed the queue. -/
private theorem isClosed_of_joining {failure : Option IoError} {closed : Except QueueError Unit}
    {endings : List Ending}
    (stands : Stands accepted crew (.draining failure (.joining closed endings))) :
    crew.sharing.queue.closed = true := by
  cases stands with
  | joining _ isClosed => exact isClosed

/-- The queue stays closed, and is closed when an owner has gone on from closing it. -/
private theorem shut_of_change {failure failure' : Option IoError} {drain after : Drain}
    (shut : drain = .closing ∨ crew.sharing.queue.closed = true) (seated : crew.Seated capacity)
    (change : Change crew (.draining failure drain) next (.draining failure' after))
    (stands : Stands accepted next (.draining failure' after)) :
    after = .closing ∨ next.sharing.queue.closed = true := by
  cases change with
  | turn _ _ _ step => exact shut.imp_right (seated.reached.transition step).closed_mono
  | shut => exact .inr (isClosed_of_joining stands)
  | see | takeApart => exact .inr (shut.resolve_left nofun)

/-- The owner's own moves take it further. -/
theorem moved (h : Recruits accepted workers e crew owner) (seated : crew.Seated capacity)
    (move : Recruitment crew owner next owner') : Recruits accepted workers e next owner' := by
  cases move with
  | start rest =>
    cases h with
    | @hiring _ _ left plan found same count =>
      cases left with
      | zero => cases plan
      | succ left =>
        cases plan
        obtain ⟨hlt, _⟩ := List.getElem?_eq_some_iff.mp found
        refine .hiring rfl ((List.getElem?_append_left hlt).trans found) same ?_
        simp only [Crew.hire, List.length_append, List.length_singleton]
        omega
  | fail e' rest =>
    cases h with
    | @hiring _ _ left plan found same count =>
      cases left with
      | zero =>
        cases plan
        refine .draining count (.inl rfl) (.closing found trivial (fun back => ?_) same)
        cases back
      | succ left => cases plan
  | drain step =>
    cases h with
    | draining count shut stands =>
      have change := Change.of_drain none step
      have stands' := change.stands seated stands
      exact .draining (change.length_workers.trans count)
        (shut_of_change shut seated change stands') stands'

end Recruits

end Owner

/-! ## How long it takes -/

theorem Phase.rank_le {α : Type} (p : Phase α) (threads : Nat) :
    p.rank threads ≤ 2 * threads + 6 := by
  unfold rank
  split <;> omega

theorem Worker.rank_le (w : Worker) (threads : Nat) : w.rank threads ≤ 2 * threads + 6 := by
  unfold rank
  split <;> omega

/-- The most moves that can be left to so many workers at a queue with so many visitors. -/
def Crew.mostRank (workers visitors : Nat) : Nat :=
  (2 * workers + 9) * (2 * workers + visitors + 1)

theorem Crew.rank_le {capacity workers visitors limit : Nat} {crew : Crew}
    (h : crew.Seated capacity) (few : crew.workers.length ≤ workers)
    (short : crew.sharing.queue.toList.length ≤ visitors)
    (full : limit ≤ crew.sharing.accepted.length) :
    crew.rank limit ≤ mostRank workers visitors := by
  have threads := total_le_length_mul fun p (_ : p ∈ crew.sharing.threads) =>
    p.rank_le crew.sharing.threads.length
  have staff := total_le_length_mul fun w (_ : w ∈ crew.workers) =>
    w.rank_le crew.sharing.threads.length
  unfold rank Sharing.rank
  rw [Nat.sub_eq_zero_of_le full, Nat.mul_zero, Nat.add_zero]
  rw [h.length_eq] at threads staff ⊢
  calc
    _ ≤ (crew.workers.length + 1) * (2 * (crew.workers.length + 1) + 6) +
          (2 * (crew.workers.length + 1) + 7) * crew.sharing.queue.toList.length +
          crew.workers.length * (2 * (crew.workers.length + 1) + 6) :=
      Nat.add_le_add (Nat.add_le_add_right threads _) staff
    _ ≤ (2 * crew.workers.length + 9) *
          (2 * crew.workers.length + crew.sharing.queue.toList.length + 1) :=
      Nat.le.intro (k := 2 * crew.workers.length + 1) (by ring)
    _ ≤ mostRank workers visitors := Nat.mul_le_mul (by omega) (by omega)

namespace Owner

variable {capacity workers visitors : Nat} {accepted : List Visitor} {e : IoError}
  {crew next : Crew} {owner owner' : Owner}

/-- How far an owner is from its end that has started some of so many workers: each one that is still
to be started brings its moves with it. -/
def recruitRank (workers visitors started : Nat) : Owner → Nat
  | .busy _ => (workers - started) * (Crew.mostRank workers visitors + 1) + (3 * workers + 10)
  | owner => owner.rank (workers + 1)

/-- Every move of the owner brings the run nearer to its end. -/
theorem Recruitment.rank_lt (move : Recruitment crew owner next owner')
    (recruits : Recruits accepted workers e crew owner) (seated : crew.Seated capacity)
    (after : next.Seated capacity) (short : next.sharing.queue.toList.length ≤ visitors) :
    next.rank accepted.length + owner'.recruitRank workers visitors next.workers.length <
      crew.rank accepted.length + owner.recruitRank workers visitors crew.workers.length := by
  have recruits' := recruits.moved seated move
  have same := congrArg List.length recruits'.accepted_eq
  cases move with
  | start rest =>
    have most := Crew.rank_le after recruits'.length_le short (Nat.le_of_eq same.symm)
    have more : crew.hire.workers.length = crew.workers.length + 1 := by
      simp only [Crew.hire, List.length_append, List.length_singleton]
    have left : workers - crew.workers.length = workers - (crew.workers.length + 1) + 1 := by
      have := recruits'.length_le
      omega
    simp only [recruitRank, more, left, Nat.succ_mul]
    omega
  | fail e' rest =>
    cases recruits' with
    | draining count =>
      simp only [recruitRank, rank, count]
      omega
  | @drain failure drain after' _ _ step =>
    have count : crew.workers.length = workers := by
      cases recruits with
      | draining count => exact count
    have fewer := (Change.of_drain failure step).rank_lt seated (Nat.le_of_eq same)
    rw [seated.length_eq, after.length_eq, (Change.of_drain failure step).length_workers,
      count] at fewer
    exact fewer

end Owner

namespace Run

/-- All that holds of a run whose owner is to start so many workers and cannot start one more. -/
structure Recruiting (capacity workers : Nat) (e : IoError) (origin : Crew) (run : Run) : Prop where
  crew : run.crew.Inherits capacity origin
  owner : run.owner.Recruits origin.sharing.accepted workers e run.crew

/-- The moves left to such a run. -/
def recruitRank (run : Run) (workers : Nat) (origin : Crew) : Nat :=
  run.crew.rank origin.sharing.accepted.length +
    run.owner.recruitRank workers origin.sharing.queue.toList.length run.crew.workers.length

variable {capacity workers : Nat} {e : IoError} {origin : Crew} {run next : Run}

/-- An owner that comes to a queue where nobody is has all workers still to start. -/
theorem recruiting_start {crew : Crew} (h : crew.Unmanned capacity) (workers : Nat) (e : IoError)
    (rest : List Duty) :
    Recruiting capacity workers e crew
      ⟨crew, .busy (List.replicate workers .start ++ .startFailing e :: rest)⟩ where
  crew := h.inherits
  owner := by
    refine .hiring rfl ?_ rfl ?_
    · rw [h.threads_eq]
      rfl
    · rw [h.workers_eq]
      exact Nat.zero_add workers

theorem recruitRank_start {crew : Crew} (h : crew.Unmanned capacity) (workers : Nat)
    (todo : List Duty) :
    recruitRank ⟨crew, .busy todo⟩ workers crew ≤
      (workers + 1) * (Crew.mostRank workers crew.sharing.queue.toList.length + 10) := by
  have none : crew.workers.length = 0 := by
    rw [h.workers_eq]
    rfl
  have few : crew.workers.length ≤ workers := none ▸ Nat.zero_le workers
  have most := Crew.rank_le h.inherits.seated few (Nat.le_refl _) (Nat.le_refl _)
  simp only [recruitRank, Owner.recruitRank, none, Nat.sub_zero]
  generalize Crew.mostRank workers crew.sharing.queue.toList.length = bound at most ⊢
  calc
    _ ≤ bound + (workers * (bound + 1) + (3 * workers + 10)) := Nat.add_le_add_right most _
    _ ≤ (workers + 1) * (bound + 10) := Nat.le.intro (k := 6 * workers) (by ring)

namespace Recruiting

/-- A move of another than the owner. -/
private theorem of_crew (h : run.Recruiting capacity workers e origin)
    (mild : ∀ visitor ∈ origin.sharing.queue.toList, origin.site.felledBy visitor = false)
    {crew : Crew} {mover : Option Nat} (step : run.crew.Transition mover crew)
    (other : mover ≠ some 0) : { run with crew }.Recruiting capacity workers e origin where
  crew := h.crew.transition mild step (step.spares h.crew.seated other).accepted_eq
  owner := h.owner.spared h.crew.seated step other

/-- A move of the owner. -/
private theorem of_owner (h : run.Recruiting capacity workers e origin)
    (mild : ∀ visitor ∈ origin.sharing.queue.toList, origin.site.felledBy visitor = false)
    (move : Owner.Recruitment run.crew run.owner next.crew next.owner) :
    next.Recruiting capacity workers e origin := by
  have owner := h.owner.moved h.crew.seated move
  refine ⟨?_, owner⟩
  rcases move.transition with same | step
  · exact same ▸ h.crew
  · exact h.crew.transition mild step (owner.accepted_eq.trans h.owner.accepted_eq.symm)

/-- Every move keeps such a run, and all but rousing a thread bring it nearer to its end. -/
theorem step (mild : ∀ visitor ∈ origin.sharing.queue.toList, origin.site.felledBy visitor = false)
    (h : run.Recruiting capacity workers e origin) {move : RunMove}
    (hstep : run.step move = some next) :
    next.Recruiting capacity workers e origin ∧
    next.recruitRank workers origin + 1 ≤
      run.recruitRank workers origin + 2 * move.isSpurious.toNat := by
  rcases step_cases h.crew.seated hstep with ⟨wake, rfl, hmanage⟩ | ⟨crew, rfl, others⟩
  · have move := Owner.Recruitment.of_manage h.owner hmanage
    have after := h.of_owner mild move
    exact ⟨after, move.rank_lt h.owner h.crew.seated after.crew.seated after.crew.length_le⟩
  · obtain ⟨mover, other, step⟩ := others.transition
    have after := h.of_crew mild step other
    have paid := others.paid _ (Nat.le_of_eq (congrArg List.length after.owner.accepted_eq))
    refine ⟨after, ?_⟩
    simp only [recruitRank, step.length_workers other]
    omega

/-- As long as its owner is not through, somebody can go on, and not only by rousing a thread. -/
theorem progress (h : run.Recruiting capacity workers e origin)
    (stuck : ∀ move : RunMove, move.isSpurious = false → run.step move = none) :
    run.result?.isSome = true := by
  have recruits := h.owner
  have seated := h.crew.seated
  obtain ⟨crew, owner⟩ := run
  cases recruits with
  | @hiring _ _ left plan =>
    subst plan
    cases left <;> cases stuck (.manage none) rfl
  | draining _ _ stands => exact isSome_of_draining stands seated stuck

/-- An owner that is back from starting workers has left nothing running. -/
theorem disbanded (h : run.Recruiting capacity workers e origin) {failure : ServerError}
    (back : run.startError? = some failure) :
    failure = .spawn e ∧ run.crew.Disbanded workers origin := by
  have recruits := h.owner
  have inherits := h.crew
  obtain ⟨crew, owner⟩ := run
  dsimp only at recruits inherits ⊢
  cases recruits with
  | hiring => cases back
  | draining count shut stands =>
    have ends : ∀ {endings : List Ending}, crew.Over endings → crew.sharing.queue.closed = true →
        crew.Disbanded workers origin := by
      intro endings isOver isClosed
      have length_eq : endings.length = workers := by
        rw [← count, isOver.ended, List.length_map]
      exact length_eq ▸ inherits.disbanded isOver isClosed
    cases stands with
    | closing | closed => cases back
    | joining found isClosed _ _ seen =>
      obtain ⟨all, heq⟩ := Option.ite_none_right_eq_some.mp back
      cases heq
      have none := List.getElem?_eq_none (Nat.le_of_eq all.symm)
      exact ⟨rfl, ends ⟨Crew.workers_eq_of_seen seen none, found⟩ isClosed⟩
    | done found free accepted seen all =>
      cases back
      have none := List.getElem?_eq_none (Nat.le_of_eq all)
      exact ⟨rfl, ends ⟨Crew.workers_eq_of_seen seen none, found⟩ (shut.resolve_left nofun)⟩

/-- What the owner has learned when it is through. -/
theorem result_eq (h : run.Recruiting capacity workers e origin) {result : RunResult}
    (isOver : run.result? = some result) :
    run.startError? = some (.spawn e) ∧ result.failure = some e ∧ result.closed = .ok () ∧
      result.endings.length = workers ∧
      result.discarded = .ok run.crew.sharing.queue.toList.length := by
  have recruits := h.owner
  obtain ⟨crew, owner⟩ := run
  dsimp only at recruits ⊢
  cases recruits with
  | hiring => cases isOver
  | draining count _ stands =>
    cases stands with
    | done _ _ _ _ all =>
      cases isOver
      exact ⟨rfl, rfl, rfl, all.symm.trans count, rfl⟩
    | _ => cases isOver

end Recruiting

/-- An owner that comes to a queue where nobody is and cannot start all the workers of its plan,
whatever the schedule of those that it does start: a run has no more moves than a number that depends
on the workers and the visitors in the queue alone, and two for each time a waiting thread is roused
for no reason; as long as it is not over somebody can go on; when the owner is back, it is with the
error of the worker that could not be started, and nothing is running any more; and then it can take
the queue apart, which tells it how many visitors are left there. -/
theorem disbanded_of_steps {crew : Crew} {rest : List Duty} (unmanned : crew.Unmanned capacity)
    (mild : ∀ visitor ∈ crew.sharing.queue.toList, crew.site.felledBy visitor = false)
    {moves : List RunMove}
    (h : (⟨crew, .busy (List.replicate workers .start ++ .startFailing e :: rest)⟩ : Run).steps
      moves = some run) :
    moves.length ≤
        (workers + 1) * (Crew.mostRank workers crew.sharing.queue.toList.length + 10) +
          2 * moves.countP (·.isSpurious) ∧
    ((∀ move : RunMove, move.isSpurious = false → run.step move = none) →
      run.result?.isSome = true) ∧
    (∀ failure, run.startError? = some failure →
      failure = .spawn e ∧ run.crew.Disbanded workers crew) ∧
    ∀ result, run.result? = some result →
      run.startError? = some (.spawn e) ∧ result.failure = some e ∧ result.closed = .ok () ∧
        result.endings.length = workers ∧
        result.discarded = .ok run.crew.sharing.queue.toList.length := by
  have start := recruiting_start unmanned workers e rest
  obtain ⟨recruiting, paid⟩ :=
    paid_of_steps (·.Recruiting capacity workers e crew) (·.recruitRank workers crew) start
      (fun recruiting => recruiting.step mild) h
  have budget := recruitRank_start unmanned workers
    (List.replicate workers .start ++ .startFailing e :: rest)
  exact ⟨by omega, recruiting.progress, fun _ => recruiting.disbanded, fun _ => recruiting.result_eq⟩

/-- The third of four workers cannot be started, at a queue whose positions have gone round. The first
worker takes both visitors, one of them before that, while the second waits until it is told that the
queue is closed. -/
theorem disbanded_of_steps_third_worker :
    ∃ crew run result, crew.Unmanned 2 ∧ crew.sharing.queue.ring.head = 1 ∧
      crew.sharing.queue.toList = [⟨1, {}, false⟩, ⟨2, {}, false⟩] ∧
      (⟨crew, .busy (List.replicate 2 .start ++
          .startFailing (.system .resourceUnavailable) :: [.start])⟩ : Run).steps
        [.manage none, .work 0 none {}, .work 0 none {}, .work 0 none {}, .manage none, .manage none,
          .work 0 none {}, .work 0 none {}, .work 0 none {}, .work 1 none {}, .work 1 none {},
          .manage none, .manage none, .manage none, .manage none, .manage none, .work 0 none {},
          .work 0 none {}, .work 0 none {}, .work 0 none {}, .work 0 none {}, .work 1 none {},
          .work 1 none {}, .manage none, .manage none, .manage none] = some run ∧
      run.result? = some result ∧ result.failure = some (.system .resourceUnavailable) ∧
      run.crew.Disbanded 2 crew ∧ run.crew.services.map (·.worker) = [0, 0] ∧
      result.discarded = .ok 0 := by
  have history : (Sharing.start 2 1 : Sharing Visitor).run
      [.call 0 (.put ⟨0, {}, false⟩), .enter 0 none, .leave 0, .call 0 .take, .enter 0 none, .leave 0,
        .call 0 (.put ⟨1, {}, false⟩), .enter 0 none, .leave 0, .call 0 (.put ⟨2, {}, false⟩),
        .enter 0 none, .leave 0] = some _ := rfl
  have unmanned : Crew.Unmanned 2 ⟨⟨⟨.directory [], [], true⟩, []⟩, _, [], [], {}⟩ :=
    ⟨(Sharing.Reachable.start 1).run history, rfl, rfl, rfl, rfl⟩
  obtain ⟨_, _, back, _⟩ :=
    @disbanded_of_steps 2 2 (.system .resourceUnavailable) _ _ [.start] unmanned (by decide)
      [.manage none, .work 0 none {}, .work 0 none {}, .work 0 none {}, .manage none, .manage none,
        .work 0 none {}, .work 0 none {}, .work 0 none {}, .work 1 none {}, .work 1 none {},
        .manage none, .manage none, .manage none, .manage none, .manage none, .work 0 none {},
        .work 0 none {}, .work 0 none {}, .work 0 none {}, .work 0 none {}, .work 1 none {},
        .work 1 none {}, .manage none, .manage none, .manage none] rfl
  exact ⟨_, _, _, unmanned, rfl, rfl, rfl, rfl, rfl, (back _ rfl).2, rfl, rfl⟩

end Run

end StaticHttp
