import StaticHttp.Proofs.Pool.Run

/-!
# Nobody waits for ever

When no worker of a crew can go on (`Crew.Halted`), each of them has ended or waits for a visitor.
So an owner that waits at a full queue waits for a worker that can go on, or else all workers are
down (`Halted.all_down`); and an owner that drains the queue waits only for a worker to end that is
not waiting itself (`Owner.Stands.exists_drain`).

A run has a worker left as long as its owner waits: if all were down, more visitors than there are
would have been accepted, or more would have brought workers down than do. Hence while a run is not
over, its owner or some worker can go on. When it is over nobody can move, and nobody can be roused.
-/

namespace StaticHttp

namespace Crew

variable {capacity : Nat} {crew : Crew}

/-- A worker that has not ended can go on unless it is parked. -/
theorem exists_work {i : Nat} {w : Worker} {p : Phase Visitor} (found : crew.workers[i]? = some w)
    (running : ∀ e, w ≠ .ended e) (seat : crew.sharing.threads[threadOf i]? = some p)
    (awake : ∀ who, p.isParked who = false) : ∃ wake next, crew.work i wake {} = some next := by
  cases w with
  | taking handled =>
    have canBegin : p = .idle → ∃ t, crew.sharing.step (.call (threadOf i) .take) = some t := by
      rintro rfl
      simp only [Sharing.step, seat, Option.some.injEq, exists_eq']
    obtain ⟨wake, reply, t, hturn⟩ := Sharing.exists_turn seat awake canBegin
    refine ⟨wake, ?_⟩
    cases reply <;> simp only [work, found, hturn, Option.some.injEq, exists_eq']
  | serving visitor handled =>
    exact ⟨none, crew.serve i visitor handled {}, by simp only [work, found]⟩
  | ended e => exact absurd rfl (running e)

/-- No worker can go on. -/
def Halted (crew : Crew) : Prop := ∀ i wake, crew.work i wake {} = none

namespace Halted

/-- Each worker has ended or waits for a visitor. -/
theorem ended_or_waits (halted : crew.Halted) (h : crew.Seated capacity) {i : Nat} {w : Worker}
    (found : crew.workers[i]? = some w) :
    ∃ p, crew.sharing.threads[threadOf i]? = some p ∧
      ((p = .idle ∧ ∃ e, w = .ended e) ∨ p = .parked .take) := by
  obtain ⟨p, seat, seated⟩ := h.seat i w found
  refine ⟨p, seat, ?_⟩
  have waits : (∀ e, w ≠ .ended e) → ∃ c, p = .parked c := by
    intro running
    by_contra awake
    obtain ⟨wake, next, hwork⟩ := exists_work found running seat fun who => by
      cases p with
      | parked c => exact absurd ⟨c, rfl⟩ awake
      | _ => rfl
    rw [halted i wake] at hwork
    cases hwork
  cases w with
  | taking handled =>
    obtain ⟨c, rfl⟩ := waits nofun
    right
    exact congrArg Phase.parked (seated : c = .take)
  | serving visitor handled =>
    obtain ⟨c, rfl⟩ := waits nofun
    cases (seated : Phase.parked c = .idle)
  | ended e => exact .inl ⟨seated, e, rfl⟩

/-- Nobody has been notified, if the owner has not. -/
theorem notified_eq_zero (halted : crew.Halted) (h : crew.Seated capacity) {p : Phase Visitor}
    (owner : crew.sharing.threads[0]? = some p) (who : Call Visitor → Bool)
    (unnotified : p.isNotified who = false) : crew.sharing.notified who = 0 := by
  apply List.countP_eq_zero.mpr
  intro q hq notified
  obtain ⟨j, found⟩ := List.getElem?_of_mem hq
  cases j with
  | zero =>
    cases found.symm.trans owner
    cases unnotified.symm.trans notified
  | succ i =>
    have hlt := (List.getElem?_eq_some_iff.mp found).1
    rw [h.length_eq] at hlt
    have worker := List.getElem?_eq_getElem (Nat.lt_of_succ_lt_succ hlt)
    obtain ⟨r, seat, cases⟩ := halted.ended_or_waits h worker
    cases found.symm.trans seat
    rcases cases with ⟨rfl, _⟩ | rfl <;> cases notified

/-- While the queue is open, each worker is down or waits for a visitor. -/
theorem down_or_waits (halted : crew.Halted) (h : crew.Steady capacity)
    (isOpen : crew.sharing.queue.closed = false) {i : Nat} {w : Worker}
    (found : crew.workers[i]? = some w) :
    w = .ended .crashed ∨ crew.sharing.threads[threadOf i]? = some (.parked .take) := by
  obtain ⟨p, seat, ⟨_, e, rfl⟩ | rfl⟩ := halted.ended_or_waits h.seated found
  · cases e with
    | crashed => exact .inl rfl
    | finished handled => cases isOpen.symm.trans (h.finished i handled found).1
    | failed e => exact absurd found (h.ledger.unfailed i e)
  · exact .inr seat

/-- A worker that waits at an open queue faces an empty one, if the owner is not on its way. -/
theorem empty_of_waits (halted : crew.Halted) (h : crew.Seated capacity)
    (isOpen : crew.sharing.queue.closed = false) {p : Phase Visitor}
    (owner : crew.sharing.threads[0]? = some p) (unnotified : p.isNotified Call.isTake = false)
    {i : Nat} (waits : crew.sharing.threads[threadOf i]? = some (.parked .take)) :
    crew.sharing.queue.toList = [] := by
  have some : 0 < crew.sharing.parked Call.isTake :=
    List.countP_pos_iff.mpr ⟨_, List.mem_of_getElem? waits, rfl⟩
  have few : crew.sharing.queue.toList.length ≤ crew.sharing.notified Call.isTake :=
    (h.reached.wakeful isOpen h.isClean).takers some
  rw [halted.notified_eq_zero h owner _ unnotified] at few
  exact List.eq_nil_of_length_eq_zero (Nat.le_zero.mp few)

/-- If the owner waits at an open queue, the queue is full and all workers are down. -/
theorem all_down (halted : crew.Halted) (h : crew.Steady capacity) (positive : 0 < capacity)
    (isOpen : crew.sharing.queue.closed = false) {visitor : Visitor}
    (waits : crew.sharing.threads[0]? = some (.parked (.put visitor))) :
    crew.sharing.queue.toList.length = capacity ∧
      ∀ (i : Nat) w, crew.workers[i]? = some w → w = .ended .crashed := by
  have seated := h.seated
  have full : crew.sharing.queue.toList.length = capacity := by
    have some : 0 < crew.sharing.parked Call.isPut :=
      List.countP_pos_iff.mpr ⟨_, List.mem_of_getElem? waits, rfl⟩
    have free := (seated.reached.wakeful isOpen seated.isClean).producers some
    have hle := seated.reached.sound.length_le
    have none := halted.notified_eq_zero seated waits Call.isPut rfl
    rw [seated.reached.capacity_eq] at free hle
    unfold Sharing.notified at none
    omega
  refine ⟨full, fun i w found => ?_⟩
  rcases halted.down_or_waits h isOpen found with down | taking
  · exact down
  · have empty := halted.empty_of_waits seated isOpen waits rfl taking
    rw [empty] at full
    exact absurd full.symm (Nat.pos_iff_ne_zero.mp positive)

end Halted

end Crew

namespace Owner

variable {capacity : Nat} {crew : Crew}

/-- An owner that has a call to make can take its turn unless it is parked. -/
theorem exists_turn (owner : Owner) {begin : Move Visitor} {p : Phase Visitor}
    (begins : owner.begins? = some begin) (found : crew.sharing.threads[0]? = some p)
    (awake : ∀ who, p.isParked who = false) :
    ∃ wake reply sharing, crew.sharing.turn 0 begin wake = some (reply, sharing) := by
  refine Sharing.exists_turn found awake ?_
  rintro rfl
  unfold begins? at begins
  split at begins <;> cases begins <;>
    simp only [Sharing.step, found, Option.some.injEq, exists_eq']

/-- An owner that drains the queue can go on, unless it is through or a worker can go on. -/
theorem Stands.exists_drain {visitors : List Visitor} {failure : Option IoError} {drain : Drain}
    (stands : Stands visitors crew (.draining failure drain)) (h : crew.Seated capacity)
    (halted : crew.Halted) (going : drain.isDone = false) :
    ∃ wake after, crew.drain wake drain = some after := by
  have closes : ∀ {p : Phase Visitor}, drain = .closing → crew.sharing.threads[0]? = some p →
      (∀ who, p.isParked who = false) → ∃ wake after, crew.drain wake drain = some after := by
    rintro p rfl found awake
    obtain ⟨wake, reply, sharing, hturn⟩ :=
      exists_turn (.draining none .closing) rfl found awake
    refine ⟨wake, ?_⟩
    cases reply <;> simp only [Crew.drain, hturn, Option.some.injEq, exists_eq']
  cases stands with
  | @closing p found shuts =>
    refine closes rfl found fun who => ?_
    cases p with
    | parked => exact shuts.elim
    | _ => rfl
  | closed found => exact closes rfl found fun _ => rfl
  | @joining endings _ _ free =>
    refine ⟨none, ?_⟩
    cases hw : crew.workers[endings.length]? with
    | none => simp only [Crew.drain, hw, Option.some.injEq, exists_eq']
    | some w =>
      obtain ⟨p, seat, ⟨_, e, rfl⟩ | rfl⟩ := halted.ended_or_waits h hw
      · simp only [Crew.drain, hw, Option.some.injEq, exists_eq']
      · have none := List.countP_eq_zero.mp (free fun _ => true) _ (List.mem_of_getElem? seat)
        exact absurd rfl none
  | done => cases going

end Owner

namespace Run

variable {run : Run}

/-- If nobody can go on, no worker can. -/
theorem halted_of_stuck (stuck : ∀ move : RunMove, move.isSpurious = false → run.step move = none) :
    run.crew.Halted :=
  fun i wake => Option.map_eq_none_iff.mp (stuck (.work i wake {}) rfl)

/-- If nobody can go on, an owner that drains the queue is through. -/
theorem isSome_of_draining {capacity : Nat} {visitors : List Visitor} {crew : Crew}
    {failure failure' : Option IoError} {drain : Drain}
    (stands : Owner.Stands visitors crew (.draining failure' drain)) (h : crew.Seated capacity)
    (stuck : ∀ move : RunMove, move.isSpurious = false →
      (⟨crew, .draining failure drain⟩ : Run).step move = none) :
    (⟨crew, .draining failure drain⟩ : Run).result?.isSome = true := by
  cases going : drain.isDone with
  | false =>
    obtain ⟨wake, after, hdrain⟩ := stands.exists_drain h (halted_of_stuck stuck) going
    have none := stuck (.manage wake) rfl
    simp only [step, manage, hdrain, Option.map_some, reduceCtorEq] at none
  | true =>
    cases drain with
    | done => rfl
    | _ => cases going

namespace Orderly

variable {site : Site} {capacity workers : Nat} {visitors : List Visitor}

/-- If all workers are down, as many visitors as there are workers have brought one down. -/
theorem countP_delivered_ge (h : run.Orderly site capacity workers visitors)
    (down : ∀ (i : Nat) w, run.crew.workers[i]? = some w → w = .ended .crashed) :
    workers ≤ run.crew.sharing.delivered.countP site.felledBy := by
  have all : run.crew.workers.countP Worker.isDown = run.crew.workers.length := by
    apply List.countP_eq_length.mpr
    intro w hw
    obtain ⟨i, found⟩ := List.getElem?_of_mem hw
    exact Worker.isDown_iff.mpr (down i w found)
  have balance := h.crew.conserved fun v => (site.felledBy v).toNat
  rw [total_eq_countP, total_map, total_eq_countP, ← h.site_eq] at balance
  rw [← h.site_eq, balance, ← h.crew.ledger.down_count, all, h.length_eq]
  omega

/-- If the owner waits at a full queue, some worker can go on. -/
theorem not_halted (h : run.Orderly site capacity workers visitors) (positive : 0 < capacity)
    (room : visitors.length ≤ capacity ∨ visitors.countP site.felledBy < workers)
    {visitor : Visitor} {rest : List Visitor}
    (waits : run.crew.sharing.threads[0]? = some (.parked (.put visitor)))
    (isOpen : run.crew.sharing.queue.closed = false)
    (accepted : run.crew.sharing.accepted ++ visitor :: rest = visitors) : ¬ run.crew.Halted := by
  intro halted
  obtain ⟨full, down⟩ := halted.all_down h.crew.toSteady positive isOpen waits
  have ordered := h.crew.seated.reached.ordered
  have hlen := congrArg List.length ordered
  rw [List.length_append] at hlen
  -- A full queue and the visitor in hand are more than the capacity, and as many delivered visitors
  -- as there are workers have brought one down.
  rcases room with short | fewer
  · rw [← accepted, List.length_append, List.length_cons] at short
    omega
  · have many := h.countP_delivered_ge down
    rw [← accepted, ← ordered, List.countP_append, List.countP_append] at fewer
    omega

/-- As long as a run is not over, it can go on, and not only by rousing a thread. -/
theorem progress (h : run.Orderly site capacity workers visitors) (positive : 0 < capacity)
    (room : visitors.length ≤ capacity ∨ visitors.countP site.felledBy < workers)
    (stuck : ∀ move : RunMove, move.isSpurious = false → run.step move = none) :
    run.result?.isSome = true := by
  have noManage : ∀ wake, run.manage wake = none := fun wake => stuck (.manage wake) rfl
  have halted := halted_of_stuck stuck
  have stands := h.stands
  obtain ⟨crew, owner⟩ := run
  dsimp only at stands halted
  cases owner with
  | busy todo =>
    have blocked : ∀ {visitor : Visitor} {rest : List Visitor} {p : Phase Visitor},
        todo = (visitor :: rest).map .offer → crew.sharing.threads[0]? = some p →
        (∀ who, p.isParked who = false) → False := by
      rintro visitor rest p rfl found awake
      obtain ⟨wake, reply, sharing, hturn⟩ :=
        Owner.exists_turn (.busy ((visitor :: rest).map .offer)) rfl found awake
      have none := noManage wake
      cases reply <;> simp only [List.map_cons, manage, call, hturn, reduceCtorEq] at none
    cases stands with
    | @between _ rest plan found =>
      cases rest with
      | nil =>
        subst plan
        cases noManage none
      | cons visitor rest => exact (blocked plan found fun _ => rfl).elim
    | @putting _ visitor rest p plan found puts isOpen accepted =>
      cases p with
      | parked c =>
        cases puts
        exact absurd halted (h.not_halted positive room found isOpen accepted)
      | entering | notified | roused => exact (blocked plan found fun _ => rfl).elim
      | _ => cases puts
    | put plan found => exact (blocked plan found fun _ => rfl).elim
  | draining failure drain => exact isSome_of_draining stands h.crew.seated stuck

/-- A run that is over has come to its end. -/
theorem step_eq_none (h : run.Orderly site capacity workers visitors)
    (isOver : run.result?.isSome = true) (move : RunMove) : run.step move = none := by
  have stands := h.stands
  have seated := h.crew.seated
  obtain ⟨crew, owner⟩ := run
  dsimp only at stands seated
  cases stands with
  | @done endings found free accepted seen all =>
    have ended : ∀ i < crew.workers.length, ∃ e, crew.workers[i]? = some (.ended e) := by
      intro i hi
      rw [all] at hi
      exact ⟨_, seen i _ (List.getElem?_eq_getElem hi)⟩
    refine Option.eq_none_iff_forall_ne_some.mpr fun next hstep => ?_
    rcases step_cases seated hstep with ⟨wake, rfl, hmanage⟩ | ⟨crew', rfl, others⟩
    · cases hmanage
    · obtain ⟨mover, other, step⟩ := others.transition
      exact other (step.mover_eq_owner seated ended free)
  | _ => cases isOver

end Orderly

end Run

end StaticHttp
