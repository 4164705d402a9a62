import StaticHttp.Proofs.Pool.Outcome

/-!
# Workers at a queue that was there before them

Workers may come to a queue that has been in use: it holds visitors, its positions have gone round,
it may be closed. If nothing is added to it any more, what they take is the front part of what it
held, and this is what they have served or have in hand (`Crew.Inherits`). If none of those visitors
brings a worker down, all workers that have ended have finished; and once all have, the visitors
were served, each of them once, if there was any worker, and are all still there if there was none
(`Inherits.disbanded`).
-/

namespace StaticHttp

namespace Crew

variable {capacity : Nat} {origin crew next : Crew} {mover : Option Nat}

/-- Nobody is at the queue but its owner, who is outside any call, and the lock is clean. -/
structure Unmanned (capacity : Nat) (crew : Crew) : Prop where
  reached : crew.sharing.Reachable capacity
  isClean : crew.sharing.queue.poisoned = false
  threads_eq : crew.sharing.threads = [.idle]
  workers_eq : crew.workers = []
  services_eq : crew.services = []

/-- What holds of the workers that came to the queue of `origin`, if nothing is added to it. -/
structure Inherits (capacity : Nat) (crew origin : Crew) : Prop where
  seated : crew.Seated capacity
  finished : crew.Finished
  site_eq : crew.site = origin.site
  /-- What was taken from the queue is what the crew has served or has in hand. -/
  taken : ∃ taken, origin.sharing.queue.toList = taken ++ crew.sharing.queue.toList ∧
    ∀ f, crew.carried f = total f taken
  faithful : ∀ service ∈ crew.services,
    service.worker < crew.workers.length ∧ service.Faithful crew.site
  /-- No worker has failed or is down. -/
  unharmed : ∀ (i : Nat) e, crew.workers[i]? = some (.ended e) → ∃ n, e = .finished n

theorem Unmanned.inherits (h : crew.Unmanned capacity) : crew.Inherits capacity crew where
  seated := by
    refine ⟨h.reached, h.isClean, ?_, ⟨.idle, ?_, trivial⟩, fun i w hw => ?_⟩
    · rw [h.threads_eq, h.workers_eq]
      rfl
    · rw [h.threads_eq]
      rfl
    · rw [h.workers_eq] at hw
      cases hw
  finished := by
    intro i handled hw
    rw [h.workers_eq] at hw
    cases hw
  site_eq := rfl
  taken := by
    refine ⟨[], rfl, fun f => ?_⟩
    rw [carried, h.services_eq, h.threads_eq, h.workers_eq]
    rfl
  faithful := by
    rw [h.services_eq]
    intro service hs
    cases hs
  unharmed := by
    intro i e hw
    rw [h.workers_eq] at hw
    cases hw

/-- A move that adds nothing to the queue takes what it takes from its front, into the hands of the
crew. -/
theorem Transition.takes (step : crew.Transition mover next) (h : crew.Seated capacity)
    (same : next.sharing.accepted = crew.sharing.accepted) :
    ∃ more, crew.sharing.queue.toList = more ++ next.sharing.queue.toList ∧
      ∀ f, next.carried f = crew.carried f + total f more := by
  obtain ⟨more, grown⟩ := step.delivered_grows h
  refine ⟨more, ?_, fun f => ?_⟩
  · have before := h.reached.ordered
    have after := (step.seated h).reached.ordered
    rw [same, ← before, ← grown, List.append_assoc] at after
    exact (List.append_cancel_left after).symm
  · have balance := step.balance h f
    rw [← grown, total_append] at balance
    omega

namespace Inherits

theorem length_le (h : crew.Inherits capacity origin) :
    crew.sharing.queue.toList.length ≤ origin.sharing.queue.toList.length := by
  obtain ⟨taken, content, _⟩ := h.taken
  rw [content, List.length_append]
  exact Nat.le_add_left _ _

/-- A visitor with a worker was in the queue, and so brings no worker down if none of those does. -/
theorem felledBy_eq_false (h : crew.Inherits capacity origin)
    (mild : ∀ visitor ∈ origin.sharing.queue.toList, origin.site.felledBy visitor = false)
    {i handled : Nat} {visitor : Visitor}
    (serving : crew.workers[i]? = some (.serving visitor handled)) :
    crew.site.felledBy visitor = false := by
  obtain ⟨taken, content, carried⟩ := h.taken
  have none : total (fun v => (crew.site.felledBy v).toNat) taken = 0 := by
    refine total_eq_zero fun v hv => ?_
    rw [h.site_eq, mild v (content ▸ List.mem_append_left _ hv)]
    rfl
  have weight := carried fun v => (crew.site.felledBy v).toNat
  rw [none, Crew.carried] at weight
  have moved := total_set (Worker.inHand fun v => (crew.site.felledBy v).toNat) (.taking 0) serving
  have held : (Worker.serving visitor handled).inHand (fun v => (crew.site.felledBy v).toNat) =
    (crew.site.felledBy visitor).toNat + 0 := rfl
  have free : (Worker.taking 0).inHand (fun v => (crew.site.felledBy v).toNat) = 0 := rfl
  cases felled : crew.site.felledBy visitor with
  | false => rfl
  | true =>
    rw [felled, Bool.toNat_true] at held
    omega

/-- No move brings a worker down, or lets it fail. -/
private theorem unharmed_of_transition (h : crew.Inherits capacity origin)
    (mild : ∀ visitor ∈ origin.sharing.queue.toList, origin.site.felledBy visitor = false)
    (step : crew.Transition mover next) (i : Nat) (e : Ending)
    (ended : next.workers[i]? = some (.ended e)) : ∃ n, e = .finished n := by
  cases step with
  | own | turn | rouse => exact h.unharmed i e ended
  | hire =>
    rcases get_concat_cases ended with before | ⟨_, heq⟩
    · exact h.unharmed i e before
    · cases heq
  | @back j handled reply sharing taking found step =>
    rcases get_set_cases ended with ⟨_, heq⟩ | ⟨_, before⟩
    · obtain ⟨p, found', seated⟩ := h.seated.seat j _ taking
      cases found.symm.trans found'
      cases (seated : Call.take.Answers reply) with
      | item => cases heq
      | closed =>
        cases heq
        exact ⟨handled, rfl⟩
    · exact h.unharmed i e before
  | @serve j handled visitor elapsed serving =>
    rcases get_set_cases ended with ⟨_, heq⟩ | ⟨_, before⟩
    · have unfelled := h.felledBy_eq_false mild serving
      rcases afterService_cases crew.site visitor elapsed crew.metrics handled with
        ⟨felled, _⟩ | ⟨_, goes⟩
      · cases unfelled.symm.trans felled
      · rw [goes] at heq
        cases heq
    · exact h.unharmed i e before

/-- Every move that adds nothing to the queue leaves it to the same crew. -/
theorem transition (h : crew.Inherits capacity origin)
    (mild : ∀ visitor ∈ origin.sharing.queue.toList, origin.site.felledBy visitor = false)
    (step : crew.Transition mover next) (same : next.sharing.accepted = crew.sharing.accepted) :
    next.Inherits capacity origin where
  seated := step.seated h.seated
  finished := step.finished h.seated h.finished
  site_eq := step.site_eq.trans h.site_eq
  taken := by
    obtain ⟨taken, content, carried⟩ := h.taken
    obtain ⟨more, taken', carried'⟩ := step.takes h.seated same
    refine ⟨taken ++ more, ?_, fun f => ?_⟩
    · rw [content, taken', List.append_assoc]
    · rw [carried' f, carried f, total_append]
  faithful := step.faithful h.faithful
  unharmed := h.unharmed_of_transition mild step

end Inherits

/-! ## When all have ended -/

/-- What is left of so many workers that came to the queue of `origin`, once nothing is running any
more. -/
structure Disbanded (workers : Nat) (crew origin : Crew) : Prop where
  isClosed : crew.sharing.queue.closed = true
  length_eq : crew.workers.length = workers
  /-- All workers have ended, and not by a failure. -/
  ended : ∀ w ∈ crew.workers, ∃ n, w = .ended (.finished n)
  /-- If there was a worker, the visitors in the queue were served, each of them once. -/
  served : 0 < workers → crew.sharing.queue.toList = [] ∧
    (crew.services.map (·.visitor)).Perm origin.sharing.queue.toList
  /-- If there was none, they are still there, in the same order. -/
  kept : workers = 0 → crew.sharing.queue.toList = origin.sharing.queue.toList ∧
    crew.services = []
  /-- A service comes to what the visitor comes to alone, and closes its connection once. -/
  faithful : ∀ service ∈ crew.services, service.worker < workers ∧ service.Faithful origin.site ∧
    service.log.closed = service.visitor.connection.log.closed + 1
  /-- The owner of the queue is alone. -/
  owners_eq : crew.owners = 1
  /-- It can take the queue apart, and is told how many visitors were in it. -/
  destroy_eq : crew.sharing.queue.destroy crew.owners = .ok crew.sharing.queue.toList.length

/-- At the end what was taken from the queue was served. -/
theorem Inherits.services_perm (h : crew.Inherits capacity origin) {endings : List Ending}
    (isOver : crew.Over endings) :
    ∃ taken, origin.sharing.queue.toList = taken ++ crew.sharing.queue.toList ∧
      (crew.services.map (·.visitor)).Perm taken := by
  obtain ⟨taken, content, carried⟩ := h.taken
  refine ⟨taken, content, perm_of_total fun f => ?_⟩
  rw [← isOver.carried_eq h.seated]
  exact carried f

theorem Inherits.disbanded (h : crew.Inherits capacity origin) {endings : List Ending}
    (isOver : crew.Over endings) (isClosed : crew.sharing.queue.closed = true) :
    crew.Disbanded endings.length origin := by
  have ended : ∀ i < crew.workers.length, ∃ e, crew.workers[i]? = some (.ended e) := by
    intro i hi
    have found := List.getElem?_eq_getElem hi
    obtain ⟨e, he⟩ := isOver.ended_of_get found
    exact ⟨e, he ▸ found⟩
  have length_eq : crew.workers.length = endings.length := by rw [isOver.ended, List.length_map]
  obtain ⟨taken, content, perm⟩ := h.services_perm isOver
  refine ⟨isClosed, length_eq, fun w hw => ?_, fun staffed => ?_, fun nobody => ?_,
    fun service hs => ?_, owners_eq_one ended, crew.destroy_eq h.seated ended⟩
  · obtain ⟨i, found⟩ := List.getElem?_of_mem hw
    obtain ⟨e, rfl⟩ := isOver.ended_of_get found
    obtain ⟨n, rfl⟩ := h.unharmed i e found
    exact ⟨n, rfl⟩
  · -- The first worker has finished, and so has found the queue closed and empty.
    obtain ⟨e, found⟩ := ended 0 (length_eq ▸ staffed)
    obtain ⟨n, rfl⟩ := h.unharmed 0 e found
    have empty := (h.finished 0 n found).2
    rw [empty, List.append_nil] at content
    exact ⟨empty, content ▸ perm⟩
  · have idle : crew.services = [] := by
      refine List.eq_nil_iff_forall_not_mem.mpr fun service hs => ?_
      have := (h.faithful service hs).1
      omega
    rw [idle, List.map_nil] at perm
    rw [perm.nil_eq.symm, List.nil_append] at content
    exact ⟨content.symm, idle⟩
  · obtain ⟨hlt, faithful⟩ := h.faithful service hs
    rw [h.site_eq] at faithful
    exact ⟨length_eq ▸ hlt, faithful, faithful.closed_eq⟩

end Crew

end StaticHttp
