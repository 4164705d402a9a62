import StaticHttp.Pool.Run
import StaticHttp.Proofs.Pool.Books

/-!
# The owner of a queue

An owner that only offers visitors goes a straight way, whatever the workers do meanwhile: it puts
its visitors into the queue in order, closes the queue, sees the workers end in the order of their
numbers, and takes the queue apart. `Owner.Stands` says where it can be and what holds there;
`Owner.Change` lists what its moves can do. The moves of others leave it where it is
(`Stands.spared`), and its own moves take it further (`Change.stands`).
-/

namespace StaticHttp

namespace Crew

variable {capacity : Nat} {crew next : Crew} {mover : Option Nat}

/-- What workers leave to the owner as it is. -/
structure Spares (crew next : Crew) : Prop where
  owner : ∀ p, crew.sharing.threads[0]? = some p →
    ∃ q, next.sharing.threads[0]? = some q ∧ p.Stirs q
  closed_eq : next.sharing.queue.closed = crew.sharing.queue.closed
  accepted_eq : next.sharing.accepted = crew.sharing.accepted
  free : crew.sharing.queue.closed = true → (∀ who, crew.sharing.parked who = 0) →
    ∀ who, next.sharing.parked who = 0
  ended : ∀ (i : Nat) e, crew.workers[i]? = some (.ended e) → next.workers[i]? = some (.ended e)

private theorem Spares.of_step (h : crew.Seated capacity) {move : Move Visitor}
    {sharing : Sharing Visitor} {workers : List Worker}
    (step : crew.sharing.step move = some sharing) (other : move.mover? ≠ some 0)
    (takes : ∀ i p, move.mover? = some i → crew.sharing.threads[i]? = some p → p.Carries .take)
    (ended : ∀ (i : Nat) e, crew.workers[i]? = some (.ended e) → workers[i]? = some (.ended e)) :
    crew.Spares { crew with sharing, workers } where
  owner := fun _ found => (h.reached.transition step).others found other
  closed_eq := (h.reached.transition step).closed_eq fun i mine found => takes i _ mine found
  accepted_eq := (h.reached.transition step).accepted_eq_of_not_put fun i p _ mine found tries =>
    nomatch (takes i p mine found).eq_of_trying? tries
  free := fun isClosed free who => (h.reached.transition step).parked_eq_zero isClosed (free who)
  ended := ended

/-- A worker that has ended stays so by the moves of others than the owner. -/
theorem Transition.ended_stays (step : crew.Transition mover next) (other : mover ≠ some 0)
    (i : Nat) (e : Ending) (ended : crew.workers[i]? = some (.ended e)) :
    next.workers[i]? = some (.ended e) := by
  have keeps : ∀ {j : Nat} {w w' : Worker}, crew.workers[j]? = some w → (∀ e, w ≠ .ended e) →
      (crew.workers.set j w')[i]? = some (.ended e) := by
    intro j w w' found running
    have hne : j ≠ i := by
      rintro rfl
      exact running e (Option.some.inj (found.symm.trans ended))
    rw [List.getElem?_set_ne hne, ended]
  cases step with
  | own | hire => exact absurd rfl other
  | turn | rouse => exact ended
  | back taking => exact keeps taking nofun
  | serve elapsed serving => exact keeps serving nofun

theorem Transition.spares (step : crew.Transition mover next) (h : crew.Seated capacity)
    (other : mover ≠ some 0) : crew.Spares next := by
  have ended := step.ended_stays other
  have takes : ∀ {i handled : Nat}, crew.workers[i]? = some (.taking handled) →
      ∀ j p, some (threadOf i) = some j → crew.sharing.threads[j]? = some p → p.Carries .take := by
    intro i handled taking j p heq found
    cases heq
    obtain ⟨q, found', seated⟩ := h.seat i _ taking
    cases found.symm.trans found'
    exact seated
  cases step with
  | own | hire => exact absurd rfl other
  | turn taking found turn step =>
    refine .of_step h step ?_ ?_ ended
    · rw [turn.mover?_eq rfl]
      exact nofun
    · rw [turn.mover?_eq rfl]
      exact takes taking
  | back taking found step => exact .of_step h step nofun (takes taking) ended
  | serve => exact ⟨fun p found => ⟨p, found, .stays p⟩, rfl, rfl, fun _ free => free, ended⟩
  | rouse step =>
    refine .of_step h step nofun (fun i p mine => ?_) ended
    cases mine

theorem Transition.length_workers (step : crew.Transition mover next) (other : mover ≠ some 0) :
    next.workers.length = crew.workers.length := by
  cases step with
  | own | hire => exact absurd rfl other
  | turn | rouse => rfl
  | back | serve => exact List.length_set

theorem Transition.site_eq (step : crew.Transition mover next) : next.site = crew.site := by
  cases step <;> rfl

/-- If all workers have ended and nobody waits, nobody but the owner moves. -/
theorem Transition.mover_eq_owner (step : crew.Transition mover next) (h : crew.Seated capacity)
    (ended : ∀ i < crew.workers.length, ∃ e, crew.workers[i]? = some (.ended e))
    (free : ∀ who, crew.sharing.parked who = 0) : mover = some 0 := by
  have running : ∀ {i : Nat} {w : Worker}, crew.workers[i]? = some w → (∀ e, w ≠ .ended e) →
      False := by
    intro i w found running
    obtain ⟨e, he⟩ := ended i (List.getElem?_eq_some_iff.mp found).1
    exact running e (Option.some.inj (found.symm.trans he))
  cases step with
  | own | hire => rfl
  | turn taking | back taking => exact (running taking nofun).elim
  | serve elapsed serving => exact (running serving nofun).elim
  | rouse step =>
    cases h.reached.transition step with
    | rouse found =>
      have none := List.countP_eq_zero.mp (free fun _ => true) _ (List.mem_of_getElem? found)
      exact absurd rfl none

/-- Workers that have all been seen to end have ended so. -/
theorem workers_eq_of_seen {crew : Crew} {endings : List Ending}
    (seen : ∀ (i : Nat) e, endings[i]? = some e → crew.workers[i]? = some (.ended e))
    (all : crew.workers[endings.length]? = none) : crew.workers = endings.map .ended := by
  refine List.ext_getElem? fun i => ?_
  rw [List.getElem?_map]
  cases hi : endings[i]? with
  | none =>
    have past := Nat.le_trans (List.getElem?_eq_none_iff.mp all) (List.getElem?_eq_none_iff.mp hi)
    exact List.getElem?_eq_none past
  | some e => exact seen i e hi

/-- When all workers have ended, the owner is alone. -/
theorem owners_eq_one {crew : Crew}
    (ended : ∀ i < crew.workers.length, ∃ e, crew.workers[i]? = some (.ended e)) :
    crew.owners = 1 := by
  refine congrArg (1 + ·) (List.countP_eq_zero.mpr fun w hw running => ?_)
  obtain ⟨i, found⟩ := List.getElem?_of_mem hw
  obtain ⟨e, he⟩ := ended i (List.getElem?_eq_some_iff.mp found).1
  cases found.symm.trans he
  cases running

/-- When all workers have ended, the owner can take the queue apart. -/
theorem destroy_eq (crew : Crew) (h : crew.Seated capacity)
    (ended : ∀ i < crew.workers.length, ∃ e, crew.workers[i]? = some (.ended e)) :
    crew.sharing.queue.destroy crew.owners = .ok crew.sharing.queue.toList.length := by
  unfold Queue.destroy
  rw [owners_eq_one ended, h.isClean, h.reached.sound.length_eq]
  rfl

end Crew

namespace Owner

/-- Where an owner of these visitors stands that is through with none, some or all of its way. -/
inductive Stands (visitors : List Visitor) (crew : Crew) : Owner → Prop
  | between {todo : List Duty} {rest : List Visitor} (plan : todo = rest.map .offer)
      (found : crew.sharing.threads[0]? = some .idle) (isOpen : crew.sharing.queue.closed = false)
      (accepted : crew.sharing.accepted ++ rest = visitors) : Stands visitors crew (.busy todo)
  | putting {todo : List Duty} {visitor : Visitor} {rest : List Visitor} {p : Phase Visitor}
      (plan : todo = (visitor :: rest).map .offer) (found : crew.sharing.threads[0]? = some p)
      (puts : p.call? = some (.put visitor)) (isOpen : crew.sharing.queue.closed = false)
      (accepted : crew.sharing.accepted ++ visitor :: rest = visitors) :
      Stands visitors crew (.busy todo)
  | put {todo : List Duty} {visitor : Visitor} {rest : List Visitor}
      (plan : todo = (visitor :: rest).map .offer)
      (found : crew.sharing.threads[0]? = some (.answered .done))
      (isOpen : crew.sharing.queue.closed = false)
      (accepted : crew.sharing.accepted ++ rest = visitors) : Stands visitors crew (.busy todo)
  | closing {p : Phase Visitor} (found : crew.sharing.threads[0]? = some p) (closes : p.Closes)
      (before : p ≠ .answered .done) (accepted : crew.sharing.accepted = visitors) :
      Stands visitors crew (.draining none .closing)
  | closed (found : crew.sharing.threads[0]? = some (.answered .done))
      (isClosed : crew.sharing.queue.closed = true) (free : ∀ who, crew.sharing.parked who = 0)
      (accepted : crew.sharing.accepted = visitors) : Stands visitors crew (.draining none .closing)
  | joining {endings : List Ending} (found : crew.sharing.threads[0]? = some .idle)
      (isClosed : crew.sharing.queue.closed = true) (free : ∀ who, crew.sharing.parked who = 0)
      (accepted : crew.sharing.accepted = visitors)
      (seen : ∀ (i : Nat) e, endings[i]? = some e → crew.workers[i]? = some (.ended e)) :
      Stands visitors crew (.draining none (.joining (.ok ()) endings))
  | done {endings : List Ending} (found : crew.sharing.threads[0]? = some .idle)
      (free : ∀ who, crew.sharing.parked who = 0) (accepted : crew.sharing.accepted = visitors)
      (seen : ∀ (i : Nat) e, endings[i]? = some e → crew.workers[i]? = some (.ended e))
      (all : crew.workers.length = endings.length) :
      Stands visitors crew
        (.draining none (.done (.ok ()) endings (.ok crew.sharing.queue.toList.length)))

/-- The call that the owner has to make. -/
def begins? : Owner → Option (Move Visitor)
  | .busy (.offer visitor :: _) => some (.call 0 (.put visitor))
  | .busy (.close :: _) | .draining _ .closing => some (.close 0)
  | _ => none

/-- What a move of an owner that only offers visitors can do. -/
inductive Change (crew : Crew) : Owner → Crew → Owner → Prop
  | drain : Change crew (.busy []) crew (.draining none .closing)
  | turn {owner : Owner} {begin move : Move Visitor} {p : Phase Visitor}
      {sharing : Sharing Visitor} (begins : owner.begins? = some begin)
      (found : crew.sharing.threads[0]? = some p) (turn : Sharing.Turn begin 0 p move none)
      (step : crew.sharing.step move = some sharing) : Change crew owner { crew with sharing } owner
  | back {visitor : Visitor} {rest : List Duty} {reply : Reply Visitor} {sharing : Sharing Visitor}
      (found : crew.sharing.threads[0]? = some (.answered reply))
      (step : crew.sharing.step (.leave 0) = some sharing) :
      Change crew (.busy (.offer visitor :: rest)) { crew with sharing } (.busy rest)
  | shut {failure : Option IoError} {reply : Reply Visitor} {sharing : Sharing Visitor}
      (found : crew.sharing.threads[0]? = some (.answered reply))
      (step : crew.sharing.step (.leave 0) = some sharing) :
      Change crew (.draining failure .closing) { crew with sharing }
        (.draining failure (.joining (Drain.closedOf reply) []))
  | see {failure : Option IoError} {closed : Except QueueError Unit} {endings : List Ending}
      {ending : Ending} (found : crew.workers[endings.length]? = some (.ended ending)) :
      Change crew (.draining failure (.joining closed endings)) crew
        (.draining failure (.joining closed (endings ++ [ending])))
  | takeApart {failure : Option IoError} {closed : Except QueueError Unit} {endings : List Ending}
      (all : crew.workers[endings.length]? = none) :
      Change crew (.draining failure (.joining closed endings)) crew
        (.draining failure (.done closed endings (crew.sharing.queue.destroy crew.owners)))

/-- A turn of an owner that puts a visitor into the queue leaves it in its call, or ends it. -/
theorem Change.of_put {crew : Crew} {visitor : Visitor} {wake : Option Nat}
    {reply : Option (Reply Visitor)} {sharing : Sharing Visitor} (rest : List Duty)
    (h : crew.sharing.turn 0 (.call 0 (.put visitor)) wake = some (reply, sharing)) :
    match reply with
    | none =>
      Change crew (.busy (.offer visitor :: rest)) { crew with sharing }
        (.busy (.offer visitor :: rest))
    | some reply => crew.sharing.threads[0]? = some (.answered reply) ∧
      Change crew (.busy (.offer visitor :: rest)) { crew with sharing } (.busy rest) := by
  obtain ⟨p, move, found, turn, step⟩ := Sharing.turn_cases h
  cases reply with
  | none => exact .turn rfl found turn step
  | some reply =>
    cases turn with
    | leave => exact ⟨found, .back found step⟩

/-- A move of an owner that drains the queue is one of the changes. -/
theorem Change.of_drain {crew next : Crew} {drain after : Drain} {wake : Option Nat}
    (failure : Option IoError) (h : crew.drain wake drain = some (after, next)) :
    Change crew (.draining failure drain) next (.draining failure after) := by
  cases drain with
  | closing =>
    simp only [Crew.drain] at h
    split at h <;> cases h <;> rename_i hturn <;>
      obtain ⟨p, move, found, turn, step⟩ := Sharing.turn_cases hturn
    · cases turn with
      | leave => exact .shut found step
    · exact .turn rfl found turn step
  | joining closed endings =>
    simp only [Crew.drain] at h
    split at h <;> cases h
    · exact .see ‹_›
    · exact .takeApart ‹_›
  | done => cases h

/-- A move of an owner that only offers visitors is one of the changes. -/
theorem Change.of_manage {run next : Run} {wake : Option Nat}
    (offers : ∀ todo, run.owner = .busy todo → ∃ rest : List Visitor, todo = rest.map .offer)
    (h : run.manage wake = some next) : Change run.crew run.owner next.crew next.owner := by
  obtain ⟨crew, owner⟩ := run
  cases owner with
  | busy todo =>
    obtain ⟨rest, rfl⟩ := offers todo rfl
    cases rest with
    | nil =>
      cases h
      exact .drain
    | cons visitor rest =>
      simp only [Run.manage, Run.call, List.map_cons] at h
      split at h <;> cases h <;> rename_i hturn
      · exact (Change.of_put _ hturn).2
      · exact Change.of_put _ hturn
  | draining failure drain =>
    obtain ⟨⟨after, crew'⟩, hdrain, heq⟩ := Option.map_eq_some_iff.mp h
    cases heq
    exact .of_drain failure hdrain

theorem Change.transition {crew next : Crew} {owner owner' : Owner}
    (change : Change crew owner next owner') :
    next = crew ∨ crew.Transition (some 0) next := by
  cases change with
  | drain | see | takeApart => exact .inl rfl
  | turn begins found turn step =>
    right
    have kinds : ∀ {o : Owner} {b : Move Visitor}, o.begins? = some b →
        b = .close 0 ∨ ∃ visitor, b = .call 0 (.put visitor) := by
      intro o b hb
      unfold begins? at hb
      split at hb <;> cases hb
      · exact .inr ⟨_, rfl⟩
      · exact .inl rfl
      · exact .inl rfl
    rcases kinds begins with rfl | ⟨visitor, rfl⟩
    · refine .own (turn.mover?_eq rfl) ?_ step
      rintro i rfl
      cases turn
    · refine .own (turn.mover?_eq rfl) ?_ step
      rintro i rfl
      cases turn
  | back found step | shut found step =>
    refine .inr (.own rfl ?_ step)
    exact fun _ => nofun

variable {capacity : Nat} {visitors : List Visitor} {crew next : Crew} {owner owner' : Owner}
  {mover : Option Nat}

theorem Change.workers_eq (change : Change crew owner next owner') :
    next.workers = crew.workers := by
  cases change <;> rfl

theorem Change.length_workers (change : Change crew owner next owner') :
    next.workers.length = crew.workers.length := congrArg List.length change.workers_eq

theorem Change.site_eq (change : Change crew owner next owner') : next.site = crew.site := by
  cases change <;> rfl

/-- The moves of others leave the owner where it stands. -/
theorem Stands.spared (stands : Stands visitors crew owner) (h : crew.Seated capacity)
    (step : crew.Transition mover next) (other : mover ≠ some 0) :
    Stands visitors next owner := by
  have spares := step.spares h other
  have stays : ∀ {p : Phase Visitor}, crew.sharing.threads[0]? = some p →
      (∀ c, p ≠ .parked c) → next.sharing.threads[0]? = some p := by
    intro p found awake
    obtain ⟨q, back, stirs⟩ := spares.owner p found
    cases stirs with
    | stays => exact back
    | notified c | roused c => exact absurd rfl (awake c)
  cases stands with
  | between plan found isOpen accepted =>
    exact .between plan (stays found nofun) (spares.closed_eq.trans isOpen)
      (spares.accepted_eq ▸ accepted)
  | putting plan found puts isOpen accepted =>
    obtain ⟨q, back, stirs⟩ := spares.owner _ found
    refine .putting plan back ?_ (spares.closed_eq.trans isOpen) (spares.accepted_eq ▸ accepted)
    cases stirs <;> exact puts
  | put plan found isOpen accepted =>
    exact .put plan (stays found nofun) (spares.closed_eq.trans isOpen)
      (spares.accepted_eq ▸ accepted)
  | closing found closes before accepted =>
    refine .closing (stays found ?_) closes before (spares.accepted_eq.trans accepted)
    rintro c rfl
    exact closes
  | closed found isClosed free accepted =>
    exact .closed (stays found nofun) (spares.closed_eq.trans isClosed) (spares.free isClosed free)
      (spares.accepted_eq.trans accepted)
  | joining found isClosed free accepted seen =>
    exact .joining (stays found nofun) (spares.closed_eq.trans isClosed)
      (spares.free isClosed free) (spares.accepted_eq.trans accepted)
      fun i e hi => spares.ended i e (seen i e hi)
  | done found free accepted seen all =>
    refine absurd (step.mover_eq_owner h (fun i hi => ?_) free) other
    rw [all] at hi
    exact ⟨_, seen i _ (List.getElem?_eq_getElem hi)⟩

/-- Other files leave the owner where it stands. -/
theorem Stands.changes (stands : Stands visitors crew owner) (site : Site) :
    Stands visitors { crew with site } owner := by
  cases stands with
  | between plan found isOpen accepted => exact .between plan found isOpen accepted
  | putting plan found puts isOpen accepted => exact .putting plan found puts isOpen accepted
  | put plan found isOpen accepted => exact .put plan found isOpen accepted
  | closing found closes before accepted => exact .closing found closes before accepted
  | closed found isClosed free accepted => exact .closed found isClosed free accepted
  | joining found isClosed free accepted seen => exact .joining found isClosed free accepted seen
  | done found free accepted seen all => exact .done found free accepted seen all

/-- An owner that has nothing left to offer may be given one more visitor. -/
theorem Stands.offers (stands : Stands visitors crew (.busy [])) (visitor : Visitor) :
    Stands (visitors ++ [visitor]) crew (.busy [.offer visitor]) := by
  cases stands with
  | @between _ rest plan found isOpen accepted =>
    cases List.map_eq_nil_iff.mp plan.symm
    rw [List.append_nil] at accepted
    exact .between rfl found isOpen (congrArg (· ++ [visitor]) accepted)
  | putting plan | put plan => cases plan

/-- An owner that is back from offering a visitor was not refused. -/
theorem Stands.not_refused {visitor : Visitor} {rest : List Duty} {e : QueueError}
    (stands : Stands visitors crew (.busy (.offer visitor :: rest)))
    (found : crew.sharing.threads[0]? = some (.answered (.failed e))) : False := by
  cases stands with
  | between _ idle => cases found.symm.trans idle
  | putting _ found' puts =>
    cases found.symm.trans found'
    cases puts
  | put _ found' => cases found.symm.trans found'

/-- An owner that puts a visitor into the queue has it accepted, or waits. -/
private theorem Stands.tried (h : crew.Seated capacity) {visitor : Visitor} {rest : List Visitor}
    {wake : Option Nat} {p : Phase Visitor} {sharing : Sharing Visitor}
    (found : crew.sharing.threads[0]? = some p) (tries : p.trying? = some (.put visitor))
    (isOpen : crew.sharing.queue.closed = false)
    (accepted : crew.sharing.accepted ++ visitor :: rest = visitors)
    (step : crew.sharing.step (.enter 0 wake) = some sharing) :
    Stands visitors { crew with sharing } (.busy ((visitor :: rest).map .offer)) := by
  have transition := h.reached.transition step
  have isOpen' := (transition.closed_eq fun i mine shut => by
    cases mine
    cases found.symm.trans shut
    cases tries).trans isOpen
  rcases transition.accepted_of_put found tries isOpen h.isClean with ⟨back, more⟩ | ⟨back, same⟩
  · refine .put rfl back isOpen' ?_
    simp only [more, List.append_assoc, List.singleton_append, accepted]
  · exact .putting rfl back rfl isOpen' (by simp only [same, accepted])

/-- An owner that closes the queue goes on doing so, until nobody waits any more. -/
private theorem Stands.closes (h : crew.Seated capacity) {move : Move Visitor} {p : Phase Visitor}
    {sharing : Sharing Visitor} (found : crew.sharing.threads[0]? = some p) (closes : p.Closes)
    (accepted : crew.sharing.accepted = visitors) (turn : Sharing.Turn (.close 0) 0 p move none)
    (step : crew.sharing.step move = some sharing) :
    Stands visitors { crew with sharing } (.draining none .closing) := by
  have transition := h.reached.transition step
  have accepted' : sharing.accepted = visitors := by
    refine (transition.accepted_eq_of_not_put fun i q item mine hq tries => ?_).trans accepted
    rw [turn.mover?_eq rfl] at mine
    cases mine
    cases found.symm.trans hq
    rcases Phase.trying?_eq_some_iff.mp tries with rfl | rfl | rfl <;> exact closes
  obtain ⟨p', q, hp', back, advances⟩ := transition.own h.isClean (turn.mover?_eq rfl)
  cases found.symm.trans hp'
  -- Only the second announcement brings it back, and then nobody waits.
  by_cases last : q = .answered .done
  · rw [last] at back
    cases advances with
    | tellProducers i poisoned =>
      cases turn with
      | announce =>
        have isClosed := h.reached.closed_of_announcing (List.mem_of_getElem? found)
        exact .closed back (transition.closed_mono isClosed)
          (h.reached.parked_eq_zero_of_announced found step) accepted'
    | answer tries =>
      rcases Phase.trying?_eq_some_iff.mp tries with rfl | rfl | rfl <;> exact closes.elim
    | _ => cases last
  · exact .closing back (turn.closes closes advances) last accepted'

/-- A turn of the owner takes it further in its call. -/
private theorem Stands.turned (stands : Stands visitors crew owner) (h : crew.Seated capacity)
    {begin move : Move Visitor} {p : Phase Visitor} {sharing : Sharing Visitor}
    (begins : owner.begins? = some begin) (found : crew.sharing.threads[0]? = some p)
    (turn : Sharing.Turn begin 0 p move none) (step : crew.sharing.step move = some sharing) :
    Stands visitors { crew with sharing } owner := by
  cases stands with
  | @between todo rest plan found' isOpen accepted =>
    cases found.symm.trans found'
    subst plan
    cases rest with
    | nil => cases begins
    | cons visitor rest =>
      cases begins
      cases turn with
      | begin =>
        cases h.reached.transition step with
        | call => exact .putting rfl (get_set_self _ found) rfl isOpen accepted
      | enter _ tries => cases tries
  | putting plan found' puts isOpen accepted =>
    cases found.symm.trans found'
    subst plan
    cases turn with
    | enter wake tries =>
      cases (Phase.call?_of_trying? tries).symm.trans puts
      exact .tried h found tries isOpen accepted step
    | _ => cases puts
  | put plan found' =>
    cases found.symm.trans found'
    cases turn with
    | enter _ tries => cases tries
  | closing found' closes before accepted =>
    cases begins
    cases found.symm.trans found'
    exact .closes h found closes accepted turn step
  | closed found' =>
    cases found.symm.trans found'
    cases turn with
    | enter _ tries => cases tries
  | joining | done => cases begins

/-- The owner's own moves take it further. -/
theorem Change.stands (change : Change crew owner next owner') (h : crew.Seated capacity)
    (stands : Stands visitors crew owner) : Stands visitors next owner' := by
  cases change with
  | drain =>
    cases stands with
    | between plan found isOpen accepted =>
      cases List.map_eq_nil_iff.mp plan.symm
      exact .closing found trivial nofun ((List.append_nil _).symm.trans accepted)
    | putting plan | put plan => cases plan
  | turn begins found turn step => exact stands.turned h begins found turn step
  | back found step =>
    cases stands with
    | between _ found' => cases found.symm.trans found'
    | putting _ found' puts =>
      cases found.symm.trans found'
      cases puts
    | put plan found' isOpen accepted =>
      cases plan
      cases h.reached.transition step with
      | leave => exact .between rfl (get_set_self _ found) isOpen accepted
  | @shut failure reply sharing found step =>
    cases stands with
    | closing found' closes before =>
      cases found.symm.trans found'
      cases reply with
      | done => exact absurd rfl before
      | _ => exact closes.elim
    | closed found' isClosed free accepted =>
      cases found.symm.trans found'
      cases h.reached.transition step with
      | leave =>
        refine .joining (get_set_self _ found) isClosed (fun who => ?_) accepted nofun
        exact Nat.add_right_cancel
          ((countP_set (x := false) (y := false) _ found rfl rfl).trans
            (congrArg (· + 0) (free who)))
  | @see failure closed endings ending seeing =>
    cases stands with
    | joining found isClosed free accepted seen =>
      refine .joining found isClosed free accepted fun i e hi => ?_
      rcases get_concat_cases hi with before | ⟨rfl, rfl⟩
      · exact seen i e before
      · exact seeing
  | @takeApart failure closed endings all =>
    cases stands with
    | joining found isClosed free accepted seen =>
      have hlen : crew.workers.length = endings.length := by
        refine Nat.le_antisymm (List.getElem?_eq_none_iff.mp all) (Nat.le_of_not_lt fun hlt => ?_)
        have := seen _ _ (List.getElem?_eq_getElem hlt)
        rw [List.getElem?_eq_none (Nat.le_refl _)] at this
        cases this
      rw [crew.destroy_eq h fun i hi => ⟨_, seen i _ (List.getElem?_eq_getElem (hlen ▸ hi))⟩]
      exact .done found free accepted seen hlen

end Owner

end StaticHttp
