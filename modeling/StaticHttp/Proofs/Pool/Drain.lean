import StaticHttp.Proofs.Pool.Owner

/-!
# A drain goes to its end

An owner that drains its queue makes five moves to close it, one to see each worker end, in the
order of their numbers, and one to take it apart (`Drains.along`). Nothing keeps it from going on
but a worker that has not ended: neither a poisoned lock, nor what has become of the workers before
(`Along.exists_drain`). What happens between its moves does not matter as long as it leaves the
owner alone: `Crew.Meanwhile` says what that means, and the moves of workers do so
(`Transition.meanwhile`).
-/

namespace StaticHttp

/-- Where the thread of an owner is after so many of its moves to close the queue, if it has found
the lock poisoned, or not. -/
inductive Phase.ClosesAfter : Nat → Bool → Phase Visitor → Prop
  | idle (poisoned : Bool) : ClosesAfter 0 poisoned .idle
  | closing (poisoned : Bool) : ClosesAfter 1 poisoned .closing
  | telling (poisoned : Bool) : ClosesAfter 2 poisoned (.announcing false poisoned)
  | told (poisoned : Bool) : ClosesAfter 3 poisoned (.announcing true poisoned)
  | answered (poisoned : Bool) : ClosesAfter 4 poisoned (.answered (Sharing.closeReply poisoned))

namespace Phase.ClosesAfter

variable {n : Nat} {poisoned : Bool} {p : Phase Visitor} {s t : Sharing Visitor}

theorem not_parked (h : ClosesAfter n poisoned p) (c : Call Visitor) : p ≠ .parked c := by
  cases h <;> exact nofun

theorem le_four (h : ClosesAfter n poisoned p) : n ≤ 4 := by
  cases h <;> decide

/-- The thread can take its turn, whatever is the matter with the queue. -/
theorem exists_turn (h : ClosesAfter n poisoned p) (found : s.threads[0]? = some p) :
    ∃ reply t, s.turn 0 (.close 0) none = some (reply, t) := by
  cases h <;>
    simp only [Sharing.turn, Sharing.nextMove, Sharing.step, Sharing.quietly, Sharing.setPhase,
      found, Option.bind_some, Option.map_some, Option.isNone_none, if_true, Option.some.injEq,
      Prod.mk.injEq, exists_and_left, exists_eq_left', exists_eq']

/-- A turn takes the thread one move further. The second one closes the queue, poisoned or not. -/
theorem turn (h : ClosesAfter n poisoned p) (sound : s.queue.Sound)
    (found : s.threads[0]? = some p) {move : Move Visitor}
    (turn : Sharing.Turn (.close 0) 0 p move none) (step : s.step move = some t) :
    ∃ q, t.threads[0]? = some q ∧
      ClosesAfter (n + 1) (if n = 1 then s.queue.poisoned else poisoned) q ∧
      (n = 1 → t.queue.closed = true) := by
  have transition := Sharing.transition_of_step sound step
  cases h with
  | idle =>
    cases turn with
    | begin =>
      cases transition with
      | close => exact ⟨.closing, get_set_self _ found, .closing _, nofun⟩
    | enter _ tries => cases tries
  | closing =>
    cases turn with
    | enter _ tries => cases tries
    | shut =>
      cases transition with
      | shut => exact ⟨_, get_set_self _ found, .telling _, fun _ => rfl⟩
      | put found' tries | putFull found' tries | putRefused found' tries | take found' tries
      | takeEmpty found' tries | takeClosed found' tries | takePoisoned found' tries =>
        cases found.symm.trans found'
        cases tries
  | telling =>
    cases turn with
    | enter _ tries => cases tries
    | announce =>
      cases transition with
      | tellTakers found' =>
        cases found.symm.trans found'
        refine ⟨_, get_set_self _ (i := 0) (a := .announcing false poisoned) ?_, .told _, nofun⟩
        rw [List.getElem?_map, found]
        rfl
      | tellProducers found' => cases found.symm.trans found'
  | told =>
    cases turn with
    | enter _ tries => cases tries
    | announce =>
      cases transition with
      | tellTakers found' => cases found.symm.trans found'
      | tellProducers found' =>
        cases found.symm.trans found'
        refine ⟨_, get_set_self _ (i := 0) (a := .announcing true poisoned) ?_, .answered _, nofun⟩
        rw [List.getElem?_map, found]
        rfl
  | answered =>
    cases turn with
    | enter _ tries => cases tries

end Phase.ClosesAfter

namespace Crew

/-- What may become of a crew between two moves of the owner. The lock may be poisoned, and workers
may end in any way. -/
structure Meanwhile (crew later : Crew) : Prop where
  own : ∀ p, crew.sharing.threads[0]? = some p → (∀ c, p ≠ .parked c) →
    later.sharing.threads[0]? = some p
  closed : crew.sharing.queue.closed = true → later.sharing.queue.closed = true
  sound : crew.sharing.queue.Sound → later.sharing.queue.Sound
  length_eq : later.workers.length = crew.workers.length
  ended : ∀ (i : Nat) e, crew.workers[i]? = some (.ended e) → later.workers[i]? = some (.ended e)

theorem Meanwhile.refl (crew : Crew) : crew.Meanwhile crew :=
  ⟨fun _ found _ => found, id, id, rfl, fun _ _ => id⟩

/-- How far a drain has come from there, and with what crew, after so many moves of the owner. -/
inductive Drains (crew : Crew) (drain : Drain) : Nat → Drain → Crew → Prop
  | start : Drains crew drain 0 drain crew
  | meanwhile {moves : Nat} {far : Drain} {now later : Crew}
      (drains : Drains crew drain moves far now) (others : now.Meanwhile later) :
      Drains crew drain moves far later
  | move {moves : Nat} {wake : Option Nat} {far after : Drain} {now next : Crew}
      (drains : Drains crew drain moves far now) (step : now.drain wake far = some (after, next)) :
      Drains crew drain (moves + 1) after next

/-- A drain on whose way the owner has made its move of this number, counted from 0, here. -/
inductive Passes (origin : Crew) (number : Nat) (was : Drain) (here : Crew) :
    Nat → Drain → Crew → Prop
  | intro {more : Nat} {wake : Option Nat} {after drain : Drain} {next now : Crew}
      (before : origin.Drains .closing number was here)
      (step : here.drain wake was = some (after, next)) (rest : next.Drains after more drain now) :
      Passes origin number was here (number + 1 + more) drain now

/-- A drain on whose way the owner has closed the queue, with this result. -/
def Shuts (origin : Crew) (closed : Except QueueError Unit) (moves : Nat) (drain : Drain)
    (now : Crew) : Prop :=
  ∃ here, origin.Passes 1 .closing here moves drain now ∧
    closed = Drain.closedOf (Sharing.closeReply here.sharing.queue.poisoned)

/-- A drain on whose way the owner has taken the queue apart when all workers had ended, with this
result. -/
def TakesApart (origin : Crew) (closed : Except QueueError Unit) (endings : List Ending)
    (discarded : Except QueueError Nat) (moves : Nat) (drain : Drain) (now : Crew) : Prop :=
  ∃ here, origin.Passes (endings.length + 5) (.joining closed endings) here moves drain now ∧
    here.workers = endings.map .ended ∧ here.sharing.queue.Sound ∧
    discarded = here.sharing.queue.destroy here.owners

/-- Where a drain is after so many moves of the owner, and what holds there. -/
inductive Along (origin now : Crew) (moves : Nat) : Drain → Prop
  | closing {poisoned : Bool} {p : Phase Visitor}
      (found : now.sharing.threads[0]? = some p) (closes : p.ClosesAfter moves poisoned)
      (shut : 2 ≤ moves → now.sharing.queue.closed = true ∧
        origin.Shuts (Drain.closedOf (Sharing.closeReply poisoned)) moves .closing now) :
      Along origin now moves .closing
  | joining {closed : Except QueueError Unit} {endings : List Ending}
      (count : moves = endings.length + 5) (isClosed : now.sharing.queue.closed = true)
      (shut : origin.Shuts closed moves (.joining closed endings) now)
      (seen : ∀ (i : Nat) e, endings[i]? = some e → now.workers[i]? = some (.ended e)) :
      Along origin now moves (.joining closed endings)
  | done {closed : Except QueueError Unit} {endings : List Ending}
      {discarded : Except QueueError Nat}
      (count : moves = endings.length + 6) (isClosed : now.sharing.queue.closed = true)
      (shut : origin.Shuts closed moves (.done closed endings discarded) now)
      (all : now.workers = endings.map .ended)
      (apart : origin.TakesApart closed endings discarded moves (.done closed endings discarded)
        now) :
      Along origin now moves (.done closed endings discarded)

variable {origin crew now later next : Crew} {mover : Option Nat} {moves : Nat}
  {drain after : Drain}

/-- The moves of others than the owner leave it alone. -/
theorem Transition.meanwhile (step : crew.Transition mover next) (other : mover ≠ some 0)
    (sound : crew.sharing.queue.Sound) : crew.Meanwhile next := by
  have length_eq := step.length_workers other
  have ended := step.ended_stays other
  have shared : ∀ {move : Move Visitor} {sharing : Sharing Visitor},
      crew.sharing.step move = some sharing → move.mover? ≠ some 0 →
      (∀ p, crew.sharing.threads[0]? = some p → (∀ c, p ≠ .parked c) →
        sharing.threads[0]? = some p) ∧
      (crew.sharing.queue.closed = true → sharing.queue.closed = true) ∧
      (crew.sharing.queue.Sound → sharing.queue.Sound) := by
    intro move sharing hstep apart
    have transition := Sharing.transition_of_step sound hstep
    refine ⟨fun p found awake => ?_, transition.closed_mono,
      fun sound => (transition.sound sound).1⟩
    obtain ⟨q, back, stirs⟩ := transition.others found apart
    cases stirs with
    | stays => exact back
    | notified c | roused c => exact absurd rfl (awake c)
  cases step with
  | own | hire => exact absurd rfl other
  | turn _ _ turn step =>
    obtain ⟨own, closed, sound⟩ := shared step fun mine => by
      cases (turn.mover?_eq rfl).symm.trans mine
    exact ⟨own, closed, sound, length_eq, ended⟩
  | back _ _ step | rouse step =>
    obtain ⟨own, closed, sound⟩ := shared step nofun
    exact ⟨own, closed, sound, length_eq, ended⟩
  | serve => exact ⟨fun _ found _ => found, id, id, length_eq, ended⟩

namespace Passes

variable {number : Nat} {was : Drain} {here : Crew}

theorem meanwhile (h : origin.Passes number was here moves drain now)
    (others : now.Meanwhile later) : origin.Passes number was here moves drain later := by
  obtain ⟨before, step, rest⟩ := h
  exact ⟨before, step, rest.meanwhile others⟩

theorem move (h : origin.Passes number was here moves drain now) {wake : Option Nat}
    (step : now.drain wake drain = some (after, next)) :
    origin.Passes number was here (moves + 1) after next := by
  obtain ⟨before, first, rest⟩ := h
  exact ⟨before, first, rest.move step⟩

/-- A drain passes where its latest move was made. -/
theorem latest (drains : origin.Drains .closing moves drain now) {wake : Option Nat}
    (step : now.drain wake drain = some (after, next)) :
    origin.Passes moves drain now (moves + 1) after next := ⟨drains, step, .start⟩

end Passes

/-- What happens between its moves leaves the owner where it is. -/
theorem Along.meanwhile (h : origin.Along now moves drain) (others : now.Meanwhile later) :
    origin.Along later moves drain := by
  have passed : ∀ {closed}, origin.Shuts closed moves drain now →
      origin.Shuts closed moves drain later := by
    rintro _ ⟨here, passes, result⟩
    exact ⟨here, passes.meanwhile others, result⟩
  cases h with
  | closing found closes shut =>
    exact .closing (others.own _ found closes.not_parked) closes
      fun late => ⟨others.closed (shut late).1, passed (shut late).2⟩
  | joining count isClosed shut seen =>
    exact .joining count (others.closed isClosed) (passed shut)
      fun i e hi => others.ended i e (seen i e hi)
  | @done closed endings discarded count isClosed shut all apart =>
    obtain ⟨here, passes, atHere⟩ := apart
    have stays : later.workers = endings.map .ended := by
      refine workers_eq_of_seen (fun i e hi => others.ended i e ?_) ?_
      · rw [all, List.getElem?_map, hi]
        rfl
      · rw [List.getElem?_eq_none_iff, others.length_eq, all, List.length_map]
    exact .done count (others.closed isClosed) (passed shut) stays
      ⟨here, passes.meanwhile others, atHere⟩

/-- Every move of the owner takes it one step further. -/
theorem Along.move (h : origin.Along now moves drain)
    (drains : origin.Drains .closing moves drain now) (sound : now.sharing.queue.Sound)
    {wake : Option Nat} (hdrain : now.drain wake drain = some (after, next)) :
    origin.Along next (moves + 1) after := by
  have passed : ∀ {closed}, origin.Shuts closed moves drain now →
      origin.Shuts closed (moves + 1) after next := by
    rintro _ ⟨here, passes, result⟩
    exact ⟨here, passes.move hdrain, result⟩
  have latest := Passes.latest drains hdrain
  have change := Owner.Change.of_drain none hdrain
  cases h with
  | @closing poisoned p found closes shut =>
    cases change with
    | turn begins found' turn step =>
      cases begins
      cases found.symm.trans found'
      obtain ⟨q, back, closes', closing⟩ := closes.turn sound found turn step
      have transition := Sharing.transition_of_step sound step
      refine .closing back closes' fun late => ?_
      -- The queue is closed by the second move; a later one finds it closed.
      by_cases first : moves = 1
      · subst first
        exact ⟨closing rfl, now, latest, rfl⟩
      · rw [if_neg first]
        obtain ⟨isClosed, shuts⟩ := shut (by omega)
        exact ⟨transition.closed_mono isClosed, passed shuts⟩
    | shut found' step =>
      cases found.symm.trans found'
      have transition := Sharing.transition_of_step sound step
      generalize hp : Phase.answered _ = p at closes
      cases closes with
      | answered =>
        cases hp
        obtain ⟨isClosed, shuts⟩ := shut (by decide)
        exact .joining rfl (transition.closed_mono isClosed) (passed shuts) nofun
      | _ => cases hp
  | @joining closed endings count isClosed shut seen =>
    cases change with
    | turn begins => cases begins
    | see seeing =>
      refine .joining ?_ isClosed (passed shut) fun i e hi => ?_
      · rw [count, List.length_append, List.length_singleton]
      · rcases get_concat_cases hi with before | ⟨rfl, rfl⟩
        · exact seen i e before
        · exact seeing
    | takeApart all =>
      have joined := workers_eq_of_seen seen all
      subst count
      exact .done rfl isClosed (passed shut) joined ⟨now, latest, joined, sound, rfl⟩
  | done =>
    cases change with
    | turn begins => cases begins

/-- A drain is where the moves of its owner have taken it. -/
theorem Drains.along (drains : origin.Drains .closing moves drain now)
    (idle : origin.sharing.threads[0]? = some .idle) (sound : origin.sharing.queue.Sound) :
    origin.Along now moves drain ∧ now.sharing.queue.Sound ∧
    now.workers.length = origin.workers.length := by
  induction drains with
  | start => exact ⟨.closing idle (.idle false) (absurd · (by decide)), sound, rfl⟩
  | meanwhile _ others ih =>
    obtain ⟨along, sound, length_eq⟩ := ih
    exact ⟨along.meanwhile others, others.sound sound, others.length_eq.trans length_eq⟩
  | move drains hdrain ih =>
    obtain ⟨along, sound, length_eq⟩ := ih
    have change := Owner.Change.of_drain none hdrain
    refine ⟨along.move drains sound hdrain, ?_, change.length_workers.trans length_eq⟩
    cases change with
    | turn _ _ _ step | shut _ step => exact ((Sharing.transition_of_step sound step).sound sound).1
    | see | takeApart => exact sound

/-- The owner can go on unless it waits for a worker that has not ended. -/
theorem Along.exists_drain (h : origin.Along now moves drain) (going : drain.isDone = false)
    (ended : ∀ closed endings, drain = .joining closed endings →
      ∀ w, now.workers[endings.length]? = some w → ∃ e, w = .ended e) :
    ∃ after, now.drain none drain = some after := by
  cases h with
  | closing found closes =>
    obtain ⟨reply, sharing, hturn⟩ := closes.exists_turn found
    cases reply <;> simp only [drain, hturn, Option.some.injEq, exists_eq']
  | @joining closed endings =>
    cases hw : now.workers[endings.length]? with
    | none => simp only [drain, hw, Option.some.injEq, exists_eq']
    | some w =>
      obtain ⟨e, rfl⟩ := ended _ _ rfl w hw
      simp only [drain, hw, Option.some.injEq, exists_eq']
  | done => cases going

/-- A drain takes so many moves of the owner. -/
theorem Along.moves_eq (h : origin.Along now moves drain)
    (length_eq : now.workers.length = origin.workers.length) :
    moves ≤ origin.workers.length + 6 ∧
    (drain.isDone = true ↔ moves = origin.workers.length + 6) := by
  cases h with
  | closing _ closes =>
    have := closes.le_four
    exact ⟨by omega, nofun, by omega⟩
  | @joining _ endings count _ _ seen =>
    have few : endings.length ≤ now.workers.length := by
      by_contra many
      have last := seen now.workers.length _ (List.getElem?_eq_getElem (Nat.lt_of_not_le many))
      rw [List.getElem?_eq_none (Nat.le_refl _)] at last
      cases last
    exact ⟨by omega, nofun, by omega⟩
  | done count _ _ all =>
    rw [all, List.length_map] at length_eq
    exact ⟨by omega, fun _ => by omega, fun _ => rfl⟩

end Crew

end StaticHttp
