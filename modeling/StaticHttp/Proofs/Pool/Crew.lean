import StaticHttp.Pool.Crew
import StaticHttp.Proofs.Queue.Rank

/-!
# The moves of a crew

`Crew.Transition` lists once what the threads at a queue can make of a crew: the owner of the queue,
which never takes from it, a worker, or nobody, when a parked thread is roused for no reason.

At a clean lock every worker that takes has its thread in a call that takes, or outside any call,
and all others have idle threads (`Crew.Seated`). A visitor that was delivered is in the reply to a
worker, with the worker that serves it, or among the services (`Crew.Conserved`), and a worker that
has finished has left the queue closed and empty (`Crew.Finished`).
-/

namespace StaticHttp

namespace Worker

/-- The visitor that the worker serves. -/
def visitor? : Worker → Option Visitor
  | .serving visitor _ => some visitor
  | _ => none

/-- The weight of the visitor that the worker serves. -/
def inHand (f : Visitor → Nat) (w : Worker) : Nat := total f w.visitor?.toList

/-- The worker can have its thread there. -/
def Seated (p : Phase Visitor) : Worker → Prop
  | .taking _ => p.Carries .take
  | .serving .. | .ended _ => p = .idle

theorem Seated.stirs {w : Worker} {p q : Phase Visitor} (h : w.Seated p) (stirs : p.Stirs q) :
    w.Seated q := by
  cases w with
  | taking => exact Phase.Carries.stirs h stirs
  | serving | ended =>
    cases (h : p = .idle)
    cases stirs
    rfl

end Worker

namespace Crew

/-- What the thread with this number, or nobody, can make of a crew. -/
inductive Transition (crew : Crew) : Option Nat → Crew → Prop
  | own {move : Move Visitor} {sharing : Sharing Visitor} (mine : move.mover? = some 0)
      (noTake : ∀ i, move ≠ .call i .take) (step : crew.sharing.step move = some sharing) :
      Transition crew (some 0) { crew with sharing }
  | hire : Transition crew (some 0) crew.hire
  | turn {i handled : Nat} {p : Phase Visitor} {move : Move Visitor} {sharing : Sharing Visitor}
      (taking : crew.workers[i]? = some (.taking handled))
      (found : crew.sharing.threads[threadOf i]? = some p)
      (turn : Sharing.Turn (.call (threadOf i) .take) (threadOf i) p move none)
      (step : crew.sharing.step move = some sharing) :
      Transition crew (some (threadOf i)) { crew with sharing }
  | back {i handled : Nat} {reply : Reply Visitor} {sharing : Sharing Visitor}
      (taking : crew.workers[i]? = some (.taking handled))
      (found : crew.sharing.threads[threadOf i]? = some (.answered reply))
      (step : crew.sharing.step (.leave (threadOf i)) = some sharing) :
      Transition crew (some (threadOf i))
        { crew with sharing, workers := crew.workers.set i (afterTake handled reply) }
  | serve {i handled : Nat} {visitor : Visitor} (elapsed : Duration)
      (serving : crew.workers[i]? = some (.serving visitor handled)) :
      Transition crew (some (threadOf i)) (crew.serve i visitor handled elapsed)
  | rouse {j : Nat} {sharing : Sharing Visitor}
      (step : crew.sharing.step (.spurious j) = some sharing) :
      Transition crew none { crew with sharing }

/-- A move of a worker is one of the transitions. -/
theorem transition_of_work {crew next : Crew} {i : Nat} {wake : Option Nat} {elapsed : Duration}
    (h : crew.work i wake elapsed = some next) : crew.Transition (some (threadOf i)) next := by
  unfold work at h
  split at h
  · next handled taking =>
    split at h
    · next reply sharing hturn =>
      cases h
      obtain ⟨p, move, found, turn, step⟩ := Sharing.turn_cases hturn
      cases turn with
      | leave => exact .back taking found step
    · next sharing hturn =>
      cases h
      obtain ⟨p, move, found, turn, step⟩ := Sharing.turn_cases hturn
      exact .turn taking found turn step
    · cases h
  · next visitor handled serving =>
    cases h
    exact .serve elapsed serving
  · cases h

theorem transition_of_wakeUp {crew next : Crew} {j : Nat} (h : crew.wakeUp j = some next) :
    crew.Transition none next := by
  obtain ⟨sharing, step, rfl⟩ := Option.map_eq_some_iff.mp h
  exact .rouse step

/-! ## Seats -/

/-- The lock is clean, and every worker has its thread where it can be. -/
structure Seated (capacity : Nat) (crew : Crew) : Prop where
  reached : crew.sharing.Reachable capacity
  isClean : crew.sharing.queue.poisoned = false
  length_eq : crew.sharing.threads.length = crew.workers.length + 1
  owner : ∃ p, crew.sharing.threads[0]? = some p ∧ p.Supplies
  seat : ∀ i w, crew.workers[i]? = some w →
    ∃ p, crew.sharing.threads[threadOf i]? = some p ∧ w.Seated p

variable {capacity : Nat} {crew next : Crew} {mover : Option Nat}

theorem seated_start (site : Site) (capacity workers : Nat) :
    (start site capacity workers).Seated capacity where
  reached := .start _
  isClean := rfl
  length_eq := by simp only [start, Sharing.start, List.length_replicate]
  owner := ⟨.idle, rfl, trivial⟩
  seat := by
    intro i w hw
    obtain ⟨hlt, hw⟩ := List.getElem?_eq_some_iff.mp hw
    simp only [start, List.length_replicate, List.getElem_replicate] at hlt hw
    cases hw
    refine ⟨.idle, ?_, trivial⟩
    exact List.getElem?_replicate_of_lt (Nat.succ_lt_succ hlt)

namespace Seated

/-- What a seated crew keeps by a move of a thread that takes nothing for the owner. -/
private theorem shares (h : crew.Seated capacity) {move : Move Visitor} {sharing : Sharing Visitor}
    (step : crew.sharing.step move = some sharing) (noJoin : move ≠ .join)
    (noPoison : move ≠ .poison) (noTake : move ≠ .call 0 .take) :
    sharing.Reachable capacity ∧ sharing.queue.poisoned = false ∧
    sharing.threads.length = crew.workers.length + 1 ∧
    ∃ p, sharing.threads[0]? = some p ∧ p.Supplies := by
  have transition := h.reached.transition step
  refine ⟨h.reached.step step, (transition.poisoned_eq noPoison).trans h.isClean,
    (transition.length_threads noJoin).trans h.length_eq, ?_⟩
  obtain ⟨p, found, supplies⟩ := h.owner
  by_cases mine : move.mover? = some 0
  · obtain ⟨p', q, found', back, advances⟩ := transition.own h.isClean mine
    rw [found] at found'
    cases found'
    refine ⟨q, back, supplies.advances advances fun i taken => ?_⟩
    subst taken
    cases mine
    exact noTake rfl
  · obtain ⟨q, back, stirs⟩ := transition.others found mine
    exact ⟨q, back, supplies.stirs stirs⟩

/-- A worker stays seated by the moves of others. -/
private theorem seat_of_others (h : crew.Seated capacity) {move : Move Visitor}
    {sharing : Sharing Visitor} (step : crew.sharing.step move = some sharing) {i : Nat}
    {w : Worker} (hw : crew.workers[i]? = some w) (other : move.mover? ≠ some (threadOf i)) :
    ∃ q, sharing.threads[threadOf i]? = some q ∧ w.Seated q := by
  obtain ⟨p, found, seated⟩ := h.seat i w hw
  obtain ⟨q, back, stirs⟩ := (h.reached.transition step).others found other
  exact ⟨q, back, seated.stirs stirs⟩

end Seated

theorem Transition.seated (step : crew.Transition mover next) (h : crew.Seated capacity) :
    next.Seated capacity := by
  cases step with
  | @own move sharing mine noTake step =>
    obtain ⟨reached, isClean, length_eq, owner⟩ := h.shares step (by rintro rfl; cases mine)
      (by rintro rfl; cases mine) (noTake 0)
    refine ⟨reached, isClean, length_eq, owner, fun i w hw => h.seat_of_others step hw ?_⟩
    rw [mine]
    exact fun same => nomatch same
  | hire =>
    obtain ⟨p, found, supplies⟩ := h.owner
    have step : crew.sharing.step .join =
      some { crew.sharing with threads := crew.sharing.threads ++ [.idle] } := rfl
    refine ⟨h.reached.step step, h.isClean, ?_, ⟨p, ?_, supplies⟩, fun i w hw => ?_⟩
    · simp only [Crew.hire, step, Option.getD_some, List.length_append, List.length_singleton,
        h.length_eq]
    · obtain ⟨hlt, _⟩ := List.getElem?_eq_some_iff.mp found
      exact (List.getElem?_append_left hlt).trans found
    · rcases get_concat_cases hw with before | ⟨rfl, rfl⟩
      · obtain ⟨q, found, seated⟩ := h.seat i w before
        obtain ⟨hlt, _⟩ := List.getElem?_eq_some_iff.mp found
        exact ⟨q, (List.getElem?_append_left hlt).trans found, seated⟩
      · refine ⟨.idle, ?_, trivial⟩
        show (crew.sharing.threads ++ [Phase.idle])[crew.workers.length + 1]? = _
        rw [← h.length_eq, List.getElem?_concat_length]
  | @turn i handled p move sharing taking found turn step =>
    have mine := turn.mover?_eq rfl
    obtain ⟨reached, isClean, length_eq, owner⟩ := h.shares step (by rintro rfl; cases mine)
      (by rintro rfl; cases mine) (by rintro rfl; cases mine)
    refine ⟨reached, isClean, length_eq, owner, fun j w hw => ?_⟩
    by_cases same : j = i
    · subst same
      obtain ⟨p', q, found', back, advances⟩ := (h.reached.transition step).own h.isClean mine
      obtain ⟨p'', found'', seated⟩ := h.seat j _ taking
      rw [found] at found' found''
      cases found'
      cases found''
      rw [taking] at hw
      cases hw
      exact ⟨q, back, turn.carries seated advances⟩
    · apply h.seat_of_others step hw
      rw [mine]
      exact fun heq => same (Nat.succ.inj (Option.some.inj heq)).symm
  | @back i handled reply sharing taking found step =>
    obtain ⟨reached, isClean, length_eq, owner⟩ := h.shares step nofun nofun nofun
    refine ⟨reached, isClean, length_eq.trans (by simp only [List.length_set]), owner,
      fun j w hw => ?_⟩
    rcases get_set_cases hw with ⟨rfl, rfl⟩ | ⟨hne, before⟩
    · obtain ⟨p, q, found', back, advances⟩ := (h.reached.transition step).own h.isClean rfl
      cases advances
      refine ⟨.idle, back, ?_⟩
      cases reply <;> first | exact rfl | exact trivial
    · refine h.seat_of_others step before fun heq => hne ?_
      exact (Nat.succ.inj (Option.some.inj heq)).symm
  | @serve i handled visitor elapsed serving =>
    refine ⟨h.reached, h.isClean, h.length_eq.trans ?_, h.owner, fun j w hw => ?_⟩
    · simp only [Crew.serve, List.length_set]
    · rcases get_set_cases hw with ⟨rfl, rfl⟩ | ⟨_, before⟩
      · obtain ⟨p, found, idle⟩ := h.seat j _ serving
        cases (idle : p = .idle)
        refine ⟨.idle, found, ?_⟩
        unfold afterService
        split
        · exact rfl
        · exact trivial
      · exact h.seat j w before
  | @rouse j sharing step =>
    obtain ⟨reached, isClean, length_eq, owner⟩ := h.shares step nofun nofun nofun
    exact ⟨reached, isClean, length_eq, owner, fun i w hw => h.seat_of_others step hw nofun⟩

theorem Transition.accepted_grows (step : crew.Transition mover next) (h : crew.Seated capacity) :
    crew.sharing.accepted <+: next.sharing.accepted := by
  cases step with
  | own _ _ step | turn _ _ _ step | back _ _ step | rouse step =>
    exact (h.reached.transition step).accepted_grows
  | hire | serve => exact List.prefix_refl _

theorem Transition.delivered_grows (step : crew.Transition mover next) (h : crew.Seated capacity) :
    crew.sharing.delivered <+: next.sharing.delivered := by
  cases step with
  | own _ _ step | turn _ _ _ step | back _ _ step | rouse step =>
    rcases (h.reached.transition step).delivered_cases with same | ⟨_, _, _, _, _, _, _, more⟩
    · exact same ▸ List.prefix_refl _
    · exact more ▸ List.prefix_append _ _
  | hire | serve => exact List.prefix_refl _

/-! ## What becomes of the visitors -/

/-- A delivered visitor was served, or is in a reply, or with a worker that serves it. -/
def Conserved (crew : Crew) : Prop :=
  ∀ f, total f crew.sharing.delivered =
    total f (crew.services.map (·.visitor)) + total (Phase.taken f) crew.sharing.threads +
      total (Worker.inHand f) crew.workers

/-- The weight of the visitors that the crew has served or has in hand. -/
def carried (crew : Crew) (f : Visitor → Nat) : Nat :=
  total f (crew.services.map (·.visitor)) + total (Phase.taken f) crew.sharing.threads +
    total (Worker.inHand f) crew.workers

theorem conserved_start (site : Site) (capacity workers : Nat) :
    (start site capacity workers).Conserved := by
  intro f
  show 0 = 0 + total _ (List.replicate _ _) + total _ (List.replicate _ _)
  rw [total_replicate, total_replicate]
  rfl

private theorem inHand_afterTake (f : Visitor → Nat) (handled : Nat) {reply : Reply Visitor}
    (answers : Call.take.Answers reply) :
    (afterTake handled reply).inHand f = (Phase.answered reply).taken f := by
  cases answers <;> rfl

private theorem inHand_afterService (f : Visitor → Nat) (handled : Nat)
    (result : Except Abort Status) : (afterService handled result).inHand f = 0 := by
  unfold afterService
  split <;> rfl

/-- What a move takes from the queue is in the hands of the crew after it, and nothing else is. -/
theorem Transition.balance (step : crew.Transition mover next) (h : crew.Seated capacity)
    (f : Visitor → Nat) :
    total f next.sharing.delivered + crew.carried f =
      total f crew.sharing.delivered + next.carried f := by
  unfold carried
  cases step with
  | @own move sharing mine noTake step =>
    have transition := h.reached.transition step
    by_cases leaves : ∃ i, move = .leave i
    · obtain ⟨i, rfl⟩ := leaves
      cases mine
      obtain ⟨p, found, supplies⟩ := h.owner
      obtain ⟨p', q, found', back, advances⟩ := transition.own h.isClean rfl
      rw [found] at found'
      cases found'
      cases advances with
      | leave _ reply =>
        obtain ⟨delivered, taken⟩ := transition.balance_leave found f
        have nothing : (Phase.answered reply).taken f = 0 := by
          cases reply with
          | item => exact supplies.elim
          | _ => rfl
        simp only [delivered]
        omega
    · have balance := transition.balance (fun i same => leaves ⟨i, same⟩) f
      dsimp only
      omega
  | hire =>
    have step : crew.sharing.step .join =
      some { crew.sharing with threads := crew.sharing.threads ++ [.idle] } := rfl
    simp only [Crew.hire, step, Option.getD_some, total_append, total_cons, total_nil]
    rfl
  | turn _ _ turn step =>
    have balance := (h.reached.transition step).balance (fun i same => by subst same; cases turn) f
    dsimp only
    omega
  | @back i handled reply sharing taking found step =>
    obtain ⟨p, found', seated⟩ := h.seat i _ taking
    rw [found] at found'
    cases found'
    obtain ⟨delivered, taken⟩ := (h.reached.transition step).balance_leave found f
    have moved := total_set (Worker.inHand f) (afterTake handled reply) taking
    rw [inHand_afterTake f handled seated] at moved
    have free : (Worker.taking handled).inHand f = 0 := rfl
    simp only [delivered]
    omega
  | @serve i handled visitor elapsed serving =>
    have moved := total_set (Worker.inHand f) (afterService handled
      (crew.site.handle visitor.connection elapsed crew.metrics).result) serving
    rw [inHand_afterService] at moved
    have held : (Worker.serving visitor handled).inHand f = f visitor + 0 := rfl
    simp only [Crew.serve, List.map_append, List.map_cons, List.map_nil, total_append, total_cons,
      total_nil]
    omega
  | rouse step =>
    have balance := (h.reached.transition step).balance (fun _ => nofun) f
    dsimp only
    omega

theorem Transition.conserved (step : crew.Transition mover next) (h : crew.Seated capacity)
    (conserved : crew.Conserved) : next.Conserved := by
  intro f
  have before : total f crew.sharing.delivered = crew.carried f := conserved f
  have balance := step.balance h f
  show total f next.sharing.delivered = next.carried f
  omega

/-- A worker has finished only when the queue was closed and empty, and so it is. -/
def Finished (crew : Crew) : Prop :=
  ∀ (i : Nat) handled, crew.workers[i]? = some (.ended (.finished handled)) →
    crew.sharing.queue.closed = true ∧ crew.sharing.queue.toList = []

theorem finished_start (site : Site) (capacity workers : Nat) :
    (start site capacity workers).Finished := by
  intro i handled hw
  cases List.eq_of_mem_replicate (List.mem_of_getElem? hw)

theorem Transition.finished (step : crew.Transition mover next) (h : crew.Seated capacity)
    (finished : crew.Finished) : next.Finished := by
  have stays : ∀ {move : Move Visitor} {sharing : Sharing Visitor},
      crew.sharing.step move = some sharing →
      crew.sharing.queue.closed = true ∧ crew.sharing.queue.toList = [] →
      sharing.queue.closed = true ∧ sharing.queue.toList = [] := by
    intro move sharing step ⟨isClosed, empty⟩
    have transition := h.reached.transition step
    exact ⟨transition.closed_mono isClosed, transition.toList_eq_nil isClosed empty⟩
  intro j count hw
  cases step with
  | own _ _ step | turn _ _ _ step | rouse step => exact stays step (finished j count hw)
  | hire =>
    rcases get_concat_cases hw with before | ⟨_, heq⟩
    · exact finished j count before
    · cases heq
  | @back i handled reply sharing _ found step =>
    rcases get_set_cases hw with ⟨_, heq⟩ | ⟨_, before⟩
    · cases reply with
      | closed => exact stays step (h.reached.closed_and_empty_of_told (List.mem_of_getElem? found))
      | _ => cases heq
    · exact stays step (finished j count before)
  | serve =>
    rcases get_set_cases hw with ⟨_, heq⟩ | ⟨_, before⟩
    · unfold afterService at heq
      split at heq <;> cases heq
    · exact finished j count before

end Crew

end StaticHttp
