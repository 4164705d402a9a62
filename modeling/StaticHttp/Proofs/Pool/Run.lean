import StaticHttp.Proofs.Runs
import StaticHttp.Proofs.Pool.Owner
import Mathlib.Tactic.Ring

/-!
# The way of a run

A run whose owner only offers visitors is orderly in every state that it reaches (`Run.Orderly`),
and it is finite: `Run.rank` falls with every move, but it rises by one when a waiting thread is
roused for no reason. So a run has no more moves than its rank at the start, and two for each time a
thread is roused (`Orderly.of_steps`).
-/

namespace StaticHttp

namespace RunMove

/-- A waiting thread wakes for no reason. -/
def isSpurious : RunMove → Bool
  | .spurious _ => true
  | _ => false

end RunMove

/-- How far a worker is from its end, among so many threads. -/
def Worker.rank (threads : Nat) : Worker → Nat
  | .taking _ => 2 * threads + 5
  | .serving .. => 2 * threads + 6
  | .ended _ => 0

/-- How far an owner is from its end, among so many threads. -/
def Owner.rank (threads : Nat) : Owner → Nat
  | .busy todo => (2 * threads + 5) * todo.length + (3 * threads + 7)
  | .draining _ .closing => 3 * threads + 6
  | .draining _ (.joining _ endings) => threads - endings.length + 1
  | .draining _ (.done ..) => 0

/-- How many moves a crew and the calls of its owner can make. -/
def Crew.rank (crew : Crew) (limit : Nat) : Nat :=
  crew.sharing.rank limit + total (Worker.rank crew.sharing.threads.length) crew.workers

namespace Crew

variable {capacity limit : Nat} {crew next : Crew} {mover : Option Nat}

/-- Every move of a worker brings the crew nearer to its end. -/
theorem Transition.rank_lt {i : Nat} (step : crew.Transition (some (threadOf i)) next)
    (h : crew.Seated capacity) (hle : next.sharing.accepted.length ≤ limit) :
    next.rank limit < crew.rank limit := by
  unfold rank
  generalize hn : crew.sharing.threads.length = n
  cases step with
  | turn taking found turn step =>
    have transition := h.reached.transition step
    have inside := turn.isInside rfl
    have fewer := transition.rank_lt inside hle
    have same := transition.length_threads (by rintro rfl; cases inside)
    dsimp only
    rw [same, hn]
    omega
  | @back i handled reply sharing taking found step =>
    have transition := h.reached.transition step
    have left := transition.rank_leave found limit
    have same := transition.length_threads nofun
    have moved := total_set (Worker.rank n) (afterTake handled reply) taking
    obtain ⟨p, found', seated⟩ := h.seat i _ taking
    cases found.symm.trans found'
    dsimp only
    rw [same, hn]
    rw [hn] at left
    cases (seated : Call.take.Answers reply) with
    | item visitor =>
      simp only [afterTake, Worker.rank, Phase.rank] at moved left ⊢
      omega
    | closed =>
      simp only [afterTake, Worker.rank, Phase.rank] at moved left ⊢
      omega
  | @serve i handled visitor elapsed serving =>
    have moved := total_set (Worker.rank n) (afterService handled
      (crew.site.handle visitor.connection elapsed crew.metrics).result) serving
    simp only [Crew.serve, hn]
    rcases afterService_cases crew.site visitor elapsed crew.metrics handled with
      ⟨_, heq⟩ | ⟨_, heq⟩ <;> rw [heq] at moved ⊢ <;> simp only [Worker.rank] at moved <;> omega

/-- A roused thread has one more move. -/
theorem Transition.rank_rouse (step : crew.Transition none next) (h : crew.Seated capacity)
    (limit : Nat) : next.rank limit = crew.rank limit + 1 := by
  unfold rank
  cases step with
  | rouse step =>
    have transition := h.reached.transition step
    dsimp only
    rw [transition.rank_rouse, transition.length_threads nofun]
    omega

end Crew

namespace Owner

variable {capacity limit : Nat} {crew next : Crew} {owner owner' : Owner}

/-- Every move of the owner brings the run nearer to its end. -/
theorem Change.rank_lt (change : Change crew owner next owner') (h : crew.Seated capacity)
    (hle : next.sharing.accepted.length ≤ limit) :
    next.rank limit + owner'.rank next.sharing.threads.length <
      crew.rank limit + owner.rank crew.sharing.threads.length := by
  have hlen := h.length_eq
  unfold Crew.rank
  generalize hn : crew.sharing.threads.length = n at hlen
  cases change with
  | drain =>
    simp only [rank, List.length_nil, hn]
    omega
  | @turn _ begin _ _ _ begins found turn step =>
    have transition := h.reached.transition step
    have inside : begin.isInside = true := by
      unfold begins? at begins
      split at begins <;> cases begins <;> rfl
    have fewer := transition.rank_lt (turn.isInside inside) hle
    have same := transition.length_threads fun heq => by
      have := turn.isInside inside
      rw [heq] at this
      cases this
    dsimp only
    rw [same, hn]
    omega
  | back found step =>
    have transition := h.reached.transition step
    have left := transition.rank_leave found limit
    have same := transition.length_threads nofun
    dsimp only
    rw [same, hn]
    rw [hn] at left
    simp only [rank, List.length_cons, Nat.mul_add]
    omega
  | shut found step =>
    have transition := h.reached.transition step
    have left := transition.rank_leave found limit
    have same := transition.length_threads nofun
    dsimp only
    rw [same, hn]
    rw [hn] at left
    simp only [rank, List.length_nil]
    omega
  | see found =>
    have hlt := (List.getElem?_eq_some_iff.mp found).1
    simp only [rank, List.length_append, List.length_singleton, hn]
    omega
  | takeApart =>
    simp only [rank, hn]
    omega

theorem Stands.accepted_le {visitors : List Visitor} (stands : Stands visitors crew owner) :
    crew.sharing.accepted.length ≤ visitors.length := by
  cases stands with
  | between _ _ _ accepted | putting _ _ _ _ accepted | put _ _ _ accepted =>
    rw [← accepted, List.length_append]
    exact Nat.le_add_right _ _
  | closing _ _ _ accepted | closed _ _ _ accepted | joining _ _ _ accepted | done _ _ accepted =>
    rw [accepted]

end Owner

namespace Run

/-- What a move of another than the owner does to a crew: it brings the crew nearer to its end, unless
it only rouses a thread. -/
structure ByOthers (move : RunMove) (crew next : Crew) : Prop where
  transition : ∃ mover, mover ≠ some 0 ∧ crew.Transition mover next
  paid : ∀ limit, next.sharing.accepted.length ≤ limit →
    next.rank limit + 1 ≤ crew.rank limit + 2 * move.isSpurious.toNat

/-- A move is one of the owner, or leaves the owner where it is. -/
theorem step_cases {capacity : Nat} {run next : Run} {move : RunMove}
    (h : run.crew.Seated capacity) (hstep : run.step move = some next) :
    (∃ wake, move = .manage wake ∧ run.manage wake = some next) ∨
    ∃ crew, next = { run with crew } ∧ ByOthers move run.crew crew := by
  cases move with
  | manage wake => exact .inl ⟨wake, rfl, hstep⟩
  | work i wake elapsed =>
    obtain ⟨crew, hwork, rfl⟩ := Option.map_eq_some_iff.mp hstep
    have step := Crew.transition_of_work hwork
    exact .inr ⟨crew, rfl, ⟨some (Crew.threadOf i), nofun, step⟩, fun _ hle => step.rank_lt h hle⟩
  | spurious thread =>
    obtain ⟨crew, hwake, rfl⟩ := Option.map_eq_some_iff.mp hstep
    have step := Crew.transition_of_wakeUp hwake
    refine .inr ⟨crew, rfl, ⟨none, nofun, step⟩, fun limit _ => ?_⟩
    rw [step.rank_rouse h limit]
    exact Nat.le_refl _

/-- If every move keeps what holds of a run, and is paid for by a rank that rises by one when a thread
is roused, then so is a whole run. -/
theorem paid_of_steps (holds : Run → Prop) (rank : Run → Nat) {origin run : Run}
    (start : holds origin)
    (step : ∀ {run next : Run}, holds run → ∀ {move : RunMove}, run.step move = some next →
      holds next ∧ rank next + 1 ≤ rank run + 2 * move.isSpurious.toNat)
    {moves : List RunMove} (h : origin.steps moves = some run) :
    holds run ∧ rank run + moves.length ≤ rank origin + 2 * moves.countP (·.isSpurious) := by
  refine foldlM_induction (motive := fun moves run => holds run ∧
    rank run + moves.length ≤ rank origin + 2 * moves.countP (·.isSpurious))
    ⟨start, Nat.le_refl _⟩ ?_ h
  intro moves run move next _ ⟨before, paid⟩ hstep
  obtain ⟨after, pays⟩ := step before hstep
  refine ⟨after, ?_⟩
  rw [List.length_append, List.countP_append, List.countP_singleton]
  cases hs : move.isSpurious <;> simp only [hs, Bool.toNat_true, Bool.toNat_false] at pays ⊢ <;>
    simp only [List.length_singleton, if_true, Bool.false_eq_true, if_false] <;> omega

/-- All that holds of a run whose owner only offers visitors. -/
structure Orderly (site : Site) (capacity workers : Nat) (visitors : List Visitor) (run : Run) :
    Prop where
  crew : run.crew.Orderly capacity
  site_eq : run.crew.site = site
  length_eq : run.crew.workers.length = workers
  stands : run.owner.Stands visitors run.crew

variable {site : Site} {capacity workers : Nat} {visitors : List Visitor} {run next : Run}

theorem orderly_start (site : Site) (capacity workers : Nat) (visitors : List Visitor) :
    (start site capacity workers (visitors.map .offer)).Orderly site capacity workers visitors where
  crew := Crew.orderly_start site capacity workers
  site_eq := rfl
  length_eq := List.length_replicate
  stands := .between rfl rfl rfl rfl

/-- The moves left to a run. -/
def rank (run : Run) (limit : Nat) : Nat :=
  run.crew.rank limit + run.owner.rank run.crew.sharing.threads.length

namespace Orderly

theorem offers (h : run.Orderly site capacity workers visitors) :
    ∀ todo, run.owner = .busy todo → ∃ rest : List Visitor, todo = rest.map .offer := by
  intro todo heq
  have stands := h.stands
  rw [heq] at stands
  cases stands with
  | between plan | putting plan | put plan => exact ⟨_, plan⟩

theorem length_threads (h : run.Orderly site capacity workers visitors) :
    run.crew.sharing.threads.length = workers + 1 :=
  h.crew.seated.length_eq.trans (congrArg (· + 1) h.length_eq)

/-- A move of another than the owner. -/
private theorem of_crew (h : run.Orderly site capacity workers visitors) {crew : Crew}
    {mover : Option Nat} (step : run.crew.Transition mover crew) (other : mover ≠ some 0) :
    { run with crew }.Orderly site capacity workers visitors where
  crew := step.orderly h.crew
  site_eq := step.site_eq.trans h.site_eq
  length_eq := (step.length_workers other).trans h.length_eq
  stands := h.stands.spared h.crew.seated step other

/-- Every move keeps a run orderly, and all but rousing a thread bring it nearer to its end. -/
theorem step (h : run.Orderly site capacity workers visitors) {move : RunMove}
    (hstep : run.step move = some next) :
    next.Orderly site capacity workers visitors ∧
    next.rank visitors.length + 1 ≤ run.rank visitors.length + 2 * move.isSpurious.toNat := by
  rcases step_cases h.crew.seated hstep with ⟨wake, rfl, hmanage⟩ | ⟨crew, rfl, others⟩
  · have change := Owner.Change.of_manage h.offers hmanage
    have orderly : next.Orderly site capacity workers visitors := by
      refine ⟨?_, change.site_eq.trans h.site_eq, change.length_workers.trans h.length_eq,
        change.stands h.crew.seated h.stands⟩
      rcases change.transition with same | step
      · rw [same]
        exact h.crew
      · exact step.orderly h.crew
    exact ⟨orderly, change.rank_lt h.crew.seated orderly.stands.accepted_le⟩
  · obtain ⟨mover, other, step⟩ := others.transition
    have orderly := h.of_crew step other
    have paid := others.paid _ orderly.stands.accepted_le
    have owner := orderly.length_threads.trans h.length_threads.symm
    refine ⟨orderly, ?_⟩
    simp only [rank] at owner ⊢
    rw [owner]
    omega

/-- A run is orderly in every state that it reaches, and pays for its moves with its rank. -/
theorem of_steps {moves : List RunMove}
    (h : (start site capacity workers (visitors.map .offer)).steps moves = some run) :
    run.Orderly site capacity workers visitors ∧
    run.rank visitors.length + moves.length ≤
      (start site capacity workers (visitors.map .offer)).rank visitors.length +
        2 * moves.countP (·.isSpurious) :=
  paid_of_steps (·.Orderly site capacity workers visitors) (·.rank visitors.length)
    (orderly_start site capacity workers visitors) (fun orderly => orderly.step) h

end Orderly

theorem rank_start (site : Site) (capacity workers : Nat) (visitors : List Visitor) :
    (start site capacity workers (visitors.map .offer)).rank visitors.length ≤
      (4 * workers + 17) * (workers + visitors.length + 1) := by
  have empty : (Queue.ofCapacity capacity : Queue Visitor).toList = [] :=
    Queue.toList_ofCapacity capacity
  simp only [rank, Crew.rank, Sharing.rank, start, Crew.start, Sharing.start, Owner.rank,
    List.length_replicate, List.length_map, List.length_nil, total_replicate, empty, Phase.rank,
    Worker.rank, Nat.sub_zero, Nat.mul_zero, Nat.add_zero]
  refine Nat.le.intro (k := 3 * workers + 1) ?_
  ring

end Run

end StaticHttp
