import StaticHttp.Proofs.Server.Visits

/-!
# The stop signal and the dispatcher

Whoever raises the stop signal first makes a connection that wakes the dispatcher, and nobody else
does (`Server.Signalled`). That connection is not let in (`Server.Woken`): a visitor is let in by a
dispatcher that finds the flag unset after it has accepted him. Hence from the moment at which the
flag is set only the visitor in the hand of the dispatcher can still be put into the queue, and from
the moment at which the dispatcher drains the queue none (`Server.Settles`, `agreement_of_steps`).
-/

namespace StaticHttp

namespace Server

/-- The caller of the stop signal that goes on from such a place by a move. -/
def caller? (place : Caller) (server : Server) : ServerMove → Option Nat
  | .raise caller => if server.callers[caller]? = some place then some caller else none
  | _ => none

/-- The callers that reach the flag in a run, in order. -/
def reaching : Server → List ServerMove → List Nat := observed step (caller? .setting)

/-- The callers that make a connection in a run, in order, to wake the dispatcher. -/
def knocking : Server → List ServerMove → List Nat := observed step (caller? .connecting)

/-- The visitors that were let in, in order. -/
def admitted (server : Server) : List Visitor := server.enqueued ++ server.dispatcher.offered

variable {capacity workers : Nat} {server next : Server} {move : ServerMove}

/-! ## The callers -/

/-- Where the callers of the stop signal are, when these have reached the flag and these have made
a connection, each in order: the first one at the flag is the one that makes a connection. -/
structure Signalled (reached knocked : List Nat) (server : Server) : Prop where
  stopping_iff : server.stopping = true ↔ reached ≠ []
  reached_iff : ∀ i, i ∈ reached ↔ ∃ place, server.callers[i]? = some place ∧ place ≠ .setting
  connecting_iff : ∀ i,
    server.callers[i]? = some .connecting ↔ reached.head? = some i ∧ knocked = []
  knocked_first : knocked <+: reached.take 1

theorem signalled_start (site : Site) (capacity workers : Nat) :
    (start site capacity workers).Signalled [] [] where
  stopping_iff := ⟨nofun, fun h => absurd rfl h⟩
  reached_iff := fun _ => ⟨nofun, fun ⟨_, found, _⟩ => nomatch found⟩
  connecting_iff := fun _ => ⟨nofun, fun h => nomatch h.1⟩
  knocked_first := List.prefix_refl []

namespace Signalled

variable {reached knocked : List Nat}

/-- A move after which the flag and the callers are what they were before. -/
private theorem of_same (h : server.Signalled reached knocked)
    (stopping : next.stopping = server.stopping) (callers : next.callers = server.callers) :
    next.Signalled reached knocked where
  stopping_iff := stopping ▸ h.stopping_iff
  reached_iff := callers ▸ h.reached_iff
  connecting_iff := callers ▸ h.connecting_iff
  knocked_first := h.knocked_first

/-- One more caller is about to set the flag. -/
private theorem called (h : server.Signalled reached knocked) :
    { server with callers := server.callers ++ [Caller.setting] }.Signalled reached knocked where
  stopping_iff := h.stopping_iff
  reached_iff := by
    intro i
    rw [h.reached_iff]
    constructor
    · rintro ⟨place, found, past⟩
      refine ⟨place, ?_, past⟩
      exact (List.getElem?_append_left (List.getElem?_eq_some_iff.mp found).1).trans found
    · rintro ⟨place, found, past⟩
      rcases get_concat_cases found with before | ⟨_, rfl⟩
      · exact ⟨place, before, past⟩
      · exact absurd rfl past
  connecting_iff := by
    intro i
    rw [← h.connecting_iff]
    constructor
    · intro found
      rcases get_concat_cases found with before | ⟨_, heq⟩
      · exact before
      · cases heq
    · intro found
      exact (List.getElem?_append_left (List.getElem?_eq_some_iff.mp found).1).trans found
  knocked_first := h.knocked_first

/-- A caller that has not reached the flag is not among those that have. -/
private theorem not_mem_of_setting (h : server.Signalled reached knocked) {i : Nat}
    (setting : server.callers[i]? = some .setting) : i ∉ reached := by
  intro mem
  obtain ⟨place, found, past⟩ := (h.reached_iff i).mp mem
  exact past (Option.some.inj (found.symm.trans setting))

/-- As long as the flag is unset nobody has reached it. -/
theorem eq_nil_of_not_stopping (h : server.Signalled reached knocked)
    (wanted : server.stopping = false) : reached = [] ∧ knocked = [] := by
  have none : reached = [] := by
    by_contra some
    exact Bool.noConfusion (wanted.symm.trans (h.stopping_iff.mpr some))
  refine ⟨none, ?_⟩
  have few := h.knocked_first
  rw [none] at few
  exact List.prefix_nil.mp few

/-- A caller reaches the flag. -/
private theorem set (h : server.Signalled reached knocked) {i : Nat}
    (setting : server.callers[i]? = some .setting) :
    { server with
      stopping := true
      callers := server.callers.set i
        (if server.stopping then .finished else .connecting) }.Signalled
      (reached ++ [i]) knocked where
  stopping_iff := ⟨fun _ => List.concat_ne_nil _ _, fun _ => rfl⟩
  reached_iff := by
    intro j
    rw [List.mem_append, List.mem_singleton, h.reached_iff]
    dsimp only
    by_cases same : i = j
    · subst same
      rw [get_set_self _ setting]
      refine ⟨fun _ => ⟨_, rfl, ?_⟩, fun _ => .inr rfl⟩
      split <;> exact nofun
    · rw [List.getElem?_set_ne same]
      exact ⟨fun mem => mem.resolve_right fun heq => same heq.symm, .inl⟩
  connecting_iff := by
    intro j
    have new := h.not_mem_of_setting setting
    dsimp only
    cases flag : server.stopping with
    | true =>
      -- Somebody was here before.
      obtain ⟨first, rest, rfl⟩ := List.exists_cons_of_ne_nil (h.stopping_iff.mp flag)
      rw [List.cons_append, List.head?_cons]
      by_cases same : i = j
      · subst same
        rw [get_set_self _ setting]
        refine ⟨nofun, fun ⟨heq, _⟩ => absurd ?_ new⟩
        cases heq
        exact List.mem_cons_self
      · rw [List.getElem?_set_ne same, h.connecting_iff, List.head?_cons]
    | false =>
      obtain ⟨rfl, rfl⟩ := h.eq_nil_of_not_stopping flag
      by_cases same : i = j
      · subst same
        rw [get_set_self _ setting]
        exact ⟨fun _ => ⟨rfl, rfl⟩, fun _ => rfl⟩
      · rw [List.getElem?_set_ne same, h.connecting_iff]
        refine ⟨fun nobody => absurd nobody.1 nofun, fun first => ?_⟩
        exact absurd (Option.some.inj first.1) same
  knocked_first := by
    cases reached with
    | nil => exact h.knocked_first.trans List.nil_prefix
    | cons first rest => exact h.knocked_first

/-- The first caller makes its connection. -/
private theorem knocks (h : server.Signalled reached knocked) {i : Nat}
    (connecting : server.callers[i]? = some .connecting) :
    { server with callers := server.callers.set i .finished }.Signalled reached
      (knocked ++ [i]) := by
  obtain ⟨head, rfl⟩ := (h.connecting_iff i).mp connecting
  obtain ⟨rest, rfl⟩ := List.head?_eq_some_iff.mp head
  refine ⟨h.stopping_iff, fun j => ?_, fun j => ?_, List.prefix_refl _⟩
  · rw [h.reached_iff]
    dsimp only
    by_cases same : i = j
    · subst same
      rw [get_set_self _ connecting]
      exact ⟨fun _ => ⟨_, rfl, nofun⟩, fun _ => ⟨_, connecting, nofun⟩⟩
    · rw [List.getElem?_set_ne same]
  · refine ⟨fun found => ?_, fun ⟨_, heq⟩ => nomatch heq⟩
    rcases get_set_cases found with ⟨_, heq⟩ | ⟨hne, before⟩
    · cases heq
    · obtain ⟨first, _⟩ := (h.connecting_iff j).mp before
      exact absurd (Option.some.inj first).symm hne

end Signalled

/-- Every move of a caller is seen. -/
theorem Transition.signalled {reached knocked : List Nat} (step : server.Transition move next)
    (h : server.Signalled reached knocked) :
    next.Signalled (reached ++ (server.caller? .setting move).toList)
      (knocked ++ (server.caller? .connecting move).toList) := by
  cases step with
  | set setting =>
    simp only [caller?, setting, reduceCtorEq, Option.some.injEq, if_true, if_false,
      Option.toList_none, List.append_nil]
    exact h.set setting
  | wakeUp connecting =>
    simp only [caller?, connecting, reduceCtorEq, Option.some.injEq, if_true, if_false,
      Option.toList_none, List.append_nil]
    refine (h.knocks connecting).of_same ?_ ?_ <;> simp
  | call =>
    show Signalled (reached ++ []) (knocked ++ []) _
    rw [List.append_nil, List.append_nil]
    exact h.called
  | arrive =>
    show Signalled (reached ++ []) (knocked ++ []) _
    rw [List.append_nil, List.append_nil]
    refine h.of_same ?_ ?_ <;> simp
  | _ =>
    show Signalled (reached ++ []) (knocked ++ []) _
    rw [List.append_nil, List.append_nil]
    exact h.of_same rfl rfl

/-! ## The connection that wakes the dispatcher -/

/-- A server that has stopped stays so. -/
theorem Transition.stopped_mono (step : server.Transition move next)
    (stopped : server.isStopped = true) : next.isStopped = true := by
  cases step with
  | arrive | wakeUp => simpa [isStopped] using stopped
  | goOn was | stop was | accept was | turnAway was | letIn was | enqueue was | refuse was
  | interrupt was | fail _ was =>
    rw [isStopped, was] at stopped
    cases stopped
  | @drain _ _ drain _ _ was change =>
    rw [isStopped, was] at stopped
    cases drain with
    | done =>
      cases change with
      | turn begins => cases begins
    | _ => cases stopped
  | change | call | set | offer | work | rouse => exact stopped

/-- What a move lets in. -/
theorem Transition.admitted_cases (step : server.Transition move next)
    (h : server.Steady capacity workers) :
    next.admitted = server.admitted ∨
    ∃ visitor, server.dispatcher = .rechecking visitor ∧ server.stopping = false ∧
      next.admitted = server.admitted ++ [visitor] := by
  unfold admitted
  cases step with
  | arrive | wakeUp =>
    left
    simp
  | letIn was wanted =>
    refine .inr ⟨_, was, wanted, ?_⟩
    simp only [was, Dispatcher.offered, List.append_nil]
  | goOn was | stop was | accept was | turnAway was | enqueue was | drain was | interrupt was
  | fail _ was =>
    left
    simp only [was, Dispatcher.offered, List.append_nil]
  | refuse was found => exact (h.not_refused was found).elim
  | change | call | set | offer | work | rouse => exact .inl rfl

/-- How many connections have come that wake the dispatcher, when these callers have made one. One
that comes after the listener is gone is not received, and none was let in. -/
structure Woken (knocked : List Nat) (server : Server) : Prop where
  count_eq : server.isStopped = false →
    server.visitors.countP (·.isWakeUp) = knocked.length
  count_le : server.visitors.countP (·.isWakeUp) ≤ knocked.length
  refused : ∀ visitor ∈ server.admitted, visitor.isWakeUp = false

theorem woken_start (site : Site) (capacity workers : Nat) :
    (start site capacity workers).Woken [] where
  count_eq := fun _ => rfl
  count_le := Nat.le_refl 0
  refused := fun _ h => nomatch h

/-- A newcomer wakes the dispatcher if a caller of the stop signal has made the connection. -/
private theorem countP_newcomer (server : Server) (move : ServerMove) :
    (server.newcomer? move).toList.countP (·.isWakeUp) =
      if server.isStopped then 0 else (server.caller? .connecting move).toList.length := by
  cases move with
  | arrive connection =>
    unfold newcomer?
    cases server.isStopped <;> rfl
  | raise i =>
    simp only [newcomer?, caller?]
    split
    · next connecting =>
      rw [if_pos connecting]
      cases server.isStopped <;> rfl
    · next other =>
      rw [if_neg other]
      cases server.isStopped <;> rfl
  | _ => exact (ite_self 0).symm

/-- The connection that wakes the dispatcher is not let in, and no other is made. -/
theorem Transition.woken {reached knocked : List Nat} (step : server.Transition move next)
    (steady : server.Steady capacity workers) (received : server.Received)
    (signalled : server.Signalled reached knocked) (h : server.Woken knocked) :
    next.Woken (knocked ++ (server.caller? .connecting move).toList) := by
  have count : next.visitors.countP (·.isWakeUp) = server.visitors.countP (·.isWakeUp) +
      if server.isStopped then 0 else (server.caller? .connecting move).toList.length := by
    rw [step.visitors_eq steady received, List.countP_append, countP_newcomer]
  refine ⟨fun going => ?_, ?_, fun visitor hv => ?_⟩
  · have before : server.isStopped = false := Bool.eq_false_of_not_eq_true fun stopped =>
      Bool.noConfusion (going.symm.trans (step.stopped_mono stopped))
    rw [count, before, h.count_eq before, List.length_append]
    rfl
  · rw [count, List.length_append]
    have le := h.count_le
    split <;> omega
  · rcases step.admitted_cases steady with same | ⟨last, rechecking, wanted, more⟩
    · exact h.refused visitor (same ▸ hv)
    · rw [more] at hv
      rcases List.mem_append.mp hv with before | new
      · exact h.refused visitor before
      · -- Nobody has made the connection yet, so the visitor in hand is not it.
        obtain rfl := List.mem_singleton.mp new
        have none := h.count_le
        rw [(signalled.eq_nil_of_not_stopping wanted).2, List.length_nil, Nat.le_zero,
          List.countP_eq_zero] at none
        have inHand : visitor ∈ server.visitors := by
          simp only [visitors, rechecking, Dispatcher.inHand, List.mem_append, List.mem_singleton,
            or_true, true_or]
        exact Bool.eq_false_of_not_eq_true (none visitor inHand)

/-! ## From one moment to a later one -/

theorem Transition.stopping_mono (step : server.Transition move next)
    (stopping : server.stopping = true) : next.stopping = true := by
  cases step with
  | arrive | wakeUp => simp [stopping]
  | set => rfl
  | _ => exact stopping

theorem Transition.enqueued_grows (step : server.Transition move next) :
    server.enqueued <+: next.enqueued := by
  cases step with
  | arrive | wakeUp => simp
  | enqueue => exact List.prefix_append _ _
  | _ => exact List.prefix_refl _

theorem Transition.accepted_grows (step : server.Transition move next)
    (h : server.Steady capacity workers) :
    server.crew.sharing.accepted <+: next.crew.sharing.accepted := by
  have own : ∀ {crew : Crew} {owner owner' : Owner}, Owner.Change server.crew owner crew owner' →
      server.crew.sharing.accepted <+: crew.sharing.accepted := by
    intro crew owner owner' change
    rcases change.transition with rfl | step
    · exact List.prefix_refl _
    · exact step.accepted_grows h.crew.seated
  cases step with
  | arrive | wakeUp => simp
  | offer _ change | enqueue _ change | drain _ change => exact own change
  | refuse was found => exact (h.not_refused was found).elim
  | work step | rouse step => exact step.accepted_grows h.crew.seated
  | _ => exact List.prefix_refl _

/-- How a server goes on from a moment. -/
structure Follows (moment server : Server) : Prop where
  stopping : moment.stopping = true → server.stopping = true
  draining : moment.dispatcher.isDraining = true → server.dispatcher.isDraining = true
  enqueued : moment.enqueued <+: server.enqueued
  accepted : moment.crew.sharing.accepted <+: server.crew.sharing.accepted
  admitted : moment.stopping = true ∨ moment.dispatcher.isDraining = true →
    server.admitted = moment.admitted

theorem Follows.refl (server : Server) : Follows server server :=
  ⟨id, id, List.prefix_refl _, List.prefix_refl _, fun _ => rfl⟩

theorem Transition.follows {moment : Server} (step : server.Transition move next)
    (steady : server.Steady capacity workers) (h : Follows moment server) :
    Follows moment next where
  stopping := fun flag => step.stopping_mono (h.stopping flag)
  draining := fun drains => step.draining_mono (h.draining drains)
  enqueued := h.enqueued.trans step.enqueued_grows
  accepted := h.accepted.trans (step.accepted_grows steady)
  admitted := by
    intro shut
    rcases step.admitted_cases steady with same | ⟨visitor, rechecking, wanted, _⟩
    · exact same.trans (h.admitted shut)
    · rcases shut with flag | drains
      · exact Bool.noConfusion (wanted.symm.trans (h.stopping flag))
      · have drains := h.draining drains
        rw [rechecking] at drains
        cases drains

/-- What the queue has accepted is what the dispatcher has put there, up to the visitor that it is
putting. -/
theorem Steady.accepted_cases (h : server.Steady capacity workers) :
    server.crew.sharing.accepted = server.enqueued ∨
    server.crew.sharing.accepted = server.admitted := by
  have stands := h.stands
  unfold admitted
  cases was : server.dispatcher with
  | polling | accepting | rechecking =>
    rw [was] at stands
    cases stands with
    | @between _ rest plan _ _ accepted =>
      cases List.map_eq_nil_iff.mp plan.symm
      right
      exact (List.append_nil _).symm.trans accepted
    | putting plan | put plan => cases plan
  | offering visitor =>
    rw [was] at stands
    cases stands with
    | @between _ rest plan _ _ accepted =>
      obtain _ | ⟨_, _ | _⟩ := rest <;> cases plan
      exact .inl (List.append_cancel_right accepted)
    | @putting _ _ rest _ plan _ _ _ accepted =>
      cases rest <;> cases plan
      exact .inl (List.append_cancel_right accepted)
    | @put _ _ rest plan _ _ accepted =>
      cases rest <;> cases plan
      right
      exact (List.append_nil _).symm.trans accepted
  | draining failure drain =>
    rw [was] at stands
    cases stands with
    | closing _ _ _ accepted | closed _ _ _ accepted | joining _ _ _ accepted
    | done _ _ accepted => exact .inr accepted

/-- A dispatcher that drains the queue, or has closed it, puts nothing there. -/
theorem Steady.not_putting (h : server.Steady capacity workers)
    (shut : server.dispatcher.isDraining = true ∨ server.crew.sharing.queue.closed = true) :
    server.dispatcher.isDraining = true ∧
    ∀ phase ∈ server.crew.sharing.threads, ∀ visitor, phase.call? ≠ some (.put visitor) := by
  have stands := h.stands
  have seated := h.crew.seated
  obtain ⟨failure, drain, was⟩ : ∃ failure drain,
      server.dispatcher = .draining failure drain := by
    cases was : server.dispatcher with
    | draining failure drain => exact ⟨failure, drain, rfl⟩
    | polling | accepting | rechecking | offering =>
      rw [was] at stands shut
      have isClosed := shut.resolve_left nofun
      cases stands with
      | between _ _ isOpen | putting _ _ _ isOpen | put _ _ isOpen =>
        cases isOpen.symm.trans isClosed
  refine ⟨was ▸ rfl, fun phase mem visitor putting => ?_⟩
  obtain ⟨j, found⟩ := List.getElem?_of_mem mem
  cases j with
  | zero =>
    rw [was] at stands
    cases stands with
    | closing found' closes =>
      cases found.symm.trans found'
      cases phase with
      | entering | parked | notified | roused => exact closes
      | _ => cases putting
    | closed found' | joining found' | done found' =>
      cases found.symm.trans found'
      cases putting
  | succ i =>
    have hlt := (List.getElem?_eq_some_iff.mp found).1
    rw [seated.length_eq] at hlt
    obtain ⟨p, found', seat⟩ :=
      seated.seat i _ (List.getElem?_eq_getElem (Nat.lt_of_succ_lt_succ hlt))
    cases found.symm.trans found'
    cases worker : server.crew.workers[i] with
    | taking handled =>
      rw [worker] at seat
      cases phase with
      | entering | parked | notified | roused =>
        cases Option.some.inj putting
        cases (seat : Call.put visitor = .take)
      | _ => cases putting
    | serving | ended =>
      rw [worker] at seat
      cases (seat : phase = .idle)
      cases putting

/-- What a list can have grown to that grows by the visitor that the dispatcher is putting into the
queue, if it grows at all. -/
private theorem grown_cases {before after : List Visitor} {dispatcher : Dispatcher}
    (grows : before <+: after) (few : after <+: before ++ dispatcher.offered) :
    after = before ∨ ∃ visitor, dispatcher = .offering visitor ∧ after = before ++ [visitor] := by
  have stays : after <+: before → after = before := fun back =>
    back.eq_of_length_le grows.length_le
  cases dispatcher with
  | offering visitor =>
    rcases List.prefix_concat_iff.mp few with all | back
    · exact .inr ⟨visitor, rfl, all⟩
    · exact .inl (stays back)
  | _ => exact .inl (stays ((List.append_nil before) ▸ few))

/-- What a moment of a run settles about every later one. -/
structure Settles (moment server : Server) : Prop where
  stays_raised : moment.stopping = true → server.stopping = true
  /-- Once the flag is set nobody but a visitor that was let in before is put into the queue. -/
  last_enqueued : moment.stopping = true → server.enqueued = moment.enqueued ∨
    ∃ visitor, moment.dispatcher = .offering visitor ∧
      server.enqueued = moment.enqueued ++ [visitor]
  last_accepted : moment.stopping = true →
    server.crew.sharing.accepted = moment.crew.sharing.accepted ∨
    ∃ visitor, moment.dispatcher = .offering visitor ∧
      server.crew.sharing.accepted = moment.crew.sharing.accepted ++ [visitor]
  /-- A dispatcher that drains the queue goes on doing so, and puts nobody there any more. -/
  stays_draining : moment.dispatcher.isDraining = true →
    server.dispatcher.isDraining = true ∧ server.enqueued = moment.enqueued ∧
    server.crew.sharing.accepted = moment.crew.sharing.accepted

private theorem Follows.settles {moment : Server} (h : Follows moment server)
    (before : moment.Steady capacity workers) (after : server.Steady capacity workers) :
    Settles moment server := by
  have admitted_le :
      moment.admitted <+: moment.crew.sharing.accepted ++ moment.dispatcher.offered := by
    rcases before.accepted_cases with same | all
    · exact same ▸ List.prefix_refl _
    · exact all ▸ List.prefix_append _ _
  have accepted_le : server.crew.sharing.accepted <+: server.admitted := by
    rcases after.accepted_cases with same | all
    · exact same ▸ List.prefix_append _ _
    · exact all ▸ List.prefix_refl _
  have grown : moment.stopping = true ∨ moment.dispatcher.isDraining = true →
      (server.enqueued = moment.enqueued ∨ ∃ visitor, moment.dispatcher = .offering visitor ∧
        server.enqueued = moment.enqueued ++ [visitor]) ∧
      (server.crew.sharing.accepted = moment.crew.sharing.accepted ∨
        ∃ visitor, moment.dispatcher = .offering visitor ∧
          server.crew.sharing.accepted = moment.crew.sharing.accepted ++ [visitor]) := by
    intro shut
    have enqueued_le : server.enqueued <+: server.admitted := List.prefix_append _ _
    rw [h.admitted shut] at accepted_le enqueued_le
    exact ⟨grown_cases h.enqueued enqueued_le,
      grown_cases h.accepted (accepted_le.trans admitted_le)⟩
  refine ⟨h.stopping, fun flag => (grown (.inl flag)).1, fun flag => (grown (.inl flag)).2,
    fun drains => ?_⟩
  have idle : ∀ visitor, moment.dispatcher ≠ .offering visitor := by
    intro visitor offering
    rw [offering] at drains
    cases drains
  obtain ⟨enqueued, accepted⟩ := grown (.inr drains)
  exact ⟨h.draining drains, enqueued.resolve_right fun ⟨_, offering, _⟩ => idle _ offering,
    accepted.resolve_right fun ⟨_, offering, _⟩ => idle _ offering⟩

/-! ## Runs -/

variable {site : Site} {moves : List ServerMove}

/-- Every call of the stop signal and every wake-up connection is seen. -/
theorem signalled_of_steps (run : (start site capacity workers).steps moves = some server) :
    server.Signalled (reaching (start site capacity workers) moves)
      (knocking (start site capacity workers) moves) ∧
    server.Woken (knocking (start site capacity workers) moves) := by
  refine foldlM_induction (motive := fun moves server =>
    server.Signalled (reaching (start site capacity workers) moves)
      (knocking (start site capacity workers) moves) ∧
    server.Woken (knocking (start site capacity workers) moves))
    ⟨signalled_start site capacity workers, woken_start site capacity workers⟩ ?_ run
  intro moves server move next hrun ⟨signalled, woken⟩ hstep
  have step := transition_of_step hstep
  obtain ⟨steady, received⟩ := steady_of_steps hrun
  unfold reaching knocking
  rw [observed_concat _ hrun hstep, observed_concat _ hrun hstep]
  exact ⟨step.signalled signalled, step.woken steady received signalled woken⟩

/-- What a moment of a run settles holds at its end. -/
theorem settles_of_steps {before after : List ServerMove} {moment : Server}
    (first : (start site capacity workers).steps before = some moment)
    (run : (start site capacity workers).steps (before ++ after) = some server) :
    Settles moment server := by
  have steady_at : ∀ {moves : List ServerMove} {later : Server},
      moment.steps moves = some later → later.Steady capacity workers := fun rest =>
    (steady_of_steps (foldlM_append_eq_some.mpr ⟨moment, first, rest⟩)).1
  obtain ⟨same, first', rest⟩ := foldlM_append_eq_some.mp run
  cases first.symm.trans first'
  have follows : Follows moment server := by
    refine foldlM_induction (motive := fun _ later => Follows moment later)
      (.refl moment) ?_ rest
    intro moves later move next hrun ih hstep
    exact (transition_of_step hstep).follows (steady_at hrun) ih
  exact follows.settles (steady_of_steps first).1 (steady_of_steps run).1

/-- The protocol that the callers of the stop signal and the dispatcher keep in a run. -/
structure Agreement (origin : Server) (moves : List ServerMove) (server : Server) : Prop where
  signalled : server.Signalled (reaching origin moves) (knocking origin moves)
  woken : server.Woken (knocking origin moves)
  /-- A connection is made after the flag was set, by the first caller that has reached it. -/
  knocks_late : ∀ before after moment i, moves = before ++ .raise i :: after →
    origin.steps before = some moment → moment.callers[i]? = some .connecting →
    moment.stopping = true ∧ (reaching origin before).head? = some i
  /-- Whoever was let in was accepted before the flag was set, and looked at before. -/
  checked : ∀ visitor ∈ server.admitted, ∃ before after moment, moves = before ++ after ∧
    origin.steps before = some moment ∧
    moment.dispatcher = .rechecking visitor ∧ moment.stopping = false
  accepted : ∀ visitor ∈ server.crew.sharing.accepted, visitor.isWakeUp = false
  reported : ∀ report, server.report? = some (.ok report) →
    report.accepted = server.enqueued.countP (!·.isWakeUp)
  settles : ∀ before after moment, moves = before ++ after → origin.steps before = some moment →
    Settles moment server
  /-- The queue is not closed before the dispatcher has left off accepting, and from then on no
  thread puts anything there. -/
  not_putting : server.dispatcher.isDraining = true ∨ server.crew.sharing.queue.closed = true →
    server.dispatcher.isDraining = true ∧
    ∀ phase ∈ server.crew.sharing.threads, ∀ visitor, phase.call? ≠ some (.put visitor)

/-- The stop signal and the dispatcher keep to their protocol in every run, whoever comes, raises
the signal, or interrupts the dispatcher when, and however accepting fails. -/
theorem agreement_of_steps (run : (start site capacity workers).steps moves = some server) :
    Agreement (start site capacity workers) moves server := by
  obtain ⟨signalled, woken⟩ := signalled_of_steps run
  have steady := (steady_of_steps run).1
  refine ⟨signalled, woken, ?_, ?_, ?_, ?_, ?_, steady.not_putting⟩
  · rintro before after moment i rfl first connecting
    have signalled := (signalled_of_steps first).1
    have head := ((signalled.connecting_iff i).mp connecting).1
    refine ⟨signalled.stopping_iff.mpr fun none => ?_, head⟩
    rw [none] at head
    cases head
  · refine exists_moment_of_mem admitted rfl (fun hrun hstep => ?_) run
    refine ((transition_of_step hstep).admitted_cases (steady_of_steps hrun).1).imp_right ?_
    rintro ⟨visitor, rechecking, wanted, more⟩
    exact ⟨visitor, more, rechecking, wanted⟩
  · intro visitor mem
    apply woken.refused
    rcases steady.accepted_cases with same | all
    · exact List.mem_append_left _ (same ▸ mem)
    · exact all ▸ mem
  · intro report reports
    have counted : report.accepted = server.enqueued.length := by
      unfold report? ServerReport.conclude at reports
      split at reports
      · split at reports <;> cases reports
        rfl
      · cases reports
    rw [counted, eq_comm, List.countP_eq_length]
    intro visitor mem
    rw [woken.refused visitor (List.mem_append_left _ mem)]
    rfl
  · rintro before after moment rfl first
    exact settles_of_steps first run

/-- The stop signal is raised twice while the dispatcher is about to put a visitor into the queue:
the visitor is the last one there, and only the second caller makes a connection, for it was the
first to reach the flag. -/
theorem agreement_of_steps_two_callers :
    ∃ server, (start ⟨⟨.directory [], [], true⟩, []⟩ 1 1).steps
        [.arrive {}, .dispatch none, .dispatch none, .dispatch none, .call, .call, .raise 1,
          .raise 0, .raise 1, .dispatch none, .dispatch none, .dispatch none, .dispatch none] =
            some server ∧
      Agreement (start ⟨⟨.directory [], [], true⟩, []⟩ 1 1)
        [.arrive {}, .dispatch none, .dispatch none, .dispatch none, .call, .call, .raise 1,
          .raise 0, .raise 1, .dispatch none, .dispatch none, .dispatch none, .dispatch none]
        server ∧
      knocking (start ⟨⟨.directory [], [], true⟩, []⟩ 1 1)
        [.arrive {}, .dispatch none, .dispatch none, .dispatch none, .call, .call, .raise 1,
          .raise 0, .raise 1, .dispatch none, .dispatch none, .dispatch none, .dispatch none] =
            [1] ∧
      server.enqueued.length = 1 ∧ server.backlog.map (·.isWakeUp) = [true] ∧
      server.dispatcher.isDraining = true := by
  have run : (start ⟨⟨.directory [], [], true⟩, []⟩ 1 1).steps
      [.arrive {}, .dispatch none, .dispatch none, .dispatch none, .call, .call, .raise 1,
        .raise 0, .raise 1, .dispatch none, .dispatch none, .dispatch none, .dispatch none] =
          some _ := rfl
  exact ⟨_, run, agreement_of_steps run, rfl, rfl, rfl, rfl⟩

end Server

end StaticHttp
