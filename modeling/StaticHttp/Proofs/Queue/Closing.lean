import StaticHttp.Proofs.Queue.Order

/-!
# After the close

A queue that is closed stays closed, accepts nothing more, drops what is brought, gives out in order
what it holds, and answers that it is closed when it holds nothing (`closing_contract`). A thread
never hears that the queue is closed while there is something to take or before the queue is closed.

The close is announced after the lock is given back, first to takers and then to producers. A thread
parks only in an open queue, so nobody parks again who was told; `parked_eq_zero_of_announced` puts
the two announcements together. None of this needs a clean lock, except that every try at a poisoned
lock fails.
-/

namespace StaticHttp

namespace Sharing

variable {α : Type}

/-- A thread tries its call inside the lock, and this comes of it. -/
def Tries (s : Sharing α) (i : Nat) (c : Call α) (t : Sharing α) : Prop :=
  ∃ wake, (s.threads[i]?).bind Phase.trying? = some c ∧ s.step (.enter i wake) = some t

/-! ## Flags and lists -/

theorem Transition.closed_mono {s t : Sharing α} {move : Move α} (step : Transition s move t)
    (isClosed : s.queue.closed = true) : t.queue.closed = true := by
  cases step with
  | put _ _ accepts _ => exact accepts.closed_eq.trans isClosed
  | take _ _ yields _ => exact yields.closed_eq.trans isClosed
  | shut => rfl
  | _ => exact isClosed

theorem Transition.poisoned_mono {s t : Sharing α} {move : Move α} (step : Transition s move t)
    (isPoisoned : s.queue.poisoned = true) : t.queue.poisoned = true := by
  cases step with
  | put _ _ accepts _ => exact accepts.poisoned_eq.trans isPoisoned
  | take _ _ yields _ => exact yields.poisoned_eq.trans isPoisoned
  | poison => rfl
  | _ => exact isPoisoned

/-- A closed queue accepts nothing. -/
theorem Transition.accepted_eq {s t : Sharing α} {move : Move α} (step : Transition s move t)
    (isClosed : s.queue.closed = true) : t.accepted = s.accepted := by
  cases step with
  | put _ _ accepts _ => exact absurd (accepts.isOpen.symm.trans isClosed) Bool.noConfusion
  | _ => rfl

/-- From a closed queue on: it stays closed, nothing is accepted, and what is delivered is taken
from the front of what it held. -/
theorem Reachable.after_close {capacity : Nat} {s t : Sharing α} {moves : List (Move α)}
    (before : Reachable capacity s) (isClosed : s.queue.closed = true)
    (h : s.run moves = some t) :
    t.queue.closed = true ∧ t.accepted = s.accepted ∧
    ∃ taken, t.delivered = s.delivered ++ taken ∧ taken ++ t.queue.toList = s.queue.toList := by
  have key : t.queue.closed = true ∧ t.accepted = s.accepted ∧ s.delivered <+: t.delivered := by
    refine run_induction (motive := fun _ t => t.queue.closed = true ∧ t.accepted = s.accepted ∧
      s.delivered <+: t.delivered) ⟨isClosed, rfl, List.prefix_rfl⟩ ?_ h
    intro moves t move u hrun ih hstep
    have step := (before.run hrun).transition hstep
    refine ⟨step.closed_mono ih.1, (step.accepted_eq ih.1).trans ih.2.1, ih.2.2.trans ?_⟩
    rw [step.effect.delivered_eq]
    exact List.prefix_append _ _
  obtain ⟨closed, accepted, taken, htaken⟩ := key
  refine ⟨closed, accepted, taken, htaken.symm, ?_⟩
  -- Both states are in order, with the same accepted items.
  have hs := before.ordered
  have ht := (before.run h).ordered
  rw [accepted, ← hs, ← htaken, List.append_assoc] at ht
  exact List.append_cancel_left ht

/-! ## Tries -/

/-- The call that a transition tries is the call of its thread. -/
private theorem call_eq {threads : List (Phase α)} {i : Nat} {phase : Phase α} {c d : Call α}
    (bound : (threads[i]?).bind Phase.trying? = some c) (found : threads[i]? = some phase)
    (tries : phase.trying? = some d) : c = d := by
  rw [found, Option.bind_some, tries] at bound
  exact (Option.some.inj bound).symm

private theorem not_closing {threads : List (Phase α)} {i : Nat} {c : Call α}
    (bound : (threads[i]?).bind Phase.trying? = some c) (found : threads[i]? = some .closing) :
    False := by
  rw [found] at bound
  cases bound

/-- A call that puts into a closed queue, or at a poisoned lock, is back with its item dropped. -/
theorem Reachable.tries_put {capacity : Nat} {s t : Sharing α} {i : Nat} {item : α}
    (before : Reachable capacity s) (tries : s.Tries i (.put item) t)
    (refused : s.queue.closed = true ∨ s.queue.poisoned = true) :
    t.threads[i]? = some (.answered (closeReply s.queue.poisoned)) ∧
      t.dropped = s.dropped ++ [item] ∧ t.queue = s.queue := by
  obtain ⟨wake, bound, hstep⟩ := tries
  have clash : ∀ {b : Bool}, b = true → b = false → False := fun h g => nomatch h.symm.trans g
  cases before.transition hstep with
  | put found tries accepts _ =>
    exact (refused.elim (clash · accepts.isOpen) (clash · accepts.isClean)).elim
  | putFull found tries isOpen isClean _ =>
    exact (refused.elim (clash · isOpen) (clash · isClean)).elim
  | putRefused found tries _ =>
    cases call_eq bound found tries
    exact ⟨get_set_self _ found, rfl, rfl⟩
  | take found tries | takeEmpty found tries | takeClosed found tries | takePoisoned found tries =>
    cases call_eq bound found tries
  | shut found => exact (not_closing bound found).elim

/-- What trying to take comes to. -/
theorem Reachable.tries_take {capacity : Nat} {s t : Sharing α} {i : Nat}
    (before : Reachable capacity s) (tries : s.Tries i .take t) :
    (s.queue.poisoned = true ∧ t.threads[i]? = some (.answered (.failed .poisoned)) ∧
      t.queue = s.queue) ∨
    (s.queue.poisoned = false ∧
      ((∃ item, t.threads[i]? = some (.answered (.item item)) ∧
          s.queue.toList = item :: t.queue.toList) ∨
        (s.queue.toList = [] ∧ s.queue.closed = false ∧ t.threads[i]? = some (.parked .take)) ∨
        (s.queue.toList = [] ∧ s.queue.closed = true ∧ t.threads[i]? = some (.answered .closed) ∧
          t.queue = s.queue))) := by
  obtain ⟨wake, bound, hstep⟩ := tries
  cases before.transition hstep with
  | take found tries yields notifies =>
    have back := notifies.get_of_not_parked (get_set_self (.answered (.item _)) found) rfl
    exact .inr ⟨yields.isClean, .inl ⟨_, back, yields.toList_eq⟩⟩
  | takeEmpty found tries isOpen isClean empty =>
    exact .inr ⟨isClean, .inr (.inl ⟨empty, isOpen, get_set_self _ found⟩)⟩
  | takeClosed found tries isClosed isClean empty =>
    exact .inr ⟨isClean, .inr (.inr ⟨empty, isClosed, get_set_self _ found, rfl⟩)⟩
  | takePoisoned found tries isPoisoned =>
    exact .inl ⟨isPoisoned, get_set_self _ found, rfl⟩
  | put found tries | putFull found tries | putRefused found tries =>
    cases call_eq bound found tries
  | shut found => exact (not_closing bound found).elim

/-- A taker that is told that the queue is closed found it closed and empty. -/
theorem Reachable.closed_and_empty {capacity : Nat} {s t : Sharing α} {i : Nat}
    (before : Reachable capacity s) (tries : s.Tries i .take t)
    (told : t.threads[i]? = some (.answered .closed)) :
    s.queue.closed = true ∧ s.queue.toList = [] ∧ t.queue = s.queue := by
  rcases before.tries_take tries with ⟨_, back, _⟩ |
    ⟨_, ⟨item, back, _⟩ | ⟨_, _, back⟩ | ⟨empty, isClosed, _, same⟩⟩
  · rw [told] at back
    cases back
  · rw [told] at back
    cases back
  · rw [told] at back
    cases back
  · exact ⟨isClosed, empty, same⟩

/-! ## Announcements -/

private theorem mem_wake {who : Call α → Bool} {threads : List (Phase α)} {p : Phase α}
    (h : p ∈ threads.map (·.wake who)) :
    (p ∈ threads ∧ p.isParked who = false) ∨ ∃ c, p = .notified c := by
  obtain ⟨q, hq, rfl⟩ := List.mem_map.mp h
  cases q with
  | parked c =>
    cases fits : who c with
    | true => exact .inr ⟨c, by simp only [Phase.wake, fits, if_true]⟩
    | false =>
      have same : (Phase.parked c).wake who = .parked c := by
        simp only [Phase.wake, fits, Bool.false_eq_true, if_false]
      rw [same]
      exact .inl ⟨hq, fits⟩
  | _ => exact .inl ⟨hq, rfl⟩

private theorem mem_notifies {who : Call α → Bool} {threads after : List (Phase α)}
    {wake : Option Nat} {p : Phase α} (h : Notifies who threads wake after) (hp : p ∈ after) :
    p ∈ threads ∨ ∃ c, p = .notified c := by
  cases h with
  | nobody => exact .inl hp
  | one => exact (List.mem_or_eq_of_mem_set hp).imp_right fun h => ⟨_, h⟩

private theorem countP_wake (who : Call α → Bool) (threads : List (Phase α)) :
    (threads.map (·.wake who)).countP (·.isParked who) = 0 := by
  apply List.countP_eq_zero.mpr
  intro p hp
  rcases mem_wake hp with ⟨_, h⟩ | ⟨c, rfl⟩
  · rw [h]
    exact Bool.false_ne_true
  · exact Bool.false_ne_true

private theorem countP_set_wake {who : Call α → Bool} {threads : List (Phase α)} {i : Nat}
    {a b : Phase α} (found : threads[i]? = some a) (hb : b.isParked who = false) :
    ((threads.map (·.wake who)).set i b).countP (·.isParked who) = 0 := by
  have := countP_set (·.isParked who) (get_wake who found) rfl hb
  rw [countP_wake] at this
  exact Nat.eq_zero_of_add_eq_zero_right this

private theorem closeReply_ne_closed (poisoned : Bool) :
    (closeReply poisoned : Reply α) ≠ .closed := by cases poisoned <;> exact nofun

/-- The phases that a transition brings threads to, and what each of them tells of the queue. -/
inductive Brings (s t : Sharing α) : Phase α → Prop
  | idle : Brings s t .idle
  | entering (c : Call α) : Brings s t (.entering c)
  | parked (c : Call α) (isOpen : s.queue.closed = false) : Brings s t (.parked c)
  | notified (c : Call α) : Brings s t (.notified c)
  | roused (c : Call α) : Brings s t (.roused c)
  | closing : Brings s t .closing
  | shut (poisoned : Bool) (isClosed : t.queue.closed = true) :
      Brings s t (.announcing false poisoned)
  | takersTold {poisoned : Bool} (before : .announcing false poisoned ∈ s.threads)
      (free : t.parked Call.isTake = 0) : Brings s t (.announcing true poisoned)
  | told (isClosed : s.queue.closed = true) (empty : s.queue.toList = [])
      (same : t.queue = s.queue) : Brings s t (.answered .closed)
  | answered {reply : Reply α} (unequal : reply ≠ .closed) : Brings s t (.answered reply)

/-- A thread stays in its phase, or is brought to another. -/
theorem Transition.mem_threads {s t : Sharing α} {move : Move α} (step : Transition s move t)
    {p : Phase α} (hp : p ∈ t.threads) : p ∈ s.threads ∨ Brings s t p := by
  have of_set : ∀ {threads : List (Phase α)} {i : Nat} {b : Phase α}, p ∈ threads.set i b →
      Brings s t b → p ∈ threads ∨ Brings s t p := by
    intro threads i b h hb
    rcases List.mem_or_eq_of_mem_set h with h | rfl
    · exact .inl h
    · exact .inr hb
  have of_wake : ∀ {who : Call α → Bool} {i : Nat} {b : Phase α},
      p ∈ (s.threads.map (·.wake who)).set i b → Brings s t b → p ∈ s.threads ∨ Brings s t p := by
    intro who i b h hb
    rcases of_set h hb with h | h
    · rcases mem_wake h with h | ⟨c, rfl⟩
      · exact .inl h.1
      · exact .inr (.notified c)
    · exact .inr h
  have of_notifies : ∀ {who : Call α → Bool} {i : Nat} {b : Phase α} {wake : Option Nat}
      {after : List (Phase α)}, Notifies who (s.threads.set i b) wake after → p ∈ after →
      Brings s t b → p ∈ s.threads ∨ Brings s t p := by
    intro who i b wake after notifies h hb
    rcases mem_notifies notifies h with h | ⟨c, rfl⟩
    · exact of_set h hb
    · exact .inr (.notified c)
  cases step with
  | join =>
    rcases List.mem_append.mp hp with h | h
    · exact .inl h
    · cases List.mem_singleton.mp h
      exact .inr .idle
  | call => exact of_set hp (.entering _)
  | close => exact of_set hp .closing
  | put _ _ _ notifies => exact of_notifies notifies hp (.answered nofun)
  | putFull _ _ isOpen => exact of_set hp (.parked _ isOpen)
  | putRefused => exact of_set hp (.answered (closeReply_ne_closed _))
  | take _ _ _ notifies => exact of_notifies notifies hp (.answered nofun)
  | takeEmpty _ _ isOpen => exact of_set hp (.parked _ isOpen)
  | takeClosed _ _ isClosed _ empty => exact of_set hp (.told isClosed empty rfl)
  | takePoisoned => exact of_set hp (.answered nofun)
  | shut => exact of_set hp (.shut _ rfl)
  | tellTakers found =>
    exact of_wake hp (.takersTold (List.mem_of_getElem? found) (countP_set_wake found rfl))
  | tellProducers => exact of_wake hp (.answered (closeReply_ne_closed _))
  | leave => exact of_set hp .idle
  | rouse => exact of_set hp (.roused _)
  | poison => exact .inl hp

/-- Nobody parks at a closed queue. -/
theorem Transition.parked_eq_zero {s t : Sharing α} {move : Move α} (step : Transition s move t)
    (isClosed : s.queue.closed = true) {who : Call α → Bool} (free : s.parked who = 0) :
    t.parked who = 0 := by
  unfold parked at free ⊢
  rw [List.countP_eq_zero] at free ⊢
  intro p hp
  rcases step.mem_threads hp with h | h
  · exact free p h
  · cases h with
    | parked c isOpen => exact absurd (isOpen.symm.trans isClosed) Bool.noConfusion
    | _ => exact Bool.false_ne_true

theorem run_parked_eq_zero {capacity : Nat} {s t : Sharing α} {moves : List (Move α)}
    (before : Reachable capacity s) (isClosed : s.queue.closed = true) {who : Call α → Bool}
    (free : s.parked who = 0) (h : s.run moves = some t) : t.parked who = 0 := by
  refine run_induction (motive := fun _ t => t.parked who = 0) free ?_ h
  intro moves t move u hrun ih hstep
  exact ((before.run hrun).transition hstep).parked_eq_zero (before.after_close isClosed hrun).1 ih

/-- A thread that announces has closed the queue, and after its first announcement no taker waits
un-notified. -/
private def Announced (s : Sharing α) : Prop :=
  ∀ takersTold poisoned, .announcing takersTold poisoned ∈ s.threads →
    s.queue.closed = true ∧ (takersTold = true → s.parked Call.isTake = 0)

private theorem Reachable.announced {capacity : Nat} {s : Sharing α} (h : Reachable capacity s) :
    s.Announced := by
  refine h.invariant (fun threads => ?_) ?_
  · intro takersTold poisoned h
    cases List.eq_of_mem_replicate h
  · intro s move t _ ih step takersTold poisoned h
    rcases step.mem_threads h with h | h
    · obtain ⟨isClosed, free⟩ := ih _ _ h
      exact ⟨step.closed_mono isClosed, fun told => step.parked_eq_zero isClosed (free told)⟩
    · cases h with
      | shut _ isClosed => exact ⟨isClosed, Bool.noConfusion⟩
      | takersTold before free => exact ⟨step.closed_mono (ih _ _ before).1, fun _ => free⟩

/-- A thread that announces has closed the queue. -/
theorem Reachable.closed_of_announcing {capacity : Nat} {s : Sharing α}
    (h : Reachable capacity s) {takersTold poisoned : Bool}
    (announcing : .announcing takersTold poisoned ∈ s.threads) : s.queue.closed = true :=
  (h.announced _ _ announcing).1

/-- Nobody is parked if no taker and no producer is. -/
theorem parked_eq_zero_of_both {s : Sharing α} (takers : s.parked Call.isTake = 0)
    (producers : s.parked Call.isPut = 0) (who : Call α → Bool) : s.parked who = 0 := by
  unfold parked at *
  rw [List.countP_eq_zero] at *
  intro p hp
  have htake := takers p hp
  have hput := producers p hp
  cases p with
  | parked c =>
    cases c with
    | take => exact absurd rfl htake
    | put item => exact absurd rfl hput
  | _ => exact Bool.false_ne_true

/-- After the second announcement nobody waits un-notified. -/
theorem Reachable.parked_eq_zero_of_announced {capacity : Nat} {s t : Sharing α} {i : Nat}
    {poisoned : Bool} (before : Reachable capacity s)
    (announcing : s.threads[i]? = some (.announcing true poisoned))
    (h : s.step (.announce i) = some t) (who : Call α → Bool) : t.parked who = 0 := by
  obtain ⟨isClosed, free⟩ := before.announced _ _ (List.mem_of_getElem? announcing)
  have step := before.transition h
  have takers := step.parked_eq_zero isClosed (free rfl)
  cases step with
  | tellTakers found =>
    rw [announcing] at found
    cases found
  | tellProducers found =>
    exact parked_eq_zero_of_both takers (countP_set_wake found rfl) who

/-- A queue that is closed and empty stays empty. -/
theorem Transition.toList_eq_nil {s t : Sharing α} {move : Move α} (step : Transition s move t)
    (isClosed : s.queue.closed = true) (empty : s.queue.toList = []) : t.queue.toList = [] := by
  cases step with
  | put _ _ accepts _ => exact absurd (accepts.isOpen.symm.trans isClosed) Bool.noConfusion
  | take _ _ yields _ =>
    rw [yields.toList_eq] at empty
    cases empty
  | _ => exact empty

/-- As long as a thread is told that the queue is closed, it is closed and empty. -/
theorem Reachable.closed_and_empty_of_told {capacity : Nat} {s : Sharing α}
    (h : Reachable capacity s) (told : .answered .closed ∈ s.threads) :
    s.queue.closed = true ∧ s.queue.toList = [] := by
  revert told
  refine h.invariant (P := fun s => .answered .closed ∈ s.threads →
    s.queue.closed = true ∧ s.queue.toList = []) (fun threads told => ?_) ?_
  · cases List.eq_of_mem_replicate told
  · intro s move t _ ih step told
    rcases step.mem_threads told with before | brings
    · obtain ⟨isClosed, empty⟩ := ih before
      exact ⟨step.closed_mono isClosed, step.toList_eq_nil isClosed empty⟩
    · cases brings with
      | told isClosed empty same =>
        rw [same]
        exact ⟨isClosed, empty⟩
      | answered unequal => exact absurd rfl unequal

/-- What closing a queue comes to. At any moment of any run: a taker hears that the queue is closed
only when it is closed and empty; at a poisoned lock every try fails; a close sets the flag and
comes back, poisoned or not; and once it has made both announcements nobody waits un-notified ever
again. From any moment on at which the queue is closed: it stays closed and accepts nothing; what is
delivered is taken from the front of what it held; every call that puts comes back with its item
dropped; and a taker that hears of the close does so after all items, as does every later one. -/
theorem closing_contract {capacity threads : Nat} {moves : List (Move α)} {s : Sharing α}
    (h : (start capacity threads).run moves = some s) :
    (∀ i t, s.Tries i .take t → t.threads[i]? = some (.answered .closed) →
      s.queue.closed = true ∧ s.queue.toList = []) ∧
    (s.queue.poisoned = true → ∀ i c t, s.Tries i c t →
      t.threads[i]? = some (.answered (.failed .poisoned)) ∧ t.queue = s.queue) ∧
    (∀ i, s.threads[i]? = some .closing → ∃ t, s.step (.enter i none) = some t ∧
      t.queue.closed = true ∧ t.threads[i]? = some (.announcing false s.queue.poisoned)) ∧
    (∀ i poisoned, s.threads[i]? = some (.announcing false poisoned) →
      ∃ t, s.step (.announce i) = some t ∧
        t.threads[i]? = some (.announcing true poisoned)) ∧
    (∀ i poisoned, s.threads[i]? = some (.announcing true poisoned) →
      ∃ t, s.step (.announce i) = some t ∧
        t.threads[i]? = some (.answered (if poisoned then .failed .poisoned else .done)) ∧
        ∀ later u, t.run later = some u → ∀ who, u.parked who = 0) ∧
    (s.queue.closed = true → ∀ later t, s.run later = some t →
      t.queue.closed = true ∧ t.accepted = s.accepted ∧
      (∃ taken, t.delivered = s.delivered ++ taken ∧ taken ++ t.queue.toList = s.queue.toList) ∧
      (∀ i item u, t.Tries i (.put item) u →
        u.threads[i]? =
          some (.answered (if t.queue.poisoned then .failed .poisoned else .done)) ∧
        u.dropped = t.dropped ++ [item] ∧ u.queue = t.queue) ∧
      (∀ i u, t.Tries i .take u → u.threads[i]? = some (.answered .closed) →
        t.delivered = s.delivered ++ s.queue.toList ∧
        ∀ last v, u.run last = some v → v.queue.poisoned = false → ∀ j w, v.Tries j .take w →
          w.threads[j]? = some (.answered .closed))) := by
  have reached : Reachable capacity s := (Reachable.start threads).run h
  refine ⟨?_, ?_, ?_, ?_, ?_, ?_⟩
  · intro i t tries told
    obtain ⟨isClosed, empty, _⟩ := reached.closed_and_empty tries told
    exact ⟨isClosed, empty⟩
  · intro isPoisoned i c t tries
    cases c with
    | put item =>
      obtain ⟨back, _, same⟩ := reached.tries_put tries (.inr isPoisoned)
      rw [isPoisoned] at back
      exact ⟨back, same⟩
    | take =>
      rcases reached.tries_take tries with ⟨_, back, same⟩ | ⟨isClean, _⟩
      · exact ⟨back, same⟩
      · exact absurd (isPoisoned.symm.trans isClean) Bool.noConfusion
  · intro i found
    exact ⟨_, by simp only [step, found]; rfl, rfl, get_set_self _ found⟩
  · intro i poisoned found
    exact ⟨_, by simp only [step, found]; rfl, get_set_self _ (get_wake _ found)⟩
  · intro i poisoned found
    obtain ⟨t, hstep⟩ : ∃ t, s.step (.announce i) = some t := ⟨_, by simp only [step, found]; rfl⟩
    refine ⟨t, hstep, ?_, fun later u hu who => ?_⟩
    · simp only [step, found] at hstep
      cases hstep
      exact get_set_self _ (get_wake _ found)
    · have isClosed := reached.closed_of_announcing (List.mem_of_getElem? found)
      exact run_parked_eq_zero (reached.step hstep)
        ((reached.transition hstep).closed_mono isClosed)
        (reached.parked_eq_zero_of_announced found hstep who) hu
  · intro isClosed later t hrun
    obtain ⟨closed, accepted, taken, hdelivered, hrest⟩ := reached.after_close isClosed hrun
    have reachedT := reached.run hrun
    refine ⟨closed, accepted, ⟨taken, hdelivered, hrest⟩, ?_, ?_⟩
    · intro i item u tries
      exact reachedT.tries_put tries (.inl closed)
    · intro i u tries told
      obtain ⟨_, empty, same⟩ := reachedT.closed_and_empty tries told
      rw [empty, List.append_nil] at hrest
      refine ⟨hrest ▸ hdelivered, fun last v hv isClean j w triesW => ?_⟩
      obtain ⟨wake, _, hstep⟩ := tries
      have reachedU := reachedT.step hstep
      obtain ⟨closedV, _, _, _, hv'⟩ := reachedU.after_close (same ▸ closed) hv
      have emptyV : v.queue.toList = [] := by
        rw [same, empty] at hv'
        exact (List.append_eq_nil_iff.mp hv').2
      rcases (reachedU.run hv).tries_take triesW with ⟨isPoisoned, _⟩ |
        ⟨_, ⟨item, _, hitems⟩ | ⟨_, isOpen, _⟩ | ⟨_, _, back, _⟩⟩
      · exact absurd (isPoisoned.symm.trans isClean) Bool.noConfusion
      · rw [emptyV] at hitems
        cases hitems
      · exact absurd (isOpen.symm.trans closedV) Bool.noConfusion
      · exact back

/-- A producer is parked at a full queue when the queue is closed: its item never gets in. -/
theorem closing_contract_parked :
    ∃ s : Sharing Nat, (start 1 3).run
        [.call 0 (.put 1), .enter 0 none, .call 1 (.put 2), .enter 1 none, .close 2,
          .enter 2 none] = some s ∧
      s.queue.closed = true ∧ s.threads[1]? = some (.parked (.put 2)) ∧
      ∀ later t, s.run later = some t → t.accepted = [1] := by
  have h : (start 1 3 : Sharing Nat).run
      [.call 0 (.put 1), .enter 0 none, .call 1 (.put 2), .enter 1 none, .close 2, .enter 2 none] =
      some ⟨⟨⟨#[some 1], 0, 0, 1⟩, true, false⟩,
        [.answered .done, .parked (.put 2), .announcing false false], [1], [], []⟩ := rfl
  refine ⟨_, h, rfl, rfl, fun later t hrun => ?_⟩
  obtain ⟨_, _, _, _, _, afterClose⟩ := closing_contract h
  exact (afterClose rfl later t hrun).2.1

end Sharing

end StaticHttp
