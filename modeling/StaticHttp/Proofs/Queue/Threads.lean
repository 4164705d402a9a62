import StaticHttp.Queue.Turn
import StaticHttp.Proofs.Queue.WakeUps

/-!
# One thread at a time

What a move does to the phase of the thread that makes it (`Transition.own`), and to the phases of
all others: a parked one may be notified or roused, and nothing else happens to them
(`Transition.others`). `Phase.Carries` and `Phase.Closes` say where a thread stands that makes the
same call over and over at a clean lock; they are kept by its own turns and by the moves of others.
-/

namespace StaticHttp

/-- The thread that goes on by a move. -/
def Move.mover? {α : Type} : Move α → Option Nat
  | .call i _ | .close i | .enter i _ | .announce i | .leave i => some i
  | .join | .spurious _ | .poison => none

/-- What a call may be answered at a clean lock. -/
inductive Call.Answers {α : Type} : Call α → Reply α → Prop
  | done (item : α) : Answers (.put item) .done
  | item (item : α) : Answers .take (.item item)
  | closed : Answers .take .closed

namespace Phase

variable {α : Type} {p q : Phase α} {c : Call α}

/-- What the moves of others make of a phase. -/
inductive Stirs : Phase α → Phase α → Prop
  | stays (p : Phase α) : Stirs p p
  | notified (c : Call α) : Stirs (.parked c) (.notified c)
  | roused (c : Call α) : Stirs (.parked c) (.roused c)

/-- What the thread's own move makes of its phase at a clean lock. -/
inductive Advances : Move α → Phase α → Phase α → Prop
  | call (i : Nat) (c : Call α) : Advances (.call i c) .idle (.entering c)
  | close (i : Nat) : Advances (.close i) .idle .closing
  | park {i : Nat} {wake : Option Nat} {p : Phase α} {c : Call α} (tries : p.trying? = some c) :
      Advances (.enter i wake) p (.parked c)
  | answer {i : Nat} {wake : Option Nat} {p : Phase α} {c : Call α} {reply : Reply α}
      (tries : p.trying? = some c) (answers : c.Answers reply) :
      Advances (.enter i wake) p (.answered reply)
  | shut (i : Nat) (wake : Option Nat) : Advances (.enter i wake) .closing (.announcing false false)
  | tellTakers (i : Nat) (poisoned : Bool) :
      Advances (.announce i) (.announcing false poisoned) (.announcing true poisoned)
  | tellProducers (i : Nat) (poisoned : Bool) :
      Advances (.announce i) (.announcing true poisoned)
        (.answered (Sharing.closeReply poisoned))
  | leave (i : Nat) (reply : Reply α) : Advances (.leave i) (.answered reply) .idle

/-- Where a thread stands that makes this call at a clean lock. -/
def Carries (c : Call α) : Phase α → Prop
  | .idle => True
  | .entering d | .parked d | .notified d | .roused d => d = c
  | .answered reply => c.Answers reply
  | .closing | .announcing .. => False

/-- Where a thread stands that closes the queue at a clean lock. -/
def Closes : Phase α → Prop
  | .idle | .closing | .announcing _ false | .answered .done => True
  | _ => False

/-- Where a thread stands that never takes. -/
def Supplies : Phase α → Prop
  | .entering .take | .parked .take | .notified .take | .roused .take | .answered (.item _) => False
  | _ => True

theorem Carries.stirs (h : p.Carries c) (stirs : p.Stirs q) : q.Carries c := by
  cases stirs <;> exact h

theorem Supplies.stirs (h : p.Supplies) (stirs : p.Stirs q) : q.Supplies := by
  cases stirs with
  | stays => exact h
  | notified c | roused c => cases c <;> exact h

theorem Supplies.advances {move : Move α} (h : p.Supplies) (advances : Advances move p q)
    (noTake : ∀ i, move ≠ .call i .take) : q.Supplies := by
  cases advances with
  | call i c =>
    cases c with
    | put => exact trivial
    | take => exact absurd rfl (noTake i)
  | park tries =>
    rename_i c
    cases c with
    | put => exact trivial
    | take => rcases trying?_eq_some_iff.mp tries with rfl | rfl | rfl <;> exact h.elim
  | answer tries answers =>
    cases answers with
    | item => rcases trying?_eq_some_iff.mp tries with rfl | rfl | rfl <;> exact h.elim
    | _ => exact trivial
  | tellProducers i poisoned => cases poisoned <;> exact trivial
  | _ => exact trivial

theorem Carries.eq_of_trying? {d : Call α} (h : p.Carries c) (tries : p.trying? = some d) :
    d = c := by
  rcases trying?_eq_some_iff.mp tries with rfl | rfl | rfl <;> exact h

end Phase

namespace Sharing

variable {α : Type} {s t : Sharing α} {move : Move α}

/-! ## Phases -/

/-- What a move makes of the phase of its thread at a clean lock. -/
theorem Transition.own (step : Transition s move t) (isClean : s.queue.poisoned = false) {i : Nat}
    (mine : move.mover? = some i) :
    ∃ p q, s.threads[i]? = some p ∧ t.threads[i]? = some q ∧ Phase.Advances move p q := by
  cases step with
  | join | rouse | poison => cases mine
  | call found =>
    cases mine
    exact ⟨_, _, found, get_set_self _ found, .call _ _⟩
  | close found =>
    cases mine
    exact ⟨_, _, found, get_set_self _ found, .close _⟩
  | put found tries _ notifies =>
    cases mine
    have back := notifies.get_of_not_parked (get_set_self (.answered .done) found) rfl
    exact ⟨_, _, found, back, .answer tries (.done _)⟩
  | putFull found tries | takeEmpty found tries =>
    cases mine
    exact ⟨_, _, found, get_set_self _ found, .park tries⟩
  | putRefused found tries =>
    cases mine
    rw [isClean]
    exact ⟨_, _, found, get_set_self _ found, .answer tries (.done _)⟩
  | take found tries _ notifies =>
    cases mine
    have back := notifies.get_of_not_parked (get_set_self (.answered (.item _)) found) rfl
    exact ⟨_, _, found, back, .answer tries (.item _)⟩
  | takeClosed found tries =>
    cases mine
    exact ⟨_, _, found, get_set_self _ found, .answer tries .closed⟩
  | takePoisoned _ _ isPoisoned => exact absurd (isPoisoned.symm.trans isClean) Bool.noConfusion
  | shut found =>
    cases mine
    rw [isClean]
    exact ⟨_, _, found, get_set_self _ found, .shut _ _⟩
  | tellTakers found =>
    cases mine
    exact ⟨_, _, found, get_set_self _ (get_wake _ found), .tellTakers _ _⟩
  | tellProducers found =>
    cases mine
    exact ⟨_, _, found, get_set_self _ (get_wake _ found), .tellProducers _ _⟩
  | leave found =>
    cases mine
    exact ⟨_, _, found, get_set_self _ found, .leave _ _⟩

private theorem stirs_wake (who : Call α → Bool) (p : Phase α) : p.Stirs (p.wake who) := by
  cases p with
  | parked c =>
    simp only [Phase.wake]
    split
    · exact .notified c
    · exact .stays _
  | _ => exact .stays _

private theorem Notifies.stirs {who : Call α → Bool} {threads after : List (Phase α)}
    {wake : Option Nat} (h : Notifies who threads wake after) {j : Nat} {p : Phase α}
    (found : threads[j]? = some p) : ∃ q, after[j]? = some q ∧ p.Stirs q := by
  cases h with
  | nobody => exact ⟨p, found, .stays p⟩
  | @one k c hk fits =>
    by_cases hne : k = j
    · subst hne
      rw [found] at hk
      cases hk
      exact ⟨_, get_set_self _ found, .notified c⟩
    · exact ⟨p, (List.getElem?_set_ne hne).trans found, .stays p⟩

/-- What a move makes of the phases of the other threads. -/
theorem Transition.others (step : Transition s move t) {j : Nat} {p : Phase α}
    (found : s.threads[j]? = some p) (other : move.mover? ≠ some j) :
    ∃ q, t.threads[j]? = some q ∧ p.Stirs q := by
  have apart : ∀ {i : Nat} {b : Phase α}, some i ≠ some j →
      (s.threads.set i b)[j]? = some p := by
    intro i b hne
    exact (List.getElem?_set_ne fun h => hne (congrArg some h)).trans found
  have told : ∀ {i : Nat} {b : Phase α} (who : Call α → Bool), some i ≠ some j →
      ((s.threads.map (·.wake who)).set i b)[j]? = some (p.wake who) := by
    intro i b who hne
    exact (List.getElem?_set_ne fun h => hne (congrArg some h)).trans (get_wake who found)
  cases step with
  | join =>
    obtain ⟨hlt, _⟩ := List.getElem?_eq_some_iff.mp found
    exact ⟨p, (List.getElem?_append_left hlt).trans found, .stays p⟩
  | put _ _ _ notifies | take _ _ _ notifies => exact notifies.stirs (apart other)
  | tellTakers => exact ⟨_, told Call.isTake other, stirs_wake _ p⟩
  | tellProducers => exact ⟨_, told Call.isPut other, stirs_wake _ p⟩
  | @rouse i c hi =>
    by_cases hne : i = j
    · subst hne
      rw [found] at hi
      cases hi
      exact ⟨_, get_set_self _ found, .roused c⟩
    · exact ⟨p, (List.getElem?_set_ne hne).trans found, .stays p⟩
  | poison => exact ⟨p, found, .stays p⟩
  | _ => exact ⟨p, apart other, .stays p⟩

theorem Transition.length_threads (step : Transition s move t) (noJoin : move ≠ .join) :
    t.threads.length = s.threads.length := by
  have notified : ∀ {who : Call α → Bool} {threads after : List (Phase α)} {wake : Option Nat},
      Notifies who threads wake after → after.length = threads.length := by
    intro who threads after wake h
    cases h with
    | nobody => rfl
    | one => exact List.length_set
  cases step with
  | join => exact absurd rfl noJoin
  | put _ _ _ notifies | take _ _ _ notifies => exact (notified notifies).trans List.length_set
  | tellTakers | tellProducers => exact List.length_set.trans (List.length_map ..)
  | poison => rfl
  | _ => exact List.length_set

/-! ## Flags and lists -/

/-- Only a thread that is about to close the queue closes it. -/
theorem Transition.closed_eq (step : Transition s move t)
    (noShut : ∀ i, move.mover? = some i → s.threads[i]? ≠ some .closing) :
    t.queue.closed = s.queue.closed := by
  cases step with
  | put _ _ accepts _ => exact accepts.closed_eq
  | take _ _ yields _ => exact yields.closed_eq
  | shut found => exact absurd found (noShut _ rfl)
  | _ => rfl

theorem Transition.poisoned_eq (step : Transition s move t) (noPoison : move ≠ .poison) :
    t.queue.poisoned = s.queue.poisoned := by
  cases step with
  | put _ _ accepts _ => exact accepts.poisoned_eq
  | take _ _ yields _ => exact yields.poisoned_eq
  | poison => exact absurd rfl noPoison
  | _ => rfl

/-- Only a thread that puts adds to the accepted items. -/
theorem Transition.accepted_eq_of_not_put (step : Transition s move t)
    (noPut : ∀ i p item, move.mover? = some i → s.threads[i]? = some p →
      p.trying? ≠ some (.put item)) : t.accepted = s.accepted := by
  cases step with
  | put found tries => exact absurd tries (noPut _ _ _ rfl found)
  | _ => rfl

theorem Transition.accepted_grows (step : Transition s move t) : s.accepted <+: t.accepted := by
  cases step with
  | put => exact List.prefix_append _ _
  | _ => exact List.prefix_refl _

/-- Only a thread that takes adds to the delivered items, and it adds one. -/
theorem Transition.delivered_cases (step : Transition s move t) :
    t.delivered = s.delivered ∨
    ∃ i wake p item, move = .enter i wake ∧ s.threads[i]? = some p ∧ p.trying? = some .take ∧
      t.delivered = s.delivered ++ [item] := by
  cases step with
  | take found tries => exact .inr ⟨_, _, _, _, rfl, found, tries, rfl⟩
  | _ => exact .inl rfl

/-- A thread that puts into an open queue has its item accepted, or parks. -/
theorem Transition.accepted_of_put {i : Nat} {wake : Option Nat} {p : Phase α} {item : α}
    (step : Transition s (.enter i wake) t) (found : s.threads[i]? = some p)
    (tries : p.trying? = some (.put item)) (isOpen : s.queue.closed = false)
    (isClean : s.queue.poisoned = false) :
    (t.threads[i]? = some (.answered .done) ∧ t.accepted = s.accepted ++ [item]) ∨
    (t.threads[i]? = some (.parked (.put item)) ∧ t.accepted = s.accepted) := by
  have same : ∀ {r : Phase α} {c : Call α}, s.threads[i]? = some r → r.trying? = some c →
      c = .put item := by
    intro r c hr hc
    rw [found] at hr
    cases hr
    rw [tries] at hc
    exact (Option.some.inj hc).symm
  cases step with
  | put hp hc _ notifies =>
    cases same hp hc
    exact .inl ⟨notifies.get_of_not_parked (get_set_self _ found) rfl, rfl⟩
  | putFull hp hc =>
    cases same hp hc
    exact .inr ⟨get_set_self _ found, rfl⟩
  | putRefused _ _ refused =>
    rcases refused with isClosed | isPoisoned
    · exact absurd (isClosed.symm.trans isOpen) Bool.noConfusion
    · exact absurd (isPoisoned.symm.trans isClean) Bool.noConfusion
  | take hp hc | takeEmpty hp hc | takeClosed hp hc | takePoisoned hp hc => cases same hp hc
  | shut hp =>
    rw [found] at hp
    cases hp
    cases tries

/-! ## Turns -/

/-- What a thread does in its turn, by its phase, and the reply with which it is back. -/
inductive Turn (begin : Move α) (i : Nat) : Phase α → Move α → Option (Reply α) → Prop
  | begin : Turn begin i .idle begin none
  | enter (wake : Option Nat) {p : Phase α} {c : Call α} (tries : p.trying? = some c) :
      Turn begin i p (.enter i wake) none
  | shut (wake : Option Nat) : Turn begin i .closing (.enter i wake) none
  | announce (takersTold poisoned : Bool) :
      Turn begin i (.announcing takersTold poisoned) (.announce i) none
  | leave (reply : Reply α) : Turn begin i (.answered reply) (.leave i) (some reply)

theorem turn_cases {i : Nat} {begin : Move α} {wake : Option Nat} {reply : Option (Reply α)}
    (h : s.turn i begin wake = some (reply, t)) :
    ∃ p move, s.threads[i]? = some p ∧ Turn begin i p move reply ∧ s.step move = some t := by
  obtain ⟨move, hmove, h⟩ := Option.bind_eq_some_iff.mp h
  obtain ⟨_, hstep, heq⟩ := Option.map_eq_some_iff.mp h
  cases heq
  cases found : s.threads[i]? with
  | none =>
    simp only [nextMove, found] at hmove
    cases hmove
  | some p =>
    simp only [nextMove, found] at hmove
    refine ⟨p, move, rfl, ?_, hstep⟩
    cases p <;> cases hmove <;> simp only [reply?, found]
    · exact .begin
    · exact .enter wake rfl
    · exact .enter wake rfl
    · exact .enter wake rfl
    · exact .shut wake
    · exact .announce _ _
    · exact .leave _

namespace Turn

variable {i : Nat} {begin : Move α} {p : Phase α} {reply : Option (Reply α)}

theorem mover?_eq (turn : Turn begin i p move reply) (mine : begin.mover? = some i) :
    move.mover? = some i := by
  cases turn with
  | begin => exact mine
  | _ => rfl

/-- A thread that makes the same call over and over keeps to it. -/
theorem carries {c : Call α} {q : Phase α} (turn : Turn (.call i c) i p move reply)
    (h : p.Carries c) (advances : Phase.Advances move p q) : q.Carries c := by
  cases turn with
  | begin =>
    cases advances
    exact rfl
  | enter wake tries =>
    have same := h.eq_of_trying? tries
    cases advances with
    | park tries' =>
      rw [tries] at tries'
      cases tries'
      exact same
    | answer tries' answers =>
      rw [tries] at tries'
      cases tries'
      exact same ▸ answers
    | shut => cases tries
  | shut | announce => exact h.elim
  | leave =>
    cases advances
    exact trivial

/-- A thread that closes the queue keeps to it. -/
theorem closes {q : Phase α} (turn : Turn (.close i) i p move reply) (h : p.Closes)
    (advances : Phase.Advances move p q) : q.Closes := by
  cases turn with
  | begin =>
    cases advances
    exact trivial
  | enter wake tries =>
    rcases Phase.trying?_eq_some_iff.mp tries with rfl | rfl | rfl <;> exact h.elim
  | shut =>
    cases advances with
    | park tries | answer tries => cases tries
    | shut => exact trivial
  | announce takersTold poisoned =>
    cases poisoned with
    | true => exact h.elim
    | false => cases advances <;> exact trivial
  | leave =>
    cases advances
    exact trivial

end Turn

/-- A thread that is not parked can take its turn, if it can begin its call. -/
theorem exists_turn {i : Nat} {begin : Move α} {p : Phase α} (found : s.threads[i]? = some p)
    (free : ∀ who, p.isParked who = false)
    (canBegin : p = .idle → ∃ t, s.step begin = some t) :
    ∃ wake reply t, s.turn i begin wake = some (reply, t) := by
  have done : ∀ (wake : Option Nat) (move : Move α), s.nextMove i begin wake = some move →
      (∃ t, s.step move = some t) → ∃ wake reply t, s.turn i begin wake = some (reply, t) := by
    intro wake move hmove ⟨t, hstep⟩
    refine ⟨wake, s.reply? i, t, ?_⟩
    simp only [turn, hmove, hstep, Option.bind_some, Option.map_some]
  cases p with
  | idle => exact done none begin (by simp only [nextMove, found]) (canBegin rfl)
  | entering c | notified c | roused c =>
    obtain ⟨wake, t, h⟩ := exists_attempt s i c
    rw [← step_enter found rfl] at h
    exact done wake (.enter i wake) (by simp only [nextMove, found]) ⟨t, h⟩
  | parked c => exact absurd (free fun _ => true) Bool.noConfusion
  | closing =>
    refine done none (.enter i none) (by simp only [nextMove, found]) ?_
    simp only [step, found, quietly, Option.isNone_none, if_true, Option.some.injEq, exists_eq']
  | announcing takersTold poisoned =>
    refine done none (.announce i) (by simp only [nextMove, found]) ?_
    cases takersTold <;> simp only [step, found, Option.some.injEq, exists_eq']
  | answered reply =>
    refine done none (.leave i) (by simp only [nextMove, found]) ?_
    simp only [step, found, Option.some.injEq, exists_eq']

end Sharing

end StaticHttp
