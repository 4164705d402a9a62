import StaticHttp.Queue.Sharing
import StaticHttp.Proofs.Runs
import StaticHttp.Proofs.Total
import StaticHttp.Proofs.Queue.Contents

/-!
# The moves of a sharing

`Sharing.Transition` lists once what each move can do and under which condition, in terms of the
items of the queue; `transition_of_step` says that there is nothing else. Invariants are proved by
cases on it and reach every run through `run_induction`.

Threads are counted by adding a weight over their phases, which no announcement changes if the
weight does not tell a parked thread from a notified one (`total_wake`).
-/

namespace StaticHttp

namespace Phase

variable {α : Type}

theorem trying?_eq_some_iff {p : Phase α} {c : Call α} :
    p.trying? = some c ↔ p = .entering c ∨ p = .notified c ∨ p = .roused c := by
  cases p <;> simp [trying?]

end Phase

namespace Sharing

variable {α : Type}

/-! ## Counting threads -/

/-- Telling everybody keeps a sum whose weight does not tell parked from notified. -/
theorem total_wake {weight : Phase α → Nat} (who : Call α → Bool) (threads : List (Phase α))
    (same : ∀ c, weight (.notified c) = weight (.parked c)) :
    total weight (threads.map (·.wake who)) = total weight threads := by
  have blind : ∀ p : Phase α, weight (p.wake who) = weight p := by
    intro p
    cases p with
    | parked c =>
      simp only [Phase.wake]
      split
      · exact same c
      · rfl
    | _ => rfl
  simp only [total_map, blind]

theorem get_wake {threads : List (Phase α)} {i : Nat} {a : Phase α} (who : Call α → Bool)
    (found : threads[i]? = some a) : (threads.map (·.wake who))[i]? = some (a.wake who) := by
  rw [List.getElem?_map, found]
  rfl

/-- The number of threads that wait un-notified in such a call. -/
def parked (s : Sharing α) (who : Call α → Bool) : Nat := s.threads.countP (·.isParked who)

/-- The number of threads that were notified in such a call and have not resumed. -/
def notified (s : Sharing α) (who : Call α → Bool) : Nat := s.threads.countP (·.isNotified who)

/-! ## Notifications -/

/-- The threads after one notification: nobody is reached if nobody is parked in such a call, else a
thread that is. -/
inductive Notifies (who : Call α → Bool) (threads : List (Phase α)) :
    Option Nat → List (Phase α) → Prop
  | nobody (free : threads.countP (·.isParked who) = 0) : Notifies who threads none threads
  | one {j : Nat} {c : Call α} (found : threads[j]? = some (.parked c)) (fits : who c = true) :
      Notifies who threads (some j) (threads.set j (.notified c))

/-- A notification changes threads alone. -/
theorem notifies_of_notifyOne {s t : Sharing α} {who : Call α → Bool} {wake : Option Nat}
    (h : s.notifyOne who wake = some t) :
    ∃ threads, t = { s with threads } ∧ Notifies who s.threads wake threads := by
  unfold notifyOne at h
  split at h
  · split at h
    · cases h
    · next free =>
      cases h
      refine ⟨s.threads, rfl, .nobody (List.countP_eq_zero.mpr fun p hp => ?_)⟩
      simp only [List.any_eq_true, not_exists, not_and] at free
      exact free p hp
  · split at h
    · next found =>
      split at h
      · next fits =>
        cases h
        exact ⟨_, rfl, .one found fits⟩
      · cases h
    · cases h

namespace Notifies

variable {who : Call α → Bool} {threads after : List (Phase α)} {wake : Option Nat}

/-- A notification leaves a thread alone that is not parked. -/
theorem get_of_not_parked (h : Notifies who threads wake after) {i : Nat} {p : Phase α}
    (found : threads[i]? = some p) (free : p.isParked who = false) : after[i]? = some p := by
  cases h with
  | nobody => exact found
  | @one j c hj fits =>
    have hne : j ≠ i := by
      rintro rfl
      rw [found] at hj
      cases hj
      simp only [Phase.isParked, fits, Bool.true_eq_false] at free
    rw [List.getElem?_set_ne hne, found]

/-- A notification keeps a sum whose weight does not tell parked from notified. -/
theorem total_eq (h : Notifies who threads wake after) (weight : Phase α → Nat)
    (same : ∀ c, weight (.notified c) = weight (.parked c)) :
    total weight after = total weight threads := by
  cases h with
  | nobody => rfl
  | @one j c found _ =>
    have := total_set weight (.notified c) found
    rw [same] at this
    omega

end Notifies

/-! ## Moves -/

/-- What each move can do, and under which condition. -/
inductive Transition (s : Sharing α) : Move α → Sharing α → Prop
  | join : Transition s .join { s with threads := s.threads ++ [.idle] }
  | call {i : Nat} {c : Call α} (found : s.threads[i]? = some .idle) :
      Transition s (.call i c) { s with threads := s.threads.set i (.entering c) }
  | close {i : Nat} (found : s.threads[i]? = some .idle) :
      Transition s (.close i) { s with threads := s.threads.set i .closing }
  | put {i : Nat} {wake : Option Nat} {phase : Phase α} {item : α} {queue : Queue α}
      {threads : List (Phase α)}
      (found : s.threads[i]? = some phase) (tries : phase.trying? = some (.put item))
      (accepts : s.queue.Accepts item queue)
      (notifies : Notifies Call.isTake (s.threads.set i (.answered .done)) wake threads) :
      Transition s (.enter i wake) { s with queue, threads, accepted := s.accepted ++ [item] }
  | putFull {i : Nat} {phase : Phase α} {item : α}
      (found : s.threads[i]? = some phase) (tries : phase.trying? = some (.put item))
      (isOpen : s.queue.closed = false) (isClean : s.queue.poisoned = false)
      (full : s.queue.toList.length = s.queue.ring.capacity) :
      Transition s (.enter i none) { s with threads := s.threads.set i (.parked (.put item)) }
  | putRefused {i : Nat} {phase : Phase α} {item : α}
      (found : s.threads[i]? = some phase) (tries : phase.trying? = some (.put item))
      (refused : s.queue.closed = true ∨ s.queue.poisoned = true) :
      Transition s (.enter i none) { s with
        threads := s.threads.set i (.answered (closeReply s.queue.poisoned))
        dropped := s.dropped ++ [item] }
  | take {i : Nat} {wake : Option Nat} {phase : Phase α} {item : α} {queue : Queue α}
      {threads : List (Phase α)}
      (found : s.threads[i]? = some phase) (tries : phase.trying? = some .take)
      (yields : s.queue.Yields item queue)
      (notifies : Notifies Call.isPut (s.threads.set i (.answered (.item item))) wake threads) :
      Transition s (.enter i wake) { s with queue, threads, delivered := s.delivered ++ [item] }
  | takeEmpty {i : Nat} {phase : Phase α}
      (found : s.threads[i]? = some phase) (tries : phase.trying? = some .take)
      (isOpen : s.queue.closed = false) (isClean : s.queue.poisoned = false)
      (empty : s.queue.toList = []) :
      Transition s (.enter i none) { s with threads := s.threads.set i (.parked .take) }
  | takeClosed {i : Nat} {phase : Phase α}
      (found : s.threads[i]? = some phase) (tries : phase.trying? = some .take)
      (isClosed : s.queue.closed = true) (isClean : s.queue.poisoned = false)
      (empty : s.queue.toList = []) :
      Transition s (.enter i none) { s with threads := s.threads.set i (.answered .closed) }
  | takePoisoned {i : Nat} {phase : Phase α}
      (found : s.threads[i]? = some phase) (tries : phase.trying? = some .take)
      (isPoisoned : s.queue.poisoned = true) :
      Transition s (.enter i none)
        { s with threads := s.threads.set i (.answered (.failed .poisoned)) }
  | shut {i : Nat} (found : s.threads[i]? = some .closing) :
      Transition s (.enter i none) { s with
        queue := s.queue.close
        threads := s.threads.set i (.announcing false s.queue.poisoned) }
  | tellTakers {i : Nat} {poisoned : Bool}
      (found : s.threads[i]? = some (.announcing false poisoned)) :
      Transition s (.announce i) { s with
        threads := (s.threads.map (·.wake Call.isTake)).set i (.announcing true poisoned) }
  | tellProducers {i : Nat} {poisoned : Bool}
      (found : s.threads[i]? = some (.announcing true poisoned)) :
      Transition s (.announce i) { s with
        threads := (s.threads.map (·.wake Call.isPut)).set i (.answered (closeReply poisoned)) }
  | leave {i : Nat} {reply : Reply α} (found : s.threads[i]? = some (.answered reply)) :
      Transition s (.leave i) { s with threads := s.threads.set i .idle }
  | rouse {i : Nat} {c : Call α} (found : s.threads[i]? = some (.parked c)) :
      Transition s (.spurious i) { s with threads := s.threads.set i (.roused c) }
  | poison : Transition s .poison { s with queue := { s.queue with poisoned := true } }

private theorem eq_none_of_quietly {s t : Sharing α} {wake : Option Nat}
    (h : s.quietly wake = some t) : wake = none ∧ t = s := by
  cases wake with
  | none =>
    cases h
    exact ⟨rfl, rfl⟩
  | some j => cases h

/-- A try inside the lock is one of the transitions of its call. -/
private theorem transition_of_attempt {s t : Sharing α} (sound : s.queue.Sound) {i : Nat}
    {wake : Option Nat} {phase : Phase α} {c : Call α} (found : s.threads[i]? = some phase)
    (tries : phase.trying? = some c) (h : s.attempt i wake c = some t) :
    Transition s (.enter i wake) t := by
  cases c with
  | put item =>
    unfold attempt at h
    rcases Queue.offer_cases sound item with ⟨queue, heq, accepts⟩ | ⟨heq, isOpen, isClean, full⟩ |
      ⟨heq, isClosed, isClean⟩ | ⟨heq, isPoisoned⟩ <;> simp only [heq] at h
    · obtain ⟨threads, rfl, notifies⟩ := notifies_of_notifyOne h
      exact .put found tries accepts notifies
    · obtain ⟨rfl, rfl⟩ := eq_none_of_quietly h
      exact .putFull found tries isOpen isClean full
    · obtain ⟨rfl, rfl⟩ := eq_none_of_quietly h
      have := Transition.putRefused found tries (.inl isClosed)
      rwa [isClean] at this
    · obtain ⟨rfl, rfl⟩ := eq_none_of_quietly h
      have := Transition.putRefused found tries (.inr isPoisoned)
      rwa [isPoisoned] at this
  | take =>
    unfold attempt at h
    rcases Queue.take_cases sound with ⟨item, queue, heq, yields⟩ | ⟨heq, isOpen, isClean, empty⟩ |
      ⟨heq, isClosed, isClean, empty⟩ | ⟨heq, isPoisoned⟩ <;> simp only [heq] at h
    · obtain ⟨threads, rfl, notifies⟩ := notifies_of_notifyOne h
      exact .take found tries yields notifies
    · obtain ⟨rfl, rfl⟩ := eq_none_of_quietly h
      exact .takeEmpty found tries isOpen isClean empty
    · obtain ⟨rfl, rfl⟩ := eq_none_of_quietly h
      exact .takeClosed found tries isClosed isClean empty
    · obtain ⟨rfl, rfl⟩ := eq_none_of_quietly h
      exact .takePoisoned found tries isPoisoned

/-- Every move is one of the transitions. -/
theorem transition_of_step {s t : Sharing α} (sound : s.queue.Sound) {move : Move α}
    (h : s.step move = some t) : Transition s move t := by
  cases move <;> simp only [step] at h
  case join =>
    cases h
    exact .join
  case call i c =>
    split at h <;> cases h
    exact .call ‹_›
  case close i =>
    split at h <;> cases h
    exact .close ‹_›
  case enter i wake =>
    split at h
    · obtain ⟨rfl, rfl⟩ := eq_none_of_quietly h
      exact .shut ‹_›
    · next phase _ found =>
      obtain ⟨c, tries, h⟩ := Option.bind_eq_some_iff.mp h
      exact transition_of_attempt sound found tries h
    · cases h
  case announce i =>
    split at h <;> cases h
    · exact .tellTakers ‹_›
    · exact .tellProducers ‹_›
  case leave i =>
    split at h <;> cases h
    exact .leave ‹_›
  case spurious i =>
    split at h <;> cases h
    exact .rouse ‹_›
  case poison =>
    cases h
    exact .poison

/-! ## Runs -/

/-- No move loses the order of the ring or changes the number of its slots. -/
theorem Transition.sound {s t : Sharing α} {move : Move α} (step : Transition s move t)
    (sound : s.queue.Sound) : t.queue.Sound ∧ t.queue.ring.capacity = s.queue.ring.capacity := by
  cases step with
  | put _ _ accepts _ => exact ⟨accepts.sound, accepts.capacity_eq⟩
  | take _ _ yields _ => exact ⟨yields.sound, yields.capacity_eq⟩
  | _ => exact ⟨sound, rfl⟩

/-- The states that threads reach at an empty queue with so many slots. -/
inductive Reachable (capacity : Nat) : Sharing α → Prop
  | start (threads : Nat) : Reachable capacity (.start capacity threads)
  | step {s t : Sharing α} {move : Move α} (before : Reachable capacity s)
      (h : s.step move = some t) : Reachable capacity t

namespace Reachable

variable {capacity : Nat} {s t : Sharing α}

theorem sound_and_capacity (h : Reachable capacity s) :
    s.queue.Sound ∧ s.queue.ring.capacity = capacity := by
  induction h with
  | start => exact ⟨Queue.sound_ofCapacity capacity, Ring.capacity_ofCapacity capacity⟩
  | step _ h ih =>
    obtain ⟨sound, hcap⟩ := (transition_of_step ih.1 h).sound ih.1
    exact ⟨sound, hcap.trans ih.2⟩

theorem sound (h : Reachable capacity s) : s.queue.Sound := h.sound_and_capacity.1

theorem capacity_eq (h : Reachable capacity s) : s.queue.ring.capacity = capacity :=
  h.sound_and_capacity.2

theorem transition (h : Reachable capacity s) {move : Move α} (hstep : s.step move = some t) :
    Transition s move t := transition_of_step h.sound hstep

/-- What holds at the start and is kept by every transition holds of every reachable state. -/
theorem invariant {P : Sharing α → Prop} (h : Reachable capacity s)
    (start : ∀ threads, P (.start capacity threads))
    (keep : ∀ {s move t}, Reachable capacity s → P s → Transition s move t → P t) : P s := by
  induction h with
  | start threads => exact start threads
  | step before h ih => exact keep before ih (before.transition h)

end Reachable

/-- What holds before the first move and is kept by every move holds after every run. -/
theorem run_induction {s : Sharing α} {motive : List (Move α) → Sharing α → Prop}
    (nil : motive [] s)
    (concat : ∀ {moves t move u}, s.run moves = some t → motive moves t → t.step move = some u →
      motive (moves ++ [move]) u) :
    ∀ {moves : List (Move α)} {t : Sharing α}, s.run moves = some t → motive moves t :=
  foldlM_induction nil concat

/-- Every state of a run that starts in a reachable state is reachable. -/
theorem Reachable.run {capacity : Nat} {s t : Sharing α} {moves : List (Move α)}
    (before : Reachable capacity s) (h : s.run moves = some t) : Reachable capacity t :=
  run_induction (motive := fun _ t => Reachable capacity t) before
    (fun _ reached hstep => reached.step hstep) h

end Sharing

end StaticHttp
