import StaticHttp.Proofs.Queue.Closing

/-!
# No wake-up is lost

An accepted item notifies one taker and a taken item one producer, never all of them. That is
enough: while the queue is open, whenever a taker waits un-notified there are at least as many
notified takers on their way as there are items, and whenever a producer waits un-notified there are
at least as many notified producers on their way as there are free slots (`Wakeful`). A fresh caller
that overtakes a notified thread takes away the item or the slot as well, and a notified thread that
parks again has found nothing; a thread that is roused for no reason is not counted among the
notified.

When no thread can go on, nobody is on the way, so that a waiting taker faces an empty ring and a
waiting producer a full one (`no_wakeUp_lost`).
-/

namespace StaticHttp

namespace Phase

variable {α : Type}

theorem isNotified_of_trying? {p : Phase α} {c : Call α} (tries : p.trying? = some c)
    (who : Call α → Bool) : (p.isNotified who).toNat ≤ (who c).toNat := by
  rcases trying?_eq_some_iff.mp tries with rfl | rfl | rfl
  · exact Nat.zero_le _
  · exact Nat.le_refl _
  · exact Nat.zero_le _

end Phase

namespace Sharing

variable {α : Type}

/-- If a thread waits un-notified in such a call, at least so many were notified and are on their
way. -/
def Covered (who : Call α → Bool) (supply : Nat) (threads : List (Phase α)) : Prop :=
  0 < threads.countP (·.isParked who) → supply ≤ threads.countP (·.isNotified who)

/-- Takers are covered for the items, and producers for the free slots. -/
structure Wakeful (s : Sharing α) : Prop where
  takers : Covered Call.isTake s.queue.toList.length s.threads
  producers : Covered Call.isPut (s.queue.ring.capacity - s.queue.toList.length) s.threads

namespace Covered

variable {who : Call α → Bool} {supply : Nat} {threads after : List (Phase α)}

theorem zero : Covered who 0 threads := fun _ => Nat.zero_le _

/-- A thread changes its phase and does not wait; with it goes what it was notified for. -/
theorem set {i n : Nat} {a b : Phase α} (h : Covered who supply threads)
    (found : threads[i]? = some a) (noPark : b.isParked who = false)
    (lost : (a.isNotified who).toNat ≤ n) : Covered who (supply - n) (threads.set i b) := by
  intro waits
  have hparked := countP_set (b := b) (·.isParked who) found rfl noPark
  have hnotified := countP_set (b := b) (·.isNotified who) found rfl rfl
  simp only [Bool.toNat_false] at hparked
  have := h (by omega)
  omega

/-- A notification covers one more. -/
theorem notify {wake : Option Nat} (h : Covered who supply threads)
    (notifies : Notifies who threads wake after) : Covered who (supply + 1) after := by
  intro waits
  cases notifies with
  | nobody free => exact absurd free (Nat.pos_iff_ne_zero.mp waits)
  | @one j c found fits =>
    have hparked := countP_set (b := .notified c) (y := false) (·.isParked who) found fits rfl
    have hnotified := countP_set (b := .notified c) (x := false) (·.isNotified who) found rfl fits
    simp only [Bool.toNat_false, Bool.toNat_true] at hparked hnotified
    have := h (by omega)
    omega

/-- A notification in calls of the other kind covers as many as before. -/
theorem notify_other {other : Call α → Bool} {wake : Option Nat} (h : Covered who supply threads)
    (notifies : Notifies other threads wake after) : Covered who supply after := by
  cases notifies with
  | nobody => exact h
  | one found => exact h.set found rfl (Nat.le_refl 0)

end Covered

/-- No move of an open queue loses a wake-up. -/
theorem Transition.wakeful {capacity : Nat} {s t : Sharing α} {move : Move α}
    (step : Transition s move t) (reached : Reachable capacity s)
    (isOpen : t.queue.closed = false) (isClean : t.queue.poisoned = false) (w : s.Wakeful) :
    t.Wakeful := by
  obtain ⟨takers, producers⟩ := w
  have noAnnouncing : ∀ {i : Nat} {takersTold poisoned : Bool},
      s.threads[i]? = some (.announcing takersTold poisoned) → t.Wakeful := fun found => by
    have isClosed := reached.closed_of_announcing (List.mem_of_getElem? found)
    exact absurd ((step.closed_mono isClosed).symm.trans isOpen) Bool.noConfusion
  cases step with
  | join =>
    refine ⟨?_, ?_⟩
    · unfold Covered
      rw [List.countP_append, List.countP_append]
      exact takers
    · unfold Covered
      rw [List.countP_append, List.countP_append]
      exact producers
  | call found | close found | leave found | rouse found =>
    exact ⟨takers.set found rfl (Nat.le_refl 0), producers.set found rfl (Nat.le_refl 0)⟩
  | put found tries accepts notifies =>
    have hlen := congrArg List.length accepts.toList_eq
    rw [List.length_append, List.length_singleton] at hlen
    have htake := takers.set (b := .answered .done) found rfl
      (Phase.isNotified_of_trying? tries _)
    have hput := producers.set (b := .answered .done) found rfl
      (Phase.isNotified_of_trying? tries _)
    refine ⟨?_, ?_⟩
    -- One more item and one more notified taker; the slot is gone, and with it the producer.
    · rw [hlen]
      exact htake.notify notifies
    · rw [hlen, accepts.capacity_eq, ← Nat.sub_sub]
      exact hput.notify_other notifies
  | putFull found tries _ _ full =>
    refine ⟨takers.set found rfl (Phase.isNotified_of_trying? tries _), ?_⟩
    show Covered _ (s.queue.ring.capacity - s.queue.toList.length) _
    rw [full, Nat.sub_self]
    exact .zero
  | putRefused _ _ refused =>
    rcases refused with isClosed | isPoisoned
    · exact absurd (isClosed.symm.trans isOpen) Bool.noConfusion
    · exact absurd (isPoisoned.symm.trans isClean) Bool.noConfusion
  | @take i _ _ item queue _ found tries yields notifies =>
    have hlen := congrArg List.length yields.toList_eq
    rw [List.length_cons] at hlen
    have hle := reached.sound.length_le
    have htake := takers.set (b := .answered (.item item)) found rfl
      (Phase.isNotified_of_trying? tries _)
    have hput := producers.set (b := .answered (.item item)) found rfl
      (Phase.isNotified_of_trying? tries _)
    refine ⟨?_, ?_⟩
    · rw [hlen] at htake
      exact htake.notify_other notifies
    · have hfree : s.queue.ring.capacity - queue.toList.length =
          s.queue.ring.capacity - s.queue.toList.length - 0 + 1 := by omega
      rw [yields.capacity_eq, hfree]
      exact hput.notify notifies
  | takeEmpty found tries _ _ empty =>
    refine ⟨?_, producers.set found rfl (Phase.isNotified_of_trying? tries _)⟩
    show Covered _ s.queue.toList.length _
    rw [empty]
    exact .zero
  | takeClosed found tries isClosed =>
    exact absurd (isClosed.symm.trans isOpen) Bool.noConfusion
  | takePoisoned _ _ isPoisoned =>
    exact absurd (isPoisoned.symm.trans isClean) Bool.noConfusion
  | shut => exact absurd isOpen Bool.noConfusion
  | tellTakers found | tellProducers found => exact noAnnouncing found
  | poison => exact absurd isClean Bool.noConfusion

theorem Reachable.wakeful {capacity : Nat} {s : Sharing α} (h : Reachable capacity s)
    (isOpen : s.queue.closed = false) (isClean : s.queue.poisoned = false) : s.Wakeful := by
  revert isOpen isClean
  refine h.invariant (P := fun s => s.queue.closed = false → s.queue.poisoned = false → s.Wakeful)
    (fun threads _ _ => ?_) fun reached ih step isOpen isClean => ?_
  · have free : ∀ who, ¬ 0 < (List.replicate threads (Phase.idle : Phase α)).countP
        (·.isParked who) := fun who => by
      rw [List.countP_replicate]
      exact Nat.lt_irrefl 0
    exact ⟨fun waits => absurd waits (free _), fun waits => absurd waits (free _)⟩
  · refine step.wakeful reached isOpen isClean (ih ?_ ?_)
    · exact Bool.eq_false_of_not_eq_true fun h =>
        absurd ((step.closed_mono h).symm.trans isOpen) Bool.noConfusion
    · exact Bool.eq_false_of_not_eq_true fun h =>
        absurd ((step.poisoned_mono h).symm.trans isClean) Bool.noConfusion

/-! ## When no thread can go on -/

/-- No thread can go on inside its call; only a parked one might be roused for no reason. -/
def Stuck (s : Sharing α) : Prop :=
  ∀ i wake, s.step (.enter i wake) = none ∧ s.step (.announce i) = none

theorem exists_notifyOne (s : Sharing α) (who : Call α → Bool) :
    ∃ wake t, s.notifyOne who wake = some t := by
  cases free : s.threads.any (·.isParked who) with
  | false => exact ⟨none, s, by simp only [notifyOne, free, Bool.false_eq_true, if_false]⟩
  | true =>
    obtain ⟨p, hp, waits⟩ := List.any_eq_true.mp free
    obtain ⟨j, found⟩ := List.getElem?_of_mem hp
    cases p with
    | parked c =>
      have fits : who c = true := waits
      exact ⟨some j, _, by simp only [notifyOne, found, fits, if_true]; rfl⟩
    | _ => cases waits

/-- A try can always be made, if it notifies the right thread. -/
theorem exists_attempt (s : Sharing α) (i : Nat) (c : Call α) :
    ∃ wake t, s.attempt i wake c = some t := by
  cases c with
  | put item =>
    rcases heq : s.queue.offer item with ⟨offer, queue⟩
    cases offer <;> simp only [attempt, heq]
    · exact exists_notifyOne _ _
    all_goals exact ⟨none, _, rfl⟩
  | take =>
    rcases heq : s.queue.take with ⟨take, queue⟩
    cases take <;> simp only [attempt, heq]
    · exact exists_notifyOne _ _
    all_goals exact ⟨none, _, rfl⟩

theorem step_enter {s : Sharing α} {i : Nat} {p : Phase α} {c : Call α}
    (found : s.threads[i]? = some p) (tries : p.trying? = some c) (wake : Option Nat) :
    s.step (.enter i wake) = s.attempt i wake c := by
  rcases Phase.trying?_eq_some_iff.mp tries with rfl | rfl | rfl <;>
    simp only [step, found, Phase.trying?, Option.bind_some]

/-- No notified thread is stuck. -/
theorem Stuck.notified_eq_zero {s : Sharing α} (stuck : s.Stuck) (who : Call α → Bool) :
    s.notified who = 0 := by
  apply List.countP_eq_zero.mpr
  intro p hp onTheWay
  obtain ⟨i, found⟩ := List.getElem?_of_mem hp
  cases p with
  | notified c =>
    obtain ⟨wake, t, h⟩ := exists_attempt s i c
    rw [← step_enter found rfl, (stuck i wake).1] at h
    cases h
  | _ => cases onTheWay

/-- Before the queue is closed no wake-up is lost: if a taker waits un-notified, there are at most
as many items as notified takers that have not resumed; if a producer waits un-notified, there are
at most as many free slots as notified producers that have not resumed. So if no thread can go on, a
taker waits only at an empty ring and a producer only at a full one, and never both. -/
theorem no_wakeUp_lost {capacity threads : Nat} (positive : 0 < capacity) {moves : List (Move α)}
    {s : Sharing α} (h : (start capacity threads).run moves = some s)
    (isOpen : s.queue.closed = false) (isClean : s.queue.poisoned = false) :
    (0 < s.parked Call.isTake → s.queue.toList.length ≤ s.notified Call.isTake) ∧
    (0 < s.parked Call.isPut → capacity - s.queue.toList.length ≤ s.notified Call.isPut) ∧
    (s.Stuck →
      (0 < s.parked Call.isTake → s.queue.toList = []) ∧
      (0 < s.parked Call.isPut → s.queue.toList.length = capacity) ∧
      ¬ (0 < s.parked Call.isTake ∧ 0 < s.parked Call.isPut)) := by
  have reached : Reachable capacity s := (Reachable.start threads).run h
  obtain ⟨takers, producers⟩ := reached.wakeful isOpen isClean
  have hle := reached.sound.length_le
  rw [reached.capacity_eq] at producers hle
  refine ⟨takers, producers, fun stuck => ?_⟩
  have empty : 0 < s.parked Call.isTake → s.queue.toList.length = 0 := fun waits =>
    Nat.le_zero.mp (stuck.notified_eq_zero Call.isTake ▸ takers waits)
  have full : 0 < s.parked Call.isPut → s.queue.toList.length = capacity := fun waits => by
    have : capacity - s.queue.toList.length ≤ s.notified Call.isPut := producers waits
    rw [stuck.notified_eq_zero] at this
    omega
  refine ⟨fun waits => List.eq_nil_of_length_eq_zero (empty waits), full, fun both => ?_⟩
  have := empty both.1
  have := full both.2
  omega

/-- Two takers wait, and one item notifies the first of them. -/
theorem no_wakeUp_lost_two_takers :
    ∃ s : Sharing Nat, (start 1 3).run
        [.call 0 .take, .enter 0 none, .call 1 .take, .enter 1 none, .call 2 (.put 7),
          .enter 2 (some 0)] = some s ∧
      s.parked Call.isTake = 1 ∧ s.queue.toList = [7] ∧
      s.queue.toList.length ≤ s.notified Call.isTake := by
  have h : (start 1 3 : Sharing Nat).run
      [.call 0 .take, .enter 0 none, .call 1 .take, .enter 1 none, .call 2 (.put 7),
        .enter 2 (some 0)] =
      some ⟨⟨⟨#[some 7], 0, 0, 1⟩, false, false⟩,
        [.notified .take, .parked .take, .answered .done], [7], [], []⟩ := rfl
  exact ⟨_, h, rfl, rfl, (no_wakeUp_lost Nat.one_pos h rfl rfl).1 Nat.one_pos⟩

end Sharing

end StaticHttp
