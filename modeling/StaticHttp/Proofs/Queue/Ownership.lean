import StaticHttp.Queue.Ownership
import StaticHttp.Proofs.Queue.Order

/-!
# The life of a queue

A queue has owners from its making to its end, and the holders of a handle do three things with it:
take one handle more, let one go, or give one up to take the queue apart. Threads put, take and
close meanwhile, in any order: a call takes a handle along and brings it back, so that whoever is
blocked in a call is an owner. `Ownership.step` is one of all these moves.

As long as there is an owner the queue is one that threads share, with all that holds of such a
queue, and nothing has been freed (`Kept`); the move that gives the last handle up ends it.
`life_of_run` puts together what becomes of the owners, of an attempt to take the queue apart, and
of the items. The fixed schedule of `Ownership.perform` is one of these runs
(`exists_run_perform`).
-/

namespace StaticHttp

/-! ## Emptying a ring -/

namespace Ring

variable {α : Type}

theorem length_pop?_lt {r after : Ring α} {item : α} (h : r.pop? = (some item, after)) :
    after.length < r.length := by
  unfold pop? at h
  split at h
  · cases h
  · next filled =>
    have nonempty : r.length ≠ 0 := fun empty => filled (beq_iff_eq.mpr empty)
    obtain ⟨_, rfl⟩ := Prod.mk.inj h
    exact Nat.sub_one_lt nonempty

/-- What comes out of a ring from which items are taken until there is none. -/
def popAll (r : Ring α) : List α :=
  match h : r.pop? with
  | (none, _) => []
  | (some item, after) =>
    have := length_pop?_lt h
    item :: popAll after
termination_by r.length

/-- All items come out, oldest first. -/
theorem Holds.popAll_eq {r : Ring α} {items : List α} (h : r.Holds items) : r.popAll = items := by
  induction items generalizing r with
  | nil =>
    rw [popAll]
    split
    · rfl
    · next popped => cases popped.symm.trans h.pop?_nil
  | cons item items ih =>
    obtain ⟨after, popped, holds, _⟩ := h.pop?_cons
    rw [popAll]
    split
    · next none => cases none.symm.trans popped
    · next some =>
      cases some.symm.trans popped
      rw [ih holds]

end Ring

/-! ## Threads inside a call -/

/-- The move begins a call. -/
def Move.begins {α : Type} : Move α → Bool
  | .call .. | .close _ => true
  | _ => false

namespace Sharing

variable {α : Type} {s t : Sharing α} {move : Move α}

/-- The number of threads inside a call. -/
def busy (s : Sharing α) : Nat := s.threads.countP (·.isBusy)

theorem isBusy_of_trying? {p : Phase α} {c : Call α} (tries : p.trying? = some c) :
    p.isBusy = true := by
  rcases Phase.trying?_eq_some_iff.mp tries with rfl | rfl | rfl <;> rfl

/-- A thread that was inside its call is the only one that may be outside it now. -/
private theorem countP_set_le {threads : List (Phase α)} {i : Nat} {a b : Phase α}
    (found : threads[i]? = some a) (inside : a.isBusy = true) :
    (threads.set i b).countP (·.isBusy) ≤ threads.countP (·.isBusy) := by
  have := countP_set (b := b) (·.isBusy) found inside rfl
  have := Bool.toNat_le b.isBusy
  rw [Bool.toNat_true] at *
  omega

private theorem countP_notifies {who : Call α → Bool} {threads after : List (Phase α)}
    {wake : Option Nat} (notifies : Notifies who threads wake after) :
    after.countP (·.isBusy) = threads.countP (·.isBusy) := by
  rw [← total_eq_countP, ← total_eq_countP]
  exact notifies.total_eq _ fun _ => rfl

private theorem countP_wake_isBusy (who : Call α → Bool) (threads : List (Phase α)) :
    (threads.map (·.wake who)).countP (·.isBusy) = threads.countP (·.isBusy) := by
  rw [← total_eq_countP, ← total_eq_countP]
  exact total_wake who threads fun _ => rfl

/-- A thread gets into a call by the move that begins the call. -/
theorem Transition.busy_le (step : Transition s move t) :
    t.busy ≤ s.busy + move.begins.toNat := by
  unfold busy
  cases step with
  | join => simp [Phase.isBusy]
  | @call _ c found =>
    exact Nat.le_of_eq (countP_set (b := Phase.entering c) Phase.isBusy found rfl rfl)
  | close found => exact Nat.le_of_eq (countP_set (b := Phase.closing) Phase.isBusy found rfl rfl)
  | put found tries _ notifies | take found tries _ notifies =>
    rw [countP_notifies notifies]
    exact countP_set_le found (isBusy_of_trying? tries)
  | putFull found tries | putRefused found tries | takeEmpty found tries
  | takeClosed found tries | takePoisoned found tries =>
    exact countP_set_le found (isBusy_of_trying? tries)
  | shut found | rouse found => exact countP_set_le found rfl
  | tellTakers found | tellProducers found =>
    exact (countP_set_le (get_wake _ found) rfl).trans (Nat.le_of_eq (countP_wake_isBusy _ _))
  | leave found => exact Nat.le_of_eq (countP_set (b := Phase.idle) Phase.isBusy found rfl rfl)
  | poison => exact Nat.le_refl _

/-- Of a queue with no thread inside a call, no move changes the items. -/
theorem Transition.items_eq_of_idle (step : Transition s move t) (before : s.busy = 0)
    (after : t.busy = 0) :
    t.queue.toList = s.queue.toList ∧ t.accepted = s.accepted ∧ t.delivered = s.delivered := by
  have outside : ∀ {i : Nat} {p : Phase α}, s.threads[i]? = some p → p.isBusy = false :=
    fun found => Bool.eq_false_iff.mpr
      (List.countP_eq_zero.mp before _ (List.mem_of_getElem? found))
  cases step with
  | put found tries | take found tries =>
    cases (outside found).symm.trans (isBusy_of_trying? tries)
  | _ => exact ⟨rfl, rfl, rfl⟩

end Sharing

/-! ## Moves -/

/-- What somebody does who has to do with a queue. -/
inductive OwnerMove (α : Type)
  /-- A holder takes one handle more. -/
  | hold
  | release
  /-- A holder gives a handle up to take the queue apart. -/
  | destroy
  /-- A thread moves at the queue. -/
  | work (move : Move α)

namespace OwnerMove

variable {α : Type}

def holds : OwnerMove α → Bool
  | hold => true
  | _ => false

/-- The move gives a handle up. -/
def givesUp : OwnerMove α → Bool
  | release | destroy => true
  | _ => false

end OwnerMove

namespace Ownership

variable {α : Type} {o p : Ownership α} {move : OwnerMove α} {moves : List (OwnerMove α)}

/-- One move; there is no answer if it cannot be made. A call takes a handle along and brings it
back, so that a thread never changes the number of owners. -/
def step (o : Ownership α) : OwnerMove α → Option (Ownership α)
  | .hold => if o.handles = 0 then none else some { o with handles := o.handles + 1 }
  | .release => if o.handles = 0 then none else some o.release
  | .destroy => if o.handles = 0 then none else some o.destroy.2
  | .work move =>
    (o.sharing.step move).bind fun sharing =>
      if o.owners < sharing.busy then none
      else some { o with sharing, handles := o.owners - sharing.busy }

/-- Moves one after the other; there is no answer if one of them cannot be made. -/
def run (o : Ownership α) (moves : List (OwnerMove α)) : Option (Ownership α) := moves.foldlM step o

theorem run_cons (h : o.step move = some p) : o.run (move :: moves) = p.run moves := by
  simp only [run, List.foldlM_cons, h, Option.bind_eq_bind, Option.bind_some]

theorem owners_eq (o : Ownership α) : o.owners = o.handles + o.sharing.busy := rfl

/-- One owner less, and nothing else. -/
theorem release_of_shared (shared : o.owners ≠ 1) (held : o.handles ≠ 0) :
    o.release = { o with handles := o.handles - 1 } := by
  have := o.owners_eq
  refine if_neg fun none => ?_
  simp only [owners_eq] at none
  omega

/-- The last owner frees the queue with what it holds. -/
theorem release_of_sole (sole : o.owners = 1) (held : o.handles ≠ 0) :
    o.release = { o with
      handles := 0
      freed := o.freed ++ o.sharing.queue.toList
      sharing := { o.sharing with queue := emptied o.sharing.queue } } := by
  have := o.owners_eq
  have last : o.handles = 1 := by omega
  have left : ({ o with handles := 0 } : Ownership α).owners = 0 := by
    simp only [owners_eq]
    omega
  simp only [release, last, Nat.sub_self, if_pos left]

theorem owners_release (held : o.handles ≠ 0) : o.release.owners + 1 = o.owners := by
  have := o.owners_eq
  by_cases sole : o.owners = 1
  · rw [release_of_sole sole held]
    show 0 + o.sharing.busy + 1 = o.owners
    omega
  · rw [release_of_shared sole held]
    show o.handles - 1 + o.sharing.busy + 1 = o.owners
    omega

theorem step_hold (held : o.handles ≠ 0) :
    o.step .hold = some { o with handles := o.handles + 1 } := if_neg held

theorem step_release (held : o.handles ≠ 0) : o.step .release = some o.release := if_neg held

theorem step_destroy (held : o.handles ≠ 0) : o.step .destroy = some o.destroy.2 := if_neg held

/-- What a move of a thread does. -/
theorem work_of_step {m : Move α} (h : o.step (.work m) = some p) :
    o.sharing.step m = some p.sharing ∧ p.owners = o.owners ∧ p.freed = o.freed := by
  obtain ⟨sharing, moved, h⟩ := Option.bind_eq_some_iff.mp h
  split at h
  · cases h
  · next enough =>
    cases h
    exact ⟨moved, Nat.sub_add_cancel (Nat.le_of_not_lt enough), rfl⟩

/-- Whoever gives a handle up lets it go, whatever else comes of it. -/
theorem eq_release_of_step (h : o.step move = some p) (gives : move.givesUp = true) :
    o.handles ≠ 0 ∧ p = o.release := by
  cases move with
  | hold | work => cases gives
  | release | destroy =>
    simp only [step] at h
    split at h <;> cases h
    exact ⟨‹_›, rfl⟩

/-- Owners come with handles that are taken, and go with handles that are given up. -/
theorem owners_of_step (h : o.step move = some p) :
    p.owners + move.givesUp.toNat = o.owners + move.holds.toNat := by
  cases move with
  | hold =>
    simp only [step] at h
    split at h <;> cases h
    simp only [owners_eq, OwnerMove.givesUp, OwnerMove.holds, Bool.toNat_false, Bool.toNat_true]
    omega
  | release | destroy =>
    obtain ⟨held, rfl⟩ := eq_release_of_step h rfl
    exact owners_release held
  | work m => exact (work_of_step h).2.1

/-- A move that gives no handle up neither frees anything nor ends the queue. -/
theorem keeps_of_step (h : o.step move = some p) (keeps : move.givesUp = false) :
    p.freed = o.freed ∧ (p.owners = 0 ↔ o.owners = 0) := by
  cases move with
  | release | destroy => cases keeps
  | work m =>
    obtain ⟨_, same, freed⟩ := work_of_step h
    exact ⟨freed, by rw [same]⟩
  | hold =>
    simp only [step] at h
    split at h <;> cases h
    refine ⟨rfl, fun none => ?_, fun none => ?_⟩ <;> simp only [owners_eq] at none ⊢ <;> omega

/-! ## The queue while it has owners, and afterwards -/

/-- What holds of a queue after every run: as long as it has an owner, threads share it and nothing
has been freed; without one it holds nothing. -/
structure Kept (capacity : Nat) (o : Ownership α) : Prop where
  sound : o.sharing.queue.Sound
  alive : 0 < o.owners → Sharing.Reachable capacity o.sharing ∧ o.freed = []
  gone : o.owners = 0 → o.sharing.queue.toList = []
  items : o.sharing.delivered ++ o.freed ++ o.sharing.queue.toList = o.sharing.accepted

theorem kept_start (capacity : Nat) : Kept capacity (start capacity : Ownership α) where
  sound := Queue.sound_ofCapacity capacity
  alive _ := ⟨.start 0, rfl⟩
  gone := nofun
  items := Queue.toList_ofCapacity capacity

theorem toList_emptied (q : Queue α) : (emptied q).toList = [] :=
  Queue.toList_ofCapacity q.ring.capacity

theorem sound_emptied (q : Queue α) : (emptied q).Sound :=
  Queue.sound_ofCapacity q.ring.capacity

namespace Kept

variable {capacity : Nat}

theorem release (kept : o.Kept capacity) (held : o.handles ≠ 0) : o.release.Kept capacity := by
  have := o.owners_eq
  have left := owners_release held
  by_cases sole : o.owners = 1
  · rw [release_of_sole sole held] at left ⊢
    refine ⟨sound_emptied _, fun more => ?_, fun _ => toList_emptied _, ?_⟩
    · omega
    · show o.sharing.delivered ++ (o.freed ++ _) ++ (emptied _).toList = o.sharing.accepted
      rw [toList_emptied, List.append_nil, ← List.append_assoc]
      exact kept.items
  · rw [release_of_shared sole held] at left ⊢
    refine ⟨kept.sound, fun _ => kept.alive (by omega), fun none => ?_, kept.items⟩
    omega

theorem step (kept : o.Kept capacity) (h : o.step move = some p) : p.Kept capacity := by
  cases move with
  | hold =>
    simp only [Ownership.step] at h
    split at h <;> cases h
    next held =>
    refine ⟨kept.sound, fun _ => kept.alive ?_, fun none => ?_, kept.items⟩
    · exact Nat.lt_of_lt_of_le (Nat.pos_of_ne_zero held) (Nat.le_add_right _ _)
    · simp only [owners_eq] at none
      omega
  | release | destroy =>
    obtain ⟨held, rfl⟩ := eq_release_of_step h rfl
    exact kept.release held
  | work m =>
    obtain ⟨moved, same, freed⟩ := work_of_step h
    have transition := Sharing.transition_of_step kept.sound moved
    refine ⟨(transition.sound kept.sound).1, fun owned => ?_, fun none => ?_, ?_⟩
    · obtain ⟨reached, nothing⟩ := kept.alive (same ▸ owned)
      exact ⟨reached.step moved, freed.trans nothing⟩
    · have hp := p.owners_eq
      have ho := o.owners_eq
      obtain ⟨items, -⟩ := transition.items_eq_of_idle (by omega) (by omega)
      exact items.trans (kept.gone (same.symm.trans none))
    · rw [freed]
      by_cases owned : 0 < o.owners
      · obtain ⟨reached, nothing⟩ := kept.alive owned
        rw [nothing, List.append_nil]
        exact (reached.step moved).ordered
      · have hp := p.owners_eq
        have ho := o.owners_eq
        obtain ⟨items, accepted, delivered⟩ :=
          transition.items_eq_of_idle (by omega) (by omega)
        rw [items, accepted, delivered]
        exact kept.items

end Kept

/-! ## Runs -/

/-- What holds before the first move and is kept by every move holds after every run. -/
theorem kept_of_run {capacity : Nat} (h : (start capacity).run moves = some o) : o.Kept capacity :=
  foldlM_induction (motive := fun _ o => o.Kept capacity) (kept_start capacity)
    (fun _ kept hstep => kept.step hstep) h

/-- Owners are counted by the handles that were taken and given up. -/
theorem owners_of_run {capacity : Nat} (h : (start capacity).run moves = some o) :
    o.owners + moves.countP (·.givesUp) = 1 + moves.countP (·.holds) := by
  refine foldlM_induction (motive := fun moves o =>
    o.owners + moves.countP (·.givesUp) = 1 + moves.countP (·.holds)) rfl ?_ h
  intro moves o move p _ ih hstep
  have := owners_of_step hstep
  simp only [← total_eq_countP, total_append, total_cons, total_nil] at ih ⊢
  omega

/-! ## Taking a queue apart -/

/-- What giving a handle up to take the queue apart comes to. The last owner is told how many items
came out, which are those that were accepted and not delivered; any other is told how many owners
there were, itself included, and leaves all but their number as it is. -/
structure TakesApart (o : Ownership α) : Prop where
  ok_iff : (∃ count, o.destroy.1 = .ok count) ↔ o.owners = 1
  sole : o.owners = 1 →
    o.destroy.1 = .ok o.sharing.queue.ring.popAll.length ∧
    o.sharing.delivered ++ o.sharing.queue.ring.popAll = o.sharing.accepted ∧
    o.destroy.2.owners = 0 ∧ o.destroy.2.freed = o.sharing.queue.ring.popAll
  shared : o.owners ≠ 1 →
    o.destroy.1 = .error (.inUse o.owners) ∧ o.destroy.2.sharing = o.sharing ∧
    o.destroy.2.freed = o.freed ∧ o.destroy.2.owners + 1 = o.owners

theorem destroy_of_shared (shared : o.owners ≠ 1) : o.destroy.1 = .error (.inUse o.owners) :=
  if_pos shared

theorem destroy_of_sole (sole : o.owners = 1) (isClean : o.sharing.queue.poisoned = false) :
    o.destroy.1 = .ok o.sharing.queue.ring.length := by
  simp only [destroy, Queue.destroy, sole, isClean, ne_eq, not_true_eq_false, if_false,
    Bool.false_eq_true]

theorem Kept.takes_apart {capacity : Nat} (kept : o.Kept capacity) (held : o.handles ≠ 0)
    (isClean : o.sharing.queue.poisoned = false) : o.TakesApart where
  ok_iff := by
    by_cases sole : o.owners = 1
    · exact ⟨fun _ => sole, fun _ => ⟨_, destroy_of_sole sole isClean⟩⟩
    · rw [destroy_of_shared sole]
      exact ⟨nofun, fun h => absurd h sole⟩
  sole sole := by
    have emptied : o.sharing.queue.ring.popAll = o.sharing.queue.toList :=
      Ring.Holds.popAll_eq kept.sound
    obtain ⟨reached, nothing⟩ := kept.alive (by omega)
    have last := owners_release held
    rw [emptied, destroy_of_sole sole isClean, kept.sound.length_eq]
    refine ⟨rfl, reached.ordered, Nat.succ.inj (last.trans sole), ?_⟩
    show o.release.freed = _
    rw [release_of_sole sole held, nothing]
    rfl
  shared shared := by
    refine ⟨destroy_of_shared shared, ?_, ?_, owners_release held⟩
    · show o.release.sharing = _
      rw [release_of_shared shared held]
    · show o.release.freed = _
      rw [release_of_shared shared held]

/-! ## The end of a queue -/

/-- The number of items that a move takes the queue apart with. -/
def discarded? (o : Ownership α) : OwnerMove α → Option Nat
  | .destroy => o.destroy.1.toOption
  | _ => none

/-- The numbers of items with which the queue was taken apart, in order. -/
def discards (o : Ownership α) (moves : List (OwnerMove α)) : List Nat :=
  observed step discarded? o moves

/-- A run has a move with which the last owner let go. -/
structure Ended (origin : Ownership α) (before : List (OwnerMove α)) (last : OwnerMove α)
    (moment : Ownership α) (moves : List (OwnerMove α)) (o : Ownership α) : Prop where
  reached : origin.run before = some moment
  sole : moment.owners = 1
  givesUp : last.givesUp = true
  freed_eq : o.freed = moment.sharing.queue.toList
  discards_eq : origin.discards moves = (moment.discarded? last).toList

theorem discarded?_of_shared (shared : o.owners ≠ 1) (move : OwnerMove α) :
    o.discarded? move = none := by
  cases move with
  | destroy => rw [discarded?, destroy_of_shared shared, Except.toOption]
  | hold | release | work => rfl

/-- Nothing is taken apart while the queue has owners, and it ends with the last one. -/
theorem ended_of_run {capacity : Nat} (h : (start capacity).run moves = some o) :
    (0 < o.owners → (start capacity).discards moves = []) ∧
    (o.owners = 0 → ∃ before last after moment, moves = before ++ last :: after ∧
      Ended (start capacity) before last moment moves o) := by
  refine foldlM_induction (motive := fun moves o =>
    (0 < o.owners → (start capacity).discards moves = []) ∧
    (o.owners = 0 → ∃ before last after moment, moves = before ++ last :: after ∧
      Ended (start capacity) before last moment moves o)) ?_ ?_ h
  · exact ⟨fun _ => rfl, fun none => absurd none Nat.one_ne_zero⟩
  intro moves o move p hrun ⟨alive, gone⟩ hstep
  have more : (start capacity).discards (moves ++ [move]) =
      (start capacity).discards moves ++ (o.discarded? move).toList :=
    observed_concat discarded? hrun hstep
  by_cases gives : move.givesUp = true
  · obtain ⟨held, rfl⟩ := eq_release_of_step hstep gives
    have left := owners_release held
    have owned : 0 < o.owners := by omega
    rw [alive owned, List.nil_append] at more
    by_cases sole : o.owners = 1
    · refine ⟨fun _ => by omega, fun _ => ⟨moves, move, [], o, rfl, hrun, sole, gives, ?_, more⟩⟩
      rw [release_of_sole sole held, ((kept_of_run hrun).alive owned).2]
      rfl
    · rw [discarded?_of_shared sole move] at more
      exact ⟨fun _ => more, fun none => by omega⟩
  · obtain ⟨freed, owners⟩ := keeps_of_step hstep (Bool.eq_false_of_not_eq_true gives)
    have quiet : o.discarded? move = none := by
      cases move with
      | destroy => exact absurd rfl gives
      | hold | release | work => rfl
    rw [quiet, Option.toList_none, List.append_nil] at more
    refine ⟨fun owned => more.trans (alive ?_), fun none => ?_⟩
    · exact Nat.pos_of_ne_zero fun none => Nat.ne_of_gt owned (owners.mpr none)
    · obtain ⟨before, last, after, moment, rfl, ended⟩ := gone (owners.mp none)
      refine ⟨before, last, after ++ [move], moment, List.append_assoc .., ?_⟩
      exact { ended with
        freed_eq := freed.trans ended.freed_eq
        discards_eq := more.trans ended.discards_eq }

/-- What a run has made of a queue, of its owners and of its items. -/
structure Life (capacity : Nat) (moves : List (OwnerMove α)) (o : Ownership α) : Prop where
  /-- There are as many owners as handles were taken and not given up, blocked calls included. -/
  owners_eq : o.owners + moves.countP (·.givesUp) = 1 + moves.countP (·.holds)
  takes_apart : o.handles ≠ 0 → o.sharing.queue.poisoned = false → o.TakesApart
  /-- Every item that was accepted is delivered, freed, or still there. -/
  items : o.sharing.delivered ++ o.freed ++ o.sharing.queue.toList = o.sharing.accepted
  alive : 0 < o.owners → o.freed = [] ∧ (start capacity).discards moves = []
  /-- Without an owner nothing is left. What the queue still held when its last owner let go was
  freed then, and was counted if that owner took the queue apart. -/
  gone : o.owners = 0 → o.sharing.queue.toList = [] ∧
    ∃ before last after moment, moves = before ++ last :: after ∧
      (start capacity).run before = some moment ∧ moment.owners = 1 ∧
      o.freed = moment.sharing.queue.toList ∧
      (last = .release ∧ (start capacity).discards moves = [] ∨
        last = .destroy ∧ (moment.sharing.queue.poisoned = false →
          (start capacity).discards moves = [o.freed.length]))

/-- However owners come and go, and whatever the threads do meanwhile: a queue is taken apart by its
last owner alone, who is told how many items were accepted and not delivered; whoever tries before
is told the number of owners and changes nothing but that number; and in the end every item that was
accepted was either delivered or went with the queue. -/
theorem life_of_run {capacity : Nat} (h : (start capacity).run moves = some o) :
    o.Life capacity moves := by
  have kept := kept_of_run h
  obtain ⟨alive, gone⟩ := ended_of_run h
  refine ⟨owners_of_run h, kept.takes_apart, kept.items,
    fun owned => ⟨(kept.alive owned).2, alive owned⟩, fun none => ⟨kept.gone none, ?_⟩⟩
  obtain ⟨before, last, after, moment, split, ended⟩ := gone none
  refine ⟨before, last, after, moment, split, ended.reached, ended.sole, ended.freed_eq, ?_⟩
  rw [ended.discards_eq, ended.freed_eq]
  cases last with
  | hold | work => cases ended.givesUp
  | release => exact .inl ⟨rfl, rfl⟩
  | destroy =>
    refine .inr ⟨rfl, fun isClean => ?_⟩
    rw [discarded?, destroy_of_sole ended.sole isClean, (kept_of_run ended.reached).sound.length_eq]
    rfl

/-- A producer is blocked at a full queue of one slot, and owns it: the queue cannot be taken apart
until it is closed, the producer is back with its item dropped, and one owner is left. -/
theorem life_of_run_blocked_producer :
    let moves : List (OwnerMove Nat) :=
      [.hold, .hold, .work .join, .work (.call 0 (.put 7)), .work (.enter 0 none),
        .work (.leave 0), .work (.call 0 (.put 8)), .work (.enter 0 none), .destroy, .work .join,
        .work (.close 1), .work (.enter 1 none), .work (.announce 1), .work (.announce 1),
        .work (.enter 0 none), .release, .destroy]
    ∃ o, (start 1).run moves = some o ∧ o.Life 1 moves ∧ o.owners = 0 ∧ o.freed = [7] ∧
      o.sharing.dropped = [8] ∧ (start 1).discards moves = [1] := by
  intro moves
  have h : (start 1).run moves = some
      ⟨⟨⟨⟨#[none], 0, 0, 0⟩, true, false⟩, [.answered .done, .answered .done], [7], [], [8]⟩,
        0, [7]⟩ := rfl
  exact ⟨_, h, life_of_run h, rfl, rfl, rfl, rfl⟩

/-! ## The fixed schedule -/

/-- The threads can go on until all of them are parked or back, without beginning a call. -/
theorem exists_run_settle (s : Sharing α) :
    ∃ moves, s.run moves = some s.settle ∧ ∀ m ∈ moves, m.begins = false := by
  suffices key : ∀ (steps : Nat) (s : Sharing α),
      ∃ moves, s.run moves = some (s.settleFor steps) ∧ ∀ m ∈ moves, m.begins = false from
    key _ s
  intro steps
  induction steps with
  | zero => exact fun s => ⟨[], rfl, nofun⟩
  | succ steps ih =>
    intro s
    cases next : s.advanceAny with
    | none => exact ⟨[], by rw [Sharing.settleFor, next]; rfl, nofun⟩
    | some t =>
      obtain ⟨moves, hrun, inside⟩ := ih t
      obtain ⟨i, _, advance⟩ := Option.bind_eq_some_iff.mp next
      obtain ⟨before, m, after, split, hstep, _⟩ := List.findSome?_eq_some_iff.mp advance
      have mem : m ∈ s.advances i := split ▸ List.mem_append_right _ List.mem_cons_self
      refine ⟨m :: moves, ?_, fun m' mem' => ?_⟩
      · rw [Sharing.settleFor, next]
        exact Option.bind_eq_some_iff.mpr ⟨t, hstep, hrun⟩
      · rcases List.mem_cons.mp mem' with rfl | mem'
        · simp only [Sharing.advances, List.mem_cons, List.not_mem_nil, or_false] at mem
          rcases mem with rfl | rfl | rfl | rfl <;> rfl
        · exact inside m' mem'

/-- A move of a thread that takes no handle along that is not there. -/
theorem step_work {m : Move α} {t : Sharing α} (h : o.sharing.step m = some t)
    (enough : t.busy ≤ o.owners) :
    o.step (.work m) = some { o with sharing := t, handles := o.owners - t.busy } := by
  simp only [step, h, Option.bind_some, if_neg (Nat.not_lt.mpr enough)]

/-- Threads that begin no call can always move, and bring back the handles of those who are back. -/
theorem run_work {ms : List (Move α)} {t : Sharing α} (sound : o.sharing.queue.Sound)
    (inside : ∀ m ∈ ms, m.begins = false) (h : o.sharing.run ms = some t) :
    t.busy ≤ o.sharing.busy ∧
    o.run (ms.map .work) = some { o with sharing := t, handles := o.owners - t.busy } := by
  induction ms generalizing o with
  | nil =>
    cases h
    refine ⟨Nat.le_refl _, ?_⟩
    rw [owners_eq, Nat.add_sub_cancel]
    rfl
  | cons m ms ih =>
    obtain ⟨u, hstep, hrun⟩ := Option.bind_eq_some_iff.mp h
    have transition := Sharing.transition_of_step sound hstep
    have fewer := transition.busy_le
    rw [inside m List.mem_cons_self, Bool.toNat_false, Nat.add_zero] at fewer
    have enough : u.busy ≤ o.owners := fewer.trans (Nat.le_add_left _ _)
    obtain ⟨least, rest⟩ := ih (o := { o with sharing := u, handles := o.owners - u.busy })
      (transition.sound sound).1 (fun m' mem => inside m' (List.mem_cons_of_mem _ mem)) hrun
    refine ⟨least.trans fewer, (run_cons (step_work hstep enough)).trans ?_⟩
    have same : ({ o with sharing := u, handles := o.owners - u.busy } : Ownership α).owners =
        o.owners := Nat.sub_add_cancel enough
    rw [same] at rest
    exact rest

/-- Handles can be let go as long as one is left. -/
theorem run_release {n : Nat} (k : Nat) (more : o.handles = n + 1 + k) :
    o.run (List.replicate k .release) = some { o with handles := n + 1 } := by
  induction k generalizing o with
  | zero => rw [← more]; rfl
  | succ k ih =>
    have held : o.handles ≠ 0 := by omega
    have shared : o.owners ≠ 1 := by rw [owners_eq]; omega
    refine (run_cons (step_release held)).trans ?_
    rw [release_of_shared shared held]
    exact ih (o := { o with handles := o.handles - 1 }) (by simp only [more]; omega)

/-- A call on a handle of its own, until all threads are parked or back and have let the handles of
their calls go. -/
theorem exists_run_call {m : Move α} {called : Sharing α} (sound : o.sharing.queue.Sound)
    (held : o.handles ≠ 0) (h : o.sharing.step m = some called) :
    ∃ moves, o.run moves = some { o with sharing := called.settle } := by
  obtain ⟨ms, hrun, inside⟩ := exists_run_settle called
  have transition := Sharing.transition_of_step sound h
  have most := transition.busy_le
  have one := Bool.toNat_le m.begins
  have owners := o.owners_eq
  let holding : Ownership α := { o with handles := o.handles + 1 }
  let calling : Ownership α := { o with sharing := called, handles := holding.owners - called.busy }
  have enough : called.busy ≤ holding.owners := by
    show _ ≤ o.handles + 1 + o.sharing.busy
    omega
  obtain ⟨fewer, settled⟩ := run_work (o := calling) (transition.sound sound).1 inside hrun
  have fewer : called.settle.busy ≤ called.busy := fewer
  have same : calling.owners = o.handles + 1 + o.sharing.busy := Nat.sub_add_cancel enough
  obtain ⟨n, last⟩ := Nat.exists_eq_add_one_of_ne_zero held
  let back := 1 + o.sharing.busy - called.settle.busy
  have released := run_release (n := n) back
    (o := { calling with
      sharing := called.settle
      handles := calling.owners - called.settle.busy }) (by simp only [same, back]; omega)
  rw [← last] at released
  have goesOn : calling.run (ms.map .work ++ List.replicate back .release) =
      some { o with sharing := called.settle } :=
    foldlM_append_eq_some.mpr ⟨_, settled, released⟩
  exact ⟨.hold :: .work m :: (ms.map .work ++ List.replicate back .release),
    (run_cons (step_hold held)).trans ((run_cons (step_work (o := holding) h enough)).trans goesOn)⟩

/-- What an operation comes to on the fixed schedule is what a run comes to. -/
theorem exists_run_perform (o : Ownership α) (sound : o.sharing.queue.Sound) (op : Operation α) :
    ∃ moves, o.run moves = some (o.perform op).2 := by
  let joined : Ownership α := { o with
    sharing := { o.sharing with threads := o.sharing.threads ++ [.idle] } }
  have same : joined.sharing.busy = o.sharing.busy := by
    simp [joined, Sharing.busy, Phase.isBusy]
  have joins : o.step (.work .join) = some joined := by
    rw [step_work (t := joined.sharing) rfl (same ▸ Nat.le_add_left ..), same, owners_eq,
      Nat.add_sub_cancel]
  suffices rest : ∃ moves, joined.run moves = some (o.perform op).2 by
    obtain ⟨moves, hrun⟩ := rest
    exact ⟨.work .join :: moves, (run_cons joins).trans hrun⟩
  have idle : joined.sharing.threads[o.sharing.threads.length]? = some .idle :=
    List.getElem?_concat_length
  by_cases held : o.handles = 0
  · exact ⟨[], by simp only [perform, if_pos held]; rfl⟩
  simp only [perform, if_neg held]
  have calls : ∀ {m : Move α} {called : Sharing α}, joined.sharing.step m = some called →
      ∃ moves, joined.run moves =
        some { joined with sharing := ((joined.sharing.step m).getD joined.sharing).settle } := by
    intro m called h
    rw [h]
    exact exists_run_call sound held h
  cases op with
  | put | take | close => exact calls (by simp only [Sharing.step, idle]; rfl)
  | hold => exact ⟨[.hold], run_cons (step_hold held)⟩
  | release => exact ⟨[.release], run_cons (step_release held)⟩
  | destroy =>
    have gone : joined.run [.destroy] = some joined.destroy.2 := run_cons (step_destroy held)
    refine ⟨[.destroy], gone.trans ?_⟩
    dsimp only
    split <;> rename_i destroyed <;> exact congrArg (fun answer => some answer.2) destroyed
  | poison =>
    dsimp only
    split
    · let crashed : Sharing α :=
        { joined.sharing with queue := { joined.sharing.queue with poisoned := true } }
      have stays : joined.owners - crashed.busy = o.handles := Nat.add_sub_cancel ..
      have poisons := step_work (o := joined) (m := .poison) (t := crashed) rfl (Nat.le_add_left ..)
      rw [stays] at poisons
      exact ⟨[.work .poison], run_cons poisons⟩
    · exact ⟨[], rfl⟩

end Ownership

end StaticHttp
