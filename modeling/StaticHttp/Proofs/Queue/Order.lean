import StaticHttp.Proofs.Queue.Transition
import Mathlib.Data.List.Count

/-!
# First in, first out

Whatever the threads do at a queue, what was delivered and what the ring still holds is what was
accepted, in that order, and every item that a call brought is in exactly one place: with its call,
in the ring, among the delivered, or among the dropped (`run_start_ordered`). Nothing is dropped as
long as the queue is open and its lock clean.

The lists `accepted`, `delivered` and `dropped` are tied to what the threads are told by the history
of a run, which has an entry for each call that came back: the items in the replies are the
delivered ones, and the items of the calls that came back from putting are the accepted and the
dropped ones. A call that waits has no entry, however often it is woken.

Places are compared by counting an item in each of them, so that the same item may be brought by
several calls.
-/

namespace StaticHttp

/-- The item that a call brings. -/
def Call.item? {α : Type} : Call α → Option α
  | .put item => some item
  | .take => none

namespace Phase

variable {α : Type}

/-- The call that the thread has begun and not come back from. -/
def call? : Phase α → Option (Call α)
  | .entering c | .parked c | .notified c | .roused c => some c
  | _ => none

/-- The item that the thread holds. -/
def item? (p : Phase α) : Option α := p.call?.bind Call.item?

theorem call?_of_trying? {p : Phase α} {c : Call α} (tries : p.trying? = some c) :
    p.call? = some c := by
  rcases trying?_eq_some_iff.mp tries with rfl | rfl | rfl <;> rfl

theorem item?_of_trying? {p : Phase α} {c : Call α} (tries : p.trying? = some c) :
    p.item? = c.item? := by
  rw [item?, call?_of_trying? tries]
  rfl

end Phase

/-- The item that a move offers to the queue. -/
def Move.item? {α : Type} : Move α → Option α
  | .call _ c => c.item?
  | _ => none

/-- A call that came back. -/
structure Completion (α : Type) where
  thread : Nat
  call : Call α
  reply : Reply α

namespace Completion

variable {α : Type}

/-- The item in the reply to a call that takes. -/
def taken? (c : Completion α) : Option α :=
  match c.call, c.reply with
  | .take, .item item => some item
  | _, _ => none

/-- The item of a call that puts. -/
def brought? (c : Completion α) : Option α := c.call.item?

end Completion

namespace Sharing

variable {α : Type}

/-- The call that comes back by a move from the first state to the second. -/
def completion? (s t : Sharing α) : Move α → Option (Completion α)
  | .enter i _ =>
    match (s.threads[i]?).bind Phase.trying?, t.threads[i]? with
    | some call, some (.answered reply) => some ⟨i, call, reply⟩
    | _, _ => none
  | _ => none

/-- The calls that come back in a run, in order. -/
def history (s : Sharing α) : List (Move α) → List (Completion α)
  | [] => []
  | move :: moves =>
    match s.step move with
    | some t => (s.completion? t move).toList ++ t.history moves
    | none => []

/-- The items that threads hold. -/
def held (s : Sharing α) : List α := s.threads.filterMap (·.item?)

/-! ## The history -/

theorem history_concat {s t u : Sharing α} {moves : List (Move α)} {move : Move α}
    (h : s.run moves = some t) (hstep : t.step move = some u) :
    s.history (moves ++ [move]) = s.history moves ++ (t.completion? u move).toList := by
  induction moves generalizing s with
  | nil =>
    cases h
    simp only [List.nil_append, history, hstep, List.append_nil]
  | cons first moves ih =>
    obtain ⟨r, hfirst, hrest⟩ := Option.bind_eq_some_iff.mp h
    simp only [List.cons_append, history, hfirst, List.append_assoc]
    rw [ih hrest]

private theorem completion?_answered {s t : Sharing α} {i : Nat} {wake : Option Nat}
    {phase : Phase α} {call : Call α} {reply : Reply α} (found : s.threads[i]? = some phase)
    (tries : phase.trying? = some call) (back : t.threads[i]? = some (.answered reply)) :
    s.completion? t (.enter i wake) = some ⟨i, call, reply⟩ := by
  simp only [completion?, found, Option.bind_some, tries, back]

private theorem completion?_parked {s t : Sharing α} {i : Nat} {wake : Option Nat}
    {call : Call α} (waits : t.threads[i]? = some (.parked call)) :
    s.completion? t (.enter i wake) = none := by
  simp only [completion?, waits]
  split <;> simp_all

private theorem completion?_closing {s t : Sharing α} {i : Nat} {wake : Option Nat}
    (found : s.threads[i]? = some .closing) : s.completion? t (.enter i wake) = none := by
  simp only [completion?, found, Option.bind_some]
  rfl

/-- What a move does to the lists of items, by the call that comes back. -/
inductive Effect (s t : Sharing α) : Option (Completion α) → Prop
  | nothing (accepted : t.accepted = s.accepted) (delivered : t.delivered = s.delivered)
      (dropped : t.dropped = s.dropped) : Effect s t none
  | accepted {i : Nat} {item : α} (accepted : t.accepted = s.accepted ++ [item])
      (delivered : t.delivered = s.delivered) (dropped : t.dropped = s.dropped) :
      Effect s t (some ⟨i, .put item, .done⟩)
  | dropped {i : Nat} {item : α} {reply : Reply α} (accepted : t.accepted = s.accepted)
      (delivered : t.delivered = s.delivered) (dropped : t.dropped = s.dropped ++ [item]) :
      Effect s t (some ⟨i, .put item, reply⟩)
  | delivered {i : Nat} {item : α} (accepted : t.accepted = s.accepted)
      (delivered : t.delivered = s.delivered ++ [item]) (dropped : t.dropped = s.dropped) :
      Effect s t (some ⟨i, .take, .item item⟩)
  | refused {i : Nat} {reply : Reply α} (noItem : ∀ item, reply ≠ .item item)
      (accepted : t.accepted = s.accepted) (delivered : t.delivered = s.delivered)
      (dropped : t.dropped = s.dropped) : Effect s t (some ⟨i, .take, reply⟩)

theorem Transition.effect {s t : Sharing α} {move : Move α} (step : Transition s move t) :
    Effect s t (s.completion? t move) := by
  cases step with
  | put found tries accepts notifies =>
    rw [completion?_answered found tries (notifies.get_of_not_parked (get_set_self _ found) rfl)]
    exact .accepted rfl rfl rfl
  | putRefused found tries =>
    rw [completion?_answered found tries (get_set_self _ found)]
    exact .dropped rfl rfl rfl
  | take found tries yields notifies =>
    rw [completion?_answered found tries (notifies.get_of_not_parked (get_set_self _ found) rfl)]
    exact .delivered rfl rfl rfl
  | takeClosed found tries | takePoisoned found tries =>
    rw [completion?_answered found tries (get_set_self _ found)]
    exact .refused (fun _ => nofun) rfl rfl rfl
  | putFull found | takeEmpty found =>
    rw [completion?_parked (get_set_self _ found)]
    exact .nothing rfl rfl rfl
  | shut found =>
    rw [completion?_closing found]
    exact .nothing rfl rfl rfl
  | _ => exact .nothing rfl rfl rfl

/-- What is delivered is the item in the reply that comes back. -/
theorem Effect.delivered_eq {s t : Sharing α} {back : Option (Completion α)}
    (effect : Effect s t back) :
    t.delivered = s.delivered ++ (back.bind Completion.taken?).toList := by
  cases effect with
  | delivered _ delivered => exact delivered
  | @refused i reply noItem _ delivered =>
    rw [delivered]
    cases reply with
    | item item => exact absurd rfl (noItem item)
    | _ => exact (List.append_nil _).symm
  | nothing _ delivered | accepted _ delivered | dropped _ delivered =>
    rw [delivered]
    exact (List.append_nil _).symm

/-- The item of a call that comes back from putting is accepted or dropped. -/
theorem Effect.brought_perm {s t : Sharing α} {back : Option (Completion α)}
    (effect : Effect s t back) :
    (t.accepted ++ t.dropped).Perm
      (s.accepted ++ s.dropped ++ (back.bind Completion.brought?).toList) := by
  cases effect with
  | @accepted i item accepted _ dropped =>
    rw [accepted, dropped, List.append_assoc, List.append_assoc]
    exact List.perm_append_comm.append_left _
  | @dropped i item reply accepted _ dropped =>
    rw [accepted, dropped, List.append_assoc]
    rfl
  | nothing accepted _ dropped | delivered accepted _ dropped | refused _ accepted _ dropped =>
    rw [accepted, dropped]
    exact .of_eq (List.append_nil _).symm

private theorem filterMap_toList {β γ : Type} (f : β → Option γ) (o : Option β) :
    o.toList.filterMap f = (o.bind f).toList := by
  cases o with
  | none => rfl
  | some b =>
    rw [Option.toList_some, List.filterMap_cons, Option.bind_some]
    cases f b <;> rfl

/-- The replies of a run hold what was delivered, and its calls what was accepted and dropped. -/
theorem history_lists {capacity threads : Nat} {moves : List (Move α)} {s : Sharing α}
    (h : (start capacity threads).run moves = some s) :
    ((start capacity threads).history moves).filterMap (·.taken?) = s.delivered ∧
    (((start capacity threads).history moves).filterMap (·.brought?)).Perm
      (s.accepted ++ s.dropped) := by
  refine run_induction (motive := fun moves s =>
    ((start capacity threads).history moves).filterMap (·.taken?) = s.delivered ∧
    (((start capacity threads).history moves).filterMap (·.brought?)).Perm
      (s.accepted ++ s.dropped)) ⟨rfl, .refl _⟩ ?_ h
  intro moves s move t hrun ih hstep
  have effect := (((Reachable.start threads).run hrun).transition hstep).effect
  rw [history_concat hrun hstep, List.filterMap_append, List.filterMap_append, filterMap_toList,
    filterMap_toList, ih.1]
  exact ⟨effect.delivered_eq.symm, (ih.2.append_right _).trans effect.brought_perm.symm⟩

/-! ## Order -/

/-- What was delivered and what the ring holds stays what was accepted. -/
theorem Transition.ordered {s t : Sharing α} {move : Move α} (step : Transition s move t)
    (ordered : s.delivered ++ s.queue.toList = s.accepted) :
    t.delivered ++ t.queue.toList = t.accepted := by
  cases step with
  | put _ _ accepts _ =>
    show s.delivered ++ _ = s.accepted ++ _
    rw [accepts.toList_eq, ← List.append_assoc, ordered]
  | take _ _ yields _ =>
    show s.delivered ++ [_] ++ _ = s.accepted
    rw [List.append_assoc, List.singleton_append, ← yields.toList_eq, ordered]
  | _ => exact ordered

theorem Reachable.ordered {capacity : Nat} {s : Sharing α} (h : Reachable capacity s) :
    s.delivered ++ s.queue.toList = s.accepted :=
  h.invariant (fun _ => Queue.toList_ofCapacity capacity) fun _ ordered step => step.ordered ordered

/-- Items are dropped only when the queue is closed or its lock poisoned. -/
theorem Reachable.dropped_eq_nil {capacity : Nat} {s : Sharing α} (h : Reachable capacity s)
    (isOpen : s.queue.closed = false) (isClean : s.queue.poisoned = false) : s.dropped = [] := by
  revert isOpen isClean
  refine h.invariant (P := fun s => s.queue.closed = false → s.queue.poisoned = false →
    s.dropped = []) (fun _ _ _ => rfl) fun _ ih step => ?_
  cases step with
  | put _ _ accepts _ => exact fun _ _ => ih accepts.isOpen accepts.isClean
  | putRefused _ _ refused =>
    intro isOpen isClean
    rcases refused with isClosed | isPoisoned
    · exact absurd (isClosed.symm.trans isOpen) Bool.noConfusion
    · exact absurd (isPoisoned.symm.trans isClean) Bool.noConfusion
  | take _ _ yields _ =>
    exact fun isOpen _ => ih (yields.closed_eq.symm.trans isOpen) yields.isClean
  | shut => exact fun isOpen => absurd isOpen Bool.noConfusion
  | poison => exact fun _ isClean => absurd isClean Bool.noConfusion
  | _ => exact ih

/-! ## Places -/

section Places

variable [DecidableEq α]

/-- How often an item is in each of its places. -/
def places (s : Sharing α) (x : α) : Nat :=
  s.held.count x + s.queue.toList.count x + s.delivered.count x + s.dropped.count x

/-- How often a thread holds an item. -/
private def heldBy (x : α) (p : Phase α) : Nat := p.item?.toList.count x

private theorem count_held (s : Sharing α) (x : α) :
    s.held.count x = total (heldBy x) s.threads := by
  unfold held
  induction s.threads with
  | nil => rfl
  | cons p rest ih =>
    rw [total_cons, ← ih, List.filterMap_cons]
    unfold heldBy
    cases p.item? with
    | none => simp only [Option.toList_none, List.count_nil, Nat.zero_add]
    | some item => rw [Option.toList_some, ← List.count_append, List.singleton_append]

private theorem heldBy_of_trying? {p : Phase α} {c : Call α} (tries : p.trying? = some c) (x : α) :
    heldBy x p = c.item?.toList.count x := by
  rw [heldBy, Phase.item?_of_trying? tries]

private theorem held_set {threads : List (Phase α)} {i m n : Nat} {a b : Phase α} (x : α)
    (found : threads[i]? = some a) (before : heldBy x a = m) (after : heldBy x b = n) :
    total (heldBy x) (threads.set i b) + m = total (heldBy x) threads + n := by
  rw [← before, ← after]
  exact total_set (heldBy x) b found

/-- A transition keeps every item in its places, and puts the item that it offers into one. -/
theorem Transition.places_eq {s t : Sharing α} {move : Move α} (step : Transition s move t)
    (x : α) : t.places x = s.places x + move.item?.toList.count x := by
  unfold places
  rw [count_held, count_held]
  cases step with
  | join =>
    rw [total_append]
    rfl
  | @call i c found =>
    have hheld := held_set (b := .entering c) (m := 0) (n := c.item?.toList.count x) x found rfl rfl
    simp only [Move.item?]
    omega
  | close found | shut found | leave found =>
    exact congrArg (· + _ + _ + _) (held_set (m := 0) (n := 0) x found rfl rfl)
  | @put i _ _ item _ _ found tries accepts notifies =>
    have hheld := held_set (b := .answered .done) (n := 0) x found (heldBy_of_trying? tries x) rfl
    have hwoken := notifies.total_eq (heldBy x) fun _ => rfl
    simp only [Call.item?, Option.toList_some] at hheld
    simp only [accepts.toList_eq, List.count_append, Move.item?, Option.toList_none, List.count_nil]
    omega
  -- A producer that has to wait keeps its item.
  | @putFull i _ item found tries =>
    have hheld := held_set (b := .parked (.put item)) x found (heldBy_of_trying? tries x) rfl
    exact congrArg (· + _ + _ + _) (Nat.add_right_cancel hheld)
  | @putRefused i _ item found tries =>
    have hheld := held_set (b := .answered (closeReply s.queue.poisoned)) (n := 0) x found
      (heldBy_of_trying? tries x) rfl
    simp only [Call.item?, Option.toList_some] at hheld
    simp only [List.count_append, Move.item?, Option.toList_none, List.count_nil]
    omega
  | @take i _ _ item _ _ found tries yields notifies =>
    have hheld := held_set (b := .answered (.item item)) (n := 0) x found
      (heldBy_of_trying? tries x) rfl
    have hwoken := notifies.total_eq (heldBy x) fun _ => rfl
    have hitems := congrArg (List.count x) yields.toList_eq
    rw [← List.singleton_append, List.count_append] at hitems
    simp only [Call.item?, Option.toList_none, List.count_nil] at hheld
    simp only [List.count_append, Move.item?, Option.toList_none, List.count_nil]
    omega
  | takeEmpty found tries | takeClosed found tries | takePoisoned found tries =>
    exact congrArg (· + _ + _ + _) (held_set (n := 0) x found (heldBy_of_trying? tries x) rfl)
  | @tellTakers i poisoned found =>
    have hheld := held_set (b := .announcing true poisoned) (m := 0) (n := 0) x
      (get_wake Call.isTake found) rfl rfl
    rw [total_wake _ _ fun _ => rfl] at hheld
    exact congrArg (· + _ + _ + _) hheld
  | @tellProducers i poisoned found =>
    have hheld := held_set (b := .answered (closeReply poisoned)) (m := 0) (n := 0) x
      (get_wake Call.isPut found) rfl rfl
    rw [total_wake _ _ fun _ => rfl] at hheld
    exact congrArg (· + _ + _ + _) hheld
  | @rouse i c found =>
    have hheld := held_set (b := .roused c) (n := heldBy x (.parked c)) x found rfl rfl
    exact congrArg (· + _ + _ + _) (Nat.add_right_cancel hheld)
  | poison => rfl

/-- The items that the moves of a run offer are in their places. -/
theorem count_offered {capacity threads : Nat} {moves : List (Move α)} {s : Sharing α}
    (h : (start capacity threads).run moves = some s) (x : α) :
    (moves.filterMap (·.item?)).count x = s.places x := by
  refine run_induction (motive := fun moves s => (moves.filterMap (·.item?)).count x = s.places x)
    ?_ ?_ h
  · unfold places held start
    rw [Queue.toList_ofCapacity, List.filterMap_replicate_of_none rfl]
    rfl
  · intro moves s move t hrun ih hstep
    have step := ((Reachable.start threads).run hrun).transition hstep
    rw [step.places_eq x, ← ih, List.filterMap_append, List.count_append]
    congr 2

end Places

/-- However many threads put, take and close, in whatever order they move: what was delivered and
what the ring holds is what was accepted, in order; the ring holds no more than its capacity; and
the items brought are the held, waiting, delivered and dropped ones, none of them lost or doubled.
The delivered items are those in the replies to takers, and a call that came back from putting has
had its item accepted or, with the queue closed or its lock poisoned, dropped. -/
theorem run_start_ordered {capacity threads : Nat} {moves : List (Move α)} {s : Sharing α}
    (h : (start capacity threads).run moves = some s) :
    s.delivered ++ s.queue.toList = s.accepted ∧
    s.queue.ring.length = s.queue.toList.length ∧ s.queue.ring.length ≤ capacity ∧
    (moves.filterMap (·.item?)).Perm
      (s.held ++ s.queue.toList ++ s.delivered ++ s.dropped) ∧
    (s.queue.closed = false → s.queue.poisoned = false → s.dropped = []) ∧
    ((start capacity threads).history moves).filterMap (·.taken?) = s.delivered ∧
    (((start capacity threads).history moves).filterMap (·.brought?)).Perm
      (s.accepted ++ s.dropped) := by
  classical
  have reached : Reachable capacity s := (Reachable.start threads).run h
  have hlen := reached.sound.length_eq
  have hle := reached.sound.length_le
  rw [reached.capacity_eq, ← hlen] at hle
  refine ⟨reached.ordered, hlen, hle, ?_, reached.dropped_eq_nil, history_lists h⟩
  rw [List.perm_iff_count]
  intro x
  rw [count_offered h x, places]
  simp only [List.count_append]

/-- A producer that waited at a full queue of one slot keeps its place, and one that comes after the
close is dropped. -/
theorem run_start_ordered_retry :
    ∃ s : Sharing Nat, (start 1 3).run
        [.call 0 (.put 1), .enter 0 none, .leave 0, .call 0 (.put 2), .enter 0 none, .spurious 0,
          .enter 0 none, .call 1 .take, .enter 1 (some 0), .enter 0 none, .close 2, .enter 2 none,
          .leave 1, .call 1 .take, .enter 1 none, .leave 0, .call 0 (.put 3), .enter 0 none] =
        some s ∧
      s.delivered ++ s.queue.toList = s.accepted ∧ s.delivered = [1, 2] ∧ s.dropped = [3] := by
  have h : (start 1 3 : Sharing Nat).run
      [.call 0 (.put 1), .enter 0 none, .leave 0, .call 0 (.put 2), .enter 0 none, .spurious 0,
        .enter 0 none, .call 1 .take, .enter 1 (some 0), .enter 0 none, .close 2, .enter 2 none,
        .leave 1, .call 1 .take, .enter 1 none, .leave 0, .call 0 (.put 3), .enter 0 none] =
      some ⟨⟨⟨#[none], 0, 0, 0⟩, true, false⟩,
        [.answered .done, .answered (.item 2), .announcing false false], [1, 2], [1, 2], [3]⟩ := rfl
  exact ⟨_, h, (run_start_ordered h).1, rfl, rfl⟩

end Sharing

end StaticHttp
