import StaticHttp.Proofs.Queue.Threads

/-!
# What threads have in hand, and how long they can go on

Two sums over the threads of a sharing. The items in replies make up the difference between what was
delivered and what the threads have carried away (`Transition.balance`).

`Sharing.rank` bounds the moves that are left: it falls with every move inside a call, and rises by
one when a thread is roused for no reason. An item weighs more the further it is from being taken,
because it notifies a thread on its way, and a thread that has still to announce the close weighs as
much as all the threads that it may notify.
-/

namespace StaticHttp

/-- The move is one inside a call, or begins one. -/
def Move.isInside {α : Type} : Move α → Bool
  | .call .. | .close _ | .enter .. | .announce _ => true
  | _ => false

namespace Phase

variable {α : Type}

/-- The item with which the thread is back. -/
def taken? : Phase α → Option α
  | .answered (.item item) => some item
  | _ => none

/-- The weight of the item with which the thread is back. -/
def taken (f : α → Nat) (p : Phase α) : Nat := total f p.taken?.toList

/-- How far a thread is from the end of its turns, among so many threads. -/
def rank (threads : Nat) : Phase α → Nat
  | .parked _ => 0
  | .entering _ | .notified _ | .roused _ => 1
  | .announcing true _ => threads + 1
  | .announcing false _ => 2 * threads + 2
  | .closing => 2 * threads + 3
  | .idle => 2 * threads + 4
  | .answered (.item _) => 2 * threads + 6
  | .answered _ => 0

theorem taken_of_trying? {p : Phase α} {c : Call α} (tries : p.trying? = some c) (f : α → Nat) :
    p.taken f = 0 := by
  rcases trying?_eq_some_iff.mp tries with rfl | rfl | rfl <;> rfl

theorem rank_of_trying? {p : Phase α} {c : Call α} (tries : p.trying? = some c) (threads : Nat) :
    p.rank threads = 1 := by
  rcases trying?_eq_some_iff.mp tries with rfl | rfl | rfl <;> rfl

theorem rank_closeReply (poisoned : Bool) (threads : Nat) :
    (Phase.answered (Sharing.closeReply poisoned) : Phase α).rank threads = 0 := by
  cases poisoned <;> rfl

end Phase

namespace Sharing

variable {α : Type} {s t : Sharing α} {move : Move α}

/-! ## Items in replies -/

/-- A move other than leaving a call keeps apart what is delivered and what is in replies. -/
theorem Transition.balance (step : Transition s move t) (stays : ∀ i, move ≠ .leave i)
    (f : α → Nat) :
    total f t.delivered + total (Phase.taken f) s.threads =
      total f s.delivered + total (Phase.taken f) t.threads := by
  have same : ∀ {threads : List (Phase α)} {i : Nat} {a b : Phase α}, threads[i]? = some a →
      a.taken f = 0 → b.taken f = 0 →
      total (Phase.taken f) (threads.set i b) = total (Phase.taken f) threads := by
    intro threads i a b found before after
    have := total_set (Phase.taken f) b found
    simp only [before, after] at this
    exact this
  cases step with
  | join =>
    rw [total_append]
    rfl
  | call found | close found | shut found | rouse found => rw [same found rfl rfl]
  | put found tries _ notifies =>
    rw [notifies.total_eq _ fun _ => rfl, same found (Phase.taken_of_trying? tries f) rfl]
  | putFull found tries | takeEmpty found tries | takeClosed found tries
  | takePoisoned found tries => rw [same found (Phase.taken_of_trying? tries f) rfl]
  | putRefused found tries =>
    rw [same found (Phase.taken_of_trying? tries f)]
    cases s.queue.poisoned <;> rfl
  | @take i _ _ item _ _ found tries _ notifies =>
    have changed := total_set (Phase.taken f) (.answered (.item item)) found
    rw [notifies.total_eq _ fun _ => rfl, total_append]
    simp only [Phase.taken_of_trying? tries] at changed
    have weight : (Phase.answered (Reply.item item)).taken f = total f [item] := rfl
    omega
  | tellTakers found =>
    rw [same (get_wake Call.isTake found) rfl rfl, total_wake _ _ fun _ => rfl]
  | @tellProducers i poisoned found =>
    rw [same (get_wake Call.isPut found) rfl, total_wake _ _ fun _ => rfl]
    cases poisoned <;> rfl
  | leave => exact absurd rfl (stays _)
  | poison => rfl

/-- A thread that leaves its call takes the item in the reply with it. -/
theorem Transition.balance_leave {i : Nat} {reply : Reply α} (step : Transition s (.leave i) t)
    (found : s.threads[i]? = some (.answered reply)) (f : α → Nat) :
    t.delivered = s.delivered ∧
    total (Phase.taken f) t.threads + (Phase.answered reply).taken f =
      total (Phase.taken f) s.threads := by
  cases step with
  | leave => exact ⟨rfl, total_set (Phase.taken f) .idle found⟩

/-! ## Moves that are left -/

/-- How many moves inside calls the threads can make, if at most so many items are accepted. -/
def rank (s : Sharing α) (limit : Nat) : Nat :=
  total (Phase.rank s.threads.length) s.threads +
    (2 * s.threads.length + 7) * s.queue.toList.length +
    (2 * s.threads.length + 8) * (limit - s.accepted.length)

private theorem Notifies.rank_le {who : Call α → Bool} {threads after : List (Phase α)}
    {wake : Option Nat} (h : Notifies who threads wake after) (n : Nat) :
    total (Phase.rank n) after ≤ total (Phase.rank n) threads + 1 := by
  cases h with
  | nobody => exact Nat.le_succ _
  | @one j c found =>
    have := total_set (Phase.rank n) (.notified c) found
    exact Nat.le_of_eq this

private theorem rank_wake_le (who : Call α → Bool) (threads : List (Phase α)) (n : Nat) :
    total (Phase.rank n) (threads.map (·.wake who)) ≤
      total (Phase.rank n) threads + threads.length := by
  induction threads with
  | nil => exact Nat.le_refl _
  | cons p rest ih =>
    have head : (p.wake who).rank n ≤ p.rank n + 1 := by
      cases p with
      | parked c =>
        simp only [Phase.wake]
        split
        · exact Nat.le_refl _
        · exact Nat.le_succ _
      | _ => exact Nat.le_succ _
    simp only [List.map_cons, total_cons, List.length_cons]
    omega

/-- A move inside a call brings the threads nearer to their end. -/
theorem Transition.rank_lt (step : Transition s move t) (inside : move.isInside = true)
    {limit : Nat} (hle : t.accepted.length ≤ limit) : t.rank limit < s.rank limit := by
  have hlen : t.threads.length = s.threads.length :=
    step.length_threads fun h => absurd (h ▸ inside) Bool.noConfusion
  unfold rank
  rw [hlen]
  generalize hn : s.threads.length = n
  have moved : ∀ {threads : List (Phase α)} {i k m : Nat} {a b : Phase α}, threads[i]? = some a →
      a.rank n = k → b.rank n = m →
      total (Phase.rank n) (threads.set i b) + k = total (Phase.rank n) threads + m := by
    intro threads i k m a b found before after
    rw [← before, ← after]
    exact total_set (Phase.rank n) b found
  -- The moves that change nothing but the phase of their thread.
  have falls : ∀ {i : Nat} {a b : Phase α}, s.threads[i]? = some a → b.rank n < a.rank n →
      ∀ items room, total (Phase.rank n) (s.threads.set i b) + items + room <
        total (Phase.rank n) s.threads + items + room := by
    intro i a b found less items room
    have := moved (b := b) found rfl rfl
    omega
  have ends : ∀ {i : Nat} {a b : Phase α} {c : Call α}, s.threads[i]? = some a →
      a.trying? = some c → b.rank n = 0 → ∀ items room,
      total (Phase.rank n) (s.threads.set i b) + items + room <
        total (Phase.rank n) s.threads + items + room := by
    intro i a b c found tries after
    apply falls found
    rw [after, Phase.rank_of_trying? tries]
    exact Nat.one_pos
  cases step with
  | join | leave | rouse | poison => cases inside
  | @call i c found =>
    have less : (Phase.entering c).rank n < (Phase.idle : Phase α).rank n := by
      simp only [Phase.rank]
      omega
    exact falls found less _ _
  | close found => exact falls (b := .closing) found (Nat.lt_succ_self _) _ _
  | @put i _ _ item _ _ found tries accepts notifies =>
    have answered := moved (b := .answered .done) (m := 0) found (Phase.rank_of_trying? tries n) rfl
    have woken := notifies.rank_le n
    have room : limit - s.accepted.length = limit - (s.accepted ++ [item]).length + 1 := by
      simp only [List.length_append, List.length_singleton] at hle ⊢
      omega
    rw [room]
    simp only [accepts.toList_eq, List.length_append, List.length_singleton, Nat.mul_add]
    omega
  | putFull found tries | takeEmpty found tries | takeClosed found tries
  | takePoisoned found tries => exact ends found tries rfl _ _
  | putRefused found tries => exact ends found tries (Phase.rank_closeReply s.queue.poisoned n) _ _
  | @take i _ _ item _ _ found tries yields notifies =>
    have answered := moved (b := .answered (.item item)) (m := 2 * n + 6) found
      (Phase.rank_of_trying? tries n) rfl
    have woken := notifies.rank_le n
    simp only [yields.toList_eq, List.length_cons, Nat.mul_add]
    omega
  | shut found =>
    exact falls (b := .announcing false s.queue.poisoned) found (Nat.lt_succ_self _) _ _
  | @tellTakers i poisoned found =>
    have told := moved (b := .announcing true poisoned) (k := 2 * n + 2) (m := n + 1)
      (get_wake Call.isTake found) rfl rfl
    have woken := rank_wake_le Call.isTake s.threads n
    dsimp only
    omega
  | @tellProducers i poisoned found =>
    have told := moved (k := n + 1) (get_wake Call.isPut found) rfl
      (Phase.rank_closeReply poisoned n)
    have woken := rank_wake_le Call.isPut s.threads n
    dsimp only
    omega

/-- A turn that does not end a call is inside it. -/
theorem Turn.isInside {begin : Move α} {i : Nat} {p : Phase α} (turn : Turn begin i p move none)
    (inside : begin.isInside = true) : move.isInside = true := by
  cases turn with
  | begin => exact inside
  | enter | shut | announce => rfl

theorem Transition.rank_leave {i : Nat} {reply : Reply α} (step : Transition s (.leave i) t)
    (found : s.threads[i]? = some (.answered reply)) (limit : Nat) :
    t.rank limit + (Phase.answered reply).rank s.threads.length =
      s.rank limit + (2 * s.threads.length + 4) := by
  have hlen := step.length_threads nofun
  unfold rank
  rw [hlen]
  cases step with
  | leave =>
    have moved := total_set (Phase.rank s.threads.length) .idle found
    have idle : (Phase.idle : Phase α).rank s.threads.length = 2 * s.threads.length + 4 := rfl
    dsimp only
    omega

/-- A thread that is roused for no reason has one more move. -/
theorem Transition.rank_rouse {i : Nat} (step : Transition s (.spurious i) t) (limit : Nat) :
    t.rank limit = s.rank limit + 1 := by
  have hlen := step.length_threads nofun
  unfold rank
  rw [hlen]
  cases step with
  | @rouse i c found =>
    have moved := total_set (Phase.rank s.threads.length) (.roused c) found
    have parked : (Phase.parked c).rank s.threads.length = 0 := rfl
    have roused : (Phase.roused c).rank s.threads.length = 1 := rfl
    dsimp only
    omega

end Sharing

end StaticHttp
