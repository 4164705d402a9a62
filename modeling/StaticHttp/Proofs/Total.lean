import StaticHttp.Total
import Mathlib.Algebra.BigOperators.Group.List.Basic
import Mathlib.Algebra.Order.BigOperators.Group.List
import Mathlib.Algebra.Order.Ring.Nat

/-!
# Sums over lists

Threads are counted with `total`, and workers, and whatever they have in hand. A total is a sum of
the library (`total_eq_sum`), which gives its laws; `total_set` says how it changes when one of the
list changes. `get_set_cases` and `get_concat_cases` say where a member comes from when one was
changed or added.
-/

namespace StaticHttp

variable {β γ : Type}

@[simp] theorem total_nil (weight : β → Nat) : total weight [] = 0 := rfl

@[simp] theorem total_cons (weight : β → Nat) (item : β) (items : List β) :
    total weight (item :: items) = weight item + total weight items := rfl

theorem total_eq_sum (weight : β → Nat) (items : List β) :
    total weight items = (items.map weight).sum := by
  induction items with
  | nil => rfl
  | cons head rest ih => rw [total_cons, ih, List.map_cons, List.sum_cons]

@[simp] theorem total_append (weight : β → Nat) (items more : List β) :
    total weight (items ++ more) = total weight items + total weight more := by
  simp only [total_eq_sum, List.map_append, List.sum_append]

theorem total_add (f g : β → Nat) (items : List β) :
    total (fun item => f item + g item) items = total f items + total g items := by
  simp only [total_eq_sum, List.sum_map_add]

theorem total_map (weight : γ → Nat) (f : β → γ) (items : List β) :
    total weight (items.map f) = total (fun item => weight (f item)) items := by
  simp only [total_eq_sum, List.map_map, Function.comp_def]

theorem total_replicate (weight : β → Nat) (n : Nat) (item : β) :
    total weight (List.replicate n item) = n * weight item := by
  rw [total_eq_sum, List.map_replicate, List.sum_replicate_nat]

theorem total_eq_zero {weight : β → Nat} {items : List β}
    (light : ∀ item ∈ items, weight item = 0) :
    total weight items = 0 := by
  rw [total_eq_sum]
  exact List.sum_eq_zero (List.forall_mem_map.mpr light)

theorem total_le_length_mul {weight : β → Nat} {items : List β} {most : Nat}
    (light : ∀ item ∈ items, weight item ≤ most) : total weight items ≤ items.length * most := by
  have bound := List.sum_le_card_nsmul _ most (List.forall_mem_map.mpr light)
  rwa [List.length_map, ← total_eq_sum] at bound

theorem length_mul_le_total {weight : β → Nat} {items : List β} {least : Nat}
    (heavy : ∀ item ∈ items, least ≤ weight item) : items.length * least ≤ total weight items := by
  have bound := List.card_nsmul_le_sum _ least (List.forall_mem_map.mpr heavy)
  rwa [List.length_map, ← total_eq_sum] at bound

/-- Only those count that weigh something. -/
theorem total_if (weight : β → Nat) (p : β → Bool) (items : List β) :
    total (fun item => if p item then weight item else 0) items =
      total weight (items.filter p) := by
  have parts := List.sum_map_ite (p · = true) weight (fun _ => 0) items
  simp only [Bool.decide_eq_true] at parts
  rw [total_eq_sum, total_eq_sum, parts]
  exact Nat.add_eq_left.mpr (List.sum_eq_zero (List.forall_mem_map.mpr fun _ _ => rfl))

theorem total_filter {weight : β → Nat} {p : β → Bool} {items : List β}
    (light : ∀ item, p item = false → weight item = 0) :
    total weight (items.filter p) = total weight items := by
  rw [← total_if]
  refine congrArg (total · items) (funext fun item => ?_)
  cases weighs : p item with
  | true => exact if_pos rfl
  | false => exact (if_neg Bool.false_ne_true).trans (light item weighs).symm

theorem total_set {items : List β} {i : Nat} {a : β} (weight : β → Nat) (b : β)
    (found : items[i]? = some a) :
    total weight (items.set i b) + weight a = total weight items + weight b := by
  obtain ⟨hlt, rfl⟩ := List.getElem?_eq_some_iff.mp found
  have parts : ∀ c, total weight (items.set i c) =
      ((items.map weight).take i).sum + weight c + ((items.map weight).drop (i + 1)).sum := by
    intro c
    rw [total_eq_sum, List.map_set, List.sum_set, List.length_map, if_pos hlt]
  have before := parts items[i]
  rw [List.set_getElem_self hlt] at before
  rw [parts b, before]
  omega

theorem total_eq_countP (p : β → Bool) (items : List β) :
    total (fun item => (p item).toNat) items = items.countP p := by
  have ones : ∀ item, (p item).toNat = if p item then 1 else 0 := by
    intro item
    cases p item <;> rfl
  rw [funext ones, total_if (fun _ => 1), total_eq_sum, List.map_const', List.sum_replicate_nat,
    Nat.mul_one, List.countP_eq_length_filter]

theorem countP_set {items : List β} {i : Nat} {a b : β} {x y : Bool} (p : β → Bool)
    (found : items[i]? = some a) (before : p a = x) (after : p b = y) :
    (items.set i b).countP p + x.toNat = items.countP p + y.toNat := by
  rw [← total_eq_countP, ← total_eq_countP, ← before, ← after]
  exact total_set _ b found

theorem get_set_cases {items : List β} {i j : Nat} {a b : β} (h : (items.set i b)[j]? = some a) :
    (j = i ∧ a = b) ∨ (j ≠ i ∧ items[j]? = some a) := by
  by_cases same : i = j
  · subst same
    obtain ⟨hlt, heq⟩ := List.getElem?_eq_some_iff.mp h
    rw [List.getElem_set_self] at heq
    exact .inl ⟨rfl, heq.symm⟩
  · rw [List.getElem?_set_ne same] at h
    exact .inr ⟨fun heq => same heq.symm, h⟩

theorem get_concat_cases {items : List β} {i : Nat} {a b : β} (h : (items ++ [b])[i]? = some a) :
    items[i]? = some a ∨ (i = items.length ∧ a = b) := by
  obtain ⟨hlt, heq⟩ := List.getElem?_eq_some_iff.mp h
  rw [List.length_append, List.length_singleton] at hlt
  by_cases inside : i < items.length
  · rw [List.getElem?_append_left inside] at h
    exact .inl h
  · have last : i = items.length := by omega
    subst last
    rw [List.getElem?_concat_length] at h
    exact .inr ⟨rfl, (Option.some.inj h).symm⟩

theorem get_set_self {items : List β} {i : Nat} {a : β} (b : β) (found : items[i]? = some a) :
    (items.set i b)[i]? = some b := by
  obtain ⟨hlt, _⟩ := List.getElem?_eq_some_iff.mp found
  exact List.getElem?_set_self hlt

theorem total_perm {items others : List β} (weight : β → Nat) (perm : items.Perm others) :
    total weight items = total weight others := by
  rw [total_eq_sum, total_eq_sum]
  exact (perm.map weight).sum_nat

/-- Lists that weigh the same by every weight have the same members, each as often. -/
theorem perm_of_total [DecidableEq β] {items others : List β}
    (same : ∀ weight : β → Nat, total weight items = total weight others) : items.Perm others := by
  rw [List.perm_iff_count]
  intro item
  have counts := same fun other => (other == item).toNat
  rwa [total_eq_countP, total_eq_countP] at counts

/-- Of two lists side by side that weigh at most one in each place. -/
theorem total_add_total_le {items : List β} {others : List γ} {f : β → Nat} {g : γ → Nat}
    (same : others.length = items.length)
    (light : ∀ (i : Nat) a b, items[i]? = some a → others[i]? = some b → f a + g b ≤ 1) :
    total f items + total g others ≤ items.length := by
  induction items generalizing others with
  | nil =>
    cases List.eq_nil_of_length_eq_zero same
    exact Nat.le_refl 0
  | cons a items ih =>
    cases others with
    | nil => cases same
    | cons b others =>
      have first := light 0 a b rfl rfl
      have rest := ih (Nat.succ.inj same) fun i => light (i + 1)
      simp only [total_cons, List.length_cons]
      omega

/-- Of two lists side by side that weigh at most one in each place, and nothing in some place. -/
theorem total_add_total_lt {items : List β} {others : List γ} {f : β → Nat} {g : γ → Nat}
    (same : others.length = items.length)
    (light : ∀ (i : Nat) a b, items[i]? = some a → others[i]? = some b → f a + g b ≤ 1)
    {i : Nat} {a : β} {b : γ} (ha : items[i]? = some a) (hb : others[i]? = some b)
    (free : f a + g b = 0) : total f items + total g others < items.length := by
  induction items generalizing others i with
  | nil => cases ha
  | cons head items ih =>
    cases others with
    | nil => cases same
    | cons other others =>
      have tail : ∀ (i : Nat) a b, items[i]? = some a → others[i]? = some b → f a + g b ≤ 1 :=
        fun i => light (i + 1)
      simp only [total_cons, List.length_cons]
      cases i with
      | zero =>
        cases ha
        cases hb
        have rest := total_add_total_le (Nat.succ.inj same) tail
        omega
      | succ i =>
        have first := light 0 head other rfl rfl
        have rest := ih (Nat.succ.inj same) tail ha hb
        omega

end StaticHttp
