import Mathlib.Data.List.Induction

/-!
# Runs

A run folds a partial step over a list of moves. `foldlM_induction` is the way to a statement about
every run: it holds before the first move, and every move keeps it. `observed` is what an observer
notes down of a run who sees each move in the state in which it is made.
-/

namespace StaticHttp

variable {σ μ : Type} {step : σ → μ → Option σ}

theorem foldlM_concat (s : σ) (moves : List μ) (move : μ) :
    (moves ++ [move]).foldlM step s = (moves.foldlM step s).bind (step · move) := by
  simp only [List.foldlM_append, List.foldlM_cons, List.foldlM_nil]
  cases moves.foldlM step s <;> simp

/-- What holds before the first move and is kept by every move holds after every run. -/
theorem foldlM_induction {s : σ} {motive : List μ → σ → Prop} (nil : motive [] s)
    (concat : ∀ {moves t move u}, moves.foldlM step s = some t → motive moves t →
      step t move = some u → motive (moves ++ [move]) u) :
    ∀ {moves : List μ} {t : σ}, moves.foldlM step s = some t → motive moves t := by
  intro moves
  induction moves using List.reverseRecOn with
  | nil =>
    intro t h
    cases h
    exact nil
  | append_singleton moves move ih =>
    intro u h
    rw [foldlM_concat] at h
    obtain ⟨t, hrun, hstep⟩ := Option.bind_eq_some_iff.mp h
    exact concat hrun (ih hrun) hstep

/-- The states in which the moves of a run are made, and those in which it goes on. -/
theorem foldlM_append_eq_some {s u : σ} {before after : List μ} :
    (before ++ after).foldlM step s = some u ↔
      ∃ t, before.foldlM step s = some t ∧ after.foldlM step t = some u := by
  rw [List.foldlM_append]
  exact Option.bind_eq_some_iff

/-- Whatever a run has gathered in a list, one of its moves has put there. -/
theorem exists_moment_of_mem {β : Type} {s : σ} (gathered : σ → List β) {origin : σ → β → Prop}
    (nothing : gathered s = [])
    (gathers : ∀ {moves : List μ} {t move u}, moves.foldlM step s = some t → step t move = some u →
      gathered u = gathered t ∨ ∃ item, gathered u = gathered t ++ [item] ∧ origin t item)
    {moves : List μ} {t : σ} (run : moves.foldlM step s = some t) :
    ∀ item ∈ gathered t, ∃ before after moment, moves = before ++ after ∧
      before.foldlM step s = some moment ∧ origin moment item := by
  refine foldlM_induction (motive := fun moves t => ∀ item ∈ gathered t,
    ∃ before after moment, moves = before ++ after ∧
      before.foldlM step s = some moment ∧ origin moment item) ?_ ?_ run
  · rw [nothing]
    exact fun _ none => absurd none List.not_mem_nil
  · intro moves t move u hrun ih hstep item mem
    have earlier : item ∈ gathered t → ∃ before after moment, moves ++ [move] = before ++ after ∧
        before.foldlM step s = some moment ∧ origin moment item := by
      intro mem
      obtain ⟨before, after, moment, rfl, rest⟩ := ih item mem
      exact ⟨before, after ++ [move], moment, List.append_assoc .., rest⟩
    rcases gathers hrun hstep with same | ⟨last, more, origin⟩
    · exact earlier (same ▸ mem)
    · rw [more] at mem
      rcases List.mem_append.mp mem with old | new
      · exact earlier old
      · cases List.mem_singleton.mp new
        exact ⟨moves, [move], t, rfl, hrun, origin⟩

section Observed

variable {β : Type} (step) (sees : σ → μ → Option β)

/-- What is seen of the moves of a run, in order. -/
def observed (s : σ) : List μ → List β
  | [] => []
  | move :: moves =>
    match step s move with
    | some t => (sees s move).toList ++ observed t moves
    | none => []

variable {step}

theorem observed_concat {s t u : σ} {moves : List μ} {move : μ}
    (run : moves.foldlM step s = some t) (last : step t move = some u) :
    observed step sees s (moves ++ [move]) =
      observed step sees s moves ++ (sees t move).toList := by
  induction moves generalizing s with
  | nil =>
    cases run
    simp only [List.nil_append, observed, last, List.append_nil]
  | cons first moves ih =>
    obtain ⟨r, hfirst, hrest⟩ := Option.bind_eq_some_iff.mp run
    simp only [List.cons_append, observed, hfirst, List.append_assoc]
    rw [ih hrest]

end Observed

end StaticHttp
