import AppChat.Library.Transition

/-!
Actions that work off what is there.

Some of the actions of a system, those with `A`, only work off what the others have
left to do; `μ` bounds what is left, and while there is something left, one of them is
enabled.

* `Drains.run_le`: what a run of such actions has worked off is at least its length.
* `Drains.run_stops`: so such a run comes to an end, and where it ends nothing is left.
* `Drains.exists_run`: from every state some such run works everything off.
-/

namespace Transition

variable {σ α : Type*} {step : σ → α → Option σ}

/-- In the states with `I`, which the actions with `A` keep, each of them takes
something from `μ`, and there is one as long as something is left. -/
structure Drains (step : σ → α → Option σ) (A : α → Prop) (I : σ → Prop) (μ : σ → ℕ) : Prop where
  keeps : ∀ s a t, I s → A a → step s a = some t → I t
  drops : ∀ s a t, I s → A a → step s a = some t → μ t < μ s
  progress : ∀ s, I s → μ s ≠ 0 → ∃ a t, A a ∧ step s a = some t

namespace Drains

variable {A : α → Prop} {I : σ → Prop} {μ : σ → ℕ} {s t : σ} {as : List α}

/-- A run works off as much as it is long. -/
lemma run_le (h : Drains step A I μ) (hs : I s) (hA : ∀ a ∈ as, A a)
    (hrun : run step s as = some t) : I t ∧ as.length + μ t ≤ μ s := by
  induction as generalizing s with
  | nil =>
      obtain rfl : s = t := by simpa using hrun
      exact ⟨hs, by simp⟩
  | cons a as ih =>
      obtain ⟨ha, has⟩ := List.forall_mem_cons.mp hA
      obtain ⟨u, hu, ht⟩ := run_cons_eq_some.mp hrun
      obtain ⟨hI, hle⟩ := ih (h.keeps s a u hs ha hu) has ht
      have hlt := h.drops s a u hs ha hu
      refine ⟨hI, ?_⟩
      calc (a :: as).length + μ t = as.length + μ t + 1 := by rw [List.length_cons]; omega
        _ ≤ μ u + 1 := by omega
        _ ≤ μ s := hlt

/-- **The rule for work that runs out**: a run is no longer than what there was to do,
and it can go on, or nothing is left. -/
theorem run_stops (h : Drains step A I μ) (hs : I s) (hA : ∀ a ∈ as, A a)
    (hrun : run step s as = some t) :
    I t ∧ as.length ≤ μ s ∧ ((∃ a u, A a ∧ step t a = some u) ∨ μ t = 0) := by
  obtain ⟨hI, hle⟩ := h.run_le hs hA hrun
  refine ⟨hI, by omega, ?_⟩
  by_cases hzero : μ t = 0
  · exact Or.inr hzero
  · exact Or.inl (h.progress t hI hzero)

/-- Some run works everything off. -/
theorem exists_run (h : Drains step A I μ) (hs : I s) :
    ∃ as t, (∀ a ∈ as, A a) ∧ run step s as = some t ∧ I t ∧ μ t = 0 := by
  induction hn : μ s using Nat.strong_induction_on generalizing s with
  | _ n ih =>
      by_cases hzero : μ s = 0
      · exact ⟨[], s, by simp, rfl, hs, hzero⟩
      · obtain ⟨a, u, ha, hu⟩ := h.progress s hs hzero
        have hlt := h.drops s a u hs ha hu
        obtain ⟨as, t, has, ht, hI, ht₀⟩ := ih (μ u) (hn ▸ hlt) (h.keeps s a u hs ha hu) rfl
        exact ⟨a :: as, t, List.forall_mem_cons.mpr ⟨ha, has⟩, run_cons_eq_some.mpr ⟨u, hu, ht⟩,
          hI, ht₀⟩

end Drains

end Transition
