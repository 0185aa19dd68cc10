import Mathlib.Tactic

/-!
Runs of a partial step function.

A system is a function `step : σ → α → Option σ`: the action `a` is enabled in
the state `s` when `step s a` is `some t`, and then leads to `t`. Which action
comes next is left open, so a statement about every list of actions is a
statement about every interleaving.

* `run`: the state a list of actions leads to; `run_append_eq_some` cuts a run in
  two, and `run_total` is for a step function that is not partial.
* `run_invariant`: what every step preserves, every run preserves;
  `run_induction` is the same for what speaks of the actions so far.
* `Meets`, `Meets.invariant`: the same for the runs all of whose steps meet a
  condition on the state before the step and the action; `meets_iff` looks at one
  step of the run at a time.
* `trace`: the events a run emits; `trace_invariant` carries a relation between
  the events so far and the state.
* `update_eq_some`: what is in a table of a state after one entry has been set.
-/

namespace Transition

variable {σ α ε : Type*} {step : σ → α → Option σ}

/-- The state a list of actions leads to, `none` once one of them is not
enabled. -/
def run (step : σ → α → Option σ) : σ → List α → Option σ
  | s, [] => some s
  | s, a :: as => (step s a).bind fun t => run step t as

@[simp] lemma run_nil (s : σ) : run step s [] = some s := rfl

lemma run_cons_eq_some {s u : σ} {a : α} {as : List α} :
    run step s (a :: as) = some u ↔ ∃ t, step s a = some t ∧ run step t as = some u := by
  rw [run, Option.bind_eq_some_iff]

/-- A run of a concatenation is a run of the first part followed by a run of
the second. -/
lemma run_append_eq_some {s u : σ} {as bs : List α} :
    run step s (as ++ bs) = some u ↔ ∃ t, run step s as = some t ∧ run step t bs = some u := by
  induction as generalizing s with
  | nil => simp
  | cons a as ih =>
      simp only [List.cons_append, run_cons_eq_some, ih]
      constructor
      · rintro ⟨t, ht, t', ht', hu⟩
        exact ⟨t', ⟨t, ht, ht'⟩, hu⟩
      · rintro ⟨t', ⟨t, ht, ht'⟩, hu⟩
        exact ⟨t, ht, t', ht', hu⟩

/-- The last step of a run. -/
lemma run_concat_eq_some {s u : σ} {as : List α} {a : α} :
    run step s (as ++ [a]) = some u ↔ ∃ t, run step s as = some t ∧ step t a = some u := by
  simp [run_append_eq_some, run_cons_eq_some]

/-- A run has been through the states its prefixes lead to. -/
lemma exists_run_of_prefix {s u : σ} {as bs : List α} (h : run step s as = some u)
    (hbs : bs <+: as) : ∃ t, run step s bs = some t := by
  obtain ⟨cs, rfl⟩ := hbs
  obtain ⟨t, ht, -⟩ := run_append_eq_some.mp h
  exact ⟨t, ht⟩

/-- **The invariant rule**: what every step preserves, every run preserves. -/
theorem run_invariant {I : σ → Prop} (hstep : ∀ s a t, I s → step s a = some t → I t)
    {s t : σ} {as : List α} (hs : I s) (h : run step s as = some t) : I t := by
  induction as generalizing s with
  | nil => cases h; exact hs
  | cons a as ih =>
      obtain ⟨u, hu, ht⟩ := run_cons_eq_some.mp h
      exact ih (hstep s a u hs hu) ht

/-- **The rule for the actions so far**: what holds of the empty run, and of a
run with one more step once it holds of the run, holds of every run. -/
theorem run_induction {I : List α → σ → Prop} {s₀ : σ} (h₀ : I [] s₀)
    (hstep : ∀ as s a t, run step s₀ as = some s → I as s → step s a = some t → I (as ++ [a]) t)
    {as : List α} {t : σ} (h : run step s₀ as = some t) : I as t := by
  induction as using List.reverseRecOn generalizing t with
  | nil => cases h; exact h₀
  | append_singleton as a ih =>
      obtain ⟨u, hu, ht⟩ := run_concat_eq_some.mp h
      exact hstep as u a t hu (ih hu) ht

/-- What holds at the beginning of a run and not at its end has been lost in a step. -/
lemma exists_step_of_lost {P : σ → Prop} {s t : σ} {as : List α} (h : run step s as = some t)
    (hs : P s) (ht : ¬ P t) : ∃ bs a cs u v, as = bs ++ a :: cs ∧ run step s bs = some u ∧
      step u a = some v ∧ P u ∧ ¬ P v := by
  induction as generalizing s with
  | nil =>
      obtain rfl : s = t := by simpa using h
      exact absurd hs ht
  | cons a as ih =>
      obtain ⟨r, hr, h⟩ := run_cons_eq_some.mp h
      by_cases hP : P r
      · obtain ⟨bs, b, cs, u, v, rfl, hbs, hrest⟩ := ih h hP
        exact ⟨a :: bs, b, cs, u, v, rfl, run_cons_eq_some.mpr ⟨r, hr, hbs⟩, hrest⟩
      · exact ⟨[], a, as, s, r, rfl, rfl, hr, hs, hP⟩

/-- Where every action is enabled, a run is a fold. -/
lemma run_total (f : σ → α → σ) (s : σ) (as : List α) :
    run (fun s a => some (f s a)) s as = some (as.foldl f s) := by
  induction as generalizing s with
  | nil => rfl
  | cons a as ih => exact ih (f s a)

/-! ### Runs whose steps meet a condition -/

/-- Every step of the run from `s` meets the condition `C` on the state before
the step and the action. -/
def Meets (step : σ → α → Option σ) (C : σ → α → Prop) : σ → List α → Prop
  | _, [] => True
  | s, a :: as => C s a ∧ ∀ t ∈ step s a, Meets step C t as

instance decidableMeets (step : σ → α → Option σ) (C : σ → α → Prop)
    [∀ s a, Decidable (C s a)] : ∀ s as, Decidable (Meets step C s as)
  | _, [] => inferInstanceAs (Decidable True)
  | s, a :: as =>
      haveI := fun t => decidableMeets step C t as
      inferInstanceAs (Decidable (C s a ∧ ∀ t ∈ step s a, Meets step C t as))

lemma Meets.head {C : σ → α → Prop} {s : σ} {a : α} {as : List α}
    (h : Meets step C s (a :: as)) : C s a := h.1

lemma Meets.tail {C : σ → α → Prop} {s t : σ} {a : α} {as : List α}
    (h : Meets step C s (a :: as)) (ht : step s a = some t) : Meets step C t as := h.2 t ht

/-- **The invariant rule under a condition**: what every step that meets the
condition preserves, every run whose steps all meet it preserves. -/
theorem Meets.invariant {I : σ → Prop} {C : σ → α → Prop}
    (hstep : ∀ s a t, I s → C s a → step s a = some t → I t)
    {s t : σ} {as : List α} (hC : Meets step C s as) (hs : I s)
    (h : run step s as = some t) : I t := by
  induction as generalizing s with
  | nil => cases h; exact hs
  | cons a as ih =>
      obtain ⟨u, hu, ht⟩ := run_cons_eq_some.mp h
      exact ih (hC.tail hu) (hstep s a u hs hC.head hu) ht

/-- A run meets a condition when each of its steps does, in the state that the
steps before it lead to. -/
lemma meets_iff {C : σ → α → Prop} {s : σ} {as : List α} :
    Meets step C s as ↔
      ∀ bs a cs t, as = bs ++ a :: cs → run step s bs = some t → C t a := by
  induction as generalizing s with
  | nil => simp [Meets]
  | cons b as ih =>
      constructor
      · intro h bs a cs t has hbs
        cases bs with
        | nil =>
            obtain ⟨rfl, -⟩ := List.cons.inj has
            cases hbs
            exact h.head
        | cons b' bs =>
            obtain ⟨rfl, htail⟩ := List.cons.inj has
            obtain ⟨u, hu, ht⟩ := run_cons_eq_some.mp hbs
            exact ih.mp (h.tail hu) bs a cs t htail ht
      · intro h
        refine ⟨h [] b as s rfl rfl, fun u hu => ih.mpr fun bs a cs t has ht => ?_⟩
        exact h (b :: bs) a cs t (by rw [has, List.cons_append]) (run_cons_eq_some.mpr ⟨u, hu, ht⟩)

/-- What a run meets, its prefixes meet. -/
lemma Meets.of_prefix {C : σ → α → Prop} {s : σ} {as bs : List α} (h : Meets step C s as)
    (hbs : bs <+: as) : Meets step C s bs := by
  obtain ⟨cs, rfl⟩ := hbs
  refine meets_iff.mpr fun ds a es t hds ht => ?_
  exact meets_iff.mp h ds a (es ++ cs) t (by rw [hds, List.append_assoc, List.cons_append]) ht

/-- A condition on the actions alone is met when every action of the list
satisfies it. -/
lemma meets_of_forall_mem {P : α → Prop} {s : σ} {as : List α} (h : ∀ a ∈ as, P a) :
    Meets step (fun _ a => P a) s as := by
  induction as generalizing s with
  | nil => trivial
  | cons a as ih =>
      exact ⟨h a (by simp), fun _ _ => ih fun b hb => h b (by simp [hb])⟩

/-- Every run meets the condition that asks for nothing. -/
lemma meets_true (step : σ → α → Option σ) (s : σ) (as : List α) :
    Meets step (fun _ _ => True) s as :=
  meets_of_forall_mem (P := fun _ => True) fun _ _ => trivial

/-! ### The events of a run -/

/-- The events a run emits, in order, `ev s a` being the event of the action
`a` in the state `s`. -/
def trace (step : σ → α → Option σ) (ev : σ → α → Option ε) : σ → List α → List ε
  | _, [] => []
  | s, a :: as => (ev s a).toList ++ ((step s a).map fun t => trace step ev t as).getD []

/-- The events of a run that goes on. -/
lemma trace_append {ev : σ → α → Option ε} {s t : σ} {as : List α} (bs : List α)
    (h : run step s as = some t) :
    trace step ev s (as ++ bs) = trace step ev s as ++ trace step ev t bs := by
  induction as generalizing s with
  | nil =>
      obtain rfl : s = t := by simpa using h
      rfl
  | cons b as ih =>
      obtain ⟨u, hu, ht⟩ := run_cons_eq_some.mp h
      simp [trace, hu, ih ht]

/-- The events of a run extended by one step. -/
lemma trace_concat {ev : σ → α → Option ε} {s t : σ} {as : List α} {a : α}
    (h : run step s as = some t) :
    trace step ev s (as ++ [a]) = trace step ev s as ++ (ev t a).toList := by
  rw [trace_append [a] h]
  cases hstep : step t a <;> simp [trace, hstep]

/-- The events of a run stay when it goes on. -/
lemma trace_subset_concat {ev : σ → α → Option ε} {s t : σ} {as : List α} (a : α)
    (h : run step s as = some t) : trace step ev s as ⊆ trace step ev s (as ++ [a]) := by
  rw [trace_concat h]
  exact List.subset_append_left _ _

/-- The events of a run extended by one step, as a set. -/
lemma mem_trace_concat {ev : σ → α → Option ε} {s t : σ} {as : List α} {a : α} {e : ε}
    (h : run step s as = some t) :
    e ∈ trace step ev s (as ++ [a]) ↔ e ∈ trace step ev s as ∨ ev t a = some e := by
  rw [trace_concat h, List.mem_append, Option.mem_toList]

/-- The event of a step is one of the events of the run. -/
lemma mem_trace_of_split {ev : σ → α → Option ε} {s t : σ} {as : List α} {a : α} {e : ε}
    (bs : List α) (h : run step s as = some t) (he : ev t a = some e) :
    e ∈ trace step ev s (as ++ a :: bs) := by
  rw [trace_append _ h, trace, he]
  simp

/-- **The history rule**: a relation between the events so far and the state,
preserved by every step, holds at the end of every run. -/
theorem trace_invariant {ev : σ → α → Option ε} {I : List ε → σ → Prop} {s₀ : σ}
    (hstep : ∀ l s a t, I l s → step s a = some t → I (l ++ (ev s a).toList) t)
    (h₀ : I [] s₀) {as : List α} {t : σ} (h : run step s₀ as = some t) :
    I (trace step ev s₀ as) t := by
  refine run_induction (I := fun as t => I (trace step ev s₀ as) t) h₀ ?_ h
  intro as s a t hs ih ht
  rw [trace_concat hs]
  exact hstep _ s a t ih ht

/-! ### Tables -/

/-- An entry of a table after one has been set: the new one, or one that was there
before. -/
lemma update_eq_some {ι β : Type*} [DecidableEq ι] {f : ι → Option β} {i j : ι} {x y : β}
    (h : Function.update f i (some x) j = some y) :
    (j = i ∧ y = x) ∨ (j ≠ i ∧ f j = some y) := by
  by_cases hji : j = i
  · subst hji
    rw [Function.update_self] at h
    exact Or.inl ⟨rfl, (Option.some.inj h).symm⟩
  · rw [Function.update_of_ne hji] at h
    exact Or.inr ⟨hji, h⟩

end Transition
