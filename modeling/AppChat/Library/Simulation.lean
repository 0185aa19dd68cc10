import AppChat.Library.Transition

/-!
Runs of one system followed by runs of another.

* `meets_append`: a run that meets a condition, and goes on with one that does;
  `meets_concat` for one more step.
* `Simulates`: every step of the first system that meets its condition is
  followed by one step of the second, or by none, and the states stay related.
  The relation may rest on what will turn out later, a property `P` of the states
  that goes back from each state to the one before.
* `Simulates.exists_run`: a run of the first system that ends in a state with `P`
  is followed by a run of the second, whose steps meet its condition.
* `Projects`: the states of the first system have a part that moves as the second
  system does, by the steps that `ev` names, or rests, as long as its steps meet a
  condition.
* `Projects.run_trace`: so that part of a run is a run, of the steps named.
* `exists_run_map`: what the second system does, the first can do as well, when each of
  the steps has one in it.
-/

namespace Transition

variable {σ α τ β : Type*} {step₁ : σ → α → Option σ} {step₂ : τ → β → Option τ}

/-- The condition on a run that goes on. -/
lemma meets_append {C : σ → α → Prop} {s t : σ} {as : List α} (bs : List α)
    (h : run step₁ s as = some t) :
    Meets step₁ C s (as ++ bs) ↔ Meets step₁ C s as ∧ Meets step₁ C t bs := by
  induction as generalizing s with
  | nil =>
      obtain rfl : s = t := by simpa using h
      simp [Meets]
  | cons b as ih =>
      obtain ⟨u, hu, ht⟩ := run_cons_eq_some.mp h
      simp [Meets, hu, ih ht, and_assoc]

/-- The condition on a run extended by one step. -/
lemma meets_concat {C : σ → α → Prop} {s t : σ} {as : List α} {a : α}
    (h : run step₁ s as = some t) :
    Meets step₁ C s (as ++ [a]) ↔ Meets step₁ C s as ∧ C t a := by
  rw [meets_append [a] h]
  simp [Meets]

/-- The steps of the first system that meet `C₁` are followed by steps of the
second that meet `C₂`, along the relation `R`, in the runs to a state with `P`. -/
structure Simulates (step₁ : σ → α → Option σ) (C₁ : σ → α → Prop) (step₂ : τ → β → Option τ)
    (C₂ : τ → β → Prop) (P : σ → Prop) (R : σ → τ → Prop) : Prop where
  back : ∀ s a s', step₁ s a = some s' → P s' → P s
  follows : ∀ s a s' t, R s t → P s' → C₁ s a → step₁ s a = some s' →
    R s' t ∨ ∃ b t', C₂ t b ∧ step₂ t b = some t' ∧ R s' t'

/-- **The simulation rule**: a run of the first system is followed by a run of the
second. -/
theorem Simulates.exists_run {C₁ : σ → α → Prop} {C₂ : τ → β → Prop} {P : σ → Prop}
    {R : σ → τ → Prop} (h : Simulates step₁ C₁ step₂ C₂ P R) {s₀ s : σ} {t₀ : τ} {as : List α}
    (h₀ : R s₀ t₀) (hrun : run step₁ s₀ as = some s) (hC : Meets step₁ C₁ s₀ as) (hP : P s) :
    ∃ bs t, run step₂ t₀ bs = some t ∧ Meets step₂ C₂ t₀ bs ∧ R s t := by
  induction as using List.reverseRecOn generalizing s with
  | nil =>
      obtain rfl : s₀ = s := by simpa using hrun
      exact ⟨[], t₀, rfl, trivial, h₀⟩
  | append_singleton as a ih =>
      obtain ⟨u, hu, hstep⟩ := run_concat_eq_some.mp hrun
      obtain ⟨hCas, hCa⟩ := (meets_concat hu).mp hC
      obtain ⟨bs, t, ht, hbs, hR⟩ := ih hu hCas (h.back u a s hstep hP)
      rcases h.follows u a s t hR hP hCa hstep with hR' | ⟨b, t', hb, ht', hR'⟩
      · exact ⟨bs, t, ht, hbs, hR'⟩
      · exact ⟨bs ++ [b], t', run_concat_eq_some.mpr ⟨t, ht, ht'⟩,
          (meets_concat ht).mpr ⟨hbs, hb⟩, hR'⟩

/-- In the states with `I`, every step of the first system that meets `C` moves the part
`π` of its state by the step of the second that `ev` names, or leaves it, and keeps `I`. -/
structure Projects (step₁ : σ → α → Option σ) (C : σ → α → Prop) (step₂ : τ → β → Option τ)
    (π : σ → τ) (ev : σ → α → Option β) (I : σ → Prop) : Prop where
  keeps : ∀ s a s', I s → C s a → step₁ s a = some s' → I s'
  projects : ∀ s a s', I s → C s a → step₁ s a = some s' →
    run step₂ (π s) (ev s a).toList = some (π s')

/-- **The projection rule**: the part of a run is a run of the steps it names. -/
theorem Projects.run_trace {C : σ → α → Prop} {π : σ → τ} {ev : σ → α → Option β} {I : σ → Prop}
    (h : Projects step₁ C step₂ π ev I) {s₀ s : σ} {as : List α} (h₀ : I s₀)
    (hrun : run step₁ s₀ as = some s) (hC : Meets step₁ C s₀ as) :
    run step₂ (π s₀) (trace step₁ ev s₀ as) = some (π s) := by
  have hall : Meets step₁ C s₀ as →
      I s ∧ run step₂ (π s₀) (trace step₁ ev s₀ as) = some (π s) := by
    refine run_induction (I := fun as s => Meets step₁ C s₀ as →
      I s ∧ run step₂ (π s₀) (trace step₁ ev s₀ as) = some (π s)) (fun _ => ⟨h₀, rfl⟩)
      (fun as s a s' hs ih hstep hC => ?_) hrun
    obtain ⟨hCas, hCa⟩ := (meets_concat hs).mp hC
    obtain ⟨hI, hpart⟩ := ih hCas
    refine ⟨h.keeps s a s' hI hCa hstep, ?_⟩
    rw [trace_concat hs]
    exact run_append_eq_some.mpr ⟨π s, hpart, h.projects s a s' hI hCa hstep⟩
  exact (hall hC).2

/-- **The embedding rule**: if the first system can make every step of the second with
`A`, it can make a run of them. -/
theorem exists_run_map {emb : β → α} {A : β → Prop} {R : τ → σ → Prop}
    (h : ∀ t s b t', R t s → A b → step₂ t b = some t' → ∃ s', step₁ s (emb b) = some s' ∧ R t' s')
    {t t' : τ} {s : σ} {bs : List β} (hR : R t s) (hA : ∀ b ∈ bs, A b)
    (hrun : run step₂ t bs = some t') : ∃ s', run step₁ s (bs.map emb) = some s' ∧ R t' s' := by
  induction bs generalizing t s with
  | nil =>
      obtain rfl : t = t' := by simpa using hrun
      exact ⟨s, rfl, hR⟩
  | cons b bs ih =>
      obtain ⟨hb, hbs⟩ := List.forall_mem_cons.mp hA
      obtain ⟨u, hu, hrest⟩ := run_cons_eq_some.mp hrun
      obtain ⟨s₁, hs₁, hR₁⟩ := h t s b u hR hb hu
      obtain ⟨s', hs', hR'⟩ := ih hR₁ hbs hrest
      exact ⟨s', run_cons_eq_some.mpr ⟨s₁, hs₁, hs'⟩, hR'⟩

end Transition
