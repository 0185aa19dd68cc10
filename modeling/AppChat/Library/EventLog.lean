import Mathlib.Tactic

/-!
Logs of events, and the sets they build.

Each event adds some elements and removes others, an element that an event does
both to being added. `contents` folds the events from the empty set;
`mem_contents_iff` reads the result off the log without the fold: an element is
there exactly when some event added it and no later one removed it.

`concat_eq_split_iff` says where an event stands in a log that has been extended
by one event: at the end, or where it stood before.

`Holds` is for events that write a content to a place: whatever a place of the log
holds was written there by an event of the log, perhaps by a later one.

`contentsFrom` folds the events from any set; `mem_contentsFrom_iff` splits what it
gives into what the log builds by itself and what it leaves of the set.

`since` are the events after the last one of a kind.
-/

namespace EventLog

variable {ε α : Type*} (adds removes : ε → α → Prop)

/-- An event of a log extended by `e` is `e` at the end, or an event of the log
before. -/
lemma concat_eq_split_iff {l l₁ l₂ : List ε} {e f : ε} :
    l ++ [e] = l₁ ++ f :: l₂ ↔
      (l₁ = l ∧ f = e ∧ l₂ = []) ∨ ∃ l₃, l₂ = l₃ ++ [e] ∧ l = l₁ ++ f :: l₃ := by
  constructor
  · intro h
    rcases List.eq_nil_or_concat l₂ with rfl | ⟨l₃, g, rfl⟩
    · obtain ⟨rfl, hef⟩ := List.append_inj' h rfl
      exact Or.inl ⟨rfl, (List.singleton_inj.mp hef).symm, rfl⟩
    · rw [List.concat_eq_append, ← List.cons_append, ← List.append_assoc] at h
      obtain ⟨rfl, heg⟩ := List.append_inj' h rfl
      exact Or.inr ⟨l₃, by rw [List.concat_eq_append, heg], rfl⟩
  · rintro (⟨rfl, rfl, rfl⟩ | ⟨l₃, rfl, rfl⟩)
    · rfl
    · simp

/-- One event applied to a set. -/
def apply (S : Set α) (e : ε) : Set α := {a | adds e a ∨ a ∈ S ∧ ¬ removes e a}

/-- The set a log of events builds from the empty set. -/
def contents (l : List ε) : Set α := l.foldl (apply adds removes) ∅

@[simp] lemma contents_nil : contents adds removes [] = ∅ := rfl

lemma contents_concat (l : List ε) (e : ε) :
    contents adds removes (l ++ [e]) = apply adds removes (contents adds removes l) e := by
  simp [contents]

variable {adds removes}

/-- **Last writer**: an element is in the set exactly when some event of the
log added it and no later event removed it. -/
theorem mem_contents_iff {l : List ε} {a : α} :
    a ∈ contents adds removes l ↔
      ∃ l₁ e l₂, l = l₁ ++ e :: l₂ ∧ adds e a ∧ ∀ f ∈ l₂, ¬ removes f a := by
  induction l using List.reverseRecOn with
  | nil => simp
  | append_singleton l e ih =>
      rw [contents_concat]
      constructor
      · rintro (he | ⟨ha, hr⟩)
        · exact ⟨l, e, [], rfl, he, by simp⟩
        · obtain ⟨l₁, f, l₂, rfl, hf, hl₂⟩ := ih.mp ha
          refine ⟨l₁, f, l₂ ++ [e], by simp, hf, fun g hg => ?_⟩
          rcases List.mem_append.mp hg with hg | hg
          · exact hl₂ g hg
          · rw [List.mem_singleton.mp hg]
            exact hr
      · rintro ⟨l₁, f, l₂, hl, hf, hl₂⟩
        rcases concat_eq_split_iff.mp hl with ⟨rfl, rfl, rfl⟩ | ⟨l₃, rfl, rfl⟩
        · exact Or.inl hf
        · refine Or.inr ⟨ih.mpr ⟨l₁, f, l₃, rfl, hf, fun h hh => hl₂ h (by simp [hh])⟩, ?_⟩
          exact hl₂ e (by simp)

/-! ### From any set -/

variable (adds removes) in
/-- The set a log of events makes of the set `S`. -/
def contentsFrom (S : Set α) (l : List ε) : Set α := l.foldl (apply adds removes) S

@[simp] lemma contentsFrom_nil (S : Set α) : contentsFrom adds removes S [] = S := rfl

lemma contentsFrom_append (S : Set α) (l l' : List ε) :
    contentsFrom adds removes S (l ++ l') =
      contentsFrom adds removes (contentsFrom adds removes S l) l' :=
  List.foldl_append

/-- An element is there if the log itself puts it there, or if it was there before and
no event removes it. -/
theorem mem_contentsFrom_iff {S : Set α} {l : List ε} {a : α} :
    a ∈ contentsFrom adds removes S l ↔
      a ∈ contents adds removes l ∨ a ∈ S ∧ ∀ e ∈ l, ¬ removes e a := by
  induction l using List.reverseRecOn with
  | nil => simp [contentsFrom]
  | append_singleton l e ih =>
      have hconcat : contentsFrom adds removes S (l ++ [e]) =
          apply adds removes (contentsFrom adds removes S l) e :=
        contentsFrom_append S l [e]
      rw [hconcat, contents_concat]
      simp only [apply, Set.mem_ofPred_eq, ih, List.forall_mem_append, List.mem_singleton,
        forall_eq]
      tauto

/-- An element that no event removes is there if an event added it, or if it was there
before. -/
lemma mem_contentsFrom_of_not_removes {S : Set α} {l : List ε} {a : α}
    (h : ∀ e ∈ l, ¬ removes e a) :
    a ∈ contentsFrom adds removes S l ↔ (∃ e ∈ l, adds e a) ∨ a ∈ S := by
  rw [mem_contentsFrom_iff, mem_contents_iff, and_iff_left h]
  refine or_congr_left ⟨?_, ?_⟩
  · rintro ⟨l₁, e, l₂, rfl, he, -⟩
    exact ⟨e, by simp, he⟩
  · rintro ⟨e, hmem, he⟩
    obtain ⟨l₁, l₂, rfl⟩ := List.append_of_mem hmem
    exact ⟨l₁, e, l₂, rfl, he, fun f hf => h f (by simp [hf])⟩

/-! ### Places that events write to -/

variable {κ : Type*} {place : ε → κ} {content : ε → α}

/-- Every place the log has written to holds the content of an event that writes
there. -/
def Holds (place : ε → κ) (content : ε → α) (l : List ε) (m : κ → Option α) : Prop :=
  ∀ e ∈ l, ∃ f ∈ l, place f = place e ∧ m (place e) = some (content f)

@[simp] lemma Holds.nil (m : κ → Option α) : Holds place content [] m :=
  fun _ he => absurd he List.not_mem_nil

/-- One step: without an event it leaves the places of the log alone, and with one
it writes to the place of the event. -/
lemma Holds.concat [DecidableEq κ] {l : List ε} {m m' : κ → Option α}
    (h : Holds place content l m) (ev : Option ε)
    (hnone : ev = none → ∀ e ∈ l, m' (place e) = m (place e))
    (hsome : ∀ e ∈ ev, m' = Function.update m (place e) (some (content e))) :
    Holds place content (l ++ ev.toList) m' := by
  cases ev with
  | none =>
      rw [Option.toList_none, List.append_nil]
      intro e he
      obtain ⟨f, hf, hplace, hm⟩ := h e he
      exact ⟨f, hf, hplace, (hnone rfl e he).trans hm⟩
  | some new =>
      have hm' := hsome new rfl
      intro e he
      by_cases hplace : place e = place new
      · refine ⟨new, by simp, hplace.symm, ?_⟩
        rw [hm', hplace, Function.update_self]
      · have hold : e ∈ l := by
          rcases List.mem_append.mp he with hold | hnew
          · exact hold
          · obtain rfl : e = new := by simpa using hnew
            exact absurd rfl hplace
        obtain ⟨f, hf, hplacef, hm⟩ := h e hold
        refine ⟨f, List.mem_append_left _ hf, hplacef, ?_⟩
        rw [hm', Function.update_of_ne hplace, hm]

/-! ### The events since the last one of a kind -/

/-- The events after the last one of the kind `f`, the newest first; all of them
if there is none. -/
def since (f : ε → Bool) (l : List ε) : List ε := l.reverse.takeWhile fun e => !f e

lemma since_concat (f : ε → Bool) (l : List ε) (e : ε) :
    since f (l ++ [e]) = if f e then [] else e :: since f l := by
  rw [since, List.reverse_append, List.reverse_singleton, List.singleton_append,
    List.takeWhile_cons]
  cases f e <;> rfl

end EventLog
