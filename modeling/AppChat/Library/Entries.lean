import AppChat.Library.EventLog

/-!
Lists of entries, each a value under a key, with any number of values under one
key.

* `under`: the values under a key; the lemmas say how it goes with the
  operations on the list, and that the other keys do not matter.
* `mem_map_fst`: a key has an entry when it has a value; `getLast?_under`: its last
  value is that of its last entry.
* `perm_under_erase`: taking an entry out takes its value out.
-/

namespace Entries

variable {κ α : Type*} [DecidableEq κ] {l : List (κ × α)} {q q' : κ} {a : α}

/-- The values under the key `q`. -/
def under (l : List (κ × α)) (q : κ) : List α := (l.filter fun e => e.1 = q).map Prod.snd

@[simp] lemma under_nil (q : κ) : under ([] : List (κ × α)) q = [] := rfl

lemma under_append (l₁ l₂ : List (κ × α)) (q : κ) :
    under (l₁ ++ l₂) q = under l₁ q ++ under l₂ q := by
  simp [under]

@[simp] lemma under_cons_self (l : List (κ × α)) (q : κ) (a : α) :
    under ((q, a) :: l) q = a :: under l q := by
  simp [under]

lemma under_cons_of_ne (l : List (κ × α)) (a : α) (h : q' ≠ q) :
    under ((q', a) :: l) q = under l q := by
  simp [under, h]

lemma mem_under : a ∈ under l q ↔ (q, a) ∈ l := by
  simp [under]

/-- A key has an entry when it has a value. -/
lemma mem_map_fst : q ∈ l.map Prod.fst ↔ under l q ≠ [] := by
  simp [under]

/-- The last value under a key is that of its last entry. -/
lemma getLast?_under : (under l q).getLast? = some a ↔
    ∃ l₁ l₂, l = l₁ ++ (q, a) :: l₂ ∧ ∀ e ∈ l₂, e.1 ≠ q := by
  induction l using List.reverseRecOn with
  | nil => simp
  | append_singleton l e ih =>
      obtain ⟨q', a'⟩ := e
      rw [under_append]
      by_cases hq : q' = q
      · subst hq
        rw [under_cons_self, under_nil, List.getLast?_concat, Option.some.injEq]
        constructor
        · rintro rfl
          exact ⟨l, [], rfl, by simp⟩
        · rintro ⟨l₁, l₂, hl, hl₂⟩
          rcases EventLog.concat_eq_split_iff.mp hl with ⟨-, he, -⟩ | ⟨l₃, rfl, -⟩
          · exact (Prod.mk.inj he).2.symm
          · exact absurd rfl (hl₂ (q', a') (by simp))
      · rw [under_cons_of_ne _ _ hq, under_nil, List.append_nil, ih]
        constructor
        · rintro ⟨l₁, l₂, rfl, hl₂⟩
          refine ⟨l₁, l₂ ++ [(q', a')], by simp, fun e he => ?_⟩
          rcases List.mem_append.mp he with he | he
          · exact hl₂ e he
          · rw [List.mem_singleton.mp he]
            exact hq
        · rintro ⟨l₁, l₂, hl, hl₂⟩
          rcases EventLog.concat_eq_split_iff.mp hl with ⟨-, he, -⟩ | ⟨l₃, rfl, hl₃⟩
          · exact absurd (Prod.mk.inj he).1.symm hq
          · exact ⟨l₁, l₃, hl₃, fun e he => hl₂ e (by simp [he])⟩

/-- Distinct entries under one key have distinct values. -/
lemma nodup_under (h : l.Nodup) (q : κ) : (under l q).Nodup := by
  refine (h.filter _).map_on fun e he e' he' hk => ?_
  have h₁ : e.1 = q := by simpa using (List.mem_filter.mp he).2
  have h₂ : e'.1 = q := by simpa using (List.mem_filter.mp he').2
  exact Prod.ext (h₁.trans h₂.symm) hk

/-! ### Entries all under one key -/

@[simp] lemma under_map_self (as : List α) (q : κ) : under (as.map fun a => (q, a)) q = as := by
  simp [under, List.filter_map, Function.comp_def]

lemma under_map_of_ne (as : List α) (h : q' ≠ q) : under (as.map fun a => (q', a)) q = [] := by
  simp [under, List.filter_map, Function.comp_def, h]

@[simp] lemma under_replicate_self (n : ℕ) (q : κ) (a : α) :
    under (List.replicate n (q, a)) q = List.replicate n a := by
  simp [under]

lemma under_replicate_of_ne (n : ℕ) (a : α) (h : q' ≠ q) :
    under (List.replicate n (q', a)) q = [] := by
  simp [under, h]

/-! ### Taking entries out -/

@[simp] lemma under_filter_self (l : List (κ × α)) (q : κ) :
    under (l.filter fun e => e.1 ≠ q) q = [] := by
  rw [under, List.filter_filter]
  simp

lemma under_filter_of_ne (l : List (κ × α)) (h : q' ≠ q) :
    under (l.filter fun e => e.1 ≠ q') q = under l q := by
  rw [under, List.filter_filter, under]
  congr 1
  refine List.filter_congr fun e _ => ?_
  by_cases he : e.1 = q
  · simp [he, Ne.symm h]
  · simp [he]

variable [DecidableEq α]

/-- Taking an entry out takes its value out. -/
lemma perm_under_erase (h : (q, a) ∈ l) : (under l q).Perm (a :: under (l.erase (q, a)) q) := by
  have hp : l.Perm ((q, a) :: l.erase (q, a)) := List.perm_cons_erase h
  rw [← under_cons_self]
  exact (hp.filter _).map _

lemma under_erase_of_ne (h : q' ≠ q) : under (l.erase (q', a)) q = under l q := by
  rw [under, ← List.erase_filter, List.erase_of_not_mem (by simp [h]), under]

end Entries
