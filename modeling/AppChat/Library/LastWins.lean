import Mathlib.Tactic
import Mathlib.Data.List.AList

/-!
Tables in which the last value filed under a key stays.

* `file`, `values`: filing a value under its key, and the values of a table, in
  no particular order.
* `lookup_foldl_file`: after filing a list of values, a key holds the last value
  of the list with this key.
* `Keyed`: every value is filed under its own key.
* `eraseIdx_eq_filter`: in a list of values with distinct keys, a position and a
  key take out the same value.
* `perm_map_values`: two tables whose entries agree up to `f` have the same
  values up to `f`, and sorting decides their order (`eq_of_sorted`).
-/

namespace LastWins

variable {κ α β : Type*}

/-- A table of values of type `α` under keys of type `κ`. -/
abbrev Table (κ α : Type*) := AList fun _ : κ => α

/-- The values of a table. -/
def values (d : Table κ α) : List α := d.entries.map Sigma.snd

variable [DecidableEq κ] {key : α → κ} {d : Table κ α}

/-- A value is in the table when it is filed under some key. -/
lemma mem_values {a : α} : a ∈ values d ↔ ∃ k, d.lookup k = some a := by
  simp only [values, List.mem_map]
  constructor
  · rintro ⟨e, he, rfl⟩
    exact ⟨e.1, AList.mem_lookup_iff.mpr he⟩
  · rintro ⟨k, hk⟩
    exact ⟨⟨k, a⟩, AList.mem_lookup_iff.mp hk, rfl⟩

/-- File a value under its key, in place of the one that is there. -/
def file (key : α → κ) (d : Table κ α) (a : α) : Table κ α := d.insert (key a) a

lemma lookup_file (a : α) (k : κ) :
    (file key d a).lookup k = if key a = k then some a else d.lookup k := by
  by_cases h : key a = k
  · subst h
    rw [file, AList.lookup_insert, if_pos rfl]
  · rw [file, AList.lookup_insert_ne (Ne.symm h), if_neg h]

/-! ### Filing a list -/

/-- **The last one wins**: after filing a list into the empty table, a key holds
the last value of the list with this key. -/
theorem lookup_foldl_file (l : List α) (k : κ) :
    (l.foldl (file key) ∅).lookup k = (l.filter fun a => key a = k).getLast? := by
  induction l using List.reverseRecOn with
  | nil => rfl
  | append_singleton l a ih =>
      rw [List.foldl_concat, lookup_file, List.filter_append]
      by_cases h : key a = k
      · simp [h]
      · rw [if_neg h, ih]
        simp [h]

/-- The keys of the table are those of the values filed. -/
lemma mem_foldl_file (l : List α) (k : κ) : k ∈ l.foldl (file key) ∅ ↔ ∃ a ∈ l, key a = k := by
  rw [← AList.lookup_isSome, lookup_foldl_file]
  simp

/-! ### Values under their own keys -/

/-- Every value is filed under its own key. -/
def Keyed (key : α → κ) (d : Table κ α) : Prop := ∀ k a, d.lookup k = some a → key a = k

lemma keyed_empty : Keyed key ∅ := by
  intro k a h
  cases h

/-- Filing keeps the values under their own keys. -/
lemma Keyed.file (h : Keyed key d) (a : α) : Keyed key (LastWins.file key d a) := by
  intro k b hb
  rw [lookup_file] at hb
  split_ifs at hb with hk
  · exact Option.some.inj hb ▸ hk
  · exact h k b hb

/-- The key of a value of the table is in the table. -/
lemma Keyed.mem_of_mem_values (h : Keyed key d) {a : α} (ha : a ∈ values d) : key a ∈ d := by
  obtain ⟨k, hk⟩ := mem_values.mp ha
  rw [h k a hk, ← AList.lookup_isSome, hk]
  rfl

/-- The keys of the values are the keys of the table. -/
lemma Keyed.map_values (h : Keyed key d) : (values d).map key = d.keys := by
  rw [values, List.map_map, AList.keys, List.keys]
  refine List.map_congr_left fun e he => ?_
  exact h e.1 e.2 (AList.mem_lookup_iff.mpr he)

/-- A value of the table is found under its own key. -/
lemma Keyed.lookup_of_mem_values (h : Keyed key d) {a : α} (ha : a ∈ values d) :
    d.lookup (key a) = some a := by
  obtain ⟨k, hk⟩ := mem_values.mp ha
  rwa [h k a hk]

/-- Filing displaces at most the value with the same key. -/
lemma keys_subset_file (a : α) : d.keys ⊆ (file key d a).keys := by
  intro k hk
  rw [← AList.mem_keys] at hk ⊢
  rw [file, AList.mem_insert]
  exact Or.inr hk

/-! ### Lists of values with distinct keys -/

omit [DecidableEq κ] in
/-- A list of values found in a table under distinct keys is no longer than the
table. -/
lemma length_le_of_subset_keys {l : List α} (h : (l.map key).Nodup) (hsub : l.map key ⊆ d.keys) :
    l.length ≤ (values d).length := by
  have hle := (List.subperm_of_subset h hsub).length_le
  simpa [values, AList.keys, List.keys] using hle

/-- Taking out the value at a position is taking out its key. -/
lemma eraseIdx_eq_filter {l : List α} (h : (l.map key).Nodup) {i : ℕ} {a : α}
    (ha : l[i]? = some a) : l.eraseIdx i = l.filter fun b => key b ≠ key a := by
  induction l generalizing i with
  | nil => simp at ha
  | cons b l ih =>
      rw [List.map_cons, List.nodup_cons] at h
      cases i with
      | zero =>
          obtain rfl : b = a := by simpa using ha
          have hrest : l.filter (fun c => key c ≠ key b) = l := by
            rw [List.filter_eq_self]
            intro c hc
            have hne : key c ≠ key b := fun hk => h.1 (hk ▸ List.mem_map_of_mem hc)
            simpa using hne
          rw [List.filter_cons_of_neg (by simp), hrest]
          rfl
      | succ i =>
          have hmem : a ∈ l := List.mem_of_getElem? (by simpa using ha)
          have hne : key b ≠ key a := fun hk => h.1 (hk ▸ List.mem_map_of_mem hmem)
          rw [List.filter_cons_of_pos (by simpa using hne), List.eraseIdx_cons_succ,
            ih h.2 (by simpa using ha)]

/-! ### Tables that agree up to a function -/

/-- The values, key by key. -/
lemma map_values_eq (f : α → β) (d : Table κ α) :
    (values d).map f = d.keys.filterMap fun k => (d.lookup k).map f := by
  rw [values, List.map_map, AList.keys, List.keys, List.filterMap_map, ← List.filterMap_eq_map]
  refine List.filterMap_congr fun e he => ?_
  have hl : d.lookup e.1 = some e.2 := AList.mem_lookup_iff.mpr he
  simp [hl]

/-- Tables whose entries agree up to `f` have the same values up to `f`. -/
theorem perm_map_values {f : α → β} {d d' : Table κ α}
    (h : ∀ k, (d.lookup k).map f = (d'.lookup k).map f) :
    ((values d).map f).Perm ((values d').map f) := by
  have hmem : ∀ k, k ∈ d.keys ↔ k ∈ d'.keys := fun k => by
    rw [← AList.mem_keys, ← AList.mem_keys, ← AList.lookup_isSome, ← AList.lookup_isSome,
      ← Option.isSome_map (f := f), h k, Option.isSome_map]
  have hkeys : d.keys.Perm d'.keys :=
    (List.perm_ext_iff_of_nodup d.keys_nodup d'.keys_nodup).mpr hmem
  rw [map_values_eq, map_values_eq, funext h]
  exact hkeys.filterMap _

/-- Two lists that are sorted by `f` and the same up to `f` and order are the
same up to `f`. -/
lemma eq_of_sorted [LinearOrder β] {f : α → β} {l l' : List α}
    (hl : l.Pairwise fun a b => f b ≤ f a) (hl' : l'.Pairwise fun a b => f b ≤ f a)
    (h : (l.map f).Perm (l'.map f)) : l.map f = l'.map f := by
  have h₁ : (l.map f).Pairwise fun a b => b ≤ a := List.pairwise_map.mpr hl
  have h₂ : (l'.map f).Pairwise fun a b => b ≤ a := List.pairwise_map.mpr hl'
  exact h.eq_of_pairwise (fun a b _ _ hab hba => le_antisymm hba hab) h₁ h₂

end LastWins
