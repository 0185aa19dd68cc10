import Mathlib.Tactic

/-!
Paths written with slashes.

* `components`: the parts of a path between its slashes, without the empty ones.
* `standardized`: the path with one slash between its components and none at
  its ends; two paths name the same place when they have the same components
  (`standardized_eq_iff`).
* `components_append_slash`, `components_of_not_mem`, `head_components`: the
  components of a path put together from parts.
* `toString_nat_inj`: a number is told by its digits, none of which is a slash.
-/

namespace SlashPath

/-- The parts of a path between its slashes, without the empty ones. -/
def components (path : String) : List (List Char) :=
  (path.toList.splitOn '/').filter fun l => l ≠ []

/-- The path with one slash between its components. -/
@[irreducible]
def standardized (path : String) : String :=
  String.ofList (['/'].intercalate (components path))

/-- No part of a split contains the character that was split on. -/
lemma not_mem_of_mem_splitOn {c : Char} {xs l : List Char} (h : l ∈ xs.splitOn c) : c ∉ l := by
  induction xs generalizing l with
  | nil =>
      obtain rfl : l = [] := by simpa using h
      exact List.not_mem_nil
  | cons x xs ih =>
      rw [List.splitOn_cons_eq_if_modifyHead] at h
      split_ifs at h with hx
      · rcases List.mem_cons.mp h with rfl | h
        · exact List.not_mem_nil
        · exact ih h
      · obtain ⟨part, rest, hsplit⟩ := List.exists_cons_of_ne_nil (List.splitOn_ne_nil c xs)
        rw [hsplit, List.modifyHead_cons] at h
        rw [hsplit] at ih
        rcases List.mem_cons.mp h with rfl | h
        · intro hc
          rcases List.mem_cons.mp hc with rfl | hc
          · exact hx (beq_self_eq_true c)
          · exact ih List.mem_cons_self hc
        · exact ih (List.mem_cons_of_mem _ h)

/-- Standardizing a path keeps its components. -/
lemma components_standardized (path : String) :
    components (standardized path) = components path := by
  have hslash : ∀ l ∈ components path, '/' ∉ l := fun l hl =>
    not_mem_of_mem_splitOn (List.mem_of_mem_filter hl)
  have hne : ∀ l ∈ components path, l ≠ [] := fun l hl => by
    simpa using (List.mem_filter.mp hl).2
  rw [components, standardized, String.toList_ofList]
  by_cases hnil : components path = []
  · rw [hnil]
    rfl
  · rw [List.splitOn_intercalate '/' hslash hnil, List.filter_eq_self]
    simpa using hne

/-- Two paths are the same once standardized when they have the same components. -/
lemma standardized_eq_iff {p q : String} :
    standardized p = standardized q ↔ components p = components q := by
  constructor
  · intro h
    rw [← components_standardized p, h, components_standardized]
  · intro h
    rw [standardized, h, standardized]

/-! ### Paths put together -/

/-- A slash between two parts keeps their components apart. -/
lemma components_append_slash (p q : String) :
    components (p ++ "/" ++ q) = components p ++ components q := by
  have hslash : (p ++ "/" ++ q).toList = p.toList ++ '/' :: q.toList := by simp
  rw [components, hslash, List.splitOn_append_cons_self, List.filter_append, components, components]

/-- A part without a slash is one component. -/
lemma components_of_not_mem {p : String} (hp : p.toList ≠ []) (hslash : '/' ∉ p.toList) :
    components p = [p.toList] := by
  rw [components, List.splitOn_eq_singleton hslash]
  simp [hp]

/-- The first component starts as the path does. -/
lemma head_components {p q : String} {c : Char} {rest : List Char} (hp : p.toList = c :: rest)
    (hc : c ≠ '/') : ∃ l L, components (p ++ q) = (c :: l) :: L := by
  obtain ⟨part, parts, hsplit⟩ :=
    List.exists_cons_of_ne_nil (List.splitOn_ne_nil '/' (rest ++ q.toList))
  refine ⟨part, parts.filter fun l => l ≠ [], ?_⟩
  rw [components, String.toList_append, hp, List.cons_append,
    List.splitOn_cons_eq_if_modifyHead, if_neg (by simpa using hc), hsplit, List.modifyHead_cons,
    List.filter_cons_of_pos (by simp)]

/-! ### Numbers in a path -/

/-- The characters of a number are digits. -/
lemma isDigit_of_mem_toString {n : ℕ} {c : Char} (h : c ∈ (toString n).toList) :
    c.isDigit = true := by
  rw [Nat.toString_eq_repr, Nat.toList_repr] at h
  exact Nat.isDigit_of_mem_toDigits (by omega) (by omega) h

lemma toString_nat_ne_nil (n : ℕ) : (toString n).toList ≠ [] := by
  rw [Nat.toString_eq_repr, Nat.toList_repr]
  exact Nat.toDigits_ne_nil

/-- A number is told by its digits. -/
lemma toString_nat_inj {m n : ℕ} : toString m = toString n ↔ m = n := by
  constructor
  · intro h
    rw [Nat.toString_eq_repr, Nat.toString_eq_repr, ← String.toList_inj, Nat.toList_repr,
      Nat.toList_repr] at h
    rw [← Nat.ofDigitChars_ten_toDigits (n := m), h, Nat.ofDigitChars_ten_toDigits]
  · exact fun h => h ▸ rfl

end SlashPath
