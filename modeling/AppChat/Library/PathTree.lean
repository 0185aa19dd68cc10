import Mathlib.Tactic

/-!
Trees of values addressed by paths.

A tree is kept as the list of its leaves, each with its path from the root, no
path being an initial segment of another (`prefixFree`): an inner node is
there exactly as long as some leaf is below it, so a node without children
vanishes by itself. This is the data model of a hierarchical store in which a
value can be written at any path.

* `put`, `remove`, `write`: writing a value, or nothing, at a path. A value
  written at `p` displaces what is above and below `p`; nothing written at `p`
  displaces what is below.
* `updateChildValues` writes several children of one node and leaves the others
  alone; `setValue` replaces the node.
* `mem_write`, `mem_updateChildValues`, `mem_setValue` say which leaves are
  there afterwards; the proofs about a store use these and never unfold the
  operations.
* `Present`, `childKeys`: whether a node exists, and the keys of its children.
-/

/-- Two paths are comparable when one is an initial segment of the other. -/
def Comparable {κ : Type*} (p q : List κ) : Prop := p <+: q ∨ q <+: p

instance {κ : Type*} [DecidableEq κ] (p q : List κ) : Decidable (Comparable p q) :=
  inferInstanceAs (Decidable (p <+: q ∨ q <+: p))

lemma comparable_comm {κ : Type*} {p q : List κ} : Comparable p q ↔ Comparable q p := Or.comm

@[simp] lemma comparable_cons {κ : Type*} {a b : κ} {p q : List κ} :
    Comparable (a :: p) (b :: q) ↔ a = b ∧ Comparable p q := by
  simp only [Comparable, List.cons_prefix_cons, eq_comm (a := b)]
  tauto

@[simp] lemma comparable_nil_left {κ : Type*} {p : List κ} : Comparable [] p :=
  Or.inl List.nil_prefix

@[simp] lemma comparable_nil_right {κ : Type*} {p : List κ} : Comparable p [] :=
  Or.inr List.nil_prefix

/-- Two children of one node are comparable only if they are the same. -/
lemma comparable_append_singleton {κ : Type*} {p : List κ} {a b : κ} :
    Comparable (p ++ [a]) (p ++ [b]) ↔ a = b := by
  simp [Comparable, List.prefix_append_right_inj, eq_comm]

/-- A path comparable with an extension of `p` is comparable with `p`. -/
lemma Comparable.of_append {κ : Type*} {p r q : List κ} (h : Comparable (p ++ r) q) :
    Comparable p q := by
  rcases h with h | h
  · exact Or.inl ((List.prefix_append p r).trans h)
  · exact List.prefix_or_prefix_of_prefix (List.prefix_append p r) h

/-- Two paths that leave a set with their last keys are comparable only if they are the
same. -/
lemma Comparable.eq_of_notMem {κ : Type*} {s : Set κ} {p q : List κ} {a b : κ}
    (h : Comparable (p ++ [a]) (q ++ [b])) (hp : ∀ x ∈ p, x ∈ s) (hq : ∀ x ∈ q, x ∈ s)
    (ha : a ∉ s) (hb : b ∉ s) : p ++ [a] = q ++ [b] := by
  -- a proper initial segment would end inside the other path
  have key : ∀ {p q : List κ} {a b : κ}, (∀ x ∈ q, x ∈ s) → a ∉ s → p ++ [a] <+: q ++ [b] →
      p ++ [a] = q ++ [b] := by
    intro p q a b hq ha h
    rcases List.prefix_concat_iff.mp h with h | h
    · exact h
    · exact absurd (hq a (h.subset (by simp))) ha
  rcases h with h | h
  · exact key hq ha h
  · exact (key hp hb h).symm

/-- A tree of values of type `ν`, addressed by paths over `κ`. -/
structure PathTree (κ ν : Type*) where
  leaves : List (List κ × ν)
  prefixFree : leaves.Pairwise fun a b => ¬ Comparable a.1 b.1

namespace PathTree

variable {κ ν : Type*}

/-- The tree without leaves. -/
def empty : PathTree κ ν := ⟨[], List.Pairwise.nil⟩

@[simp] lemma leaves_empty : (empty : PathTree κ ν).leaves = [] := rfl

/-- Two leaves on comparable paths are the same leaf. -/
lemma eq_of_comparable {t : PathTree κ ν} {a b : List κ × ν} (ha : a ∈ t.leaves)
    (hb : b ∈ t.leaves) (h : Comparable a.1 b.1) : a = b := by
  have : Std.Symm fun a b : List κ × ν => ¬ Comparable a.1 b.1 :=
    ⟨fun _ _ h h' => h (comparable_comm.mp h')⟩
  by_contra hne
  exact t.prefixFree.forall ha hb hne h

/-- What a write at `p` displaces: a value displaces every comparable path,
nothing only the paths below. -/
def Displaces (p : List κ) : Option ν → List κ → Prop
  | some _, q => Comparable p q
  | none, q => p <+: q

@[simp] lemma displaces_some {p q : List κ} {v : ν} :
    Displaces p (some v) q ↔ Comparable p q := Iff.rfl

@[simp] lemma displaces_none {p q : List κ} :
    Displaces p (none : Option ν) q ↔ p <+: q := Iff.rfl

/-- A write displaces only comparable paths. -/
lemma Displaces.comparable {p q : List κ} {v : Option ν} (h : Displaces p v q) :
    Comparable p q := by
  cases v with
  | none => exact Or.inl h
  | some v => exact h

variable [DecidableEq κ]

/-! ### Writing at a path -/

/-- Write the value `v` at the path `p`. -/
def put (p : List κ) (v : ν) (t : PathTree κ ν) : PathTree κ ν where
  leaves := (p, v) :: t.leaves.filter fun e => ¬ Comparable p e.1
  prefixFree := by
    refine List.pairwise_cons.mpr ⟨fun e he => ?_, t.prefixFree.filter _⟩
    simpa using (List.mem_filter.mp he).2

/-- Remove the node at the path `p`. -/
def remove (p : List κ) (t : PathTree κ ν) : PathTree κ ν where
  leaves := t.leaves.filter fun e => ¬ p <+: e.1
  prefixFree := t.prefixFree.filter _

/-- Write a value, or nothing, at the path `p`. -/
def write (p : List κ) : Option ν → PathTree κ ν → PathTree κ ν
  | some v, t => t.put p v
  | none, t => t.remove p

/-- The leaves after a write. -/
lemma mem_write {p q : List κ} {v : Option ν} {w : ν} {t : PathTree κ ν} :
    (q, w) ∈ (t.write p v).leaves ↔
      (v = some w ∧ q = p) ∨ ((q, w) ∈ t.leaves ∧ ¬ Displaces p v q) := by
  cases v with
  | none => simp [write, remove, List.mem_filter]
  | some v =>
      simp only [write, put, List.mem_cons, List.mem_filter, Prod.mk.injEq, decide_not,
        Bool.not_eq_true', decide_eq_false_iff_not, displaces_some, Option.some.injEq]
      rw [eq_comm (a := v), and_comm (a := q = p)]

lemma mem_remove {p q : List κ} {w : ν} {t : PathTree κ ν} :
    (q, w) ∈ (t.remove p).leaves ↔ (q, w) ∈ t.leaves ∧ ¬ p <+: q := by
  simp [remove, List.mem_filter]

/-- Write each child in `kvs` of the node at `p`; the other children stay. -/
def updateChildValues (p : List κ) (kvs : List (κ × Option ν)) (t : PathTree κ ν) :
    PathTree κ ν :=
  kvs.foldl (fun t e => t.write (p ++ [e.1]) e.2) t

/-- Replace the node at `p` by one with the children `kvs`. -/
def setValue (p : List κ) (kvs : List (κ × Option ν)) (t : PathTree κ ν) : PathTree κ ν :=
  (t.remove p).updateChildValues p kvs

/-- **The leaves after an update of children**: the values written, and the old
leaves that none of the writes displaces. -/
theorem mem_updateChildValues {p q : List κ} {kvs : List (κ × Option ν)} {w : ν}
    {t : PathTree κ ν} (hk : (kvs.map Prod.fst).Nodup) :
    (q, w) ∈ (t.updateChildValues p kvs).leaves ↔
      (∃ k, (k, some w) ∈ kvs ∧ q = p ++ [k]) ∨
        ((q, w) ∈ t.leaves ∧ ∀ e ∈ kvs, ¬ Displaces (p ++ [e.1]) e.2 q) := by
  induction kvs generalizing t with
  | nil => simp [updateChildValues]
  | cons e kvs ih =>
      obtain ⟨k, v⟩ := e
      obtain ⟨hk₁, hk₂⟩ := List.nodup_cons.mp hk
      -- a later write goes to a sibling, so it does not displace this one
      have hsib : ∀ e ∈ kvs, ¬ Displaces (p ++ [e.1]) e.2 (p ++ [k]) := fun e he h =>
        hk₁ (List.mem_map.mpr ⟨e, he, comparable_append_singleton.mp h.comparable⟩)
      have hih := ih (t := t.write (p ++ [k]) v) hk₂
      rw [updateChildValues, List.foldl_cons]
      rw [updateChildValues] at hih
      rw [hih, mem_write]
      simp only [List.mem_cons, Prod.mk.injEq, forall_eq_or_imp]
      constructor
      · rintro (⟨k', hk', rfl⟩ | ⟨⟨rfl, rfl⟩ | ⟨hm, hd⟩, hall⟩)
        · exact Or.inl ⟨k', Or.inr hk', rfl⟩
        · exact Or.inl ⟨k, Or.inl ⟨rfl, rfl⟩, rfl⟩
        · exact Or.inr ⟨hm, hd, hall⟩
      · rintro (⟨k', ⟨rfl, rfl⟩ | hk', rfl⟩ | ⟨hm, hd, hall⟩)
        · exact Or.inr ⟨Or.inl ⟨rfl, rfl⟩, hsib⟩
        · exact Or.inl ⟨k', hk', rfl⟩
        · exact Or.inr ⟨Or.inr ⟨hm, hd⟩, hall⟩

/-- The leaves after a node is replaced. -/
theorem mem_setValue {p q : List κ} {kvs : List (κ × Option ν)} {w : ν} {t : PathTree κ ν}
    (hk : (kvs.map Prod.fst).Nodup) :
    (q, w) ∈ (t.setValue p kvs).leaves ↔
      (∃ k, (k, some w) ∈ kvs ∧ q = p ++ [k]) ∨
        ((q, w) ∈ t.leaves ∧ ¬ p <+: q ∧ ∀ e ∈ kvs, ¬ Displaces (p ++ [e.1]) e.2 q) := by
  rw [setValue, mem_updateChildValues hk, mem_remove, and_assoc]

/-- **The frame of an update**: a leaf on a path that is not comparable with
the updated node is neither written nor displaced. -/
lemma mem_updateChildValues_of_not_comparable {p q : List κ} {kvs : List (κ × Option ν)} {w : ν}
    {t : PathTree κ ν} (hq : ¬ Comparable p q) :
    (q, w) ∈ (t.updateChildValues p kvs).leaves ↔ (q, w) ∈ t.leaves := by
  induction kvs generalizing t with
  | nil => rfl
  | cons e kvs ih =>
      have hne : ¬ Comparable (p ++ [e.1]) q := fun h => hq h.of_append
      rw [updateChildValues, List.foldl_cons, ← updateChildValues, ih, mem_write]
      constructor
      · rintro (⟨-, rfl⟩ | ⟨h, -⟩)
        · exact absurd (Or.inl List.prefix_rfl) hne
        · exact h
      · exact fun h => Or.inr ⟨h, fun hd => hne hd.comparable⟩

/-- The frame of a replacement. -/
lemma mem_setValue_of_not_comparable {p q : List κ} {kvs : List (κ × Option ν)} {w : ν}
    {t : PathTree κ ν} (hq : ¬ Comparable p q) :
    (q, w) ∈ (t.setValue p kvs).leaves ↔ (q, w) ∈ t.leaves := by
  rw [setValue, mem_updateChildValues_of_not_comparable hq, mem_remove]
  exact and_iff_left fun h => hq (Or.inl h)

/-! ### Reading at a path -/

/-- The value of the leaf at `p`, if there is one. -/
def valueAt (t : PathTree κ ν) (p : List κ) : Option ν :=
  (t.leaves.find? fun e => e.1 = p).map Prod.snd

/-- `valueAt` reads the leaves. -/
lemma valueAt_eq_some_iff {t : PathTree κ ν} {p : List κ} {v : ν} :
    t.valueAt p = some v ↔ (p, v) ∈ t.leaves := by
  constructor
  · intro h
    obtain ⟨e, he, rfl⟩ := Option.map_eq_some_iff.mp h
    have hp : e.1 = p := by simpa using List.find?_some he
    exact hp ▸ List.mem_of_find?_eq_some he
  · intro h
    cases hf : t.leaves.find? fun e => e.1 = p with
    | none => simpa using List.find?_eq_none.mp hf _ h
    | some e =>
        have hp : e.1 = p := by simpa using List.find?_some hf
        have he := eq_of_comparable (List.mem_of_find?_eq_some hf) h
          (Or.inl (by rw [hp]))
        rw [valueAt, hf, he]
        rfl

/-- The node at `p` exists: some leaf is at `p` or below. -/
def Present (t : PathTree κ ν) (p : List κ) : Prop := ∃ e ∈ t.leaves, p <+: e.1

instance (t : PathTree κ ν) (p : List κ) : Decidable (t.Present p) :=
  inferInstanceAs (Decidable (∃ e ∈ t.leaves, p <+: e.1))

/-- The keys of the children of the node at `p`. -/
def childKeys (t : PathTree κ ν) (p : List κ) : List κ :=
  (t.leaves.filterMap fun e => if p <+: e.1 then e.1[p.length]? else none).dedup

/-- The child keys of `p` are the keys of the existing nodes one level below. -/
lemma mem_childKeys {t : PathTree κ ν} {p : List κ} {k : κ} :
    k ∈ t.childKeys p ↔ t.Present (p ++ [k]) := by
  simp only [childKeys, List.mem_dedup, List.mem_filterMap, Present]
  refine exists_congr fun e => and_congr_right fun _ => ?_
  constructor
  · intro h
    split_ifs at h with hp
    obtain ⟨s, hs⟩ := hp
    rw [← hs, List.getElem?_append_right (le_refl _), Nat.sub_self] at h
    obtain ⟨s', rfl⟩ : ∃ s', s = k :: s' := by
      cases s with
      | nil => simp at h
      | cons a s' => exact ⟨s', by simpa using h⟩
    exact ⟨s', by rw [← hs]; simp⟩
  · rintro ⟨s, hs⟩
    rw [if_pos ⟨k :: s, by rw [← hs]; simp⟩, ← hs]
    simp

end PathTree
