import Mathlib.Tactic

/-!
Numerals of a fixed width, the highest digit first.

* `value`: what a list of digits is worth; `value_lt`: it is below the power of the
  base, and `value_injective` that two numerals of one width are told by their values.
* `compare_map`: numerals of one width compare as their values when their digits are
  compared one after the other.
* `digits`, `value_digits`: the lowest digits of a number.
* `succ`, `value_of_mem_succ`, `isSome_succ_iff`: the next numeral, which is there unless
  all digits are the highest.
-/

namespace Numeral

variable {b : ℕ}

/-- What the digits are worth. -/
def value : List (Fin b) → ℕ
  | [] => 0
  | d :: l => d * b ^ l.length + value l

@[simp] lemma value_nil : value ([] : List (Fin b)) = 0 := rfl

@[simp] lemma value_cons (d : Fin b) (l : List (Fin b)) :
    value (d :: l) = d * b ^ l.length + value l := rfl

/-- Two numerals, one after the other. -/
lemma value_append (l m : List (Fin b)) :
    value (l ++ m) = value l * b ^ m.length + value m := by
  induction l with
  | nil => simp
  | cons d l ih =>
      rw [List.cons_append, value_cons, value_cons, ih, List.length_append, pow_add]
      ring

/-- The last digit of a numeral. -/
lemma value_concat (l : List (Fin b)) (d : Fin b) : value (l ++ [d]) = value l * b + d := by
  rw [value_append]
  simp

lemma value_lt (l : List (Fin b)) : value l < b ^ l.length := by
  induction l with
  | nil => simp
  | cons d l ih =>
      have hd : (d : ℕ) + 1 ≤ b := d.isLt
      calc value (d :: l) = d * b ^ l.length + value l := rfl
        _ < d * b ^ l.length + b ^ l.length := by omega
        _ = (d + 1) * b ^ l.length := by ring
        _ ≤ b * b ^ l.length := Nat.mul_le_mul_right _ hd
        _ = b ^ (d :: l).length := by rw [List.length_cons, pow_succ']

/-- The numerals with `w` digits. -/
abbrev Word (b w : ℕ) := {l : List (Fin b) // l.length = w}

lemma value_lt_pow {w : ℕ} (v : Word b w) : value v.1 < b ^ w := by
  have hv := value_lt v.1
  rwa [v.2] at hv

/-- A numeral is below one with a higher first digit. -/
lemma value_lt_of_lt {d e : Fin b} (hde : d < e) {l m : List (Fin b)} (h : l.length = m.length) :
    value (d :: l) < value (e :: m) := by
  have hd : (d : ℕ) + 1 ≤ e := hde
  calc value (d :: l) = d * b ^ l.length + value l := rfl
    _ < d * b ^ l.length + b ^ l.length := by
        have hl := value_lt l
        omega
    _ = (d + 1) * b ^ l.length := by ring
    _ ≤ e * b ^ l.length := Nat.mul_le_mul_right _ hd
    _ ≤ value (e :: m) := by rw [value_cons, h]; exact Nat.le_add_right _ _

/-- **Numerals of one width compare as their values**, whatever the digits are written
with, as long as the signs for them compare as the digits. -/
lemma compare_map {α : Type*} [Ord α] {f : Fin b → α}
    (hf : ∀ d e, compare (f d) (f e) = compare d e) {l m : List (Fin b)}
    (h : l.length = m.length) :
    compare (l.map f) (m.map f) = compare (value l) (value m) := by
  induction l generalizing m with
  | nil =>
      obtain rfl : m = [] := List.length_eq_zero_iff.mp h.symm
      rfl
  | cons d l ih =>
      cases m with
      | nil => cases h
      | cons e m =>
          have hlen : l.length = m.length := Nat.succ.inj h
          rw [List.map_cons, List.map_cons, List.compare_cons_cons, hf, ih hlen]
          rcases lt_trichotomy d e with hde | rfl | hde
          · rw [compare_lt_iff_lt.mpr hde, compare_lt_iff_lt.mpr (value_lt_of_lt hde hlen)]
            rfl
          · rw [compare_eq_iff_eq.mpr rfl, Ordering.eq_then, value_cons, value_cons, hlen]
            rcases lt_trichotomy (value l) (value m) with hv | hv | hv
            · rw [compare_lt_iff_lt.mpr hv, compare_lt_iff_lt.mpr (by omega)]
            · rw [hv]
              simp
            · rw [compare_gt_iff_gt.mpr hv, compare_gt_iff_gt.mpr (by omega)]
          · rw [compare_gt_iff_gt.mpr hde, compare_gt_iff_gt.mpr (value_lt_of_lt hde hlen.symm)]
            rfl

/-- Numerals of one width are told by their values. -/
lemma value_injective {l m : List (Fin b)} (h : l.length = m.length) (hv : value l = value m) :
    l = m := by
  induction l generalizing m with
  | nil => exact (List.length_eq_zero_iff.mp h.symm).symm
  | cons d l ih =>
      cases m with
      | nil => cases h
      | cons e m =>
          have hlen : l.length = m.length := Nat.succ.inj h
          obtain rfl : d = e := by
            rcases lt_trichotomy d e with hde | hde | hde
            · exact absurd hv (value_lt_of_lt hde hlen).ne
            · exact hde
            · exact absurd hv (value_lt_of_lt hde hlen.symm).ne'
          rw [value_cons, value_cons, hlen, Nat.add_left_cancel_iff] at hv
          rw [ih hlen hv]

/-! ### The digits of a number -/

variable [NeZero b]

@[simp] lemma value_replicate_zero (n : ℕ) : value (List.replicate n (0 : Fin b)) = 0 := by
  induction n with
  | zero => rfl
  | succ n ih => rw [List.replicate_succ, value_cons, ih, Fin.val_zero, Nat.zero_mul]

/-- The `w` lowest digits of `n`. -/
def digits : ℕ → ℕ → List (Fin b)
  | 0, _ => []
  | w + 1, n => digits w (n / b) ++ [Fin.ofNat b n]

@[simp] lemma length_digits (w n : ℕ) : (digits w n : List (Fin b)).length = w := by
  induction w generalizing n with
  | zero => rfl
  | succ w ih => rw [digits, List.length_append, ih, List.length_singleton]

/-- **The digits are worth the number**, up to what the width can hold. -/
lemma value_digits (w n : ℕ) : value (digits w n : List (Fin b)) = n % b ^ w := by
  induction w generalizing n with
  | zero => rw [pow_zero, Nat.mod_one]; rfl
  | succ w ih =>
      calc value (digits (w + 1) n : List (Fin b))
          = value (digits w (n / b) : List (Fin b)) * b + n % b := by
            rw [digits, value_concat, Fin.val_ofNat]
        _ = n / b % b ^ w * b + n % b := by rw [ih]
        _ = n % b ^ (w + 1) := by
            rw [pow_succ', Nat.mod_mul, Nat.mul_comm b, Nat.add_comm]

/-! ### The next numeral -/

/-- The next numeral of a list of digits with the lowest first: the highest digits turn
into zeros up to the first that is not the highest, which goes up. -/
def bump : List (Fin b) → Option (List (Fin b))
  | [] => none
  | d :: l => if (d : ℕ) + 1 = b then (bump l).map (0 :: ·) else some ((d + 1) :: l)

lemma value_bump {l m : List (Fin b)} (h : bump l = some m) :
    m.length = l.length ∧ value m.reverse = value l.reverse + 1 := by
  induction l generalizing m with
  | nil => cases h
  | cons d l ih =>
      rw [bump] at h
      split_ifs at h with hd
      · obtain ⟨m, hm, rfl⟩ := Option.map_eq_some_iff.mp h
        obtain ⟨hlen, hv⟩ := ih hm
        refine ⟨congrArg Nat.succ hlen, ?_⟩
        rw [List.reverse_cons, List.reverse_cons, value_concat, value_concat, hv, Fin.val_zero,
          Nat.add_mul]
        omega
      · obtain rfl := Option.some.inj h
        have hlt : (d : ℕ) + 1 < b := by have := d.isLt; omega
        refine ⟨rfl, ?_⟩
        rw [List.reverse_cons, List.reverse_cons, value_concat, value_concat,
          Fin.val_add_one_of_lt' hlt]
        omega

lemma bump_isSome_iff (l : List (Fin b)) :
    (bump l).isSome = true ↔ value l.reverse + 1 < b ^ l.length := by
  induction l with
  | nil => simp [bump]
  | cons d l ih =>
      have hV : value l.reverse + 1 ≤ b ^ l.length := by
        have hlt := value_lt l.reverse
        rwa [List.length_reverse] at hlt
      rw [bump, List.reverse_cons, value_concat, List.length_cons, pow_succ]
      split_ifs with hd
      · have hb : 0 < b := Nat.pos_of_ne_zero (NeZero.ne b)
        rw [Option.isSome_map, ih, Nat.add_assoc, hd, ← Nat.succ_mul]
        exact (Nat.mul_lt_mul_right hb).symm
      · have hlt : (d : ℕ) + 1 < b := by have := d.isLt; omega
        refine iff_of_true rfl ?_
        calc value l.reverse * b + d + 1 < value l.reverse * b + b := by omega
          _ = (value l.reverse + 1) * b := by ring
          _ ≤ b ^ l.length * b := Nat.mul_le_mul_right _ hV

/-- The next numeral. -/
def succ {w : ℕ} (v : Word b w) : Option (Word b w) :=
  (bump v.1.reverse).pmap (fun m h => ⟨m.reverse, h⟩) fun m h => by
    rw [List.length_reverse, (value_bump h).1, List.length_reverse, v.2]

variable {w : ℕ} {v v' : Word b w}

/-- **The next numeral** is worth one more. -/
lemma value_of_mem_succ (h : succ v = some v') : value v'.1 = value v.1 + 1 := by
  obtain ⟨m, hm, hbump, rfl⟩ := Option.pmap_eq_some_iff.mp h
  have hv := (value_bump hbump).2
  rwa [List.reverse_reverse] at hv

/-- **There is a next numeral** but for the one whose digits are all the highest. -/
lemma isSome_succ_iff : (succ v).isSome = true ↔ value v.1 + 1 < b ^ w := by
  rw [succ, Option.isSome_pmap, bump_isSome_iff, List.reverse_reverse, List.length_reverse, v.2]

end Numeral
