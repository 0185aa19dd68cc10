import AppChat.Library.Numeral

/-!
The order of the children of a node, `FUtilities compareKey:toKey:`.

The database sorts the children of a node, where they have no priorities, in the order
of their keys: those that read as integers by the integer, before all others, and the
others by their characters.

* `unichars`: a string as the code units that the comparison goes through.
* `tryParseStringToInt`, `compareKey`: as they are written.
* `compareKey_eq_compareLex`: the comparison goes by the class of a key, then by its
  integer, its length and its text.
* `compareKey_total`: so it is a total preorder, which takes two keys for one exactly
  when they are, or read `00` and `-0`.
* `compareKey_of_long`: keys of more than eleven characters are in the order of their
  characters.
-/

namespace AppChat

/-- The code units of a string. -/
abbrev Unichars := List ℕ

/-- The code units of a character. -/
def utf16 (c : Char) : Unichars :=
  if c.toNat < 0x10000 then [c.toNat]
  else [0xD800 + (c.toNat - 0x10000) / 0x400, 0xDC00 + (c.toNat - 0x10000) % 0x400]

def unichars (s : String) : Unichars := s.toList.flatMap utf16

/-- The loop of `tryParseStringToInt`, `'0'` being 48 and `'9'` 57. -/
def tryParseDigits (value : ℕ) : Unichars → Option ℕ
  | [] => some value
  | c :: cs => if c < 48 ∨ 57 < c then none else tryParseDigits (value * 10 + (c - 48)) cs

/-- The number that is read, before it is compared with the bounds; `'-'` is 45. -/
def tryParseSigned : Unichars → Option ℤ
  | 45 :: [] => none
  | 45 :: cs => (tryParseDigits 0 cs).map fun value : ℕ => -(value : ℤ)
  | str => (tryParseDigits 0 str).map fun value : ℕ => (value : ℤ)

def tryParseStringToInt (str : Unichars) : Option ℤ :=
  if 11 < str.length ∨ str.length = 0 then none
  else (tryParseSigned str).filter fun value => -2147483648 ≤ value ∧ value ≤ 2147483647

def minName : Unichars := unichars "[MIN_NAME]"

def maxName : Unichars := unichars "[MAX_NAME]"

/-- `compareKey:toKey:`. The two names that are no keys are objects of their own there;
here they are told by their texts, which no key has. -/
def compareKey (a b : Unichars) : Ordering :=
  if a = b then .eq
  else if a = minName ∨ b = maxName then .lt
  else if b = minName ∨ a = maxName then .gt
  else
    match tryParseStringToInt a, tryParseStringToInt b with
    | some aAsInt, some bAsInt =>
        if aAsInt > bAsInt then .gt
        else if aAsInt < bAsInt then .lt
        else if a.length > b.length then .gt
        else if a.length < b.length then .lt
        else .eq
    | some _, none => .lt
    | none, some _ => .gt
    | none, none => compare a b

/-! ### What is read -/

variable {a b c : Unichars}

/-- The code unit of a digit. -/
def digitUnit (d : Fin 10) : ℕ := d + 48

/-- What the loop reads are digits, and it reads their value. -/
lemma tryParseDigits_eq_some {v n : ℕ} (h : tryParseDigits v a = some n) :
    ∃ ds : List (Fin 10), a = ds.map digitUnit ∧ n = v * 10 ^ ds.length + Numeral.value ds := by
  induction a generalizing v with
  | nil => exact ⟨[], rfl, by simpa using (Option.some.inj h).symm⟩
  | cons c cs ih =>
      rw [tryParseDigits, Option.ite_none_left_eq_some] at h
      obtain ⟨hc, h⟩ := h
      obtain ⟨ds, rfl, hn⟩ := ih h
      refine ⟨⟨c - 48, by omega⟩ :: ds, ?_, ?_⟩
      · rw [List.map_cons, digitUnit]
        congr 1
        show c = c - 48 + 48
        omega
      · rw [hn, Numeral.value_cons, List.length_cons, pow_succ]
        ring

/-- Zeros are read as zero. -/
lemma tryParseDigits_zeros (n : ℕ) : tryParseDigits 0 (List.replicate n 48) = some 0 := by
  induction n with
  | zero => rfl
  | succ n ih =>
      rw [List.replicate_succ, tryParseDigits, if_neg (by omega)]
      exact ih

lemma tryParseSigned_zeros (n : ℕ) : tryParseSigned (List.replicate (n + 1) 48) = some 0 := by
  have hread : tryParseSigned (List.replicate (n + 1) 48) =
      (tryParseDigits 0 (List.replicate (n + 1) 48)).map fun value : ℕ => (value : ℤ) := rfl
  rw [hread, tryParseDigits_zeros]
  rfl

lemma tryParseSigned_signedZeros (n : ℕ) :
    tryParseSigned (45 :: List.replicate (n + 1) 48) = some 0 := by
  have hread : tryParseSigned (45 :: List.replicate (n + 1) 48) =
      (tryParseDigits 0 (List.replicate (n + 1) 48)).map fun value : ℕ => -(value : ℤ) := rfl
  rw [hread, tryParseDigits_zeros]
  rfl

/-- An integer is read from its digits, with or without a sign before them. -/
lemma tryParseStringToInt_eq_some {v : ℤ} (h : tryParseStringToInt a = some v) :
    ∃ ds : List (Fin 10), ds ≠ [] ∧ a.length ≤ 11 ∧
      ((a = ds.map digitUnit ∧ v = Numeral.value ds) ∨
        (a = 45 :: ds.map digitUnit ∧ v = -(Numeral.value ds : ℤ))) := by
  rw [tryParseStringToInt, Option.ite_none_left_eq_some, Option.filter_eq_some_iff] at h
  obtain ⟨hlen, h, -⟩ := h
  have hle : a.length ≤ 11 := by omega
  unfold tryParseSigned at h
  split at h
  · cases h
  · rename_i cs hcs
    obtain ⟨n, hn, rfl⟩ := Option.map_eq_some_iff.mp h
    obtain ⟨ds, rfl, rfl⟩ := tryParseDigits_eq_some hn
    refine ⟨ds, ?_, hle, Or.inr ⟨rfl, by simp⟩⟩
    rintro rfl
    exact hcs rfl
  · obtain ⟨n, hn, rfl⟩ := Option.map_eq_some_iff.mp h
    obtain ⟨ds, rfl, rfl⟩ := tryParseDigits_eq_some hn
    refine ⟨ds, ?_, hle, Or.inl ⟨rfl, by simp⟩⟩
    rintro rfl
    simp at hlen

/-! ### What is compared -/

/-- The names before all keys, the integers, the other keys, and the names after all. -/
def nameClass (a : Unichars) : ℕ :=
  if a = minName then 0
  else if a = maxName then 3
  else if (tryParseStringToInt a).isSome then 1
  else 2

/-- The integer that is read, `0` for any other key. -/
def nameInt (a : Unichars) : ℤ := (tryParseStringToInt a).getD 0

/-- The length of an integer. -/
def nameLength (a : Unichars) : ℕ := if (tryParseStringToInt a).isSome then a.length else 0

/-- The text of a key that is no integer. -/
def nameText (a : Unichars) : Unichars := if (tryParseStringToInt a).isSome then [] else a

lemma tryParse_minName : tryParseStringToInt minName = none := by decide

lemma tryParse_maxName : tryParseStringToInt maxName = none := by decide

lemma length_minName : minName.length = 10 := by decide

lemma length_maxName : maxName.length = 10 := by decide

lemma nameClass_minName : nameClass minName = 0 := if_pos rfl

lemma nameClass_maxName : nameClass maxName = 3 := by decide

attribute [irreducible] minName maxName

lemma nameClass_pos (h : a ≠ minName) : 0 < nameClass a := by
  rw [nameClass, if_neg h]
  split_ifs <;> omega

lemma nameClass_lt (h : a ≠ maxName) : nameClass a < 3 := by
  rw [nameClass, if_neg h]
  split_ifs <;> omega

/-- The class of a key. -/
lemma nameClass_key (hmin : a ≠ minName) (hmax : a ≠ maxName) :
    nameClass a = if (tryParseStringToInt a).isSome then 1 else 2 := by
  rw [nameClass, if_neg hmin, if_neg hmax]

/-- A comparison that decides leaves the others out. -/
lemma compareLex_of_ne_eq {α : Type*} {cmp₁ cmp₂ : α → α → Ordering} {x y : α} {o : Ordering}
    (h : cmp₁ x y = o) (ho : o ≠ .eq) : compareLex cmp₁ cmp₂ x y = o := by
  rw [compareLex, h]
  cases o with
  | eq => exact absurd rfl ho
  | _ => rfl

/-- Two integers are compared, then their lengths. -/
lemma compare_ints {v w : ℤ} {m n : ℕ} :
    (if v > w then Ordering.gt else if v < w then .lt else if m > n then .gt
      else if m < n then .lt else .eq) = (compare v w).then (compare m n) := by
  rcases lt_trichotomy v w with hvw | rfl | hvw
  · rw [if_neg hvw.not_gt, if_pos hvw, compare_lt_iff_lt.mpr hvw]
    rfl
  · rw [if_neg (lt_irrefl v), if_neg (lt_irrefl v), compare_eq_iff_eq.mpr rfl, Ordering.eq_then]
    rcases lt_trichotomy m n with hmn | rfl | hmn
    · rw [if_neg hmn.not_gt, if_pos hmn, compare_lt_iff_lt.mpr hmn]
    · rw [if_neg (lt_irrefl m), if_neg (lt_irrefl m), compare_eq_iff_eq.mpr rfl]
    · rw [if_pos hmn, compare_gt_iff_gt.mpr hmn]
  · rw [if_pos hvw, compare_gt_iff_gt.mpr hvw]
    rfl

/-- **The comparison** goes by the class, the integer, its length, and the text. -/
lemma compareKey_eq_compareLex : compareKey = compareLex (compareOn nameClass)
    (compareLex (compareOn nameInt) (compareLex (compareOn nameLength) (compareOn nameText))) := by
  funext a b
  by_cases hab : a = b
  · subst hab
    simp [compareKey, compareLex, compareOn]
  by_cases ha₀ : a = minName
  · subst ha₀
    have hclass : compareOn nameClass minName b = .lt :=
      compare_lt_iff_lt.mpr (nameClass_minName ▸ nameClass_pos (Ne.symm hab))
    rw [compareKey, if_neg hab, if_pos (Or.inl rfl), compareLex_of_ne_eq hclass nofun]
  by_cases hb₃ : b = maxName
  · subst hb₃
    have hclass : compareOn nameClass a maxName = .lt :=
      compare_lt_iff_lt.mpr (nameClass_maxName ▸ nameClass_lt hab)
    rw [compareKey, if_neg hab, if_pos (Or.inr rfl), compareLex_of_ne_eq hclass nofun]
  by_cases hb₀ : b = minName
  · subst hb₀
    have hclass : compareOn nameClass a minName = .gt :=
      compare_gt_iff_gt.mpr (nameClass_minName ▸ nameClass_pos ha₀)
    rw [compareKey, if_neg hab, if_neg (by tauto), if_pos (Or.inl rfl),
      compareLex_of_ne_eq hclass nofun]
  by_cases ha₃ : a = maxName
  · subst ha₃
    have hclass : compareOn nameClass maxName b = .gt :=
      compare_gt_iff_gt.mpr (nameClass_maxName ▸ nameClass_lt hb₃)
    rw [compareKey, if_neg hab, if_neg (by tauto), if_pos (Or.inr rfl),
      compareLex_of_ne_eq hclass nofun]
  -- two keys
  have hclassa := nameClass_key ha₀ ha₃
  have hclassb := nameClass_key hb₀ hb₃
  rw [compareKey, if_neg hab, if_neg (by tauto), if_neg (by tauto)]
  cases ha : tryParseStringToInt a with
  | none =>
      rw [ha] at hclassa
      cases hb : tryParseStringToInt b with
      | none =>
          rw [hb] at hclassb
          simp [compareLex, compareOn, hclassa, hclassb, nameInt, nameLength, nameText, ha, hb]
      | some w =>
          rw [hb] at hclassb
          have hclass : compareOn nameClass a b = .gt := by
            rw [compareOn, hclassa, hclassb]
            rfl
          rw [compareLex_of_ne_eq hclass nofun]
  | some v =>
      rw [ha] at hclassa
      cases hb : tryParseStringToInt b with
      | none =>
          rw [hb] at hclassb
          have hclass : compareOn nameClass a b = .lt := by
            rw [compareOn, hclassa, hclassb]
            rfl
          rw [compareLex_of_ne_eq hclass nofun]
      | some w =>
          rw [hb] at hclassb
          simp only [compare_ints]
          simp [compareLex, compareOn, hclassa, hclassb, nameInt, nameLength, nameText, ha, hb]

/-! ### A total preorder -/

instance : Std.TransCmp compareKey := by
  rw [compareKey_eq_compareLex]
  infer_instance

/-- Two keys that both read as zero, in as many characters, one with a sign. -/
def ZeroTwins (a b : Unichars) : Prop :=
  ∃ n, 0 < n ∧ n ≤ 10 ∧ a = List.replicate (n + 1) 48 ∧ b = 45 :: List.replicate n 48

/-- A list of digits that is worth nothing has zeros only. -/
lemma map_digitUnit_of_value_eq_zero {ds : List (Fin 10)} (h : Numeral.value ds = 0) :
    ds.map digitUnit = List.replicate ds.length 48 := by
  have hds : ds = List.replicate ds.length 0 :=
    Numeral.value_injective (by simp) (by rw [h, Numeral.value_replicate_zero])
  rw [hds, List.map_replicate, List.length_replicate]
  rfl

/-- Two texts of one length that read as the same integer are the same, or read `00`
and `-0`. -/
lemma eq_or_zeroTwins {v : ℤ} (ha : tryParseStringToInt a = some v)
    (hb : tryParseStringToInt b = some v) (hlen : a.length = b.length) :
    a = b ∨ ZeroTwins a b ∨ ZeroTwins b a := by
  -- one with a sign and one without are both zero
  have twins : ∀ {ds es : List (Fin 10)}, es ≠ [] → (ds.map digitUnit).length ≤ 11 →
      (Numeral.value ds : ℤ) = -(Numeral.value es : ℤ) →
      (ds.map digitUnit).length = (45 :: es.map digitUnit).length →
        ZeroTwins (ds.map digitUnit) (45 :: es.map digitUnit) := by
    intro ds es hes hle hv hlen
    rw [List.length_map, List.length_cons, List.length_map] at hlen
    rw [List.length_map] at hle
    have hds : Numeral.value ds = 0 := by omega
    have hes₀ : Numeral.value es = 0 := by omega
    refine ⟨es.length, List.length_pos_iff.mpr hes, by omega, ?_, ?_⟩
    · rw [map_digitUnit_of_value_eq_zero hds, hlen]
    · rw [map_digitUnit_of_value_eq_zero hes₀]
  obtain ⟨ds, hds, hlea, ⟨rfl, hvd⟩ | ⟨rfl, hvd⟩⟩ := tryParseStringToInt_eq_some ha <;>
    obtain ⟨es, hes, hleb, ⟨rfl, hve⟩ | ⟨rfl, hve⟩⟩ := tryParseStringToInt_eq_some hb
  · have heq : ds = es := Numeral.value_injective (by simpa using hlen) (by omega)
    exact Or.inl (by rw [heq])
  · exact Or.inr (Or.inl (twins hes hlea (by omega) hlen))
  · exact Or.inr (Or.inr (twins hds hleb (by omega) hlen.symm))
  · have heq : ds = es := Numeral.value_injective (by simpa using hlen) (by omega)
    exact Or.inl (by rw [heq])

/-- The twins read as zero. -/
lemma ZeroTwins.tryParse (h : ZeroTwins a b) : tryParseStringToInt a = some 0 ∧
    tryParseStringToInt b = some 0 ∧ a.length = b.length := by
  obtain ⟨n, hn, hle, rfl, rfl⟩ := h
  obtain ⟨m, rfl⟩ := Nat.exists_eq_succ_of_ne_zero hn.ne'
  refine ⟨?_, ?_, by simp⟩
  · rw [tryParseStringToInt, if_neg (by simp; omega), tryParseSigned_zeros]
    rfl
  · rw [tryParseStringToInt, if_neg (by simp; omega), tryParseSigned_signedZeros]
    rfl

/-- A text that reads as an integer is a key. -/
lemma nameClass_of_some {v : ℤ} (h : tryParseStringToInt a = some v) : nameClass a = 1 := by
  have hmin : a ≠ minName := by
    rintro rfl
    rw [tryParse_minName] at h
    cases h
  have hmax : a ≠ maxName := by
    rintro rfl
    rw [tryParse_maxName] at h
    cases h
  rw [nameClass_key hmin hmax, h]
  rfl

lemma nameClass_of_none (h : tryParseStringToInt a = none) : nameClass a ≠ 1 := by
  rw [nameClass, h]
  split_ifs with h₁ h₂ h₃
  · omega
  · omega
  · cases h₃
  · omega

/-- What the comparison takes for one. -/
lemma compareKey_eq_eq_iff : compareKey a b = .eq ↔ a = b ∨ ZeroTwins a b ∨ ZeroTwins b a := by
  have hparts : compareKey a b = .eq ↔ nameClass a = nameClass b ∧ nameInt a = nameInt b ∧
      nameLength a = nameLength b ∧ nameText a = nameText b := by
    rw [compareKey_eq_compareLex]
    simp [compareLex, compareOn, Ordering.then_eq_eq]
  have twins : ∀ {a b : Unichars}, ZeroTwins a b → nameClass a = nameClass b ∧
      nameInt a = nameInt b ∧ nameLength a = nameLength b ∧ nameText a = nameText b := by
    intro a b h
    obtain ⟨ha, hb, hlen⟩ := h.tryParse
    simp [nameClass_of_some ha, nameClass_of_some hb, nameInt, nameLength, nameText, ha, hb, hlen]
  rw [hparts]
  constructor
  · rintro ⟨hclass, hint, hlength, htext⟩
    cases ha : tryParseStringToInt a with
    | none =>
        cases hb : tryParseStringToInt b with
        | none => exact Or.inl (by simpa [nameText, ha, hb] using htext)
        | some w => exact absurd (hclass.trans (nameClass_of_some hb)) (nameClass_of_none ha)
    | some v =>
        cases hb : tryParseStringToInt b with
        | none => exact absurd (hclass.symm.trans (nameClass_of_some ha)) (nameClass_of_none hb)
        | some w =>
            obtain rfl : v = w := by simpa [nameInt, ha, hb] using hint
            exact eq_or_zeroTwins ha hb (by simpa [nameLength, ha, hb] using hlength)
  · rintro (rfl | h | h)
    · exact ⟨rfl, rfl, rfl, rfl⟩
    · exact twins h
    · obtain ⟨h₁, h₂, h₃, h₄⟩ := twins h
      exact ⟨h₁.symm, h₂.symm, h₃.symm, h₄.symm⟩

/-- **The order of the keys is a total preorder**: of any two keys, one is not after the
other, and the order is transitive. It takes two keys for one exactly when they are, or
are zero in as many characters, with a sign and without. -/
theorem compareKey_total :
    (∀ a b, compareKey a b = (compareKey b a).swap) ∧
    (∀ a b c, (compareKey a b).isLE = true → (compareKey b c).isLE = true →
      (compareKey a c).isLE = true) ∧
    ∀ a b, compareKey a b = .eq ↔ a = b ∨ ZeroTwins a b ∨ ZeroTwins b a :=
  ⟨fun _ _ => Std.OrientedCmp.eq_swap, fun _ _ _ => Std.TransCmp.isLE_trans,
    fun _ _ => compareKey_eq_eq_iff⟩

example : compareKey (unichars "000") (unichars "-00") = .eq := by decide +kernel

/-- A text of more than eleven characters is no integer. -/
lemma tryParse_of_long (h : 11 < a.length) : tryParseStringToInt a = none := by
  rw [tryParseStringToInt, if_pos (Or.inl h)]

/-- **Long keys are in the order of their characters.** -/
lemma compareKey_of_long (ha : 11 < a.length) (hb : 11 < b.length) :
    compareKey a b = compare a b := by
  have hne : ∀ {x : Unichars}, 11 < x.length → x ≠ minName ∧ x ≠ maxName := by
    intro x hx
    refine ⟨?_, ?_⟩ <;> rintro rfl
    · rw [length_minName] at hx
      omega
    · rw [length_maxName] at hx
      omega
  obtain ⟨hamin, hamax⟩ := hne ha
  obtain ⟨hbmin, hbmax⟩ := hne hb
  by_cases hab : a = b
  · rw [compareKey, if_pos hab, hab]
    exact Std.ReflCmp.compare_self.symm
  · rw [compareKey, if_neg hab, if_neg (by tauto), if_neg (by tauto), tryParse_of_long ha,
      tryParse_of_long hb]

end AppChat
