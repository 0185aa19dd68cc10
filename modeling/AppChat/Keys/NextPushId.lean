import AppChat.Library.Transition
import AppChat.Keys.CompareKey

/-!
The ids of `childByAutoId`, `FNextPushId get:`.

An id has eight characters for the time, in milliseconds, and twelve that are drawn at
random in every new millisecond and counted up within one. The two variables of the
function live as long as the app, so a client is a state and a call is a step.

* `compareKey_pushId`: ids compare as their times do, then as what has been counted.
* `NextPushId.stamp_lt_iff`: a call goes up exactly when the clock has not gone back.
* `NextPushId.ids_increase_iff`: so the ids of a client are in the order of the calls
  exactly when its clock never goes back.
* `NextPushId.isSome_run_iff`: the calls of one millisecond go well as long as what is
  counted stays below `64 ^ 12`; the next one writes before the array.
-/

namespace AppChat

/-- `PUSH_CHARS`. -/
def pushChars : Unichars :=
  unichars "-0123456789ABCDEFGHIJKLMNOPQRSTUVWXYZ_abcdefghijklmnopqrstuvwxyz"

lemma length_pushChars : pushChars.length = 64 := by decide

lemma pairwise_pushChars : pushChars.Pairwise (· < ·) := by decide +kernel

/-- A character of an id. -/
def pushChar (d : Fin 64) : ℕ := pushChars.get (d.cast length_pushChars.symm)

/-- The characters are in the order of the digits they stand for. -/
lemma compare_pushChar (d e : Fin 64) : compare (pushChar d) (pushChar e) = compare d e := by
  have hlt : ∀ {d e : Fin 64}, d < e → pushChar d < pushChar e := fun hde =>
    List.pairwise_iff_get.mp pairwise_pushChars _ _ hde
  rcases lt_trichotomy d e with hde | rfl | hde
  · rw [compare_lt_iff_lt.mpr hde, compare_lt_iff_lt.mpr (hlt hde)]
  · rw [compare_eq_iff_eq.mpr rfl, compare_eq_iff_eq.mpr rfl]
  · rw [compare_gt_iff_gt.mpr hde, compare_gt_iff_gt.mpr (hlt hde)]

/-- `lastRandChars`. -/
abbrev RandChars := Numeral.Word 64 12

/-- What `timeStampChars` holds after the loop, which takes the lowest digit first and
puts it last. -/
def timeStampChars (now : ℕ) : Unichars := (Numeral.digits 8 now).map pushChar

/-- The id that is returned, with the characters of the time before the counted ones. -/
def pushId (now : ℕ) (lastRandChars : RandChars) : Unichars :=
  timeStampChars now ++ lastRandChars.1.map pushChar

/-- The static variables of `get`. -/
structure NextPushId where
  lastPushTime : ℕ
  lastRandChars : RandChars

/-- A call of `get`: the time in milliseconds, and what `arc4random` would give. -/
structure PushCall where
  now : ℕ
  random : RandChars

namespace NextPushId

/-- The variables before the first call. -/
def init : NextPushId where
  lastPushTime := 0
  lastRandChars := ⟨List.replicate 12 0, rfl⟩

/-- `get`: the id, and the variables after the call. In the millisecond of the call
before, the last characters are counted up; there is no result where they are all the
highest, and the loop ends before the array. -/
def get (s : NextPushId) (c : PushCall) : Option (Unichars × NextPushId) :=
  (if c.now = s.lastPushTime then Numeral.succ s.lastRandChars else some c.random).map
    fun lastRandChars => (pushId c.now lastRandChars, ⟨c.now, lastRandChars⟩)

def step (s : NextPushId) (c : PushCall) : Option NextPushId := (s.get c).map Prod.snd

/-- The ids that a list of calls returns. -/
def ids : NextPushId → List PushCall → List Unichars :=
  Transition.trace step fun s c => (s.get c).map Prod.fst

end NextPushId

/-! ### The ids -/

section PushId

variable {now now' : ℕ} {r r' : RandChars}

/-- An id as one numeral. -/
lemma pushId_eq_map : pushId now r = (Numeral.digits 8 now ++ r.1).map pushChar := by
  rw [pushId, timeStampChars, List.map_append]

lemma length_pushId : (pushId now r).length = 20 := by
  rw [pushId_eq_map, List.length_map, List.length_append, Numeral.length_digits, r.2]

/-- **Ids compare as their times**, then as what has been drawn and counted. -/
lemma compareKey_pushId (h : now < 64 ^ 8) (h' : now' < 64 ^ 8) :
    compareKey (pushId now r) (pushId now' r') =
      compare (now * 64 ^ 12 + Numeral.value r.1) (now' * 64 ^ 12 + Numeral.value r'.1) := by
  have hlong : ∀ {n s}, 11 < (pushId n s).length := by
    intro n s
    rw [length_pushId]
    decide
  have hlen : (Numeral.digits 8 now ++ r.1).length = (Numeral.digits 8 now' ++ r'.1).length := by
    simp [r.2, r'.2]
  rw [compareKey_of_long hlong hlong, pushId_eq_map, pushId_eq_map,
    Numeral.compare_map compare_pushChar hlen, Numeral.value_append, Numeral.value_append,
    Numeral.value_digits, Numeral.value_digits, Nat.mod_eq_of_lt h, Nat.mod_eq_of_lt h', r.2, r'.2]

/-- Two ids are the same when their times and their last characters are. -/
lemma pushId_eq_iff (h : now < 64 ^ 8) (h' : now' < 64 ^ 8) :
    pushId now r = pushId now' r' ↔ now = now' ∧ r = r' := by
  refine ⟨fun heq => ?_, fun ⟨hnow, hr⟩ => by rw [hnow, hr]⟩
  have hv : now * 64 ^ 12 + Numeral.value r.1 = now' * 64 ^ 12 + Numeral.value r'.1 := by
    rw [← compare_eq_iff_eq, ← compareKey_pushId h h', heq, compareKey, if_pos rfl]
  have hr := Numeral.value_lt_pow r
  have hr' := Numeral.value_lt_pow r'
  have hnow : now = now' := by omega
  refine ⟨hnow, Subtype.ext (Numeral.value_injective (r.2.trans r'.2.symm) ?_)⟩
  omega

end PushId

/-! ### The ids of a client -/

namespace NextPushId

variable {s t : NextPushId} {c : PushCall} {calls : List PushCall}

/-- The variables as one number: the time, then the last characters. -/
def stamp (s : NextPushId) : ℕ := s.lastPushTime * 64 ^ 12 + Numeral.value s.lastRandChars.1

/-- The id that the variables were left with. -/
def lastId (s : NextPushId) : Unichars := pushId s.lastPushTime s.lastRandChars

/-- What a call does: the time is its own, and the last characters are counted up or drawn. -/
lemma step_cases (h : step s c = some t) : ∃ r, t = ⟨c.now, r⟩ ∧ s.get c = some (t.lastId, t) ∧
    (c.now = s.lastPushTime → Numeral.value r.1 = Numeral.value s.lastRandChars.1 + 1) := by
  obtain ⟨⟨id, t⟩, hget, rfl⟩ := Option.map_eq_some_iff.mp h
  obtain ⟨r, hr, heq⟩ := Option.map_eq_some_iff.mp hget
  cases heq
  refine ⟨r, rfl, hget, fun hnow => ?_⟩
  rw [if_pos hnow] at hr
  exact Numeral.value_of_mem_succ hr

/-- The call has left the variables with the id that it returned. -/
lemma get_of_step (h : step s c = some t) : s.get c = some (t.lastId, t) := by
  obtain ⟨-, -, hget, -⟩ := step_cases h
  exact hget

lemma lastPushTime_of_step (h : step s c = some t) : t.lastPushTime = c.now := by
  obtain ⟨r, rfl, -⟩ := step_cases h
  rfl

/-- Within one millisecond, a call counts up by one. -/
lemma value_of_step (h : step s c = some t) (hnow : c.now = s.lastPushTime) :
    Numeral.value t.lastRandChars.1 = Numeral.value s.lastRandChars.1 + 1 := by
  obtain ⟨r, rfl, -, hvalue⟩ := step_cases h
  exact hvalue hnow

/-- **A call goes up** exactly when the clock has not gone back. -/
lemma stamp_lt_iff (h : step s c = some t) : s.stamp < t.stamp ↔ s.lastPushTime ≤ c.now := by
  have hs := Numeral.value_lt_pow s.lastRandChars
  have ht := Numeral.value_lt_pow t.lastRandChars
  have htime := lastPushTime_of_step h
  rw [stamp, stamp, htime]
  rcases lt_trichotomy s.lastPushTime c.now with hlt | heq | hgt
  · refine iff_of_true ?_ hlt.le
    omega
  · have hv := value_of_step h heq.symm
    refine iff_of_true ?_ heq.le
    omega
  · refine iff_of_false ?_ (not_le.mpr hgt)
    omega

/-- The variables after each call. -/
def states : NextPushId → List PushCall → List NextPushId := Transition.trace step step

lemma ids_cons (h : step s c = some t) : ids s (c :: calls) = t.lastId :: ids t calls := by
  simp [ids, Transition.trace, get_of_step h, h]

lemma states_cons (h : step s c = some t) : states s (c :: calls) = t :: states t calls := by
  simp [states, Transition.trace, h]

/-- The ids are those that the variables are left with, and the times those of the calls. -/
lemma ids_eq_map (h : Transition.run step s calls = some t) :
    ids s calls = (states s calls).map lastId ∧
      (states s calls).map lastPushTime = calls.map PushCall.now := by
  induction calls generalizing s with
  | nil => exact ⟨rfl, rfl⟩
  | cons c calls ih =>
      obtain ⟨u, hu, hrun⟩ := Transition.run_cons_eq_some.mp h
      obtain ⟨hids, htimes⟩ := ih hrun
      rw [ids_cons hu, states_cons hu, List.map_cons, List.map_cons, List.map_cons, hids, htimes,
        lastPushTime_of_step hu]
      exact ⟨rfl, rfl⟩

/-- From call to call, the numbers go up exactly when the clock does not go back. -/
lemma isChain_stamp_iff (h : Transition.run step s calls = some t) :
    ((s :: states s calls).map stamp).IsChain (· < ·) ↔
      (s.lastPushTime :: calls.map PushCall.now).IsChain (· ≤ ·) := by
  induction calls generalizing s with
  | nil => simp [states, Transition.trace]
  | cons c calls ih =>
      obtain ⟨u, hu, hrun⟩ := Transition.run_cons_eq_some.mp h
      have htail := ih hrun
      rw [lastPushTime_of_step hu, List.map_cons] at htail
      rw [states_cons hu, List.map_cons, List.map_cons, List.isChain_cons_cons, stamp_lt_iff hu,
        List.map_cons, List.isChain_cons_cons, htail]

/-- The same without the variables before the first call. -/
lemma pairwise_stamp_iff (h : Transition.run step s calls = some t) :
    ((states s calls).map stamp).Pairwise (· < ·) ↔
      (calls.map PushCall.now).Pairwise (· ≤ ·) := by
  rw [← List.isChain_iff_pairwise, ← List.isChain_iff_pairwise]
  cases calls with
  | nil => simp [states, Transition.trace]
  | cons c calls =>
      obtain ⟨u, hu, hrun⟩ := Transition.run_cons_eq_some.mp h
      rw [states_cons hu, isChain_stamp_iff hrun, List.map_cons, lastPushTime_of_step hu]

/-- Ids compare as the numbers do. -/
lemma compareKey_lastId (hs : s.lastPushTime < 64 ^ 8) (ht : t.lastPushTime < 64 ^ 8) :
    compareKey s.lastId t.lastId = compare s.stamp t.stamp := compareKey_pushId hs ht

/-- **The ids of a client are in the order of the calls** exactly when its clock never goes
back, however many calls come in one millisecond. -/
theorem ids_increase_iff (h : Transition.run step s calls = some t)
    (hnow : ∀ c ∈ calls, c.now < 64 ^ 8) :
    (ids s calls).Pairwise (fun a b => compareKey a b = .lt) ↔
      (calls.map PushCall.now).Pairwise (· ≤ ·) := by
  obtain ⟨hids, htimes⟩ := ids_eq_map h
  have hbound : ∀ u ∈ states s calls, u.lastPushTime < 64 ^ 8 := by
    intro u hu
    have hmem : u.lastPushTime ∈ calls.map PushCall.now :=
      htimes ▸ List.mem_map_of_mem hu
    obtain ⟨c, hc, heq⟩ := List.mem_map.mp hmem
    exact heq ▸ hnow c hc
  rw [← pairwise_stamp_iff h, hids, List.pairwise_map, List.pairwise_map]
  refine List.Pairwise.iff_of_mem fun hu hv => ?_
  rw [compareKey_lastId (hbound _ hu) (hbound _ hv), compare_lt_iff_lt]

/-- Three calls, the clock going back before the last. -/
theorem ids_increase_iff_clockBack : ∃ t,
    Transition.run step init [⟨5, init.lastRandChars⟩, ⟨5, init.lastRandChars⟩,
      ⟨4, init.lastRandChars⟩] = some t ∧
    ¬ (ids init [⟨5, init.lastRandChars⟩, ⟨5, init.lastRandChars⟩,
      ⟨4, init.lastRandChars⟩]).Pairwise fun a b => compareKey a b = .lt :=
  ⟨⟨4, init.lastRandChars⟩, rfl, fun h => absurd
    ((ids_increase_iff (t := ⟨4, init.lastRandChars⟩) rfl (by decide)).mp h) (by decide)⟩

/-! ### What is counted up -/

lemma isSome_step_iff (h : c.now = s.lastPushTime) :
    (step s c).isSome = true ↔ Numeral.value s.lastRandChars.1 + 1 < 64 ^ 12 := by
  rw [step, get, if_pos h, Option.isSome_map, Option.isSome_map, Numeral.isSome_succ_iff]

/-- **The calls of one millisecond** all return exactly when what they count up stays
below `64 ^ 12`; the next one would write before the array. -/
theorem isSome_run_iff (h : ∀ c ∈ calls, c.now = s.lastPushTime) :
    (Transition.run step s calls).isSome = true ↔
      Numeral.value s.lastRandChars.1 + calls.length < 64 ^ 12 := by
  induction calls generalizing s with
  | nil => simpa using Numeral.value_lt_pow s.lastRandChars
  | cons c calls ih =>
      obtain ⟨hc, hcalls⟩ := List.forall_mem_cons.mp h
      rw [List.length_cons, Transition.run]
      cases hstep : step s c with
      | none =>
          have hfull := (isSome_step_iff hc).not.mp (by rw [hstep]; exact Bool.false_ne_true)
          refine iff_of_false Bool.false_ne_true ?_
          omega
      | some u =>
          have hrest : ∀ d ∈ calls, d.now = u.lastPushTime := fun d hd => by
            rw [hcalls d hd, lastPushTime_of_step hstep, hc]
          rw [Option.bind_some, ih hrest, value_of_step hstep hc]
          omega

/-- The second id of a millisecond, after the last one there is. -/
theorem isSome_run_iff_lastId :
    (Transition.run step ⟨7, ⟨List.replicate 12 63, rfl⟩⟩ [⟨7, init.lastRandChars⟩]).isSome =
      false :=
  Bool.eq_false_of_not_eq_true fun h => absurd ((isSome_run_iff (by decide)).mp h)
    (by decide +kernel)

end NextPushId

end AppChat
