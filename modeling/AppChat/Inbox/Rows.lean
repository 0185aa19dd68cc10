import AppChat.Inbox.Devices

/-!
The rows of the inbox: what the array, the dictionary and the table view have to
do with each other, and which row a deletion takes out.

The completion block of a deletion uses the index path of the swipe, on an array
that other callbacks have rebuilt, sorted or cleared in between, and on a table
view that knows only the row count it last loaded.

* `InboxScreen`, `InboxScreen.step`: one inbox with its deletions under way, and
  its callbacks in any order.
* `Represents`: the array is sorted, has one row for each partner, and lists
  values of the dictionary; the table view has no more rows than the array.
* `represents`: this holds in every state, so no row is out of range.
* `RemovesChosen`: what a completion block should do; `removesChosen_iff` says
  when it does.
-/

namespace AppChat

open LastWins

/-! ### The representation -/

namespace Inbox

/-- What the array, the dictionary and the table view have to do with each
other. -/
structure Represents (box : Inbox) (uid : String) : Prop where
  sorted : box.arrayMess.Pairwise fun mess1 mess2 => mess2.timestapm ≤ mess1.timestapm
  nodup : (box.arrayMess.map (Mess.getChatPartnerId (some uid))).Nodup
  lookup : ∀ m ∈ box.arrayMess,
    box.messageDictionary.lookup (m.getChatPartnerId (some uid)) = some m
  rows_le : box.rows ≤ box.arrayMess.length

namespace Represents

variable {box : Inbox} {uid : String}

/-- The partners of the rows are keys of the dictionary. -/
lemma subset_keys (h : box.Represents uid) :
    box.arrayMess.map (Mess.getChatPartnerId (some uid)) ⊆ box.messageDictionary.keys := by
  intro p hp
  obtain ⟨m, hm, rfl⟩ := List.mem_map.mp hp
  rw [← AList.mem_keys, ← AList.lookup_isSome, h.lookup m hm]
  rfl

lemma empty : Inbox.empty.Represents uid where
  sorted := List.Pairwise.nil
  nodup := List.nodup_nil
  lookup := by
    intro m hm
    cases hm
  rows_le := le_rfl

/-- **A completed read** rebuilds the array from the dictionary, which only has
grown, so the table view still has no more rows than the array. -/
lemma getMessage2 (h : box.Represents uid) (hbox : box.Keyed uid) {message : Mess}
    {arr : List Mess} (harr : SortedValues (fileMessage uid box.messageDictionary message) arr) :
    (box.getMessage2 uid message arr).Represents uid := by
  have hkeyed := LastWins.Keyed.file hbox message
  have hkeys : (arr.map (Mess.getChatPartnerId (some uid))).Perm
      (fileMessage uid box.messageDictionary message).keys :=
    (harr.1.map _).trans (List.Perm.of_eq hkeyed.map_values)
  refine ⟨harr.2, hkeys.nodup_iff.mpr (AList.keys_nodup _), fun m hm => ?_, ?_⟩
  · exact hkeyed.lookup_of_mem_values (harr.1.mem_iff.mp hm)
  · calc box.rows ≤ box.arrayMess.length := h.rows_le
      _ ≤ (values (fileMessage uid box.messageDictionary message)).length :=
          length_le_of_subset_keys h.nodup fun p hp => keys_subset_file message (h.subset_keys hp)
      _ = arr.length := harr.1.length_eq.symm

lemma setupnavigationitem (box : Inbox) : box.setupnavigationitem.Represents uid where
  sorted := List.Pairwise.nil
  nodup := List.nodup_nil
  lookup := by
    intro m hm
    cases hm
  rows_le := le_rfl

lemma handleCallData (h : box.Represents uid) : box.handleCallData.Represents uid :=
  ⟨h.sorted, h.nodup, h.lookup, le_rfl⟩

/-- **A completion block that does not trap** takes one row from the array and
one from the table view, which then has as many as the array. -/
lemma removeValueDone (h : box.Represents uid) {row : ℕ} {box' : Inbox}
    (hbox : box.removeValueDone row = some box') : box'.Represents uid := by
  rw [Inbox.removeValueDone, Option.ite_none_right_eq_some] at hbox
  obtain ⟨⟨hrow, hlen⟩, hbox⟩ := hbox
  have hsub : (box.arrayMess.eraseIdx row).Sublist box.arrayMess := List.eraseIdx_sublist _ _
  rw [← Option.some.inj hbox]
  refine ⟨h.sorted.sublist hsub, h.nodup.sublist (hsub.map _), fun m hm => ?_, ?_⟩
  · exact h.lookup m (hsub.mem hm)
  · have hlen' := List.length_eraseIdx_add_one hrow
    show box.rows - 1 ≤ (box.arrayMess.eraseIdx row).length
    omega

/-- A completion block takes out the one row of the partner at its place. -/
lemma noRow_removeValueDone_iff (h : box.Represents uid) {row : ℕ} {p q : String} {box' : Inbox}
    (hp : box.commitEditingStyle uid row = some p) (hbox : box.removeValueDone row = some box') :
    box'.NoRow uid q ↔ q = p ∨ box.NoRow uid q := by
  obtain ⟨m, hm, rfl⟩ := Option.map_eq_some_iff.mp hp
  rw [Inbox.removeValueDone, Option.ite_none_right_eq_some] at hbox
  have harr : box'.arrayMess = box.arrayMess.filter fun m' =>
      m'.getChatPartnerId (some uid) ≠ m.getChatPartnerId (some uid) := by
    rw [← Option.some.inj hbox.2]
    exact eraseIdx_eq_filter h.nodup hm
  rw [NoRow, harr]
  constructor
  · intro hno
    by_cases hq : q = m.getChatPartnerId (some uid)
    · exact Or.inl hq
    · refine Or.inr fun m' hm' hm'q => ?_
      refine hno m' (List.mem_filter.mpr ⟨hm', ?_⟩) hm'q
      simpa [hm'q] using hq
  · rintro hno m' hm' rfl
    obtain ⟨hm', hne⟩ := List.mem_filter.mp hm'
    rcases hno with hq | hno
    · exact absurd hq (by simpa using hne)
    · exact hno m' hm' rfl

/-- A row the table view has is a row of the array. -/
lemma exists_row (h : box.Represents uid) {row : ℕ} (hrow : row < box.rows) :
    ∃ m, box.arrayMess[row]? = some m := by
  have hlt : row < box.arrayMess.length := lt_of_lt_of_le hrow h.rows_le
  exact ⟨_, List.getElem?_eq_getElem hlt⟩

end Represents

end Inbox

/-! ### One inbox -/

/-- A deletion, from the swipe to its completion block: the row and the partner
read at the swipe, and whether the answer is still to come. -/
structure RowRemoval where
  row : ℕ
  partnerId : String
  pending : Bool
  deriving DecidableEq, Repr

/-- An inbox with its deletions. -/
structure InboxScreen where
  box : Inbox
  removals : List RowRemoval

/-- The callbacks of an inbox: a read that completes, the value event of the
user's own record, the timer, and a deletion with its answer. -/
inductive RowAction where
  | getMessage2 (message : Mess) (arr : List Mess)
  | setupnavigationitem
  | handleCallData
  | commitEditingStyle (row : ℕ)
  | removeValueFailed (x : ℕ)
  | removeValueDone (x : ℕ)
  deriving DecidableEq, Repr

namespace InboxScreen

def init : InboxScreen := ⟨.empty, []⟩

/-- The deletion `x` has been answered. -/
def answer (s : InboxScreen) (x : ℕ) (del : RowRemoval) : List RowRemoval :=
  s.removals.set x { del with pending := false }

/-- The next state of the inbox of `uid`; a callback that traps has none. -/
def step (uid : String) (s : InboxScreen) : RowAction → Option InboxScreen
  | .getMessage2 message arr =>
      if Inbox.SortedValues (Inbox.fileMessage uid s.box.messageDictionary message) arr then
        some { s with box := s.box.getMessage2 uid message arr }
      else none
  | .setupnavigationitem => some { s with box := s.box.setupnavigationitem }
  | .handleCallData =>
      if s.box.timer then some { s with box := s.box.handleCallData } else none
  | .commitEditingStyle row =>
      -- a row that is on the screen
      if row < s.box.rows then
        (s.box.commitEditingStyle uid row).map fun partnerId =>
          { s with removals := s.removals ++ [⟨row, partnerId, true⟩] }
      else none
  | .removeValueFailed x =>
      s.removals[x]?.bind fun del =>
        if del.pending then some { s with removals := s.answer x del } else none
  | .removeValueDone x =>
      s.removals[x]?.bind fun del =>
        if del.pending then
          (s.box.removeValueDone del.row).map fun box => ⟨box, s.answer x del⟩
        else none

variable {uid : String} {s s' : InboxScreen}

/-- **Every callback keeps the representation.** -/
lemma step_represents {a : RowAction} (hs : s.box.Represents uid ∧ s.box.Keyed uid)
    (h : s.step uid a = some s') : s'.box.Represents uid ∧ s'.box.Keyed uid := by
  obtain ⟨hrep, hkeyed⟩ := hs
  cases a with
  | getMessage2 message arr =>
      simp only [step, Option.ite_none_right_eq_some] at h
      obtain ⟨harr, h⟩ := h
      rw [← Option.some.inj h]
      exact ⟨hrep.getMessage2 hkeyed harr, hkeyed.getMessage2 message arr⟩
  | setupnavigationitem =>
      rw [← Option.some.inj h]
      exact ⟨.setupnavigationitem _, Inbox.keyed_setupnavigationitem _ uid⟩
  | handleCallData =>
      simp only [step, Option.ite_none_right_eq_some] at h
      rw [← Option.some.inj h.2]
      exact ⟨hrep.handleCallData, hkeyed⟩
  | commitEditingStyle row =>
      simp only [step, Option.ite_none_right_eq_some, Option.map_eq_some_iff] at h
      obtain ⟨-, p, -, rfl⟩ := h
      exact ⟨hrep, hkeyed⟩
  | removeValueFailed x =>
      simp only [step, Option.bind_eq_some_iff, Option.ite_none_right_eq_some] at h
      obtain ⟨del, -, -, h⟩ := h
      rw [← Option.some.inj h]
      exact ⟨hrep, hkeyed⟩
  | removeValueDone x =>
      simp only [step, Option.bind_eq_some_iff, Option.ite_none_right_eq_some,
        Option.map_eq_some_iff] at h
      obtain ⟨del, -, -, box, hbox, rfl⟩ := h
      refine ⟨hrep.removeValueDone hbox, ?_⟩
      rw [Inbox.Keyed, Inbox.removeValueDone_messageDictionary hbox]
      exact hkeyed

lemma run_represents {as : List RowAction} (h : Transition.run (step uid) init as = some s) :
    s.box.Represents uid ∧ s.box.Keyed uid :=
  Transition.run_invariant (fun _ _ _ hs hstep => step_represents hs hstep)
    ⟨.empty, Inbox.keyed_empty uid⟩ h

/-- **The representation of the inbox**, in every state its callbacks lead to,
in any order: the array is sorted by timestamp, has one row for each partner,
and lists values of the dictionary; the table view has no more rows than the
array, so no row it asks for is out of range. -/
theorem represents {as : List RowAction} (h : Transition.run (step uid) init as = some s) :
    s.box.Represents uid ∧ ∀ row < s.box.rows, ∃ m, s.box.arrayMess[row]? = some m :=
  ⟨(run_represents h).1, fun _ hrow => (run_represents h).1.exists_row hrow⟩

/-- Two conversations on the screen. -/
def twoRows : List RowAction :=
  [.getMessage2 InboxState.bToA [InboxState.bToA],
    .getMessage2 InboxState.cToA [InboxState.cToA, InboxState.bToA], .handleCallData]

/-- The row of `c` is deleted. -/
theorem represents_twoRows : ∃ s,
    Transition.run (step "a") init (twoRows ++ [.commitEditingStyle 0, .removeValueDone 0]) =
      some s ∧ s.box.Represents "a" ∧ ∀ row < s.box.rows, ∃ m, s.box.arrayMess[row]? = some m := by
  have hrun : (Transition.run (step "a") init
      (twoRows ++ [.commitEditingStyle 0, .removeValueDone 0])).isSome = true := by
    decide +kernel
  obtain ⟨s, hs⟩ := Option.isSome_iff_exists.mp hrun
  exact ⟨s, hs, represents hs⟩

/-! ### The row a completion block takes out -/

/-- The completion block of a deletion of the row `row` and of the conversation
with `p` takes out the row of `p` and no other, and does not trap. -/
def RemovesChosen (uid : String) (box : Inbox) (row : ℕ) (p : String) : Prop :=
  ∃ box', box.removeValueDone row = some box' ∧
    (∃ m ∈ box.arrayMess, m.getChatPartnerId (some uid) = p) ∧
    box'.arrayMess = box.arrayMess.filter fun m => m.getChatPartnerId (some uid) ≠ p

/-- The row is one of `p`, and the table view has as many rows as the array. -/
def RowKept (uid : String) (box : Inbox) (row : ℕ) (p : String) : Prop :=
  box.commitEditingStyle uid row = some p ∧ box.arrayMess.length = box.rows

instance (uid : String) (box : Inbox) (row : ℕ) (p : String) :
    Decidable (RowKept uid box row p) :=
  inferInstanceAs (Decidable (_ ∧ _))

/-- In an array with one row for each partner, a position and a partner take out
the same row only if the row is that of the partner. -/
lemma removesChosen_iff_rowKept {box : Inbox} (h : box.Represents uid) {row : ℕ} {p : String} :
    RemovesChosen uid box row p ↔ RowKept uid box row p := by
  simp only [RemovesChosen, RowKept, Inbox.commitEditingStyle, Inbox.removeValueDone,
    Option.ite_none_right_eq_some, Option.map_eq_some_iff]
  constructor
  · rintro ⟨box', ⟨⟨hrow, hlen⟩, hbox⟩, -, hfilter⟩
    rw [← Option.some.inj hbox] at hfilter
    replace hfilter : box.arrayMess.eraseIdx row =
      box.arrayMess.filter fun m => m.getChatPartnerId (some uid) ≠ p := hfilter
    have hget : box.arrayMess[row]? = some box.arrayMess[row] := List.getElem?_eq_getElem hrow
    refine ⟨⟨_, hget, ?_⟩, hlen⟩
    -- the row itself would be left otherwise
    by_contra hne
    have hmem : box.arrayMess[row] ∈ box.arrayMess.eraseIdx row := by
      rw [hfilter, List.mem_filter]
      exact ⟨List.getElem_mem hrow, by simpa using hne⟩
    rw [eraseIdx_eq_filter h.nodup hget, List.mem_filter] at hmem
    simp at hmem
  · rintro ⟨⟨m, hm, rfl⟩, hlen⟩
    have hrow : row < box.arrayMess.length := (List.getElem?_eq_some_iff.mp hm).1
    exact ⟨_, ⟨⟨hrow, hlen⟩, rfl⟩, ⟨m, List.mem_of_getElem? hm, rfl⟩,
      eraseIdx_eq_filter h.nodup hm⟩

/-- **What a completion block takes out.** In every state the callbacks lead to,
the completion block of a deletion that is under way takes out the row of the
conversation chosen at the swipe, and no other, and does not trap, if and only
if the row of the swipe is still that of this conversation and the table view
has as many rows as the array. -/
theorem removesChosen_iff {as : List RowAction} (h : Transition.run (step uid) init as = some s) :
    ∀ del ∈ s.removals, del.pending = true →
      (RemovesChosen uid s.box del.row del.partnerId ↔
        RowKept uid s.box del.row del.partnerId) :=
  fun _ _ _ => removesChosen_iff_rowKept (run_represents h).1

/-- Nothing happens between the swipe and the answer. -/
theorem removesChosen_twoRows : ∃ s,
    Transition.run (step "a") init (twoRows ++ [.commitEditingStyle 0]) = some s ∧
      ∃ del ∈ s.removals, del.pending = true ∧ del.partnerId = "c" ∧
        RemovesChosen "a" s.box del.row del.partnerId := by
  have hrun : ((Transition.run (step "a") init (twoRows ++ [.commitEditingStyle 0])).map fun s =>
      decide (∃ del ∈ s.removals, del.pending = true ∧ del.partnerId = "c" ∧
        RowKept "a" s.box del.row del.partnerId)) = some true := by
    decide +kernel
  obtain ⟨s, hs, h⟩ := Option.map_eq_some_iff.mp hrun
  obtain ⟨del, hdel, hpending, hp, hkept⟩ := of_decide_eq_true h
  exact ⟨s, hs, del, hdel, hpending, hp, (removesChosen_iff hs del hdel hpending).mpr hkept⟩

/-- A later message of `b`. -/
def bToAAgain : Mess := ⟨"a", "b", 3, "from b again", "", "demo_video"⟩

/-- The row of `c` is swiped, and before the answer a message of `b` moves the
row of `b` to its place. -/
def swipeThenMessage : List RowAction :=
  twoRows ++ [.commitEditingStyle 0, .getMessage2 bToAAgain [bToAAgain, InboxState.cToA]]

/-- **The wrong row**: the completion block of the deletion of `c` takes out the
row of `b`. -/
theorem swipeThenMessage_removes_other : ∃ s,
    Transition.run (step "a") init swipeThenMessage = some s ∧
      s.removals = [⟨0, "c", true⟩] ∧ ¬ RemovesChosen "a" s.box 0 "c" ∧
      (s.box.removeValueDone 0).map Inbox.arrayMess = some [InboxState.cToA] := by
  have hrun : ((Transition.run (step "a") init swipeThenMessage).map fun s =>
      decide (s.removals = [⟨0, "c", true⟩] ∧
        (s.box.removeValueDone 0).map Inbox.arrayMess = some [InboxState.cToA])) = some true := by
    decide +kernel
  obtain ⟨s, hs, h⟩ := Option.map_eq_some_iff.mp hrun
  obtain ⟨hrem, harr⟩ := of_decide_eq_true h
  refine ⟨s, hs, hrem, fun hchosen => ?_, harr⟩
  obtain ⟨box', hbox, -, hfilter⟩ := hchosen
  rw [hbox, Option.map_some, hfilter, Option.some.injEq] at harr
  -- what is left has no row of `c`
  have hmem : InboxState.cToA ∈ [InboxState.cToA] := List.mem_singleton_self _
  rw [← harr, List.mem_filter] at hmem
  simp [Mess.getChatPartnerId, InboxState.cToA] at hmem

end InboxScreen

/-! ### The inboxes of the devices -/

namespace InboxState

variable {D : Type} [DecidableEq D] {uid : String} {record : String → Mess} {s s' : InboxState D}

/-- **Each inbox of the system moves as one inbox does**: a step leaves the inbox
of a device alone or runs one of its callbacks. -/
lemma step_inboxScreen {a : InboxAction D} (h : s.step uid record a = some s') (d : D) :
    (s'.devices d).box = (s.devices d).box ∨
      ∃ b r r', InboxScreen.step uid ⟨(s.devices d).box, r⟩ b = some ⟨(s'.devices d).box, r'⟩ := by
  -- the step of the device `d₀` leaves the others alone
  have other : ∀ {d₀ : D} {t : InboxState D} {dev : InboxDevice}, t.devices = s.devices →
      (dev.box = (s.devices d₀).box ∨
        ∃ b r r', InboxScreen.step uid ⟨(s.devices d₀).box, r⟩ b = some ⟨dev.box, r'⟩) →
      ((t.setDevice d₀ dev).devices d).box = (s.devices d).box ∨
        ∃ b r r', InboxScreen.step uid ⟨(s.devices d).box, r⟩ b =
          some ⟨((t.setDevice d₀ dev).devices d).box, r'⟩ := by
    intro d₀ t dev ht hdev
    by_cases hd : d = d₀
    · subst hd
      rwa [setDevice_devices_self]
    · rw [setDevice_devices_of_ne _ _ hd, ht]
      exact Or.inl rfl
  cases a with
  | write p key =>
      simp only [step, Option.ite_none_right_eq_some] at h
      rw [← Option.some.inj h.2]
      exact Or.inl rfl
  | receive d₀ =>
      simp only [step, Option.ite_none_right_eq_some, Option.map_eq_some_iff] at h
      obtain ⟨-, c, -, rfl⟩ := h
      exact other rfl (Or.inl (InboxDevice.receive_box _ c))
  | profileValue d₀ =>
      simp only [step, Option.ite_none_right_eq_some] at h
      rw [← Option.some.inj h.2]
      exact other rfl (Or.inr ⟨.setupnavigationitem, [], [], rfl⟩)
  | getMessage2 d₀ key arr =>
      simp only [step, Option.ite_none_right_eq_some] at h
      obtain ⟨⟨-, -, harr⟩, h⟩ := h
      rw [← Option.some.inj h]
      exact other rfl (Or.inr ⟨.getMessage2 (record key) arr, [], [], if_pos harr⟩)
  | handleCallData d₀ =>
      simp only [step, Option.ite_none_right_eq_some] at h
      obtain ⟨⟨-, htimer⟩, h⟩ := h
      rw [← Option.some.inj h]
      exact other rfl (Or.inr ⟨.handleCallData, [], [], if_pos htimer⟩)
  | commitEditingStyle d₀ row =>
      simp only [step, Option.ite_none_right_eq_some] at h
      obtain ⟨-, h⟩ := h
      split at h <;> rw [← Option.some.inj h]
      · exact other rfl (Or.inl rfl)
      · exact Or.inl rfl
  | removalAccepted x =>
      simp only [step, Option.bind_eq_some_iff, Option.ite_none_right_eq_some] at h
      obtain ⟨del, -, -, h⟩ := h
      rw [← Option.some.inj h]
      exact Or.inl rfl
  | removalFailed x =>
      simp only [step, Option.bind_eq_some_iff, Option.ite_none_right_eq_some] at h
      obtain ⟨del, -, -, h⟩ := h
      rw [← Option.some.inj h]
      exact Or.inl rfl
  | removeValueDone x =>
      simp only [step, Option.bind_eq_some_iff] at h
      obtain ⟨del, -, h⟩ := h
      split at h
      · rw [Option.ite_none_right_eq_some] at h
        obtain ⟨-, h⟩ := h
        split at h <;> rw [← Option.some.inj h]
        · exact other rfl (Or.inl rfl)
        · rename_i box hbox
          refine other rfl (Or.inr ⟨.removeValueDone 0, [⟨del.row, del.partnerId, true⟩],
            [⟨del.row, del.partnerId, false⟩], ?_⟩)
          simp [InboxScreen.step, InboxScreen.answer, hbox]
      · cases h

/-- The representation holds of every inbox of the system, and its messages are
under their partners. -/
lemma devices_run {as : List (InboxAction D)}
    (h : Transition.run (InboxState.step uid record) init as = some s) (d : D) :
    (s.devices d).box.Represents uid ∧ (s.devices d).box.Keyed uid := by
  refine Transition.run_invariant (I := fun s : InboxState D =>
    ∀ d, (s.devices d).box.Represents uid ∧ (s.devices d).box.Keyed uid)
    (fun t a t' ht hstep d => ?_) (fun d => ⟨.empty, Inbox.keyed_empty uid⟩) h d
  rcases step_inboxScreen hstep d with hbox | ⟨b, r, r', hb⟩
  · rw [hbox]
    exact ht d
  · exact InboxScreen.step_represents (ht d) hb

/-- **The representation holds of every inbox of the system.** -/
theorem devices_represent {as : List (InboxAction D)}
    (h : Transition.run (InboxState.step uid record) init as = some s) (d : D) :
    (s.devices d).box.Represents uid :=
  (devices_run h d).1

end InboxState

end AppChat
