import AppChat.Library.EventLog
import AppChat.Inbox.Rows

/-!
Whether a deleted conversation stays deleted.

The completion block of a deletion takes the row out of `array_mess` and leaves
`message_dictionary` alone, where `setupnavigationitem` clears both; the next
completed read rebuilds the array from the dictionary. The other devices have
no block for a removal at all.

* `Gone`: a deletion has been accepted and completed, the device has received
  it, and nothing has been written to the conversation since.
* `RowEvent`, `rowEvents`: the profile events, completed reads and completion
  blocks of a device, in their order.
* `Forgotten`: what these events have to be for the inbox to be without a partner;
  `noRow_iff_forgotten` holds in every state of every run.
* `stays_deleted_iff`: so deleted conversations stay deleted exactly in the runs
  in which each of them is forgotten wherever it is gone.
-/

namespace AppChat

open EventLog LastWins

/-! ### The events of a device -/

/-- What changes the rows of an inbox: a profile event clears it, a read of a
message of `partnerId` completes, or the completion block of a deletion runs with
the row of `partnerId` at its place. -/
inductive RowEvent where
  | cleared
  | read (partnerId : String)
  | takenOut (partnerId : String)
  deriving DecidableEq, Repr

namespace RowEvent

def isCleared : RowEvent → Bool
  | .cleared => true
  | _ => false

def isRead : RowEvent → Bool
  | .read _ => true
  | _ => false

end RowEvent

/-- The events leave an inbox without a row of `p`: since the last profile event
no read of a message of `p` has completed, or since the last completed read, of
whichever message, a completion block has found the row of `p` at its place. -/
def Forgotten (p : String) (events : List RowEvent) : Prop :=
  .read p ∉ since RowEvent.isCleared events ∨ .takenOut p ∈ since RowEvent.isRead events

instance (p : String) (events : List RowEvent) : Decidable (Forgotten p events) :=
  inferInstanceAs (Decidable (_ ∉ _ ∨ _ ∈ _))

namespace InboxState

variable {D : Type}

/-- Nothing has been written to the conversation of `p` since the position `j`
of the log. -/
def Unwritten (s : InboxState D) (p : String) (j : ℕ) : Prop :=
  ∀ c ∈ s.log.drop (j + 1), c.written ≠ some p

instance (s : InboxState D) (p : String) (j : ℕ) : Decidable (s.Unwritten p j) :=
  inferInstanceAs (Decidable (∀ c ∈ s.log.drop (j + 1), c.written ≠ some p))

/-- The conversation of `p` is gone for the device `d`. -/
def Gone (s : InboxState D) (d : D) (p : String) : Prop :=
  ∃ del ∈ s.removals, del.partnerId = p ∧
    ∃ j ∈ del.stage.completedAt, j < (s.devices d).received ∧ s.Unwritten p j

instance (s : InboxState D) (d : D) (p : String) : Decidable (s.Gone d p) :=
  inferInstanceAs (Decidable (∃ del ∈ s.removals, del.partnerId = p ∧
    ∃ j ∈ del.stage.completedAt, j < (s.devices d).received ∧ s.Unwritten p j))

/-- None of these reads is of a message of `p`. -/
def NoRead (uid : String) (record : String → Mess) (reads : List String) (p : String) : Prop :=
  ∀ key ∈ reads, (record key).getChatPartnerId (some uid) ≠ p

instance (uid : String) (record : String → Mess) (reads : List String) (p : String) :
    Decidable (NoRead uid record reads p) :=
  inferInstanceAs (Decidable (∀ key ∈ reads, (record key).getChatPartnerId (some uid) ≠ p))

variable [DecidableEq D]

/-- The event that an action is for the inbox of `d`. A completion block that
traps is none. -/
def rowEvent (uid : String) (record : String → Mess) (d : D) (s : InboxState D) :
    InboxAction D → Option RowEvent
  | .profileValue d' => if d' = d then some .cleared else none
  | .getMessage2 d' key _ =>
      if d' = d then some (.read ((record key).getChatPartnerId (some uid))) else none
  | .removeValueDone x =>
      s.removals[x]?.bind fun del =>
        if del.device = d then
          ((s.devices d).box.removeValueDone del.row).bind fun _ =>
            ((s.devices d).box.commitEditingStyle uid del.row).map .takenOut
        else none
  | _ => none

/-- The events of the inbox of `d` in a run. -/
def rowEvents (uid : String) (record : String → Mess) (d : D) (as : List (InboxAction D)) :
    List RowEvent :=
  Transition.trace (InboxState.step uid record) (rowEvent uid record d) init as

variable {uid : String} {record : String → Mess} {s s' : InboxState D}

/-- **The rows of a device change by its events**: a step without an event leaves
the dictionary and the array of the device alone, and a step with one runs the
callback of this event. -/
lemma step_rowEvent {a : InboxAction D} (h : s.step uid record a = some s') (d : D) :
    (rowEvent uid record d s a = none ∧
      (s'.devices d).box.messageDictionary = (s.devices d).box.messageDictionary ∧
      (s'.devices d).box.arrayMess = (s.devices d).box.arrayMess) ∨
    (rowEvent uid record d s a = some .cleared ∧
      (s'.devices d).box = (s.devices d).box.setupnavigationitem) ∨
    (∃ m arr, rowEvent uid record d s a = some (.read (m.getChatPartnerId (some uid))) ∧
      Inbox.SortedValues (Inbox.fileMessage uid (s.devices d).box.messageDictionary m) arr ∧
      (s'.devices d).box = (s.devices d).box.getMessage2 uid m arr) ∨
    ∃ row p, rowEvent uid record d s a = some (.takenOut p) ∧
      (s.devices d).box.commitEditingStyle uid row = some p ∧
      (s.devices d).box.removeValueDone row = some (s'.devices d).box := by
  -- the step of the device `d₀` leaves the others alone
  have other : ∀ {d₀ : D} {t : InboxState D} {dev : InboxDevice}, d ≠ d₀ →
      t.devices = s.devices → (t.setDevice d₀ dev).devices d = s.devices d := by
    intro d₀ t dev hd ht
    rw [setDevice_devices_of_ne _ _ hd, ht]
  cases a with
  | write p key =>
      simp only [step, Option.ite_none_right_eq_some] at h
      rw [← Option.some.inj h.2]
      exact Or.inl ⟨rfl, rfl, rfl⟩
  | receive d₀ =>
      simp only [step, Option.ite_none_right_eq_some, Option.map_eq_some_iff] at h
      obtain ⟨-, c, -, rfl⟩ := h
      refine Or.inl ⟨rfl, ?_⟩
      by_cases hd : d = d₀
      · subst hd
        rw [setDevice_devices_self, InboxDevice.receive_box]
        exact ⟨rfl, rfl⟩
      · rw [other hd rfl]
        exact ⟨rfl, rfl⟩
  | profileValue d₀ =>
      simp only [step, Option.ite_none_right_eq_some] at h
      rw [← Option.some.inj h.2]
      by_cases hd : d = d₀
      · subst hd
        rw [setDevice_devices_self]
        exact Or.inr (Or.inl ⟨if_pos rfl, rfl⟩)
      · rw [other hd rfl]
        exact Or.inl ⟨if_neg (Ne.symm hd), rfl, rfl⟩
  | getMessage2 d₀ key arr =>
      simp only [step, Option.ite_none_right_eq_some] at h
      obtain ⟨⟨-, -, harr⟩, h⟩ := h
      rw [← Option.some.inj h]
      by_cases hd : d = d₀
      · subst hd
        rw [setDevice_devices_self]
        exact Or.inr (Or.inr (Or.inl ⟨record key, arr, if_pos rfl, harr, rfl⟩))
      · rw [other hd rfl]
        exact Or.inl ⟨if_neg (Ne.symm hd), rfl, rfl⟩
  | handleCallData d₀ =>
      simp only [step, Option.ite_none_right_eq_some] at h
      rw [← Option.some.inj h.2]
      refine Or.inl ⟨rfl, ?_⟩
      by_cases hd : d = d₀
      · subst hd
        rw [setDevice_devices_self]
        exact ⟨rfl, rfl⟩
      · rw [other hd rfl]
        exact ⟨rfl, rfl⟩
  | commitEditingStyle d₀ row =>
      simp only [step, Option.ite_none_right_eq_some] at h
      obtain ⟨-, h⟩ := h
      refine Or.inl ⟨rfl, ?_⟩
      split at h <;> rw [← Option.some.inj h]
      · rw [trap_box]
        exact ⟨rfl, rfl⟩
      · exact ⟨rfl, rfl⟩
  | removalAccepted x =>
      simp only [step, Option.bind_eq_some_iff, Option.ite_none_right_eq_some] at h
      obtain ⟨del, -, -, h⟩ := h
      rw [← Option.some.inj h]
      exact Or.inl ⟨rfl, rfl, rfl⟩
  | removalFailed x =>
      simp only [step, Option.bind_eq_some_iff, Option.ite_none_right_eq_some] at h
      obtain ⟨del, -, -, h⟩ := h
      rw [← Option.some.inj h]
      exact Or.inl ⟨rfl, rfl, rfl⟩
  | removeValueDone x =>
      simp only [step, Option.bind_eq_some_iff] at h
      obtain ⟨del, hx, h⟩ := h
      have hev : rowEvent uid record d s (.removeValueDone x) = if del.device = d then
          ((s.devices d).box.removeValueDone del.row).bind fun _ =>
            ((s.devices d).box.commitEditingStyle uid del.row).map .takenOut
        else none := by
        rw [rowEvent, hx, Option.bind_some]
      rw [hev]
      split at h
      · rename_i position hst
        rw [Option.ite_none_right_eq_some] at h
        obtain ⟨-, h⟩ := h
        split at h <;> rw [← Option.some.inj h]
        · rename_i hbox
          refine Or.inl ⟨?_, by rw [trap_box], by rw [trap_box]⟩
          split_ifs with hd
          · rw [← hd, hbox]
            rfl
          · rfl
        · rename_i box hbox
          by_cases hd : del.device = d
          · subst hd
            obtain ⟨m, hm⟩ := Inbox.exists_of_removeValueDone hbox
            rw [setDevice_devices_self, if_pos rfl, hbox]
            have hrow : (s.devices del.device).box.commitEditingStyle uid del.row =
                some (m.getChatPartnerId (some uid)) := by
              rw [Inbox.commitEditingStyle, hm, Option.map_some]
            exact Or.inr (Or.inr (Or.inr ⟨del.row, _, by rw [hrow]; rfl, hrow, hbox⟩))
          · have hdev := setDevice_devices_of_ne (s.setStage x del (.completed position))
              { s.devices del.device with box := box } (Ne.symm hd)
            rw [hdev]
            exact Or.inl ⟨if_neg hd, rfl, rfl⟩
      · cases h

/-- What the events of a device say about its inbox. -/
structure Follows (uid : String) (events : List RowEvent) (box : Inbox) : Prop where
  dictionary : ∀ p, p ∈ box.messageDictionary ↔ .read p ∈ since RowEvent.isCleared events
  rows : ∀ p, box.NoRow uid p ↔ Forgotten p events

lemma follows_empty : Follows uid [] Inbox.empty where
  dictionary := fun p => by simp [Inbox.empty, since]
  rows := fun p => by simp [Inbox.NoRow, Inbox.empty, Forgotten, since]

namespace Follows

variable {events : List RowEvent} {box : Inbox}

lemma cleared (box : Inbox) : Follows uid (events ++ [.cleared]) box.setupnavigationitem where
  dictionary := fun p => by simp [Inbox.setupnavigationitem, since_concat, RowEvent.isCleared]
  rows := fun p => by
    simp [Inbox.NoRow, Inbox.setupnavigationitem, Forgotten, since_concat, RowEvent.isCleared]

/-- A completed read brings back every partner of the dictionary. -/
lemma read (h : Follows uid events box) (hbox : box.Keyed uid) {m : Mess} {arr : List Mess}
    (harr : Inbox.SortedValues (Inbox.fileMessage uid box.messageDictionary m) arr) :
    Follows uid (events ++ [.read (m.getChatPartnerId (some uid))])
      (box.getMessage2 uid m arr) where
  dictionary := fun p => by
    rw [Inbox.getMessage2, Inbox.fileMessage, file, AList.mem_insert, h.dictionary, since_concat]
    simp [RowEvent.isCleared]
  rows := fun p => by
    rw [Inbox.noRow_getMessage2_iff hbox harr, h.dictionary, Forgotten, since_concat,
      since_concat]
    simp [RowEvent.isCleared, RowEvent.isRead]

/-- A completion block takes one row out, and leaves the dictionary alone. -/
lemma takenOut (h : Follows uid events box) (hbox : box.Represents uid) {row : ℕ} {p : String}
    {box' : Inbox} (hp : box.commitEditingStyle uid row = some p)
    (hbox' : box.removeValueDone row = some box') :
    Follows uid (events ++ [.takenOut p]) box' where
  dictionary := fun q => by
    rw [Inbox.removeValueDone_messageDictionary hbox', h.dictionary, since_concat]
    simp [RowEvent.isCleared]
  rows := fun q => by
    rw [hbox.noRow_removeValueDone_iff hp hbox', h.rows, Forgotten, Forgotten, since_concat,
      since_concat]
    simp [RowEvent.isCleared, RowEvent.isRead, or_left_comm]

end Follows

/-- The inbox of a device follows its events, in every state of every run. -/
lemma follows_run {as : List (InboxAction D)}
    (h : Transition.run (InboxState.step uid record) init as = some s) (d : D) :
    Follows uid (rowEvents uid record d as) (s.devices d).box := by
  refine Transition.run_induction (I := fun as s =>
    Follows uid (rowEvents uid record d as) (s.devices d).box) follows_empty ?_ h
  intro as t a t' ht ih hstep
  obtain ⟨hrep, hkeyed⟩ := devices_run ht d
  rw [rowEvents, Transition.trace_concat ht, ← rowEvents]
  rcases step_rowEvent hstep d with ⟨hev, hdict, harr⟩ | ⟨hev, hbox⟩ | ⟨m, arr, hev, harr, hbox⟩ |
    ⟨row, p, hev, hp, hbox⟩
  · rw [hev, Option.toList_none, List.append_nil]
    exact ⟨fun p => hdict ▸ ih.dictionary p, fun p => by rw [← ih.rows, Inbox.NoRow, harr]; rfl⟩
  · rw [hev, hbox]
    exact .cleared _
  · rw [hev, hbox]
    exact ih.read hkeyed harr
  · rw [hev]
    exact ih.takenOut hrep hp hbox

/-- **When an inbox has no row of a partner**, in every state of every run: when
the events of its device have left it without one. -/
lemma noRow_iff_forgotten {as : List (InboxAction D)}
    (h : Transition.run (InboxState.step uid record) init as = some s) (d : D) (p : String) :
    (s.devices d).box.NoRow uid p ↔ Forgotten p (rowEvents uid record d as) :=
  (follows_run h d).rows p

/-- **When deleted conversations stay deleted**: in every state of a run no inbox
has a row of a conversation that is gone, as long as no read of it is pending, if
and only if in every state of the run the device of each such inbox has forgotten
the partner: no read of a message of the partner has completed there since the
last profile event, or since the last completed read a completion block has found
the row of the partner at its place. -/
theorem stays_deleted_iff (as : List (InboxAction D)) :
    (∀ bs t, bs <+: as → Transition.run (InboxState.step uid record) init bs = some t →
      ∀ d p, t.Gone d p → NoRead uid record (t.devices d).reads p →
        (t.devices d).box.NoRow uid p) ↔
    ∀ bs t, bs <+: as → Transition.run (InboxState.step uid record) init bs = some t →
      ∀ d p, t.Gone d p → NoRead uid record (t.devices d).reads p →
        Forgotten p (rowEvents uid record d bs) := by
  constructor
  · intro hall bs t hbs ht d p hgone hreads
    exact (noRow_iff_forgotten ht d p).mp (hall bs t hbs ht d p hgone hreads)
  · intro hall bs t hbs ht d p hgone hreads
    exact (noRow_iff_forgotten ht d p).mpr (hall bs t hbs ht d p hgone hreads)

/-! ### The row that comes back -/

/-- The key `k` is that of the message of `b`; every other one is from `c`. -/
def twoSenders (key : String) : Mess := if key = "k" then bToA else cToA

/-- On the device 0 of `a`, the conversation with `b` is shown and deleted. -/
def deletion : List (InboxAction (Fin 2)) :=
  [.profileValue 0, .write "b" "k", .receive 0, .getMessage2 0 "k" [bToA], .handleCallData 0,
    .commitEditingStyle 0 0, .removalAccepted 0, .receive 0, .removeValueDone 0]

omit [DecidableEq D] in
/-- Only partners of deletions are gone. -/
lemma forall_gone_iff {d : D} {P : String → Prop} : (∀ p, s.Gone d p → P p) ↔
    ∀ del ∈ s.removals, s.Gone d del.partnerId → P del.partnerId := by
  constructor
  · exact fun h del _ hgone => h del.partnerId hgone
  · intro h p hgone
    obtain ⟨del, hdel, rfl, -⟩ := id hgone
    exact h del hdel hgone

/-- Right after the deletion the row is not there. -/
theorem deletion_stays_deleted :
    ∃ s, Transition.run (InboxState.step "a" twoSenders) init deletion = some s ∧
      s.Gone 0 "b" ∧ (s.devices 0).box.NoRow "a" "b" := by
  have hrun : ((Transition.run (InboxState.step "a" twoSenders) init deletion).map fun s =>
      decide (s.Gone 0 "b" ∧ NoRead "a" twoSenders (s.devices 0).reads "b")) = some true := by
    decide +kernel
  have hforgotten : ∀ bs ∈ deletion.inits,
      ∀ t ∈ Transition.run (InboxState.step "a" twoSenders) init bs, ∀ d,
        ∀ del ∈ t.removals, t.Gone d del.partnerId →
          NoRead "a" twoSenders (t.devices d).reads del.partnerId →
            Forgotten del.partnerId (rowEvents "a" twoSenders d bs) := by
    decide +kernel
  obtain ⟨s, hs, h⟩ := Option.map_eq_some_iff.mp hrun
  obtain ⟨hgone, hreads⟩ := of_decide_eq_true h
  refine ⟨s, hs, hgone, (stays_deleted_iff deletion).mpr (fun bs t hbs ht d => ?_) _ s
    List.prefix_rfl hs 0 "b" hgone hreads⟩
  exact forall_gone_iff.mpr (hforgotten bs ((List.mem_inits _ _).mpr hbs) t ht d)

/-- Then `c` writes, and the read of that message completes. -/
def deletionThenMessage : List (InboxAction (Fin 2)) :=
  deletion ++ [.write "c" "l", .receive 0, .getMessage2 0 "l" [cToA, bToA]]

/-- **The row comes back**: with nothing written by `b` and no read pending, the
message of `c` brings the row of `b` back. -/
theorem deletionThenMessage_row :
    ∃ s, Transition.run (InboxState.step "a" twoSenders) init deletionThenMessage = some s ∧
      s.Gone 0 "b" ∧ NoRead "a" twoSenders (s.devices 0).reads "b" ∧
        ¬ (s.devices 0).box.NoRow "a" "b" := by
  have hrun : ((Transition.run (InboxState.step "a" twoSenders) init deletionThenMessage).map
      fun s => decide (s.Gone 0 "b" ∧ NoRead "a" twoSenders (s.devices 0).reads "b" ∧
        ¬ (s.devices 0).box.NoRow "a" "b")) = some true := by
    decide +kernel
  obtain ⟨s, hs, h⟩ := Option.map_eq_some_iff.mp hrun
  exact ⟨s, hs, of_decide_eq_true h⟩

end InboxState

end AppChat
