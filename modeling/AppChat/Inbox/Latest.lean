import AppChat.Inbox.Messagecontroller

/-!
Which message of a conversation the inbox shows.

The reads that `get_message_2` issues are independent requests, so they complete
in any order and, with several listeners, any number of times. Each completion
files its message under the partner and displaces the message that was there,
without a look at the timestamps.

* `readStep`: the completions between two profile events, in any order and with
  timer reloads in between; the dictionary is their fold.
* `showsLatest_iff`: the inbox shows the latest message of every conversation
  exactly when the read that completes last in each conversation is that of a
  latest message; two inboxes that do so are the same up to ties.
-/

namespace AppChat

open LastWins

namespace Inbox

/-- A read that completes, with the array the rebuilding leaves, or a reload. -/
inductive ReadAction where
  | getMessage2 (message : Mess) (arr : List Mess)
  | handleCallData
  deriving DecidableEq, Repr

/-- The inbox of the user `uid`, one event further. -/
def readStep (uid : String) (box : Inbox) : ReadAction → Option Inbox
  | .getMessage2 message arr =>
      if SortedValues (fileMessage uid box.messageDictionary message) arr then
        some (box.getMessage2 uid message arr)
      else none
  | .handleCallData => if box.timer then some box.handleCallData else none

/-- The messages whose reads complete, in the order of completion. -/
def completed (as : List ReadAction) : List Mess :=
  as.filterMap fun
    | .getMessage2 message _ => some message
    | .handleCallData => none

/-- **The dictionary is the fold of the completed reads**, and the array lists
its values. -/
lemma readStep_run {uid : String} {as : List ReadAction} {box : Inbox}
    (h : Transition.run (readStep uid) empty as = some box) :
    box.messageDictionary = (completed as).foldl (fileMessage uid) ∅ ∧
      SortedValues box.messageDictionary box.arrayMess := by
  induction as using List.reverseRecOn generalizing box with
  | nil =>
      obtain rfl : empty = box := by simpa using h
      exact ⟨rfl, List.Perm.refl _, List.Pairwise.nil⟩
  | append_singleton as a ih =>
      obtain ⟨box₀, h₀, hstep⟩ := Transition.run_concat_eq_some.mp h
      obtain ⟨hdict, hsorted⟩ := ih h₀
      cases a with
      | getMessage2 message arr =>
          simp only [readStep, Option.ite_none_right_eq_some] at hstep
          obtain ⟨harr, hbox⟩ := hstep
          rw [← Option.some.inj hbox]
          refine ⟨?_, harr⟩
          simp [getMessage2, completed, List.filterMap_append, List.foldl_append, hdict]
      | handleCallData =>
          simp only [readStep, Option.ite_none_right_eq_some] at hstep
          rw [← Option.some.inj hstep.2]
          refine ⟨?_, hsorted⟩
          simp [handleCallData, completed, List.filterMap_append, hdict]

/-- What the inbox of `uid` should show when the messages `S` are indexed for
`uid`: one entry for each partner, a latest message of the conversation, and
the entries listed by timestamp. -/
structure ShowsLatest (box : Inbox) (uid : String) (S : Finset Mess) : Prop where
  partners : ∀ p, p ∈ box.messageDictionary ↔ ∃ m ∈ S, m.getChatPartnerId (some uid) = p
  latest : ∀ p m, box.messageDictionary.lookup p = some m →
    m ∈ S ∧ m.getChatPartnerId (some uid) = p ∧
      ∀ m' ∈ S, m'.getChatPartnerId (some uid) = p → m'.timestapm ≤ m.timestapm
  sorted : SortedValues box.messageDictionary box.arrayMess

/-- In every conversation, no message is later than the one whose read completes
last. -/
def LastIsLatest (uid : String) (ms : List Mess) : Prop :=
  ∀ m' ∈ ms,
    ∀ m ∈ (ms.filter fun m =>
      m.getChatPartnerId (some uid) = m'.getChatPartnerId (some uid)).getLast?,
      m'.timestapm ≤ m.timestapm

instance (uid : String) (ms : List Mess) : Decidable (LastIsLatest uid ms) :=
  inferInstanceAs (Decidable (∀ m' ∈ ms, ∀ m ∈ (ms.filter fun m =>
    m.getChatPartnerId (some uid) = m'.getChatPartnerId (some uid)).getLast?,
    m'.timestapm ≤ m.timestapm))

/-- Two inboxes that show the latest messages agree up to ties. -/
lemma ShowsLatest.timestapm_eq {box box' : Inbox} {uid : String} {S : Finset Mess}
    (h : box.ShowsLatest uid S) (h' : box'.ShowsLatest uid S) :
    (∀ p, (box.messageDictionary.lookup p).map Mess.timestapm =
      (box'.messageDictionary.lookup p).map Mess.timestapm) ∧
    box.arrayMess.map Mess.timestapm = box'.arrayMess.map Mess.timestapm := by
  have hlookup : ∀ p, (box.messageDictionary.lookup p).map Mess.timestapm =
      (box'.messageDictionary.lookup p).map Mess.timestapm := by
    intro p
    have hmem : p ∈ box.messageDictionary ↔ p ∈ box'.messageDictionary := by
      rw [h.partners, h'.partners]
    rw [← AList.lookup_isSome, ← AList.lookup_isSome] at hmem
    cases hm : box.messageDictionary.lookup p with
    | none =>
        rw [hm] at hmem
        rw [Option.not_isSome_iff_eq_none.mp fun hs => Bool.noConfusion (hmem.mpr hs)]
    | some m =>
        rw [hm] at hmem
        obtain ⟨m', hm'⟩ := Option.isSome_iff_exists.mp (hmem.mp rfl)
        -- each of the two is at least as late as the other
        obtain ⟨hmS, hmp, hmax⟩ := h.latest p m hm
        obtain ⟨hmS', hmp', hmax'⟩ := h'.latest p m' hm'
        have heq : m.timestapm = m'.timestapm :=
          le_antisymm (hmax' m hmS hmp) (hmax m' hmS' hmp')
        rw [hm', Option.map_some, Option.map_some, heq]
  have h₁ : (box.arrayMess.map Mess.timestapm).Perm
      ((values box.messageDictionary).map Mess.timestapm) := h.sorted.1.map _
  have h₂ : ((values box.messageDictionary).map Mess.timestapm).Perm
      ((values box'.messageDictionary).map Mess.timestapm) := perm_map_values hlookup
  have h₃ : (box'.arrayMess.map Mess.timestapm).Perm
      ((values box'.messageDictionary).map Mess.timestapm) := h'.sorted.1.map _
  exact ⟨hlookup, eq_of_sorted h.sorted.2 h'.sorted.2 (h₁.trans (h₂.trans h₃.symm))⟩

/-- **The inbox shows the last completed read, not the latest message.** Let the
reads of the messages `S` complete in some order, each at least once. The inbox
shows the latest message of every conversation if and only if the read that
completes last in each conversation is that of a latest message of it. Any two
inboxes that show the latest messages are the same up to ties. -/
theorem showsLatest_iff {uid : String} {as : List ReadAction} {box : Inbox} {S : Finset Mess}
    (h : Transition.run (readStep uid) empty as = some box) (hS : ∀ m, m ∈ completed as ↔ m ∈ S) :
    (box.ShowsLatest uid S ↔ LastIsLatest uid (completed as)) ∧
    ∀ box' : Inbox, box.ShowsLatest uid S → box'.ShowsLatest uid S →
      (∀ p, (box.messageDictionary.lookup p).map Mess.timestapm =
        (box'.messageDictionary.lookup p).map Mess.timestapm) ∧
      box.arrayMess.map Mess.timestapm = box'.arrayMess.map Mess.timestapm := by
  obtain ⟨hdict, hsorted⟩ := readStep_run h
  have hlookup : ∀ p, box.messageDictionary.lookup p =
      ((completed as).filter fun m => m.getChatPartnerId (some uid) = p).getLast? := by
    intro p
    rw [hdict]
    exact lookup_foldl_file (completed as) p
  refine ⟨⟨fun hbox m' hm' m hm => ?_, fun hlast => ⟨fun p => ?_, fun p m hm => ?_, hsorted⟩⟩,
    fun box' hbox hbox' => hbox.timestapm_eq hbox'⟩
  · exact (hbox.latest _ m ((hlookup _).trans hm)).2.2 m' ((hS m').mp hm') rfl
  · rw [hdict, show fileMessage uid = file _ from rfl, mem_foldl_file]
    simp only [hS]
  · rw [hlookup] at hm
    obtain ⟨hmem, hp⟩ := List.mem_filter.mp (List.mem_of_getLast? hm)
    refine ⟨(hS m).mp hmem, by simpa using hp, fun m' hm' hp' => ?_⟩
    exact hlast m' ((hS m').mpr hm') m (by rw [hp']; exact hm)

/-- Two messages from `b` to `a`. -/
def early : Mess := ⟨"a", "b", 1, "first", "", "demo_video"⟩
def late : Mess := ⟨"a", "b", 2, "second", "", "demo_video"⟩

/-- Their reads complete in the order of the messages. -/
theorem showsLatest_inOrder : ∃ box,
    Transition.run (readStep "a") empty [.getMessage2 early [early], .getMessage2 late [late]] =
      some box ∧ box.ShowsLatest "a" {early, late} := by
  let as : List ReadAction := [.getMessage2 early [early], .getMessage2 late [late]]
  have hrun : Transition.run (readStep "a") empty as =
      some ((empty.getMessage2 "a" early [early]).getMessage2 "a" late [late]) := rfl
  have hS : ∀ m, m ∈ completed as ↔ m ∈ ({early, late} : Finset Mess) := by simp [completed, as]
  exact ⟨_, hrun, (showsLatest_iff hrun hS).1.mpr (by decide)⟩

/-- The reads complete in the other order, and the inbox shows the first message. -/
theorem late_then_early_not_showsLatest : ∃ box,
    Transition.run (readStep "a") empty [.getMessage2 late [late], .getMessage2 early [early]] =
      some box ∧ ¬ box.ShowsLatest "a" {early, late} := by
  refine ⟨_, rfl, fun hbox => ?_⟩
  have hlookup := hbox.latest "b" early rfl
  exact absurd (hlookup.2.2 late (by simp) rfl) (by decide)

end Inbox

end AppChat
