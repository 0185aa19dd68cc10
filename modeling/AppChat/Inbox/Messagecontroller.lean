import AppChat.Library.LastWins
import AppChat.Library.Transition
import AppChat.Design.Mess

/-!
`messagecontroller`: what the inbox screen keeps, and its callbacks.

* `Inbox`: `message_dictionary`, `array_mess`, the timer, and the row count the
  table view has last loaded.
* `SortedValues`: the possible results of `Array(message_dictionary.values)` and
  the sort. The order of a dictionary and of equal timestamps is left open.
* `getMessage2`, `setupnavigationitem`, `handleCallData`, `commitEditingStyle`,
  `removeValueDone`: the callbacks, as functions of the inbox.
-/

namespace AppChat

open LastWins

/-- The inbox of a `messagecontroller`. -/
structure Inbox where
  messageDictionary : Table String Mess
  arrayMess : List Mess
  timer : Bool
  rows : ℕ

namespace Inbox

/-- The inbox before the first event. -/
def empty : Inbox := ⟨∅, [], false, 0⟩

/-- `array_mess` after it has been rebuilt from the dictionary and sorted by
`mess1.timestapm > mess2.timestapm`. -/
def SortedValues (d : Table String Mess) (arr : List Mess) : Prop :=
  arr.Perm (values d) ∧ arr.Pairwise fun mess1 mess2 => mess2.timestapm ≤ mess1.timestapm

instance (d : Table String Mess) (arr : List Mess) : Decidable (SortedValues d arr) :=
  inferInstanceAs (Decidable (arr.Perm (values d) ∧
    arr.Pairwise fun mess1 mess2 => mess2.timestapm ≤ mess1.timestapm))

/-- The dictionary after a message has been filed under its partner. -/
def fileMessage (uid : String) : Table String Mess → Mess → Table String Mess :=
  file (Mess.getChatPartnerId (some uid))

/-- The innermost callback of `get_message_2`, for the user `uid`: file the
message, rebuild the array as `arr`, and set the timer anew. -/
def getMessage2 (box : Inbox) (uid : String) (message : Mess) (arr : List Mess) : Inbox :=
  { box with
    messageDictionary := fileMessage uid box.messageDictionary message
    arrayMess := arr
    timer := true }

/-- `setupnavigationitem`, but for the listener it adds. -/
def setupnavigationitem (box : Inbox) : Inbox :=
  { box with messageDictionary := ∅, arrayMess := [], rows := 0 }

/-- `handle_call_data`, the action of the timer. -/
def handleCallData (box : Inbox) : Inbox :=
  { box with timer := false, rows := box.arrayMess.length }

/-- The partner whose conversation is removed when the row is deleted, `none`
when `array_mess[indexPath.row]` is out of range. -/
def commitEditingStyle (box : Inbox) (uid : String) (row : ℕ) : Option String :=
  box.arrayMess[row]?.map (Mess.getChatPartnerId (some uid))

/-- The completion block of `removeValue`, without an error: `none` when
`remove(at:)` is out of range, or when the table view finds another row count
than the one it had less one. -/
def removeValueDone (box : Inbox) (row : ℕ) : Option Inbox :=
  if row < box.arrayMess.length ∧ box.arrayMess.length = box.rows then
    some { box with arrayMess := box.arrayMess.eraseIdx row, rows := box.rows - 1 }
  else none

/-- No row of the inbox belongs to the partner `p`. -/
def NoRow (box : Inbox) (uid p : String) : Prop :=
  ∀ m ∈ box.arrayMess, m.getChatPartnerId (some uid) ≠ p

instance (box : Inbox) (uid p : String) : Decidable (box.NoRow uid p) :=
  inferInstanceAs (Decidable (∀ m ∈ box.arrayMess, m.getChatPartnerId (some uid) ≠ p))

/-- Every message of the dictionary is under its partner. -/
def Keyed (box : Inbox) (uid : String) : Prop :=
  LastWins.Keyed (Mess.getChatPartnerId (some uid)) box.messageDictionary

lemma keyed_empty (uid : String) : empty.Keyed uid := LastWins.keyed_empty

lemma Keyed.getMessage2 {box : Inbox} {uid : String} (h : box.Keyed uid) (m : Mess)
    (arr : List Mess) : (box.getMessage2 uid m arr).Keyed uid :=
  LastWins.Keyed.file h m

lemma keyed_setupnavigationitem (box : Inbox) (uid : String) :
    box.setupnavigationitem.Keyed uid := LastWins.keyed_empty

/-- A rebuilt array has rows of the filed message's partner and of the partners
in the dictionary, and no others. -/
lemma noRow_getMessage2_iff {box : Inbox} {uid p : String} {m : Mess} {arr : List Mess}
    (hbox : box.Keyed uid) (harr : SortedValues (fileMessage uid box.messageDictionary m) arr) :
    (box.getMessage2 uid m arr).NoRow uid p ↔
      p ≠ m.getChatPartnerId (some uid) ∧ p ∉ box.messageDictionary := by
  have hkeyed := LastWins.Keyed.file hbox m
  have hmem : p ∈ arr.map (Mess.getChatPartnerId (some uid)) ↔
      p = m.getChatPartnerId (some uid) ∨ p ∈ box.messageDictionary := by
    rw [(harr.1.map _).mem_iff, fileMessage, hkeyed.map_values, ← AList.mem_keys, file,
      AList.mem_insert]
  rw [← not_or, ← hmem, List.mem_map]
  simp [NoRow, getMessage2]

/-- A completion block that does not trap finds a row at its place. -/
lemma exists_of_removeValueDone {box box' : Inbox} {row : ℕ}
    (h : box.removeValueDone row = some box') : ∃ m, box.arrayMess[row]? = some m := by
  rw [removeValueDone, Option.ite_none_right_eq_some] at h
  exact ⟨_, List.getElem?_eq_getElem h.1.1⟩

/-- A completion block leaves the dictionary alone. -/
lemma removeValueDone_messageDictionary {box box' : Inbox} {row : ℕ}
    (h : box.removeValueDone row = some box') :
    box'.messageDictionary = box.messageDictionary := by
  rw [removeValueDone, Option.ite_none_right_eq_some] at h
  rw [← Option.some.inj h.2]

end Inbox

end AppChat
