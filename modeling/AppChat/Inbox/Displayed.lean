import AppChat.Inbox.Rows
import AppChat.System.Step

/-!
The cells of the inbox, and the rows they stand for.

`get_message_2` rebuilds and sorts the array as soon as a read completes, while
the table view asks for new cells only when it is reloaded, by a timer that every
further read sets anew. Until then a tap or a swipe finds in the array what its
cell no longer shows.

* `InboxTable`: an inbox with the cells that are on the screen, each with its row
  and the message `cellForRowAt` has put into it.
* `ActsOnShown`: tapping a row and deleting it act on the conversation its cell
  shows.
* `KeepsPlaces`: a completed read leaves the conversations of the rows on the
  screen in their places.
* `actsOnShown_iff`: every state of a run acts on what it shows exactly when every
  read of the run keeps the places; `keepsPlaces_iff` tells such a read by the
  timestamps.
* `inboxSelect_opens`, `commit_removes`: what the tap and the swipe then do in the
  system.
-/

namespace AppChat

open LastWins Transition

namespace Inbox

/-- The partner whose chat log `didSelectRowAt` opens, `none` when
`array_mess[indexPath.row]` is out of range. -/
def didSelectRowAt (box : Inbox) (uid : String) (row : ℕ) : Option String :=
  box.arrayMess[row]?.map (Mess.getChatPartnerId (some uid))

end Inbox

/-- An inbox with the cells of its table view that are on the screen: the row of
each, and the message that has been put into it. -/
structure InboxTable where
  screen : InboxScreen
  cells : List (ℕ × Mess)

/-- A callback of the inbox, a row that comes on the screen, and one that
leaves it. -/
inductive TableAction where
  | callback (a : RowAction)
  | cellForRowAt (row : ℕ)
  | didEndDisplaying (row : ℕ)
  deriving DecidableEq, Repr

namespace InboxTable

def init : InboxTable := ⟨.init, []⟩

/-- The cells after `deleteRows` has taken the row out: those below it move up. -/
def deleteRows (cells : List (ℕ × Mess)) (row : ℕ) : List (ℕ × Mess) :=
  (cells.filter fun e => e.1 ≠ row).map fun e => (if e.1 < row then e.1 else e.1 - 1, e.2)

/-- The cells after a callback. `reloadData` drops them all; the table view then
asks for the rows that are on the screen, one by one. -/
def cellsAfter (t : InboxTable) : RowAction → List (ℕ × Mess)
  | .setupnavigationitem => []
  | .handleCallData => []
  | .removeValueDone x =>
      match t.screen.removals[x]? with
      | some del => deleteRows t.cells del.row
      | none => t.cells
  | _ => t.cells

/-- The next state. The table view asks for a cell only for a row it has. -/
def step (uid : String) (t : InboxTable) : TableAction → Option InboxTable
  | .callback a => (t.screen.step uid a).map fun screen => ⟨screen, t.cellsAfter a⟩
  | .cellForRowAt row =>
      if row < t.screen.box.rows then
        t.screen.box.arrayMess[row]?.map fun mess =>
          { t with cells := (row, mess) :: t.cells.filter fun e => e.1 ≠ row }
      else none
  | .didEndDisplaying row => some { t with cells := t.cells.filter fun e => e.1 ≠ row }

/-- Tapping a row opens the chat of the partner its cell shows, and committing
its deletion removes the conversation with this partner. -/
def ActsOnShown (uid : String) (t : InboxTable) : Prop :=
  ∀ e ∈ t.cells,
    t.screen.box.didSelectRowAt uid e.1 = some (e.2.getChatPartnerId (some uid)) ∧
      t.screen.box.commitEditingStyle uid e.1 = some (e.2.getChatPartnerId (some uid))

/-- A completed read leaves the conversation of every row on the screen in its
place. -/
def KeepsPlaces (uid : String) (t : InboxTable) : TableAction → Prop
  | .callback (.getMessage2 _ arr) => ∀ e ∈ t.cells,
      arr[e.1]?.map (Mess.getChatPartnerId (some uid)) =
        t.screen.box.arrayMess[e.1]?.map (Mess.getChatPartnerId (some uid))
  | _ => True

instance (uid : String) (t : InboxTable) : DecidablePred (KeepsPlaces uid t)
  | .callback (.getMessage2 _ arr) => inferInstanceAs (Decidable (∀ e ∈ t.cells,
      arr[e.1]?.map (Mess.getChatPartnerId (some uid)) =
        t.screen.box.arrayMess[e.1]?.map (Mess.getChatPartnerId (some uid))))
  | .callback .setupnavigationitem => inferInstanceAs (Decidable True)
  | .callback .handleCallData => inferInstanceAs (Decidable True)
  | .callback (.commitEditingStyle _) => inferInstanceAs (Decidable True)
  | .callback (.removeValueFailed _) => inferInstanceAs (Decidable True)
  | .callback (.removeValueDone _) => inferInstanceAs (Decidable True)
  | .cellForRowAt _ => inferInstanceAs (Decidable True)
  | .didEndDisplaying _ => inferInstanceAs (Decidable True)

end InboxTable

/-! ### The place of a conversation -/

namespace Inbox

/-- In an array sorted by distinct timestamps, the row of a message is the number
of the messages that are newer. -/
lemma getElem?_eq_some_iff_countP {arr : List Mess}
    (h : arr.Pairwise fun mess1 mess2 => mess2.timestapm < mess1.timestapm) {row : ℕ} {m : Mess} :
    arr[row]? = some m ↔
      m ∈ arr ∧ (arr.countP fun m' => m.timestapm < m'.timestapm) = row := by
  -- the row of a message, counted
  have count : ∀ {arr : List Mess} {row : ℕ},
      (arr.Pairwise fun mess1 mess2 => mess2.timestapm < mess1.timestapm) →
      arr[row]? = some m → (arr.countP fun m' => m.timestapm < m'.timestapm) = row := by
    intro arr
    induction arr with
    | nil => simp
    | cons first rest ih =>
        intro row hsorted hrow
        obtain ⟨hfirst, hrest⟩ := List.pairwise_cons.mp hsorted
        cases row with
        | zero =>
            obtain rfl : first = m := by simpa using hrow
            rw [List.countP_eq_zero]
            intro m' hm'
            rcases List.mem_cons.mp hm' with rfl | hm'
            · simp
            · simpa using (hfirst m' hm').le
        | succ row =>
            rw [List.getElem?_cons_succ] at hrow
            have hlt := hfirst m (List.mem_of_getElem? hrow)
            rw [List.countP_cons_of_pos (by simpa using hlt), ih hrest hrow]
  constructor
  · exact fun hrow => ⟨List.mem_of_getElem? hrow, count h hrow⟩
  · rintro ⟨hm, hcount⟩
    obtain ⟨row', hrow'⟩ := List.mem_iff_getElem?.mp hm
    rwa [← hcount, count h hrow']

/-- **The place of a conversation** after a read that files `message`, when no two
conversations have the same timestamp: as many rows are above it as there are
conversations with a newer message. -/
lemma place_iff {box : Inbox} {uid : String} {message m : Mess} {arr : List Mess} {row : ℕ}
    {q : String} (hbox : box.Keyed uid)
    (harr : SortedValues (fileMessage uid box.messageDictionary message) arr)
    (hdistinct : (arr.map Mess.timestapm).Nodup)
    (hm : (fileMessage uid box.messageDictionary message).lookup q = some m) :
    arr[row]?.map (Mess.getChatPartnerId (some uid)) = some q ↔
      ((values (fileMessage uid box.messageDictionary message)).countP fun m' =>
        m.timestapm < m'.timestapm) = row := by
  have hkeyed := LastWins.Keyed.file hbox message
  have hstrict : arr.Pairwise fun mess1 mess2 => mess2.timestapm < mess1.timestapm :=
    (harr.2.and (List.pairwise_map.mp hdistinct)).imp fun hle => lt_of_le_of_ne hle.1 hle.2.symm
  have hmem : m ∈ arr := harr.1.mem_iff.mpr (mem_values.mpr ⟨q, hm⟩)
  rw [← harr.1.countP_eq]
  constructor
  · intro hq
    obtain ⟨m', hrow, hq⟩ := Option.map_eq_some_iff.mp hq
    have hval : m' ∈ values (fileMessage uid box.messageDictionary message) :=
      harr.1.mem_iff.mp (List.mem_of_getElem? hrow)
    have hlookup := hkeyed.lookup_of_mem_values hval
    rw [hq] at hlookup
    obtain rfl : m = m' := Option.some.inj (hm.symm.trans hlookup)
    exact ((getElem?_eq_some_iff_countP hstrict).mp hrow).2
  · intro hcount
    rw [(getElem?_eq_some_iff_countP hstrict).mpr ⟨hmem, hcount⟩, Option.map_some, hkeyed q m hm]

end Inbox

/-! ### What a row acts on -/

namespace InboxTable

variable {uid : String} {t t' : InboxTable}

/-- The tap and the swipe read the same row of the array. -/
lemma actsOnShown_iff_forall : t.ActsOnShown uid ↔ ∀ e ∈ t.cells,
    t.screen.box.arrayMess[e.1]?.map (Mess.getChatPartnerId (some uid)) =
      some (e.2.getChatPartnerId (some uid)) := by
  simp only [ActsOnShown, Inbox.didSelectRowAt, Inbox.commitEditingStyle, and_self]

/-- Taking a row out of the array and out of the table view moves the other rows
alike. -/
lemma exists_of_mem_deleteRows {cells : List (ℕ × Mess)} {row : ℕ} {e : ℕ × Mess}
    (h : e ∈ deleteRows cells row) (arr : List Mess) :
    ∃ e' ∈ cells, e'.2 = e.2 ∧ (arr.eraseIdx row)[e.1]? = arr[e'.1]? := by
  obtain ⟨e', he', rfl⟩ := List.mem_map.mp h
  obtain ⟨hmem, hne⟩ := List.mem_filter.mp he'
  refine ⟨e', hmem, rfl, ?_⟩
  rw [List.getElem?_eraseIdx]
  by_cases hlt : e'.1 < row
  · rw [if_pos hlt, if_pos hlt]
  · have hgt : row < e'.1 := lt_of_le_of_ne (not_lt.mp hlt) fun heq => by simp [heq] at hne
    rw [if_neg hlt, if_neg (by omega), Nat.sub_add_cancel (by omega)]

/-- **A step that keeps the places** acts on what is shown after it. -/
lemma ActsOnShown.step (ht : t.ActsOnShown uid) {a : TableAction} (ha : KeepsPlaces uid t a)
    (h : t.step uid a = some t') : t'.ActsOnShown uid := by
  rw [actsOnShown_iff_forall] at ht ⊢
  cases a with
  | callback a =>
      obtain ⟨screen, hscreen, rfl⟩ := Option.map_eq_some_iff.mp h
      cases a with
      | getMessage2 message arr =>
          simp only [InboxScreen.step, Option.ite_none_right_eq_some] at hscreen
          rw [← Option.some.inj hscreen.2]
          exact fun e he => (ha e he).trans (ht e he)
      | setupnavigationitem => simp [cellsAfter]
      | handleCallData => simp [cellsAfter]
      | commitEditingStyle row =>
          simp only [InboxScreen.step, Option.ite_none_right_eq_some,
            Option.map_eq_some_iff] at hscreen
          obtain ⟨-, p, -, rfl⟩ := hscreen
          exact ht
      | removeValueFailed x =>
          simp only [InboxScreen.step, Option.bind_eq_some_iff,
            Option.ite_none_right_eq_some] at hscreen
          obtain ⟨del, -, -, hscreen⟩ := hscreen
          rw [← Option.some.inj hscreen]
          exact ht
      | removeValueDone x =>
          simp only [InboxScreen.step, Option.bind_eq_some_iff, Option.ite_none_right_eq_some,
            Option.map_eq_some_iff] at hscreen
          obtain ⟨del, hdel, -, box, hbox, rfl⟩ := hscreen
          rw [Inbox.removeValueDone, Option.ite_none_right_eq_some] at hbox
          rw [← Option.some.inj hbox.2]
          intro e he
          simp only [cellsAfter, hdel] at he
          obtain ⟨e', he', hmess, hrow⟩ := exists_of_mem_deleteRows he t.screen.box.arrayMess
          rw [hrow, ← hmess]
          exact ht e' he'
  | cellForRowAt row =>
      simp only [InboxTable.step, Option.ite_none_right_eq_some, Option.map_eq_some_iff] at h
      obtain ⟨-, mess, hmess, rfl⟩ := h
      intro e he
      rcases List.mem_cons.mp he with rfl | he
      · rw [hmess, Option.map_some]
      · exact ht e (List.mem_of_mem_filter he)
  | didEndDisplaying row =>
      rw [← Option.some.inj h]
      exact fun e he => ht e (List.mem_of_mem_filter he)

/-- A step that acts on what is shown, before and after it, keeps the places. -/
lemma keepsPlaces_of_actsOnShown (ht : t.ActsOnShown uid) {a : TableAction}
    (h : t.step uid a = some t') (ht' : t'.ActsOnShown uid) : KeepsPlaces uid t a := by
  rw [actsOnShown_iff_forall] at ht ht'
  cases a with
  | callback a =>
      cases a with
      | getMessage2 message arr =>
          obtain ⟨screen, hscreen, rfl⟩ := Option.map_eq_some_iff.mp h
          simp only [InboxScreen.step, Option.ite_none_right_eq_some] at hscreen
          rw [← Option.some.inj hscreen.2] at ht'
          exact fun e he => (ht' e he).trans (ht e he).symm
      | _ => trivial
  | cellForRowAt row => trivial
  | didEndDisplaying row => trivial

/-- **When a row acts on the conversation it shows**: in every state of a run, and
for every row on the screen, if and only if every read that completes in the run
leaves the conversations of the rows on the screen in their places. -/
theorem actsOnShown_iff {as : List TableAction} (h : run (step uid) init as = some t) :
    (∀ bs s, bs <+: as → run (step uid) init bs = some s → s.ActsOnShown uid) ↔
      Meets (step uid) (KeepsPlaces uid) init as := by
  constructor
  · intro hall
    refine meets_iff.mpr fun bs a cs s has hs => ?_
    have hprefix : bs ++ [a] <+: as := ⟨cs, by rw [has]; simp⟩
    obtain ⟨s', hs'⟩ := exists_run_of_prefix h hprefix
    obtain ⟨s₀, hs₀, hstep⟩ := run_concat_eq_some.mp hs'
    obtain rfl : s₀ = s := Option.some.inj (hs₀.symm.trans hs)
    exact keepsPlaces_of_actsOnShown (hall bs s₀ ⟨a :: cs, has.symm⟩ hs) hstep
      (hall _ s' hprefix hs')
  · intro hmeets bs s hprefix hs
    exact (hmeets.of_prefix hprefix).invariant (fun _ _ _ hu ha hstep => hu.step ha hstep)
      (by simp [ActsOnShown, init]) hs

/-! ### Which reads keep the places -/

lemma screen_represents {as : List TableAction} (h : run (step uid) init as = some t) :
    t.screen.box.Represents uid ∧ t.screen.box.Keyed uid := by
  refine run_invariant (I := fun t : InboxTable => t.screen.box.Represents uid ∧
    t.screen.box.Keyed uid) (fun u a v hu hstep => ?_) ⟨.empty, Inbox.keyed_empty uid⟩ h
  cases a with
  | callback a =>
      obtain ⟨screen, hscreen, rfl⟩ := Option.map_eq_some_iff.mp hstep
      exact InboxScreen.step_represents hu hscreen
  | cellForRowAt row =>
      simp only [step, Option.ite_none_right_eq_some, Option.map_eq_some_iff] at hstep
      obtain ⟨-, mess, -, rfl⟩ := hstep
      exact hu
  | didEndDisplaying row =>
      rw [← Option.some.inj hstep]
      exact hu

/-- **Which reads keep the places**, when no two conversations have the same
timestamp: those after which every conversation on the screen has as many newer
ones as there are rows above its cell. -/
theorem keepsPlaces_iff {as : List TableAction} (h : run (step uid) init as = some t)
    (ht : t.ActsOnShown uid) {message : Mess} {arr : List Mess}
    (harr : Inbox.SortedValues (Inbox.fileMessage uid t.screen.box.messageDictionary message) arr)
    (hdistinct : (arr.map Mess.timestapm).Nodup) :
    KeepsPlaces uid t (.callback (.getMessage2 message arr)) ↔
      ∀ e ∈ t.cells,
        ∀ m ∈ (Inbox.fileMessage uid t.screen.box.messageDictionary message).lookup
          (e.2.getChatPartnerId (some uid)),
          ((values (Inbox.fileMessage uid t.screen.box.messageDictionary message)).countP
            fun m' => m.timestapm < m'.timestapm) = e.1 := by
  obtain ⟨hrep, hkeyed⟩ := screen_represents h
  rw [actsOnShown_iff_forall] at ht
  refine forall₂_congr fun e he => ?_
  obtain ⟨m₀, hrow, hq⟩ := Option.map_eq_some_iff.mp (ht e he)
  -- the conversation of the cell is still in the dictionary
  have hlookup := hrep.lookup m₀ (List.mem_of_getElem? hrow)
  rw [hq] at hlookup
  obtain ⟨m, hm⟩ : ∃ m, (Inbox.fileMessage uid t.screen.box.messageDictionary message).lookup
      (e.2.getChatPartnerId (some uid)) = some m := by
    rw [Inbox.fileMessage, lookup_file, hlookup]
    split_ifs
    · exact ⟨message, rfl⟩
    · exact ⟨m₀, rfl⟩
  rw [ht e he, Inbox.place_iff hkeyed harr hdistinct hm, hm]
  simp

/-! ### Two rows -/

/-- A later message of `c`, whose row is the first. -/
def cToAAgain : Mess := ⟨"a", "c", 4, "from c again", "", "demo_video"⟩

/-- The rows of `c` and of `b` are put on the screen. -/
def shownRows : List TableAction :=
  InboxScreen.twoRows.map .callback ++ [.cellForRowAt 0, .cellForRowAt 1]

/-- A message of the first row keeps the places. -/
theorem actsOnShown_firstRow : ∃ t, run (step "a") init
    (shownRows ++ [.callback (.getMessage2 cToAAgain [cToAAgain, InboxState.bToA])]) = some t ∧
      t.cells.map Prod.fst = [1, 0] ∧ t.ActsOnShown "a" := by
  have hrun : ((run (step "a") init
      (shownRows ++ [.callback (.getMessage2 cToAAgain [cToAAgain, InboxState.bToA])])).map fun t =>
        t.cells.map Prod.fst) = some [1, 0] := by
    decide +kernel
  obtain ⟨t, ht, hcells⟩ := Option.map_eq_some_iff.mp hrun
  have hmeets : Meets (step "a") (KeepsPlaces "a") init
      (shownRows ++ [.callback (.getMessage2 cToAAgain [cToAAgain, InboxState.bToA])]) := by
    decide +kernel
  exact ⟨t, ht, hcells, (actsOnShown_iff ht).mpr hmeets _ t List.prefix_rfl ht⟩

/-- **The other conversation**: a message of the second row moves it to the first
place of the array, before the timer reloads the table. Tapping the row that shows
`c` opens the chat with `b`, and deleting it removes the conversation with `b`. -/
theorem secondRow_acts_on_other : ∃ t, run (step "a") init (shownRows ++
    [.callback (.getMessage2 InboxScreen.bToAAgain [InboxScreen.bToAAgain, InboxState.cToA])]) =
      some t ∧
    (0, InboxState.cToA) ∈ t.cells ∧ InboxState.cToA.getChatPartnerId (some "a") = "c" ∧
      t.screen.box.didSelectRowAt "a" 0 = some "b" ∧
      t.screen.box.commitEditingStyle "a" 0 = some "b" ∧ ¬ t.ActsOnShown "a" := by
  have hrun : ((run (step "a") init (shownRows ++ [.callback
      (.getMessage2 InboxScreen.bToAAgain [InboxScreen.bToAAgain, InboxState.cToA])])).map fun t =>
        decide ((0, InboxState.cToA) ∈ t.cells ∧ t.screen.box.didSelectRowAt "a" 0 = some "b" ∧
          t.screen.box.commitEditingStyle "a" 0 = some "b")) = some true := by
    decide +kernel
  obtain ⟨t, ht, h⟩ := Option.map_eq_some_iff.mp hrun
  obtain ⟨hcell, hselect, hcommit⟩ := of_decide_eq_true h
  refine ⟨t, ht, hcell, by decide, hselect, hcommit, fun hacts => ?_⟩
  have hshown := (hacts _ hcell).1
  rw [hselect] at hshown
  exact absurd hshown (by decide)

end InboxTable

/-! ### The chat log and the deletion -/

namespace World

variable {w : World} {box : Inbox} {uid p : String} {row : ℕ} {d : DeviceId}

/-- Tapping a row of an inbox opens a chat log with `didSelectRowAt`'s partner. -/
lemma inboxSelect_opens {c : ChatId} (hrun : (w.devices d).running = true)
    (hc : w.chats c = none) (huid : w.currentUid d = some uid)
    (hp : box.didSelectRowAt uid row = some p) :
    w.step (.screen (.inboxSelect c d box.arrayMess row)) =
      some (w.setChat c ⟨d, p, true, none, ""⟩) := by
  obtain ⟨m, hm, rfl⟩ := Option.map_eq_some_iff.mp hp
  simp [step, screenStep, hrun, hc, huid, hm]

/-- Deleting a row of an inbox removes the node of `commitEditingStyle`'s
partner. -/
lemma commit_removes {x : DeletionId} (hrun : (w.devices d).running = true)
    (hx : w.deletions x = none) (huid : w.currentUid d = some uid)
    (hp : box.commitEditingStyle uid row = some p) :
    w.step (.delete (.commit x d box.arrayMess row)) =
      some (w.setDeletion x ⟨d, uid, p, row, .pending⟩) := by
  obtain ⟨m, hm, rfl⟩ := Option.map_eq_some_iff.mp hp
  simp [step, deleteStep, hrun, hx, huid, hm]

end World

end AppChat
