import AppChat.Inbox.Rows
import AppChat.Library.Simulation
import AppChat.System.Client

/-!
The inbox, `messagecontroller`, in the whole system.

`InboxScreen` and `InboxState` are told which messages come. Here the inbox is one of
a `World`, in the app of the device `d`: the value events of the user's own record, the
two levels of the index and the records come from the database as the app sees it, each
row that is tapped or deleted is one of its `array_mess`, and the completion blocks wait
for the answers to its own deletions.

* `LiveInbox`: the world with the writes of the app that are on their way, the listeners
  of one inbox, and what it keeps.
* `LiveInbox.worldAction`: the steps of `World` that the steps of the inbox are.
* `LiveInbox.Sound`: what the inbox keeps was sent, and is sorted by partner; and once
  it listens, every entry of the index is on its way, or its partner is in the
  dictionary. Every step keeps this, `Sound.step`.
* `LiveInbox.inbox_runs_world`: in every run the world goes on by its own steps, and of
  what the inbox does only the completion block of a deletion stops the app.
* `LiveInbox.rows_sent`: every row is a message of the user's, as it was sent.
-/

namespace AppChat

open LastWins Transition

namespace World

/-- The app of the device runs, and `uid` is signed in there. -/
def RunsAs (w : World) (d : DeviceId) (uid : String) : Prop :=
  (w.devices d).running = true ∧ w.currentUid d = some uid

instance (w : World) (d : DeviceId) (uid : String) : Decidable (w.RunsAs d uid) :=
  inferInstanceAs (Decidable ((w.devices d).running = true ∧ w.currentUid d = some uid))

end World

/-- The world and the writes of the app, with one inbox: whether it listens to the user's
own record, the events of this listener and of those on the index that are on their way,
what it keeps, and its deletions that are not answered yet. -/
structure LiveInbox where
  client : Client
  loaded : Bool
  profileEvents : ℕ
  feed : Feed
  box : Inbox
  removals : List DeletionId

inductive LiveInboxAction where
  | world (a : Action)
  | checkuserInputtitle
  | profileValue
  | partnerAdded (q : String)
  | keyAdded (q k : String)
  | getMessage2 (k : String) (arr : List Mess)
  | handleCallData
  | didSelectRowAt (c : ChatId) (row : ℕ)
  | commitEditingStyle (x : DeletionId) (row : ℕ)
  | removeValueFailed (x : DeletionId)
  | removeValueDone (x : DeletionId)
  deriving DecidableEq, Repr

namespace LiveInbox

/-- The world that the app of the inbox is a part of. -/
abbrev world (s : LiveInbox) : World := s.client.world

def init : LiveInbox := ⟨.init, false, 0, .init, .empty, []⟩

variable (uid : String) (d : DeviceId)

/-- The world goes on, and the app with it, as `client`. The listeners on the index
report the new children that the app sees, and the one on the user's own record reports
it again when it has changed. -/
def worldChanged (s : LiveInbox) (client : Client) : LiveInbox :=
  { s with
    client := client
    profileEvents := s.profileEvents +
      if s.loaded ∧ NodeChanged s.client.view client.view ["user", uid] then 1 else 0
    feed := s.feed.databaseChanged s.client.view client.view uid }

/-- The next state of the inbox of `uid` on the device `d`. The callbacks that ask for
the signed-in user are those of `uid`; the runs are those in which nobody else is
signed in by then. -/
def step (s : LiveInbox) : LiveInboxAction → Option LiveInbox
  | .world a => (s.client.step d a).map (s.worldChanged uid)
  | .checkuserInputtitle =>
      if s.world.RunsAs d uid ∧ s.loaded = false then
        some { s with loaded := true, profileEvents := 1 }
      else none
  | .profileValue =>
      -- `setupnavigationitem`, with `get_message_2`
      if s.world.RunsAs d uid ∧ 0 < s.profileEvents then
        some { s with
          profileEvents := s.profileEvents - 1
          feed := s.feed.observe s.client.view uid
          box := s.box.setupnavigationitem }
      else none
  | .partnerAdded q =>
      if (s.world.devices d).running ∧ q ∈ s.feed.partnerEvents then
        some { s with feed := s.feed.partnerAdded s.client.view uid q }
      else none
  | .keyAdded q k =>
      if (s.world.devices d).running ∧ s.feed.hasKey q k then
        some { s with feed := s.feed.keyAdded q k }
      else none
  | .getMessage2 k arr =>
      if s.world.RunsAs d uid ∧ k ∈ s.feed.valueEvents then
        match getMessage2Value (snapshot s.client.view ["mess", k]) with
        | .ok message =>
            if Inbox.SortedValues (Inbox.fileMessage uid s.box.messageDictionary message) arr then
              some { s with feed := s.feed.value k, box := s.box.getMessage2 uid message arr }
            else none
        | .error _ => some { s with client := s.client.crash d }
      else none
  | .handleCallData =>
      if (s.world.devices d).running ∧ s.box.timer then
        some { s with box := s.box.handleCallData }
      else none
  | .didSelectRowAt c row =>
      -- a row that is on the screen
      if row < s.box.rows then
        (s.client.step d (.screen (.inboxSelect c d s.box.arrayMess row))).map (s.worldChanged uid)
      else none
  | .commitEditingStyle x row =>
      if s.world.RunsAs d uid ∧ row < s.box.rows then
        (s.client.step d (.delete (.commit x d s.box.arrayMess row))).map fun client =>
          { s.worldChanged uid client with removals := x :: s.removals }
      else none
  | .removeValueFailed x =>
      if (s.world.devices d).running ∧ x ∈ s.removals ∧
          (s.world.deletions x).map Deletion.st = some .failed then
        some { s with removals := s.removals.erase x }
      else none
  | .removeValueDone x =>
      (s.world.deletions x).bind fun del =>
        if (s.world.devices d).running ∧ x ∈ s.removals ∧ del.st = .applied then
          match s.box.removeValueDone del.row with
          | some box => some { s with box := box, removals := s.removals.erase x }
          | none => some { s with client := s.client.crash d }
        else none

/-- The completion block of the deletion `x` traps. -/
def RemovalTraps (s : LiveInbox) (x : DeletionId) : Prop :=
  ∃ del ∈ s.world.deletions x, s.box.removeValueDone del.row = none

instance (s : LiveInbox) (x : DeletionId) : Decidable (s.RemovalTraps x) :=
  inferInstanceAs (Decidable (∃ del ∈ s.world.deletions x, s.box.removeValueDone del.row = none))

/-- The step of the world in a step of the inbox. -/
def worldAction (s : LiveInbox) : LiveInboxAction → Option Action
  | .world a => some a
  | .didSelectRowAt c row => some (.screen (.inboxSelect c d s.box.arrayMess row))
  | .commitEditingStyle x row => some (.delete (.commit x d s.box.arrayMess row))
  | .removeValueDone x => if s.RemovalTraps x then some (.auth (.kill d)) else none
  | _ => none

/-! ### What an inbox keeps -/

variable {d : DeviceId} {s s' : LiveInbox}

/-- What an inbox keeps, in every state: it was sent, under its partner; every entry is
on its way or its partner is known; and the table view is up to date or will be. -/
structure Sound (s : LiveInbox) : Prop where
  ok : s.client.Ok
  backed : s.feed.Backed s.world uid
  represents : s.box.Represents uid
  keyed : s.box.Keyed uid
  sent : ∀ p m, s.box.messageDictionary.lookup p = some m →
    ∃ b, s.world.SentBetween uid p b ∧ m = b.inboxMess
  covers : 0 < s.feed.outer →
    s.feed.Covers s.client.view uid fun p _ => p ∈ s.box.messageDictionary
  shown : s.box.timer = false → s.box.rows = s.box.arrayMess.length

lemma sound_init : Sound uid init where
  ok := Client.ok_init
  backed := .init _ _
  represents := .empty
  keyed := Inbox.keyed_empty uid
  sent := by
    intro p m h
    cases h
  covers := fun h => absurd h (Nat.lt_irrefl 0)
  shown := fun _ => rfl

variable {uid}

namespace Sound

/-- The world goes on. -/
lemma worldChanged (h : Sound uid s) {a : Action} {client : Client}
    (hstep : s.client.step d a = some client) : Sound uid (s.worldChanged uid client) where
  ok := h.ok.step hstep
  backed := h.backed.databaseChanged (Client.world_step hstep) _ fun _ _ =>
    (h.ok.step hstep).between_of_present
  represents := h.represents
  keyed := h.keyed
  sent p m hm := by
    obtain ⟨b, hb, hmb⟩ := h.sent p m hm
    exact ⟨b, hb.step (Client.world_step hstep), hmb⟩
  covers houter := (h.covers houter).databaseChanged houter fun _ _ =>
    h.ok.present_of_partner hstep
  shown := h.shown

/-- The app stops. -/
lemma crash (h : Sound uid s) (d : DeviceId) :
    Sound uid { s with client := s.client.crash d } where
  ok := h.ok.crash d
  backed := ⟨h.backed.key, h.backed.value⟩
  represents := h.represents
  keyed := h.keyed
  sent := h.sent
  covers houter := ⟨(h.covers houter).heard, (h.covers houter).entry⟩
  shown := h.shown

/-- The listeners go on. -/
lemma setFeed (h : Sound uid s) {f : Feed} (hbacked : f.Backed s.world uid)
    (hcovers : 0 < f.outer →
      f.Covers s.client.view uid fun p _ => p ∈ s.box.messageDictionary) :
    Sound uid { s with feed := f } :=
  ⟨h.ok, hbacked, h.represents, h.keyed, h.sent, hcovers, h.shown⟩

/-- The record of a key that is asked for is there, and is that of a message. -/
lemma exists_message (h : Sound uid s) {k : String} (hk : k ∈ s.feed.valueEvents) :
    ∃ p b, s.world.SentBetween uid p b ∧ b.key = k ∧
      AppChat.getMessage2Value (snapshot s.client.view ["mess", k]) = .ok b.inboxMess := by
  obtain ⟨p, hp⟩ := h.backed.value k hk
  obtain ⟨b, hb, rfl⟩ := hp.exists_sentBetween
  exact ⟨p, b, hb, rfl, h.ok.getMessage2Value hb⟩

/-- A message is filed. -/
lemma getMessage2 (h : Sound uid s) {p : String} {b : RecordBlock}
    (hb : s.world.SentBetween uid p b) {arr : List Mess}
    (harr : Inbox.SortedValues (Inbox.fileMessage uid s.box.messageDictionary b.inboxMess) arr) :
    Sound uid { s with
      feed := s.feed.value b.key, box := s.box.getMessage2 uid b.inboxMess arr } where
  ok := h.ok
  backed := h.backed.erase _
  represents := h.represents.getMessage2 h.keyed harr
  keyed := h.keyed.getMessage2 _ _
  sent q m hm := by
    have hlookup : (file (Mess.getChatPartnerId (some uid)) s.box.messageDictionary
        b.inboxMess).lookup q = some m := hm
    rw [lookup_file, hb.getChatPartnerId] at hlookup
    split_ifs at hlookup with hpq
    · subst hpq
      exact ⟨b, hb, (Option.some.inj hlookup).symm⟩
    · exact h.sent q m hlookup
  covers houter := by
    refine (h.covers houter).value (fun q hq => ?_) fun q _ hq => ?_
    · obtain rfl := h.ok.consistent.between_unique (h.ok.between_of_present hq) hb.between
      exact (AList.mem_insert _).mpr (Or.inl hb.getChatPartnerId.symm)
    · exact (AList.mem_insert _).mpr (Or.inr hq)
  shown htimer := by cases htimer

/-- **Every step keeps what the inbox keeps in order.** -/
lemma step (h : Sound uid s) {a : LiveInboxAction} (hstep : s.step uid d a = some s') :
    Sound uid s' := by
  cases a with
  | world a =>
      simp only [LiveInbox.step, Option.map_eq_some_iff] at hstep
      obtain ⟨client, hclient, rfl⟩ := hstep
      exact h.worldChanged hclient
  | checkuserInputtitle =>
      simp only [LiveInbox.step, Option.ite_none_right_eq_some] at hstep
      rw [← Option.some.inj hstep.2]
      exact ⟨h.ok, h.backed, h.represents, h.keyed, h.sent, h.covers, h.shown⟩
  | profileValue =>
      simp only [LiveInbox.step, Option.ite_none_right_eq_some] at hstep
      rw [← Option.some.inj hstep.2]
      exact ⟨h.ok, h.backed.observe _, .setupnavigationitem _,
        Inbox.keyed_setupnavigationitem _ uid, fun p m hm => (by cases hm),
        fun _ => .observe _ _ _ _, fun _ => rfl⟩
  | partnerAdded q =>
      simp only [LiveInbox.step, Option.ite_none_right_eq_some] at hstep
      rw [← Option.some.inj hstep.2]
      exact h.setFeed (h.backed.partnerAdded (fun _ _ => h.ok.between_of_present) q) fun houter =>
        (h.covers houter).partnerAdded q
  | keyAdded q k =>
      simp only [LiveInbox.step, Option.ite_none_right_eq_some] at hstep
      obtain ⟨⟨-, hk⟩, hstep⟩ := hstep
      rw [← Option.some.inj hstep]
      exact h.setFeed (h.backed.keyAdded (Feed.hasKey_iff.mp hk)) fun houter =>
        (h.covers houter).keyAdded q k
  | getMessage2 k arr =>
      simp only [LiveInbox.step, Option.ite_none_right_eq_some] at hstep
      obtain ⟨⟨-, hk⟩, hstep⟩ := hstep
      obtain ⟨p, b, hb, rfl, hvalue⟩ := h.exists_message hk
      rw [hvalue] at hstep
      obtain ⟨harr, hstep⟩ := Option.ite_none_right_eq_some.mp hstep
      rw [← Option.some.inj hstep]
      exact h.getMessage2 hb harr
  | handleCallData =>
      simp only [LiveInbox.step, Option.ite_none_right_eq_some] at hstep
      rw [← Option.some.inj hstep.2]
      exact ⟨h.ok, h.backed, h.represents.handleCallData, h.keyed, h.sent, h.covers,
        fun _ => rfl⟩
  | didSelectRowAt c row =>
      simp only [LiveInbox.step, Option.ite_none_right_eq_some, Option.map_eq_some_iff] at hstep
      obtain ⟨-, client, hclient, rfl⟩ := hstep
      exact h.worldChanged hclient
  | commitEditingStyle x row =>
      simp only [LiveInbox.step, Option.ite_none_right_eq_some, Option.map_eq_some_iff] at hstep
      obtain ⟨-, client, hclient, rfl⟩ := hstep
      have hs := h.worldChanged hclient
      exact ⟨hs.ok, hs.backed, hs.represents, hs.keyed, hs.sent, hs.covers, hs.shown⟩
  | removeValueFailed x =>
      simp only [LiveInbox.step, Option.ite_none_right_eq_some] at hstep
      rw [← Option.some.inj hstep.2]
      exact ⟨h.ok, h.backed, h.represents, h.keyed, h.sent, h.covers, h.shown⟩
  | removeValueDone x =>
      simp only [LiveInbox.step, Option.bind_eq_some_iff, Option.ite_none_right_eq_some] at hstep
      obtain ⟨del, -, -, hstep⟩ := hstep
      split at hstep <;> rw [← Option.some.inj hstep]
      · rename_i box hbox
        have hrep := h.represents.removeValueDone hbox
        rw [Inbox.removeValueDone, Option.ite_none_right_eq_some] at hbox
        obtain ⟨⟨hrow, hlen⟩, hbox⟩ := hbox
        rw [← Option.some.inj hbox] at hrep ⊢
        refine ⟨h.ok, h.backed, hrep, h.keyed, h.sent, h.covers, fun _ => ?_⟩
        show s.box.rows - 1 = (s.box.arrayMess.eraseIdx del.row).length
        rw [List.length_eraseIdx_of_lt hrow, hlen]
      · exact h.crash d

/-- The row of a message is that of a message that was sent. -/
lemma exists_sentBetween (h : Sound uid s) {m : Mess} (hm : m ∈ s.box.arrayMess) :
    ∃ b, s.world.SentBetween uid (m.getChatPartnerId (some uid)) b ∧ m = b.inboxMess :=
  h.sent _ m (h.represents.lookup m hm)

end Sound

/-! ### The inbox and the world -/

/-- The world goes on by its own steps. -/
lemma projects_world (uid : String) (d : DeviceId) :
    Projects (step uid d) (fun _ _ => True) World.step LiveInbox.world (worldAction d)
      (Sound uid) where
  keeps _ _ _ h _ hstep := h.step hstep
  projects s a s' h _ hstep := by
    cases a with
    | world a =>
        simp only [step, Option.map_eq_some_iff] at hstep
        obtain ⟨client, hclient, rfl⟩ := hstep
        exact run_cons_eq_some.mpr ⟨client.world, Client.world_step hclient, rfl⟩
    | checkuserInputtitle | profileValue | partnerAdded | keyAdded | handleCallData |
      removeValueFailed =>
        simp only [step, Option.ite_none_right_eq_some] at hstep
        rw [← Option.some.inj hstep.2]
        rfl
    | getMessage2 k arr =>
        simp only [step, Option.ite_none_right_eq_some] at hstep
        obtain ⟨⟨-, hk⟩, hstep⟩ := hstep
        obtain ⟨p, b, -, -, hvalue⟩ := h.exists_message hk
        rw [hvalue] at hstep
        rw [← Option.some.inj (Option.ite_none_right_eq_some.mp hstep).2]
        rfl
    | didSelectRowAt c row =>
        simp only [step, Option.ite_none_right_eq_some, Option.map_eq_some_iff] at hstep
        obtain ⟨-, client, hclient, rfl⟩ := hstep
        exact run_cons_eq_some.mpr ⟨client.world, Client.world_step hclient, rfl⟩
    | commitEditingStyle x row =>
        simp only [step, Option.ite_none_right_eq_some, Option.map_eq_some_iff] at hstep
        obtain ⟨-, client, hclient, rfl⟩ := hstep
        exact run_cons_eq_some.mpr ⟨client.world, Client.world_step hclient, rfl⟩
    | removeValueDone x =>
        simp only [step, Option.bind_eq_some_iff, Option.ite_none_right_eq_some] at hstep
        obtain ⟨del, hdel, -, hstep⟩ := hstep
        have htraps : s.RemovalTraps x ↔ s.box.removeValueDone del.row = none := by
          simp [RemovalTraps, hdel]
        split at hstep <;> rename_i hbox <;> rw [← Option.some.inj hstep]
        · rw [worldAction, if_neg (by simp [htraps, hbox])]
          rfl
        · rw [worldAction, if_pos (htraps.mpr hbox)]
          rfl

variable {as : List LiveInboxAction}

lemma run_sound (h : run (step uid d) init as = some s) : Sound uid s :=
  run_invariant (fun _ _ _ hs hstep => hs.step hstep) (sound_init uid) h

/-- The user `a` sends `b` a text, and the inbox of `b` shows it. -/
def firstTextShown : List LiveInboxAction :=
  World.firstText.map LiveInboxAction.world ++ [.checkuserInputtitle, .profileValue,
    .partnerAdded "a", .keyAdded "a" "k",
    .getMessage2 "k" [⟨"b", "a", 0, "hello", "", "demo_video"⟩], .handleCallData]

lemma exists_firstTextShown : ∃ s, run (step "b" 1) init firstTextShown = some s ∧
    0 < s.feed.outer ∧ s.feed.Quiet ∧ s.box.arrayMess ≠ [] ∧ 0 < s.box.rows := by
  have hrun : ((run (step "b" 1) init firstTextShown).map fun s =>
      decide (0 < s.feed.outer ∧ s.feed.Quiet ∧ s.box.arrayMess ≠ [] ∧ 0 < s.box.rows)) =
        some true := by
    decide +kernel
  obtain ⟨s, hs, h⟩ := Option.map_eq_some_iff.mp hrun
  exact ⟨s, hs, of_decide_eq_true h⟩

/-- What the inbox does by itself stops no app but by a completion block that traps. -/
lemma devices_step (h : Sound uid s) {a : LiveInboxAction} (hstep : s.step uid d a = some s')
    (hworld : ∀ b, a ≠ .world b) (htraps : ∀ x, a = .removeValueDone x → ¬ s.RemovalTraps x) :
    s'.world.devices = s.world.devices := by
  have hrun := (projects_world uid d).projects s a s' h trivial hstep
  cases a with
  | world b => exact absurd rfl (hworld b)
  | checkuserInputtitle | profileValue | partnerAdded | keyAdded | getMessage2 | handleCallData |
    removeValueFailed => rw [← Option.some.inj hrun]
  | didSelectRowAt c row =>
      simp only [step, Option.ite_none_right_eq_some, Option.map_eq_some_iff] at hstep
      obtain ⟨hrow, client, hclient, rfl⟩ := hstep
      obtain ⟨m, hm⟩ := h.represents.exists_row hrow
      have hw' := Client.world_step hclient
      simp only [World.step, World.screenStep, hm, Option.ite_none_right_eq_some] at hw'
      exact (congrArg World.devices (Option.some.inj hw'.2)).symm
  | commitEditingStyle x row =>
      simp only [step, Option.ite_none_right_eq_some, Option.map_eq_some_iff] at hstep
      obtain ⟨⟨⟨-, huid⟩, hrow⟩, client, hclient, rfl⟩ := hstep
      obtain ⟨m, hm⟩ := h.represents.exists_row hrow
      have hw' := Client.world_step hclient
      simp only [World.step, World.deleteStep, huid, hm, Option.ite_none_right_eq_some] at hw'
      exact (congrArg World.devices (Option.some.inj hw'.2)).symm
  | removeValueDone x =>
      rw [worldAction, if_neg (htraps x rfl)] at hrun
      rw [← Option.some.inj hrun]

/-- **The inbox is a part of the system**: in every run, with whatever the other users
and devices do meanwhile, the world goes on by its own steps, and no row that is tapped
or deleted is out of range. What the inbox does, the reads of the records, the taps and
the swipes among it, leaves every app as it is, running and signed in; only the
completion block of a deletion that does not find the rows it needs stops the app. (The
listener on the partner's record that a tap adds is called in a step of the world.) -/
theorem inbox_runs_world (h : run (step uid d) init as = some s) :
    World.Runs (trace (step uid d) (worldAction d) init as) s.world ∧
      (∀ row < s.box.rows, ∃ m, s.box.arrayMess[row]? = some m) ∧
      ∀ a s', s.step uid d a = some s' → s'.world.devices ≠ s.world.devices →
        (∃ b, a = .world b) ∨ ∃ x, a = .removeValueDone x ∧ s.RemovalTraps x := by
  have hs := run_sound h
  refine ⟨(projects_world uid d).run_trace (sound_init uid) h (meets_true _ _ _),
    fun _ hrow => hs.represents.exists_row hrow, fun a s' hstep hdevices => ?_⟩
  by_contra hnot
  obtain ⟨hworld, htraps⟩ := not_or.mp hnot
  exact hdevices (devices_step hs hstep (fun b hb => hworld ⟨b, hb⟩)
    fun x hx htraps' => htraps ⟨x, hx, htraps'⟩)

/-- The row of `a` is there. -/
theorem inbox_runs_world_firstTextShown : ∃ s, run (step "b" 1) init firstTextShown = some s ∧
    World.Runs World.firstText s.world ∧ ∃ m, s.box.arrayMess[0]? = some m := by
  obtain ⟨s, hs, -, -, -, hrows⟩ := exists_firstTextShown
  have htrace : trace (step "b" 1) (worldAction 1) init firstTextShown = World.firstText := by
    decide +kernel
  obtain ⟨hworld, hrow, -⟩ := inbox_runs_world hs
  exact ⟨s, hs, htrace ▸ hworld, hrow 0 hrows⟩

/-- **Every row is a message of the user's**: it has been sent, by the user to the
partner of the row or by this partner to the user, its record has been accepted, and
the row holds what was sent. No partner has two rows, and the timestamps do not
increase from row to row. -/
theorem rows_sent (h : run (step uid d) init as = some s) :
    (∀ m ∈ s.box.arrayMess, ∃ b,
      s.world.SentBetween uid (m.getChatPartnerId (some uid)) b ∧ m = b.inboxMess) ∧
    (s.box.arrayMess.map (Mess.getChatPartnerId (some uid))).Nodup ∧
    s.box.arrayMess.Pairwise fun mess1 mess2 => mess2.timestapm ≤ mess1.timestapm :=
  ⟨fun _ => (run_sound h).exists_sentBetween, (run_sound h).represents.nodup,
    (run_sound h).represents.sorted⟩

/-- It is the text that `a` has sent. -/
theorem rows_sent_firstTextShown : ∃ s m b, run (step "b" 1) init firstTextShown = some s ∧
    m ∈ s.box.arrayMess ∧
      s.world.SentBetween "b" (m.getChatPartnerId (some "b")) b ∧ m = b.inboxMess := by
  obtain ⟨s, hs, -, -, harray, -⟩ := exists_firstTextShown
  obtain ⟨m, hm⟩ := List.exists_mem_of_ne_nil _ harray
  obtain ⟨b, hb⟩ := (rows_sent hs).1 m hm
  exact ⟨s, m, b, hs, hm, hb⟩

end LiveInbox

end AppChat
