import AppChat.Library.Draining
import AppChat.System.Conversation
import AppChat.System.InboxRows

/-!
The screens catch up.

What a chat log or an inbox shows is known when no event is on its way. Here the rest
of the system makes no step, and only the callbacks of one screen run, in any order.

* `Feed.pending`: how many callbacks the events on their way stand for. An event of a
  partner brings one of each of its keys, and this one that of its record.
* `ChatScreen.chat_catches_up`: a chat log runs as many callbacks as were pending, and then
  shows its conversation.
* `LiveInbox.inbox_catches_up`: the same for the inbox, whose listener on the user's own
  record starts it all over, and whose timer is set anew by every message.
-/

namespace AppChat

open LastWins Transition

namespace Feed

variable {f : Feed} {db : Database} {uid : String} {n : ℕ}

/-- The callbacks an event of the partner `q` stands for, when that of a record counts
for `n`. -/
def partnerCost (db : Database) (uid : String) (n : ℕ) (q : String) : ℕ :=
  1 + (n + 1) * (db.childKeys ["user-mess", uid, q]).length

/-- The callbacks that are pending, when that of a record counts for `n`. -/
def pending (f : Feed) (db : Database) (uid : String) (n : ℕ) : ℕ :=
  (f.partnerEvents.map (partnerCost db uid n)).sum + (n + 1) * f.keyEvents.length +
    n * f.valueEvents.length

/-- A new listener on the index brings an event of every partner. -/
lemma pending_observe (f : Feed) (db : Database) (uid : String) (n : ℕ) :
    (f.observe db uid).pending db uid n =
      f.pending db uid n + (init.observe db uid).pending db uid n := by
  simp only [pending, observe, init, List.map_append, List.sum_append, List.nil_append,
    List.length_nil, Nat.mul_zero, Nat.add_zero]
  omega

/-- The callback of a partner has run. -/
lemma pending_partnerAdded (db : Database) (uid : String) (n : ℕ) {q : String}
    (hq : q ∈ f.partnerEvents) :
    (f.partnerAdded db uid q).pending db uid n + 1 = f.pending db uid n := by
  have hsum := List.sum_map_erase (partnerCost db uid n) hq
  simp only [pending, partnerAdded, List.length_append, List.length_map, Nat.mul_add]
  simp only [partnerCost] at hsum ⊢
  omega

/-- The callback of a key has run. -/
lemma pending_keyAdded (db : Database) (uid : String) (n : ℕ) {q k : String}
    (hk : (q, k) ∈ f.keyEvents) : (f.keyAdded q k).pending db uid n + 1 = f.pending db uid n := by
  have hpos : 0 < f.keyEvents.length := List.length_pos_of_mem hk
  have hlen : f.keyEvents.length = (f.keyEvents.length - 1) + 1 := by omega
  simp only [pending, keyAdded, List.length_append, List.length_singleton,
    List.length_erase_of_mem hk]
  rw [hlen, Nat.add_sub_cancel, Nat.mul_add, Nat.mul_add]
  omega

/-- The callback of a record has run. -/
lemma pending_value (db : Database) (uid : String) (n : ℕ) {k : String} (hk : k ∈ f.valueEvents) :
    (f.value k).pending db uid n + n = f.pending db uid n := by
  have hpos : 0 < f.valueEvents.length := List.length_pos_of_mem hk
  have hlen : f.valueEvents.length = (f.valueEvents.length - 1) + 1 := by omega
  simp only [pending, value, List.length_erase_of_mem hk]
  rw [hlen, Nat.add_sub_cancel, Nat.mul_add]
  omega

/-- As long as an event is on its way, one of the three callbacks can run. -/
lemma exists_event (h : f.pending db uid n ≠ 0) :
    (∃ q, q ∈ f.partnerEvents) ∨ (∃ q k, (q, k) ∈ f.keyEvents) ∨ ∃ k, k ∈ f.valueEvents := by
  by_cases hp : f.partnerEvents = []
  · by_cases hk : f.keyEvents = []
    · have hv : f.valueEvents ≠ [] := by
        intro hv
        simp [pending, hp, hk, hv] at h
      exact Or.inr (Or.inr (List.exists_mem_of_ne_nil _ hv))
    · obtain ⟨e, he⟩ := List.exists_mem_of_ne_nil _ hk
      exact Or.inr (Or.inl ⟨e.1, e.2, he⟩)
  · exact Or.inl (List.exists_mem_of_ne_nil _ hp)

/-- Nothing is pending when no event is on its way. -/
lemma quiet_of_pending (hn : 0 < n) (h : f.pending db uid n = 0) : f.Quiet := by
  rw [pending, Nat.add_eq_zero_iff, Nat.add_eq_zero_iff] at h
  obtain ⟨⟨hp, hk⟩, hv⟩ := h
  refine ⟨List.eq_nil_iff_forall_not_mem.mpr fun q hq => ?_, ?_, ?_⟩
  · have hle := List.single_le_sum (l := f.partnerEvents.map (partnerCost db uid n))
      (fun _ _ => Nat.zero_le _) _ (List.mem_map_of_mem hq)
    rw [hp, partnerCost] at hle
    omega
  · exact List.length_eq_zero_iff.mp ((Nat.mul_eq_zero.mp hk).resolve_left (by omega))
  · exact List.length_eq_zero_iff.mp ((Nat.mul_eq_zero.mp hv).resolve_left hn.ne')

end Feed

/-! ### The chat log -/

namespace ChatScreen

variable {uid : String} {d : DeviceId} {c : ChatId} {s s' : ChatScreen} {client : Client}
  {as bs : List ChatScreenAction}

variable (uid c client) in
/-- The screen, with the app and the world as they are in `client`. -/
structure In (s : ChatScreen) : Prop where
  client : s.client = client
  sound : Sound uid c s

/-- A callback leaves the app and the world alone. -/
lemma In.step (h : In uid c client s) {a : ChatScreenAction} (ha : worldAction a = none)
    (hstep : s.step uid d c a = some s') : In uid c client s' := by
  refine ⟨Eq.trans ?_ h.client, h.sound.step hstep⟩
  cases a with
  | world a => cases ha
  | partnerAdded | keyAdded =>
      simp only [ChatScreen.step, Option.ite_none_right_eq_some] at hstep
      rw [← Option.some.inj hstep.2]
  | value k => exact h.sound.value_client hstep

/-- **The callbacks of a chat log run out**: each of them takes one from what is
pending, and while something is pending, one of them is enabled. -/
lemma drains (hruns : client.world.ChatRunsAs c uid) :
    Drains (step uid d c) (fun a => worldAction a = none) (In uid c client)
      fun s => s.feed.pending client.view uid 1 where
  keeps _ _ _ h ha hstep := h.step ha hstep
  drops := by
    rintro s a t ⟨rfl, h⟩ ha hstep
    cases a with
    | world a => cases ha
    | partnerAdded q =>
        simp only [step, Option.ite_none_right_eq_some] at hstep
        obtain ⟨⟨-, hq⟩, hstep⟩ := hstep
        rw [← Option.some.inj hstep]
        have hpending := Feed.pending_partnerAdded s.client.view uid 1 hq
        show (s.feed.partnerAdded s.client.view uid q).pending s.client.view uid 1 < _
        omega
    | keyAdded q k =>
        simp only [step, Option.ite_none_right_eq_some] at hstep
        obtain ⟨⟨-, hk⟩, hstep⟩ := hstep
        rw [← Option.some.inj hstep]
        have hpending := Feed.pending_keyAdded s.client.view uid 1 (Feed.hasKey_iff.mp hk)
        show (s.feed.keyAdded q k).pending s.client.view uid 1 < _
        omega
    | value k =>
        simp only [step, Option.bind_eq_some_iff, Option.ite_none_right_eq_some] at hstep
        obtain ⟨ch, -, ⟨-, hk⟩, hstep⟩ := hstep
        obtain ⟨q, i, b, -, -, -, hvalue⟩ := h.exists_message hk
        rw [hvalue] at hstep
        rw [← Option.some.inj hstep]
        have hpending := Feed.pending_value s.client.view uid 1 hk
        show (s.feed.value k).pending s.client.view uid 1 < _
        omega
  progress := by
    rintro s ⟨rfl, h⟩ hpending
    obtain ⟨ch, hch, hrunning, huid⟩ := hruns
    have hruns : s.world.ChatRuns c := ⟨ch, hch, hrunning⟩
    rcases Feed.exists_event hpending with ⟨q, hq⟩ | ⟨q, k, hk⟩ | ⟨k, hk⟩
    · exact ⟨.partnerAdded q, _, rfl, if_pos ⟨hruns, hq⟩⟩
    · exact ⟨.keyAdded q k, _, rfl, if_pos ⟨hruns, Feed.hasKey_iff.mpr hk⟩⟩
    · obtain ⟨q, i, b, -, -, -, hvalue⟩ := h.exists_message hk
      refine ⟨.value k, s.value ch k b.sent, rfl, ?_⟩
      have hrunsAs : s.world.ChatRunsAs c uid := ⟨ch, hch, hrunning, huid⟩
      rw [step, Option.mem_def.mp hch, Option.bind_some, if_pos ⟨hrunsAs, hk⟩, hvalue]

/-- Callbacks leave a chat log undisturbed. -/
lemma undisturbed_callbacks {p : String} (hbs : ∀ a ∈ bs, worldAction a = none) :
    Meets (step uid d c) (Undisturbed uid d c p) s bs := by
  refine meets_iff.mpr fun bs₁ a bs₂ t hsplit _ => ?_
  have ha := hbs a (by rw [hsplit]; simp)
  cases a with
  | world a => cases ha
  | partnerAdded | keyAdded | value => trivial

/-- **A chat log catches up.** When the rest of the system does nothing, a chat log that
was opened once, over a conversation that its app did not see deleted after that, with
the writes of the app answered in order and none to the index rejected, runs no more
callbacks than were pending, in whatever order; and it can run one more, or it shows
the accepted texts and images that the app sees in its conversation, each once, as they
were sent. Some order of callbacks brings it there. Once no write of the app is on its
way, what it sees is the database. -/
theorem chat_catches_up {ch : ChatLogmessage} (h : run (step uid d c) init as = some s)
    (hch : s.world.chats c = some ch) (huser : ch.user ≠ none)
    (hC : Meets (step uid d c) (Undisturbed uid d c ch.partnerId) init as)
    (hruns : s.world.ChatRunsAs c uid) :
    ∃ blocks : List RecordBlock, blocks.Nodup ∧
      (∀ b, b ∈ blocks ↔ (∃ i, s.world.Accepted i b) ∧
        s.client.view.Present ["user-mess", uid, ch.partnerId, b.key]) ∧
      (s.client.writes = [] → s.client.view = s.world.db) ∧
      (∀ bs t, (∀ a ∈ bs, worldAction a = none) → run (step uid d c) s bs = some t →
        bs.length ≤ s.feed.pending s.client.view uid 1 ∧
        ((∃ a u, worldAction a = none ∧ t.step uid d c a = some u) ∨
          t.arrayMessage.Perm (blocks.map RecordBlock.sent))) ∧
      ∃ bs t, (∀ a ∈ bs, worldAction a = none) ∧ run (step uid d c) s bs = some t ∧
        t.arrayMessage.Perm (blocks.map RecordBlock.sent) := by
  have hdrains := drains (d := d) hruns
  have hs : In uid c s.client s := ⟨rfl, run_sound h⟩
  -- what a chat log with nothing pending shows is determined by the app
  have shows : ∀ {bs t}, (∀ a ∈ bs, worldAction a = none) → run (step uid d c) s bs = some t →
      In uid c s.client t → t.feed.pending s.client.view uid 1 = 0 →
      ∃ blocks : List RecordBlock, blocks.Nodup ∧
        (∀ b, b ∈ blocks ↔ (∃ i, s.world.Accepted i b) ∧
          s.client.view.Present ["user-mess", uid, ch.partnerId, b.key]) ∧
        t.arrayMessage.Perm (blocks.map RecordBlock.sent) := by
    intro bs t hbs ht hin hzero
    have hrun : run (step uid d c) init (as ++ bs) = some t :=
      run_append_eq_some.mpr ⟨s, h, ht⟩
    have hch' : t.world.chats c = some ch := by
      rw [world, hin.client]
      exact hch
    have hperm := arrayMessage_perm hrun (World.partnerId_eq hch' rfl)
      ((meets_append bs h).mpr ⟨hC, undisturbed_callbacks hbs⟩)
      (World.chatUser_ne_none hch' huser) (Feed.quiet_of_pending one_pos hzero)
    rwa [world, hin.client] at hperm
  obtain ⟨bs₀, t₀, hbs₀, ht₀, hI₀, hzero₀⟩ := hdrains.exists_run hs
  obtain ⟨blocks, hnodup, hblocks, hperm⟩ := shows hbs₀ ht₀ hI₀ hzero₀
  refine ⟨blocks, hnodup, hblocks, Client.view_of_writes_eq_nil, fun bs t hbs ht => ?_, bs₀, t₀,
    hbs₀, ht₀, hperm⟩
  obtain ⟨hI, hlen, hgo⟩ := hdrains.run_stops hs hbs ht
  refine ⟨hlen, hgo.imp_right fun hzero => ?_⟩
  obtain ⟨blocks', hnodup', hblocks', hperm'⟩ := shows hbs ht hI hzero
  have hsame : blocks'.Perm blocks := (List.perm_ext_iff_of_nodup hnodup' hnodup).mpr fun b => by
    rw [hblocks, hblocks']
  exact hperm'.trans (hsame.map _)

/-- The chat log of `a`, with the event of its partner on its way. -/
theorem chat_catches_up_firstTextRead : ∃ s, ∃ blocks : List RecordBlock,
    run (step "a" 0 0) init firstTextRead = some s ∧
      s.feed.pending s.client.view "a" 1 = 3 ∧
        ∃ bs t, (∀ a ∈ bs, worldAction a = none) ∧ run (step "a" 0 0) s bs = some t ∧
          t.arrayMessage.Perm (blocks.map RecordBlock.sent) := by
  have hrun : ((run (step "a" 0 0) init firstTextRead).map fun s =>
      decide ((s.world.chats 0).map (fun ch => (ch.partnerId, ch.user.isSome)) = some ("b", true) ∧
        s.world.ChatRunsAs 0 "a" ∧ s.feed.pending s.client.view "a" 1 = 3)) = some true := by
    decide +kernel
  obtain ⟨s, hs, h⟩ := Option.map_eq_some_iff.mp hrun
  obtain ⟨hchat, hruns, hpending⟩ := of_decide_eq_true h
  obtain ⟨ch, hch, heq⟩ := Option.map_eq_some_iff.mp hchat
  obtain ⟨hp, huser⟩ := Prod.mk.inj heq
  have hC : Meets (step "a" 0 0) (Undisturbed "a" 0 0 ch.partnerId) init firstTextRead := by
    rw [hp]
    decide +kernel
  obtain ⟨blocks, -, -, -, -, hcatch⟩ :=
    chat_catches_up hs hch (Option.ne_none_iff_isSome.mpr huser) hC hruns
  exact ⟨s, blocks, hs, hpending, hcatch⟩

end ChatScreen

/-! ### The inbox -/

/-- The callbacks of the listeners, and the timer. -/
def LiveInboxAction.isCallback : LiveInboxAction → Bool
  | .profileValue => true
  | .partnerAdded _ => true
  | .keyAdded _ _ => true
  | .getMessage2 _ _ => true
  | .handleCallData => true
  | _ => false

namespace LiveInbox

variable {uid : String} {d : DeviceId} {p : String} {s s' : LiveInbox} {client : Client}
  {as bs : List LiveInboxAction}

variable (uid) in
/-- The callbacks that are pending. An event of the user's own record brings one of
every partner; that of a message counts for two, as it sets the timer. -/
def pending (s : LiveInbox) : ℕ :=
  s.profileEvents * (1 + (Feed.init.observe s.client.view uid).pending s.client.view uid 2) +
    s.feed.pending s.client.view uid 2 + if s.box.timer then 1 else 0

variable (uid p) in
/-- A row of the partner `p` is on the screen. -/
def ShowsRow (s : LiveInbox) : Prop :=
  ∃ row < s.box.rows, ∃ m, s.box.arrayMess[row]? = some m ∧ m.getChatPartnerId (some uid) = p

/-- A loaded inbox listens to the index, or is about to. -/
lemma listens_step (h : s.loaded = true → 0 < s.feed.outer + s.profileEvents)
    {a : LiveInboxAction} (hstep : s.step uid d a = some s') :
    s'.loaded = true → 0 < s'.feed.outer + s'.profileEvents := by
  have hworld : ∀ client, (s.worldChanged uid client).loaded = true →
      0 < (s.worldChanged uid client).feed.outer + (s.worldChanged uid client).profileEvents :=
    fun _ hl => (h hl).trans_le (Nat.add_le_add_left (Nat.le_add_right _ _) _)
  cases a with
  | world a =>
      simp only [step, Option.map_eq_some_iff] at hstep
      obtain ⟨client, -, rfl⟩ := hstep
      exact hworld client
  | checkuserInputtitle =>
      simp only [step, Option.ite_none_right_eq_some] at hstep
      rw [← Option.some.inj hstep.2]
      exact fun _ => Nat.succ_pos _
  | profileValue =>
      simp only [step, Option.ite_none_right_eq_some] at hstep
      rw [← Option.some.inj hstep.2]
      exact fun _ => Nat.add_pos_left (Nat.succ_pos _) _
  | partnerAdded | keyAdded | handleCallData | removeValueFailed =>
      simp only [step, Option.ite_none_right_eq_some] at hstep
      rw [← Option.some.inj hstep.2]
      exact h
  | getMessage2 k arr =>
      simp only [step, Option.ite_none_right_eq_some] at hstep
      obtain ⟨-, hstep⟩ := hstep
      split at hstep
      · rw [← Option.some.inj (Option.ite_none_right_eq_some.mp hstep).2]
        exact h
      · rw [← Option.some.inj hstep]
        exact h
  | didSelectRowAt c row =>
      simp only [step, Option.ite_none_right_eq_some, Option.map_eq_some_iff] at hstep
      obtain ⟨-, client, -, rfl⟩ := hstep
      exact hworld client
  | commitEditingStyle x row =>
      simp only [step, Option.ite_none_right_eq_some, Option.map_eq_some_iff] at hstep
      obtain ⟨-, client, -, rfl⟩ := hstep
      exact hworld client
  | removeValueDone x =>
      simp only [step, Option.bind_eq_some_iff, Option.ite_none_right_eq_some] at hstep
      obtain ⟨del, -, -, hstep⟩ := hstep
      split at hstep <;> rw [← Option.some.inj hstep] <;> exact h

/-- A dictionary has a sorted array of its values. -/
lemma exists_sortedValues (t : Table String Mess) : ∃ arr, Inbox.SortedValues t arr := by
  refine ⟨(values t).mergeSort fun m m' => decide (m'.timestapm ≤ m.timestapm),
    List.mergeSort_perm _ _, ?_⟩
  refine (List.pairwise_mergeSort ?_ ?_ _).imp fun {m m'} h => of_decide_eq_true h
  · intro m₁ m₂ m₃ h₁ h₂
    exact decide_eq_true ((of_decide_eq_true h₂).trans (of_decide_eq_true h₁))
  · intro m₁ m₂
    rw [Bool.or_eq_true, decide_eq_true_eq, decide_eq_true_eq]
    exact (le_total _ _)

variable (uid client) in
/-- A loaded inbox from which no row has been taken out, with the app and the world as
they are in `client`. -/
structure In (s : LiveInbox) : Prop where
  client : s.client = client
  sound : Sound uid s
  allRows : s.AllRows
  loaded : s.loaded = true
  listens : 0 < s.feed.outer + s.profileEvents

/-- A callback leaves the app and the world alone. -/
lemma In.step (h : In uid client s) {a : LiveInboxAction} (ha : a.isCallback = true)
    (hstep : s.step uid d a = some s') : In uid client s' := by
  have hlistens := listens_step (fun _ => h.listens) hstep
  have hin : (∀ x, a ≠ .removeValueDone x) → s'.client = s.client → s'.loaded = s.loaded →
      In uid client s' := by
    intro hnot hclient hl
    rw [h.loaded] at hl
    exact ⟨hclient.trans h.client, h.sound.step hstep, h.allRows.step h.sound hnot hstep, hl,
      hlistens hl⟩
  cases a with
  | profileValue | partnerAdded | keyAdded | handleCallData =>
      simp only [LiveInbox.step, Option.ite_none_right_eq_some] at hstep
      refine hin (by simp) ?_ ?_ <;> rw [← Option.some.inj hstep.2]
  | getMessage2 k arr =>
      simp only [LiveInbox.step, Option.ite_none_right_eq_some] at hstep
      obtain ⟨⟨-, hk⟩, hstep⟩ := hstep
      obtain ⟨q, b, -, -, hvalue⟩ := h.sound.exists_message hk
      rw [hvalue] at hstep
      refine hin (by simp) ?_ ?_ <;>
        rw [← Option.some.inj (Option.ite_none_right_eq_some.mp hstep).2]
  | _ => cases ha

/-- **The callbacks of an inbox run out**: each of them takes something from what is
pending, and while something is pending, one of them is enabled. -/
lemma drains (hruns : client.world.RunsAs d uid) :
    Drains (step uid d) (fun a => a.isCallback = true) (In uid client) (pending uid) where
  keeps _ _ _ h ha hstep := h.step ha hstep
  drops := by
    intro s a t h ha hstep
    cases a with
    | profileValue =>
        simp only [step, Option.ite_none_right_eq_some] at hstep
        obtain ⟨⟨-, hpos⟩, hstep⟩ := hstep
        rw [← Option.some.inj hstep]
        obtain ⟨n, hn⟩ := Nat.exists_eq_add_of_lt hpos
        rw [Nat.zero_add] at hn
        have htimer : s.box.setupnavigationitem.timer = s.box.timer := rfl
        simp only [pending, hn, Nat.add_sub_cancel, Nat.succ_mul, htimer,
          Feed.pending_observe s.feed]
        omega
    | partnerAdded q =>
        simp only [step, Option.ite_none_right_eq_some] at hstep
        obtain ⟨⟨-, hq⟩, hstep⟩ := hstep
        rw [← Option.some.inj hstep]
        have hpending := Feed.pending_partnerAdded s.client.view uid 2 hq
        simp only [pending]
        omega
    | keyAdded q k =>
        simp only [step, Option.ite_none_right_eq_some] at hstep
        obtain ⟨⟨-, hk⟩, hstep⟩ := hstep
        rw [← Option.some.inj hstep]
        have hpending := Feed.pending_keyAdded s.client.view uid 2 (Feed.hasKey_iff.mp hk)
        simp only [pending]
        omega
    | getMessage2 k arr =>
        simp only [step, Option.ite_none_right_eq_some] at hstep
        obtain ⟨⟨-, hk⟩, hstep⟩ := hstep
        obtain ⟨q, b, -, -, hvalue⟩ := h.sound.exists_message hk
        rw [hvalue] at hstep
        rw [← Option.some.inj (Option.ite_none_right_eq_some.mp hstep).2]
        have hpending := Feed.pending_value s.client.view uid 2 hk
        simp only [pending, Inbox.getMessage2, if_true]
        omega
    | handleCallData =>
        simp only [step, Option.ite_none_right_eq_some] at hstep
        obtain ⟨⟨-, htimer⟩, hstep⟩ := hstep
        rw [← Option.some.inj hstep]
        simp [pending, Inbox.handleCallData, htimer]
    | _ => cases ha
  progress := by
    intro s h hpending
    rw [← h.client] at hruns
    by_cases hprofile : s.profileEvents = 0
    · by_cases hfeed : s.feed.pending s.client.view uid 2 = 0
      · have htimer : s.box.timer = true := by
          by_contra htimer
          simp [pending, hprofile, hfeed, htimer] at hpending
        exact ⟨.handleCallData, _, rfl, if_pos ⟨hruns.1, htimer⟩⟩
      · rcases Feed.exists_event hfeed with ⟨q, hq⟩ | ⟨q, k, hk⟩ | ⟨k, hk⟩
        · exact ⟨.partnerAdded q, _, rfl, if_pos ⟨hruns.1, hq⟩⟩
        · exact ⟨.keyAdded q k, _, rfl, if_pos ⟨hruns.1, Feed.hasKey_iff.mpr hk⟩⟩
        · obtain ⟨q, b, -, -, hvalue⟩ := h.sound.exists_message hk
          obtain ⟨arr, harr⟩ :=
            exists_sortedValues (Inbox.fileMessage uid s.box.messageDictionary b.inboxMess)
          refine ⟨.getMessage2 k arr, { s with
            feed := s.feed.value k, box := s.box.getMessage2 uid b.inboxMess arr }, rfl, ?_⟩
          rw [step, if_pos ⟨hruns, hk⟩, hvalue]
          exact if_pos harr
    · exact ⟨.profileValue, _, rfl, if_pos ⟨hruns, Nat.pos_of_ne_zero hprofile⟩⟩

/-- A loaded inbox with nothing pending listens, and no event is on its way. -/
lemma In.quiet (h : In uid client s) (hzero : s.pending uid = 0) :
    0 < s.feed.outer ∧ s.feed.Quiet ∧ s.box.timer = false := by
  rw [pending, Nat.add_eq_zero_iff, Nat.add_eq_zero_iff, Nat.mul_eq_zero] at hzero
  obtain ⟨⟨hprofile, hfeed⟩, htimer⟩ := hzero
  have hprofile : s.profileEvents = 0 := hprofile.resolve_right (by omega)
  have hlistens := h.listens
  refine ⟨by omega, Feed.quiet_of_pending two_pos hfeed, ?_⟩
  by_contra htrue
  simp [htrue] at htimer

/-- Once the timer has fired, the rows of the array are on the screen. -/
lemma Sound.showsRow_iff (h : Sound uid s) (htimer : s.box.timer = false) :
    s.ShowsRow uid p ↔ ∃ m ∈ s.box.arrayMess, m.getChatPartnerId (some uid) = p := by
  rw [ShowsRow, h.shown htimer]
  constructor
  · rintro ⟨row, -, m, hm, hp⟩
    exact ⟨m, List.mem_of_getElem? hm, hp⟩
  · rintro ⟨m, hm, hp⟩
    obtain ⟨row, hrow⟩ := List.getElem?_of_mem hm
    exact ⟨row, (List.getElem?_eq_some_iff.mp hrow).1, m, hrow, hp⟩

lemma in_of_run (h : run (step uid d) init as = some s) (hall : s.AllRows)
    (hloaded : s.loaded = true) : In uid s.client s := by
  have hlistens := run_invariant (I := fun s : LiveInbox => s.loaded = true →
    0 < s.feed.outer + s.profileEvents) (fun _ _ _ hs hstep => listens_step hs hstep)
      (fun hl => by cases hl) h
  exact ⟨rfl, run_sound h, hall, hloaded, hlistens hloaded⟩

/-- Callbacks delete nothing. -/
lemma undeleted_callbacks (hbs : ∀ a ∈ bs, LiveInboxAction.isCallback a = true) :
    Meets (step uid d) (Undeleted uid d p) s bs := by
  refine meets_iff.mpr fun bs₁ a bs₂ t hsplit _ => ?_
  have ha := hbs a (by rw [hsplit]; simp)
  cases a with
  | profileValue | partnerAdded | keyAdded | getMessage2 | handleCallData =>
      simp [Undeleted, worldAction]
  | _ => cases ha

/-- **The inbox catches up.** When the rest of the system does nothing, a loaded inbox,
whose app did not see the conversation with `p` deleted, had none of its own entries in
it rejected, and from which no row was taken out, runs no more callbacks than were
pending, in whatever order; and it can run one more, or it has a row of `p` on the
screen exactly when the app sees an entry of the conversation in the index. Some order
of callbacks brings it there. Once no write of the app is on its way, what it sees is
the database. -/
theorem inbox_catches_up (h : run (step uid d) init as = some s)
    (hC : Meets (step uid d) (Undeleted uid d p) init as) (hloaded : s.loaded = true)
    (hruns : s.world.RunsAs d uid) :
    (s.client.writes = [] → s.client.view = s.world.db) ∧
    (∀ bs t, (∀ a ∈ bs, LiveInboxAction.isCallback a = true) → run (step uid d) s bs = some t →
      bs.length ≤ s.pending uid ∧
      ((∃ a u, LiveInboxAction.isCallback a = true ∧ t.step uid d a = some u) ∨
        (t.ShowsRow uid p ↔ ∃ k, s.client.view.Present ["user-mess", uid, p, k]))) ∧
    ∃ bs t, (∀ a ∈ bs, LiveInboxAction.isCallback a = true) ∧ run (step uid d) s bs = some t ∧
      (t.ShowsRow uid p ↔ ∃ k, s.client.view.Present ["user-mess", uid, p, k]) := by
  have hs := in_of_run h (kept_and_allRows h hC).2 hloaded
  have hdrains := drains hruns
  -- an inbox with nothing pending has its rows on the screen
  have shows : ∀ {bs t}, (∀ a ∈ bs, LiveInboxAction.isCallback a = true) →
      run (step uid d) s bs = some t → In uid s.client t → t.pending uid = 0 →
      (t.ShowsRow uid p ↔ ∃ k, s.client.view.Present ["user-mess", uid, p, k]) := by
    intro bs t hbs ht hin hzero
    obtain ⟨hkept, -⟩ := kept_and_allRows (run_append_eq_some.mpr ⟨s, h, ht⟩)
      ((meets_append bs h).mpr ⟨hC, undeleted_callbacks hbs⟩)
    obtain ⟨houter, hquiet, htimer⟩ := hin.quiet hzero
    rw [hin.sound.showsRow_iff htimer, hkept.row_iff hin.allRows hin.sound houter hquiet,
      hin.client]
  refine ⟨Client.view_of_writes_eq_nil, fun bs t hbs ht => ?_, ?_⟩
  · obtain ⟨hI, hlen, hgo⟩ := hdrains.run_stops hs hbs ht
    exact ⟨hlen, hgo.imp_right (shows hbs ht hI)⟩
  · obtain ⟨bs, t, hbs, ht, hI, hzero⟩ := hdrains.exists_run hs
    exact ⟨bs, t, hbs, ht, shows hbs ht hI hzero⟩

/-- The inbox of `b`, just loaded. -/
theorem inbox_catches_up_loaded : ∃ s,
    run (step "b" 1) init (World.firstText.map LiveInboxAction.world ++ [.checkuserInputtitle]) =
        some s ∧
      ∃ bs t, (∀ a ∈ bs, LiveInboxAction.isCallback a = true) ∧
        run (step "b" 1) s bs = some t ∧
          (t.ShowsRow "b" "a" ↔ ∃ k, s.client.view.Present ["user-mess", "b", "a", k]) := by
  have hrun : ((run (step "b" 1) init
      (World.firstText.map LiveInboxAction.world ++ [.checkuserInputtitle])).map fun s =>
        decide (s.loaded = true ∧ s.world.RunsAs 1 "b")) = some true := by
    decide +kernel
  obtain ⟨s, hs, h⟩ := Option.map_eq_some_iff.mp hrun
  obtain ⟨hloaded, hruns⟩ := of_decide_eq_true h
  have hC : Meets (step "b" 1) (Undeleted "b" 1 "a") init
      (World.firstText.map LiveInboxAction.world ++ [.checkuserInputtitle]) := by
    decide +kernel
  exact ⟨s, hs, (inbox_catches_up hs hC hloaded hruns).2.2⟩

end LiveInbox

end AppChat
