import AppChat.System.Client

/-!
A chat log in the whole system.

`ChatLog` is told what the index of its user is and what the message of a key is.
Here the screen is one of the chat logs of a `World`, in the app of the device `d`: its
user is set by the steps of the world, its listeners see the changes of the database,
those that the app itself makes as soon as it sends them, and nothing else, and each
record is decoded as it is when its event arrives.

* `ChatScreen`: the world with the writes of the app that are on their way, the
  listeners of the chat log `c`, and what it lists.
* `ChatScreen.step`: a step of the world, or a callback of the screen. The callbacks
  that ask for the signed-in user are those of `uid`; the runs are those in which
  nobody else is signed in by then.
-/

namespace AppChat

namespace World

/-- The step sets the user of the chat log `c`, which runs `user.didSet`. -/
def setsUser (w : World) (c : ChatId) : Action → Bool
  | .screen (.newmessageSelect c' _ id) =>
      decide (c' = c) && (newmessageUser (snapshot w.db ["user", id]) id).toBool
  | .screen (.userValue c') =>
      decide (c' = c) && (w.chats c).any fun ch =>
        (didSelectRowAtUser (snapshot w.db ["user", ch.partnerId]) ch.partnerId).toBool
  | _ => false

/-- The app of the chat log `c` runs. -/
def ChatRuns (w : World) (c : ChatId) : Prop :=
  ∃ ch ∈ w.chats c, (w.devices ch.device).running = true

/-- The app of the chat log `c` runs, and `uid` is signed in there. -/
def ChatRunsAs (w : World) (c : ChatId) (uid : String) : Prop :=
  ∃ ch ∈ w.chats c, (w.devices ch.device).running = true ∧ w.currentUid ch.device = some uid

instance (w : World) (c : ChatId) : Decidable (w.ChatRuns c) :=
  inferInstanceAs (Decidable (∃ ch ∈ w.chats c, (w.devices ch.device).running = true))

instance (w : World) (c : ChatId) (uid : String) : Decidable (w.ChatRunsAs c uid) :=
  inferInstanceAs (Decidable (∃ ch ∈ w.chats c,
    (w.devices ch.device).running = true ∧ w.currentUid ch.device = some uid))

end World

/-- The world and the writes of the app, with the listeners of one chat log, those on the
records among them (`values`), and the messages it lists. -/
structure ChatScreen where
  client : Client
  feed : Feed
  values : List String
  arrayMessage : List Mess

inductive ChatScreenAction where
  | world (a : Action)
  | partnerAdded (q : String)
  | keyAdded (q k : String)
  | value (k : String)
  deriving DecidableEq, Repr

namespace ChatScreen

/-- The world that the app of the screen is a part of. -/
abbrev world (s : ChatScreen) : World := s.client.world

def init : ChatScreen := ⟨.init, .init, [], []⟩

/-- The world goes on, and the app with it, as `client`. The listeners on the index
report the new children that the app sees, and those on a record report it again when
it has changed. -/
def worldChanged (s : ChatScreen) (uid : String) (client : Client) : ChatScreen :=
  let feed := s.feed.databaseChanged s.client.view client.view uid
  let changed := s.values.filter fun k => NodeChanged s.client.view client.view ["mess", k]
  { s with client := client, feed := { feed with valueEvents := feed.valueEvents ++ changed } }

/-- The innermost callback of `get_message_user_partner`, for the chat log `ch`. -/
def value (s : ChatScreen) (ch : ChatLogmessage) (k : String) (data : Mess) : ChatScreen :=
  { s with
    feed := s.feed.value k
    arrayMessage :=
      if some (data.getChatPartnerId (s.world.currentUid ch.device)) = ch.user.map User.id then
        s.arrayMessage ++ [data]
      else s.arrayMessage }

variable (uid : String) (d : DeviceId) (c : ChatId)

/-- The next state of the chat log `c` of the user `uid`, which is opened in the app of
the device `d`. -/
def step (s : ChatScreen) : ChatScreenAction → Option ChatScreen
  | .world a =>
      (s.client.step d a).bind fun client =>
        let t := s.worldChanged uid client
        if s.world.setsUser c a then
          if client.world.ChatRunsAs c uid ∧
              (client.world.chats c).map ChatLogmessage.device = some d then
            some { t with feed := t.feed.observe client.view uid }
          else none
        else some t
  | .partnerAdded q =>
      if s.world.ChatRuns c ∧ q ∈ s.feed.partnerEvents then
        some { s with feed := s.feed.partnerAdded s.client.view uid q }
      else none
  | .keyAdded q k =>
      if s.world.ChatRuns c ∧ s.feed.hasKey q k then
        some { s with feed := s.feed.keyAdded q k, values := k :: s.values }
      else none
  | .value k =>
      (s.world.chats c).bind fun ch =>
        if s.world.ChatRunsAs c uid ∧ k ∈ s.feed.valueEvents then
          match getMessageUserPartnerValue (snapshot s.client.view ["mess", k]) with
          | .ok data => some (s.value ch k data)
          | .error _ => some { s with client := s.client.crash ch.device }
        else none

end ChatScreen

/-! ### The chat logs of the world -/

namespace World

variable {w w' : World} {c : ChatId}

/-- The user of a chat log, by id. -/
def chatUser (w : World) (c : ChatId) : Option String :=
  (w.chats c).bind fun ch => ch.user.map User.id

/-- A chat log whose user is loaded. -/
lemma chatUser_ne_none {ch : ChatLogmessage} (hch : w.chats c = some ch) (huser : ch.user ≠ none) :
    w.chatUser c ≠ none := by
  rw [chatUser, hch, Option.bind_some]
  simpa using huser

/-- A chat log has one partner. -/
lemma partnerId_eq {ch : ChatLogmessage} {p : String} (hch : w.chats c = some ch)
    (hp : ch.partnerId = p) : ∀ ch', w.chats c = some ch' → ch'.partnerId = p := by
  intro ch' hch'
  rw [← Option.some.inj (hch.symm.trans hch'), hp]

/-- A chat log without a user opens. -/
lemma chatUser_setChat_of_none {e : ChatId} {ch : ChatLogmessage} (he : w.chats e = none)
    (hu : ch.user = none) : (w.setChat e ch).chatUser c = w.chatUser c := by
  by_cases hce : c = e
  · subst hce
    simp [chatUser, he, hu]
  · simp [chatUser, hce]

/-- A chat log stays with its user, or another one changes. -/
lemma chatUser_setChat {e : ChatId} {ch ch' : ChatLogmessage} (he : w.chats e = some ch)
    (hu : e = c → ch'.user = ch.user) : (w.setChat e ch').chatUser c = w.chatUser c := by
  by_cases hce : c = e
  · subst hce
    simp [chatUser, he, hu rfl]
  · simp [chatUser, hce]

/-- A step that does not set the user of a chat log leaves it as it is. -/
lemma chatUser_screenStep {a : ScreenAction} (h : w.screenStep a = some w')
    (hset : w.setsUser c (.screen a) = false) : w'.chatUser c = w.chatUser c := by
  cases a with
  | newmessageSelect c' d id =>
      simp only [screenStep, Option.ite_none_right_eq_some] at h
      obtain ⟨⟨-, hc', -⟩, h⟩ := h
      split at h <;> rw [← Option.some.inj h]
      · rename_i user hu
        have hne : c ≠ c' := by
          rintro rfl
          simp [setsUser, hu, Except.toBool] at hset
        simp [chatUser, hne]
      · rfl
  | inboxSelect c' d arrayMess row =>
      simp only [screenStep, Option.ite_none_right_eq_some] at h
      obtain ⟨⟨-, hc'⟩, h⟩ := h
      split at h <;> rw [← Option.some.inj h]
      · exact chatUser_setChat_of_none hc' rfl
      · rfl
  | userValue c' =>
      simp only [screenStep, Option.bind_eq_some_iff, Option.ite_none_right_eq_some] at h
      obtain ⟨ch, hch, -, h⟩ := h
      split at h <;> rw [← Option.some.inj h]
      · rename_i user hu
        refine chatUser_setChat hch fun hcc => ?_
        subst hcc
        simp [setsUser, hch, hu, Except.toBool] at hset
      · rfl
  | editText c' text =>
      simp only [screenStep, Option.bind_eq_some_iff, Option.ite_none_right_eq_some] at h
      obtain ⟨ch, hch, -, h⟩ := h
      rw [← Option.some.inj h]
      exact chatUser_setChat hch fun _ => rfl

lemma Frame.chatUser (h : Frame w w') (c : ChatId) : w'.chatUser c = w.chatUser c := by
  have hmap := congrArg (fun o => o.bind fun ch => ch.user.map User.id) (h.chats c)
  simpa [World.chatUser, Option.bind_map, Function.comp_def, ChatLogmessage.eraseText] using hmap

lemma chatUser_step {a : Action} (h : w.step a = some w') (hset : w.setsUser c a = false) :
    w'.chatUser c = w.chatUser c := by
  cases a with
  | auth a =>
      obtain ⟨devices, rfl⟩ := authStep_cases h
      rfl
  | register a => rw [chatUser, (registerStep_leaves h).1, chatUser]
  | screen a => exact chatUser_screenStep h hset
  | send a => exact (sendStep_frame h).chatUser c
  | delete a => exact (deleteStep_frame h).chatUser c

/-- A step that sets the user of a chat log is one of its screen. -/
lemma eq_screen_of_setsUser {a : Action} (hset : w.setsUser c a = true) :
    ∃ a', a = .screen a' := by
  cases a with
  | screen a => exact ⟨a, rfl⟩
  | _ => simp [setsUser] at hset

/-- The user that is set is the partner of the chat log. -/
lemma chatUser_of_setsUser (hw : Consistent w) {a : Action} (h : w.step a = some w')
    (hset : w.setsUser c a = true) :
    ∃ ch, w'.chats c = some ch ∧ w'.chatUser c = some ch.partnerId := by
  have hw' := hw.step h
  -- the chat log has a user now, whose id is that of the partner
  suffices huser : ∃ ch u, w'.chats c = some ch ∧ ch.user = some u by
    obtain ⟨ch, u, hch, hu⟩ := huser
    refine ⟨ch, hch, ?_⟩
    rw [chatUser, hch, Option.bind_some, hu, Option.map_some, (hw'.ids.partner c ch u hch hu).1]
  cases a with
  | screen a =>
      cases a with
      | newmessageSelect c' d id =>
          simp only [setsUser, Bool.and_eq_true, decide_eq_true_eq] at hset
          obtain ⟨rfl, hok⟩ := hset
          simp only [step, screenStep, Option.ite_none_right_eq_some] at h
          obtain ⟨-, h⟩ := h
          split at h <;> rw [← Option.some.inj h]
          · rename_i user _
            exact ⟨_, user, Function.update_self .., rfl⟩
          · rename_i hu
            simp [hu, Except.toBool] at hok
      | userValue c' =>
          simp only [setsUser, Bool.and_eq_true, decide_eq_true_eq] at hset
          obtain ⟨rfl, hok⟩ := hset
          simp only [step, screenStep, Option.bind_eq_some_iff, Option.ite_none_right_eq_some] at h
          obtain ⟨ch, hch, -, h⟩ := h
          rw [hch, Option.any_some] at hok
          split at h <;> rw [← Option.some.inj h]
          · rename_i user _
            exact ⟨_, user, Function.update_self .., rfl⟩
          · rename_i hu
            simp [hu, Except.toBool] at hok
      | _ => simp [setsUser] at hset
  | _ => simp [setsUser] at hset

end World

/-! ### What a chat log is told of -/

namespace ChatScreen

open Transition

variable {uid : String} {d : DeviceId} {c : ChatId} {s s' : ChatScreen}

variable (c s) in
/-- The message of the key is listed, if it is one of the chat log with `q`. -/
def Lists (q k : String) : Prop :=
  ∃ i b, s.world.Accepted i b ∧ b.key = k ∧
    (s.world.chatUser c = some q → b.sent ∈ s.arrayMessage)

variable (uid c) in
/-- What holds of a chat log in every run: what it is told of was sent; once its user is
set it listens, and then every message of the index is on its way to it, or listed. -/
structure Sound (s : ChatScreen) : Prop where
  ok : s.client.Ok
  backed : s.feed.Backed s.world uid
  values : ∀ k ∈ s.values, ∃ q, s.world.Between uid q k
  listens : s.world.chatUser c ≠ none → 0 < s.feed.outer
  covers : 0 < s.feed.outer → s.feed.Covers s.client.view uid (s.Lists c)

lemma sound_init : Sound uid c init where
  ok := Client.ok_init
  backed := .init _ _
  values := by
    intro k hk
    cases hk
  listens := fun h => absurd rfl h
  covers := fun h => absurd h (Nat.lt_irrefl 0)

namespace Sound

/-- The records that are listened to are not delivered again. -/
lemma values_filter (h : Sound uid c s) {a : Action} {client : Client}
    (hstep : s.client.step d a = some client) :
    (s.values.filter fun k => NodeChanged s.client.view client.view ["mess", k]) = [] := by
  refine List.filter_eq_nil_iff.mpr fun k hk => ?_
  obtain ⟨q, i, b, hb, -, rfl, -⟩ := h.values k hk
  simpa using h.ok.not_nodeChanged hstep hb

lemma worldChanged_feed (h : Sound uid c s) {a : Action} {client : Client}
    (hstep : s.client.step d a = some client) : (s.worldChanged uid client).feed =
      s.feed.databaseChanged s.client.view client.view uid := by
  rw [ChatScreen.worldChanged, h.values_filter hstep, List.append_nil]

/-- What is told of after a step of the world was sent. -/
lemma backed_step (h : Sound uid c s) {a : Action} {client : Client}
    (hstep : s.client.step d a = some client) :
    (s.worldChanged uid client).feed.Backed client.world uid := by
  rw [h.worldChanged_feed hstep]
  exact h.backed.databaseChanged (Client.world_step hstep) _ fun q k =>
    (h.ok.step hstep).between_of_present

/-- A step of the world that leaves the user of the chat log as it is. -/
lemma worldChanged (h : Sound uid c s) {a : Action} {client : Client}
    (hstep : s.client.step d a = some client)
    (huser : client.world.chatUser c = s.world.chatUser c) :
    Sound uid c (s.worldChanged uid client) where
  ok := h.ok.step hstep
  backed := h.backed_step hstep
  values k hk := by
    obtain ⟨q, hq⟩ := h.values k hk
    exact ⟨q, hq.step (Client.world_step hstep)⟩
  listens hne := h.listens (huser ▸ hne)
  covers houter := by
    have hcovers : (s.feed.databaseChanged s.client.view client.view uid).Covers client.view uid
        (s.Lists c) :=
      (h.covers houter).databaseChanged houter fun q k hk hq => h.ok.present_of_partner hstep hk hq
    rw [h.worldChanged_feed hstep]
    refine hcovers.mono fun q k => ?_
    rintro ⟨i, b, hb, hkey, hlisted⟩
    exact ⟨i, b, World.accepted_step (Client.world_step hstep) hb, hkey,
      fun hq => hlisted (huser ▸ hq)⟩

/-- A step of the world that sets the user of the chat log adds a listener. -/
lemma setUser (h : Sound uid c s) {a : Action} {client : Client}
    (hstep : s.client.step d a = some client) :
    Sound uid c { s.worldChanged uid client with
      feed := (s.worldChanged uid client).feed.observe client.view uid } where
  ok := h.ok.step hstep
  backed := (h.backed_step hstep).observe _
  values k hk := by
    obtain ⟨q, hq⟩ := h.values k hk
    exact ⟨q, hq.step (Client.world_step hstep)⟩
  listens _ := Nat.succ_pos _
  covers _ := .observe _ _ _ _

/-- The record of a key that is asked for is there, and is that of a message. -/
lemma exists_message (h : Sound uid c s) {k : String} (hk : k ∈ s.feed.valueEvents) :
    ∃ q i b, s.world.Accepted i b ∧ b.key = k ∧ s.world.SentBetween uid q b ∧
      getMessageUserPartnerValue (snapshot s.client.view ["mess", k]) = .ok b.sent := by
  obtain ⟨q, hq⟩ := h.backed.value k hk
  obtain ⟨b, hb, rfl⟩ := hq.exists_sentBetween
  obtain ⟨i, hi⟩ := hb.1
  exact ⟨q, i, b, hi, rfl, hb, h.ok.getMessageUserPartnerValue hi⟩

/-- **No record traps**: its callback leaves the world alone. -/
lemma value_client (h : Sound uid c s) {k : String}
    (hstep : s.step uid d c (.value k) = some s') : s'.client = s.client := by
  simp only [ChatScreen.step, Option.bind_eq_some_iff, Option.ite_none_right_eq_some] at hstep
  obtain ⟨ch, -, ⟨-, hk⟩, hstep⟩ := hstep
  obtain ⟨q, i, b, -, -, -, hvalue⟩ := h.exists_message hk
  rw [hvalue] at hstep
  rw [← Option.some.inj hstep]
  rfl

/-- A message is listed, or not. -/
lemma value (h : Sound uid c s) {ch : ChatLogmessage} (hch : s.world.chats c = some ch)
    (huid : s.world.currentUid ch.device = some uid) {q : String} {i : SendId} {b : RecordBlock}
    (hi : s.world.Accepted i b) (hb : s.world.SentBetween uid q b) :
    Sound uid c (s.value ch b.key b.sent) where
  ok := h.ok
  backed := h.backed.erase _
  values := h.values
  listens := h.listens
  covers houter := by
    refine (h.covers houter).value (fun q' hq' => ?_) fun q' k => ?_
    · obtain rfl := h.ok.consistent.between_unique (h.ok.between_of_present hq') hb.between
      refine ⟨i, b, hi, rfl, fun huser => ?_⟩
      have hpartner : some (b.sent.getChatPartnerId (s.world.currentUid ch.device)) =
          ch.user.map User.id := by
        rw [huid, show b.sent.getChatPartnerId (some uid) = q' from hb.getChatPartnerId]
        rw [← huser]
        show (s.world.chats c).bind _ = _
        rw [hch, Option.bind_some]
      show b.sent ∈ if _ then _ else _
      rw [if_pos hpartner]
      exact List.mem_append_right _ (List.mem_singleton_self _)
    · rintro ⟨j, b', hj, hkey, hlisted⟩
      refine ⟨j, b', hj, hkey, fun huser => ?_⟩
      show b'.sent ∈ if _ then _ else _
      split_ifs
      · exact List.mem_append_left _ (hlisted huser)
      · exact hlisted huser

/-- **Every step keeps this.** -/
lemma step (h : Sound uid c s) {a : ChatScreenAction} (hstep : s.step uid d c a = some s') :
    Sound uid c s' := by
  cases a with
  | world a =>
      simp only [ChatScreen.step, Option.bind_eq_some_iff] at hstep
      obtain ⟨client, hclient, hstep⟩ := hstep
      split_ifs at hstep with hset <;> rw [← Option.some.inj hstep]
      · exact h.setUser hclient
      · exact h.worldChanged hclient
          (World.chatUser_step (Client.world_step hclient) (by simpa using hset))
  | partnerAdded q =>
      simp only [ChatScreen.step, Option.ite_none_right_eq_some] at hstep
      rw [← Option.some.inj hstep.2]
      exact ⟨h.ok, h.backed.partnerAdded (fun _ _ => h.ok.between_of_present) q, h.values,
        h.listens, fun houter => (h.covers houter).partnerAdded q⟩
  | keyAdded q k =>
      simp only [ChatScreen.step, Option.ite_none_right_eq_some] at hstep
      obtain ⟨⟨-, hk⟩, hstep⟩ := hstep
      rw [Feed.hasKey_iff] at hk
      rw [← Option.some.inj hstep]
      refine ⟨h.ok, h.backed.keyAdded hk, fun k' hk' => ?_, h.listens,
        fun houter => (h.covers houter).keyAdded q k⟩
      rcases List.mem_cons.mp hk' with rfl | hk'
      · exact ⟨q, h.backed.key q k' hk⟩
      · exact h.values k' hk'
  | value k =>
      simp only [ChatScreen.step, Option.bind_eq_some_iff, Option.ite_none_right_eq_some] at hstep
      obtain ⟨ch, hch, ⟨⟨ch', hch', -, huid⟩, hk⟩, hstep⟩ := hstep
      obtain rfl : ch = ch' := Option.some.inj (hch.symm.trans hch')
      obtain ⟨q, i, b, hi, rfl, hb, hvalue⟩ := h.exists_message hk
      rw [hvalue] at hstep
      rw [← Option.some.inj hstep]
      exact h.value hch huid hi hb

end Sound

lemma run_sound {as : List ChatScreenAction} (h : run (step uid d c) init as = some s) :
    Sound uid c s :=
  run_invariant (fun _ _ _ hs hstep => hs.step hstep) sound_init h

end ChatScreen

end AppChat
