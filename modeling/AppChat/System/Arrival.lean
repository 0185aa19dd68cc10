import AppChat.System.CatchUp

/-!
A message arrives.

* `World.recordSteps`: the steps of a record on its way, up to the second index write;
  `World.textSteps` and `World.imageSteps` begin with the button and with the picker.
* `World.exists_textSteps`, `World.exists_imageSteps`: from every state they can be
  taken, for a chat log whose user is loaded.
* `ChatScreen.text_arrives`, `ChatScreen.image_arrives`: and the chat log of the
  recipient then lists the message.
* `LiveInbox.text_makes_row`: and the inbox of the recipient has a row of the sender.
-/

namespace AppChat

open Transition

namespace World

variable {w w' w'' : World} {e : ChatId} {ce : ChatLogmessage} {i : SendId} {key p u : String}
  {s : Send} {b : RecordBlock} {user : User}

/-- A record is accepted, and the two index writes after it. -/
def recordSteps (i : SendId) : List SendAction :=
  [.recordApplied i, .recordDone i, .indexApplied i .sender, .indexApplied i .recipient]

/-- The steps of a text that goes through. -/
def textSteps (i : SendId) (e : ChatId) (key : String) (now : ℤ) : List SendAction :=
  .sendText i e key now :: recordSteps i

/-- The steps of an image that goes through, and gets the link `url`. -/
def imageSteps (i : SendId) (e : ChatId) (random : ℕ) (image : Media) (url key : String)
    (now : ℤ) : List SendAction :=
  [.pickImage i e random image, .objectStored i, .putDataDone i true,
    .imageURLDone i (some url) key now] ++ recordSteps i

/-- The apps and their chat logs are the same, and a key that is fresh stays fresh. -/
structure SameApps (w w' : World) : Prop where
  devices : w'.devices = w.devices
  chats : w'.chats = w.chats
  keys : w'.keys = w.keys
  accounts : w'.accounts = w.accounts

lemma SameApps.trans (h : SameApps w w') (h' : SameApps w' w'') : SameApps w w'' :=
  ⟨h'.devices.trans h.devices, h'.chats.trans h.chats, h'.keys.trans h.keys,
    h'.accounts.trans h.accounts⟩

lemma SameApps.freshKey (h : SameApps w w') (hkey : w.FreshKey key) : w'.FreshKey key := by
  rw [FreshKey, uids, h.keys, h.accounts]
  exact hkey

lemma SameApps.currentUid (h : SameApps w w') (d : DeviceId) :
    w'.currentUid d = w.currentUid d := by
  rw [World.currentUid, World.currentUid, h.devices]

/-! ### A record on its way -/

/-- It can be accepted. -/
lemma exists_recordApplied (hs : w.sends i = some s) (hst : s.stage = .record b .pending) :
    ∃ w', w.step (.send (.recordApplied i)) = some w' ∧
      w'.sends i = some { s with stage := .record b .applied } ∧ SameApps w w' := by
  refine ⟨{ w with db := w.db.updateChildValues ["mess", b.key] b.data }.setSend i
    { s with stage := .record b .applied }, ?_, Function.update_self .., rfl, rfl, rfl, rfl⟩
  rw [step, sendStep, hs, Option.bind_some, hst]

/-- Then its completion block runs, in an app that runs. -/
lemma exists_recordDone (ce : ChatLogmessage) (hs : w.sends i = some s)
    (hst : s.stage = .record b .applied) (he : w.chats s.chat = some ce)
    (hrunning : (w.devices s.device).running = true)
    (hf : b.fromID = some p) (ht : b.toID = some u) :
    ∃ w', w.step (.send (.recordDone i)) = some w' ∧
      w'.sends i = some { s with stage := .index b p u fun _ => .pending } ∧
      w'.devices = w.devices ∧
      w'.chats = Function.update w.chats s.chat (some { ce with txtText := "" }) := by
  refine ⟨w.recordDone i s ce b, ?_, ?_, ?_, ?_⟩
  · rw [step, sendStep, hs, Option.bind_some, he, Option.bind_some, hst]
    exact if_pos hrunning
  · simp [recordDone, hf, ht]
  · simp [recordDone, hf, ht]
  · simp [recordDone, hf, ht]

/-- An index write on its way can be accepted. -/
lemma exists_indexApplied {st : Side → WriteState} (side : Side) (hs : w.sends i = some s)
    (hst : s.stage = .index b p u st) (hside : st side = .pending) :
    ∃ w', w.step (.send (.indexApplied i side)) = some w' ∧
      w'.sends i = some { s with stage := .index b p u (Function.update st side .applied) } ∧
      SameApps w w' := by
  refine ⟨{ w with db := indexWrite w.db b p u side }.setSend i
    { s with stage := .index b p u (Function.update st side .applied) }, ?_,
    Function.update_self .., rfl, rfl, rfl, rfl⟩
  rw [step, sendStep, hs, Option.bind_some, hst]
  exact if_pos hside

/-- **A record on its way can go through**: it is accepted, and it is entered with its
recipient. -/
lemma exists_recordSteps (ce : ChatLogmessage) (hw : Consistent w) (hs : w.sends i = some s)
    (hst : s.stage = .record b .pending) (hv : b.payload.isVideo = false)
    (he : w.chats s.chat = some ce) (hrunning : (w.devices s.device).running = true)
    (hf : b.fromID = some p) (ht : b.toID = some u) :
    ∃ w', run step w ((recordSteps i).map .send) = some w' ∧ w'.Accepted i b ∧
      w'.db.Present ["user-mess", u, p, b.key] ∧ w'.devices = w.devices ∧
      w'.chats = Function.update w.chats s.chat (some { ce with txtText := "" }) := by
  obtain ⟨w₁, h₁, hs₁, hsame₁⟩ := exists_recordApplied hs hst
  obtain ⟨w₂, h₂, hs₂, hdevices₂, hchats₂⟩ := exists_recordDone ce hs₁ rfl
    (by rw [hsame₁.chats]; exact he) (by rw [hsame₁.devices]; exact hrunning) hf ht
  obtain ⟨w₃, h₃, hs₃, hsame₃⟩ := exists_indexApplied .sender hs₂ rfl rfl
  obtain ⟨w₄, h₄, hs₄, hsame₄⟩ := exists_indexApplied .recipient hs₃ rfl rfl
  have hsame := hsame₃.trans hsame₄
  refine ⟨w₄, by simp [recordSteps, run, h₁, h₂, h₃, h₄],
    Or.inr ⟨p, u, _, progress_index hs₄ rfl⟩, ?_, by rw [hsame.devices, hdevices₂, hsame₁.devices],
    by rw [hsame.chats, hchats₂, hsame₁.chats]⟩
  have hw₃ : Consistent w₃ := ((hw.step h₁).step h₂).step h₃
  have hevent : w₃.indexEvent (.send (.indexApplied i .recipient)) =
      some (.posted b.key p u .recipient) := by
    simp [indexEvent, hs₃, hv]
  exact (present_step hw₃ h₄ u p b.key).mpr (Or.inl ⟨_, hevent, rfl⟩)

/-! ### A text and an image -/

/-- **A text can be sent**, whatever has happened before. -/
lemma exists_textSteps (hw : Consistent w) (he : w.chats e = some ce)
    (hrunning : (w.devices ce.device).running = true) (hp : w.currentUid ce.device = some p)
    (hu : ce.user = some user) (hi : w.sends i = none) (hkey : w.FreshKey key) (now : ℤ) :
    ∃ w', run step w ((textSteps i e key now).map .send) = some w' ∧
      w'.Accepted i ⟨.text ce.txtText, key, some p, some user.id, now⟩ ∧
      w'.db.Present ["user-mess", user.id, p, key] ∧ w'.devices = w.devices ∧
      w'.chats = Function.update w.chats e (some { ce with txtText := "" }) := by
  have hstep : w.step (.send (.sendText i e key now)) =
      some (w.sendDataToFirebase i e ce key now) := by
    rw [step, sendStep, he, Option.bind_some, if_pos ⟨hrunning, hi, hkey⟩]
  -- the button leaves a record on its way
  have hsent : w.sendDataToFirebase i e ce key now =
      { w with keys := key :: w.keys }.setSend i ⟨e, ce.device, some p, ce.partnerId,
        .record ⟨.text ce.txtText, key, some p, some user.id, now⟩ .pending⟩ := by
    rw [sendDataToFirebase, hu, hp]
  rw [hsent] at hstep
  obtain ⟨w', hrun, hrest⟩ := exists_recordSteps ce (hw.step hstep)
    (Function.update_self ..) rfl rfl he hrunning rfl rfl
  exact ⟨w', run_cons_eq_some.mpr ⟨_, hstep, hrun⟩, hrest⟩

/-- The picker can be used in an app that runs. -/
lemma exists_pickImage (he : w.chats e = some ce)
    (hrunning : (w.devices ce.device).running = true) (hi : w.sends i = none) {random : ℕ}
    (hrandom : random ≤ 10000) (image : Media) :
    ∃ w' path starter, w.step (.send (.pickImage i e random image)) = some w' ∧
      w'.sends i = some ⟨e, ce.device, starter, ce.partnerId,
        .putData path image false .imageSend⟩ ∧ SameApps w w' := by
  refine ⟨w.imagePickerController i e ce random image, _, _, ?_, Function.update_self .., rfl, rfl,
    rfl, rfl⟩
  rw [step, sendStep, he, Option.bind_some, if_pos ⟨hrunning, hi, hrandom⟩]

/-- The image can be stored. -/
lemma exists_objectStored {path : String} {image : Media} {completion : ImageCompletion}
    (hs : w.sends i = some s) (hst : s.stage = .putData path image false completion) :
    ∃ w', w.step (.send (.objectStored i)) = some w' ∧
      w'.sends i = some { s with stage := .putData path image true completion } ∧
      SameApps w w' := by
  refine ⟨(w.store path image).setSend i { s with stage := .putData path image true completion },
    ?_, Function.update_self .., rfl, rfl, rfl, rfl⟩
  rw [step, sendStep, hs, Option.bind_some, hst]

/-- Then the upload can be answered. -/
lemma exists_putDataDone {path : String} {image : Media} {completion : ImageCompletion}
    (hs : w.sends i = some s) (hst : s.stage = .putData path image true completion)
    (hrunning : (w.devices s.device).running = true) :
    ∃ w', w.step (.send (.putDataDone i true)) = some w' ∧
      w'.sends i = some { s with stage := .imageURL path completion } ∧ SameApps w w' := by
  refine ⟨w.setSend i { s with stage := .imageURL path completion }, ?_,
    Function.update_self .., rfl, rfl, rfl, rfl⟩
  rw [step, sendStep, hs, Option.bind_some, hst]
  exact if_pos ⟨hrunning, fun _ => rfl⟩

/-- **An image can be sent**, whatever has happened before. -/
lemma exists_imageSteps (hw : Consistent w) (he : w.chats e = some ce)
    (hrunning : (w.devices ce.device).running = true) (hp : w.currentUid ce.device = some p)
    (hu : ce.user = some user) (hi : w.sends i = none) (hkey : w.FreshKey key) {random : ℕ}
    (hrandom : random ≤ 10000) (image : Media) (url : String) (now : ℤ) :
    ∃ w', run step w ((imageSteps i e random image url key now).map .send) = some w' ∧
      w'.Accepted i ⟨.image url, key, some p, some user.id, now⟩ ∧
      w'.db.Present ["user-mess", user.id, p, key] ∧ w'.devices = w.devices ∧
      w'.chats = Function.update w.chats e (some { ce with txtText := "" }) := by
  obtain ⟨w₁, path, starter, h₁, hs₁, hsame₁⟩ := exists_pickImage he hrunning hi hrandom image
  obtain ⟨w₂, h₂, hs₂, hsame₂⟩ := exists_objectStored hs₁ rfl
  obtain ⟨w₃, h₃, hs₃, hsame₃⟩ := exists_putDataDone hs₂ rfl
    (by rw [hsame₂.devices, hsame₁.devices]; exact hrunning)
  have hsame := (hsame₁.trans hsame₂).trans hsame₃
  have he₃ : w₃.chats e = some ce := by rw [hsame.chats, he]
  have hrunning₃ : (w₃.devices ce.device).running = true := by rw [hsame.devices, hrunning]
  -- the link has come, and leaves a record on its way
  have h₄ : w₃.step (.send (.imageURLDone i (some url) key now)) =
      some ({ w₃ with keys := key :: w₃.keys }.setSend i ⟨e, ce.device, starter, ce.partnerId,
        .record ⟨.image url, key, some p, some user.id, now⟩ .pending⟩) := by
    simp only [step, sendStep, hs₃, Option.bind_some, he₃, imageCompletion, hu, hsame.currentUid,
      hp, Option.map_some]
    exact if_pos ⟨hrunning₃, hsame.freshKey hkey⟩
  obtain ⟨w', hrun, haccepted, hpresent, hdevices, hchats⟩ := exists_recordSteps ce
    ((((hw.step h₁).step h₂).step h₃).step h₄) (Function.update_self ..) rfl rfl he₃ hrunning₃ rfl
    rfl
  refine ⟨w', ?_, haccepted, hpresent, hdevices.trans hsame.devices, ?_⟩
  · simpa [imageSteps, run, h₁, h₂, h₃, h₄] using hrun
  · rw [hchats, ← hsame.chats]
    rfl

end World

namespace ChatScreen

variable {uid : String} {d : DeviceId} {c e : ChatId} {p : String} {s : ChatScreen} {w' : World}
  {as : List ChatScreenAction} {ch ce : ChatLogmessage} {i : SendId} {key : String}

/-- The steps of sends, in a run of a chat log. -/
def sending (as : List SendAction) : List ChatScreenAction := as.map fun a => .world (.send a)

/-- A chat log goes along with sends. -/
lemma exists_sending (hs : Sound uid c s)
    (hdrop : IndexEvent.dropped uid p ∉ writeEvents s.client.writes) {as : List SendAction}
    (hrun : run World.step s.world (as.map .send) = some w') :
    ∃ t, run (step uid d c) s (sending as) = some t ∧ t.world = w' ∧ Sound uid c t ∧
      IndexEvent.dropped uid p ∉ writeEvents t.client.writes := by
  have hsends : ∀ (w : World) (s : ChatScreen) a w', (s.world = w ∧ Sound uid c s ∧
      IndexEvent.dropped uid p ∉ writeEvents s.client.writes) → (∃ b, a = Action.send b) →
      w.step a = some w' → ∃ t, s.step uid d c (.world a) = some t ∧ t.world = w' ∧
        Sound uid c t ∧ IndexEvent.dropped uid p ∉ writeEvents t.client.writes := by
    rintro w s a w' ⟨rfl, hs, hdrop⟩ ⟨b, rfl⟩ hw'
    obtain ⟨client, hclient, rfl⟩ := Client.exists_step d hw'
    have hstep : s.step uid d c (.world (.send b)) = some (s.worldChanged uid client) := by
      rw [step, hclient, Option.bind_some]
      rfl
    exact ⟨_, hstep, rfl, hs.step hstep, fun he => (Client.mem_writeEvents_step hclient he).elim
      hdrop (Client.not_dropped_of_send _ d b uid p)⟩
  obtain ⟨t, ht, hin⟩ := exists_run_map hsends ⟨rfl, hs, hdrop⟩ (by simp) hrun
  rw [List.map_map] at ht
  exact ⟨t, ht, hin⟩

/-- With no event on its way, a chat log lists every message that the app sees in its
conversation. -/
lemma Sound.mem_arrayMessage (h : Sound uid c s) (hch : s.world.chats c = some ch)
    (huser : ch.user ≠ none) (hquiet : s.feed.Quiet) {b : RecordBlock}
    (hb : s.world.Accepted i b)
    (hk : s.client.view.Present ["user-mess", uid, ch.partnerId, b.key]) :
    b.sent ∈ s.arrayMessage := by
  obtain ⟨hpartner, hkey, hvalue⟩ := hquiet
  obtain ⟨user, hu⟩ := Option.ne_none_iff_exists'.mp huser
  have hchat : s.world.chatUser c = some ch.partnerId := by
    rw [World.chatUser, hch, Option.bind_some, hu, Option.map_some,
      (h.ok.consistent.ids.partner c ch user hch hu).1]
  have houter := h.listens (by simp [hchat])
  rcases (h.covers houter).entry _ _ hk with hq | hq | hq | ⟨j, b', hj, hkey', hlisted⟩
  · simp [hpartner] at hq
  · simp [hkey] at hq
  · simp [hvalue] at hq
  · obtain rfl := h.ok.consistent.blocks.key_inj j i b' b hj.block hb.block hkey'
    obtain rfl : b' = b := Option.some.inj (hj.block.symm.trans hb.block)
    exact hlisted hchat

/-- The chat log of the recipient after a send: the steps of the send leave it open, and
where its callbacks come to an end, it lists the message. -/
lemma arrives {sends : List SendAction} {b : RecordBlock}
    (h : run (step uid d c) init as = some s) (hch : s.world.chats c = some ch)
    (huser : ch.user ≠ none)
    (hdrop : IndexEvent.dropped uid ch.partnerId ∉ writeEvents s.client.writes)
    (hruns : s.world.ChatRunsAs c uid) (he : s.world.chats e = some ce)
    (hrun : run World.step s.world (sends.map .send) = some w') (haccepted : w'.Accepted i b)
    (hpresent : w'.db.Present ["user-mess", uid, ch.partnerId, b.key])
    (hdevices : w'.devices = s.world.devices)
    (hchats : w'.chats = Function.update s.world.chats e (some { ce with txtText := "" })) :
    ∃ t, run (step uid d c) s (sending sends) = some t ∧
      ∀ bs u, (∀ a ∈ bs, worldAction a = none) → run (step uid d c) t bs = some u →
        bs.length ≤ t.feed.pending t.client.view uid 1 ∧
        ((∃ a v, worldAction a = none ∧ u.step uid d c a = some v) ∨
          b.sent ∈ u.arrayMessage) := by
  obtain ⟨t, ht, rfl, hsound, hdrop'⟩ := exists_sending (d := d) (run_sound h) hdrop hrun
  -- it is the same chat log, but for the text in its own field
  obtain ⟨ch', hch', huser', hpartner, hdevice⟩ : ∃ ch', t.world.chats c = some ch' ∧
      ch'.user = ch.user ∧ ch'.partnerId = ch.partnerId ∧ ch'.device = ch.device := by
    rw [hchats]
    by_cases hce : c = e
    · subst hce
      obtain rfl : ch = ce := Option.some.inj (hch.symm.trans he)
      exact ⟨_, Function.update_self .., rfl, rfl, rfl⟩
    · exact ⟨ch, by rw [Function.update_of_ne hce, hch], rfl, rfl, rfl⟩
  have hruns' : t.world.ChatRunsAs c uid := by
    obtain ⟨ch₀, hch₀, hrunning₀, huid⟩ := hruns
    obtain rfl : ch = ch₀ := Option.some.inj (hch.symm.trans hch₀)
    refine ⟨ch', hch', ?_, ?_⟩
    · rw [hdevice, hdevices]
      exact hrunning₀
    · rw [World.currentUid, hdevice, hdevices]
      exact huid
  have hview : t.client.view.Present ["user-mess", uid, ch'.partnerId, b.key] := by
    rw [hpartner]
    exact hsound.ok.present_view hpresent hdrop'
  refine ⟨t, ht, fun bs u hbs hu => ?_⟩
  obtain ⟨⟨hclient, hsound'⟩, hlen, hgo⟩ := (drains hruns').run_stops ⟨rfl, hsound⟩ hbs hu
  refine ⟨hlen, hgo.imp_right fun hzero => ?_⟩
  rw [← hclient] at hview
  have hworld : u.world = t.world := congrArg Client.world hclient
  exact hsound'.mem_arrayMessage (hworld ▸ hch') (huser' ▸ huser)
    (Feed.quiet_of_pending one_pos hzero) (hworld ▸ haccepted) hview

/-- **A text arrives.** In every state of the system, whatever has failed or has been
lost before, if two users have a chat log open with each other, each in an app that
runs, and the recipient's app has no removal of the conversation on its way, then the
text in the field of the one can be sent; and after that, in whatever order the
callbacks of the other's chat log run, they come to an end, and where they end, it lists
the text. -/
theorem text_arrives (h : run (step uid d c) init as = some s)
    (hch : s.world.chats c = some ch) (huser : ch.user ≠ none)
    (hdrop : IndexEvent.dropped uid ch.partnerId ∉ writeEvents s.client.writes)
    (hruns : s.world.ChatRunsAs c uid) (he : s.world.chats e = some ce)
    (hto : ce.user.map User.id = some uid) (hfrom : s.world.ChatRunsAs e ch.partnerId)
    (hi : s.world.sends i = none) (hkey : s.world.FreshKey key) (now : ℤ) :
    ∃ t, run (step uid d c) s (sending (World.textSteps i e key now)) = some t ∧
      ∀ bs u, (∀ a ∈ bs, worldAction a = none) → run (step uid d c) t bs = some u →
        bs.length ≤ t.feed.pending t.client.view uid 1 ∧
        ((∃ a v, worldAction a = none ∧ u.step uid d c a = some v) ∨
          ⟨uid, ch.partnerId, now, ce.txtText, "", ""⟩ ∈ u.arrayMessage) := by
  obtain ⟨user, hu, rfl⟩ := Option.map_eq_some_iff.mp hto
  obtain ⟨ce', hce', hrunning, hp⟩ := hfrom
  obtain rfl : ce = ce' := Option.some.inj (he.symm.trans hce')
  obtain ⟨w', hrun, haccepted, hpresent, hdevices, hchats⟩ :=
    World.exists_textSteps (run_sound h).ok.consistent he hrunning hp hu hi hkey now
  exact arrives h hch huser hdrop hruns he hrun haccepted hpresent hdevices hchats

/-- **An image arrives**, like a text, once its upload has got a link. -/
theorem image_arrives (h : run (step uid d c) init as = some s)
    (hch : s.world.chats c = some ch) (huser : ch.user ≠ none)
    (hdrop : IndexEvent.dropped uid ch.partnerId ∉ writeEvents s.client.writes)
    (hruns : s.world.ChatRunsAs c uid) (he : s.world.chats e = some ce)
    (hto : ce.user.map User.id = some uid) (hfrom : s.world.ChatRunsAs e ch.partnerId)
    (hi : s.world.sends i = none) (hkey : s.world.FreshKey key) {random : ℕ}
    (hrandom : random ≤ 10000) (image : Media) (url : String) (now : ℤ) :
    ∃ t, run (step uid d c) s (sending (World.imageSteps i e random image url key now)) =
        some t ∧
      ∀ bs u, (∀ a ∈ bs, worldAction a = none) → run (step uid d c) t bs = some u →
        bs.length ≤ t.feed.pending t.client.view uid 1 ∧
        ((∃ a v, worldAction a = none ∧ u.step uid d c a = some v) ∨
          ⟨uid, ch.partnerId, now, "", url, ""⟩ ∈ u.arrayMessage) := by
  obtain ⟨user, hu, rfl⟩ := Option.map_eq_some_iff.mp hto
  obtain ⟨ce', hce', hrunning, hp⟩ := hfrom
  obtain rfl : ce = ce' := Option.some.inj (he.symm.trans hce')
  obtain ⟨w', hrun, haccepted, hpresent, hdevices, hchats⟩ :=
    World.exists_imageSteps (run_sound h).ok.consistent he hrunning hp hu hi hkey hrandom image
      url now
  exact arrives h hch huser hdrop hruns he hrun haccepted hpresent hdevices hchats

/-- `a` types another text. -/
def typedAgain : List ChatScreenAction :=
  firstTextRead ++ [.world (.screen (.editText 0 "again"))]

/-- `a` and `b` have a chat log open with each other. -/
lemma exists_typedAgain : ∃ s ch ce, run (step "b" 1 1) init typedAgain = some s ∧
    s.world.chats 1 = some ch ∧ ch.user ≠ none ∧ ch.partnerId = "a" ∧ s.client.writes = [] ∧
      s.world.ChatRunsAs 1 "b" ∧ s.world.chats 0 = some ce ∧ ce.user.map User.id = some "b" ∧
        ce.txtText = "again" ∧ s.world.ChatRunsAs 0 "a" ∧ s.world.sends 1 = none ∧
          s.world.FreshKey "l" := by
  have hrun : ((run (step "b" 1 1) init typedAgain).map fun s =>
      decide ((s.world.chats 1).map (fun ch => (ch.partnerId, ch.user.isSome)) = some ("a", true) ∧
        s.client.writes = [] ∧
        (s.world.chats 0).map (fun ch => (ch.user.map User.id, ch.txtText)) =
          some (some "b", "again") ∧
        s.world.ChatRunsAs 1 "b" ∧ s.world.ChatRunsAs 0 "a" ∧ (s.world.sends 1).isNone ∧
        s.world.FreshKey "l")) = some true := by
    decide +kernel
  obtain ⟨s, hs, h⟩ := Option.map_eq_some_iff.mp hrun
  obtain ⟨hchat, hwrites, hfrom, hruns, hruns', hi, hkey⟩ := of_decide_eq_true h
  obtain ⟨ch, hch, heq⟩ := Option.map_eq_some_iff.mp hchat
  obtain ⟨hp, huser⟩ := Prod.mk.inj heq
  obtain ⟨ce, hce, heq'⟩ := Option.map_eq_some_iff.mp hfrom
  obtain ⟨hto, htext⟩ := Prod.mk.inj heq'
  exact ⟨s, ch, ce, hs, hch, Option.ne_none_iff_isSome.mpr huser, hp, hwrites, hruns, hce, hto,
    htext, hruns', Option.isNone_iff_eq_none.mp hi, hkey⟩

/-- A second text from `a` to `b`. -/
theorem text_arrives_second : ∃ s t, run (step "b" 1 1) init typedAgain = some s ∧
    run (step "b" 1 1) s (sending (World.textSteps 1 0 "l" 5)) = some t ∧
      ∀ bs u, (∀ a ∈ bs, worldAction a = none) → run (step "b" 1 1) t bs = some u →
        ((∃ a v, worldAction a = none ∧ u.step "b" 1 1 a = some v) ∨
          ⟨"b", "a", 5, "again", "", ""⟩ ∈ u.arrayMessage) := by
  obtain ⟨s, ch, ce, hs, hch, huser, hp, hwrites, hruns, hce, hto, htext, hruns', hi, hkey⟩ :=
    exists_typedAgain
  obtain ⟨t, ht, hall⟩ := text_arrives hs hch huser (by simp [hwrites, writeEvents]) hruns hce hto
    (hp ▸ hruns') hi hkey 5
  rw [hp, htext] at hall
  exact ⟨s, t, hs, ht, fun bs u hbs hu => (hall bs u hbs hu).2⟩

/-- An image from `a` to `b`. -/
theorem image_arrives_second : ∃ s t, run (step "b" 1 1) init typedAgain = some s ∧
    run (step "b" 1 1) s (sending (World.imageSteps 1 0 7 [255] "url" "l" 5)) = some t ∧
      ∀ bs u, (∀ a ∈ bs, worldAction a = none) → run (step "b" 1 1) t bs = some u →
        ((∃ a v, worldAction a = none ∧ u.step "b" 1 1 a = some v) ∨
          ⟨"b", "a", 5, "", "url", ""⟩ ∈ u.arrayMessage) := by
  obtain ⟨s, ch, ce, hs, hch, huser, hp, hwrites, hruns, hce, hto, -, hruns', hi, hkey⟩ :=
    exists_typedAgain
  obtain ⟨t, ht, hall⟩ := image_arrives hs hch huser (by simp [hwrites, writeEvents]) hruns hce
    hto (hp ▸ hruns') hi hkey (show 7 ≤ 10000 by decide) [255] "url" 5
  rw [hp] at hall
  exact ⟨s, t, hs, ht, fun bs u hbs hu => (hall bs u hbs hu).2⟩

end ChatScreen

namespace LiveInbox

variable {uid : String} {d : DeviceId} {e : ChatId} {p : String} {s : LiveInbox} {w' : World}
  {as : List LiveInboxAction} {ce : ChatLogmessage} {i : SendId} {key : String}

/-- The steps of sends, in a run of an inbox. -/
def sending (as : List SendAction) : List LiveInboxAction := as.map fun a => .world (.send a)

/-- An inbox goes along with sends. -/
lemma exists_sending (hs : In uid s.client s)
    (hdrop : IndexEvent.dropped uid p ∉ writeEvents s.client.writes) {as : List SendAction}
    (hrun : run World.step s.world (as.map .send) = some w') :
    ∃ t, run (LiveInbox.step uid d) s (sending as) = some t ∧ t.world = w' ∧ In uid t.client t ∧
      IndexEvent.dropped uid p ∉ writeEvents t.client.writes := by
  have hsends : ∀ (w : World) (s : LiveInbox) a w', (s.world = w ∧ In uid s.client s ∧
      IndexEvent.dropped uid p ∉ writeEvents s.client.writes) → (∃ b, a = Action.send b) →
      w.step a = some w' → ∃ t, LiveInbox.step uid d s (.world a) = some t ∧ t.world = w' ∧
        In uid t.client t ∧ IndexEvent.dropped uid p ∉ writeEvents t.client.writes := by
    rintro w s a w' ⟨rfl, hs, hdrop⟩ ⟨b, rfl⟩ hw'
    obtain ⟨client, hclient, rfl⟩ := Client.exists_step d hw'
    have hstep : LiveInbox.step uid d s (.world (.send b)) = some (s.worldChanged uid client) := by
      rw [LiveInbox.step, hclient, Option.map_some]
    have hin : In uid client (s.worldChanged uid client) :=
      ⟨rfl, hs.sound.step hstep, hs.allRows.step hs.sound (by simp) hstep, hs.loaded,
        listens_step (fun _ => hs.listens) hstep hs.loaded⟩
    exact ⟨_, hstep, rfl, hin, fun he => (Client.mem_writeEvents_step hclient he).elim hdrop
      (Client.not_dropped_of_send _ d b uid p)⟩
  obtain ⟨t, ht, hin⟩ := exists_run_map hsends ⟨rfl, hs, hdrop⟩ (by simp) hrun
  rw [List.map_map] at ht
  exact ⟨t, ht, hin⟩

/-- **A text makes a row.** In every state of the system, if a user has a chat log open
with the user of a loaded inbox, from which no row has been taken out and whose app has
no removal of their conversation on its way, then the text in its field can be sent; and
after that, in whatever order the callbacks of the inbox run, they come to an end, and
where they end, a row of the sender is on the screen. -/
theorem text_makes_row (h : run (step uid d) init as = some s)
    (has : ∀ x, LiveInboxAction.removeValueDone x ∉ as) (hloaded : s.loaded = true)
    (hdrop : IndexEvent.dropped uid p ∉ writeEvents s.client.writes)
    (hruns : s.world.RunsAs d uid) (he : s.world.chats e = some ce)
    (hto : ce.user.map User.id = some uid) (hfrom : s.world.ChatRunsAs e p)
    (hi : s.world.sends i = none) (hkey : s.world.FreshKey key) (now : ℤ) :
    ∃ t, run (step uid d) s (sending (World.textSteps i e key now)) = some t ∧
      ∀ bs u, (∀ a ∈ bs, LiveInboxAction.isCallback a = true) → run (step uid d) t bs = some u →
        bs.length ≤ t.pending uid ∧
        ((∃ a v, LiveInboxAction.isCallback a = true ∧ u.step uid d a = some v) ∨
          u.ShowsRow uid p) := by
  obtain ⟨user, hu, rfl⟩ := Option.map_eq_some_iff.mp hto
  obtain ⟨ce', hce', hrunning, hp⟩ := hfrom
  obtain rfl : ce = ce' := Option.some.inj (he.symm.trans hce')
  obtain ⟨w', hrun, -, hpresent, hdevices, -⟩ :=
    World.exists_textSteps (run_sound h).ok.consistent he hrunning hp hu hi hkey now
  obtain ⟨t, ht, rfl, hin, hdrop'⟩ :=
    exists_sending (d := d) (in_of_run h (run_allRows h has) hloaded) hdrop hrun
  have hruns' : t.world.RunsAs d user.id := by
    rw [World.RunsAs, World.currentUid, hdevices]
    exact hruns
  have hview := hin.sound.ok.present_view hpresent hdrop'
  refine ⟨t, ht, fun bs u hbs hu => ?_⟩
  obtain ⟨hI, hlen, hgo⟩ := (drains hruns').run_stops hin hbs hu
  refine ⟨hlen, hgo.imp_right fun hzero => ?_⟩
  obtain ⟨houter, hquiet, htimer⟩ := hI.quiet hzero
  rw [hI.sound.showsRow_iff htimer]
  exact hI.allRows.exists_row hI.sound houter hquiet (hI.client ▸ hview)

/-- `b` has an inbox on its device, and `a` a chat log open with `b`. -/
def loadedWhileOpen : List LiveInboxAction :=
  World.firstText.map LiveInboxAction.world ++ [.checkuserInputtitle]

/-- A second text from `a` to `b`. -/
theorem text_makes_row_second : ∃ s t, run (step "b" 1) init loadedWhileOpen = some s ∧
    run (step "b" 1) s (sending (World.textSteps 1 0 "l" 5)) = some t ∧
      ∀ bs u, (∀ a ∈ bs, LiveInboxAction.isCallback a = true) → run (step "b" 1) t bs = some u →
        ((∃ a v, LiveInboxAction.isCallback a = true ∧ u.step "b" 1 a = some v) ∨
          u.ShowsRow "b" "a") := by
  have hrun : ((run (step "b" 1) init loadedWhileOpen).map fun s =>
      decide (s.loaded = true ∧ s.client.writes = [] ∧ s.world.RunsAs 1 "b" ∧
        (s.world.chats 0).map (fun ch => ch.user.map User.id) = some (some "b") ∧
        s.world.ChatRunsAs 0 "a" ∧ (s.world.sends 1).isNone ∧ s.world.FreshKey "l")) =
      some true := by
    decide +kernel
  obtain ⟨s, hs, h⟩ := Option.map_eq_some_iff.mp hrun
  obtain ⟨hloaded, hwrites, hruns, hchat, hfrom, hi, hkey⟩ := of_decide_eq_true h
  obtain ⟨ce, hce, hto⟩ := Option.map_eq_some_iff.mp hchat
  obtain ⟨t, ht, hall⟩ := text_makes_row hs (by simp [loadedWhileOpen]) hloaded
    (by simp [hwrites, writeEvents]) hruns hce hto hfrom (Option.isNone_iff_eq_none.mp hi) hkey 5
  exact ⟨s, t, hs, ht, fun bs u hbs hu => (hall bs u hbs hu).2⟩

end LiveInbox

end AppChat
