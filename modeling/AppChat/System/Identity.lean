import AppChat.System.Integrity

/-!
In whose name a message is sent.

A text reads the signed-in user when the button is tapped, but an image or a
video reads it again when its upload is done.

* `SendEffect`: what a step of a send does to the sends.
* `IssuedByStarter`: the condition that a step which issues a record is taken
  while the user who started the send is signed in, on a screen whose partner
  is loaded.
* `sent_as_starter`: in a run whose steps meet it, every record and every index
  entry carries the user who started the send and the partner whose chat log
  was open.
-/

namespace AppChat

namespace World

/-- **What a step of a send does to the sends.** -/
inductive SendEffect (w w' : World) : SendAction → Prop where
  /-- the app stops -/
  | stop (a : SendAction) (hsends : w'.sends = w.sends) : SendEffect w w' a
  /-- the send goes on, without a new record -/
  | goOn (a : SendAction) (i : SendId) (s : Send) (st : Stage) (hs : w.sends i = some s)
      (hst : st.block = none ∨ st.block = s.stage.block)
      (hsends : w'.sends = Function.update w.sends i (some { s with stage := st })) :
      SendEffect w w' a
  /-- an image or a video is picked -/
  | pick (a : SendAction) (i : SendId) (c : ChatId) (ch : ChatLogmessage) (st : Stage)
      (hch : w.chats c = some ch) (hst : st.block = none)
      (hsends : w'.sends = Function.update w.sends i
        (some ⟨c, ch.device, w.currentUid ch.device, ch.partnerId, st⟩)) : SendEffect w w' a
  /-- a text is sent -/
  | text (i : SendId) (c : ChatId) (ch : ChatLogmessage) (user : User) (key : String) (now : ℤ)
      (hch : w.chats c = some ch) (hu : ch.user = some user)
      (hsends : w'.sends = Function.update w.sends i
        (some ⟨c, ch.device, w.currentUid ch.device, ch.partnerId,
          .record ⟨.text ch.txtText, key, w.currentUid ch.device, some user.id, now⟩ .pending⟩)) :
      SendEffect w w' (.sendText i c key now)
  /-- the record of an image or a video is issued -/
  | media (i : SendId) (s : Send) (ch : ChatLogmessage) (path : String)
      (completion : ImageCompletion) (url key : String) (now : ℤ) (b : RecordBlock)
      (hs : w.sends i = some s) (hst : s.stage = .imageURL path completion)
      (hch : w.chats s.chat = some ch) (hu : completion = .imageSend → ch.user ≠ none)
      (hfrom : b.fromID = w.currentUid s.device) (hto : b.toID = ch.user.map User.id)
      (hsends : w'.sends =
        Function.update w.sends i (some { s with stage := .record b .pending })) :
      SendEffect w w' (.imageURLDone i (some url) key now)

lemma sendStep_sendEffect {w w' : World} {a : SendAction} (h : w.sendStep a = some w') :
    SendEffect w w' a := by
  cases sendStep_moves h with
  | textStops i c key now ch hu => exact .stop _ rfl
  | text i c key now ch user hch hu hi hkey => exact .text i c ch user key now hch hu rfl
  | pickImage i c random image ch hch hi => exact .pick _ i c ch _ hch rfl rfl
  | pickVideo i c random movie ch hch hi => exact .pick _ i c ch _ hch rfl rfl
  | movieStored i s path movie stored hs hst => exact .goOn _ i s _ hs (Or.inl rfl) rfl
  | imageStored i s path image stored completion hs hst =>
      exact .goOn _ i s _ hs (Or.inl rfl) rfl
  | putFileDone i ok s path movie stored hs hst => exact .goOn _ i s _ hs (Or.inl rfl) rfl
  | movieURLStops i url random s => exact .stop _ rfl
  | movieURLDone i url image random s ch path movie hs hst =>
      exact .goOn _ i s _ hs (Or.inl rfl) rfl
  | putDataDone i ok s path image stored completion hs hst =>
      exact .goOn _ i s _ hs (Or.inl (by cases ok <;> rfl)) rfl
  | imageURLFails i key now s path completion hs hst => exact .goOn _ i s _ hs (Or.inl rfl) rfl
  | imageStops i url key now s => exact .stop _ rfl
  | media i url key now s ch path completion b hs hst hch hu hkey hfrom hto =>
      exact .media i s ch path completion url key now b hs hst hch hu hfrom hto rfl
  | recordApplied i s b hs hst => exact .goOn _ i s _ hs (Or.inr (by rw [hst]; rfl)) rfl
  | recordFailed i s b hs hst => exact .goOn _ i s _ hs (Or.inr (by rw [hst]; rfl)) rfl
  | recordDone i s ch b f t hs hch hst hf ht =>
      exact .goOn _ i s _ hs (Or.inr (by rw [hst]; rfl)) rfl
  | recordDoneStops i s ch hch => exact .stop _ rfl
  | videoDoneStops i s ch b f hs hch hst =>
      exact .goOn _ i s _ hs (Or.inr (by rw [hst]; rfl)) rfl
  | indexApplied i side s b f t st hs hst hside =>
      exact .goOn _ i s _ hs (Or.inr (by rw [hst]; rfl)) rfl
  | indexFailed i side s b f t st hs hst hside =>
      exact .goOn _ i s _ hs (Or.inr (by rw [hst]; rfl)) rfl

/-! ### The screens of the sends -/

/-- From `w` to `w'` every chat log stays on its device, with its partner. -/
def KeepsScreens (w w' : World) : Prop :=
  ∀ c ch, w.chats c = some ch →
    ∃ ch', w'.chats c = some ch' ∧ ch'.device = ch.device ∧ ch'.partnerId = ch.partnerId

lemma keepsScreens_of_eq {w w' : World} (h : w'.chats = w.chats) : w.KeepsScreens w' :=
  fun c ch hc => ⟨ch, by rw [h, hc], rfl, rfl⟩

lemma keepsScreens_setChat {w : World} {c : ChatId} {ch ch' : ChatLogmessage}
    (hc : w.chats c = some ch) (hd : ch'.device = ch.device) (hp : ch'.partnerId = ch.partnerId) :
    w.KeepsScreens (w.setChat c ch') := by
  intro e ch₀ he
  by_cases hec : e = c
  · subst hec
    obtain rfl : ch = ch₀ := Option.some.inj (hc.symm.trans he)
    exact ⟨ch', by simp, hd, hp⟩
  · exact ⟨ch₀, by simp [hec, he], rfl, rfl⟩

lemma keepsScreens_setChat_of_none {w : World} {c : ChatId} {ch' : ChatLogmessage}
    (hc : w.chats c = none) : w.KeepsScreens (w.setChat c ch') := by
  intro e ch₀ he
  have hec : e ≠ c := fun h => by rw [h, hc] at he; cases he
  exact ⟨ch₀, by simp [hec, he], rfl, rfl⟩

lemma screenStep_keepsScreens {w w' : World} {a : ScreenAction} (h : w.screenStep a = some w') :
    w.KeepsScreens w' ∧ w'.sends = w.sends := by
  cases a with
  | newmessageSelect c d id =>
      simp only [screenStep, Option.ite_none_right_eq_some] at h
      obtain ⟨⟨-, hc, -⟩, h⟩ := h
      split at h <;> rw [← Option.some.inj h]
      · exact ⟨keepsScreens_setChat_of_none hc, rfl⟩
      · exact ⟨keepsScreens_of_eq rfl, rfl⟩
  | inboxSelect c d arrayMess row =>
      simp only [screenStep, Option.ite_none_right_eq_some] at h
      obtain ⟨⟨-, hc⟩, h⟩ := h
      split at h <;> rw [← Option.some.inj h]
      · exact ⟨keepsScreens_setChat_of_none hc, rfl⟩
      · exact ⟨keepsScreens_of_eq rfl, rfl⟩
  | userValue c =>
      simp only [screenStep, Option.bind_eq_some_iff, Option.ite_none_right_eq_some] at h
      obtain ⟨ch, hc, -, h⟩ := h
      split at h <;> rw [← Option.some.inj h]
      · exact ⟨keepsScreens_setChat hc rfl rfl, rfl⟩
      · exact ⟨keepsScreens_of_eq rfl, rfl⟩
  | editText c text =>
      simp only [screenStep, Option.bind_eq_some_iff, Option.ite_none_right_eq_some] at h
      obtain ⟨ch, hc, -, h⟩ := h
      rw [← Option.some.inj h]
      exact ⟨keepsScreens_setChat hc rfl rfl, rfl⟩

/-- A step that leaves the chat logs alone but for the text. -/
lemma Frame.keepsScreens {w w' : World} (h : Frame w w') : w.KeepsScreens w' := by
  intro c ch hc
  have hmap := h.chats c
  rw [hc, Option.map_some, Option.map_eq_some_iff] at hmap
  obtain ⟨ch', hc', he⟩ := hmap
  obtain ⟨hd, hp, -⟩ := ChatLogmessage.eraseText_inj he
  exact ⟨ch', hc', hd, hp⟩

/-! ### Records issued in the name of the starter -/

/-- The starter of the send, the device and the loaded partner of a step that
issues a record. An image without a loaded partner stops the app, and so does a
text. -/
def issuing (w : World) : Action → Option (Option String × DeviceId × Option User)
  | .send (.sendText _ c _ _) =>
      (w.chats c).bind fun ch =>
        if ch.user = none then none else some (w.currentUid ch.device, ch.device, ch.user)
  | .send (.imageURLDone i (some _) _ _) =>
      (w.sends i).bind fun s => (w.chats s.chat).bind fun ch =>
        match s.stage with
        | .imageURL _ completion =>
            if completion = .imageSend ∧ ch.user = none then none
            else some (s.starter, s.device, ch.user)
        | _ => none
  | _ => none

/-- A step that issues a record does so while the user who started the send is
signed in, and with the partner of the screen loaded. Only the two paths that
read the signed-in user after an upload can miss this, and a text when nobody
is signed in. -/
def IssuedByStarter (w : World) (a : Action) : Prop :=
  ∀ r ∈ w.issuing a, r.1 ≠ none ∧ w.currentUid r.2.1 = r.1 ∧ r.2.2 ≠ none

instance (w : World) (a : Action) : Decidable (w.IssuedByStarter a) :=
  inferInstanceAs
    (Decidable (∀ r ∈ w.issuing a, r.1 ≠ none ∧ w.currentUid r.2.1 = r.1 ∧ r.2.2 ≠ none))

/-- Every send belongs to an open chat log, and its record, once issued, is from
its starter to the partner of that chat log. -/
structure SendersOk (w : World) : Prop where
  screen : ∀ i s, w.sends i = some s →
    ∃ ch, w.chats s.chat = some ch ∧ ch.device = s.device ∧ ch.partnerId = s.partner
  issued : ∀ i s b, w.sends i = some s → s.stage.block = some b →
    b.fromID = s.starter ∧ s.starter ≠ none ∧ b.toID = some s.partner

lemma sendersOk_init : SendersOk init := ⟨by simp [init], by simp [init]⟩

namespace SendersOk

variable {w w' : World}

/-- A step that leaves the sends alone. -/
lemma of_sends_eq (hw : SendersOk w) (hk : w.KeepsScreens w') (hs : w'.sends = w.sends) :
    SendersOk w' := by
  refine ⟨fun i s hi => ?_, fun i s b hi hb => hw.issued i s b (hs ▸ hi) hb⟩
  obtain ⟨ch, hch, hd, hp⟩ := hw.screen i s (hs ▸ hi)
  obtain ⟨ch', hch', hd', hp'⟩ := hk s.chat ch hch
  exact ⟨ch', hch', hd'.trans hd, hp'.trans hp⟩

/-- A step that starts a send, or moves it on. -/
lemma of_update (hw : SendersOk w) (hk : w.KeepsScreens w') {i : SendId} {s : Send}
    (hs : w'.sends = Function.update w.sends i (some s))
    (hscreen : ∃ ch, w.chats s.chat = some ch ∧ ch.device = s.device ∧ ch.partnerId = s.partner)
    (hissued : ∀ b, s.stage.block = some b →
      b.fromID = s.starter ∧ s.starter ≠ none ∧ b.toID = some s.partner) : SendersOk w' := by
  refine ⟨fun j r hj => ?_, fun j r b hj hb => ?_⟩
  · obtain ⟨ch, hch, hd, hp⟩ : ∃ ch, w.chats r.chat = some ch ∧ ch.device = r.device ∧
        ch.partnerId = r.partner := by
      rcases Transition.update_eq_some (hs ▸ hj) with ⟨-, rfl⟩ | ⟨-, hj⟩
      · exact hscreen
      · exact hw.screen j r hj
    obtain ⟨ch', hch', hd', hp'⟩ := hk r.chat ch hch
    exact ⟨ch', hch', hd'.trans hd, hp'.trans hp⟩
  · rcases Transition.update_eq_some (hs ▸ hj) with ⟨-, rfl⟩ | ⟨-, hj⟩
    · exact hissued b hb
    · exact hw.issued j r b hj hb

/-- **A step that meets the condition keeps the names right.** -/
lemma step (hw : SendersOk w) (hids : IdsOk w) {a : Action} (ha : w.IssuedByStarter a)
    (h : w.step a = some w') : SendersOk w' := by
  cases a with
  | auth a =>
      obtain ⟨devices, rfl⟩ := authStep_cases h
      exact hw.of_sends_eq (keepsScreens_of_eq rfl) rfl
  | register a =>
      obtain ⟨hchats, hsends⟩ := registerStep_leaves h
      exact hw.of_sends_eq (keepsScreens_of_eq hchats) hsends
  | screen a =>
      obtain ⟨hk, hs⟩ := screenStep_keepsScreens h
      exact hw.of_sends_eq hk hs
  | delete a => exact hw.of_sends_eq (deleteStep_frame h).keepsScreens (deleteStep_leaves h).2.1
  | send a =>
      have hk := (sendStep_frame h).keepsScreens
      cases sendStep_sendEffect h with
      | stop _ hsends => exact hw.of_sends_eq hk hsends
      | goOn _ i s st hs hst hsends =>
          refine hw.of_update hk hsends (hw.screen i s hs) fun b hb => ?_
          rcases hst with hst | hst
          · exact absurd (hst.symm.trans hb) (by simp)
          · exact hw.issued i s b hs (hst ▸ hb)
      | pick _ i c ch st hch hst hsends =>
          refine hw.of_update hk hsends ⟨ch, hch, rfl, rfl⟩ fun b hb => ?_
          exact absurd (hst.symm.trans hb) (by simp)
      | text i c ch user key now hch hu hsends =>
          refine hw.of_update hk hsends ⟨ch, hch, rfl, rfl⟩ fun b hb => ?_
          obtain rfl := Option.some.inj hb
          have hissue : w.issuing (.send (.sendText i c key now)) =
              some (w.currentUid ch.device, ch.device, ch.user) := by
            simp [issuing, hch, hu]
          obtain ⟨hne, -, -⟩ := ha _ hissue
          exact ⟨rfl, hne, congrArg some (hids.partner c ch user hch hu).1⟩
      | media i s ch path completion url key now b hs hst hch hu hfrom hto hsends =>
          refine hw.of_update hk hsends (hw.screen i s hs) fun b' hb => ?_
          obtain rfl : b = b' := Option.some.inj hb
          have hissue : w.issuing (.send (.imageURLDone i (some url) key now)) =
              some (s.starter, s.device, ch.user) := by
            simp only [issuing, hs, hch, hst, Option.bind_some]
            exact if_neg fun hno => hu hno.1 hno.2
          obtain ⟨hne, hcur, huser⟩ := ha _ hissue
          obtain ⟨ch₀, hch₀, -, hp⟩ := hw.screen i s hs
          obtain rfl : ch₀ = ch := Option.some.inj (hch₀.symm.trans hch)
          obtain ⟨user, huser⟩ : ∃ user, ch₀.user = some user := Option.ne_none_iff_exists'.mp huser
          refine ⟨hfrom.trans hcur, hne, ?_⟩
          rw [hto, huser, Option.map_some, (hids.partner s.chat ch₀ user hch huser).1, hp]

end SendersOk

/-- **A message is sent as the user who started it**, in every run whose steps
meet `IssuedByStarter`: the record of a send carries the user who was signed in
when it was started, and the partner whose chat log was open then; so does the
record in the database, and so do the index entries. -/
theorem sent_as_starter {as : List Action} {w : World} {i : SendId} {s : Send} {b : RecordBlock}
    (h : Runs as w) (hC : Transition.Meets step IssuedByStarter init as)
    (hs : w.sends i = some s) (hb : s.stage.block = some b) :
    ∃ u, s.starter = some u ∧ b.fromID = some u ∧ b.toID = some s.partner ∧
      (w.Accepted i b → w.db.valueAt ["mess", b.key, "fromID"] = some (.str u) ∧
        w.db.valueAt ["mess", b.key, "toID"] = some (.str s.partner)) ∧
      ∀ f t side, w.Entered i b f t side → f = u ∧ t = s.partner := by
  have hw := h.consistent
  have hsend : SendersOk w :=
    (hC.invariant (I := fun w => Consistent w ∧ SendersOk w)
      (fun _ _ _ hw ha hstep => ⟨hw.1.step hstep, hw.2.step hw.1.ids ha hstep⟩)
      ⟨consistent_init, sendersOk_init⟩ h).2
  obtain ⟨hfrom, hne, hto⟩ := hsend.issued i s b hs hb
  obtain ⟨u, hu⟩ := Option.ne_none_iff_exists'.mp hne
  rw [hu] at hfrom
  refine ⟨u, hu, hfrom, hto, fun hacc => ?_, fun f t side hent => ?_⟩
  · have hrec := hw.index.record i b hacc
    have hf := b.fromID_mem_data
    have ht := b.toID_mem_data
    rw [hfrom, Option.getD_some] at hf
    rw [hto, Option.getD_some] at ht
    exact ⟨PathTree.valueAt_eq_some_iff.mpr (hrec _ _ hf),
      PathTree.valueAt_eq_some_iff.mpr (hrec _ _ ht)⟩
  · obtain ⟨hf, ht | ⟨ht, -⟩⟩ := hw.entered_captured hent
    · exact ⟨Option.some.inj (hf.symm.trans hfrom), Option.some.inj (ht.symm.trans hto)⟩
    · rw [hto] at ht
      cases ht

/-- The first text is in the name of its sender. -/
theorem sent_as_starter_firstText : ∃ (w : World) (b : RecordBlock), Runs firstText w ∧
    ∃ u, b.fromID = some u ∧ w.db.valueAt ["mess", "k", "fromID"] = some (.str u) := by
  let b : RecordBlock := ⟨.text "hello", "k", some "a", some "b", 0⟩
  have hrun : ((Transition.run step init firstText).map fun w =>
      decide ((w.sends 0).bind (fun s => s.stage.block) = some b ∧
        w.Entered 0 b "a" "b" .sender)) = some true := by
    decide +kernel
  have hC : Transition.Meets step IssuedByStarter init firstText := by decide +kernel
  obtain ⟨w, hw, h⟩ := Option.map_eq_some_iff.mp hrun
  obtain ⟨hb, hent⟩ := of_decide_eq_true h
  obtain ⟨s, hs, hb⟩ := Option.bind_eq_some_iff.mp hb
  obtain ⟨u, -, hfrom, -, hrec, -⟩ := sent_as_starter hw hC hs hb
  exact ⟨w, b, hw, u, hfrom, (hrec hent.accepted).1⟩

/-- An image that is picked by `a` and uploaded while `a` signs out and `c`
signs in. -/
def imageAcrossLogin : List Action :=
  registration 0 "a" ++ registration 1 "b" ++ registration 2 "c" ++ newmessage 0 0 "b" ++
    [.send (.pickImage 0 0 7 []), .send (.objectStored 0), .send (.putDataDone 0 true),
      .auth (.signOut 0), .auth (.signIn 0 ⟨"c", "c"⟩),
      .send (.imageURLDone 0 (some "image") "k" 0), .send (.recordApplied 0)]

/-- **An image in another user's name**: the image `a` picked is stored as a
message from `c`. -/
theorem imageAcrossLogin_fromID : ∃ w, Runs imageAcrossLogin w ∧
    (w.sends 0).map Send.starter = some (some "a") ∧
      w.db.valueAt ["mess", "k", "fromID"] = some (.str "c") := by
  have hrun : ((Transition.run step init imageAcrossLogin).map fun w =>
      decide ((w.sends 0).map Send.starter = some (some "a") ∧
        w.db.valueAt ["mess", "k", "fromID"] = some (.str "c"))) = some true := by
    decide +kernel
  obtain ⟨w, hw, h⟩ := Option.map_eq_some_iff.mp hrun
  exact ⟨w, hw, of_decide_eq_true h⟩

end World

end AppChat
