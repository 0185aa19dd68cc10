import AppChat.System.Step

/-!
What the steps lead to, with what enables them.

* `authStep_cases`, `screenStep_cases`, `deleteStep_cases`: the parts of the
  state that these steps touch.
* `SendMoves`: every step of a send, with the state it leads to. What a send
  does to the database, to the accounts and to the other sends is proved from
  it, and never from `sendStep`.
-/

namespace AppChat

namespace World

variable {w w' : World}

/-- Signing in and out, and the end of an app, touch the devices only. -/
lemma authStep_cases {a : AuthAction} (h : w.authStep a = some w') :
    ∃ devices, w' = { w with devices := devices } := by
  cases a with
  | signIn d a =>
      simp only [authStep, Option.ite_none_right_eq_some] at h
      exact ⟨_, (Option.some.inj h.2).symm⟩
  | signOut d =>
      simp only [authStep, Option.ite_none_right_eq_some] at h
      exact ⟨_, (Option.some.inj h.2).symm⟩
  | kill d => exact ⟨_, (Option.some.inj h).symm⟩

/-- The screens touch the devices, when the app stops, and the chat logs. -/
lemma screenStep_cases {a : ScreenAction} (h : w.screenStep a = some w') :
    ∃ devices chats, w' = { w with devices := devices, chats := chats } := by
  cases a with
  | newmessageSelect c d id =>
      simp only [screenStep, Option.ite_none_right_eq_some] at h
      obtain ⟨-, h⟩ := h
      split at h <;> exact ⟨_, _, (Option.some.inj h).symm⟩
  | inboxSelect c d arrayMess row =>
      simp only [screenStep, Option.ite_none_right_eq_some] at h
      obtain ⟨-, h⟩ := h
      split at h <;> exact ⟨_, _, (Option.some.inj h).symm⟩
  | userValue c =>
      simp only [screenStep, Option.bind_eq_some_iff, Option.ite_none_right_eq_some] at h
      obtain ⟨ch, -, -, h⟩ := h
      split at h <;> exact ⟨_, _, (Option.some.inj h).symm⟩
  | editText c text =>
      simp only [screenStep, Option.bind_eq_some_iff, Option.ite_none_right_eq_some] at h
      obtain ⟨ch, -, -, h⟩ := h
      exact ⟨_, _, (Option.some.inj h).symm⟩

/-- A deletion is committed, accepted or rejected, or the app stops, or nobody
is signed in. -/
lemma deleteStep_cases {a : DeleteAction} (h : w.deleteStep a = some w') :
    (∃ x d arrayMess row, a = .commit x d arrayMess row ∧
      (w' = w ∨ w' = w.crash d ∨ ∃ del, w' = w.setDeletion x del)) ∨
    (∃ x del, a = .applied x ∧ w.deletions x = some del ∧
      w' = { w with db := w.db.remove ["user-mess", del.uid, del.partnerId] }.setDeletion x
        { del with st := .applied }) ∨
    ∃ x del, a = .failed x ∧ w' = w.setDeletion x del := by
  cases a with
  | commit x d arrayMess row =>
      simp only [deleteStep, Option.ite_none_right_eq_some] at h
      obtain ⟨-, h⟩ := h
      refine Or.inl ⟨x, d, arrayMess, row, rfl, ?_⟩
      split at h
      · exact Or.inl (Option.some.inj h).symm
      · split at h
        · exact Or.inr (Or.inl (Option.some.inj h).symm)
        · exact Or.inr (Or.inr ⟨_, (Option.some.inj h).symm⟩)
  | applied x =>
      simp only [deleteStep, Option.bind_eq_some_iff, Option.ite_none_right_eq_some] at h
      obtain ⟨del, hdel, -, h⟩ := h
      exact Or.inr (Or.inl ⟨x, del, rfl, hdel, (Option.some.inj h).symm⟩)
  | failed x =>
      simp only [deleteStep, Option.bind_eq_some_iff, Option.ite_none_right_eq_some] at h
      obtain ⟨del, -, -, h⟩ := h
      exact Or.inr (Or.inr ⟨x, _, rfl, (Option.some.inj h).symm⟩)

/-- A deletion leaves the chat logs, the sends and the storage alone. -/
lemma deleteStep_leaves {a : DeleteAction} (h : w.deleteStep a = some w') :
    w'.chats = w.chats ∧ w'.sends = w.sends ∧ w'.storage = w.storage := by
  rcases deleteStep_cases h with ⟨x, d, arrayMess, row, rfl, hw'⟩ | ⟨x, del, rfl, -, rfl⟩ |
    ⟨x, del, rfl, rfl⟩
  · rcases hw' with rfl | rfl | ⟨del, rfl⟩ <;> exact ⟨rfl, rfl, rfl⟩
  · exact ⟨rfl, rfl, rfl⟩
  · exact ⟨rfl, rfl, rfl⟩

/-- A record is issued for the send. -/
def issue (w : World) (i : SendId) (s : Send) (b : RecordBlock) : World :=
  { w with keys := b.key :: w.keys }.setSend i { s with stage := .record b .pending }

/-- What is sent once the image has the link `url`. -/
def payload : ImageCompletion → String → Payload
  | .imageSend, url => .image url
  | .videoSend linkVideo, url => .video linkVideo url

/-- **The steps of a send**, with what enables each of them. -/
inductive SendMoves (w : World) : SendAction → World → Prop where
  | textStops (i : SendId) (c : ChatId) (key : String) (now : ℤ) (ch : ChatLogmessage)
      (hu : ch.user = none) (hch : w.chats c = some ch)
      (hrun : (w.devices ch.device).running = true) :
      SendMoves w (.sendText i c key now) (w.crash ch.device)
  | text (i : SendId) (c : ChatId) (key : String) (now : ℤ) (ch : ChatLogmessage) (user : User)
      (hch : w.chats c = some ch) (hu : ch.user = some user) (hi : w.sends i = none)
      (hkey : w.FreshKey key) (hrun : (w.devices ch.device).running = true) :
      SendMoves w (.sendText i c key now) ({ w with keys := key :: w.keys }.setSend i
        ⟨c, ch.device, w.currentUid ch.device, ch.partnerId,
          .record ⟨.text ch.txtText, key, w.currentUid ch.device, some user.id, now⟩ .pending⟩)
  | pickImage (i : SendId) (c : ChatId) (random : ℕ) (image : Media) (ch : ChatLogmessage)
      (hch : w.chats c = some ch) (hi : w.sends i = none)
      (hrun : (w.devices ch.device).running = true) (hrandom : random ≤ 10000) :
      SendMoves w (.pickImage i c random image) (w.imagePickerController i c ch random image)
  | pickVideo (i : SendId) (c : ChatId) (random : ℕ) (movie : Media) (ch : ChatLogmessage)
      (hch : w.chats c = some ch) (hi : w.sends i = none)
      (hrun : (w.devices ch.device).running = true) (hrandom : random ≤ 10000) :
      SendMoves w (.pickVideo i c random movie) (w.uploadVideoToFirebase i c ch random movie)
  | movieStored (i : SendId) (s : Send) (path : String) (movie : Media) (stored : Bool)
      (hs : w.sends i = some s) (hst : s.stage = .putFile path movie stored) :
      SendMoves w (.objectStored i)
        ((w.store path movie).setSend i { s with stage := .putFile path movie true })
  | imageStored (i : SendId) (s : Send) (path : String) (image : Media) (stored : Bool)
      (completion : ImageCompletion) (hs : w.sends i = some s)
      (hst : s.stage = .putData path image stored completion) :
      SendMoves w (.objectStored i)
        ((w.store path image).setSend i { s with stage := .putData path image true completion })
  | putFileDone (i : SendId) (ok : Bool) (s : Send) (path : String) (movie : Media)
      (stored : Bool) (hs : w.sends i = some s) (hst : s.stage = .putFile path movie stored)
      (hrun : (w.devices s.device).running = true) (hok : ok = true → stored = true) :
      SendMoves w (.putFileDone i ok) (w.setSend i { s with stage := .movieURL path movie })
  | movieURLStops (i : SendId) (url : Option String) (random : ℕ) (s : Send) (path : String)
      (movie : Media) (hs : w.sends i = some s) (hst : s.stage = .movieURL path movie)
      (hrun : (w.devices s.device).running = true) :
      SendMoves w (.movieURLDone i url none random) (w.crash s.device)
  | movieURLDone (i : SendId) (url : Option String) (image : Media) (random : ℕ) (s : Send)
      (ch : ChatLogmessage) (path : String) (movie : Media) (hs : w.sends i = some s)
      (hst : s.stage = .movieURL path movie) (hch : w.chats s.chat = some ch)
      (hrun : (w.devices s.device).running = true) (hrandom : random ≤ 10000) :
      SendMoves w (.movieURLDone i url (some image) random) (w.setSend i
        { s with stage := w.uploadImageChatToFirebase ch random image (.videoSend url) })
  | putDataDone (i : SendId) (ok : Bool) (s : Send) (path : String) (image : Media)
      (stored : Bool) (completion : ImageCompletion) (hs : w.sends i = some s)
      (hst : s.stage = .putData path image stored completion)
      (hrun : (w.devices s.device).running = true) (hok : ok = true → stored = true) :
      SendMoves w (.putDataDone i ok)
        (w.setSend i { s with stage := if ok then .imageURL path completion else .aborted })
  | imageURLFails (i : SendId) (key : String) (now : ℤ) (s : Send) (path : String)
      (completion : ImageCompletion) (hs : w.sends i = some s)
      (hst : s.stage = .imageURL path completion)
      (hrun : (w.devices s.device).running = true) :
      SendMoves w (.imageURLDone i none key now) (w.setSend i { s with stage := .aborted })
  | imageStops (i : SendId) (url key : String) (now : ℤ) (s : Send) (path : String)
      (completion : ImageCompletion) (hs : w.sends i = some s)
      (hst : s.stage = .imageURL path completion)
      (hrun : (w.devices s.device).running = true) :
      SendMoves w (.imageURLDone i (some url) key now) (w.crash s.device)
  | media (i : SendId) (url key : String) (now : ℤ) (s : Send) (ch : ChatLogmessage)
      (path : String) (completion : ImageCompletion) (b : RecordBlock) (hs : w.sends i = some s)
      (hst : s.stage = .imageURL path completion) (hch : w.chats s.chat = some ch)
      (hu : completion = .imageSend → ch.user ≠ none) (hkey : w.FreshKey b.key)
      (hfrom : b.fromID = w.currentUid s.device) (hto : b.toID = ch.user.map User.id)
      (hpayload : b.payload = payload completion url)
      (hrun : (w.devices s.device).running = true) :
      SendMoves w (.imageURLDone i (some url) key now) (w.issue i s b)
  | recordApplied (i : SendId) (s : Send) (b : RecordBlock) (hs : w.sends i = some s)
      (hst : s.stage = .record b .pending) :
      SendMoves w (.recordApplied i)
        ({ w with db := w.db.updateChildValues ["mess", b.key] b.data }.setSend i
          { s with stage := .record b .applied })
  | recordFailed (i : SendId) (s : Send) (b : RecordBlock) (hs : w.sends i = some s)
      (hst : s.stage = .record b .pending) :
      SendMoves w (.recordFailed i) (w.setSend i { s with stage := .record b .failed })
  | recordDone (i : SendId) (s : Send) (ch : ChatLogmessage) (b : RecordBlock) (f t : String)
      (hs : w.sends i = some s) (hch : w.chats s.chat = some ch)
      (hst : s.stage = .record b .applied) (hf : b.fromID = some f) (ht : b.toID = some t)
      (hrun : (w.devices s.device).running = true) :
      SendMoves w (.recordDone i) ((w.setChat s.chat { ch with txtText := "" }).setSend i
        { s with stage := .index b f t fun _ => .pending })
  | recordDoneStops (i : SendId) (s : Send) (ch : ChatLogmessage)
      (hch : w.chats s.chat = some ch) (b : RecordBlock) (hs : w.sends i = some s)
      (hst : s.stage = .record b .applied) (hrun : (w.devices s.device).running = true) :
      SendMoves w (.recordDone i) ((w.setChat s.chat { ch with txtText := "" }).crash s.device)
  | videoDoneStops (i : SendId) (s : Send) (ch : ChatLogmessage) (b : RecordBlock) (f : String)
      (hs : w.sends i = some s) (hch : w.chats s.chat = some ch)
      (hst : s.stage = .record b .applied) (hf : b.fromID = some f) (ht : b.toID = none)
      (hv : b.payload.isVideo = true) (hrun : (w.devices s.device).running = true) :
      SendMoves w (.recordDone i) (((w.setChat s.chat { ch with txtText := "" }).setSend i
        { s with stage := .index b f "demo_toID" senderOnly }).crash s.device)
  | indexApplied (i : SendId) (side : Side) (s : Send) (b : RecordBlock) (f t : String)
      (st : Side → WriteState) (hs : w.sends i = some s) (hst : s.stage = .index b f t st)
      (hside : st side = .pending) :
      SendMoves w (.indexApplied i side) ({ w with db := indexWrite w.db b f t side }.setSend i
        { s with stage := .index b f t (Function.update st side .applied) })
  | indexFailed (i : SendId) (side : Side) (s : Send) (b : RecordBlock) (f t : String)
      (st : Side → WriteState) (hs : w.sends i = some s) (hst : s.stage = .index b f t st)
      (hside : st side = .pending) :
      SendMoves w (.indexFailed i side)
        (w.setSend i { s with stage := .index b f t (Function.update st side .failed) })

/-- **Every step of a send is one of these.** -/
lemma sendStep_moves {a : SendAction} (h : w.sendStep a = some w') : SendMoves w a w' := by
  cases a with
  | sendText i c key now =>
      simp only [sendStep, Option.bind_eq_some_iff, Option.ite_none_right_eq_some] at h
      obtain ⟨ch, hch, ⟨hrun, hi, hkey⟩, h⟩ := h
      rw [← Option.some.inj h, sendDataToFirebase]
      split
      · rename_i hu
        exact .textStops i c key now ch hu hch hrun
      · rename_i user hu
        exact .text i c key now ch user hch hu hi hkey hrun
  | pickImage i c random image =>
      simp only [sendStep, Option.bind_eq_some_iff, Option.ite_none_right_eq_some] at h
      obtain ⟨ch, hch, ⟨hrun, hi, hrandom⟩, h⟩ := h
      rw [← Option.some.inj h]
      exact .pickImage i c random image ch hch hi hrun hrandom
  | pickVideo i c random movie =>
      simp only [sendStep, Option.bind_eq_some_iff, Option.ite_none_right_eq_some] at h
      obtain ⟨ch, hch, ⟨hrun, hi, hrandom⟩, h⟩ := h
      rw [← Option.some.inj h]
      exact .pickVideo i c random movie ch hch hi hrun hrandom
  | objectStored i =>
      simp only [sendStep, Option.bind_eq_some_iff] at h
      obtain ⟨s, hs, h⟩ := h
      split at h
      · rename_i path movie stored hst
        rw [← Option.some.inj h]
        exact .movieStored i s path movie stored hs hst
      · rename_i path image stored completion hst
        rw [← Option.some.inj h]
        exact .imageStored i s path image stored completion hs hst
      · cases h
  | putFileDone i ok =>
      simp only [sendStep, Option.bind_eq_some_iff] at h
      obtain ⟨s, hs, h⟩ := h
      split at h
      · rename_i path movie stored hst
        rw [Option.ite_none_right_eq_some] at h
        rw [← Option.some.inj h.2]
        exact .putFileDone i ok s path movie stored hs hst h.1.1 h.1.2
      · cases h
  | movieURLDone i url thumnail random =>
      simp only [sendStep, Option.bind_eq_some_iff] at h
      obtain ⟨s, hs, ch, hch, h⟩ := h
      split at h
      · rename_i path movie hst
        rw [Option.ite_none_right_eq_some] at h
        obtain ⟨⟨hrun, hrandom⟩, h⟩ := h
        split at h <;> rw [← Option.some.inj h]
        · exact .movieURLStops i url random s path movie hs hst hrun
        · rename_i image
          exact .movieURLDone i url image random s ch path movie hs hst hch hrun hrandom
      · cases h
  | putDataDone i ok =>
      simp only [sendStep, Option.bind_eq_some_iff] at h
      obtain ⟨s, hs, h⟩ := h
      split at h
      · rename_i path image stored completion hst
        rw [Option.ite_none_right_eq_some] at h
        rw [← Option.some.inj h.2]
        exact .putDataDone i ok s path image stored completion hs hst h.1.1 h.1.2
      · cases h
  | imageURLDone i url key now =>
      simp only [sendStep, Option.bind_eq_some_iff] at h
      obtain ⟨s, hs, ch, hch, h⟩ := h
      split at h
      · rename_i path completion hst
        rw [Option.ite_none_right_eq_some] at h
        obtain ⟨⟨hrun, hkey⟩, h⟩ := h
        split at h <;> rw [← Option.some.inj h]
        · exact .imageURLFails i key now s path completion hs hst hrun
        · rename_i url
          unfold imageCompletion
          split
          · exact .imageStops i url key now s path _ hs hst hrun
          · rename_i hu
            exact .media i url key now s ch path .imageSend
              ⟨.image url, key, w.currentUid s.device, ch.user.map User.id, now⟩ hs hst hch
              (fun _ => by simp [hu]) hkey rfl rfl rfl hrun
          · rename_i linkVideo
            exact .media i url key now s ch path (.videoSend linkVideo)
              ⟨.video linkVideo url, key, w.currentUid s.device, ch.user.map User.id, now⟩ hs hst
              hch (by simp) hkey rfl rfl rfl hrun
      · cases h
  | recordApplied i =>
      simp only [sendStep, Option.bind_eq_some_iff] at h
      obtain ⟨s, hs, h⟩ := h
      split at h
      · rename_i b hst
        rw [← Option.some.inj h]
        exact .recordApplied i s b hs hst
      · cases h
  | recordFailed i =>
      simp only [sendStep, Option.bind_eq_some_iff] at h
      obtain ⟨s, hs, h⟩ := h
      split at h
      · rename_i b hst
        rw [← Option.some.inj h]
        exact .recordFailed i s b hs hst
      · cases h
  | recordDone i =>
      simp only [sendStep, Option.bind_eq_some_iff] at h
      obtain ⟨s, hs, ch, hch, h⟩ := h
      split at h
      · rename_i b hst
        rw [Option.ite_none_right_eq_some] at h
        rw [← Option.some.inj h.2, recordDone]
        split
        · rename_i f t hf ht
          exact .recordDone i s ch b f t hs hch hst hf ht h.1
        · rename_i f hf ht
          split_ifs with hv
          · exact .videoDoneStops i s ch b f hs hch hst hf ht hv h.1
          · exact .recordDoneStops i s ch hch b hs hst h.1
        · exact .recordDoneStops i s ch hch b hs hst h.1
      · cases h
  | indexApplied i side =>
      simp only [sendStep, Option.bind_eq_some_iff] at h
      obtain ⟨s, hs, h⟩ := h
      split at h
      · rename_i b f t st hst
        rw [Option.ite_none_right_eq_some] at h
        rw [← Option.some.inj h.2]
        exact .indexApplied i side s b f t st hs hst h.1
      · cases h
  | indexFailed i side =>
      simp only [sendStep, Option.bind_eq_some_iff] at h
      obtain ⟨s, hs, h⟩ := h
      split at h
      · rename_i b f t st hst
        rw [Option.ite_none_right_eq_some] at h
        rw [← Option.some.inj h.2]
        exact .indexFailed i side s b f t st hs hst h.1
      · cases h

end World

end AppChat
