import AppChat.System.Effect

/-!
The user ids of a reachable state.

* `Frame`: a step that leaves the accounts, the signed-in users, the
  registrations and, but for the text, the chat logs alone; every step of a send
  and of a deletion is one.
* `IdsOk`: keys are not user ids, signed-in users have accounts, the partner of
  a chat log has a user record, and registrations store complete records under
  the id of their account. `IdsOk.step` shows that every step keeps it.
-/

namespace AppChat

/-- A chat log without the text of its text field. -/
def ChatLogmessage.eraseText (ch : ChatLogmessage) : ChatLogmessage := { ch with txtText := "" }

lemma ChatLogmessage.eraseText_inj {ch ch' : ChatLogmessage} (h : ch.eraseText = ch'.eraseText) :
    ch.device = ch'.device ∧ ch.partnerId = ch'.partnerId ∧ ch.user = ch'.user := by
  simp only [eraseText, ChatLogmessage.mk.injEq] at h
  exact ⟨h.1, h.2.1, h.2.2.2.1⟩

namespace World

/-! ### Steps that leave the accounts and the screens alone -/

/-- From `w` to `w'` no account, signed-in user or registration changes, and of
the chat logs only the text field. -/
structure Frame (w w' : World) : Prop where
  accounts : w'.accounts = w.accounts
  currentUid : w'.currentUid = w.currentUid
  signups : w'.signups = w.signups
  chats : ∀ c, (w'.chats c).map ChatLogmessage.eraseText = (w.chats c).map ChatLogmessage.eraseText

namespace Frame

variable {w w' : World}

lemma refl (w : World) : Frame w w := ⟨rfl, rfl, rfl, fun _ => rfl⟩

lemma setSend (h : Frame w w') (i : SendId) (s : Send) : Frame w (w'.setSend i s) :=
  ⟨h.accounts, h.currentUid, h.signups, h.chats⟩

lemma setDeletion (h : Frame w w') (x : DeletionId) (del : Deletion) :
    Frame w (w'.setDeletion x del) :=
  ⟨h.accounts, h.currentUid, h.signups, h.chats⟩

lemma store (h : Frame w w') (path : String) (m : Media) : Frame w (w'.store path m) :=
  ⟨h.accounts, h.currentUid, h.signups, h.chats⟩

lemma setDb (h : Frame w w') (db : Database) : Frame w { w' with db := db } :=
  ⟨h.accounts, h.currentUid, h.signups, h.chats⟩

lemma setKeys (h : Frame w w') (keys : List String) : Frame w { w' with keys := keys } :=
  ⟨h.accounts, h.currentUid, h.signups, h.chats⟩

/-- A device that stops keeps its signed-in user. -/
lemma crash (h : Frame w w') (d : DeviceId) : Frame w (w'.crash d) := by
  refine ⟨h.accounts, ?_, h.signups, h.chats⟩
  rw [← h.currentUid]
  funext e
  by_cases he : e = d
  · subst he
    simp [World.currentUid]
  · simp [World.currentUid, he]

/-- A new text in the text field leaves the partner alone. -/
lemma setTxtText (h : Frame w w') {c : ChatId} {ch : ChatLogmessage} (hc : w.chats c = some ch)
    (text : String) : Frame w (w'.setChat c { ch with txtText := text }) := by
  refine ⟨h.accounts, h.currentUid, h.signups, fun e => ?_⟩
  by_cases hec : e = c
  · subst hec
    simp [hc, ChatLogmessage.eraseText]
  · rw [← h.chats e, setChat_chats, Function.update_of_ne hec]

/-- A chat log was there before, with the same partner. -/
lemma chat_of (h : Frame w w') {c : ChatId} {ch' : ChatLogmessage} (hc : w'.chats c = some ch') :
    ∃ ch, w.chats c = some ch ∧ ch.device = ch'.device ∧ ch.partnerId = ch'.partnerId ∧
      ch.user = ch'.user := by
  have hmap := h.chats c
  rw [hc, Option.map_some, eq_comm, Option.map_eq_some_iff] at hmap
  obtain ⟨ch, hch, he⟩ := hmap
  exact ⟨ch, hch, ChatLogmessage.eraseText_inj he⟩

end Frame

lemma sendStep_frame {w w' : World} {a : SendAction} (h : w.sendStep a = some w') :
    Frame w w' := by
  have hw := Frame.refl w
  cases sendStep_moves h with
  | textStops i c key now ch hu => exact hw.crash _
  | text i c key now ch user hch hu hi hkey => exact (hw.setKeys _).setSend _ _
  | pickImage i c random image ch hch hi => exact hw.setSend _ _
  | pickVideo i c random movie ch hch hi => exact hw.setSend _ _
  | movieStored i s path movie stored hs hst => exact (hw.store _ _).setSend _ _
  | imageStored i s path image stored completion hs hst => exact (hw.store _ _).setSend _ _
  | putFileDone i ok s path movie stored hs hst => exact hw.setSend _ _
  | movieURLStops i url random s => exact hw.crash _
  | movieURLDone i url image random s ch path movie hs hst => exact hw.setSend _ _
  | putDataDone i ok s path image stored completion hs hst => exact hw.setSend _ _
  | imageURLFails i key now s path completion hs hst => exact hw.setSend _ _
  | imageStops i url key now s => exact hw.crash _
  | media i url key now s ch path completion b hs hst hch hu hkey hfrom hto =>
      exact (hw.setKeys _).setSend _ _
  | recordApplied i s b hs hst => exact (hw.setDb _).setSend _ _
  | recordFailed i s b hs hst => exact hw.setSend _ _
  | recordDone i s ch b f t hs hch hst hf ht => exact (hw.setTxtText hch "").setSend _ _
  | recordDoneStops i s ch hch => exact (hw.setTxtText hch "").crash _
  | videoDoneStops i s ch b f hs hch => exact ((hw.setTxtText hch "").setSend _ _).crash _
  | indexApplied i side s b f t st hs hst hside => exact (hw.setDb _).setSend _ _
  | indexFailed i side s b f t st hs hst hside => exact hw.setSend _ _

lemma deleteStep_frame {w w' : World} {a : DeleteAction} (h : w.deleteStep a = some w') :
    Frame w w' := by
  have hw := Frame.refl w
  rcases deleteStep_cases h with ⟨x, d, arrayMess, row, rfl, hw'⟩ | ⟨x, del, rfl, -, rfl⟩ |
    ⟨x, del, rfl, rfl⟩
  · rcases hw' with rfl | rfl | ⟨del, rfl⟩
    · exact hw
    · exact hw.crash d
    · exact hw.setDeletion x del
  · exact (hw.setDb _).setDeletion x _
  · exact hw.setDeletion x del

/-! ### Accounts stay -/

/-- A registration step adds at most one account, under a new id and a new e-mail. -/
lemma registerStep_accounts {w w' : World} {a : RegisterAction} (h : w.registerStep a = some w') :
    w'.accounts = w.accounts ∨ ∃ u, u.uid ∉ w.uids ∧ u.email ∉ w.accounts.map AuthUser.email ∧
      w'.accounts = u :: w.accounts := by
  cases registerStep_moves h with
  | createUserDone s uid g r hg hr hst huid hkey hemail =>
      exact Or.inr ⟨⟨uid, g.email⟩, huid, hemail, (createUserDone_frame w s g r uid).2.2.2.2⟩
  | _ => exact Or.inl rfl

/-- **A step adds at most one account**, under a new id and a new e-mail. -/
lemma step_accounts {w w' : World} {a : Action} (h : w.step a = some w') :
    w'.accounts = w.accounts ∨ ∃ u, u.uid ∉ w.uids ∧ u.email ∉ w.accounts.map AuthUser.email ∧
      w'.accounts = u :: w.accounts := by
  cases a with
  | auth a =>
      obtain ⟨devices, rfl⟩ := authStep_cases h
      exact Or.inl rfl
  | screen a =>
      obtain ⟨devices, chats, rfl⟩ := screenStep_cases h
      exact Or.inl rfl
  | send a => exact Or.inl (sendStep_frame h).accounts
  | delete a => exact Or.inl (deleteStep_frame h).accounts
  | register a => exact registerStep_accounts h

/-- **Accounts are never lost.** -/
lemma step_accounts_subset {w w' : World} {a : Action} (h : w.step a = some w') :
    w.accounts ⊆ w'.accounts := by
  rcases step_accounts h with he | ⟨u, -, -, he⟩
  · rw [he]
    exact List.Subset.refl _
  · rw [he]
    exact List.subset_cons_self _ _

lemma step_uids {w w' : World} {a : Action} (h : w.step a = some w') {uid : String}
    (hu : uid ∈ w.uids) : uid ∈ w'.uids :=
  List.map_subset _ (step_accounts_subset h) hu

/-! ### The invariant -/

/-- Who is who in a reachable state. -/
structure IdsOk (w : World) : Prop where
  key : ∀ k ∈ w.keys, k ∉ w.uids
  current : ∀ d uid, w.currentUid d = some uid → uid ∈ w.uids
  partner : ∀ c ch u, w.chats c = some ch → ch.user = some u →
    u.id = ch.partnerId ∧ UserRecord w.db u.id
  signup : ∀ s g uid, w.signups s = some g → g.stage.uid = some uid → uid ∈ w.uids
  record : ∀ s g uid user st, w.signups s = some g → g.stage = .setValue uid user st →
    ∃ url, user = g.record url
  leaf : ∀ id q v, ("user" :: id :: q, v) ∈ w.db.leaves → id ∈ w.uids

lemma idsOk_init : IdsOk init where
  key := by simp [init]
  current := by simp [init, currentUid]
  partner := by simp [init]
  signup := by simp [init]
  record := by simp [init]
  leaf := by simp [init]

/-- A record that a registration stores is a user record. -/
lemma userRecord_setValue (db : Database) (g : Signup) (uid url : String) :
    UserRecord (db.setValue ["user", uid] (g.record url)) uid := by
  have hnd : ((g.record url).map Prod.fst).Nodup := by simp [Signup.record]
  intro f hf
  obtain ⟨s, hs⟩ : ∃ s, (f, some (Value.str s)) ∈ g.record url := by
    simp only [List.mem_cons, List.not_mem_nil, or_false] at hf
    rcases hf with rfl | rfl | rfl | rfl <;> simp [Signup.record]
  exact ⟨s, PathTree.valueAt_eq_some_iff.mpr
    ((PathTree.mem_setValue hnd).mpr (Or.inl ⟨f, hs, rfl⟩))⟩

/-- What a step can do to the leaves below `user`. -/
lemma Effect.user_leaf {w w' : World} {ev : Option IndexEvent} (h : Effect w w' ev) :
    (∀ q v, ("user" :: q, v) ∈ w'.db.leaves ↔ ("user" :: q, v) ∈ w.db.leaves) ∨
      ∃ s g uid user st, w.signups s = some g ∧ g.stage = .setValue uid user st ∧
        w'.db = w.db.setValue ["user", uid] user := by
  cases h with
  | quiet hdb _ _ => exact Or.inl fun q v => by rw [hdb]
  | issue _ _ _ _ _ _ _ _ _ _ hdb _ _ => exact Or.inl fun q v => by rw [hdb]
  | recordFailed _ _ _ hdb _ _ => exact Or.inl fun q v => by rw [hdb]
  | recordDone _ _ _ _ _ _ _ _ _ hdb _ _ => exact Or.inl fun q v => by rw [hdb]
  | indexFailed _ _ _ _ _ _ _ _ hdb _ _ => exact Or.inl fun q v => by rw [hdb]
  | recordApplied _ b _ hdb _ _ =>
      refine Or.inl fun q v => ?_
      rw [hdb, PathTree.mem_updateChildValues_of_not_comparable (by simp)]
  | indexApplied _ b f t _ side _ _ hdb _ _ =>
      refine Or.inl fun q v => ?_
      obtain ⟨r, hr⟩ := b.table_eq_cons f t side
      rw [hdb, indexWrite, hr, PathTree.mem_updateChildValues_of_not_comparable (by simp)]
  | dropped u p hdb _ _ =>
      refine Or.inl fun q v => ?_
      rw [hdb, PathTree.mem_remove]
      simp
  | userApplied s g uid user hg hst hdb _ _ =>
      exact Or.inr ⟨s, g, uid, user, _, hg, hst, hdb⟩

namespace IdsOk

variable {w w' : World}

/-- A user record is the record of an account. -/
lemma mem_uids (hw : IdsOk w) {x : String} (hx : UserRecord w.db x) : x ∈ w.uids := by
  obtain ⟨s, hs⟩ := hx "email" (by simp)
  exact hw.leaf x ["email"] (.str s) (PathTree.valueAt_eq_some_iff.mp hs)

/-- A user record stays one. -/
lemma userRecord_mono (hw : IdsOk w) {ev : Option IndexEvent} (h : Effect w w' ev) {x : String}
    (hx : UserRecord w.db x) : UserRecord w'.db x := by
  rcases h.user_leaf with hleaf | ⟨s, g, uid, user, st, hg, hst, hdb⟩
  · intro f hf
    obtain ⟨v, hv⟩ := hx f hf
    rw [PathTree.valueAt_eq_some_iff] at hv
    exact ⟨v, PathTree.valueAt_eq_some_iff.mpr ((hleaf _ _).mpr hv)⟩
  · obtain ⟨url, rfl⟩ := hw.record s g uid user st hg hst
    rw [hdb]
    by_cases hxu : uid = x
    · exact hxu ▸ userRecord_setValue w.db g uid url
    · intro f hf
      obtain ⟨v, hv⟩ := hx f hf
      rw [PathTree.valueAt_eq_some_iff] at hv
      have hne : ¬ Comparable ["user", uid] ["user", x, f] := by simp [hxu]
      exact ⟨v, PathTree.valueAt_eq_some_iff.mpr
        ((PathTree.mem_setValue_of_not_comparable hne).mpr hv)⟩

/-- The ids below `user` are ids of accounts. -/
lemma leaf_mono (hw : IdsOk w) {ev : Option IndexEvent} (h : Effect w w' ev) {id : String}
    {q : List String} {v : Value} (hq : ("user" :: id :: q, v) ∈ w'.db.leaves) : id ∈ w.uids := by
  rcases h.user_leaf with hleaf | ⟨s, g, uid, user, st, hg, hst, hdb⟩
  · exact hw.leaf id q v ((hleaf _ _).mp hq)
  · by_cases hid : uid = id
    · exact hid ▸ hw.signup s g uid hg (by rw [hst]; rfl)
    · have hne : ¬ Comparable ["user", uid] ("user" :: id :: q) := by simp [hid]
      rw [hdb, PathTree.mem_setValue_of_not_comparable hne] at hq
      exact hw.leaf id q v hq

/-- New keys are not user ids. -/
lemma key_mono (hw : IdsOk w) {ev : Option IndexEvent} (h : Effect w w' ev) {k : String}
    (hk : k ∈ w'.keys) : k ∉ w.uids := by
  have old : w'.keys = w.keys → k ∉ w.uids := fun he => hw.key k (he ▸ hk)
  cases h with
  | issue _ b _ _ _ _ _ _ hfresh _ _ hkeys _ =>
      rw [hkeys, List.mem_cons] at hk
      rcases hk with rfl | hk
      · exact hfresh.2
      · exact hw.key k hk
  | quiet _ hkeys _ => exact old hkeys
  | recordApplied _ _ _ _ hkeys _ => exact old hkeys
  | recordFailed _ _ _ _ hkeys _ => exact old hkeys
  | recordDone _ _ _ _ _ _ _ _ _ _ hkeys _ => exact old hkeys
  | indexApplied _ _ _ _ _ _ _ _ _ hkeys _ => exact old hkeys
  | indexFailed _ _ _ _ _ _ _ _ _ hkeys _ => exact old hkeys
  | dropped _ _ _ hkeys _ => exact old hkeys
  | userApplied _ _ _ _ _ _ _ hkeys _ => exact old hkeys

/-- A step that leaves the accounts and the screens alone keeps the invariant. -/
lemma of_frame (hw : IdsOk w) {ev : Option IndexEvent} (h : Effect w w' ev) (hf : Frame w w') :
    IdsOk w' := by
  have huids : w'.uids = w.uids := by rw [uids, hf.accounts, uids]
  refine ⟨fun k hk => ?_, fun d uid hd => ?_, fun c ch' u hc hu => ?_, fun s g uid hg hst => ?_,
    fun s g uid user st hg hst => ?_, fun id q v hq => ?_⟩
  · exact huids ▸ hw.key_mono h hk
  · exact huids ▸ hw.current d uid (hf.currentUid ▸ hd)
  · obtain ⟨ch, hch, -, hp, hu'⟩ := hf.chat_of hc
    obtain ⟨h₁, h₂⟩ := hw.partner c ch u hch (hu' ▸ hu)
    exact ⟨hp ▸ h₁, hw.userRecord_mono h h₂⟩
  · exact huids ▸ hw.signup s g uid (hf.signups ▸ hg) hst
  · exact hw.record s g uid user st (hf.signups ▸ hg) hst
  · exact huids ▸ hw.leaf_mono h hq

/-! ### Signing in, choosing a partner, registering -/

lemma crash (hw : IdsOk w) (d : DeviceId) : IdsOk (w.crash d) := by
  have hf := (Frame.refl w).crash d
  exact ⟨hw.key, fun e uid he => hw.current e uid (hf.currentUid ▸ he), hw.partner, hw.signup,
    hw.record, hw.leaf⟩

lemma addAccount (hw : IdsOk w) {a : AuthUser} (ha : a.uid ∉ w.keys) :
    IdsOk { w with accounts := a :: w.accounts } := by
  have hsub : ∀ uid ∈ w.uids, uid ∈ ({ w with accounts := a :: w.accounts } : World).uids :=
    fun uid h => List.mem_cons_of_mem _ h
  refine ⟨fun k hk => ?_, fun d uid hd => hsub _ (hw.current d uid hd), hw.partner,
    fun s g uid hg hst => hsub _ (hw.signup s g uid hg hst), hw.record,
    fun id q v hq => hsub _ (hw.leaf id q v hq)⟩
  intro hku
  rcases List.mem_cons.mp hku with rfl | hku
  · exact ha hk
  · exact hw.key k hk hku

lemma setCurrentUser (hw : IdsOk w) (d : DeviceId) {u : Option AuthUser}
    (hu : ∀ a, u = some a → a.uid ∈ w.uids) : IdsOk (w.setCurrentUser d u) := by
  refine ⟨hw.key, fun e uid he => ?_, hw.partner, hw.signup, hw.record, hw.leaf⟩
  by_cases hed : e = d
  · subst hed
    obtain ⟨a, ha, rfl⟩ : ∃ a, u = some a ∧ a.uid = uid := by simpa [currentUid] using he
    exact hu a ha
  · exact hw.current e uid (by simpa [currentUid, hed] using he)

lemma setSignup (hw : IdsOk w) (s : SignupId) {g : Signup}
    (huid : ∀ uid, g.stage.uid = some uid → uid ∈ w.uids)
    (hrec : ∀ uid user st, g.stage = .setValue uid user st → ∃ url, user = g.record url) :
    IdsOk (w.setSignup s g) := by
  refine ⟨hw.key, hw.current, hw.partner, fun r g' uid hg hst => ?_,
    fun r g' uid user st hg hst => ?_, hw.leaf⟩
  · rcases Transition.update_eq_some hg with ⟨-, rfl⟩ | ⟨-, hg⟩
    · exact huid uid hst
    · exact hw.signup r g' uid hg hst
  · rcases Transition.update_eq_some hg with ⟨-, rfl⟩ | ⟨-, hg⟩
    · exact hrec uid user st hst
    · exact hw.record r g' uid user st hg hst

/-- A registration that ends, or stays where it is, keeps the invariant. -/
lemma setSignup_ended (hw : IdsOk w) (s : SignupId) (g : Signup) :
    IdsOk (w.setSignup s { g with stage := .ended }) :=
  hw.setSignup s (by simp [SignupStage.uid]) (by simp)

lemma setChat (hw : IdsOk w) (c : ChatId) {ch : ChatLogmessage}
    (hch : ∀ u, ch.user = some u → u.id = ch.partnerId ∧ UserRecord w.db u.id) :
    IdsOk (w.setChat c ch) := by
  refine ⟨hw.key, hw.current, fun e ch' u he hu => ?_, hw.signup, hw.record, hw.leaf⟩
  rcases Transition.update_eq_some he with ⟨-, rfl⟩ | ⟨-, he⟩
  · exact hch u hu
  · exact hw.partner e ch' u he hu

lemma setRegisters (hw : IdsOk w) (registers : RegisterId → Option Register) :
    IdsOk { w with registers := registers } :=
  ⟨hw.key, hw.current, hw.partner, hw.signup, hw.record, hw.leaf⟩

lemma setStorage (hw : IdsOk w) (storage : String → Option Media) :
    IdsOk { w with storage := storage } :=
  ⟨hw.key, hw.current, hw.partner, hw.signup, hw.record, hw.leaf⟩

lemma authStep (hw : IdsOk w) {a : AuthAction} (h : w.authStep a = some w') : IdsOk w' := by
  cases a with
  | signIn d a =>
      simp only [World.authStep, Option.ite_none_right_eq_some] at h
      obtain ⟨⟨-, ha⟩, h⟩ := h
      refine Option.some.inj h ▸ hw.setCurrentUser d fun b hb => ?_
      obtain rfl : a = b := Option.some.inj hb
      exact List.mem_map_of_mem ha
  | signOut d =>
      simp only [World.authStep, Option.ite_none_right_eq_some] at h
      exact Option.some.inj h.2 ▸ hw.setCurrentUser d (by simp)
  | kill d =>
      exact Option.some.inj h ▸ hw.crash d

lemma screenStep (hw : IdsOk w) {a : ScreenAction} (h : w.screenStep a = some w') : IdsOk w' := by
  cases a with
  | newmessageSelect c d id =>
      simp only [World.screenStep, Option.ite_none_right_eq_some] at h
      obtain ⟨-, h⟩ := h
      split at h
      · rename_i user hu
        refine Option.some.inj h ▸ hw.setChat c fun u hu' => ?_
        obtain rfl : user = u := Option.some.inj hu'
        obtain ⟨hrec, hid⟩ := newmessageUser_eq_ok hu
        exact ⟨hid, hid ▸ hrec⟩
      · exact Option.some.inj h ▸ hw.crash d
  | inboxSelect c d arrayMess row =>
      simp only [World.screenStep, Option.ite_none_right_eq_some] at h
      obtain ⟨-, h⟩ := h
      split at h
      · exact Option.some.inj h ▸ hw.setChat c (by simp)
      · exact Option.some.inj h ▸ hw.crash d
  | userValue c =>
      simp only [World.screenStep, Option.bind_eq_some_iff, Option.ite_none_right_eq_some] at h
      obtain ⟨ch, -, -, h⟩ := h
      split at h
      · rename_i user hu
        refine Option.some.inj h ▸ hw.setChat c fun u hu' => ?_
        obtain rfl : user = u := Option.some.inj hu'
        obtain ⟨hrec, hid⟩ := didSelectRowAtUser_eq_ok hu
        exact ⟨hid, hid ▸ hrec⟩
      · exact Option.some.inj h ▸ hw.crash ch.device
  | editText c text =>
      simp only [World.screenStep, Option.bind_eq_some_iff, Option.ite_none_right_eq_some] at h
      obtain ⟨ch, hch, -, h⟩ := h
      exact Option.some.inj h ▸ hw.setChat c fun u hu => hw.partner c ch u hch hu

/-- The answer to `createUser` adds an account and signs it in. -/
lemma createUserDone (hw : IdsOk w) (s : SignupId) (g : Signup) (r : Register) {uid : String}
    (huid : uid ∉ w.keys) : IdsOk (w.createUserDone s g r uid) := by
  have hacc := hw.addAccount (a := ⟨uid, g.email⟩) huid
  have hin := hacc.setCurrentUser r.device (u := some ⟨uid, g.email⟩) (by simp [uids])
  unfold World.createUserDone
  split_ifs
  · split
    · exact (hin.crash _).setSignup_ended s g
    · exact hin.setSignup s (by simp [SignupStage.uid, uids]) (by simp)
  · exact hacc.setSignup_ended s g

lemma registerStep (hw : IdsOk w) {a : RegisterAction} (h : w.registerStep a = some w') :
    IdsOk w' := by
  have heff := registerStep_effect h
  rcases registerStep_cases h with ⟨registers, rfl⟩ | ⟨s, g, storage, ⟨hg, -⟩, rfl⟩ |
    ⟨s, g, r, uid, huid, rfl⟩ | ⟨s, g, uid, user, hg, hst, rfl⟩
  · exact hw.setRegisters registers
  · refine (hw.setStorage storage).setSignup s (fun uid hu => ?_) fun uid user st hset => ?_
    · obtain ⟨g₀, hg₀, hu₀, -⟩ := hg uid hu
      exact hw.signup s g₀ uid hg₀ hu₀
    · obtain ⟨g₀, hg₀, -, hrec⟩ := hg uid (by rw [hset]; rfl)
      rcases hrec user st hset with hurl | ⟨st₀, hst₀, he⟩
      · exact hurl
      · exact he ▸ hw.record s g₀ uid user st₀ hg₀ hst₀
  · exact hw.createUserDone s g r huid
  · have hdb : IdsOk { w with db := w.db.setValue ["user", uid] user } :=
      ⟨hw.key, hw.current, fun c ch u hc hu => ⟨(hw.partner c ch u hc hu).1,
        hw.userRecord_mono heff (hw.partner c ch u hc hu).2⟩, hw.signup, hw.record,
        fun id q v hq => hw.leaf_mono heff hq⟩
    refine hdb.setSignup s (fun uid' hu => ?_) fun uid' user' st hset => ?_
    · exact hw.signup s g uid' hg (by rw [hst]; exact hu)
    · obtain ⟨-, rfl, -⟩ : _ ∧ _ ∧ _ := by simpa using hset
      exact hw.record s g uid user _ hg hst

/-- **Every step keeps the user ids in order.** -/
theorem step (hw : IdsOk w) {a : Action} (h : w.step a = some w') : IdsOk w' := by
  have heff := step_effect h
  cases a with
  | auth a => exact hw.authStep h
  | register a => exact hw.registerStep h
  | screen a => exact hw.screenStep h
  | send a => exact hw.of_frame heff (sendStep_frame h)
  | delete a => exact hw.of_frame heff (deleteStep_frame h)

end IdsOk

end World

end AppChat
