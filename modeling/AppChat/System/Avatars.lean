import AppChat.System.Media

/-!
Under which path the avatar of an account is stored.

`handleregister` captures the e-mail when the button is tapped, creates the
account and later stores the record with it, but the block in between takes the
path of the avatar from the text field.

* `avatarUploads`, `avatarObjects`, `avatarLinks`: the avatars a run begins to
  upload, those that reach the storage, and the download URLs that are answered.
* `AvatarsKnown`: every object is one of the uploads, of which an account has one,
  and the `Avtar_url` of a record was answered for the upload of its account.
  Every step keeps this, `AvatarsKnown.step`.
* `OwnAvatars`: the avatar of every account is stored under its own e-mail, and no
  other registration writes over it.
* `ownAvatars_iff`: this holds of a run exactly when the text field holds the
  e-mail of the account whenever an upload begins, and the e-mails of accounts
  with avatars differ in more than slashes.
-/

namespace AppChat

open SlashPath Transition

/-- The avatar that is uploaded: the user id, the path and the content. -/
def SignupStage.avatar : SignupStage → Option (String × String × Media)
  | .putData uid path image _ => some (uid, path, image)
  | _ => none

lemma SignupStage.avatar_eq_some {st : SignupStage} {u : String × String × Media} :
    st.avatar = some u ↔ ∃ stored, st = .putData u.1 u.2.1 u.2.2 stored := by
  obtain ⟨uid, path, image⟩ := u
  cases st <;> simp [SignupStage.avatar]

namespace World

/-! ### The events of the avatars -/

/-- The answer to `createUser` begins the upload of an avatar. -/
def avatarUploadEvent (w : World) : Action → Option (String × String × Media)
  | .register (.createUserDone s uid) =>
      (w.registerStep (.createUserDone s uid)).bind fun w' =>
        (w'.signups s).bind fun g => g.stage.avatar
  | _ => none

/-- An avatar reaches the storage. -/
def avatarObjectEvent (w : World) : Action → Option (String × String × Media)
  | .register (.avatarStored s) => (w.signups s).bind fun g => g.stage.avatar
  | _ => none

/-- A download URL is answered: the user id, the path of the object and the URL. -/
def avatarLinkEvent (w : World) : Action → Option (String × String × String)
  | .register (.downloadURLDone s (some url)) =>
      (w.signups s).bind fun g =>
        match g.stage with
        | .downloadURL uid path => some (uid, path, url)
        | _ => none
  | _ => none

/-- The avatars whose upload the run begins. -/
def avatarUploads (as : List Action) : List (String × String × Media) :=
  trace step avatarUploadEvent init as

/-- The avatars that reach the storage in the run. -/
def avatarObjects (as : List Action) : List (String × String × Media) :=
  trace step avatarObjectEvent init as

/-- The download URLs of avatars that are answered in the run. -/
def avatarLinks (as : List Action) : List (String × String × String) :=
  trace step avatarLinkEvent init as

variable {w w' : World} {as bs : List Action}

/-- The stage of a registration after the answer to `createUser`. -/
def avatarStage (w : World) (r : Register) (uid : String) : SignupStage :=
  if (w.devices r.device).running then
    match r.imagedata with
    | none => .ended
    | some image => .putData uid (avatarPath r.txtemail) image false
  else .ended

lemma createUserDone_signups (w : World) (s : SignupId) (g : Signup) (r : Register)
    (uid : String) : (w.createUserDone s g r uid).signups =
      Function.update w.signups s (some { g with stage := w.avatarStage r uid }) := by
  unfold createUserDone avatarStage
  split_ifs
  · cases r.imagedata <;> rfl
  · rfl

/-- An upload begins when the app still runs and has an avatar. -/
lemma avatarStage_cases (w : World) (r : Register) (uid : String) :
    w.avatarStage r uid = .ended ∨ ∃ image, (w.devices r.device).running = true ∧
      r.imagedata = some image ∧
        w.avatarStage r uid = .putData uid (avatarPath r.txtemail) image false := by
  unfold avatarStage
  split_ifs with hrun
  · cases hdata : r.imagedata with
    | none => exact Or.inl rfl
    | some image => exact Or.inr ⟨image, hrun, rfl, rfl⟩
  · exact Or.inl rfl

lemma avatarStage_eq_putData {r : Register} {image : Media}
    (hrun : (w.devices r.device).running = true) (himage : r.imagedata = some image)
    (uid : String) : w.avatarStage r uid = .putData uid (avatarPath r.txtemail) image false := by
  rw [avatarStage, if_pos hrun, himage]

/-- The upload that the answer to `createUser` begins. -/
lemma avatarUploadEvent_createUserDone {s : SignupId} {uid : String} {g : Signup} {r : Register}
    (h : w.registerStep (.createUserDone s (some uid)) = some (w.createUserDone s g r uid)) :
    w.avatarUploadEvent (.register (.createUserDone s (some uid))) =
      (w.avatarStage r uid).avatar := by
  simp [avatarUploadEvent, h, createUserDone_signups]

/-- **Where an upload begins**: at the answer to `createUser`, for a new account,
and under the e-mail that is in the text field. -/
lemma avatarUploadEvent_cases {a : Action} {u : String × String × Media}
    (h : w.step a = some w') (hu : w.avatarUploadEvent a = some u) :
    ∃ s g r uid, a = .register (.createUserDone s (some uid)) ∧ w.signups s = some g ∧
      w.registers g.screen = some r ∧ uid ∉ w.uids ∧ w'.accounts = ⟨uid, g.email⟩ :: w.accounts ∧
        (w.devices r.device).running = true ∧
          ∃ image, r.imagedata = some image ∧ u = (uid, avatarPath r.txtemail, image) := by
  cases a with
  | register a =>
      have hstep : w.registerStep a = some w' := h
      cases registerStep_moves hstep with
      | createUserDone s uid g r hg hr hst huid hkey hemail =>
          rw [avatarUploadEvent_createUserDone hstep] at hu
          rcases w.avatarStage_cases r uid with hstage | ⟨image, hrun, himage, hstage⟩
          · rw [hstage] at hu
            cases hu
          · rw [hstage] at hu
            exact ⟨s, g, r, uid, rfl, hg, hr, huid, (createUserDone_frame w s g r uid).2.2.2.2,
              hrun, image, himage, (Option.some.inj hu).symm⟩
      | createUserFails s g hg hst => simp [avatarUploadEvent, hstep, SignupStage.avatar] at hu
      | _ => cases hu
  | _ => cases hu

/-! ### What is known of the avatars -/

/-- The URL was answered for the upload of the account. -/
def LinkedAvatar (as : List Action) (uid url : String) : Prop :=
  ∃ path image, (uid, path, image) ∈ avatarUploads as ∧ (uid, path, url) ∈ avatarLinks as

/-- What the stage of a registration knows of its avatar. -/
def StageAvatar (as : List Action) : SignupStage → Prop
  | .putData uid path image _ => (uid, path, image) ∈ avatarUploads as
  | .downloadURL uid path => ∃ image, (uid, path, image) ∈ avatarUploads as
  | .setValue uid user _ =>
      ∀ url, ("Avtar_url", some (.str url)) ∈ user → LinkedAvatar as uid url
  | _ => True

/-- The avatars of a run. -/
structure AvatarsKnown (as : List Action) (w : World) : Prop where
  account : ∀ u ∈ avatarUploads as, u.1 ∈ w.uids
  once : ∀ u ∈ avatarUploads as, ∀ u' ∈ avatarUploads as, u.1 = u'.1 → u = u'
  path : ∀ u ∈ avatarUploads as, ∃ email, u.2.1 = avatarPath email
  object : avatarObjects as ⊆ avatarUploads as
  stage : ∀ s g, w.signups s = some g → StageAvatar as g.stage
  record : ∀ uid url, w.db.valueAt ["user", uid, "Avtar_url"] = some (.str url) →
    LinkedAvatar as uid url
  storage : EventLog.Holds (fun o => standardized o.2.1) (fun o => o.2.2) (avatarObjects as)
    w.storage

/-- The avatars of `bs` go on from those of `as`. -/
structure AvatarsGrow (as bs : List Action) : Prop where
  uploads : avatarUploads as ⊆ avatarUploads bs
  objects : avatarObjects as ⊆ avatarObjects bs
  links : avatarLinks as ⊆ avatarLinks bs

lemma avatarsGrow_concat (h : Runs as w) (a : Action) : AvatarsGrow as (as ++ [a]) :=
  ⟨trace_subset_concat a h, trace_subset_concat a h, trace_subset_concat a h⟩

namespace AvatarsGrow

lemma linkedAvatar (hg : AvatarsGrow as bs) {uid url : String} (h : LinkedAvatar as uid url) :
    LinkedAvatar bs uid url := by
  obtain ⟨path, image, hupload, hlink⟩ := h
  exact ⟨path, image, hg.uploads hupload, hg.links hlink⟩

/-- What a stage knows stays true. -/
lemma stageAvatar (hg : AvatarsGrow as bs) {st : SignupStage} (h : StageAvatar as st) :
    StageAvatar bs st := by
  cases st with
  | createUser => trivial
  | putData uid path image stored => exact hg.uploads h
  | downloadURL uid path =>
      obtain ⟨image, hupload⟩ := h
      exact ⟨image, hg.uploads hupload⟩
  | setValue uid user st => exact fun url hurl => hg.linkedAvatar (h url hurl)
  | ended => trivial

end AvatarsGrow

namespace AvatarsKnown

/-- What the stage of a registration knows. -/
lemma stage_of (hw : AvatarsKnown as w) {s : SignupId} {g : Signup} {st : SignupStage}
    (hg : w.signups s = some g) (hst : g.stage = st) : StageAvatar as st :=
  hst ▸ hw.stage s g hg

/-- A step that starts a registration, or moves it on, to a stage that knows
enough. -/
lemma stage_of_update (hw : AvatarsKnown as w) (hgrow : AvatarsGrow as bs) {s : SignupId}
    {g : Signup} (hsignups : w'.signups = Function.update w.signups s (some g))
    (hs : StageAvatar bs g.stage) {s' : SignupId} {g' : Signup} (hs' : w'.signups s' = some g') :
    StageAvatar bs g'.stage := by
  rcases update_eq_some (hsignups ▸ hs') with ⟨rfl, rfl⟩ | ⟨-, hs'⟩
  · exact hs
  · exact hgrow.stageAvatar (hw.stage s' g' hs')

/-- **The step of a registration keeps what the stages know.** -/
lemma registerStep_stage (hw : AvatarsKnown as w) (hr : Runs as w) {a : RegisterAction}
    (h : w.registerStep a = some w') {s' : SignupId} {g' : Signup} (hs' : w'.signups s' = some g') :
    StageAvatar (as ++ [.register a]) g'.stage := by
  have hgrow := avatarsGrow_concat hr (.register a)
  cases registerStep_moves h with
  | appear r d imagedata => exact hgrow.stageAvatar (hw.stage s' g' hs')
  | edit r email pass name reg hreg => exact hgrow.stageAvatar (hw.stage s' g' hs')
  | pickImage r image reg hreg => exact hgrow.stageAvatar (hw.stage s' g' hs')
  | handleregister s r reg hreg hs =>
      refine hw.stage_of_update hgrow rfl ?_ hs'
      trivial
  | createUserDone s uid g r hg hreg hst huid hkey hemail =>
      refine hw.stage_of_update hgrow (createUserDone_signups w s g r uid) ?_ hs'
      have hevent := avatarUploadEvent_createUserDone h
      show StageAvatar _ (w.avatarStage r uid)
      rcases w.avatarStage_cases r uid with hstage | ⟨image, -, -, hstage⟩
      · rw [hstage]
        trivial
      · rw [hstage] at hevent ⊢
        exact (mem_trace_concat hr).mpr (Or.inr hevent)
  | createUserFails s g hg hst =>
      refine hw.stage_of_update hgrow rfl ?_ hs'
      trivial
  | avatarStored s g uid path image stored hg hst =>
      refine hw.stage_of_update hgrow rfl ?_ hs'
      exact hgrow.uploads (hw.stage_of hg hst)
  | putDataDone s ok g uid path image stored hg hst hok =>
      refine hw.stage_of_update hgrow rfl ?_ hs'
      cases ok with
      | true => exact ⟨image, hgrow.uploads (hw.stage_of hg hst)⟩
      | false => trivial
  | downloadURLDone s url g uid path hg hst =>
      obtain ⟨image, hupload⟩ := hw.stage_of hg hst
      have hlink : w.avatarLinkEvent (.register (.downloadURLDone s (some url))) =
          some (uid, path, url) := by
        simp [avatarLinkEvent, hg, hst]
      refine hw.stage_of_update hgrow rfl ?_ hs'
      intro url' hurl
      obtain rfl : url' = url := by simpa [Signup.record] using hurl
      exact ⟨path, image, hgrow.uploads hupload, (mem_trace_concat hr).mpr (Or.inr hlink)⟩
  | downloadURLFails s g uid path hg hst =>
      refine hw.stage_of_update hgrow rfl ?_ hs'
      trivial
  | userApplied s g uid user hg hst =>
      have hstage := hw.stage_of hg hst
      refine hw.stage_of_update hgrow rfl ?_ hs'
      exact fun url hurl => hgrow.linkedAvatar (hstage url hurl)
  | userFailed s g uid user hg hst =>
      have hstage := hw.stage_of hg hst
      refine hw.stage_of_update hgrow rfl ?_ hs'
      exact fun url hurl => hgrow.linkedAvatar (hstage url hurl)

/-- What reaches the storage was being uploaded. -/
lemma mem_of_avatarObjectEvent (hw : AvatarsKnown as w) {a : Action}
    {o : String × String × Media} (ho : w.avatarObjectEvent a = some o) :
    o ∈ avatarUploads as := by
  match a, ho with
  | .register (.avatarStored s), ho =>
      obtain ⟨g, hg, hst⟩ := Option.bind_eq_some_iff.mp ho
      obtain ⟨stored, hst⟩ := SignupStage.avatar_eq_some.mp hst
      exact hw.stage_of hg hst

/-- An account begins one upload, when it is created. -/
lemma step_once (hw : AvatarsKnown as w) (hr : Runs as w) {a : Action} (h : w.step a = some w') :
    ∀ u ∈ avatarUploads (as ++ [a]), ∀ u' ∈ avatarUploads (as ++ [a]), u.1 = u'.1 → u = u' := by
  -- an upload that begins now is for an account that had none
  have new : ∀ u ∈ avatarUploads as, ∀ u', w.avatarUploadEvent a = some u' → u.1 ≠ u'.1 := by
    intro u hu u' hu' hid
    obtain ⟨s, g, r, uid, -, -, -, huid, -, -, image, -, rfl⟩ := avatarUploadEvent_cases h hu'
    obtain rfl : u.1 = uid := hid
    exact huid (hw.account u hu)
  intro u hu u' hu' hid
  rcases (mem_trace_concat hr).mp hu with hu | hu <;>
    rcases (mem_trace_concat hr).mp hu' with hu' | hu'
  · exact hw.once u hu u' hu' hid
  · exact absurd hid (new u hu u' hu')
  · exact absurd hid.symm (new u' hu' u hu)
  · exact Option.some.inj (hu.symm.trans hu')

/-- The record of an account is stored with the URL of its avatar. -/
lemma step_record (hw : AvatarsKnown as w) (hr : Runs as w) {a : Action} (h : w.step a = some w')
    {uid url : String} (hurl : w'.db.valueAt ["user", uid, "Avtar_url"] = some (.str url)) :
    LinkedAvatar as uid url := by
  have hleaf := PathTree.valueAt_eq_some_iff.mp hurl
  rcases (step_effect h).user_leaf with hsame | ⟨s, g, uid', user, st, hg, hst, hdb⟩
  · exact hw.record uid url (PathTree.valueAt_eq_some_iff.mpr ((hsame _ _).mp hleaf))
  · obtain ⟨url', rfl⟩ := hr.consistent.ids.record s g uid' user st hg hst
    have hnd : ((g.record url').map Prod.fst).Nodup := by simp [Signup.record]
    rw [hdb, PathTree.mem_setValue hnd] at hleaf
    rcases hleaf with ⟨k, hk, hpath⟩ | ⟨hold, -⟩
    · obtain ⟨rfl, rfl⟩ : uid = uid' ∧ "Avtar_url" = k := by simpa using hpath
      exact hw.stage_of hg hst url hk
    · exact hw.record uid url (PathTree.valueAt_eq_some_iff.mpr hold)

end AvatarsKnown

/-- **What a step does at the path of an avatar**: nothing, or an avatar reaches the
storage. -/
lemma MediaOk.step_avatarStorage (hm : MediaOk as w) {a : Action} (h : w.step a = some w')
    (email : String) :
    (w.avatarObjectEvent a = none ∧ w'.storage (standardized (avatarPath email)) =
      w.storage (standardized (avatarPath email))) ∨
    ∃ o, w.avatarObjectEvent a = some o ∧
      w'.storage = Function.update w.storage (standardized o.2.1) (some o.2.2) := by
  cases a with
  | auth a =>
      obtain ⟨devices, rfl⟩ := authStep_cases h
      exact Or.inl ⟨rfl, rfl⟩
  | screen a =>
      obtain ⟨devices, chats, rfl⟩ := screenStep_cases h
      exact Or.inl ⟨rfl, rfl⟩
  | delete a =>
      obtain ⟨-, -, hstorage⟩ := deleteStep_leaves h
      exact Or.inl ⟨rfl, by rw [hstorage]⟩
  | send a =>
      refine Or.inl ⟨rfl, ?_⟩
      rcases hm.sendStep_storage h with ⟨-, hstorage⟩ | ⟨i, path, content, -, ⟨d, -, rfl⟩, hstorage⟩
      · rw [hstorage]
      · rw [hstorage, Function.update_of_ne (standardized_avatarPath_ne email d)]
  | register a =>
      cases registerStep_moves h with
      | createUserDone s uid g r hg hr hst huid hkey hemail =>
          exact Or.inl ⟨rfl, by rw [(createUserDone_avatar hm.avatars s g r uid).2]⟩
      | avatarStored s g uid path image stored hg hst =>
          have hevent : w.avatarObjectEvent (.register (.avatarStored s)) =
              some (uid, path, image) := by
            simp [avatarObjectEvent, hg, hst, SignupStage.avatar]
          exact Or.inr ⟨_, hevent, rfl⟩
      | _ => exact Or.inl ⟨rfl, rfl⟩

/-- What the storage holds at the paths of the avatars after a step. -/
lemma AvatarsKnown.step_storage (hw : AvatarsKnown as w) (hr : Runs as w) {a : Action}
    (h : w.step a = some w') : EventLog.Holds (fun o => standardized o.2.1) (fun o => o.2.2)
      (avatarObjects (as ++ [a])) w'.storage := by
  rw [avatarObjects, trace_concat hr]
  refine hw.storage.concat _ (fun hnone o ho => ?_) fun o ho => ?_
  · obtain ⟨email, hemail⟩ := hw.path o (hw.object ho)
    rcases hr.mediaOk.step_avatarStorage h email with ⟨-, hsame⟩ | ⟨o', ho', -⟩
    · rw [hemail, hsame]
    · rw [ho'] at hnone
      cases hnone
  · obtain ⟨email, hemail⟩ := hw.path o (hw.mem_of_avatarObjectEvent ho)
    rcases hr.mediaOk.step_avatarStorage h email with ⟨hnone, -⟩ | ⟨o', ho', hstorage⟩
    · rw [hnone] at ho
      cases ho
    · obtain rfl : o = o' := Option.some.inj (ho.symm.trans ho')
      exact hstorage

/-- **Every step keeps the avatars known.** -/
lemma AvatarsKnown.step (hw : AvatarsKnown as w) (hr : Runs as w) {a : Action}
    (h : w.step a = some w') : AvatarsKnown (as ++ [a]) w' := by
  have hgrow := avatarsGrow_concat hr a
  refine ⟨fun u hu => ?_, hw.step_once hr h, fun u hu => ?_, fun o ho => ?_, fun s g hs => ?_,
    fun uid url hurl => hgrow.linkedAvatar (hw.step_record hr h hurl), hw.step_storage hr h⟩
  · rcases (mem_trace_concat hr).mp hu with hu | hu
    · exact step_uids h (hw.account u hu)
    · obtain ⟨s, g, r, uid, -, -, -, -, haccounts, -, image, -, rfl⟩ :=
        avatarUploadEvent_cases h hu
      simp [uids, haccounts]
  · rcases (mem_trace_concat hr).mp hu with hu | hu
    · exact hw.path u hu
    · obtain ⟨s, g, r, uid, -, -, -, -, -, -, image, -, rfl⟩ := avatarUploadEvent_cases h hu
      exact ⟨_, rfl⟩
  · rcases (mem_trace_concat hr).mp ho with ho | ho
    · exact hgrow.uploads (hw.object ho)
    · exact hgrow.uploads (hw.mem_of_avatarObjectEvent ho)
  · cases a with
    | auth a =>
        obtain ⟨devices, rfl⟩ := authStep_cases h
        exact hgrow.stageAvatar (hw.stage s g hs)
    | screen a =>
        obtain ⟨devices, chats, rfl⟩ := screenStep_cases h
        exact hgrow.stageAvatar (hw.stage s g hs)
    | send a => exact hgrow.stageAvatar (hw.stage s g ((sendStep_frame h).signups ▸ hs))
    | delete a => exact hgrow.stageAvatar (hw.stage s g ((deleteStep_frame h).signups ▸ hs))
    | register a => exact hw.registerStep_stage hr h hs

lemma Runs.avatarsKnown (h : Runs as w) : AvatarsKnown as w := by
  refine run_induction ?_ (fun as v a v' hv ih hstep => ih.step hv hstep) h
  constructor <;> simp [avatarUploads, avatarObjects, trace, init, PathTree.valueAt_eq_some_iff]

/-- Accounts have different ids and different e-mails. -/
lemma Runs.accounts_nodup (h : Runs as w) :
    w.uids.Nodup ∧ (w.accounts.map AuthUser.email).Nodup := by
  refine run_invariant (I := fun w => w.uids.Nodup ∧ (w.accounts.map AuthUser.email).Nodup)
    ?_ ⟨List.nodup_nil, List.nodup_nil⟩ h
  rintro w a w' ⟨huid, hemail⟩ hstep
  rw [uids] at huid ⊢
  rcases step_accounts hstep with hsame | ⟨u, hu, he, haccounts⟩
  · rw [hsame]
    exact ⟨huid, hemail⟩
  · rw [haccounts]
    exact ⟨List.nodup_cons.mpr ⟨hu, huid⟩, List.nodup_cons.mpr ⟨he, hemail⟩⟩

/-- An account is told by its id. -/
lemma Runs.account_eq (h : Runs as w) {a a' : AuthUser} (ha : a ∈ w.accounts)
    (ha' : a' ∈ w.accounts) (hid : a.uid = a'.uid) : a = a' :=
  List.inj_on_of_nodup_map h.accounts_nodup.1 ha ha' hid

/-- An account is told by its e-mail. -/
lemma Runs.account_eq_of_email (h : Runs as w) {a a' : AuthUser} (ha : a ∈ w.accounts)
    (ha' : a' ∈ w.accounts) (hemail : a.email = a'.email) : a = a' :=
  List.inj_on_of_nodup_map h.accounts_nodup.2 ha ha' hemail

/-! ### The avatar of an account -/

/-- The avatar of every account is uploaded under its own e-mail, and the
`Avtar_url` of its record is the URL of that object; registrations of distinct
e-mails never write the same object, so the storage keeps the avatar of each. -/
structure OwnAvatars (as : List Action) (w : World) : Prop where
  uploaded : ∀ a ∈ w.accounts, ∀ path image, (a.uid, path, image) ∈ avatarUploads as →
    path = avatarPath a.email
  recorded : ∀ a ∈ w.accounts, ∀ url,
    w.db.valueAt ["user", a.uid, "Avtar_url"] = some (.str url) →
      (a.uid, avatarPath a.email, url) ∈ avatarLinks as
  apart : ∀ a ∈ w.accounts, ∀ a' ∈ w.accounts, a.email ≠ a'.email → ∀ path image path' image',
    (a.uid, path, image) ∈ avatarObjects as → (a'.uid, path', image') ∈ avatarObjects as →
      standardized path ≠ standardized path'
  kept : ∀ uid path image, (uid, path, image) ∈ avatarObjects as →
    w.storage (standardized path) = some image

/-- The registration whose account has been created. -/
def createdSignup : Action → Option SignupId
  | .register (.createUserDone s (some _)) => some s
  | _ => none

/-- When the account of a registration is created and its avatar is uploaded, the
text field holds the e-mail that was captured. -/
def FieldKept (w : World) (a : Action) : Prop :=
  ∀ s ∈ createdSignup a, ∀ g ∈ w.signups s, ∀ r ∈ w.registers g.screen,
    (w.devices r.device).running = true → r.imagedata ≠ none → r.txtemail = g.email

instance (w : World) (a : Action) : Decidable (w.FieldKept a) :=
  inferInstanceAs (Decidable (∀ s ∈ createdSignup a, ∀ g ∈ w.signups s,
    ∀ r ∈ w.registers g.screen,
      (w.devices r.device).running = true → r.imagedata ≠ none → r.txtemail = g.email))

/-- The avatar of the account has reached the storage. -/
def HasAvatar (as : List Action) (uid : String) : Prop :=
  ∃ path image, (uid, path, image) ∈ avatarObjects as

/-- The names of the files of two accounts with avatars are told apart by their
parts between slashes. -/
def EmailsApart (as : List Action) (w : World) : Prop :=
  ∀ a ∈ w.accounts, ∀ a' ∈ w.accounts, a.email ≠ a'.email → HasAvatar as a.uid →
    HasAvatar as a'.uid → components (a.email ++ ".jpg") ≠ components (a'.email ++ ".jpg")

lemma avatarPath_inj {e e' : String} : avatarPath e = avatarPath e' ↔ e = e' :=
  (String.append_left_inj ".jpg").trans (String.append_right_inj "Image_Avatar:/")

/-- Two avatars have the same path when their file names do. -/
lemma standardized_avatarPath {e e' : String} :
    standardized (avatarPath e) = standardized (avatarPath e') ↔
      components (e ++ ".jpg") = components (e' ++ ".jpg") := by
  have hpath : ∀ e, components (avatarPath e) =
      components "Image_Avatar:" ++ components (e ++ ".jpg") := fun e => by
    rw [avatarPath_eq]
    exact components_append_slash "Image_Avatar:" (e ++ ".jpg")
  rw [standardized_eq_iff, hpath, hpath, List.append_cancel_left_eq]

/-- Where the text fields were kept, every avatar was uploaded under the e-mail of
its account. -/
lemma Runs.uploaded (h : Runs as w) (hf : Meets World.step FieldKept init as) :
    ∀ u ∈ avatarUploads as, ∃ a ∈ w.accounts, a.uid = u.1 ∧ u.2.1 = avatarPath a.email := by
  refine run_induction (I := fun as w => Meets World.step FieldKept init as →
    ∀ u ∈ avatarUploads as, ∃ a ∈ w.accounts, a.uid = u.1 ∧ u.2.1 = avatarPath a.email) ?_ ?_ h hf
  · intro _ u hu
    cases hu
  · intro as v a v' hv ih hstep hf u hu
    rcases (mem_trace_concat hv).mp hu with hu | hu
    · obtain ⟨b, hb, hid, hpath⟩ := ih (hf.of_prefix (List.prefix_append as [a])) u hu
      exact ⟨b, step_accounts_subset hstep hb, hid, hpath⟩
    · obtain ⟨s, g, r, uid, rfl, hg, hr, -, haccounts, hrun, image, himage, rfl⟩ :=
        avatarUploadEvent_cases hstep hu
      have hkept := meets_iff.mp hf as _ [] v rfl hv s rfl g hg r hr hrun (by simp [himage])
      exact ⟨⟨uid, g.email⟩, by simp [haccounts], rfl, by rw [hkept]⟩

/-- Accounts are never lost in a run. -/
lemma run_accounts {a : AuthUser} (h : run World.step w as = some w') (ha : a ∈ w.accounts) :
    a ∈ w'.accounts :=
  run_invariant (I := fun w => a ∈ w.accounts)
    (fun _ _ _ ha hstep => step_accounts_subset hstep ha) ha h

/-- Where every avatar was uploaded under the e-mail of its account, the text
fields were kept. -/
lemma OwnAvatars.fieldKept (ho : OwnAvatars as w) (h : Runs as w) :
    Meets World.step FieldKept init as := by
  refine meets_iff.mpr fun bs a cs v has hv s hs g hg r hr hrun hdata => ?_
  subst has
  obtain ⟨v₀, hv₀, hrest⟩ := run_append_eq_some.mp h
  obtain rfl : v = v₀ := Option.some.inj (hv.symm.trans hv₀)
  obtain ⟨v', hstep, hw⟩ := run_cons_eq_some.mp hrest
  obtain ⟨uid, rfl⟩ : ∃ uid, a = .register (.createUserDone s (some uid)) := by
    match a, hs with
    | .register (.createUserDone s (some uid)), rfl => exact ⟨uid, rfl⟩
  obtain ⟨image, himage⟩ := Option.ne_none_iff_exists'.mp hdata
  have hstep : v.registerStep (.createUserDone s (some uid)) = some v' := hstep
  cases registerStep_moves hstep with
  | createUserDone s uid g' r' hg' hr' hst huid hkey hemail =>
      obtain rfl : g = g' := Option.some.inj (hg.symm.trans hg')
      obtain rfl : r = r' := Option.some.inj (hr.symm.trans hr')
      -- the account and its upload are there from this step on
      have hevent : v.avatarUploadEvent (.register (.createUserDone s (some uid))) =
          some (uid, avatarPath r.txtemail, image) := by
        rw [avatarUploadEvent_createUserDone hstep, avatarStage_eq_putData hrun himage]
        rfl
      have haccount : ⟨uid, g.email⟩ ∈ w.accounts := by
        refine run_accounts hw ?_
        rw [(createUserDone_frame v s g r uid).2.2.2.2]
        exact List.mem_cons_self
      have hpath := ho.uploaded _ haccount _ image (mem_trace_of_split cs hv hevent)
      exact avatarPath_inj.mp hpath

/-- **When an avatar is stored under its user's own e-mail**: in every run, if and
only if the text field still holds the captured e-mail whenever the upload of an
avatar begins, and no two accounts with avatars have e-mails that are the same but
for slashes. -/
theorem ownAvatars_iff (h : Runs as w) :
    OwnAvatars as w ↔ Meets World.step FieldKept init as ∧ EmailsApart as w := by
  have hknown := h.avatarsKnown
  constructor
  · intro ho
    refine ⟨ho.fieldKept h, fun a ha a' ha' hne hobject hobject' => ?_⟩
    obtain ⟨path, image, hobject⟩ := hobject
    obtain ⟨path', image', hobject'⟩ := hobject'
    have hapart := ho.apart a ha a' ha' hne path image path' image' hobject hobject'
    rw [ho.uploaded a ha path image (hknown.object hobject),
      ho.uploaded a' ha' path' image' (hknown.object hobject')] at hapart
    exact fun heq => hapart (standardized_avatarPath.mpr heq)
  · rintro ⟨hfield, hemails⟩
    have huploaded : ∀ a ∈ w.accounts, ∀ path image, (a.uid, path, image) ∈ avatarUploads as →
        path = avatarPath a.email := by
      intro a ha path image hupload
      obtain ⟨b, hb, hid, hpath⟩ := h.uploaded hfield _ hupload
      obtain rfl : b = a := h.account_eq hb ha hid
      exact hpath
    have hapart : ∀ a ∈ w.accounts, ∀ a' ∈ w.accounts, a.email ≠ a'.email →
        ∀ path image path' image', (a.uid, path, image) ∈ avatarObjects as →
          (a'.uid, path', image') ∈ avatarObjects as → standardized path ≠ standardized path' := by
      intro a ha a' ha' hne path image path' image' hobject hobject'
      rw [huploaded a ha path image (hknown.object hobject),
        huploaded a' ha' path' image' (hknown.object hobject'), Ne, standardized_avatarPath]
      exact hemails a ha a' ha' hne ⟨path, image, hobject⟩ ⟨path', image', hobject'⟩
    refine ⟨huploaded, fun a ha url hurl => ?_, hapart, fun uid path image hobject => ?_⟩
    · obtain ⟨path, image, hupload, hlink⟩ := hknown.record a.uid url hurl
      obtain rfl := huploaded a ha path image hupload
      exact hlink
    · -- what is stored there is an avatar, of the same account
      obtain ⟨⟨uid', path', image'⟩, hobject', hpath, hstorage⟩ :=
        hknown.storage (uid, path, image) hobject
      obtain ⟨a, ha, rfl⟩ := List.mem_map.mp (hknown.account _ (hknown.object hobject))
      obtain ⟨a', ha', hid⟩ := List.mem_map.mp (hknown.account _ (hknown.object hobject'))
      obtain rfl : a'.uid = uid' := hid
      have hemail : a.email = a'.email := by
        by_contra hne
        exact hapart a ha a' ha' hne path image path' image' hobject hobject' hpath.symm
      obtain rfl : a = a' := h.account_eq_of_email ha ha' hemail
      have hsame := hknown.once _ (hknown.object hobject) _ (hknown.object hobject') rfl
      obtain ⟨-, rfl⟩ : path = path' ∧ image = image' := by simpa using hsame
      exact hstorage

/-- The users `a` and `b` register, and both avatars are stored. -/
def twoRegistrations : List Action := registration 0 "a" ++ registration 1 "b"

/-- Each avatar is stored under its user's e-mail. -/
theorem ownAvatars_twoRegistrations : ∃ w, Runs twoRegistrations w ∧
    OwnAvatars twoRegistrations w := by
  have hrun : ((Transition.run step init twoRegistrations).map fun w =>
      decide (w.accounts = [⟨"b", "b"⟩, ⟨"a", "a"⟩])) = some true := by
    decide +kernel
  have hfield : Meets step FieldKept init twoRegistrations := by decide +kernel
  have hname : components ("a" ++ ".jpg") ≠ components ("b" ++ ".jpg") := by decide +kernel
  obtain ⟨w, hw, h⟩ := Option.map_eq_some_iff.mp hrun
  have haccounts := of_decide_eq_true h
  refine ⟨w, hw, (ownAvatars_iff hw).mpr ⟨hfield, fun a ha a' ha' hne _ _ => ?_⟩⟩
  rw [haccounts] at ha ha'
  simp only [List.mem_cons, List.not_mem_nil, or_false] at ha ha'
  rcases ha with rfl | rfl <;> rcases ha' with rfl | rfl
  · exact absurd rfl hne
  · exact hname.symm
  · exact hname
  · exact absurd rfl hne

/-- The user `a` types another e-mail after the tap on Register, before the answer
to `createUser`; then a user with that e-mail registers. -/
def editedEmail : List Action :=
  [.register (.appear 0 0 (some [1])), .register (.edit 0 "a" "secret" "a"),
    .register (.handleregister 0 0), .register (.edit 0 "b" "secret" "a"),
    .register (.createUserDone 0 (some "a")), .register (.avatarStored 0),
    .register (.putDataDone 0 true), .register (.downloadURLDone 0 (some "avatar")),
    .register (.userApplied 0), .register (.appear 1 1 (some [2])),
    .register (.edit 1 "b" "secret" "b"), .register (.handleregister 1 1),
    .register (.createUserDone 1 (some "b")), .register (.avatarStored 1)]

/-- **An avatar under another user's e-mail**: that of `a` is uploaded under the
e-mail of `b`, whose avatar then takes its place. -/
theorem editedEmail_overwrites : ∃ w, Runs editedEmail w ∧ ¬ OwnAvatars editedEmail w ∧
    ⟨"a", "a"⟩ ∈ w.accounts ∧ ("a", avatarPath "b", [1]) ∈ avatarObjects editedEmail ∧
      w.db.valueAt ["user", "a", "Avtar_url"] = some (.str "avatar") ∧
        ("a", avatarPath "b", "avatar") ∈ avatarLinks editedEmail ∧
          w.storage (standardized (avatarPath "b")) = some [2] := by
  have hrun : ((Transition.run step init editedEmail).map fun w =>
      decide (⟨"a", "a"⟩ ∈ w.accounts ∧ ("a", avatarPath "b", [1]) ∈ avatarObjects editedEmail ∧
        w.db.valueAt ["user", "a", "Avtar_url"] = some (.str "avatar") ∧
          ("a", avatarPath "b", "avatar") ∈ avatarLinks editedEmail ∧
            w.storage (standardized (avatarPath "b")) = some [2])) = some true := by
    decide +kernel
  obtain ⟨w, hw, h⟩ := Option.map_eq_some_iff.mp hrun
  have hfacts := of_decide_eq_true h
  refine ⟨w, hw, fun hown => ?_, hfacts⟩
  have hupload := (Runs.avatarsKnown hw).object hfacts.2.1
  have hpath := avatarPath_inj.mp (hown.uploaded _ hfacts.1 _ _ hupload)
  exact absurd hpath (by decide)

end World

end AppChat
