import AppChat.System.Avatars
import AppChat.System.Records

/-!
The user records, over a whole run.

* `UsersOk`: no two registrations have the same user id, the account of each has the
  e-mail it was started with, the record of each is made of its texts, and what is below
  `user` was stored by a registration, whole. Every step keeps this, `UsersOk.step`.
* `World.Registered`: the user record that a registration has stored.
* `World.user_append_only`: `user` is append only, as `mess` is. A record is that of
  one registration, holds what was in its text fields when the button was tapped,
  and nothing changes it.
-/

namespace AppChat

open Transition

namespace World

variable {w w' : World}

/-! ### Steps that leave the user records alone -/

/-- A send writes below `mess` and `user-mess` only. -/
lemma sendStep_user_leaf {a : SendAction} (h : w.sendStep a = some w') (q : List String)
    (v : Value) : ("user" :: q, v) ∈ w'.db.leaves ↔ ("user" :: q, v) ∈ w.db.leaves := by
  cases sendStep_moves h with
  | recordApplied i s b _ _ => exact PathTree.mem_updateChildValues_of_not_comparable (by simp)
  | indexApplied i side s b f t st _ _ _ =>
      obtain ⟨r, hr⟩ := b.table_eq_cons f t side
      show ("user" :: q, v) ∈ (indexWrite w.db b f t side).leaves ↔ _
      rw [indexWrite, hr, PathTree.mem_updateChildValues_of_not_comparable (by simp)]
  | _ => exact Iff.rfl

/-- A deletion removes below `user-mess` only. -/
lemma deleteStep_user_leaf {a : DeleteAction} (h : w.deleteStep a = some w') (q : List String)
    (v : Value) : ("user" :: q, v) ∈ w'.db.leaves ↔ ("user" :: q, v) ∈ w.db.leaves := by
  rcases deleteStep_cases h with ⟨x, d, arrayMess, row, rfl, hw'⟩ | ⟨x, del, rfl, -, rfl⟩ |
    ⟨x, del, rfl, rfl⟩
  · rcases hw' with rfl | rfl | ⟨del, rfl⟩ <;> exact Iff.rfl
  · show ("user" :: q, v) ∈ (w.db.remove ["user-mess", del.uid, del.partnerId]).leaves ↔ _
    rw [PathTree.mem_remove]
    simp
  · exact Iff.rfl

/-! ### The registrations and their records -/

/-- The record of the user `uid` has been stored, by the registration `g`. -/
def Registered (w : World) (uid : String) (g : Signup) (url : String) : Prop :=
  (∃ s, w.signups s = some g) ∧ g.stage = .setValue uid (g.record url) .applied

/-- The registrations of a reachable state, and what they have stored. -/
structure UsersOk (w : World) : Prop where
  apart : ∀ s s' g g' uid, w.signups s = some g → w.signups s' = some g' →
    g.stage.uid = some uid → g'.stage.uid = some uid → s = s'
  account : ∀ s g uid, w.signups s = some g → g.stage.uid = some uid →
    ⟨uid, g.email⟩ ∈ w.accounts
  record : ∀ s g uid user st, w.signups s = some g → g.stage = .setValue uid user st →
    ∃ url, user = g.record url
  stored : ∀ uid g url, w.Registered uid g url → ∀ f v, (f, some v) ∈ g.record url →
    (["user", uid, f], v) ∈ w.db.leaves
  leaf : ∀ q v, ("user" :: q, v) ∈ w.db.leaves →
    ∃ uid g url f, w.Registered uid g url ∧ q = [uid, f] ∧ (f, some v) ∈ g.record url

lemma usersOk_init : UsersOk init where
  apart := by simp [init]
  account := by simp [init]
  record := by simp [init]
  stored := by simp [init, Registered]
  leaf := by simp [init]

lemma Registered.stage_uid {uid : String} {g : Signup} {url : String}
    (h : w.Registered uid g url) : g.stage.uid = some uid := by
  rw [h.2]
  rfl

/-- Whether a registration has stored its record. -/
def SignupStage.stored : SignupStage → Bool
  | .setValue _ _ .applied => true
  | _ => false

namespace UsersOk

/-- A step that leaves the registrations and their records alone. -/
lemma of_frame (hw : UsersOk w) (hsignups : w'.signups = w.signups)
    (haccounts : w.accounts ⊆ w'.accounts)
    (hleaf : ∀ q v, ("user" :: q, v) ∈ w'.db.leaves ↔ ("user" :: q, v) ∈ w.db.leaves) :
    UsersOk w' := by
  have hreg : ∀ uid g url, w'.Registered uid g url ↔ w.Registered uid g url := fun uid g url => by
    rw [Registered, Registered, hsignups]
  refine ⟨fun s s' g g' uid hg hg' => ?_, fun s g uid hg hu => ?_, fun s g uid user st hg => ?_,
    fun uid g url hr f v hf => ?_, fun q v hq => ?_⟩
  · exact hw.apart s s' g g' uid (hsignups ▸ hg) (hsignups ▸ hg')
  · exact haccounts (hw.account s g uid (hsignups ▸ hg) hu)
  · exact hw.record s g uid user st (hsignups ▸ hg)
  · exact (hleaf _ _).mpr (hw.stored uid g url ((hreg uid g url).mp hr) f v hf)
  · obtain ⟨uid, g, url, f, hr, hrest⟩ := hw.leaf q v ((hleaf _ _).mp hq)
    exact ⟨uid, g, url, f, (hreg uid g url).mpr hr, hrest⟩

/-- One registration goes on, without storing a record: under the id it had, or
without one, or under the id of a new account. -/
lemma of_setSignup (hw : UsersOk w) {s : SignupId} {g : Signup}
    (hsignups : w'.signups = Function.update w.signups s (some g))
    (haccounts : w.accounts ⊆ w'.accounts) (hdb : w'.db = w.db)
    (hold : ∀ g₀, w.signups s = some g₀ → SignupStage.stored g₀.stage = false)
    (hnew : SignupStage.stored g.stage = false)
    (hrec : ∀ uid user st, g.stage = .setValue uid user st → ∃ url, user = g.record url)
    (huid : ∀ uid, g.stage.uid = some uid → ⟨uid, g.email⟩ ∈ w'.accounts ∧
      ∀ s' g', s' ≠ s → w.signups s' = some g' → g'.stage.uid ≠ some uid) : UsersOk w' := by
  -- the records that are stored are those that were
  have hreg : ∀ uid g' url, w'.Registered uid g' url ↔ w.Registered uid g' url := by
    refine fun uid g' url => and_congr_left fun hst => ?_
    have hstored : SignupStage.stored g'.stage = true := by
      rw [hst]
      rfl
    constructor
    · rintro ⟨s', hs'⟩
      rw [hsignups] at hs'
      rcases update_eq_some hs' with ⟨-, rfl⟩ | ⟨-, hs'⟩
      · rw [hnew] at hstored
        cases hstored
      · exact ⟨s', hs'⟩
    · rintro ⟨s', hs'⟩
      refine ⟨s', ?_⟩
      rw [hsignups, Function.update_of_ne, hs']
      rintro rfl
      rw [hold g' hs'] at hstored
      cases hstored
  refine ⟨fun s₁ s₂ g₁ g₂ uid hg₁ hg₂ hu₁ hu₂ => ?_, fun s' g' uid hg' hu => ?_,
    fun s' g' uid user st hg' hst => ?_, fun uid g' url hr f v hf => ?_, fun q v hq => ?_⟩
  · rw [hsignups] at hg₁ hg₂
    rcases update_eq_some hg₁ with ⟨rfl, rfl⟩ | ⟨hne₁, h₁⟩ <;>
      rcases update_eq_some hg₂ with ⟨rfl, rfl⟩ | ⟨hne₂, h₂⟩
    · rfl
    · exact absurd hu₂ ((huid uid hu₁).2 s₂ g₂ hne₂ h₂)
    · exact absurd hu₁ ((huid uid hu₂).2 s₁ g₁ hne₁ h₁)
    · exact hw.apart s₁ s₂ g₁ g₂ uid h₁ h₂ hu₁ hu₂
  · rw [hsignups] at hg'
    rcases update_eq_some hg' with ⟨-, rfl⟩ | ⟨-, hg'⟩
    · exact (huid uid hu).1
    · exact haccounts (hw.account s' g' uid hg' hu)
  · rw [hsignups] at hg'
    rcases update_eq_some hg' with ⟨-, rfl⟩ | ⟨-, hg'⟩
    · exact hrec uid user st hst
    · exact hw.record s' g' uid user st hg' hst
  · rw [hdb]
    exact hw.stored uid g' url ((hreg uid g' url).mp hr) f v hf
  · rw [hdb] at hq
    obtain ⟨uid, g', url, f, hr, hrest⟩ := hw.leaf q v hq
    exact ⟨uid, g', url, f, (hreg uid g' url).mpr hr, hrest⟩

/-- A registration that keeps its id keeps it for itself. -/
lemma of_stage (hw : UsersOk w) {s : SignupId} {g : Signup} {st : SignupStage}
    (hg : w.signups s = some g)
    (hsignups : w'.signups = Function.update w.signups s (some { g with stage := st }))
    (haccounts : w'.accounts = w.accounts) (hdb : w'.db = w.db)
    (hold : SignupStage.stored g.stage = false) (hnew : SignupStage.stored st = false)
    (hrec : ∀ uid user st', st = .setValue uid user st' → ∃ url, user = g.record url)
    (huid : ∀ uid, st.uid = some uid → g.stage.uid = some uid) : UsersOk w' := by
  refine hw.of_setSignup hsignups (by rw [haccounts]; exact List.Subset.refl _) hdb
    (fun g₀ hg₀ => by rw [← Option.some.inj (hg.symm.trans hg₀), hold]) hnew hrec fun uid hu => ?_
  rw [haccounts]
  refine ⟨hw.account s g uid hg (huid uid hu), fun s' g' hne hg' hu' => hne ?_⟩
  exact hw.apart s' s g' g uid hg' hg hu' (huid uid hu)

/-- The record of a registration is stored. -/
lemma userApplied (hw : UsersOk w) {s : SignupId} {g : Signup} {uid : String}
    {user : List (String × Option Value)} (hg : w.signups s = some g)
    (hst : g.stage = .setValue uid user .pending) :
    UsersOk ({ w with db := w.db.setValue ["user", uid] user }.setSignup s
      { g with stage := .setValue uid user .applied }) := by
  obtain ⟨url, rfl⟩ := hw.record s g uid user .pending hg hst
  have hnd : ((g.record url).map Prod.fst).Nodup := by simp [Signup.record]
  have huid : g.stage.uid = some uid := by
    rw [hst]
    rfl
  let g' : Signup := { g with stage := .setValue uid (g.record url) .applied }
  let w' := { w with db := w.db.setValue ["user", uid] (g.record url) }.setSignup s g'
  have hself : w'.signups s = some g' := Function.update_self ..
  -- what was stored before is that of other users
  have hother : ∀ {uid' g₁ url'}, w.Registered uid' g₁ url' → uid' ≠ uid ∧
      w'.Registered uid' g₁ url' := by
    rintro uid' g₁ url' ⟨⟨s', hs'⟩, hst'⟩
    have hne : s' ≠ s := by
      rintro rfl
      rw [← Option.some.inj (hg.symm.trans hs'), hst] at hst'
      simp at hst'
    refine ⟨?_, ⟨s', (Function.update_of_ne hne ..).trans hs'⟩, hst'⟩
    rintro rfl
    exact hne (hw.apart s' s g₁ g uid' hs' hg (by rw [hst']; rfl) huid)
  refine ⟨fun s₁ s₂ g₁ g₂ x hg₁ hg₂ hu₁ hu₂ => ?_, fun s₁ g₁ x hg₁ hu₁ => ?_,
    fun s₁ g₁ x user st hg₁ hst₁ => ?_, fun x g₁ url' hr f v hf => ?_, fun q v hq => ?_⟩
  · -- the registrations have the ids they had
    have hback : ∀ {s₀ g₀}, w'.signups s₀ = some g₀ → g₀.stage.uid = some x →
        ∃ g₁, w.signups s₀ = some g₁ ∧ g₁.stage.uid = some x := by
      intro s₀ g₀ h₀ hu
      rcases update_eq_some h₀ with ⟨rfl, rfl⟩ | ⟨-, h₀⟩
      · exact ⟨g, hg, huid.trans hu⟩
      · exact ⟨g₀, h₀, hu⟩
    obtain ⟨g₁', hg₁', hu₁'⟩ := hback hg₁ hu₁
    obtain ⟨g₂', hg₂', hu₂'⟩ := hback hg₂ hu₂
    exact hw.apart s₁ s₂ g₁' g₂' x hg₁' hg₂' hu₁' hu₂'
  · rcases update_eq_some hg₁ with ⟨rfl, rfl⟩ | ⟨-, hg₁⟩
    · exact hw.account s₁ g x hg (huid.trans hu₁)
    · exact hw.account s₁ g₁ x hg₁ hu₁
  · rcases update_eq_some hg₁ with ⟨-, rfl⟩ | ⟨-, hg₁⟩
    · simp only [SignupStage.setValue.injEq] at hst₁
      exact ⟨url, hst₁.2.1.symm⟩
    · exact hw.record s₁ g₁ x user st hg₁ hst₁
  · obtain ⟨⟨s₁, hs₁⟩, hst₁⟩ := hr
    rcases update_eq_some hs₁ with ⟨rfl, rfl⟩ | ⟨hne, hs₁⟩
    · obtain ⟨rfl, hrec⟩ : uid = x ∧ g.record url = g'.record url' := by simpa using hst₁
      refine (PathTree.mem_setValue hnd).mpr (Or.inl ⟨f, ?_, rfl⟩)
      rw [hrec]
      exact hf
    · have hr₁ : w.Registered x g₁ url' := ⟨⟨s₁, hs₁⟩, hst₁⟩
      have hx := (hother hr₁).1
      refine (PathTree.mem_setValue_of_not_comparable (by simp [Ne.symm hx])).mpr ?_
      exact hw.stored x g₁ url' hr₁ f v hf
  · rcases (PathTree.mem_setValue hnd).mp hq with ⟨f, hf, hpath⟩ | ⟨hq, -, -⟩
    · obtain rfl : q = [uid, f] := by simpa using hpath
      exact ⟨uid, g', url, f, ⟨⟨s, hself⟩, rfl⟩, rfl, hf⟩
    · obtain ⟨x, g₁, url', f, hr, hrest⟩ := hw.leaf q v hq
      exact ⟨x, g₁, url', f, (hother hr).2, hrest⟩

lemma registerStep (hw : UsersOk w) {a : RegisterAction}
    (h : w.registerStep a = some w') : UsersOk w' := by
  cases registerStep_moves h with
  | appear | edit | pickImage =>
      exact hw.of_frame rfl (List.Subset.refl _) fun _ _ => Iff.rfl
  | handleregister s r reg _ hs =>
      exact hw.of_setSignup rfl (List.Subset.refl _) rfl (by simp [hs]) rfl (by simp) (by
        simp [SignupStage.uid])
  | createUserDone s uid g r hg _ hst huid _ _ =>
      obtain ⟨hdb, -, -, -, haccounts⟩ := createUserDone_frame w s g r uid
      refine hw.of_setSignup (createUserDone_signups w s g r uid) (by simp [haccounts]) hdb
        (fun g₀ hg₀ => ?_) ?_ (fun uid' user st hstage => ?_) fun uid' hu => ?_
      · rw [← Option.some.inj (hg.symm.trans hg₀), hst]
        rfl
      · rcases avatarStage_cases w r uid with hend | ⟨image, -, -, hput⟩
        · simp [hend, SignupStage.stored]
        · simp [hput, SignupStage.stored]
      · rcases avatarStage_cases w r uid with hend | ⟨image, -, -, hput⟩
        · simp [hend] at hstage
        · simp [hput] at hstage
      · obtain rfl : uid = uid' := by
          rcases avatarStage_cases w r uid with hend | ⟨image, -, -, hput⟩
          · simp [hend, SignupStage.uid] at hu
          · simpa [hput, SignupStage.uid] using hu
        refine ⟨by simp [haccounts], fun s' g' _ hg' hu' => huid ?_⟩
        exact List.mem_map_of_mem (hw.account s' g' uid hg' hu')
  | createUserFails s g hg hst =>
      exact hw.of_stage hg rfl rfl rfl (by rw [hst]; rfl) rfl (by simp) (by simp [SignupStage.uid])
  | avatarStored s g uid path image stored hg hst =>
      exact hw.of_stage hg rfl rfl rfl (by rw [hst]; rfl) rfl (by simp) fun _ hu => by
        rw [hst]
        exact hu
  | putDataDone s ok g uid path image stored hg hst _ =>
      refine hw.of_stage hg rfl rfl rfl (by rw [hst]; rfl) (by cases ok <;> rfl)
        (by cases ok <;> simp) fun _ hu => ?_
      rw [hst]
      cases ok with
      | true => exact hu
      | false => simp [SignupStage.uid] at hu
  | downloadURLDone s url g uid path hg hst =>
      refine hw.of_stage hg rfl rfl rfl (by rw [hst]; rfl) rfl (fun _ _ _ hst' => ?_)
        fun _ hu => by rw [hst]; exact hu
      simp only [SignupStage.setValue.injEq] at hst'
      exact ⟨url, hst'.2.1.symm⟩
  | downloadURLFails s g uid path hg hst =>
      exact hw.of_stage hg rfl rfl rfl (by rw [hst]; rfl) rfl (by simp) (by simp [SignupStage.uid])
  | userApplied s g uid user hg hst => exact hw.userApplied hg hst
  | userFailed s g uid user hg hst =>
      refine hw.of_stage hg rfl rfl rfl (by rw [hst]; rfl) rfl (fun _ _ _ hst' => ?_)
        fun _ hu => by rw [hst]; exact hu
      simp only [SignupStage.setValue.injEq] at hst'
      exact hst'.2.1 ▸ hw.record s g uid user .pending hg hst

/-- **Every step keeps the user records in order.** -/
lemma step (hw : UsersOk w) {a : Action} (h : w.step a = some w') : UsersOk w' := by
  cases a with
  | auth a =>
      obtain ⟨devices, rfl⟩ := authStep_cases h
      exact hw.of_frame rfl (List.Subset.refl _) fun _ _ => Iff.rfl
  | register a => exact hw.registerStep h
  | screen a =>
      obtain ⟨devices, chats, rfl⟩ := screenStep_cases h
      exact hw.of_frame rfl (List.Subset.refl _) fun _ _ => Iff.rfl
  | send a =>
      have hf := sendStep_frame h
      exact hw.of_frame hf.signups (by rw [hf.accounts]; exact List.Subset.refl _)
        (sendStep_user_leaf h)
  | delete a =>
      have hf := deleteStep_frame h
      exact hw.of_frame hf.signups (by rw [hf.accounts]; exact List.Subset.refl _)
        (deleteStep_user_leaf h)

end UsersOk

/-! ### The store of user records -/

/-- A registration that has stored its record is over. -/
lemma registerStep_signups {a : RegisterAction} (h : w.registerStep a = some w') :
    w'.signups = w.signups ∨ ∃ s g, w'.signups = Function.update w.signups s (some g) ∧
      ∀ g₀, w.signups s = some g₀ → SignupStage.stored g₀.stage = false := by
  have moves : ∀ {s : SignupId} {g g₁ : Signup}, w.signups s = some g →
      SignupStage.stored g.stage = false → w'.signups = Function.update w.signups s (some g₁) →
      w'.signups = w.signups ∨ ∃ s g, w'.signups = Function.update w.signups s (some g) ∧
        ∀ g₀, w.signups s = some g₀ → SignupStage.stored g₀.stage = false := by
    intro s g g₁ hg hst hw'
    exact Or.inr ⟨s, g₁, hw', fun g₀ hg₀ => by rw [← Option.some.inj (hg.symm.trans hg₀), hst]⟩
  cases registerStep_moves h with
  | appear | edit | pickImage => exact Or.inl rfl
  | handleregister s r reg _ hs => exact Or.inr ⟨s, _, rfl, by simp [hs]⟩
  | createUserDone s uid g r hg _ hst _ _ _ =>
      exact moves hg (by rw [hst]; rfl) (createUserDone_signups w s g r uid)
  | createUserFails s g hg hst => exact moves hg (by rw [hst]; rfl) rfl
  | avatarStored s g uid path image stored hg hst => exact moves hg (by rw [hst]; rfl) rfl
  | putDataDone s ok g uid path image stored hg hst _ => exact moves hg (by rw [hst]; rfl) rfl
  | downloadURLDone s url g uid path hg hst => exact moves hg (by rw [hst]; rfl) rfl
  | downloadURLFails s g uid path hg hst => exact moves hg (by rw [hst]; rfl) rfl
  | userApplied s g uid user hg hst => exact moves hg (by rw [hst]; rfl) rfl
  | userFailed s g uid user hg hst => exact moves hg (by rw [hst]; rfl) rfl

/-- A stored record stays stored. -/
lemma Registered.step {uid : String} {g : Signup} {url : String} (hr : w.Registered uid g url)
    {a : Action} (h : w.step a = some w') : w'.Registered uid g url := by
  obtain ⟨⟨s, hs⟩, hst⟩ := hr
  refine ⟨⟨s, ?_⟩, hst⟩
  cases a with
  | auth a =>
      obtain ⟨devices, rfl⟩ := authStep_cases h
      exact hs
  | register a =>
      rcases registerStep_signups h with heq | ⟨s', g', heq, hold⟩
      · rw [heq, hs]
      · rw [heq, Function.update_of_ne, hs]
        rintro rfl
        have hfalse := hold g hs
        rw [hst] at hfalse
        cases hfalse
  | screen a =>
      obtain ⟨devices, chats, rfl⟩ := screenStep_cases h
      exact hs
  | send a => rw [(sendStep_frame h).signups, hs]
  | delete a => rw [(deleteStep_frame h).signups, hs]

namespace UsersOk

/-- **The node of a registered user** holds its record, and nothing else. -/
lemma mem_leaves_user (hw : UsersOk w) {uid : String} {g : Signup} {url : String}
    (hr : w.Registered uid g url) {e : List String × Value} (hpre : ["user", uid] <+: e.1) :
    e ∈ w.db.leaves ↔ ∃ f v, (f, some v) ∈ g.record url ∧ e = (["user", uid, f], v) := by
  obtain ⟨q, x⟩ := e
  obtain ⟨r, rfl⟩ := hpre
  constructor
  · intro he
    obtain ⟨uid', g', url', f, hr', hpath, hf⟩ := hw.leaf (uid :: r) x he
    obtain ⟨rfl, rfl⟩ : uid = uid' ∧ r = [f] := by simpa using hpath
    obtain ⟨⟨s, hs⟩, hst⟩ := id hr
    obtain ⟨⟨s', hs'⟩, hst'⟩ := id hr'
    obtain rfl := hw.apart s s' g g' uid hs hs' hr.stage_uid hr'.stage_uid
    obtain rfl : g = g' := Option.some.inj (hs.symm.trans hs')
    rw [hst, SignupStage.setValue.injEq] at hst'
    exact ⟨f, x, hst'.2.1 ▸ hf, rfl⟩
  · rintro ⟨f, x', hf, he⟩
    rw [he]
    exact hw.stored uid g url hr f x' hf

/-- A user record is that of a registration. -/
lemma exists_registered (hw : UsersOk w) {uid : String} (h : w.db.Present ["user", uid]) :
    ∃ g url, w.Registered uid g url := by
  obtain ⟨⟨q, v⟩, he, r, rfl⟩ := h
  obtain ⟨uid', g, url, f, hr, hpath, -⟩ := hw.leaf (uid :: r) v he
  obtain ⟨rfl, -⟩ : uid = uid' ∧ r = [f] := by simpa using hpath
  exact ⟨g, url, hr⟩

/-- The user list decodes it. -/
lemma newmessageUser_eq (hw : UsersOk w) {uid : String} {g : Signup} {url : String}
    (hr : w.Registered uid g url) : newmessageUser (snapshot w.db ["user", uid]) uid =
      .ok ⟨g.email, g.name, g.pass, url, uid, "link_video"⟩ := by
  have hfield : ∀ f s, (f, some (.str s)) ∈ g.record url →
      w.db.valueAt ["user", uid, f] = some (.str s) := fun f s hf =>
    PathTree.valueAt_eq_some_iff.mpr (hw.stored uid g url hr f _ hf)
  have h₁ := hfield "email" g.email (by simp [Signup.record])
  have h₂ := hfield "pass" g.pass (by simp [Signup.record])
  have h₃ := hfield "name" g.name (by simp [Signup.record])
  have h₄ := hfield "Avtar_url" url (by simp [Signup.record])
  simp only [newmessageUser, snapshot_eq_dictionary (p := ["user", uid]) h₁,
    Snapshot.forceDictionary, Fields.forceString, List.cons_append, List.nil_append, h₁, h₂, h₃,
    h₄, bind, Except.bind, pure, Except.pure]

end UsersOk

lemma UsersOk.run {as : List Action} (hw : UsersOk w)
    (h : Transition.run World.step w as = some w') : UsersOk w' :=
  run_invariant (fun _ _ _ hv hstep => hv.step hstep) hw h

lemma Runs.usersOk {as : List Action} (h : Runs as w) : UsersOk w := usersOk_init.run h

/-- **`user` is append only.** Whatever happens after a state `w` of the system: the
node of a user that was there holds exactly what it held. Every node that is there is
the whole record of one registration: the e-mail of the account, and the password
and the name as they were typed, in clear, with the link of the avatar. -/
theorem user_append_only {as bs : List Action} (h : Runs as w)
    (h' : run World.step w bs = some w') (uid : String) :
    (w.db.Present ["user", uid] → ∀ e : List String × Value, ["user", uid] <+: e.1 →
      (e ∈ w'.db.leaves ↔ e ∈ w.db.leaves)) ∧
    (w'.db.Present ["user", uid] → ∃ s g url, w'.signups s = some g ∧
      ⟨uid, g.email⟩ ∈ w'.accounts ∧
        ∀ e : List String × Value, ["user", uid] <+: e.1 → (e ∈ w'.db.leaves ↔
          e ∈ [(["user", uid, "email"], Value.str g.email), (["user", uid, "pass"], .str g.pass),
            (["user", uid, "name"], .str g.name), (["user", uid, "Avtar_url"], .str url)])) := by
  have hw : UsersOk w := Runs.usersOk h
  have hrun : Runs (as ++ bs) w' := run_append_eq_some.mpr ⟨w, h, h'⟩
  have hw' : UsersOk w' := hrun.usersOk
  constructor
  · intro hk e hpre
    obtain ⟨g, url, hr⟩ := hw.exists_registered hk
    have hr' : w'.Registered uid g url :=
      run_invariant (I := fun v => v.Registered uid g url) (fun _ _ _ hv hstep => hv.step hstep) hr
        h'
    rw [hw'.mem_leaves_user hr' hpre, hw.mem_leaves_user hr hpre]
  · intro hk
    obtain ⟨g, url, hr⟩ := hw'.exists_registered hk
    obtain ⟨s, hs⟩ := hr.1
    refine ⟨s, g, url, hs, hw'.account s g uid hs hr.stage_uid, fun e hpre => ?_⟩
    rw [hw'.mem_leaves_user hr hpre]
    simp [Signup.record, or_and_right, exists_or]

/-- The record of `a` is there after its registration, and stays as it is when `b`
registers too. -/
theorem user_append_only_registration : ∃ w w', Runs (registration 0 "a") w ∧
    run World.step w (registration 1 "b") = some w' ∧
      ((["user", "a", "pass"], .str "secret") ∈ w'.db.leaves ↔
        (["user", "a", "pass"], .str "secret") ∈ w.db.leaves) := by
  have hrun : ((run World.step init (registration 0 "a")).map fun w =>
      decide (w.db.Present ["user", "a"]) && (run World.step w (registration 1 "b")).isSome) =
        some true := by
    decide +kernel
  obtain ⟨w, hw, h⟩ := Option.map_eq_some_iff.mp hrun
  obtain ⟨hk, hmore⟩ := Bool.and_eq_true_iff.mp h
  obtain ⟨w', hw'⟩ := Option.isSome_iff_exists.mp hmore
  exact ⟨w, w', hw, hw', (user_append_only hw hw' "a").1 (of_decide_eq_true hk) _
    (List.prefix_append ["user", "a"] ["pass"])⟩

end World

end AppChat
