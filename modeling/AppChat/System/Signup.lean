import AppChat.System.World

/-!
What a step of a registration does.

* `SignupStage.uid`: the user id a registration has received.
* `RegisterMoves`: every step of a registration, with the state it leads to.
* `registerStep_cases`: a step changes a screen, moves one registration on,
  adds the account of a registration, or stores its user record. The invariants
  of the accounts and of the database are proved from it.
-/

namespace AppChat

/-- The user id a registration has received. -/
def SignupStage.uid : SignupStage → Option String
  | .putData uid .. => some uid
  | .downloadURL uid _ => some uid
  | .setValue uid .. => some uid
  | _ => none

namespace World

/-- The registration `s` may go on as `g`: under the id it had, and with a
record to store that is its own. -/
def MovesOn (w : World) (s : SignupId) (g : Signup) : Prop :=
  ∀ uid, g.stage.uid = some uid → ∃ g₀, w.signups s = some g₀ ∧ g₀.stage.uid = some uid ∧
    ∀ user st, g.stage = .setValue uid user st →
      (∃ url, user = g.record url) ∨ ∃ st₀, g₀.stage = .setValue uid user st₀ ∧ g₀.record = g.record

/-- A registration without an id may always go on. -/
lemma movesOn_of_uid_eq_none {w : World} {s : SignupId} {g : Signup} (h : g.stage.uid = none) :
    w.MovesOn s g := by
  intro uid hu
  rw [h] at hu
  cases hu

/-- The registration `s` may go on as `g` with this storage: an avatar that is on
its way may be stored, and an avatar that `g` uploads was on its way before. -/
def MovesAvatar (w : World) (s : SignupId) (g : Signup) (storage : String → Option Media) :
    Prop :=
  (storage = w.storage ∨ ∃ g₀ uid path image stored, w.signups s = some g₀ ∧
      g₀.stage = .putData uid path image stored ∧ storage = (w.store path image).storage) ∧
  ∀ uid path image stored, g.stage = .putData uid path image stored →
    ∃ g₀ stored₀, w.signups s = some g₀ ∧ g₀.stage = .putData uid path image stored₀

/-- A registration that uploads no avatar may always go on. -/
lemma movesAvatar_of_stage_ne {w : World} {s : SignupId} {g : Signup}
    (h : ∀ uid path image stored, g.stage ≠ .putData uid path image stored) :
    w.MovesAvatar s g w.storage :=
  ⟨Or.inl rfl, fun uid path image stored hst => absurd hst (h uid path image stored)⟩

/-- **The steps of a registration**, with what enables each of them. -/
inductive RegisterMoves (w : World) : RegisterAction → World → Prop where
  | appear (r : RegisterId) (d : DeviceId) (imagedata : Option Media) :
      RegisterMoves w (.appear r d imagedata)
        { w with registers := Function.update w.registers r (some ⟨d, "", "", "", imagedata⟩) }
  | edit (r : RegisterId) (email pass name : String) (reg : Register)
      (hr : w.registers r = some reg) :
      RegisterMoves w (.edit r email pass name) { w with
        registers := Function.update w.registers r (some
          { reg with txtemail := email, txtpass := pass, txtname := name }) }
  | pickImage (r : RegisterId) (image : Media) (reg : Register) (hr : w.registers r = some reg) :
      RegisterMoves w (.pickImage r image) { w with
        registers := Function.update w.registers r (some { reg with imagedata := some image }) }
  | handleregister (s : SignupId) (r : RegisterId) (reg : Register)
      (hr : w.registers r = some reg) (hs : w.signups s = none) :
      RegisterMoves w (.handleregister s r)
        (w.setSignup s ⟨r, reg.txtemail, reg.txtpass, reg.txtname, .createUser⟩)
  | createUserDone (s : SignupId) (uid : String) (g : Signup) (r : Register)
      (hg : w.signups s = some g) (hr : w.registers g.screen = some r)
      (hst : g.stage = .createUser) (huid : uid ∉ w.uids) (hkey : uid ∉ w.keys)
      (hemail : g.email ∉ w.accounts.map AuthUser.email) :
      RegisterMoves w (.createUserDone s (some uid)) (w.createUserDone s g r uid)
  | createUserFails (s : SignupId) (g : Signup) (hg : w.signups s = some g)
      (hst : g.stage = .createUser) :
      RegisterMoves w (.createUserDone s none) (w.setSignup s { g with stage := .ended })
  | avatarStored (s : SignupId) (g : Signup) (uid path : String) (image : Media) (stored : Bool)
      (hg : w.signups s = some g) (hst : g.stage = .putData uid path image stored) :
      RegisterMoves w (.avatarStored s)
        ((w.store path image).setSignup s { g with stage := .putData uid path image true })
  | putDataDone (s : SignupId) (ok : Bool) (g : Signup) (uid path : String) (image : Media)
      (stored : Bool) (hg : w.signups s = some g) (hst : g.stage = .putData uid path image stored)
      (hok : ok = true → stored = true) :
      RegisterMoves w (.putDataDone s ok)
        (w.setSignup s { g with stage := if ok then .downloadURL uid path else .ended })
  | downloadURLDone (s : SignupId) (url : String) (g : Signup) (uid path : String)
      (hg : w.signups s = some g) (hst : g.stage = .downloadURL uid path) :
      RegisterMoves w (.downloadURLDone s (some url))
        (w.setSignup s { g with stage := .setValue uid (g.record url) .pending })
  | downloadURLFails (s : SignupId) (g : Signup) (uid path : String)
      (hg : w.signups s = some g) (hst : g.stage = .downloadURL uid path) :
      RegisterMoves w (.downloadURLDone s none) (w.setSignup s { g with stage := .ended })
  | userApplied (s : SignupId) (g : Signup) (uid : String) (user : List (String × Option Value))
      (hg : w.signups s = some g) (hst : g.stage = .setValue uid user .pending) :
      RegisterMoves w (.userApplied s)
        ({ w with db := w.db.setValue ["user", uid] user }.setSignup s
          { g with stage := .setValue uid user .applied })
  | userFailed (s : SignupId) (g : Signup) (uid : String) (user : List (String × Option Value))
      (hg : w.signups s = some g) (hst : g.stage = .setValue uid user .pending) :
      RegisterMoves w (.userFailed s) (w.setSignup s { g with stage := .setValue uid user .failed })

/-- Every step of a registration is one of `RegisterMoves`. -/
lemma registerStep_moves {w w' : World} {a : RegisterAction} (h : w.registerStep a = some w') :
    RegisterMoves w a w' := by
  cases a with
  | appear r d imagedata =>
      simp only [registerStep, Option.ite_none_right_eq_some] at h
      exact Option.some.inj h.2 ▸ .appear r d imagedata
  | edit r email pass name =>
      simp only [registerStep, Option.bind_eq_some_iff, Option.ite_none_right_eq_some] at h
      obtain ⟨reg, hr, -, h⟩ := h
      exact Option.some.inj h ▸ .edit r email pass name reg hr
  | pickImage r image =>
      simp only [registerStep, Option.bind_eq_some_iff, Option.ite_none_right_eq_some] at h
      obtain ⟨reg, hr, -, h⟩ := h
      exact Option.some.inj h ▸ .pickImage r image reg hr
  | handleregister s r =>
      simp only [registerStep, Option.bind_eq_some_iff, Option.ite_none_right_eq_some] at h
      obtain ⟨reg, hr, ⟨-, hs⟩, h⟩ := h
      exact Option.some.inj h ▸ .handleregister s r reg hr hs
  | createUserDone s uid =>
      simp only [registerStep, Option.bind_eq_some_iff] at h
      obtain ⟨g, hg, reg, hr, h⟩ := h
      split at h
      · rename_i uid hst
        rw [Option.ite_none_right_eq_some] at h
        obtain ⟨⟨huid, hkey, hemail⟩, h⟩ := h
        exact Option.some.inj h ▸ .createUserDone s uid g reg hg hr hst huid hkey hemail
      · rename_i hst
        exact Option.some.inj h ▸ .createUserFails s g hg hst
      · cases h
  | avatarStored s =>
      simp only [registerStep, Option.bind_eq_some_iff] at h
      obtain ⟨g, hg, h⟩ := h
      split at h
      · rename_i uid path image stored hst
        exact Option.some.inj h ▸ .avatarStored s g uid path image stored hg hst
      · cases h
  | putDataDone s ok =>
      simp only [registerStep, Option.bind_eq_some_iff] at h
      obtain ⟨g, hg, reg, -, h⟩ := h
      split at h
      · rename_i uid path image stored hst
        rw [Option.ite_none_right_eq_some] at h
        obtain ⟨⟨-, hok⟩, h⟩ := h
        exact Option.some.inj h ▸ .putDataDone s ok g uid path image stored hg hst hok
      · cases h
  | downloadURLDone s url =>
      simp only [registerStep, Option.bind_eq_some_iff] at h
      obtain ⟨g, hg, reg, -, h⟩ := h
      split at h
      · rename_i uid path url hst
        rw [Option.ite_none_right_eq_some] at h
        exact Option.some.inj h.2 ▸ .downloadURLDone s url g uid path hg hst
      · rename_i uid path hst
        exact Option.some.inj h ▸ .downloadURLFails s g uid path hg hst
      · cases h
  | userApplied s =>
      simp only [registerStep, Option.bind_eq_some_iff] at h
      obtain ⟨g, hg, h⟩ := h
      split at h
      · rename_i uid user hst
        exact Option.some.inj h ▸ .userApplied s g uid user hg hst
      · cases h
  | userFailed s =>
      simp only [registerStep, Option.bind_eq_some_iff] at h
      obtain ⟨g, hg, h⟩ := h
      split at h
      · rename_i uid user hst
        exact Option.some.inj h ▸ .userFailed s g uid user hg hst
      · cases h

/-- **What a step of a registration does.** -/
lemma registerStep_cases {w w' : World} {a : RegisterAction} (h : w.registerStep a = some w') :
    (∃ registers, w' = { w with registers := registers }) ∨
    (∃ s g storage, (w.MovesOn s g ∧ w.MovesAvatar s g storage) ∧
      w' = { w with storage := storage }.setSignup s g) ∨
    (∃ s g r uid, uid ∉ w.keys ∧ w' = w.createUserDone s g r uid) ∨
    (∃ s g uid user, w.signups s = some g ∧ g.stage = .setValue uid user .pending ∧
      w' = { w with db := w.db.setValue ["user", uid] user }.setSignup s
        { g with stage := .setValue uid user .applied }) := by
  -- a registration that goes on, with the storage as it was
  have moves : ∀ s g, w.MovesOn s g → (∀ uid path image stored,
      g.stage ≠ .putData uid path image stored) →
      ∃ s' g' storage, (w.MovesOn s' g' ∧ w.MovesAvatar s' g' storage) ∧
        w.setSignup s g = { w with storage := storage }.setSignup s' g' :=
    fun s g hg hs => ⟨s, g, w.storage, ⟨hg, movesAvatar_of_stage_ne hs⟩, rfl⟩
  cases registerStep_moves h with
  | appear r d imagedata => exact Or.inl ⟨_, rfl⟩
  | edit r email pass name reg hr => exact Or.inl ⟨_, rfl⟩
  | pickImage r image reg hr => exact Or.inl ⟨_, rfl⟩
  | handleregister s r reg hr hs =>
      exact Or.inr (Or.inl (moves s _ (movesOn_of_uid_eq_none rfl) (by simp)))
  | createUserDone s uid g r hg hr hst huid hkey hemail =>
      exact Or.inr (Or.inr (Or.inl ⟨s, g, r, uid, hkey, rfl⟩))
  | createUserFails s g hg hst =>
      exact Or.inr (Or.inl (moves s _ (movesOn_of_uid_eq_none rfl) (by simp)))
  | avatarStored s g uid path image stored hg hst =>
      refine Or.inr (Or.inl ⟨s, _, _, ⟨fun uid' hu => ⟨g, hg, ?_, by simp⟩,
        Or.inr ⟨g, uid, path, image, stored, hg, hst, rfl⟩, fun uid' path' image' st hst' => ?_⟩,
        rfl⟩)
      · rw [hst]
        exact hu
      · obtain ⟨rfl, rfl, rfl, -⟩ : uid = uid' ∧ path = path' ∧ image = image' ∧ true = st := by
          simpa using hst'
        exact ⟨g, stored, hg, hst⟩
  | putDataDone s ok g uid path image stored hg hst hok =>
      cases ok with
      | true =>
          refine Or.inr (Or.inl (moves s _ (fun uid' hu => ⟨g, hg, ?_, by simp⟩) (by simp)))
          rw [hst]
          exact hu
      | false => exact Or.inr (Or.inl (moves s _ (movesOn_of_uid_eq_none rfl) (by simp)))
  | downloadURLDone s url g uid path hg hst =>
      refine Or.inr (Or.inl (moves s _ (fun uid' hu => ⟨g, hg, ?_, ?_⟩) (by simp)))
      · rw [hst]
        exact hu
      · intro user st hset
        obtain ⟨-, rfl, -⟩ : _ ∧ _ ∧ _ := by simpa using hset
        exact Or.inl ⟨url, rfl⟩
  | downloadURLFails s g uid path hg hst =>
      exact Or.inr (Or.inl (moves s _ (movesOn_of_uid_eq_none rfl) (by simp)))
  | userApplied s g uid user hg hst =>
      exact Or.inr (Or.inr (Or.inr ⟨s, g, uid, user, hg, hst, rfl⟩))
  | userFailed s g uid user hg hst =>
      refine Or.inr (Or.inl (moves s _ (fun uid' hu => ⟨g, hg, ?_, ?_⟩) (by simp)))
      · rw [hst]
        exact hu
      · intro user' st hset
        obtain ⟨rfl, rfl, -⟩ : _ ∧ _ ∧ _ := by simpa using hset
        exact Or.inr ⟨_, hst, rfl⟩

/-- What the answer to `createUser` leaves alone. -/
lemma createUserDone_frame (w : World) (s : SignupId) (g : Signup) (r : Register) (uid : String) :
    (w.createUserDone s g r uid).db = w.db ∧ (w.createUserDone s g r uid).keys = w.keys ∧
      (w.createUserDone s g r uid).chats = w.chats ∧
      (w.createUserDone s g r uid).sends = w.sends ∧
      (w.createUserDone s g r uid).accounts = ⟨uid, g.email⟩ :: w.accounts := by
  unfold createUserDone
  split_ifs
  · split <;> simp
  · simp

/-- A registration leaves the chat logs and the sends alone. -/
lemma registerStep_leaves {w w' : World} {a : RegisterAction} (h : w.registerStep a = some w') :
    w'.chats = w.chats ∧ w'.sends = w.sends := by
  rcases registerStep_cases h with ⟨_, rfl⟩ | ⟨s, g, _, -, rfl⟩ | ⟨s, g, r, uid, -, rfl⟩ |
    ⟨s, g, uid, user, -, -, rfl⟩
  · exact ⟨rfl, rfl⟩
  · exact ⟨rfl, rfl⟩
  · obtain ⟨-, -, hchats, hsends, -⟩ := createUserDone_frame w s g r uid
    exact ⟨hchats, hsends⟩
  · exact ⟨rfl, rfl⟩

end World

end AppChat
