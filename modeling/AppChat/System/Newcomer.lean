import AppChat.Library.Draining
import AppChat.System.UserList

/-!
A new user appears.

* `Newmessage.list_catches_up`: the callbacks of a user list come to an end, and then it
  has one row for each user, below the rows it had.
* `World.registerSteps`: the steps of a registration that goes through;
  `World.exists_registerSteps`: they can be taken in every state, from a filled screen.
* `Newmessage.registration_arrives`: a user list that is open then lists the new user.
-/

namespace AppChat

open Transition

/-! ### The user list catches up -/

/-- The callbacks of the listener. -/
def NewmessageAction.isCallback : NewmessageAction → Bool
  | .childAdded _ => true
  | _ => false

namespace Newmessage

variable {d : DeviceId} {rows : List User} {client : Client} {s s' : Newmessage}
  {as : List NewmessageAction}

variable (rows client) in
/-- A user list that listens and begins with `rows`, with the app and the world as they
are in `client`. -/
structure In (s : Newmessage) : Prop where
  client : s.client = client
  listed : Listed s
  listening : s.listening = true
  begins : rows <+: s.arrayUser

variable (rows) in
/-- **The callbacks of a user list run out**: each of them takes an event, and while
there is one, its callback is enabled. -/
lemma drains (hrunning : (client.world.devices d).running = true) :
    Drains (step d) (fun a => a.isCallback = true) (In rows client) fun s => s.events.length where
  keeps := by
    intro s a t h ha hstep
    cases a with
    | childAdded id =>
        have hlisted := h.listed.step hstep
        obtain ⟨e, g, url, -, -, -, rfl⟩ := h.listed.childAdded hstep
        exact ⟨h.client, hlisted, h.listening, h.begins.trans (List.prefix_append _ _)⟩
    | _ => cases ha
  drops := by
    intro s a t h ha hstep
    cases a with
    | childAdded id =>
        obtain ⟨e, g, url, he, hid, -, rfl⟩ := h.listed.childAdded hstep
        have hmem := List.mem_of_find?_eq_some he
        have hpos : 0 < s.events.length := List.length_pos_of_mem hmem
        show (s.events.eraseP fun e' => e'.1 = id).length < s.events.length
        rw [List.length_eraseP_of_mem hmem (by simpa using hid)]
        omega
    | _ => cases ha
  progress := by
    intro s h hzero
    obtain ⟨e, he⟩ := List.exists_mem_of_length_pos (Nat.pos_of_ne_zero hzero)
    obtain ⟨e', he', hid, hmem⟩ := exists_event (List.mem_map_of_mem he)
    obtain ⟨g, url, -, huser⟩ := h.listed.event e' hmem
    rw [hid] at huser
    refine ⟨.childAdded e.1, { s with
      events := s.events.eraseP fun e' => e'.1 = e.1
      arrayUser := s.arrayUser ++ [g.user e.1 url] }, rfl, ?_⟩
    rw [step, he', Option.bind_some, if_pos (by rw [world, h.client]; exact hrunning), huser]

/-- A user list with no event on its way is complete. -/
lemma In.lists (h : In rows client s) (hzero : s.events.length = 0) :
    Complete client s.arrayUser := by
  rw [← h.client]
  exact h.listed.lists h.listening (List.length_eq_zero_iff.mp hzero)

/-- **The user list catches up.** When the rest of the system does nothing, the list
runs no more callbacks than there were events on their way, in whatever order, and the
rows it had stay where they were; and it can run one more, or it has one row for each
user whose record its app sees, and besides these only rows of users whose records were
rejected. Some order of callbacks brings it there. Once no write of the app is on its
way, what it sees is the database. -/
theorem list_catches_up (h : run (step d) init as = some s) (hl : s.listening = true)
    (hrunning : (s.world.devices d).running = true) :
    (s.client.writes = [] → s.client.view = s.world.db) ∧
    (∀ bs t, (∀ a ∈ bs, NewmessageAction.isCallback a = true) → run (step d) s bs = some t →
      bs.length ≤ s.events.length ∧ s.arrayUser <+: t.arrayUser ∧
      ((∃ a u, NewmessageAction.isCallback a = true ∧ t.step d a = some u) ∨
        Complete s.client t.arrayUser)) ∧
    ∃ bs t, (∀ a ∈ bs, NewmessageAction.isCallback a = true) ∧ run (step d) s bs = some t ∧
      Complete s.client t.arrayUser := by
  have hs : In s.arrayUser s.client s := ⟨rfl, listed_of_run h, hl, List.prefix_rfl⟩
  have hdrains := drains s.arrayUser hrunning
  refine ⟨Client.view_of_writes_eq_nil, fun bs t hbs ht => ?_, ?_⟩
  · obtain ⟨hI, hlen, hgo⟩ := hdrains.run_stops hs hbs ht
    exact ⟨hlen, hI.begins, hgo.imp_right hI.lists⟩
  · obtain ⟨bs, t, hbs, ht, hI, hzero⟩ := hdrains.exists_run hs
    exact ⟨bs, t, hbs, ht, hI.lists hzero⟩

/-- `a` has a user list open when `b` fills in a registration screen. -/
def filledIn : List NewmessageAction :=
  (World.registration 0 "a").map .world ++ [.getdataFromFirebase,
    .world (.register (.appear 1 1 (some []))), .world (.register (.edit 1 "b" "secret" "Bea"))]

theorem list_catches_up_filledIn : ∃ s, run (step 0) init filledIn = some s ∧
    ∃ bs t, (∀ a ∈ bs, NewmessageAction.isCallback a = true) ∧ run (step 0) s bs = some t ∧
      Complete s.client t.arrayUser := by
  have hrun : ((run (step 0) init filledIn).map fun s =>
      decide (s.listening = true ∧ (s.world.devices 0).running = true)) = some true := by
    decide +kernel
  obtain ⟨s, hs, h⟩ := Option.map_eq_some_iff.mp hrun
  obtain ⟨hl, hrunning⟩ := of_decide_eq_true h
  exact ⟨s, hs, (list_catches_up hs hl hrunning).2.2⟩

end Newmessage

/-! ### A registration that goes through -/

namespace World

variable {w w' w'' : World} {d : DeviceId} {r : RegisterId} {s : SignupId} {g : Signup}
  {reg : Register} {uid url : String}

/-- The steps of a registration that goes through, under the id `uid`. -/
def registerSteps (s : SignupId) (r : RegisterId) (uid url : String) : List RegisterAction :=
  [.handleregister s r, .createUserDone s (some uid), .avatarStored s, .putDataDone s true,
    .downloadURLDone s (some url), .userApplied s]

/-- The screens of the registrations are the same, and the apps that ran still do. -/
structure StaysUp (w w' : World) : Prop where
  registers : w'.registers = w.registers
  running : ∀ d, (w'.devices d).running = (w.devices d).running

lemma StaysUp.trans (h : StaysUp w w') (h' : StaysUp w' w'') : StaysUp w w'' :=
  ⟨h'.registers.trans h.registers, fun d => (h'.running d).trans (h.running d)⟩

/-- The button is tapped. -/
lemma exists_handleregister (hr : w.registers r = some reg)
    (hrunning : (w.devices reg.device).running = true) (hs : w.signups s = none) :
    ∃ w', w.step (.register (.handleregister s r)) = some w' ∧ w'.signups s =
        some ⟨r, reg.txtemail, reg.txtpass, reg.txtname, .createUser⟩ ∧ StaysUp w w' ∧
      w'.uids = w.uids ∧ w'.keys = w.keys ∧ w'.accounts = w.accounts := by
  refine ⟨w.setSignup s ⟨r, reg.txtemail, reg.txtpass, reg.txtname, .createUser⟩, ?_,
    Function.update_self .., ⟨rfl, fun _ => rfl⟩, rfl, rfl, rfl⟩
  rw [step, registerStep, hr, Option.bind_some, if_pos ⟨hrunning, hs⟩]

/-- The account is there, and the upload of the avatar begins. -/
lemma exists_createUserDone (hg : w.signups s = some g) (hst : g.stage = .createUser)
    (hr : w.registers g.screen = some reg) (hrunning : (w.devices reg.device).running = true)
    {image : Media} (himage : reg.imagedata = some image) (huid : uid ∉ w.uids)
    (hkey : uid ∉ w.keys) (hemail : g.email ∉ w.accounts.map AuthUser.email) :
    ∃ w' path, w.step (.register (.createUserDone s (some uid))) = some w' ∧
      w'.signups s = some { g with stage := .putData uid path image false } ∧ StaysUp w w' := by
  refine ⟨w.createUserDone s g reg uid, avatarPath reg.txtemail, ?_, ?_, ?_⟩
  · rw [step, registerStep, hg, Option.bind_some, hr, Option.bind_some, hst]
    exact if_pos ⟨huid, hkey, hemail⟩
  · rw [createUserDone, if_pos hrunning, himage]
    exact Function.update_self ..
  · rw [createUserDone, if_pos hrunning, himage]
    refine ⟨rfl, fun d => ?_⟩
    simp only [setSignup_devices, setCurrentUser_devices]
    by_cases hd : d = reg.device
    · subst hd
      rw [Function.update_self]
    · rw [Function.update_of_ne hd]

/-- The avatar is stored. -/
lemma exists_avatarStored {path : String} {image : Media} (hg : w.signups s = some g)
    (hst : g.stage = .putData uid path image false) :
    ∃ w', w.step (.register (.avatarStored s)) = some w' ∧
      w'.signups s = some { g with stage := .putData uid path image true } ∧ StaysUp w w' := by
  refine ⟨(w.store path image).setSignup s { g with stage := .putData uid path image true }, ?_,
    Function.update_self .., rfl, fun _ => rfl⟩
  rw [step, registerStep, hg, Option.bind_some, hst]

/-- The upload is answered. -/
lemma exists_avatarPut {path : String} {image : Media} (hg : w.signups s = some g)
    (hst : g.stage = .putData uid path image true) (hr : w.registers g.screen = some reg)
    (hrunning : (w.devices reg.device).running = true) :
    ∃ w', w.step (.register (.putDataDone s true)) = some w' ∧
      w'.signups s = some { g with stage := .downloadURL uid path } ∧ StaysUp w w' := by
  refine ⟨w.setSignup s { g with stage := .downloadURL uid path }, ?_, Function.update_self ..,
    rfl, fun _ => rfl⟩
  rw [step, registerStep, hg, Option.bind_some, hr, Option.bind_some, hst]
  exact if_pos ⟨hrunning, fun _ => rfl⟩

/-- The link comes, and the record is on its way. -/
lemma exists_avatarURL {path : String} (url : String) (hg : w.signups s = some g)
    (hst : g.stage = .downloadURL uid path) (hr : w.registers g.screen = some reg)
    (hrunning : (w.devices reg.device).running = true) :
    ∃ w', w.step (.register (.downloadURLDone s (some url))) = some w' ∧
      w'.signups s = some { g with stage := .setValue uid (g.record url) .pending } ∧
      StaysUp w w' := by
  refine ⟨w.setSignup s { g with stage := .setValue uid (g.record url) .pending }, ?_,
    Function.update_self .., rfl, fun _ => rfl⟩
  rw [step, registerStep, hg, Option.bind_some, hr, Option.bind_some, hst]
  exact if_pos hrunning

/-- The record is stored. -/
lemma exists_userApplied (hg : w.signups s = some g)
    (hst : g.stage = .setValue uid (g.record url) .pending) :
    ∃ w', w.step (.register (.userApplied s)) = some w' ∧
      w'.Registered uid { g with stage := .setValue uid (g.record url) .applied } url ∧
      StaysUp w w' := by
  refine ⟨{ w with db := w.db.setValue ["user", uid] (g.record url) }.setSignup s
    { g with stage := .setValue uid (g.record url) .applied }, ?_,
    ⟨⟨s, Function.update_self ..⟩, rfl⟩, rfl, fun _ => rfl⟩
  rw [step, registerStep, hg, Option.bind_some, hst]

/-- **A user can register**, whatever has happened before, with an e-mail that no
account has. -/
lemma exists_registerSteps (hr : w.registers r = some reg)
    (hrunning : (w.devices reg.device).running = true) {image : Media}
    (himage : reg.imagedata = some image) (hs : w.signups s = none) (huid : uid ∉ w.uids)
    (hkey : uid ∉ w.keys) (hemail : reg.txtemail ∉ w.accounts.map AuthUser.email) (url : String) :
    ∃ w' g, run step w ((registerSteps s r uid url).map .register) = some w' ∧
      w'.Registered uid g url ∧ g.email = reg.txtemail ∧ g.pass = reg.txtpass ∧
        g.name = reg.txtname ∧ StaysUp w w' := by
  obtain ⟨w₁, h₁, hg₁, hup₁, huids, hkeys, haccounts⟩ := exists_handleregister hr hrunning hs
  have hr₁ : w₁.registers r = some reg := by rw [hup₁.registers, hr]
  obtain ⟨w₂, path, h₂, hg₂, hup₂⟩ := exists_createUserDone hg₁ rfl hr₁
    (by rw [hup₁.running, hrunning]) himage (huids ▸ huid) (hkeys ▸ hkey) (haccounts ▸ hemail)
  obtain ⟨w₃, h₃, hg₃, hup₃⟩ := exists_avatarStored hg₂ rfl
  have hup := (hup₁.trans hup₂).trans hup₃
  have hr₃ : w₃.registers r = some reg := by rw [hup.registers, hr]
  have hrunning₃ : (w₃.devices reg.device).running = true := by rw [hup.running, hrunning]
  obtain ⟨w₄, h₄, hg₄, hup₄⟩ := exists_avatarPut hg₃ rfl hr₃ hrunning₃
  obtain ⟨w₅, h₅, hg₅, hup₅⟩ := exists_avatarURL url hg₄ rfl (by rw [hup₄.registers, hr₃])
    (by rw [hup₄.running, hrunning₃])
  obtain ⟨w₆, h₆, hreg, hup₆⟩ := exists_userApplied hg₅ rfl
  exact ⟨w₆, _, by simp [registerSteps, run, h₁, h₂, h₃, h₄, h₅, h₆], hreg, rfl, rfl, rfl,
    ((hup.trans hup₄).trans hup₅).trans hup₆⟩

end World

/-! ### The new user is listed -/

namespace Newmessage

variable {d : DeviceId} {rows : List User} {w' : World} {s : Newmessage}
  {as : List NewmessageAction}

/-- The rows stay when the rest of the system goes on. -/
lemma In.goes (h : In rows s.client s) {as : List Action}
    (hrun : run World.step s.world as = some w') :
    ∃ t, run (step d) s (as.map .world) = some t ∧ t.world = w' ∧ In rows t.client t := by
  have hgoes : ∀ (w : World) (s : Newmessage) a w', (s.world = w ∧ In rows s.client s) → True →
      w.step a = some w' → ∃ t, s.step d (.world a) = some t ∧ t.world = w' ∧
        In rows t.client t := by
    rintro w s a w' ⟨rfl, hs⟩ - hw'
    obtain ⟨client, hclient, rfl⟩ := Client.exists_step d hw'
    refine ⟨s.worldChanged client, ?_, rfl, rfl, hs.listed.worldChanged hclient, hs.listening,
      hs.begins⟩
    rw [step, hclient, Option.map_some]
  exact exists_run_map (A := fun _ => True) hgoes ⟨rfl, h⟩ (fun _ _ => trivial) hrun

/-- **A registration arrives.** In every state of the system, whatever has failed before,
a registration screen in an app that runs, with an avatar and with an e-mail no account
has, can be carried through; and after that, in whatever order the callbacks of a user
list that was open already run, they come to an end, and where they end, it lists the
new user as it was typed, below the rows it had. -/
theorem registration_arrives (h : run (step d) init as = some s) (hl : s.listening = true)
    (hrunning : (s.world.devices d).running = true) {r : RegisterId} {reg : Register}
    (hr : s.world.registers r = some reg) (hup : (s.world.devices reg.device).running = true)
    {image : Media} (himage : reg.imagedata = some image) {i : SignupId}
    (hi : s.world.signups i = none) {uid : String} (huid : uid ∉ s.world.uids)
    (hkey : uid ∉ s.world.keys) (hemail : reg.txtemail ∉ s.world.accounts.map AuthUser.email)
    (url : String) :
    ∃ t, run (step d) s ((World.registerSteps i r uid url).map fun a => .world (.register a)) =
        some t ∧
      ∀ bs v, (∀ a ∈ bs, NewmessageAction.isCallback a = true) → run (step d) t bs = some v →
        bs.length ≤ t.events.length ∧ s.arrayUser <+: v.arrayUser ∧
        ((∃ a u, NewmessageAction.isCallback a = true ∧ v.step d a = some u) ∨
          ⟨reg.txtemail, reg.txtname, reg.txtpass, url, uid, "link_video"⟩ ∈ v.arrayUser) := by
  obtain ⟨w', g, hrun, hreg, hemail', hpass, hname, hstays⟩ :=
    World.exists_registerSteps hr hup himage hi huid hkey hemail url
  have hs : In s.arrayUser s.client s := ⟨rfl, listed_of_run h, hl, List.prefix_rfl⟩
  obtain ⟨t, ht, rfl, hin⟩ := hs.goes (d := d) hrun
  rw [List.map_map] at ht
  refine ⟨t, ht, fun bs v hbs hv => ?_⟩
  have hrunning' : (t.world.devices d).running = true := by rw [hstays.running, hrunning]
  obtain ⟨hI, hlen, hgo⟩ := (drains s.arrayUser hrunning').run_stops hin hbs hv
  refine ⟨hlen, hI.begins, hgo.imp_right fun hzero => ?_⟩
  -- its record is there, so it has a row, and the row is what the registration has sent
  have husers := hin.listed.users
  have hpresent : t.client.view.Present ["user", uid] :=
    (hin.listed.tracks.present_user_iff husers).mpr ⟨_, Or.inl ⟨g, url, hreg, rfl⟩⟩
  obtain ⟨u, hu, rfl⟩ := List.mem_map.mp ((hI.lists hzero).listed uid hpresent)
  obtain ⟨g', hsub, hrow⟩ := hI.listed.row u hu
  rw [world, hI.client] at hsub
  have heq : u = g.user u.id url :=
    hrow.trans (Signup.user_eq_of_record_eq (hsub.record_eq husers hreg.submitted) u.id)
  rw [← hemail', ← hname, ← hpass]
  rw [heq] at hu
  exact hu

/-- The new user, with what was typed. -/
theorem registration_arrives_filledIn : ∃ s t, run (step 0) init filledIn = some s ∧
    run (step 0) s ((World.registerSteps 1 1 "b" "avatar").map fun a => .world (.register a)) =
      some t ∧
    ∀ bs v, (∀ a ∈ bs, NewmessageAction.isCallback a = true) → run (step 0) t bs = some v →
      (∃ a u, NewmessageAction.isCallback a = true ∧ v.step 0 a = some u) ∨
        ⟨"b", "Bea", "secret", "avatar", "b", "link_video"⟩ ∈ v.arrayUser := by
  have hrun : ((run (step 0) init filledIn).map fun s =>
      decide (s.listening = true ∧ (s.world.devices 0).running = true ∧
        s.world.registers 1 = some ⟨1, "b", "secret", "Bea", some []⟩ ∧
        (s.world.devices 1).running = true ∧ s.world.signups 1 = none ∧ "b" ∉ s.world.uids ∧
        "b" ∉ s.world.keys ∧ "b" ∉ s.world.accounts.map AuthUser.email)) = some true := by
    decide +kernel
  obtain ⟨s, hs, h⟩ := Option.map_eq_some_iff.mp hrun
  obtain ⟨hl, hrunning, hr, hup, hi, huid, hkey, hemail⟩ := of_decide_eq_true h
  obtain ⟨t, ht, hall⟩ :=
    registration_arrives hs hl hrunning hr hup rfl hi huid hkey hemail "avatar"
  exact ⟨s, t, hs, ht, fun bs v hbs hv => (hall bs v hbs hv).2.2⟩

end Newmessage

end AppChat
