import AppChat.Library.Simulation
import AppChat.System.UserView

/-!
The user list, `newmessage`, in the whole system.

`getdata_fromfirebase` listens to `user` for added children and appends each to
`arrayUser`; tapping a row opens a chat log with the user of the row. An event brings
the record as the app saw it then, its own records as soon as they are sent. The steps
of `World` read the record of the chosen user from the database when it is tapped.

* `Newmessage`: the world with the writes of the app that are on their way, the listener
  of one user list, and `arrayUser`.
* `Newmessage.Listed`: every user that the app sees is listed or on its way, once, and a
  row is what the registration of its user has sent.
* `Newmessage.runs_world`: no callback of the list traps, a tapped row hands over its
  user, and this is the step of `World` if the record is in the database.
* `Newmessage.lists_users`: with nothing on its way, the list has one row for each user
  that the app sees, and besides these only rows of users whose records were rejected.
-/

namespace AppChat

open Transition

/-- The world and the writes of the app, with the listener of one `newmessage` and the
children of `user` that are on their way to it, each with its snapshot. -/
structure Newmessage where
  client : Client
  listening : Bool
  events : List (String × Snapshot)
  arrayUser : List User

inductive NewmessageAction where
  | world (a : Action)
  | getdataFromFirebase
  | childAdded (id : String)
  | didSelectRowAt (c : ChatId) (row : ℕ)
  deriving DecidableEq, Repr

namespace Newmessage

/-- The world that the app of the list is a part of. -/
abbrev world (s : Newmessage) : World := s.client.world

def init : Newmessage := ⟨.init, false, [], []⟩

/-- The events of these children of `user`. -/
def childEvents (db : Database) (ids : List String) : List (String × Snapshot) :=
  ids.map fun id => (id, snapshot db ["user", id])

/-- The world goes on, and the app with it, as `client`; the listener reports the new
children of `user` that the app sees. -/
def worldChanged (s : Newmessage) (client : Client) : Newmessage :=
  { s with
    client := client
    events :=
      if s.listening then
        s.events ++ childEvents client.view (newChildren s.client.view client.view ["user"])
      else s.events }

variable (d : DeviceId)

/-- The next state of a user list in the app of the device `d`. -/
def step (s : Newmessage) : NewmessageAction → Option Newmessage
  | .world a => (s.client.step d a).map s.worldChanged
  | .getdataFromFirebase =>
      if (s.world.devices d).running ∧ s.listening = false then
        some { s with
          listening := true
          events := childEvents s.client.view (s.client.view.childKeys ["user"]) }
      else none
  | .childAdded id =>
      (s.events.find? fun e => e.1 = id).bind fun e =>
        if (s.world.devices d).running then
          match newmessageUser e.2 id with
          | .ok user => some { s with
              events := s.events.eraseP fun e => e.1 = id
              arrayUser := s.arrayUser ++ [user] }
          | .error _ => some { s with client := s.client.crash d }
        else none
  | .didSelectRowAt c row =>
      if (s.world.devices d).running ∧ s.world.chats c = none then
        (s.arrayUser[row]?).map fun user =>
          { s with client := { s.client with
              world := s.world.setChat c ⟨d, user.id, false, some user, ""⟩ } }
      else none

/-- The step of the world in a step of the list. -/
def worldAction (s : Newmessage) : NewmessageAction → Option Action
  | .world a => some a
  | .didSelectRowAt c row =>
      (s.arrayUser[row]?).map fun user => .screen (.newmessageSelect c d user.id)
  | _ => none

/-- A row that is tapped has its record in the database. -/
def TapsStored (s : Newmessage) : NewmessageAction → Prop
  | .didSelectRowAt _ row => ∀ user ∈ s.arrayUser[row]?, s.world.db.Present ["user", user.id]
  | _ => True

instance (s : Newmessage) : DecidablePred s.TapsStored
  | .didSelectRowAt _ row => inferInstanceAs (Decidable (∀ user ∈ s.arrayUser[row]?,
      s.world.db.Present ["user", user.id]))
  | .world _ => inferInstanceAs (Decidable True)
  | .getdataFromFirebase => inferInstanceAs (Decidable True)
  | .childAdded _ => inferInstanceAs (Decidable True)

/-! ### What is listed -/

/-- The users that are listed or on their way. -/
def known (s : Newmessage) : List String := s.arrayUser.map User.id ++ s.events.map Prod.fst

/-- The list and its listener agree with the records that the app sees, and that it has
seen. -/
structure Listed (s : Newmessage) : Prop where
  tracks : s.client.Tracks
  users : World.UsersOk s.world
  idle : s.listening = false → s.known = []
  nodup : s.known.Nodup
  mem_known : s.listening = true → ∀ id, s.client.view.Present ["user", id] → id ∈ s.known
  known : ∀ id ∈ s.known, s.client.view.Present ["user", id] ∨ s.world.Rejected id
  event : ∀ e ∈ s.events, ∃ g url, s.world.Submitted e.1 g url ∧
    newmessageUser e.2 e.1 = .ok (g.user e.1 url)
  row : ∀ u ∈ s.arrayUser, ∃ g, s.world.Submitted u.id g u.linkImage ∧
    u = g.user u.id u.linkImage

/-- The rows are those of the users that the app sees, one for each, and of users whose
records were rejected. -/
structure Complete (client : Client) (rows : List User) : Prop where
  nodup : (rows.map User.id).Nodup
  listed : ∀ id, client.view.Present ["user", id] → id ∈ rows.map User.id
  seen : ∀ id ∈ rows.map User.id, client.view.Present ["user", id] ∨ client.world.Rejected id

lemma listed_init : Listed init where
  tracks := Client.tracks_init
  users := World.usersOk_init
  idle := fun _ => rfl
  nodup := List.nodup_nil
  mem_known := by
    intro h
    cases h
  known := by
    intro id h
    cases h
  event := by simp [init]
  row := by simp [init]

variable {d : DeviceId} {s s' : Newmessage}

/-- The event of a child holds what its registration has sent. -/
lemma childEvents_submitted {client : Client} (h : client.Tracks)
    (hu : World.UsersOk client.world) {ids : List String}
    (hids : ∀ id ∈ ids, client.view.Present ["user", id]) :
    ∀ e ∈ childEvents client.view ids, ∃ g url, client.world.Submitted e.1 g url ∧
      newmessageUser e.2 e.1 = .ok (g.user e.1 url) := by
  intro e he
  obtain ⟨id, hid, rfl⟩ := List.mem_map.mp he
  obtain ⟨user, hstored⟩ := (h.present_user_iff hu).mp (hids id hid)
  obtain ⟨g, url, hsub, rfl⟩ := hstored.submitted h hu
  exact ⟨g, url, hsub, h.newmessageUser_eq hu hstored⟩

lemma map_fst_childEvents (db : Database) (ids : List String) :
    (childEvents db ids).map Prod.fst = ids := by
  rw [childEvents, List.map_map]
  exact List.map_id _

/-- The event of a user becomes a row. -/
lemma known_childAdded {e : String × Snapshot} {u : User}
    (he : s.events.find? (fun e' => e'.1 = e.1) = some e) (hu : u.id = e.1) :
    ((s.arrayUser ++ [u]).map User.id ++
      (s.events.eraseP fun e' => e'.1 = e.1).map Prod.fst).Perm s.known := by
  obtain ⟨-, l₁, l₂, hl, hnot⟩ := List.find?_eq_some_iff_append.mp he
  have herase : (s.events.eraseP fun e' => e'.1 = e.1) = l₁ ++ l₂ := by
    rw [hl, List.eraseP_append_right _ (by simpa using hnot), List.eraseP_cons_of_pos (by simp)]
  rw [herase, known, hl, List.map_append, List.map_singleton, hu, List.append_assoc]
  refine List.Perm.append_left _ ?_
  simp only [List.map_append, List.map_cons, List.singleton_append]
  exact List.perm_middle.symm

/-- The event that is reported next. -/
lemma exists_event {id : String} (hid : id ∈ s.events.map Prod.fst) :
    ∃ e, s.events.find? (fun e' => e'.1 = id) = some e ∧ e.1 = id ∧ e ∈ s.events := by
  obtain ⟨e, he, rfl⟩ := List.mem_map.mp hid
  have hsome : (s.events.find? fun e' => e'.1 = e.1).isSome := by
    rw [List.find?_isSome]
    exact ⟨e, he, by simp⟩
  obtain ⟨e', he'⟩ := Option.isSome_iff_exists.mp hsome
  have hid' := List.find?_some he'
  exact ⟨e', he', by simpa using hid', List.mem_of_find?_eq_some he'⟩

namespace Listed

/-- What is listed or on its way was sent, and stays so. -/
lemma submitted_step (h : Listed s) {a : Action} {w' : World} (hw' : s.world.step a = some w') :
    (∀ e ∈ s.events, ∃ g url, w'.Submitted e.1 g url ∧
      newmessageUser e.2 e.1 = .ok (g.user e.1 url)) ∧
    ∀ u ∈ s.arrayUser, ∃ g, w'.Submitted u.id g u.linkImage ∧ u = g.user u.id u.linkImage := by
  refine ⟨fun e he => ?_, fun u hu => ?_⟩
  · obtain ⟨g, url, hsub, huser⟩ := h.event e he
    obtain ⟨st, hsub'⟩ := hsub.step hw'
    exact ⟨_, url, hsub', huser⟩
  · obtain ⟨g, hsub, huser⟩ := h.row u hu
    obtain ⟨st, hsub'⟩ := hsub.step hw'
    exact ⟨_, hsub', huser⟩

lemma worldChanged (h : Listed s) {a : Action} {client : Client}
    (hstep : s.client.step d a = some client) : Listed (s.worldChanged client) := by
  have hw' := Client.world_step hstep
  have ht' := h.tracks.step hstep
  have hu' := h.users.step hw'
  obtain ⟨hevent, hrow⟩ := h.submitted_step hw'
  -- what was seen is still seen, or rejected
  have hseen : ∀ id ∈ s.known,
      client.view.Present ["user", id] ∨ client.world.Rejected id := by
    intro id hid
    rcases h.known id hid with hk | hr
    · obtain ⟨user, hstored⟩ := (h.tracks.present_user_iff h.users).mp hk
      refine (hstored.step h.tracks h.users hstep).imp_left fun hstored' => ?_
      exact (ht'.present_user_iff hu').mpr ⟨user, hstored'⟩
    · exact Or.inr (hr.step hw')
  cases hl : s.listening with
  | false =>
      have hknown : (s.worldChanged client).known = s.known := by
        simp [Newmessage.known, Newmessage.worldChanged, hl]
      refine ⟨ht', hu', fun _ => by rw [hknown, h.idle hl], by rw [hknown]; exact h.nodup,
        fun hl' => ?_, fun id hid => hseen id (hknown ▸ hid), ?_, hrow⟩
      · rw [show (s.worldChanged client).listening = s.listening from rfl, hl] at hl'
        cases hl'
      · rw [show (s.worldChanged client).events = s.events by simp [Newmessage.worldChanged, hl]]
        exact hevent
  | true =>
      have hevents : (s.worldChanged client).events = s.events ++
          childEvents client.view (newChildren s.client.view client.view ["user"]) := by
        simp [Newmessage.worldChanged, hl]
      have hknown : (s.worldChanged client).known =
          s.known ++ newChildren s.client.view client.view ["user"] := by
        rw [Newmessage.known, hevents, List.map_append, map_fst_childEvents, ← List.append_assoc]
        rfl
      refine ⟨ht', hu', fun hl' => ?_, ?_, fun _ id hk => ?_, fun id hid => ?_, ?_, hrow⟩
      · rw [show (s.worldChanged client).listening = s.listening from rfl, hl] at hl'
        cases hl'
      · -- a user who is known is seen, or will not be seen again
        rw [hknown]
        refine h.nodup.append (nodup_newChildren _ _ _) fun id hid hnew => ?_
        obtain ⟨hk', hk⟩ := mem_newChildren.mp hnew
        obtain ⟨user, hstored⟩ := (ht'.present_user_iff hu').mp hk'
        rcases h.known id hid with hold | hr
        · exact hk hold
        · exact hstored.not_rejected ht' hu' (hr.step hw')
      · rw [hknown, List.mem_append]
        by_cases hold : s.client.view.Present ["user", id]
        · exact Or.inl (h.mem_known hl id hold)
        · exact Or.inr (mem_newChildren.mpr ⟨hk, hold⟩)
      · rw [hknown, List.mem_append] at hid
        exact hid.elim (hseen id) fun hnew => Or.inl (mem_newChildren.mp hnew).1
      · rw [hevents]
        intro e he
        rcases List.mem_append.mp he with he | he
        · exact hevent e he
        · exact childEvents_submitted ht' hu' (fun id hid => (mem_newChildren.mp hid).1) e he

/-- **What a callback does**: it appends the user that was sent. -/
lemma childAdded (h : Listed s) {id : String} (hstep : s.step d (.childAdded id) = some s') :
    ∃ e g url, s.events.find? (fun e' => e'.1 = id) = some e ∧ e.1 = id ∧
      s.world.Submitted id g url ∧
      s' = { s with
        events := s.events.eraseP fun e' => e'.1 = id
        arrayUser := s.arrayUser ++ [g.user id url] } := by
  simp only [Newmessage.step, Option.bind_eq_some_iff, Option.ite_none_right_eq_some] at hstep
  obtain ⟨e, he, -, hstep⟩ := hstep
  obtain rfl : e.1 = id := by simpa using List.find?_some he
  obtain ⟨g, url, hsub, huser⟩ := h.event e (List.mem_of_find?_eq_some he)
  rw [huser] at hstep
  exact ⟨e, g, url, he, rfl, hsub, (Option.some.inj hstep).symm⟩

/-- **A row whose record is in the database** is what the step of the world reads when it
is tapped. -/
lemma newmessageSelect (h : Listed s) {c : ChatId} {row : ℕ} {u : User}
    (hrun : (s.world.devices d).running = true) (hc : s.world.chats c = none)
    (hrow : s.arrayUser[row]? = some u) (hpres : s.world.db.Present ["user", u.id]) :
    s.world.step (.screen (.newmessageSelect c d u.id)) =
      some (s.world.setChat c ⟨d, u.id, false, some u, ""⟩) := by
  obtain ⟨g, hsub, hu⟩ := h.row u (List.mem_of_getElem? hrow)
  obtain ⟨g', url, hr⟩ := h.users.exists_registered hpres
  have hread : newmessageUser (snapshot s.world.db ["user", u.id]) u.id = .ok u := by
    rw [h.users.newmessageUser_eq hr]
    refine congrArg Except.ok (Eq.trans ?_ hu.symm)
    exact Signup.user_eq_of_record_eq (hr.submitted.record_eq h.users hsub) u.id
  simp only [World.step, World.screenStep]
  rw [if_pos ⟨hrun, hc, hpres⟩, hread]

/-- **Every step keeps the list in order.** -/
lemma step (h : Listed s) {a : NewmessageAction} (hstep : s.step d a = some s') : Listed s' := by
  cases a with
  | world a =>
      simp only [Newmessage.step, Option.map_eq_some_iff] at hstep
      obtain ⟨client, hclient, rfl⟩ := hstep
      exact h.worldChanged hclient
  | getdataFromFirebase =>
      simp only [Newmessage.step, Option.ite_none_right_eq_some] at hstep
      obtain ⟨⟨-, hl⟩, hstep⟩ := hstep
      rw [← Option.some.inj hstep]
      have harray : s.arrayUser = [] := by
        have hknown := h.idle hl
        simp only [Newmessage.known, List.append_eq_nil_iff, List.map_eq_nil_iff] at hknown
        exact hknown.1
      have hpres : ∀ id ∈ s.client.view.childKeys ["user"],
          s.client.view.Present ["user", id] := fun id hid => PathTree.mem_childKeys.mp hid
      refine ⟨h.tracks, h.users, fun hl' => (by cases hl'), ?_, fun _ id hk => ?_,
        fun id hid => ?_, childEvents_submitted h.tracks h.users hpres, h.row⟩
      · simpa [Newmessage.known, harray, map_fst_childEvents] using
          nodup_childKeys s.client.view ["user"]
      · simpa [Newmessage.known, harray, map_fst_childEvents] using PathTree.mem_childKeys.mpr hk
      · refine Or.inl (hpres id ?_)
        simpa [Newmessage.known, harray, map_fst_childEvents] using hid
  | childAdded id =>
      obtain ⟨e, g, url, he, rfl, hsub, rfl⟩ := h.childAdded hstep
      have hperm := known_childAdded (u := g.user e.1 url) he rfl
      refine ⟨h.tracks, h.users, fun hl => ?_, hperm.nodup_iff.mpr h.nodup,
        fun hl id' hk => hperm.mem_iff.mpr (h.mem_known hl id' hk),
        fun id' hid => h.known id' (hperm.mem_iff.mp hid),
        fun e' he' => h.event e' (List.mem_of_mem_eraseP he'), fun u hu => ?_⟩
      · exact (h.idle hl ▸ hperm).eq_nil
      · rcases List.mem_append.mp hu with hu | hu
        · exact h.row u hu
        · rw [List.mem_singleton.mp hu]
          exact ⟨g, hsub, rfl⟩
  | didSelectRowAt c row =>
      simp only [Newmessage.step, Option.ite_none_right_eq_some, Option.map_eq_some_iff] at hstep
      obtain ⟨-, u, -, rfl⟩ := hstep
      -- the writes and the registrations are those that were there
      refine ⟨⟨fun o ho => ?_, h.tracks.nodup⟩, ?_, h.idle, h.nodup, h.mem_known, h.known, h.event,
        h.row⟩
      · have hpending := h.tracks.pending o ho
        cases o <;> exact hpending
      · exact h.users.of_frame rfl (List.Subset.refl _) fun _ _ => Iff.rfl

/-- With nothing on its way, the list is complete. -/
lemma lists (h : Listed s) (hl : s.listening = true) (hquiet : s.events = []) :
    Complete s.client s.arrayUser := by
  have hknown : s.known = s.arrayUser.map User.id := by
    rw [Newmessage.known, hquiet, List.map_nil, List.append_nil]
  exact ⟨hknown ▸ h.nodup, hknown ▸ h.mem_known hl, hknown ▸ h.known⟩

end Listed

/-! ### The list and the world -/

/-- The world goes on by its own steps, as long as the rows that are tapped have their
records in the database. -/
lemma projects_world (d : DeviceId) :
    Projects (step d) TapsStored World.step Newmessage.world (worldAction d) Listed where
  keeps _ _ _ h _ hstep := h.step hstep
  projects s a s' h ha hstep := by
    cases a with
    | world a =>
        simp only [step, Option.map_eq_some_iff] at hstep
        obtain ⟨client, hclient, rfl⟩ := hstep
        exact run_cons_eq_some.mpr ⟨client.world, Client.world_step hclient, rfl⟩
    | getdataFromFirebase =>
        simp only [step, Option.ite_none_right_eq_some] at hstep
        rw [← Option.some.inj hstep.2]
        rfl
    | childAdded id =>
        obtain ⟨e, g, url, -, -, -, rfl⟩ := h.childAdded hstep
        rfl
    | didSelectRowAt c row =>
        simp only [step, Option.ite_none_right_eq_some, Option.map_eq_some_iff] at hstep
        obtain ⟨⟨hrun, hc⟩, u, hu, rfl⟩ := hstep
        rw [worldAction, hu]
        exact run_cons_eq_some.mpr ⟨_, h.newmessageSelect hrun hc hu (ha u hu), rfl⟩

variable {as : List NewmessageAction}

lemma listed_of_run (h : run (step d) init as = some s) : Listed s :=
  run_invariant (fun _ _ _ hs hstep => hs.step hstep) listed_init h

/-- **The user list is a part of the system**: in every run, with any number of users
registering meanwhile, no callback of the list traps, and a tapped row hands the chat
log the user that the registration of the row has sent, however long it has been listed.
If the records of the tapped rows are in the database then, the world goes on by its own
steps, so the user is the one that the step of the world reads. -/
theorem runs_world (h : run (step d) init as = some s) :
    (∀ id s', s.step d (.childAdded id) = some s' → s'.world = s.world) ∧
    (∀ c row s', s.step d (.didSelectRowAt c row) = some s' → ∃ u g, s.arrayUser[row]? = some u ∧
      s'.world.chats c = some ⟨d, u.id, false, some u, ""⟩ ∧
      s.world.Submitted u.id g u.linkImage ∧ u = g.user u.id u.linkImage) ∧
    (Meets (step d) TapsStored init as →
      World.Runs (trace (step d) (worldAction d) init as) s.world) := by
  have hlisted := listed_of_run h
  refine ⟨fun id s' hstep => ?_, fun c row s' hstep => ?_,
    (projects_world d).run_trace listed_init h⟩
  · obtain ⟨e, g, url, -, -, -, rfl⟩ := hlisted.childAdded hstep
    rfl
  · simp only [step, Option.ite_none_right_eq_some, Option.map_eq_some_iff] at hstep
    obtain ⟨-, u, hu, rfl⟩ := hstep
    obtain ⟨g, hsub, huser⟩ := hlisted.row u (List.mem_of_getElem? hu)
    exact ⟨u, g, hu, Function.update_self .., hsub, huser⟩

/-- **The user list is complete**: once it listens and nothing is on its way, it has
one row for each user whose record its app sees, and besides these only rows of users
whose records were rejected; each row holds the e-mail, the name, the password and the
link that the registration of its user has sent. The app sees the records of the
database and those it has sent itself, and the database once its writes are answered. -/
theorem lists_users (h : run (step d) init as = some s) (hl : s.listening = true)
    (hquiet : s.events = []) :
    Complete s.client s.arrayUser ∧
      (s.client.writes = [] → s.client.view = s.world.db) ∧
      ∀ u ∈ s.arrayUser, ∃ g, s.world.Submitted u.id g u.linkImage ∧
        u = ⟨g.email, g.name, g.pass, u.linkImage, u.id, "link_video"⟩ := by
  have hlisted := listed_of_run h
  exact ⟨hlisted.lists hl hquiet, Client.view_of_writes_eq_nil, hlisted.row⟩

/-- Two users register, one before the list is opened and one after, in the app of the
list: its row comes before its record is stored. -/
def twoListed : List NewmessageAction :=
  (World.registration 1 "a").map .world ++ [.getdataFromFirebase, .childAdded "a"] ++
    (World.registration 0 "b").dropLast.map .world ++ [.childAdded "b"]

/-- Both are listed. -/
theorem lists_users_twoListed : ∃ s, run (step 0) init twoListed = some s ∧
    Complete s.client s.arrayUser := by
  have hrun : ((run (step 0) init twoListed).map fun s =>
      decide (s.listening = true) && s.events.isEmpty) = some true := by
    decide +kernel
  obtain ⟨s, hs, h⟩ := Option.map_eq_some_iff.mp hrun
  obtain ⟨hl, hquiet⟩ := Bool.and_eq_true_iff.mp h
  exact ⟨s, hs, (lists_users hs (of_decide_eq_true hl) (List.isEmpty_iff.mp hquiet)).1⟩

/-- The second is chosen once its record is stored. -/
theorem runs_world_twoListed : ∃ s, run (step 0) init (twoListed ++
      [.world (.register (.userApplied 0)), .didSelectRowAt 0 1]) = some s ∧
    World.Runs (World.registration 1 "a" ++ World.registration 0 "b" ++
      [.screen (.newmessageSelect 0 0 "b")]) s.world := by
  have hrun : ((run (step 0) init (twoListed ++
      [.world (.register (.userApplied 0)), .didSelectRowAt 0 1])).isSome &&
        decide (trace (step 0) (worldAction 0) init (twoListed ++
            [.world (.register (.userApplied 0)), .didSelectRowAt 0 1]) =
          World.registration 1 "a" ++ World.registration 0 "b" ++
            [.screen (.newmessageSelect 0 0 "b")])) = true := by
    decide +kernel
  obtain ⟨hsome, htrace⟩ := Bool.and_eq_true_iff.mp hrun
  obtain ⟨s, hs⟩ := Option.isSome_iff_exists.mp hsome
  have hC : Meets (step 0) TapsStored init (twoListed ++
      [.world (.register (.userApplied 0)), .didSelectRowAt 0 1]) := by
    decide +kernel
  refine ⟨s, hs, ?_⟩
  rw [← of_decide_eq_true htrace]
  exact (runs_world hs).2.2 hC

end Newmessage

end AppChat
