import AppChat.System.Client

/-!
The user records, as one app sees them.

* `World.Submitted`: a registration that has sent its record. `World.Rejected`: one
  whose record has been rejected; it stays so.
* `Client.Stored`: the record of a user that the app sees, stored or on its way from
  this app. The node of the user in the view is this record, `Stored.mem_leaves`.
* `Client.Stored.step`: the app goes on seeing it, unless it is rejected.
-/

namespace AppChat

open Transition

/-- The row of the user list that a registration makes. -/
def Signup.user (g : Signup) (uid url : String) : User :=
  ⟨g.email, g.name, g.pass, url, uid, "link_video"⟩

/-- The record and the row hold the same texts. -/
lemma Signup.user_eq_of_record_eq {g g' : Signup} {url url' : String}
    (h : g.record url = g'.record url') (uid : String) : g.user uid url = g'.user uid url' := by
  obtain ⟨hemail, hpass, hname, hurl⟩ : g.email = g'.email ∧ g.pass = g'.pass ∧
      g.name = g'.name ∧ url = url' := by simpa [Signup.record] using h
  rw [user, user, hemail, hpass, hname, hurl]

namespace World

variable {w w' : World} {o : OwnWrite} {uid : String} {g : Signup} {url : String}

/-- The registration has sent its record, with this link. -/
def Submitted (w : World) (uid : String) (g : Signup) (url : String) : Prop :=
  ∃ s st, w.signups s = some g ∧ g.stage = .setValue uid (g.record url) st

/-- The record of the user has been rejected. -/
def Rejected (w : World) (uid : String) : Prop :=
  ∃ s g user, w.signups s = some g ∧ g.stage = .setValue uid user .failed

lemma Registered.submitted (h : w.Registered uid g url) : w.Submitted uid g url := by
  obtain ⟨⟨s, hs⟩, hst⟩ := h
  exact ⟨s, .applied, hs, hst⟩

/-- A registration makes one record. -/
lemma Submitted.record_eq (hu : UsersOk w) {g' : Signup} {url' : String}
    (h : w.Submitted uid g url) (h' : w.Submitted uid g' url') : g.record url = g'.record url' := by
  obtain ⟨s, st, hs, hst⟩ := h
  obtain ⟨s', st', hs', hst'⟩ := h'
  obtain rfl := hu.apart s s' g g' uid hs hs' (by rw [hst]; rfl) (by rw [hst']; rfl)
  obtain rfl := Option.some.inj (hs.symm.trans hs')
  rw [hst, SignupStage.setValue.injEq] at hst'
  exact hst'.2.1

/-- The record is stored. -/
lemma step_userApplied {s : SignupId} {user : List (String × Option Value)}
    (hg : w.signups s = some g) (hst : g.stage = .setValue uid user .pending)
    (h : w.step (.register (.userApplied s)) = some w') :
    w' = { w with db := w.db.setValue ["user", uid] user }.setSignup s
      { g with stage := .setValue uid user .applied } := by
  simp only [step, World.registerStep, hg, Option.bind_some, hst] at h
  exact (Option.some.inj h).symm

/-- The record is rejected. -/
lemma step_userFailed {s : SignupId} {user : List (String × Option Value)}
    (hg : w.signups s = some g) (hst : g.stage = .setValue uid user .pending)
    (h : w.step (.register (.userFailed s)) = some w') :
    w' = w.setSignup s { g with stage := .setValue uid user .failed } := by
  simp only [step, World.registerStep, hg, Option.bind_some, hst] at h
  exact (Option.some.inj h).symm

/-- A registration that has been answered is not answered again. -/
lemma not_answered {s : SignupId} {user : List (String × Option Value)} {st : WriteState}
    (hg : w.signups s = some g) (hst : g.stage = .setValue uid user st) (hne : st ≠ .pending)
    {a : Action} (h : w.step a = some w') :
    a ≠ .register (.userApplied s) ∧ a ≠ .register (.userFailed s) := by
  constructor <;> rintro rfl <;> cases st <;>
    simp_all [World.step, World.registerStep]

/-- What a registration has sent stays sent. -/
lemma Submitted.step (hr : w.Submitted uid g url) {a : Action} (h : w.step a = some w') :
    ∃ st, w'.Submitted uid { g with stage := st } url := by
  obtain ⟨s, st, hs, hst⟩ := hr
  by_cases happlied : a = .register (.userApplied s)
  · subst happlied
    cases st with
    | pending =>
        rw [step_userApplied hs hst h]
        exact ⟨_, s, .applied, Function.update_self .., rfl⟩
    | _ => exact absurd rfl (not_answered hs hst (by simp) h).1
  by_cases hfailed : a = .register (.userFailed s)
  · subst hfailed
    cases st with
    | pending =>
        rw [step_userFailed hs hst h]
        exact ⟨_, s, .failed, Function.update_self .., rfl⟩
    | _ => exact absurd rfl (not_answered hs hst (by simp) h).2
  exact ⟨g.stage, s, st, signups_step h hs hst happlied hfailed, hst⟩

/-- A rejected record stays rejected. -/
lemma Rejected.step (hr : w.Rejected uid) {a : Action} (h : w.step a = some w') :
    w'.Rejected uid := by
  obtain ⟨s, g, user, hs, hst⟩ := hr
  obtain ⟨happlied, hfailed⟩ := not_answered hs hst (by simp) h
  exact ⟨s, g, user, signups_step h hs hst happlied hfailed, hst⟩

/-! ### Acceptance -/

/-- The records that are stored once a write is accepted. -/
lemma registered_accept_iff (hu : UsersOk w) (ho : w.Pending o) (h : w.step o.accept = some w')
    (uid : String) (user : List (String × Option Value)) :
    (∃ g url, w'.Registered uid g url ∧ g.record url = user) ↔
      (∃ g url, w.Registered uid g url ∧ g.record url = user) ∨ ∃ s, o = .user s uid user := by
  have same : ∀ {o : OwnWrite}, w'.signups = w.signups → (∀ s, o ≠ .user s uid user) →
      ((∃ g url, w'.Registered uid g url ∧ g.record url = user) ↔
        (∃ g url, w.Registered uid g url ∧ g.record url = user) ∨ ∃ s, o = .user s uid user) := by
    intro o hsignups hne
    rw [or_iff_left (by simpa using hne)]
    simp only [Registered, hsignups]
  cases o with
  | record i b =>
      have hsend : w.sendStep (.recordApplied i) = some w' := h
      exact same (sendStep_frame hsend).signups (by simp)
  | index i b f t side =>
      have hsend : w.sendStep (.indexApplied i side) = some w' := h
      exact same (sendStep_frame hsend).signups (by simp)
  | removal x u p =>
      have hdelete : w.deleteStep (.applied x) = some w' := h
      exact same (deleteStep_frame hdelete).signups (by simp)
  | user s u values =>
      obtain ⟨g₀, hg₀, hst₀⟩ := ho
      obtain ⟨url₀, hurl₀⟩ := hu.record s g₀ u values .pending hg₀ hst₀
      have hw' := step_userApplied hg₀ hst₀ h
      constructor
      · rintro ⟨g, url, ⟨⟨s', hs'⟩, hst⟩, rfl⟩
        rw [hw'] at hs'
        rcases update_eq_some hs' with ⟨rfl, rfl⟩ | ⟨-, hs'⟩
        · rw [SignupStage.setValue.injEq] at hst
          rw [← hst.1, ← hst.2.1]
          exact Or.inr ⟨s', rfl⟩
        · exact Or.inl ⟨g, url, ⟨⟨s', hs'⟩, hst⟩, rfl⟩
      · rintro (⟨g, url, hr, hrec⟩ | ⟨s', heq⟩)
        · exact ⟨g, url, hr.step h, hrec⟩
        · obtain ⟨rfl, rfl, rfl⟩ : s = s' ∧ u = uid ∧ values = user := by simpa using heq
          refine ⟨{ g₀ with stage := .setValue u values .applied }, url₀, ⟨⟨s, ?_⟩, ?_⟩, hurl₀.symm⟩
          · rw [hw']
            exact Function.update_self ..
          · rw [hurl₀]
            rfl

/-- The records that are stored once all writes are accepted. -/
lemma registered_acceptsAll_iff (hu : UsersOk w) {ws : List OwnWrite}
    (hpending : ∀ o ∈ ws, w.Pending o) (hnodup : ws.Nodup) {v : World}
    (hrun : run World.step w (ws.map OwnWrite.accept) = some v) (uid : String)
    (user : List (String × Option Value)) :
    (∃ g url, v.Registered uid g url ∧ g.record url = user) ↔
      (∃ g url, w.Registered uid g url ∧ g.record url = user) ∨ ∃ s, .user s uid user ∈ ws := by
  induction ws generalizing w with
  | nil =>
      obtain rfl : w = v := by simpa using hrun
      simp
  | cons o ws ih =>
      obtain ⟨ho, hws⟩ := List.forall_mem_cons.mp hpending
      obtain ⟨hnot, hnodup⟩ := List.nodup_cons.mp hnodup
      obtain ⟨w', hw', hrun⟩ := run_cons_eq_some.mp hrun
      have hws' : ∀ o' ∈ ws, w'.Pending o' := fun o' ho' =>
        (hws o' ho').step hw' fun ha =>
          hnot (ho.eq_of_answeredBy (hws o' ho') (Or.inl rfl) ha ▸ ho')
      rw [ih (hu.step hw') hws' hnodup hrun, registered_accept_iff hu ho hw', or_assoc,
        ← exists_or]
      simp only [List.mem_cons, eq_comm]

end World

/-! ### The records that an app sees -/

namespace Client

open World

variable {c c' : Client} {d : DeviceId} {a : Action} {uid : String}
  {user user' : List (String × Option Value)}

/-- The app sees this record: it is stored, or on its way from the app. -/
def Stored (c : Client) (uid : String) (user : List (String × Option Value)) : Prop :=
  (∃ g url, c.world.Registered uid g url ∧ g.record url = user) ∨ ∃ s, .user s uid user ∈ c.writes

/-- The view is the database of a state in which these records are stored. -/
lemma Tracks.exists_userView (h : c.Tracks) (hu : UsersOk c.world) :
    ∃ v, UsersOk v ∧ v.db = c.view ∧ ∀ uid user,
      (∃ g url, v.Registered uid g url ∧ g.record url = user) ↔ c.Stored uid user := by
  obtain ⟨v, hrun, hdb, -, -⟩ := h.exists_view
  exact ⟨v, hu.run hrun, hdb, registered_acceptsAll_iff hu h.pending h.nodup hrun⟩

/-- The registration that has sent the record. -/
lemma Stored.exists_signup (hs : c.Stored uid user) (h : c.Tracks) : ∃ s g st,
    c.world.signups s = some g ∧ g.stage = .setValue uid user st ∧ st ≠ .failed := by
  rcases hs with ⟨g, url, ⟨⟨s, hg⟩, hst⟩, rfl⟩ | ⟨s, hs⟩
  · exact ⟨s, g, .applied, hg, hst, by simp⟩
  · obtain ⟨g, hg, hst⟩ := h.pending _ hs
    exact ⟨s, g, .pending, hg, hst, by simp⟩

lemma Stored.submitted (hs : c.Stored uid user) (h : c.Tracks) (hu : UsersOk c.world) :
    ∃ g url, c.world.Submitted uid g url ∧ g.record url = user := by
  obtain ⟨s, g, st, hg, hst, -⟩ := hs.exists_signup h
  obtain ⟨url, rfl⟩ := hu.record s g uid user st hg hst
  exact ⟨g, url, ⟨s, st, hg, hst⟩, rfl⟩

/-- A rejected record is not seen. -/
lemma Stored.not_rejected (hs : c.Stored uid user) (h : c.Tracks) (hu : UsersOk c.world) :
    ¬ c.world.Rejected uid := by
  rintro ⟨s', g', user', hg', hst'⟩
  obtain ⟨s, g, st, hg, hst, hne⟩ := hs.exists_signup h
  obtain rfl := hu.apart s s' g g' uid hg hg' (by rw [hst]; rfl) (by rw [hst']; rfl)
  obtain rfl := Option.some.inj (hg.symm.trans hg')
  rw [hst, SignupStage.setValue.injEq] at hst'
  exact hne hst'.2.2

/-- **The app goes on seeing the record**, unless it is rejected. -/
lemma Stored.step (hs : c.Stored uid user) (h : c.Tracks) (hu : UsersOk c.world)
    (hstep : c.step d a = some c') : c'.Stored uid user ∨ c'.world.Rejected uid := by
  have hw' := world_step hstep
  rcases hs with ⟨g, url, hr, hrec⟩ | ⟨s, hs⟩
  · exact Or.inl (Or.inl ⟨g, url, hr.step hw', hrec⟩)
  · obtain ⟨g, hg, hst⟩ := h.pending _ hs
    by_cases hans : (OwnWrite.user s uid user).AnsweredBy a
    · rcases hans with rfl | rfl
      · exact Or.inl (Or.inl
          ((registered_accept_iff hu (h.pending _ hs) hw' uid user).mpr (Or.inr ⟨s, rfl⟩)))
      · refine Or.inr ⟨s, { g with stage := .setValue uid user .failed }, user, ?_, rfl⟩
        rw [step_userFailed hg hst hw']
        exact Function.update_self ..
    · refine Or.inl (Or.inr ⟨s, ?_⟩)
      rw [writes_step hstep]
      exact List.mem_append_left _ (List.mem_filter.mpr ⟨hs, decide_eq_true hans⟩)

/-- **The node of the user in the view** is the record, and nothing else. -/
lemma Stored.mem_leaves (hs : c.Stored uid user) (h : c.Tracks) (hu : UsersOk c.world)
    {e : List String × Value} (hpre : ["user", uid] <+: e.1) :
    e ∈ c.view.leaves ↔ ∃ f v, (f, some v) ∈ user ∧ e = (["user", uid, f], v) := by
  obtain ⟨v, hv, hdb, hstored⟩ := h.exists_userView hu
  obtain ⟨g, url, hr, rfl⟩ := (hstored uid user).mpr hs
  rw [← hdb, hv.mem_leaves_user hr hpre]

/-- The users that the app sees are those whose record it sees. -/
lemma Tracks.present_user_iff (h : c.Tracks) (hu : UsersOk c.world) :
    c.view.Present ["user", uid] ↔ ∃ user, c.Stored uid user := by
  obtain ⟨v, hv, hdb, hstored⟩ := h.exists_userView hu
  rw [← hdb]
  constructor
  · intro hk
    obtain ⟨g, url, hr⟩ := hv.exists_registered hk
    exact ⟨_, (hstored uid _).mp ⟨g, url, hr, rfl⟩⟩
  · rintro ⟨user, hs⟩
    obtain ⟨g, url, hr, -⟩ := (hstored uid user).mpr hs
    exact ⟨_, hv.stored uid g url hr "email" (.str g.email) (by simp [Signup.record]),
      List.prefix_append ["user", uid] ["email"]⟩

/-- The user list decodes the record. -/
lemma Tracks.newmessageUser_eq (h : c.Tracks) (hu : UsersOk c.world) {g : Signup} {url : String}
    (hs : c.Stored uid (g.record url)) :
    newmessageUser (snapshot c.view ["user", uid]) uid = .ok (g.user uid url) := by
  obtain ⟨v, hv, hdb, hstored⟩ := h.exists_userView hu
  obtain ⟨g', url', hr, hrec⟩ := (hstored uid _).mpr hs
  rw [← hdb, hv.newmessageUser_eq hr, ← Signup.user_eq_of_record_eq hrec]
  rfl

/-- **A record that is still seen has not changed.** -/
lemma Stored.not_nodeChanged (hs : c.Stored uid user) (h : c.Tracks) (hu : UsersOk c.world)
    (h' : c'.Tracks) (hu' : UsersOk c'.world) (hs' : c'.Stored uid user) :
    ¬ NodeChanged c.view c'.view ["user", uid] := by
  rintro ⟨e, he, hpre, hne⟩
  have hsame := (hs.mem_leaves h hu hpre).trans (hs'.mem_leaves h' hu' hpre).symm
  rw [← hsame, and_self] at hne
  rcases List.mem_append.mp he with he | he
  · exact hne he
  · exact hne (hsame.mpr he)

end Client

end AppChat
