import AppChat.Design.Database

/-!
`Design/User.swift` and the callbacks that decode a user record.

* `newmessageUser`, `didSelectRowAtUser`, `setupNameAndAvatar` force the fields
  of the record, `checkuserInputtitleUser` falls back to defaults.
* `UserRecord`: a record that holds strings for `email`, `name`, `pass` and
  `Avtar_url`; `UserRecord.of_forceString` and the `_ok` lemmas say that this is
  what the forcing callbacks need.
-/

namespace AppChat

/-- A user, as the screens keep it. -/
structure User where
  email : String
  name : String
  pass : String
  linkImage : String
  id : String
  lineVideo : String
  deriving DecidableEq, Repr

/-- The row of the user list built by `newmessage.getdata_fromfirebase` from the
record at `user/id`. -/
def newmessageUser (snap : Snapshot) (id : String) : Except Trap User := do
  let mangtemp ← snap.forceDictionary
  let email ← mangtemp.forceString "email"
  let pass ← mangtemp.forceString "pass"
  let name ← mangtemp.forceString "name"
  let linkImage ← mangtemp.forceString "Avtar_url"
  return ⟨email, name, pass, linkImage, id, "link_video"⟩

/-- The partner `messagecontroller.didSelectRowAt` hands to the chat log. -/
def didSelectRowAtUser (snap : Snapshot) (id : String) : Except Trap User := do
  let mangtemp ← snap.forceDictionary
  let email ← mangtemp.forceString "email"
  let name ← mangtemp.forceString "name"
  let pass ← mangtemp.forceString "pass"
  let avtarUrl ← mangtemp.forceString "Avtar_url"
  let linkVideo := mangtemp.asString "link_video"
  return ⟨email, name, pass, avtarUrl, id, linkVideo.getD "demo_link_video"⟩

/-- The name and the avatar link `UserCell.setup_name_and_avatar` shows. -/
def setupNameAndAvatar (snap : Snapshot) : Except Trap (String × String) := do
  let mangtemp ← snap.forceDictionary
  let name ← mangtemp.forceString "name"
  let linkAvatar ← mangtemp.forceString "Avtar_url"
  return (name, linkAvatar)

/-- The signed-in user `messagecontroller.checkuser_inputtitle` builds: every
field has a default, so an absent record is no trap here. -/
def checkuserInputtitleUser (snap : Snapshot) (id : String) : User :=
  let field (f : String) : Option String := snap.asDictionary.bind fun d => d.asString f
  ⟨(field "email").getD "emaildemo", (field "name").getD "loading....",
    (field "pass").getD "passdemo", (field "Avtar_url").getD "linkdemo", id,
    (field "link_video").getD "demo_linkvideo"⟩

/-- The record `user/x` exists with strings in the four fields a registration
writes. -/
def UserRecord (db : Database) (x : String) : Prop :=
  ∀ f ∈ ["email", "name", "pass", "Avtar_url"], ∃ s, db.valueAt ["user", x, f] = some (.str s)

instance (v : Option Value) : Decidable (∃ s, v = some (.str s)) :=
  match v with
  | some (.str s) => isTrue ⟨s, rfl⟩
  | some (.num n) => isFalse (by simp)
  | none => isFalse (by simp)

instance (db : Database) (x : String) : Decidable (UserRecord db x) :=
  inferInstanceAs (Decidable (∀ f ∈ ["email", "name", "pass", "Avtar_url"],
    ∃ s, db.valueAt ["user", x, f] = some (.str s)))

namespace UserRecord

variable {db : Database} {x : String}

/-- The record is delivered as a dictionary with the four fields. -/
lemma snapshot_eq (h : UserRecord db x) :
    ∃ (d : Fields) (email name pass url : String), snapshot db ["user", x] = .dictionary d ∧
      d.forceString "email" = .ok email ∧ d.forceString "name" = .ok name ∧
      d.forceString "pass" = .ok pass ∧ d.forceString "Avtar_url" = .ok url := by
  obtain ⟨email, h₁⟩ := h "email" (by simp)
  obtain ⟨name, h₂⟩ := h "name" (by simp)
  obtain ⟨pass, h₃⟩ := h "pass" (by simp)
  obtain ⟨url, h₄⟩ := h "Avtar_url" (by simp)
  refine ⟨_, email, name, pass, url, snapshot_eq_dictionary (p := ["user", x]) h₁, ?_, ?_, ?_, ?_⟩
  · exact Fields.forceString_eq_ok_iff.mpr h₁
  · exact Fields.forceString_eq_ok_iff.mpr h₂
  · exact Fields.forceString_eq_ok_iff.mpr h₃
  · exact Fields.forceString_eq_ok_iff.mpr h₄

/-- A dictionary whose four fields are forced without a trap is a user record. -/
lemma of_forceString {d : Fields} {email name pass url : String}
    (hd : snapshot db ["user", x] = .dictionary d) (h₁ : d.forceString "email" = .ok email)
    (h₂ : d.forceString "name" = .ok name) (h₃ : d.forceString "pass" = .ok pass)
    (h₄ : d.forceString "Avtar_url" = .ok url) : UserRecord db x := by
  simp only [Fields.forceString_eq_ok_iff, snapshot_dictionary hd] at h₁ h₂ h₃ h₄
  intro f hf
  simp only [List.mem_cons, List.not_mem_nil, or_false] at hf
  rcases hf with rfl | rfl | rfl | rfl
  exacts [⟨_, h₁⟩, ⟨_, h₂⟩, ⟨_, h₃⟩, ⟨_, h₄⟩]

end UserRecord

/-- A user the list shows has a record, and the id of its node. -/
lemma newmessageUser_eq_ok {db : Database} {x : String} {u : User}
    (h : newmessageUser (snapshot db ["user", x]) x = .ok u) : UserRecord db x ∧ u.id = x := by
  obtain ⟨d, hd, h⟩ := bind_eq_ok h
  obtain ⟨email, h₁, h⟩ := bind_eq_ok h
  obtain ⟨pass, h₂, h⟩ := bind_eq_ok h
  obtain ⟨name, h₃, h⟩ := bind_eq_ok h
  obtain ⟨url, h₄, h⟩ := bind_eq_ok h
  rw [Snapshot.forceDictionary_eq_ok_iff] at hd
  cases h
  exact ⟨UserRecord.of_forceString hd h₁ h₃ h₂ h₄, rfl⟩

/-- What `didSelectRowAt` reads from a record that does not trap. -/
lemma didSelectRowAtUser_fields {snap : Snapshot} {id : String} {u : User}
    (h : didSelectRowAtUser snap id = .ok u) :
    ∃ d, snap = .dictionary d ∧ d.forceString "email" = .ok u.email ∧
      d.forceString "name" = .ok u.name ∧ d.forceString "pass" = .ok u.pass ∧
      d.forceString "Avtar_url" = .ok u.linkImage ∧ u.id = id := by
  obtain ⟨d, hd, h⟩ := bind_eq_ok h
  obtain ⟨email, h₁, h⟩ := bind_eq_ok h
  obtain ⟨name, h₂, h⟩ := bind_eq_ok h
  obtain ⟨pass, h₃, h⟩ := bind_eq_ok h
  obtain ⟨url, h₄, h⟩ := bind_eq_ok h
  rw [Snapshot.forceDictionary_eq_ok_iff] at hd
  cases h
  exact ⟨d, hd, h₁, h₂, h₃, h₄, rfl⟩

/-- A user handed to the chat log has a record, and the id of its node. -/
lemma didSelectRowAtUser_eq_ok {db : Database} {x : String} {u : User}
    (h : didSelectRowAtUser (snapshot db ["user", x]) x = .ok u) : UserRecord db x ∧ u.id = x := by
  obtain ⟨d, hd, h₁, h₂, h₃, h₄, hid⟩ := didSelectRowAtUser_fields h
  exact ⟨UserRecord.of_forceString hd h₁ h₂ h₃ h₄, hid⟩

/-- Where `didSelectRowAt` does not trap, `checkuser_inputtitle` uses none of its
defaults, except that of the video link. -/
lemma checkuserInputtitleUser_eq {snap : Snapshot} {id : String} {u : User}
    (h : didSelectRowAtUser snap id = .ok u) :
    { checkuserInputtitleUser snap id with lineVideo := u.lineVideo } = u := by
  obtain ⟨d, rfl, h₁, h₂, h₃, h₄, hid⟩ := didSelectRowAtUser_fields h
  rw [Fields.forceString_eq_ok_iff, ← Fields.asString_eq_some_iff] at h₁ h₂ h₃ h₄
  cases u
  simp [checkuserInputtitleUser, Snapshot.asDictionary, h₁, h₂, h₃, h₄, ← hid]

end AppChat
