import AppChat.Design.Database

/-!
`Design/Mess.swift` and the two callbacks that decode a message record.

* `Mess`, `getChatPartnerId`: a message and the other side of its conversation,
  seen by the signed-in user.
* `getMessage2Value`, `getMessageUserPartnerValue`: the innermost callbacks of
  `get_message_2` and `get_message_user_partner`, up to the point where the
  message is built. They differ in the order of the forced casts and in the
  default of `video_url`.
* `MessRecord`: a record both decode, so that none of their casts traps.
-/

namespace AppChat

/-- A message. -/
structure Mess where
  toID : String
  fromID : String
  timestapm : ℤ
  mess : String
  imageUrl : String
  videoUrl : String
  deriving DecidableEq, Repr

/-- The partner of a message for the signed-in user: the recipient of an own
message, the sender of any other. -/
def Mess.getChatPartnerId (currentUser : Option String) (m : Mess) : String :=
  if currentUser = some m.fromID then m.toID else m.fromID

/-- The message `get_message_2` builds from a delivered record. -/
def getMessage2Value (snap : Snapshot) : Except Trap Mess := do
  let messageData ← snap.forceDictionary
  let fromID ← messageData.forceString "fromID"
  let mess := messageData.asString "mess"
  let toID ← messageData.forceString "toID"
  let timestamp ← messageData.forceNumber "timestamp"
  let imageUrl := messageData.asString "image_url"
  let videoUrl := messageData.asString "video_url"
  return ⟨toID, fromID, timestamp, mess.getD "", imageUrl.getD "", videoUrl.getD "demo_video"⟩

/-- The message `get_message_user_partner` builds from a delivered record. -/
def getMessageUserPartnerValue (snap : Snapshot) : Except Trap Mess := do
  let mangtemp ← snap.forceDictionary
  let fromID ← mangtemp.forceString "fromID"
  let mess := mangtemp.asString "mess"
  let timestamp ← mangtemp.forceNumber "timestamp"
  let toID ← mangtemp.forceString "toID"
  let imageUrl := mangtemp.asString "image_url"
  let videoUrl := mangtemp.asString "video_url"
  return ⟨toID, fromID, timestamp, mess.getD "", imageUrl.getD "", videoUrl.getD ""⟩

/-- The record `mess/k` exists with string ids and a numeric timestamp. -/
structure MessRecord (db : Database) (k fromID toID : String) : Prop where
  fromID_eq : db.valueAt ["mess", k, "fromID"] = some (.str fromID)
  toID_eq : db.valueAt ["mess", k, "toID"] = some (.str toID)
  timestamp : ∃ n, db.valueAt ["mess", k, "timestamp"] = some (.num n)

namespace MessRecord

variable {db : Database} {k fromID toID : String}

/-- The record is delivered as a dictionary whose forced fields are there. -/
lemma snapshot_eq (h : MessRecord db k fromID toID) :
    ∃ (d : Fields) (n : ℤ), snapshot db ["mess", k] = .dictionary d ∧
      d.forceString "fromID" = .ok fromID ∧ d.forceString "toID" = .ok toID ∧
      d.forceNumber "timestamp" = .ok n := by
  obtain ⟨n, hn⟩ := h.timestamp
  refine ⟨_, n, snapshot_eq_dictionary (p := ["mess", k]) h.fromID_eq, ?_, ?_, ?_⟩
  · exact Fields.forceString_eq_ok_iff.mpr h.fromID_eq
  · exact Fields.forceString_eq_ok_iff.mpr h.toID_eq
  · exact Fields.forceNumber_eq_ok_iff.mpr hn

/-- `get_message_2` decodes the record without a trap. -/
lemma getMessage2Value_ok (h : MessRecord db k fromID toID) :
    ∃ m, getMessage2Value (snapshot db ["mess", k]) = .ok m ∧
      m.fromID = fromID ∧ m.toID = toID := by
  obtain ⟨d, n, hd, h₁, h₂, h₃⟩ := h.snapshot_eq
  simp only [getMessage2Value, hd, Snapshot.forceDictionary, bind, Except.bind, h₁, h₂, h₃, pure,
    Except.pure]
  exact ⟨_, rfl, rfl, rfl⟩

/-- `get_message_user_partner` decodes the record without a trap. -/
lemma getMessageUserPartnerValue_ok (h : MessRecord db k fromID toID) :
    ∃ m, getMessageUserPartnerValue (snapshot db ["mess", k]) = .ok m ∧
      m.fromID = fromID ∧ m.toID = toID := by
  obtain ⟨d, n, hd, h₁, h₂, h₃⟩ := h.snapshot_eq
  simp only [getMessageUserPartnerValue, hd, Snapshot.forceDictionary, bind, Except.bind, h₁, h₂,
    h₃, pure, Except.pure]
  exact ⟨_, rfl, rfl, rfl⟩

end MessRecord

/-- A message between `u` and `p` has the partner `p` for `u`. -/
lemma Mess.getChatPartnerId_eq {m : Mess} {u p : String}
    (h : (m.fromID = u ∧ m.toID = p) ∨ (m.fromID = p ∧ m.toID = u)) :
    m.getChatPartnerId (some u) = p := by
  unfold Mess.getChatPartnerId
  rcases h with ⟨h₁, h₂⟩ | ⟨h₁, h₂⟩
  · rw [if_pos (by rw [h₁]), h₂]
  · by_cases hup : u = p
    · rw [if_pos (by rw [h₁, hup]), h₂, hup]
    · rw [if_neg (by simpa [h₁] using hup), h₁]

end AppChat
