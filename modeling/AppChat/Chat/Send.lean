import AppChat.Design.Database

/-!
The three send paths of `chat_logmessage`: what each of them writes, and the
stages a send goes through.

* `textRecord`, `imageRecord`, `videoRecord`: the dictionaries of
  `send_data_to_Firebase`, of the picker's else branch and of
  `upload_video_to_firebase`. A field set to `nil` is a write of nothing.
* `textTable`, `imageTable`, `videoTable`: the two nodes of `user-mess` under
  which each path enters the key once the record is accepted.
* `RecordBlock`: what the completion block of the record write has captured.
* `Stage`: the nested completion blocks, outermost first, each with the values
  it has captured.
-/

namespace AppChat

/-- The content of a stored file. -/
abbrev Media := List UInt8

/-- The two index entries of a send: the sender's and the recipient's. -/
inductive Side where
  | sender
  | recipient
  deriving DecidableEq, Repr

/-- A write on its way: sent, accepted by the database, or rejected, lost or never sent. -/
inductive WriteState where
  | pending
  | applied
  | failed
  deriving DecidableEq, Repr

/-! ### The records -/

/-- The dictionary of `send_data_to_Firebase`. -/
def textRecord (text : String) (toID fromID : Option String) (timestamp : ℤ) :
    List (String × Option Value) :=
  [("mess", some (.str text)), ("toID", some (.str (toID.getD "demo_toID"))),
    ("fromID", some (.str (fromID.getD "demo_from_ID"))), ("timestamp", some (.num timestamp))]

/-- The dictionary of the picker's else branch. -/
def imageRecord (imageUrl : String) (toID fromID : Option String) (timestamp : ℤ) :
    List (String × Option Value) :=
  [("image_url", some (.str imageUrl)), ("toID", some (.str (toID.getD "demo_toID"))),
    ("fromID", some (.str (fromID.getD "demo_from_ID"))), ("timestamp", some (.num timestamp)),
    ("mess", none)]

/-- The dictionary of `upload_video_to_firebase`. -/
def videoRecord (linkVideo : Option String) (imageUrl : String) (toID fromID : Option String)
    (timestamp : ℤ) : List (String × Option Value) :=
  [("link_video", some (.str (linkVideo.getD "link_video"))),
    ("toID", some (.str (toID.getD "demo_toID"))),
    ("fromID", some (.str (fromID.getD "demo_from_ID"))), ("timestamp", some (.num timestamp)),
    ("mess", none), ("image_url", some (.str imageUrl)), ("video_url", linkVideo.map .str)]

/-! ### The index nodes -/

/-- `send_data_to_Firebase` enters the key at `user-mess/fromID/toID` and at
`user-mess/toID/fromID`. -/
def textTable (fromID toID : String) : Side → List String
  | .sender => ["user-mess", fromID, toID]
  | .recipient => ["user-mess", toID, fromID]

/-- The picker's else branch uses the same two nodes. -/
def imageTable (fromID toID : String) : Side → List String
  | .sender => ["user-mess", fromID, toID]
  | .recipient => ["user-mess", toID, fromID]

/-- `upload_video_to_firebase` enters the key one level higher, at
`user-mess/fromID` and at `user-mess/toID`. -/
def videoTable (fromID toID : String) : Side → List String
  | .sender => ["user-mess", fromID]
  | .recipient => ["user-mess", toID]

/-! ### The completion block of the record write -/

/-- What a path sends. -/
inductive Payload where
  | text (mess : String)
  | image (imageUrl : String)
  | video (linkVideo : Option String) (imageUrl : String)
  deriving DecidableEq, Repr

/-- The video path, the one whose index nodes are not those of a conversation. -/
def Payload.isVideo : Payload → Bool
  | .video .. => true
  | _ => false

/-- What the completion block of the record write has captured: the payload, the
key of `table_mess`, the two ids and the timestamp. -/
structure RecordBlock where
  payload : Payload
  key : String
  fromID : Option String
  toID : Option String
  timestamp : ℤ
  deriving DecidableEq, Repr

namespace RecordBlock

/-- The children the record write sends to `mess/key`. -/
def data (b : RecordBlock) : List (String × Option Value) :=
  match b.payload with
  | .text mess => textRecord mess b.toID b.fromID b.timestamp
  | .image imageUrl => imageRecord imageUrl b.toID b.fromID b.timestamp
  | .video linkVideo imageUrl => videoRecord linkVideo imageUrl b.toID b.fromID b.timestamp

/-- The node of `user-mess` an index write of the block goes to. -/
def table (b : RecordBlock) (fromID toID : String) : Side → List String :=
  match b.payload with
  | .text _ => textTable fromID toID
  | .image _ => imageTable fromID toID
  | .video .. => videoTable fromID toID

/-- The ids the write of one side goes by are there: that of the recipient too, but for a
video that is entered under its sender. -/
def Addressed (b : RecordBlock) (toID : String) (side : Side) : Prop :=
  b.toID = some toID ∨ b.toID = none ∧ b.payload.isVideo = true ∧ side = .sender

/-- The fields of a record are distinct. -/
lemma data_nodup (b : RecordBlock) : (b.data.map Prod.fst).Nodup := by
  cases hb : b.payload <;> simp [data, hb, textRecord, imageRecord, videoRecord]

/-- Every record carries the sender, or the placeholder. -/
lemma fromID_mem_data (b : RecordBlock) :
    ("fromID", some (.str (b.fromID.getD "demo_from_ID"))) ∈ b.data := by
  cases hb : b.payload <;> simp [data, hb, textRecord, imageRecord, videoRecord]

/-- Every record carries the recipient, or the placeholder. -/
lemma toID_mem_data (b : RecordBlock) :
    ("toID", some (.str (b.toID.getD "demo_toID"))) ∈ b.data := by
  cases hb : b.payload <;> simp [data, hb, textRecord, imageRecord, videoRecord]

/-- Every record carries its timestamp. -/
lemma timestamp_mem_data (b : RecordBlock) :
    ("timestamp", some (.num b.timestamp)) ∈ b.data := by
  cases hb : b.payload <;> simp [data, hb, textRecord, imageRecord, videoRecord]

/-- The nodes of a text or an image: the conversation, seen from either side. -/
lemma table_of_not_isVideo {b : RecordBlock} (h : b.payload.isVideo = false)
    (fromID toID : String) : b.table fromID toID = textTable fromID toID := by
  cases hb : b.payload with
  | text mess => simp [table, hb]
  | image imageUrl =>
      funext side
      cases side <;> simp [table, hb, imageTable, textTable]
  | video linkVideo imageUrl => simp [hb, Payload.isVideo] at h

/-- Every index write goes below `user-mess`. -/
lemma table_eq_cons (b : RecordBlock) (fromID toID : String) (side : Side) :
    ∃ r, b.table fromID toID side = "user-mess" :: r := by
  cases hb : b.payload <;> cases side <;> simp [table, hb, textTable, imageTable, videoTable]

/-- The ids below `user-mess` in these nodes are those of the sender and the recipient. -/
lemma mem_table_tail (b : RecordBlock) {fromID toID x : String} {side : Side}
    (h : x ∈ (b.table fromID toID side).tail) : x = fromID ∨ x = toID := by
  cases hb : b.payload <;> cases side <;>
    simp [table, hb, textTable, imageTable, videoTable] at h <;> tauto

/-- A text or an image goes by both ids. -/
lemma Addressed.toID {b : RecordBlock} {toID : String} {side : Side} (h : b.Addressed toID side)
    (hv : b.payload.isVideo = false) : b.toID = some toID := by
  rcases h with h | ⟨-, hv', -⟩
  · exact h
  · rw [hv] at hv'
    cases hv'

/-- The nodes of a video. -/
lemma table_of_isVideo {b : RecordBlock} (h : b.payload.isVideo = true)
    (fromID toID : String) : b.table fromID toID = videoTable fromID toID := by
  cases hb : b.payload with
  | text mess => simp [hb, Payload.isVideo] at h
  | image imageUrl => simp [hb, Payload.isVideo] at h
  | video linkVideo imageUrl => simp [table, hb]

end RecordBlock

/-! ### Uploads and stages -/

/-- An optional string in a string interpolation. -/
def describing : Option String → String
  | none => "nil"
  | some s => "Optional(" ++ s.quote ++ ")"

/-- The storage path of `upload_image_chat_to_firebase`. -/
def chatImagePath (currentEmail userEmail : Option String) (random : ℕ) : String :=
  "Chat_image:" ++ describing currentEmail ++ describing userEmail ++ "/" ++ toString random ++
    ".jpg"

/-- The storage path of `upload_video_to_firebase`. -/
def moviePath (random : ℕ) : String := "movie:/" ++ toString random

/-- The block handed to `upload_image_chat_to_firebase`: that of the picker's
else branch, or that of the video path with the download link of the movie. -/
inductive ImageCompletion where
  | imageSend
  | videoSend (linkVideo : Option String)
  deriving DecidableEq, Repr

/-- Where a send stands: which request it waits for, with what the block of
that request has captured. `stored` says that the upload has reached the
storage. -/
inductive Stage where
  | putFile (path : String) (movie : Media) (stored : Bool)
  | movieURL (path : String) (movie : Media)
  | putData (path : String) (image : Media) (stored : Bool) (completion : ImageCompletion)
  | imageURL (path : String) (completion : ImageCompletion)
  | aborted
  | record (b : RecordBlock) (st : WriteState)
  | index (b : RecordBlock) (fromID toID : String) (st : Side → WriteState)

/-- The index writes of a video whose completion block has stopped between them. -/
def senderOnly : Side → WriteState
  | .sender => .pending
  | .recipient => .failed

/-- The completion block of the record write, once the record is issued. -/
def Stage.block : Stage → Option RecordBlock
  | .record b _ => some b
  | .index b .. => some b
  | _ => none

end AppChat
