import AppChat.System.World

/-!
The steps of the send paths and of a deletion, and the step of the system.

* `sendDataToFirebase`, `imagePickerController`, `uploadVideoToFirebase` start
  a send; `uploadImageChatToFirebase` is the upload the last two share, and
  `imageCompletion` the block it runs at the end, which reads the signed-in
  user again.
* `recordDone` is the completion block of the record write: it clears the text
  field, forces the two ids and sends the two index writes; the one under the sender
  of a video goes out before the id of the recipient is forced.
* `step` joins the steps of all parts; `Runs` and `Reachable` are its runs from
  the empty system.
-/

namespace AppChat

namespace World

/-! ### Starting a send -/

/-- `send_data_to_Firebase`, the action of the Send button: everything the
record and the index need is read here. -/
def sendDataToFirebase (w : World) (i : SendId) (c : ChatId) (ch : ChatLogmessage) (key : String)
    (now : ℤ) : World :=
  match ch.user with
  | none => w.crash ch.device -- `user!.id`
  | some user =>
      let b : RecordBlock :=
        { payload := .text ch.txtText
          key := key
          fromID := w.currentUid ch.device
          toID := some user.id
          timestamp := now }
      { w with keys := key :: w.keys }.setSend i
        ⟨c, ch.device, w.currentUid ch.device, ch.partnerId, .record b .pending⟩

/-- `upload_image_chat_to_firebase` up to its request: the path is built from
the e-mails of the signed-in user and of the partner. -/
def uploadImageChatToFirebase (w : World) (ch : ChatLogmessage) (random : ℕ) (image : Media)
    (completion : ImageCompletion) : Stage :=
  .putData (chatImagePath ((w.devices ch.device).currentUser.map AuthUser.email)
    (ch.user.map User.email) random) image false completion

/-- The picker's else branch. -/
def imagePickerController (w : World) (i : SendId) (c : ChatId) (ch : ChatLogmessage)
    (random : ℕ) (image : Media) : World :=
  w.setSend i ⟨c, ch.device, w.currentUid ch.device, ch.partnerId,
    w.uploadImageChatToFirebase ch random image .imageSend⟩

/-- `upload_video_to_firebase` up to its first request. -/
def uploadVideoToFirebase (w : World) (i : SendId) (c : ChatId) (ch : ChatLogmessage)
    (random : ℕ) (movie : Media) : World :=
  w.setSend i ⟨c, ch.device, w.currentUid ch.device, ch.partnerId,
    .putFile (moviePath random) movie false⟩

/-! ### The blocks of a send -/

/-- The block `upload_image_chat_to_firebase` runs once the image has a link:
the picker's block forces `self.user`, that of the video path does not. -/
def imageCompletion (w : World) (i : SendId) (s : Send) (ch : ChatLogmessage)
    (completion : ImageCompletion) (url key : String) (now : ℤ) : World :=
  let issue (payload : Payload) : World :=
    let b : RecordBlock :=
      { payload := payload
        key := key
        fromID := w.currentUid s.device
        toID := ch.user.map User.id
        timestamp := now }
    { w with keys := key :: w.keys }.setSend i { s with stage := .record b .pending }
  match completion, ch.user with
  | .imageSend, none => w.crash s.device -- `self.user!.id`
  | .imageSend, some _ => issue (.image url)
  | .videoSend linkVideo, _ => issue (.video linkVideo url)

/-- The completion block of the record write, the record being accepted. -/
def recordDone (w : World) (i : SendId) (s : Send) (ch : ChatLogmessage) (b : RecordBlock) :
    World :=
  let w' := w.setChat s.chat { ch with txtText := "" }
  match b.fromID, b.toID with
  | some fromID, some toID =>
      w'.setSend i { s with stage := .index b fromID toID fun _ => .pending }
  | some fromID, none =>
      -- `toID!`, which a video forces after the write under its sender is sent
      if b.payload.isVideo then
        (w'.setSend i { s with stage := .index b fromID "demo_toID" senderOnly }).crash s.device
      else w'.crash s.device
  | none, _ => w'.crash s.device -- `fromID!`

/-- The index write of one side: `updateChildValues(["\(key!)" : 1])`. -/
def indexWrite (db : Database) (b : RecordBlock) (fromID toID : String) (side : Side) : Database :=
  db.updateChildValues (b.table fromID toID side) [(b.key, some (.num 1))]

def sendStep (w : World) : SendAction → Option World
  | .sendText i c key now =>
      (w.chats c).bind fun ch =>
        if (w.devices ch.device).running ∧ w.sends i = none ∧ w.FreshKey key then
          some (w.sendDataToFirebase i c ch key now)
        else none
  | .pickImage i c random image =>
      (w.chats c).bind fun ch =>
        if (w.devices ch.device).running ∧ w.sends i = none ∧ random ≤ 10000 then
          some (w.imagePickerController i c ch random image)
        else none
  | .pickVideo i c random movie =>
      (w.chats c).bind fun ch =>
        if (w.devices ch.device).running ∧ w.sends i = none ∧ random ≤ 10000 then
          some (w.uploadVideoToFirebase i c ch random movie)
        else none
  | .objectStored i =>
      (w.sends i).bind fun s =>
        match s.stage with
        | .putFile path movie _ =>
            some ((w.store path movie).setSend i { s with stage := .putFile path movie true })
        | .putData path image _ completion =>
            some ((w.store path image).setSend i
              { s with stage := .putData path image true completion })
        | _ => none
  | .putFileDone i ok =>
      (w.sends i).bind fun s =>
        match s.stage with
        | .putFile path movie stored =>
            -- an error is printed, and the block goes on all the same
            if (w.devices s.device).running ∧ (ok = true → stored = true) then
              some (w.setSend i { s with stage := .movieURL path movie })
            else none
        | _ => none
  | .movieURLDone i url thumnail random =>
      (w.sends i).bind fun s => (w.chats s.chat).bind fun ch =>
        match s.stage with
        | .movieURL _ _ =>
            if (w.devices s.device).running ∧ random ≤ 10000 then
              match thumnail with
              | none => some (w.crash s.device) -- `thumnail_CGImage!`
              | some image =>
                  -- an error is printed here too; `url` is then `nil`
                  some (w.setSend i { s with stage :=
                    w.uploadImageChatToFirebase ch random image (.videoSend url) })
            else none
        | _ => none
  | .putDataDone i ok =>
      (w.sends i).bind fun s =>
        match s.stage with
        | .putData path _ stored completion =>
            if (w.devices s.device).running ∧ (ok = true → stored = true) then
              some (w.setSend i
                { s with stage := if ok then .imageURL path completion else .aborted })
            else none
        | _ => none
  | .imageURLDone i url key now =>
      (w.sends i).bind fun s => (w.chats s.chat).bind fun ch =>
        match s.stage with
        | .imageURL _ completion =>
            if (w.devices s.device).running ∧ w.FreshKey key then
              match url with
              | none => some (w.setSend i { s with stage := .aborted })
              | some url => some (w.imageCompletion i s ch completion url key now)
            else none
        | _ => none
  | .recordApplied i =>
      (w.sends i).bind fun s =>
        match s.stage with
        | .record b .pending =>
            some ({ w with db := w.db.updateChildValues ["mess", b.key] b.data }.setSend i
              { s with stage := .record b .applied })
        | _ => none
  | .recordFailed i =>
      (w.sends i).bind fun s =>
        match s.stage with
        | .record b .pending => some (w.setSend i { s with stage := .record b .failed })
        | _ => none
  | .recordDone i =>
      (w.sends i).bind fun s => (w.chats s.chat).bind fun ch =>
        match s.stage with
        | .record b .applied =>
            if (w.devices s.device).running then some (w.recordDone i s ch b) else none
        | _ => none
  | .indexApplied i side =>
      (w.sends i).bind fun s =>
        match s.stage with
        | .index b fromID toID st =>
            if st side = .pending then
              some ({ w with db := indexWrite w.db b fromID toID side }.setSend i
                { s with stage := .index b fromID toID (Function.update st side .applied) })
            else none
        | _ => none
  | .indexFailed i side =>
      (w.sends i).bind fun s =>
        match s.stage with
        | .index b fromID toID st =>
            if st side = .pending then
              some (w.setSend i
                { s with stage := .index b fromID toID (Function.update st side .failed) })
            else none
        | _ => none

/-! ### Deleting a conversation -/

def deleteStep (w : World) : DeleteAction → Option World
  | .commit x d arrayMess row =>
      if (w.devices d).running ∧ w.deletions x = none then
        match w.currentUid d with
        | none => some w
        | some uid =>
            match arrayMess[row]? with
            | none => some (w.crash d)
            | some mess =>
                some (w.setDeletion x
                  ⟨d, uid, mess.getChatPartnerId (w.currentUid d), row, .pending⟩)
      else none
  | .applied x =>
      (w.deletions x).bind fun del =>
        if del.st = .pending then
          some ({ w with db := w.db.remove ["user-mess", del.uid, del.partnerId] }.setDeletion x
            { del with st := .applied })
        else none
  | .failed x =>
      (w.deletions x).bind fun del =>
        if del.st = .pending then some (w.setDeletion x { del with st := .failed }) else none

/-! ### The system -/

/-- The step of the system. -/
def step (w : World) : Action → Option World
  | .auth a => w.authStep a
  | .register a => w.registerStep a
  | .screen a => w.screenStep a
  | .send a => w.sendStep a
  | .delete a => w.deleteStep a

/-- The actions `as` lead from the empty system to `w`. -/
def Runs (as : List Action) (w : World) : Prop := Transition.run step init as = some w

/-- A state some interleaving leads to. -/
def Reachable (w : World) : Prop := ∃ as, Runs as w

/-! ### What the listeners of a reader reach -/

/-- The pairs of a second- and a third-level key below `user-mess/uid`, for
which `get_message_2` reads a record: a listener on `user-mess/uid`, and one on
each child it reports. -/
def getMessage2Keys (db : Database) (uid : String) : List (String × String) :=
  (db.childKeys ["user-mess", uid]).flatMap fun messageIdPartner =>
    (db.childKeys ["user-mess", uid, messageIdPartner]).map fun messageId =>
      (messageIdPartner, messageId)

/-- The pairs for which `get_message_user_partner` listens to a record. -/
def getMessageUserPartnerKeys (db : Database) (uid : String) : List (String × String) :=
  (db.childKeys ["user-mess", uid]).flatMap fun partnerId =>
    (db.childKeys ["user-mess", uid, partnerId]).map fun keyMessage => (partnerId, keyMessage)

end World

end AppChat
