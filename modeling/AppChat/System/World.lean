import AppChat.Library.SlashPath
import AppChat.Library.Transition
import AppChat.Design.Mess
import AppChat.Design.User
import AppChat.Chat.Send

/-!
The whole system: the database and the storage, any number of running apps,
and every request between them.

A state holds what the server side has (database, storage, accounts) and what
each app has in flight. Requests are sent, accepted and answered in separate
actions, so a list of actions is an interleaving of all apps with every delay,
failure and loss; `step` says which actions are enabled and what they do. An
app that traps or is killed stops running: its blocks no longer run, while the
writes it has already sent may still arrive. The same app started again is
another device.

Of the backend the model takes what it documents: `updateChildValues` merges
children, `childByAutoId` gives a key that was never given before and is not a
user id, a completion block sees no error only after its write is applied, and
`createUser` signs the new account in.
-/

namespace AppChat

/-- An account of the authentication service. -/
structure AuthUser where
  uid : String
  email : String
  deriving DecidableEq, Repr

abbrev DeviceId := ℕ
abbrev RegisterId := ℕ
abbrev SignupId := ℕ
abbrev ChatId := ℕ
abbrev SendId := ℕ
abbrev DeletionId := ℕ

/-- A running app: `Auth.auth().currentUser`, and whether it still runs. -/
structure Device where
  currentUser : Option AuthUser
  running : Bool
  deriving DecidableEq, Repr

/-- A `register` screen. -/
structure Register where
  device : DeviceId
  txtemail : String
  txtpass : String
  txtname : String
  imagedata : Option Media
  deriving DecidableEq, Repr

/-- Where a registration stands, block by block. -/
inductive SignupStage where
  | createUser
  | putData (uid path : String) (image : Media) (stored : Bool)
  | downloadURL (uid path : String)
  | setValue (uid : String) (user : List (String × Option Value)) (st : WriteState)
  | ended
  deriving DecidableEq, Repr

/-- One call of `handleregister`, with the texts it has captured. -/
structure Signup where
  screen : RegisterId
  email : String
  pass : String
  name : String
  stage : SignupStage
  deriving DecidableEq, Repr

/-- The dictionary `handleregister` stores at `user/uid`. -/
def Signup.record (g : Signup) (avtarUrl : String) : List (String × Option Value) :=
  [("email", some (.str g.email)), ("pass", some (.str g.pass)), ("name", some (.str g.name)),
    ("Avtar_url", some (.str avtarUrl))]

/-- A `chat_logmessage` screen, opened for the user node `partnerId`. It is
`observed` when the inbox sets `user` from a listener. -/
structure ChatLogmessage where
  device : DeviceId
  partnerId : String
  observed : Bool
  user : Option User
  txtText : String
  deriving DecidableEq, Repr

/-- One call of a send path, with who was signed in and whose chat log was open
when it was started. -/
structure Send where
  chat : ChatId
  device : DeviceId
  starter : Option String
  partner : String
  stage : Stage

/-- One committed deletion, with the values its block has captured. -/
structure Deletion where
  device : DeviceId
  uid : String
  partnerId : String
  row : ℕ
  st : WriteState
  deriving DecidableEq, Repr

/-- A state of the system. `keys` are the keys `childByAutoId` has given. -/
structure World where
  db : Database
  storage : String → Option Media
  accounts : List AuthUser
  keys : List String
  devices : DeviceId → Device
  registers : RegisterId → Option Register
  signups : SignupId → Option Signup
  chats : ChatId → Option ChatLogmessage
  sends : SendId → Option Send
  deletions : DeletionId → Option Deletion

namespace World

/-- The empty system. -/
def init : World where
  db := .empty
  storage := fun _ => none
  accounts := []
  keys := []
  devices := fun _ => ⟨none, true⟩
  registers := fun _ => none
  signups := fun _ => none
  chats := fun _ => none
  sends := fun _ => none
  deletions := fun _ => none

/-- The user ids given so far. -/
def uids (w : World) : List String := w.accounts.map AuthUser.uid

/-- A key `childByAutoId` may give. -/
def FreshKey (w : World) (k : String) : Prop := k ∉ w.keys ∧ k ∉ w.uids

instance (w : World) (k : String) : Decidable (w.FreshKey k) :=
  inferInstanceAs (Decidable (k ∉ w.keys ∧ k ∉ w.uids))

/-- `Auth.auth().currentUser?.uid` on a device. -/
def currentUid (w : World) (d : DeviceId) : Option String :=
  (w.devices d).currentUser.map AuthUser.uid

/-- The app of the device stops: a trap, or it is killed. -/
@[simps -fullyApplied]
def crash (w : World) (d : DeviceId) : World :=
  { w with devices := Function.update w.devices d ⟨(w.devices d).currentUser, false⟩ }

/-- The device signs in, or out. -/
@[simps -fullyApplied]
def setCurrentUser (w : World) (d : DeviceId) (u : Option AuthUser) : World :=
  { w with devices := Function.update w.devices d ⟨u, (w.devices d).running⟩ }

@[simps -fullyApplied]
def setChat (w : World) (c : ChatId) (ch : ChatLogmessage) : World :=
  { w with chats := Function.update w.chats c (some ch) }

@[simps -fullyApplied]
def setSend (w : World) (i : SendId) (s : Send) : World :=
  { w with sends := Function.update w.sends i (some s) }

@[simps -fullyApplied]
def setSignup (w : World) (s : SignupId) (g : Signup) : World :=
  { w with signups := Function.update w.signups s (some g) }

@[simps -fullyApplied]
def setDeletion (w : World) (x : DeletionId) (del : Deletion) : World :=
  { w with deletions := Function.update w.deletions x (some del) }

/-- An object reaches the storage; a reference standardizes its path. -/
@[simps -fullyApplied]
def store (w : World) (path : String) (m : Media) : World :=
  { w with storage := Function.update w.storage (SlashPath.standardized path) (some m) }

end World

/-! ### The actions -/

/-- Signing in on the login screen, the sign-out of `handlelogout`, and the end
of an app. -/
inductive AuthAction where
  | signIn (d : DeviceId) (a : AuthUser)
  | signOut (d : DeviceId)
  | kill (d : DeviceId)
  deriving DecidableEq, Repr

/-- The steps of `register`; an answer of the server is `none` for an error. -/
inductive RegisterAction where
  | appear (r : RegisterId) (d : DeviceId) (imagedata : Option Media)
  | edit (r : RegisterId) (email pass name : String)
  | pickImage (r : RegisterId) (image : Media)
  | handleregister (s : SignupId) (r : RegisterId)
  | createUserDone (s : SignupId) (uid : Option String)
  | avatarStored (s : SignupId)
  | putDataDone (s : SignupId) (ok : Bool)
  | downloadURLDone (s : SignupId) (url : Option String)
  | userApplied (s : SignupId)
  | userFailed (s : SignupId)
  deriving DecidableEq, Repr

/-- Choosing a partner, and the text field of the chat log. -/
inductive ScreenAction where
  | newmessageSelect (c : ChatId) (d : DeviceId) (id : String)
  | inboxSelect (c : ChatId) (d : DeviceId) (arrayMess : List Mess) (row : ℕ)
  | userValue (c : ChatId)
  | editText (c : ChatId) (text : String)
  deriving DecidableEq, Repr

/-- The steps of the three send paths; an answer of the server is `none` for an
error. -/
inductive SendAction where
  | sendText (i : SendId) (c : ChatId) (key : String) (now : ℤ)
  | pickImage (i : SendId) (c : ChatId) (random : ℕ) (image : Media)
  | pickVideo (i : SendId) (c : ChatId) (random : ℕ) (movie : Media)
  | objectStored (i : SendId)
  | putFileDone (i : SendId) (ok : Bool)
  | movieURLDone (i : SendId) (url : Option String) (thumnail : Option Media) (random : ℕ)
  | putDataDone (i : SendId) (ok : Bool)
  | imageURLDone (i : SendId) (url : Option String) (key : String) (now : ℤ)
  | recordApplied (i : SendId)
  | recordFailed (i : SendId)
  | recordDone (i : SendId)
  | indexApplied (i : SendId) (side : Side)
  | indexFailed (i : SendId) (side : Side)
  deriving DecidableEq, Repr

/-- The send that an action belongs to. -/
def SendAction.id : SendAction → SendId
  | .sendText i .. => i
  | .pickImage i .. => i
  | .pickVideo i .. => i
  | .objectStored i => i
  | .putFileDone i _ => i
  | .movieURLDone i .. => i
  | .putDataDone i _ => i
  | .imageURLDone i .. => i
  | .recordApplied i => i
  | .recordFailed i => i
  | .recordDone i => i
  | .indexApplied i _ => i
  | .indexFailed i _ => i

/-- The steps of a conversation deletion, up to the answer of the server. -/
inductive DeleteAction where
  | commit (x : DeletionId) (d : DeviceId) (arrayMess : List Mess) (row : ℕ)
  | applied (x : DeletionId)
  | failed (x : DeletionId)
  deriving DecidableEq, Repr

inductive Action where
  | auth (a : AuthAction)
  | register (a : RegisterAction)
  | screen (a : ScreenAction)
  | send (a : SendAction)
  | delete (a : DeleteAction)
  deriving DecidableEq, Repr

namespace World

/-! ### Authentication -/

def authStep (w : World) : AuthAction → Option World
  | .signIn d a =>
      if (w.devices d).running ∧ a ∈ w.accounts then some (w.setCurrentUser d (some a)) else none
  | .signOut d =>
      if (w.devices d).running then some (w.setCurrentUser d none) else none
  | .kill d => some (w.crash d)

/-! ### Registration -/

/-- The storage path of an avatar. -/
def avatarPath (email : String) : String := "Image_Avatar:/" ++ email ++ ".jpg"

/-- The answer to `createUser`: the account is there, and an app that still
runs is signed in and uploads the avatar under the e-mail its text field now
holds. -/
def createUserDone (w : World) (s : SignupId) (g : Signup) (r : Register) (uid : String) :
    World :=
  let account : AuthUser := ⟨uid, g.email⟩
  let w' : World := { w with accounts := account :: w.accounts }
  if (w.devices r.device).running then
    match r.imagedata with
    | none =>
        -- `self.imagedata!`
        ((w'.setCurrentUser r.device (some account)).crash r.device).setSignup s
          { g with stage := .ended }
    | some image =>
        (w'.setCurrentUser r.device (some account)).setSignup s
          { g with stage := .putData uid (avatarPath r.txtemail) image false }
  else w'.setSignup s { g with stage := .ended }

def registerStep (w : World) : RegisterAction → Option World
  | .appear r d imagedata =>
      if (w.devices d).running ∧ w.registers r = none then
        some { w with registers := Function.update w.registers r (some ⟨d, "", "", "", imagedata⟩) }
      else none
  | .edit r email pass name =>
      (w.registers r).bind fun reg =>
        if (w.devices reg.device).running then
          some { w with registers := Function.update w.registers r (some
            { reg with txtemail := email, txtpass := pass, txtname := name }) }
        else none
  | .pickImage r image =>
      (w.registers r).bind fun reg =>
        if (w.devices reg.device).running then
          some { w with registers := Function.update w.registers r (some
            { reg with imagedata := some image }) }
        else none
  | .handleregister s r =>
      (w.registers r).bind fun reg =>
        if (w.devices reg.device).running ∧ w.signups s = none then
          some (w.setSignup s ⟨r, reg.txtemail, reg.txtpass, reg.txtname, .createUser⟩)
        else none
  | .createUserDone s uid =>
      (w.signups s).bind fun g => (w.registers g.screen).bind fun reg =>
        match g.stage, uid with
        | .createUser, some uid =>
            if uid ∉ w.uids ∧ uid ∉ w.keys ∧ g.email ∉ w.accounts.map AuthUser.email then
              some (w.createUserDone s g reg uid)
            else none
        | .createUser, none => some (w.setSignup s { g with stage := .ended })
        | _, _ => none
  | .avatarStored s =>
      (w.signups s).bind fun g =>
        match g.stage with
        | .putData uid path image _ =>
            some ((w.store path image).setSignup s { g with stage := .putData uid path image true })
        | _ => none
  | .putDataDone s ok =>
      (w.signups s).bind fun g => (w.registers g.screen).bind fun reg =>
        match g.stage with
        | .putData uid path _ stored =>
            if (w.devices reg.device).running ∧ (ok = true → stored = true) then
              some (w.setSignup s { g with stage := if ok then .downloadURL uid path else .ended })
            else none
        | _ => none
  | .downloadURLDone s url =>
      (w.signups s).bind fun g => (w.registers g.screen).bind fun reg =>
        match g.stage, url with
        | .downloadURL uid _, some url =>
            if (w.devices reg.device).running then
              some (w.setSignup s { g with stage := .setValue uid (g.record url) .pending })
            else none
        | .downloadURL _ _, none => some (w.setSignup s { g with stage := .ended })
        | _, _ => none
  | .userApplied s =>
      (w.signups s).bind fun g =>
        match g.stage with
        | .setValue uid user .pending =>
            some ({ w with db := w.db.setValue ["user", uid] user }.setSignup s
              { g with stage := .setValue uid user .applied })
        | _ => none
  | .userFailed s =>
      (w.signups s).bind fun g =>
        match g.stage with
        | .setValue uid user .pending =>
            some (w.setSignup s { g with stage := .setValue uid user .failed })
        | _ => none

/-! ### The chat log screens -/

def screenStep (w : World) : ScreenAction → Option World
  | .newmessageSelect c d id =>
      -- a row of the user list is there once its record has been delivered
      if (w.devices d).running ∧ w.chats c = none ∧ w.db.Present ["user", id] then
        match newmessageUser (snapshot w.db ["user", id]) id with
        | .ok user => some (w.setChat c ⟨d, id, false, some user, ""⟩)
        | .error _ => some (w.crash d)
      else none
  | .inboxSelect c d arrayMess row =>
      if (w.devices d).running ∧ w.chats c = none then
        match arrayMess[row]? with
        | some mess =>
            some (w.setChat c ⟨d, mess.getChatPartnerId (w.currentUid d), true, none, ""⟩)
        | none => some (w.crash d)
      else none
  | .userValue c =>
      (w.chats c).bind fun ch =>
        if (w.devices ch.device).running ∧ ch.observed = true then
          match didSelectRowAtUser (snapshot w.db ["user", ch.partnerId]) ch.partnerId with
          | .ok user => some (w.setChat c { ch with user := some user })
          | .error _ => some (w.crash ch.device)
        else none
  | .editText c text =>
      (w.chats c).bind fun ch =>
        if (w.devices ch.device).running then some (w.setChat c { ch with txtText := text })
        else none

end World

end AppChat
