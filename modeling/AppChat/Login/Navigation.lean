import AppChat.Library.Transition

/-!
The navigation stack of one run of the app, with the user of `Auth` and the
listeners that the login screens add to it.

* `AuthListener`: the block that `addAuthStateDidChangeListener` registers, with
  its two captured variables. It passes a notification on when it is the first
  one, or when the user id has changed.
* `Navigation`: the screens, and what a screen does that changes the stack.
* `Navigation.step`: what may happen next. Signing in and registering are
  requests, which complete whatever screen is shown by then.

A screen that is on the stack stays alive, and so does its listener, whose
handle is dropped: nothing removes it.
-/

namespace AppChat

/-- The screens, by their names in the storyboard. -/
inductive Screen where
  | login
  | register
  | messagecontroller
  | newmessage
  | chatLogmessage
  deriving DecidableEq, Repr

/-- A registered block: `firstInvocation` and `previousUserID`. -/
structure AuthListener where
  firstInvocation : Bool
  previousUserID : Option String
  deriving DecidableEq, Repr

namespace AuthListener

/-- The block before it has been invoked. -/
def new : AuthListener := ⟨true, none⟩

/-- Whether the block calls the listener it wraps. -/
def shouldCallListener (l : AuthListener) (user : Option String) : Bool :=
  l.firstInvocation || l.previousUserID != user

/-- The block after it has been invoked. -/
def invoked (user : Option String) : AuthListener := ⟨false, user⟩

end AuthListener

/-- The user of `Auth`, the navigation stack with the screen on top first, and
the registered blocks. -/
structure Navigation where
  currentUser : Option String
  screens : List Screen
  listeners : List AuthListener
  deriving DecidableEq, Repr

/-- What may happen: the launch, the buttons, the completions of the two
requests, and a new token for the same user. -/
inductive NavigationAction where
  | launch
  | movetoregister
  | move
  | back
  | signIn (uid : String)
  | createUser (uid : String)
  | tokenRefresh
  | handlelogout (signedOut : Bool)
  | handlemovetonewmesssage
  | didSelectRowAt
  | handlecancel
  deriving DecidableEq, Repr

/-- The listener that `islogined` adds. The new inbox finds the user signed in. -/
def isloginedListener (user : Option String) (screens : List Screen) : List Screen :=
  if user = none then screens else .messagecontroller :: screens

/-- The stack after the blocks have been invoked, one after the other. -/
def invokeAll (user : Option String) : List AuthListener → List Screen → List Screen
  | [], screens => screens
  | l :: ls, screens =>
      invokeAll user ls
        (if l.shouldCallListener user then isloginedListener user screens else screens)

namespace Navigation

/-- The app before it is launched, with the user kept from its last run. -/
def init (u : Option String) : Navigation := ⟨u, [], []⟩

/-- The notification of a change, which goes to every block. -/
def post (s : Navigation) : Navigation :=
  { s with
    screens := invokeAll s.currentUser s.listeners s.screens
    listeners := s.listeners.map fun _ => .invoked s.currentUser }

/-- A user signs in or out. -/
def setCurrentUser (s : Navigation) (u : Option String) : Navigation :=
  { s with currentUser := u }.post

/-- `islogined`: a new block, which is invoked at once. -/
def islogined (s : Navigation) : Navigation :=
  { s with
    screens := invokeAll s.currentUser [.new] s.screens
    listeners := s.listeners ++ [.invoked s.currentUser] }

def push (s : Navigation) (screen : Screen) : Navigation :=
  { s with screens := screen :: s.screens }

/-- A login screen is pushed and appears. -/
def pushLogin (s : Navigation) : Navigation := (s.push .login).islogined

/-- `handlelogout`; an error of `signOut` is only printed. -/
def handlelogout (s : Navigation) (signedOut : Bool) : Navigation :=
  if signedOut then (s.setCurrentUser none).pushLogin else s.pushLogin

/-- An inbox is pushed, and `checkuser_inputtitle` looks for the user. -/
def pushMessagecontroller (s : Navigation) : Navigation :=
  if s.currentUser = none then (s.push .messagecontroller).handlelogout true
  else s.push .messagecontroller

/-- The screen on top is popped. The one below appears, and of all screens only
`login` has a `viewWillAppear`. -/
def pop (s : Navigation) : Navigation :=
  let t := { s with screens := s.screens.tail }
  if t.screens.head? = some .login then t.islogined else t

def step (s : Navigation) : NavigationAction → Option Navigation
  | .launch => if s.screens = [] then some s.pushLogin else none
  | .movetoregister => if s.screens.head? = some .login then some (s.push .register) else none
  | .move => if s.screens.head? = some .register then some s.pushLogin else none
  | .back =>
      -- the other screens have a button of their own in this place
      if s.screens.head? ∈ [some .register, some .chatLogmessage] then some s.pop else none
  | .signIn uid => if s.screens ≠ [] then some (s.setCurrentUser (some uid)) else none
  | .createUser uid => if s.screens ≠ [] then some (s.setCurrentUser (some uid)) else none
  | .tokenRefresh => some s.post
  | .handlelogout signedOut =>
      if s.screens.head? = some .messagecontroller then some (s.handlelogout signedOut) else none
  | .handlemovetonewmesssage =>
      if s.screens.head? = some .messagecontroller then some (s.push .newmessage) else none
  | .didSelectRowAt =>
      if s.screens.head? ∈ [some .messagecontroller, some .newmessage] then
        some (s.push .chatLogmessage)
      else none
  | .handlecancel =>
      if s.screens.head? = some .newmessage then some s.pushMessagecontroller else none

/-- The step has a login screen appear. -/
def loginAppears (s : Navigation) : NavigationAction → Option Unit
  | .launch => some ()
  | .move => some ()
  | .handlelogout _ => some ()
  | .back => if s.screens.tail.head? = some .login then some () else none
  | .handlecancel => if s.currentUser = none then some () else none
  | _ => none

/-- How often a login screen has appeared in a run. -/
def appearances (u : Option String) (as : List NavigationAction) : ℕ :=
  (Transition.trace step loginAppears (init u) as).length

end Navigation

end AppChat
