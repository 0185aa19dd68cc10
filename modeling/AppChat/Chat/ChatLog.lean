import AppChat.Library.Entries
import AppChat.Library.Transition
import AppChat.Design.Mess

/-!
`chat_logmessage`: the messages the chat screen lists, and its three levels of
listeners.

`user.didSet` adds a listener on `user-mess/uid`, which reports the partners;
each report adds a listener on the node of the partner, which reports the keys;
each of these adds a listener on the record of the key, whose value event
appends the message. No listener is ever removed.

* `ChatLog`: the screen with its listeners, the events that are on their way to
  them, and the index node `user-mess/uid` they listen to.
* `ChatLog.step`: what may happen next, in any order: the index changes, the
  user is set, an event is delivered, a record is delivered again.

As in `InboxState`, `record` gives the message of a key once and for all.
-/

namespace AppChat

/-- The chat screen of the signed-in user, with the conversation index. The
events on their way are `partnerEvents`, `keyEvents` and `valueEvents`, one list
for each level of listeners. -/
structure ChatLog where
  user : Option String
  arrayMessage : List Mess
  index : List (String × String)
  outer : ℕ
  inner : String → ℕ
  values : List String
  partnerEvents : List String
  keyEvents : List (String × String)
  valueEvents : List String
  /-- the keys that have been in the partner's node since the user was first set -/
  seen : List String

/-- What may happen: `user.didSet`, a key or the removal of a partner's node in
the index, the callbacks of the three listeners, and a change of a record. -/
inductive ChatAction where
  | setUser
  | added (partnerId key : String)
  | removed (partnerId : String)
  | partnerAdded (partnerId : String)
  | keyAdded (partnerId key : String)
  | value (key : String)
  | changed (key : String)
  deriving DecidableEq, Repr

namespace ChatLog

/-- The screen before the user is set, over an empty index. -/
def init : ChatLog := ⟨none, [], [], 0, fun _ => 0, [], [], [], [], []⟩

/-- The keys in the node of a partner. -/
def keys (s : ChatLog) (q : String) : List String := Entries.under s.index q

/-- `get_message_user_partner`: one more listener on `user-mess/uid`, which
reports every partner. -/
def getMessageUserPartner (s : ChatLog) : ChatLog :=
  { s with
    outer := s.outer + 1
    partnerEvents := s.partnerEvents ++ (s.index.map Prod.fst).dedup }

/-- The outer callback: one more listener on the node of the partner, which
reports every key. -/
def partnerAdded (s : ChatLog) (q : String) : ChatLog :=
  { s with
    partnerEvents := s.partnerEvents.erase q
    inner := Function.update s.inner q (s.inner q + 1)
    keyEvents := s.keyEvents ++ (s.keys q).map fun k => (q, k) }

/-- The middle callback: a listener on the record of the key, which delivers its
value. -/
def keyAdded (s : ChatLog) (q k : String) : ChatLog :=
  { s with
    keyEvents := s.keyEvents.erase (q, k)
    values := k :: s.values
    valueEvents := s.valueEvents ++ [k] }

/-- The innermost callback, once the message has been built from the record. -/
def value (s : ChatLog) (uid : String) (k : String) (data : Mess) : ChatLog :=
  { s with
    valueEvents := s.valueEvents.erase k
    arrayMessage :=
      if some (data.getChatPartnerId (some uid)) = s.user then s.arrayMessage ++ [data]
      else s.arrayMessage }

/-- A key is entered under a partner. The listeners on `user-mess/uid` report
the partner when its node is new, those on the node report the key. -/
def indexAdded (s : ChatLog) (q k : String) : ChatLog :=
  { s with
    index := (q, k) :: s.index
    partnerEvents :=
      if s.keys q = [] then s.partnerEvents ++ List.replicate s.outer q else s.partnerEvents
    keyEvents := s.keyEvents ++ List.replicate (s.inner q) (q, k) }

/-- The node of a partner is removed, which nothing listens to. -/
def indexRemoved (s : ChatLog) (q : String) : ChatLog :=
  { s with index := s.index.filter fun e => e.1 ≠ q }

/-- While the screen listens, the keys of the partner `p` count as seen. -/
def observe (s : ChatLog) (p : String) : ChatLog :=
  { s with seen := if s.outer = 0 then s.seen else s.keys p ∪ s.seen }

variable (uid : String) (record : String → Mess) (p : String)

/-- The pairs of a partner and a key are compared by the equality of strings. -/
local instance lawfulBEqEntry : LawfulBEq (String × String) := inferInstance

/-- The next state of the screen for the conversation of `uid` with `p`. -/
def step (s : ChatLog) : ChatAction → Option ChatLog
  | .setUser => some ((getMessageUserPartner { s with user := some p }).observe p)
  | .added q k =>
      if (record k).getChatPartnerId (some uid) = q ∧ (q, k) ∉ s.index then
        some ((s.indexAdded q k).observe p)
      else none
  | .removed q => some (s.indexRemoved q)
  | .partnerAdded q => if q ∈ s.partnerEvents then some (s.partnerAdded q) else none
  | .keyAdded q k => if (q, k) ∈ s.keyEvents then some (s.keyAdded q k) else none
  | .value k => if k ∈ s.valueEvents then some (s.value uid k (record k)) else none
  | .changed k =>
      -- every listener on the record delivers it again
      if k ∈ s.values then
        some { s with valueEvents := s.valueEvents ++ List.replicate (s.values.count k) k }
      else none

/-- No event is on its way. -/
def Quiet (s : ChatLog) : Prop :=
  s.partnerEvents = [] ∧ s.keyEvents = [] ∧ s.valueEvents = []

instance (s : ChatLog) : Decidable s.Quiet :=
  inferInstanceAs (Decidable (_ ∧ _ ∧ _))

end ChatLog

end AppChat
