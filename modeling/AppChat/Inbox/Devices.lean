import AppChat.Inbox.Messagecontroller

/-!
The inboxes of one user, on any number of devices, and the conversations in the
database that they show.

The node `user-mess/uid` is a log of changes, which every device receives in
order, each at its own pace. A listener on the node reports the partners, a
listener on each partner's node the keys, and each key starts a read of its
record, which completes later. Nothing listens to a removal.

* `Change`, `Removal`: what happens in the database, and a deletion from its
  commit to its completion block.
* `InboxDevice`: an inbox with its listeners and its pending reads.
* `InboxState.step`: the steps of the system. A second inbox on the same device
  is another element of `D`.

The record of a key is that of a message with the partner under whom the key is
entered, as `World.index_integrity` has it, so `record` gives the message of a
key once and for all.
-/

namespace AppChat

/-- A change of `user-mess/uid`. -/
inductive Change where
  | added (partnerId key : String)
  | removed (partnerId : String)
  deriving DecidableEq, Repr

/-- The partner under whom a change writes. -/
def Change.written : Change → Option String
  | .added partnerId _ => some partnerId
  | .removed _ => none

/-- Where a deletion stands; an accepted one has its position in the log. -/
inductive RemovalStage where
  | pending
  | failed
  | accepted (position : ℕ)
  | completed (position : ℕ)
  deriving DecidableEq, Repr

/-- The position of a deletion whose completion block has run. -/
def RemovalStage.completedAt : RemovalStage → Option ℕ
  | .completed position => some position
  | _ => none

/-- A deletion, with the values its completion block has captured. -/
structure Removal (D : Type) where
  device : D
  partnerId : String
  row : ℕ
  stage : RemovalStage

/-- An inbox with its listeners on `user-mess/uid` (`outer`) and on the nodes of
the partners (`inner`), the entries it has received, and the reads it waits
for. -/
structure InboxDevice where
  box : Inbox
  running : Bool
  received : ℕ
  index : List (String × String)
  outer : ℕ
  inner : String → ℕ
  reads : List String

namespace InboxDevice

def new : InboxDevice := ⟨.empty, true, 0, [], 0, fun _ => 0, []⟩

/-- A change reaches the device. A new key is reported by every listener on the
node of its partner, and a new node first gets one more for every listener on
`user-mess/uid`; each report starts a read. -/
def receive (d : InboxDevice) : Change → InboxDevice
  | .added partnerId key =>
      if (partnerId, key) ∈ d.index then { d with received := d.received + 1 }
      else
        let listeners :=
          if partnerId ∈ d.index.map Prod.fst then d.inner partnerId
          else d.inner partnerId + d.outer
        { d with
          received := d.received + 1
          index := (partnerId, key) :: d.index
          inner := Function.update d.inner partnerId listeners
          reads := d.reads ++ List.replicate listeners key }
  | .removed partnerId =>
      { d with
        received := d.received + 1
        index := d.index.filter fun e => e.1 ≠ partnerId }

@[simp] lemma receive_box (d : InboxDevice) (c : Change) : (d.receive c).box = d.box := by
  cases c with
  | added p key =>
      rw [receive]
      split_ifs <;> rfl
  | removed p => rfl

/-- The value event of the user's own record: `setupnavigationitem` clears the
inbox, and `get_message_2` adds a listener, which reports all entries. -/
def profileValue (d : InboxDevice) : InboxDevice :=
  { d with
    box := d.box.setupnavigationitem
    outer := d.outer + 1
    inner := fun p => if p ∈ d.index.map Prod.fst then d.inner p + 1 else d.inner p
    reads := d.reads ++ d.index.map Prod.snd }

end InboxDevice

/-- A state of the system. -/
structure InboxState (D : Type) where
  log : List Change
  devices : D → InboxDevice
  removals : List (Removal D)

/-- The steps: an index write of any user, and the events on a device. -/
inductive InboxAction (D : Type) where
  | write (partnerId key : String)
  | receive (d : D)
  | profileValue (d : D)
  | getMessage2 (d : D) (key : String) (arr : List Mess)
  | handleCallData (d : D)
  | commitEditingStyle (d : D) (row : ℕ)
  | removalAccepted (x : ℕ)
  | removalFailed (x : ℕ)
  | removeValueDone (x : ℕ)

namespace InboxState

variable {D : Type} [DecidableEq D] (uid : String) (record : String → Mess)

def init : InboxState D := ⟨[], fun _ => .new, []⟩

def setDevice (s : InboxState D) (d : D) (dev : InboxDevice) : InboxState D :=
  { s with devices := Function.update s.devices d dev }

@[simp] lemma setDevice_log (s : InboxState D) (d : D) (dev : InboxDevice) :
    (s.setDevice d dev).log = s.log := rfl

@[simp] lemma setDevice_removals (s : InboxState D) (d : D) (dev : InboxDevice) :
    (s.setDevice d dev).removals = s.removals := rfl

@[simp] lemma setDevice_devices_self (s : InboxState D) (d : D) (dev : InboxDevice) :
    (s.setDevice d dev).devices d = dev := Function.update_self ..

@[simp] lemma setDevice_devices_of_ne (s : InboxState D) {d d' : D} (dev : InboxDevice)
    (h : d' ≠ d) : (s.setDevice d dev).devices d' = s.devices d' := Function.update_of_ne h ..

/-- The app of a device stops. -/
def trap (s : InboxState D) (d : D) : InboxState D :=
  s.setDevice d { s.devices d with running := false }

/-- A device that stops shows what it showed. -/
lemma trap_box (s : InboxState D) (d d' : D) :
    ((s.trap d).devices d').box = (s.devices d').box := by
  by_cases hd : d' = d
  · subst hd
    rw [trap, setDevice_devices_self]
  · rw [trap, setDevice_devices_of_ne _ _ hd]

def setStage (s : InboxState D) (x : ℕ) (del : Removal D) (stage : RemovalStage) :
    InboxState D :=
  { s with removals := s.removals.set x { del with stage := stage } }

def step (s : InboxState D) : InboxAction D → Option (InboxState D)
  | .write partnerId key =>
      if (record key).getChatPartnerId (some uid) = partnerId then
        some { s with log := s.log ++ [.added partnerId key] }
      else none
  | .receive d =>
      if (s.devices d).running then
        s.log[(s.devices d).received]?.map fun c => s.setDevice d ((s.devices d).receive c)
      else none
  | .profileValue d =>
      if (s.devices d).running then some (s.setDevice d (s.devices d).profileValue) else none
  | .getMessage2 d key arr =>
      if (s.devices d).running ∧ key ∈ (s.devices d).reads ∧
          Inbox.SortedValues
            (Inbox.fileMessage uid (s.devices d).box.messageDictionary (record key)) arr then
        some (s.setDevice d { s.devices d with
          box := (s.devices d).box.getMessage2 uid (record key) arr
          reads := (s.devices d).reads.erase key })
      else none
  | .handleCallData d =>
      if (s.devices d).running ∧ (s.devices d).box.timer then
        some (s.setDevice d { s.devices d with box := (s.devices d).box.handleCallData })
      else none
  | .commitEditingStyle d row =>
      -- a row that is on the screen
      if (s.devices d).running ∧ row < (s.devices d).box.rows then
        match (s.devices d).box.commitEditingStyle uid row with
        | none => some (s.trap d)
        | some partnerId =>
            some { s with removals := s.removals ++ [⟨d, partnerId, row, .pending⟩] }
      else none
  | .removalAccepted x =>
      s.removals[x]?.bind fun del =>
        if del.stage = .pending then
          some { s.setStage x del (.accepted s.log.length) with
            log := s.log ++ [.removed del.partnerId] }
        else none
  | .removalFailed x =>
      s.removals[x]?.bind fun del =>
        if del.stage = .pending then some (s.setStage x del .failed) else none
  | .removeValueDone x =>
      s.removals[x]?.bind fun del =>
        match del.stage with
        | .accepted position =>
            -- the device that removes has seen its own removal
            if (s.devices del.device).running ∧ position < (s.devices del.device).received then
              match (s.devices del.device).box.removeValueDone del.row with
              | none => some (s.trap del.device)
              | some box =>
                  some ((s.setStage x del (.completed position)).setDevice del.device
                    { s.devices del.device with box := box })
            else none
        | _ => none

/-- The messages of `b` and of `c` to `a`. -/
def bToA : Mess := ⟨"a", "b", 1, "from b", "", "demo_video"⟩
def cToA : Mess := ⟨"a", "c", 2, "from c", "", "demo_video"⟩

end InboxState

end AppChat
