import AppChat.Library.EventLog
import AppChat.System.Moves
import AppChat.System.Signup

/-!
What a step can do to the database and to the sends.

* `IndexEvent`, `indexEvent`: the steps that change the conversations of the
  index, an index write of a text or an image and a deletion.
* `progress`: a send from the moment its record is issued.
* `Effect`: the kinds of step, with everything a step of that kind changes in
  the database, the keys and the sends; `step_effect` says that every step is
  of one of them. The invariants of the database are proved from it, and never
  from `step`.
-/

namespace AppChat

/-- A change of a conversation of the index: the write of one index entry of a
text or an image, or the removal of a conversation. -/
inductive IndexEvent where
  | posted (key fromID toID : String) (side : Side)
  | dropped (uid partnerId : String)
  deriving DecidableEq, Repr

namespace IndexEvent

/-- The entry `user-mess/u/p/k`, as `(u, p, k)`, that an event writes. -/
def Adds : IndexEvent → String × String × String → Prop
  | .posted key fromID toID .sender, e => e = (fromID, toID, key)
  | .posted key fromID toID .recipient, e => e = (toID, fromID, key)
  | .dropped _ _, _ => False

/-- The entries that an event removes. -/
def Removes : IndexEvent → String × String × String → Prop
  | .posted .., _ => False
  | .dropped uid partnerId, e => e.1 = uid ∧ e.2.1 = partnerId

end IndexEvent

namespace World

/-- The event of an action. -/
def indexEvent (w : World) : Action → Option IndexEvent
  | .send (.indexApplied i side) =>
      match (w.sends i).map Send.stage with
      | some (.index b fromID toID _) =>
          if b.payload.isVideo then none else some (.posted b.key fromID toID side)
      | _ => none
  | .delete (.applied x) => (w.deletions x).map fun del => .dropped del.uid del.partnerId
  | _ => none

/-- Only an accepted deletion has the event of one. -/
lemma eq_delete_of_indexEvent {w : World} {a : Action} {u p : String}
    (h : w.indexEvent a = some (.dropped u p)) : ∃ x, a = .delete (.applied x) := by
  cases a with
  | auth a => simp [indexEvent] at h
  | register a => simp [indexEvent] at h
  | screen a => simp [indexEvent] at h
  | send a =>
      cases a with
      | indexApplied i side =>
          rw [indexEvent] at h
          split at h
          · split_ifs at h
            simp at h
          · simp at h
      | _ => simp [indexEvent] at h
  | delete a =>
      cases a with
      | applied x => exact ⟨x, rfl⟩
      | commit => simp [indexEvent] at h
      | failed => simp [indexEvent] at h

/-- A send whose record has been issued, as its stage. -/
def progress (w : World) (i : SendId) : Option Stage :=
  (w.sends i).bind fun s => if s.stage.block.isSome then some s.stage else none

lemma progress_of_sends {w : World} {i : SendId} {s : Send} (h : w.sends i = some s) :
    w.progress i = if s.stage.block.isSome then some s.stage else none := by
  rw [progress, h, Option.bind_some]

lemma progress_record {w : World} {i : SendId} {s : Send} {b : RecordBlock} {st : WriteState}
    (h : w.sends i = some s) (hs : s.stage = .record b st) :
    w.progress i = some (.record b st) := by
  rw [progress_of_sends h, hs]
  rfl

lemma progress_index {w : World} {i : SendId} {s : Send} {b : RecordBlock} {f t : String}
    {st : Side → WriteState} (h : w.sends i = some s) (hs : s.stage = .index b f t st) :
    w.progress i = some (.index b f t st) := by
  rw [progress_of_sends h, hs]
  rfl

/-- A step that touches no send keeps its progress. -/
lemma progress_congr {w w' : World} (h : w'.sends = w.sends) : w'.progress = w.progress := by
  funext i
  rw [progress, progress, h]

/-- A step that replaces one send replaces its progress. -/
lemma progress_update {w w' : World} {i : SendId} {s : Send}
    (h : w'.sends = Function.update w.sends i (some s)) :
    w'.progress =
      Function.update w.progress i (if s.stage.block.isSome then some s.stage else none) := by
  funext j
  rw [progress, h]
  by_cases hj : j = i
  · subst hj
    simp
  · simp [hj, progress]

/-- The progress of a send that gets, or goes on with, a record. -/
lemma progress_update_of_block {w w' : World} {i : SendId} {s : Send} {st : Stage}
    (h : w'.sends = Function.update w.sends i (some s)) (hs : s.stage = st)
    (hb : st.block.isSome = true) : w'.progress = Function.update w.progress i (some st) := by
  rw [progress_update h, hs, if_pos hb]

/-- A send without a record before and after keeps the progress of all. -/
lemma progress_update_of_none {w w' : World} {i : SendId} {s : Send}
    (h : w'.sends = Function.update w.sends i (some s)) (hi : w.progress i = none)
    (hs : s.stage.block = none) : w'.progress = w.progress := by
  rw [progress_update h, hs, Option.isSome_none, if_neg (by simp), ← hi, Function.update_eq_self]

/-- **The kinds of step**, with the event each of them makes. -/
inductive Effect (w w' : World) : Option IndexEvent → Prop where
  /-- no change to the database, the keys or an issued record -/
  | quiet (hdb : w'.db = w.db) (hkeys : w'.keys = w.keys) (hprog : w'.progress = w.progress) :
      Effect w w' none
  /-- a record is issued, under a new key -/
  | issue (i : SendId) (b : RecordBlock) (d : DeviceId) (c : ChatId) (ch : ChatLogmessage)
      (hfrom : b.fromID = w.currentUid d) (hch : w.chats c = some ch)
      (hto : b.toID = ch.user.map User.id) (hfresh : w.FreshKey b.key)
      (hi : w.progress i = none) (hdb : w'.db = w.db) (hkeys : w'.keys = b.key :: w.keys)
      (hprog : w'.progress = Function.update w.progress i (some (.record b .pending))) :
      Effect w w' none
  /-- the database accepts a record -/
  | recordApplied (i : SendId) (b : RecordBlock) (hi : w.progress i = some (.record b .pending))
      (hdb : w'.db = w.db.updateChildValues ["mess", b.key] b.data) (hkeys : w'.keys = w.keys)
      (hprog : w'.progress = Function.update w.progress i (some (.record b .applied))) :
      Effect w w' none
  /-- a record is rejected or lost -/
  | recordFailed (i : SendId) (b : RecordBlock) (hi : w.progress i = some (.record b .pending))
      (hdb : w'.db = w.db) (hkeys : w'.keys = w.keys)
      (hprog : w'.progress = Function.update w.progress i (some (.record b .failed))) :
      Effect w w' none
  /-- the completion block of an accepted record sends the index writes it has the ids for -/
  | recordDone (i : SendId) (b : RecordBlock) (f t : String) (st : Side → WriteState)
      (hi : w.progress i = some (.record b .applied)) (hf : b.fromID = some f)
      (ht : ∀ side, st side ≠ .failed → b.Addressed t side) (hst : ∀ side, st side ≠ .applied)
      (hdb : w'.db = w.db) (hkeys : w'.keys = w.keys)
      (hprog : w'.progress = Function.update w.progress i (some (.index b f t st))) :
      Effect w w' none
  /-- the database accepts an index write -/
  | indexApplied (i : SendId) (b : RecordBlock) (f t : String) (st : Side → WriteState)
      (side : Side) (hi : w.progress i = some (.index b f t st)) (hst : st side = .pending)
      (hdb : w'.db = indexWrite w.db b f t side) (hkeys : w'.keys = w.keys)
      (hprog : w'.progress = Function.update w.progress i
        (some (.index b f t (Function.update st side .applied)))) :
      Effect w w' (if b.payload.isVideo then none else some (.posted b.key f t side))
  /-- an index write is rejected or lost -/
  | indexFailed (i : SendId) (b : RecordBlock) (f t : String) (st : Side → WriteState)
      (side : Side) (hi : w.progress i = some (.index b f t st)) (hst : st side = .pending)
      (hdb : w'.db = w.db) (hkeys : w'.keys = w.keys)
      (hprog : w'.progress = Function.update w.progress i
        (some (.index b f t (Function.update st side .failed)))) :
      Effect w w' none
  /-- the database accepts a deletion -/
  | dropped (u p : String) (hdb : w'.db = w.db.remove ["user-mess", u, p])
      (hkeys : w'.keys = w.keys) (hprog : w'.progress = w.progress) :
      Effect w w' (some (.dropped u p))
  /-- the database accepts the record of a new user -/
  | userApplied (s : SignupId) (g : Signup) (uid : String) (user : List (String × Option Value))
      (hg : w.signups s = some g) (hst : g.stage = .setValue uid user .pending)
      (hdb : w'.db = w.db.setValue ["user", uid] user) (hkeys : w'.keys = w.keys)
      (hprog : w'.progress = w.progress) :
      Effect w w' none

/-! ### Every step is of one of the kinds -/

lemma authStep_effect {w w' : World} {a : AuthAction} (h : w.authStep a = some w') :
    Effect w w' none := by
  obtain ⟨devices, rfl⟩ := authStep_cases h
  exact .quiet rfl rfl (progress_congr rfl)

lemma screenStep_effect {w w' : World} {a : ScreenAction} (h : w.screenStep a = some w') :
    Effect w w' none := by
  obtain ⟨devices, chats, rfl⟩ := screenStep_cases h
  exact .quiet rfl rfl (progress_congr rfl)

lemma registerStep_effect {w w' : World} {a : RegisterAction} (h : w.registerStep a = some w') :
    Effect w w' none := by
  rcases registerStep_cases h with ⟨_, rfl⟩ | ⟨s, g, _, -, rfl⟩ | ⟨s, g, r, uid, -, rfl⟩ |
    ⟨s, g, uid, user, hg, hst, rfl⟩
  · exact .quiet rfl rfl (progress_congr rfl)
  · exact .quiet rfl rfl (progress_congr rfl)
  · obtain ⟨hdb, hkeys, -, hsends, -⟩ := createUserDone_frame w s g r uid
    exact .quiet hdb hkeys (progress_congr hsends)
  · exact .userApplied s g uid user hg hst rfl rfl (progress_congr rfl)

/-- A send that goes on without a record has no effect. -/
lemma quiet_of_block_eq_none {w w' : World} {i : SendId} {s s' : Send} (hs : w.sends i = some s)
    (hst : s.stage.block = none) (hst' : s'.stage.block = none) (hdb : w'.db = w.db)
    (hkeys : w'.keys = w.keys) (hsends : w'.sends = Function.update w.sends i (some s')) :
    Effect w w' none := by
  have hprog : w.progress i = none := by
    rw [progress_of_sends hs, hst]
    rfl
  exact .quiet hdb hkeys (progress_update_of_none hsends hprog hst')

lemma sendStep_effect {w w' : World} {a : SendAction} (h : w.sendStep a = some w') :
    Effect w w' (w.indexEvent (.send a)) := by
  have new : ∀ {i : SendId}, w.sends i = none → w.progress i = none := by
    intro i hi
    rw [progress, hi, Option.bind_none]
  cases sendStep_moves h with
  | textStops i c key now ch hu => exact .quiet rfl rfl (progress_congr rfl)
  | text i c key now ch user hch hu hi hkey =>
      exact .issue i ⟨.text ch.txtText, key, w.currentUid ch.device, some user.id, now⟩
        ch.device c ch rfl hch (by simp [hu]) hkey (new hi) rfl rfl
        (progress_update_of_block rfl rfl rfl)
  | pickImage i c random image ch hch hi =>
      exact .quiet rfl rfl (progress_update_of_none rfl (new hi) rfl)
  | pickVideo i c random movie ch hch hi =>
      exact .quiet rfl rfl (progress_update_of_none rfl (new hi) rfl)
  | movieStored i s path movie stored hs hst =>
      exact quiet_of_block_eq_none hs (by rw [hst]; rfl) rfl rfl rfl rfl
  | imageStored i s path image stored completion hs hst =>
      exact quiet_of_block_eq_none hs (by rw [hst]; rfl) rfl rfl rfl rfl
  | putFileDone i ok s path movie stored hs hst =>
      exact quiet_of_block_eq_none hs (by rw [hst]; rfl) rfl rfl rfl rfl
  | movieURLStops i url random s => exact .quiet rfl rfl (progress_congr rfl)
  | movieURLDone i url image random s ch path movie hs hst =>
      exact quiet_of_block_eq_none hs (by rw [hst]; rfl) rfl rfl rfl rfl
  | putDataDone i ok s path image stored completion hs hst =>
      exact quiet_of_block_eq_none hs (by rw [hst]; rfl) (by cases ok <;> rfl) rfl rfl rfl
  | imageURLFails i key now s path completion hs hst =>
      exact quiet_of_block_eq_none hs (by rw [hst]; rfl) rfl rfl rfl rfl
  | imageStops i url key now s => exact .quiet rfl rfl (progress_congr rfl)
  | media i url key now s ch path completion b hs hst hch hu hkey hfrom hto =>
      have hi : w.progress i = none := by
        rw [progress_of_sends hs, hst]
        rfl
      exact .issue i b s.device s.chat ch hfrom hch hto hkey hi rfl rfl
        (progress_update_of_block rfl rfl rfl)
  | recordApplied i s b hs hst =>
      exact .recordApplied i b (progress_record hs hst) rfl rfl
        (progress_update_of_block rfl rfl rfl)
  | recordFailed i s b hs hst =>
      exact .recordFailed i b (progress_record hs hst) rfl rfl
        (progress_update_of_block rfl rfl rfl)
  | recordDone i s ch b f t hs hch hst hf ht =>
      exact .recordDone i b f t _ (progress_record hs hst) hf (fun _ _ => Or.inl ht) (by simp)
        rfl rfl (progress_update_of_block rfl rfl rfl)
  | recordDoneStops i s ch hch => exact .quiet rfl rfl (progress_congr rfl)
  | videoDoneStops i s ch b f hs hch hst hf ht hv =>
      refine .recordDone i b f "demo_toID" senderOnly (progress_record hs hst) hf
        (fun side hside => ?_) (fun side => ?_) rfl rfl (progress_update_of_block rfl rfl rfl)
      · cases side with
        | sender => exact Or.inr ⟨ht, hv, rfl⟩
        | recipient => exact absurd rfl hside
      · cases side <;> simp [senderOnly]
  | indexApplied i side s b f t st hs hst hside =>
      have hev : w.indexEvent (.send (.indexApplied i side)) =
          if b.payload.isVideo then none else some (.posted b.key f t side) := by
        simp [indexEvent, hs, hst]
      rw [hev]
      exact .indexApplied i b f t st side (progress_index hs hst) hside rfl rfl
        (progress_update_of_block rfl rfl rfl)
  | indexFailed i side s b f t st hs hst hside =>
      exact .indexFailed i b f t st side (progress_index hs hst) hside rfl rfl
        (progress_update_of_block rfl rfl rfl)

lemma deleteStep_effect {w w' : World} {a : DeleteAction} (h : w.deleteStep a = some w') :
    Effect w w' (w.indexEvent (.delete a)) := by
  rcases deleteStep_cases h with ⟨x, d, arrayMess, row, rfl, hw'⟩ | ⟨x, del, rfl, hdel, rfl⟩ |
    ⟨x, del, rfl, rfl⟩
  · rcases hw' with rfl | rfl | ⟨del, rfl⟩
    · exact .quiet rfl rfl rfl
    · exact .quiet rfl rfl (progress_congr rfl)
    · exact .quiet rfl rfl (progress_congr rfl)
  · have hev : w.indexEvent (.delete (.applied x)) = some (.dropped del.uid del.partnerId) := by
      simp [indexEvent, hdel]
    rw [hev]
    exact .dropped del.uid del.partnerId rfl rfl (progress_congr rfl)
  · exact .quiet rfl rfl (progress_congr rfl)

/-- **Every step is of one of the kinds of `Effect`.** -/
theorem step_effect {w w' : World} {a : Action} (h : w.step a = some w') :
    Effect w w' (w.indexEvent a) := by
  cases a with
  | auth a => exact authStep_effect h
  | register a => exact registerStep_effect h
  | screen a => exact screenStep_effect h
  | send a => exact sendStep_effect h
  | delete a => exact deleteStep_effect h

end World

end AppChat
