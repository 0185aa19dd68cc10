import AppChat.System.Owner
import AppChat.System.UserRecords

/-!
The writes of an app that its server has not answered.

`setValue`, `updateChildValues` and `removeValue` change what the listeners of the app
see at once, and not when the server accepts them; what the app sees is the database
with its own writes on top, in the order it made them. An accepted write is then part
of the database, a rejected one is taken back.

* `OwnWrite`: a write on its way, with what it does to the database and the two steps
  of the world that answer it.
* `World.Pending`: the world has the write on its way. A step that does not answer it
  leaves it there, `Pending.step`.
* `overlay`: the database with the writes on top. `World.exists_acceptsAll` accepts
  them one after the other, so the overlay is the database of a state that the system
  can reach; `entries_overlay` says which entries of the conversations it has.
-/

namespace AppChat

/-- A write of an app that is on its way. -/
inductive OwnWrite where
  | record (i : SendId) (b : RecordBlock)
  | index (i : SendId) (b : RecordBlock) (fromID toID : String) (side : Side)
  | removal (x : DeletionId) (uid partnerId : String)
  | user (s : SignupId) (uid : String) (values : List (String × Option Value))
  deriving DecidableEq, Repr

namespace OwnWrite

/-- What the write does to the database. -/
def apply (db : Database) : OwnWrite → Database
  | .record _ b => db.updateChildValues ["mess", b.key] b.data
  | .index _ b fromID toID side => World.indexWrite db b fromID toID side
  | .removal _ uid partnerId => db.remove ["user-mess", uid, partnerId]
  | .user _ uid values => db.setValue ["user", uid] values

/-- The server accepts the write. -/
def accept : OwnWrite → Action
  | .record i _ => .send (.recordApplied i)
  | .index i _ _ _ side => .send (.indexApplied i side)
  | .removal x _ _ => .delete (.applied x)
  | .user s _ _ => .register (.userApplied s)

/-- The server rejects the write. -/
def reject : OwnWrite → Action
  | .record i _ => .send (.recordFailed i)
  | .index i _ _ _ side => .send (.indexFailed i side)
  | .removal x _ _ => .delete (.failed x)
  | .user s _ _ => .register (.userFailed s)

/-- The action is the answer to the write. -/
def AnsweredBy (o : OwnWrite) (a : Action) : Prop := a = o.accept ∨ a = o.reject

instance (o : OwnWrite) (a : Action) : Decidable (o.AnsweredBy a) :=
  inferInstanceAs (Decidable (a = o.accept ∨ a = o.reject))

/-- The change of a conversation that the write makes. -/
def event : OwnWrite → Option IndexEvent
  | .index _ b fromID toID side =>
      if b.payload.isVideo then none else some (.posted b.key fromID toID side)
  | .removal _ uid partnerId => some (.dropped uid partnerId)
  | _ => none

end OwnWrite

/-- The changes of the conversations that a list of writes makes. -/
def writeEvents (ws : List OwnWrite) : List IndexEvent := ws.filterMap OwnWrite.event

/-- The database with the writes on top of it, the oldest first. -/
def overlay (db : Database) (ws : List OwnWrite) : Database := ws.foldl OwnWrite.apply db

/-- The entries of the conversations. -/
def entries (db : Database) : Set (String × String × String) :=
  {e | db.Present ["user-mess", e.1, e.2.1, e.2.2]}

lemma mem_entries {db : Database} {u p k : String} :
    (u, p, k) ∈ entries db ↔ db.Present ["user-mess", u, p, k] := Iff.rfl

lemma writeEvents_cons (o : OwnWrite) (ws : List OwnWrite) :
    writeEvents (o :: ws) = o.event.toList ++ writeEvents ws := by
  rw [writeEvents, List.filterMap_cons, writeEvents]
  cases o.event <;> rfl

lemma mem_writeEvents {ws : List OwnWrite} {e : IndexEvent} :
    e ∈ writeEvents ws ↔ ∃ o ∈ ws, o.event = some e := List.mem_filterMap

namespace World

open EventLog Transition

variable {w w' : World} {o o' : OwnWrite} {ws : List OwnWrite}

/-- The write is on its way. -/
def Pending (w : World) : OwnWrite → Prop
  | .record i b => w.progress i = some (.record b .pending)
  | .index i b fromID toID side =>
      ∃ st, w.progress i = some (.index b fromID toID st) ∧ st side = .pending
  | .removal x uid partnerId => ∃ del, w.deletions x = some del ∧ del.uid = uid ∧
      del.partnerId = partnerId ∧ del.st = .pending
  | .user s uid values => ∃ g, w.signups s = some g ∧ g.stage = .setValue uid values .pending

/-- A send that has come that far. -/
lemma exists_send {i : SendId} {st : Stage} (h : w.progress i = some st) :
    ∃ s, w.sends i = some s ∧ s.stage = st := by
  obtain ⟨s, hs, h⟩ := Option.bind_eq_some_iff.mp h
  split_ifs at h
  exact ⟨s, hs, Option.some.inj h⟩

/-! ### Acceptance -/

/-- What the acceptance of a write leaves alone. -/
structure Accepts (w : World) (o : OwnWrite) (w' : World) : Prop where
  step : w.step o.accept = some w'
  db : w'.db = o.apply w.db
  keys : w'.keys = w.keys
  accounts : w'.accounts = w.accounts

/-- **A write on its way can be accepted.** -/
lemma Pending.exists_accepts (h : w.Pending o) : ∃ w', w.Accepts o w' := by
  cases o with
  | record i b =>
      obtain ⟨s, hs, hst⟩ := exists_send h
      refine ⟨{ w with db := w.db.updateChildValues ["mess", b.key] b.data }.setSend i
        { s with stage := .record b .applied }, ?_, rfl, rfl, rfl⟩
      rw [OwnWrite.accept, World.step, sendStep, hs, Option.bind_some, hst]
  | index i b f t side =>
      obtain ⟨st, hprog, hside⟩ := h
      obtain ⟨s, hs, hst⟩ := exists_send hprog
      refine ⟨{ w with db := indexWrite w.db b f t side }.setSend i
        { s with stage := .index b f t (Function.update st side .applied) }, ?_, rfl, rfl, rfl⟩
      rw [OwnWrite.accept, World.step, sendStep, hs, Option.bind_some, hst]
      exact if_pos hside
  | removal x uid p =>
      obtain ⟨del, hdel, rfl, rfl, hst⟩ := h
      refine ⟨{ w with db := w.db.remove ["user-mess", del.uid, del.partnerId] }.setDeletion x
        { del with st := .applied }, ?_, rfl, rfl, rfl⟩
      rw [OwnWrite.accept, World.step, deleteStep, hdel, Option.bind_some]
      exact if_pos hst
  | user s uid values =>
      obtain ⟨g, hg, hst⟩ := h
      refine ⟨{ w with db := w.db.setValue ["user", uid] values }.setSignup s
        { g with stage := .setValue uid values .applied }, ?_, rfl, rfl, rfl⟩
      rw [OwnWrite.accept, World.step, registerStep, hg, Option.bind_some, hst]

/-- Its event is that of its acceptance. -/
lemma Pending.indexEvent_accept (h : w.Pending o) : w.indexEvent o.accept = o.event := by
  cases o with
  | record i b => rfl
  | index i b f t side =>
      obtain ⟨st, hprog, -⟩ := h
      obtain ⟨s, hs, hst⟩ := exists_send hprog
      simp [OwnWrite.accept, OwnWrite.event, indexEvent, hs, hst]
  | removal x uid p =>
      obtain ⟨del, hdel, rfl, rfl, -⟩ := h
      simp [OwnWrite.accept, OwnWrite.event, indexEvent, hdel]
  | user s uid values => rfl

/-- The write of a message that is entered is that of an accepted record. -/
lemma Pending.between (hw : Consistent w) (h : w.Pending o) {e : IndexEvent} (he : o.event = some e)
    {u p k : String} (hadds : e.Adds (u, p, k)) : w.Between u p k := by
  cases o with
  | index i b f t side =>
      obtain ⟨st, hprog, hside⟩ := h
      rw [OwnWrite.event] at he
      split_ifs at he with hv
      obtain rfl := Option.some.inj he
      have hv : b.payload.isVideo = false := by simpa using hv
      obtain ⟨hf, hids⟩ := hw.blocks.captured i b f t st hprog
      have ht := (hids side (by simp [hside])).toID hv
      refine ⟨i, b, Or.inr ⟨f, t, st, hprog⟩, hv, ?_, ?_⟩
      · cases side <;> simp [IndexEvent.Adds] at hadds <;> exact hadds.2.2.symm
      · cases side <;> simp [IndexEvent.Adds] at hadds
        · exact Or.inl ⟨hadds.1 ▸ hf, hadds.2.1 ▸ ht⟩
        · exact Or.inr ⟨hadds.2.1 ▸ hf, hadds.1 ▸ ht⟩
  | removal x uid q =>
      obtain rfl := Option.some.inj he
      exact absurd hadds id
  | record | user => cases he

/-! ### Steps that do not answer a write -/

/-- A step of a send leaves the others alone. -/
lemma SendMoves.sends_of_ne {a : SendAction} (h : SendMoves w a w') {i : SendId} (hi : i ≠ a.id) :
    w'.sends i = w.sends i := by
  cases h <;> first
    | rfl
    | exact Function.update_of_ne hi _ _

/-- A step that is not one of the send leaves its progress alone. -/
lemma progress_step_of_ne {a : Action} (h : w.step a = some w') {i : SendId}
    (hne : ∀ b, a = .send b → i ≠ b.id) : w'.progress i = w.progress i := by
  cases a with
  | auth a =>
      obtain ⟨devices, rfl⟩ := authStep_cases h
      rfl
  | register a => rw [progress, (registerStep_leaves h).2, progress]
  | screen a => rw [progress, (screenStep_keepsScreens h).2, progress]
  | send a => rw [progress, (sendStep_moves h).sends_of_ne (hne a rfl), progress]
  | delete a => rw [progress, (deleteStep_leaves h).2.1, progress]

/-- A record on its way waits for its answer. -/
lemma progress_record_step {a : Action} (h : w.step a = some w') {i : SendId} {b : RecordBlock}
    (hi : w.progress i = some (.record b .pending)) (happlied : a ≠ .send (.recordApplied i))
    (hfailed : a ≠ .send (.recordFailed i)) : w'.progress i = some (.record b .pending) := by
  by_cases hne : ∀ b, a = .send b → i ≠ b.id
  · rw [progress_step_of_ne h hne, hi]
  · push Not at hne
    obtain ⟨a, rfl, rfl⟩ := hne
    obtain ⟨s, hs, hst⟩ := exists_send hi
    -- the other steps of a send find it at another stage
    cases a with
    | recordApplied i => exact absurd rfl happlied
    | recordFailed i => exact absurd rfl hfailed
    | _ =>
        simp only [SendAction.id] at hs
        simp [World.step, sendStep, hs, hst] at h

/-- So does the index write of one side, whatever becomes of the other. -/
lemma progress_index_step {a : Action} (h : w.step a = some w') {i : SendId} {b : RecordBlock}
    {f t : String} {st : Side → WriteState} {side : Side}
    (hi : w.progress i = some (.index b f t st)) (hside : st side = .pending)
    (happlied : a ≠ .send (.indexApplied i side)) (hfailed : a ≠ .send (.indexFailed i side)) :
    ∃ st', w'.progress i = some (.index b f t st') ∧ st' side = .pending := by
  by_cases hne : ∀ b, a = .send b → i ≠ b.id
  · exact ⟨st, by rw [progress_step_of_ne h hne, hi], hside⟩
  · push Not at hne
    obtain ⟨a, rfl, rfl⟩ := hne
    obtain ⟨s, hs, hst⟩ := exists_send hi
    cases a with
    | indexApplied i side' =>
        have hne : side ≠ side' := by
          rintro rfl
          exact happlied rfl
        simp only [SendAction.id] at hs
        simp only [World.step, sendStep, hs, hst, Option.bind_some,
          Option.ite_none_right_eq_some] at h
        rw [← Option.some.inj h.2]
        exact ⟨_, progress_index (Function.update_self ..) rfl, by
          rw [Function.update_of_ne hne, hside]⟩
    | indexFailed i side' =>
        have hne : side ≠ side' := by
          rintro rfl
          exact hfailed rfl
        simp only [SendAction.id] at hs
        simp only [World.step, sendStep, hs, hst, Option.bind_some,
          Option.ite_none_right_eq_some] at h
        rw [← Option.some.inj h.2]
        exact ⟨_, progress_index (Function.update_self ..) rfl, by
          rw [Function.update_of_ne hne, hside]⟩
    | _ =>
        simp only [SendAction.id] at hs
        simp [World.step, sendStep, hs, hst] at h

/-- A deletion stays as it is until it is answered. -/
lemma deletions_step {a : Action} (h : w.step a = some w') {x : DeletionId} {del : Deletion}
    (hx : w.deletions x = some del) (happlied : a ≠ .delete (.applied x))
    (hfailed : a ≠ .delete (.failed x)) : w'.deletions x = some del := by
  cases a with
  | delete a =>
      cases a with
      | commit y d arrayMess row =>
          simp only [World.step, deleteStep, Option.ite_none_right_eq_some] at h
          obtain ⟨⟨-, hy⟩, h⟩ := h
          have hxy : x ≠ y := by
            rintro rfl
            rw [hx] at hy
            cases hy
          split at h
          · rw [← Option.some.inj h, hx]
          · split at h <;> rw [← Option.some.inj h]
            · exact hx
            · exact (Function.update_of_ne hxy _ _).trans hx
      | applied y =>
          have hxy : x ≠ y := by
            rintro rfl
            exact happlied rfl
          simp only [World.step, deleteStep, Option.bind_eq_some_iff,
            Option.ite_none_right_eq_some] at h
          obtain ⟨del', -, -, h⟩ := h
          rw [← Option.some.inj h]
          exact (Function.update_of_ne hxy _ _).trans hx
      | failed y =>
          have hxy : x ≠ y := by
            rintro rfl
            exact hfailed rfl
          simp only [World.step, deleteStep, Option.bind_eq_some_iff,
            Option.ite_none_right_eq_some] at h
          obtain ⟨del', -, -, h⟩ := h
          rw [← Option.some.inj h]
          exact (Function.update_of_ne hxy _ _).trans hx
  | _ => rw [step_deletions h (by simp), hx]

/-- A registration that stores its record stays as it is until it is answered. -/
lemma signups_step {a : Action} (h : w.step a = some w') {s : SignupId} {g : Signup} {uid : String}
    {values : List (String × Option Value)} {st : WriteState} (hg : w.signups s = some g)
    (hst : g.stage = .setValue uid values st) (happlied : a ≠ .register (.userApplied s))
    (hfailed : a ≠ .register (.userFailed s)) : w'.signups s = some g := by
  -- a registration at another stage is another one
  have other : ∀ {s' : SignupId} {g' g₁ : Signup}, w.signups s' = some g' →
      (∀ uid values st, g'.stage ≠ .setValue uid values st) →
      Function.update w.signups s' (some g₁) s = some g := by
    intro s' g' g₁ hg' hne
    rw [Function.update_of_ne, hg]
    rintro rfl
    obtain rfl := Option.some.inj (hg.symm.trans hg')
    exact hne uid values st hst
  cases a with
  | auth a =>
      obtain ⟨devices, rfl⟩ := authStep_cases h
      exact hg
  | register a =>
      cases registerStep_moves h with
      | appear | edit | pickImage => exact hg
      | handleregister s' r reg _ hs' =>
          refine (Function.update_of_ne ?_ _ _).trans hg
          rintro rfl
          rw [hg] at hs'
          cases hs'
      | createUserDone s' uid' g' r hg' _ hst' =>
          rw [createUserDone_signups]
          exact other hg' (by simp [hst'])
      | createUserFails s' g' hg' hst' => exact other hg' (by simp [hst'])
      | avatarStored s' g' uid' path image stored hg' hst' => exact other hg' (by simp [hst'])
      | putDataDone s' ok g' uid' path image stored hg' hst' => exact other hg' (by simp [hst'])
      | downloadURLDone s' url g' uid' path hg' hst' => exact other hg' (by simp [hst'])
      | downloadURLFails s' g' uid' path hg' hst' => exact other hg' (by simp [hst'])
      | userApplied s' g' =>
          refine (Function.update_of_ne ?_ _ _).trans hg
          rintro rfl
          exact happlied rfl
      | userFailed s' g' =>
          refine (Function.update_of_ne ?_ _ _).trans hg
          rintro rfl
          exact hfailed rfl
  | screen a =>
      obtain ⟨devices, chats, rfl⟩ := screenStep_cases h
      exact hg
  | send a => rw [(sendStep_frame h).signups, hg]
  | delete a => rw [(deleteStep_frame h).signups, hg]

/-- **A write waits for its answer**, whatever else happens. -/
lemma Pending.step (h : w.Pending o) {a : Action} (hstep : w.step a = some w')
    (ha : ¬ o.AnsweredBy a) : w'.Pending o := by
  obtain ⟨haccept, hreject⟩ := not_or.mp ha
  cases o with
  | record i b => exact progress_record_step hstep h haccept hreject
  | index i b f t side =>
      obtain ⟨st, hprog, hside⟩ := h
      exact progress_index_step hstep hprog hside haccept hreject
  | removal x uid p =>
      obtain ⟨del, hdel, hrest⟩ := h
      exact ⟨del, deletions_step hstep hdel haccept hreject, hrest⟩
  | user s uid values =>
      obtain ⟨g, hg, hst⟩ := h
      exact ⟨g, signups_step hstep hg hst haccept hreject, hst⟩

/-- An answer is that to one write. -/
lemma Pending.eq_of_answeredBy (h : w.Pending o) (h' : w.Pending o') {a : Action}
    (ha : o.AnsweredBy a) (ha' : o'.AnsweredBy a) : o = o' := by
  have hsame : o.accept = o'.accept ∧ o.reject = o'.reject := by
    rcases ha with rfl | rfl <;> rcases ha' with ha' | ha' <;>
      cases o <;> cases o' <;> simp_all [OwnWrite.accept, OwnWrite.reject]
  cases o <;> cases o' <;> simp [OwnWrite.accept] at hsame
  · rename_i i b j c
    obtain rfl := hsame.1
    have hb : w.progress i = some (.record b .pending) := h
    have hc : w.progress i = some (.record c .pending) := h'
    simpa [hb] using hc
  · rename_i i b f t side j c f' t' side'
    obtain ⟨rfl, rfl⟩ := hsame.1
    obtain ⟨st, hb, -⟩ := h
    obtain ⟨st', hc, -⟩ := h'
    obtain ⟨rfl, rfl, rfl, -⟩ : b = c ∧ f = f' ∧ t = t' ∧ st = st' := by simpa [hb] using hc
    rfl
  · rename_i x u p y u' p'
    obtain rfl := hsame.1
    obtain ⟨del, hdel, rfl, rfl, -⟩ := h
    obtain ⟨del', hdel', rfl, rfl, -⟩ := h'
    rw [Option.some.inj (hdel.symm.trans hdel')]
  · rename_i s u values s' u' values'
    obtain rfl := hsame.1
    obtain ⟨g, hg, hst⟩ := h
    obtain ⟨g', hg', hst'⟩ := h'
    obtain rfl := Option.some.inj (hg.symm.trans hg')
    obtain ⟨rfl, rfl⟩ : u = u' ∧ values = values' := by simpa [hst] using hst'
    rfl

/-- The other writes are on their way when one has been accepted. -/
lemma Pending.accepts (ho' : w.Pending o') (ho : w.Pending o) (h : w.Accepts o w')
    (hne : o ≠ o') : w'.Pending o' :=
  ho'.step h.step fun ha => hne (ho.eq_of_answeredBy ho' (Or.inl rfl) ha)

/-! ### The overlay -/

/-- What a step does to the entries of the conversations. -/
lemma Consistent.entries_step (hw : Consistent w) {a : Action} (h : w.step a = some w') :
    entries w'.db =
      contentsFrom IndexEvent.Adds IndexEvent.Removes (entries w.db) (w.indexEvent a).toList := by
  ext ⟨u, p, k⟩
  rw [mem_entries, present_step hw h, mem_contentsFrom_iff]
  cases w.indexEvent a with
  | none => simp [mem_entries]
  | some e =>
      have hone : (u, p, k) ∈ contents IndexEvent.Adds IndexEvent.Removes [e] ↔
          e.Adds (u, p, k) := by
        simp [contents, apply]
      simp [hone, mem_entries]

/-- The other writes are still on their way when one is accepted. -/
lemma Accepts.forall_pending (h : w.Accepts o w') (ho : w.Pending o)
    (hws : ∀ o' ∈ ws, w.Pending o') (hnot : o ∉ ws) : ∀ o' ∈ ws, w'.Pending o' :=
  fun o' ho' => (hws o' ho').accepts ho h fun heq => hnot (heq ▸ ho')

/-- The writes are accepted one after the other, and nothing else happens. -/
structure AcceptsAll (w : World) (ws : List OwnWrite) (v : World) : Prop where
  run : Transition.run World.step w (ws.map OwnWrite.accept) = some v
  db : v.db = overlay w.db ws
  keys : v.keys = w.keys
  accounts : v.accounts = w.accounts

/-- **The overlay is the database of a state** that the system can reach. -/
lemma exists_acceptsAll (hpending : ∀ o ∈ ws, w.Pending o) (hnodup : ws.Nodup) :
    ∃ v, w.AcceptsAll ws v := by
  induction ws generalizing w with
  | nil => exact ⟨w, rfl, rfl, rfl, rfl⟩
  | cons o ws ih =>
      obtain ⟨ho, hws⟩ := List.forall_mem_cons.mp hpending
      obtain ⟨hnot, hnodup⟩ := List.nodup_cons.mp hnodup
      obtain ⟨w', h⟩ := ho.exists_accepts
      have hws' : ∀ o' ∈ ws, w'.Pending o' := h.forall_pending ho hws hnot
      obtain ⟨v, hv⟩ := ih hws' hnodup
      refine ⟨v, run_cons_eq_some.mpr ⟨w', h.step, hv.run⟩, ?_, hv.keys.trans h.keys,
        hv.accounts.trans h.accounts⟩
      rw [hv.db, h.db]
      rfl

/-- **The entries of the overlay**: what the writes do to those of the database. -/
lemma Consistent.entries_overlay (hw : Consistent w) (hpending : ∀ o ∈ ws, w.Pending o)
    (hnodup : ws.Nodup) : entries (overlay w.db ws) =
      contentsFrom IndexEvent.Adds IndexEvent.Removes (entries w.db) (writeEvents ws) := by
  induction ws generalizing w with
  | nil => rfl
  | cons o ws ih =>
      obtain ⟨ho, hws⟩ := List.forall_mem_cons.mp hpending
      obtain ⟨hnot, hnodup⟩ := List.nodup_cons.mp hnodup
      obtain ⟨w', h⟩ := ho.exists_accepts
      have hws' : ∀ o' ∈ ws, w'.Pending o' := h.forall_pending ho hws hnot
      have hrest := ih (hw.step h.step) hws' hnodup
      rw [h.db, ← h.db, hw.entries_step h.step, ho.indexEvent_accept] at hrest
      rw [writeEvents_cons, contentsFrom_append, ← hrest, h.db]
      rfl

end World

end AppChat
