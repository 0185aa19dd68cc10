import AppChat.System.OwnWrites

/-!
The system, as one app sees it.

* `World.issued`: the writes that an app sends in a step.
* `Client`: the world, and the writes of one app that are not answered; its `view` is the
  database with these writes on top. `Client.step` sends them and takes them back.
* `Client.events`: the changes of the conversations that the app sees in a step.
* `Client.Ok`: every such write is on its way in the world, once, which every step keeps.
  So the view is as consistent as the database of a reachable state.
-/

namespace AppChat

open EventLog Transition

/-! ### What an app sends -/

/-- The writes of a send that are on their way at a stage. -/
def Stage.writes (i : SendId) : Stage → List OwnWrite
  | .record b .pending => [.record i b]
  | .index b fromID toID st =>
      ([.sender, .recipient].filter fun side => st side = .pending).map fun side =>
        .index i b fromID toID side
  | _ => []

/-- The write of a registration that is on its way at a stage. -/
def SignupStage.writes (s : SignupId) : SignupStage → List OwnWrite
  | .setValue uid values .pending => [.user s uid values]
  | _ => []

namespace World

/-- The writes that the app of the device sends in a step that leads to the state: the
record of a message, the two index writes of its completion block, the removal of a
conversation, and the record of a new user. -/
def issued (w : World) (d : DeviceId) : Action → List OwnWrite
  | .send (.sendText i ..) | .send (.imageURLDone i ..) | .send (.recordDone i) =>
      match w.sends i with
      | some s => if s.device = d then s.stage.writes i else []
      | none => []
  | .delete (.commit x ..) =>
      match w.deletions x with
      | some del =>
          if del.device = d ∧ del.st = .pending then [.removal x del.uid del.partnerId] else []
      | none => []
  | .register (.downloadURLDone s _) =>
      match w.signups s with
      | some g =>
          if (w.registers g.screen).map Register.device = some d then g.stage.writes s else []
      | none => []
  | _ => []

end World

/-- The world, and the writes of one app that are on their way, the oldest first. -/
structure Client where
  world : World
  writes : List OwnWrite

namespace Client

def init : Client := ⟨.init, []⟩

/-- The database as the app sees it. -/
def view (c : Client) : Database := overlay c.world.db c.writes

/-- The app stops. -/
def crash (c : Client) (d : DeviceId) : Client := { c with world := c.world.crash d }

/-- The next state, for the app of the device `d`. -/
def step (d : DeviceId) (c : Client) (a : Action) : Option Client :=
  (c.world.step a).map fun w' =>
    ⟨w', (c.writes.filter fun o => ¬ o.AnsweredBy a) ++ w'.issued d a⟩

/-- What the app sends in a step. -/
def sends (d : DeviceId) (c : Client) (a : Action) : List OwnWrite :=
  match c.world.step a with
  | some w' => w'.issued d a
  | none => []

/-- The change of a conversation that the app hears of: one that the database accepts,
but for those that are its own. -/
def heard (c : Client) (a : Action) : Option IndexEvent :=
  if ∃ o ∈ c.writes, o.AnsweredBy a then none else c.world.indexEvent a

/-- The changes of the conversations that the app sees in a step: those it hears of, and
those it sends. -/
def events (d : DeviceId) (c : Client) (a : Action) : List IndexEvent :=
  (c.heard a).toList ++ writeEvents (c.sends d a)

end Client

namespace World

variable {w w' : World} {d : DeviceId} {a : Action} {o : OwnWrite}

/-! ### What is sent is on its way -/

/-- The writes of a send are on their way. -/
lemma pending_of_mem_writes {i : SendId} {s : Send} (hs : w.sends i = some s)
    (ho : o ∈ s.stage.writes i) : w.Pending o := by
  unfold Stage.writes at ho
  split at ho
  · rename_i b hst
    rw [List.mem_singleton.mp ho]
    exact progress_record hs hst
  · rename_i b f t st hst
    obtain ⟨side, hside, rfl⟩ := List.mem_map.mp ho
    exact ⟨st, progress_index hs hst, of_decide_eq_true (List.mem_filter.mp hside).2⟩
  · cases ho

/-- What is sent is on its way. -/
lemma pending_of_mem_issued (ho : o ∈ w.issued d a) : w.Pending o := by
  unfold issued at ho
  split at ho
  case h_4 =>
    split at ho
    · rename_i del hdel
      split_ifs at ho with hst
      · rw [List.mem_singleton.mp ho]
        exact ⟨del, hdel, rfl, rfl, hst.2⟩
      · cases ho
    · cases ho
  case h_5 =>
    split at ho
    · rename_i g hg
      split_ifs at ho
      · unfold SignupStage.writes at ho
        split at ho
        · rename_i hst
          rw [List.mem_singleton.mp ho]
          exact ⟨g, hg, hst⟩
        · cases ho
      · cases ho
    · cases ho
  case h_6 => cases ho
  all_goals
    split at ho
    · rename_i s hs
      split_ifs at ho
      · exact pending_of_mem_writes hs ho
      · cases ho
    · cases ho

/-- A send that has a write on its way waits for the answer to its record, or for those
to its index writes. -/
lemma stage_of_pending {i : SendId} {st : Stage} (ho : o ∈ st.writes i) (h : w.Pending o) :
    ∃ s, w.sends i = some s ∧
      ((∃ b, s.stage = .record b .pending) ∨ ∃ b f t st, s.stage = .index b f t st) := by
  unfold Stage.writes at ho
  split at ho
  · rw [List.mem_singleton.mp ho] at h
    obtain ⟨s, hs, hst⟩ := exists_send h
    exact ⟨s, hs, Or.inl ⟨_, hst⟩⟩
  · obtain ⟨side, -, rfl⟩ := List.mem_map.mp ho
    obtain ⟨st, hprog, -⟩ := h
    obtain ⟨s, hs, hst⟩ := exists_send hprog
    exact ⟨s, hs, Or.inr ⟨_, _, _, _, hst⟩⟩
  · cases ho

/-- What is sent was not on its way before. -/
lemma not_pending_of_mem_issued (h : w.step a = some w') (ho : o ∈ w'.issued d a) :
    ¬ w.Pending o := by
  intro hpending
  -- the send was not there, or at a stage without a write on its way
  have send : ∀ {i : SendId}, (match w'.sends i with
      | some s => if s.device = d then s.stage.writes i else []
      | none => []) = w'.issued d a →
      ∃ s, w.sends i = some s ∧
        ((∃ b, s.stage = .record b .pending) ∨ ∃ b f t st, s.stage = .index b f t st) := by
    intro i hi
    rw [← hi] at ho
    split at ho
    · split_ifs at ho
      · exact stage_of_pending ho hpending
      · cases ho
    · cases ho
  cases a with
  | auth | screen => cases ho
  | send a =>
      cases a with
      | sendText i c key now =>
          obtain ⟨s, hs, -⟩ := send (i := i) rfl
          simp [World.step, sendStep, hs] at h
      | imageURLDone i url key now =>
          obtain ⟨s, hs, ⟨b, hst⟩ | ⟨b, f, t, st, hst⟩⟩ := send (i := i) rfl <;>
            simp [World.step, sendStep, hs, hst] at h
      | recordDone i =>
          obtain ⟨s, hs, ⟨b, hst⟩ | ⟨b, f, t, st, hst⟩⟩ := send (i := i) rfl <;>
            simp [World.step, sendStep, hs, hst] at h
      | _ => cases ho
  | delete a =>
      cases a with
      | commit x d' arrayMess row =>
          simp only [World.step, deleteStep, Option.ite_none_right_eq_some] at h
          simp only [issued] at ho
          split at ho
          · split_ifs at ho
            · rw [List.mem_singleton.mp ho] at hpending
              obtain ⟨del, hdel, -⟩ := hpending
              rw [hdel] at h
              cases h.1.2
            · cases ho
          · cases ho
      | _ => cases ho
  | register a =>
      cases a with
      | downloadURLDone s url =>
          simp only [issued] at ho
          split at ho
          · split_ifs at ho
            · unfold SignupStage.writes at ho
              split at ho
              · rw [List.mem_singleton.mp ho] at hpending
                obtain ⟨g, hg, hst⟩ := hpending
                simp [World.step, registerStep, hg, hst] at h
              · cases ho
            · cases ho
          · cases ho
      | _ => cases ho

/-- What is sent is sent once. -/
lemma nodup_issued (w : World) (d : DeviceId) (a : Action) : (w.issued d a).Nodup := by
  have hwrites : ∀ (i : SendId) (st : Stage), (st.writes i).Nodup := by
    intro i st
    unfold Stage.writes
    split
    · exact List.nodup_singleton _
    · refine (List.Nodup.filter _ (by simp)).map ?_
      intro side side' hside
      simpa using hside
    · exact List.nodup_nil
  have hsignup : ∀ (s : SignupId) (st : SignupStage), (st.writes s).Nodup := by
    intro s st
    unfold SignupStage.writes
    split
    · exact List.nodup_singleton _
    · exact List.nodup_nil
  unfold issued
  repeat' split
  all_goals first
    | exact hwrites _ _
    | exact hsignup _ _
    | exact List.nodup_singleton _
    | exact List.nodup_nil

/-- An answer sends nothing. -/
lemma issued_of_answeredBy (w : World) (d : DeviceId) (h : o.AnsweredBy a) :
    w.issued d a = [] := by
  rcases h with rfl | rfl <;> cases o <;> rfl

end World

namespace Client

open World

variable {c c' : Client} {d : DeviceId} {a : Action} {uid p q k : String}

/-! ### The writes on their way -/

/-- The writes are on their way in the world, each once. -/
structure Tracks (c : Client) : Prop where
  pending : ∀ o ∈ c.writes, c.world.Pending o
  nodup : c.writes.Nodup

lemma tracks_init : init.Tracks := ⟨by simp [init], List.nodup_nil⟩

/-- A step of the app is one of the world. -/
lemma world_step (hstep : c.step d a = some c') : c.world.step a = some c'.world := by
  obtain ⟨w', hw', rfl⟩ := Option.map_eq_some_iff.mp hstep
  exact hw'

/-- The app follows every step of the world. -/
lemma exists_step {w' : World} (d : DeviceId) (hstep : c.world.step a = some w') :
    ∃ c', c.step d a = some c' ∧ c'.world = w' :=
  ⟨_, Option.map_eq_some_iff.mpr ⟨w', hstep, rfl⟩, rfl⟩

/-- What is on its way after a step: what was and is not answered, and what is sent. -/
lemma writes_step (hstep : c.step d a = some c') :
    c'.writes = (c.writes.filter fun o => ¬ o.AnsweredBy a) ++ c'.world.issued d a := by
  obtain ⟨w', -, rfl⟩ := Option.map_eq_some_iff.mp hstep
  rfl

/-- **Every step keeps track of the writes.** -/
lemma Tracks.step (h : c.Tracks) (hstep : c.step d a = some c') : c'.Tracks := by
  have hw' := world_step hstep
  refine ⟨fun o ho => ?_, ?_⟩ <;> rw [writes_step hstep] at *
  · rcases List.mem_append.mp ho with ho | ho
    · obtain ⟨ho, ha⟩ := List.mem_filter.mp ho
      exact (h.pending o ho).step hw' (of_decide_eq_true ha)
    · exact pending_of_mem_issued ho
  · refine (h.nodup.filter _).append (nodup_issued _ _ _) fun o ho hnew => ?_
    exact not_pending_of_mem_issued hw' hnew (h.pending o (List.mem_filter.mp ho).1)

/-- The world, and the writes that are on their way in it. -/
structure Ok (c : Client) : Prop extends c.Tracks where
  consistent : World.Consistent c.world

lemma ok_init : init.Ok := ⟨tracks_init, World.consistent_init⟩

lemma Ok.step (h : c.Ok) (hstep : c.step d a = some c') : c'.Ok :=
  ⟨h.toTracks.step hstep, h.consistent.step (world_step hstep)⟩

/-- An app that stops sends nothing more. -/
lemma Ok.crash (h : c.Ok) (d : DeviceId) : (c.crash d).Ok := by
  have hstep : c.world.step (.auth (.kill d)) = some (c.world.crash d) := rfl
  refine ⟨⟨fun o ho => (h.pending o ho).step hstep ?_, h.nodup⟩, h.consistent.step hstep⟩
  cases o <;> simp [OwnWrite.AnsweredBy, OwnWrite.accept, OwnWrite.reject]

/-! ### The view -/

/-- Once every write is answered, the app sees the database. -/
lemma view_of_writes_eq_nil (h : c.writes = []) : c.view = c.world.db := by
  rw [view, h]
  rfl

/-- A step of the screens neither sends nor answers a write. -/
lemma view_of_screen {b : ScreenAction} (hstep : c.step d (.screen b) = some c') :
    c'.view = c.view := by
  obtain ⟨devices, chats, hw'⟩ := screenStep_cases (world_step hstep)
  have hfilter : (c.writes.filter fun o => ¬ o.AnsweredBy (.screen b)) = c.writes := by
    refine List.filter_eq_self.mpr fun o _ => decide_eq_true ?_
    cases o <;> simp [OwnWrite.AnsweredBy, OwnWrite.accept, OwnWrite.reject]
  rw [view, writes_step hstep, hfilter, hw', view]
  simp [issued]

/-- The view is the database of a state that the system can reach. -/
lemma Tracks.exists_view (h : c.Tracks) :
    ∃ v, Transition.run World.step c.world (c.writes.map OwnWrite.accept) = some v ∧
      v.db = c.view ∧ v.keys = c.world.keys ∧ v.uids = c.world.uids := by
  obtain ⟨v, hv⟩ := exists_acceptsAll h.pending h.nodup
  exact ⟨v, hv.run, hv.db, hv.keys, by rw [uids, hv.accounts, uids]⟩

namespace Ok

lemma entries_view (h : c.Ok) : entries c.view =
    contentsFrom IndexEvent.Adds IndexEvent.Removes (entries c.world.db) (writeEvents c.writes) :=
  h.consistent.entries_overlay h.pending h.nodup

/-- **An entry of the view stands for an accepted message.** -/
lemma between_of_present (h : c.Ok) (hk : c.view.Present ["user-mess", uid, p, k]) :
    c.world.Between uid p k := by
  rw [← mem_entries, h.entries_view, mem_contentsFrom_iff, mem_contents_iff] at hk
  rcases hk with ⟨l₁, e, l₂, hl, hadds, -⟩ | ⟨hk, -⟩
  · have he : e ∈ writeEvents c.writes := by rw [hl]; simp
    obtain ⟨o, ho, hoe⟩ := mem_writeEvents.mp he
    exact (h.pending o ho).between h.consistent hoe hadds
  · exact h.consistent.between_of_present hk

/-- An entry of the database is in the view, unless a deletion of its conversation is on
its way. -/
lemma present_view (h : c.Ok) (hk : c.world.db.Present ["user-mess", uid, p, k])
    (hdrop : IndexEvent.dropped uid p ∉ writeEvents c.writes) :
    c.view.Present ["user-mess", uid, p, k] := by
  rw [← mem_entries, h.entries_view, mem_contentsFrom_iff]
  refine Or.inr ⟨hk, fun e he hrem => ?_⟩
  cases e with
  | posted => exact hrem
  | dropped u q =>
      obtain ⟨rfl, rfl⟩ := hrem
      exact hdrop he

/-- A child of the index that is not the key of a video is the node of a partner. -/
lemma present_partner_iff (h : c.Ok) (hq : q ∉ c.world.keys) :
    c.view.Present ["user-mess", uid, q] ↔ ∃ k, c.view.Present ["user-mess", uid, q, k] := by
  obtain ⟨v, hrun, hdb, hkeys, -⟩ := h.exists_view
  rw [← hdb]
  exact (h.consistent.run hrun).present_partner_iff (hkeys ▸ hq)

/-- Nothing is below the entry of a video. -/
lemma childKeys_of_mem_keys (h : c.Ok) (hq : q ∈ c.world.keys) :
    c.view.childKeys ["user-mess", uid, q] = [] := by
  obtain ⟨v, hrun, hdb, hkeys, -⟩ := h.exists_view
  rw [← hdb]
  exact (h.consistent.run hrun).childKeys_of_mem_keys (hkeys ▸ hq)

/-- **A partner who gets an entry** was in the view with one, or not at all. -/
lemma present_of_partner (h : c.Ok) (hstep : c.step d a = some c')
    (hk : c'.view.Present ["user-mess", uid, q, k]) (hq : c.view.Present ["user-mess", uid, q]) :
    ∃ k, c.view.Present ["user-mess", uid, q, k] := by
  have hw' := (h.step hstep).consistent
  refine (h.present_partner_iff fun hmem => ?_).mp hq
  exact hw'.not_mem_keys (hw'.between_mem_uids ((h.step hstep).between_of_present hk))
    (step_keys (world_step hstep) hmem)

/-- The chat log decodes a record that is accepted. -/
lemma getMessageUserPartnerValue (h : c.Ok) {i : SendId} {b : RecordBlock}
    (hb : c.world.Accepted i b) :
    AppChat.getMessageUserPartnerValue (snapshot c.view ["mess", b.key]) = .ok b.sent := by
  obtain ⟨v, hrun, hdb, -, -⟩ := h.exists_view
  rw [← hdb]
  exact RecordBlock.getMessageUserPartnerValue_stored
    ((h.consistent.run hrun).stored (accepted_run hrun hb))

/-- So does the inbox. -/
lemma getMessage2Value (h : c.Ok) {b : RecordBlock} (hb : c.world.SentBetween uid p b) :
    AppChat.getMessage2Value (snapshot c.view ["mess", b.key]) = .ok b.inboxMess := by
  obtain ⟨v, hrun, hdb, -, -⟩ := h.exists_view
  rw [← hdb]
  exact (hb.run hrun).getMessage2Value (h.consistent.run hrun)

/-- **A record that is accepted does not change.** -/
lemma not_nodeChanged (h : c.Ok) (hstep : c.step d a = some c') {i : SendId} {b : RecordBlock}
    (hb : c.world.Accepted i b) : ¬ NodeChanged c.view c'.view ["mess", b.key] := by
  have h' := h.step hstep
  obtain ⟨v, hrun, hdb, -, -⟩ := h.exists_view
  obtain ⟨v', hrun', hdb', -, -⟩ := h'.exists_view
  rw [← hdb, ← hdb']
  exact (h.consistent.run hrun).not_nodeChanged (h'.consistent.run hrun') (accepted_run hrun hb)
    (accepted_run hrun' (accepted_step (world_step hstep) hb))

end Ok

end Client

end AppChat
