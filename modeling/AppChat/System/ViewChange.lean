import AppChat.System.Client

/-!
How the view of an app changes in a step.

* `Client.Orderly`: the answers come in the order of the writes, no change of a
  conversation is rejected, and none is deleted by another device while a message to it
  is on its way.
* `EntryChange`: the entries of a user change by one new entry, by the removal of a
  conversation, or not at all. `Client.Ok.entryChange`: in an orderly step, the view does.
* `Client.Keeps`: the app does not see a conversation deleted, and none of its own entries
  in it is rejected. `Client.Ok.present_mono`: then what it sees in it stays.
-/

namespace AppChat

open EventLog

/-- A deletion by `uid` hits a message that is to be entered in the conversation. -/
def IndexEvent.Hits (uid : String) : IndexEvent → IndexEvent → Prop
  | .dropped u p, .posted _ fromID toID side =>
      u = uid ∧ textTable fromID toID side = ["user-mess", u, p]
  | _, _ => False

/-- What is entered in a conversation is hit by its deletion. -/
lemma IndexEvent.hits_of_adds {e : IndexEvent} {uid p k : String} (h : e.Adds (uid, p, k)) :
    (IndexEvent.dropped uid p).Hits uid e := by
  cases e with
  | posted k' f t side =>
      refine ⟨rfl, ?_⟩
      cases side <;> simp [IndexEvent.Adds] at h <;> simp [textTable, h]
  | dropped => exact absurd h id

instance (uid : String) : ∀ e e' : IndexEvent, Decidable (e.Hits uid e')
  | .dropped u p, .posted _ f t side =>
      inferInstanceAs (Decidable (u = uid ∧ textTable f t side = ["user-mess", u, p]))
  | .dropped .., .dropped .. => isFalse id
  | .posted .., _ => isFalse id

namespace Client

/-- The step answers no write of the app but the first, which is accepted if it changes
a conversation; and a deletion that it hears of hits no write on its way. -/
def Orderly (uid : String) (c : Client) (a : Action) : Prop :=
  (∀ o ∈ c.writes, o.AnsweredBy a →
    c.writes.head? = some o ∧ (o.event = none ∨ a = o.accept)) ∧
  ∀ e ∈ c.heard a, ∀ o ∈ c.writes, ∀ e' ∈ o.event, ¬ e.Hits uid e'

instance (uid : String) (c : Client) (a : Action) : Decidable (c.Orderly uid a) :=
  inferInstanceAs (Decidable (_ ∧ _))

/-- The app does not see the conversation of `uid` with `p` deleted in the step, which
rejects no write of the app to it. -/
def Keeps (d : DeviceId) (uid p : String) (c : Client) (a : Action) : Prop :=
  .dropped uid p ∉ c.events d a ∧
    ∀ o ∈ c.writes, a = o.reject → ∀ e ∈ o.event, ¬ (IndexEvent.dropped uid p).Hits uid e

instance (d : DeviceId) (uid p : String) (c : Client) (a : Action) :
    Decidable (c.Keeps d uid p a) :=
  inferInstanceAs (Decidable (_ ∧ _))

end Client

/-- How the entries of `uid` change: not at all, by one new entry, or by the removal of a
conversation. -/
inductive EntryChange (db db' : Database) (uid : String) : Option String → Prop where
  | same
      (h : ∀ q k, db'.Present ["user-mess", uid, q, k] ↔ db.Present ["user-mess", uid, q, k]) :
      EntryChange db db' uid none
  | added (q k : String) (hnew : ¬ db.Present ["user-mess", uid, q, k])
      (h : ∀ q' k', db'.Present ["user-mess", uid, q', k'] ↔
        (q' = q ∧ k' = k) ∨ db.Present ["user-mess", uid, q', k']) :
      EntryChange db db' uid none
  | removed (q : String)
      (h : ∀ q' k', db'.Present ["user-mess", uid, q', k'] ↔
        db.Present ["user-mess", uid, q', k'] ∧ q' ≠ q) :
      EntryChange db db' uid (some q)

namespace EntryChange

variable {db db' : Database} {uid : String}

/-- The entries of a set that has one of the user at most are added. -/
lemma of_adds {A : Set (String × String × String)}
    (hA : ∀ q k q' k', (uid, q, k) ∈ A → (uid, q', k') ∈ A → q' = q ∧ k' = k)
    (h : ∀ q k, db'.Present ["user-mess", uid, q, k] ↔
      (uid, q, k) ∈ A ∨ db.Present ["user-mess", uid, q, k]) : EntryChange db db' uid none := by
  by_cases hnew : ∃ q k, (uid, q, k) ∈ A ∧ ¬ db.Present ["user-mess", uid, q, k]
  · obtain ⟨q, k, hmem, hnot⟩ := hnew
    refine .added q k hnot fun q' k' => ?_
    rw [h]
    refine or_congr_left ⟨fun hmem' => hA q k q' k' hmem hmem', ?_⟩
    rintro ⟨rfl, rfl⟩
    exact hmem
  · refine .same fun q k => ?_
    rw [h, or_iff_right_iff_imp]
    exact fun hmem => not_not.mp fun hnot => hnew ⟨q, k, hmem, hnot⟩

/-- The conversation of `u` with `p` is removed. -/
lemma of_removes {u p : String} (h : ∀ q k, db'.Present ["user-mess", uid, q, k] ↔
      db.Present ["user-mess", uid, q, k] ∧ ¬ (uid = u ∧ q = p)) :
    ∃ r, EntryChange db db' uid r ∧ ∀ q ∈ r, uid = u ∧ q = p := by
  by_cases hu : uid = u
  · refine ⟨some p, .removed p fun q k => ?_, fun q hq => ⟨hu, (Option.some.inj hq).symm⟩⟩
    rw [h]
    simp [hu]
  · refine ⟨none, .same fun q k => ?_, fun q hq => (by cases hq)⟩
    rw [h]
    simp [hu]

end EntryChange

namespace Client

open World

variable {c c' : Client} {d : DeviceId} {a : Action} {uid : String}

/-- The two index writes of one message enter it once with each of its users. -/
lemma adds_unique {k f t u q l q' l' : String} {side side' : Side}
    (h : (IndexEvent.posted k f t side).Adds (u, q, l))
    (h' : (IndexEvent.posted k f t side').Adds (u, q', l')) : q' = q ∧ l' = l := by
  cases side <;> cases side' <;> simp [IndexEvent.Adds] at h h' <;> grind

/-- What a send has on its way of the conversations are the index writes of one message. -/
lemma writeEvents_writes (i : SendId) (st : Stage) :
    ∃ k f t, ∀ e ∈ writeEvents (st.writes i), ∃ side, e = .posted k f t side := by
  unfold Stage.writes
  split
  · exact ⟨"", "", "", by simp [writeEvents, OwnWrite.event]⟩
  · rename_i b f t st
    refine ⟨b.key, f, t, fun e he => ?_⟩
    obtain ⟨o, ho, hoe⟩ := mem_writeEvents.mp he
    obtain ⟨side, -, rfl⟩ := List.mem_map.mp ho
    rw [OwnWrite.event] at hoe
    split_ifs at hoe
    exact ⟨side, (Option.some.inj hoe).symm⟩
  · exact ⟨"", "", "", by simp [writeEvents]⟩

/-- What a send has the app send of the conversations. -/
lemma writeEvents_issued_send (w : World) (d : DeviceId) (a : SendAction) :
    ∃ k f t, ∀ e ∈ writeEvents (w.issued d (.send a)), ∃ side, e = .posted k f t side := by
  have hnil : ∃ k f t, ∀ e ∈ writeEvents [], ∃ side, e = .posted k f t side :=
    ⟨"", "", "", by simp [writeEvents]⟩
  cases a with
  | sendText | imageURLDone | recordDone =>
      simp only [issued]
      split
      · split_ifs
        · exact writeEvents_writes _ _
        · exact hnil
      · exact hnil
  | _ => exact hnil

/-- What an app sends of the conversations: the index writes of one message, or a
deletion. -/
lemma writeEvents_issued (w : World) (d : DeviceId) (a : Action) :
    (∃ k f t, ∀ e ∈ writeEvents (w.issued d a), ∃ side, e = .posted k f t side) ∨
      ∃ u p, writeEvents (w.issued d a) = [.dropped u p] := by
  have hnil : ∃ k f t, ∀ e ∈ writeEvents [], ∃ side, e = .posted k f t side :=
    ⟨"", "", "", by simp [writeEvents]⟩
  cases a with
  | auth | screen => exact Or.inl hnil
  | send a => exact Or.inl (writeEvents_issued_send w d a)
  | delete a =>
      cases a with
      | commit x d' arrayMess row =>
          simp only [issued]
          split
          · split_ifs
            · exact Or.inr ⟨_, _, rfl⟩
            · exact Or.inl hnil
          · exact Or.inl hnil
      | _ => exact Or.inl hnil
  | register a =>
      cases a with
      | downloadURLDone s url =>
          refine Or.inl ?_
          simp only [issued]
          split
          · split_ifs
            · unfold SignupStage.writes
              split
              · exact ⟨"", "", "", by simp [writeEvents, OwnWrite.event]⟩
              · exact hnil
            · exact hnil
          · exact hnil
      | _ => exact Or.inl hnil

/-- A send deletes no conversation. -/
lemma not_dropped_of_send (c : Client) (d : DeviceId) (a : SendAction) (uid p : String) :
    IndexEvent.dropped uid p ∉ c.events d (.send a) := by
  intro he
  rcases List.mem_append.mp he with he | he
  · rw [heard] at he
    split_ifs at he
    · cases he
    · obtain ⟨x, hx⟩ := eq_delete_of_indexEvent (Option.mem_toList.mp he)
      cases hx
  · rw [sends] at he
    split at he
    · obtain ⟨k, f, t, hposted⟩ := writeEvents_issued_send _ d a
      obtain ⟨side, hside⟩ := hposted _ he
      cases hside
    · cases he

/-- A step that changes a conversation in the database sends nothing. -/
lemma issued_of_indexEvent {w w' : World} {e : IndexEvent} (h : w.indexEvent a = some e) :
    w'.issued d a = [] := by
  cases a with
  | auth | register | screen => cases h
  | send a => cases a <;> first | rfl | cases h
  | delete a => cases a <;> first | rfl | cases h

/-- What is on its way after a step was, or is sent. -/
lemma mem_writeEvents_step (hstep : c.step d a = some c') {e : IndexEvent}
    (he : e ∈ writeEvents c'.writes) : e ∈ writeEvents c.writes ∨ e ∈ c.events d a := by
  obtain ⟨o, ho, hoe⟩ := mem_writeEvents.mp he
  rw [writes_step hstep] at ho
  rcases List.mem_append.mp ho with ho | ho
  · exact Or.inl (mem_writeEvents.mpr ⟨o, (List.mem_filter.mp ho).1, hoe⟩)
  · refine Or.inr (List.mem_append_right _ (mem_writeEvents.mpr ⟨o, ?_, hoe⟩))
    rw [sends, world_step hstep]
    exact ho

namespace Ok

/-- The entries of the view after a step. -/
lemma entries_step (h : c.Ok) (hstep : c.step d a = some c') :
    entries c'.view = contentsFrom IndexEvent.Adds IndexEvent.Removes
      (contentsFrom IndexEvent.Adds IndexEvent.Removes (entries c.world.db)
        (c.world.indexEvent a).toList) (writeEvents c'.writes) := by
  rw [(h.step hstep).entries_view, h.consistent.entries_step (world_step hstep)]

/-- A step that answers a write in order leaves the view as it is. -/
lemma entries_of_answered (h : c.Ok) (hstep : c.step d a = some c') (ha : c.Orderly uid a)
    {o : OwnWrite} (ho : o ∈ c.writes) (hans : o.AnsweredBy a) :
    entries c'.view = entries c.view := by
  obtain ⟨hhead, hev⟩ := ha.1 o ho hans
  obtain ⟨ws, hws⟩ := List.head?_eq_some_iff.mp hhead
  have hnot : o ∉ ws := by
    have hnodup := h.nodup
    rw [hws] at hnodup
    exact (List.nodup_cons.mp hnodup).1
  -- the others wait on, and nothing is sent
  have hwrites : c'.writes = ws := by
    rw [writes_step hstep, issued_of_answeredBy _ _ hans, List.append_nil, hws,
      List.filter_cons_of_neg (by simp [hans]), List.filter_eq_self]
    intro o' ho'
    refine decide_eq_true fun hans' => hnot ?_
    have hmem : o' ∈ c.writes := by rw [hws]; exact List.mem_cons_of_mem _ ho'
    rwa [(h.pending o ho).eq_of_answeredBy (h.pending o' hmem) hans hans']
  have hevent : c.world.indexEvent a = o.event := by
    rcases hans with rfl | rfl
    · exact (h.pending o ho).indexEvent_accept
    · rcases hev with hev | hev
      · rw [hev]
        cases o <;> rfl
      · cases o <;> cases hev
  rw [h.entries_step hstep, h.entries_view, hwrites, hevent, hws, writeEvents_cons,
    contentsFrom_append]

/-- A step that answers no write leaves them all on their way. -/
lemma writes_of_not_answered (hstep : c.step d a = some c')
    (hans : ¬ ∃ o ∈ c.writes, o.AnsweredBy a) :
    c'.writes = c.writes ++ c'.world.issued d a := by
  have hfilter : (c.writes.filter fun o => ¬ o.AnsweredBy a) = c.writes :=
    List.filter_eq_self.mpr fun o ho => decide_eq_true fun ha => hans ⟨o, ho, ha⟩
  rw [writes_step hstep, hfilter]

/-- What the app sends comes on top of the view. -/
lemma entryChange_of_sends (h : c.Ok) (hstep : c.step d a = some c')
    (hans : ¬ ∃ o ∈ c.writes, o.AnsweredBy a) (hev : c.world.indexEvent a = none) (uid : String) :
    ∃ r, EntryChange c.view c'.view uid r ∧
      ∀ q ∈ r, IndexEvent.dropped uid q ∈ writeEvents (c'.world.issued d a) := by
  have hentries : entries c'.view = contentsFrom IndexEvent.Adds IndexEvent.Removes
      (entries c.view) (writeEvents (c'.world.issued d a)) := by
    rw [h.entries_step hstep, h.entries_view, hev, writes_of_not_answered hstep hans, writeEvents,
      List.filterMap_append, contentsFrom_append]
    rfl
  have hmem : ∀ q k, c'.view.Present ["user-mess", uid, q, k] ↔
      (uid, q, k) ∈ contents IndexEvent.Adds IndexEvent.Removes
        (writeEvents (c'.world.issued d a)) ∨ c.view.Present ["user-mess", uid, q, k] ∧
          ∀ e ∈ writeEvents (c'.world.issued d a), ¬ e.Removes (uid, q, k) := fun q k => by
    rw [← mem_entries, hentries, mem_contentsFrom_iff, mem_entries]
  rcases writeEvents_issued c'.world d a with ⟨k, f, t, hposted⟩ | ⟨u, p, hdropped⟩
  · refine ⟨none, .of_adds (A := contents IndexEvent.Adds IndexEvent.Removes
      (writeEvents (c'.world.issued d a))) ?_ fun q k => ?_, by simp⟩
    · intro q l q' l' hl hl'
      rw [mem_contents_iff] at hl hl'
      obtain ⟨l₁, e, l₂, hsplit, hadds, -⟩ := hl
      obtain ⟨l₁', e', l₂', hsplit', hadds', -⟩ := hl'
      obtain ⟨side, rfl⟩ := hposted e (by rw [hsplit]; simp)
      obtain ⟨side', rfl⟩ := hposted e' (by rw [hsplit']; simp)
      exact adds_unique hadds hadds'
    · rw [hmem]
      refine or_congr_right (and_iff_left fun e he => ?_)
      obtain ⟨side, rfl⟩ := hposted e he
      exact id
  · have hremoves : ∀ q k, c'.view.Present ["user-mess", uid, q, k] ↔
        c.view.Present ["user-mess", uid, q, k] ∧ ¬ (uid = u ∧ q = p) := fun q k => by
      rw [hmem, hdropped]
      simp [contents, apply, IndexEvent.Adds, IndexEvent.Removes]
    obtain ⟨r, hr, hrq⟩ := EntryChange.of_removes hremoves
    refine ⟨r, hr, fun q hq => ?_⟩
    obtain ⟨rfl, rfl⟩ := hrq q hq
    rw [hdropped]
    exact List.mem_singleton_self _

/-- What the app hears of goes below its own writes. -/
lemma entryChange_of_heard (h : c.Ok) (hstep : c.step d a = some c')
    (hans : ¬ ∃ o ∈ c.writes, o.AnsweredBy a) (ha : c.Orderly uid a) {e : IndexEvent}
    (hev : c.world.indexEvent a = some e) :
    ∃ r, EntryChange c.view c'.view uid r ∧ ∀ q ∈ r, e = .dropped uid q := by
  have hheard : e ∈ c.heard a := by
    rw [heard, if_neg hans]
    exact hev
  have hwrites : c'.writes = c.writes := by
    rw [writes_of_not_answered hstep hans, issued_of_indexEvent hev, List.append_nil]
  have hmem : ∀ q k, c'.view.Present ["user-mess", uid, q, k] ↔
      (uid, q, k) ∈ contents IndexEvent.Adds IndexEvent.Removes (writeEvents c.writes) ∨
        (e.Adds (uid, q, k) ∨ (uid, q, k) ∈ entries c.world.db ∧ ¬ e.Removes (uid, q, k)) ∧
          ∀ e' ∈ writeEvents c.writes, ¬ e'.Removes (uid, q, k) := fun q k => by
    rw [← mem_entries, h.entries_step hstep, hwrites, hev, mem_contentsFrom_iff]
    rfl
  have hold : ∀ q k, c.view.Present ["user-mess", uid, q, k] ↔
      (uid, q, k) ∈ contents IndexEvent.Adds IndexEvent.Removes (writeEvents c.writes) ∨
        (uid, q, k) ∈ entries c.world.db ∧
          ∀ e' ∈ writeEvents c.writes, ¬ e'.Removes (uid, q, k) := fun q k => by
    rw [← mem_entries, h.entries_view, mem_contentsFrom_iff]
  cases e with
  | posted k f t side =>
      refine ⟨none, .of_adds (A := {x | (IndexEvent.posted k f t side).Adds x ∧
        ∀ e' ∈ writeEvents c.writes, ¬ e'.Removes x}) ?_ fun q l => ?_, by simp⟩
      · intro q l q' l' hl hl'
        exact adds_unique hl.1 hl'.1
      · rw [hmem, hold]
        simp only [IndexEvent.Removes, Set.mem_ofPred_eq, not_false_eq_true, and_true]
        tauto
  | dropped u p =>
      -- no write on its way enters what is removed
      have hhits : ∀ q k, (uid, q, k) ∈ contents IndexEvent.Adds IndexEvent.Removes
          (writeEvents c.writes) → ¬ (uid = u ∧ q = p) := by
        rintro q k hadds ⟨rfl, rfl⟩
        obtain ⟨l₁, e, l₂, hsplit, hadds, -⟩ := mem_contents_iff.mp hadds
        obtain ⟨o, ho, hoe⟩ := mem_writeEvents.mp
          (show e ∈ writeEvents c.writes by rw [hsplit]; simp)
        exact ha.2 _ hheard o ho e hoe (IndexEvent.hits_of_adds hadds)
      have hremoves : ∀ q k, c'.view.Present ["user-mess", uid, q, k] ↔
          c.view.Present ["user-mess", uid, q, k] ∧ ¬ (uid = u ∧ q = p) := fun q k => by
        rw [hmem, hold]
        have hnot := hhits q k
        simp only [IndexEvent.Adds, IndexEvent.Removes, false_or]
        tauto
      obtain ⟨r, hr, hrq⟩ := EntryChange.of_removes hremoves
      refine ⟨r, hr, fun q hq => ?_⟩
      obtain ⟨rfl, rfl⟩ := hrq q hq
      rfl

/-- An entry of a conversation, of which no removal is on its way. -/
lemma present_iff_of_not_dropped (h : c.Ok) {uid p k : String}
    (hdrop : IndexEvent.dropped uid p ∉ writeEvents c.writes) :
    c.view.Present ["user-mess", uid, p, k] ↔
      (∃ e ∈ writeEvents c.writes, e.Adds (uid, p, k)) ∨
        c.world.db.Present ["user-mess", uid, p, k] := by
  rw [← mem_entries, h.entries_view]
  refine mem_contentsFrom_of_not_removes fun e he hrem => ?_
  cases e with
  | posted => exact hrem
  | dropped u q =>
      obtain ⟨rfl, rfl⟩ := hrem
      exact hdrop he

/-- **What the app sees in a conversation stays**, in a step that keeps it. -/
lemma present_mono (h : c.Ok) (hstep : c.step d a = some c') {uid p k : String}
    (ha : c.Keeps d uid p a) (hdrop : IndexEvent.dropped uid p ∉ writeEvents c.writes)
    (hk : c.view.Present ["user-mess", uid, p, k]) :
    c'.view.Present ["user-mess", uid, p, k] := by
  have hw' := world_step hstep
  have hdrop' : IndexEvent.dropped uid p ∉ writeEvents c'.writes := fun he =>
    (mem_writeEvents_step hstep he).elim hdrop ha.1
  rw [(h.step hstep).present_iff_of_not_dropped hdrop', present_step h.consistent hw']
  rcases (h.present_iff_of_not_dropped hdrop).mp hk with ⟨e, he, hadds⟩ | hk
  · -- a write of the app is still on its way, or accepted
    obtain ⟨o, ho, hoe⟩ := mem_writeEvents.mp he
    by_cases hans : o.AnsweredBy a
    · rcases hans with rfl | rfl
      · exact Or.inr (Or.inl ⟨e, by rw [(h.pending o ho).indexEvent_accept, hoe]; rfl, hadds⟩)
      · exact absurd (IndexEvent.hits_of_adds hadds) (ha.2 o ho rfl e hoe)
    · refine Or.inl ⟨e, mem_writeEvents.mpr ⟨o, ?_, hoe⟩, hadds⟩
      rw [writes_step hstep]
      exact List.mem_append_left _ (List.mem_filter.mpr ⟨ho, decide_eq_true hans⟩)
  · -- an entry of the database is not removed
    refine Or.inr (Or.inr ⟨hk, fun e he hrem => ?_⟩)
    cases e with
    | posted => exact hrem
    | dropped u q =>
        obtain ⟨rfl, rfl⟩ := hrem
        by_cases hans : ∃ o ∈ c.writes, o.AnsweredBy a
        · obtain ⟨o, ho, rfl | rfl⟩ := hans
          · rw [(h.pending o ho).indexEvent_accept] at he
            exact hdrop (mem_writeEvents.mpr ⟨o, ho, he⟩)
          · cases o <;> cases he
        · refine ha.1 (List.mem_append_left _ ?_)
          rw [heard, if_neg hans, Option.mem_toList]
          exact he

/-- **How the view changes** in an orderly step: by one entry, by the removal of a
conversation that the app sees deleted, or not at all. -/
theorem entryChange (h : c.Ok) (hstep : c.step d a = some c') (ha : c.Orderly uid a) :
    ∃ r, EntryChange c.view c'.view uid r ∧
      ∀ q ∈ r, IndexEvent.dropped uid q ∈ c.events d a := by
  by_cases hans : ∃ o ∈ c.writes, o.AnsweredBy a
  · obtain ⟨o, ho, hoa⟩ := hans
    have hentries := h.entries_of_answered hstep ha ho hoa
    refine ⟨none, .same fun q k => ?_, by simp⟩
    rw [← mem_entries, hentries, mem_entries]
  · have hsends : c.sends d a = c'.world.issued d a := by
      rw [sends, world_step hstep]
    cases hev : c.world.indexEvent a with
    | none =>
        obtain ⟨r, hr, hrq⟩ := h.entryChange_of_sends hstep hans hev uid
        refine ⟨r, hr, fun q hq => List.mem_append_right _ ?_⟩
        rw [hsends]
        exact hrq q hq
    | some e =>
        obtain ⟨r, hr, hrq⟩ := h.entryChange_of_heard hstep hans ha hev
        refine ⟨r, hr, fun q hq => List.mem_append_left _ ?_⟩
        rw [heard, if_neg hans, hev, hrq q hq]
        exact List.mem_singleton_self _

end Ok

end Client

end AppChat
