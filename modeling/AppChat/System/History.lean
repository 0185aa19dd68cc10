import AppChat.System.Integrity

/-!
The index as the outcome of its history.

The entries at the third level of `user-mess` are the triples `(u, p, k)` with
a node at `user-mess/u/p/k`. Every step changes them as its `IndexEvent` says
and in no other way (`present_step`), so they are what the events of the run
add up to (`present_iff_contents`): an entry is there exactly when its index
write has been applied and its owner has not deleted the conversation since.

* `no_message_lost_or_leaked`: this, together with what a send and a deletion
  leave alone, and who can have an entry for a message.
-/

namespace AppChat

namespace World

open Transition EventLog

/-- The entry an index write of a text or an image goes to. -/
lemma adds_posted {k f t u p : String} {side : Side} :
    (IndexEvent.posted k f t side).Adds (u, p, k) ↔ textTable f t side = ["user-mess", u, p] := by
  cases side <;> simp [IndexEvent.Adds, textTable, eq_comm]

/-- **What a step does to the entries of the conversations**: it adds and
removes what its event says. -/
lemma present_step {w w' : World} (hw : Consistent w) {a : Action} (h : w.step a = some w')
    (u p k : String) :
    w'.db.Present ["user-mess", u, p, k] ↔
      (∃ e ∈ w.indexEvent a, e.Adds (u, p, k)) ∨
        w.db.Present ["user-mess", u, p, k] ∧ ∀ e ∈ w.indexEvent a, ¬ e.Removes (u, p, k) := by
  have heff := step_effect h
  rw [hw.present_iff, (hw.step h).present_iff]
  -- a step without an event that leaves the leaves of `user-mess` alone
  have quiet : ((["user-mess", u, p, k], Value.num 1) ∈ w'.db.leaves ↔
      (["user-mess", u, p, k], Value.num 1) ∈ w.db.leaves) → w.indexEvent a = none →
      ((["user-mess", u, p, k], Value.num 1) ∈ w'.db.leaves ↔
        (∃ e ∈ w.indexEvent a, e.Adds (u, p, k)) ∨
          (["user-mess", u, p, k], Value.num 1) ∈ w.db.leaves ∧
            ∀ e ∈ w.indexEvent a, ¬ e.Removes (u, p, k)) := by
    intro hleaf hev
    simp [hleaf, hev]
  generalize hev : w.indexEvent a = ev at heff quiet ⊢
  cases heff.commit hw.blocks.captured with
  | none hdb _ _ => exact quiet (by rw [hdb]) rfl
  | record i b _ _ hdb _ _ _ =>
      exact quiet (by rw [hdb, PathTree.mem_updateChildValues_of_not_comparable (by simp)]) rfl
  | user uid user hdb _ _ =>
      exact quiet (by rw [hdb, PathTree.mem_setValue_of_not_comparable (by simp)]) rfl
  | dropped u' p' hdb _ _ =>
      rw [hdb, PathTree.mem_remove]
      simp [IndexEvent.Adds, IndexEvent.Removes, eq_comm]
  | entry i b f t side hb hf ht hdb _ _ _ =>
      obtain ⟨hkey, hids⟩ := hw.accepted_ids hb hf ht
      -- the new leaf is there, and no old one has gone
      have hleaf : (["user-mess", u, p, k], Value.num 1) ∈ w'.db.leaves ↔
          b.table f t side ++ [b.key] = ["user-mess", u, p, k] ∨
            (["user-mess", u, p, k], Value.num 1) ∈ w.db.leaves := by
        rw [hdb]
        constructor
        · intro hq
          rcases mem_indexWrite.mp hq with ⟨hq, -⟩ | ⟨hq, -⟩
          · exact Or.inl hq.symm
          · exact Or.inr hq
        · rintro (hq | hq)
          · exact mem_indexWrite.mpr (Or.inl ⟨hq.symm, rfl⟩)
          · exact hw.mem_indexWrite_of_mem hkey hids hq
      cases hv : b.payload.isVideo with
      | true =>
          have hne : b.table f t side ++ [b.key] ≠ ["user-mess", u, p, k] := by
            rw [b.table_of_isVideo hv]
            cases side <;> simp [videoTable]
          simp [hleaf, hne]
      | false =>
          have hadds : b.table f t side ++ [b.key] = ["user-mess", u, p, k] ↔
              (IndexEvent.posted b.key f t side).Adds (u, p, k) := by
            rw [b.table_of_not_isVideo hv]
            cases side <;> simp [textTable, IndexEvent.Adds, eq_comm]
          simp [hleaf, hadds, IndexEvent.Removes]

/-- **The history of the index**: the entries of the conversations are what the
events of the run add up to. -/
lemma present_iff_contents {as : List Action} {w : World} (h : Runs as w) (u p k : String) :
    w.db.Present ["user-mess", u, p, k] ↔
      (u, p, k) ∈ contents IndexEvent.Adds IndexEvent.Removes (trace step indexEvent init as) := by
  refine (trace_invariant (I := fun l w => Consistent w ∧ ∀ u p k,
    w.db.Present ["user-mess", u, p, k] ↔
      (u, p, k) ∈ contents IndexEvent.Adds IndexEvent.Removes l) ?_ ?_ h).2 u p k
  · rintro l w a w' ⟨hw, ih⟩ hstep
    refine ⟨hw.step hstep, fun u p k => ?_⟩
    rw [present_step hw hstep, ih]
    cases w.indexEvent a with
    | none => simp
    | some e => simp [contents_concat, apply]
  · refine ⟨consistent_init, fun u p k => ?_⟩
    rw [consistent_init.present_iff]
    simp [init]

/-- The index writes of the run that have been applied are those of its sends. -/
lemma posted_mem_trace_iff {as : List Action} {w : World} (h : Runs as w) {k f t : String}
    {side : Side} :
    IndexEvent.posted k f t side ∈ trace step indexEvent init as ↔
      ∃ i b, w.Entered i b f t side ∧ b.key = k ∧ b.payload.isVideo = false := by
  refine (trace_invariant (I := fun l w => Consistent w ∧ ∀ k f t side,
    IndexEvent.posted k f t side ∈ l ↔
      ∃ i b, w.Entered i b f t side ∧ b.key = k ∧ b.payload.isVideo = false) ?_ ?_ h).2 k f t side
  · rintro l w a w' ⟨hw, ih⟩ hstep
    refine ⟨hw.step hstep, fun k f t side => ?_⟩
    have heff := step_effect hstep
    have hmono : ∀ {i b}, w.Entered i b f t side → w'.Entered i b f t side := heff.entered_mono
    rw [List.mem_append, ih]
    -- a step that enters nothing new
    have same : (∀ j c f t s, w'.Entered j c f t s → w.Entered j c f t s) →
        IndexEvent.posted k f t side ∉ (w.indexEvent a).toList →
        ((∃ i b, w.Entered i b f t side ∧ b.key = k ∧ b.payload.isVideo = false) ∨
          IndexEvent.posted k f t side ∈ (w.indexEvent a).toList ↔
          ∃ i b, w'.Entered i b f t side ∧ b.key = k ∧ b.payload.isVideo = false) := by
      intro hent hev
      rw [or_iff_left hev]
      exact ⟨fun ⟨i, b, h, hb⟩ => ⟨i, b, hmono h, hb⟩,
        fun ⟨i, b, h, hb⟩ => ⟨i, b, hent _ _ _ _ _ h, hb⟩⟩
    generalize w.indexEvent a = ev at heff same ⊢
    cases heff.commit hw.blocks.captured with
    | none _ _ hent => exact same hent (by simp)
    | record _ _ _ _ _ _ _ hent => exact same hent (by simp)
    | dropped _ _ _ _ hent => exact same hent (by simp)
    | user _ _ _ _ hent => exact same hent (by simp)
    | entry i b f' t' side' _ _ _ _ hnew _ hent =>
        constructor
        · rintro (⟨j, c, hj, hc⟩ | hev)
          · exact ⟨j, c, hmono hj, hc⟩
          · cases hv : b.payload.isVideo with
            | true => simp [hv] at hev
            | false =>
                obtain ⟨rfl, rfl, rfl, rfl⟩ : k = b.key ∧ f = f' ∧ t = t' ∧ side = side' := by
                  simpa [hv] using hev
                exact ⟨i, b, hnew, rfl, hv⟩
        · rintro ⟨j, c, hj, rfl, hv⟩
          rcases hent j c f t side hj with ⟨rfl, rfl, rfl, rfl, rfl⟩ | hj
          · exact Or.inr (by simp [hv])
          · exact Or.inl ⟨j, c, hj, rfl, hv⟩
  · refine ⟨consistent_init, fun k f t side => ?_⟩
    have hno : ∀ i b, ¬ init.Entered i b f t side := by
      rintro i b ⟨st, hi, -⟩
      cases hi
    simp [hno]

/-- **No step of a send removes or overwrites an entry.** -/
lemma send_keeps_entries {w w' : World} (hw : Consistent w) {a : SendAction}
    (h : w.step (.send a) = some w') {q : List String} {v : Value}
    (hq : ("user-mess" :: q, v) ∈ w.db.leaves) : ("user-mess" :: q, v) ∈ w'.db.leaves := by
  have heff := step_effect h
  have hne : ∀ u p, w.indexEvent (.send a) ≠ some (.dropped u p) := fun u p he => by
    obtain ⟨x, hx⟩ := eq_delete_of_indexEvent he
    cases hx
  generalize w.indexEvent (.send a) = ev at heff hne
  cases heff.commit hw.blocks.captured with
  | none hdb _ _ => rwa [hdb]
  | record i b _ _ hdb _ _ _ =>
      rwa [hdb, PathTree.mem_updateChildValues_of_not_comparable (by simp)]
  | user uid user hdb _ _ =>
      rwa [hdb, PathTree.mem_setValue_of_not_comparable (by simp)]
  | dropped u p _ _ _ => exact absurd rfl (hne u p)
  | entry i b f t side hb hf ht hdb _ _ _ =>
      obtain ⟨hkey, hids⟩ := hw.accepted_ids hb hf ht
      rw [hdb]
      exact hw.mem_indexWrite_of_mem hkey hids hq

/-- A deletion changes nothing outside the conversation of its owner. -/
lemma delete_frame {w w' : World} {x : DeletionId} {del : Deletion}
    (hdel : w.deletions x = some del) (h : w.step (.delete (.applied x)) = some w')
    {q : List String} {v : Value} (hq : ¬ ["user-mess", del.uid, del.partnerId] <+: q) :
    (q, v) ∈ w'.db.leaves ↔ (q, v) ∈ w.db.leaves := by
  simp only [step, deleteStep, hdel, Option.bind_some, Option.ite_none_right_eq_some] at h
  rw [← Option.some.inj h.2, setDeletion_db, PathTree.mem_remove]
  exact and_iff_left hq

/-- An entry for a message belongs to one of its two users. -/
lemma present_block (w : World) (hw : Consistent w) {i : SendId} {b : RecordBlock} {u p : String}
    (hb : w.block i = some b) (h : w.db.Present ["user-mess", u, p, b.key]) :
    (b.fromID = some u ∧ b.toID = some p) ∨ (b.fromID = some p ∧ b.toID = some u) := by
  obtain ⟨j, c, f, t, side, hent, hv, hkey, htable⟩ := hw.present_cases h
  obtain rfl := hw.blocks.key_inj j i c b hent.accepted.block hb hkey
  obtain rfl : c = b := Option.some.inj (hent.accepted.block.symm.trans hb)
  have hf := (hw.entered_captured hent).1
  have ht := hw.entered_toID hent hv
  cases side <;> simp [textTable] at htable
  · exact Or.inl ⟨htable.1 ▸ hf, htable.2 ▸ ht⟩
  · exact Or.inr ⟨htable.2 ▸ hf, htable.1 ▸ ht⟩

/-- **No message is lost or leaked.** At the end of every run, the node
`user-mess/u/p/k` is there exactly when the index write of a text or an image
with the key `k` to the conversation of `u` with `p` has been applied and `u`
has not deleted that conversation since. The index writes in question are those
of the sends of the run; no step of a send removes or overwrites an entry; a
deletion changes nothing outside the conversation of its owner; and only the
two users of a message have an entry for it. -/
theorem no_message_lost_or_leaked {as : List Action} {w : World} (h : Runs as w) :
    (∀ u p k, w.db.Present ["user-mess", u, p, k] ↔
      ∃ l₁ f t side l₂,
        trace step indexEvent init as = l₁ ++ IndexEvent.posted k f t side :: l₂ ∧
          textTable f t side = ["user-mess", u, p] ∧ IndexEvent.dropped u p ∉ l₂) ∧
    (∀ k f t side, IndexEvent.posted k f t side ∈ trace step indexEvent init as ↔
      ∃ i b, w.Entered i b f t side ∧ b.key = k ∧ b.payload.isVideo = false) ∧
    (∀ a w', w.step (.send a) = some w' → ∀ q v, ("user-mess" :: q, v) ∈ w.db.leaves →
      ("user-mess" :: q, v) ∈ w'.db.leaves) ∧
    (∀ x del w', w.deletions x = some del → w.step (.delete (.applied x)) = some w' →
      ∀ q v, ¬ ["user-mess", del.uid, del.partnerId] <+: q →
        ((q, v) ∈ w'.db.leaves ↔ (q, v) ∈ w.db.leaves)) ∧
    (∀ i b u p, w.block i = some b → w.db.Present ["user-mess", u, p, b.key] →
      (b.fromID = some u ∧ b.toID = some p) ∨ (b.fromID = some p ∧ b.toID = some u)) := by
  have hw := h.consistent
  refine ⟨fun u p k => ?_, fun k f t side => posted_mem_trace_iff h,
    fun a w' ha q v hq => send_keeps_entries hw ha hq,
    fun x del w' hx ha q v hq => delete_frame hx ha hq,
    fun i b u p hb hp => present_block w hw hb hp⟩
  rw [present_iff_contents h, mem_contents_iff]
  constructor
  · rintro ⟨l₁, e, l₂, hl, hadds, hrem⟩
    cases e with
    | posted k' f t side =>
        obtain rfl : k' = k := by cases side <;> simp_all [IndexEvent.Adds]
        exact ⟨l₁, f, t, side, l₂, hl, adds_posted.mp hadds, fun hd => hrem _ hd ⟨rfl, rfl⟩⟩
    | dropped u' p' => exact absurd hadds id
  · rintro ⟨l₁, f, t, side, l₂, hl, htable, hd⟩
    refine ⟨l₁, _, l₂, hl, adds_posted.mpr htable, fun e he hrem => ?_⟩
    cases e with
    | posted => exact hrem
    | dropped u' p' =>
        obtain ⟨rfl, rfl⟩ := hrem
        exact hd he

/-- The first text, with the two events of its history. -/
theorem no_message_lost_or_leaked_firstText : ∃ w, Runs firstText w ∧
    (w.db.Present ["user-mess", "b", "a", "k"] ↔ ∃ l₁ f t side l₂,
      trace step indexEvent init firstText = l₁ ++ IndexEvent.posted "k" f t side :: l₂ ∧
        textTable f t side = ["user-mess", "b", "a"] ∧ IndexEvent.dropped "b" "a" ∉ l₂) := by
  obtain ⟨w, hw, -⟩ := Option.map_eq_some_iff.mp firstText_present
  exact ⟨w, hw, (no_message_lost_or_leaked hw).1 "b" "a" "k"⟩

end World

end AppChat
