import AppChat.System.Commit

/-!
What is in the database of a reachable state, leaf by leaf.

* `IndexOk`: the fields of an accepted record are there; below `mess` there is
  nothing else; below `user-mess` there are only accepted index entries.
* `Consistent`: the user ids, the blocks and the database together;
  `Reachable.consistent` has it for every reachable state.
* `Consistent.messRecord`, `Consistent.present_cases`: what an entry of a
  conversation says about the record it stands for.
-/

namespace AppChat

namespace World

/-- The leaves below `mess` and `user-mess` are those of accepted writes. -/
structure IndexOk (w : World) : Prop where
  record : ∀ i b, w.Accepted i b → ∀ f v, (f, some v) ∈ b.data →
    (["mess", b.key, f], v) ∈ w.db.leaves
  mess : ∀ q v, ("mess" :: q, v) ∈ w.db.leaves →
    ∃ i b f, w.Accepted i b ∧ q = [b.key, f] ∧ (f, some v) ∈ b.data
  entry : ∀ q v, ("user-mess" :: q, v) ∈ w.db.leaves →
    ∃ i b f t side, w.Entered i b f t side ∧ "user-mess" :: q = b.table f t side ++ [b.key] ∧
      v = .num 1

lemma indexOk_init : IndexOk init where
  record := by
    rintro i b (h | ⟨f, t, st, h⟩) <;> cases h
  mess := by simp [init]
  entry := by simp [init]

/-- The leaves after an index write. -/
lemma mem_indexWrite {db : Database} {b : RecordBlock} {f t : String} {side : Side}
    {q : List String} {v : Value} :
    (q, v) ∈ (indexWrite db b f t side).leaves ↔
      (q = b.table f t side ++ [b.key] ∧ v = .num 1) ∨
        ((q, v) ∈ db.leaves ∧ ¬ Comparable (b.table f t side ++ [b.key]) q) := by
  rw [indexWrite, PathTree.mem_updateChildValues (by simp)]
  simp only [List.mem_singleton, Prod.mk.injEq, Option.some.injEq, forall_eq,
    PathTree.displaces_some]
  refine or_congr_left ⟨?_, ?_⟩
  · rintro ⟨k, ⟨rfl, rfl⟩, rfl⟩
    exact ⟨rfl, rfl⟩
  · rintro ⟨rfl, rfl⟩
    exact ⟨b.key, ⟨rfl, rfl⟩, rfl⟩

/-- **Every step keeps the leaves in order.** -/
lemma IndexOk.step {w w' : World} (hi : IndexOk w) (hb : BlocksOk w) {ev : Option IndexEvent}
    (heff : Effect w w' ev) : IndexOk w' := by
  have hacc : ∀ {j c}, w.Accepted j c → w'.Accepted j c := heff.accepted_mono
  have hent : ∀ {j c f t side}, w.Entered j c f t side → w'.Entered j c f t side :=
    heff.entered_mono
  -- a step that changes no leaf below `mess`, or none below `user-mess`
  have keepMess : (∀ q v, ("mess" :: q, v) ∈ w'.db.leaves ↔ ("mess" :: q, v) ∈ w.db.leaves) →
      (∀ j c, w'.Accepted j c → w.Accepted j c) →
      (∀ i b, w'.Accepted i b → ∀ f v, (f, some v) ∈ b.data →
        (["mess", b.key, f], v) ∈ w'.db.leaves) ∧
      (∀ q v, ("mess" :: q, v) ∈ w'.db.leaves →
        ∃ i b f, w'.Accepted i b ∧ q = [b.key, f] ∧ (f, some v) ∈ b.data) := by
    intro hleaf hold
    refine ⟨fun i b hib f v hf => (hleaf _ _).mpr (hi.record i b (hold i b hib) f v hf),
      fun q v hq => ?_⟩
    obtain ⟨i, b, f, hib, h⟩ := hi.mess q v ((hleaf _ _).mp hq)
    exact ⟨i, b, f, hacc hib, h⟩
  have keepEntry : (∀ q v, ("user-mess" :: q, v) ∈ w'.db.leaves →
        ("user-mess" :: q, v) ∈ w.db.leaves) →
      ∀ q v, ("user-mess" :: q, v) ∈ w'.db.leaves → ∃ i b f t side, w'.Entered i b f t side ∧
        "user-mess" :: q = b.table f t side ++ [b.key] ∧ v = .num 1 := by
    intro hleaf q v hq
    obtain ⟨i, b, f, t, side, hib, h⟩ := hi.entry q v (hleaf q v hq)
    exact ⟨i, b, f, t, side, hent hib, h⟩
  cases heff.commit hb.captured with
  | none hdb hold _ =>
      obtain ⟨h₁, h₂⟩ := keepMess (fun q v => by rw [hdb]) hold
      exact ⟨h₁, h₂, keepEntry fun q v h => hdb ▸ h⟩
  | record i b hblock hnew hdb hib hold _ =>
      have hframe : ∀ q v, ("user-mess" :: q, v) ∈ w'.db.leaves ↔
          ("user-mess" :: q, v) ∈ w.db.leaves := fun q v => by
        rw [hdb, PathTree.mem_updateChildValues_of_not_comparable (by simp)]
      refine ⟨fun j c hjc f v hf => ?_, fun q v hq => ?_, keepEntry fun q v => (hframe q v).mp⟩
      · rw [hdb, PathTree.mem_updateChildValues b.data_nodup]
        rcases hold j c hjc with ⟨rfl, rfl⟩ | hjc
        · exact Or.inl ⟨f, hf, rfl⟩
        · -- another record has another key
          have hne : c.key ≠ b.key := by
            intro hk
            obtain rfl := hb.key_inj j i c b hjc.block hblock hk
            obtain rfl : c = b := Option.some.inj (hjc.block.symm.trans hblock)
            exact hnew hjc
          refine Or.inr ⟨hi.record j c hjc f v hf, fun e _ hd => ?_⟩
          have := hd.comparable
          simp [hne.symm] at this
      · rw [hdb, PathTree.mem_updateChildValues b.data_nodup] at hq
        rcases hq with ⟨f, hf, hq⟩ | ⟨hq, -⟩
        · exact ⟨i, b, f, hib, by simpa using hq, hf⟩
        · obtain ⟨j, c, f, hjc, h⟩ := hi.mess q v hq
          exact ⟨j, c, f, hacc hjc, h⟩
  | entry i b f t side _ _ _ hdb hent' hold _ =>
      obtain ⟨r, hr⟩ := b.table_eq_cons f t side
      obtain ⟨h₁, h₂⟩ := keepMess (fun q v => by
        rw [hdb, indexWrite, hr, PathTree.mem_updateChildValues_of_not_comparable (by simp)]) hold
      refine ⟨h₁, h₂, fun q v hq => ?_⟩
      rw [hdb, mem_indexWrite] at hq
      rcases hq with ⟨hq, rfl⟩ | ⟨hq, -⟩
      · exact ⟨i, b, f, t, side, hent', hq, rfl⟩
      · obtain ⟨j, c, u, p, s, hj, h⟩ := hi.entry q v hq
        exact ⟨j, c, u, p, s, hent hj, h⟩
  | dropped u p hdb hold _ =>
      obtain ⟨h₁, h₂⟩ := keepMess (fun q v => by rw [hdb, PathTree.mem_remove]; simp) hold
      exact ⟨h₁, h₂, keepEntry fun q v h => (PathTree.mem_remove.mp (hdb ▸ h)).1⟩
  | user uid user hdb hold _ =>
      obtain ⟨h₁, h₂⟩ := keepMess (fun q v => by
        rw [hdb, PathTree.mem_setValue_of_not_comparable (by simp)]) hold
      refine ⟨h₁, h₂, keepEntry fun q v h => ?_⟩
      rwa [hdb, PathTree.mem_setValue_of_not_comparable (by simp)] at h

/-- Everything that holds of a reachable state. -/
structure Consistent (w : World) : Prop where
  ids : IdsOk w
  blocks : BlocksOk w
  index : IndexOk w

lemma consistent_init : Consistent init := ⟨idsOk_init, blocksOk_init, indexOk_init⟩

/-- **Every step keeps a state consistent.** -/
theorem Consistent.step {w w' : World} (hw : Consistent w) {a : Action}
    (h : w.step a = some w') : Consistent w' :=
  ⟨hw.ids.step h, hw.blocks.step hw.ids (fun _ => step_uids h) (step_effect h),
    hw.index.step hw.blocks (step_effect h)⟩

/-- A run from the empty system ends in a consistent state. -/
theorem Runs.consistent {as : List Action} {w : World} (h : Runs as w) : Consistent w :=
  Transition.run_invariant (fun _ _ _ hw h => hw.step h) consistent_init h

theorem Reachable.consistent {w : World} (h : Reachable w) : Consistent w := by
  obtain ⟨as, has⟩ := h
  exact has.consistent

/-! ### The entries of a conversation -/

namespace Consistent

variable {w : World}

/-- An index write of an accepted record enters a key, below ids of accounts. -/
lemma accepted_ids (hw : Consistent w) {i : SendId} {b : RecordBlock} {f t : String} {side : Side}
    (h : w.Accepted i b) (hf : b.fromID = some f) (ht : b.Addressed t side) :
    b.key ∉ w.uids ∧ ∀ x ∈ (b.table f t side).tail, x ∈ w.uids := by
  refine ⟨hw.ids.key _ (hw.blocks.key_mem i b h.block), fun x hx => ?_⟩
  have hfu := hw.blocks.fromID_mem i b f h.block hf
  rcases ht with ht | ⟨-, hv, rfl⟩
  · have htu := hw.blocks.toID_mem i b t h.block ht
    rcases b.mem_table_tail hx with rfl | rfl
    · exact hfu
    · exact htu
  · rw [b.table_of_isVideo hv] at hx
    obtain rfl : x = f := by simpa [videoTable] using hx
    exact hfu

/-- The index writes of a send use the ids of its record. -/
lemma entered_captured (hw : Consistent w) {i : SendId} {b : RecordBlock} {f t : String}
    {side : Side} (h : w.Entered i b f t side) : b.fromID = some f ∧ b.Addressed t side := by
  obtain ⟨st, hi, hst⟩ := h
  obtain ⟨hf, ht⟩ := hw.blocks.captured i b f t st hi
  exact ⟨hf, ht side (by simp [hst])⟩

/-- An accepted entry of a text or an image carries both ids. -/
lemma entered_toID (hw : Consistent w) {i : SendId} {b : RecordBlock} {f t : String} {side : Side}
    (h : w.Entered i b f t side) (hv : b.payload.isVideo = false) : b.toID = some t :=
  (hw.entered_captured h).2.toID hv

/-- An accepted entry is that of a key, below ids of accounts. -/
lemma entered_ids (hw : Consistent w) {i : SendId} {b : RecordBlock} {f t : String} {side : Side}
    (h : w.Entered i b f t side) : b.key ∉ w.uids ∧ ∀ x ∈ (b.table f t side).tail, x ∈ w.uids :=
  hw.accepted_ids h.accepted (hw.entered_captured h).1 (hw.entered_captured h).2

/-- **An entry at the third level** is that of a text or an image, on one of its
two sides. -/
lemma present_cases (hw : Consistent w) {u p k : String}
    (h : w.db.Present ["user-mess", u, p, k]) :
    ∃ i b f t side, w.Entered i b f t side ∧ b.payload.isVideo = false ∧ b.key = k ∧
      textTable f t side = ["user-mess", u, p] := by
  obtain ⟨⟨q, v⟩, hq, hpre⟩ := h
  obtain ⟨r, rfl⟩ := hpre
  obtain ⟨i, b, f, t, side, hent, hq, -⟩ := hw.index.entry _ v hq
  cases hv : b.payload.isVideo with
  | true =>
      -- the entry of a video ends at the second level
      rw [b.table_of_isVideo hv] at hq
      cases side <;> simp [videoTable] at hq
  | false =>
      refine ⟨i, b, f, t, side, hent, hv, ?_⟩
      rw [b.table_of_not_isVideo hv] at hq
      cases side <;> simp [textTable] at hq ⊢ <;> exact ⟨hq.2.2.1.symm, hq.1.symm, hq.2.1.symm⟩

/-- An entry at the third level is a leaf. -/
lemma present_iff (hw : Consistent w) {u p k : String} :
    w.db.Present ["user-mess", u, p, k] ↔ (["user-mess", u, p, k], .num 1) ∈ w.db.leaves := by
  refine ⟨?_, fun h => ⟨_, h, List.prefix_rfl⟩⟩
  rintro ⟨⟨q, v⟩, hq, r, rfl⟩
  obtain ⟨i, b, f, t, side, -, hqb, rfl⟩ := hw.index.entry _ v hq
  -- no entry is longer than that of a text
  have hr : r = [] := by
    cases hv : b.payload.isVideo with
    | true =>
        rw [b.table_of_isVideo hv] at hqb
        cases side <;> simp [videoTable] at hqb
    | false =>
        rw [b.table_of_not_isVideo hv] at hqb
        cases side <;> simp [textTable] at hqb <;> exact hqb.2.2.2
  subst hr
  exact hq

/-- **Entries do not get in each other's way**: the path an index write of `b`
goes to is comparable with that of an accepted entry only if it is the same. A
key that were a user id would break this, a video entering its key where the
others have the id of the partner. -/
lemma eq_of_comparable (hw : Consistent w) {b : RecordBlock} {f t : String} {side : Side}
    (hkey : b.key ∉ w.uids) (hids : ∀ x ∈ (b.table f t side).tail, x ∈ w.uids) {q : List String}
    {v : Value} (hq : ("user-mess" :: q, v) ∈ w.db.leaves)
    (h : Comparable (b.table f t side ++ [b.key]) ("user-mess" :: q)) :
    "user-mess" :: q = b.table f t side ++ [b.key] := by
  obtain ⟨j, c, u, p, s, hent, hqc, -⟩ := hw.index.entry q v hq
  obtain ⟨hckey, hcids⟩ := hw.entered_ids hent
  obtain ⟨r, hr⟩ := b.table_eq_cons f t side
  obtain ⟨r', hr'⟩ := c.table_eq_cons u p s
  rw [hr, List.tail_cons] at hids
  rw [hr', List.tail_cons] at hcids
  rw [hqc, hr, hr', List.cons_append, List.cons_append] at h ⊢
  rw [(comparable_cons.mp h).2.eq_of_notMem (s := {x | x ∈ w.uids}) hids hcids hkey hckey]

/-- **An index write removes no entry.** -/
lemma mem_indexWrite_of_mem (hw : Consistent w) {b : RecordBlock} {f t : String} {side : Side}
    (hkey : b.key ∉ w.uids) (hids : ∀ x ∈ (b.table f t side).tail, x ∈ w.uids) {q : List String}
    {v : Value} (hq : ("user-mess" :: q, v) ∈ w.db.leaves) :
    ("user-mess" :: q, v) ∈ (indexWrite w.db b f t side).leaves := by
  rw [mem_indexWrite]
  by_cases h : Comparable (b.table f t side ++ [b.key]) ("user-mess" :: q)
  · obtain ⟨_, _, _, _, _, -, -, rfl⟩ := hw.index.entry q v hq
    exact Or.inl ⟨hw.eq_of_comparable hkey hids hq h, rfl⟩
  · exact Or.inr ⟨hq, h⟩

/-- The record of an accepted entry of a text or an image. -/
lemma messRecord (hw : Consistent w) {i : SendId} {b : RecordBlock} {f t : String} {side : Side}
    (h : w.Entered i b f t side) (hv : b.payload.isVideo = false) : MessRecord w.db b.key f t := by
  have hrec := hw.index.record i b h.accepted
  have hf := (hw.entered_captured h).1
  have ht := hw.entered_toID h hv
  have hfrom := b.fromID_mem_data
  have hto := b.toID_mem_data
  rw [hf, Option.getD_some] at hfrom
  rw [ht, Option.getD_some] at hto
  exact ⟨PathTree.valueAt_eq_some_iff.mpr (hrec _ _ hfrom),
    PathTree.valueAt_eq_some_iff.mpr (hrec _ _ hto),
    b.timestamp, PathTree.valueAt_eq_some_iff.mpr (hrec _ _ b.timestamp_mem_data)⟩

end Consistent

end World

end AppChat
