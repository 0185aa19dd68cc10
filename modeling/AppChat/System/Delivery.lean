import AppChat.System.Integrity

/-!
What a send leaves in the database, in a run without deletions.

* `Adds`: the entries that the steps of a send write, anywhere below `user-mess`.
* `Delivered`: the index entries a message should have, and no others, as both
  readers of both users find them.
* `delivered_iff_not_isVideo`: a send both of whose index writes are applied is
  delivered exactly when it is not a video.
* `present_iff_accepted`: each of the three writes of a text or an image is in
  the database exactly when it has been accepted; the three are not one write,
  so a rejected one leaves the others behind (`halfText`).
-/

namespace AppChat

/-- The acceptance of a deletion. -/
def Action.isDeletion : Action → Bool
  | .delete (.applied _) => true
  | _ => false

namespace World

/-! ### What is there stays there -/

/-- No deletion is accepted in these actions. -/
def NoDeletion (as : List Action) : Prop := ∀ a ∈ as, a.isDeletion = false

instance (as : List Action) : Decidable (NoDeletion as) :=
  inferInstanceAs (Decidable (∀ a ∈ as, a.isDeletion = false))

/-- **Without deletions, an accepted index entry stays.** -/
lemma entered_mem_leaves {as : List Action} {w : World} (h : Runs as w) (hdel : NoDeletion as) :
    ∀ i b f t side, w.Entered i b f t side →
      (b.table f t side ++ [b.key], Value.num 1) ∈ w.db.leaves := by
  have hmeets : Transition.Meets step (fun _ a => a.isDeletion = false) init as :=
    Transition.meets_of_forall_mem hdel
  refine (hmeets.invariant (I := fun w => Consistent w ∧ ∀ i b f t side, w.Entered i b f t side →
    (b.table f t side ++ [b.key], Value.num 1) ∈ w.db.leaves) ?_ ?_ h).2
  · rintro w a w' ⟨hw, ih⟩ ha hstep
    refine ⟨hw.step hstep, fun i b f t side hent => ?_⟩
    obtain ⟨r, hr⟩ := b.table_eq_cons f t side
    have heff := step_effect hstep
    have hev : ∀ u p, w.indexEvent a ≠ some (.dropped u p) := fun u p he => by
      obtain ⟨x, rfl⟩ := eq_delete_of_indexEvent he
      cases ha
    generalize w.indexEvent a = ev at heff hev
    cases heff.commit hw.blocks.captured with
    | none hdb _ hold => exact hdb ▸ ih i b f t side (hold _ _ _ _ _ hent)
    | record j c _ _ hdb _ _ hold =>
        have hold := ih i b f t side (hold _ _ _ _ _ hent)
        rw [hr] at hold ⊢
        rwa [hdb, PathTree.mem_updateChildValues_of_not_comparable (by simp)]
    | user uid user hdb _ hold =>
        have hold := ih i b f t side (hold _ _ _ _ _ hent)
        rw [hr] at hold ⊢
        rwa [hdb, PathTree.mem_setValue_of_not_comparable (by simp)]
    | dropped u p _ _ _ => exact absurd rfl (hev u p)
    | entry j c u p s hc hu hp hdb _ _ hold =>
        rw [hdb]
        rcases hold _ _ _ _ _ hent with ⟨-, rfl, rfl, rfl, rfl⟩ | hold
        · exact mem_indexWrite.mpr (Or.inl ⟨rfl, rfl⟩)
        · obtain ⟨hkey, hids⟩ := hw.accepted_ids hc hu hp
          have hold := ih i b f t side hold
          rw [hr] at hold ⊢
          exact hw.mem_indexWrite_of_mem hkey hids hold
  · refine ⟨consistent_init, ?_⟩
    rintro i b f t side ⟨st, hi, -⟩
    cases hi

/-! ### What the readers find -/

/-- `get_message_2` reads the records of the third-level keys. -/
lemma mem_getMessage2Keys {db : Database} {u p k : String} :
    (p, k) ∈ getMessage2Keys db u ↔ db.Present ["user-mess", u, p, k] := by
  simp only [getMessage2Keys, List.mem_flatMap, List.mem_map, Prod.mk.injEq]
  constructor
  · rintro ⟨_, -, _, hk, rfl, rfl⟩
    exact PathTree.mem_childKeys.mp hk
  · intro h
    refine ⟨p, PathTree.mem_childKeys.mpr ?_, k, PathTree.mem_childKeys.mpr h, rfl, rfl⟩
    obtain ⟨e, he, hpre⟩ := h
    exact ⟨e, he, List.IsPrefix.trans ⟨[k], rfl⟩ hpre⟩

/-- `get_message_user_partner` listens to the same keys. -/
lemma mem_getMessageUserPartnerKeys {db : Database} {u p k : String} :
    (p, k) ∈ getMessageUserPartnerKeys db u ↔ db.Present ["user-mess", u, p, k] :=
  mem_getMessage2Keys

/-- A step of the send `i` adds an entry at `user-mess/q`: the leaf is there after
the step and was not before. -/
def Adds (as : List Action) (i : SendId) (q : List String) : Prop :=
  ∃ bs a cs w w' v, as = bs ++ .send a :: cs ∧ a.id = i ∧ Runs bs w ∧
    w.step (.send a) = some w' ∧ ("user-mess" :: q, v) ∈ w'.db.leaves ∧
      ("user-mess" :: q, v) ∉ w.db.leaves

/-- The message of the send `i` from `a` to `b`, with the key `k`, is delivered
at the end `w` of a run: its record is there, its key is where both readers of
both users look for it, and the send has added nothing else below `user-mess`. -/
structure Delivered (as : List Action) (w : World) (i : SendId) (a b k : String) : Prop where
  record : MessRecord w.db k a b
  sender : w.db.Present ["user-mess", a, b, k]
  recipient : w.db.Present ["user-mess", b, a, k]
  getMessage2 : (b, k) ∈ getMessage2Keys w.db a ∧ (a, k) ∈ getMessage2Keys w.db b
  getMessageUserPartner :
    (b, k) ∈ getMessageUserPartnerKeys w.db a ∧ (a, k) ∈ getMessageUserPartnerKeys w.db b
  only : ∀ q, Adds as i q → q = [a, b, k] ∨ q = [b, a, k]
  /-- nor is the key anywhere else -/
  alone : ∀ q v, ("user-mess" :: q, v) ∈ w.db.leaves → k ∈ q → q = [a, b, k] ∨ q = [b, a, k]

/-- A send has one record block and one pair of ids. -/
lemma Entered.unique {w : World} {i : SendId} {b c : RecordBlock} {f t u p : String}
    {side s : Side} (hb : w.Entered i b f t side) (hc : w.Entered i c u p s) :
    c = b ∧ u = f ∧ p = t := by
  obtain ⟨st, hb, -⟩ := hb
  obtain ⟨st', hc, -⟩ := hc
  obtain ⟨rfl, rfl, rfl, -⟩ := Stage.index.inj (Option.some.inj (hb.symm.trans hc))
  exact ⟨rfl, rfl, rfl⟩

/-- **What a send adds below `user-mess`** is one of its two index entries. -/
lemma exists_entered_of_adds {as : List Action} {w : World} {i : SendId} {q : List String}
    (h : Runs as w) (hq : Adds as i q) : ∃ b f t side, w.Entered i b f t side ∧
      "user-mess" :: q = b.table f t side ++ [b.key] := by
  obtain ⟨bs, a, cs, u, u', v, rfl, rfl, hu, hstep, hv, hnew⟩ := hq
  obtain ⟨_, hu', hrest⟩ := Transition.run_append_eq_some.mp h
  obtain rfl : u = _ := Option.some.inj (hu.symm.trans hu')
  obtain ⟨_, hstep', hlater⟩ := Transition.run_cons_eq_some.mp hrest
  obtain rfl : u' = _ := Option.some.inj (hstep.symm.trans hstep')
  cases sendStep_moves hstep with
  | indexApplied i side s b f t st hs hst hside =>
      set st' := Function.update st side .applied
      have hent : World.Entered ({ u with db := indexWrite u.db b f t side }.setSend i
          { s with stage := .index b f t st' }) i b f t side := by
        refine ⟨st', progress_index (s := { s with stage := .index b f t st' }) ?_ rfl, ?_⟩
        · exact Function.update_self i _ _
        · exact Function.update_self side _ _
      refine ⟨b, f, t, side, hent.run hlater, ?_⟩
      rcases mem_indexWrite.mp hv with ⟨hq, -⟩ | ⟨hold, -⟩
      · exact hq
      · exact absurd hold hnew
  | recordApplied i s b hs hst =>
      -- a record is not below `user-mess`
      have hold := (PathTree.mem_updateChildValues_of_not_comparable
        (p := ["mess", b.key]) (by simp)).mp hv
      exact absurd hold hnew
  | _ => exact absurd hv hnew

/-- **Texts and images are delivered, videos never are.** In a run without
deletions, let the record and both index writes of a send have been accepted.
Its message is delivered exactly when it is not a video: a video enters its key
one level above the place where the readers look. -/
theorem delivered_iff_not_isVideo {as : List Action} {w : World} {i : SendId} {b : RecordBlock}
    {f t : String} (h : Runs as w) (hdel : NoDeletion as) (hs : w.Entered i b f t .sender)
    (hr : w.Entered i b f t .recipient) :
    Delivered as w i f t b.key ↔ b.payload.isVideo = false := by
  have hw := h.consistent
  have hblock := hs.accepted.block
  constructor
  · intro hd
    obtain ⟨j, c, u, p, side, hent, hv, hkey, -⟩ := hw.present_cases hd.sender
    -- the entry belongs to the only send with this key
    obtain rfl := hw.blocks.key_inj j i c b hent.accepted.block hblock hkey
    obtain rfl : c = b := Option.some.inj (hent.accepted.block.symm.trans hblock)
    exact hv
  · intro hv
    have hleaves := entered_mem_leaves h hdel
    have hentry : ∀ q side, "user-mess" :: q = b.table f t side ++ [b.key] →
        q = [f, t, b.key] ∨ q = [t, f, b.key] := by
      intro q side hq
      rw [b.table_of_not_isVideo hv] at hq
      cases side with
      | sender => exact Or.inl (List.cons.inj hq).2
      | recipient => exact Or.inr (List.cons.inj hq).2
    have h₁ : w.db.Present ["user-mess", f, t, b.key] := by
      have := hleaves i b f t .sender hs
      rw [b.table_of_not_isVideo hv] at this
      exact ⟨_, this, List.prefix_rfl⟩
    have h₂ : w.db.Present ["user-mess", t, f, b.key] := by
      have := hleaves i b f t .recipient hr
      rw [b.table_of_not_isVideo hv] at this
      exact ⟨_, this, List.prefix_rfl⟩
    refine ⟨hw.messRecord hs hv, h₁, h₂, ⟨mem_getMessage2Keys.mpr h₁, mem_getMessage2Keys.mpr h₂⟩,
      ⟨mem_getMessageUserPartnerKeys.mpr h₁, mem_getMessageUserPartnerKeys.mpr h₂⟩,
      fun q hq => ?_, fun q v hq hk => ?_⟩
    · obtain ⟨c, u, p, side, hent, hqc⟩ := exists_entered_of_adds h hq
      obtain ⟨rfl, rfl, rfl⟩ := hs.unique hent
      exact hentry q side hqc
    obtain ⟨j, c, u, p, side, hent, hqc, -⟩ := hw.index.entry q v hq
    obtain ⟨-, hids⟩ := hw.entered_ids hent
    obtain ⟨hkey, -⟩ := hw.entered_ids hs
    -- the key is no user id, so it is the key of the entry
    have hck : c.key = b.key := by
      obtain ⟨r, hr⟩ := c.table_eq_cons u p side
      rw [hr, List.tail_cons] at hids
      rw [hr, List.cons_append, List.cons.injEq] at hqc
      rcases List.mem_append.mp (hqc.2 ▸ hk) with hr | hk
      · exact absurd (hids _ hr) hkey
      · exact (List.mem_singleton.mp hk).symm
    obtain rfl := hw.blocks.key_inj j i c b hent.accepted.block hblock hck
    obtain ⟨rfl, rfl, rfl⟩ := hs.unique hent
    exact hentry q side hqc

/-- The first text is delivered. -/
theorem delivered_firstText : ∃ (w : World) (b : RecordBlock), Runs firstText w ∧
    b.payload.isVideo = false ∧ Delivered firstText w 0 "a" "b" b.key := by
  let b : RecordBlock := ⟨.text "hello", "k", some "a", some "b", 0⟩
  have hrun : ((Transition.run step init firstText).map fun w =>
      decide (w.Entered 0 b "a" "b" .sender ∧ w.Entered 0 b "a" "b" .recipient)) = some true := by
    decide +kernel
  obtain ⟨w, hw, hent⟩ := Option.map_eq_some_iff.mp hrun
  obtain ⟨hs, hr⟩ := of_decide_eq_true hent
  exact ⟨w, b, hw, rfl, (delivered_iff_not_isVideo hw (by decide) hs hr).mpr rfl⟩

/-- A video that goes through, with every upload a success. -/
def videoSend (i : SendId) (c : ChatId) (key : String) : List Action :=
  [.send (.pickVideo i c 7 []), .send (.objectStored i), .send (.putFileDone i true),
    .send (.movieURLDone i (some "movie") (some []) 8), .send (.objectStored i),
    .send (.putDataDone i true), .send (.imageURLDone i (some "thumnail") key 0),
    .send (.recordApplied i), .send (.recordDone i), .send (.indexApplied i .sender),
    .send (.indexApplied i .recipient)]

/-- The user `a` sends the user `b` a video. -/
def firstVideo : List Action :=
  registration 0 "a" ++ registration 1 "b" ++ newmessage 0 0 "b" ++ videoSend 0 0 "k"

/-- All writes of the first video are accepted, and neither user's readers find
its key. -/
theorem firstVideo_not_delivered : ∃ w b, Runs firstVideo w ∧ NoDeletion firstVideo ∧
    w.Entered 0 b "a" "b" .sender ∧ w.Entered 0 b "a" "b" .recipient ∧
      ¬ Delivered firstVideo w 0 "a" "b" b.key := by
  let b : RecordBlock := ⟨.video (some "movie") "thumnail", "k", some "a", some "b", 0⟩
  have hrun : ((Transition.run step init firstVideo).map fun w =>
      decide (w.Entered 0 b "a" "b" .sender ∧ w.Entered 0 b "a" "b" .recipient ∧
        ¬ w.db.Present ["user-mess", "a", "b", "k"])) = some true := by
    decide +kernel
  obtain ⟨w, hw, hent⟩ := Option.map_eq_some_iff.mp hrun
  obtain ⟨hs, hr, hno⟩ := of_decide_eq_true hent
  exact ⟨w, b, hw, by decide, hs, hr, fun hd => hno hd.sender⟩

/-! ### The three writes -/

/-- A record is there exactly when it has been accepted. -/
lemma present_mess_iff {w : World} (hw : Consistent w) {i : SendId} {b : RecordBlock}
    (hb : w.block i = some b) : w.db.Present ["mess", b.key] ↔ w.Accepted i b := by
  constructor
  · rintro ⟨⟨q, v⟩, hq, r, rfl⟩
    obtain ⟨j, c, f, hc, hqc, -⟩ := hw.index.mess (b.key :: r) v hq
    have hkey : c.key = b.key := by simpa using (List.cons.inj hqc).1.symm
    obtain rfl := hw.blocks.key_inj j i c b hc.block hb hkey
    obtain rfl : c = b := Option.some.inj (hc.block.symm.trans hb)
    exact hc
  · intro h
    exact ⟨_, hw.index.record i b h _ _ b.timestamp_mem_data, ["timestamp"], rfl⟩

/-- **Each write for itself.** In a run without deletions, the record of a text
or an image is in the database exactly when its write has been accepted, and so
is each of its index entries. So an entry is never there without the record;
all three are there when all three writes have been accepted, and none of them
when the record has not. -/
theorem present_iff_accepted {as : List Action} {w : World} {i : SendId} {b : RecordBlock}
    (h : Runs as w) (hdel : NoDeletion as) (hb : w.block i = some b)
    (hv : b.payload.isVideo = false) :
    (w.db.Present ["mess", b.key] ↔ w.Accepted i b) ∧
    (∀ u p, w.db.Present ["user-mess", u, p, b.key] ↔
      ∃ f t side, w.Entered i b f t side ∧ textTable f t side = ["user-mess", u, p]) ∧
    (∀ u p, w.db.Present ["user-mess", u, p, b.key] → w.db.Present ["mess", b.key]) ∧
    (∀ f t, w.Entered i b f t .sender → w.Entered i b f t .recipient →
      w.db.Present ["mess", b.key] ∧ w.db.Present ["user-mess", f, t, b.key] ∧
        w.db.Present ["user-mess", t, f, b.key]) ∧
    (¬ w.Accepted i b →
      ¬ w.db.Present ["mess", b.key] ∧ ∀ u p, ¬ w.db.Present ["user-mess", u, p, b.key]) := by
  have hw := h.consistent
  have hmess := present_mess_iff hw hb
  have hentry : ∀ u p, w.db.Present ["user-mess", u, p, b.key] ↔
      ∃ f t side, w.Entered i b f t side ∧ textTable f t side = ["user-mess", u, p] := by
    intro u p
    constructor
    · intro hp
      obtain ⟨j, c, f, t, side, hent, -, hkey, htable⟩ := hw.present_cases hp
      obtain rfl := hw.blocks.key_inj j i c b hent.accepted.block hb hkey
      obtain rfl : c = b := Option.some.inj (hent.accepted.block.symm.trans hb)
      exact ⟨f, t, side, hent, htable⟩
    · rintro ⟨f, t, side, hent, htable⟩
      have hleaf := entered_mem_leaves h hdel i b f t side hent
      rw [b.table_of_not_isVideo hv, htable] at hleaf
      exact ⟨_, hleaf, List.prefix_rfl⟩
  have hrecord : ∀ u p, w.db.Present ["user-mess", u, p, b.key] → w.Accepted i b := by
    intro u p hp
    obtain ⟨f, t, side, hent, -⟩ := (hentry u p).mp hp
    exact hent.accepted
  refine ⟨hmess, hentry, fun u p hp => hmess.mpr (hrecord u p hp), fun f t hs hr => ?_,
    fun hno => ⟨fun hp => hno (hmess.mp hp), fun u p hp => hno (hrecord u p hp)⟩⟩
  exact ⟨hmess.mpr hs.accepted, (hentry f t).mpr ⟨f, t, .sender, hs, rfl⟩,
    (hentry t f).mpr ⟨f, t, .recipient, hr, rfl⟩⟩

/-- The three writes of the first text. -/
theorem present_iff_accepted_firstText : ∃ w b, Runs firstText w ∧
    (w.db.Present ["mess", "k"] ↔ w.Accepted 0 b) := by
  let b : RecordBlock := ⟨.text "hello", "k", some "a", some "b", 0⟩
  have hrun : ((Transition.run step init firstText).map fun w => decide (w.block 0 = some b)) =
      some true := by
    decide +kernel
  obtain ⟨w, hw, hb⟩ := Option.map_eq_some_iff.mp hrun
  exact ⟨w, b, hw, (present_iff_accepted hw (by decide) (of_decide_eq_true hb) rfl).1⟩

/-- Nothing of a send is on its way any more: its record has been rejected, or
accepted by an app that has stopped since, or both index writes are settled. -/
def settled (w : World) (i : SendId) : Bool :=
  match w.sends i with
  | some ⟨_, _, _, _, .record _ .failed⟩ => true
  | some ⟨_, d, _, _, .record _ .applied⟩ => !(w.devices d).running
  | some ⟨_, _, _, _, .index _ _ _ st⟩ => st .sender ≠ .pending && st .recipient ≠ .pending
  | _ => false

/-- A text whose last write is rejected. -/
def halfText : List Action :=
  registration 0 "a" ++ registration 1 "b" ++ newmessage 0 0 "b" ++
    [.send (.sendText 0 0 "k" 0), .send (.recordApplied 0), .send (.recordDone 0),
      .send (.indexApplied 0 .sender), .send (.indexFailed 0 .recipient)]

/-- **The three writes are not one**: with nothing on its way any more, the
record and the sender's entry are there and the recipient's is not. -/
theorem halfText_present : ∃ w, Runs halfText w ∧ NoDeletion halfText ∧ w.settled 0 = true ∧
    w.db.Present ["mess", "k"] ∧ w.db.Present ["user-mess", "a", "b", "k"] ∧
      ¬ w.db.Present ["user-mess", "b", "a", "k"] := by
  have hrun : ((Transition.run step init halfText).map fun w =>
      decide (w.settled 0 = true ∧ w.db.Present ["mess", "k"] ∧
        w.db.Present ["user-mess", "a", "b", "k"] ∧
          ¬ w.db.Present ["user-mess", "b", "a", "k"])) = some true := by
    decide +kernel
  obtain ⟨w, hw, h⟩ := Option.map_eq_some_iff.mp hrun
  exact ⟨w, hw, by decide, of_decide_eq_true h⟩

end World

end AppChat
