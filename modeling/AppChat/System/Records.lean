import AppChat.System.Feed

/-!
The records of the messages, over a whole run.

* `NodeChanged`: a node of the database is not what it was.
* `World.Records`: the messages of all the keys, given once and for all.
* `World.mess_append_only`: `mess` is append only. A record is there as a whole or not at
  all, and once it is there nothing changes it or takes it away.
-/

namespace AppChat

/-- The node at `p` is not the same in the two states. -/
def NodeChanged (db db' : Database) (p : List String) : Prop :=
  ∃ e ∈ db.leaves ++ db'.leaves, p <+: e.1 ∧ ¬ (e ∈ db.leaves ∧ e ∈ db'.leaves)

instance (db db' : Database) (p : List String) : Decidable (NodeChanged db db' p) :=
  inferInstanceAs (Decidable (∃ e ∈ db.leaves ++ db'.leaves,
    p <+: e.1 ∧ ¬ (e ∈ db.leaves ∧ e ∈ db'.leaves)))

/-- **The two readers agree**, but for the video of a message that has none. -/
lemma getMessage2Value_eq {d : Fields} {m : Mess}
    (h : getMessageUserPartnerValue (.dictionary d) = .ok m) :
    getMessage2Value (.dictionary d) =
      .ok { m with videoUrl := (d.asString "video_url").getD "demo_video" } := by
  obtain ⟨d', hd, h⟩ := bind_eq_ok h
  obtain rfl : d = d' := by simpa [Snapshot.forceDictionary] using hd
  obtain ⟨fromID, h₁, h⟩ := bind_eq_ok h
  obtain ⟨timestamp, h₂, h⟩ := bind_eq_ok h
  obtain ⟨toID, h₃, h⟩ := bind_eq_ok h
  cases h
  simp only [getMessage2Value, Snapshot.forceDictionary, bind, Except.bind, h₁, h₂, h₃, pure,
    Except.pure]

/-- A text or an image that was sent, as the inbox decodes it. -/
def RecordBlock.inboxMess (b : RecordBlock) : Mess := { b.sent with videoUrl := "demo_video" }

/-- The ids of what was sent. -/
lemma RecordBlock.sent_ids (b : RecordBlock) :
    b.sent.fromID = b.fromID.getD "demo_from_ID" ∧ b.sent.toID = b.toID.getD "demo_toID" := by
  cases hp : b.payload <;> simp [RecordBlock.sent, hp]

namespace World

variable {w w' : World}

/-- The message of a key, given once and for all. -/
def Records (record : String → Mess) (w : World) : Prop :=
  ∀ i b, w.Accepted i b → record b.key = b.sent

/-- Every key is that of one send, so it has one block. -/
lemma Consistent.exists_block (hw : Consistent w) :
    ∃ block : String → RecordBlock, ∀ i b, w.Accepted i b → block b.key = b := by
  classical
  let block : String → RecordBlock := fun k =>
    if h : ∃ b, (∃ i, w.Accepted i b) ∧ b.key = k then h.choose else ⟨.text "", k, none, none, 0⟩
  refine ⟨block, fun i b hb => ?_⟩
  have h : ∃ b', (∃ i, w.Accepted i b') ∧ b'.key = b.key := ⟨b, ⟨i, hb⟩, rfl⟩
  obtain ⟨⟨j, hj⟩, hkey⟩ := h.choose_spec
  obtain rfl := hw.blocks.key_inj j i _ b hj.block hb.block hkey
  exact (dif_pos h).trans (Option.some.inj (hj.block.symm.trans hb.block))

/-- The messages of the keys, from their blocks. -/
lemma records_of_block {block : String → RecordBlock}
    (h : ∀ i b, w.Accepted i b → block b.key = b) : Records (fun k => (block k).sent) w :=
  fun i b hb => congrArg RecordBlock.sent (h i b hb)

/-- The chat log decodes it. -/
lemma Between.value {record : String → Mess} {u p k : String} (hw : Consistent w)
    (hrec : Records record w) (h : w.Between u p k) :
    getMessageUserPartnerValue (snapshot w.db ["mess", k]) = .ok (record k) := by
  obtain ⟨i, b, hb, -, rfl, -⟩ := h
  rw [hrec i b hb]
  exact RecordBlock.getMessageUserPartnerValue_stored (hw.stored hb)

/-- A text or an image that has been sent from `u` to `p`, or from `p` to `u`. -/
def SentBetween (w : World) (u p : String) (b : RecordBlock) : Prop :=
  (∃ i, w.Accepted i b) ∧ b.payload.isVideo = false ∧
    ((b.fromID = some u ∧ b.toID = some p) ∨ (b.fromID = some p ∧ b.toID = some u))

lemma Between.exists_sentBetween {u p k : String} (h : w.Between u p k) :
    ∃ b, w.SentBetween u p b ∧ b.key = k := by
  obtain ⟨i, b, hb, hv, hkey, hpair⟩ := h
  exact ⟨b, ⟨⟨i, hb⟩, hv, hpair⟩, hkey⟩

namespace SentBetween

variable {u p : String} {b : RecordBlock}

lemma between (h : w.SentBetween u p b) : w.Between u p b.key := by
  obtain ⟨⟨i, hb⟩, hv, hpair⟩ := h
  exact ⟨i, b, hb, hv, rfl, hpair⟩

lemma step (h : w.SentBetween u p b) {a : Action} (hstep : w.step a = some w') :
    w'.SentBetween u p b := by
  obtain ⟨⟨i, hb⟩, hrest⟩ := h
  exact ⟨⟨i, accepted_step hstep hb⟩, hrest⟩

/-- The inbox decodes it. -/
lemma getMessage2Value (h : w.SentBetween u p b) (hw : Consistent w) :
    AppChat.getMessage2Value (snapshot w.db ["mess", b.key]) = .ok b.inboxMess := by
  obtain ⟨⟨i, hb⟩, hv, -⟩ := h
  have hst := hw.stored hb
  have hnone : (b.fields w.db).asString "video_url" = none := by
    refine hst.asString_eq_none ?_
    cases hp : b.payload with
    | text => simp [RecordBlock.data, hp, textRecord]
    | image => simp [RecordBlock.data, hp, imageRecord]
    | video => simp [hp, Payload.isVideo] at hv
  have hsent := RecordBlock.getMessageUserPartnerValue_stored hst
  rw [hst.snapshot_eq] at hsent ⊢
  rw [getMessage2Value_eq hsent, hnone]
  rfl

/-- Its partner is found again. -/
lemma getChatPartnerId (h : w.SentBetween u p b) :
    b.inboxMess.getChatPartnerId (some u) = p := by
  obtain ⟨-, -, hpair⟩ := h
  obtain ⟨hfrom, hto⟩ := b.sent_ids
  refine Mess.getChatPartnerId_eq ?_
  show (b.sent.fromID = u ∧ b.sent.toID = p) ∨ (b.sent.fromID = p ∧ b.sent.toID = u)
  rw [hfrom, hto]
  rcases hpair with ⟨hf, ht⟩ | ⟨hf, ht⟩ <;> rw [hf, ht]
  · exact Or.inl ⟨rfl, rfl⟩
  · exact Or.inr ⟨rfl, rfl⟩

end SentBetween

/-- The partner of a message is found again in its record. -/
lemma Between.partner {record : String → Mess} {u p k : String} (hrec : Records record w)
    (h : w.Between u p k) : (record k).getChatPartnerId (some u) = p := by
  obtain ⟨b, hb, rfl⟩ := h.exists_sentBetween
  obtain ⟨i, hi⟩ := hb.1
  rw [hrec i b hi]
  exact hb.getChatPartnerId

/-- **The node of an accepted record** holds its fields, and nothing else. -/
lemma Consistent.mem_leaves_record (hw : Consistent w) {i : SendId} {b : RecordBlock}
    (hb : w.Accepted i b) {e : List String × Value} (hpre : ["mess", b.key] <+: e.1) :
    e ∈ w.db.leaves ↔ ∃ f v, (f, some v) ∈ b.data ∧ e = (["mess", b.key, f], v) := by
  obtain ⟨q, x⟩ := e
  obtain ⟨r, rfl⟩ := hpre
  constructor
  · intro he
    obtain ⟨j, c, f, hc, hpath, hdata⟩ := hw.index.mess (b.key :: r) x he
    obtain ⟨hkey, rfl⟩ : b.key = c.key ∧ r = [f] := by simpa using hpath
    obtain rfl := hw.blocks.key_inj i j b c hb.block hc.block hkey
    obtain rfl : b = c := Option.some.inj (hb.block.symm.trans hc.block)
    exact ⟨f, x, hdata, rfl⟩
  · rintro ⟨f, x', hdata, he⟩
    rw [he]
    exact hw.index.record i b hb f x' hdata

/-- **An accepted record does not change.** -/
lemma Consistent.not_nodeChanged (hw : Consistent w) (hw' : Consistent w') {i : SendId}
    {b : RecordBlock} (hb : w.Accepted i b) (hb' : w'.Accepted i b) :
    ¬ NodeChanged w.db w'.db ["mess", b.key] := by
  rintro ⟨e, he, hpre, hne⟩
  rw [hw.mem_leaves_record hb hpre, hw'.mem_leaves_record hb' hpre, and_self] at hne
  rcases List.mem_append.mp he with he | he
  · exact hne ((hw.mem_leaves_record hb hpre).mp he)
  · exact hne ((hw'.mem_leaves_record hb' hpre).mp he)

/-! ### The store of records -/

lemma Consistent.run {as : List Action} (hw : Consistent w)
    (h : Transition.run World.step w as = some w') : Consistent w' :=
  Transition.run_invariant (fun _ _ _ hv hstep => hv.step hstep) hw h

lemma accepted_run {as : List Action} (h : Transition.run World.step w as = some w') {i : SendId}
    {b : RecordBlock} (hb : w.Accepted i b) : w'.Accepted i b :=
  Transition.run_invariant (I := fun v => v.Accepted i b) (fun _ _ _ hv hstep =>
    accepted_step hstep hv) hb h

lemma SentBetween.run {u p : String} {b : RecordBlock} (h : w.SentBetween u p b)
    {as : List Action} (hrun : Transition.run World.step w as = some w') :
    w'.SentBetween u p b := by
  obtain ⟨⟨i, hb⟩, hrest⟩ := h
  exact ⟨⟨i, accepted_run hrun hb⟩, hrest⟩

/-- A record that is there is that of an accepted send. -/
lemma Consistent.exists_accepted (hw : Consistent w) {k : String} (h : w.db.Present ["mess", k]) :
    ∃ i b, w.Accepted i b ∧ b.key = k := by
  obtain ⟨⟨q, v⟩, he, r, rfl⟩ := h
  obtain ⟨i, b, f, hb, hpath, -⟩ := hw.index.mess (k :: r) v he
  obtain ⟨hkey, -⟩ : k = b.key ∧ r = [f] := by simpa using hpath
  exact ⟨i, b, hb, hkey.symm⟩

/-- **`mess` is append only.** Whatever happens after a state `w` of the system, with
any number of users, failures and deletions: the node of a key that was there holds
exactly what it held; and one that was not there is still not there, or it is the
whole record of one send, which has been accepted since. -/
theorem mess_append_only {as bs : List Action} (h : Runs as w)
    (h' : Transition.run World.step w bs = some w') (k : String) :
    (w.db.Present ["mess", k] → ∀ e : List String × Value, ["mess", k] <+: e.1 →
      (e ∈ w'.db.leaves ↔ e ∈ w.db.leaves)) ∧
    (¬ w.db.Present ["mess", k] → w'.db.Present ["mess", k] →
      ∃ i b, b.key = k ∧ w'.Accepted i b ∧ ¬ w.Accepted i b ∧
        ∀ e : List String × Value, ["mess", k] <+: e.1 →
          (e ∈ w'.db.leaves ↔ ∃ f v, (f, some v) ∈ b.data ∧ e = (["mess", k, f], v))) := by
  have hw : Consistent w := consistent_init.run h
  have hw' := hw.run h'
  constructor
  · intro hk e hpre
    obtain ⟨i, b, hb, rfl⟩ := hw.exists_accepted hk
    rw [hw'.mem_leaves_record (accepted_run h' hb) hpre, hw.mem_leaves_record hb hpre]
  · intro hk hk'
    obtain ⟨i, b, hb, rfl⟩ := hw'.exists_accepted hk'
    refine ⟨i, b, rfl, hb, fun hold => hk ?_, fun e hpre => hw'.mem_leaves_record hb hpre⟩
    exact ⟨_, hw.index.record i b hold _ _ b.fromID_mem_data, List.prefix_append ["mess", b.key] _⟩

/-- A second text leaves the first as it is. -/
theorem mess_append_only_firstText : ∃ w w', Runs firstText w ∧
    Transition.run step w (textSend 1 0 "l") = some w' ∧
      (["mess", "k", "mess"], .str "hello") ∈ w.db.leaves ∧
        (["mess", "k", "mess"], .str "hello") ∈ w'.db.leaves := by
  have hrun : ((Transition.run step init firstText).map fun w =>
      decide (w.db.Present ["mess", "k"] ∧ (["mess", "k", "mess"], .str "hello") ∈ w.db.leaves) &&
        (Transition.run step w (textSend 1 0 "l")).isSome) = some true := by
    decide +kernel
  obtain ⟨w, hw, h⟩ := Option.map_eq_some_iff.mp hrun
  obtain ⟨hk, hmore⟩ := Bool.and_eq_true_iff.mp h
  obtain ⟨w', hw'⟩ := Option.isSome_iff_exists.mp hmore
  obtain ⟨hpresent, hmem⟩ := of_decide_eq_true hk
  have hsame := (mess_append_only hw hw' "k").1 hpresent (["mess", "k", "mess"], .str "hello")
    (List.prefix_append ["mess", "k"] ["mess"])
  exact ⟨w, w', hw, hw', hmem, hsame.mpr hmem⟩

end World

end AppChat
