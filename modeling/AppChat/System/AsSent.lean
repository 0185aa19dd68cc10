import AppChat.Chat.CellCollection
import AppChat.System.Delivery
import AppChat.System.History

/-!
What is sent, and what the chat log shows of it.

The record of a message has no field for its kind: a send path leaves out, or
writes as `nil`, the fields it has no use for, the reader puts an empty string in
the place of each, and the bubble tells the kind by which strings are empty.

* `RecordBlock.Stored`: the record is in the database, field by field; so it is
  right after its write, `stored_updateChildValues`, and in every later state,
  `Consistent.stored`.
* `getMessageUserPartnerValue_stored`: decoding it gives back what was sent.
* `ShownAsSent`: and a fresh bubble, with the size of its row, treats the message
  as one of its kind.
* `shownAsSent_iff`: this is so of every message but an empty text, and a text that
  happens to be as high as an image.
-/

namespace AppChat

/-- A text. -/
def Payload.isText : Payload → Bool
  | .text _ => true
  | _ => false

/-- The URLs of an image or a video are there. -/
def Payload.HasURLs : Payload → Prop
  | .text _ => True
  | .image imageUrl => imageUrl ≠ ""
  | .video linkVideo imageUrl => imageUrl ≠ "" ∧ ∃ link, linkVideo = some link ∧ link ≠ ""

/-- The message is not an empty text, nor a text that is 230 points high, which is
the height of an image without the margin. -/
def Payload.HasKind (estimateHeight : String → ℚ) : Payload → Prop
  | .text mess => mess ≠ "" ∧ estimateHeight mess ≠ 230
  | _ => True

namespace RecordBlock

/-- The message that was sent, with empty strings for the parts it does not have. -/
def sent (b : RecordBlock) : Mess :=
  let toID := b.toID.getD "demo_toID"
  let fromID := b.fromID.getD "demo_from_ID"
  match b.payload with
  | .text mess => ⟨toID, fromID, b.timestamp, mess, "", ""⟩
  | .image imageUrl => ⟨toID, fromID, b.timestamp, "", imageUrl, ""⟩
  | .video linkVideo imageUrl => ⟨toID, fromID, b.timestamp, "", imageUrl, linkVideo.getD ""⟩

/-- The fields below the key of the record. -/
def fields (b : RecordBlock) (db : Database) : Fields := fun f => db.valueAt ["mess", b.key, f]

/-- The record is in the database: below its key there are its fields, except those
written as `nil`, and nothing else. -/
def Stored (b : RecordBlock) (db : Database) : Prop :=
  ∀ f v, b.fields db f = some v ↔ (f, some v) ∈ b.data

variable {b : RecordBlock} {db : Database}

/-- The write of a record stores it, at a key that is not there yet. -/
lemma stored_updateChildValues (b : RecordBlock) (hkey : ¬ db.Present ["mess", b.key]) :
    b.Stored (db.updateChildValues ["mess", b.key] b.data) := by
  intro f v
  rw [fields, PathTree.valueAt_eq_some_iff, PathTree.mem_updateChildValues b.data_nodup]
  constructor
  · rintro (⟨k, hk, hpath⟩ | ⟨hold, -⟩)
    · obtain rfl : f = k := by simpa using hpath
      exact hk
    · exact absurd ⟨_, hold, List.prefix_append ["mess", b.key] [f]⟩ hkey
  · exact fun hf => Or.inl ⟨f, hf, rfl⟩

namespace Stored

/-- The snapshot of a stored record. -/
lemma snapshot_eq (hb : b.Stored db) :
    snapshot db ["mess", b.key] = .dictionary (b.fields db) :=
  snapshot_eq_dictionary (p := ["mess", b.key]) ((hb _ _).mpr b.fromID_mem_data)

/-- A field that is written holds what is written. -/
lemma asString_of_mem (hb : b.Stored db) {f s : String} (hf : (f, some (.str s)) ∈ b.data) :
    (b.fields db).asString f = some s :=
  Fields.asString_eq_some_iff.mpr ((hb _ _).mpr hf)

/-- A field that is left out, or written as `nil`, is absent. -/
lemma asString_eq_none (hb : b.Stored db) {f : String} (hf : ∀ v, (f, some v) ∉ b.data) :
    (b.fields db).asString f = none := by
  refine Option.eq_none_iff_forall_ne_some.mpr fun s hs => ?_
  exact hf _ ((hb _ _).mp (Fields.asString_eq_some_iff.mp hs))

end Stored

/-- **Decoding a stored record** does not trap, and gives back what was sent. -/
lemma getMessageUserPartnerValue_stored (hb : b.Stored db) :
    getMessageUserPartnerValue (snapshot db ["mess", b.key]) = .ok b.sent := by
  have hfrom := Fields.forceString_eq_ok_iff.mpr ((hb _ _).mpr b.fromID_mem_data)
  have hto := Fields.forceString_eq_ok_iff.mpr ((hb _ _).mpr b.toID_mem_data)
  have htime := Fields.forceNumber_eq_ok_iff.mpr ((hb _ _).mpr b.timestamp_mem_data)
  -- the three optional fields, for each send path
  obtain ⟨mess, imageUrl, videoUrl, hmess, himage, hvideo, hsent⟩ :
      ∃ mess imageUrl videoUrl,
        (b.fields db).asString "mess" = mess ∧
        (b.fields db).asString "image_url" = imageUrl ∧
        (b.fields db).asString "video_url" = videoUrl ∧
        b.sent = ⟨b.toID.getD "demo_toID", b.fromID.getD "demo_from_ID", b.timestamp, mess.getD "",
          imageUrl.getD "", videoUrl.getD ""⟩ := by
    cases hp : b.payload with
    | text mess =>
        refine ⟨some mess, none, none, ?_, ?_, ?_, by simp [sent, hp]⟩
        · exact hb.asString_of_mem (by simp [data, hp, textRecord])
        · exact hb.asString_eq_none (by simp [data, hp, textRecord])
        · exact hb.asString_eq_none (by simp [data, hp, textRecord])
    | image imageUrl =>
        refine ⟨none, some imageUrl, none, ?_, ?_, ?_, by simp [sent, hp]⟩
        · exact hb.asString_eq_none (by simp [data, hp, imageRecord])
        · exact hb.asString_of_mem (by simp [data, hp, imageRecord])
        · exact hb.asString_eq_none (by simp [data, hp, imageRecord])
    | video linkVideo imageUrl =>
        refine ⟨none, some imageUrl, linkVideo, ?_, ?_, ?_, by simp [sent, hp]⟩
        · exact hb.asString_eq_none (by simp [data, hp, videoRecord])
        · exact hb.asString_of_mem (by simp [data, hp, videoRecord])
        · cases linkVideo with
          | none => exact hb.asString_eq_none (by simp [data, hp, videoRecord])
          | some link => exact hb.asString_of_mem (by simp [data, hp, videoRecord])
  simp only [getMessageUserPartnerValue, hb.snapshot_eq, Snapshot.forceDictionary, bind,
    Except.bind, hfrom, hto, htime, hmess, himage, hvideo, pure, Except.pure, hsent]

end RecordBlock

/-- **An accepted record stays stored**, whatever is written afterwards. -/
lemma World.Consistent.stored {w : World} (hw : World.Consistent w) {i : SendId} {b : RecordBlock}
    (h : w.Accepted i b) : b.Stored w.db := by
  intro f v
  rw [RecordBlock.fields, PathTree.valueAt_eq_some_iff]
  constructor
  · intro hleaf
    obtain ⟨j, c, g, hc, hpath, hdata⟩ := hw.index.mess [b.key, f] v hleaf
    obtain ⟨hkey, rfl⟩ : b.key = c.key ∧ f = g := by simpa using hpath
    obtain rfl := hw.blocks.key_inj i j b c h.block hc.block hkey
    obtain rfl : b = c := Option.some.inj (h.block.symm.trans hc.block)
    exact hdata
  · exact hw.index.record i b h f v

/-! ### The kind of a message -/

/-- What is sent is what is shown: the record is decoded to what was sent, and a
fresh bubble with the size of its row treats it as one of its kind. -/
structure ShownAsSent (estimateWidth estimateHeight : String → ℚ) (viewWidth : ℚ)
    (currentUser : Option String) (db : Database) (b : RecordBlock) : Prop where
  decoded : getMessageUserPartnerValue (snapshot db ["mess", b.key]) = .ok b.sent
  image : (CellCollection.fresh.cellForItemAt estimateWidth currentUser
    b.sent).imageChatIsHidden = false ↔ b.payload.isText = false
  text : (CellCollection.fresh.cellForItemAt estimateWidth currentUser
    b.sent).textviewIsHidden = false ↔ b.payload.isText = true
  play : (CellCollection.fresh.cellForItemAt estimateWidth currentUser
    b.sent).playButtonIsHidden = false ↔ b.payload.isVideo = true
  height : (CellCollection.sizeForItemAt viewWidth estimateHeight b.sent).2 = 250 ↔
    (CellCollection.fresh.cellForItemAt estimateWidth currentUser b.sent).imageChatIsHidden = false

/-- What a fresh bubble shows of a message. -/
lemma fresh_cellForItemAt (estimateWidth : String → ℚ) (currentUser : Option String) (m : Mess) :
    ((CellCollection.fresh.cellForItemAt estimateWidth currentUser m).imageChatIsHidden = false ↔
      (m.imageUrl ≠ "" ∨ m.mess = "")) ∧
    ((CellCollection.fresh.cellForItemAt estimateWidth currentUser m).textviewIsHidden = false ↔
      m.imageUrl = "") ∧
    ((CellCollection.fresh.cellForItemAt estimateWidth currentUser m).playButtonIsHidden = false ↔
      m.videoUrl ≠ "") := by
  by_cases hown : some m.fromID = currentUser <;> by_cases himage : m.imageUrl = "" <;>
    by_cases htext : m.mess = "" <;>
      simp [CellCollection.cellForItemAt, CellCollection.showText, CellCollection.showImage,
        CellCollection.showSide, CellCollection.fresh, hown, himage, htext]

/-- A message with an image, or with a video and its thumbnail, is shown as such. -/
lemma shownAsSent_of_imageUrl {b : RecordBlock} {db : Database} (hb : b.Stored db)
    (estimateWidth estimateHeight : String → ℚ) (viewWidth : ℚ) (currentUser : Option String)
    (hkind : b.payload.isText = false) (hurl : b.sent.imageUrl ≠ "")
    (hvideo : b.sent.videoUrl ≠ "" ↔ b.payload.isVideo = true) :
    ShownAsSent estimateWidth estimateHeight viewWidth currentUser db b := by
  obtain ⟨himage, htext, hplay⟩ := fresh_cellForItemAt estimateWidth currentUser b.sent
  refine ⟨RecordBlock.getMessageUserPartnerValue_stored hb, ?_, ?_, hplay.trans hvideo, ?_⟩
  · simp [himage, hurl, hkind]
  · simp [htext, hurl, hkind]
  · simp [himage, hurl, CellCollection.sizeForItemAt]

/-- A text is shown as such unless it is empty, or as high as an image. -/
lemma shownAsSent_text_iff {b : RecordBlock} {db : Database} (hb : b.Stored db) {mess : String}
    (hp : b.payload = .text mess) (estimateWidth estimateHeight : String → ℚ) (viewWidth : ℚ)
    (currentUser : Option String) :
    ShownAsSent estimateWidth estimateHeight viewWidth currentUser db b ↔
      mess ≠ "" ∧ estimateHeight mess ≠ 230 := by
  obtain ⟨himage, htext, hplay⟩ := fresh_cellForItemAt estimateWidth currentUser b.sent
  obtain ⟨hmess, hurl, hvideo⟩ :
      b.sent.mess = mess ∧ b.sent.imageUrl = "" ∧ b.sent.videoUrl = "" := by
    simp [RecordBlock.sent, hp]
  have hheight : (CellCollection.sizeForItemAt viewWidth estimateHeight b.sent).2 = 250 ↔
      estimateHeight mess = 230 := by
    rw [CellCollection.sizeForItemAt, if_neg (not_not_intro hurl), hmess]
    constructor <;> intro h <;> linarith
  rw [hmess, hurl] at himage
  constructor
  · intro hshown
    have hne : mess ≠ "" := by
      intro hempty
      have hkind := hshown.image.mp (himage.mpr (Or.inr hempty))
      simp [hp, Payload.isText] at hkind
    refine ⟨hne, fun h230 => hne ?_⟩
    exact (himage.mp (hshown.height.mp (hheight.mpr h230))).resolve_left (not_not_intro rfl)
  · rintro ⟨hne, h230⟩
    have hhidden : ¬ (CellCollection.fresh.cellForItemAt estimateWidth currentUser
        b.sent).imageChatIsHidden = false := by
      simp [himage, hne]
    refine ⟨RecordBlock.getMessageUserPartnerValue_stored hb, ?_, ?_, ?_, ?_⟩
    · simp [hhidden, hp, Payload.isText]
    · simp [htext, hurl, hp, Payload.isText]
    · simp [hplay, hvideo, hp, Payload.isVideo]
    · simp [hheight, hhidden, h230]

/-- **When what is sent is what is shown**: for every stored record whose URLs are
not empty, if and only if it is not that of an empty text, nor of a text that is
230 points high. -/
theorem shownAsSent_iff {b : RecordBlock} {db : Database} (hb : b.Stored db)
    (hurls : b.payload.HasURLs) (estimateWidth estimateHeight : String → ℚ) (viewWidth : ℚ)
    (currentUser : Option String) :
    ShownAsSent estimateWidth estimateHeight viewWidth currentUser db b ↔
      b.payload.HasKind estimateHeight := by
  cases hp : b.payload with
  | text mess => exact shownAsSent_text_iff hb hp estimateWidth estimateHeight viewWidth currentUser
  | image imageUrl =>
      refine iff_of_true (shownAsSent_of_imageUrl hb _ _ _ _ ?_ ?_ ?_) trivial
      · simp [hp, Payload.isText]
      · simpa [hp, RecordBlock.sent, Payload.HasURLs] using hurls
      · simp [hp, RecordBlock.sent, Payload.isVideo]
  | video linkVideo imageUrl =>
      obtain ⟨hne, link, hlink, hlinkne⟩ : imageUrl ≠ "" ∧ ∃ link, linkVideo = some link ∧
          link ≠ "" := by
        simpa [hp, Payload.HasURLs] using hurls
      refine iff_of_true (shownAsSent_of_imageUrl hb _ _ _ _ ?_ ?_ ?_) trivial
      · simp [hp, Payload.isText]
      · simpa [hp, RecordBlock.sent] using hne
      · simp [hp, RecordBlock.sent, Payload.isVideo, hlink, hlinkne]

namespace World

/-- The first text is shown as it was sent, to its sender. -/
theorem shownAsSent_firstText : ∃ w, Runs firstText w ∧ ∃ b, w.Accepted 0 b ∧
    ShownAsSent (fun _ => 40) (fun _ => 20) 320 (some "a") w.db b := by
  let b : RecordBlock := ⟨.text "hello", "k", some "a", some "b", 0⟩
  have hrun : ((Transition.run step init firstText).map fun w =>
      decide (w.block 0 = some b ∧ w.db.Present ["mess", "k"])) = some true := by
    decide +kernel
  obtain ⟨w, hw, h⟩ := Option.map_eq_some_iff.mp hrun
  obtain ⟨hb, hp⟩ := of_decide_eq_true h
  have hacc : w.Accepted 0 b := (present_mess_iff (Runs.consistent hw) hb).mp hp
  refine ⟨w, hw, b, hacc, ?_⟩
  have hkind : b.payload.HasKind fun _ => 20 := ⟨by decide, by norm_num⟩
  exact (shownAsSent_iff ((Runs.consistent hw).stored hacc) trivial _ _ _ _).mpr hkind

/-- The user `a` taps Send with nothing in the text field. -/
def emptyText : List Action :=
  registration 0 "a" ++ registration 1 "b" ++
    [.screen (.newmessageSelect 0 0 "b"), .send (.sendText 0 0 "k" 0), .send (.recordApplied 0)]

/-- **An image view without an image**: the empty text is sent, and its bubble shows
the image view, in a row as high as that of a text. -/
theorem emptyText_shows_image : ∃ w, Runs emptyText w ∧ ∃ b, w.Accepted 0 b ∧
    b.payload = .text "" ∧ b.Stored w.db ∧
    (CellCollection.fresh.cellForItemAt (fun _ => 0) (some "b") b.sent).imageChatIsHidden = false ∧
      ¬ ShownAsSent (fun _ => 0) (fun _ => 20) 320 (some "b") w.db b := by
  let b : RecordBlock := ⟨.text "", "k", some "a", some "b", 0⟩
  have hrun : ((Transition.run step init emptyText).map fun w =>
      decide (w.block 0 = some b ∧ w.db.Present ["mess", "k"])) = some true := by
    decide +kernel
  obtain ⟨w, hw, h⟩ := Option.map_eq_some_iff.mp hrun
  obtain ⟨hb, hp⟩ := of_decide_eq_true h
  have hacc : w.Accepted 0 b := (present_mess_iff (Runs.consistent hw) hb).mp hp
  have hshown : (CellCollection.fresh.cellForItemAt (fun _ => 0) (some "b")
      b.sent).imageChatIsHidden = false := by
    decide +kernel
  refine ⟨w, hw, b, hacc, rfl, (Runs.consistent hw).stored hacc, hshown, fun hsent => ?_⟩
  have hkind := hsent.image.mp hshown
  exact absurd hkind (by decide)

end World

end AppChat
