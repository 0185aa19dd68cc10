import AppChat.Chat.CellCollection

/-!
What a reused bubble shows of the messages it was used for before.

* `display_cellForItemAt_eq_iff`: what the display of a message depends on in
  the bubble it is shown in: the text colour for an own message, the text view
  for one without an image, the image view and the width for an empty one.
* `textviewTextColor_shown`, `textviewIsHidden_shown`, `imageChatIsHidden_shown`,
  `bubblewidth_shown`: what the uses of a bubble leave there.
* `display_eq_fresh_iff`: after which uses a bubble looks like a fresh one.
-/

namespace AppChat

namespace CellUse

/-- The message is one of the signed-in user. -/
def Own (u : CellUse) : Prop := some u.mess.fromID = u.currentUser

instance (u : CellUse) : Decidable u.Own := inferInstanceAs (Decidable (_ = _))

/-- The use leaves the image view and the width alone: no text, no image, and
no video is played. -/
def Blank (isURL : String → Bool) (u : CellUse) : Prop :=
  u.mess.mess = "" ∧ u.mess.imageUrl = "" ∧ (u.plays = 0 ∨ isURL u.mess.videoUrl = false)

instance (isURL : String → Bool) (u : CellUse) : Decidable (u.Blank isURL) :=
  inferInstanceAs (Decidable (_ ∧ _ ∧ _))

end CellUse

namespace CellCollection

variable {estimateWidth : String → ℚ} {isURL : String → Bool}

/-! ### What a configuration depends on -/

/-- **What the display of a message depends on** in the bubble that shows it. -/
lemma display_cellForItemAt_eq_iff {c c' : CellCollection} {currentUser : Option String}
    {mess : Mess} :
    (c.cellForItemAt estimateWidth currentUser mess).display =
        (c'.cellForItemAt estimateWidth currentUser mess).display ↔
      (some mess.fromID = currentUser → c.textviewTextColor = c'.textviewTextColor) ∧
      (mess.imageUrl = "" → c.textviewIsHidden = c'.textviewIsHidden) ∧
      (mess.mess = "" → mess.imageUrl = "" →
        c.imageChatIsHidden = c'.imageChatIsHidden ∧ c.bubblewidth = c'.bubblewidth) := by
  by_cases hown : some mess.fromID = currentUser <;> by_cases himage : mess.imageUrl = "" <;>
    by_cases htext : mess.mess = "" <;>
      simp [cellForItemAt, showText, showImage, showSide, display, hown, himage, htext]

/-! ### What a use leaves -/

/-- Playing hides the image view, if the video has a URL, and leaves the rest. -/
lemma iterate_handlePlayVideo (isURL : String → Bool) {c : CellCollection} {mess : Mess}
    (hc : c.mess = some mess) (n : ℕ) :
    ((handlePlayVideo isURL)^[n] c).mess = some mess ∧
    ((handlePlayVideo isURL)^[n] c).textviewTextColor = c.textviewTextColor ∧
    ((handlePlayVideo isURL)^[n] c).textviewIsHidden = c.textviewIsHidden ∧
    ((handlePlayVideo isURL)^[n] c).bubblewidth = c.bubblewidth ∧
    ((handlePlayVideo isURL)^[n] c).imageChatIsHidden =
      (c.imageChatIsHidden || (decide (n ≠ 0) && isURL mess.videoUrl)) := by
  induction n with
  | zero => simp [hc]
  | succ n ih =>
      obtain ⟨hmess, hcolor, hhidden, hwidth, himage⟩ := ih
      rw [Function.iterate_succ_apply', handlePlayVideo, hmess]
      by_cases hurl : isURL mess.videoUrl = true
      · simp [hurl, hcolor, hhidden, hwidth]
      · simp [hurl, hmess, hcolor, hhidden, hwidth, himage]

/-- The message a bubble shows is the one it was configured with. -/
lemma mess_cellForItemAt (estimateWidth : String → ℚ) (c : CellCollection)
    (currentUser : Option String) (mess : Mess) :
    (c.cellForItemAt estimateWidth currentUser mess).mess = some mess := by
  by_cases hown : some mess.fromID = currentUser <;> by_cases himage : mess.imageUrl = "" <;>
    by_cases htext : mess.mess = "" <;>
      simp [cellForItemAt, showText, showImage, showSide, hown, himage, htext]

/-- A message of the partner leaves the text black. -/
lemma textviewTextColor_use (c : CellCollection) (u : CellUse) :
    (c.use estimateWidth isURL u).textviewTextColor =
      if u.Own then c.textviewTextColor else .black := by
  have hplay := iterate_handlePlayVideo isURL
    (mess_cellForItemAt estimateWidth c u.currentUser u.mess) u.plays
  rw [use, prepareForReuse, hplay.2.1]
  by_cases hown : some u.mess.fromID = u.currentUser <;>
    by_cases himage : u.mess.imageUrl = "" <;> by_cases htext : u.mess.mess = "" <;>
      simp [CellUse.Own, cellForItemAt, showText, showImage, showSide, hown, himage, htext]

/-- A message with an image leaves the text view hidden. -/
lemma textviewIsHidden_use (c : CellCollection) (u : CellUse) :
    (c.use estimateWidth isURL u).textviewIsHidden =
      (c.textviewIsHidden || decide (u.mess.imageUrl ≠ "")) := by
  have hplay := iterate_handlePlayVideo isURL
    (mess_cellForItemAt estimateWidth c u.currentUser u.mess) u.plays
  rw [use, prepareForReuse, hplay.2.2.1]
  by_cases hown : some u.mess.fromID = u.currentUser <;>
    by_cases himage : u.mess.imageUrl = "" <;> by_cases htext : u.mess.mess = "" <;>
      simp [cellForItemAt, showText, showImage, showSide, hown, himage, htext]

/-- A text, or a video that is played, leaves the image view hidden, unless the
message has an image. -/
lemma imageChatIsHidden_use (c : CellCollection) {u : CellUse} (hu : u.mess.imageUrl = "") :
    (c.use estimateWidth isURL u).imageChatIsHidden =
      (c.imageChatIsHidden || decide (¬ u.Blank isURL)) := by
  have hplay := iterate_handlePlayVideo isURL
    (mess_cellForItemAt estimateWidth c u.currentUser u.mess) u.plays
  rw [use, prepareForReuse, hplay.2.2.2.2]
  by_cases hown : some u.mess.fromID = u.currentUser <;> by_cases htext : u.mess.mess = "" <;>
    cases hurl : isURL u.mess.videoUrl <;>
      simp [CellUse.Blank, cellForItemAt, showText, showImage, showSide, hown, hu, htext, hurl]

/-- A message without text and image leaves the width. -/
lemma bubblewidth_use (c : CellCollection) {u : CellUse} (htext : u.mess.mess = "")
    (himage : u.mess.imageUrl = "") :
    (c.use estimateWidth isURL u).bubblewidth = c.bubblewidth := by
  have hplay := iterate_handlePlayVideo isURL
    (mess_cellForItemAt estimateWidth c u.currentUser u.mess) u.plays
  rw [use, prepareForReuse, hplay.2.2.2.1]
  by_cases hown : some u.mess.fromID = u.currentUser <;>
    simp [cellForItemAt, showText, showImage, showSide, hown, himage, htext]

/-! ### What any number of uses leaves -/

lemma shown_concat (h : List CellUse) (u : CellUse) :
    shown estimateWidth isURL (h ++ [u]) =
      (shown estimateWidth isURL h).use estimateWidth isURL u :=
  List.foldl_concat ..

lemma textviewTextColor_shown (h : List CellUse) :
    (shown estimateWidth isURL h).textviewTextColor =
      if ∀ u ∈ h, u.Own then .white else .black := by
  induction h using List.reverseRecOn with
  | nil => rfl
  | append_singleton h u ih =>
      rw [shown_concat, textviewTextColor_use, ih]
      by_cases hu : u.Own <;> simp [hu, or_imp, forall_and]

lemma textviewIsHidden_shown (h : List CellUse) :
    (shown estimateWidth isURL h).textviewIsHidden =
      decide (¬ ∀ u ∈ h, u.mess.imageUrl = "") := by
  induction h using List.reverseRecOn with
  | nil => rfl
  | append_singleton h u ih =>
      rw [shown_concat, textviewIsHidden_use, ih]
      by_cases hu : u.mess.imageUrl = "" <;> simp [hu, or_imp, forall_and]

lemma imageChatIsHidden_shown {h : List CellUse} (himage : ∀ u ∈ h, u.mess.imageUrl = "") :
    (shown estimateWidth isURL h).imageChatIsHidden =
      decide (¬ ∀ u ∈ h, u.Blank isURL) := by
  induction h using List.reverseRecOn with
  | nil => rfl
  | append_singleton h u ih =>
      rw [shown_concat, imageChatIsHidden_use _ (himage u (by simp)),
        ih fun v hv => himage v (by simp [hv])]
      by_cases hu : u.Blank isURL <;> simp [hu, or_imp, forall_and]

lemma bubblewidth_shown {h : List CellUse} (hblank : ∀ u ∈ h, u.Blank isURL) :
    (shown estimateWidth isURL h).bubblewidth = 200 := by
  induction h using List.reverseRecOn with
  | nil => rfl
  | append_singleton h u ih =>
      obtain ⟨htext, himage, -⟩ := hblank u (by simp)
      rw [shown_concat, bubblewidth_use _ htext himage, ih fun v hv => hblank v (by simp [hv])]

/-! ### A reused bubble and a fresh one -/

/-- The uses `h` leave nothing that the next message shows: an own message needs
the text colour of own messages, one without an image a bubble that has had no
image, and an empty one a bubble that has shown nothing. -/
structure LeavesNothing (isURL : String → Bool) (h : List CellUse) (currentUser : Option String)
    (mess : Mess) : Prop where
  own : some mess.fromID = currentUser → ∀ u ∈ h, u.Own
  text : mess.imageUrl = "" → ∀ u ∈ h, u.mess.imageUrl = ""
  empty : mess.mess = "" → mess.imageUrl = "" → ∀ u ∈ h, u.Blank isURL

/-- **A reused bubble looks like a fresh one** if and only if its uses leave
nothing that the message shows. -/
theorem display_eq_fresh_iff (estimateWidth : String → ℚ) (isURL : String → Bool)
    (h : List CellUse) (currentUser : Option String) (mess : Mess) :
    ((shown estimateWidth isURL h).cellForItemAt estimateWidth currentUser mess).display =
        (fresh.cellForItemAt estimateWidth currentUser mess).display ↔
      LeavesNothing isURL h currentUser mess := by
  have hcolor : (shown estimateWidth isURL h).textviewTextColor = fresh.textviewTextColor ↔
      ∀ u ∈ h, u.Own := by
    rw [textviewTextColor_shown]
    split_ifs with hown
    · exact ⟨fun _ => hown, fun _ => rfl⟩
    · exact ⟨fun hblack => absurd hblack (by decide), fun hall => absurd hall hown⟩
  have htextview : (shown estimateWidth isURL h).textviewIsHidden = fresh.textviewIsHidden ↔
      ∀ u ∈ h, u.mess.imageUrl = "" := by
    rw [textviewIsHidden_shown]
    simp [fresh]
  rw [display_cellForItemAt_eq_iff, hcolor, htextview]
  constructor
  · rintro ⟨hown, htext, hempty⟩
    refine ⟨hown, htext, fun hm hi => ?_⟩
    have hhidden := (hempty hm hi).1
    rw [imageChatIsHidden_shown (htext hi)] at hhidden
    simpa [fresh] using hhidden
  · rintro ⟨hown, htext, hempty⟩
    refine ⟨hown, htext, fun hm hi => ⟨?_, bubblewidth_shown (hempty hm hi)⟩⟩
    rw [imageChatIsHidden_shown (htext hi)]
    simpa [fresh] using hempty hm hi

/-- An image of `b` and a text of `b`, for `a`. -/
def imageUse : CellUse := ⟨some "a", ⟨"a", "b", 1, "", "https://image", ""⟩, 0⟩
def textFromB : Mess := ⟨"a", "b", 2, "hello", "", ""⟩

/-- **The text is hidden** in a bubble that has shown an image. -/
theorem imageThenText_hidden :
    ((shown (fun _ => 0) (fun _ => true) [imageUse]).cellForItemAt (fun _ => 0) (some "a")
        textFromB).display.textviewIsHidden = true ∧
      ((shown (fun _ => 0) (fun _ => true) [imageUse]).cellForItemAt (fun _ => 0) (some "a")
          textFromB).display ≠
        (fresh.cellForItemAt (fun _ => 0) (some "a") textFromB).display := by
  refine ⟨by decide +kernel, fun heq => ?_⟩
  have hhidden := congrArg Display.textviewIsHidden heq
  exact absurd hhidden (by decide +kernel)

end CellCollection

end AppChat
