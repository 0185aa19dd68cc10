import AppChat.System.Pipeline

/-!
The text field of the chat log, over a run.

* `FieldEvent`, `fieldEvents`: the edits of the text fields, the taps on Send,
  and the completion blocks of the three send paths, each of which sets
  `txt_text.text = nil`.
* `changes`, `fieldText`: what the field is set to, and so what it holds.
* `FieldStep`: what a step does to the text fields; `FieldOk.step` derives from
  it that a field holds what it was last set to, and that every text was tapped.
* `SentOnce`: a completion block clears the text its own send has delivered, and
  no draft is delivered twice.
* `sentOnce_iff`: this holds of a run exactly when every completion block finds
  the field as its tap left it, or empty for an image or a video, and of two taps
  on one draft at most one is accepted.
-/

namespace AppChat

open Transition EventLog

/-- What happens to a text field. -/
inductive FieldEvent where
  | typed (c : ChatId) (text : String)
  | tapped (c : ChatId) (i : SendId) (text : String)
  | cleared (c : ChatId) (i : SendId) (content : String) (payload : Payload)
  deriving DecidableEq, Repr

/-- The text of the field that a send delivers: an image or a video delivers
none. -/
def Payload.delivered : Payload → String
  | .text mess => mess
  | _ => ""

/-- The text that an event sets the field of `c` to. -/
def FieldEvent.change (c : ChatId) : FieldEvent → Option String
  | .typed c' text => if c' = c then some text else none
  | .cleared c' _ _ _ => if c' = c then some "" else none
  | .tapped .. => none

/-- The texts that the field of `c` is set to, in order. -/
def changes (c : ChatId) (l : List FieldEvent) : List String := l.filterMap (FieldEvent.change c)

/-- What the field of `c` holds after these events; it is empty at first. -/
def fieldText (c : ChatId) (l : List FieldEvent) : String := (changes c l).getLast?.getD ""

lemma changes_append (c : ChatId) (l l' : List FieldEvent) :
    changes c (l ++ l') = changes c l ++ changes c l' := List.filterMap_append

/-- A field holds what the last event sets it to, or what it held before. -/
lemma fieldText_concat (c : ChatId) (l : List FieldEvent) (e : FieldEvent) :
    fieldText c (l ++ [e]) = (e.change c).getD (fieldText c l) := by
  rw [fieldText, changes_append]
  cases h : e.change c <;> simp [changes, h, fieldText]

/-- A tap changes nothing, so the field holds what it was set to since, or what it
held then. -/
lemma fieldText_tapped (c : ChatId) (i : SendId) (text : String) (l l' : List FieldEvent) :
    fieldText c (l ++ .tapped c i text :: l') =
      (changes c l').getLast?.getD (fieldText c l) := by
  have hchanges : changes c (l ++ .tapped c i text :: l') = changes c l ++ changes c l' := by
    rw [changes_append]
    rfl
  rw [fieldText, hchanges, List.getLast?_append, fieldText]
  cases (changes c l').getLast? <;> simp

/-- The text of a text send, once it is issued. -/
def Stage.text (st : Stage) : Option String :=
  st.block.bind fun b =>
    match b.payload with
    | .text mess => some mess
    | _ => none

namespace World

variable {w w' : World} {as : List Action} {l : List FieldEvent}

/-- The event of an action. -/
def fieldEvent (w : World) : Action → Option FieldEvent
  | .screen (.editText c text) => some (.typed c text)
  | .send (.sendText i c _ _) =>
      (w.chats c).bind fun ch => if ch.user = none then none else some (.tapped c i ch.txtText)
  | .send (.recordDone i) =>
      (w.sends i).bind fun s => (w.chats s.chat).bind fun ch =>
        s.stage.block.map fun b => .cleared s.chat i ch.txtText b.payload
  | _ => none

/-- The events of the text fields in a run. -/
def fieldEvents (as : List Action) : List FieldEvent := trace step fieldEvent init as

/-! ### What a step does to the text fields -/

/-- The chat log and the text of a text send. -/
def textOf (w : World) (i : SendId) : Option (ChatId × String) :=
  (w.sends i).bind fun s => s.stage.text.map fun mess => (s.chat, mess)

lemma textOf_congr (h : w'.sends = w.sends) : w'.textOf = w.textOf := by
  funext i
  rw [textOf, textOf, h]

/-- A step that replaces one send replaces its text. -/
lemma textOf_update {i : SendId} {s : Send} (h : w'.sends = Function.update w.sends i (some s)) :
    w'.textOf = Function.update w.textOf i (s.stage.text.map fun mess => (s.chat, mess)) := by
  funext j
  by_cases hj : j = i
  · subst hj
    rw [textOf, h, Function.update_self, Function.update_self, Option.bind_some]
  · rw [textOf, h, Function.update_of_ne hj, Function.update_of_ne hj, textOf]

/-- A send that goes on with the text it has. -/
lemma textOf_of_goOn {i : SendId} {s : Send} {st : Stage} (hs : w.sends i = some s)
    (h : w'.sends = Function.update w.sends i (some { s with stage := st }))
    (hst : st.text = s.stage.text) : w'.textOf = w.textOf := by
  have hold : st.text.map (fun mess => (s.chat, mess)) = w.textOf i := by
    rw [textOf, hs, Option.bind_some, hst]
  rw [textOf_update h, hold, Function.update_eq_self]

/-- A new send without a text. -/
lemma textOf_of_start {i : SendId} {s : Send} (hi : w.sends i = none)
    (h : w'.sends = Function.update w.sends i (some s)) (hst : s.stage.text = none) :
    w'.textOf = w.textOf := by
  have hold : s.stage.text.map (fun mess => (s.chat, mess)) = w.textOf i := by
    rw [textOf, hi, Option.bind_none, hst, Option.map_none]
  rw [textOf_update h, hold, Function.update_eq_self]

/-- **What a step does to the text fields.** -/
inductive FieldStep (w w' : World) : Option FieldEvent → Prop where
  /-- no text changes, but for that of a chat log that opens -/
  | quiet (hchats : ∀ c, (w'.chats c).map ChatLogmessage.txtText =
        (w.chats c).map ChatLogmessage.txtText ∨
        (w.chats c = none ∧ (w'.chats c).map ChatLogmessage.txtText = some ""))
      (htext : w'.textOf = w.textOf) : FieldStep w w' none
  | typed (c : ChatId) (ch : ChatLogmessage) (text : String) (hch : w.chats c = some ch)
      (hchats : w'.chats = Function.update w.chats c (some { ch with txtText := text }))
      (htext : w'.textOf = w.textOf) : FieldStep w w' (some (.typed c text))
  | tapped (c : ChatId) (ch : ChatLogmessage) (i : SendId) (hch : w.chats c = some ch)
      (hchats : w'.chats = w.chats)
      (htext : w'.textOf = Function.update w.textOf i (some (c, ch.txtText))) :
      FieldStep w w' (some (.tapped c i ch.txtText))
  | cleared (c : ChatId) (ch : ChatLogmessage) (i : SendId) (payload : Payload)
      (hch : w.chats c = some ch)
      (hchats : w'.chats = Function.update w.chats c (some { ch with txtText := "" }))
      (htext : w'.textOf = w.textOf)
      (hpayload : ∀ mess, payload = .text mess → w.textOf i = some (c, mess)) :
      FieldStep w w' (some (.cleared c i ch.txtText payload))

lemma FieldStep.of_eq (hchats : w'.chats = w.chats) (htext : w'.textOf = w.textOf) :
    FieldStep w w' none :=
  .quiet (fun c => Or.inl (by rw [hchats])) htext

/-- A chat log opens with an empty text field. -/
lemma FieldStep.of_open {c : ChatId} {ch : ChatLogmessage} (hc : w.chats c = none)
    (htext : ch.txtText = "") : FieldStep w (w.setChat c ch) none := by
  refine .quiet (fun c' => ?_) (textOf_congr rfl)
  by_cases hcc : c' = c
  · subst hcc
    exact Or.inr ⟨hc, by simp [htext]⟩
  · exact Or.inl (by rw [setChat_chats, Function.update_of_ne hcc])

lemma screenStep_fieldStep {a : ScreenAction} (h : w.screenStep a = some w') :
    FieldStep w w' (w.fieldEvent (.screen a)) := by
  cases a with
  | newmessageSelect c d id =>
      simp only [screenStep, Option.ite_none_right_eq_some] at h
      obtain ⟨⟨-, hc, -⟩, h⟩ := h
      split at h <;> rw [← Option.some.inj h]
      · exact .of_open hc rfl
      · exact .of_eq rfl (textOf_congr rfl)
  | inboxSelect c d arrayMess row =>
      simp only [screenStep, Option.ite_none_right_eq_some] at h
      obtain ⟨⟨-, hc⟩, h⟩ := h
      split at h <;> rw [← Option.some.inj h]
      · exact .of_open hc rfl
      · exact .of_eq rfl (textOf_congr rfl)
  | userValue c =>
      simp only [screenStep, Option.bind_eq_some_iff, Option.ite_none_right_eq_some] at h
      obtain ⟨ch, hc, -, h⟩ := h
      split at h <;> rw [← Option.some.inj h]
      · refine .quiet (fun c' => Or.inl ?_) (textOf_congr rfl)
        by_cases hcc : c' = c
        · subst hcc
          simp [hc]
        · rw [setChat_chats, Function.update_of_ne hcc]
      · exact .of_eq rfl (textOf_congr rfl)
  | editText c text =>
      simp only [screenStep, Option.bind_eq_some_iff, Option.ite_none_right_eq_some] at h
      obtain ⟨ch, hc, -, h⟩ := h
      rw [← Option.some.inj h]
      exact .typed c ch text hc rfl (textOf_congr rfl)

/-- The completion block of a record clears the text field of its chat log. -/
lemma fieldEvent_recordDone {i : SendId} {s : Send} {ch : ChatLogmessage} {b : RecordBlock}
    (hs : w.sends i = some s) (hch : w.chats s.chat = some ch)
    (hst : s.stage = .record b .applied) : w.fieldEvent (.send (.recordDone i)) =
      some (.cleared s.chat i ch.txtText b.payload) := by
  simp [fieldEvent, hs, hch, hst, Stage.block]

lemma sendStep_fieldStep {a : SendAction} (h : w.sendStep a = some w') :
    FieldStep w w' (w.fieldEvent (.send a)) := by
  cases sendStep_moves h with
  | textStops i c key now ch hu hch =>
      have hevent : w.fieldEvent (.send (.sendText i c key now)) = none := by
        simp [fieldEvent, hch, hu]
      rw [hevent]
      exact .of_eq rfl (textOf_congr rfl)
  | text i c key now ch user hch hu hi hkey =>
      have hevent : w.fieldEvent (.send (.sendText i c key now)) =
          some (.tapped c i ch.txtText) := by
        simp [fieldEvent, hch, hu]
      rw [hevent]
      have htext := textOf_update (setSend_sends { w with keys := key :: w.keys } i
        ⟨c, ch.device, w.currentUid ch.device, ch.partnerId,
          .record ⟨.text ch.txtText, key, w.currentUid ch.device, some user.id, now⟩ .pending⟩)
      exact .tapped c ch i hch rfl htext
  | pickImage i c random image ch hch hi => exact .of_eq rfl (textOf_of_start hi rfl rfl)
  | pickVideo i c random movie ch hch hi => exact .of_eq rfl (textOf_of_start hi rfl rfl)
  | movieStored i s path movie stored hs hst =>
      exact .of_eq rfl (textOf_of_goOn hs rfl (by rw [hst]; rfl))
  | imageStored i s path image stored completion hs hst =>
      exact .of_eq rfl (textOf_of_goOn hs rfl (by rw [hst]; rfl))
  | putFileDone i ok s path movie stored hs hst =>
      exact .of_eq rfl (textOf_of_goOn hs rfl (by rw [hst]; rfl))
  | movieURLStops => exact .of_eq rfl (textOf_congr rfl)
  | movieURLDone i url image random s ch path movie hs hst =>
      exact .of_eq rfl (textOf_of_goOn hs rfl (by rw [hst]; rfl))
  | putDataDone i ok s path image stored completion hs hst =>
      exact .of_eq rfl (textOf_of_goOn hs rfl (by rw [hst]; cases ok <;> rfl))
  | imageURLFails i key now s path completion hs hst =>
      exact .of_eq rfl (textOf_of_goOn hs rfl (by rw [hst]; rfl))
  | imageStops => exact .of_eq rfl (textOf_congr rfl)
  | media i url key now s ch path completion b hs hst hch hu hkey hfrom hto hpayload =>
      refine .of_eq rfl (textOf_of_goOn hs rfl ?_)
      rw [hst]
      cases completion <;> simp [Stage.text, Stage.block, hpayload, payload]
  | recordApplied i s b hs hst => exact .of_eq rfl (textOf_of_goOn hs rfl (by rw [hst]; rfl))
  | recordFailed i s b hs hst => exact .of_eq rfl (textOf_of_goOn hs rfl (by rw [hst]; rfl))
  | recordDone i s ch b f t hs hch hst =>
      rw [fieldEvent_recordDone hs hch hst]
      exact .cleared s.chat ch i b.payload hch rfl (textOf_of_goOn hs rfl (by rw [hst]; rfl))
        fun mess hmess => by simp [textOf, hs, hst, Stage.text, Stage.block, hmess]
  | recordDoneStops i s ch hch b hs hst =>
      rw [fieldEvent_recordDone hs hch hst]
      exact .cleared s.chat ch i b.payload hch rfl (textOf_congr rfl)
        fun mess hmess => by simp [textOf, hs, hst, Stage.text, Stage.block, hmess]
  | videoDoneStops i s ch b f hs hch hst =>
      rw [fieldEvent_recordDone hs hch hst]
      exact .cleared s.chat ch i b.payload hch rfl (textOf_of_goOn hs rfl (by rw [hst]; rfl))
        fun mess hmess => by simp [textOf, hs, hst, Stage.text, Stage.block, hmess]
  | indexApplied i side s b f t st hs hst =>
      exact .of_eq rfl (textOf_of_goOn hs rfl (by rw [hst]; rfl))
  | indexFailed i side s b f t st hs hst =>
      exact .of_eq rfl (textOf_of_goOn hs rfl (by rw [hst]; rfl))

/-- **Every step is a `FieldStep`.** -/
lemma step_fieldStep {a : Action} (h : w.step a = some w') :
    FieldStep w w' (w.fieldEvent a) := by
  cases a with
  | auth a =>
      obtain ⟨devices, rfl⟩ := authStep_cases h
      exact .of_eq rfl (textOf_congr rfl)
  | register a =>
      obtain ⟨hchats, hsends⟩ := registerStep_leaves h
      exact .of_eq hchats (textOf_congr hsends)
  | screen a => exact screenStep_fieldStep h
  | send a => exact sendStep_fieldStep h
  | delete a =>
      obtain ⟨hchats, hsends, -⟩ := deleteStep_leaves h
      exact .of_eq hchats (textOf_congr hsends)

/-! ### What the fields hold -/

/-- The text fields after a log of events: each holds what it was last set to; a
text send has been tapped; a tap finds the text it sends; and a completion block
finds the text it clears, and follows the tap of a text. -/
structure FieldOk (l : List FieldEvent) (w : World) : Prop where
  chat : ∀ c ch, w.chats c = some ch → ch.txtText = fieldText c l
  closed : ∀ c, w.chats c = none → changes c l = []
  sent : ∀ i c mess, w.textOf i = some (c, mess) → .tapped c i mess ∈ l
  tapped : ∀ k₁ c i text k₂, l = k₁ ++ .tapped c i text :: k₂ → text = fieldText c k₁
  cleared : ∀ k₁ c i content payload k₂, l = k₁ ++ .cleared c i content payload :: k₂ →
    content = fieldText c k₁ ∧ ∀ mess, payload = .text mess → .tapped c i mess ∈ k₁

namespace FieldOk

/-- A step with an event. -/
lemma of_event (hw : FieldOk l w) {e : FieldEvent}
    (hchat : ∀ c ch, w'.chats c = some ch → ch.txtText = fieldText c (l ++ [e]))
    (hclosed : ∀ c, w'.chats c = none → w.chats c = none ∧ e.change c = none)
    (hsent : ∀ i c mess, w'.textOf i = some (c, mess) →
      w.textOf i = some (c, mess) ∨ e = .tapped c i mess)
    (htapped : ∀ c i text, e = .tapped c i text → text = fieldText c l)
    (hcleared : ∀ c i content payload, e = .cleared c i content payload →
      content = fieldText c l ∧ ∀ mess, payload = .text mess → .tapped c i mess ∈ l) :
    FieldOk (l ++ [e]) w' := by
  refine ⟨hchat, fun c hc => ?_, fun i c mess hi => ?_, fun k₁ c i text k₂ hl => ?_,
    fun k₁ c i content payload k₂ hl => ?_⟩
  · obtain ⟨hc, he⟩ := hclosed c hc
    rw [changes_append, hw.closed c hc]
    simp [changes, he]
  · rcases hsent i c mess hi with hi | rfl
    · exact List.mem_append_left _ (hw.sent i c mess hi)
    · exact List.mem_append_right _ (List.mem_singleton_self _)
  · rcases concat_eq_split_iff.mp hl with ⟨rfl, he, -⟩ | ⟨k₃, -, hl⟩
    · exact htapped c i text he.symm
    · exact hw.tapped k₁ c i text k₃ hl
  · rcases concat_eq_split_iff.mp hl with ⟨rfl, he, -⟩ | ⟨k₃, -, hl⟩
    · exact hcleared c i content payload he.symm
    · exact hw.cleared k₁ c i content payload k₃ hl

/-- The chat logs after the field of `c` has been set. -/
lemma chat_of_update (hw : FieldOk l w) {c : ChatId} {ch : ChatLogmessage} {text : String}
    {e : FieldEvent}
    (hchats : w'.chats = Function.update w.chats c (some { ch with txtText := text }))
    (he : ∀ c', e.change c' = if c = c' then some text else none) (c' : ChatId)
    (ch' : ChatLogmessage) (hc' : w'.chats c' = some ch') :
    ch'.txtText = fieldText c' (l ++ [e]) := by
  rw [fieldText_concat, he]
  rcases update_eq_some (hchats ▸ hc') with ⟨rfl, rfl⟩ | ⟨hne, hc'⟩
  · rw [if_pos rfl, Option.getD_some]
  · rw [if_neg (Ne.symm hne), Option.getD_none]
    exact hw.chat c' ch' hc'

/-- A chat log whose field has been set is open. -/
lemma closed_of_update {c : ChatId} {ch : ChatLogmessage} {text : String} {e : FieldEvent}
    (hchats : w'.chats = Function.update w.chats c (some { ch with txtText := text }))
    (he : ∀ c', e.change c' = if c = c' then some text else none) (c' : ChatId)
    (hc' : w'.chats c' = none) : w.chats c' = none ∧ e.change c' = none := by
  rw [hchats] at hc'
  by_cases hcc : c' = c
  · rw [hcc, Function.update_self] at hc'
    cases hc'
  · rw [Function.update_of_ne hcc] at hc'
    exact ⟨hc', by rw [he, if_neg (Ne.symm hcc)]⟩

/-- **Every step keeps what the fields hold.** -/
lemma step (hw : FieldOk l w) {a : Action} (h : w.step a = some w') :
    FieldOk (l ++ (w.fieldEvent a).toList) w' := by
  have hstep := step_fieldStep h
  generalize w.fieldEvent a = ev at hstep
  cases hstep with
  | quiet hchats htext =>
      rw [Option.toList_none, List.append_nil]
      refine ⟨fun c ch hc => ?_, fun c hc => ?_, fun i c mess hi => hw.sent i c mess (htext ▸ hi),
        hw.tapped, hw.cleared⟩
      · rcases hchats c with hmap | ⟨hnone, hmap⟩ <;> rw [hc, Option.map_some] at hmap
        · obtain ⟨ch', hch', hsame⟩ := Option.map_eq_some_iff.mp hmap.symm
          rw [← hsame]
          exact hw.chat c ch' hch'
        · rw [Option.some.inj hmap, fieldText, hw.closed c hnone]
          rfl
      · rcases hchats c with hmap | ⟨hnone, hmap⟩ <;> rw [hc, Option.map_none] at hmap
        · exact hw.closed c (Option.map_eq_none_iff.mp hmap.symm)
        · cases hmap
  | typed c ch text hch hchats htext =>
      exact hw.of_event (hw.chat_of_update hchats fun c' => rfl)
        (closed_of_update hchats fun c' => rfl) (fun i c mess hi => Or.inl (htext ▸ hi))
        (by simp) (by simp)
  | tapped c ch i hch hchats htext =>
      refine hw.of_event (fun c' ch' hc' => ?_) (fun c' hc' => ⟨hchats ▸ hc', rfl⟩)
        (fun j c' mess hj => ?_) (fun c' j text he => ?_) (by simp)
      · rw [fieldText_concat]
        exact hw.chat c' ch' (hchats ▸ hc')
      · rw [htext] at hj
        by_cases hji : j = i
        · subst hji
          obtain ⟨rfl, rfl⟩ : c = c' ∧ ch.txtText = mess := by simpa using hj
          exact Or.inr rfl
        · rw [Function.update_of_ne hji] at hj
          exact Or.inl hj
      · obtain ⟨rfl, -, rfl⟩ : c = c' ∧ i = j ∧ ch.txtText = text := by simpa using he
        exact hw.chat c ch hch
  | cleared c ch i payload hch hchats htext hpayload =>
      refine hw.of_event (hw.chat_of_update hchats fun c' => rfl)
        (closed_of_update hchats fun c' => rfl) (fun j c' mess hj => Or.inl (htext ▸ hj))
        (by simp) (fun c' j content payload' he => ?_)
      obtain ⟨rfl, rfl, rfl, rfl⟩ :
          c = c' ∧ i = j ∧ ch.txtText = content ∧ payload = payload' := by simpa using he
      exact ⟨hw.chat c ch hch, fun mess hmess => hw.sent i c mess (hpayload mess hmess)⟩

end FieldOk

lemma Runs.fieldOk (h : Runs as w) : FieldOk (fieldEvents as) w := by
  refine trace_invariant (fun l v a v' hv hstep => hv.step hstep) ?_ h
  exact ⟨by simp [init], fun c _ => rfl, by simp [textOf, init], by simp, by simp⟩

/-! ### Sent once, and never erased -/

/-- The record of a send is in the database. -/
def Recorded (w : World) (i : SendId) : Prop :=
  ∃ b, w.block i = some b ∧ w.db.Present ["mess", b.key]

/-- Typed text is sent once and never silently erased: a completion block that
clears the field finds in it the text its own send has delivered; and two taps on
one draft, with no change of the field between them, do not both leave a message. -/
structure SentOnce (as : List Action) (w : World) : Prop where
  cleared : ∀ c i content payload, .cleared c i content payload ∈ fieldEvents as →
    content = payload.delivered
  once : ∀ k₁ c i text k₂ j text' k₃,
    fieldEvents as = k₁ ++ .tapped c i text :: (k₂ ++ .tapped c j text' :: k₃) →
      changes c k₂ = [] → text ≠ "" → ¬ (w.Recorded i ∧ w.Recorded j)

/-- From a tap on Send to its completion block the field is left alone, or last
changed back to the text of the tap; before the completion block of an image or
a video it is empty, or last emptied; and of two taps on one draft at most one is
accepted. -/
structure LeftAlone (as : List Action) : Prop where
  text : ∀ k₁ c i text k₂ content k₃,
    fieldEvents as = k₁ ++ .tapped c i text :: (k₂ ++ .cleared c i content (.text text) :: k₃) →
      ∀ t ∈ (changes c k₂).getLast?, t = text
  media : ∀ k₁ c i content payload k₂,
    fieldEvents as = k₁ ++ .cleared c i content payload :: k₂ →
      (∀ mess, payload ≠ .text mess) → ∀ t ∈ (changes c k₁).getLast?, t = ""
  once : ∀ k₁ c i text k₂ j text' k₃,
    fieldEvents as = k₁ ++ .tapped c i text :: (k₂ ++ .tapped c j text' :: k₃) →
      changes c k₂ = [] → text ≠ "" →
        ¬ (.send (.recordApplied i) ∈ as ∧ .send (.recordApplied j) ∈ as)

/-- What a completion block clears, in terms of the edits. -/
lemma delivered_iff (h : Runs as w) {k₁ k₂ k₃ : List FieldEvent} {c : ChatId} {i : SendId}
    {text content : String}
    (hl : fieldEvents as =
      k₁ ++ .tapped c i text :: (k₂ ++ .cleared c i content (.text text) :: k₃)) :
    content = text ↔ ∀ t ∈ (changes c k₂).getLast?, t = text := by
  have htapped : text = fieldText c k₁ := h.fieldOk.tapped _ _ _ _ _ hl
  have hsplit : fieldEvents as = (k₁ ++ .tapped c i text :: k₂) ++
      .cleared c i content (.text text) :: k₃ := by
    rw [hl, List.append_assoc, List.cons_append]
  obtain ⟨hcontent, -⟩ := h.fieldOk.cleared _ _ _ _ _ _ hsplit
  rw [fieldText_tapped, ← htapped] at hcontent
  rw [hcontent]
  cases (changes c k₂).getLast? <;> simp

/-- **When typed text is sent once and never erased**: at the end of every run, if
and only if every completion block finds the field as its tap has left it, or
empty when it is that of an image or a video, and the server accepts at most one
of two taps on one draft. -/
theorem sentOnce_iff (h : Runs as w) : SentOnce as w ↔ LeftAlone as := by
  constructor
  · intro hsent
    refine ⟨fun k₁ c i text k₂ content k₃ hl => ?_, fun k₁ c i content payload k₂ hl hmedia => ?_,
      fun k₁ c i text k₂ j text' k₃ hl hsame hne hboth => ?_⟩
    · exact (delivered_iff h hl).mp (hsent.cleared c i content (.text text) (by rw [hl]; simp))
    · have hempty : content = "" := by
        have hdelivered := hsent.cleared c i content payload (by rw [hl]; simp)
        cases payload with
        | text mess => exact absurd rfl (hmedia mess)
        | image imageUrl => exact hdelivered
        | video linkVideo imageUrl => exact hdelivered
      obtain ⟨hcontent, -⟩ := h.fieldOk.cleared _ _ _ _ _ _ hl
      rw [hempty, fieldText] at hcontent
      intro t ht
      rw [Option.mem_def.mp ht] at hcontent
      exact hcontent.symm
    · exact hsent.once k₁ c i text k₂ j text' k₃ hl hsame hne
        ⟨(recordApplied_mem_iff h i).mp hboth.1, (recordApplied_mem_iff h j).mp hboth.2⟩
  · intro halone
    refine ⟨fun c i content payload hmem => ?_,
      fun k₁ c i text k₂ j text' k₃ hl hsame hne hboth => ?_⟩
    · obtain ⟨k, k₃, hl⟩ := List.append_of_mem hmem
      obtain ⟨hcontent, htap⟩ := h.fieldOk.cleared _ _ _ _ _ _ hl
      have hempty : (∀ mess, payload ≠ .text mess) → content = "" := by
        intro hmedia
        have hlast := halone.media k c i content payload k₃ hl hmedia
        rw [hcontent, fieldText]
        cases hchanges : (changes c k).getLast? with
        | none => rfl
        | some t => exact hlast t hchanges
      cases payload with
      | text mess =>
          obtain ⟨k₁, k₂, rfl⟩ := List.append_of_mem (htap mess rfl)
          rw [List.append_assoc, List.cons_append] at hl
          exact (delivered_iff h hl).mpr (halone.text k₁ c i mess k₂ content k₃ hl)
      | image imageUrl => exact hempty (by simp)
      | video linkVideo imageUrl => exact hempty (by simp)
    · exact halone.once k₁ c i text k₂ j text' k₃ hl hsame hne
        ⟨(recordApplied_mem_iff h i).mpr hboth.1, (recordApplied_mem_iff h j).mpr hboth.2⟩

/-- The first text is sent once and not erased. -/
theorem sentOnce_firstText : ∃ w, Runs firstText w ∧ SentOnce firstText w := by
  have hrun : (Transition.run step init firstText).isSome = true := by decide +kernel
  have hevents : fieldEvents firstText =
      [.typed 0 "hello", .tapped 0 0 "hello", .cleared 0 0 "hello" (.text "hello")] := by
    decide +kernel
  obtain ⟨w, hw⟩ := Option.isSome_iff_exists.mp hrun
  refine ⟨w, hw, (sentOnce_iff hw).mpr ⟨?_, ?_, ?_⟩⟩ <;> rw [hevents]
  · intro k₁ c i text k₂ content k₃ hl
    rcases k₁ with _ | ⟨x, _ | ⟨y, _ | ⟨z, k₁⟩⟩⟩ <;> simp at hl
    -- the completion block comes right after the tap
    obtain ⟨-, hl⟩ := hl
    rcases k₂ with _ | ⟨x, k₂⟩
    · simp [changes]
    · simp at hl
  · intro k₁ c i content payload k₂ hl hmedia
    rcases k₁ with _ | ⟨x, _ | ⟨y, _ | ⟨z, k₁⟩⟩⟩ <;> simp at hl
    obtain ⟨-, -, ⟨-, -, -, hpayload⟩, -⟩ := hl
    exact absurd hpayload.symm (hmedia "hello")
  · intro k₁ c i text k₂ j text' k₃ hl
    rcases k₁ with _ | ⟨x, _ | ⟨y, _ | ⟨z, k₁⟩⟩⟩ <;> simp at hl
    obtain ⟨-, hl⟩ := hl
    rcases k₂ with _ | ⟨x, k₂⟩ <;> simp at hl

/-- A text is tapped, and goes on being edited until its record is accepted. -/
def lateEdit : List Action :=
  registration 0 "a" ++ registration 1 "b" ++ newmessage 0 0 "b" ++
    [.send (.sendText 0 0 "k" 0), .screen (.editText 0 "hello again"),
      .send (.recordApplied 0), .send (.recordDone 0)]

/-- **An erased text**: the completion block of the first text clears what was
typed after the tap. -/
theorem lateEdit_erased : ∃ w, Runs lateEdit w ∧ ¬ SentOnce lateEdit w ∧
    .cleared 0 0 "hello again" (.text "hello") ∈ fieldEvents lateEdit ∧
      (w.chats 0).map ChatLogmessage.txtText = some "" := by
  have hrun : ((Transition.run step init lateEdit).map fun w =>
      decide (.cleared 0 0 "hello again" (.text "hello") ∈ fieldEvents lateEdit ∧
        (w.chats 0).map ChatLogmessage.txtText = some "")) = some true := by
    decide +kernel
  obtain ⟨w, hw, h⟩ := Option.map_eq_some_iff.mp hrun
  obtain ⟨hmem, htext⟩ := of_decide_eq_true h
  refine ⟨w, hw, fun hsent => ?_, hmem, htext⟩
  have hsame : "hello again" = "hello" := hsent.cleared 0 0 _ _ hmem
  simp at hsame

end World

end AppChat
