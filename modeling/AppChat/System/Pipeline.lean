import AppChat.System.Running
import AppChat.System.Delivery
import AppChat.System.Identity

/-!
What the steps of the image and video pipelines report, and what is written.

* `Outcome`, `outcomes`: the answers the blocks of a send have been given, up to
  its record write.
* `Stage.History`: the answers behind each stage. `PipelineOk.step` shows that
  they are these, as long as the app runs; two blocks of the video pipeline go on
  after an error.
* `FailsSafe`: a record is written only after every step has succeeded, with the
  links of its objects, and a send without a record leaves the database as it is.
* `failsSafe_iff`: this holds of a send exactly when neither `putFile` nor the
  `downloadURL` of the movie has failed, or its record write has not been
  accepted all the same.
-/

namespace AppChat

/-- What a step of the two pipelines reports to its block; a download URL is
`none` for an error. -/
inductive Outcome where
  | putFile (ok : Bool)
  | movieURL (url : Option String)
  | putData (ok : Bool)
  | imageURL (url : Option String)
  deriving DecidableEq, Repr

def SendAction.outcome : SendAction → Option Outcome
  | .putFileDone _ ok => some (.putFile ok)
  | .movieURLDone _ url _ _ => some (.movieURL url)
  | .putDataDone _ ok => some (.putData ok)
  | .imageURLDone _ url _ _ => some (.imageURL url)
  | _ => none

/-- The outcome that an action reports to the blocks of the send `i`. -/
def Action.outcome (i : SendId) : Action → Option Outcome
  | .send a => if a.id = i then a.outcome else none
  | _ => none

/-- What the steps of the send `i` have reported. -/
def outcomes (i : SendId) (as : List Action) : List Outcome := as.filterMap (Action.outcome i)

lemma outcomes_concat (i : SendId) (as : List Action) (a : Action) :
    outcomes i (as ++ [a]) = outcomes i as ++ (a.outcome i).toList := by
  rw [outcomes, List.filterMap_append]
  cases h : a.outcome i <;> simp [h, outcomes]

/-! ### The outcomes behind a stage -/

/-- What has been reported when the image upload is begun. -/
def ImageCompletion.History (l : List Outcome) : ImageCompletion → Prop
  | .imageSend => l = []
  | .videoSend linkVideo => ∃ ok, l = [.putFile ok, .movieURL linkVideo]

/-- What has been reported when the record is issued. -/
def Payload.History (l : List Outcome) : Payload → Prop
  | .text _ => l = []
  | .image imageUrl => l = [.putData true, .imageURL (some imageUrl)]
  | .video linkVideo imageUrl => ∃ ok, l =
      [.putFile ok, .movieURL linkVideo, .putData true, .imageURL (some imageUrl)]

/-- Every step has succeeded, and the payload has the links of the objects. -/
def Payload.Succeeded (l : List Outcome) : Payload → Prop
  | .text _ => l = []
  | .image imageUrl => l = [.putData true, .imageURL (some imageUrl)]
  | .video linkVideo imageUrl => ∃ link, linkVideo = some link ∧ l =
      [.putFile true, .movieURL (some link), .putData true, .imageURL (some imageUrl)]

/-- The links that a record holds, with their fields. -/
def Payload.links : Payload → List (String × String)
  | .text _ => []
  | .image imageUrl => [("image_url", imageUrl)]
  | .video linkVideo imageUrl =>
      ("image_url", imageUrl) :: (linkVideo.map fun link => ("video_url", link)).toList

/-- The links are the fields `image_url` and `video_url` of the record. -/
lemma RecordBlock.mem_links_iff {b : RecordBlock} {field url : String} :
    (field, url) ∈ b.payload.links ↔
      (field = "image_url" ∨ field = "video_url") ∧ (field, some (.str url)) ∈ b.data := by
  constructor
  · intro h
    cases hb : b.payload with
    | text mess => simp [hb, Payload.links] at h
    | image imageUrl =>
        obtain ⟨rfl, rfl⟩ : field = "image_url" ∧ url = imageUrl := by
          simpa [hb, Payload.links] using h
        simp [data, hb, imageRecord]
    | video linkVideo imageUrl =>
        rw [hb, Payload.links, List.mem_cons] at h
        rcases h with h | h
        · obtain ⟨rfl, rfl⟩ := Prod.mk.inj h
          simp [data, hb, videoRecord]
        · obtain ⟨link, rfl, rfl, rfl⟩ : ∃ link, linkVideo = some link ∧ "video_url" = field ∧
              link = url := by simpa using h
          simp [data, hb, videoRecord]
  · rintro ⟨hfield, h⟩
    cases hb : b.payload with
    | text mess =>
        rcases hfield with rfl | rfl <;> simp [data, hb, textRecord] at h
    | image imageUrl =>
        rcases hfield with rfl | rfl
        · obtain rfl : url = imageUrl := by simpa [data, hb, imageRecord] using h
          simp [Payload.links]
        · simp [data, hb, imageRecord] at h
    | video linkVideo imageUrl =>
        rcases hfield with rfl | rfl
        · obtain rfl : url = imageUrl := by simpa [data, hb, videoRecord] using h
          simp [Payload.links]
        · obtain rfl : linkVideo = some url := by simpa [data, hb, videoRecord, eq_comm] using h
          simp [Payload.links]

/-- **The outcomes behind a stage.** -/
def Stage.History (l : List Outcome) : Stage → Prop
  | .putFile .. => l = []
  | .movieURL .. => ∃ ok, l = [.putFile ok]
  | .putData _ _ _ completion => completion.History l
  | .imageURL _ completion => ∃ l', completion.History l' ∧ l = l' ++ [.putData true]
  | .aborted => True
  | .record b _ => b.payload.History l
  | .index b .. => b.payload.History l

/-- The record write of the stage has been accepted. -/
def Stage.isAccepted : Stage → Bool
  | .record _ .applied => true
  | .index .. => true
  | _ => false

lemma Payload.history_payload {l : List Outcome} {completion : ImageCompletion}
    (h : completion.History l) (url : String) :
    (World.payload completion url).History (l ++ [.putData true] ++ [.imageURL (some url)]) := by
  cases completion with
  | imageSend =>
      obtain rfl : l = [] := h
      rfl
  | videoSend linkVideo =>
      obtain ⟨ok, rfl⟩ := h
      exact ⟨ok, rfl⟩

/-- **Which failures go unnoticed**: those of `putFile` and of the movie's
`downloadURL`. -/
lemma Payload.History.succeeded_iff {l : List Outcome} {payload : Payload}
    (h : payload.History l) :
    payload.Succeeded l ↔ .putFile false ∉ l ∧ .movieURL none ∉ l := by
  cases payload with
  | text mess =>
      obtain rfl : l = [] := h
      simp [Payload.Succeeded]
  | image imageUrl =>
      obtain rfl : l = [.putData true, .imageURL (some imageUrl)] := h
      simp [Payload.Succeeded]
  | video linkVideo imageUrl =>
      obtain ⟨ok, rfl⟩ := h
      cases ok <;> cases linkVideo <;> simp [Payload.Succeeded]

namespace World

variable {w w' : World} {as : List Action}

/-- Every send has been told what its stage says, as long as its app runs, or
its record has been issued; and it stands behind its record write once that has
been accepted. -/
structure PipelineOk (as : List Action) (w : World) : Prop where
  fresh : ∀ i, w.sends i = none → outcomes i as = [] ∧ .send (.recordApplied i) ∉ as
  history : ∀ i s, w.sends i = some s →
    s.stage.block ≠ none ∨ (w.devices s.device).running = true →
      s.stage.History (outcomes i as)
  recorded : ∀ i s, w.sends i = some s →
    (.send (.recordApplied i) ∈ as ↔ s.stage.isAccepted = true)

namespace PipelineOk

/-- A step that leaves the sends alone and reports nothing. -/
lemma of_sends_eq (hw : PipelineOk as w) {a : Action} (hsends : w'.sends = w.sends)
    (hstops : Stops w w') (hout : ∀ i, a.outcome i = none)
    (hrec : ∀ i, a ≠ .send (.recordApplied i)) : PipelineOk (as ++ [a]) w' := by
  have hlog : ∀ i, outcomes i (as ++ [a]) = outcomes i as := fun i => by
    rw [outcomes_concat, hout, Option.toList_none, List.append_nil]
  have hmem : ∀ i, .send (.recordApplied i) ∈ as ++ [a] ↔ .send (.recordApplied i) ∈ as :=
    fun i => by simp [(hrec i).symm]
  refine ⟨fun i hi => ?_, fun i s hi hrun => ?_, fun i s hi => ?_⟩
  · rw [hlog, hmem]
    exact hw.fresh i (hsends ▸ hi)
  · rw [hlog]
    exact hw.history i s (hsends ▸ hi) (hrun.imp_right (hstops s.device))
  · rw [hmem]
    exact hw.recorded i s (hsends ▸ hi)

/-- A step of a send that stops its app: its blocks run no more. -/
lemma of_crash (hw : PipelineOk as w) {a : SendAction} {s : Send} (hs : w.sends a.id = some s)
    (hblock : s.stage.block = none) (hrec : ∀ i, a ≠ .recordApplied i) :
    PipelineOk (as ++ [.send a]) (w.crash s.device) := by
  have hmem : ∀ i, .send (.recordApplied i) ∈ as ++ [.send a] ↔ .send (.recordApplied i) ∈ as :=
    fun i => by simp [(hrec i).symm]
  have hlog : ∀ i, i ≠ a.id → outcomes i (as ++ [.send a]) = outcomes i as := fun i hi => by
    simp [outcomes_concat, Action.outcome, Ne.symm hi]
  refine ⟨fun i hi => ?_, fun i r hi hrun => ?_, fun i r hi => ?_⟩
  · have hne : i ≠ a.id := fun h => by
      rw [h, crash_sends, hs] at hi
      cases hi
    rw [hlog i hne, hmem]
    exact hw.fresh i hi
  · by_cases hia : i = a.id
    · obtain rfl : s = r := Option.some.inj (hs.symm.trans (hia ▸ hi))
      rcases hrun with hrun | hrun
      · exact absurd hblock hrun
      · simp at hrun
    · rw [hlog i hia]
      exact hw.history i r hi (hrun.imp_right ((Stops.refl w).crash s.device r.device))
  · rw [hmem]
    exact hw.recorded i r hi

/-- A step that starts a send, or moves it on. -/
lemma of_update (hw : PipelineOk as w) {a : SendAction} {s : Send}
    (hsends : w'.sends = Function.update w.sends a.id (some s)) (hstops : Stops w w')
    (hhistory : s.stage.block ≠ none ∨ (w'.devices s.device).running = true →
      s.stage.History (outcomes a.id as ++ a.outcome.toList))
    (hrec : a = .recordApplied a.id ∨ .send (.recordApplied a.id) ∈ as ↔
      s.stage.isAccepted = true) : PipelineOk (as ++ [.send a]) w' := by
  have hself : outcomes a.id (as ++ [.send a]) = outcomes a.id as ++ a.outcome.toList := by
    simp [outcomes_concat, Action.outcome]
  have hother : ∀ i, i ≠ a.id → outcomes i (as ++ [.send a]) = outcomes i as := fun i hi => by
    simp [outcomes_concat, Action.outcome, Ne.symm hi]
  have hmem : ∀ i, i ≠ a.id →
      (.send (.recordApplied i) ∈ as ++ [.send a] ↔ .send (.recordApplied i) ∈ as) := by
    intro i hi
    have hne : SendAction.recordApplied i ≠ a := fun h => hi (by rw [← h]; rfl)
    simp [hne]
  refine ⟨fun i hi => ?_, fun i r hi hrun => ?_, fun i r hi => ?_⟩
  · by_cases hia : i = a.id
    · rw [hsends, hia, Function.update_self] at hi
      cases hi
    · rw [hother i hia, hmem i hia]
      rw [hsends, Function.update_of_ne hia] at hi
      exact hw.fresh i hi
  · by_cases hia : i = a.id
    · subst hia
      rw [hsends, Function.update_self] at hi
      obtain rfl : s = r := Option.some.inj hi
      rw [hself]
      exact hhistory hrun
    · rw [hother i hia]
      rw [hsends, Function.update_of_ne hia] at hi
      exact hw.history i r hi (hrun.imp_right (hstops r.device))
  · by_cases hia : i = a.id
    · subst hia
      rw [hsends, Function.update_self] at hi
      rw [← Option.some.inj hi, ← hrec, List.mem_append, List.mem_singleton, or_comm,
        Action.send.injEq, eq_comm]
    · rw [hmem i hia]
      rw [hsends, Function.update_of_ne hia] at hi
      exact hw.recorded i r hi

/-- A new send: nothing has been reported to it. -/
lemma of_start (hw : PipelineOk as w) {a : SendAction} {s : Send} (hnone : w.sends a.id = none)
    (hsends : w'.sends = Function.update w.sends a.id (some s)) (hstops : Stops w w')
    (hhistory : s.stage.History a.outcome.toList)
    (hrec : a = .recordApplied a.id ↔ s.stage.isAccepted = true) :
    PipelineOk (as ++ [.send a]) w' := by
  obtain ⟨hempty, hno⟩ := hw.fresh _ hnone
  refine hw.of_update hsends hstops (fun _ => ?_) ?_
  · rwa [hempty, List.nil_append]
  · rwa [or_iff_left hno]

/-- A send that goes on. -/
lemma of_goOn (hw : PipelineOk as w) {a : SendAction} {s : Send} {st : Stage}
    (hs : w.sends a.id = some s)
    (hsends : w'.sends = Function.update w.sends a.id (some { s with stage := st }))
    (hstops : Stops w w')
    (hrun : st.block ≠ none → s.stage.block ≠ none ∨ (w.devices s.device).running = true)
    (hhistory : s.stage.History (outcomes a.id as) →
      st.History (outcomes a.id as ++ a.outcome.toList))
    (hrec : a = .recordApplied a.id ∨ s.stage.isAccepted = true ↔ st.isAccepted = true) :
    PipelineOk (as ++ [.send a]) w' := by
  refine hw.of_update hsends hstops (fun h => hhistory (hw.history _ s hs ?_)) ?_
  · rcases h with h | h
    · exact hrun h
    · exact Or.inr (hstops s.device h)
  · rwa [hw.recorded _ s hs]

/-- A send that goes on with nothing reported. -/
lemma of_silent (hw : PipelineOk as w) {a : SendAction} {s : Send} {st : Stage}
    (hs : w.sends a.id = some s)
    (hsends : w'.sends = Function.update w.sends a.id (some { s with stage := st }))
    (hstops : Stops w w') (hrun : st.block ≠ none → s.stage.block ≠ none)
    (hout : a.outcome = none) (hhistory : ∀ l, s.stage.History l → st.History l)
    (hrec : a = .recordApplied a.id ∨ s.stage.isAccepted = true ↔ st.isAccepted = true) :
    PipelineOk (as ++ [.send a]) w' := by
  refine hw.of_goOn hs hsends hstops (fun h => Or.inl (hrun h)) (fun h => ?_) hrec
  rw [hout, Option.toList_none, List.append_nil]
  exact hhistory _ h

/-- **The step of a send.** -/
lemma sendStep (hw : PipelineOk as w) {a : SendAction} (h : w.sendStep a = some w') :
    PipelineOk (as ++ [.send a]) w' := by
  have hstops := sendStep_stops h
  cases sendStep_moves h with
  | textStops i c key now ch =>
      refine hw.of_sends_eq (crash_sends w ch.device) hstops (fun j => ?_) (by simp)
      simp [Action.outcome, SendAction.outcome]
  | text i c key now ch user hch hu hi hkey =>
      exact hw.of_start hi rfl hstops rfl (by simp [Stage.isAccepted])
  | pickImage i c random image ch hch hi =>
      exact hw.of_start hi rfl hstops rfl (by simp [uploadImageChatToFirebase, Stage.isAccepted])
  | pickVideo i c random movie ch hch hi =>
      exact hw.of_start hi rfl hstops rfl (by simp [Stage.isAccepted])
  | movieStored i s path movie stored hs hst =>
      exact hw.of_silent hs rfl hstops (by simp [Stage.block]) rfl (fun l => by rw [hst]; exact id)
        (by simp [hst, Stage.isAccepted])
  | imageStored i s path image stored completion hs hst =>
      exact hw.of_silent hs rfl hstops (by simp [Stage.block]) rfl (fun l => by rw [hst]; exact id)
        (by simp [hst, Stage.isAccepted])
  | putFileDone i ok s path movie stored hs hst hrun =>
      refine hw.of_goOn hs rfl hstops (by simp [Stage.block]) ?_ (by simp [hst, Stage.isAccepted])
      rw [hst]
      exact fun h => ⟨ok, by rw [h]; rfl⟩
  | movieURLStops i url random s path movie hs hst =>
      exact hw.of_crash hs (by rw [hst]; rfl) (by simp)
  | movieURLDone i url image random s ch path movie hs hst =>
      refine hw.of_goOn hs rfl hstops (by simp [Stage.block, uploadImageChatToFirebase]) ?_
        (by simp [hst, Stage.isAccepted, uploadImageChatToFirebase])
      rw [hst]
      rintro ⟨ok, h⟩
      exact ⟨ok, by rw [h]; rfl⟩
  | putDataDone i ok s path image stored completion hs hst =>
      cases ok with
      | true =>
          refine hw.of_goOn hs rfl hstops (by simp [Stage.block]) ?_
            (by simp [hst, Stage.isAccepted])
          rw [hst]
          exact fun h => ⟨_, h, rfl⟩
      | false =>
          exact hw.of_goOn hs rfl hstops (by simp [Stage.block]) (fun _ => trivial)
            (by simp [hst, Stage.isAccepted])
  | imageURLFails i key now s path completion hs hst =>
      exact hw.of_goOn hs rfl hstops (by simp [Stage.block]) (fun _ => trivial)
        (by simp [hst, Stage.isAccepted])
  | imageStops i url key now s path completion hs hst =>
      exact hw.of_crash hs (by rw [hst]; rfl) (by simp)
  | media i url key now s ch path completion b hs hst hch hu hkey hfrom hto hpayload hrun =>
      refine hw.of_goOn hs rfl hstops (fun _ => Or.inr hrun) ?_ (by simp [hst, Stage.isAccepted])
      rw [hst]
      rintro ⟨l, hl, h⟩
      have hhistory := Payload.history_payload hl url
      rw [← h, ← hpayload] at hhistory
      exact hhistory
  | recordApplied i s b hs hst =>
      exact hw.of_silent hs rfl hstops (by simp [hst, Stage.block]) rfl
        (fun l => by rw [hst]; exact id) (by simp [SendAction.id, Stage.isAccepted])
  | recordFailed i s b hs hst =>
      exact hw.of_silent hs rfl hstops (by simp [hst, Stage.block]) rfl
        (fun l => by rw [hst]; exact id) (by simp [hst, Stage.isAccepted])
  | recordDone i s ch b f t hs hch hst =>
      exact hw.of_silent hs rfl hstops (by simp [hst, Stage.block]) rfl
        (fun l => by rw [hst]; exact id) (by simp [hst, Stage.isAccepted])
  | recordDoneStops i s ch hch b hs hst =>
      refine hw.of_sends_eq rfl hstops (fun j => ?_) (by simp)
      simp [Action.outcome, SendAction.outcome]
  | videoDoneStops i s ch b f hs hch hst =>
      exact hw.of_silent hs rfl hstops (by simp [hst, Stage.block]) rfl
        (fun l => by rw [hst]; exact id) (by simp [hst, Stage.isAccepted])
  | indexApplied i side s b f t st hs hst =>
      exact hw.of_silent hs rfl hstops (by simp [hst, Stage.block]) rfl
        (fun l => by rw [hst]; exact id) (by simp [hst, Stage.isAccepted])
  | indexFailed i side s b f t st hs hst =>
      exact hw.of_silent hs rfl hstops (by simp [hst, Stage.block]) rfl
        (fun l => by rw [hst]; exact id) (by simp [hst, Stage.isAccepted])

/-- **Every step keeps what the stages say.** -/
lemma step (hw : PipelineOk as w) {a : Action} (h : w.step a = some w') :
    PipelineOk (as ++ [a]) w' := by
  have hstops := step_stops h
  cases a with
  | auth a =>
      obtain ⟨devices, rfl⟩ := authStep_cases h
      exact hw.of_sends_eq rfl hstops (fun _ => rfl) (by simp)
  | register a =>
      exact hw.of_sends_eq (registerStep_leaves h).2 hstops (fun _ => rfl) (by simp)
  | screen a =>
      exact hw.of_sends_eq (screenStep_keepsScreens h).2 hstops (fun _ => rfl) (by simp)
  | send a => exact hw.sendStep h
  | delete a => exact hw.of_sends_eq (deleteStep_leaves h).2.1 hstops (fun _ => rfl) (by simp)

end PipelineOk

lemma Runs.pipelineOk (h : Runs as w) : PipelineOk as w := by
  refine Transition.run_induction ?_ (fun as v a v' _ hv hstep => hv.step hstep) h
  exact ⟨by simp [outcomes], by simp [init], by simp [init]⟩

/-! ### What is written -/

/-- A record write is accepted when the stage says so. -/
lemma isAccepted_iff {i : SendId} {s : Send} (hs : w.sends i = some s) :
    s.stage.isAccepted = true ↔ ∃ b, w.Accepted i b := by
  simp only [Accepted, progress_of_sends hs]
  cases hst : s.stage with
  | record b st => cases st <;> simp [Stage.isAccepted, Stage.block]
  | index b f t st => simp [Stage.isAccepted, Stage.block]
  | _ => simp [Stage.isAccepted, Stage.block]

/-- **A record is there** when its write has been accepted in the run. -/
lemma recordApplied_mem_iff (h : Runs as w) (i : SendId) :
    .send (.recordApplied i) ∈ as ↔
      ∃ b, w.block i = some b ∧ w.db.Present ["mess", b.key] := by
  have hpresent : (∃ b, w.block i = some b ∧ w.db.Present ["mess", b.key]) ↔
      ∃ b, w.Accepted i b := by
    constructor
    · rintro ⟨b, hb, hp⟩
      exact ⟨b, (present_mess_iff h.consistent hb).mp hp⟩
    · rintro ⟨b, hacc⟩
      exact ⟨b, hacc.block, (present_mess_iff h.consistent hacc.block).mpr hacc⟩
  rw [hpresent]
  cases hs : w.sends i with
  | none =>
      have hno : ∀ b, ¬ w.Accepted i b := fun b hacc => by
        have hblock := hacc.block
        rw [block, progress, hs] at hblock
        cases hblock
      simp [hno, (h.pipelineOk.fresh i hs).2]
  | some s => rw [h.pipelineOk.recorded i s hs, isAccepted_iff hs]

/-- A send with a block has issued its record, or gone on to the index. -/
lemma exists_stage_of_block {i : SendId} {b : RecordBlock} (hb : w.block i = some b) :
    ∃ s, w.sends i = some s ∧
      ((∃ st, s.stage = .record b st) ∨ ∃ f t st, s.stage = .index b f t st) := by
  rw [block, progress, Option.bind_eq_some_iff] at hb
  obtain ⟨st, hst, hb⟩ := hb
  obtain ⟨s, hs, hst⟩ := Option.bind_eq_some_iff.mp hst
  obtain rfl := Option.some.inj (Option.ite_none_right_eq_some.mp hst).2
  refine ⟨s, hs, ?_⟩
  cases hst' : s.stage with
  | record c st =>
      obtain rfl : c = b := by simpa [hst', Stage.block] using hb
      exact Or.inl ⟨st, rfl⟩
  | index c f t st =>
      obtain rfl : c = b := by simpa [hst', Stage.block] using hb
      exact Or.inr ⟨f, t, st, rfl⟩
  | _ => simp [hst', Stage.block] at hb

/-- The outcomes behind an issued record. -/
lemma history_of_block (h : Runs as w) {i : SendId} {b : RecordBlock} (hb : w.block i = some b) :
    b.payload.History (outcomes i as) := by
  obtain ⟨s, hs, hst⟩ := exists_stage_of_block hb
  have hhistory := h.pipelineOk.history i s hs
  rcases hst with ⟨st, hst⟩ | ⟨f, t, st, hst⟩ <;> rw [hst] at hhistory <;>
    exact hhistory (Or.inl (by simp [Stage.block]))

/-- A step of a send writes its record, or an index entry after it, or nothing. -/
lemma sendStep_db (hw : PipelineOk as w) {a : SendAction} (h : w.sendStep a = some w') :
    w'.db = w.db ∨ .send (.recordApplied a.id) ∈ as ++ [.send a] := by
  cases sendStep_moves h with
  | recordApplied i s b hs hst => exact Or.inr (by simp [SendAction.id])
  | indexApplied i side s b f t st hs hst =>
      have hmem := (hw.recorded i s hs).mpr (by simp [hst, Stage.isAccepted])
      exact Or.inr (List.mem_append_left _ hmem)
  | _ => exact Or.inl rfl

/-- What a send writes, for any outcome of its steps: a record in the database
comes after the success of every step, and holds the links of the objects; an
index entry comes after the record; and as long as there is no record, no step
of the send changes the database. -/
structure FailsSafe (as : List Action) (w : World) (i : SendId) : Prop where
  record : ∀ b, w.block i = some b → w.db.Present ["mess", b.key] →
    b.payload.Succeeded (outcomes i as)
  links : ∀ b, w.block i = some b → w.db.Present ["mess", b.key] →
    ∀ field url, (field, url) ∈ b.payload.links →
      w.db.valueAt ["mess", b.key, field] = some (.str url)
  index : ∀ b f t side, w.Entered i b f t side → w.db.Present ["mess", b.key]
  unchanged : (∀ b, w.block i = some b → ¬ w.db.Present ["mess", b.key]) →
    ∀ bs a v v', bs ++ [.send a] <+: as → Runs bs v → v.step (.send a) = some v' →
      a.id = i → v'.db = v.db

/-- **When a failed upload sends nothing.** At the end of every run, a send has
written nothing but what `FailsSafe` allows if and only if `putFile` and the
`downloadURL` of its movie have not failed, or its record write has not been
accepted (it has failed itself, or the image upload has). Every other failure is
followed by a `return`. -/
theorem failsSafe_iff (h : Runs as w) (i : SendId) :
    FailsSafe as w i ↔
      (.putFile false ∉ outcomes i as ∧ .movieURL none ∉ outcomes i as) ∨
        .send (.recordApplied i) ∉ as := by
  constructor
  · intro hsafe
    rw [or_iff_not_imp_right, not_not]
    intro hmem
    obtain ⟨b, hb, hp⟩ := (recordApplied_mem_iff h i).mp hmem
    exact (history_of_block h hb).succeeded_iff.mp (hsafe.record b hb hp)
  · intro hcond
    refine ⟨fun b hb hp => ?_, fun b hb hp field url hurl => ?_, fun b f t side hent => ?_,
      fun hno bs a v v' hprefix hv hstep hid => ?_⟩
    · have hmem := (recordApplied_mem_iff h i).mpr ⟨b, hb, hp⟩
      exact (history_of_block h hb).succeeded_iff.mpr (hcond.resolve_right (not_not_intro hmem))
    · have hacc := (present_mess_iff h.consistent hb).mp hp
      exact PathTree.valueAt_eq_some_iff.mpr
        (h.consistent.index.record i b hacc _ _ (RecordBlock.mem_links_iff.mp hurl).2)
    · exact (present_mess_iff h.consistent hent.accepted.block).mpr hent.accepted
    · rcases sendStep_db hv.pipelineOk hstep with hdb | hmem
      · exact hdb
      · obtain ⟨b, hb, hp⟩ := (recordApplied_mem_iff h i).mp (hid ▸ hprefix.subset hmem)
        exact absurd hp (hno b hb)

/-- The first video, with every step a success. -/
theorem failsSafe_firstVideo : ∃ w, Runs firstVideo w ∧ FailsSafe firstVideo w 0 := by
  have hrun : (Transition.run step init firstVideo).isSome = true := by decide +kernel
  obtain ⟨w, hw⟩ := Option.isSome_iff_exists.mp hrun
  exact ⟨w, hw, (failsSafe_iff hw 0).mpr (Or.inl (by decide))⟩

/-- A video whose movie is never uploaded: `putFile` fails and so does its
`downloadURL`, and the image upload goes through. -/
def failedVideo : List Action :=
  registration 0 "a" ++ registration 1 "b" ++ newmessage 0 0 "b" ++
    [.send (.pickVideo 0 0 7 []), .send (.putFileDone 0 false),
      .send (.movieURLDone 0 none (some []) 8), .send (.objectStored 0),
      .send (.putDataDone 0 true), .send (.imageURLDone 0 (some "thumnail") "k" 0),
      .send (.recordApplied 0)]

/-- **A record of a failed upload**: it has no `video_url`, and the placeholder
for a link. -/
theorem failedVideo_recorded : ∃ w, Runs failedVideo w ∧ ¬ FailsSafe failedVideo w 0 ∧
    w.db.valueAt ["mess", "k", "link_video"] = some (.str "link_video") ∧
      w.db.valueAt ["mess", "k", "video_url"] = none := by
  let b : RecordBlock := ⟨.video none "thumnail", "k", some "a", some "b", 0⟩
  have hrun : ((Transition.run step init failedVideo).map fun w =>
      decide (w.block 0 = some b ∧ w.db.Present ["mess", "k"] ∧
        w.db.valueAt ["mess", "k", "link_video"] = some (.str "link_video") ∧
          w.db.valueAt ["mess", "k", "video_url"] = none)) = some true := by
    decide +kernel
  obtain ⟨w, hw, h⟩ := Option.map_eq_some_iff.mp hrun
  obtain ⟨hb, hp, hlink, hurl⟩ := of_decide_eq_true h
  refine ⟨w, hw, fun hsafe => ?_, hlink, hurl⟩
  obtain ⟨link, hnone, -⟩ := hsafe.record b hb hp
  cases hnone

end World

end AppChat
