import AppChat.Chat.Storage
import AppChat.System.Pipeline

/-!
What the uploads leave in the storage.

* `uploads`, `objects`, `links`: the uploads a run begins, with what their paths
  are drawn from; the objects that reach the storage; and the download URLs that
  are answered, with the path of the object.
* `MediaOk`: every object comes from an upload that was begun, the storage holds
  the content of some upload to each path, and the links of every record were
  taken from an object of its send. Every step keeps this, `MediaOk.step`.
* `Kept`: no upload writes over another content, and every link of a message
  leads to the content that was uploaded for it.
* `kept_iff`: this holds of a run exactly when no two uploads of different
  content that reach the storage are drawn the same.
-/

namespace AppChat

open SlashPath Transition

namespace World

/-! ### The events of the uploads -/

/-- What the path of an image is drawn from. -/
def imageDraw (w : World) (ch : ChatLogmessage) (random : ℕ) : Draw :=
  .image ((w.devices ch.device).currentUser.map AuthUser.email) (ch.user.map User.email) random

/-- An upload is begun: the send, the draw and the content. -/
def uploadEvent (w : World) : Action → Option (SendId × Draw × Media)
  | .send (.pickImage i c random image) =>
      (w.chats c).map fun ch => (i, w.imageDraw ch random, image)
  | .send (.pickVideo i _ random movie) => some (i, .movie random, movie)
  | .send (.movieURLDone i _ (some image) random) =>
      (w.sends i).bind fun s => (w.chats s.chat).map fun ch => (i, w.imageDraw ch random, image)
  | _ => none

/-- An object reaches the storage: the send, the path and the content. -/
def objectEvent (w : World) : Action → Option (SendId × String × Media)
  | .send (.objectStored i) =>
      (w.sends i).bind fun s =>
        match s.stage with
        | .putFile path movie _ => some (i, path, movie)
        | .putData path image _ _ => some (i, path, image)
        | _ => none
  | _ => none

/-- A download URL is answered: the send, the path of the object and the URL. -/
def linkEvent (w : World) : Action → Option (SendId × String × String)
  | .send (.movieURLDone i (some url) _ _) =>
      (w.sends i).bind fun s =>
        match s.stage with
        | .movieURL path _ => some (i, path, url)
        | _ => none
  | .send (.imageURLDone i (some url) _ _) =>
      (w.sends i).bind fun s =>
        match s.stage with
        | .imageURL path _ => some (i, path, url)
        | _ => none
  | _ => none

/-- The uploads the run begins. -/
def uploads (as : List Action) : List (SendId × Draw × Media) := trace step uploadEvent init as

/-- The objects that reach the storage in the run. -/
def objects (as : List Action) : List (SendId × String × Media) := trace step objectEvent init as

/-- The download URLs that are answered in the run. -/
def links (as : List Action) : List (SendId × String × String) := trace step linkEvent init as

/-! ### Avatars -/

variable {w w' : World} {as : List Action}

/-- Registrations upload to the paths of avatars. -/
def AvatarsOk (w : World) : Prop :=
  ∀ s g uid path image stored, w.signups s = some g → g.stage = .putData uid path image stored →
    ∃ email, path = avatarPath email

lemma AvatarsOk.of_eq (hw : AvatarsOk w) (h : w'.signups = w.signups) : AvatarsOk w' :=
  fun s g uid path image stored hg hst => hw s g uid path image stored (h ▸ hg) hst

lemma AvatarsOk.of_update (hw : AvatarsOk w) {s : SignupId} {g : Signup}
    (h : w'.signups = Function.update w.signups s (some g))
    (hg : ∀ uid path image stored, g.stage = .putData uid path image stored →
      ∃ email, path = avatarPath email) : AvatarsOk w' := by
  intro s' g' uid path image stored hs' hst
  rcases update_eq_some (h ▸ hs') with ⟨rfl, rfl⟩ | ⟨-, hs'⟩
  · exact hg uid path image stored hst
  · exact hw s' g' uid path image stored hs' hst

lemma avatarPath_eq (email : String) : avatarPath email = "Image_Avatar:/" ++ (email ++ ".jpg") :=
  String.append_assoc

/-- A path of an avatar is no path of the chat. -/
lemma standardized_avatarPath_ne (email : String) (d : Draw) :
    standardized (avatarPath email) ≠ standardized d.path := by
  obtain ⟨l, L, hl⟩ : ∃ l L, components (avatarPath email) = ('I' :: l) :: L := by
    rw [avatarPath_eq]
    exact head_components rfl (by decide)
  rw [Ne, standardized_eq_iff, hl]
  intro h
  cases d with
  | movie n =>
      rw [Draw.path, Draw.components_moviePath] at h
      have hchar : 'I' = 'm' := (List.cons.inj (List.cons.inj h).1).1
      exact absurd hchar (by decide)
  | image c u n =>
      obtain ⟨l', L', hl'⟩ := Draw.head_chatImagePath c u n
      rw [Draw.path, hl'] at h
      have hchar : 'I' = 'C' := (List.cons.inj (List.cons.inj h).1).1
      exact absurd hchar (by decide)

/-- The answer to `createUser` begins the upload of an avatar, or nothing. -/
lemma createUserDone_avatar (hw : AvatarsOk w) (s : SignupId) (g : Signup) (r : Register)
    (uid : String) : AvatarsOk (w.createUserDone s g r uid) ∧
      (w.createUserDone s g r uid).storage = w.storage := by
  unfold createUserDone
  split_ifs
  · split
    · exact ⟨hw.of_update rfl (by simp), rfl⟩
    · refine ⟨hw.of_update rfl fun uid' path image stored hst => ?_, rfl⟩
      obtain ⟨-, rfl, -⟩ : _ ∧ avatarPath r.txtemail = path ∧ _ := by simpa using hst
      exact ⟨_, rfl⟩
  · exact ⟨hw.of_update rfl (by simp), rfl⟩

/-- **A registration writes to the path of an avatar only.** -/
lemma registerStep_storage {a : RegisterAction} (hw : AvatarsOk w)
    (h : w.registerStep a = some w') :
    AvatarsOk w' ∧ (w'.storage = w.storage ∨ ∃ email image,
      w'.storage = Function.update w.storage (standardized (avatarPath email)) (some image)) := by
  rcases registerStep_cases h with ⟨_, rfl⟩ | ⟨s, g, storage, ⟨-, hstorage, hstage⟩, rfl⟩ |
    ⟨s, g, r, uid, -, rfl⟩ | ⟨s, g, uid, user, -, -, rfl⟩
  · exact ⟨hw, Or.inl rfl⟩
  · refine ⟨hw.of_update rfl fun uid path image stored hst => ?_, ?_⟩
    · obtain ⟨g₀, stored₀, hg₀, hst₀⟩ := hstage uid path image stored hst
      exact hw s g₀ uid path image stored₀ hg₀ hst₀
    · rcases hstorage with hsame | ⟨g₀, uid, path, image, stored, hg₀, hst₀, hstored⟩
      · exact Or.inl hsame
      · obtain ⟨email, rfl⟩ := hw s g₀ uid path image stored hg₀ hst₀
        exact Or.inr ⟨email, image, hstored⟩
  · obtain ⟨havatars, hstorage⟩ := createUserDone_avatar hw s g r uid
    exact ⟨havatars, Or.inl hstorage⟩
  · exact ⟨hw.of_update rfl (by simp), Or.inl rfl⟩

/-! ### Where the objects and the links come from -/

/-- An upload of the send `i` to `path` has been begun, with this content. -/
def Begun (as : List Action) (i : SendId) (path : String) (content : Media) : Prop :=
  ∃ d, (i, d, content) ∈ uploads as ∧ d.path = path

/-- The link of the send `i` was taken from an object that its upload has
stored, unless `putFile` has failed. -/
def Linked (as : List Action) (i : SendId) (url : String) : Prop :=
  ∃ path, (i, path, url) ∈ links as ∧
    ((∃ content, (i, path, content) ∈ objects as) ∨ .send (.putFileDone i false) ∈ as)

/-- What a stage knows of the uploads and the links of its send. -/
def StageMedia (as : List Action) (i : SendId) : Stage → Prop
  | .putFile path movie stored =>
      Begun as i path movie ∧ (stored = true → (i, path, movie) ∈ objects as)
  | .movieURL path movie =>
      (i, path, movie) ∈ objects as ∨ .send (.putFileDone i false) ∈ as
  | .putData path image stored completion =>
      Begun as i path image ∧ (stored = true → (i, path, image) ∈ objects as) ∧
        ∀ link, completion = .videoSend (some link) → Linked as i link
  | .imageURL path completion =>
      (∃ image, (i, path, image) ∈ objects as) ∧
        ∀ link, completion = .videoSend (some link) → Linked as i link
  | .aborted => True
  | .record b _ => ∀ field url, (field, url) ∈ b.payload.links → Linked as i url
  | .index b .. => ∀ field url, (field, url) ∈ b.payload.links → Linked as i url

/-- A stage with a record knows where its links come from. -/
lemma stageMedia_iff {i : SendId} {st : Stage} {b : RecordBlock} (h : st.block = some b) :
    StageMedia as i st ↔ ∀ field url, (field, url) ∈ b.payload.links → Linked as i url := by
  cases st with
  | record c st =>
      obtain rfl := Option.some.inj h
      rfl
  | index c f t st =>
      obtain rfl := Option.some.inj h
      rfl
  | _ => cases h

/-- The links of a payload are the image's and that of the movie. -/
lemma linked_payload {i : SendId} {completion : ImageCompletion} {url : String}
    (hurl : Linked as i url)
    (hmovie : ∀ link, completion = .videoSend (some link) → Linked as i link)
    {field link : String} (h : (field, link) ∈ (payload completion url).links) :
    Linked as i link := by
  cases completion with
  | imageSend =>
      obtain ⟨-, rfl⟩ : field = "image_url" ∧ link = url := by
        simpa [payload, Payload.links] using h
      exact hurl
  | videoSend linkVideo =>
      rw [payload, Payload.links, List.mem_cons] at h
      rcases h with h | h
      · obtain ⟨-, rfl⟩ := Prod.mk.inj h
        exact hurl
      · obtain ⟨rfl, -⟩ : linkVideo = some link ∧ "video_url" = field := by
          simpa [and_comm] using h
        exact hmovie link rfl

/-- The events of `bs` go on from those of `as`. -/
structure Grows (as bs : List Action) : Prop where
  uploads : uploads as ⊆ uploads bs
  objects : objects as ⊆ objects bs
  links : links as ⊆ links bs
  actions : as ⊆ bs

lemma grows_concat (h : Runs as w) (a : Action) : Grows as (as ++ [a]) :=
  ⟨trace_subset_concat a h, trace_subset_concat a h, trace_subset_concat a h,
    List.subset_append_left _ _⟩

namespace Grows

variable {bs : List Action} {i : SendId}

lemma begun (hg : Grows as bs) {path : String} {content : Media} (h : Begun as i path content) :
    Begun bs i path content := by
  obtain ⟨d, hd, hpath⟩ := h
  exact ⟨d, hg.uploads hd, hpath⟩

lemma linked (hg : Grows as bs) {url : String} (h : Linked as i url) : Linked bs i url := by
  obtain ⟨path, hlink, hobject⟩ := h
  refine ⟨path, hg.links hlink, ?_⟩
  rcases hobject with ⟨content, hobject⟩ | hfailed
  · exact Or.inl ⟨content, hg.objects hobject⟩
  · exact Or.inr (hg.actions hfailed)

/-- What a stage knows stays true. -/
lemma stageMedia (hg : Grows as bs) {st : Stage} (h : StageMedia as i st) :
    StageMedia bs i st := by
  cases st with
  | putFile path movie stored => exact ⟨hg.begun h.1, fun hst => hg.objects (h.2 hst)⟩
  | movieURL path movie => exact h.imp (fun h => hg.objects h) fun h => hg.actions h
  | putData path image stored completion =>
      exact ⟨hg.begun h.1, fun hst => hg.objects (h.2.1 hst),
        fun link hlink => hg.linked (h.2.2 link hlink)⟩
  | imageURL path completion =>
      obtain ⟨⟨image, hobject⟩, hlinks⟩ := h
      exact ⟨⟨image, hg.objects hobject⟩, fun link hlink => hg.linked (hlinks link hlink)⟩
  | aborted => trivial
  | record b st => exact fun field url hurl => hg.linked (h field url hurl)
  | index b f t st => exact fun field url hurl => hg.linked (h field url hurl)

end Grows

/-- The uploads, the objects and the links of a run. -/
structure MediaOk (as : List Action) (w : World) : Prop where
  begun : ∀ i path content, (i, path, content) ∈ objects as → Begun as i path content
  storage : ∀ i path content, (i, path, content) ∈ objects as →
    ∃ j path' content', (j, path', content') ∈ objects as ∧
      standardized path' = standardized path ∧ w.storage (standardized path) = some content'
  stage : ∀ i s, w.sends i = some s → StageMedia as i s.stage
  avatars : AvatarsOk w

/-- What the stage of a send knows. -/
lemma MediaOk.stage_of (hw : MediaOk as w) {i : SendId} {s : Send} {st : Stage}
    (hs : w.sends i = some s) (hst : s.stage = st) : StageMedia as i st :=
  hst ▸ hw.stage i s hs

/-- A step of a send leaves the storage alone, or stores the object of an upload
that was begun. -/
lemma MediaOk.sendStep_storage (hw : MediaOk as w) {a : SendAction} (h : w.sendStep a = some w') :
    (w.objectEvent (.send a) = none ∧ w'.storage = w.storage) ∨
    ∃ i path content, w.objectEvent (.send a) = some (i, path, content) ∧
      Begun as i path content ∧
        w'.storage = Function.update w.storage (standardized path) (some content) := by
  cases sendStep_moves h with
  | movieStored i s path movie stored hs hst =>
      exact Or.inr ⟨i, path, movie, by simp [objectEvent, hs, hst], (hw.stage_of hs hst).1, rfl⟩
  | imageStored i s path image stored completion hs hst =>
      exact Or.inr ⟨i, path, image, by simp [objectEvent, hs, hst], (hw.stage_of hs hst).1, rfl⟩
  | _ => exact Or.inl ⟨rfl, rfl⟩

/-- **What a step does to the storage**: nothing, or an avatar, or the object of
an upload that was begun. -/
lemma step_storage (hw : MediaOk as w) {a : Action} (h : w.step a = some w') :
    (w.objectEvent a = none ∧ (w'.storage = w.storage ∨ ∃ email image,
      w'.storage = Function.update w.storage (standardized (avatarPath email)) (some image))) ∨
    ∃ i path content, w.objectEvent a = some (i, path, content) ∧ Begun as i path content ∧
      w'.storage = Function.update w.storage (standardized path) (some content) := by
  cases a with
  | auth a =>
      obtain ⟨devices, rfl⟩ := authStep_cases h
      exact Or.inl ⟨rfl, Or.inl rfl⟩
  | register a => exact Or.inl ⟨rfl, (registerStep_storage hw.avatars h).2⟩
  | screen a =>
      obtain ⟨devices, chats, rfl⟩ := screenStep_cases h
      exact Or.inl ⟨rfl, Or.inl rfl⟩
  | delete a =>
      obtain ⟨-, -, hstorage⟩ := deleteStep_leaves h
      exact Or.inl ⟨rfl, Or.inl hstorage⟩
  | send a =>
      rcases hw.sendStep_storage h with ⟨hnone, hstorage⟩ | hobject
      · exact Or.inl ⟨hnone, Or.inl hstorage⟩
      · exact Or.inr hobject

/-- A step that starts a send, or moves it on, to a stage that knows enough. -/
lemma MediaOk.stage_of_update (hw : MediaOk as w) {bs : List Action} (hg : Grows as bs)
    {j : SendId} {s : Send} (hsends : w'.sends = Function.update w.sends j (some s))
    (hj : StageMedia bs j s.stage) {i : SendId} {r : Send} (hi : w'.sends i = some r) :
    StageMedia bs i r.stage := by
  rcases update_eq_some (hsends ▸ hi) with ⟨rfl, rfl⟩ | ⟨-, hi⟩
  · exact hj
  · exact hg.stageMedia (hw.stage i r hi)

/-- A send that goes on with its record knows as much as before. -/
lemma MediaOk.stage_of_goOn (hw : MediaOk as w) {bs : List Action} (hg : Grows as bs)
    {j : SendId} {s s' : Send} {b : RecordBlock} (hs : w.sends j = some s)
    (hb : s.stage.block = some b) (hb' : s'.stage.block = some b)
    (hsends : w'.sends = Function.update w.sends j (some s')) {i : SendId} {r : Send}
    (hi : w'.sends i = some r) : StageMedia bs i r.stage := by
  refine hw.stage_of_update hg hsends ((stageMedia_iff hb').mpr fun field url hurl => ?_) hi
  exact hg.linked ((stageMedia_iff hb).mp (hw.stage j s hs) field url hurl)

/-- **The step of a send keeps what the stages know.** -/
lemma MediaOk.sendStep_stage (hw : MediaOk as w) (hr : Runs as w) {a : SendAction}
    (h : w.sendStep a = some w') {i : SendId} {r : Send} (hi : w'.sends i = some r) :
    StageMedia (as ++ [.send a]) i r.stage := by
  have hg := grows_concat hr (.send a)
  cases sendStep_moves h with
  | textStops => exact hg.stageMedia (hw.stage i r hi)
  | text j c key now ch user hch hu hj hkey =>
      exact hw.stage_of_update hg rfl (by simp [StageMedia, Payload.links]) hi
  | pickImage j c random image ch hch hj =>
      have hevent : w.uploadEvent (.send (.pickImage j c random image)) =
          some (j, w.imageDraw ch random, image) := by
        simp [uploadEvent, hch]
      refine hw.stage_of_update hg rfl ?_ hi
      refine ⟨?_, by simp, by simp⟩
      exact ⟨_, (mem_trace_concat hr).mpr (Or.inr hevent), rfl⟩
  | pickVideo j c random movie ch hch hj =>
      refine hw.stage_of_update hg rfl ?_ hi
      refine ⟨?_, by simp⟩
      exact ⟨.movie random, (mem_trace_concat hr).mpr (Or.inr rfl), rfl⟩
  | movieStored j s path movie stored hs hst =>
      have hstage := hw.stage_of hs hst
      have hevent : w.objectEvent (.send (.objectStored j)) = some (j, path, movie) := by
        simp [objectEvent, hs, hst]
      refine hw.stage_of_update hg rfl ?_ hi
      exact ⟨hg.begun hstage.1, fun _ => (mem_trace_concat hr).mpr (Or.inr hevent)⟩
  | imageStored j s path image stored completion hs hst =>
      have hstage := hw.stage_of hs hst
      have hevent : w.objectEvent (.send (.objectStored j)) = some (j, path, image) := by
        simp [objectEvent, hs, hst]
      refine hw.stage_of_update hg rfl ?_ hi
      exact ⟨hg.begun hstage.1, fun _ => (mem_trace_concat hr).mpr (Or.inr hevent),
        fun link hlink => hg.linked (hstage.2.2 link hlink)⟩
  | putFileDone j ok s path movie stored hs hst hrun hok =>
      have hstage := hw.stage_of hs hst
      refine hw.stage_of_update hg rfl ?_ hi
      cases ok with
      | true => exact Or.inl (hg.objects (hstage.2 (hok rfl)))
      | false => exact Or.inr (List.mem_append_right _ (List.mem_singleton_self _))
  | movieURLStops => exact hg.stageMedia (hw.stage i r hi)
  | movieURLDone j url image random s ch path movie hs hst hch =>
      have hstage := hw.stage_of hs hst
      have hupload : w.uploadEvent (.send (.movieURLDone j url (some image) random)) =
          some (j, w.imageDraw ch random, image) := by
        simp [uploadEvent, hs, hch]
      refine hw.stage_of_update hg rfl ?_ hi
      refine ⟨?_, by simp, fun link hlink => ?_⟩
      · exact ⟨_, (mem_trace_concat hr).mpr (Or.inr hupload), rfl⟩
      · obtain rfl : url = some link := by simpa using hlink
        have hlink : w.linkEvent (.send (.movieURLDone j (some link) (some image) random)) =
            some (j, path, link) := by
          simp [linkEvent, hs, hst]
        refine ⟨path, (mem_trace_concat hr).mpr (Or.inr hlink), ?_⟩
        rcases hstage with hobject | hfailed
        · exact Or.inl ⟨movie, hg.objects hobject⟩
        · exact Or.inr (hg.actions hfailed)
  | putDataDone j ok s path image stored completion hs hst hrun hok =>
      have hstage := hw.stage_of hs hst
      refine hw.stage_of_update hg rfl ?_ hi
      cases ok with
      | true =>
          exact ⟨⟨image, hg.objects (hstage.2.1 (hok rfl))⟩,
            fun link hlink => hg.linked (hstage.2.2 link hlink)⟩
      | false => trivial
  | imageURLFails j key now s path completion hs hst =>
      refine hw.stage_of_update hg rfl ?_ hi
      trivial
  | imageStops => exact hg.stageMedia (hw.stage i r hi)
  | media j url key now s ch path completion b hs hst hch hu hkey hfrom hto hpayload =>
      obtain ⟨⟨image, hobject⟩, hlinks⟩ := hw.stage_of hs hst
      have hlink : w.linkEvent (.send (.imageURLDone j (some url) key now)) =
          some (j, path, url) := by
        simp [linkEvent, hs, hst]
      have hurl : Linked (as ++ [.send (.imageURLDone j (some url) key now)]) j url :=
        ⟨path, (mem_trace_concat hr).mpr (Or.inr hlink), Or.inl ⟨image, hg.objects hobject⟩⟩
      refine hw.stage_of_update hg rfl ?_ hi
      intro field link hmem
      rw [hpayload] at hmem
      exact linked_payload hurl (fun link hlink => hg.linked (hlinks link hlink)) hmem
  | recordApplied j s b hs hst =>
      exact hw.stage_of_goOn hg hs (by rw [hst]; rfl) rfl rfl hi
  | recordFailed j s b hs hst =>
      exact hw.stage_of_goOn hg hs (by rw [hst]; rfl) rfl rfl hi
  | recordDone j s ch b f t hs hch hst =>
      exact hw.stage_of_goOn hg hs (by rw [hst]; rfl) rfl rfl hi
  | recordDoneStops => exact hg.stageMedia (hw.stage i r hi)
  | videoDoneStops j s ch b f hs hch hst =>
      exact hw.stage_of_goOn hg hs (by rw [hst]; rfl) rfl rfl hi
  | indexApplied j side s b f t st hs hst =>
      exact hw.stage_of_goOn hg hs (by rw [hst]; rfl) rfl rfl hi
  | indexFailed j side s b f t st hs hst =>
      exact hw.stage_of_goOn hg hs (by rw [hst]; rfl) rfl rfl hi

/-- Every step keeps the registrations to the paths of avatars. -/
lemma AvatarsOk.step (hw : AvatarsOk w) {a : Action} (h : w.step a = some w') : AvatarsOk w' := by
  cases a with
  | auth a =>
      obtain ⟨devices, rfl⟩ := authStep_cases h
      exact hw
  | register a => exact (registerStep_storage hw h).1
  | screen a =>
      obtain ⟨devices, chats, rfl⟩ := screenStep_cases h
      exact hw
  | send a => exact hw.of_eq (sendStep_frame h).signups
  | delete a => exact hw.of_eq (deleteStep_frame h).signups

/-- An object that reaches the storage comes from an upload that was begun. -/
lemma MediaOk.step_begun (hw : MediaOk as w) (hr : Runs as w) {a : Action}
    (h : w.step a = some w') {i : SendId} {path : String} {content : Media}
    (hobject : (i, path, content) ∈ objects (as ++ [a])) : Begun (as ++ [a]) i path content := by
  have hg := grows_concat hr a
  rcases (mem_trace_concat hr).mp hobject with hobject | hevent
  · exact hg.begun (hw.begun i path content hobject)
  · rcases step_storage hw h with ⟨hnone, -⟩ | ⟨j, path', content', hsome, hbegun, -⟩
    · rw [hnone] at hevent
      cases hevent
    · rw [hsome] at hevent
      obtain ⟨rfl, rfl, rfl⟩ : j = i ∧ path' = path ∧ content' = content := by
        simpa using hevent
      exact hg.begun hbegun

/-- The storage holds an object at the path of every object. -/
lemma MediaOk.holds (hw : MediaOk as w) :
    EventLog.Holds (fun o : SendId × String × Media => standardized o.2.1) (fun o => o.2.2)
      (objects as) w.storage := by
  rintro ⟨i, path, content⟩ hobject
  obtain ⟨j, path', content', hmem, hpath, hstorage⟩ := hw.storage i path content hobject
  exact ⟨(j, path', content'), hmem, hpath, hstorage⟩

/-- **What the storage holds after a step**, at the path of every object: the
content of an object that was written to the same path. -/
lemma MediaOk.step_stored (hw : MediaOk as w) (hr : Runs as w) {a : Action}
    (h : w.step a = some w') {i : SendId} {path : String} {content : Media}
    (hobject : (i, path, content) ∈ objects (as ++ [a])) :
    ∃ j path' content', (j, path', content') ∈ objects (as ++ [a]) ∧
      standardized path' = standardized path ∧ w'.storage (standardized path) = some content' := by
  have hholds : EventLog.Holds (fun o : SendId × String × Media => standardized o.2.1)
      (fun o => o.2.2) (objects (as ++ [a])) w'.storage := by
    rw [objects, trace_concat hr]
    refine hw.holds.concat _ (fun hnone => ?_) fun o ho => ?_
    · rintro ⟨j, path', content'⟩ hmem
      rcases step_storage hw h with ⟨-, hsame | ⟨email, image, hstorage⟩⟩ | ⟨_, _, _, hsome, -⟩
      · rw [hsame]
      · -- an avatar, which is no object of a send
        obtain ⟨d, -, rfl⟩ := hw.begun j path' content' hmem
        rw [hstorage, Function.update_of_ne (standardized_avatarPath_ne email d).symm]
      · rw [hsome] at hnone
        cases hnone
    · rcases step_storage hw h with ⟨hnone, -⟩ | ⟨j, path', content', hsome, -, hstorage⟩
      · rw [hnone] at ho
        cases ho
      · obtain rfl : (j, path', content') = o := Option.some.inj (hsome.symm.trans ho)
        exact hstorage
  obtain ⟨⟨j, path', content'⟩, hmem, hpath, hstorage⟩ := hholds _ hobject
  exact ⟨j, path', content', hmem, hpath, hstorage⟩

/-- **Every step keeps the uploads, the objects and the links in order.** -/
lemma MediaOk.step (hw : MediaOk as w) (hr : Runs as w) {a : Action} (h : w.step a = some w') :
    MediaOk (as ++ [a]) w' := by
  have hg := grows_concat hr a
  refine ⟨fun i path content hobject => hw.step_begun hr h hobject,
    fun i path content hobject => hw.step_stored hr h hobject, fun i s hi => ?_,
    hw.avatars.step h⟩
  cases a with
  | auth a =>
      obtain ⟨devices, rfl⟩ := authStep_cases h
      exact hg.stageMedia (hw.stage i s hi)
  | register a => exact hg.stageMedia (hw.stage i s ((registerStep_leaves h).2 ▸ hi))
  | screen a => exact hg.stageMedia (hw.stage i s ((screenStep_keepsScreens h).2 ▸ hi))
  | send a => exact hw.sendStep_stage hr h hi
  | delete a => exact hg.stageMedia (hw.stage i s ((deleteStep_leaves h).2.1 ▸ hi))

lemma Runs.mediaOk (h : Runs as w) : MediaOk as w := by
  refine run_induction ?_ (fun as v a v' hv ih hstep => ih.step hv hstep) h
  exact ⟨by simp [objects, trace], by simp [objects, trace], by simp [init],
    by simp [AvatarsOk, init]⟩

/-! ### What is stored stays -/

/-- Stored media is never overwritten: no object is written to a path that an
object of another content was written to; and every `image_url` and `video_url`
in the database is a link of the message's own send, and the object it was taken
from still holds the content uploaded for it. (A link taken after a failed
`putFile` is one to no object of the send.) -/
structure Kept (as : List Action) (w : World) : Prop where
  objects : (objects as).Pairwise fun o o' =>
    standardized o.2.1 = standardized o'.2.1 → o.2.2 = o'.2.2
  messages : ∀ k field url, field = "image_url" ∨ field = "video_url" →
    w.db.valueAt ["mess", k, field] = some (.str url) →
      ∃ i b, w.block i = some b ∧ b.key = k ∧ Linked as i url ∧
        ∀ path content, (i, path, url) ∈ links as → (i, path, content) ∈ World.objects as →
          w.storage (standardized path) = some content

/-- The object of an upload has reached the storage. -/
def Reached (as : List Action) (u : SendId × Draw × Media) : Prop :=
  (u.1, u.2.1.path, u.2.2) ∈ objects as

/-- No two uploads of different content that reach the storage are drawn the
same. -/
def DrawnApart (as : List Action) : Prop :=
  ∀ u ∈ uploads as, ∀ u' ∈ uploads as, Reached as u → Reached as u' → u.2.1.Same u'.2.1 →
    u.2.2 = u'.2.2

/-- Uploads drawn apart write to one path one content only. -/
lemma DrawnApart.eq_of_standardized (hd : DrawnApart as) (h : Runs as w) {i j : SendId}
    {path path' : String} {content content' : Media} (hi : (i, path, content) ∈ objects as)
    (hj : (j, path', content') ∈ objects as) (hpath : standardized path = standardized path') :
    content = content' := by
  obtain ⟨d, hup, rfl⟩ := h.mediaOk.begun i path content hi
  obtain ⟨d', hup', rfl⟩ := h.mediaOk.begun j path' content' hj
  exact hd _ hup _ hup' hi hj (Draw.same_iff.mpr hpath)

/-- The links of a record are those of its send. -/
lemma linked_of_block (h : Runs as w) {i : SendId} {b : RecordBlock} (hb : w.block i = some b)
    {field url : String} (hurl : (field, url) ∈ b.payload.links) : Linked as i url := by
  obtain ⟨s, hs, ⟨st, hst⟩ | ⟨f, t, st, hst⟩⟩ := exists_stage_of_block hb
  · exact h.mediaOk.stage_of hs hst field url hurl
  · exact h.mediaOk.stage_of hs hst field url hurl

/-- **When stored media is never overwritten**: at the end of every run, if and
only if no two uploads of different content that have reached the storage were
drawn the same, two videos with one number, or two images with one number and one
folder. -/
theorem kept_iff (h : Runs as w) : Kept as w ↔ DrawnApart as := by
  constructor
  · intro hkept u _ u' _ hu hu' hsame
    have hsymm : Std.Symm fun o o' : SendId × String × Media =>
        standardized o.2.1 = standardized o'.2.1 → o.2.2 = o'.2.2 :=
      ⟨fun o o' himp hpath => (himp hpath.symm).symm⟩
    exact hkept.objects.forall_of_forall (fun _ _ _ => rfl) hu hu' (Draw.same_iff.mp hsame)
  · intro hd
    refine ⟨?_, fun k field url hfield hvalue => ?_⟩
    · refine List.Pairwise.imp_of_mem (fun hi hj _ => hd.eq_of_standardized h hi hj)
        (List.pairwise_of_forall fun _ _ => trivial)
    · obtain ⟨j, b, f, hacc, hq, hdata⟩ :=
        h.consistent.index.mess [k, field] _ (PathTree.valueAt_eq_some_iff.mp hvalue)
      obtain ⟨rfl, rfl⟩ : k = b.key ∧ field = f := by simpa using hq
      have hlinked := linked_of_block h hacc.block (RecordBlock.mem_links_iff.mpr ⟨hfield, hdata⟩)
      refine ⟨j, b, hacc.block, rfl, hlinked, fun path content _ hmem => ?_⟩
      -- what is stored there is the content of an upload to the same path
      obtain ⟨i, path', content', hmem', hpath, hstorage⟩ :=
        h.mediaOk.storage j path content hmem
      rw [hstorage, hd.eq_of_standardized h hmem' hmem hpath]

/-- A video with its thumbnail, another video and an image, under different
numbers and with different contents. -/
def fourUploads : List Action :=
  registration 0 "a" ++ registration 1 "b" ++ newmessage 0 0 "b" ++
    [.send (.pickVideo 0 0 7 [1, 2]), .send (.objectStored 0), .send (.putFileDone 0 true),
      .send (.movieURLDone 0 (some "movie") (some [3]) 0), .send (.objectStored 0),
      .send (.putDataDone 0 true), .send (.imageURLDone 0 (some "thumnail") "k" 0),
      .send (.recordApplied 0), .send (.pickVideo 1 0 8 [4]), .send (.objectStored 1),
      .send (.pickImage 2 0 9 [5, 6]), .send (.objectStored 2)]

/-- They are all kept. -/
theorem kept_fourUploads : ∃ w, Runs fourUploads w ∧ Kept fourUploads w ∧
    (objects fourUploads).map (fun o => o.2.2) = [[1, 2], [3], [4], [5, 6]] := by
  have hrun : (Transition.run step init fourUploads).isSome = true := by decide +kernel
  obtain ⟨w, hw⟩ := Option.isSome_iff_exists.mp hrun
  have huploads : uploads fourUploads = [(0, .movie 7, [1, 2]),
      (0, .image (some "a") (some "b") 0, [3]), (1, .movie 8, [4]),
      (2, .image (some "a") (some "b") 9, [5, 6])] := by
    decide +kernel
  have hapart : ∀ u ∈ uploads fourUploads, ∀ u' ∈ uploads fourUploads, u.2.1.Same u'.2.1 →
      u.2.2 = u'.2.2 := by
    rw [huploads]
    simp [Draw.Same]
  refine ⟨w, hw, (kept_iff hw).mpr fun u hu u' hu' _ _ => hapart u hu u' hu', ?_⟩
  decide +kernel

/-- After the first video another one is uploaded, and `Int.random` returns the
same number. -/
def secondVideo : List Action :=
  firstVideo ++ [.send (.pickVideo 1 0 7 [1]), .send (.objectStored 1)]

/-- **An overwritten video**: the `video_url` of the first message leads to the
content of the second upload. -/
theorem secondVideo_overwrites : ∃ w, Runs secondVideo w ∧ ¬ Kept secondVideo w ∧
    w.db.valueAt ["mess", "k", "video_url"] = some (.str "movie") ∧
      (0, moviePath 7, "movie") ∈ links secondVideo ∧
        (0, moviePath 7, []) ∈ objects secondVideo ∧
          w.storage (standardized (moviePath 7)) = some [1] := by
  have hrun : ((Transition.run step init secondVideo).map fun w =>
      decide (w.db.valueAt ["mess", "k", "video_url"] = some (.str "movie") ∧
        (0, moviePath 7, "movie") ∈ links secondVideo ∧
          (0, moviePath 7, []) ∈ objects secondVideo ∧
            w.storage (standardized (moviePath 7)) = some [1])) = some true := by
    decide +kernel
  have hsub : [(0, moviePath 7, []), (1, moviePath 7, [1])].Sublist (objects secondVideo) := by
    decide +kernel
  obtain ⟨w, hw, h⟩ := Option.map_eq_some_iff.mp hrun
  refine ⟨w, hw, fun hkept => ?_, of_decide_eq_true h⟩
  have hsame := (List.pairwise_cons.mp (hkept.objects.sublist hsub)).1 _ List.mem_cons_self rfl
  cases hsame

end World

end AppChat
