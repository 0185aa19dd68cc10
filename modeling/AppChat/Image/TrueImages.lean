import AppChat.Image.LoadImage

/-!
What the image cache holds.

When a download fails, the block goes on with the data of the default image and
enters that in the cache, under the URL that has not been fetched.

* `Fetched`: an image that has been decoded from data fetched from a URL.
* `OnlyTrue`: the cache holds fetched images only, so a URL without a fetched
  image is fetched again, and its image is shown once a fetch succeeds.
* `onlyTrue_iff`: this holds in every state of a run exactly when no download
  fails that would enter the default image.
-/

namespace AppChat

namespace ImageViews

variable {V Img Data : Type} [DecidableEq V] {isURL : String → Bool}
  {decode : Data → Option Img} {imagedefault : Data} {s t : ImageViews V Img}

/-- The image has been decoded from data fetched from `text`. -/
def Fetched (decode : Data → Option Img) (as : List (ImageAction V Data)) (text : String)
    (img : Img) : Prop :=
  ∃ view data, ImageAction.downloaded view text (some data) ∈ as ∧ decode data = some img

/-- The cache of the state `s`, reached by `as`, holds fetched images only. A
URL of which no image has been fetched is fetched again by the next call, and an
image is shown as soon as it is fetched. -/
structure OnlyTrue (isURL : String → Bool) (decode : Data → Option Img) (imagedefault : Data)
    (as : List (ImageAction V Data)) (s : ImageViews V Img) : Prop where
  entries : ∀ text img, s.cache text = some img → Fetched decode as text img
  refetches : ∀ view text, (∀ img, ¬ Fetched decode as text img) →
    s.step isURL decode imagedefault (.loadImage view text) =
      some { s with downloads := s.downloads ++ [(view, text)] }
  shows : ∀ view text data img t, decode data = some img →
    s.step isURL decode imagedefault (.downloaded view text (some data)) = some t →
      t.image view = some img

omit [DecidableEq V] in
lemma Fetched.append_right {as : List (ImageAction V Data)} {text : String} {img : Img}
    (h : Fetched decode as text img) (bs : List (ImageAction V Data)) :
    Fetched decode (as ++ bs) text img := by
  obtain ⟨view, data, hmem, hdec⟩ := h
  exact ⟨view, data, List.mem_append_left _ hmem, hdec⟩

/-- If the cache holds fetched images only, the rest follows. -/
lemma onlyTrue_of_entries {as : List (ImageAction V Data)}
    (h : ∀ text img, s.cache text = some img → Fetched decode as text img) :
    OnlyTrue isURL decode imagedefault as s := by
  refine ⟨h, fun view text hnone => ?_, fun view text data img t hdec hstep => ?_⟩
  · have hcache : s.cache text = none := by
      by_contra hne
      obtain ⟨img, himg⟩ := Option.ne_none_iff_exists'.mp hne
      exact hnone img (h text img himg)
    rw [step, loadImage_of_not_cached hcache]
  · simp only [step, Option.ite_none_right_eq_some] at hstep
    have hdec' : decode ((some data).getD imagedefault) = some img := hdec
    rw [← Option.some.inj hstep.2, downloaded_of_decode hdec']
    exact Function.update_self ..

/-- A failed download enters no default image, unless it has been fetched. -/
def FailureHarmless (decode : Data → Option Img) (imagedefault : Data)
    (as : List (ImageAction V Data)) : ImageAction V Data → Prop
  | .downloaded _ text none =>
      ∀ img, decode imagedefault = some img → Fetched decode as text img
  | _ => True

/-- **A step enters fetched images only**, unless it is a failed download. -/
lemma entries_step {as : List (ImageAction V Data)} {a : ImageAction V Data}
    (hs : ∀ text img, s.cache text = some img → Fetched decode as text img)
    (ha : FailureHarmless decode imagedefault as a)
    (h : s.step isURL decode imagedefault a = some t) :
    ∀ text img, t.cache text = some img → Fetched decode (as ++ [a]) text img := by
  intro text img himg
  cases a with
  | loadImage view text' =>
      rw [← Option.some.inj h, loadImage_cache] at himg
      exact (hs text img himg).append_right _
  | evicted text' =>
      rw [← Option.some.inj h] at himg
      by_cases htext : text = text'
      · simp [htext] at himg
      · exact (hs text img (by simpa [htext] using himg)).append_right _
  | downloaded view text' data =>
      simp only [step, Option.ite_none_right_eq_some] at h
      rw [← Option.some.inj h.2] at himg
      cases hdec : decode (data.getD imagedefault) with
      | none =>
          rw [downloaded_of_not_decode hdec] at himg
          exact (hs text img himg).append_right _
      | some img' =>
          rw [downloaded_of_decode hdec] at himg
          by_cases htext : text = text'
          · subst htext
            obtain rfl : img' = img := by simpa using himg
            cases data with
            | none => exact (ha img' hdec).append_right _
            | some data => exact ⟨view, data, by simp, hdec⟩
          · exact (hs text img (by simpa [htext] using himg)).append_right _

/-- **What the cache holds.** In every state of a run the cache holds only images
decoded from data fetched from their URLs, if and only if no download fails that
would enter the default image: one of a URL from which that image has not been
fetched before. -/
theorem onlyTrue_iff {as : List (ImageAction V Data)}
    (h : Transition.run (step isURL decode imagedefault) init as = some s) :
    (∀ bs t, bs <+: as → Transition.run (step isURL decode imagedefault) init bs = some t →
      OnlyTrue isURL decode imagedefault bs t) ↔
    ∀ bs a, bs ++ [a] <+: as → FailureHarmless decode imagedefault bs a := by
  constructor
  · intro hall bs a hprefix
    obtain ⟨t, ht⟩ := Transition.exists_run_of_prefix h hprefix
    obtain ⟨u, -, hstep⟩ := Transition.run_concat_eq_some.mp ht
    cases a with
    | loadImage view text => trivial
    | evicted text => trivial
    | downloaded view text data =>
        cases data with
        | some data => trivial
        | none =>
            intro img hdec
            simp only [step, Option.ite_none_right_eq_some] at hstep
            have hdec' : decode (Option.getD none imagedefault) = some img := hdec
            have hcache : t.cache text = some img := by
              rw [← Option.some.inj hstep.2, downloaded_of_decode hdec']
              exact Function.update_self ..
            -- the failed download has fetched nothing
            obtain ⟨view', data, hmem, hdata⟩ := (hall _ t hprefix ht).entries text img hcache
            rw [List.mem_append, List.mem_singleton] at hmem
            rcases hmem with hmem | hmem
            · exact ⟨view', data, hmem, hdata⟩
            · cases hmem
  · intro hharmless bs t hprefix ht
    refine onlyTrue_of_entries ?_
    induction bs using List.reverseRecOn generalizing t with
    | nil =>
        obtain rfl : init = t := by simpa using ht
        intro text img himg
        cases himg
    | append_singleton bs a ih =>
        obtain ⟨u, hu, hstep⟩ := Transition.run_concat_eq_some.mp ht
        exact entries_step (ih u ((List.prefix_append _ _).trans hprefix) hu)
          (hharmless bs a hprefix) hstep

/-- The image of `x` is fetched at the first attempt. -/
theorem onlyTrue_fetched : ∃ t, Transition.run
    (step (V := Unit) (fun _ => true) (some : String → Option String) "login") init
      [.loadImage () "x", .downloaded () "x" (some "picture of x")] = some t ∧
    OnlyTrue (fun _ => true) (some : String → Option String) "login"
      [.loadImage () "x", .downloaded () "x" (some "picture of x")] t := by
  have hrun : Transition.run (step (V := Unit) (fun _ => true) (some : String → Option String)
      "login") init [.loadImage () "x", .downloaded () "x" (some "picture of x")] = some _ := rfl
  refine ⟨_, hrun, (onlyTrue_iff hrun).mpr (fun bs a hprefix => ?_) _ _ List.prefix_rfl hrun⟩
  have hmem : a ∈ [ImageAction.loadImage () "x", .downloaded () "x" (some "picture of x")] :=
    hprefix.subset (by simp)
  simp only [List.mem_cons, List.not_mem_nil, or_false] at hmem
  rcases hmem with rfl | rfl <;> trivial

/-- **The default image stays**: one download of `x` has failed, and the next
call fetches nothing. -/
theorem failedOnce_shows_default : ∃ t, Transition.run
    (step (V := Unit) (fun _ => true) (some : String → Option String) "login") init
      [.loadImage () "x", .downloaded () "x" none, .loadImage () "x"] = some t ∧
    t.cache "x" = some "login" ∧ t.image () = some "login" ∧ t.downloads = [] ∧
    ¬ OnlyTrue (fun _ => true) (some : String → Option String) "login"
      [.loadImage () "x", .downloaded () "x" none, .loadImage () "x"] t := by
  refine ⟨_, rfl, rfl, rfl, rfl, fun htrue => ?_⟩
  obtain ⟨view, data, hmem, -⟩ := htrue.entries "x" "login" rfl
  simp at hmem

end ImageViews

end AppChat
