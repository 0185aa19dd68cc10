import AppChat.Image.LoadImage

/-!
Which image a view ends up with.

The blocks of all downloads of a view write the same field when they end, in any
order, and nothing tells a block that its view has been asked for another image
since. A download that fails writes the default image.

* `decoded`: the images that the downloads of a view have brought, in order.
* `image_run`: a view that is asked for nothing new shows the last of them, or
  what it has shown before.
* `shows_last_asked_iff`: whether a view shows the picture of the URL it was asked
  for last, whatever the cache holds and however the downloads end.
-/

namespace AppChat

namespace ImageViews

variable {V Img Data : Type} [DecidableEq V] {isURL : String → Bool}
  {decode : Data → Option Img} {imagedefault : Data} {picture : String → Img}
  {s t u : ImageViews V Img}

/-- The images of the downloads of `view` that end, in order; data that is no
image brings none. -/
def decoded (decode : Data → Option Img) (imagedefault : Data) (view : V)
    (as : List (ImageAction V Data)) : List Img :=
  as.filterMap fun
    | .downloaded view' _ data =>
        if view' = view then decode (data.getD imagedefault) else none
    | _ => none

lemma decoded_concat (view : V) (as : List (ImageAction V Data)) (a : ImageAction V Data) :
    decoded decode imagedefault view (as ++ [a]) =
      decoded decode imagedefault view as ++ decoded decode imagedefault view [a] :=
  List.filterMap_append

/-- **What a view shows** when it is asked for nothing new: the image that its
downloads have brought last, or what it has shown before. -/
lemma image_run {as : List (ImageAction V Data)} {view : V}
    (hnone : ∀ text, ImageAction.loadImage view text ∉ as)
    (h : Transition.run (step isURL decode imagedefault) s as = some t) :
    t.image view = (decoded decode imagedefault view as).getLast?.or (s.image view) := by
  induction as using List.reverseRecOn generalizing t with
  | nil =>
      obtain rfl : s = t := by simpa using h
      rfl
  | append_singleton as a ih =>
      obtain ⟨u, hu, hstep⟩ := Transition.run_concat_eq_some.mp h
      have himage := ih (fun text hmem => hnone text (by simp [hmem])) hu
      rw [decoded_concat]
      cases a with
      | loadImage view' text =>
          have hne : view ≠ view' := by
            rintro rfl
            exact hnone text (by simp)
          rw [← Option.some.inj hstep, loadImage_image_of_ne hne, himage]
          simp [decoded]
      | downloaded view' text data =>
          simp only [step, Option.ite_none_right_eq_some] at hstep
          rw [← Option.some.inj hstep.2]
          cases hdata : decode (data.getD imagedefault) with
          | none =>
              rw [downloaded_of_not_decode hdata]
              simpa [decoded, hdata] using himage
          | some img =>
              rw [downloaded_of_decode hdata]
              by_cases hview : view' = view
              · subst hview
                simp [decoded, hdata]
              · simp [decoded, hview, Ne.symm hview, himage]
      | evicted text =>
          rw [← Option.some.inj hstep]
          simpa [decoded] using himage

/-- **What a view ends up with.** From any cache, any images on the screen and any
downloads in flight, let `u` be the state in which a view is asked for `text` last.
From then on it shows the picture of `text` if and only if

* the last image its downloads have brought since is this picture, or
* they have brought none, and the cache held this picture at the call, or held
  nothing while the view showed this picture already.

Nothing is assumed of the order in which the downloads end, of what they yield, of
what the cache holds, or of when it drops it. -/
theorem shows_last_asked_iff {as bs : List (ImageAction V Data)} {view : V} {text : String}
    (hu : Transition.run (step isURL decode imagedefault) s as = some u)
    (h : Transition.run (step isURL decode imagedefault) s (as ++ .loadImage view text :: bs) =
      some t)
    (hlast : ∀ text', ImageAction.loadImage view text' ∉ bs) :
    t.image view = some (picture text) ↔
      (decoded decode imagedefault view bs).getLast? = some (picture text) ∨
      decoded decode imagedefault view bs = [] ∧
        (u.cache text = some (picture text) ∨
          u.cache text = none ∧ u.image view = some (picture text)) := by
  obtain ⟨_, hu', hrest⟩ := Transition.run_append_eq_some.mp h
  obtain rfl : u = _ := Option.some.inj (hu.symm.trans hu')
  obtain ⟨u', hload, ht⟩ := Transition.run_cons_eq_some.mp hrest
  rw [image_run hlast ht, ← Option.some.inj hload]
  rcases List.eq_nil_or_concat (decoded decode imagedefault view bs) with hnil | ⟨imgs, img, hcons⟩
  · -- the call itself, or what was there before it
    rw [hnil]
    cases hcache : u.cache text with
    | some img =>
        rw [loadImage_of_cached hcache]
        simp
    | none =>
        rw [loadImage_of_not_cached hcache]
        simp
  · rw [hcons, List.concat_eq_append]
    simp

/-! ### Two downloads of one view -/

/-- A server on which the picture of a URL is the URL. -/
abbrev stepText :
    ImageViews Unit String → ImageAction Unit String → Option (ImageViews Unit String) :=
  step (fun _ => true) some "login"

/-- A view is asked for `x` and then for `y`, and the downloads end in this
order. -/
theorem shows_last_asked_inOrder : ∃ t, Transition.run stepText init
    ([.loadImage () "x"] ++ .loadImage () "y" ::
      [.downloaded () "x" (some "x"), .downloaded () "y" (some "y")]) = some t ∧
      t.downloads = [] ∧ t.image () = some (id "y") := by
  have hcall : Transition.run stepText init [.loadImage () "x"] = some _ := rfl
  have hrun : Transition.run stepText init ([.loadImage () "x"] ++ .loadImage () "y" ::
      [.downloaded () "x" (some "x"), .downloaded () "y" (some "y")]) = some _ := rfl
  refine ⟨_, hrun, rfl, (shows_last_asked_iff hcall hrun ?_).mpr (Or.inl ?_)⟩
  · simp
  · simp [decoded]

/-- **The image of an earlier call**: the downloads end in the other order, and
the view shows the picture of `x`. -/
theorem shows_first_asked : ∃ t, Transition.run stepText init
    ([.loadImage () "x"] ++ .loadImage () "y" ::
      [.downloaded () "y" (some "y"), .downloaded () "x" (some "x")]) = some t ∧
      t.downloads = [] ∧ t.image () = some "x" :=
  ⟨_, rfl, rfl, rfl⟩

end ImageViews

end AppChat
