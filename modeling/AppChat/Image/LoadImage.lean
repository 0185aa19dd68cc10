import AppChat.Library.Transition

/-!
`UIImageView.load_image` and `image_Cache`.

A call first looks in the cache, which every screen shares, and shows what is
there. Otherwise it starts a download on a queue of its own; when the data is
there, or the download has failed, the block decodes the data, or the default
image in its place, enters the image in the cache and shows it in the view.

* `ImageViews`: the cache, what each view shows, and the downloads in flight.
* `ImageViews.step`: a call, a download that ends, and an entry that the cache
  drops, which it may do at any time.

Decoding, the default image and whether a text is a URL are parameters.
-/

namespace AppChat

/-- The image views of the app and the cache they share. -/
structure ImageViews (V Img : Type) where
  cache : String → Option Img
  image : V → Option Img
  downloads : List (V × String)

/-- What may happen; `data` is `none` for a download that has failed. -/
inductive ImageAction (V Data : Type) where
  | loadImage (view : V) (text : String)
  | downloaded (view : V) (text : String) (data : Option Data)
  | evicted (text : String)
  deriving DecidableEq

namespace ImageViews

variable {V Img Data : Type} [DecidableEq V]

/-- `load_image`: the image of the cache, or a download. -/
def loadImage (s : ImageViews V Img) (view : V) (text : String) : ImageViews V Img :=
  match s.cache text with
  | some imageCache => { s with image := Function.update s.image view (some imageCache) }
  | none => { s with downloads := s.downloads ++ [(view, text)] }

section Step

variable (isURL : String → Bool) (decode : Data → Option Img) (imagedefault : Data)

/-- The block at the end of a download; data that is no image changes nothing. -/
def downloaded (s : ImageViews V Img) (view : V) (text : String) (data : Option Data) :
    ImageViews V Img :=
  match decode (data.getD imagedefault) with
  | some imageDowload =>
      { cache := Function.update s.cache text (some imageDowload)
        image := Function.update s.image view (some imageDowload)
        downloads := s.downloads.erase (view, text) }
  | none => { s with downloads := s.downloads.erase (view, text) }

/-- The next state. -/
def step (s : ImageViews V Img) : ImageAction V Data → Option (ImageViews V Img)
  | .loadImage view text => some (s.loadImage view text)
  | .downloaded view text data =>
      -- `url!` stops the app when the text is no URL
      if (view, text) ∈ s.downloads ∧ isURL text = true then
        some (s.downloaded decode imagedefault view text data)
      else none
  | .evicted text => some { s with cache := Function.update s.cache text none }

end Step

/-- The state in which the app starts. -/
def init : ImageViews V Img := ⟨fun _ => none, fun _ => none, []⟩

variable {s : ImageViews V Img} {view : V} {text : String} {img : Img}

lemma loadImage_of_cached (h : s.cache text = some img) :
    s.loadImage view text = { s with image := Function.update s.image view (some img) } := by
  rw [loadImage, h]

lemma loadImage_of_not_cached (h : s.cache text = none) :
    s.loadImage view text = { s with downloads := s.downloads ++ [(view, text)] } := by
  rw [loadImage, h]

/-- A call changes nothing in the cache. -/
@[simp] lemma loadImage_cache (s : ImageViews V Img) (view : V) (text : String) :
    (s.loadImage view text).cache = s.cache := by
  rw [loadImage]
  split <;> rfl

/-- A call changes what its own view shows, at most. -/
lemma loadImage_image_of_ne {view' : V} (h : view' ≠ view) :
    (s.loadImage view text).image view' = s.image view' := by
  rw [loadImage]
  split
  · exact Function.update_of_ne h ..
  · rfl

variable {decode : Data → Option Img} {imagedefault : Data} {data : Option Data}

lemma downloaded_of_decode (h : decode (data.getD imagedefault) = some img) :
    s.downloaded decode imagedefault view text data =
      { cache := Function.update s.cache text (some img)
        image := Function.update s.image view (some img)
        downloads := s.downloads.erase (view, text) } := by
  rw [downloaded, h]

lemma downloaded_of_not_decode (h : decode (data.getD imagedefault) = none) :
    s.downloaded decode imagedefault view text data =
      { s with downloads := s.downloads.erase (view, text) } := by
  rw [downloaded, h]

end ImageViews

end AppChat
