import AppChat.Library.Transition

/-!
A zoomed image of the chat screen.

A tap on an image puts a black background and a copy of the image on the key window,
and hides the messages and the text field. A tap on the copy lets the background fade;
when the animation ends, its block takes the copy away and shows both again. The
background is never taken away, and the screen keeps a reference to the last one only.

* `ImageZoom`: the screen with every background and every copy it has put on the
  window.
* `ImageZoom.hidden_zoomed`: whatever is tapped, in whatever order the animations end,
  while the messages are hidden there is a copy to tap.
* `ZoomPhase`: what the zoom is for, as a machine with three states.
* `ImageZoom.follows_phases`: the screen is that machine, exactly as long as no copy is
  tapped again while its background fades.
-/

namespace AppChat

open Transition

/-- A copy of an image, and whether it is on the window. -/
structure ZoomView (Frame : Type) where
  frame : Frame
  onWindow : Bool
  deriving DecidableEq, Repr

/-- The screen and the key window. A background is `true` while its `alpha` is `1`. The
backgrounds and the copies are told by their places; `dismissals` are the copies whose
block has not run yet. -/
structure ImageZoom (Frame : Type) where
  startingFrame : Option Frame
  background : Option ℕ
  backgrounds : List Bool
  zoomViews : List (ZoomView Frame)
  dismissals : List ℕ
  collectionHidden : Bool
  viewUiHidden : Bool
  deriving DecidableEq, Repr

/-- What may happen: an image at `frame` is tapped, with a key window or none; a copy is
tapped; an animation ends. -/
inductive ZoomAction (Frame : Type) where
  | imageChatZoom (frame : Frame) (keyWindow : Bool)
  | handleBackgroundDimisss (k : ℕ)
  | completion (k : ℕ)
  deriving DecidableEq, Repr

namespace ImageZoom

variable {Frame : Type}

def init : ImageZoom Frame := ⟨none, none, [], [], [], false, false⟩

/-- The copy `k` is on the window. -/
def OnWindow (s : ImageZoom Frame) (k : ℕ) : Prop :=
  ∃ v, s.zoomViews[k]? = some v ∧ v.onWindow = true

instance (s : ImageZoom Frame) (k : ℕ) : Decidable (s.OnWindow k) :=
  decidable_of_iff ((s.zoomViews[k]?.any ZoomView.onWindow) = true) <| by
    rw [OnWindow]
    cases s.zoomViews[k]? <;> simp

/-- The background `k` is black. -/
def Black (s : ImageZoom Frame) (k : ℕ) : Prop := s.backgrounds[k]? = some true

variable (fit : Frame → Frame)

/-- `image_chat_zoom`; `fit` scales a frame to the width of the window. -/
def imageChatZoom (s : ImageZoom Frame) (frame : Frame) (keyWindow : Bool) : ImageZoom Frame :=
  let s := { s with startingFrame := some frame }
  if keyWindow then
    { s with
      background := some s.backgrounds.length
      backgrounds := s.backgrounds ++ [true]
      zoomViews := s.zoomViews ++ [⟨fit frame, true⟩]
      collectionHidden := true
      viewUiHidden := true }
  else s

/-- `handle_background_dimisss`, up to the end of its animation, once the frame has been
unwrapped. -/
def handleBackgroundDimisss (s : ImageZoom Frame) (k : ℕ) (frame : Frame) : ImageZoom Frame :=
  { s with
    zoomViews := s.zoomViews.modify k fun v => { v with frame := frame }
    backgrounds := s.background.elim s.backgrounds fun j => s.backgrounds.set j false
    dismissals := k :: s.dismissals }

/-- The block at the end of the animation. -/
def completion (s : ImageZoom Frame) (k : ℕ) : ImageZoom Frame :=
  { s with
    zoomViews := s.zoomViews.modify k fun v => { v with onWindow := false }
    dismissals := s.dismissals.erase k
    collectionHidden := false
    viewUiHidden := false }

/-- The images can be tapped while the messages are shown, and a copy while it is on the
window; `starting_frame!` has been set when there is one. -/
def step (s : ImageZoom Frame) : ZoomAction Frame → Option (ImageZoom Frame)
  | .imageChatZoom frame keyWindow =>
      if s.collectionHidden = false then some (s.imageChatZoom fit frame keyWindow) else none
  | .handleBackgroundDimisss k =>
      if s.OnWindow k then s.startingFrame.map (s.handleBackgroundDimisss k) else none
  | .completion k => if k ∈ s.dismissals then some (s.completion k) else none

end ImageZoom

/-! ### What the zoom is for -/

/-- Nothing is zoomed; the copy `k` is, of an image at `frame`; or it is about to be
taken away. -/
inductive ZoomPhase (Frame : Type) where
  | idle
  | zoomed (k : ℕ) (frame : Frame)
  | dismissing (k : ℕ) (frame : Frame)
  deriving DecidableEq, Repr

namespace ZoomPhase

variable {Frame : Type}

/-- The copy on the window. -/
def copy : ZoomPhase Frame → Option ℕ
  | .idle => none
  | .zoomed k _ => some k
  | .dismissing k _ => some k

/-- The copy whose background is black. -/
def black : ZoomPhase Frame → Option ℕ
  | .zoomed k _ => some k
  | _ => none

/-- The copy whose background fades. -/
def fading : ZoomPhase Frame → Option ℕ
  | .dismissing k _ => some k
  | _ => none

/-- An image is zoomed when none is, `n` being the copies there have been; a tap on the
copy has it taken away. -/
def step : ZoomPhase Frame × ℕ → ZoomAction Frame → Option (ZoomPhase Frame × ℕ)
  | (.idle, n), .imageChatZoom frame keyWindow =>
      some (if keyWindow then (.zoomed n frame, n + 1) else (.idle, n))
  | (.zoomed j frame, n), .handleBackgroundDimisss k =>
      if k = j then some (.dismissing j frame, n) else none
  | (.dismissing j _, n), .completion k => if k = j then some (.idle, n) else none
  | _, _ => none

end ZoomPhase

/-! ### Places in a list -/

/-- The elements of a list with one more at the end. -/
lemma getElem?_concat_eq_some {α : Type*} {l : List α} {a b : α} {k : ℕ} :
    (l ++ [a])[k]? = some b ↔ l[k]? = some b ∨ (k = l.length ∧ b = a) := by
  rcases lt_trichotomy k l.length with hlt | rfl | hgt
  · simp [List.getElem?_append_left hlt, hlt.ne]
  · simp [eq_comm]
  · rw [List.getElem?_eq_none (by simpa using hgt), List.getElem?_eq_none hgt.le]
    simp [hgt.ne']

namespace ImageZoom

variable {Frame : Type} {fit : Frame → Frame} {s t : ImageZoom Frame} {k : ℕ}

/-! ### The messages come back -/

/-- A copy is put on the window. -/
lemma onWindow_imageChatZoom (frame : Frame) :
    (s.imageChatZoom fit frame true).OnWindow k ↔ s.OnWindow k ∨ k = s.zoomViews.length := by
  simp only [OnWindow, imageChatZoom, if_true, getElem?_concat_eq_some]
  constructor
  · rintro ⟨v, hv | ⟨hk, -⟩, hon⟩
    · exact Or.inl ⟨v, hv, hon⟩
    · exact Or.inr hk
  · rintro (⟨v, hv, hon⟩ | hk)
    · exact ⟨v, Or.inl hv, hon⟩
    · exact ⟨_, Or.inr ⟨hk, rfl⟩, rfl⟩

/-- A copy that is tapped stays on the window. -/
lemma onWindow_handleBackgroundDimisss (j : ℕ) (frame : Frame) :
    (s.handleBackgroundDimisss j frame).OnWindow k ↔ s.OnWindow k := by
  simp only [OnWindow, handleBackgroundDimisss, List.getElem?_modify, Option.map_eq_map,
    Option.map_eq_some_iff]
  constructor
  · rintro ⟨v, ⟨u, hu, rfl⟩, hon⟩
    refine ⟨u, hu, ?_⟩
    split_ifs at hon <;> exact hon
  · rintro ⟨v, hv, hon⟩
    refine ⟨_, ⟨v, hv, rfl⟩, ?_⟩
    split_ifs <;> exact hon

/-- A copy is taken away. -/
lemma onWindow_completion (j : ℕ) : (s.completion j).OnWindow k ↔ s.OnWindow k ∧ k ≠ j := by
  simp only [OnWindow, completion, List.getElem?_modify, Option.map_eq_map,
    Option.map_eq_some_iff]
  by_cases hjk : j = k
  · subst hjk
    simp
  · simp [hjk, Ne.symm hjk]

/-- **While the messages are hidden, there is a copy to tap**, whatever is tapped, how
often, and in whatever order the animations end. -/
lemma hidden_zoomed {as : List (ZoomAction Frame)} (h : run (step fit) init as = some s)
    (hhidden : s.collectionHidden = true ∨ s.viewUiHidden = true) : ∃ k, s.OnWindow k := by
  have hall : (s.collectionHidden = true ∨ s.viewUiHidden = true) → ∃ k, s.OnWindow k := by
    refine run_invariant (I := fun s : ImageZoom Frame =>
      (s.collectionHidden = true ∨ s.viewUiHidden = true) → ∃ k, s.OnWindow k)
      (fun s a t hs hstep => ?_) (by simp [init]) h
    cases a with
    | imageChatZoom frame keyWindow =>
        simp only [step, Option.ite_none_right_eq_some] at hstep
        rw [← Option.some.inj hstep.2]
        cases keyWindow with
        | true => exact fun _ => ⟨_, (onWindow_imageChatZoom frame).mpr (Or.inr rfl)⟩
        | false => exact hs
    | handleBackgroundDimisss j =>
        simp only [step, Option.ite_none_right_eq_some, Option.map_eq_some_iff] at hstep
        obtain ⟨hj, frame, -, rfl⟩ := hstep
        exact fun _ => ⟨j, (onWindow_handleBackgroundDimisss j frame).mpr hj⟩
    | completion j =>
        simp only [step, Option.ite_none_right_eq_some] at hstep
        rw [← Option.some.inj hstep.2]
        rintro (hc | hc) <;> cases hc
  exact hall hhidden

/-! ### The three states -/

/-- The copy is tapped only when its background does not fade yet. -/
def TappedOnce (s : ImageZoom Frame) : ZoomAction Frame → Prop
  | .handleBackgroundDimisss k => k ∉ s.dismissals
  | _ => True

instance (s : ImageZoom Frame) : DecidablePred s.TappedOnce
  | .imageChatZoom _ _ => inferInstanceAs (Decidable True)
  | .handleBackgroundDimisss k => inferInstanceAs (Decidable (k ∉ s.dismissals))
  | .completion _ => inferInstanceAs (Decidable True)

variable (fit) in
/-- The screen shows the phase `p.1`, after `p.2` copies. -/
structure Shows (s : ImageZoom Frame) (p : ZoomPhase Frame × ℕ) : Prop where
  zoomViews : s.zoomViews.length = p.2
  backgrounds : s.backgrounds.length = p.2
  onWindow : ∀ k, s.OnWindow k ↔ p.1.copy = some k
  black : ∀ k, s.Black k ↔ p.1.black = some k
  collectionHidden : s.collectionHidden = p.1.copy.isSome
  viewUiHidden : s.viewUiHidden = p.1.copy.isSome
  dismissals : s.dismissals = p.1.fading.toList
  zoomed : ∀ k frame, p.1 = .zoomed k frame → s.background = some k ∧
    s.startingFrame = some frame ∧ ∃ v, s.zoomViews[k]? = some v ∧ v.frame = fit frame
  dismissing : ∀ k frame, p.1 = .dismissing k frame →
    ∃ v, s.zoomViews[k]? = some v ∧ v.frame = frame

lemma shows_init : Shows fit init (.idle, 0) where
  zoomViews := rfl
  backgrounds := rfl
  onWindow k := by simp [init, OnWindow, ZoomPhase.copy]
  black k := by simp [init, Black, ZoomPhase.black]
  collectionHidden := rfl
  viewUiHidden := rfl
  dismissals := rfl
  zoomed k frame h := by cases h
  dismissing k frame h := by cases h

namespace Shows

variable {p : ZoomPhase Frame × ℕ} {n : ℕ}

/-- An image is tapped. -/
lemma imageChatZoom (h : Shows fit s (.idle, n)) (frame : Frame) (keyWindow : Bool) :
    Shows fit (s.imageChatZoom fit frame keyWindow)
      (if keyWindow then (.zoomed n frame, n + 1) else (.idle, n)) := by
  cases keyWindow with
  | false =>
      exact ⟨h.zoomViews, h.backgrounds, h.onWindow, h.black, h.collectionHidden, h.viewUiHidden,
        h.dismissals, fun _ _ hp => (by cases hp), fun _ _ hp => (by cases hp)⟩
  | true =>
      have hz := h.zoomViews
      have hb := h.backgrounds
      have hidle : ∀ k, ¬ s.OnWindow k := fun k hk => by cases (h.onWindow k).mp hk
      refine ⟨?_, ?_, fun k => ?_, fun k => ?_, rfl, rfl, h.dismissals, fun k f hp => ?_,
        fun k f hp => (by cases hp)⟩
      · simp [ImageZoom.imageChatZoom, hz]
      · simp [ImageZoom.imageChatZoom, hb]
      · rw [onWindow_imageChatZoom, hz]
        simp [hidle k, ZoomPhase.copy, eq_comm]
      · have hk : ¬ s.backgrounds[k]? = some true := fun hk => by cases (h.black k).mp hk
        simp only [Black, ImageZoom.imageChatZoom, if_true, getElem?_concat_eq_some, hb, hk]
        simp [ZoomPhase.black, eq_comm]
      · obtain ⟨rfl, rfl⟩ : n = k ∧ frame = f := by simpa using hp
        refine ⟨congrArg some hb, rfl, ⟨fit frame, true⟩, ?_, rfl⟩
        exact getElem?_concat_eq_some.mpr (Or.inr ⟨hz.symm, rfl⟩)

/-- The copy is tapped. -/
lemma handleBackgroundDimisss {k : ℕ} {frame : Frame} (h : Shows fit s (.zoomed k frame, n)) :
    Shows fit (s.handleBackgroundDimisss k frame) (.dismissing k frame, n) := by
  obtain ⟨hbackground, hframe, v, hv, -⟩ := h.zoomed k frame rfl
  refine ⟨?_, ?_, fun j => ?_, fun j => ?_, h.collectionHidden, h.viewUiHidden, ?_,
    fun j f hp => (by cases hp), fun j f hp => ?_⟩
  · simpa [ImageZoom.handleBackgroundDimisss] using h.zoomViews
  · simpa [ImageZoom.handleBackgroundDimisss, hbackground] using h.backgrounds
  · rw [onWindow_handleBackgroundDimisss]
    exact h.onWindow j
  · have hblack : s.backgrounds[j]? = some true ↔ k = j := by
      simpa [Black, ZoomPhase.black] using h.black j
    simp only [Black, ImageZoom.handleBackgroundDimisss, hbackground, Option.elim_some,
      List.getElem?_set]
    by_cases hkj : k = j
    · simp [hkj, ZoomPhase.black]
    · simp [hkj, hblack, ZoomPhase.black]
  · simp [ImageZoom.handleBackgroundDimisss, h.dismissals, ZoomPhase.fading]
  · obtain ⟨rfl, rfl⟩ : k = j ∧ frame = f := by simpa using hp
    exact ⟨{ v with frame := frame }, by simp [ImageZoom.handleBackgroundDimisss, hv], rfl⟩

/-- The animation ends. -/
lemma completion {k : ℕ} {frame : Frame} (h : Shows fit s (.dismissing k frame, n)) :
    Shows fit (s.completion k) (.idle, n) := by
  refine ⟨?_, h.backgrounds, fun j => ?_, h.black, rfl, rfl, ?_, fun j f hp => (by cases hp),
    fun j f hp => (by cases hp)⟩
  · simpa [ImageZoom.completion] using h.zoomViews
  · rw [onWindow_completion, h.onWindow j]
    simp [ZoomPhase.copy, eq_comm]
  · simp [ImageZoom.completion, h.dismissals, ZoomPhase.fading]

/-- **A step of the screen is one of the three states**, or it is a second tap on a copy,
which is not. -/
lemma step_cases (h : Shows fit s p) {a : ZoomAction Frame} (hstep : s.step fit a = some t) :
    (TappedOnce s a ∧ ∃ q, ZoomPhase.step p a = some q ∧ Shows fit t q) ∨
      (¬ TappedOnce s a ∧ ZoomPhase.step p a = none) := by
  obtain ⟨phase, n⟩ := p
  cases a with
  | imageChatZoom frame keyWindow =>
      simp only [step, Option.ite_none_right_eq_some] at hstep
      obtain ⟨hshown, hstep⟩ := hstep
      have hidle : phase = .idle := by
        rw [h.collectionHidden] at hshown
        cases phase <;> simp [ZoomPhase.copy] at hshown ⊢
      subst hidle
      rw [← Option.some.inj hstep]
      exact Or.inl ⟨trivial, _, rfl, h.imageChatZoom frame keyWindow⟩
  | handleBackgroundDimisss k =>
      simp only [step, Option.ite_none_right_eq_some, Option.map_eq_some_iff] at hstep
      obtain ⟨hk, frame', hframe', rfl⟩ := hstep
      have hcopy := (h.onWindow k).mp hk
      cases phase with
      | idle => cases hcopy
      | zoomed j frame =>
          obtain rfl : j = k := Option.some.inj hcopy
          obtain rfl : frame = frame' :=
            Option.some.inj ((h.zoomed j frame rfl).2.1.symm.trans hframe')
          refine Or.inl ⟨?_, _, if_pos rfl, h.handleBackgroundDimisss⟩
          simp [TappedOnce, h.dismissals, ZoomPhase.fading]
      | dismissing j frame =>
          obtain rfl : j = k := Option.some.inj hcopy
          refine Or.inr ⟨fun honce => honce ?_, rfl⟩
          simp [h.dismissals, ZoomPhase.fading]
  | completion k =>
      simp only [step, Option.ite_none_right_eq_some] at hstep
      obtain ⟨hk, hstep⟩ := hstep
      rw [← Option.some.inj hstep]
      rw [h.dismissals] at hk
      cases phase with
      | idle => cases hk
      | zoomed j frame => cases hk
      | dismissing j frame =>
          obtain rfl : k = j := by simpa [ZoomPhase.fading] using hk
          exact Or.inl ⟨trivial, _, if_pos rfl, h.completion⟩

end Shows

/-- **The zoom is the machine with three states**, exactly in the runs in which no copy
is tapped again while its background fades. So in these at most one copy is on the
window, at most one background is black, the messages and the text field are hidden
exactly while there is a copy, and it goes back to the frame of its own image. In the
other runs there is still a copy to tap while they are hidden. -/
theorem follows_phases {as : List (ZoomAction Frame)} (h : run (step fit) init as = some s) :
    ((s.collectionHidden = true ∨ s.viewUiHidden = true) → ∃ k, s.OnWindow k) ∧
    (Meets (step fit) TappedOnce init as ↔
      ∃ p, run ZoomPhase.step (.idle, 0) as = some p ∧ Shows fit s p) := by
  refine ⟨hidden_zoomed h, ?_⟩
  -- the same from any two states that go together
  suffices hall : ∀ (s₀ : ImageZoom Frame) (p₀ : ZoomPhase Frame × ℕ), Shows fit s₀ p₀ →
      run (step fit) s₀ as = some s → (Meets (step fit) TappedOnce s₀ as ↔
        ∃ p, run ZoomPhase.step p₀ as = some p ∧ Shows fit s p) from
    hall init (.idle, 0) shows_init h
  clear h
  induction as with
  | nil =>
      intro s₀ p₀ h₀ hrun
      obtain rfl : s₀ = s := by simpa using hrun
      exact iff_of_true trivial ⟨p₀, rfl, h₀⟩
  | cons a as ih =>
      intro s₀ p₀ h₀ hrun
      obtain ⟨s₁, hs₁, hrun⟩ := run_cons_eq_some.mp hrun
      rcases h₀.step_cases hs₁ with ⟨honce, p₁, hp₁, h₁⟩ | ⟨htwice, hnone⟩
      · constructor
        · intro hC
          obtain ⟨p, hp, hshows⟩ := (ih s₁ p₁ h₁ hrun).mp (hC.tail hs₁)
          exact ⟨p, run_cons_eq_some.mpr ⟨p₁, hp₁, hp⟩, hshows⟩
        · rintro ⟨p, hp, hshows⟩
          obtain ⟨p₂, hp₂, hp⟩ := run_cons_eq_some.mp hp
          obtain rfl : p₁ = p₂ := Option.some.inj (hp₁.symm.trans hp₂)
          refine ⟨honce, fun s₂ hs₂ => ?_⟩
          obtain rfl : s₁ = s₂ := Option.some.inj (hs₁.symm.trans hs₂)
          exact (ih s₁ p₁ h₁ hrun).mpr ⟨p, hp, hshows⟩
      · refine iff_of_false (fun hC => htwice hC.head) ?_
        rintro ⟨p, hp, -⟩
        obtain ⟨p₁, hp₁, -⟩ := run_cons_eq_some.mp hp
        rw [hnone] at hp₁
        cases hp₁

/-- An image that is zoomed and goes back. -/
def zoomedOnce : List (ZoomAction ℕ) :=
  [.imageChatZoom 2 true, .handleBackgroundDimisss 0, .completion 0]

theorem follows_phases_zoomedOnce : ∃ s p,
    run (step fun frame => 3 * frame) init zoomedOnce = some s ∧
      run ZoomPhase.step (.idle, 0) zoomedOnce = some p ∧ Shows (fun frame => 3 * frame) s p := by
  obtain ⟨s, hs⟩ := Option.isSome_iff_exists.mp
    (show (run (step fun frame => 3 * frame) init zoomedOnce).isSome = true by decide)
  obtain ⟨p, hp, hshows⟩ := (follows_phases hs).2.mp (by decide)
  exact ⟨s, p, hs, hp, hshows⟩

/-- Two taps on a copy, and another image tapped between the ends of the two animations:
when all have ended, the first background is black and no copy is on the window. -/
example : ((run (step fun frame : ℕ => 3 * frame) init
    [.imageChatZoom 2 true, .handleBackgroundDimisss 0, .handleBackgroundDimisss 0, .completion 0,
      .imageChatZoom 5 true, .completion 0, .imageChatZoom 7 true, .handleBackgroundDimisss 2,
      .completion 2, .handleBackgroundDimisss 1, .completion 1]).map fun s =>
        (s.backgrounds, s.zoomViews.map ZoomView.onWindow)) =
          some ([false, true, false], [false, false, false]) := by
  decide

end ImageZoom

end AppChat
