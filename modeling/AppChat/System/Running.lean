import AppChat.System.Moves
import AppChat.System.Signup

/-!
An app that has stopped stays stopped.

* `Stops`: from one state to the next no app starts to run.
* `step_stops`: every step is of this kind, so a block that waits for an answer
  on a stopped app waits for ever.
-/

namespace AppChat

namespace World

/-- From `w` to `w'` no app starts to run. -/
def Stops (w w' : World) : Prop :=
  ∀ d, (w'.devices d).running = true → (w.devices d).running = true

variable {w w' : World}

namespace Stops

lemma of_eq (h : w'.devices = w.devices) : Stops w w' := fun _ hd => h ▸ hd

lemma crash (h : Stops w w') (e : DeviceId) : Stops w (w'.crash e) := by
  intro d hd
  by_cases hde : d = e
  · subst hde
    simp at hd
  · rw [crash_devices, Function.update_of_ne hde] at hd
    exact h d hd

lemma setCurrentUser (h : Stops w w') (e : DeviceId) (u : Option AuthUser) :
    Stops w (w'.setCurrentUser e u) := by
  intro d hd
  refine h d ?_
  by_cases hde : d = e
  · subst hde
    simpa using hd
  · rwa [setCurrentUser_devices, Function.update_of_ne hde] at hd

lemma refl (w : World) : Stops w w := of_eq rfl

end Stops

lemma authStep_stops {a : AuthAction} (h : w.authStep a = some w') : Stops w w' := by
  cases a with
  | signIn d a =>
      simp only [authStep, Option.ite_none_right_eq_some] at h
      rw [← Option.some.inj h.2]
      exact (Stops.refl w).setCurrentUser d _
  | signOut d =>
      simp only [authStep, Option.ite_none_right_eq_some] at h
      rw [← Option.some.inj h.2]
      exact (Stops.refl w).setCurrentUser d _
  | kill d =>
      rw [← Option.some.inj h]
      exact (Stops.refl w).crash d

lemma screenStep_stops {a : ScreenAction} (h : w.screenStep a = some w') : Stops w w' := by
  cases a with
  | newmessageSelect c d id =>
      simp only [screenStep, Option.ite_none_right_eq_some] at h
      obtain ⟨-, h⟩ := h
      split at h <;> rw [← Option.some.inj h]
      · exact .of_eq rfl
      · exact (Stops.refl w).crash d
  | inboxSelect c d arrayMess row =>
      simp only [screenStep, Option.ite_none_right_eq_some] at h
      obtain ⟨-, h⟩ := h
      split at h <;> rw [← Option.some.inj h]
      · exact .of_eq rfl
      · exact (Stops.refl w).crash d
  | userValue c =>
      simp only [screenStep, Option.bind_eq_some_iff, Option.ite_none_right_eq_some] at h
      obtain ⟨ch, -, -, h⟩ := h
      split at h <;> rw [← Option.some.inj h]
      · exact .of_eq rfl
      · exact (Stops.refl w).crash ch.device
  | editText c text =>
      simp only [screenStep, Option.bind_eq_some_iff, Option.ite_none_right_eq_some] at h
      obtain ⟨ch, -, -, h⟩ := h
      rw [← Option.some.inj h]
      exact .of_eq rfl

/-- The answer to `createUser` stops an app without an avatar. -/
lemma createUserDone_stops (w : World) (s : SignupId) (g : Signup) (r : Register) (uid : String) :
    Stops w (w.createUserDone s g r uid) := by
  have haccount : Stops w { w with accounts := ⟨uid, g.email⟩ :: w.accounts } := .of_eq rfl
  rw [createUserDone]
  split
  · split
    · exact (haccount.setCurrentUser r.device _).crash r.device
    · exact haccount.setCurrentUser r.device _
  · exact haccount

lemma registerStep_stops {a : RegisterAction} (h : w.registerStep a = some w') : Stops w w' := by
  rcases registerStep_cases h with ⟨_, rfl⟩ | ⟨s, g, _, -, rfl⟩ | ⟨s, g, r, uid, -, rfl⟩ |
    ⟨s, g, uid, user, -, -, rfl⟩
  · exact .of_eq rfl
  · exact .of_eq rfl
  · exact createUserDone_stops w s g r uid
  · exact .of_eq rfl

/-- A step of a send stops an app when one of its blocks forces a `nil`. -/
lemma sendStep_stops {a : SendAction} (h : w.sendStep a = some w') : Stops w w' := by
  cases sendStep_moves h with
  | textStops i c key now ch hu => exact (Stops.refl w).crash ch.device
  | movieURLStops i url random s => exact (Stops.refl w).crash s.device
  | imageStops i url key now s => exact (Stops.refl w).crash s.device
  | recordDoneStops i s ch hch =>
      have htext : Stops w (w.setChat s.chat { ch with txtText := "" }) := .of_eq rfl
      exact htext.crash s.device
  | videoDoneStops i s ch b f =>
      have htext : Stops w ((w.setChat s.chat { ch with txtText := "" }).setSend i
        { s with stage := .index b f "demo_toID" senderOnly }) := .of_eq rfl
      exact htext.crash s.device
  | _ => exact .of_eq rfl

lemma deleteStep_stops {a : DeleteAction} (h : w.deleteStep a = some w') : Stops w w' := by
  rcases deleteStep_cases h with ⟨x, d, arrayMess, row, rfl, hw'⟩ | ⟨x, del, rfl, -, rfl⟩ |
    ⟨x, del, rfl, rfl⟩
  · rcases hw' with rfl | rfl | ⟨del, rfl⟩
    · exact .refl w'
    · exact (Stops.refl w).crash d
    · exact .of_eq rfl
  · exact .of_eq rfl
  · exact .of_eq rfl

/-- **No step starts an app that has stopped.** -/
lemma step_stops {a : Action} (h : w.step a = some w') : Stops w w' := by
  cases a with
  | auth a => exact authStep_stops h
  | register a => exact registerStep_stops h
  | screen a => exact screenStep_stops h
  | send a => exact sendStep_stops h
  | delete a => exact deleteStep_stops h

end World

end AppChat
