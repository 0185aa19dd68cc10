import AppChat.Login.Navigation

/-!
How many inboxes a sign-in opens.

* `Navigation.listeners_run`: there is one block for every time a login screen
  has appeared, and each has seen the present user.
* `Navigation.signIn_pushes`: a sign-in pushes one inbox for every block, so it
  opens exactly one when a login screen has appeared exactly once.
-/

namespace AppChat

/-- The blocks that pass a notification on push one inbox each. -/
lemma invokeAll_eq (uid : String) (ls : List AuthListener) (screens : List Screen) :
    invokeAll (some uid) ls screens =
      List.replicate (ls.countP fun l => l.shouldCallListener (some uid)) .messagecontroller ++
        screens := by
  induction ls generalizing screens with
  | nil => rfl
  | cons l ls ih =>
      rw [invokeAll, ih, List.countP_cons]
      by_cases h : l.shouldCallListener (some uid) = true
      · rw [if_pos h, if_pos h, List.replicate_succ', isloginedListener, if_neg (by simp),
          List.append_assoc, List.singleton_append]
      · rw [if_neg h, if_neg h, add_zero]

namespace Navigation

variable {s t : Navigation} {u : Option String} {as : List NavigationAction}
  {a : NavigationAction}

/-! ### One block for every appearance -/

/-- There are `n` blocks, and each has been invoked with the present user. -/
def Listens (n : ℕ) (s : Navigation) : Prop :=
  s.listeners = List.replicate n (.invoked s.currentUser)

lemma Listens.post {n : ℕ} (h : s.Listens n) : s.post.Listens n := by
  have hlength : s.listeners.length = n := by
    rw [h, List.length_replicate]
  rw [Listens, Navigation.post, List.map_const', hlength]

lemma Listens.setCurrentUser {n : ℕ} (h : s.Listens n) (u : Option String) :
    (s.setCurrentUser u).Listens n := by
  have hlength : s.listeners.length = n := by
    rw [h, List.length_replicate]
  rw [Listens, Navigation.setCurrentUser, Navigation.post, List.map_const', hlength]

/-- A login screen that appears adds a block, which sees the present user. -/
lemma Listens.islogined {n : ℕ} (h : s.Listens n) : s.islogined.Listens (n + 1) := by
  rw [Listens, Navigation.islogined, h, List.replicate_succ']

lemma Listens.push {n : ℕ} (h : s.Listens n) (screen : Screen) : (s.push screen).Listens n := h

lemma Listens.pushLogin {n : ℕ} (h : s.Listens n) : s.pushLogin.Listens (n + 1) :=
  (h.push .login).islogined

lemma Listens.handlelogout {n : ℕ} (h : s.Listens n) (signedOut : Bool) :
    (s.handlelogout signedOut).Listens (n + 1) := by
  rw [Navigation.handlelogout]
  split_ifs
  · exact (h.setCurrentUser none).pushLogin
  · exact h.pushLogin

/-- A step adds a block when a login screen appears, and none otherwise. -/
lemma Listens.step {n : ℕ} (hs : s.Listens n) (h : s.step a = some t) :
    t.Listens (n + (s.loginAppears a).toList.length) := by
  cases a with
  | launch =>
      simp only [Navigation.step, Option.ite_none_right_eq_some] at h
      rw [← Option.some.inj h.2]
      exact hs.pushLogin
  | movetoregister =>
      simp only [Navigation.step, Option.ite_none_right_eq_some] at h
      rw [← Option.some.inj h.2]
      exact hs.push .register
  | move =>
      simp only [Navigation.step, Option.ite_none_right_eq_some] at h
      rw [← Option.some.inj h.2]
      exact hs.pushLogin
  | back =>
      simp only [Navigation.step, Option.ite_none_right_eq_some] at h
      rw [← Option.some.inj h.2, pop, loginAppears]
      -- the screen below is a login screen, or it is not
      split_ifs
      · exact Listens.islogined hs
      · exact hs
  | signIn uid =>
      simp only [Navigation.step, Option.ite_none_right_eq_some] at h
      rw [← Option.some.inj h.2]
      exact hs.setCurrentUser (some uid)
  | createUser uid =>
      simp only [Navigation.step, Option.ite_none_right_eq_some] at h
      rw [← Option.some.inj h.2]
      exact hs.setCurrentUser (some uid)
  | tokenRefresh =>
      rw [← Option.some.inj h]
      exact hs.post
  | handlelogout signedOut =>
      simp only [Navigation.step, Option.ite_none_right_eq_some] at h
      rw [← Option.some.inj h.2]
      exact hs.handlelogout signedOut
  | handlemovetonewmesssage =>
      simp only [Navigation.step, Option.ite_none_right_eq_some] at h
      rw [← Option.some.inj h.2]
      exact hs.push .newmessage
  | didSelectRowAt =>
      simp only [Navigation.step, Option.ite_none_right_eq_some] at h
      rw [← Option.some.inj h.2]
      exact hs.push .chatLogmessage
  | handlecancel =>
      simp only [Navigation.step, Option.ite_none_right_eq_some] at h
      rw [← Option.some.inj h.2, pushMessagecontroller, loginAppears]
      split_ifs
      · exact (hs.push .messagecontroller).handlelogout true
      · exact hs.push .messagecontroller

/-- **One block for every appearance** of a login screen, in every run. -/
lemma listeners_run (h : Transition.run Navigation.step (init u) as = some s) :
    s.Listens (appearances u as) := by
  have hinit : (init u).Listens 0 := rfl
  refine Transition.trace_invariant
    (I := fun (l : List Unit) (s : Navigation) => s.Listens l.length)
    (fun l s a t hs hstep => ?_) hinit h
  rw [List.length_append]
  exact hs.step hstep

/-! ### A sign-in -/

@[simp] lemma post_currentUser (s : Navigation) : s.post.currentUser = s.currentUser := rfl

@[simp] lemma push_currentUser (s : Navigation) (screen : Screen) :
    (s.push screen).currentUser = s.currentUser := rfl

@[simp] lemma pushLogin_currentUser (s : Navigation) : s.pushLogin.currentUser = s.currentUser :=
  rfl

lemma handlelogout_currentUser (hout : s.currentUser = none) (signedOut : Bool) :
    (s.handlelogout signedOut).currentUser = none := by
  rw [Navigation.handlelogout]
  split_ifs
  · rfl
  · exact hout

lemma pushMessagecontroller_currentUser (hout : s.currentUser = none) :
    s.pushMessagecontroller.currentUser = none := by
  rw [pushMessagecontroller, if_pos hout]
  exact handlelogout_currentUser hout true

@[simp] lemma pop_currentUser (s : Navigation) : s.pop.currentUser = s.currentUser := by
  rw [pop]
  split_ifs <;> rfl

/-- The steps other than a completed request sign nobody in. -/
lemma eq_setCurrentUser_of_signsIn (h : s.step a = some t) (hout : s.currentUser = none)
    (hin : t.currentUser ≠ none) : ∃ uid, t = s.setCurrentUser (some uid) := by
  cases a with
  | signIn uid =>
      simp only [Navigation.step, Option.ite_none_right_eq_some] at h
      exact ⟨uid, (Option.some.inj h.2).symm⟩
  | createUser uid =>
      simp only [Navigation.step, Option.ite_none_right_eq_some] at h
      exact ⟨uid, (Option.some.inj h.2).symm⟩
  | handlelogout signedOut =>
      simp only [Navigation.step, Option.ite_none_right_eq_some] at h
      rw [← Option.some.inj h.2] at hin
      exact (hin (handlelogout_currentUser hout signedOut)).elim
  | handlecancel =>
      simp only [Navigation.step, Option.ite_none_right_eq_some] at h
      rw [← Option.some.inj h.2] at hin
      exact (hin (pushMessagecontroller_currentUser hout)).elim
  | tokenRefresh =>
      rw [← Option.some.inj h] at hin
      exact (hin hout).elim
  | _ =>
      -- the stack changes, and at most a block is added
      simp only [Navigation.step, Option.ite_none_right_eq_some] at h
      rw [← Option.some.inj h.2] at hin
      simp [hout] at hin

/-- **A sign-in pushes one inbox for every login screen that has appeared.** In
every run, a step from signed out to signed in pushes as many of them as there
have been appearances, so it pushes exactly one if and only if there has been
exactly one. -/
theorem signIn_pushes (h : Transition.run Navigation.step (init u) as = some s)
    (hstep : s.step a = some t) (hout : s.currentUser = none) (hin : t.currentUser ≠ none) :
    t.screens = List.replicate (appearances u as) .messagecontroller ++ s.screens ∧
      (t.screens = .messagecontroller :: s.screens ↔ appearances u as = 1) := by
  obtain ⟨uid, rfl⟩ := eq_setCurrentUser_of_signsIn hstep hout hin
  have hlisteners : s.listeners = List.replicate (appearances u as) (.invoked none) := by
    rw [← hout]
    exact listeners_run h
  have hpush : (s.setCurrentUser (some uid)).screens =
      List.replicate (appearances u as) .messagecontroller ++ s.screens := by
    have hcall : (AuthListener.invoked none).shouldCallListener (some uid) = true := rfl
    show invokeAll (some uid) s.listeners s.screens = _
    rw [invokeAll_eq, hlisteners, List.countP_replicate, if_pos hcall]
  refine ⟨hpush, ?_⟩
  rw [hpush]
  constructor
  · intro heq
    have hlength := congrArg List.length heq
    rw [List.length_append, List.length_replicate, List.length_cons] at hlength
    omega
  · intro hone
    rw [hone]
    rfl

/-! ### The second inbox -/

/-- The app is launched and `a` signs in: one inbox. -/
theorem firstSignIn_pushes :
    ∃ s t : Navigation,
      Transition.run Navigation.step (init none) [.launch] = some s ∧
        s.step (.signIn "a") = some t ∧
          t.screens = List.replicate (appearances none [.launch]) .messagecontroller ++ s.screens ∧
            (t.screens = .messagecontroller :: s.screens ↔ appearances none [.launch] = 1) := by
  let s : Navigation := ⟨none, [.login], [.invoked none]⟩
  let t : Navigation := ⟨some "a", [.messagecontroller, .login], [.invoked (some "a")]⟩
  have hrun : Transition.run Navigation.step (init none) [.launch] = some s := rfl
  have hstep : s.step (.signIn "a") = some t := rfl
  exact ⟨s, t, hrun, hstep, signIn_pushes hrun hstep rfl (by decide)⟩

/-- After that `a` signs out. -/
def signedOutAgain : List NavigationAction := [.launch, .signIn "a", .handlelogout true]

/-- **The next sign-in opens two inboxes**: the listener of the first login
screen is still there. -/
theorem secondSignIn_pushes_two :
    ∃ s t : Navigation,
      Transition.run Navigation.step (init none) signedOutAgain = some s ∧
        s.step (.signIn "a") = some t ∧ s.currentUser = none ∧ t.currentUser ≠ none ∧
          t.screens = .messagecontroller :: .messagecontroller :: s.screens ∧
            t.screens ≠ .messagecontroller :: s.screens := by
  refine ⟨_, _, rfl, rfl, rfl, ?_, rfl, ?_⟩
  · decide
  · decide

end Navigation

end AppChat
