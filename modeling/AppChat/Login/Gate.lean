import AppChat.Login.OneInbox

/-!
Which screen is on top.

The login screen is never popped: a signed-in user is sent on from it by its listener,
and a signed-out one comes back to a new one. So nothing but the listeners keeps the
chat screens from a user who is signed out.

* `Screen.isEntry`: the screens for a user who is signed out.
* `Stacked`: which screen may be on which.
* `Navigation.gate`: after the launch, in every run, the screen on top is one of them
  exactly when nobody is signed in.
-/

namespace AppChat

/-- The screens for a user who is signed out. -/
def Screen.isEntry : Screen → Bool
  | .login => true
  | .register => true
  | _ => false

/-- The screen that one may be pushed on. -/
def Screen.FitsOn : Screen → Option Screen → Prop
  | .register, below => below = some .login
  | .chatLogmessage, below => below ∈ [some .messagecontroller, some .newmessage]
  | _, _ => True

/-- Every screen is on one that it may be pushed on. -/
def Stacked : List Screen → Prop
  | [] => True
  | screen :: below => screen.FitsOn below.head? ∧ Stacked below

lemma Stacked.inboxes {screens : List Screen} (h : Stacked screens) (n : ℕ) :
    Stacked (List.replicate n .messagecontroller ++ screens) := by
  induction n with
  | zero => exact h
  | succ n ih => exact ⟨trivial, ih⟩

/-- Nobody is signed in: no inbox is pushed. -/
lemma invokeAll_none (ls : List AuthListener) (screens : List Screen) :
    invokeAll none ls screens = screens := by
  induction ls with
  | nil => rfl
  | cons l ls ih =>
      rw [invokeAll, isloginedListener, if_pos rfl, ite_self]
      exact ih

/-- The blocks have all been told of this user: no inbox is pushed. -/
lemma invokeAll_invoked (user : Option String) (n : ℕ) (screens : List Screen) :
    invokeAll user (List.replicate n (.invoked user)) screens = screens := by
  induction n with
  | zero => rfl
  | succ n ih =>
      have hcall : ¬ (AuthListener.invoked user).shouldCallListener user = true := by
        simp [AuthListener.shouldCallListener, AuthListener.invoked]
      rw [List.replicate_succ, invokeAll, if_neg hcall, ih]

namespace Navigation

variable {s t : Navigation}

/-- The screens of a launched app, its blocks, and who is signed in. -/
structure Gated (s : Navigation) : Prop where
  stacked : Stacked s.screens
  listens : ∃ n, s.Listens (n + 1)
  gate : ∃ screen, s.screens.head? = some screen ∧ (screen.isEntry = true ↔ s.currentUser = none)

/-- The screen on top. -/
lemma Gated.isEntry_iff (h : Gated s) {screen : Screen} (htop : s.screens.head? = some screen) :
    screen.isEntry = true ↔ s.currentUser = none := by
  obtain ⟨screen', htop', hiff⟩ := h.gate
  rwa [Option.some.inj (htop.symm.trans htop')]

/-- A login screen appears: it stays for a user who is signed out, and an inbox is
pushed for one who is signed in. -/
lemma gated_islogined {n : ℕ} (hl : s.Listens n) (hstacked : Stacked s.screens)
    (htop : s.screens.head? = some .login) : Gated s.islogined := by
  cases hu : s.currentUser with
  | none =>
      have hscreens : s.islogined.screens = s.screens := by
        show invokeAll s.currentUser [.new] s.screens = s.screens
        rw [hu, invokeAll_none]
      refine ⟨hscreens ▸ hstacked, ⟨n, hl.islogined⟩, .login, by rw [hscreens, htop], ?_⟩
      simp [Screen.isEntry, hu, islogined]
  | some uid =>
      have hscreens : s.islogined.screens = .messagecontroller :: s.screens := by
        show invokeAll s.currentUser [.new] s.screens = _
        rw [hu]
        rfl
      refine ⟨?_, ⟨n, hl.islogined⟩, .messagecontroller, by rw [hscreens]; rfl, ?_⟩
      · rw [hscreens]
        exact ⟨trivial, hstacked⟩
      · simp [Screen.isEntry, hu, islogined]

lemma gated_pushLogin {n : ℕ} (hl : s.Listens n) (hstacked : Stacked s.screens) :
    Gated s.pushLogin :=
  gated_islogined (s := s.push .login) (hl.push .login) ⟨trivial, hstacked⟩ rfl

namespace Gated

/-- A screen is pushed on one for the same users. -/
lemma push (h : Gated s) {screen below : Screen} (htop : s.screens.head? = some below)
    (hfits : screen.FitsOn (some below)) (hentry : screen.isEntry = below.isEntry) :
    Gated (s.push screen) := by
  refine ⟨⟨htop ▸ hfits, h.stacked⟩, h.listens, screen, rfl, ?_⟩
  rw [hentry]
  exact h.isEntry_iff htop

lemma pushLogin (h : Gated s) : Gated s.pushLogin := by
  obtain ⟨n, hl⟩ := h.listens
  exact gated_pushLogin hl h.stacked

/-- The notification of a change that the blocks know of. -/
lemma post (h : Gated s) : Gated s.post := by
  obtain ⟨n, hl⟩ := h.listens
  have hscreens : s.post.screens = s.screens := by
    show invokeAll s.currentUser s.listeners s.screens = s.screens
    rw [hl, invokeAll_invoked]
  refine ⟨hscreens ▸ h.stacked, ⟨n, hl.post⟩, ?_⟩
  rw [hscreens]
  exact h.gate

/-- **Somebody signs in.** If nobody was signed in, every block pushes an inbox, and
there is one; if somebody was, no entry screen was on top. -/
lemma setCurrentUser (h : Gated s) (uid : String) : Gated (s.setCurrentUser (some uid)) := by
  obtain ⟨n, hl⟩ := h.listens
  obtain ⟨m, hscreens⟩ : ∃ m : ℕ, (s.setCurrentUser (some uid)).screens =
      List.replicate m Screen.messagecontroller ++ s.screens :=
    ⟨_, invokeAll_eq uid s.listeners s.screens⟩
  refine ⟨hscreens ▸ h.stacked.inboxes m, ⟨n, hl.setCurrentUser _⟩, ?_⟩
  have hin : (s.setCurrentUser (some uid)).currentUser ≠ none := Option.some_ne_none uid
  cases hu : s.currentUser with
  | none =>
      have hpush : (s.setCurrentUser (some uid)).screens =
          List.replicate (n + 1) .messagecontroller ++ s.screens := by
        show invokeAll (some uid) s.listeners s.screens = _
        have hcall : (AuthListener.invoked none).shouldCallListener (some uid) = true := rfl
        rw [invokeAll_eq, hl, hu, List.countP_replicate, if_pos hcall]
      exact ⟨.messagecontroller, by rw [hpush]; rfl, by simp [Screen.isEntry, hin]⟩
  | some v =>
      obtain ⟨screen, htop, hiff⟩ := h.gate
      rw [hu] at hiff
      cases m with
      | zero =>
          refine ⟨screen, by rw [hscreens]; exact htop, ?_⟩
          rw [hiff]
          simp [hin]
      | succ m =>
          exact ⟨.messagecontroller, by rw [hscreens]; rfl, by simp [Screen.isEntry, hin]⟩

lemma handlelogout (h : Gated s) (signedOut : Bool) : Gated (s.handlelogout signedOut) := by
  rw [Navigation.handlelogout]
  split_ifs
  · obtain ⟨n, hl⟩ := h.listens
    refine gated_pushLogin (hl.setCurrentUser none) ?_
    show Stacked (invokeAll none s.listeners s.screens)
    rw [invokeAll_none]
    exact h.stacked
  · exact h.pushLogin

/-- The screen on top is popped: a registration gives way to a login screen, and a chat
log to the screen it was opened from. -/
lemma pop (h : Gated s) (htop : s.screens.head? ∈ [some .register, some .chatLogmessage]) :
    Gated s.pop := by
  obtain ⟨n, hl⟩ := h.listens
  have hstacked := h.stacked
  have hiff := fun screen (hs : s.screens.head? = some screen) => h.isEntry_iff hs
  cases hscreens : s.screens with
  | nil => simp [hscreens] at htop
  | cons screen below =>
      rw [hscreens] at htop hstacked
      have hentry := hiff screen (by rw [hscreens]; rfl)
      rw [Navigation.pop, hscreens, List.tail_cons]
      simp only [List.head?_cons, List.mem_cons, Option.some.injEq, List.not_mem_nil,
        or_false] at htop
      rcases htop with rfl | rfl
      · have hbelow : below.head? = some .login := hstacked.1
        simp only [hbelow, if_true]
        exact gated_islogined (s := { s with screens := below }) hl hstacked.2 hbelow
      · have hbelow : below.head? ∈ [some .messagecontroller, some .newmessage] := hstacked.1
        have hne : ¬ below.head? = some .login := by
          intro hlogin
          rw [hlogin] at hbelow
          simp at hbelow
        simp only [if_neg hne]
        refine ⟨hstacked.2, ⟨n, hl⟩, ?_⟩
        simp only [List.mem_cons, List.not_mem_nil, or_false] at hbelow
        rcases hbelow with hb | hb
        · exact ⟨.messagecontroller, hb, hentry⟩
        · exact ⟨.newmessage, hb, hentry⟩

/-- **Every step keeps the gate.** -/
lemma step (h : Gated s) {a : NavigationAction} (hstep : s.step a = some t) : Gated t := by
  cases a with
  | launch =>
      simp only [Navigation.step, Option.ite_none_right_eq_some] at hstep
      rw [← Option.some.inj hstep.2]
      exact h.pushLogin
  | movetoregister =>
      simp only [Navigation.step, Option.ite_none_right_eq_some] at hstep
      rw [← Option.some.inj hstep.2]
      exact h.push hstep.1 rfl rfl
  | move =>
      simp only [Navigation.step, Option.ite_none_right_eq_some] at hstep
      rw [← Option.some.inj hstep.2]
      exact h.pushLogin
  | back =>
      simp only [Navigation.step, Option.ite_none_right_eq_some] at hstep
      rw [← Option.some.inj hstep.2]
      exact h.pop hstep.1
  | signIn uid =>
      simp only [Navigation.step, Option.ite_none_right_eq_some] at hstep
      rw [← Option.some.inj hstep.2]
      exact h.setCurrentUser uid
  | createUser uid =>
      simp only [Navigation.step, Option.ite_none_right_eq_some] at hstep
      rw [← Option.some.inj hstep.2]
      exact h.setCurrentUser uid
  | tokenRefresh =>
      rw [← Option.some.inj hstep]
      exact h.post
  | handlelogout signedOut =>
      simp only [Navigation.step, Option.ite_none_right_eq_some] at hstep
      rw [← Option.some.inj hstep.2]
      exact h.handlelogout signedOut
  | handlemovetonewmesssage =>
      simp only [Navigation.step, Option.ite_none_right_eq_some] at hstep
      rw [← Option.some.inj hstep.2]
      exact h.push hstep.1 trivial rfl
  | didSelectRowAt =>
      simp only [Navigation.step, Option.ite_none_right_eq_some] at hstep
      obtain ⟨htop, hstep⟩ := hstep
      rw [← Option.some.inj hstep]
      simp only [List.mem_cons, List.not_mem_nil, or_false] at htop
      rcases htop with htop | htop
      · exact h.push htop (by simp [Screen.FitsOn]) rfl
      · exact h.push htop (by simp [Screen.FitsOn]) rfl
  | handlecancel =>
      simp only [Navigation.step, Option.ite_none_right_eq_some] at hstep
      obtain ⟨htop, hstep⟩ := hstep
      have hin : s.currentUser ≠ none := by
        rw [Ne, ← h.isEntry_iff htop]
        simp [Screen.isEntry]
      rw [← Option.some.inj hstep, pushMessagecontroller, if_neg hin]
      exact h.push htop trivial rfl

end Gated

/-- Before the launch nothing changes but the user. -/
lemma gated_or_init {u : Option String} {as : List NavigationAction}
    (h : Transition.run Navigation.step (init u) as = some s) : Gated s ∨ s = init u := by
  refine Transition.run_invariant (I := fun s => Gated s ∨ s = init u) (fun s a t hs hstep => ?_)
    (Or.inr rfl) h
  rcases hs with hs | rfl
  · exact Or.inl (hs.step hstep)
  · cases a with
    | launch =>
        simp only [Navigation.step, Option.ite_none_right_eq_some] at hstep
        rw [← Option.some.inj hstep.2]
        exact Or.inl (gated_pushLogin (n := 0) rfl trivial)
    | tokenRefresh => exact Or.inr (Option.some.inj hstep).symm
    | _ => simp [Navigation.step, init] at hstep

/-- **The gate.** In every run of the app, with any sign-ins, registrations, sign-outs
that fail or not, and buttons, in any order, and with a user kept from the last run or
none: once the app is launched there is a screen on top, and it is a login or a
registration screen exactly when nobody is signed in. -/
theorem gate {u : Option String} {as : List NavigationAction}
    (h : Transition.run Navigation.step (init u) as = some s) (hlaunched : s.screens ≠ []) :
    ∃ screen, s.screens.head? = some screen ∧
      (screen ∈ [.login, .register] ↔ s.currentUser = none) := by
  rcases gated_or_init h with hs | rfl
  · obtain ⟨screen, htop, hiff⟩ := hs.gate
    refine ⟨screen, htop, ?_⟩
    rw [← hiff]
    cases screen <;> simp [Screen.isEntry]
  · exact absurd rfl hlaunched

/-- A chat log that `a` has left by signing out. -/
theorem gate_signedOut : ∃ s screen,
    Transition.run Navigation.step (init none) [.launch, .signIn "a", .didSelectRowAt, .back,
      .handlelogout true] = some s ∧ s.screens.head? = some screen ∧
        (screen ∈ [.login, .register] ↔ s.currentUser = none) := by
  obtain ⟨s, hs, hlaunched⟩ : ∃ s, Transition.run Navigation.step (init none)
      [.launch, .signIn "a", .didSelectRowAt, .back, .handlelogout true] = some s ∧
        s.screens ≠ [] := ⟨_, rfl, by decide⟩
  obtain ⟨screen, hscreen⟩ := gate hs hlaunched
  exact ⟨s, screen, hs, hscreen⟩

end Navigation

end AppChat
