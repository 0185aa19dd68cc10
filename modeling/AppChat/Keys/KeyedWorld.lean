import AppChat.Keys.ChildByAutoId
import AppChat.System.Integrity

/-!
The system in which the apps make their keys.

`World` gives a send any key that was never given and is no user id. Here each app has
the variables of `FNextPushId`, and a send takes its key from `childByAutoId`, which looks
nothing up.

* `KeyedWorld.step`, `KeyedWorld.action`: the step of this system, and the action of `World`
  that it is.
* `KeyedWorld.Clocked`: the clocks of the apps have been apart so far, and no user id is as
  long as an id.
* `KeyedMoves`: the steps, with what the apps that make a key go on to do.
* `KeyedWorld.step_follows`: under this condition a step is a step of `World`.
* `KeyedWorld.runs_with_fresh_keys`: so the runs are runs of `World`, whose keys are those the apps
  have made.
-/

namespace AppChat

/-- A key is given in the step. -/
def Action.givesKey : Action → Bool
  | .send (.sendText _ _ _ _) => true
  | .send (.imageURLDone _ (some _) _ _) => true
  | _ => false

/-- A step that gives no key leaves the keys alone. -/
lemma World.step_keys_eq {w w' : World} {a : Action} (h : w.step a = some w')
    (ha : a.givesKey = false) : w'.keys = w.keys := by
  cases a with
  | auth a =>
      obtain ⟨devices, rfl⟩ := authStep_cases h
      rfl
  | screen a =>
      obtain ⟨devices, chats, rfl⟩ := screenStep_cases h
      rfl
  | register a =>
      cases registerStep_moves h with
      | createUserDone s uid g r hg hr hst huid hkey hemail =>
          exact (createUserDone_frame w s g r uid).2.1
      | _ => rfl
  | delete a =>
      rcases deleteStep_cases h with ⟨x, d, arrayMess, row, rfl, hw'⟩ | ⟨x, del, rfl, -, rfl⟩ |
        ⟨x, del, rfl, rfl⟩
      · rcases hw' with rfl | rfl | ⟨del, rfl⟩ <;> rfl
      · rfl
      · rfl
  | send a =>
      cases sendStep_moves h with
      | text => cases ha
      | media => cases ha
      | _ => rfl

namespace World

variable {w : World} {i : SendId} {ch : ChatLogmessage} {key : String} {now : ℤ}

/-- A text adds its key at most, and takes no account away. -/
lemma sendDataToFirebase_keys {c : ChatId} :
    w.uids ⊆ (w.sendDataToFirebase i c ch key now).uids ∧
      (w.sendDataToFirebase i c ch key now).keys ⊆ key :: w.keys := by
  rw [sendDataToFirebase]
  split
  · exact ⟨List.Subset.refl _, List.subset_cons_self _ _⟩
  · exact ⟨List.Subset.refl _, List.Subset.refl _⟩

/-- So does an image, or a video. -/
lemma imageCompletion_keys {s : Send} {completion : ImageCompletion} {url : String} :
    w.uids ⊆ (w.imageCompletion i s ch completion url key now).uids ∧
      (w.imageCompletion i s ch completion url key now).keys ⊆ key :: w.keys := by
  unfold imageCompletion
  split
  · exact ⟨List.Subset.refl _, List.subset_cons_self _ _⟩
  · exact ⟨List.Subset.refl _, List.Subset.refl _⟩
  · exact ⟨List.Subset.refl _, List.Subset.refl _⟩

end World

/-- The system, the variables of `FNextPushId` in each app, and the calls of `get` so far. -/
structure KeyedWorld where
  world : World
  clients : DeviceId → NextPushId
  calls : List (DeviceId × PushCall)

/-- A send that needs a key says when it asks for it, and what `arc4random` would give. -/
inductive KeyedAction where
  | sendText (i : SendId) (c : ChatId) (call : PushCall) (now : ℤ)
  | imageURLDone (i : SendId) (url : String) (call : PushCall) (now : ℤ)
  | other (a : Action)

namespace KeyedWorld

/-- Apps that have run before: the variables are whatever they are. -/
def init (clients : DeviceId → NextPushId) : KeyedWorld := ⟨.init, clients, []⟩

/-- `ref.child("mess").childByAutoId()` with its `key`. -/
def childByAutoId (s : KeyedWorld) (d : DeviceId) (call : PushCall) :
    Option (String × KeyedWorld) :=
  (FPath.childByAutoId ["mess".toList] (s.clients d) call).map fun (path, t) =>
    (.ofList (path.getLast?.getD []),
      { s with clients := Function.update s.clients d t, calls := s.calls ++ [(d, call)] })

def step (s : KeyedWorld) : KeyedAction → Option KeyedWorld
  | .sendText i c call now =>
      (s.world.chats c).bind fun ch =>
        if (s.world.devices ch.device).running ∧ s.world.sends i = none then
          (s.childByAutoId ch.device call).map fun (key, t) =>
            { t with world := s.world.sendDataToFirebase i c ch key now }
        else none
  | .imageURLDone i url call now =>
      (s.world.sends i).bind fun send => (s.world.chats send.chat).bind fun ch =>
        match send.stage with
        | .imageURL _ completion =>
            if (s.world.devices send.device).running then
              (s.childByAutoId send.device call).map fun (key, t) =>
                { t with world := s.world.imageCompletion i send ch completion url key now }
            else none
        | _ => none
  | .other a =>
      if a.givesKey then none else (s.world.step a).map fun w => { s with world := w }

/-- The step of `World`, with the key that has been made. -/
def action (s : KeyedWorld) : KeyedAction → Option Action
  | .sendText i c call now =>
      (s.world.chats c).bind fun ch => (s.childByAutoId ch.device call).map fun (key, _) =>
        .send (.sendText i c key now)
  | .imageURLDone i url call now =>
      (s.world.sends i).bind fun send => (s.childByAutoId send.device call).map fun (key, _) =>
        .send (.imageURLDone i (some url) key now)
  | .other a => some a

/-- The clocks have been apart so far, and no user id is as long as an id. -/
structure Clocked (s : KeyedWorld) : Prop where
  apart : s.calls.Pairwise Clients.Apart
  now : ∀ a ∈ s.calls, a.2.now < 64 ^ 8
  uid : ∀ uid ∈ s.world.uids, (unichars uid).length ≠ 20

/-- All keys of the system have been made by the apps. -/
def Keyed (s : KeyedWorld) : Prop :=
  ∀ k ∈ s.world.keys, Clients.Given s.calls s.clients (unichars k)

variable {s s' : KeyedWorld} {d : DeviceId} {call : PushCall} {key : String}

/-- What `childByAutoId` makes. -/
lemma childByAutoId_eq_some {t : KeyedWorld} (h : s.childByAutoId d call = some (key, t)) :
    ∃ u, (s.clients d).step call = some u ∧ key = idString u.lastId ∧
      t = { s with clients := Function.update s.clients d u, calls := s.calls ++ [(d, call)] } := by
  obtain ⟨⟨path, u⟩, hpath, heq⟩ := Option.map_eq_some_iff.mp h
  have hmess : ["mess".toList].head? ≠ some kDotInfoPrefix := by decide
  have hu : (s.clients d).step call = some u := by
    rw [FPath.childByAutoId, if_neg hmess, Option.bind_eq_some_iff] at hpath
    obtain ⟨⟨name, u'⟩, hget, hchild⟩ := hpath
    obtain ⟨path', -, hpair⟩ := Option.map_eq_some_iff.mp hchild
    cases hpair
    rw [NextPushId.step, hget]
    rfl
  rw [AppChat.childByAutoId_eq hmess hu] at hpath
  obtain ⟨hlast, -⟩ := Prod.mk.inj (Option.some.inj hpath)
  obtain ⟨rfl, rfl⟩ := Prod.mk.inj heq
  refine ⟨u, hu, ?_, rfl⟩
  rw [← hlast, List.getLast?_concat, Option.getD_some, String.ofList_toList]

/-- **The key that is made is fresh**, and joins those that have been made. -/
lemma freshKey (hs : s.Keyed) {u : NextPushId} (hu : (s.clients d).step call = some u)
    (hapart : (s.calls ++ [(d, call)]).Pairwise Clients.Apart)
    (hnow : ∀ a ∈ s.calls ++ [(d, call)], a.2.now < 64 ^ 8)
    (huid : ∀ uid ∈ s.world.uids, (unichars uid).length ≠ 20) :
    s.world.FreshKey (idString u.lastId) ∧
      ∀ k ∈ idString u.lastId :: s.world.keys,
        Clients.Given (s.calls ++ [(d, call)]) (Function.update s.clients d u) (unichars k) := by
  obtain ⟨-, -, hlast⟩ := List.pairwise_append.mp hapart
  have hcall : ∀ a ∈ s.calls, Clients.Apart a (d, call) := fun a ha => hlast a ha _ (by simp)
  have hbound : ∀ a ∈ s.calls, a.2.now < 64 ^ 8 := fun a ha => hnow a (List.mem_append_left _ ha)
  have hc : call.now < 64 ^ 8 := hnow (d, call) (by simp)
  refine ⟨Clients.freshKey_lastId hu hcall hbound hc hs huid, fun k hk => ?_⟩
  rcases List.mem_cons.mp hk with rfl | hk
  · have hunichars : unichars (idString u.lastId) = u.lastId := unichars_idString
    rw [hunichars]
    exact Clients.given_lastId hu
  · exact (Clients.given_step hu hcall hbound hc (hs k hk)).2

/-- **The steps**: a step of `World` that gives no key, or an app makes a key with a call
and goes on under it, as `World` does if the key is fresh. -/
inductive KeyedMoves (s : KeyedWorld) : KeyedAction → KeyedWorld → Prop where
  | other (a : Action) (w : World) (ha : a.givesKey = false) (hw : s.world.step a = some w) :
      KeyedMoves s (.other a) { s with world := w }
  | made (a : KeyedAction) (b : Action) (d : DeviceId) (call : PushCall) (u : NextPushId)
      (w : World) (hu : (s.clients d).step call = some u) (hb : s.action a = some b)
      (huids : s.world.uids ⊆ w.uids) (hkeys : w.keys ⊆ idString u.lastId :: s.world.keys)
      (hw : s.world.FreshKey (idString u.lastId) → s.world.step b = some w) :
      KeyedMoves s a ⟨w, Function.update s.clients d u, s.calls ++ [(d, call)]⟩

/-- **Every step is one of these.** -/
lemma step_moves {a : KeyedAction} (h : s.step a = some s') : KeyedMoves s a s' := by
  cases a with
  | sendText i c call now =>
      simp only [step, Option.bind_eq_some_iff, Option.ite_none_right_eq_some,
        Option.map_eq_some_iff] at h
      obtain ⟨ch, hch, ⟨hrun, hi⟩, ⟨key, t⟩, hmake, rfl⟩ := h
      obtain ⟨u, hu, rfl, rfl⟩ := childByAutoId_eq_some hmake
      obtain ⟨huids, hkeys⟩ := World.sendDataToFirebase_keys
      refine .made _ (.send (.sendText i c (idString u.lastId) now)) ch.device call u _ hu ?_
        huids hkeys fun hfresh => ?_
      · rw [action, hch, Option.bind_some, hmake, Option.map_some]
      · rw [World.step, World.sendStep, hch, Option.bind_some, if_pos ⟨hrun, hi, hfresh⟩]
  | imageURLDone i url call now =>
      simp only [step, Option.bind_eq_some_iff] at h
      obtain ⟨send, hsend, ch, hch, h⟩ := h
      split at h
      · rename_i path completion hst
        rw [Option.ite_none_right_eq_some, Option.map_eq_some_iff] at h
        obtain ⟨hrun, ⟨key, t⟩, hmake, rfl⟩ := h
        obtain ⟨u, hu, rfl, rfl⟩ := childByAutoId_eq_some hmake
        obtain ⟨huids, hkeys⟩ := World.imageCompletion_keys
        refine .made _ (.send (.imageURLDone i (some url) (idString u.lastId) now)) send.device
          call u _ hu ?_ huids hkeys fun hfresh => ?_
        · rw [action, hsend, Option.bind_some, hmake, Option.map_some]
        · simp only [World.step, World.sendStep, hsend, hch, Option.bind_some, hst]
          rw [if_pos ⟨hrun, hfresh⟩]
      · cases h
  | other a =>
      rw [step, Option.ite_none_left_eq_some, Option.map_eq_some_iff] at h
      obtain ⟨ha, w, hw, rfl⟩ := h
      exact .other a w (Bool.eq_false_of_not_eq_true ha) hw

/-- The calls and the user ids before a step are there after it. -/
lemma Clocked.back {a : KeyedAction} (hs' : s'.Clocked) (h : s.step a = some s') : s.Clocked := by
  cases step_moves h with
  | other a w ha hw =>
      exact ⟨hs'.apart, hs'.now, fun uid huid => hs'.uid uid (World.step_uids hw huid)⟩
  | made a b d call u w hu hb huids hkeys hw =>
      exact ⟨hs'.apart.sublist (List.sublist_append_left _ _),
        fun a ha => hs'.now a (List.mem_append_left _ ha), fun uid huid => hs'.uid uid (huids huid)⟩

/-- **Such a step is a step of `World`**, under the key that is made. -/
lemma step_follows {a : KeyedAction} (hs : s.Keyed) (hs' : s'.Clocked)
    (h : s.step a = some s') :
    ∃ b, s.action a = some b ∧ s.world.step b = some s'.world ∧ s'.Keyed := by
  have hclocked := hs'.back h
  cases step_moves h with
  | other a w ha hw =>
      refine ⟨a, rfl, hw, fun k hk => hs k ?_⟩
      rwa [← World.step_keys_eq hw ha]
  | made a b d call u w hu hb huids hkeys hw =>
      obtain ⟨hfresh, hgiven⟩ := freshKey hs hu hs'.apart hs'.now hclocked.uid
      exact ⟨b, hb, hw hfresh, fun k hk => hgiven k (hkeys hk)⟩

/-- **The system whose apps make their keys is `World`**: in every run in which the clocks
are apart and no user id is as long as an id, what happens is a run of `World`, each send
being under the key that its app has made. -/
theorem runs_with_fresh_keys {clients : DeviceId → NextPushId} {as : List KeyedAction}
    (h : Transition.run step (init clients) as = some s) (hs : s.Clocked) :
    World.Runs (Transition.trace step action (init clients) as) s.world := by
  have hboth : s.Clocked → World.Runs (Transition.trace step action (init clients) as) s.world ∧
      s.Keyed := by
    refine Transition.run_induction (I := fun as s => s.Clocked →
      World.Runs (Transition.trace step action (init clients) as) s.world ∧ s.Keyed) ?_ ?_ h
    · intro _
      exact ⟨rfl, fun k hk => absurd hk List.not_mem_nil⟩
    · intro as s a t hrun ih hstep ht
      obtain ⟨hruns, hkeyed⟩ := ih (ht.back hstep)
      obtain ⟨b, hb, hw, hkeyed'⟩ := step_follows hkeyed ht hstep
      refine ⟨?_, hkeyed'⟩
      rw [Transition.trace_concat hrun, hb]
      exact Transition.run_concat_eq_some.mpr ⟨s.world, hruns, hw⟩
  exact (hboth hs).1

/-- The app of `a` makes the key of a first text, as its first key in a millisecond. -/
def firstText : List KeyedAction :=
  (World.registration 0 "a" ++ World.registration 1 "b" ++ World.newmessage 0 0 "b").map .other ++
    [.sendText 0 0 ⟨5, NextPushId.init.lastRandChars⟩ 0, .other (.send (.recordApplied 0))]

/-- The record of this text is under a key that is an id. -/
theorem runs_with_fresh_keys_firstText :
    ∃ w, World.Runs (Transition.trace step action (init fun _ => .init) firstText) w ∧
      w.keys = [idString (pushId 5 NextPushId.init.lastRandChars)] := by
  have hrun : (Transition.run step (init fun _ => .init) firstText).map (fun s =>
      decide (s.calls.Pairwise Clients.Apart ∧ (∀ a ∈ s.calls, a.2.now < 64 ^ 8) ∧
        (∀ uid ∈ s.world.uids, (unichars uid).length ≠ 20) ∧
        s.world.keys = [idString (pushId 5 NextPushId.init.lastRandChars)])) = some true := by
    decide +kernel
  obtain ⟨s, hs, h⟩ := Option.map_eq_some_iff.mp hrun
  obtain ⟨hapart, hnow, huid, hkeys⟩ := of_decide_eq_true h
  exact ⟨s.world, runs_with_fresh_keys hs ⟨hapart, hnow, huid⟩, hkeys⟩

end KeyedWorld

end AppChat
