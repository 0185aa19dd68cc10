import AppChat.Chat.OnceEach

/-!
In which order the chat screen lists the messages.

The record of every message is read by a listener of its own, and each message
is appended when its record is delivered.

* `delivered`: the messages of the conversation in the order of delivery;
  `arrayMessage_run` says that these are the rows of the screen.
* `Chronological`: the rows go by timestamp, and the last one, to which the
  screen scrolls, is a newest one.
* `chronological_iff`: this holds in every state of a run exactly when the
  records are delivered in the order of the timestamps.
-/

namespace AppChat

namespace ChatLog

variable {uid : String} {record : String → Mess} {p : String} {s s' : ChatLog}

/-- The messages of the conversation with `p`, in the order in which their
records are delivered. -/
def delivered (uid : String) (record : String → Mess) (p : String) (as : List ChatAction) :
    List Mess :=
  as.filterMap fun
    | .value k => if (record k).getChatPartnerId (some uid) = p then some (record k) else none
    | _ => none

/-- Before the user is set, nothing listens and nothing is on its way. -/
structure Unheard (s : ChatLog) : Prop where
  inner : ∀ q, s.inner q = 0
  values : s.values = []
  partnerEvents : s.partnerEvents = []
  keyEvents : s.keyEvents = []
  valueEvents : s.valueEvents = []

lemma unheard_step {a : ChatAction} (hs : s.outer = 0 → s.Unheard)
    (h : s.step uid record p a = some s') : s'.outer = 0 → s'.Unheard := by
  cases step_moves h with
  | setUser =>
      intro houter
      exact absurd houter (Nat.succ_ne_zero s.outer)
  | added q k hq hnew =>
      intro houter
      have hu := hs houter
      have hkey : s.keyEvents ++ List.replicate (s.inner q) (q, k) = [] := by
        rw [hu.keyEvents, hu.inner q]
        rfl
      refine ⟨hu.inner, hu.values, ?_, hkey, hu.valueEvents⟩
      show (if s.keys q = [] then s.partnerEvents ++ List.replicate s.outer q
        else s.partnerEvents) = []
      rw [show s.outer = 0 from houter, hu.partnerEvents]
      split_ifs <;> rfl
  | removed q =>
      intro houter
      exact ⟨(hs houter).1, (hs houter).2, (hs houter).3, (hs houter).4, (hs houter).5⟩
  | partnerAdded q hq =>
      intro houter
      rw [(hs houter).partnerEvents] at hq
      cases hq
  | keyAdded q k hk =>
      intro houter
      rw [(hs houter).keyEvents] at hk
      cases hk
  | value k hk =>
      intro houter
      rw [(hs houter).valueEvents] at hk
      cases hk
  | changed k hk =>
      intro houter
      rw [(hs houter).values] at hk
      cases hk

/-- A record is delivered only once the user is set. -/
lemma user_eq_of_mem_valueEvents {as : List ChatAction}
    (h : Transition.run (step uid record p) init as = some s) {k : String}
    (hk : k ∈ s.valueEvents) : s.user = some p := by
  have hfiled : Filed uid record p s :=
    Transition.run_invariant (fun _ _ _ hs hstep => hs.step hstep) filed_init h
  have hunheard : s.outer = 0 → s.Unheard :=
    Transition.run_invariant (I := fun s : ChatLog => s.outer = 0 → s.Unheard)
      (fun _ _ _ hs hstep => unheard_step hs hstep) (fun _ => ⟨fun _ => rfl, rfl, rfl, rfl, rfl⟩) h
  rw [hfiled.user, if_neg]
  intro houter
  rw [(hunheard houter).valueEvents] at hk
  cases hk

/-- **The rows are the messages delivered**, in this order. -/
lemma arrayMessage_run {as : List ChatAction}
    (h : Transition.run (step uid record p) init as = some s) :
    s.arrayMessage = delivered uid record p as := by
  induction as using List.reverseRecOn generalizing s with
  | nil =>
      obtain rfl : init = s := by simpa using h
      rfl
  | append_singleton as a ih =>
      obtain ⟨t, ht, hstep⟩ := Transition.run_concat_eq_some.mp h
      have harr := ih ht
      rw [delivered, List.filterMap_append, ← delivered, ← harr]
      cases step_moves hstep with
      | value k hk =>
          have huser := user_eq_of_mem_valueEvents ht hk
          by_cases hp : (record k).getChatPartnerId (some uid) = p
          · simp [value, huser, hp]
          · simp [value, huser, hp]
      | setUser => exact (List.append_nil _).symm
      | added q k hq hnew => exact (List.append_nil _).symm
      | removed q => exact (List.append_nil _).symm
      | partnerAdded q hq => exact (List.append_nil _).symm
      | keyAdded q k hk => exact (List.append_nil _).symm
      | changed k hk => exact (List.append_nil _).symm

/-- The rows go by timestamp, and none is newer than the last, to which the
screen scrolls. -/
structure Chronological (rows : List Mess) : Prop where
  sorted : rows.Pairwise fun m m' => m.timestapm ≤ m'.timestapm
  newest : ∀ m ∈ rows, ∀ last ∈ rows.getLast?, m.timestapm ≤ last.timestapm

/-- In rows that go by timestamp, the last is a newest one. -/
lemma chronological_of_pairwise {rows : List Mess}
    (h : rows.Pairwise fun m m' => m.timestapm ≤ m'.timestapm) : Chronological rows := by
  refine ⟨h, fun m hm last hlast => ?_⟩
  obtain ⟨earlier, hrows⟩ := List.getLast?_eq_some_iff.mp hlast
  rw [hrows, List.pairwise_append] at h
  rw [hrows, List.mem_append, List.mem_singleton] at hm
  rcases hm with hm | rfl
  · exact h.2.2 m hm last (List.mem_singleton_self _)
  · exact le_rfl

/-- **The chat screen lists the messages in the order of delivery.** In every
state of a run the rows go by timestamp, with a newest message received so far
at the bottom, if and only if the records of the conversation are delivered in
the order of their timestamps. -/
theorem chronological_iff {as : List ChatAction}
    (h : Transition.run (step uid record p) init as = some s) :
    (∀ bs t, bs <+: as → Transition.run (step uid record p) init bs = some t →
      Chronological t.arrayMessage) ↔
    (delivered uid record p as).Pairwise fun m m' => m.timestapm ≤ m'.timestapm := by
  constructor
  · intro hall
    have hrows := (hall as s List.prefix_rfl h).sorted
    rwa [arrayMessage_run h] at hrows
  · intro hsorted bs t hbs ht
    rw [arrayMessage_run ht]
    have hprefix : delivered uid record p bs <+: delivered uid record p as := hbs.filterMap _
    exact chronological_of_pairwise (hsorted.sublist hprefix.sublist)

/-- A later message from `b` to `a`, and the records of the two. -/
def answer : Mess := ⟨"a", "b", 2, "how are you", "", ""⟩
def twoMessages (key : String) : Mess := if key = "k" then greeting else answer

/-- The chat is opened on the two messages. -/
def openTwo : List ChatAction :=
  [.added "b" "k", .added "b" "l", .setUser, .partnerAdded "b", .keyAdded "b" "k",
    .keyAdded "b" "l"]

/-- The records are delivered in the order of the messages. -/
theorem chronological_inOrder : ∃ s,
    Transition.run (step "a" twoMessages "b") init (openTwo ++ [.value "k", .value "l"]) =
      some s ∧ Chronological s.arrayMessage := by
  have hrun : (Transition.run (step "a" twoMessages "b") init
      (openTwo ++ [.value "k", .value "l"])).isSome = true := by
    decide +kernel
  obtain ⟨s, hs⟩ := Option.isSome_iff_exists.mp hrun
  have hsorted : (delivered "a" twoMessages "b" (openTwo ++ [.value "k", .value "l"])).Pairwise
      fun m m' => m.timestapm ≤ m'.timestapm := by
    decide +kernel
  exact ⟨s, hs, (chronological_iff hs).mpr hsorted _ s List.prefix_rfl hs⟩

/-- **The later message first**: its record is delivered first, and the screen
scrolls to the earlier one. -/
theorem not_chronological_lateFirst : ∃ s,
    Transition.run (step "a" twoMessages "b") init (openTwo ++ [.value "l", .value "k"]) =
      some s ∧ s.arrayMessage = [answer, greeting] ∧ ¬ Chronological s.arrayMessage := by
  have hrun : ((Transition.run (step "a" twoMessages "b") init
      (openTwo ++ [.value "l", .value "k"])).map fun s =>
        decide (s.arrayMessage = [answer, greeting])) = some true := by
    decide +kernel
  obtain ⟨s, hs, h⟩ := Option.map_eq_some_iff.mp hrun
  have harr : s.arrayMessage = [answer, greeting] := of_decide_eq_true h
  refine ⟨s, hs, harr, fun hchron => ?_⟩
  have hle := hchron.newest answer (by simp [harr]) greeting (by simp [harr])
  exact absurd hle (by decide)

end ChatLog

end AppChat
