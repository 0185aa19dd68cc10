import AppChat.System.LiveInbox
import AppChat.System.UserView
import AppChat.System.ViewChange

/-!
The rows of an inbox in the whole system.

* `LiveInbox.Undeleted`: the condition on the steps. The app does not see the
  conversation of `uid` with `p` deleted, no entry of its own in it is rejected, and no
  completion block of a deletion runs in this inbox.
* `LiveInbox.lists_partner`: then, with no event on its way, the inbox has a row of `p`
  exactly when the app sees an entry of this conversation.
* `LiveInbox.listens_at_most_thrice`: a user record is stored once, so the inbox clears
  itself and listens to the index at most twice, and once more if the record was
  rejected.
-/

namespace AppChat

open LastWins Transition

namespace LiveInbox

variable {uid : String} {d : DeviceId} {p : String} {s s' : LiveInbox}

/-! ### The partners of the rows -/

variable (uid d p) in
/-- The app keeps what it sees of the conversation with `p` in this step, and no row is
taken out. -/
def Undeleted (s : LiveInbox) (a : LiveInboxAction) : Prop :=
  (∀ b ∈ s.worldAction d a, s.client.Keeps d uid p b) ∧ ∀ x, a ≠ .removeValueDone x

instance (s : LiveInbox) : DecidablePred (Undeleted uid d p s)
  | .removeValueDone x => isFalse fun h => h.2 x rfl
  | .world b => decidable_of_iff (s.client.Keeps d uid p b) (by simp [Undeleted, worldAction])
  | .didSelectRowAt c row =>
      decidable_of_iff (s.client.Keeps d uid p (.screen (.inboxSelect c d s.box.arrayMess row)))
        (by simp [Undeleted, worldAction])
  | .commitEditingStyle x row =>
      decidable_of_iff (s.client.Keeps d uid p (.delete (.commit x d s.box.arrayMess row)))
        (by simp [Undeleted, worldAction])
  | .checkuserInputtitle => isTrue (by simp [Undeleted, worldAction])
  | .profileValue => isTrue (by simp [Undeleted, worldAction])
  | .partnerAdded _ => isTrue (by simp [Undeleted, worldAction])
  | .keyAdded _ _ => isTrue (by simp [Undeleted, worldAction])
  | .getMessage2 _ _ => isTrue (by simp [Undeleted, worldAction])
  | .handleCallData => isTrue (by simp [Undeleted, worldAction])
  | .removeValueFailed _ => isTrue (by simp [Undeleted, worldAction])

variable (uid p s) in
/-- What the inbox has been told of the conversation with `p` is still there, and no
removal of it is on its way. -/
structure Kept : Prop where
  undropped : IndexEvent.dropped uid p ∉ writeEvents s.client.writes
  key : ∀ k, (p, k) ∈ s.feed.keyEvents → s.client.view.Present ["user-mess", uid, p, k]
  value : ∀ k ∈ s.feed.valueEvents, s.world.Between uid p k →
    s.client.view.Present ["user-mess", uid, p, k]
  dictionary : p ∈ s.box.messageDictionary → ∃ k, s.client.view.Present ["user-mess", uid, p, k]

lemma kept_init : Kept uid p init where
  undropped := by
    intro h
    cases h
  key := by
    intro k hk
    cases hk
  value := by
    intro k hk
    cases hk
  dictionary h := absurd h (by simp [init, Inbox.empty])

namespace Kept

/-- The world goes on, and the conversation is kept. -/
lemma worldChanged (h : Kept uid p s) (hs : Sound uid s) {a : Action} {client : Client}
    (hstep : s.client.step d a = some client) (ha : s.client.Keeps d uid p a) :
    Kept uid p (s.worldChanged uid client) where
  undropped he := (Client.mem_writeEvents_step hstep he).elim h.undropped ha.1
  key k hk := by
    rcases List.mem_append.mp hk with hk | hk
    · exact hs.ok.present_mono hstep ha h.undropped (h.key k hk)
    · obtain ⟨e, he, hrep⟩ := List.mem_flatMap.mp hk
      obtain rfl := List.eq_of_mem_replicate hrep
      exact (mem_newKeys.mp he).1
  value k hk hbetween := by
    -- the event is one of a key of some partner, who is this one
    obtain ⟨q, hq⟩ := hs.backed.value k hk
    obtain rfl := (hs.ok.step hstep).consistent.between_unique hbetween
      (hq.step (Client.world_step hstep))
    exact hs.ok.present_mono hstep ha h.undropped (h.value k hk hq)
  dictionary hp := by
    obtain ⟨k, hk⟩ := h.dictionary hp
    exact ⟨k, hs.ok.present_mono hstep ha h.undropped hk⟩

/-- **A step that deletes nothing keeps what the inbox has been told.** -/
lemma step (h : Kept uid p s) (hs : Sound uid s) {a : LiveInboxAction}
    (ha : Undeleted uid d p s a) (hstep : s.step uid d a = some s') : Kept uid p s' := by
  cases a with
  | world a =>
      simp only [LiveInbox.step, Option.map_eq_some_iff] at hstep
      obtain ⟨client, hclient, rfl⟩ := hstep
      exact h.worldChanged hs hclient (ha.1 a rfl)
  | checkuserInputtitle | handleCallData | removeValueFailed =>
      simp only [LiveInbox.step, Option.ite_none_right_eq_some] at hstep
      rw [← Option.some.inj hstep.2]
      exact ⟨h.undropped, h.key, h.value, h.dictionary⟩
  | profileValue =>
      simp only [LiveInbox.step, Option.ite_none_right_eq_some] at hstep
      rw [← Option.some.inj hstep.2]
      exact ⟨h.undropped, h.key, h.value, fun hp => absurd hp (AList.notMem_empty p)⟩
  | partnerAdded q =>
      simp only [LiveInbox.step, Option.ite_none_right_eq_some] at hstep
      rw [← Option.some.inj hstep.2]
      refine ⟨h.undropped, fun k hk => ?_, h.value, h.dictionary⟩
      rcases List.mem_append.mp hk with hk | hk
      · exact h.key k hk
      · obtain ⟨k', hk', heq⟩ := List.mem_map.mp hk
        obtain ⟨rfl, rfl⟩ := Prod.mk.inj heq
        exact PathTree.mem_childKeys.mp hk'
  | keyAdded q k =>
      simp only [LiveInbox.step, Option.ite_none_right_eq_some] at hstep
      obtain ⟨⟨-, hk⟩, hstep⟩ := hstep
      rw [Feed.hasKey_iff] at hk
      rw [← Option.some.inj hstep]
      refine ⟨h.undropped, fun k' hk' => h.key k' (List.mem_of_mem_erase hk'),
        fun k' hk' hbetween => ?_, h.dictionary⟩
      rcases List.mem_append.mp hk' with hk' | hk'
      · exact h.value k' hk' hbetween
      · obtain rfl := List.mem_singleton.mp hk'
        obtain rfl := hs.ok.consistent.between_unique hbetween (hs.backed.key q k' hk)
        exact h.key k' hk
  | getMessage2 k arr =>
      simp only [LiveInbox.step, Option.ite_none_right_eq_some] at hstep
      obtain ⟨⟨-, hk⟩, hstep⟩ := hstep
      obtain ⟨q, b, hb, rfl, hvalue⟩ := hs.exists_message hk
      rw [hvalue] at hstep
      rw [← Option.some.inj (Option.ite_none_right_eq_some.mp hstep).2]
      refine ⟨h.undropped, h.key, fun k' hk' => h.value k' (List.mem_of_mem_erase hk'),
        fun hp => ?_⟩
      rcases (AList.mem_insert _).mp hp with hp | hp
      · rw [hb.getChatPartnerId] at hp
        subst hp
        exact ⟨b.key, h.value b.key hk hb.between⟩
      · exact h.dictionary hp
  | didSelectRowAt c row =>
      simp only [LiveInbox.step, Option.ite_none_right_eq_some, Option.map_eq_some_iff] at hstep
      obtain ⟨-, client, hclient, rfl⟩ := hstep
      exact h.worldChanged hs hclient (ha.1 _ rfl)
  | commitEditingStyle x row =>
      simp only [LiveInbox.step, Option.ite_none_right_eq_some, Option.map_eq_some_iff] at hstep
      obtain ⟨-, client, hclient, rfl⟩ := hstep
      have hkept := h.worldChanged hs hclient (ha.1 _ rfl)
      exact ⟨hkept.undropped, hkept.key, hkept.value, hkept.dictionary⟩
  | removeValueDone x => exact absurd rfl (ha.2 x)

end Kept

/-- The array has all the messages of the dictionary. -/
def AllRows (s : LiveInbox) : Prop := ∀ m ∈ values s.box.messageDictionary, m ∈ s.box.arrayMess

/-- Only the completion block of a deletion takes a row out of the array. -/
lemma AllRows.step (h : s.AllRows) (hs : Sound uid s) {a : LiveInboxAction}
    (ha : ∀ x, a ≠ .removeValueDone x) (hstep : s.step uid d a = some s') : s'.AllRows := by
  cases a with
  | world a =>
      simp only [LiveInbox.step, Option.map_eq_some_iff] at hstep
      obtain ⟨client, -, rfl⟩ := hstep
      exact h
  | checkuserInputtitle | partnerAdded | keyAdded | handleCallData | removeValueFailed =>
      simp only [LiveInbox.step, Option.ite_none_right_eq_some] at hstep
      rw [← Option.some.inj hstep.2]
      exact h
  | profileValue =>
      simp only [LiveInbox.step, Option.ite_none_right_eq_some] at hstep
      rw [← Option.some.inj hstep.2]
      intro m hm
      cases hm
  | getMessage2 k arr =>
      simp only [LiveInbox.step, Option.ite_none_right_eq_some] at hstep
      obtain ⟨⟨-, hk⟩, hstep⟩ := hstep
      obtain ⟨q, b, -, -, hvalue⟩ := hs.exists_message hk
      rw [hvalue] at hstep
      obtain ⟨harr, hstep⟩ := Option.ite_none_right_eq_some.mp hstep
      rw [← Option.some.inj hstep]
      exact fun m hm => harr.1.mem_iff.mpr hm
  | didSelectRowAt c row =>
      simp only [LiveInbox.step, Option.ite_none_right_eq_some, Option.map_eq_some_iff] at hstep
      obtain ⟨-, client, -, rfl⟩ := hstep
      exact h
  | commitEditingStyle x row =>
      simp only [LiveInbox.step, Option.ite_none_right_eq_some, Option.map_eq_some_iff] at hstep
      obtain ⟨-, client, -, rfl⟩ := hstep
      exact h
  | removeValueDone x => exact absurd rfl (ha x)

/-- When no event is on its way, every partner that the app sees has a row. -/
lemma AllRows.exists_row (h : s.AllRows) (hs : Sound uid s) (houter : 0 < s.feed.outer)
    (hquiet : s.feed.Quiet) {k : String} (hk : s.client.view.Present ["user-mess", uid, p, k]) :
    ∃ m ∈ s.box.arrayMess, m.getChatPartnerId (some uid) = p := by
  obtain ⟨hpartner, hkey, hvalue⟩ := hquiet
  -- nothing is on its way, so the partner is in the dictionary
  have hmem : p ∈ s.box.messageDictionary := by
    rcases (hs.covers houter).entry p k hk with hq | hq | hq | hq
    · simp [hpartner] at hq
    · simp [hkey] at hq
    · simp [hvalue] at hq
    · exact hq
  obtain ⟨m, hm⟩ := Option.isSome_iff_exists.mp (AList.lookup_isSome.mpr hmem)
  exact ⟨m, h m (mem_values.mpr ⟨p, hm⟩), hs.keyed p m hm⟩

/-- Then the rows are those of the partners that the app sees. -/
lemma Kept.row_iff (h : Kept uid p s) (hall : s.AllRows) (hs : Sound uid s)
    (houter : 0 < s.feed.outer) (hquiet : s.feed.Quiet) :
    (∃ m ∈ s.box.arrayMess, m.getChatPartnerId (some uid) = p) ↔
      ∃ k, s.client.view.Present ["user-mess", uid, p, k] := by
  constructor
  · rintro ⟨m, hm, rfl⟩
    have hlookup := hs.represents.lookup m hm
    exact h.dictionary (AList.lookup_isSome.mp (by rw [hlookup]; rfl))
  · rintro ⟨k, hk⟩
    exact hall.exists_row hs houter hquiet hk

variable {as : List LiveInboxAction}

lemma run_allRows (h : run (step uid d) init as = some s)
    (has : ∀ x, LiveInboxAction.removeValueDone x ∉ as) : s.AllRows := by
  have hC : Meets (step uid d) (fun _ a => ∀ x, a ≠ .removeValueDone x) init as :=
    meets_of_forall_mem (P := fun a => ∀ x, a ≠ LiveInboxAction.removeValueDone x)
      fun a ha x hx => has x (hx ▸ ha)
  have hall : Sound uid s ∧ s.AllRows :=
    hC.invariant (I := fun s => Sound uid s ∧ s.AllRows)
      (fun _ _ _ ⟨hs, hall⟩ ha hstep => ⟨hs.step hstep, hall.step hs ha hstep⟩)
      ⟨sound_init uid, fun m hm => (by cases hm)⟩ h
  exact hall.2

/-- What every run keeps in which nothing is deleted. -/
lemma kept_and_allRows (h : run (step uid d) init as = some s)
    (hC : Meets (step uid d) (Undeleted uid d p) init as) : Kept uid p s ∧ s.AllRows := by
  have hall : Sound uid s ∧ Kept uid p s ∧ s.AllRows :=
    hC.invariant (I := fun s => Sound uid s ∧ Kept uid p s ∧ s.AllRows)
      (fun _ _ _ ⟨hs, hkept, hall⟩ ha hstep =>
        ⟨hs.step hstep, hkept.step hs ha hstep, hall.step hs ha.2 hstep⟩)
      ⟨sound_init uid, kept_init, fun m hm => (by cases hm)⟩ h
  exact hall.2

/-- **The inbox has a row of every partner**: in every run in which its app does not see
the conversation with `p` deleted, none of its own entries in it is rejected and no row
is taken out of this inbox, once it listens and no event is on its way, it has a row of
`p` exactly when the app sees an entry of this conversation; and once the timer has
fired, the row is on the screen. The app sees the index of the database with its own
writes on top, and the index itself once they are answered. -/
theorem lists_partner (h : run (step uid d) init as = some s)
    (hC : Meets (step uid d) (Undeleted uid d p) init as) (houter : 0 < s.feed.outer)
    (hquiet : s.feed.Quiet) :
    ((∃ m ∈ s.box.arrayMess, m.getChatPartnerId (some uid) = p) ↔
      ∃ k, s.client.view.Present ["user-mess", uid, p, k]) ∧
    (s.client.writes = [] → s.client.view = s.world.db) ∧
    (s.box.timer = false → s.box.rows = s.box.arrayMess.length) := by
  have hs := run_sound h
  obtain ⟨hkept, hall⟩ := kept_and_allRows h hC
  exact ⟨hkept.row_iff hall hs houter hquiet, Client.view_of_writes_eq_nil, hs.shown⟩

/-- The inbox of `b` has a row of `a`. -/
theorem lists_partner_firstTextShown : ∃ s, run (step "b" 1) init firstTextShown = some s ∧
    ((∃ m ∈ s.box.arrayMess, m.getChatPartnerId (some "b") = "a") ↔
      ∃ k, s.client.view.Present ["user-mess", "b", "a", k]) := by
  obtain ⟨s, hs, houter, hquiet, -, -⟩ := exists_firstTextShown
  have hC : Meets (step "b" 1) (Undeleted "b" 1 "a") init firstTextShown := by
    decide +kernel
  exact ⟨s, hs, (lists_partner hs hC houter hquiet).1⟩

/-! ### The listeners that pile up -/

variable (uid s) in
/-- The listeners on the index are those of the events of the user's own record: one
when the inbox is loaded, one when the app first sees the record, and one when it is
rejected. -/
structure ProfileOnce : Prop where
  users : World.UsersOk s.world
  idle : s.loaded = false → s.feed.outer + s.profileEvents = 0
  loaded : ¬ s.world.Rejected uid → ¬ s.client.view.Present ["user", uid] →
    s.feed.outer + s.profileEvents ≤ 1
  seen : ¬ s.world.Rejected uid → s.feed.outer + s.profileEvents ≤ 2
  rejected : s.feed.outer + s.profileEvents ≤ 3

lemma profileOnce_init : ProfileOnce uid init where
  users := World.usersOk_init
  idle := fun _ => rfl
  loaded := fun _ _ => Nat.zero_le _
  seen := fun _ => Nat.zero_le _
  rejected := Nat.zero_le _

namespace ProfileOnce

/-- The record of the user is reported again when the app first sees it, and when it is
rejected. -/
lemma worldChanged (h : ProfileOnce uid s) (hs : Sound uid s) {a : Action} {client : Client}
    (hstep : s.client.step d a = some client) : ProfileOnce uid (s.worldChanged uid client) := by
  have hw' := Client.world_step hstep
  have ht := hs.ok.toTracks
  have ht' := ht.step hstep
  have hu' := h.users.step hw'
  have hrejected : ¬ client.world.Rejected uid → ¬ s.world.Rejected uid :=
    mt fun hr => hr.step hw'
  by_cases hchanged : s.loaded = true ∧ NodeChanged s.client.view client.view ["user", uid]
  · -- the record was not rejected, as it would not be seen before and after
    have hnot : ¬ s.world.Rejected uid := by
      intro hr
      obtain ⟨e, he, hpre, -⟩ := hchanged.2
      rcases List.mem_append.mp he with he | he
      · obtain ⟨user, hstored⟩ := (ht.present_user_iff h.users).mp ⟨e, he, hpre⟩
        exact hstored.not_rejected ht h.users hr
      · obtain ⟨user, hstored⟩ := (ht'.present_user_iff hu').mp ⟨e, he, hpre⟩
        exact hstored.not_rejected ht' hu' (hr.step hw')
    -- so it is seen for the first time, or rejected now
    have hfirst : ¬ client.world.Rejected uid →
        ¬ s.client.view.Present ["user", uid] ∧ client.view.Present ["user", uid] := by
      intro hnot'
      have hold : ¬ s.client.view.Present ["user", uid] := by
        intro hk
        obtain ⟨user, hstored⟩ := (ht.present_user_iff h.users).mp hk
        rcases hstored.step ht h.users hstep with hstored' | hr
        · exact hstored.not_nodeChanged ht h.users ht' hu' hstored' hchanged.2
        · exact hnot' hr
      obtain ⟨e, he, hpre, -⟩ := hchanged.2
      rcases List.mem_append.mp he with he | he
      · exact absurd ⟨e, he, hpre⟩ hold
      · exact ⟨hold, e, he, hpre⟩
    have htotal : (s.worldChanged uid client).feed.outer +
        (s.worldChanged uid client).profileEvents = s.feed.outer + s.profileEvents + 1 := by
      simp only [LiveInbox.worldChanged, Feed.databaseChanged, if_pos hchanged]
      omega
    have hseen := h.seen hnot
    refine ⟨hu', fun hl => ?_, fun hnot' hk => absurd (hfirst hnot').2 hk, fun hnot' => ?_, ?_⟩
    · rw [show s.loaded = false from hl] at hchanged
      cases hchanged.1
    · have hloaded := h.loaded hnot (hfirst hnot').1
      omega
    · omega
  · have htotal : (s.worldChanged uid client).feed.outer +
        (s.worldChanged uid client).profileEvents = s.feed.outer + s.profileEvents := by
      simp only [LiveInbox.worldChanged, Feed.databaseChanged, if_neg hchanged]
      omega
    refine ⟨hu', fun hl => by rw [htotal, h.idle hl], fun hnot' hk' => ?_,
      fun hnot' => by rw [htotal]; exact h.seen (hrejected hnot'), by rw [htotal]; exact h.rejected⟩
    rw [htotal]
    refine h.loaded (hrejected hnot') fun hk => ?_
    -- what was seen is still seen
    obtain ⟨user, hstored⟩ := (ht.present_user_iff h.users).mp hk
    rcases hstored.step ht h.users hstep with hstored' | hr
    · exact hk' ((ht'.present_user_iff hu').mpr ⟨user, hstored'⟩)
    · exact hnot' hr

/-- The app and its records as they were. -/
lemma of_eq (h : ProfileOnce uid s) (hclient : s'.client = s.client)
    (hloaded : s'.loaded = s.loaded)
    (htotal : s'.feed.outer + s'.profileEvents = s.feed.outer + s.profileEvents) :
    ProfileOnce uid s' := by
  obtain ⟨hu, hidle, hl, hseen, hrejected⟩ := h
  refine ⟨?_, ?_, ?_, ?_, ?_⟩ <;> simp only [world, hclient, hloaded, htotal] at * <;> assumption

lemma step (h : ProfileOnce uid s) (hs : Sound uid s) {a : LiveInboxAction}
    (hstep : s.step uid d a = some s') : ProfileOnce uid s' := by
  cases a with
  | world a =>
      simp only [LiveInbox.step, Option.map_eq_some_iff] at hstep
      obtain ⟨client, hclient, rfl⟩ := hstep
      exact h.worldChanged hs hclient
  | checkuserInputtitle =>
      simp only [LiveInbox.step, Option.ite_none_right_eq_some] at hstep
      obtain ⟨⟨-, hl⟩, hstep⟩ := hstep
      rw [← Option.some.inj hstep]
      have houter : s.feed.outer = 0 := by
        have hidle := h.idle hl
        omega
      refine ⟨h.users, fun hl' => (by cases hl'), fun _ _ => ?_, fun _ => ?_, ?_⟩ <;>
        simp [houter]
  | profileValue =>
      simp only [LiveInbox.step, Option.ite_none_right_eq_some] at hstep
      obtain ⟨⟨-, hpos⟩, hstep⟩ := hstep
      rw [← Option.some.inj hstep]
      refine h.of_eq rfl rfl ?_
      show s.feed.outer + 1 + (s.profileEvents - 1) = _
      omega
  | partnerAdded | keyAdded | handleCallData | removeValueFailed =>
      simp only [LiveInbox.step, Option.ite_none_right_eq_some] at hstep
      rw [← Option.some.inj hstep.2]
      exact h.of_eq rfl rfl rfl
  | getMessage2 k arr =>
      simp only [LiveInbox.step, Option.ite_none_right_eq_some] at hstep
      obtain ⟨⟨-, hk⟩, hstep⟩ := hstep
      obtain ⟨q, b, -, -, hvalue⟩ := hs.exists_message hk
      rw [hvalue] at hstep
      rw [← Option.some.inj (Option.ite_none_right_eq_some.mp hstep).2]
      exact h.of_eq rfl rfl rfl
  | didSelectRowAt c row =>
      simp only [LiveInbox.step, Option.ite_none_right_eq_some, Option.map_eq_some_iff] at hstep
      obtain ⟨-, client, hclient, rfl⟩ := hstep
      exact h.worldChanged hs hclient
  | commitEditingStyle x row =>
      simp only [LiveInbox.step, Option.ite_none_right_eq_some, Option.map_eq_some_iff] at hstep
      obtain ⟨-, client, hclient, rfl⟩ := hstep
      exact (h.worldChanged hs hclient).of_eq rfl rfl rfl
  | removeValueDone x =>
      simp only [LiveInbox.step, Option.bind_eq_some_iff, Option.ite_none_right_eq_some] at hstep
      obtain ⟨del, -, -, hstep⟩ := hstep
      split at hstep <;> rw [← Option.some.inj hstep]
      · exact h.of_eq rfl rfl rfl
      · exact ⟨h.users.step (a := .auth (.kill d)) rfl, h.idle, h.loaded, h.seen, h.rejected⟩

end ProfileOnce

/-- **The inbox listens to the index at most three times**, in every run, whatever is
registered, sent or deleted: the listener on `user/uid` has an event when it is added,
one when its app first sees the record, as soon as the app has sent it, and one more if
the record is rejected and taken back. Unless it is rejected the inbox listens at most
twice. -/
theorem listens_at_most_thrice (h : run (step uid d) init as = some s) :
    s.feed.outer ≤ 3 ∧ (¬ s.world.Rejected uid → s.feed.outer ≤ 2) := by
  obtain ⟨-, honce⟩ : Sound uid s ∧ ProfileOnce uid s :=
    run_invariant (I := fun s => Sound uid s ∧ ProfileOnce uid s)
      (fun _ _ _ ⟨hs, honce⟩ hstep => ⟨hs.step hstep, honce.step hs hstep⟩)
      ⟨sound_init uid, profileOnce_init⟩ h
  have hrejected := honce.rejected
  refine ⟨by omega, fun hnot => ?_⟩
  have hseen := honce.seen hnot
  omega

/-- The inbox is loaded before its user's record is sent, and the record is rejected. -/
def loadedEarly : List LiveInboxAction :=
  ((World.registration 0 "a").take 4).map LiveInboxAction.world ++
    [.checkuserInputtitle, .profileValue] ++
      ((World.registration 0 "a").drop 4).dropLast.map LiveInboxAction.world ++
        [.profileValue, .world (.register (.userFailed 0)), .profileValue]

/-- It listens three times. -/
theorem listens_at_most_thrice_loadedEarly : ∃ s,
    run (step "a" 0) init loadedEarly = some s ∧ s.feed.outer = 3 ∧ s.feed.outer ≤ 3 := by
  have hrun : ((run (step "a" 0) init loadedEarly).map fun s => s.feed.outer) = some 3 := by
    decide +kernel
  obtain ⟨s, hs, houter⟩ := Option.map_eq_some_iff.mp hrun
  exact ⟨s, hs, houter, (listens_at_most_thrice hs).1⟩

end LiveInbox

end AppChat
