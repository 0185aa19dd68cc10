import AppChat.Library.Simulation
import AppChat.Chat.Opened
import AppChat.System.ChatScreen
import AppChat.System.ViewChange

/-!
A chat log of the whole system is a `ChatLog`.

* `ChatScreen.Abstracts`: a chat log of the world, seen as a `ChatLog`. The index is
  what the app sees of it; the children of `user-mess/uid` that are keys of videos,
  to which the world has the screen listen as well, are left out.
* `ChatScreen.simulates`: every orderly step of the world and every step of the screen
  is followed by a step of `ChatLog`, or by none.
* `ChatScreen.refines`: so every orderly run shows what some run of `ChatLog` shows.
* `ChatScreen.reads_own`: and it reads the messages of its user, no others.
-/

namespace AppChat

namespace World

variable {w w' : World}

/-- A chat log stays with its partner. -/
lemma step_keepsScreens {a : Action} (h : w.step a = some w') : w.KeepsScreens w' := by
  cases a with
  | auth a =>
      obtain ⟨devices, rfl⟩ := authStep_cases h
      exact keepsScreens_of_eq rfl
  | register a => exact keepsScreens_of_eq (registerStep_leaves h).1
  | screen a => exact (screenStep_keepsScreens h).1
  | send a => exact (sendStep_frame h).keepsScreens
  | delete a => exact (deleteStep_frame h).keepsScreens

end World

/-! ### Counting events -/

/-- How often an event is reported when every listener reports it once. -/
lemma count_flatMap_replicate {α : Type*} [DecidableEq α] {l : List α} (hl : l.Nodup)
    (n : ℕ) (a : α) :
    (l.flatMap fun b => List.replicate n b).count a = if a ∈ l then n else 0 := by
  induction l with
  | nil => rfl
  | cons b l ih =>
      obtain ⟨hb, hl⟩ := List.nodup_cons.mp hl
      rw [List.flatMap_cons, List.count_append, ih hl, List.count_replicate]
      by_cases hab : a = b
      · subst hab
        simp [hb]
      · simp [hab, Ne.symm hab]

/-! ### The chat log as a `ChatLog` -/

namespace ChatScreen

open Entries Transition

variable {uid : String} {d : DeviceId} {c : ChatId} {p : String} {record : String → Mess}
  {s s' : ChatScreen} {t : ChatLog}

variable (uid c) in
/-- **The relation**: `t` is the chat log of `s`, over the index as the app sees it, but
for the children of the index that are keys of videos. -/
structure Abstracts (s : ChatScreen) (t : ChatLog) : Prop where
  user : t.user = s.world.chatUser c
  array : t.arrayMessage = s.arrayMessage
  index : ∀ q k, (q, k) ∈ t.index ↔ s.client.view.Present ["user-mess", uid, q, k]
  nodup : t.index.Nodup
  outer : t.outer = s.feed.outer
  inner : ∀ q ∉ s.world.keys, t.inner q = s.feed.inner q
  partnerUids : ∀ q ∈ t.partnerEvents, q ∈ s.world.uids
  partner : ∀ q ∉ s.world.keys, t.partnerEvents.count q = s.feed.partnerEvents.count q
  key : t.keyEvents.Perm s.feed.keyEvents
  value : t.valueEvents.Perm s.feed.valueEvents

lemma abstracts_init : Abstracts uid c init .init where
  user := rfl
  array := rfl
  index := by
    intro q k
    simp [ChatLog.init, init, Client.init, Client.view, overlay, World.init, PathTree.Present]
  nodup := List.nodup_nil
  outer := rfl
  inner := fun _ _ => rfl
  partnerUids := by
    intro q hq
    cases hq
  partner := fun _ _ => rfl
  key := .refl _
  value := .refl _

namespace Abstracts

/-- The keys in the node of a partner. -/
lemma keys_eq_nil_iff (h : Abstracts uid c s t) (q : String) :
    t.keys q = [] ↔ ¬ ∃ k, s.client.view.Present ["user-mess", uid, q, k] := by
  simp only [ChatLog.keys, List.eq_nil_iff_forall_not_mem, mem_under, h.index, not_exists]

/-- The partners in the index. -/
lemma mem_map_fst (h : Abstracts uid c s t) (hok : s.client.Ok) {q : String}
    (hq : q ∉ s.world.keys) :
    q ∈ t.index.map Prod.fst ↔ s.client.view.Present ["user-mess", uid, q] := by
  rw [Entries.mem_map_fst, hok.present_partner_iff hq]
  exact (not_congr (h.keys_eq_nil_iff q)).trans not_not

/-- A screen without an event on its way is one without an event. -/
lemma quiet (h : Abstracts uid c s t) (hs : Sound uid c s) (hq : s.feed.Quiet) : t.Quiet := by
  obtain ⟨hpartner, hkey, hvalue⟩ := hq
  refine ⟨List.eq_nil_iff_forall_not_mem.mpr fun q hmem => ?_, ?_, ?_⟩
  · have hcount := h.partner q (hs.ok.consistent.not_mem_keys (h.partnerUids q hmem))
    rw [hpartner, List.count_nil] at hcount
    exact List.count_eq_zero.mp hcount hmem
  · exact (hkey ▸ h.key).eq_nil
  · exact (hvalue ▸ h.value).eq_nil

/-! ### A step of the world -/

/-- The outer listeners report a partner when its first key has come. -/
lemma mem_newChildren_iff (h : Abstracts uid c s t) (hs : Sound uid c s) {a : Action}
    {client : Client} (hstep : s.client.step d a = some client) {q : String}
    (hq : q ∉ client.world.keys) :
    q ∈ newChildren s.client.view client.view ["user-mess", uid] ↔
      (∃ k, client.view.Present ["user-mess", uid, q, k]) ∧ t.keys q = [] := by
  have hq₀ : q ∉ s.world.keys := fun hmem =>
    hq (World.step_keys (Client.world_step hstep) hmem)
  rw [mem_newChildren, h.keys_eq_nil_iff, ← hs.ok.present_partner_iff hq₀,
    ← (hs.ok.step hstep).present_partner_iff hq]
  rfl

/-- A step of the world is followed by whatever makes the same change to the index,
and has the same events reported. -/
lemma of_worldChanged (h : Abstracts uid c s t) (hs : Sound uid c s) {a : Action} {client : Client}
    (hstep : s.client.step d a = some client) {t' : ChatLog}
    (huser : t'.user = client.world.chatUser c) (harray : t'.arrayMessage = t.arrayMessage)
    (hindex : ∀ q k, (q, k) ∈ t'.index ↔ client.view.Present ["user-mess", uid, q, k])
    (hnodup : t'.index.Nodup) (houter : t'.outer = t.outer) (hinner : t'.inner = t.inner)
    (huids : ∀ q ∈ t'.partnerEvents, q ∈ client.world.uids)
    (hpartner : ∀ q ∉ client.world.keys, t'.partnerEvents.count q = t.partnerEvents.count q +
      if q ∈ newChildren s.client.view client.view ["user-mess", uid] then t.outer else 0)
    (hkey : t'.keyEvents.Perm (t.keyEvents ++ (newKeys s.client.view client.view uid).flatMap
      fun e => List.replicate (s.feed.inner e.1) e))
    (hvalue : t'.valueEvents = t.valueEvents) :
    Abstracts uid c (s.worldChanged uid client) t' := by
  have hkeys := World.step_keys (Client.world_step hstep)
  have hfeed := hs.worldChanged_feed hstep
  refine ⟨huser, harray.trans h.array, hindex, hnodup, ?_, fun q hq => ?_, huids,
    fun q hq => ?_, ?_, ?_⟩
  · rw [hfeed]
    exact houter.trans h.outer
  · rw [hfeed, hinner]
    exact h.inner q fun hmem => hq (hkeys hmem)
  · rw [hpartner q hq, h.partner q fun hmem => hq (hkeys hmem), h.outer, hfeed]
    show _ = (s.feed.partnerEvents ++
      (newChildren s.client.view client.view ["user-mess", uid]).flatMap
        fun q => List.replicate s.feed.outer q).count q
    rw [List.count_append, count_flatMap_replicate (nodup_newChildren _ _ _)]
  · rw [hfeed]
    exact hkey.trans (h.key.append_right _)
  · rw [hvalue, hfeed]
    exact h.value

/-- A step of the world that brings no entry is followed by one that takes out the
entries that it removes, if any. -/
lemma of_subset (h : Abstracts uid c s t) (hs : Sound uid c s) {a : Action} {client : Client}
    (hstep : s.client.step d a = some client)
    (huser : client.world.chatUser c = s.world.chatUser c)
    {index : List (String × String)} (hnodup : index.Nodup)
    (hindex : ∀ q k, (q, k) ∈ index ↔ client.view.Present ["user-mess", uid, q, k])
    (hsub : index ⊆ t.index) :
    Abstracts uid c (s.worldChanged uid client) { t with index := index } := by
  have hold : ∀ q k, client.view.Present ["user-mess", uid, q, k] →
      s.client.view.Present ["user-mess", uid, q, k] := fun q k hk =>
    (h.index q k).mp (hsub ((hindex q k).mpr hk))
  have hnewKeys : newKeys s.client.view client.view uid = [] :=
    List.eq_nil_iff_forall_not_mem.mpr fun e he =>
      (mem_newKeys.mp he).2 (hold e.1 e.2 (mem_newKeys.mp he).1)
  refine h.of_worldChanged hs hstep (h.user.trans huser.symm) rfl hindex hnodup rfl rfl
    (fun q hq => World.step_uids (Client.world_step hstep) (h.partnerUids q hq))
    (fun q hq => ?_) ?_ rfl
  · have hnot : q ∉ newChildren s.client.view client.view ["user-mess", uid] := by
      rw [h.mem_newChildren_iff hs hstep hq, h.keys_eq_nil_iff]
      rintro ⟨⟨k, hk⟩, hnil⟩
      exact hnil ⟨k, hold q k hk⟩
    rw [if_neg hnot, add_zero]
  · rw [hnewKeys, List.flatMap_nil, List.append_nil]

/-- A step of the world that brings an entry is followed by that change of the
index. -/
lemma of_added (h : Abstracts uid c s t) (hs : Sound uid c s) {a : Action} {client : Client}
    (hstep : s.client.step d a = some client)
    (huser : client.world.chatUser c = s.world.chatUser c) {q k : String}
    (hnew : ¬ s.client.view.Present ["user-mess", uid, q, k])
    (hpres : ∀ q' k', client.view.Present ["user-mess", uid, q', k'] ↔
      (q' = q ∧ k' = k) ∨ s.client.view.Present ["user-mess", uid, q', k']) :
    Abstracts uid c (s.worldChanged uid client) ((t.indexAdded q k).observe p) := by
  have hok := hs.ok.step hstep
  have hbetween := hok.between_of_present ((hpres q k).mpr (Or.inl ⟨rfl, rfl⟩))
  have hquid := hok.consistent.between_mem_uids hbetween
  have hnewKeys : newKeys s.client.view client.view uid = [(q, k)] := by
    refine eq_singleton_of_nodup (nodup_newKeys _ _ _) fun ⟨q', k'⟩ => ?_
    rw [mem_newKeys, hpres, Prod.mk.injEq]
    constructor
    · rintro ⟨h₁ | h₁, h₂⟩
      · exact h₁
      · exact absurd h₁ h₂
    · rintro ⟨rfl, rfl⟩
      exact ⟨Or.inl ⟨rfl, rfl⟩, hnew⟩
  refine h.of_worldChanged hs hstep (h.user.trans huser.symm) rfl (fun q' k' => ?_) ?_ rfl rfl
    (fun q' hq' => ?_) (fun q' hq' => ?_) ?_ rfl
  · show (q', k') ∈ (q, k) :: t.index ↔ _
    rw [List.mem_cons, Prod.mk.injEq, h.index, hpres]
  · exact List.nodup_cons.mpr ⟨fun hmem => hnew ((h.index q k).mp hmem), h.nodup⟩
  · have hcases : q' ∈ t.partnerEvents ∨ q' = q := by
      simp only [ChatLog.observe, ChatLog.indexAdded] at hq'
      split_ifs at hq'
      · rcases List.mem_append.mp hq' with hq' | hq'
        · exact Or.inl hq'
        · exact Or.inr (List.eq_of_mem_replicate hq')
      · exact Or.inl hq'
    rcases hcases with hold | rfl
    · exact World.step_uids (Client.world_step hstep) (h.partnerUids q' hold)
    · exact hquid
  · -- the partner is reported when its node was empty
    have hiff : q' ∈ newChildren s.client.view client.view ["user-mess", uid] ↔
        q' = q ∧ t.keys q = [] := by
      rw [h.mem_newChildren_iff hs hstep hq']
      constructor
      · rintro ⟨⟨k', hk'⟩, hnil⟩
        rcases (hpres q' k').mp hk' with ⟨rfl, -⟩ | hold
        · exact ⟨rfl, hnil⟩
        · exact absurd ⟨k', hold⟩ ((h.keys_eq_nil_iff q').mp hnil)
      · rintro ⟨rfl, hnil⟩
        exact ⟨⟨k, (hpres q' k).mpr (Or.inl ⟨rfl, rfl⟩)⟩, hnil⟩
    show (if t.keys q = [] then t.partnerEvents ++ List.replicate t.outer q
      else t.partnerEvents).count q' = _
    simp only [hiff]
    by_cases hnil : t.keys q = []
    · rw [if_pos hnil, List.count_append, List.count_replicate]
      by_cases hqq : q' = q
      · subst hqq
        simp [hnil]
      · simp [hqq, Ne.symm hqq]
    · simp [hnil]
  · have hinner : t.inner q = s.feed.inner q :=
      h.inner q fun hmem => hok.consistent.not_mem_keys hquid
        (World.step_keys (Client.world_step hstep) hmem)
    show (t.keyEvents ++ List.replicate (t.inner q) (q, k)).Perm _
    rw [hnewKeys, hinner]
    simp

/-! ### The callbacks -/

/-- A listener on the index is added. -/
lemma observe (h : Abstracts uid c s t) (hok : s.client.Ok) :
    Abstracts uid c { s with feed := s.feed.observe s.client.view uid }
      (t.getMessageUserPartner.observe p) := by
  refine ⟨h.user, h.array, h.index, h.nodup, congrArg (· + 1) h.outer, h.inner, fun q hq => ?_,
    fun q hq => ?_, h.key, h.value⟩
  · rcases List.mem_append.mp hq with hq | hq
    · exact h.partnerUids q hq
    · obtain ⟨e, he, rfl⟩ := List.mem_map.mp (List.mem_dedup.mp hq)
      exact hok.consistent.between_mem_uids (hok.between_of_present ((h.index e.1 e.2).mp he))
  · show (t.partnerEvents ++ (t.index.map Prod.fst).dedup).count q =
      (s.feed.partnerEvents ++ s.client.view.childKeys ["user-mess", uid]).count q
    rw [List.count_append, List.count_append, h.partner q hq, (List.nodup_dedup _).count,
      (nodup_childKeys _ _).count]
    simp only [List.mem_dedup, h.mem_map_fst hok hq, PathTree.mem_childKeys]
    rfl

/-- The event of a partner goes on as the events of its keys. -/
lemma partnerAdded (h : Abstracts uid c s t) {q : String} (hq : q ∉ s.world.keys) :
    Abstracts uid c { s with feed := s.feed.partnerAdded s.client.view uid q }
      (t.partnerAdded q) := by
  refine ⟨h.user, h.array, h.index, h.nodup, h.outer, fun q' hq' => ?_,
    fun q' hq' => h.partnerUids q' (List.mem_of_mem_erase hq'), fun q' hq' => ?_, ?_, h.value⟩
  · show Function.update t.inner q (t.inner q + 1) q' =
      Function.update s.feed.inner q (s.feed.inner q + 1) q'
    by_cases hqq : q' = q
    · subst hqq
      rw [Function.update_self, Function.update_self, h.inner q' hq']
    · rw [Function.update_of_ne hqq, Function.update_of_ne hqq, h.inner q' hq']
  · show (t.partnerEvents.erase q).count q' = (s.feed.partnerEvents.erase q).count q'
    rw [List.count_erase, List.count_erase, h.partner q' hq']
  · -- the keys of the partner, in one order or another
    have hperm : (t.keys q).Perm (s.client.view.childKeys ["user-mess", uid, q]) := by
      refine (List.perm_ext_iff_of_nodup (nodup_under h.nodup q) (nodup_childKeys _ _)).mpr
        fun k => ?_
      rw [mem_under, h.index, PathTree.mem_childKeys]
      rfl
    exact h.key.append (hperm.map _)

/-- The key of a video has nothing below it. -/
lemma partnerAdded_of_mem_keys (h : Abstracts uid c s t) (hs : Sound uid c s) {q : String}
    (hq : q ∈ s.world.keys) :
    Abstracts uid c { s with feed := s.feed.partnerAdded s.client.view uid q } t := by
  have hne : ∀ q' ∉ s.world.keys, q' ≠ q := fun q' hq' hqq => hq' (hqq ▸ hq)
  refine ⟨h.user, h.array, h.index, h.nodup, h.outer, fun q' hq' => ?_, h.partnerUids,
    fun q' hq' => ?_, ?_, h.value⟩
  · show t.inner q' = Function.update s.feed.inner q (s.feed.inner q + 1) q'
    rw [Function.update_of_ne (hne q' hq'), h.inner q' hq']
  · show t.partnerEvents.count q' = (s.feed.partnerEvents.erase q).count q'
    rw [List.count_erase_of_ne (hne q' hq'), h.partner q' hq']
  · show t.keyEvents.Perm (s.feed.keyEvents ++
      (s.client.view.childKeys ["user-mess", uid, q]).map fun k => (q, k))
    rw [hs.ok.childKeys_of_mem_keys hq, List.map_nil, List.append_nil]
    exact h.key

lemma keyAdded (h : Abstracts uid c s t) (q k : String) :
    Abstracts uid c { s with feed := s.feed.keyAdded q k, values := k :: s.values }
      (t.keyAdded q k) :=
  ⟨h.user, h.array, h.index, h.nodup, h.outer, h.inner, h.partnerUids, h.partner, h.key.erase _,
    h.value.append_right _⟩

/-- A message is listed, or not, on both sides. -/
lemma value_step (h : Abstracts uid c s t) {ch : ChatLogmessage} (k : String) (data : Mess)
    (hch : s.world.chats c = some ch) (huid : s.world.currentUid ch.device = some uid) :
    Abstracts uid c (s.value ch k data) (t.value uid k data) := by
  refine ⟨h.user, ?_, h.index, h.nodup, h.outer, h.inner, h.partnerUids, h.partner, h.key,
    h.value.erase _⟩
  have huser : t.user = ch.user.map User.id := by
    rw [h.user, World.chatUser, hch, Option.bind_some]
  simp only [ChatLog.value, ChatScreen.value, huser, huid, h.array]

end Abstracts

/-! ### The simulation -/

variable (uid) in
/-- The answers to the writes of the app are in order, and its changes of conversations
go through. -/
def Orderly (s : ChatScreen) : ChatScreenAction → Prop
  | .world a => s.client.Orderly uid a
  | _ => True

instance (s : ChatScreen) : DecidablePred (Orderly uid s)
  | .world a => inferInstanceAs (Decidable (s.client.Orderly uid a))
  | .partnerAdded _ => inferInstanceAs (Decidable True)
  | .keyAdded _ _ => inferInstanceAs (Decidable True)
  | .value _ => inferInstanceAs (Decidable True)

variable (uid d c p) in
/-- The step is orderly, the screen is opened once, and after that the app does not see
the conversation of `uid` with `p` deleted. -/
def Undisturbed (s : ChatScreen) : ChatScreenAction → Prop
  | .world a =>
      s.client.Orderly uid a ∧ (s.world.setsUser c a = true → s.feed.outer = 0) ∧
        (.dropped uid p ∈ s.client.events d a → s.feed.outer = 0)
  | _ => True

instance (s : ChatScreen) : DecidablePred (Undisturbed uid d c p s)
  | .world a =>
      inferInstanceAs (Decidable (s.client.Orderly uid a ∧
        (s.world.setsUser c a = true → s.feed.outer = 0) ∧
          (.dropped uid p ∈ s.client.events d a → s.feed.outer = 0)))
  | .partnerAdded _ => inferInstanceAs (Decidable True)
  | .keyAdded _ _ => inferInstanceAs (Decidable True)
  | .value _ => inferInstanceAs (Decidable True)

lemma Undisturbed.orderly {a : ChatScreenAction} (h : Undisturbed uid d c p s a) :
    Orderly uid s a := by
  cases a with
  | world a => exact h.1
  | _ => trivial

variable (c p record) in
/-- What will turn out: the partner of the chat log, and the messages of the keys. -/
def Foreseen (s : ChatScreen) : Prop :=
  (∀ ch, s.world.chats c = some ch → ch.partnerId = p) ∧ World.Records record s.world

variable (uid d c p record) in
/-- The screen goes on as `t` does by a step that disturbs it as little. -/
def FollowedBy (s : ChatScreen) (a : ChatScreenAction) (s' : ChatScreen) (t : ChatLog) : Prop :=
  Abstracts uid c s' t ∨ ∃ b t',
    (Undisturbed uid d c p s a → ChatLog.Undisturbed uid record p t b) ∧
      t.step uid record p b = some t' ∧ Abstracts uid c s' t'

/-- A step of the world with its listeners. -/
lemma followedBy_world {a : Action} {client : Client} (h : Abstracts uid c s t)
    (hs : Sound uid c s) (hrec : World.Records record client.world)
    (hstep : s.client.step d a = some client) (horderly : s.client.Orderly uid a)
    (hset : s.world.setsUser c a = false) :
    FollowedBy uid d c p record s (.world a) (s.worldChanged uid client) t := by
  have huser := World.chatUser_step (Client.world_step hstep) hset
  obtain ⟨r, hchange, hdropped⟩ := hs.ok.entryChange hstep horderly
  cases hchange with
  | same hpres =>
      exact Or.inl (h.of_subset hs hstep huser h.nodup
        (fun q k => (h.index q k).trans (hpres q k).symm) (List.Subset.refl _))
  | added q k hnew hpres =>
      have hbetween : client.world.Between uid q k :=
        (hs.ok.step hstep).between_of_present ((hpres q k).mpr (Or.inl ⟨rfl, rfl⟩))
      refine Or.inr ⟨.added q k, _, fun _ => trivial, if_pos ⟨hbetween.partner hrec, ?_⟩,
        h.of_added hs hstep huser hnew hpres⟩
      rwa [h.index]
  | removed q hpres =>
      refine Or.inr ⟨.removed q, _, fun hun hqp => ?_, rfl,
        h.of_subset hs hstep huser (h.nodup.filter _) (fun q' k' => ?_) List.filter_sublist.subset⟩
      · subst hqp
        rw [h.outer]
        exact hun.2.2 (hdropped q rfl)
      · rw [List.mem_filter, h.index, hpres]
        simp

/-- A step of the world that sets the user. -/
lemma followedBy_setUser {a : Action} {client : Client} (h : Abstracts uid c s t)
    (hs : Sound uid c s) (hpartner : ∀ ch, client.world.chats c = some ch → ch.partnerId = p)
    (hstep : s.client.step d a = some client) (hset : s.world.setsUser c a = true) :
    FollowedBy uid d c p record s (.world a) { s.worldChanged uid client with
      feed := (s.worldChanged uid client).feed.observe client.view uid } t := by
  have hw' := Client.world_step hstep
  obtain ⟨a, rfl⟩ := World.eq_screen_of_setsUser hset
  have hview := Client.view_of_screen hstep
  obtain ⟨ch, hch, huser⟩ := World.chatUser_of_setsUser hs.ok.consistent hw' hset
  rw [hpartner ch hch] at huser
  -- the user is set, and then the listener is added
  have hset' : Abstracts uid c (s.worldChanged uid client) { t with user := some p } :=
    h.of_worldChanged hs hstep huser.symm rfl (fun q k => by rw [hview]; exact h.index q k)
      h.nodup rfl rfl (fun q hq => World.step_uids hw' (h.partnerUids q hq))
      (fun q _ => by simp [hview]) (by simp [hview]) rfl
  refine Or.inr ⟨.setUser, _, fun hun => ?_, rfl, hset'.observe (hs.ok.step hstep)⟩
  show t.outer = 0
  rw [h.outer]
  exact hun.2.1 hset

/-- **Every step is followed** by one of the abstract chat log, or by none. -/
lemma step_followedBy {a : ChatScreenAction} (h : Abstracts uid c s t) (hs : Sound uid c s)
    (hfore : Foreseen c p record s') (horderly : Orderly uid s a)
    (hstep : s.step uid d c a = some s') : FollowedBy uid d c p record s a s' t := by
  cases a with
  | world a =>
      simp only [step, Option.bind_eq_some_iff] at hstep
      obtain ⟨client, hclient, hstep⟩ := hstep
      split_ifs at hstep with hset _ <;> rw [← Option.some.inj hstep] at hfore ⊢
      · exact followedBy_setUser h hs hfore.1 hclient hset
      · exact followedBy_world h hs hfore.2 hclient horderly (by simpa using hset)
  | partnerAdded q =>
      simp only [step, Option.ite_none_right_eq_some] at hstep
      obtain ⟨⟨-, hq⟩, hstep⟩ := hstep
      rw [← Option.some.inj hstep]
      by_cases hkey : q ∈ s.world.keys
      · exact Or.inl (h.partnerAdded_of_mem_keys hs hkey)
      · have hmem : q ∈ t.partnerEvents := by
          rw [← List.count_pos_iff, h.partner q hkey]
          exact List.count_pos_iff.mpr hq
        exact Or.inr ⟨.partnerAdded q, _, fun _ => trivial, if_pos hmem,
          h.partnerAdded hkey⟩
  | keyAdded q k =>
      simp only [step, Option.ite_none_right_eq_some] at hstep
      obtain ⟨⟨-, hk⟩, hstep⟩ := hstep
      rw [← Option.some.inj hstep]
      rw [Feed.hasKey_iff] at hk
      exact Or.inr ⟨.keyAdded q k, _, fun _ => trivial, if_pos (h.key.mem_iff.mpr hk),
        h.keyAdded q k⟩
  | value k =>
      simp only [step, Option.bind_eq_some_iff, Option.ite_none_right_eq_some] at hstep
      obtain ⟨ch, hch, ⟨⟨ch', hch', -, huid⟩, hk⟩, hstep⟩ := hstep
      obtain rfl : ch = ch' := Option.some.inj (hch.symm.trans hch')
      obtain ⟨q, i, b, hi, rfl, -, hvalue⟩ := hs.exists_message hk
      rw [hvalue] at hstep
      rw [← Option.some.inj hstep] at hfore ⊢
      rw [← hfore.2 i b hi]
      exact Or.inr ⟨.value b.key, _, fun _ => trivial, if_pos (h.value.mem_iff.mpr hk),
        h.value_step _ _ hch huid⟩

/-- What turns out has been so before. -/
lemma foreseen_back {a : ChatScreenAction} (hstep : s.step uid d c a = some s')
    (h : Foreseen c p record s') : Foreseen c p record s := by
  have back : ∀ {b : Action}, s.world.step b = some s'.world → Foreseen c p record s := by
    intro b hb
    obtain ⟨hpartner, hrec⟩ := h
    refine ⟨fun ch hch => ?_, fun i b' hb' => hrec i b' (World.accepted_step hb hb')⟩
    obtain ⟨ch', hch', -, hp⟩ := World.step_keepsScreens hb c ch hch
    rw [← hp]
    exact hpartner ch' hch'
  have same : s'.world = s.world → Foreseen c p record s := by
    rintro hworld
    rwa [Foreseen, ← hworld]
  cases a with
  | world a =>
      simp only [step, Option.bind_eq_some_iff] at hstep
      obtain ⟨client, hclient, hstep⟩ := hstep
      refine back (b := a) ?_
      split_ifs at hstep <;> rw [← Option.some.inj hstep] <;> exact Client.world_step hclient
  | partnerAdded q =>
      simp only [step, Option.ite_none_right_eq_some] at hstep
      exact same (by rw [← Option.some.inj hstep.2])
  | keyAdded q k =>
      simp only [step, Option.ite_none_right_eq_some] at hstep
      exact same (by rw [← Option.some.inj hstep.2])
  | value k =>
      simp only [step, Option.bind_eq_some_iff, Option.ite_none_right_eq_some] at hstep
      obtain ⟨ch, -, -, hstep⟩ := hstep
      split at hstep <;> rw [← Option.some.inj hstep] at h <;> exact h

variable (uid d c p record) in
/-- **The simulation**, for the steps that meet `C`. -/
lemma simulates (C : ChatScreen → ChatScreenAction → Prop) (C' : ChatLog → ChatAction → Prop)
    (horderly : ∀ s a, C s a → Orderly uid s a)
    (hC : ∀ s a t b, C s a →
      (Undisturbed uid d c p s a → ChatLog.Undisturbed uid record p t b) → C' t b) :
    Simulates (step uid d c) C (ChatLog.step uid record p) C' (Foreseen c p record)
      fun s t => Sound uid c s ∧ Abstracts uid c s t where
  back _ _ _ := foreseen_back
  follows := by
    rintro s a s' t ⟨hs, h⟩ hfore ha hstep
    have hs' := hs.step hstep
    rcases step_followedBy h hs hfore (horderly s a ha) hstep with h' | ⟨b, t', hb, ht', h'⟩
    · exact Or.inl ⟨hs', h'⟩
    · exact Or.inr ⟨b, t', hC s a t b ha hb, ht', hs', h'⟩

/-! ### What a chat log shows -/

variable {as : List ChatScreenAction}

/-- The run of `ChatLog` that an orderly run of the whole system is followed by. -/
lemma exists_chatLog (h : run (step uid d c) init as = some s)
    (hp : ∀ ch, s.world.chats c = some ch → ch.partnerId = p)
    {C : ChatScreen → ChatScreenAction → Prop} (hC : Meets (step uid d c) C init as)
    (horderly : ∀ s a, C s a → Orderly uid s a)
    {D : (String → Mess) → ChatLog → ChatAction → Prop}
    (hD : ∀ record s a t b, C s a →
      (Undisturbed uid d c p s a → ChatLog.Undisturbed uid record p t b) → D record t b) :
    ∃ (block : String → RecordBlock) (bs : List ChatAction) (t : ChatLog),
      (∀ i b, s.world.Accepted i b → block b.key = b) ∧
        run (ChatLog.step uid (fun k => (block k).sent) p) .init bs = some t ∧
          Meets (ChatLog.step uid (fun k => (block k).sent) p) (D fun k => (block k).sent) .init
            bs ∧ Abstracts uid c s t := by
  obtain ⟨block, hblock⟩ := (run_sound h).ok.consistent.exists_block
  have hsim := simulates uid d c p (fun k => (block k).sent) C (D fun k => (block k).sent)
    horderly fun s a t b => hD _ s a t b
  obtain ⟨bs, t, ht, hbs, -, hst⟩ := hsim.exists_run ⟨sound_init, abstracts_init⟩ h hC
    ⟨hp, World.records_of_block hblock⟩
  exact ⟨block, bs, t, hblock, ht, hbs, hst⟩

/-- The user `a` sends `b` a text, and `b` opens the chat with `a`. -/
def firstTextRead : List ChatScreenAction :=
  (World.firstText ++ [Action.screen (.newmessageSelect 1 1 "a")]).map ChatScreenAction.world

/-- The callbacks that bring the message from `p` to a screen. -/
def delivery (p k : String) : List ChatScreenAction := [.partnerAdded p, .keyAdded p k, .value k]

/-- The run ends with something listed, no event and no write on its way. -/
def settles (uid : String) (d : DeviceId) (c : ChatId) (p : String) (as : List ChatScreenAction) :
    Bool :=
  ((run (step uid d c) init as).map fun s =>
    decide ((s.world.chats c).map (fun ch => (ch.partnerId, ch.user.isSome)) = some (p, true) ∧
      s.feed.Quiet ∧ s.arrayMessage ≠ [] ∧ s.client.writes = [])).getD false

lemma exists_of_settles (uid : String) (d : DeviceId) (c : ChatId) (p : String)
    (as : List ChatScreenAction) (h : settles uid d c p as = true) :
    ∃ s ch, run (step uid d c) init as = some s ∧ s.world.chats c = some ch ∧
      ch.partnerId = p ∧ ch.user ≠ none ∧ s.feed.Quiet ∧ s.arrayMessage ≠ [] ∧
        s.client.writes = [] := by
  unfold settles at h
  cases hrun : run (step uid d c) init as with
  | none => simp [hrun] at h
  | some s =>
      rw [hrun, Option.map_some, Option.getD_some, decide_eq_true_eq] at h
      obtain ⟨hchat, hquiet, harray, hwrites⟩ := h
      obtain ⟨ch, hch, heq⟩ := Option.map_eq_some_iff.mp hchat
      obtain ⟨hp, huser⟩ := Prod.mk.inj heq
      refine ⟨s, ch, rfl, hch, hp, ?_, hquiet, harray, hwrites⟩
      rw [Option.ne_none_iff_isSome, huser]

/-- **Every chat log is a `ChatLog`.** In every run of the whole system, with whatever
the other users do meanwhile, no callback of the chat log `c` of `uid` traps. If the
writes of its app are answered in order and its changes of conversations go through, it
lists what some run of `ChatLog` lists, over the index that the app sees and with the
same user; and when no event is on its way, none is on its way there. -/
theorem refines (h : run (step uid d c) init as = some s)
    (hp : ∀ ch, s.world.chats c = some ch → ch.partnerId = p) :
    (Meets (step uid d c) (Orderly uid) init as → ∃ record bs t, World.Records record s.world ∧
      run (ChatLog.step uid record p) .init bs = some t ∧
      t.arrayMessage = s.arrayMessage ∧ t.user = s.world.chatUser c ∧
      (∀ q k, (q, k) ∈ t.index ↔ s.client.view.Present ["user-mess", uid, q, k]) ∧
      (s.feed.Quiet → t.Quiet)) ∧
    ∀ k s', s.step uid d c (.value k) = some s' → s'.world = s.world := by
  have hs := run_sound h
  refine ⟨fun hC => ?_, fun k s' hstep => congrArg Client.world (hs.value_client hstep)⟩
  obtain ⟨block, bs, t, hblock, ht, -, hst⟩ :=
    exists_chatLog h hp hC (fun _ _ => id) (D := fun _ _ _ => True) fun _ _ _ _ _ _ _ => trivial
  exact ⟨_, bs, t, World.records_of_block hblock, ht, hst.array, hst.user, hst.index,
    hst.quiet hs⟩

/-- The text on the screen of `a`, as a run of `ChatLog`. -/
theorem refines_firstText : ∃ s,
    run (step "a" 0 0) init (firstTextRead ++ delivery "b" "k") = some s ∧
      ∃ record bs t, run (ChatLog.step "a" record "b") .init bs = some t ∧
        t.arrayMessage = s.arrayMessage ∧ s.arrayMessage ≠ [] := by
  obtain ⟨s, ch, hs, hch, hp, -, -, harray, -⟩ :=
    exists_of_settles "a" 0 0 "b" (firstTextRead ++ delivery "b" "k") (by decide +kernel)
  have hC : Meets (step "a" 0 0) (Orderly "a") init (firstTextRead ++ delivery "b" "k") := by
    decide +kernel
  obtain ⟨record, bs, t, -, ht, hshown, -⟩ := (refines hs (World.partnerId_eq hch hp)).1 hC
  exact ⟨s, hs, record, bs, t, ht, hshown, harray⟩

/-- **A chat log reads nothing but what is its user's**: every record that it has put a
listener on is that of a text or an image that its user has sent or has been sent. -/
theorem reads_own (h : run (step uid d c) init as = some s) {k : String} (hk : k ∈ s.values) :
    ∃ q b, s.world.SentBetween uid q b ∧ b.key = k := by
  obtain ⟨q, hq⟩ := (run_sound h).values k hk
  exact ⟨q, hq.exists_sentBetween⟩

/-- `a` reads the text that it has sent. -/
theorem reads_own_firstText : ∃ s q b,
    run (step "a" 0 0) init (firstTextRead ++ delivery "b" "k") = some s ∧
      s.world.SentBetween "a" q b ∧ b.key = "k" := by
  have hrun : ((run (step "a" 0 0) init (firstTextRead ++ delivery "b" "k")).map fun s =>
      decide ("k" ∈ s.values)) = some true := by
    decide +kernel
  obtain ⟨s, hs, h⟩ := Option.map_eq_some_iff.mp hrun
  obtain ⟨q, b, hb, hkey⟩ := reads_own hs (of_decide_eq_true h)
  exact ⟨s, q, b, hs, hb, hkey⟩

end ChatScreen

end AppChat
