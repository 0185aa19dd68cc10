import AppChat.Chat.OnceEach

/-!
A chat screen that is opened once, over a conversation that is not removed.

* `Undisturbed`: the condition on the steps. The user is set once, the partner's
  node is not removed once the screen listens, and no record of the conversation
  is delivered again.
* `Opened`: such a screen adds at most one listener on `user-mess/uid`, and none on
  an empty node; so its steps meet `OnceEach`.
* `arrayMessage_perm_keys`: what it lists in the end are the messages of the keys
  that are in the partner's node then.
-/

namespace AppChat

namespace ChatLog

open Entries

variable {uid : String} {record : String → Mess} {p : String} {s s' : ChatLog}

variable (uid record p s) in
/-- The step neither opens the screen again nor touches what it has listed. -/
def Undisturbed : ChatAction → Prop
  | .setUser => s.outer = 0
  | .removed q => q = p → s.outer = 0
  | .changed k => (record k).getChatPartnerId (some uid) ≠ p
  | _ => True

variable (p s) in
/-- The screen listens at most once, and not to the empty node of the partner. -/
structure Opened : Prop where
  outer_le : s.outer ≤ 1
  inner : s.keys p = [] → s.inner p = 0

lemma opened_init : Opened p init := ⟨Nat.zero_le 1, fun _ => rfl⟩

namespace Opened

/-- An undisturbed step neither brings a message twice nor loses one. -/
lemma onceEach (ho : Opened p s) (hs : Once uid record p s) {a : ChatAction}
    (ha : Undisturbed uid record p s a) : OnceEach uid record p s a := by
  cases a with
  | setUser => exact Or.inl ha
  | added q k =>
      intro _ hnil
      rw [ho.inner hnil]
      exact ho.outer_le
  | removed q =>
      intro hqp
      have hidle := hs.idle (ha hqp)
      rw [listeners] at hidle
      exact List.count_eq_zero.mp (by omega)
  | changed k => exact ha
  | partnerAdded q => trivial
  | keyAdded q k => trivial
  | value k => trivial

lemma step (ho : Opened p s) (hs : Once uid record p s) {a : ChatAction}
    (ha : Undisturbed uid record p s a) (h : s.step uid record p a = some s') : Opened p s' := by
  cases step_moves h with
  | setUser =>
      have houter : s.outer = 0 := ha
      refine ⟨?_, ho.inner⟩
      show s.outer + 1 ≤ 1
      omega
  | added q k _ _ =>
      refine ⟨ho.outer_le, fun hnil => ?_⟩
      have hkeys : under ((q, k) :: s.index) p = [] := hnil
      by_cases hqp : q = p
      · subst hqp
        rw [under_cons_self] at hkeys
        exact absurd hkeys (List.cons_ne_nil _ _)
      · rw [under_cons_of_ne _ _ hqp] at hkeys
        exact ho.inner hkeys
  | removed q =>
      refine ⟨ho.outer_le, fun hnil => ?_⟩
      by_cases hqp : q = p
      · have hidle := hs.idle (ha hqp)
        rw [listeners] at hidle
        show s.inner p = 0
        omega
      · have hkeys : under (s.index.filter fun e => e.1 ≠ q) p = [] := hnil
        rw [under_filter_of_ne _ hqp] at hkeys
        exact ho.inner hkeys
  | partnerAdded q hq =>
      refine ⟨ho.outer_le, fun hnil => ?_⟩
      have hqp : q ≠ p := by
        rintro rfl
        exact hs.reports hq hnil
      show Function.update s.inner q (s.inner q + 1) p = 0
      rw [Function.update_of_ne (Ne.symm hqp)]
      exact ho.inner hnil
  | keyAdded q k _ => exact ⟨ho.outer_le, ho.inner⟩
  | value k _ => exact ⟨ho.outer_le, ho.inner⟩
  | changed k _ => exact ⟨ho.outer_le, ho.inner⟩

/-- The keys seen are those in the node. -/
lemma mem_seen (ho : Opened p s) (hs : Once uid record p s) (houter : s.outer ≠ 0) (k : String) :
    k ∈ s.seen ↔ k ∈ s.keys p := by
  by_cases hnil : s.keys p = []
  · have hnot : s.partnerEvents.count p = 0 :=
      List.count_eq_zero.mpr fun h => hs.reports h hnil
    have hzero : s.listeners p = 0 := by
      rw [listeners, hnot, ho.inner hnil]
    rw [hs.unseen hzero, hnil]
  · exact hs.mem_seen houter hnil k

end Opened

/-- The invariants of an undisturbed screen. -/
lemma invariants_of_undisturbed {as : List ChatAction}
    (h : Transition.run (ChatLog.step uid record p) init as = some s)
    (hC : Transition.Meets (ChatLog.step uid record p) (Undisturbed uid record p) init as) :
    Filed uid record p s ∧ Once uid record p s ∧ Opened p s := by
  refine hC.invariant
    (I := fun t => Filed uid record p t ∧ Once uid record p t ∧ Opened p t)
    (fun t a u ⟨hfiled, honce, hopened⟩ ha hstep => ?_) ⟨filed_init, once_init, opened_init⟩ h
  exact ⟨hfiled.step hstep, honce.step hfiled (hopened.onceEach honce ha) hstep,
    hopened.step honce ha hstep⟩

/-- **An undisturbed screen lists the node**: when no event is on its way, it lists
the messages of the keys that are in the partner's node, each once. -/
lemma arrayMessage_perm_keys {as : List ChatAction}
    (h : Transition.run (ChatLog.step uid record p) init as = some s)
    (hC : Transition.Meets (ChatLog.step uid record p) (Undisturbed uid record p) init as)
    (hquiet : s.Quiet) (houter : s.outer ≠ 0) :
    s.arrayMessage.Perm ((s.keys p).map record) := by
  obtain ⟨hfiled, honce, hopened⟩ := invariants_of_undisturbed h hC
  obtain ⟨hpartner, hkey, hvalue⟩ := hquiet
  have hwaiting : s.waiting uid record p = 0 := by
    simp [waiting, valuesOf, reported, hpartner, hkey, hvalue]
  have hseen : s.seen.Perm (s.keys p) :=
    (List.perm_ext_iff_of_nodup honce.nodup (nodup_under hfiled.nodup p)).mpr
      (hopened.mem_seen honce houter)
  have harray : s.arrayMessage.Perm (s.seen.map record) := by
    refine Multiset.coe_eq_coe.mp ?_
    rw [← honce.messages_eq, messages, hwaiting, Multiset.map_zero, add_zero]
  exact harray.trans (hseen.map record)

end ChatLog

end AppChat
