import AppChat.Inbox.Messagecontroller

/-!
The listeners that pile up behind the inbox.

Every value event of the user's own record runs `setupnavigationitem`, which
clears the inbox and calls `get_message_2` again. The listeners of the earlier
calls stay, so each message is read once for every event so far, and the
completions of all these reads interleave.

* `PiledInbox`: the keys of each partner, the inbox, and for every listener how
  many of its reads for each partner have completed. The reads of one listener
  for one partner complete in the order of the keys.
* `Piled`: what is filed under a partner is the message some listener delivered
  last, and what the newest listener has delivered is filed.
* `piled_up_listeners`: once every listener has delivered every key, the inbox
  is the one a single listener would have built.
-/

namespace AppChat

open LastWins

/-- The inbox with its listeners, oldest first, and the keys of each partner in
the order in which they were entered. -/
structure PiledInbox where
  keys : String → List String
  box : Inbox
  listeners : List (String → ℕ)

/-- A key is entered, the profile event, the next read of a listener for a
partner completes, or the timer fires. -/
inductive PiledAction where
  | added (partnerId key : String)
  | profileValue
  | getMessage2 (l : ℕ) (partnerId : String) (arr : List Mess)
  | handleCallData
  deriving DecidableEq, Repr

namespace PiledInbox

def init : PiledInbox := ⟨fun _ => [], .empty, []⟩

/-- A key is entered under a partner. -/
def addKey (s : PiledInbox) (q k : String) : PiledInbox :=
  { s with keys := Function.update s.keys q (s.keys q ++ [k]) }

@[simp] lemma addKey_keys_self (s : PiledInbox) (q k : String) :
    (s.addKey q k).keys q = s.keys q ++ [k] := Function.update_self ..

@[simp] lemma addKey_keys_of_ne (s : PiledInbox) {p q : String} (k : String) (h : p ≠ q) :
    (s.addKey q k).keys p = s.keys p := Function.update_of_ne h ..

section Step

variable (uid : String) (record : String → Mess)

/-- The next state. A listener reports a key when it is entered, or when the
listener is added; the read it starts may complete at any time after that. -/
def step (s : PiledInbox) : PiledAction → Option PiledInbox
  | .added partnerId key =>
      if (record key).getChatPartnerId (some uid) = partnerId then
        some (s.addKey partnerId key)
      else none
  | .profileValue =>
      some { s with
        box := s.box.setupnavigationitem
        listeners := s.listeners ++ [fun _ => 0] }
  | .getMessage2 l partnerId arr =>
      s.listeners[l]?.bind fun done => (s.keys partnerId)[done partnerId]?.bind fun key =>
        if Inbox.SortedValues
            (Inbox.fileMessage uid s.box.messageDictionary (record key)) arr then
          some { s with
            box := s.box.getMessage2 uid (record key) arr
            listeners := s.listeners.set l
              (Function.update done partnerId (done partnerId + 1)) }
        else none
  | .handleCallData =>
      if s.box.timer then some { s with box := s.box.handleCallData } else none

end Step

/-- Every listener has delivered every key. -/
def Delivered (s : PiledInbox) : Prop := ∀ done ∈ s.listeners, ∀ p, done p = (s.keys p).length

/-- What is filed under a partner comes from the last completed read of some
listener, and the newest listener has delivered nothing that is not filed: it
was added at the last clear. -/
structure Piled (uid : String) (record : String → Mess) (s : PiledInbox) : Prop where
  partner : ∀ p, ∀ k ∈ s.keys p, (record k).getChatPartnerId (some uid) = p
  last : ∀ p m, s.box.messageDictionary.lookup p = some m →
    ∃ (i : ℕ) (done : String → ℕ) (n : ℕ) (k : String), s.listeners[i]? = some done ∧
      done p = n + 1 ∧ (s.keys p)[n]? = some k ∧ m = record k
  newest : ∀ done, s.listeners[s.listeners.length - 1]? = some done →
    ∀ p, done p ≠ 0 → p ∈ s.box.messageDictionary
  sorted : Inbox.SortedValues s.box.messageDictionary s.box.arrayMess

variable {uid : String} {record : String → Mess} {s s' : PiledInbox}

lemma piled_init : Piled uid record init where
  partner := by
    intro p k hk
    cases hk
  last := by
    intro p m hm
    cases hm
  newest := by
    intro done hdone
    simp [init] at hdone
  sorted := ⟨List.Perm.refl _, List.Pairwise.nil⟩

namespace Piled

/-- A new key changes nothing that has been delivered. -/
lemma added (hs : Piled uid record s) {q k : String}
    (hk : (record k).getChatPartnerId (some uid) = q) :
    Piled uid record (s.addKey q k) where
  partner := by
    intro p k' hk'
    by_cases hp : p = q
    · subst hp
      rw [addKey_keys_self, List.mem_append, List.mem_singleton] at hk'
      rcases hk' with hk' | rfl
      · exact hs.partner p k' hk'
      · exact hk
    · rw [addKey_keys_of_ne s k hp] at hk'
      exact hs.partner p k' hk'
  last := by
    intro p m hm
    obtain ⟨i, done, n, k', hi, hn, hk', hm'⟩ := hs.last p m hm
    refine ⟨i, done, n, k', hi, hn, ?_, hm'⟩
    by_cases hp : p = q
    · subst hp
      have hlt : n < (s.keys p).length := (List.getElem?_eq_some_iff.mp hk').1
      rw [addKey_keys_self, List.getElem?_append_left hlt]
      exact hk'
    · rw [addKey_keys_of_ne s k hp]
      exact hk'
  newest := hs.newest
  sorted := hs.sorted

/-- A profile event clears the inbox and adds a listener that has delivered
nothing. -/
lemma profileValue (hs : Piled uid record s) : Piled uid record
    { s with box := s.box.setupnavigationitem, listeners := s.listeners ++ [fun _ => 0] } where
  partner := hs.partner
  last := by
    intro p m hm
    cases hm
  newest := by
    intro done hdone p hp
    have hlast : done = fun _ => 0 := by simpa using hdone.symm
    rw [hlast] at hp
    exact absurd rfl hp
  sorted := ⟨List.Perm.refl _, List.Pairwise.nil⟩

/-- **A completed read** files the next message of its listener. -/
lemma getMessage2 (hs : Piled uid record s) {l : ℕ} {q k : String} {done : String → ℕ}
    {arr : List Mess} (hl : s.listeners[l]? = some done) (hk : (s.keys q)[done q]? = some k)
    (harr : Inbox.SortedValues
      (Inbox.fileMessage uid s.box.messageDictionary (record k)) arr) :
    Piled uid record { s with
      box := s.box.getMessage2 uid (record k) arr
      listeners := s.listeners.set l (Function.update done q (done q + 1)) } := by
  have hq : (record k).getChatPartnerId (some uid) = q :=
    hs.partner q k (List.mem_of_getElem? hk)
  have hlt : l < s.listeners.length := (List.getElem?_eq_some_iff.mp hl).1
  have hlookup : ∀ p, (Inbox.fileMessage uid s.box.messageDictionary (record k)).lookup p =
      if q = p then some (record k) else s.box.messageDictionary.lookup p := by
    intro p
    rw [Inbox.fileMessage, lookup_file, hq]
  -- the listeners for the other partners, after the step
  have hset : ∀ (i : ℕ) (d : String → ℕ), s.listeners[i]? = some d →
      ∃ d' : String → ℕ, (s.listeners.set l (Function.update done q (done q + 1)))[i]? = some d' ∧
        ∀ p, p ≠ q → d' p = d p := by
    intro i d hi
    by_cases hli : l = i
    · subst hli
      obtain rfl : done = d := Option.some.inj (hl.symm.trans hi)
      refine ⟨_, by rw [List.getElem?_set_self hlt], fun p hp => ?_⟩
      rw [Function.update_of_ne hp]
    · exact ⟨d, by rw [List.getElem?_set_ne hli, hi], fun _ _ => rfl⟩
  refine ⟨hs.partner, fun p m hm => ?_, fun d hd p hp => ?_, harr⟩
  · replace hm : (if q = p then some (record k) else s.box.messageDictionary.lookup p) = some m :=
      (hlookup p).symm.trans hm
    by_cases hqp : q = p
    · subst hqp
      rw [if_pos rfl] at hm
      refine ⟨l, _, done q, k, List.getElem?_set_self hlt, ?_, hk, (Option.some.inj hm).symm⟩
      rw [Function.update_self]
    · rw [if_neg hqp] at hm
      obtain ⟨i, d, n, k', hi, hn, hk', hm'⟩ := hs.last p m hm
      obtain ⟨d', hi', hd'⟩ := hset i d hi
      exact ⟨i, d', n, k', hi', (hd' p (Ne.symm hqp)).trans hn, hk', hm'⟩
  · show p ∈ Inbox.fileMessage uid s.box.messageDictionary (record k)
    rw [← AList.lookup_isSome, hlookup p]
    by_cases hqp : q = p
    · rw [if_pos hqp]
      rfl
    · rw [if_neg hqp, AList.lookup_isSome]
      rw [List.length_set] at hd
      have hlast : s.listeners.length - 1 < s.listeners.length := by omega
      obtain ⟨d', hd', hsame⟩ := hset _ _ (List.getElem?_eq_getElem hlast)
      obtain rfl : d = d' := Option.some.inj (hd.symm.trans hd')
      rw [hsame p (Ne.symm hqp)] at hp
      exact hs.newest _ (List.getElem?_eq_getElem hlast) p hp

end Piled

/-- **Every step keeps the piled-up listeners in order.** -/
lemma Piled.step (hs : Piled uid record s) {a : PiledAction}
    (h : s.step uid record a = some s') : Piled uid record s' := by
  cases a with
  | added q k =>
      simp only [PiledInbox.step, Option.ite_none_right_eq_some] at h
      rw [← Option.some.inj h.2]
      exact hs.added h.1
  | profileValue =>
      rw [← Option.some.inj h]
      exact hs.profileValue
  | getMessage2 l q arr =>
      simp only [PiledInbox.step, Option.bind_eq_some_iff, Option.ite_none_right_eq_some] at h
      obtain ⟨done, hl, k, hk, harr, h⟩ := h
      rw [← Option.some.inj h]
      exact hs.getMessage2 hl hk harr
  | handleCallData =>
      simp only [PiledInbox.step, Option.ite_none_right_eq_some] at h
      rw [← Option.some.inj h.2]
      exact ⟨hs.partner, hs.last, hs.newest, hs.sorted⟩

lemma run_piled {as : List PiledAction}
    (h : Transition.run (step uid record) init as = some s) : Piled uid record s :=
  Transition.run_invariant (fun _ _ _ hs hstep => hs.step hstep) piled_init h

/-- Once every listener has delivered every key, each partner is filed with the
message of the last key. -/
lemma Piled.lookup_eq (hs : Piled uid record s) (hl : s.listeners ≠ []) (hd : s.Delivered)
    (p : String) :
    s.box.messageDictionary.lookup p = (s.keys p).getLast?.map record := by
  cases hm : s.box.messageDictionary.lookup p with
  | none =>
      -- the newest listener has delivered no key of `p`, so there is none
      have hlast : s.listeners.length - 1 < s.listeners.length := by
        have := List.length_pos_iff.mpr hl
        omega
      have hget : s.listeners[s.listeners.length - 1]? = some s.listeners[s.listeners.length - 1] :=
        List.getElem?_eq_getElem hlast
      have hzero : s.listeners[s.listeners.length - 1] p = 0 := by
        by_contra hne
        have hmem := hs.newest _ hget p hne
        rw [← AList.lookup_isSome, hm] at hmem
        cases hmem
      rw [hd _ (List.getElem_mem hlast) p, List.length_eq_zero_iff] at hzero
      rw [hzero]
      rfl
  | some m =>
      obtain ⟨i, done, n, k, hi, hn, hk, rfl⟩ := hs.last p m hm
      have hlen : n + 1 = (s.keys p).length := by
        rw [← hn, hd done (List.mem_of_getElem? hi) p]
      rw [List.getLast?_eq_getElem?, ← hlen, Nat.add_sub_cancel, hk]
      rfl

/-- **Piled-up listeners do not change the inbox.** After any number of profile
events and keys and any interleaving of the completions, once every listener has
delivered every key, each partner is filed with the message of its last key, and
the array lists the dictionary by timestamp; this is the dictionary that any run
with one listener builds from the same keys. -/
theorem piled_up_listeners {as : List PiledAction}
    (h : Transition.run (step uid record) init as = some s) (hl : s.listeners ≠ [])
    (hd : s.Delivered) :
    (∀ p, s.box.messageDictionary.lookup p = (s.keys p).getLast?.map record) ∧
    Inbox.SortedValues s.box.messageDictionary s.box.arrayMess ∧
    ∀ (bs : List PiledAction) (t : PiledInbox),
      Transition.run (step uid record) init bs = some t → t.listeners.length = 1 →
        t.keys = s.keys → t.Delivered →
          ∀ p, s.box.messageDictionary.lookup p = t.box.messageDictionary.lookup p := by
  have hs := run_piled h
  refine ⟨hs.lookup_eq hl hd, hs.sorted, fun bs t ht hone hkeys htd p => ?_⟩
  have htl : t.listeners ≠ [] := List.length_pos_iff.mp (by omega)
  rw [hs.lookup_eq hl hd, (run_piled ht).lookup_eq htl htd, hkeys]

/-- Two messages of `b` to `a`, under the keys `k` and `l`. -/
def firstMessage : Mess := ⟨"a", "b", 1, "hello", "", "demo_video"⟩
def lastMessage : Mess := ⟨"a", "b", 2, "how are you", "", "demo_video"⟩
def bothMessages (key : String) : Mess := if key = "k" then firstMessage else lastMessage

/-- Two profile events, the second after the first listener has delivered `k`; then
`l` is entered, and the reads of the two listeners complete in turn. -/
def twoListeners : List PiledAction :=
  [.added "b" "k", .profileValue, .getMessage2 0 "b" [firstMessage], .profileValue,
    .added "b" "l", .getMessage2 0 "b" [lastMessage], .getMessage2 1 "b" [firstMessage],
    .getMessage2 1 "b" [lastMessage]]

/-- The second listener has put the first message back, and then the last one. -/
theorem piled_up_twoListeners : ∃ s,
    Transition.run (step "a" bothMessages) init twoListeners = some s ∧
      s.box.messageDictionary.lookup "b" = some lastMessage := by
  have hrun : Transition.run (step "a" bothMessages) init twoListeners = some _ := rfl
  refine ⟨_, hrun, (piled_up_listeners hrun (List.cons_ne_nil _ _) fun done hdone p => ?_).1 "b"⟩
  -- each of the two listeners has delivered both keys of `b`
  by_cases hp : p = "b"
  · subst hp
    rcases List.mem_cons.mp hdone with rfl | hdone
    · rfl
    · rw [List.mem_singleton.mp hdone]
      rfl
  · have hkeys : (((init.addKey "b" "k").addKey "b" "l").keys p).length = 0 := by
      rw [addKey_keys_of_ne _ _ hp, addKey_keys_of_ne _ _ hp]
      rfl
    refine Eq.trans ?_ hkeys.symm
    rcases List.mem_cons.mp hdone with rfl | hdone
    · simp [hp]
    · rw [List.mem_singleton.mp hdone]
      simp [hp]

end PiledInbox

end AppChat
