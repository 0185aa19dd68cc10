import AppChat.Chat.ChatLog

/-!
Whether the chat screen lists each message once.

* `ChatLog.Moves`: the steps, each with its result; the invariants are proved
  from it, and never from `step`.
* `ChatLog.Filed`: what every reachable screen satisfies; the events of a key
  go with the partner of its message.
* `ChatLog.waiting`: the messages of the conversation that are on their way, at
  each of the three levels.
* `OnceEach`: the condition on the steps under which no message comes twice or
  is lost.
* `Once`: the invariant. What the screen lists and what is on its way are
  together the messages of the keys seen, and the node of the partner has at
  most one listener, counting the one that is about to be added.
* `lists_each_once`: in a run whose steps meet the condition, a screen without
  an event on its way lists the messages of the keys seen, each once.
-/

namespace AppChat

namespace ChatLog

open Entries

variable (uid : String) (record : String → Mess) (p : String) (s : ChatLog)

/-! ### What a step does -/

/-- **The steps of the screen**, with what enables each of them. -/
inductive Moves : ChatAction → ChatLog → Prop where
  | setUser : Moves .setUser ((getMessageUserPartner { s with user := some p }).observe p)
  | added (q k : String) (hq : (record k).getChatPartnerId (some uid) = q)
      (hnew : (q, k) ∉ s.index) : Moves (.added q k) ((s.indexAdded q k).observe p)
  | removed (q : String) : Moves (.removed q) (s.indexRemoved q)
  | partnerAdded (q : String) (hq : q ∈ s.partnerEvents) :
      Moves (.partnerAdded q) (s.partnerAdded q)
  | keyAdded (q k : String) (hk : (q, k) ∈ s.keyEvents) : Moves (.keyAdded q k) (s.keyAdded q k)
  | value (k : String) (hk : k ∈ s.valueEvents) : Moves (.value k) (s.value uid k (record k))
  | changed (k : String) (hk : k ∈ s.values) : Moves (.changed k)
      { s with valueEvents := s.valueEvents ++ List.replicate (s.values.count k) k }

variable {uid record p s} in
lemma step_moves {a : ChatAction} {s' : ChatLog} (h : s.step uid record p a = some s') :
    Moves uid record p s a s' := by
  cases a with
  | setUser =>
      rw [← Option.some.inj h]
      exact .setUser
  | added q k =>
      simp only [step, Option.ite_none_right_eq_some] at h
      rw [← Option.some.inj h.2]
      exact .added q k h.1.1 h.1.2
  | removed q =>
      rw [← Option.some.inj h]
      exact .removed q
  | partnerAdded q =>
      simp only [step, Option.ite_none_right_eq_some] at h
      rw [← Option.some.inj h.2]
      exact .partnerAdded q h.1
  | keyAdded q k =>
      simp only [step, Option.ite_none_right_eq_some] at h
      rw [← Option.some.inj h.2]
      exact .keyAdded q k h.1
  | value k =>
      simp only [step, Option.ite_none_right_eq_some] at h
      rw [← Option.some.inj h.2]
      exact .value k h.1
  | changed k =>
      simp only [step, Option.ite_none_right_eq_some] at h
      rw [← Option.some.inj h.2]
      exact .changed k h.1

/-! ### Entries and their partners -/

/-- The keys in the index and in the events are those of messages with the
partner, and the screen is that of `p` once it listens. -/
structure Filed : Prop where
  index : ∀ e ∈ s.index, (record e.2).getChatPartnerId (some uid) = e.1
  nodup : s.index.Nodup
  keyEvents : ∀ e ∈ s.keyEvents, (record e.2).getChatPartnerId (some uid) = e.1
  user : s.user = if s.outer = 0 then none else some p

variable {uid record p s} {s' : ChatLog}

lemma filed_init : Filed uid record p init where
  index := by intro e he; cases he
  nodup := List.nodup_nil
  keyEvents := by intro e he; cases he
  user := rfl

lemma Filed.step {a : ChatAction} (hs : Filed uid record p s)
    (h : s.step uid record p a = some s') : Filed uid record p s' := by
  cases step_moves h with
  | setUser =>
      exact ⟨hs.index, hs.nodup, hs.keyEvents, by simp [observe, getMessageUserPartner]⟩
  | added q k hq hnew =>
      refine ⟨fun e he => ?_, List.nodup_cons.mpr ⟨hnew, hs.nodup⟩, fun e he => ?_, hs.user⟩
      · rcases List.mem_cons.mp he with rfl | he
        · exact hq
        · exact hs.index e he
      · rcases List.mem_append.mp he with he | he
        · exact hs.keyEvents e he
        · rw [List.eq_of_mem_replicate he]
          exact hq
  | removed q =>
      refine ⟨fun e he => ?_, hs.nodup.filter _, hs.keyEvents, hs.user⟩
      exact hs.index e (List.mem_of_mem_filter he)
  | partnerAdded q hq =>
      refine ⟨hs.index, hs.nodup, fun e he => ?_, hs.user⟩
      rcases List.mem_append.mp he with he | he
      · exact hs.keyEvents e he
      · obtain ⟨k, hk, rfl⟩ := List.mem_map.mp he
        exact hs.index (q, k) (mem_under.mp hk)
  | keyAdded q k hk =>
      exact ⟨hs.index, hs.nodup, fun e he => hs.keyEvents e (List.mem_of_mem_erase he), hs.user⟩
  | value k hk => exact ⟨hs.index, hs.nodup, hs.keyEvents, hs.user⟩
  | changed k hk => exact ⟨hs.index, hs.nodup, hs.keyEvents, hs.user⟩

/-! ### Messages on their way -/

variable (uid record p s) in
/-- The keys of `p` with a value event on its way. -/
def valuesOf : Multiset String :=
  ↑(s.valueEvents.filter fun k => (record k).getChatPartnerId (some uid) = p)

variable (p s) in
/-- The keys of `p` that a partner event on its way will report. -/
def reported : Multiset String := if p ∈ s.partnerEvents then ↑(s.keys p) else 0

variable (uid record p s) in
/-- The keys of `p` with an event on its way, at any of the three levels. -/
def waiting : Multiset String :=
  s.valuesOf uid record p + ↑(under s.keyEvents p) + s.reported p

variable (uid record p s) in
/-- The messages that the screen lists or that are on their way to it. -/
def messages : Multiset Mess := ↑s.arrayMessage + (s.waiting uid record p).map record

variable (p s) in
/-- How often the node of `p` is listened to, or is about to be. -/
def listeners : ℕ := s.partnerEvents.count p + s.inner p

/-- A partner event goes on as key events: the keys it reports are on their way
before and after. -/
lemma waiting_partnerAdded {q : String} (h : q ∈ s.partnerEvents) (hle : s.listeners p ≤ 1) :
    (s.partnerAdded q).waiting uid record p = s.waiting uid record p := by
  rw [waiting, waiting, add_assoc, add_assoc]
  congr 1
  by_cases hqp : q = p
  · subst hqp
    have hlast : q ∉ s.partnerEvents.erase q := by
      rw [← List.count_eq_zero, List.count_erase_self]
      have := List.count_pos_iff.mpr h
      rw [listeners] at hle
      omega
    simp [partnerAdded, reported, h, hlast, under_append]
  · have hmem : p ∈ s.partnerEvents.erase q ↔ p ∈ s.partnerEvents :=
      List.mem_erase_of_ne (Ne.symm hqp)
    simp [partnerAdded, reported, hmem, under_append, under_map_of_ne _ hqp, keys]

/-- A key event goes on as a value event. -/
lemma waiting_keyAdded {q k : String} (hs : Filed uid record p s) (h : (q, k) ∈ s.keyEvents) :
    (s.keyAdded q k).waiting uid record p = s.waiting uid record p := by
  have hq : (record k).getChatPartnerId (some uid) = q := hs.keyEvents (q, k) h
  rw [waiting, waiting]
  congr 1
  by_cases hqp : q = p
  · subst hqp
    have hvalue : (s.keyAdded q k).valuesOf uid record q = s.valuesOf uid record q + {k} := by
      simp [keyAdded, valuesOf, hq, ← Multiset.coe_add]
    have hkey : (↑(under s.keyEvents q) : Multiset String) =
        {k} + ↑(under (s.keyEvents.erase (q, k)) q) :=
      Multiset.coe_eq_coe.mpr (perm_under_erase h)
    rw [hvalue, hkey, add_assoc]
    rfl
  · simp [keyAdded, valuesOf, hq, hqp, under_erase_of_ne hqp]

/-- A value event of another conversation changes nothing. -/
lemma messages_value_of_ne {k : String} (hs : Filed uid record p s)
    (hk : (record k).getChatPartnerId (some uid) ≠ p) :
    (s.value uid k (record k)).messages uid record p = s.messages uid record p := by
  have huser : some ((record k).getChatPartnerId (some uid)) ≠ s.user := by
    rw [hs.user]
    split_ifs
    · simp
    · simpa using hk
  have hvalue : (s.value uid k (record k)).valuesOf uid record p = s.valuesOf uid record p := by
    rw [valuesOf, valuesOf, value, ← List.erase_filter, List.erase_of_not_mem (by simp [hk])]
  have harray : (s.value uid k (record k)).arrayMessage = s.arrayMessage := by
    rw [value, if_neg huser]
  rw [messages, messages, waiting, waiting, hvalue, harray]
  rfl

/-- A value event of this conversation goes on as a message on the screen. -/
lemma messages_value {k : String} (hs : Filed uid record p s) (houter : s.outer ≠ 0)
    (h : k ∈ s.valueEvents) (hk : (record k).getChatPartnerId (some uid) = p) :
    (s.value uid k (record k)).messages uid record p = s.messages uid record p := by
  have huser : some ((record k).getChatPartnerId (some uid)) = s.user := by
    rw [hs.user, if_neg houter, hk]
  have hvalue : s.valuesOf uid record p =
      {k} + (s.value uid k (record k)).valuesOf uid record p := by
    have hperm := (List.perm_cons_erase h).filter fun k =>
      (record k).getChatPartnerId (some uid) = p
    rw [List.filter_cons_of_pos (by simpa using hk)] at hperm
    exact Multiset.coe_eq_coe.mpr hperm
  have harray : (s.value uid k (record k)).arrayMessage = s.arrayMessage ++ [record k] := by
    rw [value, if_pos huser]
  rw [messages, messages, waiting, waiting, hvalue, harray]
  simp only [Multiset.map_add, ← Multiset.coe_add, Multiset.map_singleton, Multiset.coe_singleton]
  simp only [value, reported, keys]
  abel

/-- Setting the user has the node reported once more when it has a key. -/
lemma listeners_getMessageUserPartner :
    s.getMessageUserPartner.listeners p = s.listeners p + if s.keys p = [] then 0 else 1 := by
  have hcount : (s.index.map Prod.fst).dedup.count p = if s.keys p = [] then 0 else 1 := by
    rw [List.count_dedup, keys]
    by_cases h : under s.index p = []
    · rw [if_pos h, if_neg (fun hm => mem_map_fst.mp hm h)]
    · rw [if_neg h, if_pos (mem_map_fst.mpr h)]
  simp only [listeners, getMessageUserPartner, List.count_append, hcount]
  omega

lemma waiting_getMessageUserPartner (h : p ∈ s.partnerEvents → s.keys p = []) :
    s.getMessageUserPartner.waiting uid record p = s.waiting uid record p + ↑(s.keys p) := by
  have hreported : s.getMessageUserPartner.reported p = ↑(s.keys p) := by
    rw [reported]
    split_ifs with hp
    · rfl
    · have hkeys : s.keys p = [] := by
        by_contra hne
        exact hp (List.mem_append_right _ (List.mem_dedup.mpr (mem_map_fst.mpr hne)))
      rw [hkeys, Multiset.coe_nil]
  have hnone : s.reported p = 0 := by
    rw [reported]
    split_ifs with hp
    · rw [h hp, Multiset.coe_nil]
    · rfl
  rw [waiting, waiting, hreported, hnone, add_zero]
  rfl

/-- A new key is on its way once for every listener that reports it. -/
lemma waiting_indexAdded {k : String} (hle : (s.indexAdded p k).listeners p ≤ 1)
    (hreports : p ∈ s.partnerEvents → s.keys p ≠ []) :
    (s.indexAdded p k).waiting uid record p =
      s.waiting uid record p + Multiset.replicate ((s.indexAdded p k).listeners p) k := by
  have hkey : (↑(under (s.indexAdded p k).keyEvents p) : Multiset String) =
      ↑(under s.keyEvents p) + Multiset.replicate (s.inner p) k := by
    simp [indexAdded, under_append, ← Multiset.coe_add, Multiset.coe_replicate]
  have hpartner : (s.indexAdded p k).reported p =
      s.reported p + Multiset.replicate ((s.indexAdded p k).partnerEvents.count p) k := by
    have hcount : (s.indexAdded p k).partnerEvents.count p ≤ 1 := (Nat.le_add_right ..).trans hle
    have hkeys : (s.indexAdded p k).keys p = k :: s.keys p := under_cons_self ..
    by_cases hmem : p ∈ (s.indexAdded p k).partnerEvents
    · have hone : (s.indexAdded p k).partnerEvents.count p = 1 := by
        have hpos := List.count_pos_iff.mpr hmem
        omega
      have hold : s.reported p = ↑(s.keys p) := by
        rw [reported]
        split_ifs with hp
        · rfl
        · -- the event is a new one, so the node was empty
          by_cases hnil : s.keys p = []
          · rw [hnil, Multiset.coe_nil]
          · exact (hp (by simpa [indexAdded, hnil] using hmem)).elim
      rw [reported, if_pos hmem, hkeys, hold, hone, Multiset.replicate_one, ← Multiset.cons_coe,
        ← Multiset.singleton_add, add_comm]
    · have hold : p ∉ s.partnerEvents := by
        intro hp
        exact hmem (by simp [indexAdded, hreports hp, hp])
      rw [reported, if_neg hmem, reported, if_neg hold, List.count_eq_zero.mpr hmem,
        Multiset.replicate_zero, add_zero]
  have hlisteners : (s.indexAdded p k).listeners p =
      (s.indexAdded p k).partnerEvents.count p + s.inner p := rfl
  rw [waiting, waiting, hkey, hpartner, hlisteners, Multiset.replicate_add]
  show s.valuesOf uid record p + _ + _ = _
  abel

/-! ### Each message once -/

variable (uid record p s) in
/-- A step neither loses a message of the conversation nor brings it twice:

* the user is set once, or while the partner's node is empty;
* the partner's node is not removed while the event that reports it is on its
  way;
* a key enters an empty node only if the listeners on `user-mess/uid`, which
  report it anew, and those on the node are at most one in all;
* no record of the conversation is delivered again. -/
def OnceEach : ChatAction → Prop
  | .setUser => s.outer = 0 ∨ s.keys p = []
  | .removed q => q = p → p ∉ s.partnerEvents
  | .added q _ => q = p → s.keys p = [] → s.outer + s.inner p ≤ 1
  | .changed k => (record k).getChatPartnerId (some uid) ≠ p
  | _ => True

variable (uid record p s) in
/-- **The invariant**: what the screen lists and what is on its way are together
the messages of the keys seen, and at most one listener is on the node. -/
structure Once : Prop where
  idle : s.outer = 0 → s.listeners p = 0
  listeners_le : s.listeners p ≤ 1
  listened : s.outer ≠ 0 → s.keys p ≠ [] → s.outer = 1 ∧ s.listeners p = 1
  reports : p ∈ s.partnerEvents → s.keys p ≠ []
  unseen : s.listeners p = 0 → s.seen = []
  mem_seen : s.outer ≠ 0 → s.keys p ≠ [] → ∀ k, k ∈ s.seen ↔ k ∈ s.keys p
  nodup : s.seen.Nodup
  messages_eq : s.messages uid record p = ↑(s.seen.map record)

lemma once_init : Once uid record p init := by
  refine ⟨fun _ => rfl, ?_, fun h => (h rfl).elim, ?_, fun _ => rfl, fun h => (h rfl).elim,
    List.nodup_nil, rfl⟩
  · show 0 ≤ 1
    omega
  · intro h
    cases h

namespace Once

/-- A step that leaves the conversation alone, or moves its events one level
down. -/
lemma of_eq (hs : Once uid record p s) (houter : s'.outer = s.outer) (hkeys : s'.keys p = s.keys p)
    (hlisteners : s'.listeners p = s.listeners p)
    (hreports : p ∈ s'.partnerEvents → p ∈ s.partnerEvents) (hseen : s'.seen = s.seen)
    (hmessages : s'.messages uid record p = s.messages uid record p) : Once uid record p s' where
  idle := by rw [houter, hlisteners]; exact hs.idle
  listeners_le := by rw [hlisteners]; exact hs.listeners_le
  listened := by rw [houter, hkeys, hlisteners]; exact hs.listened
  reports := by rw [hkeys]; exact fun h => hs.reports (hreports h)
  unseen := by rw [hlisteners, hseen]; exact hs.unseen
  mem_seen := by rw [houter, hkeys, hseen]; exact hs.mem_seen
  nodup := by rw [hseen]; exact hs.nodup
  messages_eq := by rw [hmessages, hseen]; exact hs.messages_eq

/-- The keys in the node have been seen. -/
lemma observe_seen (hs : Once uid record p s) (houter : s.outer ≠ 0) :
    s.keys p ∪ s.seen = s.seen := by
  refine List.Subset.union_eq_right fun k hk => ?_
  exact (hs.mem_seen houter (List.ne_nil_of_mem hk) k).mpr hk

/-- Before the first report nothing of the conversation is on its way. -/
lemma empty (hs : Once uid record p s) (h : s.listeners p = 0) :
    s.arrayMessage = [] ∧ s.waiting uid record p = 0 := by
  have hmessages := hs.messages_eq
  rw [hs.unseen h, List.map_nil, Multiset.coe_nil, messages, add_eq_zero] at hmessages
  obtain ⟨harray, hwaiting⟩ := hmessages
  exact ⟨Multiset.coe_eq_zero _ |>.mp harray, Multiset.map_eq_zero.mp hwaiting⟩

end Once

namespace Once

lemma setUser (hs : Once uid record p s) (hfiled : Filed uid record p s)
    (hfirst : s.outer = 0 ∨ s.keys p = []) :
    Once uid record p ((getMessageUserPartner { s with user := some p }).observe p) := by
  let t : ChatLog := (getMessageUserPartner { s with user := some p }).observe p
  have hlisteners : t.listeners p = s.listeners p + if s.keys p = [] then 0 else 1 :=
    listeners_getMessageUserPartner (s := { s with user := some p })
  have hmessages (h : p ∈ s.partnerEvents → s.keys p = []) :
      t.messages uid record p = s.messages uid record p + ↑((s.keys p).map record) := by
    have hwaiting : t.waiting uid record p = s.waiting uid record p + ↑(s.keys p) :=
      waiting_getMessageUserPartner (s := { s with user := some p }) h
    rw [messages, messages, hwaiting, Multiset.map_add, Multiset.map_coe, add_assoc]
    rfl
  by_cases hkeys : s.keys p = []
  · rw [if_pos hkeys, add_zero] at hlisteners
    have hseen : t.seen = s.seen := by
      show s.keys p ∪ s.seen = s.seen
      rw [hkeys, List.nil_union]
    refine ⟨fun h => (Nat.succ_ne_zero _ h).elim, hlisteners ▸ hs.listeners_le,
      fun _ h => (h hkeys).elim, fun h => ?_, fun h => hseen.trans (hs.unseen (hlisteners ▸ h)),
      fun _ h => (h hkeys).elim, ?_, ?_⟩
    · have hpos : 0 < t.partnerEvents.count p := List.count_pos_iff.mpr h
      have hcount : t.partnerEvents.count p + s.inner p = s.partnerEvents.count p + s.inner p :=
        hlisteners
      exact hs.reports (List.count_pos_iff.mp (by omega))
    · show t.seen.Nodup
      rw [hseen]
      exact hs.nodup
    · show t.messages uid record p = ↑(t.seen.map record)
      rw [hmessages fun _ => hkeys, hseen, hkeys, List.map_nil, Multiset.coe_nil, add_zero]
      exact hs.messages_eq
  · have houter : s.outer = 0 := hfirst.resolve_right hkeys
    have hzero : s.listeners p = 0 := hs.idle houter
    have hnil : s.seen = [] := hs.unseen hzero
    have hnot : p ∉ s.partnerEvents := by
      rw [← List.count_eq_zero]
      rw [listeners] at hzero
      omega
    rw [if_neg hkeys, hzero] at hlisteners
    have hmem : ∀ k, k ∈ t.seen ↔ k ∈ s.keys p := by
      intro k
      show k ∈ s.keys p ∪ s.seen ↔ _
      rw [List.mem_union_iff, hnil]
      simp
    have hnodup : t.seen.Nodup := List.Nodup.union _ hs.nodup
    refine ⟨fun h => (Nat.succ_ne_zero _ h).elim, hlisteners.le, fun _ _ => ⟨?_, hlisteners⟩,
      fun _ => hkeys, fun h => ?_, fun _ _ => hmem, hnodup, ?_⟩
    · show s.outer + 1 = 1
      omega
    · exact absurd (hlisteners.symm.trans h) (by omega)
    · show t.messages uid record p = ↑(t.seen.map record)
      have hperm : t.seen.Perm (s.keys p) :=
        (List.perm_ext_iff_of_nodup hnodup (nodup_under hfiled.nodup p)).mpr hmem
      rw [hmessages fun h => (hnot h).elim, hs.messages_eq, hnil, List.map_nil, Multiset.coe_nil,
        zero_add]
      exact Multiset.coe_eq_coe.mpr (hperm.map _).symm

lemma added {k : String} (hs : Once uid record p s) (hnew : (p, k) ∉ s.index)
    (hle : s.keys p = [] → s.outer + s.inner p ≤ 1) :
    Once uid record p ((s.indexAdded p k).observe p) := by
  let t : ChatLog := (s.indexAdded p k).observe p
  have hkeys : t.keys p = k :: s.keys p := under_cons_self ..
  -- one listener reports the key while the screen listens, and none before
  have hlisteners : t.listeners p = if s.outer = 0 then 0 else 1 := by
    show (s.indexAdded p k).partnerEvents.count p + s.inner p = _
    have hidle := hs.idle
    rw [listeners] at hidle
    by_cases hnil : s.keys p = []
    · have hnot : s.partnerEvents.count p = 0 :=
        List.count_eq_zero.mpr fun h => hs.reports h hnil
      have hcount : (s.indexAdded p k).partnerEvents.count p = s.outer := by
        simp [indexAdded, hnil, hnot]
      have hle' := hle hnil
      rw [hcount]
      split_ifs <;> omega
    · have hcount : (s.indexAdded p k).partnerEvents = s.partnerEvents := by
        simp [indexAdded, hnil]
      rw [hcount]
      split_ifs with houter
      · exact hidle houter
      · exact (hs.listened houter hnil).2
  have hmessages : t.messages uid record p =
      s.messages uid record p + Multiset.replicate (t.listeners p) (record k) := by
    have hle' : (s.indexAdded p k).listeners p ≤ 1 := by
      show t.listeners p ≤ 1
      rw [hlisteners]
      split_ifs <;> omega
    have hwaiting : t.waiting uid record p = _ := waiting_indexAdded hle' hs.reports
    rw [messages, messages, hwaiting, Multiset.map_add, Multiset.map_replicate, add_assoc]
    rfl
  have hreports : t.keys p ≠ [] := by
    rw [hkeys]
    exact List.cons_ne_nil k _
  by_cases houter : s.outer = 0
  · rw [if_pos houter] at hlisteners
    have hseen : t.seen = s.seen := if_pos houter
    have hnil : t.seen = [] := hseen.trans (hs.unseen (hs.idle houter))
    refine ⟨fun _ => hlisteners, ?_, fun h => (h houter).elim, fun _ => hreports, fun _ => hnil,
      fun h => (h houter).elim, ?_, ?_⟩
    · show t.listeners p ≤ 1
      omega
    · show t.seen.Nodup
      rw [hseen]
      exact hs.nodup
    · show t.messages uid record p = ↑(t.seen.map record)
      rw [hmessages, hlisteners, hseen, Multiset.replicate_zero, add_zero]
      exact hs.messages_eq
  · rw [if_neg houter] at hlisteners
    have hsame : s.outer = 1 ∧ ∀ k', k' ∈ s.seen ↔ k' ∈ s.keys p := by
      by_cases hnil : s.keys p = []
      · have hle' := hle hnil
        have hnot : s.partnerEvents.count p = 0 :=
          List.count_eq_zero.mpr fun h => hs.reports h hnil
        have hunseen : s.seen = [] := hs.unseen (by rw [listeners]; omega)
        exact ⟨by omega, fun k' => by rw [hunseen, hnil]⟩
      · exact ⟨(hs.listened houter hnil).1, hs.mem_seen houter hnil⟩
    have hfresh : k ∉ s.seen := fun h => hnew (mem_under.mp ((hsame.2 k).mp h))
    have hseen : t.seen = k :: s.seen := by
      have hunion : t.seen = t.keys p ∪ s.seen := if_neg houter
      rw [hunion, hkeys, List.cons_union, hs.observe_seen houter, List.insert_of_not_mem hfresh]
    refine ⟨fun h => (houter h).elim, hlisteners.le, fun _ _ => ⟨hsame.1, hlisteners⟩,
      fun _ => hreports, fun h => ?_, fun _ _ k' => ?_, ?_, ?_⟩
    · exact absurd (hlisteners.symm.trans h) (by omega)
    · show k' ∈ t.seen ↔ k' ∈ t.keys p
      rw [hseen, hkeys, List.mem_cons, List.mem_cons, hsame.2]
    · show t.seen.Nodup
      rw [hseen]
      exact List.nodup_cons.mpr ⟨hfresh, hs.nodup⟩
    · show t.messages uid record p = ↑(t.seen.map record)
      rw [hmessages, hlisteners, hseen, hs.messages_eq, Multiset.replicate_one, List.map_cons,
        ← Multiset.cons_coe, ← Multiset.singleton_add, add_comm]

lemma removed (hs : Once uid record p s) (hp : p ∉ s.partnerEvents) :
    Once uid record p (s.indexRemoved p) := by
  have hkeys : (s.indexRemoved p).keys p = [] := under_filter_self ..
  refine ⟨hs.idle, hs.listeners_le, fun _ h => (h hkeys).elim, fun h => (hp h).elim, hs.unseen,
    fun _ h => (h hkeys).elim, hs.nodup, ?_⟩
  have hreported : (s.indexRemoved p).reported p = s.reported p :=
    (if_neg hp).trans (if_neg hp).symm
  refine Eq.trans ?_ hs.messages_eq
  rw [messages, messages, waiting, waiting, hreported]
  rfl

/-- **A step that meets the condition keeps the invariant.** -/
lemma step {a : ChatAction} (hs : Once uid record p s) (hfiled : Filed uid record p s)
    (ha : OnceEach uid record p s a) (h : s.step uid record p a = some s') :
    Once uid record p s' := by
  cases step_moves h with
  | setUser => exact hs.setUser hfiled ha
  | added q k _ hnew =>
      by_cases hqp : q = p
      · subst hqp
        exact hs.added hnew (ha rfl)
      · have hkeys : (s.indexAdded q k).keys p = s.keys p := under_cons_of_ne _ _ hqp
        have hcount : (s.indexAdded q k).partnerEvents.count p = s.partnerEvents.count p := by
          rw [indexAdded]
          split_ifs
          · simp [List.count_replicate, hqp]
          · rfl
        have hmem : p ∈ (s.indexAdded q k).partnerEvents ↔ p ∈ s.partnerEvents := by
          rw [← List.count_pos_iff, hcount, List.count_pos_iff]
        have hseen : ((s.indexAdded q k).observe p).seen = s.seen := by
          rw [observe, hkeys]
          split_ifs with houter
          · rfl
          · exact hs.observe_seen houter
        refine hs.of_eq rfl hkeys ?_ hmem.mp hseen ?_
        · show (s.indexAdded q k).partnerEvents.count p + s.inner p = _
          rw [hcount, listeners]
        · have hkey : under (s.indexAdded q k).keyEvents p = under s.keyEvents p := by
            simp [indexAdded, under_append, under_replicate_of_ne _ _ hqp]
          show messages uid record p (s.indexAdded q k) = _
          simp only [messages, waiting, reported, hmem, hkeys, hkey]
          rfl
  | removed q =>
      by_cases hqp : q = p
      · subst hqp
        exact hs.removed (ha rfl)
      · have hkeys : (s.indexRemoved q).keys p = s.keys p := under_filter_of_ne _ hqp
        refine hs.of_eq rfl hkeys rfl id rfl ?_
        rw [messages, messages, waiting, waiting, reported, reported, hkeys]
        rfl
  | partnerAdded q hq =>
      refine hs.of_eq rfl rfl ?_ List.mem_of_mem_erase rfl ?_
      · by_cases hqp : q = p
        · subst hqp
          have hpos := List.count_pos_iff.mpr hq
          simp only [listeners, ChatLog.partnerAdded, List.count_erase_self, Function.update_self]
          omega
        · simp [listeners, ChatLog.partnerAdded, List.count_erase_of_ne (Ne.symm hqp),
            Function.update_of_ne (Ne.symm hqp)]
      · rw [messages, messages, waiting_partnerAdded hq hs.listeners_le]
        rfl
  | keyAdded q k hk =>
      refine hs.of_eq rfl rfl rfl id rfl ?_
      rw [messages, messages, waiting_keyAdded hfiled hk]
      rfl
  | value k hk =>
      refine hs.of_eq rfl rfl rfl id rfl ?_
      by_cases hp : (record k).getChatPartnerId (some uid) = p
      · refine messages_value hfiled (fun houter => ?_) hk hp
        -- without a listener nothing is on its way
        have hwaiting := (hs.empty (hs.idle houter)).2
        have hmem : k ∈ s.waiting uid record p := by simp [waiting, valuesOf, hk, hp]
        rw [hwaiting] at hmem
        cases hmem
      · exact messages_value_of_ne hfiled hp
  | changed k _ =>
      refine hs.of_eq rfl rfl rfl id rfl ?_
      have hk : (record k).getChatPartnerId (some uid) ≠ p := ha
      simp [messages, waiting, valuesOf, reported, keys, hk]

end Once

/-! ### The keys of a run -/

variable (uid record p) in
/-- The key was in the node of `p` at some point of the run at which the screen
listened. -/
def EverPresent (as : List ChatAction) (k : String) : Prop :=
  ∃ as₁ as₂ t, as = as₁ ++ as₂ ∧ Transition.run (ChatLog.step uid record p) init as₁ = some t ∧
    t.outer ≠ 0 ∧ k ∈ t.keys p

/-- A step that brings no key brings none to see. -/
lemma mem_seen_of_keys_subset (hs : s.outer ≠ 0 → s.keys p ⊆ s.seen) (hseen : s'.seen = s.seen)
    (houter : s'.outer = s.outer) (hkeys : s'.keys p ⊆ s.keys p) (k : String) :
    k ∈ s'.seen ↔ k ∈ s.seen ∨ s'.outer ≠ 0 ∧ k ∈ s'.keys p := by
  rw [hseen, houter]
  constructor
  · exact Or.inl
  · rintro (h | ⟨ho, hk⟩)
    · exact h
    · exact hs ho (hkeys hk)

lemma mem_seen_observe (k : String) :
    k ∈ (s.observe p).seen ↔ k ∈ s.seen ∨ s.outer ≠ 0 ∧ k ∈ s.keys p := by
  rw [observe]
  by_cases h : s.outer = 0
  · simp [h]
  · simp [h, or_comm]

lemma mem_seen_step {a : ChatAction} (hs : s.outer ≠ 0 → s.keys p ⊆ s.seen)
    (h : s.step uid record p a = some s') (k : String) :
    k ∈ s'.seen ↔ k ∈ s.seen ∨ s'.outer ≠ 0 ∧ k ∈ s'.keys p := by
  cases step_moves h with
  | setUser => exact mem_seen_observe k
  | added q k' _ _ => exact mem_seen_observe k
  | removed q =>
      have hseen : (s.indexRemoved q).seen = s.seen := rfl
      have hkeys : (s.indexRemoved q).keys p ⊆ s.keys p := fun k' hk' =>
        mem_under.mpr (List.mem_of_mem_filter (mem_under.mp hk'))
      exact mem_seen_of_keys_subset hs hseen rfl hkeys k
  | partnerAdded q _ => exact mem_seen_of_keys_subset hs rfl rfl (List.Subset.refl _) k
  | keyAdded q k' _ => exact mem_seen_of_keys_subset hs rfl rfl (List.Subset.refl _) k
  | value k' _ => exact mem_seen_of_keys_subset hs rfl rfl (List.Subset.refl _) k
  | changed k' _ => exact mem_seen_of_keys_subset hs rfl rfl (List.Subset.refl _) k

/-- **The keys seen are those that were present** at some point of the run. -/
lemma mem_seen_iff {as : List ChatAction}
    (h : Transition.run (ChatLog.step uid record p) init as = some s) (k : String) :
    k ∈ s.seen ↔ EverPresent uid record p as k := by
  induction as using List.reverseRecOn generalizing s k with
  | nil =>
      obtain rfl : init = s := by simpa using h
      constructor
      · intro hk
        cases hk
      · rintro ⟨as₁, as₂, t, heq, ht, houter, -⟩
        obtain ⟨rfl, -⟩ := List.append_eq_nil_iff.mp heq.symm
        obtain rfl : init = t := by simpa using ht
        exact (houter rfl).elim
  | append_singleton as a ih =>
      obtain ⟨t, ht, hstep⟩ := Transition.run_concat_eq_some.mp h
      have hsub : t.outer ≠ 0 → t.keys p ⊆ t.seen := fun ho k' hk' =>
        (ih ht k').mpr ⟨as, [], t, by simp, ht, ho, hk'⟩
      rw [mem_seen_step hsub hstep, ih ht]
      constructor
      · rintro (⟨as₁, as₂, u, rfl, hu, hk⟩ | hk)
        · exact ⟨as₁, as₂ ++ [a], u, by simp, hu, hk⟩
        · exact ⟨as ++ [a], [], s, by simp, h, hk⟩
      · rintro ⟨as₁, as₂, u, heq, hu, hk⟩
        rcases List.eq_nil_or_concat as₂ with rfl | ⟨as₂, b, rfl⟩
        · rw [List.append_nil] at heq
          rw [← heq, h] at hu
          exact Or.inr (Option.some.inj hu ▸ hk)
        · rw [List.concat_eq_append, ← List.append_assoc] at heq
          exact Or.inl ⟨as₁, as₂, u, (List.append_inj' heq rfl).1, hu, hk⟩

/-- **The chat screen lists each message once**, in every run whose steps meet
`OnceEach`: when no event is on its way, the screen lists the messages of the
keys that were ever in the partner's node while it listened, each key once, and
nothing else. -/
theorem lists_each_once {as : List ChatAction}
    (h : Transition.run (ChatLog.step uid record p) init as = some s)
    (hC : Transition.Meets (ChatLog.step uid record p) (OnceEach uid record p) init as)
    (hquiet : s.Quiet) :
    ∃ ks : List String, ks.Nodup ∧ (∀ k, k ∈ ks ↔ EverPresent uid record p as k) ∧
      s.arrayMessage.Perm (ks.map record) := by
  have hs : Filed uid record p s ∧ Once uid record p s := by
    refine hC.invariant (I := fun t => Filed uid record p t ∧ Once uid record p t)
      (fun t a u ht ha hstep => ?_) ⟨filed_init, once_init⟩ h
    exact ⟨ht.1.step hstep, ht.2.step ht.1 ha hstep⟩
  obtain ⟨hpartner, hkey, hvalue⟩ := hquiet
  refine ⟨s.seen, hs.2.nodup, mem_seen_iff h, Multiset.coe_eq_coe.mp ?_⟩
  have hwaiting : s.waiting uid record p = 0 := by
    simp [waiting, valuesOf, reported, hpartner, hkey, hvalue]
  rw [← hs.2.messages_eq, messages, hwaiting, Multiset.map_zero, add_zero]

instance (s : ChatLog) : DecidablePred (OnceEach uid record p s)
  | .setUser => inferInstanceAs (Decidable (s.outer = 0 ∨ s.keys p = []))
  | .removed q => inferInstanceAs (Decidable (q = p → p ∉ s.partnerEvents))
  | .added q _ =>
      inferInstanceAs (Decidable (q = p → s.keys p = [] → s.outer + s.inner p ≤ 1))
  | .changed k => inferInstanceAs (Decidable ((record k).getChatPartnerId (some uid) ≠ p))
  | .partnerAdded _ => inferInstanceAs (Decidable True)
  | .keyAdded _ _ => inferInstanceAs (Decidable True)
  | .value _ => inferInstanceAs (Decidable True)

/-! ### The message that is listed twice -/

/-- A message from `b` to `a`. -/
def greeting : Mess := ⟨"a", "b", 1, "hello", "", ""⟩

/-- The chat with `b` is opened on the message. -/
def openChat : List ChatAction :=
  [.added "b" "k", .setUser, .partnerAdded "b", .keyAdded "b" "k", .value "k"]

/-- The chat that has been opened lists the message once. -/
theorem openChat_lists_each_once :
    ∃ s, Transition.run (ChatLog.step "a" (fun _ => greeting) "b") init openChat = some s ∧
      ∃ ks : List String, ks.Nodup ∧
        (∀ k, k ∈ ks ↔ EverPresent "a" (fun _ => greeting) "b" openChat k) ∧
        s.arrayMessage.Perm (ks.map fun _ => greeting) := by
  have hrun : ((Transition.run (ChatLog.step "a" (fun _ => greeting) "b") init openChat).map
      fun s => decide s.Quiet) = some true := by
    decide +kernel
  have hC : Transition.Meets (ChatLog.step "a" (fun _ => greeting) "b")
      (OnceEach "a" (fun _ => greeting) "b") init openChat := by
    decide +kernel
  obtain ⟨s, hs, hquiet⟩ := Option.map_eq_some_iff.mp hrun
  exact ⟨s, hs, lists_each_once hs hC (of_decide_eq_true hquiet)⟩

/-- The record of `b` changes while the chat is open, so that the user is set
again. -/
def openChatThenSetUser : List ChatAction :=
  openChat ++ [.setUser, .partnerAdded "b", .keyAdded "b" "k", .value "k"]

/-- **The message is listed twice**: setting the user again adds a listener, and
the array is not cleared. -/
theorem openChatThenSetUser_lists_twice :
    ∃ s, Transition.run (ChatLog.step "a" (fun _ => greeting) "b") init openChatThenSetUser =
        some s ∧ s.Quiet ∧ s.arrayMessage = [greeting, greeting] ∧
      ¬ ∃ ks : List String, ks.Nodup ∧
        (∀ k, k ∈ ks ↔ EverPresent "a" (fun _ => greeting) "b" openChatThenSetUser k) ∧
        s.arrayMessage.Perm (ks.map fun _ => greeting) := by
  have hrun : ((Transition.run (ChatLog.step "a" (fun _ => greeting) "b") init
      openChatThenSetUser).map fun s =>
        decide (s.Quiet ∧ s.arrayMessage = [greeting, greeting] ∧ s.seen = ["k"])) = some true := by
    decide +kernel
  obtain ⟨s, hs, h⟩ := Option.map_eq_some_iff.mp hrun
  obtain ⟨hquiet, harray, hseen⟩ := of_decide_eq_true h
  refine ⟨s, hs, hquiet, harray, ?_⟩
  rintro ⟨ks, hnodup, hmem, hperm⟩
  have hks : ks.Perm ["k"] := by
    refine (List.perm_ext_iff_of_nodup hnodup (List.nodup_singleton "k")).mpr fun k => ?_
    rw [hmem, ← mem_seen_iff hs, hseen]
  have hlength := hperm.length_eq
  rw [List.length_map, hks.length_eq, harray] at hlength
  exact absurd hlength (by decide)

end ChatLog

end AppChat
