import AppChat.Library.Entries
import AppChat.System.AsSent

/-!
The listeners that both readers put on the index of a user.

`get_message_2` and `get_message_user_partner` listen to `user-mess/uid`, add a
listener on each child it reports, and ask for the record of each key that this
one reports. A listener for added children reports those that are there when it is
added, and then every child that comes; it reports no removal.

* `Feed`: the listeners of one reader, with the events on their way to them.
* `Feed.databaseChanged`: what they report when the database goes from one state to
  another; this is all they see of the rest of the system.
* `World.Between`: the accepted texts and images between two users. `Feed.Backed`
  says that every event stands for one of them, which every step keeps.
* `Feed.Covers`: once a reader listens, every entry of the index is on its way to it,
  or its partner has been seen; every step keeps this too.
-/

namespace AppChat

/-- The children of a node that are there after a change and were not before. -/
def newChildren (db db' : Database) (path : List String) : List String :=
  (db'.childKeys path).filter fun k => k ∉ db.childKeys path

/-- The keys below `user-mess/uid` that are there after a change and were not
before, each with the child of `user-mess/uid` it is under. -/
def newKeys (db db' : Database) (uid : String) : List (String × String) :=
  (db'.childKeys ["user-mess", uid]).flatMap fun q =>
    (newChildren db db' ["user-mess", uid, q]).map fun k => (q, k)

/-- The listeners of a reader on `user-mess/uid` (`outer`) and on its children
(`inner`), and the events of each level that are on their way. -/
structure Feed where
  outer : ℕ
  inner : String → ℕ
  partnerEvents : List String
  keyEvents : List (String × String)
  valueEvents : List String

namespace Feed

/-- Before the first listener. -/
def init : Feed := ⟨0, fun _ => 0, [], [], []⟩

/-- One more listener on `user-mess/uid`. -/
def observe (f : Feed) (db : Database) (uid : String) : Feed :=
  { f with
    outer := f.outer + 1
    partnerEvents := f.partnerEvents ++ db.childKeys ["user-mess", uid] }

/-- The outer callback: one more listener on the child `q`. -/
def partnerAdded (f : Feed) (db : Database) (uid q : String) : Feed :=
  { f with
    partnerEvents := f.partnerEvents.erase q
    inner := Function.update f.inner q (f.inner q + 1)
    keyEvents := f.keyEvents ++ (db.childKeys ["user-mess", uid, q]).map fun k => (q, k) }

/-- The middle callback: the record of the key is asked for. -/
def keyAdded (f : Feed) (q k : String) : Feed :=
  { f with
    keyEvents := f.keyEvents.erase (q, k)
    valueEvents := f.valueEvents ++ [k] }

/-- The record of a key has come. -/
def value (f : Feed) (k : String) : Feed := { f with valueEvents := f.valueEvents.erase k }

/-- The database changes. Every listener reports the new children of its node. -/
def databaseChanged (f : Feed) (db db' : Database) (uid : String) : Feed :=
  { f with
    partnerEvents := f.partnerEvents ++
      (newChildren db db' ["user-mess", uid]).flatMap fun q => List.replicate f.outer q
    keyEvents := f.keyEvents ++
      (newKeys db db' uid).flatMap fun e => List.replicate (f.inner e.1) e }

/-- The event of the key `k` of `q` is on its way. -/
def hasKey (f : Feed) (q k : String) : Bool := f.keyEvents.contains (q, k)

lemma hasKey_iff {f : Feed} {q k : String} : f.hasKey q k = true ↔ (q, k) ∈ f.keyEvents :=
  List.contains_iff_mem

/-- No event is on its way. -/
def Quiet (f : Feed) : Prop := f.partnerEvents = [] ∧ f.keyEvents = [] ∧ f.valueEvents = []

instance (f : Feed) : Decidable f.Quiet := inferInstanceAs (Decidable (_ ∧ _ ∧ _))

end Feed

/-! ### The children of the index -/

lemma nodup_childKeys (db : Database) (path : List String) : (db.childKeys path).Nodup :=
  List.nodup_dedup _

lemma mem_newChildren {db db' : Database} {path : List String} {k : String} :
    k ∈ newChildren db db' path ↔ db'.Present (path ++ [k]) ∧ ¬ db.Present (path ++ [k]) := by
  simp [newChildren, PathTree.mem_childKeys]

lemma nodup_newChildren (db db' : Database) (path : List String) :
    (newChildren db db' path).Nodup :=
  (nodup_childKeys db' path).filter _

@[simp] lemma newChildren_self (db : Database) (path : List String) :
    newChildren db db path = [] := by
  simp [newChildren]

@[simp] lemma newKeys_self (db : Database) (uid : String) : newKeys db db uid = [] := by
  simp [newKeys]

/-- A node with a node below it is there. -/
lemma present_of_present_append {db : Database} {p r : List String} (h : db.Present (p ++ r)) :
    db.Present p := by
  obtain ⟨e, he, hpre⟩ := h
  exact ⟨e, he, (List.prefix_append p r).trans hpre⟩

lemma mem_newKeys {db db' : Database} {uid q k : String} :
    (q, k) ∈ newKeys db db' uid ↔
      db'.Present ["user-mess", uid, q, k] ∧ ¬ db.Present ["user-mess", uid, q, k] := by
  simp only [newKeys, List.mem_flatMap, List.mem_map, Prod.mk.injEq, mem_newChildren,
    PathTree.mem_childKeys]
  constructor
  · rintro ⟨q, -, k, hk, rfl, rfl⟩
    exact hk
  · intro hk
    exact ⟨q, present_of_present_append (r := [k]) hk.1, k, hk, rfl, rfl⟩

lemma nodup_newKeys (db db' : Database) (uid : String) : (newKeys db db' uid).Nodup := by
  refine List.nodup_flatMap.mpr ⟨fun q _ => ?_, ?_⟩
  · exact (nodup_newChildren db db' _).map fun k k' h => (Prod.mk.inj h).2
  · refine (nodup_childKeys db' _).imp fun {q q'} hne => ?_
    intro e he he'
    obtain ⟨k, -, rfl⟩ := List.mem_map.mp he
    obtain ⟨k', -, hk'⟩ := List.mem_map.mp he'
    exact hne (Prod.mk.inj hk').1.symm

/-- A list without repetitions whose one element is `a`. -/
lemma eq_singleton_of_nodup {α : Type*} {l : List α} {a : α} (hl : l.Nodup)
    (h : ∀ b, b ∈ l ↔ b = a) : l = [a] := by
  have hperm : l.Perm [a] :=
    (List.perm_ext_iff_of_nodup hl (List.nodup_singleton a)).mpr fun b => by
      rw [h, List.mem_singleton]
  exact List.perm_singleton.mp hperm

namespace World

variable {w w' : World}

/-! ### The entries of a consistent state -/

/-- An accepted text or image with the key `k` between the users `u` and `p`. -/
def Between (w : World) (u p k : String) : Prop :=
  ∃ i b, w.Accepted i b ∧ b.payload.isVideo = false ∧ b.key = k ∧
    ((b.fromID = some u ∧ b.toID = some p) ∨ (b.fromID = some p ∧ b.toID = some u))

/-- What has been accepted stays accepted. -/
lemma accepted_step {a : Action} (h : w.step a = some w') {i : SendId} {b : RecordBlock}
    (hb : w.Accepted i b) : w'.Accepted i b :=
  (step_effect h).accepted_mono hb

lemma Between.step {a : Action} (h : w.step a = some w') {u p k : String}
    (hk : w.Between u p k) : w'.Between u p k := by
  obtain ⟨i, b, hb, hrest⟩ := hk
  exact ⟨i, b, accepted_step h hb, hrest⟩

namespace Consistent

/-- A key is that of one conversation. -/
lemma between_unique (hw : Consistent w) {u p p' k : String} (h : w.Between u p k)
    (h' : w.Between u p' k) : p = p' := by
  obtain ⟨i, b, hb, -, rfl, hpair⟩ := h
  obtain ⟨j, c, hc, -, hkey, hpair'⟩ := h'
  obtain rfl := hw.blocks.key_inj i j b c hb.block hc.block hkey.symm
  obtain rfl : b = c := Option.some.inj (hb.block.symm.trans hc.block)
  rcases hpair with ⟨hf, ht⟩ | ⟨hf, ht⟩ <;> rcases hpair' with ⟨hf', ht'⟩ | ⟨hf', ht'⟩
  · exact Option.some.inj (ht.symm.trans ht')
  · rw [Option.some.inj (hf'.symm.trans hf), Option.some.inj (ht.symm.trans ht')]
  · rw [Option.some.inj (hf.symm.trans hf'), Option.some.inj (ht'.symm.trans ht)]
  · exact Option.some.inj (hf.symm.trans hf')

/-- An entry of a conversation stands for an accepted message of it. -/
lemma between_of_present (hw : Consistent w) {u p k : String}
    (h : w.db.Present ["user-mess", u, p, k]) : w.Between u p k := by
  obtain ⟨i, b, f, t, side, hent, hv, hkey, htable⟩ := hw.present_cases h
  have hf := (hw.entered_captured hent).1
  have ht := hw.entered_toID hent hv
  refine ⟨i, b, hent.accepted, hv, hkey, ?_⟩
  cases side <;> simp [textTable] at htable
  · exact Or.inl ⟨htable.1 ▸ hf, htable.2 ▸ ht⟩
  · exact Or.inr ⟨htable.2 ▸ hf, htable.1 ▸ ht⟩

/-- The partner of a message is a user, not a key. -/
lemma between_mem_uids (hw : Consistent w) {u p k : String} (h : w.Between u p k) :
    p ∈ w.uids := by
  obtain ⟨i, b, hb, -, -, ⟨-, ht⟩ | ⟨hf, -⟩⟩ := h
  · exact hw.blocks.toID_mem i b p hb.block ht
  · exact hw.blocks.fromID_mem i b p hb.block hf

/-- A user is not a key. -/
lemma not_mem_keys (hw : Consistent w) {u : String} (h : u ∈ w.uids) : u ∉ w.keys :=
  fun hk => hw.ids.key u hk h

/-- A child of the index that is not the key of a video is the node of a partner,
with an entry below it. -/
lemma present_partner_iff (hw : Consistent w) {u q : String} (hq : q ∉ w.keys) :
    w.db.Present ["user-mess", u, q] ↔ ∃ k, w.db.Present ["user-mess", u, q, k] := by
  constructor
  · rintro ⟨⟨r, v⟩, hr, s, rfl⟩
    obtain ⟨i, b, f, t, side, hent, hpath, -⟩ := hw.index.entry _ v hr
    cases hv : b.payload.isVideo with
    | true =>
        rw [b.table_of_isVideo hv] at hpath
        have hkey : q = b.key := by
          cases side <;> simp [videoTable] at hpath <;> exact hpath.2.1
        exact absurd (hkey ▸ hw.blocks.key_mem i b hent.accepted.block) hq
    | false =>
        rw [b.table_of_not_isVideo hv] at hpath
        obtain rfl : s = [b.key] := by
          cases side <;> simp [textTable] at hpath <;> exact hpath.2.2
        exact ⟨b.key, _, hr, List.prefix_rfl⟩
  · rintro ⟨k, hk⟩
    exact present_of_present_append (r := [k]) hk

/-- Nothing is below the entry of a video. -/
lemma childKeys_of_mem_keys (hw : Consistent w) {u q : String} (hq : q ∈ w.keys) :
    w.db.childKeys ["user-mess", u, q] = [] := by
  refine List.eq_nil_iff_forall_not_mem.mpr fun k hk => ?_
  have hpres : w.db.Present ["user-mess", u, q, k] := PathTree.mem_childKeys.mp hk
  exact hw.not_mem_keys (hw.between_mem_uids (hw.between_of_present hpres)) hq

end Consistent

/-- The keys given stay given. -/
lemma step_keys {a : Action} (h : w.step a = some w') : w.keys ⊆ w'.keys := by
  rcases (step_effect h).block with ⟨-, hkeys⟩ | ⟨i, b, d, c, ch, -, -, -, -, hkeys, -⟩
  · rw [hkeys]
    exact List.Subset.refl _
  · rw [hkeys]
    exact List.subset_cons_self _ _

end World

/-! ### Every event stands for a message -/

namespace Feed

/-- The keys that are reported or asked for are those of accepted messages. -/
structure Backed (f : Feed) (w : World) (uid : String) : Prop where
  key : ∀ q k, (q, k) ∈ f.keyEvents → w.Between uid q k
  value : ∀ k ∈ f.valueEvents, ∃ q, w.Between uid q k

namespace Backed

variable {f : Feed} {w w' : World} {uid : String}

lemma init (w : World) (uid : String) : Feed.init.Backed w uid :=
  ⟨fun _ _ h => absurd h List.not_mem_nil, fun _ h => absurd h List.not_mem_nil⟩

lemma observe (h : f.Backed w uid) (db : Database) : (f.observe db uid).Backed w uid :=
  ⟨h.key, h.value⟩

/-- The entries that a new listener reports stand for messages. -/
lemma partnerAdded (h : f.Backed w uid) {db : Database}
    (hdb : ∀ q k, db.Present ["user-mess", uid, q, k] → w.Between uid q k) (q : String) :
    (f.partnerAdded db uid q).Backed w uid := by
  refine ⟨fun q' k hk => ?_, h.value⟩
  rcases List.mem_append.mp hk with hk | hk
  · exact h.key q' k hk
  · obtain ⟨k', hk', heq⟩ := List.mem_map.mp hk
    obtain ⟨rfl, rfl⟩ := Prod.mk.inj heq
    exact hdb q k' (PathTree.mem_childKeys.mp hk')

lemma keyAdded (h : f.Backed w uid) {q k : String} (hk : (q, k) ∈ f.keyEvents) :
    (f.keyAdded q k).Backed w uid := by
  refine ⟨fun q' k' hk' => h.key q' k' (List.mem_of_mem_erase hk'), fun k' hk' => ?_⟩
  rcases List.mem_append.mp hk' with hk' | hk'
  · exact h.value k' hk'
  · rw [List.mem_singleton.mp hk']
    exact ⟨q, h.key q k hk⟩

lemma erase (h : f.Backed w uid) (k : String) : (f.value k).Backed w uid :=
  ⟨h.key, fun k' hk' => h.value k' (List.mem_of_mem_erase hk')⟩

/-- **A step of the system** adds events of accepted messages only. -/
lemma databaseChanged (h : f.Backed w uid) {a : Action} (hstep : w.step a = some w')
    (db : Database) {db' : Database}
    (hdb' : ∀ q k, db'.Present ["user-mess", uid, q, k] → w'.Between uid q k) :
    (f.databaseChanged db db' uid).Backed w' uid := by
  refine ⟨fun q k hk => ?_, fun k hk => ?_⟩
  · rcases List.mem_append.mp hk with hk | hk
    · exact (h.key q k hk).step hstep
    · obtain ⟨e, he, hrep⟩ := List.mem_flatMap.mp hk
      obtain rfl := List.eq_of_mem_replicate hrep
      exact hdb' q k (mem_newKeys.mp he).1
  · obtain ⟨q, hq⟩ := h.value k hk
    exact ⟨q, hq.step hstep⟩

end Backed

/-! ### Every message is on its way or has been seen -/

/-- The entries of `uid` are on their way, but for those that have been `seen` already;
and the node of every partner is listened to, or will be. -/
structure Covers (f : Feed) (db : Database) (uid : String) (seen : String → String → Prop) :
    Prop where
  heard : ∀ q k, db.Present ["user-mess", uid, q, k] → q ∈ f.partnerEvents ∨ 0 < f.inner q
  entry : ∀ q k, db.Present ["user-mess", uid, q, k] →
    q ∈ f.partnerEvents ∨ (q, k) ∈ f.keyEvents ∨ k ∈ f.valueEvents ∨ seen q k

namespace Covers

variable {f : Feed} {db db' : Database} {uid : String} {seen seen' : String → String → Prop}

/-- A new listener on the index is told of everything. -/
lemma observe (f : Feed) (db : Database) (uid : String) (seen : String → String → Prop) :
    (f.observe db uid).Covers db uid seen := by
  have hmem : ∀ q k, db.Present ["user-mess", uid, q, k] →
      q ∈ f.partnerEvents ++ db.childKeys ["user-mess", uid] := fun q k hk =>
    List.mem_append_right _ (PathTree.mem_childKeys.mpr (present_of_present_append (r := [k]) hk))
  exact ⟨fun q k hk => Or.inl (hmem q k hk), fun q k hk => Or.inl (hmem q k hk)⟩

lemma partnerAdded (h : f.Covers db uid seen) (q : String) :
    (f.partnerAdded db uid q).Covers db uid seen := by
  refine ⟨fun q' k hk => ?_, fun q' k hk => ?_⟩
  · by_cases hqq : q' = q
    · subst hqq
      refine Or.inr ?_
      show 0 < Function.update f.inner q' (f.inner q' + 1) q'
      rw [Function.update_self]
      exact Nat.succ_pos _
    · show q' ∈ f.partnerEvents.erase q ∨ 0 < Function.update f.inner q (f.inner q + 1) q'
      rw [Function.update_of_ne hqq, List.mem_erase_of_ne hqq]
      exact h.heard q' k hk
  · by_cases hqq : q' = q
    · subst hqq
      refine Or.inr (Or.inl (List.mem_append_right _ ?_))
      exact List.mem_map_of_mem (PathTree.mem_childKeys.mpr hk)
    · rcases h.entry q' k hk with hp | hkey | hrest
      · exact Or.inl ((List.mem_erase_of_ne hqq).mpr hp)
      · exact Or.inr (Or.inl (List.mem_append_left _ hkey))
      · exact Or.inr (Or.inr hrest)

lemma keyAdded (h : f.Covers db uid seen) (q k : String) :
    (f.keyAdded q k).Covers db uid seen := by
  refine ⟨h.heard, fun q' k' hk => ?_⟩
  rcases h.entry q' k' hk with hp | hkey | hvalue | hseen
  · exact Or.inl hp
  · by_cases he : (q', k') = (q, k)
    · obtain ⟨-, rfl⟩ := Prod.mk.inj he
      exact Or.inr (Or.inr (Or.inl (List.mem_append_right _ (List.mem_singleton_self _))))
    · exact Or.inr (Or.inl ((List.mem_erase_of_ne he).mpr hkey))
  · exact Or.inr (Or.inr (Or.inl (List.mem_append_left _ hvalue)))
  · exact Or.inr (Or.inr (Or.inr hseen))

lemma mono (h : f.Covers db uid seen) (hseen : ∀ q k, seen q k → seen' q k) :
    f.Covers db uid seen' := by
  refine ⟨h.heard, fun q k hk => ?_⟩
  rcases h.entry q k hk with hq | hkey | hvalue | hs
  · exact Or.inl hq
  · exact Or.inr (Or.inl hkey)
  · exact Or.inr (Or.inr (Or.inl hvalue))
  · exact Or.inr (Or.inr (Or.inr (hseen q k hs)))

/-- The record of a key comes, and its entry has been seen. -/
lemma value (h : f.Covers db uid seen) {k : String}
    (hk : ∀ q, db.Present ["user-mess", uid, q, k] → seen' q k)
    (hseen : ∀ q k, seen q k → seen' q k) : (f.value k).Covers db uid seen' := by
  refine ⟨h.heard, fun q k' hk' => ?_⟩
  rcases h.entry q k' hk' with hq | hkey | hvalue | hs
  · exact Or.inl hq
  · exact Or.inr (Or.inl hkey)
  · by_cases hkk : k' = k
    · subst hkk
      exact Or.inr (Or.inr (Or.inr (hk q hk')))
    · exact Or.inr (Or.inr (Or.inl ((List.mem_erase_of_ne hkk).mpr hvalue)))
  · exact Or.inr (Or.inr (Or.inr (hseen q k' hs)))

/-- **A change of the database** is reported, once there is a listener on the index. The
node of a partner who gets an entry must not have been there without one. -/
lemma databaseChanged (h : f.Covers db uid seen) (houter : 0 < f.outer)
    (hnode : ∀ q k, db'.Present ["user-mess", uid, q, k] → db.Present ["user-mess", uid, q] →
      ∃ k, db.Present ["user-mess", uid, q, k]) :
    (f.databaseChanged db db' uid).Covers db' uid seen := by
  -- the partner of a new entry is new as well, and reported, or has been heard of
  have hheard : ∀ q k, db'.Present ["user-mess", uid, q, k] →
      q ∈ (f.databaseChanged db db' uid).partnerEvents ∨ 0 < f.inner q := by
    intro q k hk
    by_cases hold : db.Present ["user-mess", uid, q]
    · obtain ⟨k₀, hk₀⟩ := hnode q k hk hold
      exact (h.heard q k₀ hk₀).imp_left (List.mem_append_left _)
    · refine Or.inl (List.mem_append_right _ (List.mem_flatMap.mpr ⟨q, ?_, ?_⟩))
      · exact mem_newChildren.mpr ⟨present_of_present_append (r := [k]) hk, hold⟩
      · exact List.mem_replicate.mpr ⟨houter.ne', rfl⟩
  refine ⟨hheard, fun q k hk => ?_⟩
  by_cases hold : db.Present ["user-mess", uid, q, k]
  · rcases h.entry q k hold with hp | hkey | hrest
    · exact Or.inl (List.mem_append_left _ hp)
    · exact Or.inr (Or.inl (List.mem_append_left _ hkey))
    · exact Or.inr (Or.inr hrest)
  · refine (hheard q k hk).imp_right fun hinner => Or.inl ?_
    refine List.mem_append_right _ (List.mem_flatMap.mpr ⟨(q, k), mem_newKeys.mpr ⟨hk, hold⟩, ?_⟩)
    exact List.mem_replicate.mpr ⟨hinner.ne', rfl⟩

end Covers

end Feed

end AppChat
