import AppChat.System.Ids

/-!
What has been accepted, and what a step adds to it.

* `block`: the record block of a send, and `BlocksOk`: keys belong to one send
  each, the ids of a block are those of accounts, and every index write that is sent
  goes by them.
* `Accepted`, `Entered`: the record, or one index entry, of a send has been
  accepted.
* `Commit`: the five things a step can do to the database, each with what it
  adds to `Accepted` and `Entered`; `Effect.commit` says that there are no others.
-/

namespace AppChat

namespace World

/-- The record block of a send, once its record is issued. -/
def block (w : World) (i : SendId) : Option RecordBlock := (w.progress i).bind Stage.block

lemma block_of_progress {w : World} {i : SendId} {st : Stage} (h : w.progress i = some st) :
    w.block i = st.block := by
  rw [block, h, Option.bind_some]

/-- The record of a send has been accepted. -/
def Accepted (w : World) (i : SendId) (b : RecordBlock) : Prop :=
  w.progress i = some (.record b .applied) ∨ ∃ f t st, w.progress i = some (.index b f t st)

/-- The index entry of one side of a send has been accepted. -/
def Entered (w : World) (i : SendId) (b : RecordBlock) (f t : String) (side : Side) : Prop :=
  ∃ st, w.progress i = some (.index b f t st) ∧ st side = .applied

instance (w : World) (i : SendId) (b : RecordBlock) (f t : String) (side : Side) :
    Decidable (w.Entered i b f t side) :=
  decidable_of_iff ((match w.progress i with
      | some (.index c u p st) => decide (c = b ∧ u = f ∧ p = t ∧ st side = .applied)
      | _ => false) = true) <| by
    rw [Entered]
    split
    · rename_i c u p st h
      simp only [h, decide_eq_true_eq, Option.some.injEq, Stage.index.injEq]
      constructor
      · rintro ⟨rfl, rfl, rfl, hst⟩
        exact ⟨st, ⟨rfl, rfl, rfl, rfl⟩, hst⟩
      · rintro ⟨_, ⟨rfl, rfl, rfl, rfl⟩, hst⟩
        exact ⟨rfl, rfl, rfl, hst⟩
    · rename_i h
      simp only [Bool.false_eq_true, false_iff]
      rintro ⟨st, hst, -⟩
      exact h _ _ _ _ hst

lemma Accepted.block {w : World} {i : SendId} {b : RecordBlock} (h : w.Accepted i b) :
    w.block i = some b := by
  rcases h with h | ⟨f, t, st, h⟩ <;> rw [block_of_progress h] <;> rfl

lemma Entered.accepted {w : World} {i : SendId} {b : RecordBlock} {f t : String} {side : Side}
    (h : w.Entered i b f t side) : w.Accepted i b := by
  obtain ⟨st, h, -⟩ := h
  exact Or.inr ⟨f, t, st, h⟩

/-- The blocks of a reachable state: each has its own key, its ids are ids of
accounts, and the index writes that are sent use exactly these ids. -/
structure BlocksOk (w : World) : Prop where
  key_mem : ∀ i b, w.block i = some b → b.key ∈ w.keys
  key_inj : ∀ i j b b', w.block i = some b → w.block j = some b' → b.key = b'.key → i = j
  fromID_mem : ∀ i b f, w.block i = some b → b.fromID = some f → f ∈ w.uids
  toID_mem : ∀ i b t, w.block i = some b → b.toID = some t → t ∈ w.uids
  captured : ∀ i b f t st, w.progress i = some (.index b f t st) →
    b.fromID = some f ∧ ∀ side, st side ≠ .failed → b.Addressed t side

lemma blocksOk_init : BlocksOk init := by
  have h : ∀ i, init.progress i = none := fun i => rfl
  constructor <;> simp [block, h]

/-! ### What a step does to the blocks -/

/-- A step issues one block under a new key, or leaves all blocks as they are. -/
lemma Effect.block {w w' : World} {ev : Option IndexEvent} (h : Effect w w' ev) :
    (w'.block = w.block ∧ w'.keys = w.keys) ∨
      ∃ i b d c ch, b.fromID = w.currentUid d ∧ w.chats c = some ch ∧
        b.toID = ch.user.map User.id ∧ b.key ∉ w.keys ∧ w'.keys = b.key :: w.keys ∧
        w'.block = Function.update w.block i (some b) := by
  -- a step that replaces a stage by one with the same block
  have same : ∀ {i : SendId} {st st' : Stage}, w.progress i = some st →
      w'.progress = Function.update w.progress i (some st') → st'.block = st.block →
        w'.block = w.block := by
    intro i st st' hi hprog hb
    funext j
    rw [World.block, World.block, hprog]
    by_cases hj : j = i
    · subst hj
      simp [hi, hb]
    · simp [hj]
  have quiet : w'.progress = w.progress → w'.block = w.block := fun h => by
    funext j
    rw [World.block, World.block, h]
  cases h with
  | quiet _ hkeys hprog => exact Or.inl ⟨quiet hprog, hkeys⟩
  | issue i b d c ch hfrom hch hto hfresh _ _ hkeys hprog =>
      refine Or.inr ⟨i, b, d, c, ch, hfrom, hch, hto, hfresh.1, hkeys, ?_⟩
      funext j
      rw [World.block, hprog]
      by_cases hj : j = i
      · subst hj
        simp [Stage.block]
      · simp [hj, World.block]
  | recordApplied i b hi _ hkeys hprog => exact Or.inl ⟨same hi hprog rfl, hkeys⟩
  | recordFailed i b hi _ hkeys hprog => exact Or.inl ⟨same hi hprog rfl, hkeys⟩
  | recordDone i b f t st hi _ _ _ _ hkeys hprog => exact Or.inl ⟨same hi hprog rfl, hkeys⟩
  | indexApplied i b f t st side hi _ _ hkeys hprog =>
      exact Or.inl ⟨same hi hprog rfl, hkeys⟩
  | indexFailed i b f t st side hi _ _ hkeys hprog =>
      exact Or.inl ⟨same hi hprog rfl, hkeys⟩
  | dropped u p _ hkeys hprog => exact Or.inl ⟨quiet hprog, hkeys⟩
  | userApplied s g uid user _ _ _ hkeys hprog => exact Or.inl ⟨quiet hprog, hkeys⟩

/-- How one send goes on in a step. -/
inductive Advance : Option Stage → Option Stage → Prop where
  | same (st : Option Stage) : Advance st st
  | issue (b : RecordBlock) : Advance none (some (.record b .pending))
  | recordApplied (b : RecordBlock) :
      Advance (some (.record b .pending)) (some (.record b .applied))
  | recordFailed (b : RecordBlock) :
      Advance (some (.record b .pending)) (some (.record b .failed))
  | recordDone (b : RecordBlock) (f t : String) (st : Side → WriteState) (hf : b.fromID = some f)
      (ht : ∀ side, st side ≠ .failed → b.Addressed t side) :
      Advance (some (.record b .applied)) (some (.index b f t st))
  | indexApplied (b : RecordBlock) (f t : String) (st : Side → WriteState) (side : Side)
      (hst : st side = .pending) :
      Advance (some (.index b f t st)) (some (.index b f t (Function.update st side .applied)))
  | indexFailed (b : RecordBlock) (f t : String) (st : Side → WriteState) (side : Side)
      (hst : st side = .pending) :
      Advance (some (.index b f t st)) (some (.index b f t (Function.update st side .failed)))

/-- Every send stays where it is or goes on by one of the steps of `Advance`. -/
lemma Effect.advance {w w' : World} {ev : Option IndexEvent} (h : Effect w w' ev) (i : SendId) :
    Advance (w.progress i) (w'.progress i) := by
  -- a step of the send `j` leaves the others where they are
  have step : ∀ {j : SendId} {st' : Option Stage},
      w'.progress = Function.update w.progress j st' → Advance (w.progress j) st' →
        Advance (w.progress i) (w'.progress i) := by
    intro j st' hprog hj
    rw [hprog]
    by_cases hij : i = j
    · subst hij
      rw [Function.update_self]
      exact hj
    · rw [Function.update_of_ne hij]
      exact .same _
  cases h with
  | quiet _ _ hprog => exact hprog ▸ .same _
  | dropped _ _ _ _ hprog => exact hprog ▸ .same _
  | userApplied _ _ _ _ _ _ _ _ hprog => exact hprog ▸ .same _
  | issue j b _ _ _ _ _ _ _ hj _ _ hprog => exact step hprog (hj ▸ .issue b)
  | recordApplied j b hj _ _ hprog => exact step hprog (hj ▸ .recordApplied b)
  | recordFailed j b hj _ _ hprog => exact step hprog (hj ▸ .recordFailed b)
  | recordDone j b f t st hj hf ht _ _ _ hprog =>
      exact step hprog (hj ▸ .recordDone b f t st hf ht)
  | indexApplied j b f t st side hj hst _ _ hprog =>
      exact step hprog (hj ▸ .indexApplied b f t st side hst)
  | indexFailed j b f t st side hj hst _ _ hprog =>
      exact step hprog (hj ▸ .indexFailed b f t st side hst)

/-- The index writes that are out keep the ids of their block. -/
lemma Effect.captured {w w' : World} {ev : Option IndexEvent} (h : Effect w w' ev)
    (hw : ∀ i b f t st, w.progress i = some (.index b f t st) →
      b.fromID = some f ∧ ∀ side, st side ≠ .failed → b.Addressed t side)
    {i : SendId} {b : RecordBlock} {f t : String} {st : Side → WriteState}
    (hi : w'.progress i = some (.index b f t st)) :
    b.fromID = some f ∧ ∀ side, st side ≠ .failed → b.Addressed t side := by
  have hadv := h.advance i
  generalize hp : w.progress i = p at hadv
  -- a write that has failed stays so, the one that is answered having been on its way
  have keep : ∀ {st' : Side → WriteState} {side : Side} {x : WriteState},
      p = some (.index b f t st') → st' side = .pending → b.fromID = some f ∧
        ∀ side', Function.update st' side x side' ≠ .failed → b.Addressed t side' := by
    intro st' side x hp' hst
    obtain ⟨hf, ht⟩ := hw i b f t st' (hp.trans hp')
    refine ⟨hf, fun side' hside' => ht side' fun hfailed => ?_⟩
    have hne : side' ≠ side := by
      rintro rfl
      rw [hst] at hfailed
      cases hfailed
    exact hside' (by rw [Function.update_of_ne hne, hfailed])
  rw [hi] at hadv
  cases hadv with
  | same => exact hw i b f t st hp
  | recordDone _ _ _ _ hf ht => exact ⟨hf, ht⟩
  | indexApplied _ _ _ st' side hst => exact keep rfl hst
  | indexFailed _ _ _ st' side hst => exact keep rfl hst

/-- **Every step keeps the blocks in order.** -/
lemma BlocksOk.step {w w' : World} (hb : BlocksOk w) (hids : IdsOk w)
    (huids : ∀ uid ∈ w.uids, uid ∈ w'.uids) {ev : Option IndexEvent} (h : Effect w w' ev) :
    BlocksOk w' := by
  have hcap : ∀ i b f t st, w'.progress i = some (.index b f t st) →
      b.fromID = some f ∧ ∀ side, st side ≠ .failed → b.Addressed t side :=
    fun _ _ _ _ _ => h.captured hb.captured
  rcases h.block with ⟨hblock, hkeys⟩ | ⟨i₀, b₀, d, c, ch, hfrom, hch, hto, hfresh, hkeys, hblock⟩
  · refine ⟨fun i b hi => ?_, fun i j b b' hi hj => ?_, fun i b f hi hf => ?_,
      fun i b t hi ht => ?_, hcap⟩
    · exact hkeys ▸ hb.key_mem i b (hblock ▸ hi)
    · exact hb.key_inj i j b b' (hblock ▸ hi) (hblock ▸ hj)
    · exact huids _ (hb.fromID_mem i b f (hblock ▸ hi) hf)
    · exact huids _ (hb.toID_mem i b t (hblock ▸ hi) ht)
  · -- the block of a send is the new one, or the one it had
    have cases : ∀ i b, w'.block i = some b →
        (i = i₀ ∧ b = b₀) ∨ (i ≠ i₀ ∧ w.block i = some b) :=
      fun i b hi => Transition.update_eq_some (hblock ▸ hi)
    refine ⟨fun i b hi => ?_, fun i j b b' hi hj hk => ?_, fun i b f hi hf => ?_,
      fun i b t hi ht => ?_, hcap⟩
    · rw [hkeys]
      rcases cases i b hi with ⟨-, rfl⟩ | ⟨-, hi⟩
      · exact List.mem_cons_self
      · exact List.mem_cons_of_mem _ (hb.key_mem i b hi)
    · rcases cases i b hi with ⟨rfl, rfl⟩ | ⟨-, hi⟩ <;>
        rcases cases j b' hj with ⟨rfl, rfl⟩ | ⟨-, hj⟩
      · rfl
      · exact absurd (hk ▸ hb.key_mem j b' hj) hfresh
      · exact absurd (hk ▸ hb.key_mem i b hi) hfresh
      · exact hb.key_inj i j b b' hi hj hk
    · refine huids _ ?_
      rcases cases i b hi with ⟨-, rfl⟩ | ⟨-, hi⟩
      · exact hids.current d f (hfrom ▸ hf)
      · exact hb.fromID_mem i b f hi hf
    · refine huids _ ?_
      rcases cases i b hi with ⟨-, rfl⟩ | ⟨-, hi⟩
      · obtain ⟨u, hu, rfl⟩ := Option.map_eq_some_iff.mp (hto ▸ ht)
        exact hids.mem_uids (hids.partner c ch u hch hu).2
      · exact hb.toID_mem i b t hi ht

/-! ### What a step commits -/

/-- An accepted record stays accepted. -/
lemma Effect.accepted_mono {w w' : World} {ev : Option IndexEvent} (h : Effect w w' ev)
    {i : SendId} {b : RecordBlock} (hi : w.Accepted i b) : w'.Accepted i b := by
  have hadv := h.advance i
  generalize hp : w'.progress i = p at hadv
  rcases hi with hi | ⟨f, t, st, hi⟩ <;> rw [hi] at hadv
  · cases hadv with
    | same => exact Or.inl hp
    | recordDone _ f t st _ _ => exact Or.inr ⟨f, t, st, hp⟩
  · cases hadv with
    | same => exact Or.inr ⟨f, t, st, hp⟩
    | indexApplied _ _ _ _ side _ => exact Or.inr ⟨f, t, _, hp⟩
    | indexFailed _ _ _ _ side _ => exact Or.inr ⟨f, t, _, hp⟩

/-- An accepted index entry stays accepted. -/
lemma Effect.entered_mono {w w' : World} {ev : Option IndexEvent} (h : Effect w w' ev)
    {i : SendId} {b : RecordBlock} {f t : String} {side : Side} (hi : w.Entered i b f t side) :
    w'.Entered i b f t side := by
  have hadv := h.advance i
  generalize hp : w'.progress i = p at hadv
  obtain ⟨st, hi, hst⟩ := hi
  -- the write that changes its state was still pending, so it is the other one
  have keep : ∀ (side' : Side) (x : WriteState), st side' = .pending →
      Function.update st side' x side = .applied := by
    intro side' x hs
    have hne : side ≠ side' := fun h => by simp [← h, hst] at hs
    rw [Function.update_of_ne hne, hst]
  rw [hi] at hadv
  cases hadv with
  | same => exact ⟨st, hp, hst⟩
  | indexApplied _ _ _ _ side' hs => exact ⟨_, hp, keep side' _ hs⟩
  | indexFailed _ _ _ _ side' hs => exact ⟨_, hp, keep side' _ hs⟩

/-- **What a step commits to the database**, with what it adds to the accepted
records and entries. -/
inductive Commit (w w' : World) : Option IndexEvent → Prop where
  | none (hdb : w'.db = w.db) (hacc : ∀ j c, w'.Accepted j c → w.Accepted j c)
      (hent : ∀ j c f t side, w'.Entered j c f t side → w.Entered j c f t side) :
      Commit w w' none
  | record (i : SendId) (b : RecordBlock) (hb : w.block i = some b) (hnew : ¬ w.Accepted i b)
      (hdb : w'.db = w.db.updateChildValues ["mess", b.key] b.data) (hi : w'.Accepted i b)
      (hacc : ∀ j c, w'.Accepted j c → (j = i ∧ c = b) ∨ w.Accepted j c)
      (hent : ∀ j c f t side, w'.Entered j c f t side → w.Entered j c f t side) :
      Commit w w' none
  | entry (i : SendId) (b : RecordBlock) (f t : String) (side : Side) (hb : w.Accepted i b)
      (hf : b.fromID = some f) (ht : b.Addressed t side)
      (hdb : w'.db = indexWrite w.db b f t side) (hi : w'.Entered i b f t side)
      (hacc : ∀ j c, w'.Accepted j c → w.Accepted j c)
      (hent : ∀ j c u p s, w'.Entered j c u p s →
        (j = i ∧ c = b ∧ u = f ∧ p = t ∧ s = side) ∨ w.Entered j c u p s) :
      Commit w w' (if b.payload.isVideo then Option.none else some (.posted b.key f t side))
  | dropped (u p : String) (hdb : w'.db = w.db.remove ["user-mess", u, p])
      (hacc : ∀ j c, w'.Accepted j c → w.Accepted j c)
      (hent : ∀ j c f t side, w'.Entered j c f t side → w.Entered j c f t side) :
      Commit w w' (some (.dropped u p))
  | user (uid : String) (user : List (String × Option Value))
      (hdb : w'.db = w.db.setValue ["user", uid] user)
      (hacc : ∀ j c, w'.Accepted j c → w.Accepted j c)
      (hent : ∀ j c f t side, w'.Entered j c f t side → w.Entered j c f t side) :
      Commit w w' none

/-- Whatever a send had not accepted, it has been accepted in this step. -/
lemma accepted_of_update {w w' : World} {i : SendId} {st : Option Stage}
    (hprog : w'.progress = Function.update w.progress i st) {j : SendId} {c : RecordBlock}
    (hj : w'.Accepted j c) :
    (j = i ∧ (st = some (.record c .applied) ∨ ∃ f t st', st = some (.index c f t st'))) ∨
      w.Accepted j c := by
  rw [Accepted, hprog] at hj
  by_cases hji : j = i
  · subst hji
    exact Or.inl ⟨rfl, by simpa using hj⟩
  · rw [Function.update_of_ne hji] at hj
    exact Or.inr hj

lemma entered_of_update {w w' : World} {i : SendId} {st : Option Stage}
    (hprog : w'.progress = Function.update w.progress i st) {j : SendId} {c : RecordBlock}
    {f t : String} {side : Side} (hj : w'.Entered j c f t side) :
    (j = i ∧ ∃ st', st = some (.index c f t st') ∧ st' side = .applied) ∨
      w.Entered j c f t side := by
  rw [Entered, hprog] at hj
  by_cases hji : j = i
  · subst hji
    exact Or.inl ⟨rfl, by simpa using hj⟩
  · rw [Function.update_of_ne hji] at hj
    exact Or.inr hj

/-- **Every step commits one of the five things, or nothing.** -/
theorem Effect.commit {w w' : World} {ev : Option IndexEvent} (h : Effect w w' ev)
    (hcap : ∀ i b f t st, w.progress i = some (.index b f t st) →
      b.fromID = some f ∧ ∀ side, st side ≠ .failed → b.Addressed t side) : Commit w w' ev := by
  cases h with
  | quiet hdb _ hprog =>
      refine .none hdb (fun j c hj => ?_) fun j c f t side hj => ?_
      · rwa [Accepted, hprog] at hj
      · rwa [Entered, hprog] at hj
  | issue i b _ _ _ _ _ _ _ _ hdb _ hprog =>
      refine .none hdb (fun j c hj => ?_) fun j c f t side hj => ?_
      · simpa using accepted_of_update hprog hj
      · simpa using entered_of_update hprog hj
  | recordApplied i b hi hdb _ hprog =>
      refine .record i b (block_of_progress hi) ?_ hdb ?_ (fun j c hj => ?_)
        fun j c f t side hj => ?_
      · rintro (h | ⟨f, t, st, h⟩) <;> simp [hi] at h
      · exact Or.inl (by simp [hprog])
      · simpa [eq_comm] using accepted_of_update hprog hj
      · simpa using entered_of_update hprog hj
  | recordFailed i b _ hdb _ hprog =>
      refine .none hdb (fun j c hj => ?_) fun j c f t side hj => ?_
      · simpa using accepted_of_update hprog hj
      · simpa using entered_of_update hprog hj
  | recordDone i b f t st hi _ _ hnew hdb _ hprog =>
      refine .none hdb (fun j c hj => ?_) fun j c f' t' side hj => ?_
      · rcases accepted_of_update hprog hj with ⟨rfl, hc⟩ | hj
        · obtain rfl : b = c := by simpa using hc
          exact Or.inl hi
        · exact hj
      · rcases entered_of_update hprog hj with ⟨-, st', hst, hside⟩ | hj
        · obtain ⟨-, -, -, rfl⟩ : _ ∧ _ ∧ _ ∧ st = st' := by simpa using hst
          exact absurd hside (hnew side)
        · exact hj
  | indexApplied i b f t st side hi hst hdb _ hprog =>
      obtain ⟨hf, ht⟩ := hcap i b f t st hi
      refine .entry i b f t side (Or.inr ⟨f, t, st, hi⟩) hf (ht side (by simp [hst])) hdb ?_
        (fun j c hj => ?_) fun j c u p s hj => ?_
      · exact ⟨_, by rw [hprog, Function.update_self], by simp⟩
      · rcases accepted_of_update hprog hj with ⟨rfl, hc⟩ | hj
        · obtain rfl : b = c := by simpa using hc
          exact Or.inr ⟨f, t, st, hi⟩
        · exact hj
      · rcases entered_of_update hprog hj with ⟨rfl, st', hst', hs⟩ | hj
        · obtain ⟨rfl, rfl, rfl, rfl⟩ : b = c ∧ f = u ∧ t = p ∧
              Function.update st side .applied = st' := by simpa using hst'
          by_cases hss : s = side
          · exact Or.inl ⟨rfl, rfl, rfl, rfl, hss⟩
          · rw [Function.update_of_ne hss] at hs
            exact Or.inr ⟨st, hi, hs⟩
        · exact Or.inr hj
  | indexFailed i b f t st side hi hst hdb _ hprog =>
      refine .none hdb (fun j c hj => ?_) fun j c u p s hj => ?_
      · rcases accepted_of_update hprog hj with ⟨rfl, hc⟩ | hj
        · obtain rfl : b = c := by simpa using hc
          exact Or.inr ⟨f, t, st, hi⟩
        · exact hj
      · rcases entered_of_update hprog hj with ⟨rfl, st', hst', hs⟩ | hj
        · obtain ⟨rfl, rfl, rfl, rfl⟩ : b = c ∧ f = u ∧ t = p ∧
              Function.update st side .failed = st' := by simpa using hst'
          by_cases hss : s = side
          · subst hss
            simp at hs
          · rw [Function.update_of_ne hss] at hs
            exact ⟨st, hi, hs⟩
        · exact hj
  | dropped u p hdb _ hprog =>
      refine .dropped u p hdb (fun j c hj => ?_) fun j c f t side hj => ?_
      · rwa [Accepted, hprog] at hj
      · rwa [Entered, hprog] at hj
  | userApplied s g uid user _ _ hdb _ hprog =>
      refine .user uid user hdb (fun j c hj => ?_) fun j c f t side hj => ?_
      · rwa [Accepted, hprog] at hj
      · rwa [Entered, hprog] at hj

end World

end AppChat
