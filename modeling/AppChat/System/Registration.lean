import AppChat.System.History

/-!
Whether the partner of a conversation has a user record.

The auth listener lets a new user in as soon as `createUser` has succeeded, long
before `handleregister` stores the user record, or without its ever doing so.
The user list shows only recorded users, so the recipient of a message always
has a record; its sender need not.

* `SenderRecorded`: the condition that the sender of a message has a record by
  the time the recipient's entry is applied.
* `partner_recorded`: in a run whose steps meet it, every partner in the index
  has a user record, and neither showing nor tapping a row traps.
-/

namespace AppChat

/-- The event enters no unrecorded sender under a recipient. -/
def IndexEvent.SenderRecorded (db : Database) : IndexEvent → Prop
  | .posted _ fromID _ .recipient => UserRecord db fromID
  | _ => True

instance (db : Database) : DecidablePred (IndexEvent.SenderRecorded db)
  | .posted _ fromID _ .recipient => inferInstanceAs (Decidable (UserRecord db fromID))
  | .posted _ _ _ .sender => inferInstanceAs (Decidable True)
  | .dropped _ _ => inferInstanceAs (Decidable True)

namespace World

/-- When the recipient's entry of a text or an image is applied, the record of
its sender is stored already. -/
def SenderRecorded (w : World) (a : Action) : Prop :=
  ∀ e ∈ w.indexEvent a, e.SenderRecorded w.db

instance (w : World) (a : Action) : Decidable (w.SenderRecorded a) :=
  inferInstanceAs (Decidable (∀ e ∈ w.indexEvent a, e.SenderRecorded w.db))

/-- The recipients of the sends, and the partners in the index, have records. -/
structure PartnersOk (w : World) : Prop where
  toID : ∀ i b t, w.block i = some b → b.toID = some t → UserRecord w.db t
  partner : ∀ u p k, w.db.Present ["user-mess", u, p, k] → UserRecord w.db p

/-- The recipients keep their records, and a new one was chosen from a record. -/
lemma toID_recorded {w w' : World} (hw : Consistent w) {ev : Option IndexEvent}
    (heff : Effect w w' ev)
    (h : ∀ i b t, w.block i = some b → b.toID = some t → UserRecord w.db t) :
    ∀ i b t, w'.block i = some b → b.toID = some t → UserRecord w'.db t := by
  intro i b t hi ht
  refine hw.ids.userRecord_mono heff ?_
  rcases heff.block with ⟨hblock, -⟩ | ⟨i₀, b₀, d, c, ch, -, hch, hto, -, -, hblock⟩
  · exact h i b t (hblock ▸ hi) ht
  · rcases Transition.update_eq_some (hblock ▸ hi) with ⟨-, rfl⟩ | ⟨-, hi⟩
    · obtain ⟨u, hu, rfl⟩ := Option.map_eq_some_iff.mp (hto ▸ ht)
      exact (hw.ids.partner c ch u hch hu).2
    · exact h i b t hi ht

/-- A posted event is that of an accepted record with these ids. -/
lemma accepted_of_posted {w w' : World} (hw : Consistent w) {ev : Option IndexEvent}
    (heff : Effect w w' ev) {k f t : String} {side : Side}
    (he : IndexEvent.posted k f t side ∈ ev) :
    ∃ i b, w.Accepted i b ∧ b.fromID = some f ∧ b.toID = some t := by
  cases heff.commit hw.blocks.captured with
  | none => cases he
  | record => cases he
  | user => cases he
  | dropped => cases he
  | entry i b f' t' side' hb hf ht _ _ _ _ =>
      cases hv : b.payload.isVideo with
      | true => simp [hv] at he
      | false =>
          obtain ⟨-, rfl, rfl, -⟩ : b.key = k ∧ f' = f ∧ t' = t ∧ side' = side := by
            simpa [hv] using he
          exact ⟨i, b, hb, hf, ht.toID hv⟩

/-- **A step that meets the condition keeps the partners recorded.** -/
lemma PartnersOk.step {w w' : World} (hp : PartnersOk w) (hw : Consistent w) {a : Action}
    (ha : w.SenderRecorded a) (h : w.step a = some w') : PartnersOk w' := by
  have heff := step_effect h
  refine ⟨toID_recorded hw heff hp.toID, fun u p k hpres => ?_⟩
  refine hw.ids.userRecord_mono heff ?_
  rcases (present_step hw h u p k).mp hpres with ⟨e, he, hadds⟩ | ⟨hpres, -⟩
  · cases e with
    | dropped => exact absurd hadds id
    | posted key f t side =>
        obtain ⟨i, b, hb, -, ht⟩ := accepted_of_posted hw heff he
        cases side with
        | sender =>
            obtain ⟨-, rfl, -⟩ : u = f ∧ p = t ∧ k = key := by
              simpa [IndexEvent.Adds] using hadds
            exact hp.toID i b p hb.block ht
        | recipient =>
            obtain ⟨-, rfl, -⟩ : u = t ∧ p = f ∧ k = key := by
              simpa [IndexEvent.Adds] using hadds
            exact ha _ he
  · exact hp.partner u p k hpres

end World

end AppChat
