import AppChat.System.Index

/-!
The integrity of the index.

* `index_integrity`: a key under `user-mess/u/p` stands for a record between
  `u` and `p`, now and in every later state, so neither reader traps on it and
  both find the partner `p` again.
* `registration`, `newmessage`, `textSend`: the actions of an undisturbed
  registration, choice of a partner and text, from which the concrete runs of
  this development are put together.
-/

namespace AppChat

namespace World

/-- An accepted entry stays accepted in every later state. -/
lemma Entered.run {w w₂ : World} {as : List Action} {i : SendId} {b : RecordBlock} {f t : String}
    {side : Side} (h : w.Entered i b f t side) (hrun : Transition.run step w as = some w₂) :
    w₂.Entered i b f t side :=
  Transition.run_invariant (fun _ _ _ h hs => (step_effect hs).entered_mono h) h hrun

/-- **Index integrity**: let `k` be an entry of the conversation of `u` with
`p` in a reachable state. In this state and in every later one, such as the one
in which a listener that has seen the key reads the record, `mess/k` is a
record between `u` and `p`; both readers decode it without a trap, and the
partner they compute for `u` is `p`. -/
theorem index_integrity {w w₂ : World} {as : List Action} {u p k : String} (h : Reachable w)
    (hk : w.db.Present ["user-mess", u, p, k]) (hlater : Transition.run step w as = some w₂) :
    (∃ fromID toID, MessRecord w₂.db k fromID toID ∧
      ((fromID = u ∧ toID = p) ∨ (fromID = p ∧ toID = u))) ∧
    (∃ m, getMessage2Value (snapshot w₂.db ["mess", k]) = .ok m ∧
      m.getChatPartnerId (some u) = p) ∧
    (∃ m, getMessageUserPartnerValue (snapshot w₂.db ["mess", k]) = .ok m ∧
      m.getChatPartnerId (some u) = p) := by
  have hw := h.consistent
  have hw₂ : Consistent w₂ := Transition.run_invariant (fun _ _ _ hw h => hw.step h) hw hlater
  obtain ⟨i, b, f, t, side, hent, hv, rfl, htable⟩ := hw.present_cases hk
  have hrec : MessRecord w₂.db b.key f t := hw₂.messRecord (hent.run hlater) hv
  have hpair : (f = u ∧ t = p) ∨ (f = p ∧ t = u) := by
    cases side <;> simp [textTable] at htable
    · exact Or.inl htable
    · exact Or.inr ⟨htable.2, htable.1⟩
  refine ⟨⟨f, t, hrec, hpair⟩, ?_, ?_⟩
  · obtain ⟨m, hm, hf, ht⟩ := hrec.getMessage2Value_ok
    exact ⟨m, hm, Mess.getChatPartnerId_eq (by rwa [hf, ht])⟩
  · obtain ⟨m, hm, hf, ht⟩ := hrec.getMessageUserPartnerValue_ok
    exact ⟨m, hm, Mess.getChatPartnerId_eq (by rwa [hf, ht])⟩

/-! ### A first text -/

/-- A registration on the device `n`, under the id and e-mail `uid`, that goes
through. -/
def registration (n : ℕ) (uid : String) : List Action :=
  [.register (.appear n n (some [])), .register (.edit n uid "secret" uid),
    .register (.handleregister n n), .register (.createUserDone n (some uid)),
    .register (.avatarStored n), .register (.putDataDone n true),
    .register (.downloadURLDone n (some "avatar")), .register (.userApplied n)]

/-- The chat log `c` on the device `d`, opened for the listed user `id`. -/
def newmessage (c : ChatId) (d : DeviceId) (id : String) : List Action :=
  [.screen (.newmessageSelect c d id), .screen (.editText c "hello")]

/-- A text that goes through. -/
def textSend (i : SendId) (c : ChatId) (key : String) : List Action :=
  [.send (.sendText i c key 0), .send (.recordApplied i), .send (.recordDone i),
    .send (.indexApplied i .sender), .send (.indexApplied i .recipient)]

/-- The user `a` sends the user `b` a text. -/
def firstText : List Action :=
  registration 0 "a" ++ registration 1 "b" ++ newmessage 0 0 "b" ++ textSend 0 0 "k"

/-- The text is found under either user. -/
lemma firstText_present :
    ((Transition.run step init firstText).map fun w =>
      decide (w.db.Present ["user-mess", "a", "b", "k"] ∧
        w.db.Present ["user-mess", "b", "a", "k"])) = some true := by
  decide +kernel

/-- The recipient of the first text finds its sender. -/
theorem index_integrity_firstText : ∃ w, Runs firstText w ∧
    ∃ m, getMessage2Value (snapshot w.db ["mess", "k"]) = .ok m ∧
      m.getChatPartnerId (some "b") = "a" := by
  obtain ⟨w, hw, hk⟩ := Option.map_eq_some_iff.mp firstText_present
  exact ⟨w, hw, (index_integrity ⟨_, hw⟩ (of_decide_eq_true hk).2 (Transition.run_nil w)).2.1⟩

end World

end AppChat
