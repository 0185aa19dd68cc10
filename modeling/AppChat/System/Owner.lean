import AppChat.System.History

/-!
Who deletes what.

A deletion names a user and a partner, and nothing else. It is sent when a row is
swiped, and accepted any time later: after a sign-out, after the app has stopped, or
when somebody else is signed in.

* `World.SwipedIn`: a row was swiped, on a device that was signed in.
* `World.deletions_swiped`: every deletion there is was.
* `World.removed_by_owner`: whatever happens, an entry of the index is removed by its
  owner only, by a swipe on the row of its partner.
-/

namespace AppChat

open Transition

namespace World

variable {w w' : World} {as bs : List Action} {x : DeletionId} {u p : String}

/-- In the run `as`, a row with the partner `p` has been swiped on a device that was
signed in as `u` then, for the deletion `x`. -/
def SwipedIn (as : List Action) (x : DeletionId) (u p : String) : Prop :=
  ∃ before after d arrayMess row v mess,
    as = before ++ .delete (.commit x d arrayMess row) :: after ∧ Runs before v ∧
      (v.devices d).running = true ∧ v.currentUid d = some u ∧
        arrayMess[row]? = some mess ∧ mess.getChatPartnerId (some u) = p

/-- What has been swiped, has been. -/
lemma SwipedIn.append (h : SwipedIn as x u p) (bs : List Action) : SwipedIn (as ++ bs) x u p := by
  obtain ⟨before, after, d, arrayMess, row, v, mess, rfl, hrest⟩ := h
  exact ⟨before, after ++ bs, d, arrayMess, row, v, mess, by simp, hrest⟩

/-- A deletion in a state is an old one, with the user and the partner it had, or the
one that has just been swiped. -/
lemma deleteStep_deletions {a : DeleteAction} (h : w.deleteStep a = some w') {del : Deletion}
    (hdel : w'.deletions x = some del) :
    (∃ del₀, w.deletions x = some del₀ ∧ del₀.uid = del.uid ∧ del₀.partnerId = del.partnerId) ∨
      ∃ d arrayMess row mess, a = .commit x d arrayMess row ∧ (w.devices d).running = true ∧
        w.currentUid d = some del.uid ∧ arrayMess[row]? = some mess ∧
          mess.getChatPartnerId (some del.uid) = del.partnerId := by
  have old : ∀ {del₀ : Deletion}, w.deletions x = some del₀ → del₀.uid = del.uid →
      del₀.partnerId = del.partnerId → ∃ del₀, w.deletions x = some del₀ ∧ del₀.uid = del.uid ∧
        del₀.partnerId = del.partnerId := fun h₀ hu hp => ⟨_, h₀, hu, hp⟩
  cases a with
  | commit y d arrayMess row =>
      simp only [deleteStep, Option.ite_none_right_eq_some] at h
      obtain ⟨⟨hrun, -⟩, h⟩ := h
      split at h
      · rw [← Option.some.inj h] at hdel
        exact Or.inl (old hdel rfl rfl)
      · rename_i uid huid
        split at h
        · rw [← Option.some.inj h] at hdel
          exact Or.inl (old hdel rfl rfl)
        · rename_i mess hmess
          rw [← Option.some.inj h] at hdel
          rcases update_eq_some hdel with ⟨rfl, rfl⟩ | ⟨-, hdel⟩
          · exact Or.inr ⟨d, arrayMess, row, mess, rfl, hrun, huid, hmess, by rw [huid]⟩
          · exact Or.inl (old hdel rfl rfl)
  | applied y =>
      simp only [deleteStep, Option.bind_eq_some_iff, Option.ite_none_right_eq_some] at h
      obtain ⟨del₀, hdel₀, -, h⟩ := h
      rw [← Option.some.inj h] at hdel
      rcases update_eq_some hdel with ⟨rfl, rfl⟩ | ⟨-, hdel⟩
      · exact Or.inl (old hdel₀ rfl rfl)
      · exact Or.inl (old hdel rfl rfl)
  | failed y =>
      simp only [deleteStep, Option.bind_eq_some_iff, Option.ite_none_right_eq_some] at h
      obtain ⟨del₀, hdel₀, -, h⟩ := h
      rw [← Option.some.inj h] at hdel
      rcases update_eq_some hdel with ⟨rfl, rfl⟩ | ⟨-, hdel⟩
      · exact Or.inl (old hdel₀ rfl rfl)
      · exact Or.inl (old hdel rfl rfl)

/-- The other steps leave the deletions alone. -/
lemma step_deletions {a : Action} (h : w.step a = some w') (ha : ∀ b, a ≠ .delete b) :
    w'.deletions = w.deletions := by
  cases a with
  | auth a =>
      obtain ⟨devices, rfl⟩ := authStep_cases h
      rfl
  | register a =>
      cases registerStep_moves h with
      | createUserDone s uid g r =>
          unfold createUserDone
          split_ifs
          · split <;> rfl
          · rfl
      | _ => rfl
  | screen a =>
      obtain ⟨devices, chats, rfl⟩ := screenStep_cases h
      rfl
  | send a => cases sendStep_moves h <;> rfl
  | delete a => exact absurd rfl (ha a)

/-- **Every deletion has been swiped**, by the user whose conversation it removes. -/
lemma deletions_swiped (h : Runs as w) {del : Deletion} (hdel : w.deletions x = some del) :
    SwipedIn as x del.uid del.partnerId := by
  have hall : ∀ x del, w.deletions x = some del → SwipedIn as x del.uid del.partnerId := by
    refine run_induction (I := fun as w => ∀ x del, w.deletions x = some del →
      SwipedIn as x del.uid del.partnerId) (by simp [init])
      (fun as v a v' hv ih hstep x del hdel => ?_) h
    by_cases ha : ∃ b, a = .delete b
    · obtain ⟨b, rfl⟩ := ha
      rcases deleteStep_deletions hstep hdel with ⟨del₀, hdel₀, hu, hp⟩ |
        ⟨d, arrayMess, row, mess, rfl, hrun, huid, hmess, hp⟩
      · rw [← hu, ← hp]
        exact (ih x del₀ hdel₀).append _
      · exact ⟨as, [], d, arrayMess, row, v, mess, rfl, hv, hrun, huid, hmess, hp⟩
    · rw [step_deletions hstep fun b hb => ha ⟨b, hb⟩] at hdel
      exact (ih x del hdel).append _
  exact hall x del hdel

/-- A step that loses an entry of the index is an accepted deletion of it. -/
lemma deletion_of_lost (hw : Consistent w) {a : Action} (h : w.step a = some w') {k : String}
    (hentry : w.db.Present ["user-mess", u, p, k])
    (hgone : ¬ w'.db.Present ["user-mess", u, p, k]) :
    ∃ x del, a = .delete (.applied x) ∧ w.deletions x = some del ∧ del.uid = u ∧
      del.partnerId = p := by
  have hremoved : ∃ e ∈ w.indexEvent a, e.Removes (u, p, k) := by
    by_contra hno
    push Not at hno
    exact hgone ((present_step hw h u p k).mpr (Or.inr ⟨hentry, hno⟩))
  obtain ⟨e, he, hrem⟩ := hremoved
  cases e with
  | posted key f t side => exact absurd hrem (by simp [IndexEvent.Removes])
  | dropped u' p' =>
      obtain ⟨rfl, rfl⟩ : u = u' ∧ p = p' := hrem
      obtain ⟨x, rfl⟩ := eq_delete_of_indexEvent he
      simp only [indexEvent, Option.mem_def, Option.map_eq_some_iff] at he
      obtain ⟨del, hdel, heq⟩ := he
      obtain ⟨rfl, rfl⟩ := IndexEvent.dropped.inj heq
      exact ⟨x, del, rfl, hdel, rfl, rfl⟩

/-- **Only its owner removes an entry.** An entry of the index that is there in a state
of the system and no longer later on, whatever has happened in between, has been removed
by a deletion; and for that deletion a row of the partner has been swiped, on a device
that was signed in as the user whose entry it is. -/
theorem removed_by_owner (h : Runs as w) (h' : run World.step w bs = some w') {k : String}
    (hentry : w.db.Present ["user-mess", u, p, k])
    (hgone : ¬ w'.db.Present ["user-mess", u, p, k]) :
    ∃ x, .delete (.applied x) ∈ bs ∧ SwipedIn (as ++ bs) x u p := by
  obtain ⟨cs, a, ds, v, v', rfl, hcs, hstep, hv, hv'⟩ :=
    exists_step_of_lost (P := fun v : World => v.db.Present ["user-mess", u, p, k]) h' hentry hgone
  have hruns : Runs (as ++ cs) v := run_append_eq_some.mpr ⟨w, h, hcs⟩
  obtain ⟨x, del, rfl, hdel, rfl, rfl⟩ := deletion_of_lost hruns.consistent hstep hv hv'
  refine ⟨x, by simp, ?_⟩
  rw [← List.append_assoc]
  exact (deletions_swiped hruns hdel).append _

/-- The sender of the first text swipes its row and signs out before the deletion is
accepted. -/
def swipedThenOut : List Action :=
  [.delete (.commit 0 0 [⟨"b", "a", 1, "", "", ""⟩] 0), .auth (.signOut 0), .delete (.applied 0)]

theorem removed_by_owner_swipedThenOut : ∃ w w', Runs firstText w ∧
    run World.step w swipedThenOut = some w' ∧ w.db.Present ["user-mess", "a", "b", "k"] ∧
      ∃ x, SwipedIn (firstText ++ swipedThenOut) x "a" "b" := by
  have hrun : ((run World.step init firstText).bind fun w =>
      (run World.step w swipedThenOut).map fun w' =>
        decide (w.db.Present ["user-mess", "a", "b", "k"] ∧
          ¬ w'.db.Present ["user-mess", "a", "b", "k"])) = some true := by
    decide +kernel
  obtain ⟨w, hw, h⟩ := Option.bind_eq_some_iff.mp hrun
  obtain ⟨w', hw', h⟩ := Option.map_eq_some_iff.mp h
  obtain ⟨hentry, hgone⟩ := of_decide_eq_true h
  obtain ⟨x, -, hx⟩ := removed_by_owner hw hw' hentry hgone
  exact ⟨w, w', hw, hw', hentry, x, hx⟩

end World

end AppChat
