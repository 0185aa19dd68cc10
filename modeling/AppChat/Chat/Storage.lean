import AppChat.Library.SlashPath
import AppChat.Chat.Send

/-!
The paths of the chat's uploads.

* `Draw`: what the path of an upload is built from, the number that
  `Int.random(in: 0...10000)` returns and, for an image, the two e-mails.
* `Draw.same_iff`: two uploads go to the same object exactly when their draws are
  the same, that is, with the same number and, for images, folders that do not
  differ once the path is standardized.
-/

namespace AppChat

open SlashPath

/-- The folder of `upload_image_chat_to_firebase`. -/
def chatImageFolder (currentEmail userEmail : Option String) : String :=
  "Chat_image:" ++ describing currentEmail ++ describing userEmail

/-- What the path of an upload is built from. -/
inductive Draw where
  | movie (random : ℕ)
  | image (currentEmail userEmail : Option String) (random : ℕ)
  deriving DecidableEq, Repr

namespace Draw

/-- The path of the upload. -/
def path : Draw → String
  | .movie random => moviePath random
  | .image currentEmail userEmail random => chatImagePath currentEmail userEmail random

/-- The draws that lead to the same object: videos with the same number, images
with the same number and the same folder. -/
def Same : Draw → Draw → Prop
  | .movie m, .movie n => m = n
  | .image c u m, .image c' u' n =>
      m = n ∧ components (chatImageFolder c u) = components (chatImageFolder c' u')
  | _, _ => False

instance : ∀ d d' : Draw, Decidable (d.Same d')
  | .movie m, .movie n => inferInstanceAs (Decidable (m = n))
  | .image c u m, .image c' u' n =>
      inferInstanceAs (Decidable (m = n ∧
        components (chatImageFolder c u) = components (chatImageFolder c' u')))
  | .movie _, .image .. => inferInstanceAs (Decidable False)
  | .image .., .movie _ => inferInstanceAs (Decidable False)

/-- The characters of a number hold no slash. -/
lemma slash_not_mem_toString (n : ℕ) : '/' ∉ (toString n).toList := fun h => by
  have hdigit := isDigit_of_mem_toString h
  revert hdigit
  decide

/-- The components of a movie's path. -/
lemma components_moviePath (n : ℕ) :
    components (moviePath n) = ["movie:".toList, (toString n).toList] := by
  have hpath : moviePath n = "movie:" ++ "/" ++ toString n := rfl
  rw [hpath, components_append_slash, components_of_not_mem (by decide) (by decide),
    components_of_not_mem (toString_nat_ne_nil n) (slash_not_mem_toString n)]
  rfl

/-- The components of an image's path: those of its folder, and its name. -/
lemma components_chatImagePath (c u : Option String) (n : ℕ) :
    components (chatImagePath c u n) =
      components (chatImageFolder c u) ++ [(toString n ++ ".jpg").toList] := by
  have hpath : chatImagePath c u n = chatImageFolder c u ++ "/" ++ (toString n ++ ".jpg") :=
    String.append_assoc
  have hslash : '/' ∉ (toString n ++ ".jpg").toList := by
    rw [String.toList_append, List.mem_append, not_or]
    exact ⟨slash_not_mem_toString n, by decide⟩
  rw [hpath, components_append_slash, components_of_not_mem (by simp) hslash]

/-- The first component of an image's path starts as the path does. -/
lemma head_chatImagePath (c u : Option String) (n : ℕ) :
    ∃ l L, components (chatImagePath c u n) = ('C' :: l) :: L := by
  have hassoc : ∀ p q r s t v : String,
      p ++ q ++ r ++ s ++ t ++ v = p ++ (q ++ r ++ s ++ t ++ v) := by
    intro p q r s t v
    simp only [String.append_assoc]
  have hpath : chatImagePath c u n =
      "Chat_image:" ++ (describing c ++ describing u ++ "/" ++ toString n ++ ".jpg") :=
    hassoc ..
  rw [hpath]
  exact head_components rfl (by decide)

/-- A movie and an image never share a path. -/
lemma components_moviePath_ne (m n : ℕ) (c u : Option String) :
    components (moviePath m) ≠ components (chatImagePath c u n) := by
  obtain ⟨l, L, hhead⟩ := head_chatImagePath c u n
  rw [components_moviePath, hhead]
  intro h
  have hchar : 'm' = 'C' := (List.cons.inj (List.cons.inj h).1).1
  exact absurd hchar (by decide)

/-- **Two uploads go to the same object** exactly when their draws are the same. -/
lemma same_iff {d d' : Draw} : d.Same d' ↔ standardized d.path = standardized d'.path := by
  rw [standardized_eq_iff]
  cases d with
  | movie m =>
      cases d' with
      | movie n =>
          simp only [Same, path, components_moviePath, List.cons.injEq, true_and, and_true,
            String.toList_inj]
          exact toString_nat_inj.symm
      | image c u n =>
          simp only [Same, path, false_iff]
          exact components_moviePath_ne m n c u
  | image c u m =>
      cases d' with
      | movie n =>
          simp only [Same, path, false_iff]
          exact (components_moviePath_ne n m c u).symm
      | image c' u' n =>
          simp only [Same, path, components_chatImagePath]
          constructor
          · rintro ⟨rfl, hfolder⟩
            rw [hfolder]
          · intro h
            obtain ⟨hfolder, hname⟩ := List.append_inj' h (by simp only [List.length_singleton])
            have hnumber : toString m ++ ".jpg" = toString n ++ ".jpg" :=
              String.toList_inj.mp (List.singleton_inj.mp hname)
            exact ⟨toString_nat_inj.mp (String.append_left_inj _ |>.mp hnumber), hfolder⟩

end Draw

end AppChat
