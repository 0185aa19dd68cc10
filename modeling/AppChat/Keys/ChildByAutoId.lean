import AppChat.Keys.NextPushId
import AppChat.System.World

/-!
`childByAutoId` of many apps at once.

The keys of the messages are made by the apps, none of which knows what the others have
given. What the system takes of them, that a key was never given before and is no user
id, comes from the clocks and from the format of an id.

* `childByAutoId_eq`: the id passes the checks of a path and is one component of it, so
  the new reference is right below the old one.
* `Clients.Apart`: no clock goes back, and no two apps ask in one millisecond.
* `Clients.nodup_ids`: then no id is given twice.
* `Clients.childByAutoId_freshKey`: so the next key is one that the system may be given.
-/

namespace AppChat

/-! ### A reference and its children -/

/-- The pieces of an `FPath`. -/
abbrev FPath := List (List Char)

def kInvalidPathCharacters : List Char := ['[', ']', '.', '#', '$']

def isValidPathString (pathString : List Char) : Bool :=
  !pathString.isEmpty && pathString.all fun c => c ∉ kInvalidPathCharacters

/-- `validateFrom:validRootPathString:`: what is left to check where the path leads below
`.info`. -/
def dropDotInfo (pathString : List Char) : List Char :=
  match pathString.dropWhile (· == '/') with
  | ['.', 'i', 'n', 'f', 'o'] => ['/']
  | '.' :: 'i' :: 'n' :: 'f' :: 'o' :: '/' :: rest => '/' :: rest
  | _ => pathString

def FPath.childFromString (path : FPath) (childPath : String) : FPath :=
  path ++ SlashPath.components childPath

/-- `child:`, `none` where a check throws. -/
def FPath.child (path : FPath) (pathString : String) : Option FPath :=
  if isValidPathString (if path = [] then dropDotInfo pathString.toList else pathString.toList)
  then some (path.childFromString pathString)
  else none

/-- `kDotInfoPrefix`. -/
def kDotInfoPrefix : List Char := ['.', 'i', 'n', 'f', 'o']

/-- An id as a string. -/
def idString (id : Unichars) : String := .ofList (id.map Char.ofNat)

/-- `childByAutoId`: the new reference, and the variables of `FNextPushId` after it. -/
def FPath.childByAutoId (path : FPath) (s : NextPushId) (c : PushCall) :
    Option (FPath × NextPushId) :=
  if path.head? = some kDotInfoPrefix then none
  else (s.get c).bind fun (name, t) => (path.child (idString name)).map (·, t)

/-- What the characters of an id are not. -/
lemma pushChar_spec (d : Fin 64) : pushChar d < 128 ∧ Char.ofNat (pushChar d) ≠ '/' ∧
    Char.ofNat (pushChar d) ∉ kInvalidPathCharacters := by
  have hall : ∀ c ∈ pushChars, c < 128 ∧ Char.ofNat c ≠ '/' ∧
      Char.ofNat c ∉ kInvalidPathCharacters := by decide +kernel
  exact hall _ (List.get_mem _ _)

section Id

variable {now : ℕ} {r : RandChars}

/-- The string of an id has its code units. -/
lemma unichars_idString : unichars (idString (pushId now r)) = pushId now r := by
  have hascii : ∀ c : Fin 128, utf16 (Char.ofNat c) = [(c : ℕ)] := by decide +kernel
  rw [unichars, idString, String.toList_ofList, pushId_eq_map, List.flatMap_map, List.flatMap_map]
  calc (Numeral.digits 8 now ++ r.1).flatMap (fun d => utf16 (Char.ofNat (pushChar d)))
      = (Numeral.digits 8 now ++ r.1).flatMap (fun d => [pushChar d]) :=
        List.flatMap_congr fun d _ => hascii ⟨pushChar d, (pushChar_spec d).1⟩
    _ = (Numeral.digits 8 now ++ r.1).map pushChar := List.map_eq_flatMap.symm

lemma mem_toList_idString {x : Char} (h : x ∈ (idString (pushId now r)).toList) :
    ∃ d, x = Char.ofNat (pushChar d) := by
  rw [idString, String.toList_ofList, pushId_eq_map, List.map_map] at h
  obtain ⟨d, -, rfl⟩ := List.mem_map.mp h
  exact ⟨d, rfl⟩

lemma toList_idString_ne_nil : (idString (pushId now r)).toList ≠ [] := by
  have hlen : (idString (pushId now r)).toList.length = 20 := by
    rw [idString, String.toList_ofList, List.length_map, length_pushId]
  exact List.ne_nil_of_length_pos (by omega)

/-- An id is below no `.info`. -/
lemma dropDotInfo_idString :
    dropDotInfo (idString (pushId now r)).toList = (idString (pushId now r)).toList := by
  have hdot : '.' ∉ (idString (pushId now r)).toList := by
    intro h
    obtain ⟨d, hd⟩ := mem_toList_idString h
    exact (pushChar_spec d).2.2 (hd ▸ by decide)
  have hdrop : '.' ∉ (idString (pushId now r)).toList.dropWhile (· == '/') := fun h =>
    hdot ((List.dropWhile_sublist _).subset h)
  rw [dropDotInfo]
  split
  · rename_i h
    exact absurd (h ▸ List.mem_cons_self) hdrop
  · rename_i h
    exact absurd (h ▸ List.mem_cons_self) hdrop
  · rfl

/-- An id passes the checks of a path, and is one component of it. -/
lemma child_idString (path : FPath) :
    path.child (idString (pushId now r)) = some (path ++ [(idString (pushId now r)).toList]) := by
  have hvalid : isValidPathString (idString (pushId now r)).toList = true := by
    rw [isValidPathString, Bool.and_eq_true, List.all_eq_true]
    refine ⟨by simpa using toList_idString_ne_nil, fun x hx => ?_⟩
    obtain ⟨d, rfl⟩ := mem_toList_idString hx
    exact decide_eq_true (pushChar_spec d).2.2
  have hslash : '/' ∉ (idString (pushId now r)).toList := by
    intro h
    obtain ⟨d, hd⟩ := mem_toList_idString h
    exact (pushChar_spec d).2.1 hd.symm
  rw [FPath.child, dropDotInfo_idString, ite_self, if_pos hvalid, FPath.childFromString,
    SlashPath.components_of_not_mem toList_idString_ne_nil hslash]

end Id

/-- **`childByAutoId`** throws nothing outside of `.info`, and makes a reference right below. -/
lemma childByAutoId_eq {path : FPath} (hpath : path.head? ≠ some kDotInfoPrefix)
    {s t : NextPushId} {c : PushCall} (h : NextPushId.step s c = some t) :
    path.childByAutoId s c = some (path ++ [(idString t.lastId).toList], t) := by
  rw [FPath.childByAutoId, if_neg hpath, NextPushId.get_of_step h, Option.bind_some]
  show (path.child (idString t.lastId)).map (·, t) = _
  rw [NextPushId.lastId, child_idString, Option.map_some]

/-! ### Many apps -/

namespace Clients

variable {ι : Type*} [DecidableEq ι]

/-- A call of `get` in one of the apps, each of which has variables of its own. -/
def step (s : ι → NextPushId) (a : ι × PushCall) : Option (ι → NextPushId) :=
  ((s a.1).step a.2).map (Function.update s a.1)

/-- The ids that all the apps get. -/
def ids : (ι → NextPushId) → List (ι × PushCall) → List Unichars :=
  Transition.trace step fun s a => ((s a.1).get a.2).map Prod.fst

/-- No clock goes back, and no two apps ask in one millisecond: what is asked of two calls,
the first of which came before. -/
def Apart (a b : ι × PushCall) : Prop :=
  if a.1 = b.1 then a.2.now ≤ b.2.now else a.2.now ≠ b.2.now

instance (a b : ι × PushCall) : Decidable (Apart a b) :=
  inferInstanceAs (Decidable (if a.1 = b.1 then a.2.now ≤ b.2.now else a.2.now ≠ b.2.now))

variable {s₀ s t : ι → NextPushId} {calls : List (ι × PushCall)} {i : ι} {c : PushCall}

/-- An id that has been given was given to one of the apps, whose variables have not gone
below it since, and whose last call is one of the calls. -/
def Given (calls : List (ι × PushCall)) (s : ι → NextPushId) (id : Unichars) : Prop :=
  ∃ i c r, (i, c) ∈ calls ∧ id = pushId c.now r ∧
    c.now * 64 ^ 12 + Numeral.value r.1 ≤ (s i).stamp ∧
    ∃ d, (i, d) ∈ calls ∧ (s i).lastPushTime = d.now

/-- **A call keeps** what is known of the ids, and gives an id that was not given. -/
lemma given_step {u : NextPushId} (h : (s i).step c = some u)
    (hapart : ∀ a ∈ calls, Apart a (i, c)) (hcalls : ∀ a ∈ calls, a.2.now < 64 ^ 8)
    (hnow : c.now < 64 ^ 8) {id : Unichars} (hid : Given calls s id) :
    id ≠ u.lastId ∧ Given (calls ++ [(i, c)]) (Function.update s i u) id := by
  obtain ⟨j, d, r, hd, rfl, hstamp, e, he, htime⟩ := hid
  have hold := hcalls _ hd
  have hlast := NextPushId.lastPushTime_of_step h
  have heq : pushId d.now r = u.lastId → d.now = c.now ∧ r = u.lastRandChars := fun heq => by
    rwa [NextPushId.lastId, hlast, pushId_eq_iff hold hnow] at heq
  by_cases hji : j = i
  · subst hji
    -- the clock of the app has not gone back since its last call
    have hle : (s j).lastPushTime ≤ c.now := by
      have hap := hapart _ he
      rw [Apart, if_pos rfl] at hap
      exact htime ▸ hap
    have hlt := (NextPushId.stamp_lt_iff h).mpr hle
    refine ⟨fun hid => ?_, j, d, r, by simp [hd], rfl, ?_, c, by simp, ?_⟩
    · obtain ⟨htd, rfl⟩ := heq hid
      rw [NextPushId.stamp, NextPushId.stamp, hlast] at hlt
      rw [NextPushId.stamp] at hstamp
      omega
    · rw [Function.update_self]
      omega
    · rw [Function.update_self, hlast]
  · have hne : d.now ≠ c.now := by
      have hap := hapart _ hd
      rwa [Apart, if_neg hji] at hap
    refine ⟨fun hid => hne (heq hid).1, j, d, r, by simp [hd], rfl, ?_, e, by simp [he], ?_⟩
    · rwa [Function.update_of_ne hji]
    · rwa [Function.update_of_ne hji]

/-- The new id is one that has been given. -/
lemma given_lastId {u : NextPushId} (h : (s i).step c = some u) :
    Given (calls ++ [(i, c)]) (Function.update s i u) u.lastId := by
  have hlast := NextPushId.lastPushTime_of_step h
  refine ⟨i, c, u.lastRandChars, by simp, ?_, ?_, c, by simp, ?_⟩
  · rw [NextPushId.lastId, hlast]
  · rw [Function.update_self, NextPushId.stamp, hlast]
  · rw [Function.update_self, hlast]

lemma step_eq_some : step s (i, c) = some t ↔
    ∃ u, (s i).step c = some u ∧ Function.update s i u = t := Option.map_eq_some_iff

/-- **No id is given twice** by apps whose clocks do not go back and are apart. -/
lemma nodup_ids (h : Transition.run step s₀ calls = some s) (hapart : calls.Pairwise Apart)
    (hnow : ∀ a ∈ calls, a.2.now < 64 ^ 8) :
    (ids s₀ calls).Nodup ∧ ∀ id ∈ ids s₀ calls, Given calls s id := by
  revert hapart hnow
  refine Transition.run_induction (I := fun calls s => calls.Pairwise Apart →
    (∀ a ∈ calls, a.2.now < 64 ^ 8) →
      (ids s₀ calls).Nodup ∧ ∀ id ∈ ids s₀ calls, Given calls s id) ?_ ?_ h
  · exact fun _ _ => ⟨List.nodup_nil, fun _ hid => absurd hid List.not_mem_nil⟩
  · rintro calls s ⟨i, c⟩ t hrun ih hstep hapart hnow
    obtain ⟨u, hu, rfl⟩ := step_eq_some.mp hstep
    obtain ⟨hbefore, -, hlast⟩ := List.pairwise_append.mp hapart
    have hbound := fun a ha => hnow a (List.mem_append_left _ ha)
    have hc : c.now < 64 ^ 8 := hnow (i, c) (by simp)
    obtain ⟨hnodup, hgiven⟩ := ih hbefore hbound
    have hids : ids s₀ (calls ++ [(i, c)]) = ids s₀ calls ++ [u.lastId] := by
      rw [ids, Transition.trace_concat hrun, NextPushId.get_of_step hu]
      rfl
    have hkeep := fun id hid => given_step hu (fun a ha => hlast a ha _ (by simp)) hbound hc
      (hgiven id hid)
    rw [hids]
    refine ⟨List.nodup_append.mpr ⟨hnodup, List.nodup_singleton _, ?_⟩, fun id hid => ?_⟩
    · rintro id hid _ hlast rfl
      exact (hkeep id hid).1 (List.mem_singleton.mp hlast)
    · rcases List.mem_append.mp hid with hid | hid
      · exact (hkeep id hid).2
      · obtain rfl := List.mem_singleton.mp hid
        exact given_lastId hu

/-- Two apps that ask in one millisecond may get one id. -/
example : ¬ (ids (fun _ : Bool => .init) [(true, ⟨5, NextPushId.init.lastRandChars⟩),
    (false, ⟨5, NextPushId.init.lastRandChars⟩)]).Nodup := by decide +kernel

/-- The new id is fresh where all keys of the system have been given, and no user id is as
long. -/
lemma freshKey_lastId {w : World} {u : NextPushId} (h : (s i).step c = some u)
    (hapart : ∀ a ∈ calls, Apart a (i, c)) (hcalls : ∀ a ∈ calls, a.2.now < 64 ^ 8)
    (hnow : c.now < 64 ^ 8) (hkeys : ∀ k ∈ w.keys, Given calls s (unichars k))
    (huids : ∀ uid ∈ w.uids, (unichars uid).length ≠ 20) : w.FreshKey (idString u.lastId) := by
  have hunichars : unichars (idString u.lastId) = u.lastId := unichars_idString
  refine ⟨fun hkey => ?_, fun huid => huids _ huid ?_⟩
  · have hold := hkeys _ hkey
    rw [hunichars] at hold
    exact (given_step h hapart hcalls hnow hold).1 rfl
  · rw [hunichars, NextPushId.lastId, length_pushId]

/-- **The next key is one that the system may be given**: with such clocks no id is given
twice, and where all keys of the system are ids that have been given and no user id is as
long as an id, `childByAutoId` below `mess` goes well, and its key is fresh. -/
theorem childByAutoId_freshKey {w : World}
    (h : Transition.run step s₀ (calls ++ [(i, c)]) = some t)
    (hapart : (calls ++ [(i, c)]).Pairwise Apart)
    (hnow : ∀ a ∈ calls ++ [(i, c)], a.2.now < 64 ^ 8)
    (hkeys : ∀ k ∈ w.keys, unichars k ∈ ids s₀ calls)
    (huids : ∀ uid ∈ w.uids, (unichars uid).length ≠ 20) :
    (ids s₀ (calls ++ [(i, c)])).Nodup ∧ ∃ s key, Transition.run step s₀ calls = some s ∧
      FPath.childByAutoId ["mess".toList] (s i) c =
        some (["mess".toList, key.toList], t i) ∧
      w.FreshKey key := by
  obtain ⟨s, hs, hstep⟩ := Transition.run_concat_eq_some.mp h
  obtain ⟨u, hu, rfl⟩ := step_eq_some.mp hstep
  obtain ⟨hbefore, -, hlast⟩ := List.pairwise_append.mp hapart
  have hbound := fun a ha => hnow a (List.mem_append_left _ ha)
  have hgiven := (nodup_ids hs hbefore hbound).2
  have hcall : ∀ a ∈ calls, Apart a (i, c) := fun a ha => hlast a ha _ (by simp)
  have hfresh : w.FreshKey (idString u.lastId) := freshKey_lastId hu hcall hbound
    (hnow (i, c) (by simp)) (fun k hk => hgiven _ (hkeys k hk)) huids
  refine ⟨(nodup_ids h hapart hnow).1, s, idString u.lastId, hs, ?_, hfresh⟩
  rw [childByAutoId_eq (by decide) hu, Function.update_self]
  rfl

/-- An app that has been given an id, and one that asks a millisecond later. -/
theorem childByAutoId_freshKey_twoApps :
    ∃ key, World.FreshKey
      { World.init with keys := [idString (pushId 5 NextPushId.init.lastRandChars)] } key := by
  obtain ⟨t, hrun⟩ : ∃ t, Transition.run step
      (fun _ : Bool => (⟨4, NextPushId.init.lastRandChars⟩ : NextPushId))
      ([(true, ⟨5, NextPushId.init.lastRandChars⟩)] ++
        [(false, ⟨6, NextPushId.init.lastRandChars⟩)]) = some t := ⟨_, rfl⟩
  obtain ⟨-, -, key, -, -, hkey⟩ := childByAutoId_freshKey
    (w := { World.init with keys := [idString (pushId 5 NextPushId.init.lastRandChars)] })
    hrun (by decide) (by decide) (by decide +kernel) (by decide)
  exact ⟨key, hkey⟩

end Clients

end AppChat
