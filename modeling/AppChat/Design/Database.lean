import AppChat.Library.PathTree

/-!
The realtime database as the app sees it: a tree of strings and numbers, and
the snapshots its events hand to the callbacks.

The app reads a snapshot with `snap.value as! NSDictionary` and then field by
field, with `as!` where it relies on the field and `as?` where it has a
default. A failed `as!` stops the app; it is a `Trap` here.
-/

namespace AppChat

/-- A value at a leaf of the database. -/
inductive Value where
  | str (s : String)
  | num (n : ℤ)
  deriving DecidableEq, Repr

abbrev Database := PathTree String Value

/-- Where a forced cast or a forced unwrapping fails at run time. -/
inductive Trap where
  | nullDictionary
  | field (name : String)
  deriving DecidableEq, Repr

/-- The fields of a dictionary; a field that is itself a dictionary counts as
absent, since no cast of the app accepts one. -/
abbrev Fields := String → Option Value

/-- The value of a snapshot: `NSNull` for an absent node, the value of a leaf,
or a dictionary. -/
inductive Snapshot where
  | null
  | leaf (v : Value)
  | dictionary (fields : Fields)

/-- The snapshot of the node at `p`. -/
def snapshot (db : Database) (p : List String) : Snapshot :=
  match db.valueAt p with
  | some v => .leaf v
  | none => if db.childKeys p = [] then .null else .dictionary fun f => db.valueAt (p ++ [f])

/-- `snap.value as! NSDictionary`. -/
def Snapshot.forceDictionary : Snapshot → Except Trap Fields
  | .dictionary d => .ok d
  | _ => .error .nullDictionary

/-- `snap.value as? NSDictionary`. -/
def Snapshot.asDictionary : Snapshot → Option Fields
  | .dictionary d => some d
  | _ => none

/-- `data[f] as? String`. -/
def Fields.asString (d : Fields) (f : String) : Option String :=
  match d f with
  | some (.str s) => some s
  | _ => none

/-- `data[f] as! String`. -/
def Fields.forceString (d : Fields) (f : String) : Except Trap String :=
  match d f with
  | some (.str s) => .ok s
  | _ => .error (.field f)

/-- `data[f] as! NSNumber`. -/
def Fields.forceNumber (d : Fields) (f : String) : Except Trap ℤ :=
  match d f with
  | some (.num n) => .ok n
  | _ => .error (.field f)

lemma Fields.asString_eq_some_iff {d : Fields} {f s : String} :
    d.asString f = some s ↔ d f = some (.str s) := by
  unfold Fields.asString
  split <;> simp_all

lemma Snapshot.forceDictionary_eq_ok_iff {snap : Snapshot} {d : Fields} :
    snap.forceDictionary = .ok d ↔ snap = .dictionary d := by
  cases snap <;> simp [Snapshot.forceDictionary]

lemma Fields.forceString_eq_ok_iff {d : Fields} {f s : String} :
    d.forceString f = .ok s ↔ d f = some (.str s) := by
  unfold Fields.forceString
  split <;> simp_all

lemma Fields.forceNumber_eq_ok_iff {d : Fields} {f : String} {n : ℤ} :
    d.forceNumber f = .ok n ↔ d f = some (.num n) := by
  unfold Fields.forceNumber
  split <;> simp_all

/-- A callback without a trap has made each of its casts without one. -/
lemma bind_eq_ok {α β : Type} {x : Except Trap α} {f : α → Except Trap β} {b : β}
    (h : x >>= f = .ok b) : ∃ a, x = .ok a ∧ f a = .ok b := by
  cases x with
  | error t => cases h
  | ok a => exact ⟨a, rfl, h⟩

/-- A node with a leaf one level below is delivered as a dictionary. -/
lemma snapshot_eq_dictionary {db : Database} {p : List String} {f : String} {v : Value}
    (h : db.valueAt (p ++ [f]) = some v) :
    snapshot db p = .dictionary fun g => db.valueAt (p ++ [g]) := by
  rw [PathTree.valueAt_eq_some_iff] at h
  have hleaf : db.valueAt p = none := by
    by_contra hne
    obtain ⟨w, hw⟩ := Option.ne_none_iff_exists'.mp hne
    rw [PathTree.valueAt_eq_some_iff] at hw
    have := PathTree.eq_of_comparable hw h (Or.inl (List.prefix_append p [f]))
    simp at this
  have hchild : db.childKeys p ≠ [] := by
    refine List.ne_nil_of_mem (PathTree.mem_childKeys.mpr ⟨_, h, ?_⟩ : f ∈ db.childKeys p)
    exact List.prefix_rfl
  rw [snapshot, hleaf, if_neg hchild]

/-- A snapshot that is a dictionary reads the leaves one level below. -/
lemma snapshot_dictionary {db : Database} {p : List String} {d : Fields}
    (h : snapshot db p = .dictionary d) (f : String) : d f = db.valueAt (p ++ [f]) := by
  unfold snapshot at h
  split at h
  · simp at h
  · split_ifs at h
    cases h
    rfl

end AppChat
