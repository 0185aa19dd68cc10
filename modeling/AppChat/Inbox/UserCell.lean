import AppChat.Library.Entries
import AppChat.Library.Transition
import AppChat.Design.Mess
import AppChat.Design.User

/-!
`Design/Cell.swift`: the rows of the inbox, which are reused from message to
message.

Each message that is assigned to a `UserCell` adds an observer on the record of
its partner. No observer is ever removed, and each writes to the same labels, when
the record is first delivered and whenever the partner's profile changes.

* `UserCell`, `step`: a cell that messages are assigned to and records are
  delivered to, in any order.
* `delivered`: the names in the records delivered to a cell, with their partners.
* `textLabel_run`: the label holds the name delivered last.
* `shows_partner_iff`: so it is the name of the cell's own partner exactly when no
  other name has been delivered last.

The text of a date is a parameter.
-/

namespace AppChat

open Transition Entries

/-- A `UserCell`: its labels, the link `load_image` was asked for last, and the
partner of every message it was assigned, whose record it still observes. -/
structure UserCell where
  message : Option Mess
  textLabel : Option String
  detailTextLabel : Option String
  timestapmLabel : String
  profileImage : Option String
  observed : List String
  deriving DecidableEq, Repr

/-- `cellForRowAt` puts a message into the cell, and the observer of its `i`-th
message is delivered a record. -/
inductive UserCellAction where
  | cellForRowAt (currentUser : Option String) (mess : Mess)
  | value (i : ℕ) (snap : Snapshot)

namespace UserCell

/-- The cell of `init(style:reuseIdentifier:)`. -/
def fresh : UserCell := ⟨none, none, none, "jhihi", none, []⟩

variable (dateformat : ℤ → String)

/-- `message.didSet`: observe the record of the partner, and show the time. -/
def setMessage (c : UserCell) (currentUser : Option String) (mess : Mess) : UserCell :=
  { c with
    message := some mess
    observed := c.observed ++ [mess.getChatPartnerId currentUser]
    timestapmLabel := dateformat mess.timestapm }

/-- `cellForRowAt`, for the message of the row. -/
def cellForRowAt (c : UserCell) (currentUser : Option String) (mess : Mess) : UserCell :=
  { c.setMessage dateformat currentUser mess with detailTextLabel := some mess.mess }

/-- The next state. A record without a name or an avatar stops the app. -/
def step (c : UserCell) : UserCellAction → Option UserCell
  | .cellForRowAt currentUser mess => some (c.cellForRowAt dateformat currentUser mess)
  | .value i snap =>
      c.observed[i]?.bind fun _ =>
        match setupNameAndAvatar snap with
        | .ok (name, linkAvatar) =>
            some { c with textLabel := some name, profileImage := some linkAvatar }
        | .error _ => none

/-- The name in a record that is delivered, with the partner it belongs to. -/
def nameEvent (c : UserCell) : UserCellAction → Option (String × String)
  | .value i snap =>
      c.observed[i]?.bind fun partnerId =>
        match setupNameAndAvatar snap with
        | .ok (name, _) => some (partnerId, name)
        | .error _ => none
  | _ => none

/-- The names delivered to a cell, in order. -/
def delivered (as : List UserCellAction) : List (String × String) :=
  trace (step dateformat) nameEvent fresh as

/-- Once a record of the partner of the last assigned message has been delivered,
the label holds the name in the latest of them. -/
def ShowsPartner (as : List UserCellAction) (c : UserCell) : Prop :=
  ∀ partnerId ∈ c.observed.getLast?, ∀ name ∈ (under (delivered dateformat as) partnerId).getLast?,
    c.textLabel = some name

/-- After the latest record of the partner of the last assigned message, no other
record is delivered, or the last one carries the same name. -/
def OwnNameLast (as : List UserCellAction) (c : UserCell) : Prop :=
  ∀ partnerId ∈ c.observed.getLast?, ∀ l₁ name l₂,
    delivered dateformat as = l₁ ++ (partnerId, name) :: l₂ → (∀ e ∈ l₂, e.1 ≠ partnerId) →
      ∀ e ∈ l₂.getLast?, e.2 = name

variable {dateformat} {c : UserCell} {as bs : List UserCellAction}

/-- **The label holds the name delivered last**, to whichever observer. -/
lemma textLabel_run (h : run (step dateformat) fresh as = some c) :
    c.textLabel = (delivered dateformat as).getLast?.map Prod.snd := by
  refine trace_invariant (I := fun l c => c.textLabel = l.getLast?.map Prod.snd)
    (fun l c a c' hc hstep => ?_) rfl h
  cases a with
  | cellForRowAt currentUser mess =>
      rw [← Option.some.inj hstep]
      simpa [nameEvent, cellForRowAt, setMessage] using hc
  | value i snap =>
      obtain ⟨partnerId, hi, hstep⟩ := Option.bind_eq_some_iff.mp hstep
      split at hstep
      · rename_i name linkAvatar hsnap
        rw [← Option.some.inj hstep]
        simp [nameEvent, hi, hsnap]
      · cases hstep

/-- **When a reused row shows its own partner's name**: after every sequence of
messages and of records delivered to its observers, if and only if the latest
record of the partner has not been followed by a last one with another name. -/
theorem shows_partner_iff (h : run (step dateformat) fresh as = some c) :
    ShowsPartner dateformat as c ↔ OwnNameLast dateformat as c := by
  refine forall₂_congr fun partnerId _ => ?_
  rw [textLabel_run h]
  constructor
  · intro hshows l₁ name l₂ hl hl₂ e he
    have hname := hshows name (getLast?_under.mpr ⟨l₁, l₂, hl, hl₂⟩)
    rw [hl, List.getLast?_append, List.getLast?_cons, Option.mem_def.mp he] at hname
    simpa using hname
  · intro hown name hname
    obtain ⟨l₁, l₂, hl, hl₂⟩ := getLast?_under.mp hname
    rw [hl, List.getLast?_append, List.getLast?_cons]
    cases hlast : l₂.getLast? with
    | none => simp
    | some e => simpa using hown l₁ name l₂ hl hl₂ e hlast

/-! ### A cell used for two partners -/

/-- The record of a user with this name. -/
def recordOf (name : String) : Snapshot :=
  .dictionary fun f => some (.str (if f = "name" then name else "link"))

/-- For `a`, a cell is assigned a message of `b`, and then one of `c`. -/
def twoPartners : List UserCellAction :=
  [.cellForRowAt (some "a") ⟨"a", "b", 1, "from b", "", "demo_video"⟩,
    .cellForRowAt (some "a") ⟨"a", "c", 2, "from c", "", "demo_video"⟩]

/-- The records are delivered in the order of the messages. -/
theorem shows_partner_inOrder : ∃ c,
    run (step fun _ => "") fresh
      (twoPartners ++ [.value 0 (recordOf "bob"), .value 1 (recordOf "carol")]) = some c ∧
    c.observed.getLast? = some "c" ∧
      ShowsPartner (fun _ => "")
        (twoPartners ++ [.value 0 (recordOf "bob"), .value 1 (recordOf "carol")]) c := by
  have hrun : run (step fun _ => "") fresh
      (twoPartners ++ [.value 0 (recordOf "bob"), .value 1 (recordOf "carol")]) = some _ := rfl
  have hnames : delivered (fun _ => "") (twoPartners ++
      [.value 0 (recordOf "bob"), .value 1 (recordOf "carol")]) = [("b", "bob"), ("c", "carol")] :=
    rfl
  refine ⟨_, hrun, rfl, (shows_partner_iff hrun).mpr fun partnerId hpartner l₁ name l₂ hl hl₂ => ?_⟩
  obtain rfl : "c" = partnerId := Option.some.inj hpartner
  -- the record of `c` is the last one
  have hlast : l₂ = [] := by
    rw [hnames] at hl
    rcases List.eq_nil_or_concat l₂ with hnil | ⟨l₃, e, rfl⟩
    · exact hnil
    · have he : ("c", "carol") = e := by
        have hgetLast := congrArg List.getLast? hl
        simpa [List.getLast?_append, List.getLast?_cons] using hgetLast
      exact absurd rfl (he ▸ hl₂ e (by simp))
  simp [hlast]

/-- **The name of the other partner**: the profile of `b` is changed later, and
the row of `c` shows the new name of `b`. -/
theorem laterProfile_shown : ∃ c,
    run (step fun _ => "") fresh (twoPartners ++
      [.value 0 (recordOf "bob"), .value 1 (recordOf "carol"), .value 0 (recordOf "bobby")]) =
        some c ∧
    c.observed.getLast? = some "c" ∧ c.textLabel = some "bobby" ∧
      ¬ ShowsPartner (fun _ => "") (twoPartners ++
        [.value 0 (recordOf "bob"), .value 1 (recordOf "carol"), .value 0 (recordOf "bobby")])
        c := by
  refine ⟨_, rfl, rfl, rfl, fun hshows => ?_⟩
  have hname := hshows "c" rfl "carol" rfl
  exact absurd hname (by decide)

end UserCell

end AppChat
