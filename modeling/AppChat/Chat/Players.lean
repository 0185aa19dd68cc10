import AppChat.Library.Transition
import AppChat.Chat.CellCollection

/-!
The video players of a bubble.

Each tap on the play button that starts a video creates a player and a layer, and
the bubble keeps a reference to the last of each. A layer that is still in the
bubble view keeps its player alive, whether or not the bubble refers to it.

* `VideoBubble`, `next`: a bubble with every player and layer it has created.
* `playEvents`: the taps that start a video, and the reuses between them.
* `linked_after`: a player plays exactly while its layer is attached, and the
  bubble refers to the last of each. `counted_after`: the bubble of
  `CellCollection` counts the players that play.
* `onePlayer_iff`: there is at most one player and one layer at any time, and none
  after a reuse, exactly when the bubble is reused between any two taps that
  start a video.
-/

namespace AppChat

open Transition

/-- An `AVPlayerLayer`: its player, and whether it is a layer of the bubble view. -/
structure AVPlayerLayer where
  player : ℕ
  attached : Bool
  deriving DecidableEq, Repr

/-- A bubble with the players and the layers it has created, each told by its
place in the list. A player is `true` from `play` until it is paused. -/
structure VideoBubble where
  cell : CellCollection
  players : List Bool
  layers : List AVPlayerLayer
  player : Option ℕ
  playLayer : Option ℕ
  deriving DecidableEq, Repr

/-- What may happen to a bubble. -/
inductive BubbleAction where
  | cellForItemAt (currentUser : Option String) (mess : Mess)
  | handlePlayVideo
  | prepareForReuse
  deriving DecidableEq, Repr

/-- A tap that starts a video, and a reuse. -/
inductive PlayEvent where
  | played
  | reused
  deriving DecidableEq, Repr

namespace VideoBubble

def fresh : VideoBubble := ⟨.fresh, [], [], none, none⟩

variable (estimateWidth : String → ℚ) (isURL : String → Bool)

/-- The guard of `handle_play_video`: there is a message, and its video has a URL. -/
def StartsVideo (b : VideoBubble) : Prop := ∃ mess ∈ b.cell.mess, isURL mess.videoUrl = true

instance (b : VideoBubble) : Decidable (b.StartsVideo isURL) :=
  inferInstanceAs (Decidable (∃ mess ∈ b.cell.mess, isURL mess.videoUrl = true))

/-- `handle_play_video`: a new player, and a new layer with it. -/
def handlePlayVideo (b : VideoBubble) : VideoBubble :=
  if b.StartsVideo isURL then
    { cell := b.cell.handlePlayVideo isURL
      players := b.players ++ [true]
      layers := b.layers ++ [⟨b.players.length, true⟩]
      player := some b.players.length
      playLayer := some b.layers.length }
  else b

/-- `prepareForReuse`: the layer and the player that the bubble refers to. -/
def prepareForReuse (b : VideoBubble) : VideoBubble :=
  { b with
    cell := b.cell.prepareForReuse
    layers := b.playLayer.elim b.layers fun j =>
      b.layers.modify j fun l => { l with attached := false }
    players := b.player.elim b.players fun k => b.players.set k false }

def next (b : VideoBubble) : BubbleAction → VideoBubble
  | .cellForItemAt currentUser mess =>
      { b with cell := b.cell.cellForItemAt estimateWidth currentUser mess }
  | .handlePlayVideo => b.handlePlayVideo isURL
  | .prepareForReuse => b.prepareForReuse

/-- The bubble after the actions `as`. -/
def after (as : List BubbleAction) : VideoBubble := as.foldl (next estimateWidth isURL) fresh

/-- The event of an action. -/
def playEvent (b : VideoBubble) : BubbleAction → Option PlayEvent
  | .cellForItemAt .. => none
  | .handlePlayVideo => if b.StartsVideo isURL then some .played else none
  | .prepareForReuse => some .reused

/-- The taps that start a video and the reuses, in order. -/
def playEvents (as : List BubbleAction) : List PlayEvent :=
  trace (fun b a => some (next estimateWidth isURL b a)) (playEvent isURL) fresh as

/-- The player `k` plays. -/
def Playing (b : VideoBubble) (k : ℕ) : Prop := b.players[k]? = some true

/-- The layer `j` is attached to the bubble view. -/
def Attached (b : VideoBubble) (j : ℕ) : Prop := ∃ l, b.layers[j]? = some l ∧ l.attached = true

/-- At most one player plays, and at most one layer is attached. -/
structure AtMostOne (b : VideoBubble) : Prop where
  playing : ∀ k k', b.Playing k → b.Playing k' → k = k'
  attached : ∀ j j', b.Attached j → b.Attached j' → j = j'

/-- No player plays, and no layer is attached. -/
structure Stopped (b : VideoBubble) : Prop where
  playing : ∀ k, ¬ b.Playing k
  attached : ∀ j, ¬ b.Attached j

/-- No video goes on in a reused bubble: at any time there is at most one player
and one layer, and right after a reuse there is none. -/
structure OnePlayer (as : List BubbleAction) : Prop where
  atMostOne : ∀ bs, bs <+: as → (after estimateWidth isURL bs).AtMostOne
  stopped : ∀ bs, bs ++ [.prepareForReuse] <+: as →
    (after estimateWidth isURL (bs ++ [.prepareForReuse])).Stopped

/-- Between two taps that start a video the bubble is reused. -/
def ReusedBetween (as : List BubbleAction) : Prop :=
  (playEvents estimateWidth isURL as).IsChain fun e e' => e = .reused ∨ e' = .reused

/-! ### Players and layers -/

variable {estimateWidth isURL} {b : VideoBubble} {as : List BubbleAction} {a : BubbleAction}

lemma after_concat : after estimateWidth isURL (as ++ [a]) =
    (after estimateWidth isURL as).next estimateWidth isURL a := by
  simp [after]

lemma playEvents_concat : playEvents estimateWidth isURL (as ++ [a]) =
    playEvents estimateWidth isURL as ++
      ((after estimateWidth isURL as).playEvent isURL a).toList :=
  trace_concat (run_total _ _ _)

/-- The place of the last element. -/
def lastPlace (b : VideoBubble) : Option ℕ :=
  if b.players = [] then none else some (b.players.length - 1)

/-- Each layer is that of the player in its place, attached while the player plays,
and the bubble refers to the last of each. -/
structure Linked (b : VideoBubble) : Prop where
  layers : b.layers = b.players.mapIdx fun k playing => ⟨k, playing⟩
  player : b.player = b.lastPlace
  playLayer : b.playLayer = b.lastPlace

/-- A step, for the players: a tap that starts a video adds one that plays, and a
reuse stops the last one. -/
lemma Linked.players_next (hb : b.Linked) (a : BubbleAction) :
    (b.next estimateWidth isURL a).players =
      match b.playEvent isURL a with
      | some .played => b.players ++ [true]
      | some .reused => b.players.set (b.players.length - 1) false
      | none => b.players := by
  cases a with
  | cellForItemAt currentUser mess => rfl
  | handlePlayVideo =>
      by_cases hstart : b.StartsVideo isURL <;> simp [next, handlePlayVideo, playEvent, hstart]
  | prepareForReuse =>
      by_cases hnil : b.players = [] <;>
        simp [next, prepareForReuse, playEvent, hb.player, lastPlace, hnil]

/-- **Every step keeps players and layers linked.** -/
lemma Linked.next (hb : b.Linked) (a : BubbleAction) :
    (b.next estimateWidth isURL a).Linked := by
  cases a with
  | cellForItemAt currentUser mess => exact ⟨hb.layers, hb.player, hb.playLayer⟩
  | handlePlayVideo =>
      by_cases hstart : b.StartsVideo isURL
      · refine ⟨?_, ?_, ?_⟩ <;>
          simp [VideoBubble.next, handlePlayVideo, hstart, hb.layers, lastPlace, List.mapIdx_append]
      · rw [VideoBubble.next, handlePlayVideo, if_neg hstart]
        exact hb
  | prepareForReuse =>
      by_cases hnil : b.players = []
      · refine ⟨?_, ?_, ?_⟩ <;>
          simp [VideoBubble.next, prepareForReuse, hb.layers, hb.player, hb.playLayer, lastPlace,
            hnil]
      · have hplace : b.lastPlace = some (b.players.length - 1) := if_neg hnil
        refine ⟨?_, ?_, ?_⟩
        · simp only [VideoBubble.next, prepareForReuse, hb.layers, hb.player, hb.playLayer, hplace,
            Option.elim_some]
          refine List.ext_getElem? fun k => ?_
          rw [List.getElem?_modify, List.getElem?_mapIdx, List.getElem?_mapIdx, List.getElem?_set]
          by_cases hk : b.players.length - 1 = k
          · subst hk
            have hlt : b.players.length - 1 < b.players.length :=
              Nat.sub_one_lt_of_lt (List.length_pos_iff.mpr hnil)
            simp [List.getElem?_eq_getElem hlt, hnil]
          · simp [hk]
        · simp [VideoBubble.next, prepareForReuse, hb.player, lastPlace, hnil]
        · simp [VideoBubble.next, prepareForReuse, hb.player, hb.playLayer, lastPlace, hnil]

/-- The players and the layers of a bubble are linked, whatever is done to it. -/
lemma linked_after (as : List BubbleAction) : (after estimateWidth isURL as).Linked := by
  induction as using List.reverseRecOn with
  | nil => exact ⟨rfl, rfl, rfl⟩
  | append_singleton as a ih =>
      rw [after_concat]
      exact ih.next a

/-- A layer is attached while its player plays. -/
lemma Linked.attached_iff (hb : b.Linked) {k : ℕ} : b.Attached k ↔ b.Playing k := by
  simp only [Attached, Playing, hb.layers, List.getElem?_mapIdx, Option.map_eq_some_iff]
  constructor
  · rintro ⟨l, ⟨playing, hk, rfl⟩, hplaying⟩
    obtain rfl : playing = true := hplaying
    exact hk
  · exact fun hk => ⟨_, ⟨true, hk, rfl⟩, rfl⟩

/-- Where at most one player plays, at most one layer is attached. -/
lemma Linked.atMostOne_iff (hb : b.Linked) :
    b.AtMostOne ↔ ∀ k k', b.Playing k → b.Playing k' → k = k' := by
  constructor
  · exact fun h => h.playing
  · exact fun h => ⟨h, fun j j' hj hj' => h j j' (hb.attached_iff.mp hj) (hb.attached_iff.mp hj')⟩

/-- Where no player plays, no layer is attached. -/
lemma Linked.stopped_iff (hb : b.Linked) : b.Stopped ↔ ∀ k, ¬ b.Playing k := by
  constructor
  · exact fun h => h.playing
  · exact fun h => ⟨h, fun j hj => h j (hb.attached_iff.mp hj)⟩

/-! ### One video at a time -/

/-- A player is made by a tap that starts a video. -/
lemma length_players (as : List BubbleAction) :
    (after estimateWidth isURL as).players.length =
      (playEvents estimateWidth isURL as).count .played := by
  induction as using List.reverseRecOn with
  | nil => rfl
  | append_singleton as a ih =>
      rw [playEvents_concat, after_concat, (linked_after as).players_next a, List.count_append,
        ← ih]
      cases (after estimateWidth isURL as).playEvent isURL a with
      | none => simp
      | some e => cases e <;> simp

/-- A prefix of a run has a reuse between its videos. -/
lemma ReusedBetween.of_prefix {bs : List BubbleAction} (h : ReusedBetween estimateWidth isURL as)
    (hbs : bs <+: as) : ReusedBetween estimateWidth isURL bs := by
  obtain ⟨cs, rfl⟩ := hbs
  rw [ReusedBetween, playEvents, trace_append cs (run_total _ _ _)] at h
  exact h.left_of_append

/-- After a run whose videos have a reuse between them, a player plays only if it
is the last one, and no reuse has followed its tap. -/
lemma playing_iff (h : ReusedBetween estimateWidth isURL as) {k : ℕ} :
    (after estimateWidth isURL as).Playing k ↔
      (playEvents estimateWidth isURL as).getLast? = some .played ∧
        k + 1 = (after estimateWidth isURL as).players.length := by
  induction as using List.reverseRecOn generalizing k with
  | nil => simp [Playing, after, fresh, playEvents, trace]
  | append_singleton as a ih =>
      rw [ReusedBetween, playEvents_concat, List.isChain_append] at h
      obtain ⟨has, -, hlast⟩ := h
      rw [Playing, playEvents_concat, after_concat, (linked_after as).players_next a]
      have hold : ∀ k, (after estimateWidth isURL as).players[k]? = some true ↔ _ :=
        fun k => ih has (k := k)
      cases hev : (after estimateWidth isURL as).playEvent isURL a with
      | none => simpa using hold k
      | some e =>
          cases e with
          | played =>
              -- the players before have been stopped by a reuse
              have hstopped : (after estimateWidth isURL as).players[k]? ≠ some true := by
                intro hk
                have hreuse := hlast .played ((hold k).mp hk).1 .played (by simp [hev])
                simp at hreuse
              rcases lt_trichotomy k (after estimateWidth isURL as).players.length with
                hlt | rfl | hgt
              · rw [List.getElem?_append_left hlt]
                simpa [hstopped] using hlt.ne
              · simp
              · rw [List.getElem?_eq_none (by simpa using hgt)]
                simpa using hgt.ne'
          | reused =>
              have hstopped : ((after estimateWidth isURL as).players.set
                  ((after estimateWidth isURL as).players.length - 1) false)[k]? ≠ some true := by
                rw [List.getElem?_set]
                split_ifs with hk hlt
                · simp
                · simp
                · intro hplays
                  have hlength := ((hold k).mp hplays).2
                  omega
              simpa using hstopped

/-- A tap that starts a video right after another one: both players play. -/
lemma not_atMostOne_of_played {a : BubbleAction} (h : ReusedBetween estimateWidth isURL as)
    (hlast : (playEvents estimateWidth isURL as).getLast? = some .played)
    (hev : (after estimateWidth isURL as).playEvent isURL a = some .played) :
    ¬ (after estimateWidth isURL (as ++ [a])).AtMostOne := by
  intro hone
  have hpos : 0 < (after estimateWidth isURL as).players.length := by
    rw [length_players]
    exact List.count_pos_iff.mpr (List.mem_of_getLast? hlast)
  have hplayers : (after estimateWidth isURL (as ++ [a])).players =
      (after estimateWidth isURL as).players ++ [true] := by
    rw [after_concat, (linked_after as).players_next a, hev]
  -- the player of the last tap, and the one of this tap
  have hplays : (after estimateWidth isURL as).Playing
      ((after estimateWidth isURL as).players.length - 1) :=
    (playing_iff h).mpr ⟨hlast, Nat.sub_add_cancel hpos⟩
  have hold : (after estimateWidth isURL (as ++ [a])).Playing
      ((after estimateWidth isURL as).players.length - 1) := by
    rw [Playing, hplayers, List.getElem?_append_left (Nat.sub_one_lt_of_lt hpos)]
    exact hplays
  have hnew : (after estimateWidth isURL (as ++ [a])).Playing
      (after estimateWidth isURL as).players.length := by
    rw [Playing, hplayers, List.getElem?_concat_length]
  have hsame := hone.playing _ _ hold hnew
  omega

/-- A prefix of a run has one player when the run has. -/
lemma OnePlayer.of_prefix {bs : List BubbleAction} (h : OnePlayer estimateWidth isURL as)
    (hbs : bs <+: as) : OnePlayer estimateWidth isURL bs :=
  ⟨fun cs hcs => h.atMostOne cs (hcs.trans hbs), fun cs hcs => h.stopped cs (hcs.trans hbs)⟩

/-- **When no video goes on in a reused bubble**: for every sequence of
configurations, taps and reuses, if and only if between any two taps that start a
video the bubble is reused. -/
theorem onePlayer_iff (as : List BubbleAction) :
    OnePlayer estimateWidth isURL as ↔ ReusedBetween estimateWidth isURL as := by
  constructor
  · intro hone
    induction as using List.reverseRecOn with
    | nil => exact .nil
    | append_singleton as a ih =>
        have has : ReusedBetween estimateWidth isURL as :=
          ih (hone.of_prefix (List.prefix_append _ _))
        rw [ReusedBetween, playEvents_concat, List.isChain_append]
        refine ⟨has, by cases (after estimateWidth isURL as).playEvent isURL a <;> simp, ?_⟩
        intro e he e' he'
        by_contra hplayed
        obtain ⟨rfl, rfl⟩ : e = .played ∧ e' = .played := by
          cases e <;> cases e' <;> simp at hplayed ⊢
        have hev : (after estimateWidth isURL as).playEvent isURL a = some .played := by
          simpa using he'
        exact not_atMostOne_of_played has he hev (hone.atMostOne _ List.prefix_rfl)
  · intro hbetween
    refine ⟨fun bs hbs => (linked_after bs).atMostOne_iff.mpr fun k k' hk hk' => ?_,
      fun bs hbs => (linked_after _).stopped_iff.mpr fun k hk => ?_⟩
    · have hlast := ((playing_iff (hbetween.of_prefix hbs)).mp hk).2
      have hlast' := ((playing_iff (hbetween.of_prefix hbs)).mp hk').2
      omega
    · have hplayed := ((playing_iff (hbetween.of_prefix hbs)).mp hk).1
      simp [playEvents_concat, playEvent] at hplayed

/-- A bubble is configured with a video. -/
def video : BubbleAction := .cellForItemAt (some "a") ⟨"a", "b", 1, "", "thumnail", "movie"⟩

/-- **Two players at once**: the play button is tapped twice, and when the bubble
is reused, the first player plays on, in a layer that is still attached. -/
theorem twoTaps_play_on :
    ¬ OnePlayer (fun _ => 0) (fun _ => true)
        [video, .handlePlayVideo, .handlePlayVideo, .prepareForReuse] ∧
      (after (fun _ => 0) (fun _ => true)
        [video, .handlePlayVideo, .handlePlayVideo, .prepareForReuse]).Playing 0 ∧
      (after (fun _ => 0) (fun _ => true)
        [video, .handlePlayVideo, .handlePlayVideo, .prepareForReuse]).Attached 0 := by
  have hplays : (after (fun _ => 0) (fun _ => true)
      [video, .handlePlayVideo, .handlePlayVideo, .prepareForReuse]).Playing 0 := by
    unfold Playing
    decide +kernel
  refine ⟨fun hone => ?_, hplays, (linked_after _).attached_iff.mpr hplays⟩
  exact (hone.stopped [video, .handlePlayVideo, .handlePlayVideo] List.prefix_rfl).playing 0 hplays

/-! ### The counts of the bubble -/

/-- The bubble of `CellCollection` goes along with every action. -/
lemma cell_next (b : VideoBubble) (a : BubbleAction) :
    (b.next estimateWidth isURL a).cell =
      match a with
      | .cellForItemAt currentUser mess =>
          b.cell.cellForItemAt estimateWidth currentUser mess
      | .handlePlayVideo => b.cell.handlePlayVideo isURL
      | .prepareForReuse => b.cell.prepareForReuse := by
  cases a with
  | cellForItemAt currentUser mess => rfl
  | handlePlayVideo =>
      by_cases hstart : b.StartsVideo isURL
      · simp [next, handlePlayVideo, hstart]
      · have hcell : b.cell.handlePlayVideo isURL = b.cell := by
          rw [CellCollection.handlePlayVideo]
          split
          · rfl
          · rename_i mess hmess
            exact if_neg fun hurl => hstart ⟨mess, hmess, hurl⟩
        simp [next, handlePlayVideo, hstart, hcell]
  | prepareForReuse => rfl

/-- The counts of the bubble of `CellCollection`: the players that play, which are
as many as the layers attached, and whether the last one does. -/
structure Counted (b : VideoBubble) : Prop where
  sublayers : b.cell.sublayers = b.players.count true
  playLayer : b.cell.playLayer = (b.players.getLast? == some true)
  playing : b.cell.playing = (b.players.getLast? == some true)

/-- A configuration leaves the video layers alone. -/
lemma cellForItemAt_layers (estimateWidth : String → ℚ) (c : CellCollection)
    (currentUser : Option String) (mess : Mess) :
    (c.cellForItemAt estimateWidth currentUser mess).sublayers = c.sublayers ∧
      (c.cellForItemAt estimateWidth currentUser mess).playLayer = c.playLayer ∧
      (c.cellForItemAt estimateWidth currentUser mess).playing = c.playing := by
  by_cases hown : some mess.fromID = currentUser <;> by_cases himage : mess.imageUrl = "" <;>
    by_cases htext : mess.mess = "" <;>
      simp [CellCollection.cellForItemAt, CellCollection.showText, CellCollection.showImage,
        CellCollection.showSide, hown, himage, htext]

/-- **Every step keeps the counts.** -/
lemma Counted.next (hb : b.Linked) (hc : b.Counted) (a : BubbleAction) :
    (b.next estimateWidth isURL a).Counted := by
  obtain ⟨hsub, hlayer, hplaying⟩ := hc
  cases a with
  | cellForItemAt currentUser mess =>
      obtain ⟨hsub', hlayer', hplaying'⟩ :=
        cellForItemAt_layers estimateWidth b.cell currentUser mess
      exact ⟨hsub'.trans hsub, hlayer'.trans hlayer, hplaying'.trans hplaying⟩
  | handlePlayVideo =>
      by_cases hstart : b.StartsVideo isURL
      · obtain ⟨mess, hmess, hurl⟩ := hstart
        have hstart : b.StartsVideo isURL := ⟨mess, hmess, hurl⟩
        have hcell : b.cell.mess = some mess := hmess
        refine ⟨?_, ?_, ?_⟩ <;>
          simp [VideoBubble.next, handlePlayVideo, hstart, CellCollection.handlePlayVideo, hcell,
            hurl, hsub]
      · rw [VideoBubble.next, handlePlayVideo, if_neg hstart]
        exact ⟨hsub, hlayer, hplaying⟩
  | prepareForReuse =>
      rcases List.eq_nil_or_concat b.players with hnil | ⟨l, playing, hl⟩
      · rw [hnil] at hsub hlayer hplaying
        refine ⟨?_, ?_, ?_⟩ <;>
          simp [VideoBubble.next, prepareForReuse, CellCollection.prepareForReuse, hb.player,
            lastPlace, hnil, hsub]
      · rw [List.concat_eq_append] at hl
        rw [hl] at hsub hlayer
        have hplayers : (b.next estimateWidth isURL .prepareForReuse).players = l ++ [false] := by
          simp [hb.players_next, playEvent, hl]
        refine ⟨?_, ?_, ?_⟩
        · rw [hplayers]
          cases playing <;>
            simp [VideoBubble.next, prepareForReuse, CellCollection.prepareForReuse, hlayer, hsub]
        · rw [hplayers]
          simp [VideoBubble.next, prepareForReuse, CellCollection.prepareForReuse]
        · rw [hplayers]
          simp [VideoBubble.next, prepareForReuse, CellCollection.prepareForReuse]

/-- **What the bubble of `CellCollection` counts**, whatever is done to it. -/
lemma counted_after (as : List BubbleAction) : (after estimateWidth isURL as).Counted := by
  induction as using List.reverseRecOn with
  | nil => exact ⟨rfl, rfl, rfl⟩
  | append_singleton as a ih =>
      rw [after_concat]
      exact ih.next (linked_after as) a

end VideoBubble

end AppChat
