import AppChat.Design.Mess

/-!
`cell_collection` and `chat_logmessage.cellForItemAt`: the bubbles of the chat
screen, which are reused from message to message.

* `CellCollection`: a bubble, with everything `cellForItemAt`, `handle_play_video`
  and `prepareForReuse` write; `fresh` is the bubble `init(frame:)` makes.
* `Display`: what of it is seen.
* `CellUse`, `shown`: a bubble after any number of uses, each a configuration
  with the videos played until the bubble is reused.

The size of a text in its font, and whether a text is a URL, are parameters.
-/

namespace AppChat

/-- A colour, by its components out of 255. -/
structure UIColor where
  r : ℕ
  g : ℕ
  b : ℕ
  deriving DecidableEq, Repr

namespace UIColor

def white : UIColor := ⟨255, 255, 255⟩
def black : UIColor := ⟨0, 0, 0⟩

end UIColor

/-- A bubble. `sublayers` counts the video layers of the bubble view, of which
`playLayer` says whether the last one is still there. -/
structure CellCollection where
  mess : Option Mess
  textviewText : String
  textviewTextColor : UIColor
  textviewIsHidden : Bool
  bubbleviewBackgroundColor : UIColor
  imageProfileIsHidden : Bool
  imageChatIsHidden : Bool
  playButtonIsHidden : Bool
  bubblewidth : ℚ
  bubleLeftIsActive : Bool
  bubleRightIsActive : Bool
  bubleRightConstant : ℚ
  sublayers : ℕ
  playLayer : Bool
  playing : Bool
  deriving DecidableEq, Repr

/-- What is seen of a bubble: the text and its colour, which views are hidden,
the width, the side and the colour of the bubble. -/
structure Display where
  text : String
  textColor : UIColor
  textviewIsHidden : Bool
  imageChatIsHidden : Bool
  imageProfileIsHidden : Bool
  playButtonIsHidden : Bool
  bubblewidth : ℚ
  bubleLeftIsActive : Bool
  bubleRightIsActive : Bool
  bubbleColor : UIColor
  deriving DecidableEq, Repr

/-- One use of a bubble: the signed-in user and the message it is configured
with, and how often its play button is tapped. -/
structure CellUse where
  currentUser : Option String
  mess : Mess
  plays : ℕ
  deriving DecidableEq, Repr

namespace CellCollection

def blueColor : UIColor := ⟨61, 91, 151⟩

/-- The bubble colour of the partner's messages. -/
def grayColor : UIColor := ⟨240, 240, 240⟩

/-- The bubble of `init(frame:)`. -/
def fresh : CellCollection where
  mess := none
  textviewText := ""
  textviewTextColor := .white
  textviewIsHidden := false
  bubbleviewBackgroundColor := blueColor
  imageProfileIsHidden := false
  imageChatIsHidden := false
  playButtonIsHidden := false
  bubblewidth := 200
  bubleLeftIsActive := false
  bubleRightIsActive := true
  bubleRightConstant := 0
  sublayers := 0
  playLayer := false
  playing := false

/-- What is seen of the bubble. -/
def display (c : CellCollection) : Display where
  text := c.textviewText
  textColor := c.textviewTextColor
  textviewIsHidden := c.textviewIsHidden
  imageChatIsHidden := c.imageChatIsHidden
  imageProfileIsHidden := c.imageProfileIsHidden
  playButtonIsHidden := c.playButtonIsHidden
  bubblewidth := c.bubblewidth
  bubleLeftIsActive := c.bubleLeftIsActive
  bubleRightIsActive := c.bubleRightIsActive
  bubbleColor := c.bubbleviewBackgroundColor

variable (estimateWidth : String → ℚ) (isURL : String → Bool)

/-- The branch of `cellForItemAt` for a text that is not empty. -/
def showText (c : CellCollection) (mess : Mess) : CellCollection :=
  if mess.mess ≠ "" then
    { c with
      bubblewidth := estimateWidth mess.mess + 20
      imageChatIsHidden := true
      textviewText := mess.mess }
  else c

/-- The branch for a message with an image. -/
def showImage (c : CellCollection) (mess : Mess) : CellCollection :=
  if mess.imageUrl ≠ "" then
    { c with
      imageChatIsHidden := false
      bubblewidth := 250
      textviewIsHidden := true }
  else c

/-- The two branches for an own message and for one of the partner. -/
def showSide (c : CellCollection) (currentUser : Option String) (mess : Mess) : CellCollection :=
  if some mess.fromID = currentUser then
    { c with
      bubbleviewBackgroundColor := blueColor
      imageProfileIsHidden := true
      bubleRightConstant := -8
      bubleRightIsActive := true
      bubleLeftIsActive := false }
  else
    { c with
      bubbleviewBackgroundColor := grayColor
      textviewTextColor := .black
      bubleRightIsActive := false
      bubleLeftIsActive := true
      imageProfileIsHidden := false }

/-- `cellForItemAt`, for the message of the row. -/
def cellForItemAt (c : CellCollection) (currentUser : Option String) (mess : Mess) :
    CellCollection :=
  let c₁ : CellCollection := { c with textviewText := mess.mess, mess := some mess }
  let c₂ := ((c₁.showText estimateWidth mess).showImage mess).showSide currentUser mess
  { c₂ with playButtonIsHidden := mess.videoUrl = "" }

/-- `sizeForItemAt`: the width of the screen, and the height of the text, or that
of an image. -/
def sizeForItemAt (viewWidth : ℚ) (estimateHeight : String → ℚ) (mess : Mess) : ℚ × ℚ :=
  let height := estimateHeight mess.mess + 20
  (viewWidth, if mess.imageUrl ≠ "" then 250 else height)

/-- `handle_play_video`, the action of the play button. -/
def handlePlayVideo (c : CellCollection) : CellCollection :=
  match c.mess with
  | none => c
  | some mess =>
      if isURL mess.videoUrl then
        { c with
          imageChatIsHidden := true
          sublayers := c.sublayers + 1
          playLayer := true
          playing := true }
      else c

/-- `prepareForReuse` takes the last video layer away, and stops its player. -/
def prepareForReuse (c : CellCollection) : CellCollection :=
  { c with
    sublayers := if c.playLayer then c.sublayers - 1 else c.sublayers
    playLayer := false
    playing := false }

/-- One use of a bubble, until it is reused. -/
def use (c : CellCollection) (u : CellUse) : CellCollection :=
  ((handlePlayVideo isURL)^[u.plays] (c.cellForItemAt estimateWidth u.currentUser
    u.mess)).prepareForReuse

/-- The bubble after the uses `h`. -/
def shown (h : List CellUse) : CellCollection := h.foldl (use estimateWidth isURL) fresh

end CellCollection

end AppChat
