import AppChat.Library.Transition
import AppChat.Library.EventLog
import AppChat.Design.Mess
import AppChat.Design.User
import AppChat.Chat.Send
import AppChat.System.World
import AppChat.System.Step
import AppChat.System.Effect
import AppChat.System.Ids
import AppChat.System.Commit
import AppChat.System.Index
import AppChat.System.Integrity
import AppChat.System.History
import AppChat.System.Delivery
import AppChat.System.Identity
import AppChat.System.Registration
import AppChat.Inbox.Latest
import AppChat.Inbox.Devices
import AppChat.Inbox.Deletion
import AppChat.Chat.ChatLog
import AppChat.Chat.OnceEach
import AppChat.Login.Navigation
import AppChat.Login.OneInbox
import AppChat.Login.Gate
import AppChat.Inbox.Rows
import AppChat.Chat.CellCollection
import AppChat.Chat.Chronology
import AppChat.Chat.Reuse
import AppChat.Inbox.PiledUp
import AppChat.Image.LastAsked
import AppChat.Image.TrueImages
import AppChat.Library.SlashPath
import AppChat.Chat.Storage
import AppChat.System.Pipeline
import AppChat.System.Media
import AppChat.System.TextField
import AppChat.Inbox.Displayed
import AppChat.Inbox.UserCell
import AppChat.Chat.Players
import AppChat.System.AsSent
import AppChat.System.Avatars
import AppChat.Library.Simulation
import AppChat.Library.Draining
import AppChat.Chat.Opened
import AppChat.System.Feed
import AppChat.System.Records
import AppChat.System.OwnWrites
import AppChat.System.Client
import AppChat.System.ViewChange
import AppChat.System.ChatScreen
import AppChat.System.Refinement
import AppChat.System.Conversation
import AppChat.System.UserRecords
import AppChat.System.UserView
import AppChat.System.UserList
import AppChat.System.LiveInbox
import AppChat.System.InboxRows
import AppChat.System.CatchUp
import AppChat.System.Arrival
import AppChat.Chat.Zoom
import AppChat.System.Newcomer
import AppChat.System.Owner
import AppChat.Library.Numeral
import AppChat.Keys.CompareKey
import AppChat.Keys.NextPushId
import AppChat.Keys.ChildByAutoId
import AppChat.Keys.KeyedWorld
