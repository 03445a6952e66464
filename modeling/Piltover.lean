import Piltover.Gateway.UpdSeq
import Piltover.Gateway.SendLoop
import Piltover.Stars.Redemption
import Piltover.Entities.Automatic
import Piltover.Updates.ChannelDifference
import Piltover.Updates.Merging
import Piltover.Updates.DifferenceRace
import Piltover.Updates.PtsChain
import Piltover.Channels.DiscussionLinks
import Piltover.MessageBroker.MirrorRuns
import Piltover.Messages.Affected
import Piltover.History.ScheduledPrivacy
import Piltover.History.Access
import Piltover.Chats.CopiedHistory
import Piltover.Members.Entrance
import Piltover.Forwarding.Retries
import Piltover.Channels.Slowmode
import Piltover.Secret.Handshake
import Piltover.Passwords.CheckPassword
import Piltover.Keygen.Handshakes
import Piltover.History.Clearing
import Piltover.Worker.Authorization
import Piltover.Auth.SignInLimit
import Piltover.Forums.Threads
import Piltover.Auth.RedeemedOnce
import Piltover.Peers.Exact
import Piltover.Contents.References
import Piltover.Mentions.Addressed
import Piltover.Forwarding.HeadersAlike
import Piltover.Polls.Outcome
import Piltover.Polls.Creation
import Piltover.Stickers.Consistency
import Piltover.Stickers.Animations
import Piltover.GroupCalls.Identified
import Piltover.GroupCalls.Discarded
import Piltover.Dialogs.OrderKept
import Piltover.Dialogs.Saved
import Piltover.Stars.BotInvoice
import Piltover.Gateway.MessageIds
import Piltover.Gateway.Resend
import Piltover.Gateway.Completions
import Piltover.Tl.Lengths
import Piltover.Formatting.InPlace
import Piltover.Reactions.Limits
import Piltover.BotApi.MarkdownOffsets
import Piltover.Hashes.Telegram
import Piltover.Stars.Transactions
import Piltover.Templates.Formatting
import Piltover.History.Positions
import Piltover.History.Counts
import Piltover.History.ReadDates
import Piltover.Messages.ReadMarkers
import Piltover.Chats.Shown
import Piltover.BotApi.Polling
import Piltover.PhoneCalls.Calls
import Piltover.Files.Uploads
import Piltover.Members.InviteLinks
import Piltover.Updates.Writers
