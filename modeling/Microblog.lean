import Microblog.Main
import Microblog.Wire.Registers
import Microblog.Wire.Sink
import Microblog.Wire.Cursor
import Microblog.Handlers
import Microblog.Proofs.Execution
import Microblog.Proofs.Members
import Microblog.Proofs.Runs
import Microblog.Proofs.Sessions
import Microblog.Proofs.FollowGraph
import Microblog.Proofs.Blocks
import Microblog.Proofs.Channels
import Microblog.Proofs.Mailboxes
import Microblog.Proofs.Delivery
import Microblog.Proofs.Addressees
import Microblog.Proofs.Registers
import Microblog.Proofs.WholeBuffer
import Microblog.Proofs.NulFree
import Microblog.Proofs.BirthDates
import Microblog.Proofs.CommandStream
import Microblog.Proofs.ReplyStream
import Microblog.Proofs.Legibility
import Microblog.Proofs.Transcripts
import Microblog.Proofs.Handlers
import Microblog.Proofs.Rejections
import Microblog.Proofs.Drains
import Microblog.Proofs.Intake
import Microblog.Proofs.Capacity
import Microblog.Proofs.Authentication
import Microblog.Proofs.Veils
import Microblog.Proofs.Privacy
import Microblog.Proofs.Readers
import Microblog.Proofs.Interruptions
import Microblog.Proofs.LoginFrames
import Microblog.Proofs.CommandLines
import Microblog.Proofs.Answers
import Microblog.Proofs.ReplyRoundTrip
import Microblog.Proofs.ChannelHistory
import Microblog.Proofs.Confinement
import Microblog.Proofs.Registration
import Microblog.Proofs.Dispatch
import Microblog.Proofs.Audience
import Microblog.Proofs.Unfolding
import Microblog.Proofs.PrivateMessages
import Microblog.Proofs.Undoing
import Microblog.Proofs.Enquiries
import Microblog.Proofs.Statistics
import Microblog.Proofs.Verdicts
import Microblog.Proofs.Redaction
import Microblog.Proofs.Partings
import Microblog.Proofs.Rewriting
import Microblog.Proofs.Slices
import Microblog.Proofs.Blanks
import Microblog.Proofs.TypedLines
import Microblog.Proofs.Unstarted
import Microblog.Proofs.Ages
import Microblog.Proofs.Settling
import Microblog.Proofs.DateFields
