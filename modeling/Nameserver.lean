import Nameserver.CommandLine
import Nameserver.Configuration
import Nameserver.Failure
import Nameserver.Forwarding.Exchange
import Nameserver.Forwarding.Pool
import Nameserver.Forwarding.Ticket
import Nameserver.Json.Basic
import Nameserver.Json.Decode
import Nameserver.Json.Printer
import Nameserver.Json.Reader
import Nameserver.Json.Token
import Nameserver.Main
import Nameserver.Message.Basic
import Nameserver.Message.Header
import Nameserver.Message.Question
import Nameserver.Message.Reader
import Nameserver.Message.Record
import Nameserver.Message.Request
import Nameserver.Message.Response
import Nameserver.Name
import Nameserver.Net.Address
import Nameserver.Net.Network
import Nameserver.Net.Reader
import Nameserver.Proofs.Forwarding.Belonging
import Nameserver.Proofs.Forwarding.Dispositions
import Nameserver.Proofs.Forwarding.Matching
import Nameserver.Proofs.Forwarding.OneReply
import Nameserver.Proofs.Forwarding.Recognition
import Nameserver.Proofs.Forwarding.Relays
import Nameserver.Proofs.Forwarding.ReplySize
import Nameserver.Proofs.Forwarding.Standing
import Nameserver.Proofs.Json.Printing
import Nameserver.Proofs.Message.Cursor
import Nameserver.Proofs.Message.Data
import Nameserver.Proofs.Message.Dotted
import Nameserver.Proofs.Message.Entries
import Nameserver.Proofs.Message.Faults
import Nameserver.Proofs.Message.Grammar
import Nameserver.Proofs.Message.Headers
import Nameserver.Proofs.Message.Journal
import Nameserver.Proofs.Message.Measures
import Nameserver.Proofs.Message.Names
import Nameserver.Proofs.Message.Positions
import Nameserver.Proofs.Message.ReadBack
import Nameserver.Proofs.Message.Reading
import Nameserver.Proofs.Message.RoundTrip
import Nameserver.Proofs.Message.Transcript
import Nameserver.Proofs.Registry.Expiry
import Nameserver.Proofs.Registry.Postings
import Nameserver.Proofs.Resolution.Answers
import Nameserver.Proofs.Resolution.Challenges
import Nameserver.Proofs.Resolution.Coherence
import Nameserver.Proofs.Resolution.Dependence
import Nameserver.Proofs.Resolution.Extension
import Nameserver.Proofs.Resolution.Filling
import Nameserver.Proofs.Resolution.Layout
import Nameserver.Proofs.Resolution.MailKeys
import Nameserver.Proofs.Resolution.Reference
import Nameserver.Proofs.Resolution.Replies
import Nameserver.Proofs.Resolution.Rotation
import Nameserver.Proofs.Resolution.Sizes
import Nameserver.Proofs.Resolution.Spelling
import Nameserver.Proofs.Resolution.Walk
import Nameserver.Proofs.Session.Acknowledging
import Nameserver.Proofs.Session.Framing
import Nameserver.Proofs.Session.Grants
import Nameserver.Proofs.Session.Holdings
import Nameserver.Proofs.Session.Influence
import Nameserver.Proofs.Session.Refusals
import Nameserver.Proofs.Session.Shown
import Nameserver.Proofs.Session.Turns
import Nameserver.Proofs.Session.Values
import Nameserver.Proofs.Text.Base64
import Nameserver.Proofs.Text.Parts
import Nameserver.Proofs.Text.Utf8
import Nameserver.Proofs.Text.WellFormed
import Nameserver.Proofs.Zone.Entries
import Nameserver.Proofs.Zone.Finding
import Nameserver.Proofs.Zone.Names
import Nameserver.Proofs.Zone.Store
import Nameserver.Proofs.Zone.Vetting
import Nameserver.Registry.Challenge
import Nameserver.Registry.MailKey
import Nameserver.Resolution
import Nameserver.Server
import Nameserver.Service
import Nameserver.Session.Challenge
import Nameserver.Session.Client
import Nameserver.Session.Connection
import Nameserver.Session.Frame
import Nameserver.Session.MailKey
import Nameserver.Session.Message
import Nameserver.Status
import Nameserver.Table
import Nameserver.Text.Base64
import Nameserver.Text.Basic
import Nameserver.Text.Utf8
import Nameserver.Zone.Basic
import Nameserver.Zone.Config
import Nameserver.Zone.Store
