import ImapReply.Document
import ImapReply.Session
import ImapReply.Proofs.Spelling
import ImapReply.Proofs.StackMachine
import ImapReply.Proofs.Written
import ImapReply.Proofs.RoundTrip
import ImapReply.Proofs.Layout
import ImapReply.Proofs.Verbatim
import ImapReply.Proofs.Expansion
import ImapReply.Proofs.Diagnosis
import ImapReply.Proofs.Displacement
import ImapReply.Proofs.Continuation
import ImapReply.Proofs.Composition
import ImapReply.Proofs.Enclosure
import ImapReply.Proofs.Nestings
import ImapReply.Proofs.Resources
import ImapReply.Proofs.DepthLimit
import ImapReply.Proofs.Weight
import ImapReply.Proofs.Exchange
import ImapReply.Proofs.Kept
import ImapReply.Proofs.Payload
import ImapReply.Proofs.Regular
import ImapReply.Proofs.Severance
import ImapReply.Proofs.Finality
import ImapReply.Proofs.CheckedLine
import ImapReply.Proofs.HeaderForm
import ImapReply.Proofs.QuotedText
import ImapReply.Proofs.FlatLines
import ImapReply.Proofs.Progress
import ImapReply.Proofs.ClosingQuote
import ImapReply.Proofs.Conservation
