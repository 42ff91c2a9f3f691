import ImapMessage.BodyStructure
import ImapMessage.Calendar
import ImapMessage.Charset
import ImapMessage.Charset.SingleByte
import ImapMessage.Config
import ImapMessage.Datum
import ImapMessage.Display
import ImapMessage.EncodedWord
import ImapMessage.Entity
import ImapMessage.Entity.HeaderBlock
import ImapMessage.Entity.Line
import ImapMessage.Entity.Multipart
import ImapMessage.Entity.Parse
import ImapMessage.Envelope
import ImapMessage.Error
import ImapMessage.Field.Address
import ImapMessage.Field.Comment
import ImapMessage.Field.ContentType
import ImapMessage.Field.DateTime
import ImapMessage.Field.Reader
import ImapMessage.Field.Word
import ImapMessage.Flag
import ImapMessage.Flag.Store
import ImapMessage.Header
import ImapMessage.MailboxName
import ImapMessage.Search.Criteria
import ImapMessage.Search.Data
import ImapMessage.Search.Evaluate
import ImapMessage.Search.Kleene
import ImapMessage.Search.Pattern
import ImapMessage.Section
import ImapMessage.Text.Base64
import ImapMessage.Text.Blank
import ImapMessage.Text.Bytes
import ImapMessage.Text.CaseFold
import ImapMessage.Text.Quoted
import ImapMessage.Text.Utf16
import ImapMessage.Text.Utf8
import ImapMessage.Text.Visible
import ImapMessage.TextBody
import ImapMessage.Toml.Document
import ImapMessage.Toml.Number
import ImapMessage.Toml.Scan
import ImapMessage.Toml.Value
import ImapMessage.Transfer
import ImapMessage.Proofs.Text.Ascii
import ImapMessage.Proofs.MailboxName.Canonical
import ImapMessage.Proofs.Text.Utf8Canonical
import ImapMessage.Proofs.Text.Infix
import ImapMessage.Proofs.Text.Words
import ImapMessage.Proofs.Text.Interleaving
import ImapMessage.Proofs.Search.Knowledge
import ImapMessage.Proofs.Entity.Lines
import ImapMessage.Proofs.Entity.Folding
import ImapMessage.Proofs.Entity.Unlimited
import ImapMessage.Proofs.Search.Loading
import ImapMessage.Proofs.Search.Spacing
import ImapMessage.Proofs.Search.Substring
import ImapMessage.Proofs.Search.HeaderText
import ImapMessage.Proofs.Field.Quoted
import ImapMessage.Proofs.Entity.Delimited
import ImapMessage.Proofs.Entity.Pruning
import ImapMessage.Proofs.Entity.HeaderRoundTrip
import ImapMessage.Proofs.Entity.Boundary
import ImapMessage.Proofs.BodyStructure.Paths
import ImapMessage.Proofs.Entity.RenderedTree
import ImapMessage.Proofs.Transfer.Truncation
import ImapMessage.Proofs.Transfer.Written
import ImapMessage.Proofs.EncodedWord.Written
import ImapMessage.Proofs.Entity.Division
import ImapMessage.Proofs.TextBody.Limit
import ImapMessage.Proofs.Field.Gaps
import ImapMessage.Proofs.Field.Tokens
import ImapMessage.Proofs.Field.AddressList
import ImapMessage.Proofs.Field.Dates
import ImapMessage.Proofs.Field.Zones
import ImapMessage.Proofs.Flag.Runs
import ImapMessage.Proofs.Flag.Interleaving
import ImapMessage.Proofs.Field.Parameters
import ImapMessage.Proofs.Field.LineBreaks
import ImapMessage.Proofs.Entity.LineEndings
import ImapMessage.Proofs.Search.ExactAddress
import ImapMessage.Proofs.Search.Meaning
import ImapMessage.Proofs.Search.TextLeaves
import ImapMessage.Proofs.Search.Separators
import ImapMessage.Proofs.Search.Budget
import ImapMessage.Proofs.Search.Laws
import ImapMessage.Proofs.EncodedWord.Runs
import ImapMessage.Proofs.Field.Domains
import ImapMessage.Proofs.Search.EnvelopeText
import ImapMessage.Proofs.Search.ReadLimit
import ImapMessage.Proofs.Section.Ranges
import ImapMessage.Proofs.Section.HeaderFields
import ImapMessage.Proofs.Section.Names
import ImapMessage.Proofs.Search.Narrower
import ImapMessage.Proofs.MailboxName.Faults
import ImapMessage.Proofs.MailboxName.Levels
import ImapMessage.Proofs.TextBody.Undeclared
import ImapMessage.Proofs.Display.Phrases
import ImapMessage.Proofs.Display.Refolding
import ImapMessage.Proofs.Flag.WireForm
import ImapMessage.Proofs.Field.CommentRules
import ImapMessage.Proofs.Field.Nesting
