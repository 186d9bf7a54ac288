import ClassAtlas.Archive.Checksum
import ClassAtlas.Archive.Inflate
import ClassAtlas.Archive.PrefixCode
import ClassAtlas.Archive.Zip
import ClassAtlas.Bytes
import ClassAtlas.ClassFile.Access
import ClassAtlas.ClassFile.Basic
import ClassAtlas.ClassFile.Body
import ClassAtlas.ClassFile.Constant
import ClassAtlas.ClassFile.Decode
import ClassAtlas.ClassFile.Draft
import ClassAtlas.ClassFile.Edit
import ClassAtlas.ClassFile.Failure
import ClassAtlas.Command.Address
import ClassAtlas.Command.Duration
import ClassAtlas.Command.Flag
import ClassAtlas.Command.Line
import ClassAtlas.Command.Numeral
import ClassAtlas.Command.Options
import ClassAtlas.Command.Program
import ClassAtlas.Decimal.Ieee
import ClassAtlas.Decimal.Integer
import ClassAtlas.Decimal.Shortest
import ClassAtlas.Decimal.Spelling
import ClassAtlas.Descriptor
import ClassAtlas.Diff.Blocks
import ClassAtlas.Diff.Unified
import ClassAtlas.Digest
import ClassAtlas.Error
import ClassAtlas.Files
import ClassAtlas.Index.Bucket
import ClassAtlas.Index.Document
import ClassAtlas.Index.Image
import ClassAtlas.Index.Record
import ClassAtlas.Index.Store
import ClassAtlas.Json.Parser
import ClassAtlas.Json.Value
import ClassAtlas.Main
import ClassAtlas.Path
import ClassAtlas.Proofs.Archive.Entries
import ClassAtlas.Proofs.ClassFile.Accepts
import ClassAtlas.Proofs.ClassFile.Building
import ClassAtlas.Proofs.ClassFile.Contents
import ClassAtlas.Proofs.ClassFile.Decoding
import ClassAtlas.Proofs.ClassFile.Drafting
import ClassAtlas.Proofs.ClassFile.Faults
import ClassAtlas.Proofs.ClassFile.Layout
import ClassAtlas.Proofs.ClassFile.Outline
import ClassAtlas.Proofs.ClassFile.Reading
import ClassAtlas.Proofs.ClassFile.Slices
import ClassAtlas.Proofs.ClassFile.Truncation
import ClassAtlas.Proofs.Decimal.Numerals
import ClassAtlas.Proofs.Decimal.Rounding
import ClassAtlas.Proofs.Decimal.Shortest
import ClassAtlas.Proofs.Decimal.Texts
import ClassAtlas.Proofs.Descriptor
import ClassAtlas.Proofs.Descriptor.Field
import ClassAtlas.Proofs.Descriptor.Method
import ClassAtlas.Proofs.Diff.Blocks
import ClassAtlas.Proofs.Diff.Edits
import ClassAtlas.Proofs.Diff.Lines
import ClassAtlas.Proofs.Diff.Overlap
import ClassAtlas.Proofs.Diff.Patch
import ClassAtlas.Proofs.Diff.Unified
import ClassAtlas.Proofs.Diff.Written
import ClassAtlas.Proofs.Index.Consistency
import ClassAtlas.Proofs.Index.Damage
import ClassAtlas.Proofs.Index.Leftovers
import ClassAtlas.Proofs.Index.PostingLists
import ClassAtlas.Proofs.Index.Records
import ClassAtlas.Proofs.Index.Runs
import ClassAtlas.Proofs.Index.Terms
import ClassAtlas.Proofs.Index.Updates
import ClassAtlas.Proofs.Json.Layout
import ClassAtlas.Proofs.Json.Reading
import ClassAtlas.Proofs.Json.Strings
import ClassAtlas.Proofs.Path
import ClassAtlas.Proofs.Report
import ClassAtlas.Proofs.Scan.Calls
import ClassAtlas.Proofs.Scan.Crews
import ClassAtlas.Proofs.Scan.Findings
import ClassAtlas.Proofs.Scan.Jobs
import ClassAtlas.Proofs.Scan.Nesting
import ClassAtlas.Proofs.Scan.Orders
import ClassAtlas.Proofs.Scan.Totals
import ClassAtlas.Proofs.Success
import ClassAtlas.Proofs.Text.ByteOrder
import ClassAtlas.Proofs.Text.Bytewise
import ClassAtlas.Proofs.Text.CharSet
import ClassAtlas.Proofs.Text.Encoding
import ClassAtlas.Proofs.Text.Escaping
import ClassAtlas.Proofs.Text.ModifiedUtf8
import ClassAtlas.Proofs.Text.PlainText
import ClassAtlas.Proofs.Text.Raw
import ClassAtlas.Proofs.Text.Surrogates
import ClassAtlas.Proofs.Web.Addresses
import ClassAtlas.Proofs.Web.Escapes
import ClassAtlas.Proofs.Web.Links
import ClassAtlas.Proofs.Web.Paths
import ClassAtlas.Proofs.Web.Queries
import ClassAtlas.Proofs.Web.Redirection
import ClassAtlas.Proofs.Xref.Collection
import ClassAtlas.Proofs.Xref.Faults
import ClassAtlas.Proofs.Xref.Independence
import ClassAtlas.Proofs.Xref.Literals
import ClassAtlas.Proofs.Xref.Marking
import ClassAtlas.Proofs.Xref.Markup
import ClassAtlas.Proofs.Xref.PlainText
import ClassAtlas.Proofs.Xref.Receivers
import ClassAtlas.Proofs.Xref.Renderable
import ClassAtlas.Proofs.Xref.Resolution
import ClassAtlas.Proofs.Xref.Stages
import ClassAtlas.Proofs.Xref.Surfaced
import ClassAtlas.Proofs.Xref.Tokens
import ClassAtlas.Proofs.Xref.ValueTypes
import ClassAtlas.Proofs.Xref.Walk
import ClassAtlas.Proofs.Xref.WellFormed
import ClassAtlas.Report
import ClassAtlas.Scan.Cache
import ClassAtlas.Scan.Crew
import ClassAtlas.Scan.Event
import ClassAtlas.Scan.Job
import ClassAtlas.Scan.Scanner
import ClassAtlas.Scan.Stats
import ClassAtlas.Settings
import ClassAtlas.SettingsFile
import ClassAtlas.Spelling
import ClassAtlas.Text.Blank
import ClassAtlas.Text.CharSet
import ClassAtlas.Text.Digit
import ClassAtlas.Text.Entities
import ClassAtlas.Text.Letter
import ClassAtlas.Text.Markup
import ClassAtlas.Text.ModifiedUtf8
import ClassAtlas.Text.PlainText
import ClassAtlas.Text.Printable
import ClassAtlas.Text.Quoted
import ClassAtlas.Text.Raw
import ClassAtlas.Text.References
import ClassAtlas.Text.Script
import ClassAtlas.Text.Units
import ClassAtlas.Text.Utf8
import ClassAtlas.Web.Page
import ClassAtlas.Web.Percent
import ClassAtlas.Web.Query
import ClassAtlas.Web.Route
import ClassAtlas.Web.Server
import ClassAtlas.Web.Url
import ClassAtlas.Xref.Analysis
import ClassAtlas.Xref.Link
import ClassAtlas.Xref.Marks
import ClassAtlas.Xref.Rendition
import ClassAtlas.Xref.Resolve
