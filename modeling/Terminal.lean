import Terminal.Entry.Image
import Terminal.Main
import Terminal.Template.Session
import Terminal.Template.Tree
import Terminal.Proofs.Template.Run
import Terminal.Proofs.Template.Skipping
import Terminal.Proofs.Template.Reader
import Terminal.Proofs.Template.Reading
import Terminal.Proofs.Template.Lexeme
import Terminal.Proofs.Template.Structured
import Terminal.Proofs.Template.Untaken
import Terminal.Proofs.Entry.Errors
import Terminal.Proofs.Entry.RoundTrip
import Terminal.Proofs.Search.FirstMatch
import Terminal.Proofs.Template.History
import Terminal.Proofs.Template.Composition
import Terminal.Proofs.Capability.Distinct
import Terminal.Proofs.Entry.Accessors
import Terminal.Proofs.Template.Scope
import Terminal.Proofs.Entry.Footprint
import Terminal.Proofs.Entry.Truncation
import Terminal.Proofs.Text.Utf8
import Terminal.Proofs.Entry.Normal
import Terminal.Proofs.Template.Spelling
import Terminal.Proofs.Template.Wrapping
import Terminal.Proofs.Text.Numeral
import Terminal.Proofs.Template.Layout
import Terminal.Proofs.Template.Specification
import Terminal.Proofs.Template.Printf
import Terminal.Proofs.Template.Padding
import Terminal.Proofs.Template.Expression
import Terminal.Proofs.Template.Correspondence
import Terminal.Proofs.Template.Noninterference
import Terminal.Proofs.Template.Arguments
import Terminal.Proofs.Search.Layout
import Terminal.Proofs.Search.Unset
import Terminal.Proofs.Template.Grammar
import Terminal.Proofs.Template.Unknown
import Terminal.Proofs.Template.Literal
import Terminal.Proofs.Template.Matching
import Terminal.Proofs.Report.Colors
import Terminal.Proofs.Template.Reachable
import Terminal.Proofs.Template.Mirroring
import Terminal.Proofs.Template.Faultless
