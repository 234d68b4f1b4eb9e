import Backend.Text.Bytes
import Backend.Text.Split
import Backend.Text.Quoted
import Backend.Number.Layout
import Backend.Decimal
import Backend.Indexed
import Backend.Text.Shown
import Backend.Source.Token
import Backend.Source.Excerpt
import Backend.Json.Reader
import Backend.Symbol.Naming
import Backend.Code.Dump
import Backend.Code.Printing
import Backend.Code.Listing
import Backend.Package.Encoding
import Backend.Package.Decoding
import Backend.Package.Projection
import Backend.Proofs.Symbol.Shape
import Backend.Proofs.Symbol.Preorder
import Backend.Proofs.Source.Token
import Backend.Proofs.Symbol.Naming
import Backend.Proofs.Code.Layout
import Backend.Proofs.Code.Positions
import Backend.Proofs.Code.Locals
import Backend.Proofs.Code.Faults
import Backend.Proofs.Code.Dump
import Backend.Proofs.Package.Projection
import Backend.Proofs.Json.Lexemes
import Backend.Proofs.Json.Reading
import Backend.Proofs.Catalog
import Backend.Proofs.Decimal
import Backend.Proofs.Number.Layout
import Backend.Proofs.Package.Record
import Backend.Proofs.Package.RoundTrip
import Backend.Proofs.Package.Partition
import Backend.Proofs.Text.Digits
import Backend.Proofs.Package.Disclosure
import Backend.Proofs.Symbol.Reverification
import Backend.Proofs.Number.Rounding
import Backend.Proofs.Json.Scaling
import Backend.Proofs.Package.Acceptance
import Backend.Proofs.Decimal.Grammar
import Backend.Proofs.Package.Reordering
import Backend.Proofs.Symbol.Diagnostics
import Backend.Proofs.Source.Handles
import Backend.Proofs.Source.FirstError
import Backend.Proofs.Code.Printing
import Backend.Proofs.Code.Outline
import Backend.Proofs.Symbol.Addition
import Backend.Proofs.Symbol.Insertion
import Backend.Proofs.Code.DumpOrder
import Backend.Proofs.Package.Interning
import Backend.Proofs.Symbol.FullName
import Backend.Proofs.Text.ByteOrder
import Backend.Proofs.Source.Excerpt
import Backend.Proofs.Symbol.Rendering
import Backend.Proofs.Package.Decoding
import Backend.Proofs.Package.FloatConstant
import Backend.Proofs.Decimal.Integer
import Backend.Proofs.Decimal.Precision
import Backend.Proofs.Journal
import Backend.Proofs.Code.Remark
import Backend.Proofs.Indexed
