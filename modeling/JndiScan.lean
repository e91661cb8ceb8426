import JndiScan.Bytes
import JndiScan.Bzip2.Bits
import JndiScan.Bzip2.Block
import JndiScan.Bzip2.Decompress
import JndiScan.Bzip2.Symbols
import JndiScan.Check
import JndiScan.Checksum.Adler32
import JndiScan.Checksum.Crc32
import JndiScan.ClassDefinition
import JndiScan.ClassFile.Constant
import JndiScan.ClassFile.Reader
import JndiScan.ClassFile.Writer
import JndiScan.ClassName
import JndiScan.CommandLine.Arguments
import JndiScan.CommandLine.Options
import JndiScan.CommandLine.Run
import JndiScan.Console
import JndiScan.Container
import JndiScan.Dalvik.Class
import JndiScan.Dalvik.Contents
import JndiScan.Dalvik.Conversion
import JndiScan.Dalvik.Fault
import JndiScan.Dalvik.File
import JndiScan.Dalvik.Item
import JndiScan.Dalvik.ItemType
import JndiScan.Dalvik.ModifiedUtf8
import JndiScan.Dalvik.Reader
import JndiScan.Decimal.Real64
import JndiScan.Decimal.Shortest
import JndiScan.Decimal.Style
import JndiScan.Deflate.Bits
import JndiScan.Deflate.Inflate
import JndiScan.Diagnostic
import JndiScan.Disk
import JndiScan.Entry
import JndiScan.EntryKind
import JndiScan.Failure
import JndiScan.Files.Fault
import JndiScan.Files.Host
import JndiScan.Files.Path
import JndiScan.Files.Tree
import JndiScan.Finding
import JndiScan.Json.Basic
import JndiScan.Json.Reader
import JndiScan.Json.Writer
import JndiScan.Limit
import JndiScan.Load
import JndiScan.Lzma.Decompress
import JndiScan.Lzma.RangeCoder
import JndiScan.Main
import JndiScan.Pool
import JndiScan.PrefixCode
import JndiScan.Proofs.Access
import JndiScan.Proofs.Check.Growth
import JndiScan.Proofs.Check.Order
import JndiScan.Proofs.Check.Places
import JndiScan.Proofs.Check.Shading
import JndiScan.Proofs.Check.Verdict
import JndiScan.Proofs.ClassFile.Accepting
import JndiScan.Proofs.ClassFile.Capacity
import JndiScan.Proofs.ClassFile.Constant
import JndiScan.Proofs.ClassFile.Layout
import JndiScan.Proofs.ClassFile.Limits
import JndiScan.Proofs.ClassFile.Reading
import JndiScan.Proofs.ClassFile.Recoding
import JndiScan.Proofs.ClassFile.RoundTrip
import JndiScan.Proofs.ClassFile.Truncation
import JndiScan.Proofs.ClassFile.Writing
import JndiScan.Proofs.ClassName
import JndiScan.Proofs.ClassName.Descriptor
import JndiScan.Proofs.ClassName.SlashForm
import JndiScan.Proofs.ClassName.Spelling
import JndiScan.Proofs.CommandLine.RulesFile
import JndiScan.Proofs.CommandLine.Steps
import JndiScan.Proofs.CommandLine.Verdict
import JndiScan.Proofs.Container
import JndiScan.Proofs.Dalvik.ClassPath
import JndiScan.Proofs.Dalvik.Confinement
import JndiScan.Proofs.Dalvik.Conversion
import JndiScan.Proofs.Dalvik.Deep
import JndiScan.Proofs.Dalvik.Depth
import JndiScan.Proofs.Dalvik.Directory
import JndiScan.Proofs.Dalvik.Entries
import JndiScan.Proofs.Dalvik.Flat
import JndiScan.Proofs.Dalvik.Overwriting
import JndiScan.Proofs.Dalvik.Recovery
import JndiScan.Proofs.Dalvik.Rendering
import JndiScan.Proofs.Dalvik.Scratch
import JndiScan.Proofs.Dalvik.Suspension
import JndiScan.Proofs.Dalvik.Transparency
import JndiScan.Proofs.Effect
import JndiScan.Proofs.EntryKind
import JndiScan.Proofs.Files.Changes
import JndiScan.Proofs.Files.Depth
import JndiScan.Proofs.Files.Host
import JndiScan.Proofs.Files.Listed
import JndiScan.Proofs.Files.Path
import JndiScan.Proofs.Files.Refusal
import JndiScan.Proofs.Files.Relisting
import JndiScan.Proofs.Files.Reordered
import JndiScan.Proofs.Files.Tree
import JndiScan.Proofs.Files.Usable
import JndiScan.Proofs.Json.Joined
import JndiScan.Proofs.Json.Number
import JndiScan.Proofs.Json.Quoted
import JndiScan.Proofs.Json.RoundTrip
import JndiScan.Proofs.Pool.Grouping
import JndiScan.Proofs.Pool.Lookup
import JndiScan.Proofs.Pool.Observers
import JndiScan.Proofs.Report.Columns
import JndiScan.Proofs.Report.Descriptor
import JndiScan.Proofs.Report.Table
import JndiScan.Proofs.Report.Verdict
import JndiScan.Proofs.Report.Written
import JndiScan.Proofs.Signature.Fields
import JndiScan.Proofs.Signature.Lookup
import JndiScan.Proofs.Signature.Overlay
import JndiScan.Proofs.Text.Blank
import JndiScan.Proofs.Text.Case
import JndiScan.Proofs.Text.Halves
import JndiScan.Proofs.Text.Order
import JndiScan.Proofs.Text.Pieces
import JndiScan.Proofs.Text.Stream
import JndiScan.Proofs.Text.Utf8
import JndiScan.Proofs.Walk.Accounts
import JndiScan.Proofs.Walk.Archives
import JndiScan.Proofs.Walk.Budget
import JndiScan.Proofs.Walk.Count
import JndiScan.Proofs.Walk.Decoding
import JndiScan.Proofs.Walk.Depth
import JndiScan.Proofs.Walk.DepthLimit
import JndiScan.Proofs.Walk.ListingOrder
import JndiScan.Proofs.Walk.Loop
import JndiScan.Proofs.Walk.Moves
import JndiScan.Proofs.Walk.Nesting
import JndiScan.Proofs.Walk.Oversize
import JndiScan.Proofs.Walk.Preorder
import JndiScan.Proofs.Walk.Related
import JndiScan.Proofs.Walk.Relisting
import JndiScan.Proofs.Walk.RootOrder
import JndiScan.Proofs.Walk.Roots
import JndiScan.Proofs.Walk.Runs
import JndiScan.Proofs.Walk.Steady
import JndiScan.Proofs.Walk.Steps
import JndiScan.Proofs.Walk.Stopping
import JndiScan.Proofs.Walk.Story
import JndiScan.Proofs.Walk.Tree
import JndiScan.Proofs.Walk.Turns
import JndiScan.Proofs.Wildcard
import JndiScan.Proofs.Yaml.Document
import JndiScan.Proofs.Yaml.Meaning
import JndiScan.Proofs.Yaml.Scan
import JndiScan.Proofs.Yaml.Source
import JndiScan.Proofs.Yaml.Token
import JndiScan.Proofs.Zip.Member
import JndiScan.Provenance
import JndiScan.Report
import JndiScan.Rules.Bundled
import JndiScan.Rules.Load
import JndiScan.Rules.MemberOrder
import JndiScan.Rules.Stamp
import JndiScan.Rules.Value
import JndiScan.Scanner
import JndiScan.Signature
import JndiScan.Table
import JndiScan.Text.Basic
import JndiScan.Text.Blank
import JndiScan.Text.Digit
import JndiScan.Text.LowerCase
import JndiScan.Text.Printable
import JndiScan.Text.Quoted
import JndiScan.Text.Stream
import JndiScan.Text.Utf8
import JndiScan.Walk.Basic
import JndiScan.Walk.Decoder
import JndiScan.Walk.Limits
import JndiScan.Walk.Roots
import JndiScan.Walk.Run
import JndiScan.Wildcard
import JndiScan.Yaml.Cursor
import JndiScan.Yaml.Document
import JndiScan.Yaml.Fault
import JndiScan.Yaml.Graph
import JndiScan.Yaml.Meaning
import JndiScan.Yaml.Merge
import JndiScan.Yaml.Number
import JndiScan.Yaml.Octets
import JndiScan.Yaml.Property
import JndiScan.Yaml.Read
import JndiScan.Yaml.Scalar
import JndiScan.Yaml.ScalarText
import JndiScan.Yaml.Source
import JndiScan.Yaml.Timestamp
import JndiScan.Yaml.Token
import JndiScan.Zip.Codecs
import JndiScan.Zip.Directory
import JndiScan.Zip.Fault
import JndiScan.Zip.Member
import JndiScan.Zip.Name
