import ArchiveBrowser.Archive.Basic
import ArchiveBrowser.Archive.Directory
import ArchiveBrowser.Archive.Opening
import ArchiveBrowser.Archive.Session
import ArchiveBrowser.Archive.Uri
import ArchiveBrowser.Archive.Zip
import ArchiveBrowser.Bytes
import ArchiveBrowser.Command.File
import ArchiveBrowser.Command.List
import ArchiveBrowser.Command.Output
import ArchiveBrowser.Command.Target
import ArchiveBrowser.Command.Tree
import ArchiveBrowser.CommandLine.Grammar
import ArchiveBrowser.CommandLine.Request
import ArchiveBrowser.Deflate.Inflate
import ArchiveBrowser.Deflate.PrefixCode
import ArchiveBrowser.Deflate.Reader
import ArchiveBrowser.Digest.Algorithm
import ArchiveBrowser.Digest.Chained
import ArchiveBrowser.Digest.Crc32
import ArchiveBrowser.Digest.Md5
import ArchiveBrowser.Digest.Sha256
import ArchiveBrowser.Error
import ArchiveBrowser.Fault
import ArchiveBrowser.FileSystem.Basic
import ArchiveBrowser.FileSystem.MakeDirectories
import ArchiveBrowser.FileSystem.Name
import ArchiveBrowser.FileSystem.Query
import ArchiveBrowser.FileSystem.Resolution
import ArchiveBrowser.Glob.Matching
import ArchiveBrowser.Glob.Pattern
import ArchiveBrowser.Json.Pretty
import ArchiveBrowser.Log.Config
import ArchiveBrowser.Log.Event
import ArchiveBrowser.Log.Level
import ArchiveBrowser.Main
import ArchiveBrowser.Numeric.PowerOfTwo
import ArchiveBrowser.Path.Components
import ArchiveBrowser.Path.Parts
import ArchiveBrowser.Path.Segments
import ArchiveBrowser.Program
import ArchiveBrowser.Stream.Copy
import ArchiveBrowser.Stream.Outlet
import ArchiveBrowser.Stream.Sink
import ArchiveBrowser.Stream.Source
import ArchiveBrowser.Text.Blank
import ArchiveBrowser.Text.CodePage437
import ArchiveBrowser.Text.GraphemeExtend
import ArchiveBrowser.Text.Quoted
import ArchiveBrowser.Text.Unprintable
import ArchiveBrowser.Text.Utf8
import ArchiveBrowser.Tree.Drawing
import ArchiveBrowser.Trie.Basic
import ArchiveBrowser.Trie.Forest
import ArchiveBrowser.Zip.Archive
import ArchiveBrowser.Zip.Container
import ArchiveBrowser.Zip.EndRecord
import ArchiveBrowser.Zip.Flaw
import ArchiveBrowser.Zip.Record
import ArchiveBrowser.Zip.Table
import ArchiveBrowser.Proofs.Path.Segments
import ArchiveBrowser.Proofs.Trie.Alter
import ArchiveBrowser.Proofs.Trie.Keys
import ArchiveBrowser.Proofs.FirstOccurrences
import ArchiveBrowser.Proofs.Trie.History
import ArchiveBrowser.Proofs.Trie.FiniteMap
import ArchiveBrowser.Proofs.Trie.Shape
import ArchiveBrowser.Proofs.Zip.Index
import ArchiveBrowser.Proofs.Zip.FileRecords
import ArchiveBrowser.Proofs.Zip.Root
import ArchiveBrowser.Proofs.Archive.Agreement
import ArchiveBrowser.Proofs.Stream.Accounting
import ArchiveBrowser.Proofs.Zip.Parents
import ArchiveBrowser.Proofs.Zip.Navigation
import ArchiveBrowser.Proofs.Tree.Calls
import ArchiveBrowser.Proofs.Zip.Recursion
import ArchiveBrowser.Proofs.Archive.Refusals
import ArchiveBrowser.Proofs.Archive.Lexical
import ArchiveBrowser.Proofs.FileSystem.Below
import ArchiveBrowser.Proofs.Archive.Confinement
import ArchiveBrowser.Proofs.Stream.Whole
import ArchiveBrowser.Proofs.Archive.Streams
import ArchiveBrowser.Proofs.Command.Printing
import ArchiveBrowser.Proofs.Tree.Rows
import ArchiveBrowser.Proofs.Zip.Rows
import ArchiveBrowser.Proofs.Digest.BitSerial
import ArchiveBrowser.Proofs.Digest.Calculators
import ArchiveBrowser.Proofs.Digest.Sources
import ArchiveBrowser.Proofs.Archive.Opened
import ArchiveBrowser.Proofs.Command.Refused
import ArchiveBrowser.Proofs.Archive.Order
import ArchiveBrowser.Proofs.Tree.Levels
import ArchiveBrowser.Proofs.Tree.Visits
import ArchiveBrowser.Proofs.Command.Order
import ArchiveBrowser.Proofs.Archive.Files
import ArchiveBrowser.Proofs.Archive.Verdicts
import ArchiveBrowser.Proofs.Command.Contents
import ArchiveBrowser.Proofs.Text.Hexadecimal
import ArchiveBrowser.Proofs.Tree.Depth
import ArchiveBrowser.Proofs.Archive.Marks
import ArchiveBrowser.Proofs.Archive.Levels
import ArchiveBrowser.Proofs.Command.Depth
import ArchiveBrowser.Proofs.Tree.Listing
import ArchiveBrowser.Proofs.Tree.Shown
import ArchiveBrowser.Proofs.Tree.Decoding
import ArchiveBrowser.Proofs.Path.Relative
import ArchiveBrowser.Proofs.Archive.UriGrammar
import ArchiveBrowser.Proofs.Digest.Bursts
import ArchiveBrowser.Proofs.Stream.Offers
import ArchiveBrowser.Proofs.Numeric.Rounding
import ArchiveBrowser.Proofs.Stream.Reads
import ArchiveBrowser.Proofs.Path.Cutting
