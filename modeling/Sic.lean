import Sic.Disk.Tree
import Sic.Main
import Sic.Proofs.RoundTrip
import Sic.Proofs.Record.Faithful
import Sic.Proofs.Symbols
import Sic.Proofs.Extent
import Sic.Proofs.Strictness
import Sic.Proofs.OpcodeTable.Format
import Sic.Proofs.Pieces
import Sic.Proofs.Reassembly
import Sic.Proofs.Relocation
import Sic.Proofs.Packing.Greedy
import Sic.Proofs.Layout.Steps
import Sic.Proofs.Layout.FirstError
import Sic.Proofs.Layout.Storage
import Sic.Proofs.Encoding
import Sic.Proofs.Directive
import Sic.Proofs.Layout.SameFields
import Sic.Proofs.Layout.Wrapping
import Sic.Proofs.Record.Grammar
import Sic.Proofs.Image.LastWriter
import Sic.Proofs.LastEntry
import Sic.Proofs.SymbolTable
import Sic.Proofs.OpcodeTable.LastDefinition
import Sic.Proofs.Image.Dump
import Sic.Proofs.Listing.Unambiguous
