import DexListing.Main
import DexListing.Proofs.AccessFlags
import DexListing.Proofs.Batch
import DexListing.Proofs.Code.Walk
import DexListing.Proofs.CommandLine
import DexListing.Proofs.Cursor.Discipline
import DexListing.Proofs.Extension
import DexListing.Proofs.Failure.Pools
import DexListing.Proofs.Footprint.Noninterference
import DexListing.Proofs.InstructionSet
import DexListing.Proofs.Layout.RoundTrip
import DexListing.Proofs.Log.Degraded
import DexListing.Proofs.Log.Trace
import DexListing.Proofs.Rendering.LineBreak
import DexListing.Proofs.Rendering.Mismatch
import DexListing.Proofs.Rendering.OneEntry
import DexListing.Proofs.Rendering.Variant
import DexListing.Proofs.StringTable.Split
import DexListing.Proofs.Text.Lossless
import DexListing.Proofs.Varint.Canonical
import DexListing.Proofs.Varint.Grammar
