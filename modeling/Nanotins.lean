import Nanotins.Library.ByteReader
import Nanotins.Library.RecordStream
import Nanotins.Library.ResumableScan
import Nanotins.PcapBlocks.Blocks
import Nanotins.PcapBlocks.ScanSteps
import Nanotins.PcapBlocks.Streaming
import Nanotins.PcapBlocks.PacketBlocks
import Nanotins.PcapBlocks.ParseReads
import Nanotins.Library.ByteWriter
import Nanotins.PcapBlocks.Tiling
import Nanotins.PcapBlocks.Framing
import Nanotins.PcapBlocks.SectionBlocks
import Nanotins.PcapBlocks.LegacyPhases
import Nanotins.PcapBlocks.Coverage
import Nanotins.PcapBlocks.EpbColumns
import Nanotins.Library.BitPacking
import Nanotins.Library.ColumnStore
import Nanotins.Library.CountScatter
import Nanotins.Library.IntervalCut
import Nanotins.Bulk.ForEach
import Nanotins.Wire.ProtocolSpecs
import Nanotins.Wire.Encode
import Nanotins.Wire.Embed
import Nanotins.SpecDag.Walk
import Nanotins.SpecDag.L2L3Graph
import Nanotins.SpecDag.Boundaries
import Nanotins.SpecDag.Decode
import Nanotins.SpecDag.HeaderChain
import Nanotins.SpecDag.LinkLayer
import Nanotins.SpecDag.Ipv6Chain
import Nanotins.SpecDag.Snaplen
import Nanotins.ProtocolDecode.Refinement
import Nanotins.ProtocolDecode.PayloadBoundary
import Nanotins.ProtocolDecode.Window
import Nanotins.ProtocolDecode.WalkReads
import Nanotins.ProtocolDecode.AppendOnly
import Nanotins.ProtocolDecode.Staged
import Nanotins.ProtocolDecode.TableParity
import Nanotins.ProtocolDecode.ArrowParity
import Nanotins.Children.Tlv
import Nanotins.Children.TlvGrammar
import Nanotins.Children.SomeipTlv
import Nanotins.Children.SomeipTlvGrammar
import Nanotins.Children.Ipv6Children
import Nanotins.Children.Ipv6Encoding
import Nanotins.Children.Ipv4Children
import Nanotins.Children.SomeipSd
import Nanotins.Children.SdEncoding
import Nanotins.Children.SdOrder
import Nanotins.Children.SdEndpoint
import Nanotins.Children.Snaplen
import Nanotins.Children.Bulk
import Nanotins.Children.RoutingType
import Nanotins.Children.CompleteDecode
import Nanotins.Library.CString
import Nanotins.Library.Numeral
import Nanotins.Library.Spacing
import Nanotins.Library.Tally
import Nanotins.Library.PartialRun
import Nanotins.Dpar.Catalog
import Nanotins.Dpar.Match
import Nanotins.Dpar.Predicates
import Nanotins.Dpar.Compile
import Nanotins.Dpar.Accepted
import Nanotins.Dpar.Grammar
import Nanotins.Dpar.Operands
import Nanotins.Dpar.RoundTrip
import Nanotins.Dpar.DocumentedGrammar
import Nanotins.Dpar.Safety
import Nanotins.Dpar.Firing
import Nanotins.Dpar.Accounting
import Nanotins.Dpar.Palette
import Nanotins.Dpar.MemberRows
import Nanotins.Dpar.Engine
import Nanotins.Library.BinaryFloat
import Nanotins.Soatins.Reflect
import Nanotins.Soatins.Bits
import Nanotins.Soatins.Overlay
import Nanotins.Soatins.Soa
import Nanotins.Soatins.ArrowGlue
import Nanotins.Soatins.ColumnSink
import Nanotins.Soatins.ArrowBatch
import Nanotins.Soatins.SpecSoa
import Nanotins.Dpar.TableRows
import Nanotins.Dpar.DescribedRow
import Nanotins.Dpar.TableExport
import Nanotins.Dpar.OddTlv
import Nanotins.Dpar.TableDump
import Nanotins.Dpar.LineErrors
import Nanotins.Library.Json
import Nanotins.Library.HexText
import Nanotins.SpecDag.Frames
import Nanotins.Children.Ipv4Encoding
import Nanotins.Lldp.Cursor
import Nanotins.Lldp.Rows
import Nanotins.Lldp.Contents
import Nanotins.Lldp.Frames
import Nanotins.Lldp.Dump
import Nanotins.Pcapng2json.Layers
import Nanotins.Pcapng2json.Convert
import Nanotins.Pcapng2json.Capture
import Nanotins.Pcapng2json.PacketColumns
import Nanotins.Pcapng2json.LegacyCapture
import Nanotins.Pcapng2json.FrameLayers
