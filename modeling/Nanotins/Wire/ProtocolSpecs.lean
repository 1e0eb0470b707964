import Nanotins.Wire.Spec

/-!
Contract: the wire specs of `protocol_specs.hpp`, `protocol_specs_ptp.hpp` and
`protocol_specs_someip.hpp` that the graph nodes and the child tables use.

Owns: the field lists, the constants beside them, and their extents.

Does not own: which node binds which spec, or the full-message PTP specs, which
no node uses.
-/

namespace Nanotins.Wire

/-- A big-endian unsigned integer of `size` bytes. -/
def uintField (name : String) (offset size : Nat) : Field := ⟨name, offset, .scalar size false .big⟩

/-- A big-endian two's complement integer of `size` bytes. -/
def intField (name : String) (offset size : Nat) : Field := ⟨name, offset, .scalar size true .big⟩

/-- `width` bits from `bitOffset` in a big-endian unit of `storageSize` bytes. -/
def bitField (name : String) (offset storageSize bitOffset width : Nat) : Field :=
  ⟨name, offset, .bits storageSize bitOffset width .big⟩

def bytesField (name : String) (offset count : Nat) : Field := ⟨name, offset, .bytes count⟩

/-! ### Ethernet, VLAN, IPv4, IPv6, TCP, UDP -/

namespace EthernetSpec

def ethertype : Field := uintField "ethertype" 12 2

def fields : WireSpec := [bytesField "dst" 0 6, bytesField "src" 6 6, ethertype]

end EthernetSpec

namespace VlanTagSpec

def innerEthertype : Field := uintField "inner_ethertype" 2 2

def fields : WireSpec :=
  [bitField "pcp" 0 2 0 3, bitField "dei" 0 2 3 1, bitField "vid" 0 2 4 12, innerEthertype]

end VlanTagSpec

namespace Ipv4Spec

def ihl : Field := bitField "ihl" 0 1 4 4
def fragOffset : Field := bitField "frag_offset" 6 2 3 13
def protocol : Field := uintField "protocol" 9 1

def fields : WireSpec :=
  [bitField "version" 0 1 0 4, ihl, bitField "dscp" 1 1 0 6, bitField "ecn" 1 1 6 2,
    uintField "total_length" 2 2, uintField "identification" 4 2, bitField "flags" 6 2 0 3,
    fragOffset, uintField "ttl" 8 1, protocol, uintField "checksum" 10 2, bytesField "src" 12 4,
    bytesField "dst" 16 4]

end Ipv4Spec

namespace Ipv6Spec

def nextHeader : Field := uintField "next_header" 6 1

def fields : WireSpec :=
  [bitField "version" 0 4 0 4, bitField "traffic_class" 0 4 4 8, bitField "flow_label" 0 4 12 20,
    uintField "payload_length" 4 2, nextHeader, uintField "hop_limit" 7 1, bytesField "src" 8 16,
    bytesField "dst" 24 16]

end Ipv6Spec

namespace TcpSpec

def srcPort : Field := uintField "src_port" 0 2
def dstPort : Field := uintField "dst_port" 2 2
def dataOffset : Field := bitField "data_offset" 12 2 0 4

def fields : WireSpec :=
  [srcPort, dstPort, uintField "seq" 4 4, uintField "ack" 8 4, dataOffset,
    bitField "reserved" 12 2 4 3, bitField "flags" 12 2 7 9, uintField "window" 14 2,
    uintField "checksum" 16 2, uintField "urgent_ptr" 18 2]

end TcpSpec

namespace UdpSpec

def srcPort : Field := uintField "src_port" 0 2
def dstPort : Field := uintField "dst_port" 2 2

def fields : WireSpec := [srcPort, dstPort, uintField "length" 4 2, uintField "checksum" 6 2]

end UdpSpec

/-! ### IPv6 extension headers -/

namespace Ipv6ExtOptSpec

def nextHeader : Field := uintField "next_header" 0 1
def hdrExtLen : Field := uintField "hdr_ext_len" 1 1

def fields : WireSpec := [nextHeader, hdrExtLen]

end Ipv6ExtOptSpec

namespace Ipv6SrhSpec

def nextHeader : Field := uintField "next_header" 0 1
def hdrExtLen : Field := uintField "hdr_ext_len" 1 1
def routingType : Field := uintField "routing_type" 2 1
def lastEntry : Field := uintField "last_entry" 4 1

def fields : WireSpec :=
  [nextHeader, hdrExtLen, routingType, uintField "segments_left" 3 1, lastEntry,
    uintField "flags" 5 1, uintField "tag" 6 2]

end Ipv6SrhSpec

namespace Ipv6FragmentSpec

def nextHeader : Field := uintField "next_header" 0 1
def fragOffset : Field := bitField "frag_offset" 2 2 0 13

def fields : WireSpec :=
  [nextHeader, uintField "reserved" 1 1, fragOffset, bitField "res2" 2 2 13 2,
    bitField "more_fragments" 2 2 15 1, uintField "identification" 4 4]

end Ipv6FragmentSpec

namespace Ipv6AhSpec

def nextHeader : Field := uintField "next_header" 0 1
def payloadLen : Field := uintField "payload_len" 1 1

def fields : WireSpec :=
  [nextHeader, payloadLen, uintField "reserved" 2 2, uintField "spi" 4 4, uintField "seq" 8 4]

end Ipv6AhSpec

/-! ### PTP -/

def TimestampSpec.fields : WireSpec :=
  [uintField "seconds_msb" 0 2, uintField "seconds_lsb" 2 4, uintField "nanoseconds" 6 4]

def PortIdentitySpec.fields : WireSpec :=
  [bytesField "clock_identity" 0 8, uintField "port_number" 8 2]

def ClockQualitySpec.fields : WireSpec :=
  [uintField "clock_class" 0 1, uintField "clock_accuracy" 1 1,
    uintField "offset_scaled_log_variance" 2 2]

namespace PtpHeaderSpec

def messageType : Field := bitField "message_type" 0 1 4 4

def fields : WireSpec :=
  [bitField "transport_specific" 0 1 0 4, messageType, bitField "version_ptp" 1 1 4 4,
    uintField "message_length" 2 2, uintField "domain_number" 4 1, uintField "flags" 6 2,
    uintField "correction_field" 8 8, bytesField "clock_identity" 20 8,
    uintField "source_port_number" 28 2, uintField "sequence_id" 30 2,
    uintField "control_field" 32 1, intField "log_message_interval" 33 1]

end PtpHeaderSpec

def kPtpHeaderLen : Nat := 34

def kPtpMsgSync : Nat := 0x0
def kPtpMsgDelayReq : Nat := 0x1
def kPtpMsgPdelayReq : Nat := 0x2
def kPtpMsgPdelayResp : Nat := 0x3
def kPtpMsgFollowUp : Nat := 0x8
def kPtpMsgDelayResp : Nat := 0x9
def kPtpMsgPdelayRespFollowUp : Nat := 0xA
def kPtpMsgAnnounce : Nat := 0xB
def kPtpMsgSignaling : Nat := 0xC

def PtpTimestampBodySpec.fields : WireSpec := embed "ts_" 0 TimestampSpec.fields

def PtpTsPortBodySpec.fields : WireSpec :=
  embed "ts_" 0 TimestampSpec.fields ++ embed "req_" 10 PortIdentitySpec.fields

def PtpAnnounceBodySpec.fields : WireSpec :=
  embed "origin_" 0 TimestampSpec.fields ++
    [intField "current_utc_offset" 10 2, uintField "grandmaster_priority1" 13 1] ++
    embed "grandmaster_" 14 ClockQualitySpec.fields ++
    [uintField "grandmaster_priority2" 18 1, bytesField "grandmaster_identity" 19 8,
      uintField "steps_removed" 27 2, uintField "time_source" 29 1]

def PtpSignalingBodySpec.fields : WireSpec := embed "target_" 0 PortIdentitySpec.fields

/-! ### SOME/IP -/

namespace SomeipSpec

def serviceId : Field := uintField "service_id" 0 2
def methodId : Field := uintField "method_id" 2 2
def length : Field := uintField "length" 4 4

def fields : WireSpec :=
  [serviceId, methodId, length, uintField "client_id" 8 2, uintField "session_id" 10 2,
    uintField "protocol_version" 12 1, uintField "interface_version" 13 1,
    uintField "message_type" 14 1, uintField "return_code" 15 1]

end SomeipSpec

def kSomeipHeaderLen : Nat := 16
def kSomeipSdPort : Nat := 30490
def kSomeipSdServiceId : Nat := 0xFFFF
def kSomeipSdMethodId : Nat := 0x8100

namespace SomeipSdHeaderSpec

def entriesLength : Field := uintField "entries_length" 4 4

def fields : WireSpec := [uintField "flags" 0 1, entriesLength]

end SomeipSdHeaderSpec

namespace SomeipSdEntrySpec

def type : Field := uintField "type" 0 1
def index1stOpts : Field := uintField "index_1st_opts" 1 1
def index2ndOpts : Field := uintField "index_2nd_opts" 2 1
def numOpt1 : Field := bitField "num_opt_1" 3 1 0 4
def numOpt2 : Field := bitField "num_opt_2" 3 1 4 4
def serviceId : Field := uintField "service_id" 4 2
def instanceId : Field := uintField "instance_id" 6 2
def majorVersion : Field := uintField "major_version" 8 1
def ttl : Field := bitField "ttl" 8 4 8 24
def minorVersion : Field := uintField "minor_version" 12 4

def fields : WireSpec :=
  [type, index1stOpts, index2ndOpts, numOpt1, numOpt2, serviceId, instanceId, majorVersion, ttl,
    minorVersion]

end SomeipSdEntrySpec

def kSomeipSdEntrySize : Nat := 16
def kSomeipSdPreambleLen : Nat := 8

def kSdOptIpv4Endpoint : Nat := 0x04
def kSdOptIpv6Endpoint : Nat := 0x06
def kSdOptIpv4Multicast : Nat := 0x14
def kSdOptIpv6Multicast : Nat := 0x16
def kSdOptIpv4SdEndpoint : Nat := 0x24
def kSdOptIpv6SdEndpoint : Nat := 0x26

end Nanotins.Wire
