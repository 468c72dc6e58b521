import Minip2p.Core.Multiaddr
import Minip2p.Identity.PeerIdText

/-!
# Multiaddrs as text

`Display` and `FromStr` of `Multiaddr` in `crates/core/src/multiaddr.rs`. A component is written
as `/name/value` (`/quic-v1` has no value) and the parser splits the text at every `/`.

The text form of IPv6 addresses is that of `core::net::Ipv6Addr`, a parameter of the model.
-/

namespace Minip2p

/-- `Display` and `FromStr` of `core::net::Ipv6Addr`. -/
class Ipv6Text where
  display : Vector UInt8 16 → String
  fromStr : String → Option (Vector UInt8 16)

/-- `str::split` at a character. -/
def splitAtChar (c : Char) (text : String) : List String :=
  (text.toList.splitOn c).map String.ofList

/-- `str::parse` of an unsigned integer below `bound`: decimal digits after an optional `+`. -/
def parseUnsigned (bound : Nat) (text : String) : Option Nat :=
  let digits := if text.toList.head? = some '+' then text.toList.tail else text.toList
  if !digits.isEmpty && digits.all Char.isDigit then
    let value := Nat.ofDigitChars 10 digits 0
    if value < bound then some value else none
  else none

/-- `char::is_whitespace`. -/
def isWhitespace (c : Char) : Bool :=
  let code := c.toNat
  (0x09 ≤ code && code ≤ 0x0D) || code = 0x20 || code = 0x85 || code = 0xA0 || code = 0x1680 ||
    (0x2000 ≤ code && code ≤ 0x200A) || code = 0x2028 || code = 0x2029 || code = 0x202F ||
    code = 0x205F || code = 0x3000

/-- `char::is_control`. -/
def isControl (c : Char) : Bool :=
  let code := c.toNat
  code ≤ 0x1F || (0x7F ≤ code && code ≤ 0x9F)

/-- Basic DNS name validation: non-empty, no slashes, no whitespace or control characters. -/
def isValidDns (value : String) : Bool :=
  !value.isEmpty && !value.toList.contains '/' &&
    !value.toList.any fun c => isWhitespace c || isControl c

/-- The dotted quad of four bytes. -/
def displayIp4 (octets : Vector UInt8 4) : String :=
  ".".intercalate (octets.toList.map fun octet => octet.toNat.repr)

/-- Parses a dotted quad. -/
def parseIp4 (value : String) : Option (Vector UInt8 4) :=
  match splitAtChar '.' value with
  | [a, b, c, d] => do
    let a ← parseUnsigned 256 a
    let b ← parseUnsigned 256 b
    let c ← parseUnsigned 256 c
    let d ← parseUnsigned 256 d
    return #v[UInt8.ofNat a, UInt8.ofNat b, UInt8.ofNat c, UInt8.ofNat d]
  | _ => none

variable [MultihashCodec] [Ipv6Text]

namespace Protocol

/-- What `Display` writes for a component. -/
def display : Protocol → String
  | ip4 octets => "/ip4/" ++ displayIp4 octets
  | ip6 octets => "/ip6/" ++ Ipv6Text.display octets
  | dns value => "/dns/" ++ value
  | dns4 value => "/dns4/" ++ value
  | dns6 value => "/dns6/" ++ value
  | udp port => "/udp/" ++ port.toNat.repr
  | quicV1 => "/quic-v1"
  | p2p peerId => "/p2p/" ++ peerId.display

/-- The parser of the value of a protocol; `none` for names that take no value or are unknown. -/
def valueParser : String → Option (String → Except MultiaddrError Protocol)
  | "ip4" => some fun value =>
    match parseIp4 value with
    | some octets => .ok (ip4 octets)
    | none => .error (.invalidIp4 value)
  | "ip6" => some fun value =>
    match Ipv6Text.fromStr value with
    | some octets => .ok (ip6 octets)
    | none => .error (.invalidIp6 value)
  | "dns" => some fun value =>
    if isValidDns value then .ok (dns value) else .error (.invalidDnsName value)
  | "dns4" => some fun value =>
    if isValidDns value then .ok (dns4 value) else .error (.invalidDnsName value)
  | "dns6" => some fun value =>
    if isValidDns value then .ok (dns6 value) else .error (.invalidDnsName value)
  | "udp" => some fun value =>
    match parseUnsigned 65536 value with
    | some port => .ok (udp (UInt16.ofNat port))
    | none => .error (.invalidPort value)
  | "p2p" => some fun value =>
    match PeerId.fromStr value with
    | .ok peerId => .ok (p2p peerId)
    | .error source => .error (.invalidPeerId value source)
  | _ => none

end Protocol

namespace Multiaddr

/-- The `Display` text. -/
def display (addr : Multiaddr) : String := String.join (addr.protocols.map Protocol.display)

/-- The loop of `parse_multiaddr` over the segments from `idx` on. -/
def parseSegments : List String → List Protocol → Except MultiaddrError Multiaddr
  | [], protocols => .ok ⟨protocols⟩
  | protocol :: rest, protocols =>
    if protocol.isEmpty then .error .emptyProtocol
    else if protocol = "quic-v1" then parseSegments rest (protocols ++ [.quicV1])
    else
      match Protocol.valueParser protocol with
      | none => .error (.unknownProtocol protocol)
      | some parse =>
        match rest with
        | [] => .error (.missingValue protocol)
        | value :: rest =>
          if value.isEmpty then .error (.missingValue protocol)
          else
            match parse value with
            | .error e => .error e
            | .ok component => parseSegments rest (protocols ++ [component])

/-- `Multiaddr::from_str`. The segment before the leading slash is skipped. -/
def fromStr (input : String) : Except MultiaddrError Multiaddr :=
  if input.isEmpty then .error .emptyInput
  else if input.toList.head? ≠ some '/' then .error .missingLeadingSlash
  else parseSegments ((splitAtChar '/' input).drop 1) []

end Multiaddr

end Minip2p
