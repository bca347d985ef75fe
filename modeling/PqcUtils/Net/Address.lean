import PqcUtils.Library.Text

/-!
# IP addresses and socket addresses

The `std::net` address types, how they print, and the parser behind
`str::parse::<SocketAddr>()`. The parser works on the characters still to be
read; a reader that fails consumes nothing.
-/

namespace PqcUtils.Net

open Bytes Text

structure Ipv4Addr where
  a : UInt8
  b : UInt8
  c : UInt8
  d : UInt8
  deriving DecidableEq, Repr

structure Ipv6Addr where
  segments : List UInt16
  length_segments : segments.length = 8
  deriving DecidableEq, Repr

inductive IpAddr where
  | v4 (address : Ipv4Addr)
  | v6 (address : Ipv6Addr)
  deriving DecidableEq, Repr

inductive SocketAddr where
  | v4 (ip : Ipv4Addr) (port : UInt16)
  | v6 (ip : Ipv6Addr) (port : UInt16) (scopeId : UInt32)
  deriving DecidableEq, Repr

def SocketAddr.ip : SocketAddr → IpAddr
  | .v4 ip _ => .v4 ip
  | .v6 ip _ _ => .v6 ip

def SocketAddr.port : SocketAddr → UInt16
  | .v4 _ port => port
  | .v6 _ port _ => port

/-! ## Display -/

def Ipv4Addr.chars (ip : Ipv4Addr) : List Char :=
  Nat.toDigits 10 ip.a.toNat ++ '.' :: Nat.toDigits 10 ip.b.toNat ++
    '.' :: Nat.toDigits 10 ip.c.toNat ++ '.' :: Nat.toDigits 10 ip.d.toNat

/-- The two segments an IPv4 address occupies at the end of an IPv6 address. -/
def Ipv4Addr.segments (ip : Ipv4Addr) : List UInt16 := [be16 ip.a ip.b, be16 ip.c ip.d]

/-- `Ipv6Addr::to_ipv4_mapped`, on the segments. -/
def toIpv4Mapped : List UInt16 → Option Ipv4Addr
  | [0, 0, 0, 0, 0, 0xffff, high, low] =>
    some ⟨(high >>> 8).toUInt8, high.toUInt8, (low >>> 8).toUInt8, low.toUInt8⟩
  | _ => none

structure Span where
  start : Nat
  len : Nat
  deriving DecidableEq, Repr

/-- The loop that finds the first longest run of zero segments. -/
def longestZeroSpan (index : Nat) (longest current : Span) : List UInt16 → Span
  | [] => longest
  | segment :: rest =>
    if segment = 0 then
      let current : Span := ⟨if current.len = 0 then index else current.start, current.len + 1⟩
      longestZeroSpan (index + 1) (if current.len > longest.len then current else longest) current
        rest
    else
      longestZeroSpan (index + 1) longest ⟨0, 0⟩ rest

def fmtSubslice : List UInt16 → List Char
  | [] => []
  | first :: tail =>
    Nat.toDigits 16 first.toNat ++ tail.flatMap fun segment => ':' :: Nat.toDigits 16 segment.toNat

def Ipv6Addr.chars (ip : Ipv6Addr) : List Char :=
  match toIpv4Mapped ip.segments with
  | some ipv4 => "::ffff:".toList ++ ipv4.chars
  | none =>
    let zeroes := longestZeroSpan 0 ⟨0, 0⟩ ⟨0, 0⟩ ip.segments
    if zeroes.len > 1 then
      fmtSubslice (ip.segments.take zeroes.start) ++ "::".toList ++
        fmtSubslice (ip.segments.drop (zeroes.start + zeroes.len))
    else
      fmtSubslice ip.segments

def IpAddr.chars : IpAddr → List Char
  | .v4 address => address.chars
  | .v6 address => address.chars

def IpAddr.display (ip : IpAddr) : String := String.ofList ip.chars

def SocketAddr.display : SocketAddr → String
  | .v4 ip port => (IpAddr.v4 ip).display ++ ":" ++ toString port.toNat
  | .v6 ip port scopeId =>
    if scopeId = 0 then "[" ++ (IpAddr.v6 ip).display ++ "]:" ++ toString port.toNat
    else "[" ++ (IpAddr.v6 ip).display ++ "%" ++ toString scopeId.toNat ++ "]:" ++
      toString port.toNat

/-! ## Parsing -/

/-- `read_given_char`. -/
def readGivenChar (expected : Char) : List Char → Option (List Char)
  | [] => none
  | c :: rest => if c = expected then some rest else none

/-- `read_separator`: the separator precedes every element but the first. -/
def readSeparator {Value : Type} (separator : Char) (index : Nat)
    (inner : List Char → Option (Value × List Char)) (input : List Char) :
    Option (Value × List Char) :=
  if 0 < index then (readGivenChar separator input).bind inner else inner input

/-- `read_number::<T>` where `T` has `limit` values. With a bound on the digits the value is
checked once at the end, without one after every digit. -/
def readNumber (radix : Nat) (maxDigits : Option Nat) (allowZeroPrefix : Bool) (limit : Nat)
    (input : List Char) : Option (Nat × List Char) :=
  let admits : Nat → Nat → Bool := match maxDigits with
    | some bound => fun _ count => count ≤ bound
    | none => fun value _ => value < limit
  let hasLeadingZero := input.head? = some '0'
  match readDigits radix admits 0 0 input with
  | none => none
  | some (value, count, rest) =>
    if count = 0 then none
    else if !allowZeroPrefix && hasLeadingZero && 1 < count then none
    else if value < limit then some (value, rest)
    else none

def readOctet (index : Nat) (input : List Char) : Option (Nat × List Char) :=
  readSeparator '.' index (readNumber 10 (some 3) false 256) input

def readIpv4Addr (input : List Char) : Option (Ipv4Addr × List Char) := do
  let (a, input) ← readOctet 0 input
  let (b, input) ← readOctet 1 input
  let (c, input) ← readOctet 2 input
  let (d, input) ← readOctet 3 input
  pure (⟨.ofNat a, .ofNat b, .ofNat c, .ofNat d⟩, input)

/-- `read_groups` with `room` groups left of its slice: the groups read, whether the last two
came from an embedded IPv4 address, and the rest. -/
def readGroups : (room index : Nat) → List Char → List UInt16 × Bool × List Char
  | 0, _, input => ([], false, input)
  | room + 1, index, input =>
    match if 0 < room then readSeparator ':' index readIpv4Addr input else none with
    | some (ipv4, rest) => (ipv4.segments, true, rest)
    | none =>
      match readSeparator ':' index (readNumber 16 (some 4) true 65536) input with
      | some (group, rest) =>
        let (groups, embedded, rest) := readGroups room (index + 1) rest
        (.ofNat group :: groups, embedded, rest)
      | none => ([], false, input)

/-- The eight segments of a zero-filled array that starts with `groups`. -/
def Ipv6Addr.ofGroups (groups : List UInt16) : Ipv6Addr :=
  ⟨(groups ++ List.replicate 8 0).take 8, by simp⟩

def readIpv6Addr (input : List Char) : Option (Ipv6Addr × List Char) := do
  let (head, embedded, input) := readGroups 8 0 input
  if head.length = 8 then
    pure (.ofGroups head, input)
  else if embedded then
    none
  else
    let input ← readGivenChar ':' input
    let input ← readGivenChar ':' input
    let (tail, _, input) := readGroups (8 - (head.length + 1)) 0 input
    pure (.ofGroups (head ++ List.replicate (8 - tail.length - head.length) 0 ++ tail), input)

def readPort (input : List Char) : Option (UInt16 × List Char) := do
  let input ← readGivenChar ':' input
  let (port, input) ← readNumber 10 none true 65536 input
  pure (.ofNat port, input)

def readScopeId (input : List Char) : Option (UInt32 × List Char) := do
  let input ← readGivenChar '%' input
  let (scopeId, input) ← readNumber 10 none true 4294967296 input
  pure (.ofNat scopeId, input)

def readSocketAddrV4 (input : List Char) : Option (SocketAddr × List Char) := do
  let (ip, input) ← readIpv4Addr input
  let (port, input) ← readPort input
  pure (.v4 ip port, input)

def readSocketAddrV6 (input : List Char) : Option (SocketAddr × List Char) := do
  let input ← readGivenChar '[' input
  let (ip, input) ← readIpv6Addr input
  let (scopeId, input) := (readScopeId input).getD (0, input)
  let input ← readGivenChar ']' input
  let (port, input) ← readPort input
  pure (.v6 ip port scopeId, input)

/-- `str::parse::<SocketAddr>()`: the whole text must be read. -/
def SocketAddr.parse (text : String) : Option SocketAddr :=
  match (readSocketAddrV4 text.toList).or (readSocketAddrV6 text.toList) with
  | some (address, []) => some address
  | _ => none

example : SocketAddr.parse "[2001:db8::1]:443" =
    some (.v6 ⟨[0x2001, 0xdb8, 0, 0, 0, 0, 0, 1], rfl⟩ 443 0) := by decide +kernel

/-- The IP address of a socket address text, as the report prints it. -/
def printedIp (text : String) : Option String :=
  (SocketAddr.parse text).map fun address => address.ip.display

end PqcUtils.Net
