import StaticHttp.IoError
import StaticHttp.Net.Address

/-!
# Hosts

What the text of a host stands for. A host is an IPv4 address, an IPv6 address in brackets or not,
or a name. A machine knows one name, its own; for the others it would ask a name server, and has none
that answers.

An IPv4 address is read generously: it has one to four numbers, each decimal, octal behind a nought
or hexadecimal behind `0x`; each but the last stands for one byte, and the last for all bytes that
are left. So `127.1`, `0x7f.1` and `2130706433` are one host. The scope of an address without
brackets is a number, or the name of an interface if the address is valid near the machine only.

A name has labels of at most sixty-three letters, digits, hyphens and underscores, with points
between them and perhaps one at the end; it does not begin with a hyphen. Nobody is asked for
anything else.
-/

namespace StaticHttp

/-- The network of a machine. -/
structure Network where
  /-- The names of the interfaces, whose numbers begin at one. -/
  interfaces : List String := ["lo"]
  own : List IPv6 := []
  /-- Addresses that somebody listens on. -/
  inUse : List SocketAddress := []
  /-- No descriptor, hence no socket, can be had. -/
  noSockets : Bool := false
  deriving Repr

namespace IPv4

/-- The address with this number. -/
def ofNat (n : Nat) : IPv4 :=
  ⟨(n >>> 24).toUInt8, (n >>> 16).toUInt8, (n >>> 8).toUInt8, n.toUInt8⟩

/-- The address that the numbers of a text stand for. -/
def ofNumbers? (ns : List Nat) : Option IPv4 :=
  match ns.reverse with
  | [] => none
  | last :: before =>
    let left := 1 <<< (8 * (4 - before.length))
    if before.length < 4 ∧ before.all (· < 256) ∧ last < left then
      some (.ofNat (AddressText.valueOf 256 before.reverse * left + last))
    else none

end IPv4

namespace Host

/-- The pieces of a text between its points. -/
def pieces (host : List Char) : List (List Char) := host.splitOn '.'

/-- A whole number in the base that its first characters tell. -/
def number? (cs : List Char) : Option Nat :=
  let (base, written) := match cs with
    | '0' :: 'x' :: rest => (16, rest)
    | '0' :: 'X' :: rest => (16, rest)
    | '0' :: _ => (8, cs)
    | _ => (10, cs)
  match AddressText.number? base written.length UInt32.size written with
  | some (n, []) => some n
  | _ => none

/-- A host that is an IPv4 address. -/
def ipv4? (host : List Char) : Option IPv4 :=
  (pieces host).mapM number? >>= IPv4.ofNumbers?

/-- A label of a name. -/
def isLabel (label : List Char) : Bool :=
  label ≠ [] && label.length ≤ 63 && label.all fun c => c.isAlphanum || c == '-' || c == '_'

/-- A host that could be a name. A name is at most as long as its labels leave room for in two
hundred and fifty-five bytes, with their lengths and an end; a point alone names the root. -/
def isName (host : List Char) : Bool :=
  let name := if host.getLast? = some '.' then host.dropLast else host
  host ≠ [] && host.head? ≠ some '-' && name.length ≤ 253 &&
    (name == [] || (pieces name).all isLabel)

end Host

/-- The error of looking a host up, for a reason. -/
def IoError.lookupFailure (reason : String) : IoError :=
  .custom .uncategorized ("failed to lookup address information: " ++ reason)

/-- A host that stands for no address. -/
def IoError.unknownHost : IoError := .lookupFailure "Name or service not known"

/-- A name that somebody else may know, but nobody answers. -/
def IoError.noNameServer : IoError := .lookupFailure "Temporary failure in name resolution"

namespace Network

/-- The number of an interface; it takes a socket to ask for it. -/
def interfaceNumber? (network : Network) (name : String) : Option UInt32 :=
  if network.noSockets then none
  else (network.interfaces.findIdx? (· == name)).map fun i => (i + 1).toUInt32

/-- The scope that an address has by the text behind its mark. -/
def scope? (network : Network) (ip : IPv6) (text : List Char) : Option UInt32 :=
  let named :=
    if ip.isLinkLocal || ip.isNearMulticast then network.interfaceNumber? (String.ofList text)
    else none
  match named, AddressText.decimal? UInt32.size text with
  | some n, _ => some n
  | none, some (n, []) => some n.toUInt32
  | none, _ => none

/-- A host that is an IPv6 address without brackets. -/
def ipv6? (network : Network) (host : List Char) : Option (IPv6 × UInt32) := do
  match ← AddressText.ipv6? host with
  | (ip, []) => some (ip, 0)
  | (ip, '%' :: text) => (network.scope? ip text).map (ip, ·)
  | _ => none

/-- The address of a name. To ask anybody takes a descriptor, even if the name is known. -/
def addressOfName (network : Network) (name : String) : Except IoError IPv4 :=
  if !Host.isName name.toList then .error .unknownHost
  else if network.noSockets then .error (.system .tooManyOpenFiles)
  else if name.toLower = "localhost" then .ok .loopback
  else .error .noNameServer

/-- The address of a host. A text with a NUL byte cannot be looked up, whatever it holds besides. -/
def lookup (network : Network) (host : String) (port : UInt16) : Except IoError SocketAddress :=
  match SocketAddress.ofText? (host ++ ":" ++ toString port.toNat) with
  | some address => .ok address
  | none =>
    if host.toList.contains '\x00' then .error .nulInPath
    else
      match Host.ipv4? host.toList, network.ipv6? host.toList with
      | some ip, _ => .ok (.v4 ip port)
      | none, some (ip, scope) => .ok (.v6 ip scope port)
      | none, none => (network.addressOfName host).map (.v4 · port)

end Network

end StaticHttp
