import StaticHttp.Net.Host

/-!
# Listening on an address

Which addresses a machine lets a listener have. A machine without routes knows no IPv4 address to be
another machine's, and grants each. Of the IPv6 addresses it grants its own, the one that stands for
all of them, and those that stand for IPv4 addresses; a group of receivers can not be listened on,
and an address that is valid on one link only needs the number of an interface.
-/

namespace StaticHttp

namespace Network

/-- Why an address is not to be had, whoever listens already. -/
def refusal? (network : Network) : SocketAddress → Option SystemError
  | .v4 .. => none
  | .v6 ip scope _ =>
    if ip.isMulticast then some .invalidArgument
    else if ip == .unspecified || ip.mapped?.isSome then none
    else if ip.isLinkLocal && scope == 0 then some .invalidArgument
    else if ip.isLinkLocal && network.interfaces.length < scope.toNat then some .noSuchDevice
    else if network.own.contains ip then none
    else some .addressNotAvailable

/-- Listens on the address of a host, and gives the address. -/
def listen (network : Network) (host : String) (port : UInt16) : Except IoError SocketAddress := do
  let address ← network.lookup host port
  if network.noSockets then throw (.system .tooManyOpenFiles)
  match network.refusal? address with
  | some e => throw (.system e)
  | none =>
    if network.inUse.any address.overlaps then throw (.system .addressInUse)
    return address

end Network

end StaticHttp
