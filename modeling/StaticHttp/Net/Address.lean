/-!
# Socket addresses

Addresses of the two families, their text, and the address that reaches a listener. In text an IPv4
address is four decimal numbers without leading zeros. An IPv6 address is eight hexadecimal groups,
the last two of which may be written as an IPv4 address, and one run of zero groups may be left out;
it is written without the longest such run, and with the IPv4 form only where it stands for an IPv4
address. `SocketAddress.overlaps` says which two addresses no two listeners can have.
-/

namespace StaticHttp

/-- An address of the older family. -/
structure IPv4 where
  a : UInt8
  b : UInt8
  c : UInt8
  d : UInt8
  deriving DecidableEq, Repr

/-- An address of the newer family. -/
structure IPv6 where
  groups : List UInt16
  length_groups : groups.length = 8 := by rfl
  deriving DecidableEq, Repr

inductive SocketAddress
  | v4 (ip : IPv4) (port : UInt16)
  | v6 (ip : IPv6) (scope : UInt32) (port : UInt16)
  deriving DecidableEq, Repr

/-! ## Reading -/

namespace AddressText

/-- The value of a digit in a base up to thirty-six. -/
def digit? (base : Nat) (c : Char) : Option Nat :=
  let value :=
    if '0' ≤ c ∧ c ≤ '9' then c.toNat - '0'.toNat
    else if 'a' ≤ c ∧ c ≤ 'z' then c.toNat - 'a'.toNat + 10
    else if 'A' ≤ c ∧ c ≤ 'Z' then c.toNat - 'A'.toNat + 10
    else base
  if value < base then some value else none

/-- The digits at the front, and the rest. -/
def digits (base : Nat) : List Char → List Nat × List Char
  | [] => ([], [])
  | c :: rest =>
    match digit? base c with
    | some d => ((d :: (digits base rest).1), (digits base rest).2)
    | none => ([], c :: rest)

/-- The number that digits stand for. -/
def valueOf (base : Nat) (ds : List Nat) : Nat := ds.foldl (fun n d => n * base + d) 0

/-- A number below `limit` at the front, written with at most so many digits. -/
def number? (base width limit : Nat) (cs : List Char) : Option (Nat × List Char) :=
  match digits base cs with
  | (ds, rest) =>
    if ds ≠ [] ∧ ds.length ≤ width ∧ valueOf base ds < limit then some (valueOf base ds, rest)
    else none

/-- A decimal number below `limit` at the front, written with any number of digits. -/
def decimal? (limit : Nat) (cs : List Char) : Option (Nat × List Char) :=
  number? 10 cs.length limit cs

/-- One number of an IPv4 address at the front. -/
def octet? (cs : List Char) : Option (UInt8 × List Char) :=
  match cs with
  | '0' :: rest => if (digits 10 rest).1 = [] then some (0, rest) else none
  | _ => (number? 10 3 256 cs).map fun (n, rest) => (n.toUInt8, rest)

/-- A character that has to be at the front. -/
def skip? (c : Char) : List Char → Option (List Char)
  | [] => none
  | x :: rest => if x = c then some rest else none

/-- An IPv4 address at the front. -/
def ipv4? (cs : List Char) : Option (IPv4 × List Char) := do
  let (a, cs) ← octet? cs
  let (b, cs) ← octet? (← skip? '.' cs)
  let (c, cs) ← octet? (← skip? '.' cs)
  let (d, cs) ← octet? (← skip? '.' cs)
  return (⟨a, b, c, d⟩, cs)

def pair (high low : UInt8) : UInt16 := high.toUInt16 * 256 + low.toUInt16

/-- At most `room` groups at the front, with colons between them; whether the last two were written
as an IPv4 address; and the rest. -/
def groups : Nat → Bool → List Char → List UInt16 × Bool × List Char
  | 0, _, cs => ([], false, cs)
  | room + 1, first, cs =>
    match if first then some cs else skip? ':' cs with
    | none => ([], false, cs)
    | some inner =>
      match if room = 0 then none else ipv4? inner with
      | some (ip, rest) => ([pair ip.a ip.b, pair ip.c ip.d], true, rest)
      | none =>
        match number? 16 4 65536 inner with
        | some (n, rest) =>
          match groups room false rest with
          | (more, dotted, rest) => (n.toUInt16 :: more, dotted, rest)
        | none => ([], false, cs)

def ofGroups? (gs : List UInt16) : Option IPv6 :=
  if h : gs.length = 8 then some ⟨gs, h⟩ else none

/-- An IPv6 address at the front. -/
def ipv6? (cs : List Char) : Option (IPv6 × List Char) := do
  let (front, dotted, rest) := groups 8 true cs
  if front.length = 8 then return (← ofGroups? front, rest)
  if dotted then none
  let rest ← skip? ':' (← skip? ':' rest)
  let (back, _, rest) := groups (7 - front.length) true rest
  let zeros := List.replicate (8 - front.length - back.length) 0
  return (← ofGroups? (front ++ zeros ++ back), rest)

/-- A port behind its colon, which ends the text. -/
def port? (cs : List Char) : Option UInt16 := do
  let (n, rest) ← decimal? 65536 (← skip? ':' cs)
  if rest.isEmpty then some n.toUInt16 else none

/-- A scope behind its mark; zero if there is none. -/
def scope? (cs : List Char) : Option (UInt32 × List Char) :=
  match cs with
  | '%' :: rest => (decimal? UInt32.size rest).map fun (n, rest) => (n.toUInt32, rest)
  | _ => some (0, cs)

/-- An IPv6 address with its port, in brackets and perhaps with a scope. -/
def bracketed? (cs : List Char) : Option SocketAddress := do
  let (ip, rest) ← ipv6? (← skip? '[' cs)
  let (scope, rest) ← scope? rest
  return .v6 ip scope (← port? (← skip? ']' rest))

/-- An IPv4 address with its port. -/
def dotted? (cs : List Char) : Option SocketAddress := do
  let (ip, rest) ← ipv4? cs
  return .v4 ip (← port? rest)

end AddressText

/-! ## Writing -/

def IPv4.text (ip : IPv4) : String :=
  ".".intercalate ([ip.a, ip.b, ip.c, ip.d].map fun n => toString n.toNat)

namespace IPv6

/-- The groups in hexadecimal, with colons between them. -/
def textOf (gs : List UInt16) : String :=
  ":".intercalate (gs.map fun g => String.ofList (Nat.toDigits 16 g.toNat))

/-- Where the longest run of zero groups begins and how long it is; the first of equally long
ones. -/
def longestZeros (gs : List UInt16) : Nat × Nat :=
  (List.range gs.length).foldl
    (fun best i =>
      let run := ((gs.drop i).takeWhile (· == 0)).length
      if best.2 < run then (i, run) else best)
    (0, 0)

/-- The IPv4 address that the address stands for. -/
def mapped? (ip : IPv6) : Option IPv4 :=
  match ip.groups with
  | [0, 0, 0, 0, 0, 0xffff, x, y] =>
    some ⟨(x / 256).toUInt8, (x % 256).toUInt8, (y / 256).toUInt8, (y % 256).toUInt8⟩
  | _ => none

/-- The address is one of a group of receivers. -/
def isMulticast (ip : IPv6) : Bool := ip.groups.head?.any fun g => 0xff00 ≤ g

/-- The address is valid on one link only. -/
def isLinkLocal (ip : IPv6) : Bool := ip.groups.head?.any fun g => 0xfe80 ≤ g && g < 0xfec0

/-- The address is one of a group of receivers on one interface or on one link. -/
def isNearMulticast (ip : IPv6) : Bool :=
  ip.isMulticast && ip.groups.head?.any fun g => g % 16 == 1 || g % 16 == 2

def text (ip : IPv6) : String :=
  match ip.mapped? with
  | some v4 => "::ffff:" ++ v4.text
  | none =>
    match longestZeros ip.groups with
    | (first, run) =>
      if run > 1 then
        textOf (ip.groups.take first) ++ "::" ++ textOf (ip.groups.drop (first + run))
      else textOf ip.groups

/-- The address that stands for every address of the machine. -/
def unspecified : IPv6 := { groups := [0, 0, 0, 0, 0, 0, 0, 0] }

/-- The address by which a machine reaches itself. -/
def loopback : IPv6 := { groups := [0, 0, 0, 0, 0, 0, 0, 1] }

end IPv6

namespace IPv4

/-- The address that stands for every address of the machine. -/
def unspecified : IPv4 := ⟨0, 0, 0, 0⟩

/-- The address by which a machine reaches itself. -/
def loopback : IPv4 := ⟨127, 0, 0, 1⟩

end IPv4

namespace SocketAddress

/-- Reads the text of an address with its port. -/
def ofText? (s : String) : Option SocketAddress :=
  match AddressText.dotted? s.toList with
  | some address => some address
  | none => AddressText.bracketed? s.toList

/-- The port. -/
def port : SocketAddress → UInt16
  | v4 _ port => port
  | v6 _ _ port => port

/-- The address with another port. -/
def withPort (port : UInt16) : SocketAddress → SocketAddress
  | v4 ip _ => v4 ip port
  | v6 ip scope _ => v6 ip scope port

/-- The text of the address without the port. -/
def hostText : SocketAddress → String
  | v4 ip _ => ip.text
  | v6 ip _ _ => ip.text

/-- The text of the address with its port. -/
def text : SocketAddress → String
  | v4 ip port => ip.text ++ ":" ++ toString port.toNat
  | v6 ip scope port =>
    let scopeText := if scope = 0 then "" else "%" ++ toString scope.toNat
    "[" ++ ip.text ++ scopeText ++ "]:" ++ toString port.toNat

/-- The address at which a listener on this address can be reached from its own machine. -/
def reachable : SocketAddress → SocketAddress
  | v4 ip port => if ip = .unspecified then v4 .loopback port else v4 ip port
  | v6 ip scope port => if ip = .unspecified then v6 .loopback scope port else v6 ip scope port

/-- The address stands for every address of the machine, in both families. -/
def isEverywhere : SocketAddress → Bool
  | v4 .. => false
  | v6 ip _ _ => ip == .unspecified

/-- The IPv4 address that the address is or stands for. -/
def ipv4? : SocketAddress → Option IPv4
  | v4 ip _ => some ip
  | v6 ip _ _ => ip.mapped?

/-- The IPv6 address that the address is. -/
def ipv6? : SocketAddress → Option IPv6
  | v4 .. => none
  | v6 ip _ _ => some ip

/-- A connection to the host of one address could be one to the host of the other. -/
def sharesHost (x y : SocketAddress) : Bool :=
  x.isEverywhere || y.isEverywhere ||
    match x.ipv4?, y.ipv4? with
    | some a, some b => a == b || a == .unspecified || b == .unspecified
    | none, none => x.ipv6? == y.ipv6?
    | _, _ => false

/-- There cannot be a listener on each of the two addresses. Port zero asks for any port that is
free, so that it is in nobody's way. -/
def overlaps (x y : SocketAddress) : Bool := x.port == y.port && x.port != 0 && x.sharesHost y

end SocketAddress

end StaticHttp
