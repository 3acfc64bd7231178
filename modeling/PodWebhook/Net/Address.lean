import PodWebhook.Net.Digits

/-!
Addresses to listen on: an IPv4 address, or an IPv6 address in brackets with an optional scope, and
after a colon the port. An IPv6 address is eight groups; a double colon stands for one or more
groups of zeros, and two groups may be written as an IPv4 address where that ends the part it stands
in. `SocketAddress.toText` writes the shortest form.
-/

namespace PodWebhook.Net

structure Octets where
  a : UInt8
  b : UInt8
  c : UInt8
  d : UInt8
  deriving DecidableEq, Repr, Inhabited

inductive IpAddress where
  | v4 (octets : Octets)
  | v6 (groups : List UInt16) (scope : UInt32)
  deriving DecidableEq, Repr

structure SocketAddress where
  ip : IpAddress
  port : UInt16
  deriving DecidableEq, Repr

instance : Inhabited SocketAddress := ⟨⟨.v4 ⟨0, 0, 0, 0⟩, 0⟩⟩

def octetForm : NumberForm := ⟨10, some 3, false, 255⟩

def groupForm : NumberForm := ⟨16, some 4, true, 65535⟩

def scopeForm : NumberForm := ⟨10, none, true, 4294967295⟩

def portForm : NumberForm := ⟨10, none, true, 65535⟩

namespace Octets

def read (text : List Char) : Option (Octets × List Char) := do
  let (a, text) ← readNumber octetForm text
  let (b, text) ← readNumber octetForm (← readChar '.' text)
  let (c, text) ← readNumber octetForm (← readChar '.' text)
  let (d, text) ← readNumber octetForm (← readChar '.' text)
  some (⟨UInt8.ofNat a, UInt8.ofNat b, UInt8.ofNat c, UInt8.ofNat d⟩, text)

def toGroups (o : Octets) : List UInt16 :=
  [UInt16.ofNat (256 * o.a.toNat + o.b.toNat), UInt16.ofNat (256 * o.c.toNat + o.d.toNat)]

def toText (o : Octets) : String :=
  ".".intercalate ([o.a, o.b, o.c, o.d].map fun n => Nat.repr n.toNat)

end Octets

namespace IpAddress

/-- Groups at the front of a text, how they were written at the end, and what follows them. -/
structure Groups where
  groups : List UInt16
  endsInOctets : Bool
  rest : List Char

def readSeparator (first : Bool) (text : List Char) : Option (List Char) :=
  if first then some text else readChar ':' text

def readGroups (first : Bool) (text : List Char) : (count : Nat) → Groups
  | 0 => ⟨[], false, text⟩
  | count + 1 =>
    let octets := if count = 0 then none else (readSeparator first text).bind Octets.read
    match octets with
    | some (octets, rest) => ⟨octets.toGroups, true, rest⟩
    | none =>
      match (readSeparator first text).bind (readNumber groupForm) with
      | none => ⟨[], false, text⟩
      | some (group, rest) =>
        let others := readGroups false rest count
        ⟨UInt16.ofNat group :: others.groups, others.endsInOctets, others.rest⟩

def readV6 (text : List Char) : Option (List UInt16 × List Char) :=
  let head := readGroups true text 8
  if head.groups.length = 8 then some (head.groups, head.rest)
  else if head.endsInOctets then none
  else do
    let rest ← readChar ':' head.rest
    let rest ← readChar ':' rest
    let tail := readGroups true rest (7 - head.groups.length)
    let zeros := 8 - head.groups.length - tail.groups.length
    some (head.groups ++ List.replicate zeros 0 ++ tail.groups, tail.rest)

/-- The scope after a percent sign; without a number there is none, and nothing is read. -/
def readScope (text : List Char) : UInt32 × List Char :=
  match (readChar '%' text).bind (readNumber scopeForm) with
  | some (scope, rest) => (UInt32.ofNat scope, rest)
  | none => (0, text)

def read (text : List Char) : Option (IpAddress × List Char) :=
  match Octets.read text with
  | some (octets, rest) => some (.v4 octets, rest)
  | none => do
    let rest ← readChar '[' text
    let (groups, rest) ← readV6 rest
    let (scope, rest) := readScope rest
    let rest ← readChar ']' rest
    some (.v6 groups scope, rest)

def hexText (n : UInt16) : String := String.ofList (Nat.toDigits 16 n.toNat)

def groupsText (groups : List UInt16) : String := ":".intercalate (groups.map hexText)

def zerosAt (groups : List UInt16) : Nat := (groups.takeWhile (· == 0)).length

/-- Where the longest run of zeros starts, the first of equally long ones, and its length. -/
def longestZeros (groups : List UInt16) : Nat × Nat :=
  (List.range groups.length).foldl
    (fun best start =>
      let count := zerosAt (groups.drop start)
      if best.2 < count then (start, count) else best)
    (0, 0)

def v6Text (groups : List UInt16) : String :=
  match groups with
  | [0, 0, 0, 0, 0, 65535, x, y] =>
    "::ffff:" ++
      Octets.toText
        ⟨UInt8.ofNat (x.toNat / 256), UInt8.ofNat (x.toNat % 256), UInt8.ofNat (y.toNat / 256),
          UInt8.ofNat (y.toNat % 256)⟩
  | groups =>
    let (start, count) := longestZeros groups
    if count > 1 then
      groupsText (groups.take start) ++ "::" ++ groupsText (groups.drop (start + count))
    else groupsText groups

def toText : IpAddress → String
  | v4 octets => octets.toText
  | v6 groups scope =>
    "[" ++ v6Text groups ++ (if scope = 0 then "" else "%" ++ Nat.repr scope.toNat) ++ "]"

end IpAddress

namespace SocketAddress

/-- Reads a whole text. If an IPv4 address is not followed by a port, the text is no address. -/
def parse? (text : String) : Option SocketAddress := do
  let (ip, rest) ← IpAddress.read text.toList
  let (port, rest) ← readNumber portForm (← readChar ':' rest)
  if rest.isEmpty then some ⟨ip, UInt16.ofNat port⟩ else none

def toText (address : SocketAddress) : String :=
  address.ip.toText ++ ":" ++ Nat.repr address.port.toNat

end SocketAddress

end PodWebhook.Net
