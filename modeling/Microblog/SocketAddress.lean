import Microblog.Wire.Encode

/-!
# Socket addresses

A server listens on an address and a number behind a colon: `127.0.0.1:7777`, or
with an address of eight groups `[2001:db8::1]:7777`, in which one run of zero
groups may be left out and the last two groups may be written as four numbers.
Such an address may name a scope, `[fe80::1%5]:7777`.

An address is written in one form only: small hexadecimal digits, no zeros in
front, and the first longest run of at least two zero groups left out.

## Main definitions

* `SocketAddress`, `Ipv4`, `Ipv6` — the addresses.
* `SocketAddress.parse?` — the address that a text gives.
* `SocketAddress.text` — the address written out.
-/

namespace Microblog

/-- An address of four numbers. -/
structure Ipv4 where
  /-- The first number. -/
  a : UInt8
  /-- The second number. -/
  b : UInt8
  /-- The third number. -/
  c : UInt8
  /-- The fourth number. -/
  d : UInt8
  deriving DecidableEq, Repr, Inhabited

/-- An address of eight groups. -/
structure Ipv6 where
  /-- The groups, the highest first. -/
  groups : List UInt16
  /-- There are eight of them. -/
  length_groups : groups.length = 8
  deriving DecidableEq, Repr

/-- What a server listens on. -/
inductive SocketAddress where
  /-- An address of four numbers and a `portNumber`. -/
  | v4 (ip : Ipv4) (portNumber : UInt16)
  /-- An address of eight groups, its scope, and a `portNumber`. -/
  | v6 (ip : Ipv6) (scope : UInt32) (portNumber : UInt16)
  deriving DecidableEq, Repr

namespace SocketAddress

/-! ### Reading -/

/-- What a character counts as a digit, up to sixteen. -/
def digit? (c : Char) : Option Nat :=
  if '0' ≤ c ∧ c ≤ '9' then some (c.toNat - 0x30)
  else if 'a' ≤ c ∧ c ≤ 'f' then some (c.toNat - 0x57)
  else if 'A' ≤ c ∧ c ≤ 'F' then some (c.toNat - 0x37)
  else none

/-- The digits in base `radix` at the front of a text, as numbers, and the rest. -/
def digits (radix : Nat) : List Char → List Nat × List Char
  | [] => ([], [])
  | c :: cs =>
    match digit? c with
    | some d => if d < radix then (d :: (digits radix cs).1, (digits radix cs).2) else ([], c :: cs)
    | none => ([], c :: cs)

/-- A number below `bound` in base `radix` with at least one digit, and the rest. -/
def number (radix bound : Nat) (cs : List Char) : Option (Nat × List Char) :=
  let ds := (digits radix cs).1
  let n := ds.foldl (fun n d => n * radix + d) 0
  if ds ≠ [] ∧ n < bound then some (n, (digits radix cs).2) else none

/-- A number of at most three digits, with no zero in front, below 256. -/
def octet (cs : List Char) : Option (UInt8 × List Char) :=
  let ds := (digits 10 cs).1
  if ds.length ≤ 3 ∧ ¬ (ds.head? = some 0 ∧ 1 < ds.length) then
    (number 10 256 cs).map fun n => (n.1.toUInt8, n.2)
  else none

/-- A group of at most four hexadecimal digits. -/
def group (cs : List Char) : Option (UInt16 × List Char) :=
  if (digits 16 cs).1.length ≤ 4 then (number 16 0x10000 cs).map fun n => (n.1.toUInt16, n.2)
  else none

/-- A text without the character `c` at its front. -/
def skip (c : Char) : List Char → Option (List Char)
  | [] => none
  | d :: cs => if d = c then some cs else none

/-- Four numbers with points between them. -/
def ipv4 (cs : List Char) : Option (Ipv4 × List Char) := do
  let (a, cs) ← octet cs
  let (b, cs) ← octet (← skip '.' cs)
  let (c, cs) ← octet (← skip '.' cs)
  let (d, cs) ← octet (← skip '.' cs)
  return (⟨a, b, c, d⟩, cs)

/-- Groups with colons between them. -/
structure Groups where
  /-- The groups. -/
  groups : List UInt16
  /-- The last two were written as four numbers. -/
  dotted : Bool
  /-- What follows them. -/
  rest : List Char

/-- As many groups as there are, but at most `limit`.  Each but the first stands
behind a colon; where two may follow, they may be written as four numbers, which
ends the list. -/
def groupsUpTo (limit : Nat) (isFirst : Bool) (cs : List Char) : Groups :=
  match limit with
  | 0 => ⟨[], false, cs⟩
  | left + 1 =>
    match if isFirst then some cs else skip ':' cs with
    | none => ⟨[], false, cs⟩
    | some ds =>
      match if left = 0 then none else ipv4 ds with
      | some (ip, rest) => ⟨[Wire.ofBytes ip.a ip.b, Wire.ofBytes ip.c ip.d], true, rest⟩
      | none =>
        match group ds with
        | none => ⟨[], false, cs⟩
        | some (g, rest) =>
          let more := groupsUpTo left false rest
          { more with groups := g :: more.groups }

/-- Eight groups, or fewer with two colons for the zero groups left out, of which
there is at least one. -/
def ipv6 (cs : List Char) : Option (Ipv6 × List Char) :=
  let front := groupsUpTo 8 true cs
  if h : front.groups.length = 8 then some (⟨front.groups, h⟩, front.rest)
  else if front.dotted then none
  else do
    let cs ← skip ':' (← skip ':' front.rest)
    let back := groupsUpTo (7 - front.groups.length) true cs
    let zeros := 8 - front.groups.length - back.groups.length
    let all := front.groups ++ List.replicate zeros 0 ++ back.groups
    if h : all.length = 8 then some (⟨all, h⟩, back.rest) else none

/-- A colon and a `portNumber` at the end of a text. -/
def portAtEnd (cs : List Char) : Option UInt16 := do
  let (n, cs) ← number 10 0x10000 (← skip ':' cs)
  if cs = [] then some n.toUInt16 else none

/-- The scope of an address, and the rest; zero if there is none. -/
def scope (cs : List Char) : UInt32 × List Char :=
  match (skip '%' cs).bind (number 10 0x100000000) with
  | some (n, rest) => (n.toUInt32, rest)
  | none => (0, cs)

/-- The address of four numbers that a text gives. -/
def parseV4? (cs : List Char) : Option SocketAddress := do
  let (ip, cs) ← ipv4 cs
  return .v4 ip (← portAtEnd cs)

/-- The address of eight groups that a text gives. -/
def parseV6? (cs : List Char) : Option SocketAddress := do
  let (ip, cs) ← ipv6 (← skip '[' cs)
  let (scopeId, cs) := scope cs
  return .v6 ip scopeId (← portAtEnd (← skip ']' cs))

/-- The address that a text gives. -/
def parse? (s : String) : Option SocketAddress := parseV4? s.toList <|> parseV6? s.toList

/-! ### Writing -/

end SocketAddress

/-- Four numbers with points between them. -/
def Ipv4.text (ip : Ipv4) : String :=
  ".".intercalate ([ip.a, ip.b, ip.c, ip.d].map fun n => n.toNat.repr)

/-- Groups in hexadecimal digits with colons between them. -/
def groupsText (groups : List UInt16) : String :=
  ":".intercalate (groups.map fun g => String.ofList (Nat.toDigits 16 g.toNat))

/-- How many zero groups there are at the front. -/
def zerosAtFront (groups : List UInt16) : Nat := (groups.takeWhile (· = 0)).length

/-- Where the first longest run of zero groups begins, and how long it is.  A list
of no groups has a run of length zero at its front. -/
def longestZeros : List UInt16 → Nat × Nat
  | [] => (0, 0)
  | g :: groups =>
    let here := zerosAtFront (g :: groups)
    let later := longestZeros groups
    if later.2 ≤ here then (0, here) else (later.1 + 1, later.2)

/-- An address of eight groups written out.  One that stands for an address of four
numbers is shown with these. -/
def Ipv6.text (ip : Ipv6) : String :=
  match ip.groups with
  | [0, 0, 0, 0, 0, 0xFFFF, hi, lo] =>
    "::ffff:" ++ Ipv4.text ⟨(hi >>> 8).toUInt8, hi.toUInt8, (lo >>> 8).toUInt8, lo.toUInt8⟩
  | groups =>
    let run := longestZeros groups
    if 1 < run.2 then
      groupsText (groups.take run.1) ++ "::" ++ groupsText (groups.drop (run.1 + run.2))
    else groupsText groups

/-- An address written out. -/
def SocketAddress.text : SocketAddress → String
  | v4 ip portNumber => ip.text ++ ":" ++ portNumber.toNat.repr
  | v6 ip scope portNumber =>
    let scopeText := if scope = 0 then "" else "%" ++ scope.toNat.repr
    "[" ++ ip.text ++ scopeText ++ "]:" ++ portNumber.toNat.repr

end Microblog
