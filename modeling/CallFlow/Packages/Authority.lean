import CallFlow.Packages.Host
import CallFlow.Number.Decimal

/-!
# Authorities

How the client that requests are tried with reads what stands in front of a
path. It is part of the stand-in for the packages, and nothing that is proved
depends on it.

Where a target is to be found is its *authority*: a host, in front of it
perhaps a user and an at sign, behind it perhaps a colon and a port. Each
of the three may be left out.
-/

namespace CallFlow

/-- Where a target is to be found. -/
structure Authority where
  /-- Who asks, up to the last at sign. -/
  user : List Char := []
  /-- The host. -/
  host : List Char := []
  /-- The port. -/
  port : List Char := []
  deriving DecidableEq, Repr

namespace Authority

/-- Splits off a host. It ends at a colon, or if it starts with a square
bracket, with the last one that closes. -/
def splitHost (cs : List Char) : List Char × List Char :=
  if cs.head? = some '[' && cs.contains ']' then
    ((cs.reverse.dropWhile (· ≠ ']')).reverse, (cs.reverse.takeWhile (· ≠ ']')).reverse)
  else (cs.takeWhile (· ≠ ':'), cs.dropWhile (· ≠ ':'))

/-- Takes an authority apart. -/
def ofText (cs : List Char) : Authority :=
  let (host, rest) := splitHost (cs.reverse.takeWhile (· ≠ '@')).reverse
  { user := ((cs.reverse.dropWhile (· ≠ '@')).drop 1).reverse
    host := host
    port := if rest.head? = some ':' then rest.drop 1 else rest }

/-- Whether nothing is named. -/
def isEmpty (a : Authority) : Bool := a.user.isEmpty && a.host.isEmpty && a.port.isEmpty

/-- Whether a target may be found there: the port is a whole number, and the
host can be one. -/
def isPlace (a : Authority) : Bool :=
  (a.port.isEmpty || (readWhole? (String.ofList a.port)).isSome) && Host.isHost a.host

end Authority

end CallFlow
