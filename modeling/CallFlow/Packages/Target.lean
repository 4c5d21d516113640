import CallFlow.Http.Framework
import CallFlow.Packages.Authority

/-!
# The target of a request

How the client that requests are tried with, httpx, reads a target, and Starlette
its parameters. It is part of the stand-in for the packages, and nothing that is
proved depends on it: to the service a target is a path and parameters.

A request names its target as it would be typed: a path, and behind a
question mark parameters that are separated by ampersands; what stands
behind a number sign is not sent. A scheme and an authority may stand in
front of the path; whatever they are, they lead here. `Target.ofText` takes
the target apart, if it can be one.

Only where both a scheme and a host are named is the path taken as it is
typed. Elsewhere it may start with any number of slashes or none, which
come to one, except that two of them announce an authority.

Steps of a path that lead nowhere, or back, are taken before anything else.
Where something is named in front of the path this comes even before its
slashes are counted, so that steps may be what stands between two slashes.
Characters may be written by their bytes, each as a percent sign and two
digits of base sixteen, and that is undone last.
-/

namespace CallFlow

namespace Target

/-- The bytes of a text in which characters may be written by their bytes. -/
def bytes : List Char → List UInt8
  | [] => []
  | '%' :: a :: b :: rest =>
    match Digit.hex? a, Digit.hex? b with
    | some high, some low => UInt8.ofNat (16 * high + low) :: bytes rest
    | _, _ => String.utf8EncodeChar '%' ++ bytes (a :: b :: rest)
  | c :: rest => String.utf8EncodeChar c ++ bytes rest

/-- The text with all characters as themselves. Bytes that are no text give
the character that stands for such. -/
def plain (cs : List Char) : String :=
  (String.fromUTF8? ⟨(bytes cs).toArray⟩).getD "\ufffd"

/-- Takes one step of a path; the steps taken so far stand in front in
reverse. -/
def takeStep (taken : List (List Char)) (step : List Char) : List (List Char) :=
  if step = ['.'] then taken
  else if step = ['.', '.'] then
    match taken with
    | [] => []
    | [[]] => [[]]
    | _ :: before => before
  else step :: taken

/-- A path without steps that lead nowhere or back. -/
def withoutDots (path : List Char) : List Char :=
  ['/'].intercalate (((pieces '/' path).foldl takeStep []).reverse)

/-- Whether a character may stand in the name of a scheme. -/
def isSchemeChar (c : Char) : Bool := c.isAlphanum || c = '+' || c = '.' || c = '-'

/-- The scheme a text starts with, and what stands behind its colon. The
name of a scheme starts with a letter, or is left out. -/
def splitScheme (cs : List Char) : List Char × List Char :=
  let name := cs.takeWhile isSchemeChar
  match cs.dropWhile isSchemeChar with
  | ':' :: rest => if (name.head?.map Char.isAlpha).getD true then (name, rest) else ([], cs)
  | _ => ([], cs)

/-- The authority that two slashes announce, and the path behind it. -/
def splitAuthority : List Char → Authority × List Char
  | '/' :: '/' :: rest => (Authority.ofText (rest.takeWhile (· ≠ '/')), rest.dropWhile (· ≠ '/'))
  | path => ({}, path)

/-- A path that starts with one slash. -/
def rooted (path : List Char) : List Char := '/' :: path.dropWhile (· = '/')

/-- Reads the parameters of a target. A plus sign stands for a space. -/
def parameters (cs : List Char) : List (String × String) :=
  let text (cs : List Char) : String := plain (cs.map (fun c => if c = '+' then ' ' else c))
  ((pieces '&' cs).filter (fun piece => !piece.isEmpty)).map fun piece =>
    (text (piece.takeWhile (· ≠ '=')), text ((piece.dropWhile (· ≠ '=')).drop 1))

/-- Whether a character can be sent: those that control a terminal cannot. -/
def isSendable (c : Char) : Bool := 32 ≤ c.toNat && c.toNat ≠ 127

/-- How many characters a target has at most. -/
def longest : Nat := 65536

/-- Whether a path cannot stand alone: its start would be taken for that of
an authority, or for the end of a scheme. -/
def needsFront (path : List Char) : Bool :=
  path.take 2 = ['/', '/'] || path.head? = some ':'

/-- The path of a target behind its scheme and authority. -/
def locate (cs : List Char) : Outcome (List Char) :=
  let (scheme, rest) := splitScheme cs
  let (authority, path) := splitAuthority rest
  if !authority.isPlace then .error .badTarget
  else if scheme.isEmpty && authority.isEmpty then
    if needsFront path then .error .badTarget else .ok (withoutDots (rooted path))
  else if scheme.isEmpty || authority.host.isEmpty then
    .ok (withoutDots (rooted (withoutDots path)))
  else .ok (withoutDots path)

/-- Takes a target apart, if it can be one. No path at all is a slash. -/
def ofText (s : String) : Outcome Target := do
  if longest < s.length || !s.toList.all isSendable then throw .badTarget
  let sent := s.toList.takeWhile (· ≠ '#')
  let path ← locate (sent.takeWhile (· ≠ '?'))
  return {
    path := plain (if path.isEmpty then ['/'] else path)
    query := match sent.dropWhile (· ≠ '?') with
      | [] => none
      | _ :: cs => some (parameters cs) }

end Target

end CallFlow
