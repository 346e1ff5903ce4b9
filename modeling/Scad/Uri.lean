import Scad.Uri.Host

/-!
# Scad.Uri

Uniform resource identifiers in normal form, and how they are read.

Reading lower-cases the scheme, drops tabs and newlines, resolves the segments `.` and `..`, escapes
what a part must not hold, and drops a port that is the scheme's own. Schemes of the web and `file`
are special: they have a hierarchical path, take a backslash for a slash, and all but `file` need a
host.

* `Uri.parse`: the uri that a text writes, or why it writes none.
* `Uri.text`: the normal form, which identifies a document.
-/

namespace Scad

open Text Uri

/-- A uri in normal form. `authority` says that the path is preceded by `//` and what stands there.
-/
structure Uri where
  scheme : List Char
  authority : Bool
  userinfo : List Char
  host : Option Uri.Host
  port : Option Nat
  path : List Char
  query : Option (List Char)
  fragment : Option (List Char)
  deriving DecidableEq, Repr

namespace Uri

/-- The port of a scheme of the web. -/
def defaultPort? (scheme : List Char) : Option Nat :=
  if scheme = "http".toList ∨ scheme = "ws".toList then some 80
  else if scheme = "https".toList ∨ scheme = "wss".toList then some 443
  else if scheme = "ftp".toList then some 21
  else none

/-- The three sorts of scheme. -/
inductive SchemeKind where
  | file
  | web
  | other
  deriving DecidableEq, Repr

/-- The sort of a scheme in lower case. -/
def SchemeKind.of (scheme : List Char) : SchemeKind :=
  if scheme = "file".toList then .file
  else if (defaultPort? scheme).isSome then .web
  else .other

/-- Whether a backslash is taken for a slash and the path is always hierarchical. -/
def SchemeKind.isSpecial (k : SchemeKind) : Bool := k != .other

/-- The normal form of a uri. A path that begins with `//` and follows no authority is preceded by
`/.`, so that it is not taken for one. -/
def text (u : Uri) : String :=
  let authority :=
    if u.authority then
      "//".toList ++ u.userinfo ++ (u.host.elim [] Host.text) ++
        (u.port.elim [] fun p => ':' :: Nat.toDigits 10 p)
    else if "//".toList.isPrefixOf u.path then "/.".toList
    else []
  String.ofList (u.scheme ++ ':' :: authority ++ u.path ++ (u.query.elim [] ('?' :: ·)) ++
    (u.fragment.elim [] ('#' :: ·)))

/-- The host as text, if the uri has one. -/
def hostText? (u : Uri) : Option String := u.host.map fun h => String.ofList h.text

/-! ## Drive letters

A path of a `file` uri may begin with a drive letter, which `..` does not remove. -/

/-- A letter and a colon or bar. -/
def isDrive : List Char → Bool
  | [a, b] => a.isAlpha && (b == ':' || b == '|')
  | _ => false

/-- A letter and a colon. -/
def isNormalDrive : List Char → Bool
  | [a, b] => a.isAlpha && b == ':'
  | _ => false

/-- Characters that end a segment. -/
def endsSegment (c : Char) : Bool := c == '/' || c == '\\' || c == '?' || c == '#'

/-- Whether a path begins with a segment that is a drive letter. -/
def startsWithDrive : List Char → Bool
  | c :: a :: b :: rest => endsSegment c && isDrive [a, b] && rest.head?.all endsSegment
  | _ => false

/-! ## Paths -/

/-- The segment `.`, also written with an escape. -/
def isDot (s : List Char) : Bool := ["." , "%2e", "%2E"].any fun d => d.toList == s

/-- The segment `..`, also written with escapes. -/
def isDotDot (s : List Char) : Bool :=
  ["..", "%2e%2e", "%2e%2E", "%2E%2e", "%2E%2E", "%2e.", "%2E.", ".%2e", ".%2E"].any fun d =>
    d.toList == s

/-- The part of a path up to and including its last slash. -/
def throughSlash (path : List Char) : List Char := (path.reverse.dropWhile (· != '/')).reverse

/-- A path, which ends with a slash, without that slash, unless it is the first one or ends a drive
letter. -/
def dropSlash (path : List Char) : List Char :=
  let before := path.dropLast
  match throughSlash before with
  | [] => path
  | upto => if startsWithDrive (path.drop (upto.length - 1)) then path else before

/-- A path without its last segment. -/
def shorten (kind : SchemeKind) (path : List Char) : List Char :=
  let upto := throughSlash path
  if kind = .file ∧ isNormalDrive (path.drop upto.length) = true then path else upto

/-- What a path becomes when the segment at its end, which starts at the index `start`, is complete.
`slash` says that a slash has been written after it. The flag says that a drive letter was put in
order, after which a `file` uri has no host. -/
def finishSegment (kind : SchemeKind) (path : List Char) (start : Nat) (slash : Bool) :
    List Char × Bool :=
  let segment := (path.drop start).take (path.length - start - (if slash then 1 else 0))
  let before := path.take start
  let ensureSlash (p : List Char) := if p.getLast? = some '/' then p else p ++ ['/']
  if isDotDot segment then
    let shorter := shorten kind (if before.getLast? = some '/' then dropSlash before else before)
    (if slash then ensureSlash shorter else shorter, false)
  else if isDot segment then (ensureSlash before, false)
  else if kind = .file ∧ start = 1 ∧ isDrive segment = true then
    (before ++ segment.take 1 ++ ':' :: (if slash then ['/'] else []), true)
  else (path, false)

/-- The path read from the head of a text, after the part `path` of it whose last segment starts at
the index `start`, with the rest of the text from the query on. -/
def readPath (kind : SchemeKind) (path : List Char) (start : Nat) (drive : Bool) :
    List Char → (List Char × Bool) × List Char
  | [] =>
    let (path, found) := finishSegment kind path start false
    ((path, drive || found), [])
  | c :: cs =>
    if c = '/' ∨ (c = '\\' ∧ kind.isSpecial = true) then
      let (path, found) := finishSegment kind (path ++ ['/']) start true
      readPath kind path path.length (drive || found) cs
    else if c = '?' ∨ c = '#' then
      let (path, found) := finishSegment kind path start false
      ((path, drive || found), c :: cs)
    else readPath kind (path ++ encodeText Escape.path [c]) start drive cs

/-- The path at the head of a text, whose beginning `path` is already known, whether a drive letter
was put in order in it, and the rest of the text. The path of a `file` uri begins with one slash. -/
def pathFrom (kind : SchemeKind) (path : List Char) (s : List Char) :
    (List Char × Bool) × List Char :=
  let ((full, drive), rest) := readPath kind path path.length false s
  if kind = .file then (('/' :: full.dropWhile (· == '/'), drive), rest) else ((full, drive), rest)

/-- The path after an authority. A special uri always has one. -/
def pathAfterAuthority (kind : SchemeKind) (s : List Char) : (List Char × Bool) × List Char :=
  match kind, s with
  | .other, [] => (([], false), [])
  | .other, c :: cs =>
    if c = '?' ∨ c = '#' then (([], false), c :: cs)
    else if c = '/' then pathFrom .other [] (c :: cs)
    else pathFrom .other ['/'] (c :: cs)
  | kind, c :: cs =>
    if c = '/' ∨ c = '\\' then pathFrom kind ['/'] cs else pathFrom kind ['/'] (c :: cs)
  | kind, [] => pathFrom kind ['/'] []

/-! ## Query and fragment -/

/-- The query and the fragment that a text consists of, each if it is there. -/
def queryAndFragment (kind : SchemeKind) (s : List Char) :
    Option (List Char) × Option (List Char) :=
  let set := if kind.isSpecial then Escape.specialQuery else Escape.query
  let fragmentOf (s : List Char) :=
    match s with
    | _ :: cs => some (encodeText Escape.fragment cs)
    | [] => none
  match s with
  | '?' :: cs =>
    (some (encodeText set (cs.takeWhile (· != '#'))), fragmentOf (cs.dropWhile (· != '#')))
  | rest => (none, fragmentOf rest)

/-! ## Authority -/

/-- The user name and password, as they stand in the uri with the `@` after them. An empty password
is dropped together with its colon. -/
def userinfoText (s : List Char) : List Char :=
  let name := encodeText Escape.userinfo (s.takeWhile (· != ':'))
  let password := (s.dropWhile (· != ':')).tail
  let full := if password.isEmpty then name else name ++ ':' :: encodeText Escape.userinfo password
  if full.isEmpty then [] else full ++ ['@']

/-- The text before and after the last `@`, if there is one. -/
def splitUserinfo? (s : List Char) : Option (List Char × List Char) :=
  (splitAt? (· == '@') s.reverse).map fun (after, before) => (before.reverse, after.reverse)

/-- The host part of an authority and the rest, from the colon before the port on. A colon in square
brackets belongs to the host. -/
def splitHost (inBrackets : Bool) : List Char → List Char × List Char
  | [] => ([], [])
  | c :: cs =>
    if c = ':' ∧ inBrackets = false then ([], c :: cs)
    else
      let inside := if c = '[' then true else if c = ']' then false else inBrackets
      let (host, rest) := splitHost inside cs
      (c :: host, rest)

/-- The port that a text after a colon writes, none if it is empty or the scheme's own, and what
follows its digits, which is nothing or a backslash. -/
def readPort (scheme s : List Char) : Except Fault (Option Nat × List Char) :=
  let digits := s.takeWhile Char.isDigit
  let rest := s.dropWhile Char.isDigit
  let n := digits.foldl (fun n d => 10 * n + (d.toNat - '0'.toNat)) 0
  if 65535 < n ∨ rest.head?.any (· != '\\') = true then .error .port
  else .ok (if digits.isEmpty ∨ defaultPort? scheme = some n then none else some n, rest)

/-- Whether a character ends the authority. -/
def endsAuthority (kind : SchemeKind) (c : Char) : Bool :=
  c == '/' || c == '?' || c == '#' || (c == '\\' && kind.isSpecial)

/-- The uri with the given scheme whose authority and all that follows is `s`. A host must not be
missing where the scheme, a port or a user name asks for one. -/
def withAuthority (scheme : List Char) (kind : SchemeKind) (s : List Char) : Except Fault Uri := do
  let authority := s.takeWhile fun c => !endsAuthority kind c
  let rest := s.dropWhile fun c => !endsAuthority kind c
  let (credentials, hostPort) := (splitUserinfo? authority).getD ([], authority)
  let userinfo := userinfoText credentials
  let (hostPart, portPart) := splitHost false hostPort
  if hostPart.isEmpty ∧ (kind.isSpecial = true ∨ !portPart.isEmpty ∨ !userinfo.isEmpty ∨
      (authority = ['@'] ∧ !rest.isEmpty)) then .error .emptyHost
  else
    let host ← if kind.isSpecial then Host.ofSpecial hostPart else Host.ofOpaque hostPart
    let (port, beyond) ← readPort scheme portPart.tail
    let ((path, _), rest) := pathAfterAuthority kind (beyond ++ rest)
    let (query, fragment) := queryAndFragment kind rest
    let host := if host = .domain [] then none else some host
    return ⟨scheme, true, userinfo, host, port, path, query, fragment⟩

/-! ## Files -/

/-- The `file` uri with the given host and path. -/
def fileUri (host : Option Host) (path rest : List Char) : Uri :=
  let (query, fragment) := queryAndFragment .file rest
  ⟨"file".toList, true, [], host, none, path, query, fragment⟩

/-- The `file` uri whose host and all that follows is `s`. The host `localhost` is none, and a drive
letter in place of the host begins the path. -/
def fileWithHost (s : List Char) : Except Fault Uri := do
  let hostPart := s.takeWhile fun c => !endsSegment c
  let rest := s.dropWhile fun c => !endsSegment c
  let bare (path s : List Char) :=
    let ((path, _), rest) := pathFrom .file path s
    fileUri none path rest
  if isDrive hostPart then return bare ['/'] s
  else if hostPart.isEmpty then return bare ['/'] rest
  else
    let host ← Host.ofSpecial hostPart
    if host = .domain "localhost".toList then return bare ['/'] rest
    else
      let ((path, drive), rest) := pathAfterAuthority .file rest
      return fileUri (if drive then none else some host) path rest

/-- The `file` uri whose scheme is followed by `s`. Two slashes come before a host. -/
def file (s : List Char) : Except Fault Uri :=
  let isSlash (c : Char) := c == '/' || c == '\\'
  let bare (s : List Char) :=
    let ((path, _), rest) := pathFrom .file ['/'] s
    fileUri none path rest
  match s with
  | a :: b :: rest =>
    if isSlash a && isSlash b then fileWithHost rest
    else .ok (bare (if isSlash a then b :: rest else s))
  | [a] => .ok (bare (if isSlash a then [] else s))
  | [] => .ok (bare [])

/-! ## Whole uris -/

/-- The uri without authority whose scheme is followed by `s`. -/
def withoutAuthority (scheme s : List Char) : Uri :=
  match s with
  | '/' :: rest =>
    let ((path, _), rest) := pathFrom .other ['/'] rest
    let (query, fragment) := queryAndFragment .other rest
    ⟨scheme, false, [], none, none, path, query, fragment⟩
  | _ =>
    let isEnd (c : Char) := c == '?' || c == '#'
    let path := encodeText Escape.control (s.takeWhile fun c => !isEnd c)
    let (query, fragment) := queryAndFragment .other (s.dropWhile fun c => !isEnd c)
    ⟨scheme, false, [], none, none, path, query, fragment⟩

/-- Characters of a scheme after its first letter. -/
def isSchemeChar (c : Char) : Bool := c.isAlphanum || c == '+' || c == '-' || c == '.'

/-- The scheme of a text in lower case and what follows its colon. -/
def scheme? (s : List Char) : Option (List Char × List Char) :=
  let scheme := s.takeWhile isSchemeChar
  match s.dropWhile isSchemeChar with
  | ':' :: rest =>
    if scheme.head?.any Char.isAlpha then some (scheme.map Char.toLower, rest) else none
  | _ => none

/-- The text without blanks and control characters around it and without tabs and newlines in it. -/
def clean (s : List Char) : List Char :=
  let isEdge (c : Char) := decide (c.toNat ≤ 0x20)
  let trimmed := ((s.dropWhile isEdge).reverse.dropWhile isEdge).reverse
  trimmed.filter fun c => !(c == '\t' || c == '\n' || c == '\r')

/-- The uri that a text writes, or why it writes none. -/
def parse (s : String) : Except Fault Uri :=
  match scheme? (clean s.toList) with
  | none => .error .relative
  | some (scheme, rest) =>
    match SchemeKind.of scheme, rest with
    | .file, rest => file rest
    | .web, rest => withAuthority scheme .web (rest.dropWhile fun c => c == '/' || c == '\\')
    | .other, '/' :: '/' :: rest => withAuthority scheme .other rest
    | .other, rest => .ok (withoutAuthority scheme rest)

/-- The uri that a text writes, if it writes one. -/
def parse? (s : String) : Option Uri := (parse s).toOption

end Uri
end Scad
