/-
# URLs of web servers

A URL with the scheme `http` or `https` names a server and a resource on it. Reading one brings it
into its normal form: blanks around it and line breaks in it do not count, a backslash is a slash,
letters of the scheme and the host are lower case, a host that ends in a number is an IPv4 address,
the default port is left out, the segments `.` and `..` of the path are carried out, and characters
that may not stand somewhere are escaped. The name of a host may be in any script and is brought
into ASCII.

Key definitions: `Url`, `Url.Host`, `Url.read`, `Url.parse?`, `Url.text`, `Url.pathText`,
`Url.target`.
-/
import LanInference.Net.Address
import LanInference.Net.DomainName
import LanInference.Text.Percent
import LanInference.Text.Trim

namespace LanInference

/-- The host of a URL. -/
inductive Url.Host where
  | name (cs : List Char)
  | v4 (a : Ipv4)
  | v6 (a : Ipv6)
  deriving Repr, DecidableEq

structure Url where
  /-- Whether the scheme is `https`. -/
  secure : Bool
  /-- What stands before the host: a name, and perhaps a colon and a password. -/
  user : List Char := []
  host : Url.Host
  /-- The port, if it is not the default one of the scheme. -/
  port : Option UInt16 := none
  /-- The segments of the path, each after a slash. -/
  path : List (List Char)
  query : Option (List Char) := none
  fragment : Option (List Char) := none
  deriving Repr, DecidableEq

namespace Url

/-! ### Which characters stand for themselves -/

/-- A printable ASCII character that is none of these. -/
def plainExcept (others : List Char) (c : Char) : Bool :=
  decide (' ' < c ∧ c.toNat < 0x7F) && !others.contains c

def plainInFragment : Char → Bool := plainExcept ['"', '<', '>', '\x60']

def plainInQuery : Char → Bool := plainExcept ['"', '#', '<', '>', '\'']

def plainInPath : Char → Bool :=
  plainExcept ['"', '#', '<', '>', '?', '^', '\x60', '\x7b', '\x7d']

def plainInUser : Char → Bool :=
  plainExcept ['"', '#', '<', '>', '?', '^', '\x60', '\x7b', '\x7d', '/', ':', ';', '=', '@', '[',
    '\\', ']', '|']

/-- The characters that the name of a host cannot have. -/
def isForbiddenInName (c : Char) : Bool :=
  decide (c ≤ ' ' ∨ c.toNat = 0x7F) ||
    ['%', '#', '/', ':', '<', '>', '?', '@', '[', '\\', ']', '^', '|'].contains c

/-! ### Hosts -/

/-- A number of an IPv4 address: hexadecimal after `0x`, octal after `0`, and decimal otherwise. -/
def ipv4Number? (cs : List Char) : Option Nat :=
  let inBase (base : Nat) (ds : List Char) : Option Nat :=
    ds.foldlM (fun n c => ((Text.hexDigit? c).filter (· < base)).map (base * n + ·)) 0
  match cs with
  | [] => none
  | ['0'] => some 0
  | '0' :: 'x' :: ds => inBase 16 ds
  | '0' :: 'X' :: ds => inBase 16 ds
  | '0' :: ds => inBase 8 ds
  | ds => inBase 10 ds

/-- The parts of a name between its dots, without an empty one at the end. -/
def labels (cs : List Char) : List (List Char) :=
  let parts := cs.splitOn '.'
  if parts.getLast? = some [] then parts.dropLast else parts

/-- Whether the last label of a name is a number, which makes the name an IPv4 address. -/
def endsInNumber (cs : List Char) : Bool :=
  match (labels cs).getLast? with
  | some l => (l ≠ [] && l.all Char.isDigit) || (ipv4Number? l).isSome
  | none => false

/-- An IPv4 address in one to four numbers, the last of which fills what the others leave. -/
def ipv4? (cs : List Char) : Option Ipv4 := do
  let numbers ← (labels cs).mapM ipv4Number?
  let last ← numbers.getLast?
  let before := numbers.dropLast
  if 3 < before.length ∨ before.any (255 < ·) ∨ 1 <<< (8 * (4 - before.length)) ≤ last then none
  let places := [16777216, 65536, 256]
  let n := (before.zip places).foldl (fun n p => n + p.1 * p.2) last
  return ⟨UInt8.ofNat (n / 16777216), UInt8.ofNat (n / 65536), UInt8.ofNat (n / 256), UInt8.ofNat n⟩

/-- The IPv6 address between brackets. -/
def ipv6? (cs : List Char) : Option Ipv6 :=
  if cs.getLast? = some ']' then
    match Ipv6.read? cs.dropLast with
    | some (a, []) => some a
    | _ => none
  else none

def Host.parse? : List Char → Option Host
  | '[' :: cs => (ipv6? cs).map .v6
  | cs => do
    let name ← DomainName.ofText? (Utf8.decodeLossy (Text.percentDecode cs))
    if name = [] ∨ name.any isForbiddenInName then none
    else if endsInNumber name then (ipv4? name).map .v4
    else some (.name name)

def Host.text : Host → List Char
  | name cs => cs
  | v4 a => a.text
  | v6 a => '[' :: a.hexText ++ [']']

/-! ### Paths -/

/-- A dot as a URL may write it. -/
def dotForms : List (List Char) := [".", "%2e", "%2E"].map String.toList

/-- Whether a segment stands for the directory it is in. -/
def isDot (segment : List Char) : Bool := dotForms.contains segment

/-- Whether a segment stands for the directory above. -/
def isDoubleDot (segment : List Char) : Bool :=
  dotForms.any fun a => dotForms.any fun b => segment == a ++ b

/-- Whether a segment looks like the letter of a drive. -/
def isDriveLetter : List Char → Bool
  | [c, d] => c.isAlpha && (d == ':' || d == '|')
  | _ => false

/-- The directory above, as segments with the last one first. There is none above a segment that
looks like the letter of a drive, wherever in the path it stands and whatever the scheme is. -/
def parent : List (List Char) → List (List Char)
  | [] => []
  | segment :: above => if isDriveLetter segment then segment :: above else above

/-- The segments of a path with its dots carried out. `above` are the segments so far, the last one
first. A dot at the end leaves an empty segment. -/
def resolveDots (above : List (List Char)) : List (List Char) → List (List Char)
  | [] => above.reverse
  | segment :: rest =>
    let above := if isDoubleDot segment then parent above else above
    let above := if !isDot segment && !isDoubleDot segment then segment :: above
      else if rest = [] then [] :: above
      else above
    resolveDots above rest

def isSlash (c : Char) : Bool := c == '/' || c == '\\'

/-- The segments of a path: what stands between its slashes. -/
def segments (cs : List Char) : List (List Char) :=
  let cs := match cs with
    | c :: rest => if isSlash c then rest else cs
    | [] => []
  resolveDots [] ((cs.splitOnP isSlash).map (Text.percentEncode plainInPath))

/-! ### Reading -/

/-- What stands before the last `@` of an authority, and what after it. -/
def splitUser (authority : List Char) : List Char × List Char :=
  if authority.contains '@' then
    let behind := (authority.reverse.takeWhile (· ≠ '@')).reverse
    (authority.take (authority.length - behind.length - 1), behind)
  else ([], authority)

/-- The text of a name and a password. An empty password goes with its colon. -/
def userText (cs : List Char) : List Char :=
  let name := Text.percentEncode plainInUser (cs.takeWhile (· ≠ ':'))
  match Text.percentEncode plainInUser ((cs.dropWhile (· ≠ ':')).drop 1) with
  | [] => name
  | password => name ++ ':' :: password

/-- A host and, after the first colon outside brackets, a port. -/
def splitPort (inside : Bool) : List Char → List Char × Option (List Char)
  | [] => ([], none)
  | c :: cs =>
    if c = ':' ∧ inside = false then ([], some cs)
    else
      let (host, port) := splitPort (c = '[' || (inside && c ≠ ']')) cs
      (c :: host, port)

def defaultPort (secure : Bool) : Nat := if secure then 443 else 80

/-- The port in decimal digits: nothing for the default one or for no digits. -/
def port? (secure : Bool) (ds : List Char) : Option (Option UInt16) :=
  let n := Text.decimalValue ds
  if !ds.all Char.isDigit || 65535 < n then none
  else if ds = [] ∨ n = defaultPort secure then some none
  else some (some (UInt16.ofNat n))

/-- Whether a character ends the authority. -/
def endsAuthority (c : Char) : Bool := isSlash c || c == '?' || c == '#'

/-- What follows the scheme and its colon, with any number of slashes before the authority. -/
def ofRest? (secure : Bool) (cs : List Char) : Option Url := do
  let cs := cs.dropWhile isSlash
  let (user, server) := splitUser (cs.takeWhile (!endsAuthority ·))
  let (host, portDigits) := splitPort false server
  let host ← Host.parse? host
  let port ← port? secure (portDigits.getD [])
  let (path, rest) := (cs.dropWhile (!endsAuthority ·)).span fun c => c ≠ '?' && c ≠ '#'
  let (query, rest) := rest.span (· ≠ '#')
  return {
    secure, host, port
    user := userText user
    path := segments path
    query := if query = [] then none else some (Text.percentEncode plainInQuery query.tail)
    fragment := if rest = [] then none else some (Text.percentEncode plainInFragment rest.tail) }

/-- The text as it is read: without control characters and blanks around it, and without tabs and
line breaks. -/
def clean (cs : List Char) : List Char :=
  (Text.dropTrailing (· ≤ ' ') (cs.dropWhile (· ≤ ' '))).filter
    fun c => c ≠ '\t' && c ≠ '\n' && c ≠ '\r'

/-- The scheme in lower case, and what follows its colon. -/
def scheme? (cs : List Char) : Option (List Char × List Char) :=
  let isIn (c : Char) : Bool := c.isAlphanum || c == '+' || c == '-' || c == '.'
  match cs, cs.dropWhile isIn with
  | c :: _, ':' :: rest =>
    if c.isAlpha then some ((cs.takeWhile isIn).map Char.toLower, rest) else none
  | _, _ => none

/-- Whether the host of a scheme that gives no rules for it is right. -/
def isGeneralHost : List Char → Bool
  | '[' :: cs => (ipv6? cs).isSome
  | cs => !cs.any fun c => isForbiddenInName c && c ≠ '%' && c.toNat ≠ 0x7F &&
      (c == '\x00' || ' ' ≤ c)

/-- Whether the authority of a scheme that gives no rules for it is right. It may have no host if it
has no user and no port, and an `@` alone has to be the last of the URL. A backslash ends a port. -/
def isGeneralAuthority (isLast : Bool) (authority : List Char) : Bool :=
  let (user, server) := splitUser authority
  let (host, port) := splitPort false server
  let hostIsRight :=
    if host = [] then port.isNone && userText user == [] && (isLast || authority != ['@'])
    else isGeneralHost host
  hostIsRight && (port? false ((port.getD []).takeWhile (· ≠ '\\'))).isSome

/-- Whether what follows the colon of any other scheme can be a URL. Where an authority stands, its
host and its port have to be right. -/
def isWellFormed (scheme rest : List Char) : Bool :=
  if ["ftp", "ws", "wss"].contains (String.ofList scheme) then (ofRest? false rest).isSome
  else if scheme = "file".toList then
    match rest with
    | a :: b :: cs =>
      let host := cs.takeWhile (!endsAuthority ·)
      !(isSlash a && isSlash b) || host == [] || isDriveLetter host || (Host.parse? host).isSome
    | _ => true
  else
    match rest with
    | '/' :: '/' :: cs =>
      let (authority, rest) := cs.span fun c => c ≠ '/' && c ≠ '?' && c ≠ '#'
      isGeneralAuthority (rest = []) authority
    | _ => true

/-- What a text is that may be a URL. -/
inductive Reading where
  | web (u : Url)
  /-- A URL of another scheme. -/
  | other
  | invalid
  deriving Repr, DecidableEq

def read (s : String) : Reading :=
  match scheme? (clean s.toList) with
  | none => .invalid
  | some (scheme, rest) =>
    if scheme = "http".toList ∨ scheme = "https".toList then
      match ofRest? (scheme = "https".toList) rest with
      | some u => .web u
      | none => .invalid
    else if isWellFormed scheme rest then .other
    else .invalid

def parse? (s : String) : Option Url :=
  match read s with
  | .web u => some u
  | _ => none

/-! ### Writing -/

def pathText (u : Url) : List Char := u.path.flatMap ('/' :: ·)

/-- What a request asks the server for: the path and the query. -/
def target (u : Url) : String :=
  String.ofList (u.pathText ++ (u.query.map ('?' :: ·)).getD [])

/-- The URL in its normal form. -/
def text (u : Url) : String :=
  let scheme := if u.secure then "https://" else "http://"
  let user := if u.user = [] then [] else u.user ++ ['@']
  let port := match u.port with
    | some p => ':' :: Text.decimal p.toNat
    | none => []
  String.ofList (scheme.toList ++ user ++ u.host.text ++ port ++ u.pathText ++
    (u.query.map ('?' :: ·)).getD [] ++ (u.fragment.map ('#' :: ·)).getD [])

end Url
end LanInference
