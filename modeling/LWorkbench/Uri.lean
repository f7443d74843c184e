import LWorkbench.Uri.Host
import LWorkbench.Uri.Path

/-!
# Uris

An editor names documents by uri: a scheme, perhaps an authority, which is a host with perhaps a
user and the number of a service, a path, perhaps a query and perhaps a fragment. Many texts stand
for one uri, so a text is read into its parts, and uris are compared by these.

Some schemes are special. Their uris always have an authority with a host, a backslash counts as a
slash in them, and a service with the number that is usual for the scheme is left out. The uri of a
file has a host, which may be empty, and nothing else in its authority.

## Main definitions

* `Authority`, `Uri` — the parts
* `Uri.parse?` — the uri that a text stands for
* `Uri.render` — the text of a uri
-/

namespace LWorkbench

/-- A host with perhaps a user and the number of a service. -/
structure Authority where
  user : String
  password : String
  host : Host
  service : Option Nat
  deriving DecidableEq, Repr

/-- The name of a document. -/
structure Uri where
  scheme : String
  authority : Option Authority
  path : String
  query : Option String
  fragment : Option String
  deriving DecidableEq, Repr

namespace Authority

/-- The authority that is only a host. -/
def ofHost (host : Host) : Authority := ⟨"", "", host, none⟩

/-- Whether a user or a password is given. -/
def hasUser (a : Authority) : Bool := a.user != "" || a.password != ""

/-- The text of a user, if one is given. -/
def renderUser (a : Authority) : String :=
  if !a.hasUser then ""
  else if a.password == "" then a.user ++ "@"
  else a.user ++ ":" ++ a.password ++ "@"

/-- The text of an authority. -/
def render (a : Authority) : String :=
  a.renderUser ++ a.host.render ++ ((a.service.map fun n => ":" ++ toString n).getD "")

end Authority

namespace Uri

/-! ### Writing -/

/-- The text of a path. A path that begins with two slashes where there is no authority gets a
segment in front that stands for nothing. -/
def renderPath (uri : Uri) : String :=
  if uri.authority.isNone && "//".isPrefixOf uri.path then "/." ++ uri.path else uri.path

/-- The text of a uri. -/
def render (uri : Uri) : String :=
  uri.scheme ++ ":" ++ ((uri.authority.map fun a => "//" ++ a.render).getD "") ++ uri.renderPath ++
    ((uri.query.map ("?" ++ ·)).getD "") ++ ((uri.fragment.map ("#" ++ ·)).getD "")

/-! ### Parts of a text -/

/-- The text without blanks and control characters around it and without tabs and line ends. -/
def clean (text : List Char) : List Char :=
  let inner := text.dropWhile (· ≤ ' ')
  let inner := (inner.reverse.dropWhile (· ≤ ' ')).reverse
  inner.filter fun c => !(c = '\t' || c = '\n' || c = '\r')

/-- Whether a character may stand in a scheme after the first one. -/
def continuesScheme (c : Char) : Bool :=
  c.isAlphanum || c = '+' || c = '-' || c = '.'

/-- The scheme of a text, in small letters, and what comes after its colon. -/
def splitScheme? (text : List Char) : Option (String × List Char) :=
  match text.span (· != ':') with
  | (first :: more, _ :: rest) =>
    if first.isAlpha && more.all continuesScheme then
      some (String.ofList ((first :: more).map Char.toLower), rest)
    else none
  | _ => none

/-- The number that is usual for a service of a special scheme. -/
def usualService? : String → Option Nat
  | "http" => some 80
  | "https" => some 443
  | "ws" => some 80
  | "wss" => some 443
  | "ftp" => some 21
  | _ => none

/-- Whether a character separates segments. -/
def isSlash (special : Bool) (c : Char) : Bool :=
  c = '/' || (special && c = '\\')

/-- Whether a query or a fragment begins with a character. -/
def endsPath (c : Char) : Bool := c = '?' || c = '#'

/-- The segments of a text. -/
def segments (special : Bool) (text : List Char) : List (List Char) :=
  splitWhere (isSlash special) text

/-- The segments of a text after a slash in front, which may be missing. -/
def segmentsAfterSlash (special : Bool) (text : List Char) : List (List Char) :=
  match text with
  | c :: rest => segments special (if isSlash special c then rest else text)
  | [] => [[]]

/-- The query and the fragment of a text that begins with one of them or is empty. -/
def tail (special : Bool) (text : List Char) : Option String × Option String :=
  let (query, rest) := text.span (· != '#')
  let set := if special then Percent.inSpecialQuery else Percent.inQuery
  ((query.head?.map fun _ => Percent.encode set (query.drop 1)),
    (rest.head?.map fun _ => Percent.encode Percent.inFragment (rest.drop 1)))

/-- A uri whose query and fragment are in a text that begins with one of them or is empty. -/
def withTail (scheme : String) (special : Bool) (authority : Option Authority) (path : String)
    (text : List Char) : Uri :=
  let (query, fragment) := tail special text
  ⟨scheme, authority, path, query, fragment⟩

/-! ### Authorities -/

/-- The last place of a character in a text. -/
def lastIndex? (c : Char) (text : List Char) : Option Nat :=
  let after := (text.reverse.takeWhile (· != c)).length
  if after < text.length then some (text.length - after - 1) else none

/-- The user and the password of the text before the last at sign, and the text after it. Without a
user there must be something after the sign, unless the whole uri ends there. -/
def splitUser? (text rest : List Char) : Option (String × String × List Char) :=
  match lastIndex? '@' text with
  | none => some ("", "", text)
  | some place =>
    if place = 0 && text.length = 1 && !rest.isEmpty then none
    else
      let (user, password) := (text.take place).span (· != ':')
      some (Percent.encode Percent.inUser user, Percent.encode Percent.inUser (password.drop 1),
        text.drop (place + 1))

/-- The text of a host, which ends before a colon that is not in brackets, and what comes after. -/
def splitHost (inBrackets : Bool) : List Char → List Char × List Char
  | [] => ([], [])
  | c :: rest =>
    if c = ':' && !inBrackets then ([], c :: rest)
    else
      let (host, after) := splitHost (c = '[' || (inBrackets && c != ']')) rest
      (c :: host, after)

/-- The number of a service after a colon, if there is one, and what comes after. -/
def service? (scheme : String) (text : List Char) : Option (Option Nat × List Char) :=
  match text with
  | ':' :: text =>
    let (digits, after) := text.span Char.isDigit
    if after.isEmpty || after.head? = some '\\' then do
      let number ← (Digit.number? 10 digits).filter (· ≤ 65535)
      let needed := !digits.isEmpty && usualService? scheme != some number
      return (if needed then some number else none, after)
    else none
  | _ => some (none, text)

/-- Reads an authority and what comes after it in front of the path. -/
def authority? (scheme : String) (text rest : List Char) : Option (Authority × List Char) := do
  let special := (usualService? scheme).isSome
  let (user, password, text) ← splitUser? text rest
  let (hostText, after) := splitHost false text
  let host ← if special then Host.ofSpecial? hostText else Host.ofOther? hostText
  let (service, rest) ← service? scheme after
  let authority : Authority := ⟨user, password, host, service⟩
  if host.isEmpty && (special || !after.isEmpty || authority.hasUser) then none
  else return (authority, rest)

/-! ### Kinds of uris -/

/-- The path of a uri with an authority; a special one is never empty. -/
def pathAfter (special : Bool) (text : List Char) : String :=
  if text.isEmpty && !special then ""
  else UriPath.render (UriPath.resolve (segmentsAfterSlash special text))

/-- A uri with an authority, given what comes after the slashes. -/
def withAuthority? (scheme : String) (text : List Char) : Option Uri := do
  let special := (usualService? scheme).isSome
  let (inside, rest) := text.span fun c => !(isSlash special c || endsPath c)
  let (authority, before) ← authority? scheme inside rest
  let (path, tail) := (before ++ rest).span (!endsPath ·)
  return withTail scheme special authority (pathAfter special path) tail

/-- A uri without an authority. A path that does not begin with a slash is kept as it is. -/
def withoutAuthority (scheme : String) (text : List Char) : Uri :=
  let (path, tail) := text.span (!endsPath ·)
  let path :=
    if path.head? = some '/' then
      UriPath.render (UriPath.resolve (segmentsAfterSlash false path))
    else Percent.encode Percent.always path
  withTail scheme false none path tail

/-- The host of a file; the one that the file is on anyway counts as none. -/
def fileHost? (text : List Char) : Option Host :=
  if text.isEmpty then some .empty
  else (Host.ofSpecial? text).map fun h => if h == .name "localhost" then .empty else h

/-- The uri of a file with a host and segments. A path with a drive has no host. -/
def ofFile (host : Host) (segments : List (List Char)) (tail : List Char) : Uri :=
  let resolved := UriPath.resolveFile segments
  let host := if UriPath.hasDrive resolved then .empty else host
  withTail "file" true (some (.ofHost host)) (UriPath.render (UriPath.dropEmpty resolved)) tail

/-- The uri of a file, given what comes after the scheme. A host comes after two slashes, unless it
looks like a drive. -/
def file? (text : List Char) : Option Uri :=
  let (text, tail) := text.span (!endsPath ·)
  let (slashes, inside) := (text.take 2, text.drop 2)
  if slashes.length = 2 && slashes.all (isSlash true) then
    let (hostText, path) := inside.span (!isSlash true ·)
    if UriPath.isDrive hostText then some (ofFile .empty (segments true inside) tail)
    else (fileHost? hostText).map fun host => ofFile host (segmentsAfterSlash true path) tail
  else some (ofFile .empty (segmentsAfterSlash true text) tail)

/-- The uri that a text stands for. -/
def parse? (text : String) : Option Uri := do
  let (scheme, rest) ← splitScheme? (clean text.toList)
  if scheme == "file" then file? rest
  else if (usualService? scheme).isSome then
    withAuthority? scheme (rest.dropWhile (isSlash true))
  else if ['/', '/'].isPrefixOf rest then withAuthority? scheme (rest.drop 2)
  else return withoutAuthority scheme rest

end Uri

end LWorkbench
