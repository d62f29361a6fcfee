import GitRemoteObjectStore.Repl

/-!
# Remote URLs

`<backend>+<scheme>://<host>/<path>?<flags>`.  The URL itself is read by a
library outside the repository; what the parser relies on is that the parts it
returns are serialized ones, without the characters that end them.  The
prefix of the repository is made of the path's segments as they stand there,
with their percent-encoding.
-/

namespace GitRemoteObjectStore

open Separated

/-! ## The URL library -/

/-- `url::Host` -/
inductive UrlHost where
  | domain (name : Text)
  | ipv4 (octets : Fin 4 → Fin 256)
  | ipv6 (pieces : Fin 8 → Fin 65536)

/-- The parts of a `url::Url`. -/
structure Url where
  scheme : Text
  username : Text
  password : Option Text
  host : Option UrlHost
  hostStr : Option Text
  /-- The port, unless it is the scheme's own. -/
  port : Option Nat
  /-- The serialized path. -/
  path : Text
  query : Option Text
  /-- The pairs the query decodes to. -/
  queryPairs : List (Text × Text)
  fragment : Option Text

namespace Url

/-- A URL of one of the two schemes that are accepted. -/
def IsHttp (url : Url) : Prop :=
  url.scheme = lit "https" ∨ url.scheme = lit "http"

/-- What is between the slashes of a path that begins with one. -/
def splitPath (url : Url) : Option (List Text) :=
  (stripPrefix ['/'] url.path).map fun path => path.splitOn '/'

/-- The user name and password, and the sign that ends them. -/
def userinfo (url : Url) : Text :=
  match url.password with
  | none => if url.username = [] then [] else url.username ++ ['@']
  | some password => url.username ++ ':' :: password ++ ['@']

/-- The serialization of a URL with a host. -/
def serialization (url : Url) : Text :=
  url.scheme ++ lit "://" ++ url.userinfo ++ url.hostStr.getD [] ++
    (url.port.elim [] fun port => ':' :: (toString port).toList) ++
    url.path ++ (url.query.elim [] fun query => '?' :: query) ++
    (url.fragment.elim [] fun fragment => '#' :: fragment)

end Url

/--
The URL library: `Url::parse`, with the reason of a refusal,
`Url::path_segments`, `Url::set_path` and `Display for Url`.

Schemes are made of letters and digits; a host ends before the path, and a
path before the query and the fragment; none has a line break in it.  The
segments are the serialized path's, a URL is printed as its serialization,
and setting the path changes the path alone.  What is set is serialized:
segments of the URL's own path already are, and stand in the new path as
they are given.
-/
class UrlCrate where
  parse : Text → Except Text Url
  pathSegments : Url → Option (List Text)
  setPath : Url → Text → Url
  display : Url → Text
  scheme_plain :
    ∀ input url,
      parse input = .ok url → ∀ c ∈ url.scheme, c.isAlphanum = true
  host_plain :
    ∀ input url host,
      parse input = .ok url → url.hostStr = some host →
        ∀ c ∈ host, c ≠ '/' ∧ c ≠ '?' ∧ c ≠ '#' ∧ c ≠ '\n'
  path_plain :
    ∀ input url,
      parse input = .ok url →
        ∀ c ∈ url.path, c ≠ '?' ∧ c ≠ '#' ∧ c ≠ '\n'
  pathSegments_eq :
    ∀ input url,
      parse input = .ok url → pathSegments url = url.splitPath
  setPath_eq :
    ∀ url path,
      setPath url path = { url with path := (setPath url path).path }
  setPath_serialized :
    ∀ input url segments,
      parse input = .ok url → url.IsHttp →
      (∀ segment ∈ segments,
        segment ≠ [] ∧ segment ∈ (pathSegments url).getD []) →
      (setPath url ('/' :: ['/'].intercalate segments)).path =
        '/' :: ['/'].intercalate segments
  display_eq :
    ∀ input url,
      parse input = .ok url → url.hostStr.isSome = true →
      display url = url.serialization

/-- No part of a URL holds a character that ends it. -/
structure Url.Plain (url : Url) : Prop where
  scheme : ∀ c ∈ url.scheme, c.isAlphanum = true
  host :
    ∀ c ∈ url.hostStr.getD [], c ≠ '/' ∧ c ≠ '?' ∧ c ≠ '#' ∧ c ≠ '\n'
  path : ∀ c ∈ url.path, c ≠ '?' ∧ c ≠ '#' ∧ c ≠ '\n'

theorem exists_ok_of_toOption_map
    {ε α β : Type}
    {result : Except ε α}
    {part : α → β}
    {value : β}
    (known : result.toOption.map part = some value) :
    ∃ found, result = .ok found ∧ part found = value := by
  cases result with
  | error error => cases known
  | ok found => exact ⟨found, rfl, Option.some.inj known⟩

theorem ok_of_lookup
    {known : List (Text × Url)}
    {refusal input : Text}
    {url : Url}
    (found : known.lookup input = some url) :
    (known.lookup input).elim (.error refusal) .ok =
      (.ok url : Except Text Url) := by
  rw [found]
  rfl

theorem mem_of_lookup_ok
    {known : List (Text × Url)}
    {refusal input : Text}
    {url : Url}
    (parsed :
      (known.lookup input).elim (.error refusal) .ok =
        (.ok url : Except Text Url)) :
    (input, url) ∈ known := by
  cases found : known.lookup input with
  | none =>
      rw [found] at parsed
      cases parsed
  | some other =>
      rw [found] at parsed
      cases parsed
      rcases List.lookup_eq_some_iff.1 found with ⟨front, back, same, -⟩
      rw [same]
      simp

/-- A library that knows some URLs, and sets and prints what it is given. -/
@[reducible]
def UrlCrate.knowing
    (known : List (Text × Url))
    (refusal : Text)
    (plain : ∀ entry ∈ known, entry.2.Plain) : UrlCrate where
  parse := fun input => (known.lookup input).elim (.error refusal) .ok
  pathSegments := Url.splitPath
  setPath := fun url path => { url with path := path }
  display := Url.serialization
  scheme_plain := fun _ _ parsed => (plain _ (mem_of_lookup_ok parsed)).scheme
  host_plain := by
    intro input url host parsed named
    have within := (plain _ (mem_of_lookup_ok parsed)).host
    rw [named] at within
    exact within
  path_plain := fun _ _ parsed => (plain _ (mem_of_lookup_ok parsed)).path
  pathSegments_eq := fun _ _ _ => rfl
  setPath_eq := fun _ _ => rfl
  setPath_serialized := fun _ _ _ _ _ _ => rfl
  display_eq := fun _ _ _ _ => rfl

/-! ## Remotes -/

inductive S3Addressing where
  | virtualHosted
  | pathStyle
deriving DecidableEq

inductive AzureAddressing where
  | virtualHosted
  | pathStyle
deriving DecidableEq

/-- A `NonZeroU64` -/
@[ext]
structure NonZeroU64 where
  value : Nat
  positive : 0 < value
  bounded : value < 2 ^ 64

instance : DecidableEq NonZeroU64 := fun _ _ =>
  decidable_of_iff _ NonZeroU64.ext_iff.symm

/-- The flags of the query string. -/
structure RemoteFlags where
  zip : Bool
  profile : Option Text
  credential : Option Text
  region : Option Text
  engine : Option StorageEngine
  bundleUri : Bool
  bundleUriPresignTtl : Option NonZeroU64

/-- `RemoteFlags::default()` -/
def RemoteFlags.default : RemoteFlags :=
  ⟨false, none, none, none, none, false, none⟩

inductive RemoteUrl where
  | s3
      (endpoint : Url) (bucket : Text) (bucketPrefix : Option Text)
      (addressing : S3Addressing) (flags : RemoteFlags)
  | azure
      (endpoint : Url) (account container : Text)
      (bucketPrefix : Option Text) (addressing : AzureAddressing)
      (flags : RemoteFlags)

namespace RemoteUrl

def endpoint : RemoteUrl → Url
  | .s3 endpoint .. => endpoint
  | .azure endpoint .. => endpoint

def bucketPrefix : RemoteUrl → Option Text
  | .s3 _ _ bucketPrefix _ _ => bucketPrefix
  | .azure _ _ _ bucketPrefix _ _ => bucketPrefix

def flags : RemoteUrl → RemoteFlags
  | .s3 _ _ _ _ flags => flags
  | .azure _ _ _ _ _ flags => flags

end RemoteUrl

namespace RemoteUrl

inductive ParseError where
  | empty
  | unsupportedScheme (scheme : Text)
  | invalidUrl (error : Text)
  | missingHost
  | missingBucket
  | missingContainer
  | missingAccount
  | invalidBucket (name : Text)
  | invalidAccount (name : Text)
  | invalidContainer (name : Text)
  | cleartextHttpForbidden (host : Text)
  | unknownAddressing (value : Text)
  | invalidFlagValue (name value : Text)
  | unknownFlag (name : Text)
  | flagNotApplicable (flag : Text) (backend : BackendKind)
  | unknownEngine (name : Text)
  | invalidAwsS3Endpoint (host : Text)
  | bundleUriPresignTtlTooLarge (value max : Nat)
  | bundleUriPresignTtlWithoutBundleUri
deriving DecidableEq

inductive AddressingOverride where
  | path
  | virtual
deriving DecidableEq

/-! ## Flags -/

def parseBoolValue (value : Text) : Option Bool :=
  let lowered := value.map Char.toLower
  if lowered ∈ [lit "1", lit "true", lit "yes", lit "on"] then some true
  else if lowered ∈ [lit "0", lit "false", lit "no", lit "off"] then
    some false
  else none

def parseBoolFlag (name value : Text) : Except ParseError Bool :=
  match parseBoolValue value with
  | some flag => .ok flag
  | none => .error (.invalidFlagValue name value)

/-- `str::parse::<NonZeroU64>` -/
def parseNonzeroU64Flag
    (name value : Text) : Except ParseError NonZeroU64 :=
  match Repl.decimal ((stripPrefix ['+'] value).getD value) with
  | none => .error (.invalidFlagValue name value)
  | some number =>
      if holds : 0 < number ∧ number < 2 ^ 64 then
        .ok ⟨number, holds.1, holds.2⟩
      else .error (.invalidFlagValue name value)

/-- Seven days, in seconds. -/
def maxBundleUriPresignTtlSeconds : Nat :=
  7 * 24 * 60 * 60

def parseBundleUriPresignTtl
    (value : Text) : Except ParseError NonZeroU64 := do
  let ttl ← parseNonzeroU64Flag (lit "bundle_uri_presign_ttl") value
  if maxBundleUriPresignTtlSeconds < ttl.value then
    .error
      (.bundleUriPresignTtlTooLarge ttl.value
        maxBundleUriPresignTtlSeconds)
  else return ttl

/-- One query parameter; an unknown one is refused. -/
def extractFlag
    (found : RemoteFlags × Option AddressingOverride)
    (pair : Text × Text) :
    Except ParseError (RemoteFlags × Option AddressingOverride) :=
  let (flags, addressing) := found
  let (key, value) := pair
  if key = lit "zip" then do
    let zip ← parseBoolFlag key value
    return ({ flags with zip := zip }, addressing)
  else if key = lit "profile" then
    return ({ flags with profile := some value }, addressing)
  else if key = lit "credential" then
    return ({ flags with credential := some value }, addressing)
  else if key = lit "region" then
    return ({ flags with region := some value }, addressing)
  else if key = lit "addressing" then
    if value = lit "path" then return (flags, some .path)
    else if value = lit "virtual" then return (flags, some .virtual)
    else .error (.unknownAddressing value)
  else if key = lit "engine" then
    match StorageEngine.fromName value with
    | some engine =>
        return ({ flags with engine := some engine }, addressing)
    | none => .error (.unknownEngine value)
  else if key = lit "bundle_uri" then do
    let bundleUri ← parseBoolFlag key value
    return ({ flags with bundleUri := bundleUri }, addressing)
  else if key = lit "bundle_uri_presign_ttl" then do
    let ttl ← parseBundleUriPresignTtl value
    return ({ flags with bundleUriPresignTtl := some ttl }, addressing)
  else .error (.unknownFlag key)

def extractFlags
    (url : Url) :
    Except ParseError (RemoteFlags × Option AddressingOverride) :=
  url.queryPairs.foldlM extractFlag (.default, none)

def rejectInapplicableFlag
    (present : Bool)
    (flag : Text)
    (backend : BackendKind) : Except ParseError Unit :=
  if present then .error (.flagNotApplicable flag backend) else return ()

def rejectInapplicablePresignTtl
    (flags : RemoteFlags) : Except ParseError Unit :=
  if flags.bundleUriPresignTtl.isSome && !flags.bundleUri then
    .error .bundleUriPresignTtlWithoutBundleUri
  else return ()

/-! ## Paths -/

variable [UrlCrate]

/-- The segments of the path that are not empty. -/
def pathSegments (url : Url) : List Text :=
  ((UrlCrate.pathSegments url).getD []).filter fun segment => segment ≠ []

/-- `segments.join("/")` -/
def joinSegments (segments : List Text) : Text :=
  ['/'].intercalate segments

def joinPrefix (segments : List Text) : Option Text :=
  if segments = [] then none else some (joinSegments segments)

def setCanonicalPath (url : Url) (segments : List Text) : Url :=
  UrlCrate.setPath url ('/' :: joinSegments segments)

/-! ## Names -/

def isAsciiAlphanumLower (character : Char) : Bool :=
  ('a' ≤ character && character ≤ 'z') ||
    ('0' ≤ character && character ≤ '9')

/-- First and last of a text that is not empty. -/
def bracketed (text : Text) (allowed : Char → Bool) : Bool :=
  match text.head?, text.getLast? with
  | some first, some last => allowed first && allowed last
  | _, _ => false

def forbiddenBucketPrefixes : List Text :=
  [lit "xn--", lit "sthree-", lit "amzn-s3-demo-"]

def forbiddenBucketSuffixes : List Text :=
  [lit "-s3alias", lit "--ol-s3", lit ".mrap", lit "--x-s3",
    lit "--table-s3"]

/-- Four segments of digits. -/
def isIpv4Formatted (text : Text) : Bool :=
  let parts := text.splitOn '.'
  parts.length == 4 &&
    parts.all fun part => part ≠ [] && part.all Char.isDigit

def isValidBucket (text : Text) : Bool :=
  bracketed text isAsciiAlphanumLower &&
    3 ≤ text.length && text.length ≤ 63 &&
    (text.all fun character =>
      isAsciiAlphanumLower character || character == '.' ||
        character == '-') &&
    !decide (lit ".." <:+: text) &&
    !isIpv4Formatted text &&
    !(forbiddenBucketPrefixes.any fun start => start.isPrefixOf text) &&
    !forbiddenBucketSuffixes.any fun ending => ending.isSuffixOf text

def isValidAccount (text : Text) : Bool :=
  3 ≤ text.length && text.length ≤ 24 && text.all isAsciiAlphanumLower

def isValidContainer (text : Text) : Bool :=
  bracketed text isAsciiAlphanumLower &&
    3 ≤ text.length && text.length ≤ 63 &&
    (text.all fun character =>
      isAsciiAlphanumLower character || character == '-') &&
    !decide (lit "--" <:+: text)

/-! ## S3 -/

def awsHostSuffixes : List Text :=
  [lit ".amazonaws.com.cn", lit ".amazonaws.com"]

def stripAwsHostSuffix (host : Text) : Option Text :=
  awsHostSuffixes.findSome? fun ending => stripSuffix ending host

def checkAwsS3Host (host : Text) : Except ParseError Unit :=
  match stripAwsHostSuffix host with
  | none => return ()
  | some trimmed =>
      if trimmed = lit "s3" || (lit "s3.").isPrefixOf trimmed ||
          (lit "s3-").isPrefixOf trimmed ||
          (trimmed.splitOn '.').getLast? = some (lit "s3") ||
          lit ".s3." <:+: trimmed || lit ".s3-" <:+: trimmed then
        return ()
      else .error (.invalidAwsS3Endpoint host)

def awsS3Infixes : List Text :=
  [lit ".s3.", lit ".s3-"]

/-- `str::rfind` -/
def rfind (part text : Text) : Option Nat :=
  ((List.range (text.length + 1)).filter fun position =>
    part.isPrefixOf (text.drop position)).getLast?

def s3VirtualHostedBucket (host : Text) : Option Text :=
  (((awsS3Infixes.filterMap fun part => rfind part host).max?).map
    fun position => host.take position).filter fun bucket => bucket ≠ []

def leftmostLabel (host : Text) : Option Text :=
  ((host.splitOn '.').head?).filter fun label => label ≠ []

def resolveS3Components
    (host : Text)
    (segments : List Text)
    (addressingOverride : Option AddressingOverride) :
    Except ParseError (S3Addressing × Text × List Text) := do
  let (addressing, awsBucket) :=
    match addressingOverride with
    | some .path => (S3Addressing.pathStyle, none)
    | some .virtual => (.virtualHosted, s3VirtualHostedBucket host)
    | none =>
        let bucket := s3VirtualHostedBucket host
        (if bucket.isSome then .virtualHosted else .pathStyle, bucket)
  match addressing with
  | .virtualHosted =>
      match awsBucket.or (leftmostLabel host) with
      | none => .error .missingBucket
      | some bucket => return (addressing, bucket, segments)
  | .pathStyle =>
      match segments with
      | [] => .error .missingBucket
      | head :: tail => return (addressing, head, tail)

def finishS3
    (endpoint : Url)
    (host : Text)
    (flags : RemoteFlags)
    (addressingOverride : Option AddressingOverride) :
    Except ParseError RemoteUrl := do
  rejectInapplicableFlag flags.credential.isSome (lit "credential") .s3
  checkAwsS3Host host
  let (addressing, bucket, prefixSegments) ←
    resolveS3Components host (pathSegments endpoint) addressingOverride
  if !isValidBucket bucket then .error (.invalidBucket bucket)
  else
    let canonical :=
      match addressing with
      | .virtualHosted => prefixSegments
      | .pathStyle => bucket :: prefixSegments
    return .s3 (setCanonicalPath endpoint canonical) bucket
      (joinPrefix prefixSegments) addressing flags

/-! ## Azure -/

def detectAzureAddressing (host : Text) : AzureAddressing :=
  if (host.splitOn '.')[1]? = some (lit "blob") then .virtualHosted
  else .pathStyle

def resolveAzureComponents
    (addressing : AzureAddressing)
    (host : Text)
    (segments : List Text) :
    Except ParseError (Text × Text × List Text) :=
  match addressing with
  | .virtualHosted =>
      match leftmostLabel host with
      | none => .error .missingAccount
      | some account =>
          match segments with
          | [] => .error .missingContainer
          | container :: rest => return (account, container, rest)
  | .pathStyle =>
      match segments with
      | [] => .error .missingAccount
      | [_] => .error .missingContainer
      | account :: container :: rest => return (account, container, rest)

def finishAzure
    (endpoint : Url)
    (host : Text)
    (flags : RemoteFlags)
    (addressingOverride : Option AddressingOverride) :
    Except ParseError RemoteUrl := do
  rejectInapplicableFlag flags.profile.isSome (lit "profile") .azure
  rejectInapplicableFlag flags.region.isSome (lit "region") .azure
  let addressing :=
    match addressingOverride with
    | some .path => AzureAddressing.pathStyle
    | some .virtual => .virtualHosted
    | none => detectAzureAddressing host
  let (account, container, prefixSegments) ←
    resolveAzureComponents addressing host (pathSegments endpoint)
  if !isValidAccount account then .error (.invalidAccount account)
  else if !isValidContainer container then
    .error (.invalidContainer container)
  else
    let canonical :=
      match addressing with
      | .virtualHosted => container :: prefixSegments
      | .pathStyle => account :: container :: prefixSegments
    return .azure (setCanonicalPath endpoint canonical) account container
      (joinPrefix prefixSegments) addressing flags

/-! ## Parsing -/

def schemePrefix : BackendKind → Text
  | .s3 => lit "s3+"
  | .azure => lit "az+"

/-- The part before the first colon. -/
def schemeOf (input : Text) : Text :=
  ((input.splitOn ':').head?).getD input

def detectBackend (input : Text) : Except ParseError (BackendKind × Text) :=
  let body (kind : BackendKind) : Option (BackendKind × Text) :=
    ((stripPrefix (schemePrefix kind) input).filter fun body =>
      (lit "https://").isPrefixOf body ||
        (lit "http://").isPrefixOf body).map fun body => (kind, body)
  match [BackendKind.s3, .azure].findSome? body with
  | some found => .ok found
  | none => .error (.unsupportedScheme (schemeOf input))

def isLoopback (url : Url) : Bool :=
  match url.host with
  | some (.domain name) => name.map Char.toLower = lit "localhost"
  | some (.ipv4 octets) => octets 0 = 127
  | some (.ipv6 pieces) =>
      pieces 0 = 0 && pieces 1 = 0 && pieces 2 = 0 && pieces 3 = 0 &&
        pieces 4 = 0 && pieces 5 = 0 && pieces 6 = 0 && pieces 7 = 1
  | none => false

/-- The environment variable that allows cleartext HTTP. -/
def httpAllowedByEnv (allowHttp : Option Text) : Bool :=
  (allowHttp.bind parseBoolValue).getD false

/-- `url::parse` -/
def parse
    (allowHttp : Option Text)
    (input : Text) : Except ParseError RemoteUrl := do
  let trimmed := trim input
  if trimmed = [] then .error .empty
  else
    let (backend, body) ← detectBackend trimmed
    let endpoint ← (UrlCrate.parse body).mapError .invalidUrl
    match endpoint.hostStr with
    | none => .error .missingHost
    | some host =>
        if endpoint.scheme = lit "http" && !isLoopback endpoint &&
            !httpAllowedByEnv allowHttp then
          .error (.cleartextHttpForbidden host)
        else
          let (flags, addressingOverride) ← extractFlags endpoint
          rejectInapplicablePresignTtl flags
          match backend with
          | .s3 => finishS3 endpoint host flags addressingOverride
          | .azure => finishAzure endpoint host flags addressingOverride

end RemoteUrl

end GitRemoteObjectStore
