import Mathlib.Data.Bool.AllAny
import GitRemoteObjectStore.RemoteUrl
import GitRemoteObjectStore.Library.Arrivals

/-!
# Remote URLs, printed and parsed again

`Display` of a remote URL prints its endpoint behind the prefix of its
backend.  Parsing that text gives the same remote URL.
-/

namespace GitRemoteObjectStore

open Arrivals Separated

/-! ## The source -/

namespace RemoteUrl

def kind : RemoteUrl → BackendKind
  | .s3 .. => .s3
  | .azure .. => .azure

variable [UrlCrate]

/-- `Display for RemoteUrl` -/
def display (remote : RemoteUrl) : Text :=
  schemePrefix remote.kind ++ UrlCrate.display remote.endpoint

/-- The URL without the empty segments of its path. -/
def canonical (url : Url) : Url :=
  setCanonicalPath url (pathSegments url)

end RemoteUrl

/--
`Url::parse` and `Display for Url` are inverses.  The components of a parsed
URL stand in it as they are printed, percent-encoded and without a character
that is not visible; segments stay segments when empty ones are taken out.
-/
class UrlInverse [UrlCrate] : Prop where
  scheme_begins :
    ∀ input url scheme,
      UrlCrate.parse input = .ok url →
      scheme = lit "https" ∨ scheme = lit "http" →
      scheme ++ lit "://" <+: input →
      url.scheme = scheme
  display_visible :
    ∀ input url,
      UrlCrate.parse input = .ok url → url.IsHttp →
      ∀ c ∈ UrlCrate.display (RemoteUrl.canonical url),
        isWhitespace c = false
  parse_printed :
    ∀ input url,
      UrlCrate.parse input = .ok url → url.IsHttp →
      UrlCrate.parse (UrlCrate.display (RemoteUrl.canonical url)) =
        .ok (RemoteUrl.canonical url)

namespace RemoteUrl

/-! ## Paths -/

section Canonical

variable [UrlCrate] {input : Text} {url : Url} {segments : List Text}

/-- Only the path is another one. -/
theorem setCanonicalPath_changes (segments : List Text) :
    setCanonicalPath url segments =
      { url with path := (setCanonicalPath url segments).path } :=
  UrlCrate.setPath_eq url _

theorem mem_pathSegments
    {segment : Text}
    (read : UrlCrate.parse input = .ok url)
    (member : segment ∈ pathSegments url) :
    segment ≠ [] ∧ '/' ∉ segment := by
  rw [pathSegments, List.mem_filter, UrlCrate.pathSegments_eq _ _ read,
    Url.splitPath] at member
  refine ⟨of_decide_eq_true member.2, ?_⟩
  cases stripped : stripPrefix ['/'] url.path with
  | none =>
      rw [stripped] at member
      cases member.1
  | some path =>
      rw [stripped] at member
      exact not_mem_of_mem_splitOn member.1

/-- A URL the library has read, with the path of its own segments. -/
theorem canonical_eq
    (read : UrlCrate.parse input = .ok url)
    (http : url.IsHttp) :
    canonical url =
      { url with path := '/' :: joinSegments (pathSegments url) } := by
  have path :
      (canonical url).path = '/' :: joinSegments (pathSegments url) := by
    apply UrlCrate.setPath_serialized _ _ _ read http
    intro segment member
    have both := List.mem_filter.1 member
    exact ⟨of_decide_eq_true both.2, both.1⟩
  rw [canonical, setCanonicalPath_changes, ← canonical, path]

omit [UrlCrate] in
theorem filter_splitPath
    (plain : ∀ segment ∈ segments, segment ≠ [] ∧ '/' ∉ segment)
    (path : url.path = '/' :: joinSegments segments) :
    ((url.splitPath.getD []).filter fun segment => segment ≠ []) =
      segments := by
  have stripped :
      stripPrefix ['/'] url.path = some (joinSegments segments) :=
    stripPrefix_eq_some.2 path
  rw [Url.splitPath, stripped, Option.map_some, Option.getD_some,
    joinSegments]
  by_cases empty : segments = []
  · subst empty
    rfl
  · rw [List.splitOn_intercalate '/' (fun segment member =>
      (plain segment member).2) empty]
    exact List.filter_eq_self.2 fun segment member =>
      decide_eq_true (plain segment member).1

variable [UrlInverse]

theorem pathSegments_canonical
    (read : UrlCrate.parse input = .ok url)
    (http : url.IsHttp) :
    pathSegments (canonical url) = pathSegments url := by
  have printed := UrlInverse.parse_printed _ _ read http
  rw [pathSegments, UrlCrate.pathSegments_eq _ _ printed]
  apply filter_splitPath fun _ member => mem_pathSegments read member
  rw [canonical_eq read http]

theorem canonical_canonical
    (read : UrlCrate.parse input = .ok url)
    (http : url.IsHttp) :
    canonical (canonical url) = canonical url := by
  have printed := UrlInverse.parse_printed _ _ read http
  have http' : (canonical url).IsHttp := by
    rw [canonical_eq read http]
    exact http
  rw [canonical_eq printed http', pathSegments_canonical read http,
    canonical_eq read http]

end Canonical

/-! ## What a parsed remote URL keeps -/

variable
    {endpoint : Url}
    {host : Text}
    {flags : RemoteFlags}
    {addressingOverride : Option AddressingOverride}
    {remote : RemoteUrl}

/-- The segments of an S3 path: the bucket, unless it is in the host. -/
def s3Segments
    (addressing : S3Addressing)
    (bucket : Text)
    (rest : List Text) : List Text :=
  match addressing with
  | .virtualHosted => rest
  | .pathStyle => bucket :: rest

/-- The segments of an Azure path: the account, unless it is in the host. -/
def azureSegments
    (addressing : AzureAddressing)
    (account container : Text)
    (rest : List Text) : List Text :=
  match addressing with
  | .virtualHosted => container :: rest
  | .pathStyle => account :: container :: rest

/-- What both styles do with the segments. -/
theorem s3Segments_of_style
    {style addressing : S3Addressing}
    {awsBucket : Option Text}
    {bucket : Text}
    {segments rest : List Text}
    (resolved :
      (match style with
        | .virtualHosted =>
            match awsBucket.or (leftmostLabel host) with
            | none => .error .missingBucket
            | some bucket => return (style, bucket, segments)
        | .pathStyle =>
            match segments with
            | [] => .error .missingBucket
            | head :: tail => return (style, head, tail) :
        Except ParseError (S3Addressing × Text × List Text)) =
        .ok (addressing, bucket, rest)) :
    s3Segments addressing bucket rest = segments := by
  cases style with
  | virtualHosted =>
      dsimp only at resolved
      split at resolved
      · cases resolved
      · cases resolved
        rfl
  | pathStyle =>
      cases segments with
      | nil => cases resolved
      | cons head tail =>
          cases resolved
          rfl

theorem segments_of_resolveS3Components
    {segments rest : List Text}
    {addressing : S3Addressing}
    {bucket : Text}
    (resolved :
      resolveS3Components host segments addressingOverride =
        .ok (addressing, bucket, rest)) :
    s3Segments addressing bucket rest = segments :=
  s3Segments_of_style resolved

/-- The account of a path-style URL comes before the container. -/
theorem segments_of_resolveAzureComponents
    {segments rest : List Text}
    {addressing : AzureAddressing}
    {account container : Text}
    (resolved :
      resolveAzureComponents addressing host segments =
        .ok (account, container, rest)) :
    azureSegments addressing account container rest = segments := by
  cases addressing with
  | virtualHosted =>
      simp only [resolveAzureComponents] at resolved
      cases labelled : leftmostLabel host with
      | none =>
          rw [labelled] at resolved
          cases resolved
      | some label =>
          rw [labelled] at resolved
          cases segments with
          | nil => cases resolved
          | cons head tail =>
              cases resolved
              rfl
  | pathStyle =>
      simp only [resolveAzureComponents] at resolved
      rcases segments with _ | ⟨first, _ | ⟨second, tail⟩⟩
      · cases resolved
      · cases resolved
      · cases resolved
        rfl

section Finish

variable [UrlCrate] {other : Url}

theorem finishS3_endpoint
    (finished :
      finishS3 endpoint host flags addressingOverride = .ok remote) :
    remote.kind = .s3 ∧ remote.endpoint = canonical endpoint := by
  simp only [finishS3, bind_eq_ok] at finished
  rcases finished with
    ⟨_, _, _, _, ⟨addressing, bucket, rest⟩, resolved, built⟩
  have segments := segments_of_resolveS3Components resolved
  dsimp only at built
  split at built
  · cases built
  · cases built
    refine ⟨rfl, ?_⟩
    rw [canonical, ← segments]
    rfl

theorem finishAzure_endpoint
    (finished :
      finishAzure endpoint host flags addressingOverride = .ok remote) :
    remote.kind = .azure ∧ remote.endpoint = canonical endpoint := by
  simp only [finishAzure, bind_eq_ok] at finished
  rcases finished with
    ⟨_, _, _, _, ⟨account, container, rest⟩, resolved, built⟩
  have segments := segments_of_resolveAzureComponents resolved
  dsimp only at built
  split at built
  · cases built
  · split at built
    · cases built
    · cases built
      refine ⟨rfl, ?_⟩
      rw [canonical, ← segments]
      rfl

/-- Two URLs with the same segments and the same canonical form. -/
structure Alike (url other : Url) : Prop where
  segments : pathSegments other = pathSegments url
  canonical : canonical other = canonical url

theorem Alike.setCanonicalPath
    {segments : List Text}
    (alike : Alike endpoint other)
    (own : segments = pathSegments endpoint) :
    setCanonicalPath other segments = setCanonicalPath endpoint segments := by
  subst own
  have same := alike.canonical
  rw [RemoteUrl.canonical, RemoteUrl.canonical, alike.segments] at same
  exact same

theorem finishS3_alike
    (alike : Alike endpoint other)
    (finished :
      finishS3 endpoint host flags addressingOverride = .ok remote) :
    finishS3 other host flags addressingOverride = .ok remote := by
  simp only [finishS3, bind_eq_ok, alike.segments] at finished ⊢
  rcases finished with
    ⟨_, applicable, _, checked, ⟨addressing, bucket, rest⟩, resolved,
      built⟩
  have segments := segments_of_resolveS3Components resolved
  refine ⟨_, applicable, _, checked, _, resolved, ?_⟩
  dsimp only at built ⊢
  rw [alike.setCanonicalPath]
  · exact built
  · exact segments

theorem finishAzure_alike
    (alike : Alike endpoint other)
    (finished :
      finishAzure endpoint host flags addressingOverride = .ok remote) :
    finishAzure other host flags addressingOverride = .ok remote := by
  simp only [finishAzure, bind_eq_ok, alike.segments] at finished ⊢
  rcases finished with
    ⟨_, applicable, _, applicable', ⟨account, container, rest⟩, resolved,
      built⟩
  have segments := segments_of_resolveAzureComponents resolved
  refine ⟨_, applicable, _, applicable', _, resolved, ?_⟩
  dsimp only at built ⊢
  rw [alike.setCanonicalPath]
  · exact built
  · exact segments

/-- The part of parsing that depends on the backend. -/
def finish (backend : BackendKind) (endpoint : Url) (host : Text)
    (flags : RemoteFlags)
    (addressingOverride : Option AddressingOverride) :
    Except ParseError RemoteUrl :=
  match backend with
  | .s3 => finishS3 endpoint host flags addressingOverride
  | .azure => finishAzure endpoint host flags addressingOverride

theorem finish_alike
    {backend : BackendKind}
    (alike : Alike endpoint other)
    (finished :
      finish backend endpoint host flags addressingOverride =
        .ok remote) :
    finish backend other host flags addressingOverride = .ok remote := by
  cases backend with
  | s3 => exact finishS3_alike alike finished
  | azure => exact finishAzure_alike alike finished

theorem finish_endpoint
    {backend : BackendKind}
    (finished :
      finish backend endpoint host flags addressingOverride =
        .ok remote) :
    remote.kind = backend ∧ remote.endpoint = canonical endpoint := by
  cases backend with
  | s3 => exact finishS3_endpoint finished
  | azure => exact finishAzure_endpoint finished

end Finish

/-! ## Parsing the printed URL -/

section Parsing

variable [UrlCrate] {allowHttp : Option Text} {input : Text}

/-- The steps of a parse that succeeds. -/
structure Parsed
    (allowHttp : Option Text)
    (trimmed : Text)
    (backend : BackendKind)
    (body : Text)
    (endpoint : Url)
    (remote : RemoteUrl) : Prop where
  filled : trimmed ≠ []
  detected : detectBackend trimmed = .ok (backend, body)
  read : UrlCrate.parse body = .ok endpoint
  finished :
    ∃ host flags addressingOverride,
      endpoint.hostStr = some host ∧
        ¬ (endpoint.scheme = lit "http" && !isLoopback endpoint &&
          !httpAllowedByEnv allowHttp) = true ∧
        extractFlags endpoint = .ok (flags, addressingOverride) ∧
        rejectInapplicablePresignTtl flags = .ok () ∧
        finish backend endpoint host flags addressingOverride = .ok remote

omit [UrlCrate] in
theorem mapError_eq_ok
    {ε δ α : Type}
    {change : ε → δ}
    {outcome : Except ε α}
    {value : α} :
    outcome.mapError change = .ok value ↔ outcome = .ok value := by
  cases outcome with
  | error error => simp [Except.mapError]
  | ok other => simp [Except.mapError]

theorem parse_eq_ok_iff :
    parse allowHttp input = .ok remote ↔
      ∃ backend body endpoint,
        Parsed allowHttp (trim input) backend body endpoint remote := by
  rw [parse]
  by_cases empty : trim input = []
  · rw [if_pos empty]
    constructor
    · exact fun parsed => nomatch parsed
    · rintro ⟨_, _, _, parsed⟩
      exact absurd empty parsed.filled
  rw [if_neg empty]
  simp only [bind_eq_ok, mapError_eq_ok]
  constructor
  · rintro ⟨⟨backend, body⟩, detected, endpoint, read, rest⟩
    refine ⟨backend, body, endpoint, empty, detected, read, ?_⟩
    dsimp only at rest
    split at rest
    · cases rest
    next host named =>
      split at rest
      · cases rest
      next clear =>
        rcases bind_eq_ok.1 rest with
          ⟨⟨flags, addressingOverride⟩, extracted, behindFlags⟩
        rcases bind_eq_ok.1 behindFlags with ⟨⟨⟩, applicable, finished⟩
        exact
          ⟨host, flags, addressingOverride, named, clear, extracted,
            applicable, by cases backend <;> exact finished⟩
  · rintro ⟨backend, body, endpoint, parsed⟩
    rcases parsed.finished with
      ⟨host, flags, addressingOverride, named, clear, extracted,
        applicable, finished⟩
    refine ⟨⟨backend, body⟩, parsed.detected, endpoint, parsed.read, ?_⟩
    simp only [named, if_neg clear]
    apply bind_eq_ok.2
    refine ⟨⟨flags, addressingOverride⟩, extracted, ?_⟩
    apply bind_eq_ok.2
    refine ⟨⟨⟩, applicable, ?_⟩
    cases backend <;> exact finished

omit [UrlCrate] in
/-- A printed URL is detected as what it was. -/
theorem detectBackend_schemePrefix
    {backend : BackendKind}
    {body : Text}
    (scheme : lit "https://" <+: body ∨ lit "http://" <+: body) :
    detectBackend (schemePrefix backend ++ body) = .ok (backend, body) := by
  have own :
      stripPrefix (schemePrefix backend) (schemePrefix backend ++ body) =
        some body :=
    stripPrefix_eq_some.2 rfl
  have kept :
      ((lit "https://").isPrefixOf body ||
        (lit "http://").isPrefixOf body) = true := by
    simpa using scheme
  have filtered :
      ((some body).filter fun body =>
        (lit "https://").isPrefixOf body ||
          (lit "http://").isPrefixOf body) = some body :=
    Option.filter_eq_some_iff.2 ⟨rfl, kept⟩
  cases backend with
  | s3 => simp [detectBackend, own, filtered]
  | azure =>
      have other :
          stripPrefix (schemePrefix .s3) (schemePrefix .azure ++ body) =
            none := by
        simp [stripPrefix, schemePrefix, lit_eq]
      simp [detectBackend, own, filtered, other]

omit [UrlCrate] in
theorem http_of_detectBackend
    {trimmed body : Text}
    {backend : BackendKind}
    (detected : detectBackend trimmed = .ok (backend, body)) :
    lit "https://" <+: body ∨ lit "http://" <+: body := by
  rw [detectBackend] at detected
  split at detected
  next found searched =>
      cases detected
      rcases List.exists_of_findSome?_eq_some searched with
        ⟨kind, _, kept⟩
      rcases Option.map_eq_some_iff.1 kept with ⟨other, filtered, same⟩
      cases same
      have allowed := (Option.filter_eq_some_iff.1 filtered).2
      simpa using allowed
  next => cases detected

omit [UrlCrate] in
theorem trim_of_visible
    {text : Text}
    (visible : ∀ c ∈ text, isWhitespace c = false) :
    trim text = text := by
  have kept :
      ∀ part : Text, (∀ c ∈ part, isWhitespace c = false) →
        part.dropWhile isWhitespace = part := by
    intro part seen
    cases part with
    | nil => rfl
    | cons first rest =>
        exact
          List.dropWhile_cons_of_neg
            (by simp [seen first List.mem_cons_self])
  rw [trim, kept text visible,
    kept text.reverse fun c member => visible c (List.mem_reverse.1 member),
    List.reverse_reverse]

omit [UrlCrate] in
theorem visible_schemePrefix
    (backend : BackendKind) :
    ∀ c ∈ schemePrefix backend, isWhitespace c = false := by
  cases backend with
  | s3 => exact List.all_iff_forall_prop.1 (by decide +kernel)
  | azure => exact List.all_iff_forall_prop.1 (by decide +kernel)

/-- The printed URL of a parsed one starts with its scheme. -/
theorem scheme_prefix_display
    {url : Url}
    (read : UrlCrate.parse input = .ok url)
    (http : url.IsHttp)
    (hosted : url.hostStr.isSome = true) :
    lit "https://" <+: UrlCrate.display url ∨
      lit "http://" <+: UrlCrate.display url := by
  have begins : url.scheme ++ lit "://" <+: UrlCrate.display url := by
    rw [UrlCrate.display_eq _ _ read hosted]
    simp only [Url.serialization, List.append_assoc]
    exact ⟨_, List.append_assoc _ _ _⟩
  rcases http with scheme | scheme <;> rw [scheme] at begins
  · left
    simpa [lit_eq] using begins
  · right
    simpa [lit_eq] using begins

/-- Parsing what is printed of a parsed remote URL gives it back. -/
theorem parse_display
    [UrlInverse]
    (parsed : parse allowHttp input = .ok remote) :
    parse allowHttp remote.display = .ok remote := by
  rcases parse_eq_ok_iff.1 parsed with ⟨backend, body, endpoint, steps⟩
  rcases steps.finished with
    ⟨host, flags, addressingOverride, named, clear, extracted, applicable,
      finished⟩
  rcases finish_endpoint finished with ⟨kind, printed⟩
  have http : endpoint.IsHttp := by
    rcases http_of_detectBackend steps.detected with begins | begins
    · left
      apply UrlInverse.scheme_begins body endpoint _ steps.read (Or.inl rfl)
      simpa [lit_eq] using begins
    · right
      apply UrlInverse.scheme_begins body endpoint _ steps.read (Or.inr rfl)
      simpa [lit_eq] using begins
  have visible : ∀ c ∈ remote.display, isWhitespace c = false := by
    intro c member
    rw [display, kind, printed, List.mem_append] at member
    rcases member with inside | inside
    · exact visible_schemePrefix backend c inside
    · exact
        UrlInverse.display_visible body endpoint steps.read http c inside
  have reread := UrlInverse.parse_printed body endpoint steps.read http
  have same := canonical_eq steps.read http
  have alike : Alike endpoint (canonical endpoint) :=
    ⟨pathSegments_canonical steps.read http,
      canonical_canonical steps.read http⟩
  rw [parse_eq_ok_iff, trim_of_visible visible]
  refine
    ⟨backend, UrlCrate.display (canonical endpoint), canonical endpoint, ?_⟩
  rw [display, kind, printed]
  constructor
  · cases backend <;> simp [schemePrefix, lit_eq]
  · apply detectBackend_schemePrefix
    apply scheme_prefix_display reread
    · rw [same]
      exact http
    · rw [same]
      simp [named]
  · exact reread
  · refine
      ⟨host, flags, addressingOverride, ?_, ?_, ?_, applicable,
        finish_alike alike finished⟩
    all_goals rw [same]
    · exact named
    · exact clear
    · exact extracted

end Parsing

/-! ## A URL with empty segments -/

def slashedBody : Text :=
  lit "https://minio.example/bucket//my%20repo/?zip=1#top"

def printedBody : Text :=
  lit "https://minio.example/bucket/my%20repo?zip=1#top"

def slashedUrl : Url where
  scheme := lit "https"
  username := []
  password := none
  host := some (.domain (lit "minio.example"))
  hostStr := some (lit "minio.example")
  port := none
  path := lit "/bucket//my%20repo/"
  query := some (lit "zip=1")
  queryPairs := [(lit "zip", lit "1")]
  fragment := some (lit "top")

def printedUrl : Url :=
  { slashedUrl with path := lit "/bucket/my%20repo" }

theorem plain_slashedUrl : slashedUrl.Plain where
  scheme := List.all_iff_forall_prop.1 (by decide +kernel)
  host := List.all_iff_forall_prop.1 (by decide +kernel)
  path := List.all_iff_forall_prop.1 (by decide +kernel)

theorem plain_printedUrl : printedUrl.Plain where
  scheme := plain_slashedUrl.scheme
  host := plain_slashedUrl.host
  path := List.all_iff_forall_prop.1 (by decide +kernel)

/-- A URL library that knows the two texts. -/
@[reducible]
def slashedCrate : UrlCrate :=
  .knowing [(slashedBody, slashedUrl), (printedBody, printedUrl)]
    (lit "empty host")
    (List.forall_mem_cons.2
      ⟨plain_slashedUrl, List.forall_mem_singleton.2 plain_printedUrl⟩)

section Slashed

attribute [local instance] slashedCrate

theorem slashedUrl_cases
    {input : Text}
    {url : Url}
    (parsed : UrlCrate.parse input = .ok url) :
    (input = slashedBody ∨ input = printedBody) ∧
      (url = slashedUrl ∨ url = printedUrl) := by
  have member := mem_of_lookup_ok parsed
  rw [List.mem_cons, List.mem_singleton, Prod.mk.injEq, Prod.mk.injEq]
    at member
  rcases member with ⟨same, rfl⟩ | ⟨same, rfl⟩
  · exact ⟨Or.inl same, Or.inl rfl⟩
  · exact ⟨Or.inr same, Or.inr rfl⟩

theorem canonical_of_slashedCrate
    {input : Text}
    {url : Url}
    (parsed : UrlCrate.parse input = .ok url) :
    canonical url = printedUrl := by
  have joined :
      '/' :: joinSegments [lit "bucket", lit "my%20repo"] =
        printedUrl.path := by
    decide +kernel
  have segments :
      pathSegments url = [lit "bucket", lit "my%20repo"] := by
    rcases (slashedUrl_cases parsed).2 with rfl | rfl
    · decide +kernel
    · decide +kernel
  rw [canonical, segments]
  rcases (slashedUrl_cases parsed).2 with rfl | rfl
  · exact congrArg (fun path => { slashedUrl with path := path }) joined
  · exact congrArg (fun path => { slashedUrl with path := path }) joined

theorem display_canonical_slashed
    {input : Text}
    {url : Url}
    (parsed : UrlCrate.parse input = .ok url) :
    UrlCrate.display (canonical url) = printedBody := by
  rw [canonical_of_slashedCrate parsed]
  decide +kernel

theorem slashedInverse : UrlInverse where
  scheme_begins := by
    intro input url scheme parsed known begins
    have both := slashedUrl_cases parsed
    have own : url.scheme = lit "https" := by
      rcases both.2 with rfl | rfl <;> rfl
    rcases known with rfl | rfl
    · exact own
    · exfalso
      revert begins
      rcases both.1 with rfl | rfl <;> decide +kernel
  display_visible := by
    intro input url parsed _
    rw [display_canonical_slashed parsed]
    exact List.all_iff_forall_prop.1 (by decide +kernel)
  parse_printed := by
    intro input url parsed _
    rw [display_canonical_slashed parsed, canonical_of_slashedCrate parsed]
    have different : printedBody ≠ slashedBody := by decide +kernel
    apply ok_of_lookup
    rw [List.lookup_cons, beq_false_of_ne different]
    exact List.lookup_cons_self

/-- The remote of either text. -/
theorem parse_slashed :
    ∃ remote,
      parse none (lit "s3+" ++ slashedBody) = .ok remote ∧
        remote.display = lit "s3+" ++ printedBody := by
  apply exists_ok_of_toOption_map
  decide +kernel

theorem parse_display_slashed :
    ∃ remote,
      parse none (lit "s3+" ++ slashedBody) = .ok remote ∧
        remote.display = lit "s3+" ++ printedBody ∧
        parse none remote.display = .ok remote := by
  have := slashedInverse
  rcases parse_slashed with ⟨remote, parsed, printed⟩
  exact ⟨remote, parsed, printed, parse_display parsed⟩

end Slashed

end RemoteUrl

end GitRemoteObjectStore
