import Mathlib.Data.Bool.AllAny
import GitRemoteObjectStore.BundleUri
import GitRemoteObjectStore.PackchainRuns
import GitRemoteObjectStore.Library.PercentEncoding

/-!
# Emitted addresses

The answer to `bundle-uri` is well framed for every accepted URL and every
bucket.  An address leads to the object a push has written when the prefix of
the URL holds no percent-escape: the prefix is used as it is spelled, so that
an escape in it is part of the key, while a reader of the address decodes it.
-/

namespace GitRemoteObjectStore.BundleUri

open CallProgram Prog Separated PercentEncoding

/-! ## Accepted URLs -/

/-- No character that ends a path, or a line. -/
def Unbroken (text : Text) : Prop :=
  ∀ c ∈ text, c ≠ '?' ∧ c ≠ '#' ∧ c ≠ '\n'

/-- A segment of lowercase letters, digits, dots and hyphens. -/
def IsName (text : Text) : Prop :=
  ∀ c ∈ text,
    RemoteUrl.isAsciiAlphanumLower c = true ∨ c = '.' ∨ c = '-'

/-- The bucket, or the account and container, in front of the key. -/
def leadingSegments : RemoteUrl → List Text
  | .s3 _ _ _ .virtualHosted _ => []
  | .s3 _ bucket _ .pathStyle _ => [bucket]
  | .azure _ _ container _ .virtualHosted _ => [container]
  | .azure _ account container _ .pathStyle _ => [account, container]

/-- What an accepted URL is made of. -/
structure WellFormed (remote : RemoteUrl) : Prop where
  scheme : ∀ c ∈ remote.endpoint.scheme, c.isAlphanum = true
  host :
    ∀ c ∈ remote.endpoint.hostStr.getD [],
      c ≠ '/' ∧ c ≠ '?' ∧ c ≠ '#' ∧ c ≠ '\n'
  leading : ∀ segment ∈ leadingSegments remote, IsName segment
  bucketPrefix : Unbroken (prefixText remote.bucketPrefix)

theorem Unbroken.append
    {left right : Text}
    (first : Unbroken left)
    (second : Unbroken right) :
    Unbroken (left ++ right) := by
  intro c member
  rcases List.mem_append.1 member with inside | inside
  · exact first c inside
  · exact second c inside

theorem IsName.unbroken {text : Text} (name : IsName text) :
    Unbroken text := by
  intro c member
  rcases name c member with lower | rfl | rfl
  · refine ⟨?_, ?_, ?_⟩ <;>
      · rintro rfl
        revert lower
        decide
  · decide
  · decide

theorem IsName.no_slash {text : Text} (name : IsName text) :
    '/' ∉ text := by
  intro member
  rcases name '/' member with lower | dot | hyphen
  · revert lower
    decide
  · cases dot
  · cases hyphen

theorem isName_of_isValidBucket
    {text : Text}
    (valid : RemoteUrl.isValidBucket text = true) :
    IsName text := by
  intro c member
  simp only [RemoteUrl.isValidBucket, Bool.and_eq_true] at valid
  have allowed := List.all_eq_true.1 valid.1.1.1.1.2 c member
  simpa [or_assoc] using allowed

theorem isName_of_isValidAccount
    {text : Text}
    (valid : RemoteUrl.isValidAccount text = true) :
    IsName text := by
  intro c member
  simp only [RemoteUrl.isValidAccount, Bool.and_eq_true] at valid
  exact Or.inl (List.all_eq_true.1 valid.2 c member)

theorem isName_of_isValidContainer
    {text : Text}
    (valid : RemoteUrl.isValidContainer text = true) :
    IsName text := by
  intro c member
  simp only [RemoteUrl.isValidContainer, Bool.and_eq_true] at valid
  have allowed := List.all_eq_true.1 valid.1.2 c member
  rcases Bool.or_eq_true_iff.1 allowed with lower | hyphen
  · exact Or.inl lower
  · exact Or.inr (Or.inr (by simpa using hyphen))

section Segments

variable {url : Url} {segments : List Text} {c : Char}

theorem mem_joinSegments
    (member : c ∈ RemoteUrl.joinSegments segments) :
    c = '/' ∨ ∃ segment ∈ segments, c ∈ segment := by
  unfold RemoteUrl.joinSegments at member
  induction segments with
  | nil => simp at member
  | cons first rest hypothesis =>
      cases rest with
      | nil => exact Or.inr ⟨first, by simp, by simpa using member⟩
      | cons second others =>
          rw [List.intercalate_cons_cons, List.append_assoc] at member
          rcases List.mem_append.1 member with inside | member
          · exact Or.inr ⟨first, by simp, inside⟩
          · rcases List.mem_append.1 member with slash | later
            · exact Or.inl (List.mem_singleton.1 slash)
            · rcases hypothesis later with slash | ⟨segment, listed, inside⟩
              · exact Or.inl slash
              · exact Or.inr ⟨segment, by simp [listed], inside⟩

theorem mem_joinSegments_of_mem
    {segment : Text}
    (member : segment ∈ segments)
    (inside : c ∈ segment) :
    c ∈ RemoteUrl.joinSegments segments := by
  unfold RemoteUrl.joinSegments
  induction segments with
  | nil => cases member
  | cons first rest hypothesis =>
      cases rest with
      | nil => simpa [← List.mem_singleton.1 member] using inside
      | cons second others =>
          rw [List.intercalate_cons_cons]
          rcases List.mem_cons.1 member with rfl | later
          · simp [inside]
          · simp [hypothesis later]

variable [UrlCrate] {input : Text} (read : UrlCrate.parse input = .ok url)

include read in
/-- The segments of a path have its characters. -/
theorem mem_path_of_mem_segment
    {segment : Text}
    (member : segment ∈ RemoteUrl.pathSegments url)
    (inside : c ∈ segment) :
    c ∈ url.path := by
  have listed := (List.mem_filter.1 member).1
  rw [UrlCrate.pathSegments_eq _ _ read, Url.splitPath] at listed
  cases stripped : stripPrefix ['/'] url.path with
  | none =>
      rw [stripped] at listed
      cases listed
  | some path =>
      rw [stripped, Option.map_some, Option.getD_some] at listed
      have joined := mem_joinSegments_of_mem listed inside
      unfold RemoteUrl.joinSegments at joined
      rw [List.intercalate_splitOn] at joined
      rw [stripPrefix_eq_some.1 stripped]
      exact List.mem_cons_of_mem _ joined

include read in
theorem unbroken_joinPrefix
    (plain : Unbroken url.path)
    (within : segments ⊆ RemoteUrl.pathSegments url) :
    Unbroken (prefixText (RemoteUrl.joinPrefix segments)) := by
  unfold RemoteUrl.joinPrefix
  split
  · intro c member
    cases member
  · intro c member
    rcases mem_joinSegments member with rfl | ⟨segment, listed, inside⟩
    · decide
    · exact plain c (mem_path_of_mem_segment read (within listed) inside)

end Segments

/-! ## What parsing establishes -/

section Parsing

variable
    {endpoint : Url}
    {host : Text}
    {flags : RemoteFlags}
    {addressingOverride : Option RemoteUrl.AddressingOverride}
    {remote : RemoteUrl}
    {segments : List Text}

theorem mem_of_resolveS3Components
    {addressing : S3Addressing}
    {bucket : Text}
    {rest : List Text}
    (resolved :
      RemoteUrl.resolveS3Components host segments addressingOverride =
        .ok (addressing, bucket, rest)) :
    rest ⊆ segments := by
  unfold RemoteUrl.resolveS3Components at resolved
  simp only at resolved
  split at resolved
  · split at resolved
    · cases resolved
    · cases resolved
      exact List.Subset.refl _
  · split at resolved
    · cases resolved
    · cases resolved
      exact List.subset_cons_self _ _

theorem mem_of_resolveAzureComponents
    {addressing : AzureAddressing}
    {account container : Text}
    {rest : List Text}
    (resolved :
      RemoteUrl.resolveAzureComponents addressing host segments =
        .ok (account, container, rest)) :
    rest ⊆ segments := by
  unfold RemoteUrl.resolveAzureComponents at resolved
  split at resolved
  · split at resolved
    · cases resolved
    · split at resolved
      · cases resolved
      · cases resolved
        exact List.subset_cons_self _ _
  · split at resolved
    · cases resolved
    · cases resolved
    · cases resolved
      exact fun segment member => by simp [member]

theorem account_or_container
    {account container segment : Text}
    {bucketPrefix : Option Text}
    {addressing : AzureAddressing}
    (member :
      segment ∈
        leadingSegments
          (.azure endpoint account container bucketPrefix addressing
            flags)) :
    segment = account ∨ segment = container := by
  cases addressing with
  | virtualHosted => exact Or.inr (List.mem_singleton.1 member)
  | pathStyle => simpa [leadingSegments] using member

/-- What is kept of the URL the library has read. -/
structure FinishedFrom
    (endpoint : Url)
    (flags : RemoteFlags)
    (remote : RemoteUrl) : Prop where
  scheme : remote.endpoint.scheme = endpoint.scheme
  host : remote.endpoint.hostStr = endpoint.hostStr
  flags : remote.flags = flags
  leading : ∀ segment ∈ leadingSegments remote, IsName segment
  bucketPrefix :
    Unbroken endpoint.path → Unbroken (prefixText remote.bucketPrefix)

variable [UrlCrate] {body : Text} (read : UrlCrate.parse body = .ok endpoint)

theorem setCanonicalPath_scheme (segments : List Text) :
    (RemoteUrl.setCanonicalPath endpoint segments).scheme =
      endpoint.scheme := by
  rw [RemoteUrl.setCanonicalPath, UrlCrate.setPath_eq]

theorem setCanonicalPath_hostStr (segments : List Text) :
    (RemoteUrl.setCanonicalPath endpoint segments).hostStr =
      endpoint.hostStr := by
  rw [RemoteUrl.setCanonicalPath, UrlCrate.setPath_eq]

include read in
theorem finishedFrom_finishS3
    (finished :
      RemoteUrl.finishS3 endpoint host flags addressingOverride =
        .ok remote) :
    FinishedFrom endpoint flags remote := by
  unfold RemoteUrl.finishS3 at finished
  cases applicable :
      RemoteUrl.rejectInapplicableFlag flags.credential.isSome
        (lit "credential") .s3 with
  | error error =>
      rw [applicable] at finished
      cases finished
  | ok _ =>
      cases checked : RemoteUrl.checkAwsS3Host host with
      | error error =>
          rw [applicable, checked] at finished
          cases finished
      | ok _ =>
          cases resolved :
              RemoteUrl.resolveS3Components host
                (RemoteUrl.pathSegments endpoint) addressingOverride with
          | error error =>
              rw [applicable, checked, resolved] at finished
              cases finished
          | ok found =>
              rcases found with ⟨addressing, bucket, rest⟩
              rw [applicable, checked, resolved] at finished
              simp only [Bind.bind, Except.bind] at finished
              split at finished
              · cases finished
              next valid =>
                  cases finished
                  have name : IsName bucket :=
                    isName_of_isValidBucket (by simpa using valid)
                  refine
                    ⟨setCanonicalPath_scheme _, setCanonicalPath_hostStr _,
                      rfl, ?_, fun plain => ?_⟩
                  · cases addressing with
                    | virtualHosted => exact fun _ member => nomatch member
                    | pathStyle =>
                        intro segment member
                        rw [List.mem_singleton.1 member]
                        exact name
                  · exact
                      unbroken_joinPrefix read plain
                        (mem_of_resolveS3Components resolved)

include read in
theorem finishedFrom_finishAzure
    (finished :
      RemoteUrl.finishAzure endpoint host flags addressingOverride =
        .ok remote) :
    FinishedFrom endpoint flags remote := by
  unfold RemoteUrl.finishAzure at finished
  cases applicable :
      RemoteUrl.rejectInapplicableFlag flags.profile.isSome
        (lit "profile") .azure with
  | error error =>
      rw [applicable] at finished
      cases finished
  | ok _ =>
      cases applicable' :
          RemoteUrl.rejectInapplicableFlag flags.region.isSome
            (lit "region") .azure with
      | error error =>
          rw [applicable, applicable'] at finished
          cases finished
      | ok _ =>
          rw [applicable, applicable'] at finished
          simp only [Bind.bind, Except.bind] at finished
          split at finished
          · cases finished
          next found resolved =>
          rcases found with ⟨account, container, rest⟩
          simp only at finished
          split at finished
          · cases finished
          next accountValid =>
          split at finished
          · cases finished
          next containerValid =>
          cases finished
          have accountName : IsName account :=
            isName_of_isValidAccount (by simpa using accountValid)
          have containerName : IsName container :=
            isName_of_isValidContainer (by simpa using containerValid)
          refine
            ⟨setCanonicalPath_scheme _, setCanonicalPath_hostStr _, rfl, ?_,
              fun plain => ?_⟩
          · intro segment member
            rcases account_or_container member with rfl | rfl
            · exact accountName
            · exact containerName
          · exact
              unbroken_joinPrefix read plain
                (mem_of_resolveAzureComponents resolved)

/-- Every accepted URL is well formed. -/
theorem wellFormed_of_parse
    {allowHttp : Option Text}
    {input : Text}
    (parsed : RemoteUrl.parse allowHttp input = .ok remote) :
    WellFormed remote := by
  unfold RemoteUrl.parse at parsed
  simp only [Bind.bind, Except.bind] at parsed
  split at parsed
  · cases parsed
  split at parsed
  · cases parsed
  next found detected =>
  rcases found with ⟨backend, body⟩
  simp only at parsed
  split at parsed
  · cases parsed
  next endpoint read =>
  have parsedUrl : UrlCrate.parse body = .ok endpoint := by
    revert read
    cases UrlCrate.parse body with
    | error error => exact fun read => nomatch read
    | ok url => exact fun read => by cases read; rfl
  split at parsed
  · cases parsed
  next host named =>
  split at parsed
  · cases parsed
  split at parsed
  · cases parsed
  next flagged extracted =>
  rcases flagged with ⟨flags, addressingOverride⟩
  simp only at parsed
  split at parsed
  · cases parsed
  have finished : FinishedFrom endpoint flags remote := by
    cases backend with
    | s3 => exact finishedFrom_finishS3 parsedUrl parsed
    | azure => exact finishedFrom_finishAzure parsedUrl parsed
  constructor
  · rw [finished.scheme]
    exact UrlCrate.scheme_plain body endpoint parsedUrl
  · rw [finished.host, named]
    exact UrlCrate.host_plain body endpoint host parsedUrl named
  · exact finished.leading
  · exact
      finished.bucketPrefix
        (UrlCrate.path_plain body endpoint parsedUrl)

end Parsing

/-! ## Reading an address back -/

/-- The path of a URL, between the authority and the query. -/
def urlPath (url : Text) : Text :=
  (((url.dropWhile fun c => c ≠ ':').drop 3).dropWhile fun c =>
    c ≠ '/').takeWhile fun c => c ≠ '?' && c ≠ '#'

/-- A path without its first segments, and the slash before the rest. -/
def dropSegments : Nat → Text → Text
  | 0, path => path.drop 1
  | count + 1, path =>
      dropSegments count ((path.drop 1).dropWhile fun c => c ≠ '/')

section Addresses

variable
    {remote : RemoteUrl}
    {refPath fullAt rest text : Text}
    {stop : Char}

theorem dropWhile_append_stop
    (absent : stop ∉ text) :
    (text ++ stop :: rest).dropWhile (fun c => c ≠ stop) =
      stop :: rest := by
  rw [List.dropWhile_append_of_pos]
  · simp
  · intro c member
    simp only [ne_eq, decide_eq_true_eq]
    rintro rfl
    exact absent member

theorem isDigit_of_mem_port
    {port : Nat}
    {c : Char}
    (member : c ∈ (toString port).toList) :
    c.isDigit = true := by
  have digit : c ∈ Nat.toDigits 10 port := by
    simpa [Nat.toList_repr] using member
  exact Nat.isDigit_of_mem_toDigits (by decide) (by decide) digit

/-- What stands between the scheme and the path. -/
theorem exists_location
    {endpoint : Url}
    (host :
      ∀ c ∈ endpoint.hostStr.getD [],
        c ≠ '/' ∧ c ≠ '?' ∧ c ≠ '#' ∧ c ≠ '\n') :
    ∃ location : Text,
      (∀ c ∈ location, c ≠ '/' ∧ c ≠ '\n') ∧
        hostAuthority endpoint =
          endpoint.scheme ++ ':' :: '/' :: '/' :: location := by
  have hostPlain : ∀ c ∈ endpoint.hostStr.getD [], c ≠ '/' ∧ c ≠ '\n' :=
    fun c member => ⟨(host c member).1, (host c member).2.2.2⟩
  unfold hostAuthority
  cases endpoint.port with
  | none =>
      exact ⟨endpoint.hostStr.getD [], hostPlain, by simp [lit_eq]⟩
  | some port =>
      refine
        ⟨endpoint.hostStr.getD [] ++ ':' :: (toString port).toList, ?_,
          by simp [lit_eq]⟩
      intro c member
      rcases List.mem_append.1 member with inside | member
      · exact hostPlain c inside
      · rcases List.mem_cons.1 member with rfl | inside
        · decide
        · have digit := isDigit_of_mem_port inside
          constructor <;>
            · rintro rfl
              revert digit
              decide

/-- An address's path is what follows the authority. -/
theorem urlPath_hostAuthority
    {endpoint : Url}
    (scheme : ∀ c ∈ endpoint.scheme, c.isAlphanum = true)
    (host :
      ∀ c ∈ endpoint.hostStr.getD [],
        c ≠ '/' ∧ c ≠ '?' ∧ c ≠ '#' ∧ c ≠ '\n')
    (unbroken : Unbroken rest) :
    urlPath (hostAuthority endpoint ++ '/' :: rest) = '/' :: rest := by
  have colon : ':' ∉ endpoint.scheme := by
    intro member
    have alphanumeric := scheme ':' member
    revert alphanumeric
    decide
  rcases exists_location host with ⟨location, plain, authority⟩
  have locationPlain : '/' ∉ location := fun member => (plain '/' member).1 rfl
  unfold urlPath
  rw [authority, List.append_assoc, List.cons_append,
    dropWhile_append_stop colon]
  simp only [List.cons_append, List.drop_succ_cons, List.drop_zero]
  rw [dropWhile_append_stop locationPlain]
  rw [List.takeWhile_eq_self_iff]
  intro c member
  rcases List.mem_cons.1 member with rfl | inside
  · decide
  · have plain := unbroken c inside
    simp [plain.1, plain.2.1]

/-- Every style of address is the authority, the container and the key. -/
theorem canonicalBundleUrl_eq
    (remote : RemoteUrl)
    (refPath fullAt : Text) :
    canonicalBundleUrl remote refPath fullAt =
      hostAuthority remote.endpoint ++
        ((leadingSegments remote).flatMap fun segment => '/' :: segment) ++
          '/' :: baselineKey remote.bucketPrefix refPath fullAt := by
  cases remote with
  | s3 endpoint bucket bucketPrefix addressing flags =>
      cases addressing <;> simp [canonicalBundleUrl, leadingSegments]
  | azure endpoint account container bucketPrefix addressing flags =>
      cases addressing <;> simp [canonicalBundleUrl, leadingSegments]

theorem dropSegments_leading
    {segments : List Text}
    (plain : ∀ segment ∈ segments, '/' ∉ segment) :
    dropSegments segments.length
        ((segments.flatMap fun segment => '/' :: segment) ++ '/' :: rest) =
      rest := by
  induction segments with
  | nil => rfl
  | cons first others hypothesis =>
      have remaining :=
        hypothesis fun segment member => plain segment (by simp [member])
      have begins :
          ∃ tail,
            (others.flatMap fun segment => '/' :: segment) ++ '/' :: rest =
              '/' :: tail := by
        cases others with
        | nil => exact ⟨rest, rfl⟩
        | cons second more => exact ⟨_, rfl⟩
      rcases begins with ⟨tail, begins⟩
      rw [begins] at remaining
      rw [List.length_cons, List.flatMap_cons, List.append_assoc, begins,
        dropSegments, List.cons_append, List.drop_succ_cons,
        List.drop_zero, dropWhile_append_stop (plain first (by simp)),
        remaining]

theorem unbroken_keyRoot
    {bucketPrefix : Option Text}
    (plain : Unbroken (prefixText bucketPrefix)) :
    Unbroken (keyRoot bucketPrefix) := by
  intro c member
  cases bucketPrefix with
  | none => cases member
  | some text =>
      unfold keyRoot at member
      simp only at member
      split at member
      · cases member
      · rcases List.mem_append.1 member with inside | slash
        · exact plain c inside
        · rw [List.mem_singleton.1 slash]
          decide

theorem unbroken_baselineKey
    {bucketPrefix : Option Text}
    (plain : Unbroken (prefixText bucketPrefix))
    (refPlain : Unbroken refPath)
    (fullPlain : Unbroken fullAt) :
    Unbroken (baselineKey bucketPrefix refPath fullAt) := by
  unfold baselineKey
  rw [join_eq]
  apply (unbroken_keyRoot plain).append
  apply refPlain.append
  intro c member
  rcases List.mem_cons.1 member with rfl | member
  · decide
  · refine fullPlain.append ?_ c member
    rw [lit_eq]
    exact List.all_iff_forall_prop.1 (by decide)

theorem WellFormed.unbroken_leading
    (wellFormed : WellFormed remote) :
    Unbroken
      ((leadingSegments remote).flatMap fun segment => '/' :: segment) := by
  intro c member
  rcases List.mem_flatMap.1 member with ⟨segment, listed, inside⟩
  rcases List.mem_cons.1 inside with rfl | inside
  · decide
  · exact (wellFormed.leading segment listed).unbroken c inside

/-- An address is in one line. -/
theorem canonicalBundleUrl_no_newline
    (wellFormed : WellFormed remote)
    (refPlain : Unbroken refPath)
    (fullPlain : Unbroken fullAt) :
    '\n' ∉ canonicalBundleUrl remote refPath fullAt := by
  rcases exists_location wellFormed.host with
    ⟨location, locationPlain, authority⟩
  have scheme : '\n' ∉ remote.endpoint.scheme := by
    intro member
    have alphanumeric := wellFormed.scheme '\n' member
    revert alphanumeric
    decide
  have host : '\n' ∉ location := fun member =>
    (locationPlain '\n' member).2 rfl
  have leading :
      '\n' ∉
        (leadingSegments remote).flatMap fun segment => '/' :: segment :=
    fun member => (wellFormed.unbroken_leading '\n' member).2.2 rfl
  have key : '\n' ∉ baselineKey remote.bucketPrefix refPath fullAt :=
    fun member =>
      (unbroken_baselineKey wellFormed.bucketPrefix refPlain fullPlain
        '\n' member).2.2 rfl
  rw [canonicalBundleUrl_eq, authority]
  simp only [List.mem_append, List.mem_cons, not_or]
  exact
    ⟨⟨⟨scheme, by decide, by decide, by decide, host⟩, leading⟩, by decide,
      key⟩

/-- What is left of an address is the key, as it is spelled. -/
theorem dropSegments_canonicalBundleUrl
    (wellFormed : WellFormed remote)
    (refPlain : Unbroken refPath)
    (fullPlain : Unbroken fullAt) :
    dropSegments (leadingSegments remote).length
        (urlPath (canonicalBundleUrl remote refPath fullAt)) =
      baselineKey remote.bucketPrefix refPath fullAt := by
  have slashed :
      ∃ rest,
        ((leadingSegments remote).flatMap fun segment => '/' :: segment) ++
            '/' :: baselineKey remote.bucketPrefix refPath fullAt =
          '/' :: rest := by
    cases leadingSegments remote with
    | nil => exact ⟨_, rfl⟩
    | cons first others => exact ⟨_, rfl⟩
  have unbroken :
      Unbroken
        (((leadingSegments remote).flatMap fun segment => '/' :: segment) ++
          '/' :: baselineKey remote.bucketPrefix refPath fullAt) := by
    apply wellFormed.unbroken_leading.append
    intro c member
    rcases List.mem_cons.1 member with rfl | inside
    · decide
    · exact
        unbroken_baselineKey wellFormed.bucketPrefix refPlain fullPlain c
          inside
  have path :
      urlPath (canonicalBundleUrl remote refPath fullAt) =
        ((leadingSegments remote).flatMap fun segment => '/' :: segment) ++
          '/' :: baselineKey remote.bucketPrefix refPath fullAt := by
    rw [canonicalBundleUrl_eq, List.append_assoc]
    rcases slashed with ⟨rest, slashed⟩
    rw [slashed] at unbroken ⊢
    exact
      urlPath_hostAuthority wellFormed.scheme wellFormed.host
        fun c member => unbroken c (List.mem_cons_of_mem _ member)
  rw [path]
  exact
    dropSegments_leading fun segment listed =>
      (wellFormed.leading segment listed).no_slash

/-- An address decodes to the key unless the prefix holds an escape. -/
theorem decode_canonicalBundleUrl
    (wellFormed : WellFormed remote)
    (refPlain : Unbroken refPath)
    (refLiteral : '%' ∉ refPath)
    (fullPlain : Unbroken fullAt)
    (fullLiteral : '%' ∉ fullAt) :
    decode
          (dropSegments (leadingSegments remote).length
            (urlPath (canonicalBundleUrl remote refPath fullAt))) =
        utf8 (baselineKey remote.bucketPrefix refPath fullAt) ↔
      ¬ HasEscape (prefixText remote.bucketPrefix) := by
  rw [dropSegments_canonicalBundleUrl wellFormed refPlain fullPlain,
    decode_eq_utf8_iff, not_iff_not]
  have literal :
      '%' ∉ refPath ++ '/' :: (fullAt ++ lit ".bundle") := by
    simp [refLiteral, fullLiteral, lit_eq]
  unfold baselineKey join
  cases remote.bucketPrefix with
  | none =>
      exact
        iff_of_false (not_hasEscape_of_notMem literal) not_hasEscape_nil
  | some text =>
      simp only [prefixText, Option.getD_some]
      split
      next empty =>
          rw [empty]
          exact
            iff_of_false (not_hasEscape_of_notMem literal)
              not_hasEscape_nil
      next =>
          rw [if_neg (by simp), hasEscape_append (by decide) (by decide),
            or_iff_left (not_hasEscape_of_notMem literal)]

end Addresses

/-! ## The entries -/

section Entries

variable
    [Platform]
    {bucketPrefix : Option Text}
    {world : World}

/-- A reference with a chain, and a name fit for the answer. -/
structure Offered
    (bucketPrefix : Option Text)
    (world : World)
    (refName : RefName)
    (manifest : ChainManifest) : Prop where
  branch : lit "refs/heads/" <+: refName.text ++ ['/']
  safe : isSafeForBundleUriEmission refName.text = true
  stored :
    world.body? (chainKey bucketPrefix refName) = some (.chain manifest)
  version : manifest.v = ChainManifest.schemaVersion

/-- The entry a listed object gives. -/
def entryOf
    (text : Text)
    (world : World)
    (object : ObjectMeta) : Option BundleEntry :=
  if !isChainJsonKey object.key then none
  else
    match refPathFromChainKey (some text) object.key with
    | none => none
    | some refPath =>
        if !Platform.isValidRefName refPath then none
        else if !isSafeForBundleUriEmission refPath then none
        else
          match (world.body? object.key).map ChainManifest.fromJsonBytes with
          | some (.ok chain) => some ⟨refPath, chain.fullAt.text⟩
          | _ => none

omit [Platform] in
theorem foldl_toList
    {α β : Type}
    (found : α → Option β)
    (items : List α)
    (collected : List β) :
    items.foldl (fun collected item => collected ++ (found item).toList)
        collected =
      collected ++ items.filterMap found := by
  induction items generalizing collected with
  | nil => simp
  | cons item rest hypothesis =>
      rw [List.foldl_cons, hypothesis, List.filterMap_cons]
      cases found item <;> simp

theorem run_collectEntries (text : Text) (world : World) :
    run answer (collectEntries text) world =
      (.ok
        (((world.listing
          (join (some text) (lit "refs/heads/"))).filterMap
            (entryOf text world)).insertionSort
          fun left right => left.refPath ≤ right.refPath), world) := by
  unfold collectEntries
  rw [run_bind]
  simp only [run_mapError, Store.run_list, Except.mapError]
  rw [run_bind_ok
    (run_foldEach_pure
      (fun collected object =>
        collected ++ (entryOf text world object).toList) ?_ [])]
  · rw [foldl_toList]
    rfl
  · intro collected object member
    rcases World.mem_listing.1 member with ⟨-, stored, found, -⟩
    cases chainKey : isChainJsonKey object.key with
    | false => simp [entryOf, chainKey]
    | true =>
        cases path : refPathFromChainKey (some text) object.key with
        | none => simp [entryOf, chainKey, path]
        | some refPath =>
            cases valid : Platform.isValidRefName refPath with
            | false => simp [entryOf, chainKey, path, valid]
            | true =>
                cases safe : isSafeForBundleUriEmission refPath with
                | false => simp [entryOf, chainKey, path, valid, safe]
                | true =>
                    simp only [entryOf, chainKey, path, valid, safe,
                      Bool.not_true, Bool.false_eq_true, if_false, run_bind,
                      run_attempt, Store.run_getBytes_present found,
                      World.body?, found, Option.map_some]
                    cases ChainManifest.fromJsonBytes stored.body <;> simp

theorem entryOf_eq_some
    {object : ObjectMeta}
    {entry : BundleEntry} :
    entryOf (prefixText bucketPrefix) world object = some entry ↔
      ∃ refName : RefName, ∃ manifest : ChainManifest,
        object.key = chainKey bucketPrefix refName ∧
          isSafeForBundleUriEmission refName.text = true ∧
          world.body? object.key = some (.chain manifest) ∧
          manifest.v = ChainManifest.schemaVersion ∧
          entry = ⟨refName.text, manifest.fullAt.text⟩ := by
  constructor
  · intro found
    unfold entryOf at found
    split at found
    · cases found
    split at found
    · cases found
    next refPath path =>
    split at found
    · cases found
    next valid =>
    split at found
    · cases found
    next safe =>
    split at found
    next chain parsed =>
        rcases Option.map_eq_some_iff.1 parsed with ⟨body, stored, parsed⟩
        rcases ChainManifest.fromJsonBytes_ok.1 parsed with ⟨rfl, version⟩
        cases found
        rw [Packchain.refPathFromChainKey_eq_some, join_some_prefixText]
          at path
        exact
          ⟨⟨refPath, by simpa using valid⟩, chain, path,
            by simpa using safe, stored, version, rfl⟩
    next => cases found
  · rintro ⟨refName, manifest, key, safe, stored, version, rfl⟩
    have isChain : isChainJsonKey object.key = true := by
      apply List.isSuffixOf_iff_suffix.2
      rw [key, chainKey, join_eq]
      exact ⟨keyRoot bucketPrefix ++ refName.text, by simp⟩
    have path :
        refPathFromChainKey (some (prefixText bucketPrefix)) object.key =
          some refName.text := by
      rw [Packchain.refPathFromChainKey_eq_some, join_some_prefixText]
      exact key
    have parsed := ChainManifest.fromJsonBytes_ok.2 ⟨rfl, version⟩
    simp [entryOf, isChain, path, refName.valid, safe, stored, parsed]

/-- The entries are the references on offer. -/
theorem mem_entries {entry : BundleEntry} :
    entry ∈
        (world.listing
          (join (some (prefixText bucketPrefix))
            (lit "refs/heads/"))).filterMap
          (entryOf (prefixText bucketPrefix) world) ↔
      ∃ refName manifest,
        Offered bucketPrefix world refName manifest ∧
          entry = ⟨refName.text, manifest.fullAt.text⟩ := by
  have branch (refName : RefName) :
      join (some (prefixText bucketPrefix)) (lit "refs/heads/") <+:
          chainKey bucketPrefix refName ↔
        lit "refs/heads/" <+: refName.text ++ ['/'] := by
    rw [join_some_prefixText, join_eq, chainKey, join_eq,
      List.prefix_append_right_inj]
    have directory : lit "refs/heads/" = lit "refs/heads" ++ ['/'] := by
      decide +kernel
    have last : lit "/chain.json" = '/' :: lit "chain.json" := by
      decide +kernel
    rw [directory, last,
      separator_prefix_iff (by simp [lit_eq] : '/' ∉ lit "chain.json"),
      separator_prefix_iff (by simp : '/' ∉ ([] : Text))]
  constructor
  · intro member
    rcases List.mem_filterMap.1 member with ⟨object, listed, found⟩
    rcases entryOf_eq_some.1 found with
      ⟨refName, manifest, key, safe, stored, version, rfl⟩
    rcases World.mem_listing.1 listed with ⟨below, -⟩
    rw [key] at below stored
    exact
      ⟨refName, manifest, ⟨(branch refName).1 below, safe, stored, version⟩,
        rfl⟩
  · rintro ⟨refName, manifest, offered, rfl⟩
    rcases Option.map_eq_some_iff.1 offered.stored with
      ⟨object, present, body⟩
    apply List.mem_filterMap.2
    refine
      ⟨⟨chainKey bucketPrefix refName, object.lastModified⟩,
        World.mem_listing.2
          ⟨(branch refName).2 offered.branch, object, present, rfl⟩, ?_⟩
    exact
      entryOf_eq_some.2
        ⟨refName, manifest, rfl, offered.safe, offered.stored,
          offered.version, rfl⟩

end Entries

/-! ## The answer as a whole -/

section Answer

variable
    [Platform]
    {world : World}
    {remote : RemoteUrl}

/-- The keys of the two lines of a reference. -/
def uriKey (refName : RefName) : Text :=
  lit "bundle." ++ refName.text ++ lit ".uri"

def creationTokenKey (refName : RefName) : Text :=
  lit "bundle." ++ refName.text ++ lit ".creationToken"

/-- A line as key and value: the text is split at its first `=`. -/
structure LineOf
    (remote : RemoteUrl)
    (world : World)
    (line key value : Text) : Prop where
  split : line = key ++ '=' :: value
  first : '=' ∉ key
  whole : '\n' ∉ line
  named :
    ∃ refName manifest,
      Offered remote.bucketPrefix world refName manifest ∧
        (key = uriKey refName ∨ key = creationTokenKey refName)

/-- An address names the object a push writes for that reference. -/
def LeadsTo
    (remote : RemoteUrl)
    (refName : RefName)
    (manifest : ChainManifest)
    (url : Text) : Prop :=
  decode (dropSegments (leadingSegments remote).length (urlPath url)) =
    utf8 (bundleKey remote.bucketPrefix refName manifest.fullAt)

/--
A well-framed answer, in which every address that is not signed leads to its
bundle.
-/
def Lawful (remote : RemoteUrl) (world : World) (output : Text) : Prop :=
  ∃ lines,
    output = terminated '\n' (lines ++ [[]]) ∧
      (∀ line ∈ lines, ∃ key value, LineOf remote world line key value) ∧
      (remote.flags.bundleUriPresignTtl = none →
        ∀ refName manifest url,
          Offered remote.bucketPrefix world refName manifest →
            uriKey refName ++ '=' :: url ∈ lines →
              LeadsTo remote refName manifest url)

variable
    {presignedGetUrl : Text → NonZeroU64 → Except ObjectStoreError Text}

/-- The lines of an answer. -/
def answerLines
    (presignedGetUrl : Text → NonZeroU64 → Except ObjectStoreError Text)
    (remote : RemoteUrl)
    (world : World) : List Text :=
  (((world.listing
    (join (some (prefixText remote.bucketPrefix))
      (lit "refs/heads/"))).filterMap
        (entryOf (prefixText remote.bucketPrefix) world)).insertionSort
      fun left right => left.refPath ≤ right.refPath).flatMap fun entry =>
    match bundleUrlForEmission presignedGetUrl remote entry.refPath
        entry.fullAt ⟨remote.flags.bundleUriPresignTtl⟩ with
    | .ok url => entryLines entry url
    | .error _ => []

theorem run_handleBundleUri (world : World) :
    run answer
        (handleBundleUri presignedGetUrl remote
          ⟨remote.flags.bundleUriPresignTtl⟩ true) world =
      (.ok
        (terminated '\n' (answerLines presignedGetUrl remote world ++ [[]])),
        world) := by
  unfold handleBundleUri
  rw [if_neg (by decide), run_bind, run_attempt, run_collectEntries,
    terminated_append]
  rfl

theorem mem_answerLines {line : Text} :
    line ∈ answerLines presignedGetUrl remote world ↔
      ∃ refName manifest url,
        Offered remote.bucketPrefix world refName manifest ∧
          bundleUrlForEmission presignedGetUrl remote refName.text
              manifest.fullAt.text ⟨remote.flags.bundleUriPresignTtl⟩ =
            .ok url ∧
          (line = uriKey refName ++ '=' :: url ∨
            line =
              creationTokenKey refName ++ '=' :: manifest.fullAt.text) := by
  unfold answerLines
  rw [List.mem_flatMap]
  simp only [List.mem_insertionSort, mem_entries]
  constructor
  · rintro ⟨entry, ⟨refName, manifest, offered, rfl⟩, member⟩
    split at member
    next url emitted =>
        refine ⟨refName, manifest, url, offered, emitted, ?_⟩
        simpa [entryLines, uriKey, creationTokenKey, lit_eq] using member
    next => cases member
  · rintro ⟨refName, manifest, url, offered, emitted, lines⟩
    refine ⟨_, ⟨refName, manifest, offered, rfl⟩, ?_⟩
    rw [emitted]
    simpa [entryLines, uriKey, creationTokenKey, lit_eq] using lines

section Lines

variable
    {refName : RefName}
    {manifest : ChainManifest}

omit [Platform] in
theorem not_mem_of_isSafe
    {refPath : Text}
    {c : Char}
    (safe : isSafeForBundleUriEmission refPath = true)
    (unsafeCharacter : c ∈ lit "=#%&;,?") :
    c ∉ refPath := by
  intro member
  unfold isSafeForBundleUriEmission at safe
  have found : refPath.any (fun c => c ∈ lit "=#%&;,?") = true :=
    List.any_eq_true.2 ⟨c, member, by simpa using unsafeCharacter⟩
  rw [found] at safe
  cases safe

theorem Offered.unbroken
    (names : ∀ name, Platform.isValidRefName name = true → '\n' ∉ name)
    (offered : Offered remote.bucketPrefix world refName manifest) :
    Unbroken refName.text := by
  intro c member
  refine ⟨?_, ?_, ?_⟩
  · rintro rfl
    exact not_mem_of_isSafe offered.safe (by simp [lit_eq]) member
  · rintro rfl
    exact not_mem_of_isSafe offered.safe (by simp [lit_eq]) member
  · rintro rfl
    exact names refName.text refName.valid member

omit [Platform] in
theorem unbroken_sha (sha : Sha40) : Unbroken sha.text := by
  intro c member
  have valid := sha.valid
  simp only [isValidBundleStem, Bool.and_eq_true, List.all_eq_true] at valid
  have hex := valid.2 c member
  refine ⟨?_, ?_, ?_⟩ <;>
    · rintro rfl
      revert hex
      decide

omit [Platform] in
theorem literal_sha (sha : Sha40) : '%' ∉ sha.text := by
  intro member
  have valid := sha.valid
  simp only [isValidBundleStem, Bool.and_eq_true, List.all_eq_true] at valid
  have hex := valid.2 '%' member
  revert hex
  decide

/-- Each line of an answer is a key and a value. -/
theorem lineOf_answerLines
    {line : Text}
    (names : ∀ name, Platform.isValidRefName name = true → '\n' ∉ name)
    (signed :
      ∀ key ttl url, presignedGetUrl key ttl = .ok url → '\n' ∉ url)
    (wellFormed : WellFormed remote)
    (member : line ∈ answerLines presignedGetUrl remote world) :
    ∃ key value, LineOf remote world line key value := by
  rcases mem_answerLines.1 member with
    ⟨refName, manifest, url, offered, emitted, lines⟩
  have plain := offered.unbroken names
  have equals : '=' ∉ refName.text :=
    not_mem_of_isSafe offered.safe (by simp [lit_eq])
  have newline : '\n' ∉ refName.text := fun inside =>
    (plain '\n' inside).2.2 rfl
  have urlPlain : '\n' ∉ url := by
    unfold bundleUrlForEmission at emitted
    split at emitted
    · cases emitted
      exact
        canonicalBundleUrl_no_newline wellFormed plain
          (unbroken_sha manifest.fullAt)
    next ttl _ =>
        revert emitted
        cases found :
            presignedGetUrl
              (baselineKey remote.bucketPrefix refName.text
                manifest.fullAt.text) ttl with
        | error error => exact fun emitted => nomatch emitted
        | ok signedUrl =>
            intro emitted
            cases emitted
            exact signed _ _ _ found
  rcases lines with rfl | rfl
  · refine
      ⟨uriKey refName, url, rfl, ?_, ?_, refName, manifest, offered,
        Or.inl rfl⟩
    · simp [uriKey, equals, lit_eq]
    · simp [uriKey, newline, urlPlain, lit_eq]
  · refine
      ⟨creationTokenKey refName, manifest.fullAt.text, rfl, ?_, ?_, refName,
        manifest, offered, Or.inr rfl⟩
    · simp [creationTokenKey, equals, lit_eq]
    · have tokenPlain : '\n' ∉ manifest.fullAt.text := fun inside =>
        (unbroken_sha manifest.fullAt '\n' inside).2.2 rfl
      simp [creationTokenKey, newline, tokenPlain, lit_eq]

/-- The reference is determined by the key of its address. -/
theorem uriKey_line_inj
    {other : RefName}
    {url url' : Text}
    (safe : isSafeForBundleUriEmission refName.text = true)
    (safe' : isSafeForBundleUriEmission other.text = true)
    (same : uriKey refName ++ '=' :: url = uriKey other ++ '=' :: url') :
    refName = other ∧ url = url' := by
  have free
      (name : RefName)
      (safe : isSafeForBundleUriEmission name.text = true) :
      '=' ∉ uriKey name := by
    have equals := not_mem_of_isSafe safe (c := '=') (by simp [lit_eq])
    simp [uriKey, equals, lit_eq]
  rcases
    (separator_append_inj (free refName safe) (free other safe')).1 same
    with ⟨keys, rfl⟩
  refine ⟨RefName.ext ?_, rfl⟩
  exact List.append_cancel_left (List.append_cancel_right keys)

theorem uriKey_ne_creationTokenKey
    {other : RefName}
    {url token : Text}
    (safe : isSafeForBundleUriEmission refName.text = true)
    (safe' : isSafeForBundleUriEmission other.text = true) :
    uriKey refName ++ '=' :: url ≠
      creationTokenKey other ++ '=' :: token := by
  intro same
  have equals := not_mem_of_isSafe safe (c := '=') (by simp [lit_eq])
  have equals' := not_mem_of_isSafe safe' (c := '=') (by simp [lit_eq])
  have free : '=' ∉ uriKey refName := by
    simp [uriKey, equals, lit_eq]
  have free' : '=' ∉ creationTokenKey other := by
    simp [creationTokenKey, equals', lit_eq]
  have lasts :=
    congrArg List.getLast? ((separator_append_inj free free').1 same).1
  simp [uriKey, creationTokenKey, List.getLast?_cons, lit_eq] at lasts

/-- A plain address of a reference on offer, with or without escapes. -/
theorem leadsTo_iff
    (names : ∀ name, Platform.isValidRefName name = true → '\n' ∉ name)
    (wellFormed : WellFormed remote)
    (offered : Offered remote.bucketPrefix world refName manifest) :
    LeadsTo remote refName manifest
        (canonicalBundleUrl remote refName.text manifest.fullAt.text) ↔
      ¬ HasEscape (prefixText remote.bucketPrefix) :=
  decode_canonicalBundleUrl wellFormed (offered.unbroken names)
    (not_mem_of_isSafe offered.safe (by simp [lit_eq]))
    (unbroken_sha manifest.fullAt) (literal_sha manifest.fullAt)

end Lines

/-- The answer to `bundle-uri` for the parts of an accepted URL. -/
theorem lawful_iff_of_wellFormed
    (names : ∀ name, Platform.isValidRefName name = true → '\n' ∉ name)
    (signed :
      ∀ key ttl url, presignedGetUrl key ttl = .ok url → '\n' ∉ url)
    (wellFormed : WellFormed remote)
    (enabled : remote.flags.bundleUri = true)
    (engine : StorageEngine)
    (world : World) :
    (∃ output,
      run answer
          (handleBundleUri presignedGetUrl remote
            ⟨remote.flags.bundleUriPresignTtl⟩
            (advertiseBundleUri engine remote)) world =
          (.ok output, world) ∧
        Lawful remote world output) ↔
      (engine = .packchain →
        remote.flags.bundleUriPresignTtl = none →
        (∃ refName manifest,
          Offered remote.bucketPrefix world refName manifest) →
        ¬ HasEscape (prefixText remote.bucketPrefix)) := by
  cases engine with
  | bundle =>
      refine iff_of_true ⟨['\n'], rfl, [], rfl, ?_, ?_⟩ ?_
      · exact fun _ member => nomatch member
      · exact fun _ _ _ _ _ member => nomatch member
      · exact fun packchain => nomatch packchain
  | packchain =>
      have advertised : advertiseBundleUri .packchain remote = true := by
        simp [advertiseBundleUri, enabled]
      have emitted :
          remote.flags.bundleUriPresignTtl = none →
            ∀ refPath fullAt,
              bundleUrlForEmission presignedGetUrl remote refPath fullAt
                  ⟨remote.flags.bundleUriPresignTtl⟩ =
                .ok (canonicalBundleUrl remote refPath fullAt) := by
        intro unsigned refPath fullAt
        rw [unsigned]
        rfl
      have whole :
          ∀ line ∈ answerLines presignedGetUrl remote world,
            '\n' ∉ line := by
        intro line member
        rcases lineOf_answerLines names signed wellFormed member with
          ⟨key, value, lineOf⟩
        exact lineOf.whole
      rw [advertised, run_handleBundleUri]
      constructor
      · rintro ⟨output, outcome, lines, framed, lineOf, leads⟩ - unsigned
          ⟨refName, manifest, offered⟩
        rw [← leadsTo_iff names wellFormed offered]
        apply leads unsigned refName manifest _ offered
        -- What was written can be split into lines in one way only.
        have same : answerLines presignedGetUrl remote world = lines := by
          simp only [Prod.mk.injEq, Except.ok.injEq, and_true] at outcome
          rw [← outcome] at framed
          have free
              (listed : List Text)
              (each : ∀ line ∈ listed, '\n' ∉ line) :
              ∀ line ∈ listed ++ [[]], '\n' ∉ line := by
            intro line member
            rcases List.mem_append.1 member with inside | last
            · exact each line inside
            · rw [List.mem_singleton.1 last]
              exact List.not_mem_nil
          apply List.append_cancel_right
          apply terminated_inj (free _ whole) (free lines ?_) framed
          intro line member
          rcases lineOf line member with ⟨key, value, lineOf⟩
          exact lineOf.whole
        rw [← same]
        exact
          mem_answerLines.2
            ⟨refName, manifest, _, offered, emitted unsigned _ _,
              Or.inl rfl⟩
      · intro plain
        refine
          ⟨_, rfl, answerLines presignedGetUrl remote world, rfl, ?_, ?_⟩
        · intro line member
          exact lineOf_answerLines names signed wellFormed member
        · intro unsigned refName manifest url offered member
          rcases mem_answerLines.1 member with
            ⟨other, manifest', url', offered', emitted', same | same⟩
          · rcases uriKey_line_inj offered.safe offered'.safe same with
              ⟨rfl, rfl⟩
            have stored := offered.stored
            rw [offered'.stored] at stored
            cases stored
            rw [emitted unsigned] at emitted'
            cases emitted'
            exact
              (leadsTo_iff names wellFormed offered).2
                (plain rfl unsigned ⟨_, _, offered⟩)
          · exact
              (uriKey_ne_creationTokenKey offered.safe offered'.safe
                same).elim

/-- When the answer to `bundle-uri` is lawful. -/
theorem lawful_iff
    [UrlCrate]
    {allowHttp : Option Text}
    {input : Text}
    (names : ∀ name, Platform.isValidRefName name = true → '\n' ∉ name)
    (signed :
      ∀ key ttl url, presignedGetUrl key ttl = .ok url → '\n' ∉ url)
    (parsed : RemoteUrl.parse allowHttp input = .ok remote)
    (enabled : remote.flags.bundleUri = true)
    (engine : StorageEngine)
    (world : World) :
    (∃ output,
      run answer
          (handleBundleUri presignedGetUrl remote
            ⟨remote.flags.bundleUriPresignTtl⟩
            (advertiseBundleUri engine remote)) world =
          (.ok output, world) ∧
        Lawful remote world output) ↔
      (engine = .packchain →
        remote.flags.bundleUriPresignTtl = none →
        (∃ refName manifest,
          Offered remote.bucketPrefix world refName manifest) →
        ¬ HasEscape (prefixText remote.bucketPrefix)) :=
  lawful_iff_of_wellFormed names signed (wellFormed_of_parse parsed) enabled
    engine world

end Answer

section Schedules

/-- A platform that refuses control characters in names. -/
@[reducible]
def printablePlatform : Platform where
  isValidRefName := fun name =>
    (lit "refs/").isPrefixOf name && name.all fun c => 0x20 < c.toNat
  slash_or_uppercase := by
    intro name valid
    rw [Bool.and_eq_true] at valid
    exact Platform.simple.slash_or_uppercase name valid.1
  uuid := Platform.simple.uuid
  uuid_injective := Platform.simple.uuid_injective
  rfc3339 := Platform.simple.rfc3339

theorem printablePlatform_names
    (name : Text)
    (valid : printablePlatform.isValidRefName name = true) :
    '\n' ∉ name := by
  intro member
  have both := Bool.and_eq_true_iff.1 valid
  have printable := List.all_eq_true.1 both.2 '\n' member
  revert printable
  decide

/-- A remote whose prefix is spelled with an escape. -/
def escapedInput : Text :=
  lit "s3+https://minio.example/bucket/my%20repo?bundle_uri=1"

def escapedUrl : Url where
  scheme := lit "https"
  username := []
  password := none
  host := some (.domain (lit "minio.example"))
  hostStr := some (lit "minio.example")
  port := none
  path := lit "/bucket/my%20repo"
  query := some (lit "bundle_uri=1")
  queryPairs := [(lit "bundle_uri", lit "1")]
  fragment := none

theorem plain_escapedUrl : escapedUrl.Plain where
  scheme := List.all_iff_forall_prop.1 (by decide +kernel)
  host := List.all_iff_forall_prop.1 (by decide +kernel)
  path := List.all_iff_forall_prop.1 (by decide +kernel)

/-- A URL library that knows that URL. -/
@[reducible]
def minioCrate : UrlCrate :=
  .knowing [(escapedInput.drop 3, escapedUrl)]
    (lit "invalid international domain name")
    (List.forall_mem_singleton.2 plain_escapedUrl)

attribute [local instance] printablePlatform minioCrate

/-- The branch whose baseline the remote's first push has written. -/
def mainBranch : RefName :=
  ⟨lit "refs/heads/main", by decide +kernel⟩

/-- A first chain. -/
def mainChain : ChainManifest :=
  ⟨ChainManifest.schemaVersion, digitSha 'a' hex_a, digitSha 'a' hex_a, []⟩

/-- A bucket with one chain, at the key the remote's pushes write. -/
def escapedBucket : World :=
  (World.empty 0).put (chainKey (some (lit "my%20repo")) mainBranch)
    (.chain mainChain)

theorem offered_escapedBucket :
    Offered (some (lit "my%20repo")) escapedBucket mainBranch mainChain where
  branch := by decide +kernel
  safe := by decide +kernel
  stored := congrArg (Option.map Object.body) (World.get?_put_self ..)
  version := rfl

/-- Nothing can be signed. -/
def unsigned (_ : Text) (_ : NonZeroU64) : Except ObjectStoreError Text :=
  .error .other

theorem unsigned_signed
    (key : Text)
    (ttl : NonZeroU64)
    (url : Text)
    (signs : unsigned key ttl = .ok url) :
    '\n' ∉ url := by
  cases signs

theorem parse_escapedInput :
    ∃ remote,
      RemoteUrl.parse none escapedInput = .ok remote ∧
        remote.flags.bundleUri = true ∧
        remote.flags.bundleUriPresignTtl = none ∧
        remote.bucketPrefix = some (lit "my%20repo") := by
  have parts :
      (RemoteUrl.parse none escapedInput).toOption.map
          (fun remote =>
            (remote.flags.bundleUri, remote.flags.bundleUriPresignTtl,
              remote.bucketPrefix)) =
        some (true, none, some (lit "my%20repo")) := by
    decide +kernel
  rcases exists_ok_of_toOption_map parts with ⟨remote, parsed, same⟩
  refine ⟨remote, parsed, ?_⟩
  simpa using same

theorem lawful_iff_escapedInput :
    ∃ remote,
      RemoteUrl.parse none escapedInput = .ok remote ∧
        ((∃ output,
          run answer
              (handleBundleUri unsigned remote
                ⟨remote.flags.bundleUriPresignTtl⟩
                (advertiseBundleUri .packchain remote)) escapedBucket =
              (.ok output, escapedBucket) ∧
            Lawful remote escapedBucket output) ↔
          (StorageEngine.packchain = .packchain →
            remote.flags.bundleUriPresignTtl = none →
            (∃ refName manifest,
              Offered remote.bucketPrefix escapedBucket refName
                manifest) →
            ¬ HasEscape (prefixText remote.bucketPrefix))) := by
  rcases parse_escapedInput with ⟨remote, parsed, enabled, -⟩
  exact
    ⟨remote, parsed,
      lawful_iff printablePlatform_names unsigned_signed parsed enabled
        .packchain escapedBucket⟩

/-- The address of a baseline below an escaped prefix leads elsewhere. -/
theorem not_lawful_escapedInput :
    ¬ ∀ allowHttp input remote engine world,
      RemoteUrl.parse allowHttp input = .ok remote →
        remote.flags.bundleUri = true →
          ∃ output,
            run answer
                (handleBundleUri unsigned remote
                  ⟨remote.flags.bundleUriPresignTtl⟩
                  (advertiseBundleUri engine remote)) world =
                (.ok output, world) ∧
              Lawful remote world output := by
  intro always
  rcases parse_escapedInput with
    ⟨remote, parsed, enabled, unsignedUrls, located⟩
  have lawful :=
    always none escapedInput remote .packchain escapedBucket parsed enabled
  rw [lawful_iff_of_wellFormed printablePlatform_names unsigned_signed
    (wellFormed_of_parse parsed) enabled .packchain escapedBucket] at lawful
  apply lawful rfl unsignedUrls
  · rw [located]
    exact ⟨mainBranch, mainChain, offered_escapedBucket⟩
  · rw [located]
    exact ⟨lit "my", lit "20repo", by decide +kernel, by decide +kernel⟩

end Schedules

end GitRemoteObjectStore.BundleUri
