import Mathlib.Data.Bool.AllAny
import GitRemoteObjectStore.RemoteUrl

/-!
# Virtual-hosted endpoints

Three functions take an S3 host apart: one finds the bucket, one the host
without it, and one the region to sign for.  The first two go by the last
service marker of the host, the third by its labels, and by the last marker
when there are many of them.
-/

namespace GitRemoteObjectStore.VirtualHosts

open Separated
open RemoteUrl
  (awsHostSuffixes stripAwsHostSuffix awsS3Infixes rfind
    s3VirtualHostedBucket isValidBucket)

/-! ## The source -/

/-- A host as the URL library writes it into an HTTP URL. -/
def Written [UrlCrate] (host : Text) : Prop :=
  ∃ input url,
    UrlCrate.parse input = .ok url ∧
      (url.scheme = lit "https" ∨ url.scheme = lit "http") ∧
      url.hostStr = some host

/--
`Host::parse`, which `Url::set_host` gives its text to, with the host as it
is written afterwards.  Labels are normalized one by one, so that the end of
a written domain is written the same on its own.
-/
class HostCrate [UrlCrate] where
  parseHost : Text → Except Text (UrlHost × Text)
  parent_written :
    ∀ label parent,
      Written (label ++ '.' :: parent) →
      (stripAwsHostSuffix parent).isSome = true →
      ∃ host, parseHost parent = .ok (host, parent)

/-- `Url::set_host` -/
def setHost [UrlCrate] [HostCrate] (url : Url) (host : Text) :
    Except Text Url := do
  let (parsed, written) ← HostCrate.parseHost host
  return { url with host := some parsed, hostStr := some written }

/-- `str::split_once`, the part after the separator. -/
def afterFirst (separator : Char) (text : Text) : Option Text :=
  match text.dropWhile fun c => c ≠ separator with
  | [] => none
  | _ :: rest => some rest

/-- The host of the endpoint without the label of the bucket. -/
def regionalHost (host : Text) : Option Text :=
  ((s3VirtualHostedBucket host).map fun bucket =>
    host.drop (bucket.length + 1)).or (afterFirst '.' host)

/-- The base the SDK expects. -/
def normalizeEndpoint [UrlCrate] [HostCrate]
    (endpoint : Url)
    (addressing : S3Addressing) : Except Text Url :=
  let rewritten : Url :=
    { UrlCrate.setPath endpoint [] with
      query := none
      queryPairs := []
      fragment := none }
  match addressing with
  | .pathStyle => .ok rewritten
  | .virtualHosted =>
      match rewritten.hostStr with
      | none => .error (lit "endpoint URL has no host")
      | some host =>
          match regionalHost host with
          | none =>
              .error
                (lit "virtual-hosted endpoint host `" ++ host ++
                  lit "` has no dot separator")
          | some regional => setHost rewritten regional

/-- `max_by_key` on the positions: the last of the greatest. -/
def maxByPosition :
    List (Nat × Text) → Option (Nat × Text) :=
  List.foldl
    (fun best next =>
      match best with
      | none => some next
      | some found => if found.1 ≤ next.1 then some next else some found)
    none

/-- What follows the last service marker, when it is one label. -/
def regionAfterMarker (trimmed : Text) : Option Text :=
  ((maxByPosition
    (awsS3Infixes.filterMap fun part =>
      (rfind part trimmed).map fun position =>
        (position, trimmed.drop (position + part.length)))).map
    Prod.snd).filter fun region => region ≠ [] ∧ '.' ∉ region

/-- The region of an AWS host, its partition suffix taken off. -/
def extractAwsRegion (trimmed : Text) : Option Text :=
  match trimmed.splitOn '.' with
  | [head] =>
      if head = lit "s3" then none
      else if lit "s3-" <+: head then some (head.drop 3)
      else regionAfterMarker trimmed
  | [service, region] =>
      if service = lit "s3" then some region
      else regionAfterMarker trimmed
  | [_, service, region] =>
      if service = lit "s3" then some region
      else regionAfterMarker trimmed
  | _ => regionAfterMarker trimmed

/-- The region to sign for. -/
def resolveRegion (endpoint : Url) (flag : Option Text) : Option Text :=
  match flag with
  | some region => some region
  | none =>
      match endpoint.hostStr with
      | none => none
      | some host =>
          if host = lit "amazonaws.com" then none
          else
            match stripAwsHostSuffix host with
            | none => some (lit "us-east-1")
            | some trimmed => extractAwsRegion trimmed

/-! ## Last occurrences -/

variable {text left right part other : Text} {position : Nat}

theorem getLast?_filter_range_eq_some_iff
    {found : Nat → Bool}
    {bound : Nat} :
    ((List.range bound).filter found).getLast? = some position ↔
      position < bound ∧ found position = true ∧
        ∀ later, position < later → later < bound →
          found later = false := by
  induction bound with
  | zero => simp
  | succ bound hypothesis =>
      rw [List.range_succ, List.filter_append, List.getLast?_append]
      cases here : found bound with
      | true =>
          simp only [List.filter_cons_of_pos here, List.filter_nil,
            List.getLast?_singleton, Option.some_or, Option.some.injEq]
          constructor
          · rintro rfl
            exact ⟨Nat.lt_succ_self _, here, fun later above below => by
              omega⟩
          · rintro ⟨below, -, none⟩
            by_contra different
            have missed := none bound (by omega) (by omega)
            rw [here] at missed
            cases missed
      | false =>
          simp only [List.filter_cons_of_neg (by simp [here] :
              ¬ found bound = true), List.filter_nil, List.getLast?_nil,
            Option.none_or, hypothesis]
          constructor
          · rintro ⟨below, holds, none⟩
            refine ⟨by omega, holds, fun later above bounded => ?_⟩
            by_cases last : later = bound
            · exact last ▸ here
            · exact none later above (by omega)
          · rintro ⟨below, holds, none⟩
            have different : position ≠ bound := by
              rintro rfl
              rw [here] at holds
              cases holds
            exact
              ⟨by omega, holds, fun later above bounded =>
                none later above (by omega)⟩

theorem rfind_eq_some_iff :
    rfind part text = some position ↔
      position ≤ text.length ∧ part <+: text.drop position ∧
        ∀ later, position < later → later ≤ text.length →
          ¬ part <+: text.drop later := by
  rw [rfind, getLast?_filter_range_eq_some_iff]
  simp only [Nat.lt_succ_iff, List.isPrefixOf_iff_prefix, ← Bool.not_eq_true]

theorem infix_of_prefix_drop
    {count : Nat}
    (found : part <+: text.drop count) :
    part <:+: text :=
  found.isInfix.trans (List.drop_suffix count text).isInfix

theorem rfind_append
    (last : ¬ part <:+: (part ++ right).tail) :
    rfind part (left ++ (part ++ right)) = some left.length := by
  rw [rfind_eq_some_iff]
  refine ⟨by simp, ?_, ?_⟩
  · rw [List.drop_left]
    exact List.prefix_append part right
  · intro later above _ found
    apply last
    have beyond : later = left.length + ((later - left.length - 1) + 1) := by
      omega
    rw [beyond, List.drop_length_add_append, ← List.drop_tail] at found
    exact infix_of_prefix_drop found

theorem rfind_lt
    (missing : ¬ part <:+: right)
    (found : rfind part (left ++ right) = some position) :
    position < left.length := by
  by_contra beyond
  have starts := (rfind_eq_some_iff.1 found).2.1
  have split : position = left.length + (position - left.length) := by
    omega
  rw [split, List.drop_length_add_append] at starts
  exact missing (infix_of_prefix_drop starts)

/-- The last service marker of a text. -/
structure LastMarker (text left marker right : Text) : Prop where
  whole : text = left ++ (marker ++ right)
  known : marker ∈ awsS3Infixes
  last : ∀ other ∈ awsS3Infixes, ¬ other <:+: (marker ++ right).tail

theorem length_of_mem_awsS3Infixes
    (known : part ∈ awsS3Infixes) :
    part.length = 4 := by
  revert part
  decide +kernel

namespace LastMarker

variable {marker : Text}

theorem rfind_self (split : LastMarker text left marker right) :
    rfind marker text = some left.length := by
  rw [split.whole]
  exact rfind_append (split.last marker split.known)

/-- Any other marker stands further to the left. -/
theorem rfind_other
    (split : LastMarker text left marker right)
    (known : other ∈ awsS3Infixes)
    (different : other ≠ marker)
    (found : rfind other text = some position) :
    position < left.length := by
  rw [split.whole] at found
  refine rfind_lt ?_ found
  intro inside
  have size := length_of_mem_awsS3Infixes known
  have size' := length_of_mem_awsS3Infixes split.known
  cases shape : marker ++ right with
  | nil =>
      rw [shape, List.infix_nil] at inside
      rw [inside] at size
      cases size
  | cons first rest =>
      rw [shape, List.infix_cons_iff] at inside
      rcases inside with starts | later
      · rw [← shape] at starts
        exact different
          ((List.prefix_of_prefix_length_le starts
            (List.prefix_append marker right) (by omega)).eq_of_length
              (by omega))
      · apply split.last other known
        rw [shape]
        exact later

/-- The two markers, the last of them first. -/
theorem markers (split : LastMarker text left marker right) :
    ∃ other ∈ awsS3Infixes, other ≠ marker ∧
      (awsS3Infixes = [marker, other] ∨ awsS3Infixes = [other, marker]) := by
  have known := split.known
  rw [awsS3Infixes, List.mem_cons, List.mem_singleton] at known
  rcases known with rfl | rfl
  · exact ⟨lit ".s3-", by simp [awsS3Infixes], by decide +kernel,
      Or.inl rfl⟩
  · exact ⟨lit ".s3.", by simp [awsS3Infixes], by decide +kernel,
      Or.inr rfl⟩

theorem bucket
    (split : LastMarker text left marker right)
    (filled : left ≠ []) :
    s3VirtualHostedBucket text = some left := by
  rcases split.markers with ⟨other, known, different, order⟩
  have taken : text.take left.length = left := by
    rw [split.whole, List.take_left]
  have greatest :
      (awsS3Infixes.filterMap fun part => rfind part text).max? =
        some left.length := by
    cases found : rfind other text with
    | none =>
        rcases order with order | order <;>
          simp [order, split.rfind_self, found]
    | some position =>
        have before := split.rfind_other known different found
        rcases order with order | order <;>
          simp [order, split.rfind_self, found] <;>
          omega
  rw [s3VirtualHostedBucket, greatest]
  simp [taken, filled]

theorem regionAfterMarker
    (split : LastMarker text left marker right) :
    regionAfterMarker text =
      (some right).filter fun region =>
        decide (region ≠ [] ∧ '.' ∉ region) := by
  rcases split.markers with ⟨other, known, different, order⟩
  have rest : text.drop (left.length + marker.length) = right := by
    rw [split.whole, ← List.drop_drop, List.drop_left, List.drop_left]
  have greatest :
      (maxByPosition
        (awsS3Infixes.filterMap fun part =>
          (rfind part text).map fun position =>
            (position, text.drop (position + part.length)))) =
        some (left.length, right) := by
    cases found : rfind other text with
    | none =>
        rcases order with order | order <;>
          simp [order, split.rfind_self, found, rest, maxByPosition]
    | some position =>
        have before := split.rfind_other known different found
        rcases order with order | order
        · simp [order, split.rfind_self, found, rest, maxByPosition]
          omega
        · simp [order, split.rfind_self, found, rest, maxByPosition]
          omega
  rw [VirtualHosts.regionAfterMarker, greatest]
  rfl

end LastMarker

theorem mem_of_maxByPosition
    {candidates : List (Nat × Text)}
    {greatest : Nat × Text}
    (found : maxByPosition candidates = some greatest) :
    greatest ∈ candidates := by
  have kept :
      ∀ best,
        candidates.foldl
            (fun best next =>
              match best with
              | none => some next
              | some found =>
                  if found.1 ≤ next.1 then some next else some found)
            best = some greatest →
        best = some greatest ∨ greatest ∈ candidates := by
    clear found
    induction candidates with
    | nil => exact fun best same => Or.inl same
    | cons next rest hypothesis =>
        intro best reached
        rw [List.foldl_cons] at reached
        rcases hypothesis _ reached with taken | member
        · cases best with
          | none => exact Or.inr (by simp_all)
          | some found =>
              dsimp only at taken
              split at taken
              · exact Or.inr (by simp_all)
              · exact Or.inl taken
        · exact Or.inr (List.mem_cons_of_mem _ member)
  rcases kept none found with impossible | member
  · cases impossible
  · exact member

/-- A region that follows a marker follows it in the text. -/
theorem marker_of_regionAfterMarker
    {region : Text}
    (found : regionAfterMarker text = some region) :
    '.' ∉ region ∧
      ∃ marker ∈ awsS3Infixes, marker ++ region <:+ text := by
  rw [regionAfterMarker, Option.filter_eq_some_iff,
    Option.map_eq_some_iff] at found
  rcases found with ⟨⟨candidate, greatest, rfl⟩, allowed⟩
  refine ⟨(of_decide_eq_true allowed).2, ?_⟩
  rcases List.mem_filterMap.1 (mem_of_maxByPosition greatest) with
    ⟨marker, known, located⟩
  rcases Option.map_eq_some_iff.1 located with ⟨position, stands, rfl⟩
  rcases (rfind_eq_some_iff.1 stands).2.1 with ⟨rest, follows⟩
  refine ⟨marker, known, text.take position, ?_⟩
  rw [← List.drop_drop, ← follows, List.drop_left, follows]
  exact List.take_append_drop position text

/-! ## The markers of an endpoint -/

variable {label region suffix bucket : Text}

/-- No service marker at all. -/
def Unmarked (text : Text) : Prop :=
  ∀ marker ∈ awsS3Infixes, ¬ marker <:+: text

theorem head_of_mem_awsS3Infixes
    (known : part ∈ awsS3Infixes) :
    ∃ rest, part = '.' :: rest := by
  rw [awsS3Infixes, List.mem_cons, List.mem_singleton] at known
  rcases known with rfl | rfl
  · exact ⟨lit "s3.", by simp [lit_eq]⟩
  · exact ⟨lit "s3-", by simp [lit_eq]⟩

/-- A marker is not in one label, nor at its end. -/
theorem Unmarked.append
    (unmarked : Unmarked right)
    (dotless : '.' ∉ label) :
    Unmarked (label ++ right) := by
  intro marker known inside
  induction label with
  | nil => exact unmarked marker known inside
  | cons first rest hypothesis =>
      rw [List.mem_cons, not_or] at dotless
      rw [List.cons_append, List.infix_cons_iff] at inside
      rcases inside with starts | later
      · rcases head_of_mem_awsS3Infixes known with ⟨_, rfl⟩
        exact dotless.1 (List.cons_prefix_cons.1 starts).1
      · exact hypothesis dotless.2 later

theorem unmarked_nil : Unmarked [] := by
  unfold Unmarked
  decide +kernel

theorem unmarked_suffix (partition : suffix ∈ awsHostSuffixes) :
    Unmarked suffix := by
  revert suffix
  unfold Unmarked
  decide +kernel

/-- A label that looks like the beginning of a service marker. -/
def ServiceLike (region : Text) : Prop :=
  region = lit "s3" ∨ lit "s3-" <+: region

/-- No marker begins at the dot before an ordinary label. -/
theorem Unmarked.dot
    (unmarked : Unmarked right)
    (ordinary : ¬ ServiceLike region)
    (dotless : '.' ∉ region)
    (ended : right = [] ∨ ∃ rest, right = '.' :: rest) :
    Unmarked ('.' :: (region ++ right)) := by
  intro marker known inside
  rw [List.infix_cons_iff] at inside
  rcases inside with starts | later
  · apply ordinary
    rw [awsS3Infixes, List.mem_cons, List.mem_singleton] at known
    rcases region with _ | ⟨first, _ | ⟨second, _ | ⟨third, rest⟩⟩⟩ <;>
      rcases known with rfl | rfl <;>
        rcases ended with rfl | ⟨_, rfl⟩ <;>
          simp_all [lit_eq, ServiceLike] <;> grind
  · exact unmarked.append dotless marker known later

/-- `<bucket>.s3-<region>` -/
theorem lastMarker_hyphen
    (unmarked : Unmarked right)
    (dotless : '.' ∉ region) :
    LastMarker (bucket ++ (lit ".s3-" ++ (region ++ right))) bucket
      (lit ".s3-") (region ++ right) where
  whole := rfl
  known := by simp [awsS3Infixes]
  last := by
    have tail :
        (lit ".s3-" ++ (region ++ right)).tail =
          (lit "s3-" ++ region) ++ right := by
      simp [lit_eq]
    rw [tail]
    exact unmarked.append (by simp [lit_eq, dotless])

/-- `<bucket>.s3.<region>` -/
theorem lastMarker_dot
    (unmarked : Unmarked right)
    (ordinary : ¬ ServiceLike region)
    (dotless : '.' ∉ region)
    (ended : right = [] ∨ ∃ rest, right = '.' :: rest) :
    LastMarker (bucket ++ (lit ".s3." ++ (region ++ right))) bucket
      (lit ".s3.") (region ++ right) where
  whole := rfl
  known := by simp [awsS3Infixes]
  last := by
    have tail :
        (lit ".s3." ++ (region ++ right)).tail =
          lit "s3" ++ '.' :: (region ++ right) := by
      simp [lit_eq]
    rw [tail]
    exact (unmarked.dot ordinary dotless ended).append (by simp [lit_eq])

/-- `<bucket>.s3` in front of a dot. -/
theorem lastMarker_last
    (unmarked : Unmarked ('.' :: right)) :
    LastMarker (bucket ++ (lit ".s3" ++ '.' :: right)) bucket
      (lit ".s3.") right where
  whole := by simp [lit_eq]
  known := by simp [awsS3Infixes]
  last := by
    have tail : (lit ".s3." ++ right).tail = lit "s3" ++ '.' :: right := by
      simp [lit_eq]
    rw [tail]
    exact unmarked.append (by simp [lit_eq])

theorem dot_of_mem_awsHostSuffixes
    (partition : suffix ∈ awsHostSuffixes) :
    ∃ rest, suffix = '.' :: rest := by
  rw [awsHostSuffixes, List.mem_cons, List.mem_singleton] at partition
  rcases partition with rfl | rfl
  · exact ⟨lit "amazonaws.com.cn", by simp [lit_eq]⟩
  · exact ⟨lit "amazonaws.com", by simp [lit_eq]⟩

/-! ## Buckets and hosts -/

theorem stripAwsHostSuffix_append
    (partition : suffix ∈ awsHostSuffixes) :
    stripAwsHostSuffix (text ++ suffix) = some text := by
  rw [awsHostSuffixes, List.mem_cons, List.mem_singleton] at partition
  rcases partition with rfl | rfl
  · have own :
        stripSuffix (lit ".amazonaws.com.cn")
            (text ++ lit ".amazonaws.com.cn") = some text :=
      stripSuffix_eq_some.2 rfl
    simp [stripAwsHostSuffix, awsHostSuffixes, own]
  · have own :
        stripSuffix (lit ".amazonaws.com")
            (text ++ lit ".amazonaws.com") = some text :=
      stripSuffix_eq_some.2 rfl
    have other :
        stripSuffix (lit ".amazonaws.com.cn")
            (text ++ lit ".amazonaws.com") = none := by
      cases stripped : stripSuffix (lit ".amazonaws.com.cn")
          (text ++ lit ".amazonaws.com") with
      | none => rfl
      | some rest =>
          have last := congrArg List.getLast?
            (stripSuffix_eq_some.1 stripped)
          simp [lit_eq] at last
    simp [stripAwsHostSuffix, awsHostSuffixes, own, other]

section Endpoints

variable [UrlCrate] [HostCrate] {endpoint : Url} {host parent : Text}

/-- The bucket and the host that are found in an endpoint. -/
structure Splits (endpoint : Url) (bucket parent : Text) : Prop where
  bucket :
    ∀ host, endpoint.hostStr = some host →
      s3VirtualHostedBucket host = some bucket
  parent :
    ∃ url, normalizeEndpoint endpoint .virtualHosted = .ok url ∧
      url.hostStr = some parent

theorem splits_of_lastMarker
    {marker : Text}
    (split : LastMarker host bucket marker right)
    (filled : bucket ≠ [])
    (named : endpoint.hostStr = some host)
    (written : Written host)
    (whole : host = bucket ++ '.' :: parent)
    (aws : (stripAwsHostSuffix parent).isSome = true) :
    Splits endpoint bucket parent := by
  have found : s3VirtualHostedBucket host = some bucket :=
    split.bucket filled
  have regional : regionalHost host = some parent := by
    rw [regionalHost, found, Option.map_some, Option.some_or, whole,
      ← List.drop_drop, List.drop_left]
    rfl
  rw [whole] at written
  rcases HostCrate.parent_written _ _ written aws with ⟨parsed, kept⟩
  constructor
  · intro other same
    rw [named] at same
    cases same
    exact found
  · have named' : (UrlCrate.setPath endpoint []).hostStr = some host := by
      rw [UrlCrate.setPath_eq]
      exact named
    refine ⟨{ UrlCrate.setPath endpoint [] with
      query := none
      queryPairs := []
      fragment := none
      host := some parsed
      hostStr := some parent }, ?_, rfl⟩
    simp [normalizeEndpoint, named', regional, setHost, kept, Bind.bind,
      Except.bind, Pure.pure, Except.pure]

end Endpoints

/-! ## Regions -/

theorem resolveRegion_of_aws
    {endpoint : Url}
    (partition : suffix ∈ awsHostSuffixes)
    (named : endpoint.hostStr = some (text ++ suffix)) :
    resolveRegion endpoint none = extractAwsRegion text := by
  have long : (lit "amazonaws.com").length < suffix.length := by
    clear named
    revert suffix
    decide +kernel
  have other : text ++ suffix ≠ lit "amazonaws.com" := by
    intro same
    have lengths := congrArg List.length same
    rw [List.length_append] at lengths
    omega
  simp only [resolveRegion, named, if_neg other,
    stripAwsHostSuffix_append partition]

theorem extractAwsRegion_of_many
    (many : 3 < (text.splitOn '.').length) :
    extractAwsRegion text = regionAfterMarker text := by
  rw [extractAwsRegion]
  split <;> simp_all

theorem eq_of_splitOn_eq_singleton
    {separator : Char}
    (one : bucket.splitOn separator = [label]) :
    bucket = label := by
  have joined : [separator].intercalate (bucket.splitOn separator) = bucket :=
    List.intercalate_splitOn separator
  rw [one] at joined
  simpa using joined.symm

theorem eq_of_splitOn_eq_pair
    {separator : Char}
    {first second : Text}
    (two : bucket.splitOn separator = [first, second]) :
    bucket = first ++ separator :: second := by
  have joined : [separator].intercalate (bucket.splitOn separator) = bucket :=
    List.intercalate_splitOn separator
  rw [two] at joined
  simpa using joined.symm

/-- A bucket of two labels, the service the second. -/
def ServicePair (bucket : Text) : Prop :=
  ∃ label, bucket.splitOn '.' = [label, lit "s3"]

/-- What the labels in front of the last one decide. -/
theorem extractAwsRegion_append
    (dotless : '.' ∉ label)
    (other : bucket ≠ lit "s3")
    (plain : ¬ ServicePair bucket) :
    extractAwsRegion (bucket ++ '.' :: label) =
      regionAfterMarker (bucket ++ '.' :: label) := by
  have labels := splitOn_append_last bucket dotless
  cases shape : bucket.splitOn '.' with
  | nil => exact absurd shape (List.splitOn_ne_nil _ _)
  | cons first rest =>
      cases rest with
      | nil =>
          have alone := eq_of_splitOn_eq_singleton shape
          rw [alone] at other
          rw [extractAwsRegion, labels, shape]
          simp only [List.singleton_append, if_neg other]
      | cons second rest =>
          cases rest with
          | nil =>
              have service : second ≠ lit "s3" := by
                rintro rfl
                exact plain ⟨first, shape⟩
              rw [extractAwsRegion, labels, shape]
              simp only [List.cons_append, List.nil_append,
                if_neg service]
          | cons third rest =>
              apply extractAwsRegion_of_many
              rw [labels, shape]
              simp

section Regions

variable
    (filled : region ≠ [])
    (dotless : '.' ∉ region)

include filled dotless in
theorem filter_region :
    ((some region).filter fun label =>
      decide (label ≠ [] ∧ '.' ∉ label)) = some region := by
  simp [filled, dotless]

include filled dotless in
/-- `<bucket>.s3.<region>`, the last marker being in front of the region. -/
theorem extractAwsRegion_dot (unmarked : Unmarked ('.' :: region)) :
    extractAwsRegion (bucket ++ (lit ".s3." ++ region)) =
      some region := by
  have labels :
      (bucket ++ (lit ".s3." ++ region)).splitOn '.' =
        bucket.splitOn '.' ++ [lit "s3"] ++ [region] := by
    have shape :
        bucket ++ (lit ".s3." ++ region) =
          (bucket ++ '.' :: lit "s3") ++ '.' :: region := by
      simp [lit_eq]
    rw [shape, splitOn_append_last _ dotless,
      splitOn_append_last _ (by simp [lit_eq])]
  by_cases one : ∃ label, bucket.splitOn '.' = [label]
  · rcases one with ⟨label, one⟩
    rw [extractAwsRegion, labels, one]
    simp
  · have many :
        3 < ((bucket ++ (lit ".s3." ++ region)).splitOn '.').length := by
      rw [labels]
      cases shape : bucket.splitOn '.' with
      | nil => exact absurd shape (List.splitOn_ne_nil _ _)
      | cons first rest =>
          cases rest with
          | nil => exact absurd ⟨first, shape⟩ one
          | cons second rest => simp
    have split :
        LastMarker (bucket ++ (lit ".s3" ++ '.' :: region)) bucket
          (lit ".s3.") region :=
      lastMarker_last unmarked
    have shape :
        bucket ++ (lit ".s3" ++ '.' :: region) =
          bucket ++ (lit ".s3." ++ region) := by
      simp [lit_eq]
    rw [shape] at split
    rw [extractAwsRegion_of_many many, split.regionAfterMarker]
    exact filter_region filled dotless

include filled dotless in
/-- `<bucket>.s3-<region>` -/
theorem extractAwsRegion_hyphen
    (other : bucket ≠ lit "s3")
    (plain : ¬ ServicePair bucket) :
    extractAwsRegion (bucket ++ (lit ".s3-" ++ region)) =
      some region := by
  have split :
      LastMarker (bucket ++ (lit ".s3-" ++ (region ++ []))) bucket
        (lit ".s3-") (region ++ []) :=
    lastMarker_hyphen unmarked_nil dotless
  rw [List.append_nil] at split
  have shape :
      bucket ++ (lit ".s3-" ++ region) =
        bucket ++ '.' :: (lit "s3-" ++ region) := by
    simp [lit_eq]
  have counted :
      extractAwsRegion (bucket ++ (lit ".s3-" ++ region)) =
        regionAfterMarker (bucket ++ (lit ".s3-" ++ region)) := by
    rw [shape]
    exact
      extractAwsRegion_append (by simp [lit_eq, dotless]) other plain
  rw [counted, split.regionAfterMarker]
  exact filter_region filled dotless

end Regions

/-- `<bucket>.s3` has no region. -/
theorem extractAwsRegion_global
    (other : bucket ≠ lit "s3")
    (plain : ¬ lit ".s3" <:+ bucket) :
    extractAwsRegion (bucket ++ lit ".s3") = none := by
  have shape : bucket ++ lit ".s3" = bucket ++ '.' :: lit "s3" := by
    simp [lit_eq]
  have single : ¬ ServicePair bucket := by
    rintro ⟨label, two⟩
    exact plain ⟨label, by simp [eq_of_splitOn_eq_pair two, lit_eq]⟩
  rw [shape, extractAwsRegion_append (by simp [lit_eq]) other single]
  cases found : regionAfterMarker (bucket ++ '.' :: lit "s3") with
  | none => rfl
  | some region =>
      rcases marker_of_regionAfterMarker found with
        ⟨dotless, marker, known, front, whole⟩
      rw [awsS3Infixes, List.mem_cons, List.mem_singleton] at known
      rcases known with rfl | rfl
      · -- The marker's last dot is the last of the text.
        have same :
            (front ++ lit ".s3") ++ '.' :: region =
              bucket ++ '.' :: lit "s3" := by
          rw [← whole]
          simp [lit_eq]
        have service : '.' ∉ lit "s3" := by simp [lit_eq]
        have ended := ((append_separator_inj dotless service).1 same).1
        exact absurd ⟨front, ended⟩ plain
      · have same :
            front ++ '.' :: (lit "s3-" ++ region) =
              bucket ++ '.' :: lit "s3" := by
          rw [← whole]
          simp [lit_eq]
        have hyphenated : '.' ∉ lit "s3-" ++ region := by
          simp [lit_eq, dotless]
        have service : '.' ∉ lit "s3" := by simp [lit_eq]
        have label :=
          ((append_separator_inj hyphenated service).1 same).2
        simp [lit_eq] at label

/-! ## Agreement -/

theorem length_of_isValidBucket
    (valid : isValidBucket bucket = true) :
    3 ≤ bucket.length := by
  simp only [isValidBucket, Bool.and_eq_true, decide_eq_true_eq] at valid
  exact valid.1.1.1.1.1.1.2

theorem ne_service_of_isValidBucket
    (valid : isValidBucket bucket = true) :
    bucket ≠ lit "s3" := by
  rintro rfl
  have long := length_of_isValidBucket valid
  simp [lit_eq] at long

section Agreement

variable [UrlCrate] [HostCrate]

/-- An endpoint of a given host. -/
structure Hosted (endpoint : Url) (host : Text) : Prop where
  named : endpoint.hostStr = some host
  written : Written host

variable
    {endpoint : Url}
    (valid : isValidBucket bucket = true)
    (partition : suffix ∈ awsHostSuffixes)

include partition in
theorem splits_of_hosted
    {front marker : Text}
    (hosted : Hosted endpoint (bucket ++ '.' :: (front ++ suffix)))
    (split :
      LastMarker (bucket ++ '.' :: (front ++ suffix)) bucket marker right)
    (filled : bucket ≠ []) :
    Splits endpoint bucket (front ++ suffix) :=
  splits_of_lastMarker split filled hosted.named hosted.written rfl
    (by simp [stripAwsHostSuffix_append partition])

include partition in
/-- Before an ordinary region or none, a dot and `s3` end the bucket. -/
theorem splits_global
    (hosted : Hosted endpoint (bucket ++ '.' :: (lit "s3" ++ suffix)))
    (filled : bucket ≠ []) :
    Splits endpoint bucket (lit "s3" ++ suffix) := by
  rcases dot_of_mem_awsHostSuffixes partition with ⟨rest, ended⟩
  have split :
      LastMarker (bucket ++ (lit ".s3" ++ '.' :: rest)) bucket
        (lit ".s3.") rest :=
    lastMarker_last (ended ▸ unmarked_suffix partition)
  have shape :
      bucket ++ '.' :: (lit "s3" ++ suffix) =
        bucket ++ (lit ".s3" ++ '.' :: rest) := by
    simp [lit_eq, ended]
  rw [← shape] at split
  exact splits_of_hosted partition hosted split filled

include partition in
theorem splits_hyphen
    (dotless : '.' ∉ region)
    (hosted :
      Hosted endpoint
        (bucket ++ '.' :: ((lit "s3-" ++ region) ++ suffix)))
    (filled : bucket ≠ []) :
    Splits endpoint bucket ((lit "s3-" ++ region) ++ suffix) := by
  have split :
      LastMarker (bucket ++ (lit ".s3-" ++ (region ++ suffix))) bucket
        (lit ".s3-") (region ++ suffix) :=
    lastMarker_hyphen (unmarked_suffix partition) dotless
  have shape :
      bucket ++ '.' :: ((lit "s3-" ++ region) ++ suffix) =
        bucket ++ (lit ".s3-" ++ (region ++ suffix)) := by
    simp [lit_eq]
  rw [← shape] at split
  exact splits_of_hosted partition hosted split filled

include partition in
theorem splits_dot
    (ordinary : ¬ ServiceLike region)
    (dotless : '.' ∉ region)
    (hosted :
      Hosted endpoint
        (bucket ++ '.' :: ((lit "s3." ++ region) ++ suffix)))
    (filled : bucket ≠ []) :
    Splits endpoint bucket ((lit "s3." ++ region) ++ suffix) := by
  have split :
      LastMarker (bucket ++ (lit ".s3." ++ (region ++ suffix))) bucket
        (lit ".s3.") (region ++ suffix) :=
    lastMarker_dot (unmarked_suffix partition) ordinary dotless
      (Or.inr (dot_of_mem_awsHostSuffixes partition))
  have shape :
      bucket ++ '.' :: ((lit "s3." ++ region) ++ suffix) =
        bucket ++ (lit ".s3." ++ (region ++ suffix)) := by
    simp [lit_eq]
  rw [← shape] at split
  exact splits_of_hosted partition hosted split filled

include partition in
/-- A region like a marker is taken for the service. -/
theorem splits_serviceLike
    (service : ServiceLike region)
    (dotless : '.' ∉ region)
    (hosted :
      Hosted endpoint ((bucket ++ lit ".s3") ++ '.' :: (region ++ suffix))) :
    Splits endpoint (bucket ++ lit ".s3") (region ++ suffix) := by
  have filled : bucket ++ lit ".s3" ≠ [] := by simp [lit_eq]
  rcases service with rfl | ⟨rest, rfl⟩
  · exact splits_global partition hosted filled
  · refine splits_hyphen partition ?_ hosted filled
    intro member
    exact dotless (List.mem_append_right _ member)

/--
For the three forms of a virtual-hosted AWS host, the bucket that is found,
the host without it, and the region to sign for.  The last service marker
counts, so that a region label like a marker belongs to it.
-/
theorem virtualHosts_agree
    (bucket suffix region : Text)
    (valid : isValidBucket bucket = true)
    (partition : suffix ∈ awsHostSuffixes)
    (filled : region ≠ [])
    (dotless : '.' ∉ region)
    (endpoint : Url) :
    (Hosted endpoint (bucket ++ lit ".s3." ++ region ++ suffix) →
      (¬ ServiceLike region →
        Splits endpoint bucket (lit "s3." ++ region ++ suffix) ∧
          resolveRegion endpoint none = some region) ∧
      (ServiceLike region →
        Splits endpoint (bucket ++ lit ".s3") (region ++ suffix))) ∧
    (Hosted endpoint (bucket ++ lit ".s3-" ++ region ++ suffix) →
      Splits endpoint bucket (lit "s3-" ++ region ++ suffix) ∧
        (¬ ServicePair bucket →
          resolveRegion endpoint none = some region)) ∧
    (Hosted endpoint (bucket ++ lit ".s3" ++ suffix) →
      Splits endpoint bucket (lit "s3" ++ suffix) ∧
        (¬ lit ".s3" <:+ bucket →
          resolveRegion endpoint none = none)) := by
  have named := ne_service_of_isValidBucket valid
  have present : bucket ≠ [] := by
    rintro rfl
    exact absurd (length_of_isValidBucket valid) (by decide)
  refine ⟨fun hosted => ⟨fun ordinary => ⟨?_, ?_⟩, fun service => ?_⟩,
    fun hosted => ⟨?_, fun plain => ?_⟩,
    fun hosted => ⟨?_, fun plain => ?_⟩⟩
  · apply splits_dot partition ordinary dotless _ present
    simpa [lit_eq] using hosted
  · rw [resolveRegion_of_aws partition hosted.named, List.append_assoc]
    apply extractAwsRegion_dot filled dotless
    simpa using unmarked_nil.dot ordinary dotless (Or.inl rfl)
  · apply splits_serviceLike partition service dotless
    simpa [lit_eq] using hosted
  · apply splits_hyphen partition dotless _ present
    simpa [lit_eq] using hosted
  · rw [resolveRegion_of_aws partition hosted.named, List.append_assoc]
    exact extractAwsRegion_hyphen filled dotless named plain
  · apply splits_global partition _ present
    simpa [lit_eq] using hosted
  · rw [resolveRegion_of_aws partition hosted.named]
    exact extractAwsRegion_global named plain

omit [HostCrate] in
/--
A bucket that ends in `.s3` is found, but where the region is looked up its
last label is taken for the service: the marker before the region, or the
service itself, becomes the region to sign for.
-/
theorem resolveRegion_endsInService
    (bucket suffix region : Text)
    (partition : suffix ∈ awsHostSuffixes)
    (dotless : '.' ∉ region)
    (endpoint : Url) :
    (ServicePair bucket →
      Hosted endpoint (bucket ++ lit ".s3-" ++ region ++ suffix) →
        resolveRegion endpoint none = some (lit "s3-" ++ region)) ∧
    (lit ".s3" <:+ bucket →
      Hosted endpoint (bucket ++ lit ".s3" ++ suffix) →
        resolveRegion endpoint none = some (lit "s3")) := by
  constructor
  · rintro ⟨label, pair⟩ hosted
    have labels :
        (bucket ++ '.' :: (lit "s3-" ++ region)).splitOn '.' =
          [label, lit "s3"] ++ [lit "s3-" ++ region] := by
      rw [splitOn_append_last _ (by simp [lit_eq, dotless]), pair]
    have shape :
        bucket ++ lit ".s3-" ++ region =
          bucket ++ '.' :: (lit "s3-" ++ region) := by
      simp [lit_eq]
    rw [resolveRegion_of_aws partition hosted.named, shape,
      extractAwsRegion, labels]
    simp
  · rintro ⟨front, rfl⟩ hosted
    have shape :
        front ++ lit ".s3" ++ lit ".s3" =
          front ++ (lit ".s3." ++ lit "s3") := by
      simp [lit_eq]
    have unmarked : Unmarked ('.' :: lit "s3") := by
      unfold Unmarked
      decide +kernel
    rw [resolveRegion_of_aws partition hosted.named, shape]
    exact extractAwsRegion_dot (by simp [lit_eq]) (by simp [lit_eq]) unmarked

example :
    extractAwsRegion (lit "c.s3.s3-r") = some (lit "s3-r") ∧
      extractAwsRegion (lit "x.s3.s3") = some (lit "s3") := by
  decide +kernel

end Agreement

/-! ## A region called like the service -/

/-- The bucket of that host is found to be `abc.s3`. -/
theorem not_agree_serviceLike :
    isValidBucket (lit "abc") = true ∧
      lit ".amazonaws.com" ∈ awsHostSuffixes ∧
      lit "s3" ≠ [] ∧ '.' ∉ lit "s3" ∧
      s3VirtualHostedBucket
          (lit "abc" ++ lit ".s3." ++ lit "s3" ++ lit ".amazonaws.com") ≠
        some (lit "abc") := by
  decide +kernel

/-! ## A dotted bucket -/

/-- A URL of a virtual-hosted bucket. -/
def dottedInput : Text :=
  lit "https://www.s3.example.s3.eu-west-1.amazonaws.com/"

def dottedHost : Text :=
  lit "www.s3.example.s3.eu-west-1.amazonaws.com"

def dottedUrl : Url where
  scheme := lit "https"
  username := []
  password := none
  host := some (.domain dottedHost)
  hostStr := some dottedHost
  port := none
  path := ['/']
  query := none
  queryPairs := []
  fragment := none

theorem plain_dottedUrl : dottedUrl.Plain where
  scheme := List.all_iff_forall_prop.1 (by decide +kernel)
  host := List.all_iff_forall_prop.1 (by decide +kernel)
  path := List.all_iff_forall_prop.1 (by decide +kernel)

/-- A URL library that knows that URL. -/
@[reducible]
def dottedCrate : UrlCrate :=
  .knowing [(dottedInput, dottedUrl)] (lit "relative URL without a base")
    (List.forall_mem_singleton.2 plain_dottedUrl)

section Example

attribute [local instance] dottedCrate

/-- A host of lowercase letters, digits, dots and hyphens is kept. -/
@[reducible]
def plainHosts : HostCrate where
  parseHost := fun host => .ok (.domain host, host)
  parent_written := fun _ parent _ _ => ⟨.domain parent, rfl⟩

attribute [local instance] plainHosts

theorem virtualHosts_agree_dotted :
    Splits dottedUrl (lit "www.s3.example")
        (lit "s3." ++ lit "eu-west-1" ++ lit ".amazonaws.com") ∧
      resolveRegion dottedUrl none = some (lit "eu-west-1") := by
  have hosted : Hosted dottedUrl dottedHost := by
    refine ⟨rfl, dottedInput, dottedUrl, ?_, Or.inl rfl, rfl⟩
    exact ok_of_lookup List.lookup_cons_self
  have whole :
      dottedHost =
        lit "www.s3.example" ++ lit ".s3." ++ lit "eu-west-1" ++
          lit ".amazonaws.com" := by
    decide +kernel
  rw [whole] at hosted
  exact
    ((virtualHosts_agree (lit "www.s3.example") (lit ".amazonaws.com")
      (lit "eu-west-1") (by decide +kernel) (by decide +kernel)
      (by decide +kernel) (by decide +kernel) dottedUrl).1 hosted).1
      (by unfold ServiceLike; decide +kernel)

end Example

end GitRemoteObjectStore.VirtualHosts
