import GitRemoteObjectStore.Read

/-!
# Reading from a bucket nobody can trust

Whatever its requests are answered with, `read_blob` ends, never panics,
decodes and retries no more often than its limits say, and returns bytes
only if their git object id is the one the path index names.  The results
follow the reader function by function, each with what it needs of its
arguments and what it promises of its result.
-/

namespace GitRemoteObjectStore.Read

open CallProgram Prog DeltaFormat
open Packchain (chainReferencesPackKey packMissingMaxRetries)

/-! ## Outcomes without a panic -/

/-- A good result, or an error that is returned. -/
def Sound {α : Type} (good : α → Prop) : Except Halt α → Prop
  | .ok value => good value
  | .error halt => halt ≠ .panic

/-- The result does not matter. -/
def anything {α : Type} (_ : α) : Prop := True

section Sound

variable
    {α β : Type}
    {C : Type}
    {R : C → Type}

theorem Sound.andThen
    {good : β → Prop}
    {last : α → Prop}
    {program : Prog C R Halt β}
    {next : β → Prog C R Halt α}
    (ends : Ends (Sound good) program)
    (resume : ∀ value, good value → Ends (Sound last) (next value)) :
    Ends (Sound last) (program >>= next) :=
  ends.bind resume fun _ calm => calm

theorem sound_fail
    {good : α → Prop}
    (error : PackchainError) :
    Ends (Sound good) (.fail (.error error) : Prog C R Halt α) := by
  intro same
  cases same

theorem sound_refused
    {good : α → Prop}
    (offset : UInt64)
    (reason : Text) :
    Ends (Sound good)
      (.fail (malformedPackEntry offset reason) : Prog C R Halt α) :=
  sound_fail _

theorem sound_ofExcept
    {good : α → Prop}
    {outcome : Except Halt α}
    (holds : Sound good outcome) :
    Ends (Sound good) (ofExcept outcome : Prog C R Halt α) :=
  ends_ofExcept holds

/-- An error of the engine is never a panic. -/
theorem sound_returned
    (outcome : Except PackchainError α) :
    Sound anything (outcome.mapError Halt.error) := by
  cases outcome with
  | ok value => trivial
  | error error =>
      intro same
      cases same

/-- Nor is an error that is converted into one. -/
theorem sound_mapError
    {ε : Type}
    (program : Prog C R ε α)
    {convert : ε → Halt}
    (calm : ∀ error, convert error ≠ .panic) :
    Ends (Sound anything) (program.mapError convert) := by
  apply Ends.mapError
  apply (ends_any program).weaken
  intro outcome _
  cases outcome with
  | ok value => trivial
  | error error => exact calm error

end Sound

section Reader

variable [Target]

theorem sound_onStore
    {α : Type}
    (program : Program PackchainError α) :
    Ends (Sound anything) ((onStore program).mapError Halt.error) :=
  sound_mapError _ fun _ same => by cases same

/-! ## Ranges -/

/-- A range that is read has the length it was asked for. -/
def Exactly (start stop : UInt64) (body : Slice) : Prop :=
  start.toNat + body.bytes.length = stop.toNat

theorem ends_getBytesRange (key : Text) (start stop : UInt64) :
    Ends
      (fun outcome =>
        ∀ body, outcome = .ok body → Exactly start stop body)
      (getBytesRange key start stop) := by
  unfold getBytesRange
  split
  next same =>
      rintro body ⟨⟩
      exact congrArg UInt64.toNat same
  next differs =>
  split
  next inverted =>
      rintro body ⟨⟩
  next upright =>
  have ordered : start ≤ stop := UInt64.not_lt.1 upright
  intro reply
  cases reply with
  | error error => rintro body ⟨⟩
  | ok answered =>
      change Ends _ (if _ then _ else _)
      split
      next length =>
          rintro body ⟨⟩
          have span := UInt64.toNat_sub_of_le stop start ordered
          have order := UInt64.le_iff_toNat_le.1 ordered
          unfold Exactly
          omega
      next other => rintro body ⟨⟩

theorem sound_getBytesRange
    (key : Text)
    (start stop : UInt64)
    {convert : ObjectStoreError → Halt}
    (calm : ∀ error, convert error ≠ .panic) :
    Ends (Sound (Exactly start stop))
      ((getBytesRange key start stop).mapError convert) := by
  apply Ends.mapError
  apply (ends_getBytesRange key start stop).weaken
  intro outcome exact
  cases outcome with
  | ok body => exact exact body rfl
  | error error => exact calm error

theorem sound_loadIndex
    (bucketPrefix : Option Text)
    (contentSha : Sha40) :
    Ends (Sound anything) (loadIndex bucketPrefix contentSha) := by
  intro hit
  cases hit with
  | some index => trivial
  | none =>
      apply Sound.andThen (sound_mapError _ fun error => ?_)
      · intro body _ parsed
        cases parsed with
        | ok file =>
            intro _
            trivial
        | error reason => exact sound_refused 0 _
      · cases error <;> exact fun same => by cases same

theorem sound_entryEnd
    (bucketPrefix : Option Text)
    (contentSha : Sha40)
    (packOffset : UInt64)
    (index : CachedIndex) :
    Ends (Sound anything)
      (entryEnd bucketPrefix contentSha packOffset index) := by
  unfold entryEnd
  split
  · trivial
  · intro reply
    cases reply with
    | error error => cases error <;> exact sound_fail _
    | ok size =>
        change Ends _ (if _ then _ else _)
        split
        · exact sound_refused packOffset _
        · trivial

/-- The bytes of an entry end before the last offset there is. -/
def Fits (packOffset : UInt64) (raw : Slice) : Prop :=
  packOffset.toNat + raw.bytes.length < 2 ^ 64

theorem sound_fetchEntryBytes
    (bucketPrefix : Option Text)
    (contentSha : Sha40)
    (packOffset : UInt64)
    (index : CachedIndex) :
    Ends (Sound (Fits packOffset))
      (fetchEntryBytes bucketPrefix contentSha packOffset index) := by
  unfold fetchEntryBytes
  apply Sound.andThen
    (sound_entryEnd bucketPrefix contentSha packOffset index)
  intro stop _
  change Ends _ (if _ then _ else _)
  split
  · exact sound_refused packOffset _
  · apply (sound_getBytesRange _ packOffset stop fun error => ?_).weaken
    · intro outcome sound
      cases outcome with
      | ok raw =>
          have length : packOffset.toNat + raw.bytes.length = stop.toNat :=
            sound
          have bound := stop.toNat_lt
          change packOffset.toNat + raw.bytes.length < 2 ^ 64
          omega
      | error halt => exact sound
    · cases error <;> exact fun same => by cases same

/-! ## Inflating -/

omit [Target] in
/-- `&bytes[start..]` -/
theorem subslice_to_end
    {bytes : Bytes}
    {start : Nat}
    (inside : start ≤ bytes.length) :
    subslice bytes start bytes.length = .ok (bytes.drop start) := by
  unfold subslice
  rw [if_pos ⟨inside, Nat.le_refl _⟩, List.take_of_length_le]
  rw [List.length_drop]

theorem inflateTo_ends (input : Bytes) (announcedSize : Nat) :
    Ends (Sound anything)
      ((inflateTo input announcedSize).attempt :
        Reader (Except InflateOutcome Slice)) :=
  (ends_any _).attempt fun _ _ => trivial

omit [Target] in
theorem wider_toNat
    {nextSize size : UInt64}
    (wider : ¬ nextSize ≤ size) :
    size.toNat < nextSize.toNat := by
  rw [UInt64.le_iff_toNat_le] at wider
  omega

/-- A widened range is read in full only if it does not wrap around. -/
theorem exactly_widened
    {packOffset nextSize : UInt64}
    {bytes : Slice}
    (exact : Exactly packOffset (packOffset + nextSize) bytes) :
    bytes.bytes.length = nextSize.toNat := by
  have sum : packOffset.toNat + bytes.bytes.length =
      (packOffset + nextSize).toNat := exact
  rw [UInt64.toNat_add] at sum
  have offset := packOffset.toNat_lt
  have size := nextSize.toNat_lt
  omega

/-- A buffer that has the header can be widened to one that has it. -/
theorem sound_inflateFrom
    (bucketPrefix : Option Text)
    (contentSha : Sha40)
    {packOffset : UInt64}
    {headerSize : Nat}
    (decompressedSize : Nat)
    (remaining : Nat)
    {buffer : Slice}
    {currentEnd : UInt64}
    (held : headerSize ≤ buffer.bytes.length)
    (reached : headerSize ≤ (currentEnd - packOffset).toNat) :
    Ends (Sound anything)
      (inflateFrom bucketPrefix contentSha packOffset headerSize
        decompressedSize remaining buffer currentEnd) := by
  induction remaining generalizing buffer currentEnd with
  | zero =>
      unfold inflateFrom
      rw [subslice_to_end held]
      apply Sound.andThen (inflateTo_ends _ _)
      intro outcome _
      cases outcome with
      | ok inflated => trivial
      | error reason => cases reason <;> exact sound_fail _
  | succ remaining hypothesis =>
      unfold inflateFrom
      rw [subslice_to_end held]
      apply Sound.andThen (inflateTo_ends _ _)
      intro outcome _
      cases outcome with
      | ok inflated => trivial
      | error reason =>
          cases reason with
          | failed => exact sound_fail _
          | needMoreInput =>
              change Ends _ (if _ then _ else _)
              split
              · exact sound_refused packOffset _
              next wider =>
                  apply Sound.andThen
                    (sound_getBytesRange _ packOffset _ fun error => ?_)
                  · intro bytes length
                    have longer := wider_toNat wider
                    have exact := exactly_widened length
                    apply hypothesis
                    · omega
                    · rw [UInt64.add_comm, UInt64.add_sub_cancel]
                      omega
                  · cases error <;> exact fun same => by cases same

theorem sound_inflateWithRetry
    (bucketPrefix : Option Text)
    (contentSha : Sha40)
    {packOffset : UInt64}
    {raw : Slice}
    (fits : Fits packOffset raw)
    {headerSize : Nat}
    (held : headerSize ≤ raw.bytes.length)
    (decompressedSize : Nat) :
    Ends (Sound anything)
      (inflateWithRetry bucketPrefix contentSha packOffset raw headerSize
        decompressedSize) := by
  apply sound_inflateFrom bucketPrefix contentSha decompressedSize _ held
  unfold Fits at fits
  have length : (UInt64.ofNat raw.bytes.length).toNat = raw.bytes.length :=
    UInt64.toNat_ofNat_of_lt' (by
      change raw.bytes.length < 2 ^ 64
      omega)
  rw [saturatingAdd, if_pos fits, UInt64.add_comm, UInt64.add_sub_cancel,
    length]
  exact held

/-! ## Objects -/

theorem sound_applyDelta (base : ResolvedObject) (delta : Slice) :
    Sound anything (applyDelta base delta) := by
  cases applied : applyDelta base delta with
  | ok result => trivial
  | error halt =>
      rcases refuses_applyDelta base delta halt applied with ⟨reason, rfl⟩
      intro same
      cases same

/-- The header of an entry lies within the bytes it was parsed from. -/
theorem PackEntry.headerSize_le
    {raw : Slice}
    {packOffset : UInt64}
    (entry : PackEntry raw packOffset) :
    (entry.dataOffset - packOffset).toNat ≤ raw.bytes.length := by
  rcases entry.behindHeader with ⟨consumed, inside, data⟩
  rw [data, UInt64.add_comm, UInt64.add_sub_cancel, UInt64.toNat_ofNat']
  exact Nat.le_trans (Nat.mod_le _ _) inside

variable [ObjectHash]

/-- An object whose git object id is the one it was asked for by. -/
def Named (target : Sha) (resolved : ResolvedObject) : Prop :=
  ObjectHash.computeHash resolved.kind resolved.payload.bytes = .ok target

/-- A decoder that does not panic on bytes that fit. -/
def Calm (decode : Decoder) : Prop :=
  ∀ contentSha packOffset raw,
    Fits packOffset raw →
      Ends (Sound anything) (decode contentSha packOffset raw)

theorem sound_verifyContentHash (target : Sha) (resolved : ResolvedObject) :
    Sound (fun _ => Named target resolved)
      (verifyContentHash target resolved) := by
  unfold verifyContentHash
  split
  · intro same
    cases same
  next actual hashed =>
  split
  · intro same
    cases same
  next same =>
      rw [not_not.1 same] at hashed
      exact hashed

/-- Every object that is returned has been hashed. -/
theorem sound_readObjectFrom
    (bucketPrefix : Option Text)
    {decode : Decoder}
    (calm : Calm decode)
    (target : Sha)
    (segments : List ChainSegment) :
    Ends (Sound (Named target))
      (readObjectFrom bucketPrefix decode target segments) := by
  induction segments with
  | nil => exact sound_fail _
  | cons segment older hypothesis =>
      unfold readObjectFrom
      apply Sound.andThen (sound_ofExcept (sound_returned _))
      intro contentSha _
      apply Sound.andThen (sound_loadIndex bucketPrefix contentSha)
      intro index _
      split
      · exact hypothesis
      · apply Sound.andThen (sound_fetchEntryBytes bucketPrefix contentSha _ _)
        intro raw fits
        apply Sound.andThen (calm contentSha _ raw fits)
        intro resolved _
        apply Sound.andThen
          (sound_ofExcept (sound_verifyContentHash target resolved))
        intro _ named
        exact named

theorem calm_decodeEntry
    (bucketPrefix : Option Text)
    (chain : List ChainSegment)
    (depth : Nat) :
    Calm (decodeEntry bucketPrefix chain depth) := by
  induction depth with
  | zero => exact fun _ _ _ _ => sound_fail _
  | succ depth hypothesis =>
      intro contentSha packOffset raw fits parsed
      cases parsed with
      | error reason => exact sound_refused packOffset reason
      | ok entry =>
          change Ends _ (if _ then _ else _)
          split
          · exact sound_refused packOffset _
          split
          · exact sound_refused packOffset _
          split
          · exact sound_refused packOffset _
          apply Sound.andThen
            (sound_inflateWithRetry bucketPrefix contentSha fits
              entry.headerSize_le _)
          intro inflated _
          cases entry.header with
          | blob => trivial
          | commit => trivial
          | tree => trivial
          | tag => trivial
          | ofsDelta baseDistance =>
              change Ends _ (if _ then _ else _)
              split
              · exact sound_refused packOffset _
              apply Sound.andThen (sound_loadIndex bucketPrefix contentSha)
              intro index _
              apply Sound.andThen
                (sound_fetchEntryBytes bucketPrefix contentSha _ index)
              intro baseBytes baseFits
              apply Sound.andThen
                (hypothesis contentSha _ baseBytes baseFits)
              intro base _
              exact sound_ofExcept (sound_applyDelta base inflated)
          | refDelta baseId =>
              apply Sound.andThen
                (sound_readObjectFrom bucketPrefix hypothesis baseId chain)
              intro base _
              exact sound_ofExcept (sound_applyDelta base inflated)

theorem sound_readObjectFromChain
    (bucketPrefix : Option Text)
    (segments : List ChainSegment)
    (target : Sha) :
    Ends (Sound (Named target))
      (readObjectFromChain bucketPrefix segments target) :=
  sound_readObjectFrom bucketPrefix
    (calm_decodeEntry bucketPrefix segments (maxDeltaDepth + 1)) target
    segments

/-! ## Attempts -/

variable [Platform]

theorem sound_readTurn
    (bucketPrefix : Option Text)
    (remoteRef : RefName)
    (refName : Text)
    (blobOid : Sha)
    {letGo : Text → ChainManifest → Reader ResolvedObject}
    (sound :
      ∀ missingKey reloaded,
        Ends (Sound (Named blobOid)) (letGo missingKey reloaded))
    (current : ChainManifest) :
    Ends (Sound (Named blobOid))
      (readTurn bucketPrefix remoteRef refName blobOid letGo current) := by
  unfold readTurn
  have attempted :
      Ends (Sound (Sound (Named blobOid)))
        ((readObjectFromChain bucketPrefix current.segments
          blobOid).attempt : Reader (Except Halt ResolvedObject)) :=
    (sound_readObjectFromChain bucketPrefix current.segments
      blobOid).attempt fun _ holds => holds
  apply Sound.andThen attempted
  intro outcome read
  split
  · exact read
  · apply Sound.andThen (sound_onStore _)
    intro found _
    split
    · exact sound_fail _
    next reloaded =>
        apply Sound.andThen (sound_ofExcept (sound_returned _))
        intro references _
        split
        · exact sound_fail _
        · exact sound _ _
  · exact read

theorem sound_readAttempts
    (bucketPrefix : Option Text)
    (remoteRef : RefName)
    (refName : Text)
    (blobOid : Sha)
    (remaining : Nat)
    (current : ChainManifest) :
    Ends (Sound (Named blobOid))
      (readAttempts bucketPrefix remoteRef refName blobOid remaining
        current) := by
  induction remaining generalizing current with
  | zero =>
      apply sound_readTurn
      exact fun _ _ => sound_fail _
  | succ remaining hypothesis =>
      apply sound_readTurn
      intro missingKey reloaded
      have inside :
          packMissingMaxRetries - (remaining + 1) <
            packMissingRetryBackoffs.length :=
        Nat.lt_of_le_of_lt
          (Nat.sub_le_sub_left (Nat.succ_le_succ remaining.zero_le) _)
          (by decide)
      simp only [List.getElem?_eq_getElem inside]
      exact fun _ => hypothesis reloaded

/-- A blob whose git object id is the given one. -/
def IsBlob (sha : Sha) (payload : Slice) : Prop :=
  ObjectHash.computeHash .blob payload.bytes = .ok sha

theorem sound_readResolved
    (bucketPrefix : Option Text)
    (remoteRef : RefName)
    (refName path : Text)
    (blobSha : Sha40)
    (chain : ChainManifest) :
    Ends (Sound (IsBlob blobSha))
      (readResolved bucketPrefix remoteRef refName path blobSha chain) := by
  unfold readResolved
  have attempted :
      Ends (Sound (Sound (Named blobSha)))
        ((readAttempts bucketPrefix remoteRef refName blobSha
          packMissingMaxRetries chain).attempt :
          Reader (Except Halt ResolvedObject)) :=
    (sound_readAttempts bucketPrefix remoteRef refName blobSha _
      chain).attempt fun _ holds => holds
  apply Sound.andThen attempted
  intro outcome read
  split
  next resolved =>
      split
      next blob =>
          have named : Named blobSha resolved := read
          unfold Named at named
          rw [blob] at named
          exact named
      · exact sound_fail _
  · split
    · exact sound_fail _
    · exact sound_fail _
  · exact read

omit [Target] [ObjectHash] [Platform] in
/-- A path has at least one segment. -/
theorem parsePath_ne_nil
    {path : Text}
    {segments : List Text}
    (parsed : parsePath path = .ok segments) :
    segments ≠ [] := by
  unfold parsePath at parsed
  split at parsed
  · cases parsed
  split at parsed
  · cases parsed
  split at parsed
  · cases parsed
  · cases parsed
    rw [List.splitOn_eq_splitOnP]
    exact List.splitOnP_ne_nil _ path

omit [Target] [ObjectHash] [Platform] in
theorem sound_parsePath (path : Text) :
    Sound (fun segments => segments ≠ [])
      ((parsePath path).mapError Halt.error) := by
  cases parsed : parsePath path with
  | ok segments => exact parsePath_ne_nil parsed
  | error error =>
      intro same
      cases same

omit [Target] [ObjectHash] [Platform] in
theorem sound_walkPath
    (root : List (Text × PathNode))
    {segments : List Text}
    (present : segments ≠ [])
    (refName path : Text) :
    Sound anything (walkPath root segments refName path) := by
  unfold walkPath
  rw [List.getLast?_eq_some_getLast present]
  split
  next missing => cases missing
  next last _ =>
  split
  · intro same
    cases same
  · split
    · trivial
    · intro same
      cases same
    · intro same
      cases same

theorem sound_readBlob (remote : Remote) (refName path : Text) :
    Ends (Sound anything) (readBlob remote refName path) := by
  unfold readBlob
  split
  · exact sound_fail _
  apply Sound.andThen (sound_ofExcept (sound_parsePath path))
  intro segments present
  split
  · exact sound_fail _
  next remoteRef _ =>
  apply Sound.andThen (sound_onStore _)
  intro foundChain _
  split
  · exact sound_fail _
  next chain _ =>
  apply Sound.andThen (sound_onStore _)
  intro foundIndex _
  split
  · exact sound_fail _
  next pathIndex _ =>
  split
  · exact sound_fail _
  apply Sound.andThen
    (sound_ofExcept
      (sound_walkPath _ present refName path))
  intro blobSha _
  apply (sound_readResolved _ remoteRef refName path blobSha chain).weaken
  intro outcome read
  cases outcome with
  | ok payload => trivial
  | error halt => exact read

end Reader

/-! ## Costs -/

section Costs

variable [Target]

/-- One for each entry that is decoded. -/
def decodes : ReadCall → Nat
  | .parseEntry _ _ => 1
  | _ => 0

/-- Another attempt begins after a sleep. -/
def isSleep : ReadCall → Bool
  | .sleep _ => true
  | _ => false

/-- A cost of decoding entries and of sleeping alone. -/
structure Modest (cost : ReadCall → Nat) : Prop where
  store : ∀ request, cost (.store request) = 0
  size : ∀ key, cost (.size key) = 0
  range : ∀ key start stop, cost (.range key start stop) = 0
  cacheGet : ∀ owner sha, cost (.cacheGet owner sha) = 0
  cacheInsert : ∀ owner sha index, cost (.cacheInsert owner sha index) = 0
  parseIndex : ∀ body, cost (.parseIndex body) = 0
  decompress : ∀ input size, cost (.decompress input size) = 0

theorem modest_decodes : Modest decodes where
  store := fun _ => rfl
  size := fun _ => rfl
  range := fun _ _ _ => rfl
  cacheGet := fun _ _ => rfl
  cacheInsert := fun _ _ _ => rfl
  parseIndex := fun _ => rfl
  decompress := fun _ _ => rfl

theorem modest_sleeps : Modest (counting isSleep) where
  store := fun _ => rfl
  size := fun _ => rfl
  range := fun _ _ _ => rfl
  cacheGet := fun _ _ => rfl
  cacheInsert := fun _ _ _ => rfl
  parseIndex := fun _ => rfl
  decompress := fun _ _ => rfl

variable {cost : ReadCall → Nat}

/-- A free call, and a free program behind it. -/
theorem costs_free_call
    {ε α : Type}
    {request : ReadCall}
    (free : cost request = 0)
    {next : ReadReply request → Prog ReadCall ReadReply ε α}
    (rest : ∀ reply, Costs cost 0 (next reply)) :
    Costs cost 0 (.call request next) :=
  ⟨Nat.le_of_eq free, fun reply => by
    rw [free]
    exact rest reply⟩

theorem costs_onStore
    (modest : Modest cost)
    {ε α : Type}
    (program : Program ε α) :
    Costs cost 0 (onStore program) := by
  induction program with
  | done value => trivial
  | fail error => trivial
  | call request next hypothesis =>
      exact costs_free_call (modest.store request) hypothesis

theorem costs_getBytesRange
    (modest : Modest cost)
    (key : Text)
    (start stop : UInt64) :
    Costs cost 0 (getBytesRange key start stop) := by
  unfold getBytesRange
  split
  · trivial
  split
  · trivial
  apply costs_free_call (modest.range key start stop)
  intro reply
  cases reply with
  | error error => trivial
  | ok body =>
      change Costs _ _ (if _ then _ else _)
      split <;> trivial

theorem costs_loadIndex
    (modest : Modest cost)
    (bucketPrefix : Option Text)
    (contentSha : Sha40) :
    Costs cost 0 (loadIndex bucketPrefix contentSha) := by
  apply costs_free_call (modest.cacheGet _ _)
  intro hit
  cases hit with
  | some index => trivial
  | none =>
      apply Costs.after (costs_onStore modest _).mapError
      intro body
      apply costs_free_call (modest.parseIndex body)
      intro parsed
      cases parsed with
      | error reason => trivial
      | ok file =>
          exact costs_free_call (modest.cacheInsert _ _ _) fun _ => trivial

theorem costs_fetchEntryBytes
    (modest : Modest cost)
    (bucketPrefix : Option Text)
    (contentSha : Sha40)
    (packOffset : UInt64)
    (index : CachedIndex) :
    Costs cost 0
      (fetchEntryBytes bucketPrefix contentSha packOffset index) := by
  have ends :
      Costs cost 0
        (entryEnd bucketPrefix contentSha packOffset index) := by
    unfold entryEnd
    split
    · trivial
    · apply costs_free_call (modest.size _)
      intro reply
      cases reply with
      | error error => cases error <;> trivial
      | ok size =>
          change Costs _ _ (if _ then _ else _)
          split <;> trivial
  unfold fetchEntryBytes
  apply Costs.after ends
  intro stop
  change Costs _ _ (if _ then _ else _)
  split
  · trivial
  · exact (costs_getBytesRange modest _ packOffset stop).mapError

theorem costs_inflateFrom
    (modest : Modest cost)
    (bucketPrefix : Option Text)
    (contentSha : Sha40)
    (packOffset : UInt64)
    (headerSize decompressedSize remaining : Nat)
    (buffer : Slice)
    (currentEnd : UInt64) :
    Costs cost 0
      (inflateFrom bucketPrefix contentSha packOffset headerSize
        decompressedSize remaining buffer currentEnd) := by
  have inflates (input : Bytes) :
      Costs cost 0 (inflateTo input decompressedSize) := by
    apply costs_free_call (modest.decompress _ _)
    intro reply
    cases reply with
    | error error => trivial
    | ok state =>
        cases found : state.status with
        | streamEnd =>
            simp only [found]
            split
            · trivial
            · split <;> trivial
        | ok =>
            simp only [found]
            trivial
        | bufError =>
            simp only [found]
            trivial
  induction remaining generalizing buffer currentEnd with
  | zero =>
      unfold inflateFrom
      apply Costs.after (costs_ofExcept 0 _)
      intro compressed
      apply Costs.after (inflates compressed).attempt
      intro outcome
      cases outcome with
      | ok inflated => trivial
      | error reason => cases reason <;> trivial
  | succ remaining hypothesis =>
      unfold inflateFrom
      apply Costs.after (costs_ofExcept 0 _)
      intro compressed
      apply Costs.after (inflates compressed).attempt
      intro outcome
      cases outcome with
      | ok inflated => trivial
      | error reason =>
          cases reason with
          | failed => trivial
          | needMoreInput =>
              change Costs _ _ (if _ then _ else _)
              split
              · trivial
              · exact
                  Costs.after (costs_getBytesRange modest _ _ _).mapError
                    fun bytes => hypothesis bytes _

variable [ObjectHash]

theorem costs_readObjectFrom
    (modest : Modest cost)
    (bucketPrefix : Option Text)
    {decode : Decoder}
    {budget : Nat}
    (costs :
      ∀ contentSha packOffset raw,
        Costs cost budget (decode contentSha packOffset raw))
    (target : Sha)
    (segments : List ChainSegment) :
    Costs cost budget
      (readObjectFrom bucketPrefix decode target segments) := by
  induction segments with
  | nil => trivial
  | cons segment older hypothesis =>
      unfold readObjectFrom
      apply Costs.after (costs_ofExcept 0 _)
      intro contentSha
      apply Costs.after (costs_loadIndex modest bucketPrefix contentSha)
      intro index
      split
      · exact hypothesis
      · apply Costs.after
          (costs_fetchEntryBytes modest bucketPrefix contentSha _ index)
        intro raw
        apply (costs contentSha _ raw).before
        intro resolved
        exact Costs.after (costs_ofExcept 0 _) fun _ => trivial

/-- Each level of decoding costs one entry. -/
theorem costs_decodeEntry
    (modest : Modest cost)
    {each : Nat}
    (entries : ∀ raw packOffset, cost (.parseEntry raw packOffset) ≤ each)
    (bucketPrefix : Option Text)
    (chain : List ChainSegment)
    (depth : Nat)
    (contentSha : Sha40)
    (packOffset : UInt64)
    (raw : Slice) :
    Costs cost (depth * each)
      (decodeEntry bucketPrefix chain depth contentSha packOffset raw) := by
  induction depth generalizing contentSha packOffset raw with
  | zero => trivial
  | succ depth hypothesis =>
      have paid := entries raw packOffset
      have total : (depth + 1) * each = depth * each + each :=
        Nat.succ_mul depth each
      refine ⟨by omega, fun parsed => ?_⟩
      have left :
          depth * each ≤
            (depth + 1) * each - cost (.parseEntry raw packOffset) := by
        omega
      apply Costs.weaken _ left
      cases parsed with
      | error reason => trivial
      | ok entry =>
          change Costs _ _ (if _ then _ else _)
          split
          · trivial
          split
          · trivial
          split
          · trivial
          apply Costs.after (costs_inflateFrom modest _ _ _ _ _ _ _ _)
          intro inflated
          cases entry.header with
          | blob => trivial
          | commit => trivial
          | tree => trivial
          | tag => trivial
          | ofsDelta baseDistance =>
              change Costs _ _ (if _ then _ else _)
              split
              · trivial
              apply Costs.after
                (costs_loadIndex modest bucketPrefix contentSha)
              intro index
              apply Costs.after
                (costs_fetchEntryBytes modest bucketPrefix contentSha _
                  index)
              intro baseBytes
              apply (hypothesis contentSha _ baseBytes).before
              exact fun base => costs_ofExcept 0 _
          | refDelta baseId =>
              apply
                (costs_readObjectFrom modest bucketPrefix hypothesis
                  baseId chain).before
              exact fun base => costs_ofExcept 0 _

theorem costs_readObjectFromChain
    (bucketPrefix : Option Text)
    (segments : List ChainSegment)
    (target : Sha) :
    Costs decodes (maxDeltaDepth + 1)
      (readObjectFromChain bucketPrefix segments target) := by
  have each := costs_decodeEntry modest_decodes (fun _ _ => Nat.le_refl 1)
  simp only [Nat.mul_one] at each
  exact
    costs_readObjectFrom modest_decodes bucketPrefix
      (each bucketPrefix segments (maxDeltaDepth + 1)) target segments

theorem sleepless_readObjectFromChain
    (bucketPrefix : Option Text)
    (segments : List ChainSegment)
    (target : Sha) :
    Costs (counting isSleep) 0
      (readObjectFromChain bucketPrefix segments target) := by
  have each :=
    costs_decodeEntry modest_sleeps (fun _ _ => Nat.le_refl 0)
  simp only [Nat.mul_zero] at each
  exact
    costs_readObjectFrom modest_sleeps bucketPrefix
      (each bucketPrefix segments (maxDeltaDepth + 1)) target segments

/-! ## Attempts between sleeps -/

/-- No stretch between two sleeps decodes more than the limit. -/
abbrev Attempts {ε α : Type} :
    Nat → Nat → Prog ReadCall ReadReply ε α → Prop :=
  Paced decodes isSleep (maxDeltaDepth + 1)

variable [Platform]

theorem attempts_readTurn
    (bucketPrefix : Option Text)
    (remoteRef : RefName)
    (refName : Text)
    (blobOid : Sha)
    {letGo : Text → ChainManifest → Reader ResolvedObject}
    {retries : Nat}
    (paced :
      ∀ missingKey reloaded, Attempts retries 0 (letGo missingKey reloaded))
    (current : ChainManifest) :
    Attempts retries (maxDeltaDepth + 1)
      (readTurn bucketPrefix remoteRef refName blobOid letGo current) := by
  unfold readTurn
  apply
    (costs_readObjectFromChain bucketPrefix current.segments
      blobOid).attempt.pacedBefore
    (sleepless_readObjectFromChain bucketPrefix current.segments
      blobOid).attempt
  intro outcome
  split
  · trivial
  · apply
      Paced.after (costs_onStore modest_decodes _).mapError
        (costs_onStore modest_sleeps _).mapError
    intro found
    split
    · trivial
    · apply Paced.after (costs_ofExcept 0 _) (costs_ofExcept 0 _)
      intro references
      split
      · trivial
      · exact paced _ _
  · trivial

theorem attempts_readAttempts
    (bucketPrefix : Option Text)
    (remoteRef : RefName)
    (refName : Text)
    (blobOid : Sha)
    (remaining : Nat)
    (current : ChainManifest) :
    Attempts remaining (maxDeltaDepth + 1)
      (readAttempts bucketPrefix remoteRef refName blobOid remaining
        current) := by
  induction remaining generalizing current with
  | zero =>
      apply attempts_readTurn
      exact fun _ _ => trivial
  | succ remaining hypothesis =>
      apply attempts_readTurn
      intro missingKey reloaded
      simp only
      split
      · trivial
      · exact paced_call_pause rfl fun _ => hypothesis reloaded

theorem attempts_readBlob (remote : Remote) (refName path : Text) :
    Attempts packMissingMaxRetries (maxDeltaDepth + 1)
      (readBlob remote refName path) := by
  unfold readBlob
  split
  · trivial
  apply Paced.after (costs_ofExcept 0 _) (costs_ofExcept 0 _)
  intro segments
  split
  · trivial
  apply
    Paced.after (costs_onStore modest_decodes _).mapError
      (costs_onStore modest_sleeps _).mapError
  intro foundChain
  split
  · trivial
  apply
    Paced.after (costs_onStore modest_decodes _).mapError
      (costs_onStore modest_sleeps _).mapError
  intro foundIndex
  split
  · trivial
  split
  · trivial
  apply Paced.after (costs_ofExcept 0 _) (costs_ofExcept 0 _)
  intro blobSha
  apply
    (attempts_readAttempts _ _ refName blobSha _ _).attempt.before
  · intro outcome
    split
    · split <;> trivial
    · split <;> trivial
    · trivial
  · intro outcome
    split
    · split <;> trivial
    · split <;> trivial
    · trivial

end Costs

/-! ## What is returned -/

section Returned

variable
    [Target]
    [ObjectHash]
    [Platform]
    {σ : Type}
    (handler : Handler ReadCall ReadReply σ)

omit [Target] [ObjectHash] [Platform] in
theorem run_ofExcept_eq_ok
    {C : Type}
    {R : C → Type}
    {ε α : Type}
    {handler : Handler C R σ}
    {outcome : Except ε α}
    {state later : σ}
    {value : α}
    (ran : run handler (ofExcept outcome) state = (.ok value, later)) :
    outcome = .ok value ∧ state = later := by
  cases outcome with
  | ok found =>
      cases ran
      exact ⟨rfl, rfl⟩
  | error error => cases ran

omit [ObjectHash] [Platform] in
theorem run_chainOf
    {handler : Handler ReadCall ReadReply σ}
    {body : Body}
    {state later : σ}
    {chain : ChainManifest}
    (ran :
      run handler
          ((onStore
            (match ChainManifest.fromJsonBytes body with
            | .ok manifest => return some manifest
            | .error error => .fail error)).mapError Halt.error)
          state = (.ok (some chain), later)) :
    state = later ∧ ChainManifest.fromJsonBytes body = .ok chain := by
  cases parsed : ChainManifest.fromJsonBytes body with
  | error error =>
      rw [parsed] at ran
      cases ran
  | ok manifest =>
      rw [parsed] at ran
      cases ran
      exact ⟨rfl, rfl⟩

omit [ObjectHash] [Platform] in
theorem run_pathIndexOf
    {handler : Handler ReadCall ReadReply σ}
    {body : Body}
    {state later : σ}
    {index : PathIndex}
    (ran :
      run handler
          ((onStore
            (match PathIndex.fromJsonBytes body with
            | .ok index => return some index
            | .error (.unsupportedSchemaVersion _ _) => return none
            | .error error => .fail error)).mapError Halt.error)
          state = (.ok (some index), later)) :
    state = later ∧ PathIndex.fromJsonBytes body = .ok index := by
  cases parsed : PathIndex.fromJsonBytes body with
  | error error =>
      rw [parsed] at ran
      cases error <;> cases ran
  | ok found =>
      rw [parsed] at ran
      cases ran
      exact ⟨rfl, rfl⟩

omit [ObjectHash] in
/-- The chain that is loaded, and what it was loaded from. -/
theorem run_loadChain
    {bucketPrefix : Option Text}
    {remoteRef : RefName}
    {state later : σ}
    {chain : ChainManifest}
    (ran :
      run handler
          ((onStore (loadChain bucketPrefix remoteRef)).mapError Halt.error)
          state = (.ok (some chain), later)) :
    ∃ body,
      handler (.store (.get (chainKey bucketPrefix remoteRef))) state =
          (.ok body, later) ∧
        ChainManifest.fromJsonBytes body = .ok chain := by
  change run handler _ (handler _ state).2 = _ at ran
  cases answered :
      handler (.store (.get (chainKey bucketPrefix remoteRef))) state with
  | mk reply after =>
      rw [answered] at ran
      cases reply with
      | error error => cases error <;> cases ran
      | ok body =>
          rcases run_chainOf ran with ⟨rfl, parsed⟩
          exact ⟨body, rfl, parsed⟩

omit [ObjectHash] in
/-- The path index that is loaded, and what it was loaded from. -/
theorem run_loadPathIndex
    {bucketPrefix : Option Text}
    {remoteRef : RefName}
    {state later : σ}
    {index : PathIndex}
    (ran :
      run handler
          ((onStore (loadPathIndex bucketPrefix remoteRef)).mapError
            Halt.error)
          state = (.ok (some index), later)) :
    ∃ body,
      handler (.store (.get (pathIndexKey bucketPrefix remoteRef))) state =
          (.ok body, later) ∧
        PathIndex.fromJsonBytes body = .ok index := by
  change run handler _ (handler _ state).2 = _ at ran
  cases answered :
      handler (.store (.get (pathIndexKey bucketPrefix remoteRef))) state
    with
  | mk reply after =>
      rw [answered] at ran
      cases reply with
      | error error => cases error <;> cases ran
      | ok body =>
          rcases run_pathIndexOf ran with ⟨rfl, parsed⟩
          exact ⟨body, rfl, parsed⟩

/--
What a successful read goes by: the chain and the path index that were
loaded first, with one tip, and the blob the index names.
-/
structure Resolved
    (remote : Remote)
    (refName path : Text)
    (state : σ)
    (payload : Slice) : Prop where
  engine : remote.engine = .packchain
  resolved :
    ∃ (remoteRef : RefName) (segments : List Text)
      (chainBody indexBody : Body) (chain : ChainManifest)
      (index : PathIndex) (blobSha : Sha40) (middle later : σ),
      RefName.new refName = some remoteRef ∧
        parsePath path = .ok segments ∧
        handler
            (.store
              (.get (chainKey (prefixOpt remote.bucketPrefix) remoteRef)))
            state = (.ok chainBody, middle) ∧
        ChainManifest.fromJsonBytes chainBody = .ok chain ∧
        handler
            (.store
              (.get
                (pathIndexKey (prefixOpt remote.bucketPrefix) remoteRef)))
            middle = (.ok indexBody, later) ∧
        PathIndex.fromJsonBytes indexBody = .ok index ∧
        index.tip = chain.tip ∧
        walkPath index.tree segments refName path = .ok blobSha ∧
        ObjectHash.computeHash .blob payload.bytes = .ok blobSha

theorem resolved_of_run
    {remote : Remote}
    {refName path : Text}
    {state : σ}
    {payload : Slice}
    (ran :
      (run handler (readBlob remote refName path) state).1 = .ok payload) :
    Resolved handler remote refName path state payload := by
  unfold readBlob at ran
  split at ran
  · cases ran
  next engine =>
  rcases run_bind_eq_ok ran with ⟨segments, _, parses, behindPath⟩
  rcases run_ofExcept_eq_ok parses with ⟨parsed, rfl⟩
  split at behindPath
  · cases behindPath
  next remoteRef known =>
  rcases run_bind_eq_ok behindPath with
    ⟨foundChain, middle, loadsChain, behindChain⟩
  cases foundChain with
  | none => cases behindChain
  | some chain =>
  rcases run_bind_eq_ok behindChain with
    ⟨foundIndex, later, loadsIndex, behindIndex⟩
  cases foundIndex with
  | none => cases behindIndex
  | some index =>
  simp only at behindIndex
  split at behindIndex
  · cases behindIndex
  next tips =>
  rcases run_bind_eq_ok behindIndex with ⟨blobSha, _, walks, reads⟩
  rcases run_ofExcept_eq_ok walks with ⟨walked, rfl⟩
  rcases run_loadChain handler loadsChain with
    ⟨chainBody, chainRead, chainParsed⟩
  rcases run_loadPathIndex handler loadsIndex with
    ⟨indexBody, indexRead, indexParsed⟩
  have hashed :=
    (sound_readResolved (prefixOpt remote.bucketPrefix) remoteRef refName
      path blobSha chain).run handler later
  rw [reads] at hashed
  have segmented : parsePath path = .ok segments := by
    cases found : parsePath path with
    | ok others =>
        rw [found] at parsed
        cases parsed
        rfl
    | error error =>
        rw [found] at parsed
        cases parsed
  exact
    ⟨not_not.1 engine,
      remoteRef, segments, chainBody, indexBody, chain, index, blobSha,
      middle, later, known, segmented, chainRead, chainParsed, indexRead,
      indexParsed, not_not.1 tips, walked, hashed⟩

/--
However its requests are answered, `read_blob` ends without a panic.  Its
attempts, told apart by the sleeps between them, are no more than the
retries allow, none decodes more entries than the delta depth allows, and
bytes are returned only if their git object id is the blob's.
-/
theorem readBlob_integrity
    (remote : Remote)
    (refName path : Text)
    (state : σ) :
    (run handler (readBlob remote refName path) state).1 ≠
        .error .panic ∧
      ((issued handler (readBlob remote refName path) state).splitOnP
          isSleep).length ≤ packMissingMaxRetries + 1 ∧
      (∀ attempt ∈
          (issued handler (readBlob remote refName path) state).splitOnP
            isSleep,
        (attempt.map decodes).sum ≤ maxDeltaDepth + 1) ∧
      ∀ payload,
        (run handler (readBlob remote refName path) state).1 =
            .ok payload →
          Resolved handler remote refName path state payload := by
  rcases
    (attempts_readBlob remote refName path).issued handler state with
    ⟨first, rest, attempts, cheap, few, each⟩
  rw [attempts]
  refine ⟨?_, Nat.succ_le_succ few, ?_, ?_⟩
  · intro panicked
    have sound := (sound_readBlob remote refName path).run handler state
    rw [panicked] at sound
    exact sound rfl
  · exact List.forall_mem_cons.2 ⟨cheap, each⟩
  · exact fun payload ran => resolved_of_run handler ran

end Returned

end GitRemoteObjectStore.Read
