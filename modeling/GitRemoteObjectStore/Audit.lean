import Mathlib.Algebra.BigOperators.Group.Finset.Basic
import GitRemoteObjectStore.Doctor
import GitRemoteObjectStore.FetchClosure

/-!
# The audit of a packchain bucket

An audit is made of a listing and of the chains it then reads.  Other clients
may push, compact and collect between the listing and each of the reads, and
a read may fail; what cannot be read is passed over.  The report is true of
the listing and of the chains as they were when they were read, and it passes
over no chain without a reason.
-/

namespace GitRemoteObjectStore.Audit

open CallProgram Prog Packchain Separated
open FetchClosure (atMoments body?_of_heard)

/-! ## Reports -/

/-- A listing entry with the size of its object. -/
structure SizedMeta extends ObjectMeta where
  size : Nat

structure OrphanSummary where
  packCount : Nat
  bytes : Nat
deriving DecidableEq

structure TombstoneRow where
  runId : Text
  markedAt : Option Int
  ageHours : Int
  orphanCount : Nat
deriving DecidableEq

structure BranchRow where
  refPath : Text
  segmentsTotal : Nat
  bytesTotal : Nat
  recommendCompact : Bool
  hasFullAtSegment : Bool
deriving DecidableEq

structure DanglingRow where
  refPath : Text
  missingPackKey : Text
deriving DecidableEq

structure AuditReport where
  orphans : OrphanSummary
  tombstones : List TombstoneRow
  branches : List BranchRow
  dangling : List DanglingRow

/-- One more orphan; the bytes saturate at 64 bits. -/
def OrphanSummary.count
    (summary : OrphanSummary)
    (entry : SizedMeta) : OrphanSummary where
  packCount := summary.packCount + 1
  bytes := min (summary.bytes + entry.size) (2 ^ 64 - 1)

/-- The row of a branch. -/
def auditBranch (refPath : Text) (chain : ChainManifest) : BranchRow where
  refPath := refPath
  segmentsTotal := chain.segments.length
  bytesTotal := priorBytesOf chain
  recommendCompact :=
    decide (compactSegmentsThreshold < chain.segments.length) ||
      decide (compactBytesThreshold < priorBytesOf chain)
  hasFullAtSegment :=
    chain.segments.any fun segment => decide (segment.sha = chain.fullAt)

/-- The row of a tombstone; one that has no legible time has no age. -/
def tombstoneRow (now : Int) (tombstone : Tombstone) : TombstoneRow where
  runId := tombstone.runId
  markedAt := tombstone.markedAt
  ageHours :=
    match tombstone.markedAt with
    | none => 0
    | some marked => wholeHours (now - marked)
  orphanCount := tombstone.orphanPacks.length

/-- The content name of a key in `packs/` that ends like a pack's. -/
def listedPack
    (bucketPrefix : Option Text)
    (key : Text) : Option Sha40 :=
  if (join (some (prefixText bucketPrefix)) (lit "packs/")).isPrefixOf key
  then
    (stripSuffix (lit ".pack") (lastSegment '/' key)).bind Sha40.tryNew
  else none

/-- The listed packs by content name. -/
def packMetasFromObjects
    (bucketPrefix : Option Text)
    (objects : List SizedMeta) : AList fun _ : Sha40 => SizedMeta :=
  objects.foldl
    (fun out entry =>
      match listedPack bucketPrefix entry.key with
      | none => out
      | some sha => out.insert sha entry)
    ∅

/-- Whether the pack of a segment is listed. -/
def packPresent
    (pack : Text)
    (metas : AList fun _ : Sha40 => SizedMeta) : Bool :=
  match shaFromPackKey pack with
  | none => false
  | some sha => (metas.lookup sha).isSome

/-- The chains' missing packs. -/
def danglingRows
    (metas : AList fun _ : Sha40 => SizedMeta)
    (chains : List (Text × ChainManifest)) : List DanglingRow :=
  chains.flatMap fun chain =>
    (chain.2.segments.filter fun segment =>
      !packPresent segment.pack metas).map fun segment =>
        ⟨chain.1, segment.pack⟩

/-- The report on a listing and on the chains and tombstones it led to. -/
def auditReport
    (bucketPrefix : Option Text)
    (objects : List SizedMeta)
    (now : Int)
    (found : List (Text × ChainManifest) × List Tombstone) :
    AuditReport :=
  let metas := packMetasFromObjects bucketPrefix objects
  let referenced :=
    (found.1.flatMap fun chain => chain.2.segments).filterMap fun segment =>
      shaFromPackKey segment.pack
  { orphans :=
      ((metas.entries.filter fun entry =>
        !referenced.contains entry.1).map Sigma.snd).foldl
          OrphanSummary.count ⟨0, 0⟩
    tombstones := found.2.map (tombstoneRow now)
    branches :=
      (found.1.map fun chain => auditBranch chain.1 chain.2).insertionSort
        fun left right => left.refPath ≤ right.refPath
    dangling :=
      (danglingRows metas found.1).insertionSort fun left right =>
        left.refPath < right.refPath ∨
          left.refPath = right.refPath ∧
            left.missingPackKey ≤ right.missingPackKey }

/-! ## What a report is made of -/

section Reports

variable
    {bucketPrefix : Option Text}
    {objects : List SizedMeta}
    {now : Int}
    {found : List (Text × ChainManifest) × List Tombstone}

/-- A pack of this name is listed. -/
def PackListed
    (bucketPrefix : Option Text)
    (objects : List SizedMeta)
    (sha : Sha40) : Prop :=
  ∃ entry ∈ objects, listedPack bucketPrefix entry.key = some sha

theorem lookup_packMetasFromObjects
    (sha : Sha40) :
    (∀ entry,
      (packMetasFromObjects bucketPrefix objects).lookup sha =
          some entry →
        entry ∈ objects ∧ listedPack bucketPrefix entry.key = some sha) ∧
      (((packMetasFromObjects bucketPrefix objects).lookup sha).isSome ↔
        PackListed bucketPrefix objects sha) := by
  unfold packMetasFromObjects PackListed
  induction objects using List.reverseRecOn with
  | nil => simp
  | append_singleton rest entry hypothesis =>
      rw [List.foldl_append, List.foldl_cons, List.foldl_nil]
      have widen
          (holds :
            ∃ other ∈ rest, listedPack bucketPrefix other.key = some sha) :
          ∃ other ∈ rest ++ [entry],
            listedPack bucketPrefix other.key = some sha := by
        rcases holds with ⟨other, member, listed⟩
        exact ⟨other, List.mem_append_left _ member, listed⟩
      cases listed : listedPack bucketPrefix entry.key with
      | none =>
          dsimp only
          constructor
          · intro other same
            rcases hypothesis.1 other same with ⟨member, named⟩
            exact ⟨List.mem_append_left _ member, named⟩
          · rw [hypothesis.2]
            constructor
            · exact widen
            · rintro ⟨other, member, named⟩
              rcases List.mem_append.1 member with inside | last
              · exact ⟨other, inside, named⟩
              · rw [List.mem_singleton.1 last, listed] at named
                cases named
      | some name =>
          dsimp only
          by_cases same : sha = name
          · subst same
            rw [AList.lookup_insert]
            constructor
            · rintro other ⟨⟩
              exact ⟨List.mem_append_right _ List.mem_cons_self, listed⟩
            · exact
                iff_of_true rfl
                  ⟨entry, List.mem_append_right _ List.mem_cons_self,
                    listed⟩
          · rw [AList.lookup_insert_ne same]
            constructor
            · intro other found
              rcases hypothesis.1 other found with ⟨member, named⟩
              exact ⟨List.mem_append_left _ member, named⟩
            · rw [hypothesis.2]
              constructor
              · exact widen
              · rintro ⟨other, member, named⟩
                rcases List.mem_append.1 member with inside | last
                · exact ⟨other, inside, named⟩
                · rw [List.mem_singleton.1 last, listed] at named
                  cases named
                  exact absurd rfl same

/-- The pack of a segment is not listed. -/
def Absent
    (bucketPrefix : Option Text)
    (objects : List SizedMeta)
    (pack : Text) : Prop :=
  ∀ sha, shaFromPackKey pack = some sha →
    ¬ PackListed bucketPrefix objects sha

theorem packPresent_eq_false
    {pack : Text} :
    packPresent pack (packMetasFromObjects bucketPrefix objects) = false ↔
      Absent bucketPrefix objects pack := by
  unfold packPresent Absent
  cases named : shaFromPackKey pack with
  | none => simp
  | some sha =>
      dsimp only
      rw [Bool.eq_false_iff, ne_eq,
        (lookup_packMetasFromObjects sha).2]
      constructor
      · rintro absent other ⟨⟩
        exact absent
      · intro absent
        exact absent sha rfl

theorem mem_dangling
    {row : DanglingRow} :
    row ∈ (auditReport bucketPrefix objects now found).dangling ↔
      ∃ refPath chain, (refPath, chain) ∈ found.1 ∧
        ∃ segment ∈ chain.segments,
          Absent bucketPrefix objects segment.pack ∧
            row = ⟨refPath, segment.pack⟩ := by
  unfold auditReport danglingRows
  simp only [List.mem_insertionSort, List.mem_flatMap, List.mem_map,
    List.mem_filter, Bool.not_eq_true', packPresent_eq_false]
  constructor
  · rintro ⟨⟨refPath, chain⟩, member, segment, ⟨inside, absent⟩, rfl⟩
    exact ⟨refPath, chain, member, segment, inside, absent, rfl⟩
  · rintro ⟨refPath, chain, member, segment, inside, absent, rfl⟩
    exact ⟨(refPath, chain), member, segment, ⟨inside, absent⟩, rfl⟩

theorem mem_branches
    {row : BranchRow} :
    row ∈ (auditReport bucketPrefix objects now found).branches ↔
      ∃ refPath chain, (refPath, chain) ∈ found.1 ∧
        row = auditBranch refPath chain := by
  unfold auditReport
  simp only [List.mem_insertionSort, List.mem_map, Prod.exists]
  constructor
  · rintro ⟨refPath, chain, member, rfl⟩
    exact ⟨refPath, chain, member, rfl⟩
  · rintro ⟨refPath, chain, member, rfl⟩
    exact ⟨refPath, chain, member, rfl⟩

theorem foldl_count (entries : List SizedMeta) (summary : OrphanSummary) :
    summary.bytes ≤ 2 ^ 64 - 1 →
      entries.foldl OrphanSummary.count summary =
        ⟨summary.packCount + entries.length,
          min (summary.bytes + (entries.map SizedMeta.size).sum)
            (2 ^ 64 - 1)⟩ := by
  induction entries generalizing summary with
  | nil =>
      intro bound
      simp only [List.foldl_nil, List.length_nil, List.map_nil,
        List.sum_nil, Nat.add_zero, Nat.min_eq_left bound]
  | cons entry rest hypothesis =>
      intro _
      rw [List.foldl_cons, hypothesis _ (Nat.min_le_right _ _)]
      simp only [OrphanSummary.count, List.length_cons, List.map_cons,
        List.sum_cons, OrphanSummary.mk.injEq]
      constructor <;> omega

/-- The packs that are counted as orphans, and their sizes. -/
structure Counted
    (bucketPrefix : Option Text)
    (objects : List SizedMeta)
    (named : Sha40 → Prop)
    (summary : OrphanSummary)
    (shas : Finset Sha40)
    (size : Sha40 → Nat) : Prop where
  packCount : summary.packCount = shas.card
  bytes : summary.bytes = min (shas.sum size) (2 ^ 64 - 1)
  members :
    ∀ sha, sha ∈ shas ↔
      PackListed bucketPrefix objects sha ∧ ¬ named sha
  sizes :
    ∀ sha ∈ shas, ∃ entry ∈ objects,
      listedPack bucketPrefix entry.key = some sha ∧
        size sha = entry.size

theorem exists_counted :
    ∃ shas size,
      Counted bucketPrefix objects
        (fun sha =>
          ∃ refPath chain, (refPath, chain) ∈ found.1 ∧
            sha ∈ chain.packShas)
        (auditReport bucketPrefix objects now found).orphans shas size := by
  let metas := packMetasFromObjects bucketPrefix objects
  let referenced :=
    (found.1.flatMap fun chain => chain.2.segments).filterMap fun segment =>
      shaFromPackKey segment.pack
  let entries :=
    metas.entries.filter fun entry => !referenced.contains entry.1
  let size (sha : Sha40) : Nat :=
    ((metas.lookup sha).map SizedMeta.size).getD 0
  have stored
      {entry : Sigma fun _ : Sha40 => SizedMeta}
      (member : entry ∈ entries) :
      metas.lookup entry.1 = some entry.2 :=
    AList.mem_lookup_iff.2 (List.mem_filter.1 member).1
  have distinct : (entries.map Sigma.fst).Nodup := by
    have all : (metas.entries.map Sigma.fst).Nodup := metas.nodupKeys
    exact all.sublist (List.filter_sublist.map _)
  have named (sha : Sha40) :
      sha ∈ referenced ↔
        ∃ refPath chain, (refPath, chain) ∈ found.1 ∧
          sha ∈ chain.packShas := by
    simp only [referenced, ChainManifest.packShas, List.mem_filterMap,
      List.mem_flatMap, Prod.exists]
    constructor
    · rintro ⟨segment, ⟨refPath, chain, member, inside⟩, same⟩
      exact ⟨refPath, chain, member, segment, inside, same⟩
    · rintro ⟨refPath, chain, member, segment, inside, same⟩
      exact ⟨segment, ⟨refPath, chain, member, inside⟩, same⟩
  have sizes :
      (entries.map Sigma.snd).map SizedMeta.size =
        (entries.map Sigma.fst).map size := by
    rw [List.map_map, List.map_map]
    apply List.map_congr_left
    intro entry member
    simp only [Function.comp_apply, size, stored member, Option.map_some,
      Option.getD_some]
  have summary :
      (auditReport bucketPrefix objects now found).orphans =
        (entries.map Sigma.snd).foldl OrphanSummary.count ⟨0, 0⟩ :=
    rfl
  refine ⟨(entries.map Sigma.fst).toFinset, size, ?_, ?_, ?_, ?_⟩
  · rw [summary, foldl_count _ _ (Nat.zero_le _)]
    simp only [Nat.zero_add, List.length_map]
    rw [List.toFinset_card_of_nodup distinct, List.length_map]
  · rw [summary, foldl_count _ _ (Nat.zero_le _)]
    simp only [Nat.zero_add]
    rw [sizes, List.sum_toFinset size distinct]
  · intro sha
    rw [List.mem_toFinset, ← (lookup_packMetasFromObjects sha).2,
      ← named, List.mem_map]
    constructor
    · rintro ⟨entry, member, rfl⟩
      refine ⟨?_, ?_⟩
      · exact Option.isSome_iff_exists.2 ⟨entry.2, stored member⟩
      · simpa using (List.mem_filter.1 member).2
    · rintro ⟨there, other⟩
      rcases Option.isSome_iff_exists.1 there with ⟨entry, looked⟩
      exact
        ⟨⟨sha, entry⟩,
          List.mem_filter.2
            ⟨AList.mem_lookup_iff.1 looked, by simpa using other⟩,
          rfl⟩
  · intro sha member
    rcases List.mem_map.1 (List.mem_toFinset.1 member) with
      ⟨entry, inside, rfl⟩
    rcases (lookup_packMetasFromObjects entry.1).1 _ (stored inside) with
      ⟨listed, same⟩
    refine ⟨entry.2, listed, same, ?_⟩
    simp only [size, stored inside, Option.map_some, Option.getD_some]

end Reports

/-! ## Scans of a bucket that changes -/

section Scans

variable
    [Platform]
    {bucketPrefix : Option Text}
    {buckets : Nat → World}
    {faults : Nat → Option ObjectStoreError}

omit [Platform] in
/-- A moment of a part of a scan is one of the scan. -/
theorem exists_moment_within
    {holds : Nat → Prop}
    {early late start now : Nat}
    (since : start ≤ early)
    (before : late ≤ now)
    (inside : ∃ read, early ≤ read ∧ read < late ∧ holds read) :
    ∃ read, start ≤ read ∧ read < now ∧ holds read := by
  rcases inside with ⟨read, after, earlier, held⟩
  exact
    ⟨read, Nat.le_trans since after, Nat.lt_of_lt_of_le earlier before,
      held⟩

/-- A chain that was stored at some moment of a scan. -/
def Seen
    (bucketPrefix : Option Text)
    (buckets : Nat → World)
    (start now : Nat)
    (refName : RefName)
    (chain : ChainManifest) : Prop :=
  ∃ read, start ≤ read ∧ read < now ∧
    (buckets read).chain? bucketPrefix refName = some chain

/-- A chain that could not be read at some moment of a scan. -/
def Unread
    (bucketPrefix : Option Text)
    (buckets : Nat → World)
    (faults : Nat → Option ObjectStoreError)
    (start now : Nat)
    (refName : RefName) : Prop :=
  ∃ read, start ≤ read ∧ read < now ∧
    ((faults read).isSome ∨
      (buckets read).chain? bucketPrefix refName = none)

theorem Seen.within
    {early late start now : Nat}
    (since : start ≤ early)
    (before : late ≤ now)
    {refName : RefName}
    {chain : ChainManifest}
    (seen : Seen bucketPrefix buckets early late refName chain) :
    Seen bucketPrefix buckets start now refName chain :=
  exists_moment_within since before seen

theorem Unread.within
    {early late start now : Nat}
    (since : start ≤ early)
    (before : late ≤ now)
    {refName : RefName}
    (unread : Unread bucketPrefix buckets faults early late refName) :
    Unread bucketPrefix buckets faults start now refName :=
  exists_moment_within since before unread

/-- What is read is what was there, unless the read failed. -/
theorem heard_cases (key : Text) (moment : Nat) :
    (atMoments buckets faults (.get key) moment).1 =
        (answer (.get key) (buckets moment)).1 ∨
      (faults moment).isSome := by
  unfold atMoments drifting
  cases faults moment with
  | none => exact Or.inl rfl
  | some error => exact Or.inr rfl

/-- A read that gives no chain is a reason to pass over a chain. -/
theorem unread_of_heard
    {refName : RefName}
    {start read : Nat}
    (since : start ≤ read)
    (failed :
      ∀ body,
        (atMoments buckets faults
            (.get (chainKey bucketPrefix refName)) read).1 = .ok body →
          ∀ chain, ChainManifest.fromJsonBytes body ≠ .ok chain) :
    Unread bucketPrefix buckets faults start (read + 1) refName := by
  refine ⟨read, since, Nat.lt_succ_self read, ?_⟩
  rcases
    @heard_cases _ buckets faults (chainKey bucketPrefix refName) read with
    same | broken
  · right
    rw [Option.eq_none_iff_forall_ne_some]
    intro chain stored
    have written := ((World.chain?_eq_some_iff _ _).1 stored)
    rcases Option.map_eq_some_iff.1 written.1 with ⟨object, found, body⟩
    apply failed object.body _ chain
    · rw [body]
      exact ChainManifest.fromJsonBytes_ok.2 ⟨rfl, written.2⟩
    · rw [same]
      simp only [answer, found]
  · exact Or.inl broken

/-- What a scan gets of a listed chain. -/
def GotChain
    (bucketPrefix : Option Text)
    (buckets : Nat → World)
    (entry : ObjectMeta)
    (value : Text × ChainManifest)
    (start now : Nat) : Prop :=
  ∃ refName : RefName,
    entry.key = chainKey bucketPrefix refName ∧
      value.1 = refName.text ∧
        Seen bucketPrefix buckets start now refName value.2

/-- Why a scan passes over a listed chain. -/
def LostChain
    (bucketPrefix : Option Text)
    (buckets : Nat → World)
    (faults : Nat → Option ObjectStoreError)
    (entry : ObjectMeta)
    (start now : Nat) : Prop :=
  ∀ refName : RefName,
    entry.key = chainKey bucketPrefix refName →
      Unread bucketPrefix buckets faults start now refName

/-- Every listed chain is read as it is at some moment, or passed over. -/
theorem safe_loadChains
    {ε : Type}
    (objects : List ObjectMeta)
    (start : Nat) :
    Safe (Contract.flowing Call) (atMoments buckets faults)
      (okOr False fun found now =>
        (∀ value ∈ found, ∃ refName : RefName,
          value.1 = refName.text ∧
            Seen bucketPrefix buckets start now refName value.2) ∧
        ∀ refName : RefName,
          (∃ entry ∈ objects,
            entry.key = chainKey bucketPrefix refName) →
          (∃ chain,
            Seen bucketPrefix buckets start now refName chain ∧
              (refName.text, chain) ∈ found) ∨
            Unread bucketPrefix buckets faults start now refName)
      (Doctor.loadChains bucketPrefix objects : Program ε _) start := by
  have parses (key : Text) (refPath : Text) :
      refPathFromChainKey (some (prefixText bucketPrefix)) key =
          some refPath ↔
        key = join bucketPrefix (refPath ++ lit "/chain.json") := by
    rw [refPathFromChainKey_eq_some, join_some_prefixText]
  have parsed (refName : RefName) (key : Text)
      (same : key = chainKey bucketPrefix refName) :
      refPathFromChainKey (some (prefixText bucketPrefix)) key =
        some refName.text :=
    (parses _ _).2 same
  unfold Doctor.loadChains
  refine
    Safe.weaken
      (safe_gather (GotChain bucketPrefix buckets)
        (LostChain bucketPrefix buckets faults) ?_ ?_ ?_ start)
      ?_
  · rintro entry value early late start now since before
      ⟨refName, key, text, seen⟩
    exact ⟨refName, key, text, seen.within since before⟩
  · intro entry early late start now since before lost refName key
    exact (lost refName key).within since before
  · intro found entry member moment
    split
    next none =>
        intro later _ _
        refine Or.inr ⟨rfl, fun refName key => ?_⟩
        rw [parsed refName entry.key key] at none
        cases none
    next refPath path =>
        split
        next invalid =>
            intro later _ _
            refine Or.inr ⟨rfl, fun refName key => ?_⟩
            rw [parsed refName entry.key key] at path
            cases path
            rw [Bool.not_eq_true', refName.valid] at invalid
            cases invalid
        next valid =>
            have valid : Platform.isValidRefName refPath = true := by
              simpa using valid
            have key :
                entry.key = chainKey bucketPrefix ⟨refPath, valid⟩ :=
              (parses _ _).1 path
            rw [key]
            apply safe_drifting_call
            intro read since
            have passed
                (failed :
                  ∀ body,
                    (atMoments buckets faults
                        (.get
                          (chainKey bucketPrefix ⟨refPath, valid⟩))
                        read).1 = .ok body →
                      ∀ chain,
                        ChainManifest.fromJsonBytes body ≠ .ok chain)
                {later : Nat}
                (after : read + 1 ≤ later) :
                LostChain bucketPrefix buckets faults entry moment
                  later := by
              intro other otherKey
              rw [key, chainKey_eq, chainKey_eq] at otherKey
              cases (Slot.key_inj _).1 otherKey
              exact
                (unread_of_heard since failed).within (Nat.le_refl _)
                  after
            cases heard :
                (atMoments buckets faults
                  (.get (chainKey bucketPrefix ⟨refPath, valid⟩))
                  read).1 with
            | error error =>
                intro later after _
                refine Or.inr ⟨rfl, passed ?_ after⟩
                intro body told
                rw [heard] at told
                cases told
            | ok body =>
                cases parse : ChainManifest.fromJsonBytes body with
                | error error =>
                    simp only [Prog.ofExcept, Prog.attempt, Prog.bind,
                      parse]
                    intro later after _
                    refine Or.inr ⟨rfl, passed ?_ after⟩
                    intro other told chain parsed
                    rw [heard] at told
                    cases told
                    rw [parse] at parsed
                    cases parsed
                | ok chain =>
                    simp only [Prog.ofExcept, Prog.attempt, Prog.bind,
                      parse]
                    intro later after _
                    refine
                      Or.inl
                        ⟨_, rfl, ⟨refPath, valid⟩, key, rfl, read, since,
                          after, ?_⟩
                    unfold World.chain?
                    rw [body?_of_heard heard]
                    simp only [parse]
                    rfl
  · rintro outcome now - holds
    cases outcome with
    | error error => exact holds
    | ok found =>
        refine ⟨?_, ?_⟩
        · intro value member
          rcases holds.1 value member with
            ⟨entry, -, refName, -, text, seen⟩
          exact ⟨refName, text, seen⟩
        · rintro refName ⟨entry, member, key⟩
          have chain : isChainJsonKey entry.key = true := by
            rw [key, chainKey_eq]
            exact isChainJsonKey_chain refName
          rcases
            holds.2 entry (List.mem_filter.2 ⟨member, chain⟩) with
            ⟨value, inside, other, otherKey, text, seen⟩ | lost
          · left
            rw [key] at otherKey
            rw [chainKey_eq, chainKey_eq] at otherKey
            cases (Slot.key_inj _).1 otherKey
            refine ⟨value.2, seen, ?_⟩
            rw [← text]
            exact inside
          · exact Or.inr (lost refName key)

/-- A tombstone that was stored at some moment of a scan. -/
def TombstoneSeen
    (buckets : Nat → World)
    (start now : Nat)
    (key : Text)
    (tombstone : Tombstone) : Prop :=
  ∃ read, start ≤ read ∧ read < now ∧
    ∃ body, (buckets read).body? key = some body ∧
      Tombstone.fromJsonBytes body = .ok tombstone

/-- A tombstone that could not be read at some moment of a scan. -/
def TombstoneUnread
    (buckets : Nat → World)
    (faults : Nat → Option ObjectStoreError)
    (start now : Nat)
    (key : Text) : Prop :=
  ∃ read, start ≤ read ∧ read < now ∧
    ((faults read).isSome ∨
      ∀ body, (buckets read).body? key = some body →
        ∀ tombstone, Tombstone.fromJsonBytes body ≠ .ok tombstone)

omit [Platform] in
theorem TombstoneSeen.within
    {early late start now : Nat}
    (since : start ≤ early)
    (before : late ≤ now)
    {key : Text}
    {tombstone : Tombstone}
    (seen : TombstoneSeen buckets early late key tombstone) :
    TombstoneSeen buckets start now key tombstone :=
  exists_moment_within since before seen

omit [Platform] in
theorem TombstoneUnread.within
    {early late start now : Nat}
    (since : start ≤ early)
    (before : late ≤ now)
    {key : Text}
    (unread : TombstoneUnread buckets faults early late key) :
    TombstoneUnread buckets faults start now key :=
  exists_moment_within since before unread

/-- A read that gives no tombstone is a reason to pass over it. -/
theorem tombstoneUnread_of_heard
    {key : Text}
    {start read now : Nat}
    (since : start ≤ read)
    (before : read < now)
    (failed :
      ∀ body,
        (atMoments buckets faults (.get key) read).1 = .ok body →
          ∀ tombstone, Tombstone.fromJsonBytes body ≠ .ok tombstone) :
    TombstoneUnread buckets faults start now key := by
  refine ⟨read, since, before, ?_⟩
  rcases @heard_cases _ buckets faults key read with same | broken
  · right
    intro body stored
    rcases Option.map_eq_some_iff.1 stored with ⟨object, found, rfl⟩
    apply failed
    rw [same]
    simp only [answer, found]
  · exact Or.inl broken

/-- A listing entry that is taken for a tombstone. -/
def isTombstoneEntry
    (bucketPrefix : Option Text)
    (key : Text) : Bool :=
  isTombstoneKey key (prefixText bucketPrefix) &&
    (lit ".json").isSuffixOf key

/-- Every listed tombstone is read as it is at some moment, or passed over. -/
theorem safe_loadTombstones
    {ε : Type}
    (objects : List ObjectMeta)
    (start : Nat) :
    Safe (Contract.flowing Call) (atMoments buckets faults)
      (okOr False fun found now =>
        (∀ value ∈ found, ∃ entry ∈ objects,
          isTombstoneEntry bucketPrefix entry.key = true ∧
            TombstoneSeen buckets start now entry.key value) ∧
        ∀ entry ∈ objects,
          isTombstoneEntry bucketPrefix entry.key = true →
            (∃ value ∈ found,
              TombstoneSeen buckets start now entry.key value) ∨
              TombstoneUnread buckets faults start now entry.key)
      (Doctor.loadTombstones bucketPrefix objects : Program ε _) start := by
  unfold Doctor.loadTombstones
  simp only [nowUtc, Prog.call_bind, Prog.done_bind]
  apply safe_drifting_call
  intro clocked since
  refine
    Safe.weaken
      (safe_gather
        (fun entry value early late =>
          TombstoneSeen buckets early late entry.key value)
        (fun entry early late =>
          TombstoneUnread buckets faults early late entry.key)
        ?_ ?_ ?_ (clocked + 1))
      ?_
  · intro entry value early late start now since before
    exact TombstoneSeen.within since before
  · intro entry early late start now since before
    exact TombstoneUnread.within since before
  · intro found entry member moment
    apply safe_drifting_call
    intro read since
    cases heard :
        (atMoments buckets faults (.get entry.key) read).1 with
    | error error =>
        intro later after _
        refine Or.inr ⟨rfl, tombstoneUnread_of_heard since after ?_⟩
        intro body told
        rw [heard] at told
        cases told
    | ok body =>
        cases parse : Tombstone.fromJsonBytes body with
        | error error =>
            simp only [Prog.ofExcept, Prog.attempt, Prog.bind, parse]
            intro later after _
            refine Or.inr ⟨rfl, tombstoneUnread_of_heard since after ?_⟩
            intro other told tombstone parsed
            rw [heard] at told
            cases told
            rw [parse] at parsed
            cases parsed
        | ok tombstone =>
            simp only [Prog.ofExcept, Prog.attempt, Prog.bind, parse]
            intro later after _
            refine Or.inl ⟨tombstone, rfl, read, since, after, body, ?_⟩
            exact ⟨body?_of_heard heard, parse⟩
  · rintro outcome now - holds
    cases outcome with
    | error error => exact holds
    | ok found =>
        have clocked : start ≤ clocked + 1 := Nat.le_succ_of_le since
        refine ⟨?_, ?_⟩
        · intro value member
          rcases holds.1 value member with ⟨entry, inside, seen⟩
          have both := List.mem_filter.1 inside
          exact
            ⟨entry, both.1, both.2, seen.within clocked (Nat.le_refl now)⟩
        · intro entry member isTombstone
          rcases
            holds.2 entry (List.mem_filter.2 ⟨member, isTombstone⟩) with
            ⟨value, inside, seen⟩ | unread
          · exact
              Or.inl
                ⟨value, inside, seen.within clocked (Nat.le_refl now)⟩
          · exact Or.inr (unread.within clocked (Nat.le_refl now))

/-- What an audit has found in the time it took. -/
structure Found
    (bucketPrefix : Option Text)
    (buckets : Nat → World)
    (faults : Nat → Option ObjectStoreError)
    (objects : List ObjectMeta)
    (start now : Nat)
    (found : List (Text × ChainManifest) × List Tombstone) : Prop where
  chains :
    ∀ value ∈ found.1, ∃ refName : RefName,
      value.1 = refName.text ∧
        Seen bucketPrefix buckets start now refName value.2
  everyChain :
    ∀ refName : RefName,
      (∃ entry ∈ objects, entry.key = chainKey bucketPrefix refName) →
      (∃ chain,
        Seen bucketPrefix buckets start now refName chain ∧
          (refName.text, chain) ∈ found.1) ∨
        Unread bucketPrefix buckets faults start now refName
  tombstones :
    ∀ value ∈ found.2, ∃ entry ∈ objects,
      isTombstoneEntry bucketPrefix entry.key = true ∧
        TombstoneSeen buckets start now entry.key value
  everyTombstone :
    ∀ entry ∈ objects,
      isTombstoneEntry bucketPrefix entry.key = true →
        (∃ value ∈ found.2,
          TombstoneSeen buckets start now entry.key value) ∨
          TombstoneUnread buckets faults start now entry.key

theorem safe_audit
    {ε : Type}
    (objects : List ObjectMeta)
    (start : Nat) :
    Safe (Contract.flowing Call) (atMoments buckets faults)
      (okOr False fun found now =>
        Found bucketPrefix buckets faults objects start now found)
      (Doctor.audit bucketPrefix objects : Program ε _) start := by
  unfold Doctor.audit
  apply (safe_loadChains objects start).since.bind
  · rintro chains middle - ⟨⟨sound, all⟩, since⟩
    apply (safe_loadTombstones objects middle).since.bind
    · rintro tombstones ended - ⟨⟨soundRecords, allRecords⟩, after⟩
      intro now later _
      have before : middle ≤ now := Nat.le_trans after later
      constructor
      case chains =>
          intro value member
          rcases sound value member with ⟨refName, text, seen⟩
          exact ⟨refName, text, seen.within (Nat.le_refl start) before⟩
      case everyChain =>
          intro refName listed
          rcases all refName listed with ⟨chain, seen, member⟩ | unread
          · left
            exact
              ⟨chain, seen.within (Nat.le_refl start) before, member⟩
          · exact Or.inr (unread.within (Nat.le_refl start) before)
      case tombstones =>
          intro value member
          rcases soundRecords value member with
            ⟨entry, inside, isTombstone, seen⟩
          exact ⟨entry, inside, isTombstone, seen.within since later⟩
      case everyTombstone =>
          intro entry member isTombstone
          rcases allRecords entry member isTombstone with
            ⟨value, inside, seen⟩ | unread
          · exact Or.inl ⟨value, inside, seen.within since later⟩
          · exact Or.inr (unread.within since later)
    · rintro error now - ⟨impossible, -⟩
      exact impossible
  · rintro error now - ⟨impossible, -⟩
    exact impossible

/-! ## Whole audits -/

/-- A reference whose manifest is in the listing. -/
def Listed
    (bucketPrefix : Option Text)
    (objects : List SizedMeta)
    (refName : RefName) : Prop :=
  ∃ entry ∈ objects, entry.key = chainKey bucketPrefix refName

/-- A report that takes account of a chain. -/
structure Reported
    (bucketPrefix : Option Text)
    (objects : List SizedMeta)
    (report : AuditReport)
    (orphans : Finset Sha40)
    (refName : RefName)
    (chain : ChainManifest) : Prop where
  branch : auditBranch refName.text chain ∈ report.branches
  dangling :
    ∀ segment ∈ chain.segments,
      Absent bucketPrefix objects segment.pack →
        ⟨refName.text, segment.pack⟩ ∈ report.dangling
  named : ∀ sha ∈ chain.packShas, sha ∉ orphans

/--
A report that says nothing but what was there when it was read, and leaves
nothing out that could be read.
-/
structure Truthful
    (bucketPrefix : Option Text)
    (buckets : Nat → World)
    (faults : Nat → Option ObjectStoreError)
    (objects : List SizedMeta)
    (start stop : Nat)
    (now : Int)
    (report : AuditReport)
    (orphans : Finset Sha40)
    (size : Sha40 → Nat) : Prop where
  branches :
    ∀ row ∈ report.branches, ∃ refName chain,
      Seen bucketPrefix buckets start stop refName chain ∧
        row = auditBranch refName.text chain
  dangling :
    ∀ row ∈ report.dangling, ∃ refName chain,
      Seen bucketPrefix buckets start stop refName chain ∧
        ∃ segment ∈ chain.segments,
          Absent bucketPrefix objects segment.pack ∧
            row = ⟨refName.text, segment.pack⟩
  packCount : report.orphans.packCount = orphans.card
  bytes : report.orphans.bytes = min (orphans.sum size) (2 ^ 64 - 1)
  sizes :
    ∀ sha ∈ orphans, ∃ entry ∈ objects,
      listedPack bucketPrefix entry.key = some sha ∧
        size sha = entry.size
  referenced :
    ∀ sha, PackListed bucketPrefix objects sha → sha ∉ orphans →
      ∃ refName chain,
        Seen bucketPrefix buckets start stop refName chain ∧
          sha ∈ chain.packShas
  everyChain :
    ∀ refName, Listed bucketPrefix objects refName →
      (∃ chain,
        Seen bucketPrefix buckets start stop refName chain ∧
          Reported bucketPrefix objects report orphans refName chain) ∨
        Unread bucketPrefix buckets faults start stop refName
  tombstones :
    ∀ row ∈ report.tombstones, ∃ entry ∈ objects,
      isTombstoneEntry bucketPrefix entry.key = true ∧
        ∃ tombstone,
          TombstoneSeen buckets start stop entry.key tombstone ∧
            row = tombstoneRow now tombstone
  everyTombstone :
    ∀ entry ∈ objects, isTombstoneEntry bucketPrefix entry.key = true →
      (∃ tombstone,
        TombstoneSeen buckets start stop entry.key tombstone ∧
          tombstoneRow now tombstone ∈ report.tombstones) ∨
        TombstoneUnread buckets faults start stop entry.key

omit [Platform] in
theorem mem_tombstones
    {objects : List SizedMeta}
    {now : Int}
    {found : List (Text × ChainManifest) × List Tombstone}
    {row : TombstoneRow} :
    row ∈ (auditReport bucketPrefix objects now found).tombstones ↔
      ∃ tombstone ∈ found.2, tombstoneRow now tombstone = row :=
  List.mem_map

/-- What is reported is what was found. -/
theorem Found.truthful
    {objects : List SizedMeta}
    {start stop : Nat}
    {found : List (Text × ChainManifest) × List Tombstone}
    (all :
      Found bucketPrefix buckets faults
        (objects.map SizedMeta.toObjectMeta) start stop found)
    (now : Int) :
    ∃ orphans size,
      Truthful bucketPrefix buckets faults objects start stop now
        (auditReport bucketPrefix objects now found) orphans size := by
  rcases @exists_counted bucketPrefix objects now found with
    ⟨orphans, size, counted⟩
  refine ⟨orphans, size, ?_⟩
  constructor
  case branches =>
      intro row member
      rcases mem_branches.1 member with ⟨refPath, chain, inside, rfl⟩
      rcases all.chains _ inside with ⟨refName, text, seen⟩
      exact ⟨refName, chain, seen, by rw [← text]⟩
  case dangling =>
      intro row member
      rcases mem_dangling.1 member with
        ⟨refPath, chain, inside, segment, part, absent, rfl⟩
      rcases all.chains _ inside with ⟨refName, text, seen⟩
      exact
        ⟨refName, chain, seen, segment, part, absent, by rw [← text]⟩
  case packCount => exact counted.packCount
  case bytes => exact counted.bytes
  case sizes => exact counted.sizes
  case referenced =>
      intro sha listed other
      by_contra unnamed
      apply other
      refine (counted.members sha).2 ⟨listed, ?_⟩
      rintro ⟨refPath, chain, inside, named⟩
      rcases all.chains _ inside with ⟨refName, -, seen⟩
      exact unnamed ⟨refName, chain, seen, named⟩
  case everyChain =>
      rintro refName ⟨entry, member, key⟩
      rcases
        all.everyChain refName ⟨_, List.mem_map_of_mem member, key⟩ with
        ⟨chain, seen, inside⟩ | unread
      · refine Or.inl ⟨chain, seen, ?_, ?_, ?_⟩
        · exact mem_branches.2 ⟨_, _, inside, rfl⟩
        · intro segment part absent
          exact
            mem_dangling.2 ⟨_, _, inside, segment, part, absent, rfl⟩
        · intro sha named orphan
          exact
            ((counted.members sha).1 orphan).2 ⟨_, _, inside, named⟩
      · exact Or.inr unread
  case tombstones =>
      intro row member
      rcases mem_tombstones.1 member with ⟨tombstone, inside, rfl⟩
      rcases all.tombstones _ inside with
        ⟨entry, listed, isTombstone, seen⟩
      rcases List.mem_map.1 listed with ⟨sized, member, rfl⟩
      exact ⟨sized, member, isTombstone, tombstone, seen, rfl⟩
  case everyTombstone =>
      intro entry member isTombstone
      rcases
        all.everyTombstone _ (List.mem_map_of_mem member) isTombstone with
        ⟨tombstone, inside, seen⟩ | unread
      · left
        exact
          ⟨tombstone, seen, mem_tombstones.2 ⟨tombstone, inside, rfl⟩⟩
      · exact Or.inr unread

/--
Whatever others do to the bucket in the meantime and whichever reads fail, an
audit ends with a report, and the report is truthful.
-/
theorem audit_truthful
    {ε : Type}
    (bucketPrefix : Option Text)
    (buckets : Nat → World)
    (faults : Nat → Option ObjectStoreError)
    (objects : List SizedMeta)
    (start : Nat)
    (now : Int) :
    ∃ found stop,
      Prog.run (atMoments buckets faults)
          (Doctor.audit bucketPrefix
              (objects.map SizedMeta.toObjectMeta) :
            Program ε _)
          start =
        (.ok found, stop) ∧
        ∃ orphans size,
          Truthful bucketPrefix buckets faults objects start stop now
            (auditReport bucketPrefix objects now found) orphans size := by
  have audited :=
    (@safe_audit _ bucketPrefix buckets faults ε
      (objects.map SizedMeta.toObjectMeta) start).run_drifting
  cases outcome :
      Prog.run (atMoments buckets faults)
        (Doctor.audit bucketPrefix (objects.map SizedMeta.toObjectMeta) :
          Program ε _)
        start with
  | mk result stop =>
      rw [outcome] at audited
      cases result with
      | error error => exact absurd audited id
      | ok found => exact ⟨found, stop, rfl, audited.truthful now⟩

end Scans

end GitRemoteObjectStore.Audit
