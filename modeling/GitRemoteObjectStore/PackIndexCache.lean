import GitRemoteObjectStore.Read
import GitRemoteObjectStore.Library.BoundedLru

/-!
# The cache of pack indexes

A map of parsed indexes, a queue of their keys with the least recently used
in front, and a count of the bytes they take.  The three fields stand for a
byte-bounded LRU cache.
-/

namespace GitRemoteObjectStore.Read

open BoundedLru

/-- A prefix and the name of a pack. -/
structure CacheKey where
  bucketPrefix : Text
  contentSha : Sha40
deriving DecidableEq

/-- A cached index and the bytes it is accounted for. -/
structure ResidentIndex extends CachedIndex where
  bytes : UInt64

structure CacheInner where
  map : AList fun _ : CacheKey => ResidentIndex
  order : List CacheKey
  totalBytes : UInt64

structure PackIndexCache where
  capacityBytes : UInt64
  inner : CacheInner

/-- Remove the first occurrence. -/
def removeFromOrder (order : List CacheKey) (key : CacheKey) :
    List CacheKey :=
  order.erase key

/-- The loop that evicts the oldest entries. -/
def evictOldest
    (capacityBytes bytes : UInt64)
    (map : AList fun _ : CacheKey => ResidentIndex)
    (totalBytes : UInt64) : List CacheKey → CacheInner
  | [] => ⟨map, [], totalBytes⟩
  | oldest :: order =>
      if totalBytes + bytes > capacityBytes then
        match map.lookup oldest with
        | some removed =>
            evictOldest capacityBytes bytes (map.erase oldest)
              (saturatingSub totalBytes removed.bytes) order
        | none => evictOldest capacityBytes bytes map totalBytes order
      else ⟨map, oldest :: order, totalBytes⟩

namespace PackIndexCache

def new (capacityBytes : UInt64) : PackIndexCache where
  capacityBytes := capacityBytes
  inner := ⟨∅, [], 0⟩

def get (cache : PackIndexCache) (key : CacheKey) :
    Option ResidentIndex × PackIndexCache :=
  match cache.inner.map.lookup key with
  | none => (none, cache)
  | some entry =>
      (some entry,
        { cache with
          inner :=
            { cache.inner with
              order := removeFromOrder cache.inner.order key ++ [key] } })

/-- The cache without the entry an insertion replaces. -/
def withoutPrevious (inner : CacheInner) (key : CacheKey) : CacheInner :=
  match inner.map.lookup key with
  | none => inner
  | some previous =>
      { map := inner.map.erase key
        order := removeFromOrder inner.order key
        totalBytes := saturatingSub inner.totalBytes previous.bytes }

def insert
    (cache : PackIndexCache)
    (key : CacheKey)
    (value : ResidentIndex) : PackIndexCache :=
  let others := withoutPrevious cache.inner key
  if value.bytes > cache.capacityBytes then { cache with inner := others }
  else
    let kept :=
      evictOldest cache.capacityBytes value.bytes others.map
        others.totalBytes others.order
    { cache with
      inner :=
        { map := kept.map.insert key value
          order := kept.order ++ [key]
          totalBytes := kept.totalBytes + value.bytes } }

/-! ## Calls -/

/-- A call of the cache's two operations. -/
inductive CacheCall where
  | get (key : CacheKey)
  | insert (key : CacheKey) (value : ResidentIndex)

/-- The bytes a call brings along. -/
def CacheCall.brings : CacheCall → Nat
  | .get _ => 0
  | .insert _ value => value.bytes.toNat

/-- One call and its reply; an insertion has none. -/
def call (cache : PackIndexCache) :
    CacheCall → Option ResidentIndex × PackIndexCache
  | .get key => cache.get key
  | .insert key value => (none, cache.insert key value)

/-- The replies to calls one after the other, and the cache afterwards. -/
def calls (cache : PackIndexCache) :
    List CacheCall → List (Option ResidentIndex) × PackIndexCache
  | [] => ([], cache)
  | first :: rest =>
      let replied := cache.call first
      let others := replied.2.calls rest
      (replied.1 :: others.1, others.2)

/-! ## The reference cache -/

abbrev Reference := Entries CacheKey ResidentIndex

/-- How much of the capacity an index takes. -/
def sizeOf (index : ResidentIndex) : Nat := index.bytes.toNat

/-- One call of a byte-bounded LRU cache. -/
def referenceCall (capacity : Nat) (entries : Reference) :
    CacheCall → Option ResidentIndex × Reference
  | .get key => BoundedLru.get key entries
  | .insert key value =>
      (none, BoundedLru.insert sizeOf capacity key value entries)

def referenceCalls (capacity : Nat) (entries : Reference) :
    List CacheCall → List (Option ResidentIndex) × Reference
  | [] => ([], entries)
  | first :: rest =>
      let replied := referenceCall capacity entries first
      let others := referenceCalls capacity replied.2 rest
      (replied.1 :: others.1, others.2)

/-- The bytes all calls bring along. -/
def brought (run : List CacheCall) : Nat := (run.map CacheCall.brings).sum

/-- The entries in order of recency. -/
def contents (inner : CacheInner) : Reference :=
  inner.order.filterMap fun key =>
    (inner.map.lookup key).map fun value => ⟨key, value⟩

/-! ## The fields stand for the reference -/

/-- What the three fields of a cache say about the entries it stands for. -/
structure Represents
    (capacity : Nat)
    (inner : CacheInner)
    (entries : Reference) : Prop where
  map : inner.map.entries.Perm entries
  order : inner.order = entries.keys
  total : inner.totalBytes.toNat = weight sizeOf entries
  within : weight sizeOf entries ≤ capacity

theorem toNat_saturatingSub (left right : UInt64) :
    (saturatingSub left right).toNat = left.toNat - right.toNat := by
  rw [saturatingSub]
  split
  next small =>
      rw [UInt64.lt_iff_toNat_lt] at small
      rw [UInt64.toNat_zero]
      omega
  next ordered =>
      exact UInt64.toNat_sub_of_le _ _ (UInt64.not_lt.1 ordered)

namespace Represents

variable
    {capacity : Nat}
    {inner : CacheInner}
    {entries : Reference}
    {key : CacheKey}

theorem start : Represents capacity ⟨∅, [], 0⟩ [] where
  map := List.Perm.nil
  order := rfl
  total := rfl
  within := Nat.zero_le capacity

theorem nodupKeys (represents : Represents capacity inner entries) :
    entries.NodupKeys :=
  (List.perm_nodupKeys represents.map).1 inner.map.nodupKeys

theorem lookup (represents : Represents capacity inner entries) :
    inner.map.lookup key = entries.dlookup key :=
  List.perm_dlookup key inner.map.nodupKeys represents.map

theorem contents (represents : Represents capacity inner entries) :
    contents inner = entries := by
  have found :
      ∀ entry ∈ entries,
        (inner.map.lookup entry.1).map
            (fun value => (⟨entry.1, value⟩ :
              Sigma fun _ : CacheKey => ResidentIndex)) =
          some entry := by
    intro entry member
    rw [represents.lookup]
    rw [List.mem_dlookup represents.nodupKeys member]
    rfl
  rw [PackIndexCache.contents, represents.order, List.keys,
    List.filterMap_map]
  calc
    entries.filterMap _ = entries.filterMap some :=
      List.filterMap_congr found
    _ = entries := List.filterMap_some

theorem withoutPrevious
    (represents : Represents capacity inner entries) :
    Represents capacity (withoutPrevious inner key)
      (entries.kerase key) := by
  rw [PackIndexCache.withoutPrevious]
  split
  next absent =>
      rw [represents.lookup, List.dlookup_eq_none] at absent
      rw [List.kerase_of_notMem_keys absent]
      exact represents
  next previous found =>
      rw [represents.lookup] at found
      have taken := weight_kerase sizeOf found
      constructor
      case map => exact represents.map.kerase inner.map.nodupKeys
      case order =>
          rw [List.keys_kerase, ← represents.order]
          rfl
      case total =>
          rw [toNat_saturatingSub, represents.total, ← taken]
          exact Nat.add_sub_cancel _ _
      case within =>
          exact (weight_kerase_le sizeOf _ _).trans represents.within

/-- The eviction loop drops what the reference drops. -/
theorem evictOldest
    {capacityBytes bytes : UInt64}
    (represents : Represents capacityBytes.toNat inner entries)
    (bounded : weight sizeOf entries + bytes.toNat < 2 ^ 64) :
    Represents capacityBytes.toNat
      (evictOldest capacityBytes bytes inner.map inner.totalBytes
        inner.order)
      (makeRoom sizeOf capacityBytes.toNat bytes.toNat entries) := by
  induction entries generalizing inner with
  | nil =>
      rw [represents.order]
      exact ⟨represents.map, rfl, represents.total, represents.within⟩
  | cons oldest newer hypothesis =>
      rcases oldest with ⟨key, value⟩
      rw [represents.order, List.keys_cons, Read.evictOldest, makeRoom]
      have sum :
          (inner.totalBytes + bytes).toNat =
            weight sizeOf (⟨key, value⟩ :: newer) + bytes.toNat := by
        rw [UInt64.toNat_add, represents.total,
          Nat.mod_eq_of_lt bounded]
      by_cases heavy : inner.totalBytes + bytes > capacityBytes
      · have crowded :
            ¬ weight sizeOf (⟨key, value⟩ :: newer) + bytes.toNat ≤
              capacityBytes.toNat := by
          rw [← sum]
          exact Nat.not_le.2 (UInt64.lt_iff_toNat_lt.1 heavy)
        have found : inner.map.lookup key = some value := by
          rw [represents.lookup]
          exact List.dlookup_cons_eq newer key value
        have rest : Represents capacityBytes.toNat
            ⟨inner.map.erase key, newer.keys,
              saturatingSub inner.totalBytes value.bytes⟩ newer := by
          constructor
          case map =>
              have erased :
                  (inner.map.entries.kerase key).Perm
                    (List.kerase key (⟨key, value⟩ :: newer)) :=
                represents.map.kerase inner.map.nodupKeys
              have head : List.kerase key (⟨key, value⟩ :: newer) = newer :=
                List.kerase_cons_eq rfl
              rw [head] at erased
              exact erased
          case order => rfl
          case total =>
              rw [toNat_saturatingSub, represents.total, weight_cons]
              exact Nat.add_sub_cancel_left _ _
          case within =>
              have within := represents.within
              rw [weight_cons] at within
              omega
        rw [weight_cons] at bounded
        rw [if_pos heavy, if_neg crowded, found]
        exact hypothesis rest (by omega)
      · have fits :
            weight sizeOf (⟨key, value⟩ :: newer) + bytes.toNat ≤
              capacityBytes.toNat := by
          rw [← sum]
          exact Nat.not_lt.1 (mt UInt64.lt_iff_toNat_lt.2 heavy)
        rw [if_neg heavy, if_pos fits]
        exact
          ⟨represents.map, rfl, represents.total, represents.within⟩

/-- A new entry that fits is put at the end. -/
theorem append
    {capacityBytes : UInt64}
    {value : ResidentIndex}
    (represents : Represents capacityBytes.toNat inner entries)
    (absent : key ∉ entries.keys)
    (fits : weight sizeOf entries + sizeOf value ≤ capacityBytes.toNat) :
    Represents capacityBytes.toNat
      { map := inner.map.insert key value
        order := inner.order ++ [key]
        totalBytes := inner.totalBytes + value.bytes }
      (entries ++ [⟨key, value⟩]) where
  map := by
    have missing : key ∉ inner.map.keys := by
      rw [← AList.mem_keys, ← AList.lookup_eq_none, represents.lookup]
      exact List.dlookup_eq_none.2 absent
    rw [AList.entries_insert_of_notMem missing]
    exact
      (represents.map.cons _).trans
        (List.perm_append_singleton _ entries).symm
  order := by
    rw [List.keys_append, ← represents.order]
    rfl
  total := by
    have small := capacityBytes.toNat_lt
    have whole : inner.totalBytes.toNat + value.bytes.toNat < 2 ^ 64 := by
      rw [represents.total]
      exact Nat.lt_of_le_of_lt fits small
    rw [UInt64.toNat_add, Nat.mod_eq_of_lt whole, represents.total,
      weight_append, weight_cons, weight_nil, Nat.add_zero, sizeOf]
  within := by
    rw [weight_append, weight_cons, weight_nil, Nat.add_zero]
    exact fits

end Represents

section Calls

variable
    {cache : PackIndexCache}
    {entries : Reference}
    {key : CacheKey}
    (represents :
      Represents cache.capacityBytes.toNat cache.inner entries)

include represents

/-- An insertion inserts into the reference. -/
theorem represents_insert
    {value : ResidentIndex}
    (bounded : weight sizeOf entries + sizeOf value < 2 ^ 64) :
    Represents cache.capacityBytes.toNat (cache.insert key value).inner
      (BoundedLru.insert sizeOf cache.capacityBytes.toNat key value
        entries) := by
  have others :
      Represents cache.capacityBytes.toNat
        (withoutPrevious cache.inner key) (entries.kerase key) :=
    represents.withoutPrevious
  have lighter := weight_kerase_le sizeOf key entries
  rw [PackIndexCache.insert, BoundedLru.insert]
  by_cases large : value.bytes > cache.capacityBytes
  · have heavy : cache.capacityBytes.toNat < sizeOf value :=
      UInt64.lt_iff_toNat_lt.1 large
    simp only [if_pos large, if_pos heavy]
    exact others
  · have small : sizeOf value ≤ cache.capacityBytes.toNat :=
      Nat.not_lt.1 (mt UInt64.lt_iff_toNat_lt.2 large)
    simp only [if_neg large, if_neg (Nat.not_lt.2 small)]
    have absent :
        key ∉ List.keys
          (makeRoom sizeOf cache.capacityBytes.toNat (sizeOf value)
            (entries.kerase key)) := by
      intro member
      exact
        List.notMem_keys_kerase key represents.nodupKeys
          (((makeRoom_suffix _ _).sublist.map Sigma.fst).subset member)
    exact
      (others.evictOldest
        (Nat.lt_of_le_of_lt (Nat.add_le_add_right lighter _)
          bounded)).append absent (makeRoom_fits small _)

/-- A lookup finds what the reference finds, and makes it recent. -/
theorem represents_get :
    (cache.get key).1 = (BoundedLru.get key entries).1 ∧
      Represents cache.capacityBytes.toNat (cache.get key).2.inner
        (BoundedLru.get key entries).2 := by
  rw [PackIndexCache.get, BoundedLru.get, represents.lookup]
  cases found : entries.dlookup key with
  | none => exact ⟨rfl, represents⟩
  | some value =>
      have taken := weight_kerase sizeOf found
      refine ⟨rfl, ?_, ?_, ?_, ?_⟩
      case refine_1 =>
          exact
            represents.map.trans
              ((perm_cons_kerase found).symm.trans
                (List.perm_append_singleton _ _).symm)
      case refine_2 =>
          rw [List.keys_append, List.keys_kerase, ← represents.order]
          rfl
      case refine_3 =>
          rw [weight_append, weight_cons, weight_nil, Nat.add_zero, taken]
          exact represents.total
      case refine_4 =>
          rw [weight_append, weight_cons, weight_nil, Nat.add_zero, taken]
          exact represents.within

/-- A call replies what the reference replies. -/
theorem represents_call
    (next : CacheCall)
    (bounded : weight sizeOf entries + next.brings < 2 ^ 64) :
    (cache.call next).1 =
        (referenceCall cache.capacityBytes.toNat entries next).1 ∧
      Represents cache.capacityBytes.toNat (cache.call next).2.inner
        (referenceCall cache.capacityBytes.toNat entries next).2 := by
  cases next with
  | get key => exact represents_get represents
  | insert key value => exact ⟨rfl, represents_insert represents bounded⟩

end Calls

theorem capacityBytes_call (cache : PackIndexCache) (next : CacheCall) :
    (cache.call next).2.capacityBytes = cache.capacityBytes := by
  cases next with
  | get key =>
      rw [call, get]
      split
      · rfl
      · rfl
  | insert key value =>
      rw [call, insert]
      dsimp only
      split
      · rfl
      · rfl

theorem weight_referenceCall_le
    (capacity : Nat)
    (entries : Reference)
    (next : CacheCall) :
    weight sizeOf (referenceCall capacity entries next).2 ≤
      weight sizeOf entries + next.brings := by
  cases next with
  | get key => exact (weight_get sizeOf key entries).le
  | insert key value => exact weight_insert_le sizeOf capacity _ _ _

/-! ## Runs -/

theorem brought_cons (first : CacheCall) (rest : List CacheCall) :
    brought (first :: rest) = first.brings + brought rest := by
  simp [brought]

theorem represents_calls
    {cache : PackIndexCache}
    {entries : Reference}
    {run : List CacheCall}
    (represents :
      Represents cache.capacityBytes.toNat cache.inner entries)
    (bounded : weight sizeOf entries + brought run < 2 ^ 64) :
    (cache.calls run).1 =
        (referenceCalls cache.capacityBytes.toNat entries run).1 ∧
      Represents cache.capacityBytes.toNat (cache.calls run).2.inner
        (referenceCalls cache.capacityBytes.toNat entries run).2 := by
  induction run generalizing cache entries with
  | nil => exact ⟨rfl, represents⟩
  | cons first rest hypothesis =>
      rw [brought_cons] at bounded
      have stepped := represents_call represents first (by omega)
      have lighter :=
        weight_referenceCall_le cache.capacityBytes.toNat entries first
      rw [← capacityBytes_call cache first] at stepped lighter
      have others := hypothesis stepped.2 (by omega)
      rw [calls, referenceCalls, ← capacityBytes_call cache first]
      exact ⟨congrArg₂ _ stepped.1 others.1, others.2⟩

theorem capacityBytes_calls (cache : PackIndexCache)
    (run : List CacheCall) :
    (cache.calls run).2.capacityBytes = cache.capacityBytes := by
  induction run generalizing cache with
  | nil => rfl
  | cons first rest hypothesis =>
      exact (hypothesis _).trans (capacityBytes_call cache first)

theorem referenceCalls_append
    (capacity : Nat)
    (entries : Reference)
    (left right : List CacheCall) :
    (referenceCalls capacity entries (left ++ right)).2 =
      (referenceCalls capacity (referenceCalls capacity entries left).2
        right).2 := by
  induction left generalizing entries with
  | nil => rfl
  | cons first rest hypothesis => exact hypothesis _

/-- The three fields are in step. -/
structure Consistent (cache : PackIndexCache) : Prop where
  nodup : cache.inner.order.Nodup
  keys : cache.inner.order.Perm cache.inner.map.keys
  total : cache.inner.totalBytes.toNat =
    weight sizeOf cache.inner.map.entries
  within : cache.inner.totalBytes ≤ cache.capacityBytes

theorem Represents.consistent
    {cache : PackIndexCache}
    {entries : Reference}
    (represents :
      Represents cache.capacityBytes.toNat cache.inner entries) :
    cache.Consistent where
  nodup := by
    rw [represents.order]
    exact represents.nodupKeys
  keys := by
    rw [represents.order]
    exact (represents.map.map Sigma.fst).symm
  total := by
    rw [represents.total]
    exact (weight_perm sizeOf represents.map).symm
  within := by
    rw [UInt64.le_iff_toNat_le, represents.total]
    exact represents.within

/-- A new cache after some calls. -/
def after (capacityBytes : UInt64) (run : List CacheCall) :
    PackIndexCache :=
  ((new capacityBytes).calls run).2

/-- The cache is an LRU cache bounded in bytes. -/
theorem calls_lru
    (capacityBytes : UInt64)
    (run : List CacheCall)
    (bounded : brought run < 2 ^ 64) :
    (after capacityBytes run).Consistent ∧
      ((new capacityBytes).calls run).1 =
        (referenceCalls capacityBytes.toNat [] run).1 ∧
      contents (after capacityBytes run).inner =
        (referenceCalls capacityBytes.toNat [] run).2 ∧
      ∀ earlier key value later,
        run = earlier ++ .insert key value :: later →
        Inserts sizeOf capacityBytes.toNat key value
          (contents (after capacityBytes earlier).inner)
          (contents
            (after capacityBytes
              (earlier ++ [.insert key value])).inner) := by
  have represented :
      ∀ part, brought part < 2 ^ 64 →
        ((new capacityBytes).calls part).1 =
            (referenceCalls capacityBytes.toNat [] part).1 ∧
          Represents capacityBytes.toNat (after capacityBytes part).inner
            (referenceCalls capacityBytes.toNat [] part).2 := by
    intro part light
    have started :
        Represents (new capacityBytes).capacityBytes.toNat
          (new capacityBytes).inner [] :=
      Represents.start
    apply represents_calls started
    rw [weight_nil, Nat.zero_add]
    exact light
  have whole := represented run bounded
  refine ⟨?_, whole.1, whole.2.contents, ?_⟩
  · apply Represents.consistent
    rw [after, capacityBytes_calls]
    exact whole.2
  · intro earlier key value later split
    have sum :
        brought run = brought earlier + (sizeOf value + brought later) := by
      rw [split]
      simp [brought, CacheCall.brings, sizeOf]
    have next :
        brought (earlier ++ [.insert key value]) =
          brought earlier + sizeOf value := by
      simp [brought, CacheCall.brings, sizeOf]
    have before := represented earlier (by omega)
    have inserted :=
      represented (earlier ++ [.insert key value]) (by omega)
    rw [before.2.contents, inserted.2.contents, referenceCalls_append]
    exact insert_inserts sizeOf capacityBytes.toNat key value _

/-! ## A full cache -/

/-- The pack named by a digit under the empty prefix. -/
def digitKey
    (digit : Char)
    (hex : isLowerHex digit = true) : CacheKey :=
  ⟨[], digitSha digit hex⟩

/-- An index of no objects that is accounted for as told. -/
def emptyIndex (bytes : UInt64) : ResidentIndex where
  file := ⟨fun _ => none, fun _ => 0, []⟩
  sortedOffsets := []
  bytes := bytes

/-- The second entry is evicted, the first replaced by one too large. -/
def fullCacheCalls : List CacheCall :=
  [.insert (digitKey 'a' hex_a) (emptyIndex 1000),
    .insert (digitKey 'b' hex_b) (emptyIndex 1000),
    .get (digitKey 'a' hex_a),
    .insert (digitKey 'c' hex_c) (emptyIndex 1500),
    .insert (digitKey 'a' hex_a) (emptyIndex 4000)]

theorem calls_lru_fullCache :
    (after 3000 fullCacheCalls).Consistent ∧
      (contents (after 3000 fullCacheCalls).inner).keys =
        [digitKey 'c' hex_c] := by
  have result := calls_lru 3000 fullCacheCalls (by decide)
  refine ⟨result.1, ?_⟩
  rw [result.2.2.1]
  decide +kernel

end PackIndexCache

end GitRemoteObjectStore.Read
