import Mathlib.Data.List.AList
import GitRemoteObjectStore.SlotKeys
import GitRemoteObjectStore.Library.CallProgram

/-!
# The object store

The bucket is a finite map from keys to objects.  Every operation of the
`ObjectStore` trait used by the modelled functions is one call; reading the
clock and drawing an identifier are calls too, since other clients may act in
between.  `answer` is the fault-free store.
-/

namespace GitRemoteObjectStore

open CallProgram

/-- A stored object. -/
structure Object where
  body : Body
  lastModified : Int

/-- The bucket, the clock and the number of identifiers drawn so far. -/
structure World where
  bucket : AList fun _ : Text => Object
  clock : Int
  drawn : Nat

namespace World

/-- A bucket with nothing in it. -/
def empty (clock : Int) : World :=
  ⟨∅, clock, 0⟩

def get? (world : World) (key : Text) : Option Object :=
  world.bucket.lookup key

/-- The body stored at a key. -/
def body? (world : World) (key : Text) : Option Body :=
  (world.get? key).map Object.body

/-- Write an object at the present time. -/
def put (world : World) (key : Text) (body : Body) : World :=
  { world with
    bucket := world.bucket.insert key ⟨body, world.clock⟩ }

def remove (world : World) (key : Text) : World :=
  { world with bucket := world.bucket.erase key }

/-- The keys beginning with `start`, in the backend's own order. -/
def listing (world : World) (start : Text) : List ObjectMeta :=
  (world.bucket.entries.filter fun entry => start.isPrefixOf entry.1).map
    fun entry => ⟨entry.1, entry.2.lastModified⟩

/-- The world in which `duration` more has passed. -/
def wait (world : World) (duration : Int) : World :=
  { world with clock := world.clock + duration }

section Lemmas

variable
    (world : World)
    (key : Text)
    (body : Body)

@[simp]
theorem get?_empty (clock : Int) : (empty clock).get? key = none :=
  AList.lookup_empty key

@[simp]
theorem body?_empty (clock : Int) : (empty clock).body? key = none := by
  simp [body?]

@[simp]
theorem get?_put_self :
    (world.put key body).get? key = some ⟨body, world.clock⟩ := by
  simp [get?, put]

theorem get?_put_ne
    {other : Text}
    (different : other ≠ key) :
    (world.put key body).get? other = world.get? other :=
  AList.lookup_insert_ne different

theorem get?_put (other : Text) :
    (world.put key body).get? other =
      if other = key then some ⟨body, world.clock⟩
      else world.get? other := by
  split
  next same =>
      subst same
      simp
  next different => exact get?_put_ne world key body different

@[simp]
theorem get?_remove_self : (world.remove key).get? key = none :=
  AList.lookup_erase key world.bucket

theorem get?_remove_ne
    {other : Text}
    (different : other ≠ key) :
    (world.remove key).get? other = world.get? other :=
  AList.lookup_erase_ne different

theorem get?_remove (other : Text) :
    (world.remove key).get? other =
      if other = key then none else world.get? other := by
  split
  next same =>
      subst same
      simp
  next different => exact get?_remove_ne world key different

theorem body?_put (other : Text) :
    (world.put key body).body? other =
      if other = key then some body else world.body? other := by
  unfold body?
  rw [get?_put]
  split <;> rfl

theorem body?_remove (other : Text) :
    (world.remove key).body? other =
      if other = key then none else world.body? other := by
  unfold body?
  rw [get?_remove]
  split <;> rfl

variable {world key body} in
theorem isSome_of_body?
    (stored : world.body? key = some body) :
    (world.get? key).isSome := by
  rcases Option.map_eq_some_iff.1 stored with ⟨object, found, -⟩
  rw [found, Option.isSome_some]

@[simp]
theorem clock_put : (world.put key body).clock = world.clock := rfl

@[simp]
theorem clock_remove : (world.remove key).clock = world.clock := rfl

@[simp]
theorem drawn_put : (world.put key body).drawn = world.drawn := rfl

@[simp]
theorem drawn_remove : (world.remove key).drawn = world.drawn := rfl

@[simp]
theorem get?_wait (duration : Int) :
    (world.wait duration).get? key = world.get? key := rfl

@[simp]
theorem body?_wait (duration : Int) :
    (world.wait duration).body? key = world.body? key := rfl

@[simp]
theorem drawn_wait (duration : Int) :
    (world.wait duration).drawn = world.drawn := rfl

variable {world key}

theorem mem_listing {start : Text} {entry : ObjectMeta} :
    entry ∈ world.listing start ↔
      start <+: entry.key ∧
        ∃ object,
          world.get? entry.key = some object ∧
            object.lastModified = entry.lastModified := by
  simp only [listing, List.mem_map, List.mem_filter,
    List.isPrefixOf_iff_prefix]
  constructor
  · rintro ⟨⟨key, object⟩, ⟨member, begins⟩, rfl⟩
    exact ⟨begins, object, AList.mem_lookup_iff.2 member, rfl⟩
  · rintro ⟨begins, object, found, modified⟩
    refine ⟨⟨entry.key, object⟩,
      ⟨AList.mem_lookup_iff.1 found, begins⟩, ?_⟩
    simp [modified]

/-- A listing names exactly the present keys with that beginning. -/
theorem exists_mem_listing {start : Text} :
    (∃ entry ∈ world.listing start, entry.key = key) ↔
      start <+: key ∧ (world.get? key).isSome := by
  constructor
  · rintro ⟨entry, member, rfl⟩
    rcases mem_listing.1 member with ⟨begins, object, found, -⟩
    exact ⟨begins, by simp [found]⟩
  · rintro ⟨begins, present⟩
    rcases Option.isSome_iff_exists.1 present with ⟨object, found⟩
    exact ⟨⟨key, object.lastModified⟩,
      mem_listing.2 ⟨begins, object, found, rfl⟩, rfl⟩

theorem listing_keys_nodup (start : Text) :
    ((world.listing start).map ObjectMeta.key).Nodup := by
  unfold listing
  rw [List.map_map]
  have keys :
      (ObjectMeta.key ∘ fun entry : (_ : Text) × Object =>
        (⟨entry.1, entry.2.lastModified⟩ : ObjectMeta)) = Sigma.fst :=
    rfl
  rw [keys]
  exact
    (List.filter_sublist.map Sigma.fst).nodup world.bucket.nodupKeys

end Lemmas

end World

/-! ## Calls -/

/-- One operation of the store, the clock or the identifier source. -/
inductive Call where
  | list (start : Text)
  | get (key : Text)
  | head (key : Text)
  | put (key : Text) (body : Body)
  | putIfAbsent (key : Text) (body : Body)
  | delete (key : Text)
  | nowUtc
  | newUuid

/-- What a call is answered with. -/
@[reducible]
def Reply : Call → Type
  | .list _ => Except ObjectStoreError (List ObjectMeta)
  | .get _ => Except ObjectStoreError Body
  | .head _ => Except ObjectStoreError ObjectMeta
  | .put _ _ => Except ObjectStoreError Unit
  | .putIfAbsent _ _ => Except ObjectStoreError Bool
  | .delete _ => Except ObjectStoreError Unit
  | .nowUtc => Int
  | .newUuid => Component

variable [Platform]

/-- The store answering a call without fault. -/
def answer : Prog.Handler Call Reply World
  | .list start, world => (.ok (world.listing start), world)
  | .get key, world =>
      match world.get? key with
      | some object => (.ok object.body, world)
      | none => (.error (.notFound key), world)
  | .head key, world =>
      match world.get? key with
      | some object => (.ok ⟨key, object.lastModified⟩, world)
      | none => (.error (.notFound key), world)
  | .put key body, world => (.ok (), world.put key body)
  | .putIfAbsent key body, world =>
      match world.get? key with
      | some _ => (.ok false, world)
      | none => (.ok true, world.put key body)
  | .delete key, world =>
      match world.get? key with
      | some _ => (.ok (), world.remove key)
      | none => (.error (.notFound key), world)
  | .nowUtc, world => (world.clock, world)
  | .newUuid, world =>
      (Platform.uuid world.drawn, { world with drawn := world.drawn + 1 })

/-- A failed operation; the clock and the identifier source do not fail. -/
def failed (error : ObjectStoreError) :
    (request : Call) → Option (Reply request)
  | .list _ => some (.error error)
  | .get _ => some (.error error)
  | .head _ => some (.error error)
  | .put _ _ => some (.error error)
  | .putIfAbsent _ _ => some (.error error)
  | .delete _ => some (.error error)
  | .nowUtc => none
  | .newUuid => none

/-- A program of the repository. -/
abbrev Program (ε α : Type) : Type :=
  Prog Call Reply ε α

namespace Store

/-- `store.list` -/
def list (start : Text) : Program ObjectStoreError (List ObjectMeta) :=
  .call (.list start) Prog.ofExcept

/-- `store.get_bytes` -/
def getBytes (key : Text) : Program ObjectStoreError Body :=
  .call (.get key) Prog.ofExcept

/-- `store.get_to_file`, with the file's content. -/
def getToFile (key : Text) : Program ObjectStoreError Body :=
  .call (.get key) Prog.ofExcept

/-- `store.head` -/
def head (key : Text) : Program ObjectStoreError ObjectMeta :=
  .call (.head key) Prog.ofExcept

/-- `store.put_bytes` -/
def putBytes (key : Text) (body : Body) : Program ObjectStoreError Unit :=
  .call (.put key body) Prog.ofExcept

/-- `store.put_path`, with the file's content. -/
def putPath
    (key : Text) (content : List UInt8) : Program ObjectStoreError Unit :=
  .call (.put key (.file content)) Prog.ofExcept

/-- `store.put_if_absent` -/
def putIfAbsent
    (key : Text) (body : Body) : Program ObjectStoreError Bool :=
  .call (.putIfAbsent key body) Prog.ofExcept

/-- `store.delete` -/
def delete (key : Text) : Program ObjectStoreError Unit :=
  .call (.delete key) Prog.ofExcept

end Store

/-- `OffsetDateTime::now_utc` -/
def nowUtc {ε : Type} : Program ε Int :=
  .call .nowUtc .done

/-- `Uuid::new_v4` -/
def newUuid {ε : Type} : Program ε Component :=
  .call .newUuid .done

/-- A missing key counts as deleted. -/
def deleteIdempotent (key : Text) : Program ObjectStoreError Unit := do
  match ← (Store.delete key).attempt with
  | .ok () => return ()
  | .error (.notFound _) => return ()
  | .error error => .fail error

/-! ## What the operations do -/

open Prog

variable (world : World) (key : Text) (body : Body)

namespace World

omit [Platform] in
theorem remove_of_absent (absent : world.get? key = none) :
    world.remove key = world := by
  have outside : key ∉ world.bucket.keys := by
    rw [← AList.mem_keys, ← AList.lookup_eq_none]
    exact absent
  have same : world.bucket.erase key = world.bucket :=
    AList.ext (List.kerase_of_notMem_keys outside)
  unfold remove
  rw [same]

end World

namespace Store

@[simp]
theorem run_list (start : Text) :
    run answer (list start) world = (.ok (world.listing start), world) :=
  rfl

section Lookup

variable {world key body}

theorem run_getBytes_present
    {object : Object}
    (found : world.get? key = some object) :
    run answer (getBytes key) world = (.ok object.body, world) := by
  simp [getBytes, answer, found]

theorem run_getBytes_absent (missing : world.get? key = none) :
    run answer (getBytes key) world =
      (.error (.notFound key), world) := by
  simp [getBytes, answer, missing]

theorem run_head_present
    {object : Object}
    (found : world.get? key = some object) :
    run answer (head key) world =
      (.ok ⟨key, object.lastModified⟩, world) := by
  simp [head, answer, found]

theorem run_head_absent (missing : world.get? key = none) :
    run answer (head key) world = (.error (.notFound key), world) := by
  simp [head, answer, missing]

theorem run_putIfAbsent_present
    {object : Object}
    (found : world.get? key = some object) :
    run answer (putIfAbsent key body) world = (.ok false, world) := by
  simp [putIfAbsent, answer, found]

theorem run_putIfAbsent_absent (missing : world.get? key = none) :
    run answer (putIfAbsent key body) world =
      (.ok true, world.put key body) := by
  simp [putIfAbsent, answer, missing]

end Lookup

@[simp]
theorem run_putBytes :
    run answer (putBytes key body) world = (.ok (), world.put key body) :=
  rfl

@[simp]
theorem run_putPath (content : List UInt8) :
    run answer (putPath key content) world =
      (.ok (), world.put key (.file content)) :=
  rfl

end Store

@[simp]
theorem run_nowUtc {ε : Type} :
    run answer (nowUtc : Program ε Int) world =
      (.ok world.clock, world) :=
  rfl

@[simp]
theorem run_newUuid {ε : Type} :
    run answer (newUuid : Program ε Component) world =
      (.ok (Platform.uuid world.drawn),
        { world with drawn := world.drawn + 1 }) :=
  rfl

@[simp]
theorem run_deleteIdempotent :
    run answer (deleteIdempotent key) world =
      (.ok (), world.remove key) := by
  simp only [deleteIdempotent, Store.delete, attempt_call, call_bind,
    run_call, answer]
  cases found : world.get? key with
  | some object => rfl
  | none =>
      rw [world.remove_of_absent key found]
      rfl

end GitRemoteObjectStore
