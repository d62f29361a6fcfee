import GitRemoteObjectStore.Keys

/-!
# The slots of a repository

Everything a repository stores under its prefix sits in one of the slots
below, and every key builder of the source is `Slot.key` at some slot.  Slots
are told apart by their keys, so facts about overlapping keys become facts
about constructors.
-/

namespace GitRemoteObjectStore

open Separated

/-- What is stored under one reference. -/
inductive Entry where
  | bundle (sha : Sha40)
  | chain
  | pathIndex
  | lock
  | protectedMarker
  | archive
deriving DecidableEq

/-- The last segment of an entry's key. -/
def Entry.name : Entry → Text
  | .bundle sha => sha.text ++ lit ".bundle"
  | .chain => lit "chain.json"
  | .pathIndex => lit "path-index.json"
  | .lock => lit "LOCK#.lock"
  | .protectedMarker => lit "PROTECTED#"
  | .archive => lit "repo.zip"

theorem Entry.no_slash (entry : Entry) : '/' ∉ entry.name := by
  cases entry with
  | bundle sha =>
      intro member
      rcases List.mem_append.1 member with inSha | inSuffix
      · exact sha.no_slash inSha
      · simp [lit_eq] at inSuffix
  | chain => simp [name, lit_eq]
  | pathIndex => simp [name, lit_eq]
  | lock => simp [name, lit_eq]
  | protectedMarker => simp [name, lit_eq]
  | archive => simp [name, lit_eq]

theorem Entry.name_injective : Function.Injective Entry.name := by
  intro left right equal
  have lengths := congrArg List.length equal
  cases left with
  | bundle sha =>
      cases right with
      | bundle sha' =>
          have texts : sha.text = sha'.text :=
            List.append_cancel_right equal
          exact congrArg Entry.bundle (Sha40.ext texts)
      | _ => simp [name, lit_eq, Sha40.length_text] at lengths
  | _ =>
      cases right with
      | bundle sha => simp [name, lit_eq, Sha40.length_text] at lengths
      | _ => first | rfl | simp [name, lit_eq] at equal

/-- Everything a repository stores. -/
inductive Slot [Platform] where
  | ref (refName : RefName) (entry : Entry)
  | pack (contentSha : Sha40)
  | idx (contentSha : Sha40)
  | tombstone (label : Component)
  | baselineTombstone (runId : Component)
  | head
  | format
deriving DecidableEq

variable [Platform]

namespace Slot

/-- The directory of a slot, if it has one. -/
def directory : Slot → Option Text
  | .ref refName _ => some refName.text
  | .pack _ => some (lit "packs")
  | .idx _ => some (lit "packs")
  | .tombstone _ => some (lit "gc")
  | .baselineTombstone _ => some (lit "gc")
  | .head => none
  | .format => none

/-- The last segment of a slot's key. -/
def name : Slot → Text
  | .ref _ entry => entry.name
  | .pack sha => sha.text ++ lit ".pack"
  | .idx sha => sha.text ++ lit ".idx"
  | .tombstone label =>
      lit "tombstones-" ++ label.text ++ lit ".json"
  | .baselineTombstone runId =>
      lit "baseline-tomb-" ++ runId.text ++ lit ".json"
  | .head => lit "HEAD"
  | .format => lit "FORMAT"

/-- The key of a slot under the empty prefix. -/
def path (slot : Slot) : Text :=
  match slot.directory with
  | none => slot.name
  | some directory => directory ++ '/' :: slot.name

/-- The key of a slot. -/
def key (bucketPrefix : Option Text) (slot : Slot) : Text :=
  keyRoot bucketPrefix ++ slot.path

theorem name_no_slash (slot : Slot) : '/' ∉ slot.name := by
  cases slot with
  | ref refName entry => exact entry.no_slash
  | pack sha => simp [name, lit_eq, sha.no_slash]
  | idx sha => simp [name, lit_eq, sha.no_slash]
  | tombstone label => simp [name, lit_eq, label.no_slash]
  | baselineTombstone runId => simp [name, lit_eq, runId.no_slash]
  | head => simp [name, lit_eq]
  | format => simp [name, lit_eq]

theorem path_determines
    {left right : Slot}
    (equal : left.path = right.path) :
    left.directory = right.directory ∧ left.name = right.name := by
  unfold path at equal
  cases leftDirectory : left.directory with
  | none =>
      cases rightDirectory : right.directory with
      | none => exact ⟨rfl, by simpa [leftDirectory, rightDirectory] using equal⟩
      | some directory =>
          simp only [leftDirectory, rightDirectory] at equal
          exact absurd (equal ▸ by simp) left.name_no_slash
  | some directory =>
      cases rightDirectory : right.directory with
      | none =>
          simp only [leftDirectory, rightDirectory] at equal
          exact absurd (equal ▸ by simp) right.name_no_slash
      | some directory' =>
          simp only [leftDirectory, rightDirectory] at equal
          rcases
            (append_separator_inj left.name_no_slash
              right.name_no_slash).1 equal with ⟨rfl, sameName⟩
          exact ⟨rfl, sameName⟩

end Slot

theorem RefName.ne_packs (refName : RefName) :
    refName.text ≠ lit "packs" :=
  refName.ne_of_lowercase (by decide +kernel) ⟨'p', by decide +kernel⟩

theorem RefName.ne_gc (refName : RefName) :
    refName.text ≠ lit "gc" :=
  refName.ne_of_lowercase (by decide +kernel) ⟨'g', by decide +kernel⟩

namespace Slot

theorem path_injective : Function.Injective Slot.path := by
  intro left right equal
  rcases path_determines equal with ⟨sameDirectory, sameName⟩
  have lengths := congrArg List.length sameName
  cases left with
  | ref refName entry =>
      cases right with
      | ref refName' entry' =>
          have sameRef : refName = refName' :=
            RefName.ext (Option.some.inj sameDirectory)
          rw [sameRef, Entry.name_injective sameName]
      | pack _ => exact absurd (Option.some.inj sameDirectory) refName.ne_packs
      | idx _ => exact absurd (Option.some.inj sameDirectory) refName.ne_packs
      | tombstone _ =>
          exact absurd (Option.some.inj sameDirectory) refName.ne_gc
      | baselineTombstone _ =>
          exact absurd (Option.some.inj sameDirectory) refName.ne_gc
      | head => simp [directory] at sameDirectory
      | format => simp [directory] at sameDirectory
  | pack sha =>
      cases right with
      | ref refName entry =>
          exact absurd (Option.some.inj sameDirectory).symm refName.ne_packs
      | pack sha' =>
          rw [Sha40.ext (List.append_cancel_right sameName)]
      | idx sha' => simp [name, lit_eq, Sha40.length_text] at lengths
      | _ => simp [directory, lit_eq] at sameDirectory
  | idx sha =>
      cases right with
      | ref refName entry =>
          exact absurd (Option.some.inj sameDirectory).symm refName.ne_packs
      | pack sha' => simp [name, lit_eq, Sha40.length_text] at lengths
      | idx sha' =>
          rw [Sha40.ext (List.append_cancel_right sameName)]
      | _ => simp [directory, lit_eq] at sameDirectory
  | tombstone label =>
      cases right with
      | ref refName entry =>
          exact absurd (Option.some.inj sameDirectory).symm refName.ne_gc
      | tombstone label' =>
          have texts : label.text = label'.text := by
            simpa [name] using sameName
          cases label
          cases label'
          cases texts
          rfl
      | baselineTombstone _ => simp [name, lit_eq] at sameName
      | _ => simp [directory, lit_eq] at sameDirectory
  | baselineTombstone runId =>
      cases right with
      | ref refName entry =>
          exact absurd (Option.some.inj sameDirectory).symm refName.ne_gc
      | baselineTombstone runId' =>
          have texts : runId.text = runId'.text := by
            simpa [name] using sameName
          cases runId
          cases runId'
          cases texts
          rfl
      | tombstone _ => simp [name, lit_eq] at sameName
      | _ => simp [directory, lit_eq] at sameDirectory
  | head =>
      cases right with
      | head => rfl
      | format => simp [name, lit_eq] at sameName
      | _ => simp [directory, lit_eq] at sameDirectory
  | format =>
      cases right with
      | format => rfl
      | head => simp [name, lit_eq] at sameName
      | _ => simp [directory, lit_eq] at sameDirectory

variable (bucketPrefix : Option Text)

@[simp]
theorem key_inj {left right : Slot} :
    left.key bucketPrefix = right.key bucketPrefix ↔ left = right := by
  constructor
  · intro equal
    exact path_injective (List.append_cancel_left equal)
  · exact congrArg _

end Slot

/-! ## Every builder builds a slot -/

section Builders

variable
    (bucketPrefix : Option Text)
    (refName : RefName)
    (sha : Sha40)

theorem refListingPrefix_eq :
    refListingPrefix bucketPrefix refName =
      keyRoot bucketPrefix ++ (refName.text ++ ['/']) :=
  join_eq _ _

theorem ref_key_eq (entry : Entry) :
    (Slot.ref refName entry).key bucketPrefix =
      refListingPrefix bucketPrefix refName ++ entry.name := by
  simp [refListingPrefix_eq, Slot.key, Slot.path, Slot.directory, Slot.name]

@[simp]
theorem lockKey_eq :
    lockKey bucketPrefix refName =
      (Slot.ref refName .lock).key bucketPrefix :=
  (ref_key_eq bucketPrefix refName .lock).symm

@[simp]
theorem archiveKey_eq :
    archiveKey bucketPrefix refName =
      (Slot.ref refName .archive).key bucketPrefix :=
  (ref_key_eq bucketPrefix refName .archive).symm

@[simp]
theorem protectedMarkerKey_eq :
    protectedMarkerKey bucketPrefix refName =
      (Slot.ref refName .protectedMarker).key bucketPrefix :=
  (ref_key_eq bucketPrefix refName .protectedMarker).symm

@[simp]
theorem bundleKey_eq :
    bundleKey bucketPrefix refName sha =
      (Slot.ref refName (.bundle sha)).key bucketPrefix :=
  join_eq _ _

@[simp]
theorem chainKey_eq :
    chainKey bucketPrefix refName =
      (Slot.ref refName .chain).key bucketPrefix := by
  simp [chainKey, join_eq, Slot.key, Slot.path, Slot.directory, Slot.name,
    Entry.name, lit_eq]

@[simp]
theorem pathIndexKey_eq :
    pathIndexKey bucketPrefix refName =
      (Slot.ref refName .pathIndex).key bucketPrefix := by
  simp [pathIndexKey, join_eq, Slot.key, Slot.path, Slot.directory,
    Slot.name, Entry.name, lit_eq]

@[simp]
theorem packKey_eq :
    packKey bucketPrefix sha = (Slot.pack sha).key bucketPrefix := by
  simp [packKey, join_eq, Slot.key, Slot.path, Slot.directory, Slot.name,
    lit_eq]

@[simp]
theorem packIdxKey_eq :
    packIdxKey bucketPrefix sha = (Slot.idx sha).key bucketPrefix := by
  simp [packIdxKey, join_eq, Slot.key, Slot.path, Slot.directory,
    Slot.name, lit_eq]

omit refName sha in
@[simp]
theorem headKey_eq : headKey bucketPrefix = Slot.head.key bucketPrefix :=
  join_eq _ _

@[simp]
theorem formatKey_eq :
    formatKey bucketPrefix = Slot.format.key bucketPrefix :=
  join_eq _ _

theorem Slot.key_some_prefixText (slot : Slot) :
    slot.key (some (prefixText bucketPrefix)) = slot.key bucketPrefix := by
  simp [Slot.key]

/-- `<run_id>-<marked_at>` -/
def tombstoneLabel (runId markedAt : Component) : Component where
  text := runId.text ++ '-' :: markedAt.text
  no_slash := by simp [runId.no_slash, markedAt.no_slash]

@[simp]
theorem tombstoneKey_eq (runId markedAt : Component) :
    tombstoneKey (prefixText bucketPrefix) runId markedAt =
      (Slot.tombstone (tombstoneLabel runId markedAt)).key
        bucketPrefix := by
  simp [tombstoneKey, join_eq, Slot.key, Slot.path, Slot.directory,
    Slot.name, tombstoneLabel, lit_eq]

@[simp]
theorem baselineTombstoneKey_eq (runId : Component) :
    baselineTombstoneKey (prefixText bucketPrefix) runId =
      (Slot.baselineTombstone runId).key bucketPrefix := by
  simp [baselineTombstoneKey, join_eq, Slot.key, Slot.path,
    Slot.directory, Slot.name, lit_eq]

end Builders

end GitRemoteObjectStore
