import Mathlib.Data.Char
import Mathlib.Data.List.Dedup
import Mathlib.Data.List.Lex
import Mathlib.Data.List.Sort
import GitRemoteObjectStore.Shallow
import GitRemoteObjectStore.Library.Separated

/-!
# The file of shallow boundaries

The file `shallow` has one object name a line.  A fetch adds its boundaries
and drops the entries whose parents have all arrived; what git would read as
no boundary at all leaves no file.
-/

namespace GitRemoteObjectStore

open Separated

/-! ## Reading the file -/

/-- `u8::is_ascii_whitespace` -/
def isAsciiWhitespace (byte : UInt8) : Bool :=
  byte == 0x20 || byte == 0x09 || byte == 0x0A || byte == 0x0C ||
    byte == 0x0D

/-- `trim_ascii` -/
def trimAscii (line : List UInt8) : List UInt8 :=
  ((line.dropWhile isAsciiWhitespace).reverse.dropWhile
    isAsciiWhitespace).reverse

/-- The entries of a shallow file; what is no object name is skipped. -/
def shallowEntries (content : List UInt8) : List Sha :=
  (content.splitOn lineFeed).filterMap fun line =>
    let trimmed := trimAscii line
    if trimmed = [] then none else fromHex? trimmed

/-- The content of a shallow file. -/
def renderShallow (entries : List Sha) : List UInt8 :=
  terminated lineFeed (entries.map toHex)

/-! ## Rewriting the file -/

/-- `entry_remains_a_boundary` -/
def entryRemainsABoundary
    (objects : Objects)
    (odb : Odb)
    (oid : Sha) : Bool :=
  match parentIds objects odb oid with
  | .error _ => false
  | .ok [] => false
  | .ok parents => parents.any fun parent => parent ∉ odb

/-- How the system calls of a rewrite end. -/
structure ShallowIo where
  read : Except GitError Unit
  opened : Except GitError Unit
  removed : Except GitError Unit
  /-- `write_atomic` -/
  written : Except GitError Unit

/-- Everything goes well. -/
def ShallowIo.fine : ShallowIo :=
  ⟨.ok (), .ok (), .ok (), .ok ()⟩

/-- The order of object names. -/
def Sha40.le (left right : Sha40) : Bool :=
  decide (left.text ≤ right.text)

/-- The entries a rewrite ends up with. -/
def finalSet
    (objects : Objects)
    (odb : Odb)
    (boundaries existing : List Sha) : List Sha :=
  let stale := existing.filter fun oid => oid ∉ boundaries
  (boundaries ++ stale.filter (entryRemainsABoundary objects odb)).dedup

/--
`write_shallow_file`, with the file there is before, if any, and the one
there is afterwards.  The repository is opened for old entries only.
-/
def writeShallowFile
    (objects : Objects)
    (odb : Odb)
    (io : ShallowIo)
    (boundaries : List Sha)
    (file : Option (List UInt8)) :
    Except GitError Unit × Option (List UInt8) :=
  match io.read with
  | .error error => (.error error, file)
  | .ok () =>
      let existing := shallowEntries (file.getD [])
      let stale := existing.filter fun oid => oid ∉ boundaries
      match if stale = [] then .ok () else io.opened with
      | .error error => (.error error, file)
      | .ok () =>
          let entries := finalSet objects odb boundaries existing
          if entries = [] then
            match io.removed with
            | .error error => (.error error, file)
            | .ok () => (.ok (), none)
          else
            match io.written with
            | .error error => (.error error, file)
            | .ok () =>
                (.ok (),
                  some (renderShallow (entries.mergeSort Sha40.le)))

/-! ## What is written can be read -/

theorem le_of_mem_toHex
    {sha : Sha}
    {byte : UInt8}
    (member : byte ∈ toHex sha) :
    48 ≤ byte.toNat := by
  rw [toHex_eq, List.mem_map] at member
  rcases member with ⟨character, inside, rfl⟩
  have hex := List.all_eq_true.1 sha.all_isLowerHex character inside
  have ascii := toNat_lt_of_isLowerHex hex
  rw [UInt8.toNat_ofNat', Nat.mod_eq_of_lt (by omega)]
  simp only [isLowerHex, Bool.or_eq_true, Bool.and_eq_true,
    decide_eq_true_eq] at hex
  rcases hex with ⟨lower, -⟩ | ⟨lower, -⟩
  · have bound : '0'.toNat ≤ character.toNat := lower
    exact bound
  · have bound : 'a'.toNat ≤ character.toNat := lower
    exact Nat.le_trans (by decide) bound

theorem lineFeed_not_mem_toHex (sha : Sha) : lineFeed ∉ toHex sha := by
  intro member
  have bound := le_of_mem_toHex member
  exact absurd bound (by decide)

theorem not_isAsciiWhitespace_of_mem_toHex
    {sha : Sha}
    {byte : UInt8}
    (member : byte ∈ toHex sha) :
    isAsciiWhitespace byte = false := by
  have bound := le_of_mem_toHex member
  cases white : isAsciiWhitespace byte with
  | false => rfl
  | true =>
      simp only [isAsciiWhitespace, Bool.or_eq_true, beq_iff_eq] at white
      rcases white with (((rfl | rfl) | rfl) | rfl) | rfl <;>
        exact absurd bound (by decide)

theorem dropWhile_eq_self
    {bytes : List UInt8}
    (none : ∀ byte ∈ bytes, isAsciiWhitespace byte = false) :
    bytes.dropWhile isAsciiWhitespace = bytes := by
  cases bytes with
  | nil => rfl
  | cons byte rest =>
      rw [List.dropWhile_cons_of_neg]
      rw [none byte List.mem_cons_self]
      exact Bool.false_ne_true

theorem trimAscii_toHex (sha : Sha) : trimAscii (toHex sha) = toHex sha := by
  have none (byte : UInt8) (member : byte ∈ toHex sha) :=
    not_isAsciiWhitespace_of_mem_toHex member
  rw [trimAscii, dropWhile_eq_self none, dropWhile_eq_self,
    List.reverse_reverse]
  exact fun byte member => none byte (List.mem_reverse.1 member)

/-- The entries of a file that was written are those it was written for. -/
@[simp]
theorem shallowEntries_renderShallow (entries : List Sha) :
    shallowEntries (renderShallow entries) = entries := by
  unfold shallowEntries renderShallow
  rw [splitOn_terminated]
  · rw [List.filterMap_append, List.filterMap_map]
    have last :
        [[]].filterMap (fun line : List UInt8 =>
          if trimAscii line = [] then none
          else fromHex? (trimAscii line)) = [] := by
      rfl
    have each :
        (fun line : List UInt8 =>
            if trimAscii line = [] then none
            else fromHex? (trimAscii line)) ∘ toHex =
          some := by
      funext sha
      have nonempty : toHex sha ≠ [] := by
        intro empty
        have length := length_toHex sha
        rw [empty] at length
        cases length
      rw [Function.comp_apply, trimAscii_toHex, if_neg nonempty,
        fromHex?_toHex]
    simp only [last, each, List.filterMap_some, List.append_nil]
  · intro part member
    rcases List.mem_map.1 member with ⟨sha, -, rfl⟩
    exact lineFeed_not_mem_toHex sha

@[simp]
theorem shallowEntries_nil : shallowEntries [] = [] :=
  rfl

/-! ## What stays in the file -/

/-- An old entry is kept when a parent of the commit it names is missing. -/
def Remains (objects : Objects) (odb : Odb) (oid : Sha) : Prop :=
  ∃ tags parents,
    PeelsToCommit objects odb tags oid parents ∧
      ∃ parent ∈ parents, parent ∉ odb

theorem entryRemainsABoundary_iff
    {objects : Objects}
    {odb : Odb}
    {oid : Sha} :
    entryRemainsABoundary objects odb oid = true ↔
      Remains objects odb oid := by
  unfold entryRemainsABoundary Remains
  constructor
  · intro remains
    split at remains
    · cases remains
    · cases remains
    next parents _ read =>
        rcases parentIds_ok.1 read with ⟨tags, peels⟩
        rcases List.any_eq_true.1 remains with ⟨parent, member, missing⟩
        exact
          ⟨tags, parents, peels, parent, member, of_decide_eq_true missing⟩
  · rintro ⟨tags, parents, peels, parent, member, missing⟩
    rw [parentIds_ok.2 ⟨tags, peels⟩]
    cases parents with
    | nil => cases member
    | cons first rest =>
        exact
          List.any_eq_true.2 ⟨parent, member, decide_eq_true missing⟩

theorem mem_finalSet
    {objects : Objects}
    {odb : Odb}
    {boundaries existing : List Sha}
    {oid : Sha} :
    oid ∈ finalSet objects odb boundaries existing ↔
      oid ∈ boundaries ∨ oid ∈ existing ∧ Remains objects odb oid := by
  unfold finalSet
  rw [List.mem_dedup, List.mem_append, List.mem_filter,
    entryRemainsABoundary_iff, List.mem_filter, decide_eq_true_eq]
  constructor
  · rintro (fresh | ⟨⟨old, -⟩, remains⟩)
    · exact Or.inl fresh
    · exact Or.inr ⟨old, remains⟩
  · rintro (fresh | ⟨old, remains⟩)
    · exact Or.inl fresh
    · by_cases fresh : oid ∈ boundaries
      · exact Or.inl fresh
      · exact Or.inr ⟨⟨old, fresh⟩, remains⟩

theorem nodup_finalSet
    (objects : Objects)
    (odb : Odb)
    (boundaries existing : List Sha) :
    (finalSet objects odb boundaries existing).Nodup :=
  List.nodup_dedup _

/-! ## One order for one set -/

/-- In the order of names, without repetition. -/
def InOrder (entries : List Sha) : Prop :=
  entries.Pairwise fun left right => left.text < right.text

theorem inOrder_mergeSort
    {entries : List Sha}
    (nodup : entries.Nodup) :
    InOrder (entries.mergeSort Sha40.le) := by
  have sorted :=
    @List.pairwise_mergeSort _ Sha40.le
      (fun left middle right first second =>
        decide_eq_true
          (le_trans (of_decide_eq_true first) (of_decide_eq_true second)))
      (fun left right => by
        rw [Bool.or_eq_true]
        exact
          (le_total left.text right.text).imp decide_eq_true
            decide_eq_true)
      entries
  have distinct := (List.mergeSort_perm entries Sha40.le).nodup_iff.2 nodup
  refine (sorted.and distinct).imp ?_
  rintro left right ⟨le, different⟩
  refine lt_of_le_of_ne (of_decide_eq_true le) ?_
  intro same
  exact different (Sha40.ext same)

/-- A set of names is in one order only. -/
theorem InOrder.eq_of_mem_iff
    {left right : List Sha}
    (ordered : InOrder left)
    (ordered' : InOrder right)
    (same : ∀ oid, oid ∈ left ↔ oid ∈ right) :
    left = right := by
  have nodup {entries : List Sha} (ordered : InOrder entries) :
      entries.Nodup := by
    refine ordered.imp ?_
    rintro first second less rfl
    exact lt_irrefl _ less
  apply
    @List.Perm.eq_of_pairwise _
      (fun first second : Sha => first.text < second.text) _ _ ?_ ordered
      ordered'
      ((List.perm_ext_iff_of_nodup (nodup ordered) (nodup ordered')).2
        same)
  intro first second _ _ less greater
  exact absurd (less.trans greater) (lt_irrefl _)

/-! ## The rewrite -/

/-- A rewrite that succeeds removes the file or writes the set in order. -/
theorem writeShallowFile_ok
    {objects : Objects}
    {odb : Odb}
    {io : ShallowIo}
    {boundaries : List Sha}
    {file after : Option (List UInt8)}
    (written :
      writeShallowFile objects odb io boundaries file = (.ok (), after)) :
    let entries :=
      finalSet objects odb boundaries (shallowEntries (file.getD []))
    (entries = [] ∧ after = none) ∨
      entries ≠ [] ∧
        after = some (renderShallow (entries.mergeSort Sha40.le)) := by
  unfold writeShallowFile at written
  split at written
  · cases written
  simp only at written
  split at written
  · cases written
  split at written
  next empty =>
      split at written
      · cases written
      · cases written
        exact Or.inl ⟨empty, rfl⟩
  next some =>
      split at written
      · cases written
      · cases written
        exact Or.inr ⟨some, rfl⟩

/-- A rewrite that would leave the file as it is leaves it, also if it fails. -/
theorem writeShallowFile_unchanged
    {objects : Objects}
    {odb : Odb}
    {boundaries : List Sha}
    {file : Option (List UInt8)}
    (stable :
      ∀ io after,
        writeShallowFile objects odb io boundaries file =
            (.ok (), after) →
          after = file)
    (io : ShallowIo) :
    (writeShallowFile objects odb io boundaries file).2 = file := by
  cases result : writeShallowFile objects odb io boundaries file with
  | mk outcome after =>
      cases outcome with
      | ok done => exact stable io after result
      | error error =>
          unfold writeShallowFile at result
          split at result
          · cases result
            rfl
          simp only at result
          split at result
          · cases result
            rfl
          split at result
          · split at result
            · cases result
              rfl
            · cases result
          · split at result
            · cases result
              rfl
            · cases result

/-- What a successful rewrite leaves. -/
structure Rewritten
    (objects : Objects)
    (odb : Odb)
    (boundaries : List Sha)
    (file after : Option (List UInt8)) : Prop where
  entries :
    ∀ oid,
      oid ∈ shallowEntries (after.getD []) ↔
        oid ∈ boundaries ∨
          oid ∈ shallowEntries (file.getD []) ∧
            Remains objects odb oid
  removed :
    after = none ↔
      ∀ oid,
        ¬ (oid ∈ boundaries ∨
          oid ∈ shallowEntries (file.getD []) ∧
            Remains objects odb oid)
  inOrder : InOrder (shallowEntries (after.getD []))
  again :
    ∀ io, (writeShallowFile objects odb io boundaries after).2 = after

/--
A successful rewrite leaves the new boundaries and the old entries that still
are some, in order; it removes the file exactly when there are none, and once
it is done it may be done again.
-/
theorem writeShallowFile_exact
    {objects : Objects}
    {odb : Odb}
    {io : ShallowIo}
    {boundaries : List Sha}
    {file after : Option (List UInt8)}
    (written :
      writeShallowFile objects odb io boundaries file = (.ok (), after)) :
    Rewritten objects odb boundaries file after := by
  have members {oid : Sha} :=
    @mem_finalSet objects odb boundaries (shallowEntries (file.getD [])) oid
  rcases writeShallowFile_ok written with ⟨empty, rfl⟩ | ⟨some, rfl⟩
  · have none (oid : Sha) :
        ¬ (oid ∈ boundaries ∨
          oid ∈ shallowEntries (file.getD []) ∧
            Remains objects odb oid) := by
      rw [← members, empty]
      exact List.not_mem_nil
    constructor
    case entries =>
        intro oid
        exact iff_of_false List.not_mem_nil (none oid)
    case removed => exact ⟨fun _ => none, fun _ => rfl⟩
    case inOrder => exact List.Pairwise.nil
    case again =>
        apply writeShallowFile_unchanged
        intro io after again
        rcases writeShallowFile_ok again with ⟨-, same⟩ | ⟨nonempty, -⟩
        · exact same
        · rcases List.exists_mem_of_ne_nil _ nonempty with ⟨oid, member⟩
          rcases mem_finalSet.1 member with fresh | ⟨old, -⟩
          · exact absurd (Or.inl fresh) (none oid)
          · cases old
  · have sorted :=
      inOrder_mergeSort
        (nodup_finalSet objects odb boundaries
          (shallowEntries (file.getD [])))
    constructor
    case entries =>
        intro oid
        rw [Option.getD_some, shallowEntries_renderShallow,
          List.mem_mergeSort, members]
    case removed =>
        constructor
        · intro impossible
          cases impossible
        · intro none
          rcases List.exists_mem_of_ne_nil _ some with ⟨oid, member⟩
          exact absurd (members.1 member) (none oid)
    case inOrder =>
        rw [Option.getD_some, shallowEntries_renderShallow]
        exact sorted
    case again =>
        apply writeShallowFile_unchanged
        intro io after again
        have same (oid : Sha) :
            oid ∈ finalSet objects odb boundaries
                ((finalSet objects odb boundaries
                  (shallowEntries (file.getD []))).mergeSort
                  Sha40.le) ↔
              oid ∈ finalSet objects odb boundaries
                (shallowEntries (file.getD [])) := by
          rw [mem_finalSet, List.mem_mergeSort, members]
          tauto
        rcases writeShallowFile_ok again with ⟨empty, -⟩ | ⟨-, after⟩
        · rw [Option.getD_some, shallowEntries_renderShallow] at empty
          rcases List.exists_mem_of_ne_nil _ some with ⟨oid, member⟩
          have impossible := (same oid).2 member
          rw [empty] at impossible
          cases impossible
        · rw [after, Option.getD_some, shallowEntries_renderShallow]
          congr 2
          refine
            (inOrder_mergeSort (nodup_finalSet _ _ _ _)).eq_of_mem_iff
              sorted ?_
          intro oid
          rw [List.mem_mergeSort, List.mem_mergeSort]
          exact same oid

/-- A rewrite in which every system call succeeds. -/
theorem exists_writeShallowFile_fine
    (objects : Objects)
    (odb : Odb)
    (boundaries : List Sha)
    (file : Option (List UInt8)) :
    ∃ after,
      writeShallowFile objects odb .fine boundaries file =
        (.ok (), after) := by
  unfold writeShallowFile ShallowIo.fine
  simp only [ite_self]
  split
  · exact ⟨_, rfl⟩
  · exact ⟨_, rfl⟩

/--
The third commit is a new boundary.  Of the old ones the second commit stays,
as the first is missing.
-/
theorem writeShallowFile_exact_small :
    ∃ after,
      writeShallowFile smallObjects {digitSha 'b' hex_b} .fine
          [digitSha 'c' hex_c]
          (some
            (renderShallow [digitSha 'b' hex_b, digitSha 'a' hex_a])) =
        (.ok (), after) ∧
        digitSha 'b' hex_b ∈ shallowEntries (after.getD []) := by
  rcases
    exists_writeShallowFile_fine smallObjects {digitSha 'b' hex_b}
      [digitSha 'c' hex_c]
      (some (renderShallow [digitSha 'b' hex_b, digitSha 'a' hex_a])) with
    ⟨after, written⟩
  refine ⟨after, written, ?_⟩
  apply ((writeShallowFile_exact written).entries _).2
  have found :
      findObject smallObjects {digitSha 'b' hex_b} (digitSha 'b' hex_b) =
        .ok (.commit (digitSha '3' hex_3) [digitSha 'a' hex_a]) :=
    findObject_ok.2 ⟨Finset.mem_singleton_self _, rfl⟩
  right
  constructor
  · rw [Option.getD_some, shallowEntries_renderShallow]
    exact List.mem_cons_self
  · exact
      ⟨0, _, .commit found, digitSha 'a' hex_a, List.mem_cons_self,
        by decide +kernel⟩

end GitRemoteObjectStore
