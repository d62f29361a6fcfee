import Mathlib.Algebra.Order.Floor.Div
import Mathlib.GroupTheory.GroupAction.Ring
import GitRemoteObjectStore.Delta
import GitRemoteObjectStore.Library.Arrivals
import GitRemoteObjectStore.Library.Tiling

/-!
# Multipart uploads

The plan of an upload, and how both backends put the parts back into the
order of the plan when their uploads have completed in any order.  Arithmetic
that overflows is a panic here, and so is a capacity no vector can have.
-/

namespace GitRemoteObjectStore.Multipart

open Arrivals DeltaFormat Tiling

/-! ## The planner -/

inductive Panic where
  | divisionByZero
  | overflow
  | capacityOverflow
  | expect
  | outOfBounds
deriving DecidableEq

/-- `u64::checked_mul` -/
def checkedMul (left right : UInt64) : Option UInt64 :=
  if left.toNat * right.toNat < 2 ^ 64 then some (left * right) else none

/-- `*` on `u64` -/
def mul (left right : UInt64) : Except Panic UInt64 :=
  match checkedMul left right with
  | some product => .ok product
  | none => .error .overflow

/-- `u64::div_ceil`, of a divisor that is not zero. -/
def divCeil (dividend divisor : UInt64) : UInt64 :=
  if dividend % divisor > 0 then dividend / divisor + 1
  else dividend / divisor

structure UploadPart where
  offset : UInt64
  length : UInt64
deriving DecidableEq

/-- Bytes of an `UploadPart` in a vector. -/
def uploadPartSize : Nat := 16

theorem lt_of_checkedMul_two
    {value next : UInt64}
    (positive : value ≠ 0)
    (doubled : checkedMul value 2 = some next) :
    next.toNat = 2 * value.toNat ∧ value.toNat < next.toNat := by
  have filled : 0 < value.toNat :=
    Nat.pos_of_ne_zero fun zero => positive (UInt64.toNat_inj.1 zero)
  rw [checkedMul] at doubled
  split at doubled
  next small =>
      cases doubled
      have two : (2 : UInt64).toNat = 2 := rfl
      rw [two] at small
      rw [UInt64.toNat_mul, two, Nat.mod_eq_of_lt small]
      omega
  next => cases doubled

/-- Double the part size until the parts are few enough. -/
def scalePartSize (size partSize maxParts : UInt64) :
    Except Panic UInt64 :=
  if _zero : partSize = 0 then .error .divisionByZero
  else if divCeil size partSize > maxParts then
    match _doubled : checkedMul partSize 2 with
    | some next => scalePartSize size next maxParts
    | none => .ok partSize
  else .ok partSize
termination_by 2 ^ 64 - partSize.toNat
decreasing_by
  have grown := (lt_of_checkedMul_two (by assumption) (by assumption)).2
  have bounded := next.toNat_lt
  omega

/-- `Vec::with_capacity` -/
def withCapacity [Target] (capacity : Nat) : Except Panic Unit :=
  if uploadPartSize * capacity ≤ Target.isizeMax then .ok ()
  else .error .capacityOverflow

/-- `+` on `usize` -/
def addUsize [Target] (left right : Nat) : Except Panic Nat :=
  match checkedAdd left right with
  | some sum => .ok sum
  | none => .error .overflow

def planUploadParts [Target] (size targetPartSize maxParts : UInt64) :
    Except Panic (List UploadPart) :=
  if size = 0 ∨ targetPartSize = 0 ∨ maxParts = 0 then .ok []
  else do
    let partSize ← scalePartSize size targetPartSize maxParts
    let fullParts := size / partSize
    let lastPart := size % partSize
    let partCount ←
      addUsize (min fullParts.toNat usizeMax)
        (if lastPart > 0 then 1 else 0)
    withCapacity partCount
    let parts ← (List.range fullParts.toNat).mapM fun index => do
      let offset ← mul (UInt64.ofNat index) partSize
      return ({ offset := offset, length := partSize } : UploadPart)
    if lastPart > 0 then
      let offset ← mul fullParts partSize
      return parts ++ [{ offset := offset, length := lastPart }]
    else return parts

/-! ## The backends -/

def s3MaxParts : UInt64 := 10000

def azureMaxBlocks : UInt64 := 50000

/-- The bytes of a body that a part holds. -/
def slicePart (body : Bytes) (part : UploadPart) : Bytes :=
  slice body (part.offset.toNat, part.length.toNat)

/-- Why an upload ends early. -/
inductive Stop where
  | panic (panic : Panic)
  | error (error : ObjectStoreError)
deriving DecidableEq

structure CompletedPart where
  partNumber : Nat
  eTag : Text
deriving DecidableEq

/-- `i32::try_from(idx + 1)`, which is expected to fit. -/
def partNumberFor (idx : Nat) : Except Panic Nat :=
  if idx + 1 < 2 ^ 31 then .ok (idx + 1) else .error .expect

/--
The tasks of an S3 upload, one a part, each with what it returns: the part's
number and tag, or the failure of the request.
-/
def s3Tasks
    (parts : List UploadPart)
    (response : Nat → Except ObjectStoreError Text) :
    Except Panic (List (Except ObjectStoreError CompletedPart)) :=
  (List.range parts.length).mapM fun idx => do
    let partNumber ← partNumberFor idx
    return (response idx).map fun eTag =>
      { partNumber := partNumber, eTag := eTag }

/-- Collect the tasks' results, the first failure first, and sort them. -/
def joinCompletedParts
    (joined : List (Except ObjectStoreError CompletedPart)) :
    Except ObjectStoreError (List CompletedPart) := do
  let completed ← joined.mapM id
  return completed.mergeSort fun left right =>
    left.partNumber ≤ right.partNumber

/-- `format!("{:032}", idx + 1)` -/
def blockIdFor (idx : Nat) : Bytes :=
  ((Nat.toDigits 10 (idx + 1)).leftpad 32 '0').map fun digit =>
    UInt8.ofNat digit.toNat

/-- The tasks of an Azure upload, one a part. -/
def azureTasks
    (parts : List UploadPart)
    (response : Nat → Except ObjectStoreError Unit) :
    List (Except ObjectStoreError (Nat × Bytes)) :=
  (List.range parts.length).map fun idx =>
    (response idx).map fun _ => (idx, blockIdFor idx)

/-- Put the ids of the tasks into their slots, the first failure first. -/
def fillSlots :
    List (Except ObjectStoreError (Nat × Bytes)) → List (Option Bytes) →
      Except Stop (List (Option Bytes))
  | [], staged => .ok staged
  | .error error :: _, _ => .error (.error error)
  | .ok (idx, blockId) :: rest, staged =>
      if idx < staged.length then
        fillSlots rest (staged.set idx (some blockId))
      else .error (.panic .outOfBounds)

def joinStagedBlocks
    (joined : List (Except ObjectStoreError (Nat × Bytes)))
    (expected : Nat) : Except Stop (List Bytes) := do
  let staged ← fillSlots joined (List.replicate expected none)
  staged.mapM fun slot =>
    match slot with
    | some blockId => .ok blockId
    | none => .error (.error .other)

/-! ## The service -/

/-- What is stored under the names of parts, after arrivals in any order. -/
def stored {ν : Type} [DecidableEq ν]
    (name : Nat → ν)
    (body : Bytes)
    (parts : List UploadPart)
    (arrival : Completion) : AList fun _ : ν => Bytes :=
  collect (fun entry : Nat × UploadPart => name entry.1)
    (fun entry => slicePart body entry.2)
    (arrival.arrange (parts.zipIdx.map Prod.swap))

/-- The object made of the parts that are named, in that order. -/
def commit {ν : Type} [DecidableEq ν]
    (parts : AList fun _ : ν => Bytes)
    (names : List ν) : Option Bytes :=
  (names.mapM parts.lookup).map List.flatten

/-! ## Part sizes -/

variable {size partSize target maxParts : UInt64}

theorem toNat_ne_zero
    {value : UInt64}
    (filled : value ≠ 0) :
    0 < value.toNat :=
  Nat.pos_of_ne_zero fun zero => filled (UInt64.toNat_inj.1 zero)

theorem ceilDiv_eq
    {dividend divisor : Nat}
    (positive : 0 < divisor) :
    dividend ⌈/⌉ divisor =
      dividend / divisor + if dividend % divisor > 0 then 1 else 0 := by
  have split := Nat.div_add_mod dividend divisor
  have small := Nat.mod_lt dividend positive
  apply le_antisymm
  · rw [ceilDiv_le_iff_le_mul positive, Nat.mul_add]
    split_ifs <;> omega
  · have covered := le_smul_ceilDiv (b := dividend) positive
    rw [smul_eq_mul] at covered
    by_contra short
    have fewer :
        dividend ⌈/⌉ divisor + 1 ≤
          dividend / divisor + if dividend % divisor > 0 then 1 else 0 := by
      omega
    have scaled := Nat.mul_le_mul_left divisor fewer
    rw [Nat.mul_add, Nat.mul_add] at scaled
    split_ifs at scaled <;> omega

theorem toNat_divCeil (positive : partSize ≠ 0) :
    (divCeil size partSize).toNat = size.toNat ⌈/⌉ partSize.toNat := by
  have filled := toNat_ne_zero positive
  have bounded := size.toNat_lt
  have split := Nat.div_add_mod size.toNat partSize.toNat
  have fewer : size.toNat / partSize.toNat ≤
      partSize.toNat * (size.toNat / partSize.toNat) :=
    Nat.le_mul_of_pos_left _ filled
  rw [ceilDiv_eq filled, divCeil]
  by_cases rest : size % partSize > 0
  · have rest' : size.toNat % partSize.toNat > 0 := by
      have positive' := UInt64.lt_iff_toNat_lt.1 rest
      rwa [UInt64.toNat_mod] at positive'
    have one : (1 : UInt64).toNat = 1 := rfl
    rw [if_pos rest, if_pos rest', UInt64.toNat_add, UInt64.toNat_div,
      one]
    exact Nat.mod_eq_of_lt (by omega)
  · have rest' : ¬ size.toNat % partSize.toNat > 0 := by
      intro positive'
      apply rest
      rw [gt_iff_lt, UInt64.lt_iff_toNat_lt, UInt64.toNat_mod]
      exact positive'
    rw [if_neg rest, if_neg rest', UInt64.toNat_div, Nat.add_zero]

/-- The part size is doubled until the parts are few enough, no further. -/
theorem scalePartSize_eq_ok
    (positive : partSize ≠ 0)
    (allowed : 0 < maxParts.toNat)
    (small : size.toNat < 2 ^ 63) :
    ∃ scaled doublings,
      scalePartSize size partSize maxParts = .ok scaled ∧
        scaled.toNat = partSize.toNat * 2 ^ doublings ∧
        size.toNat ≤ scaled.toNat * maxParts.toNat ∧
        ∀ fewer < doublings,
          partSize.toNat * 2 ^ fewer * maxParts.toNat < size.toNat := by
  induction partSize using scalePartSize.induct size maxParts with
  | case1 => exact absurd rfl positive
  | case2 partSize _ many next doubled hypothesis =>
      have grown := lt_of_checkedMul_two positive doubled
      have filled : next ≠ 0 := by
        rintro rfl
        exact absurd grown.2 (by simp)
      rcases hypothesis filled with
        ⟨scaled, doublings, found, size', fits, least⟩
      have more : partSize.toNat * maxParts.toNat < size.toNat := by
        rw [gt_iff_lt, UInt64.lt_iff_toNat_lt, toNat_divCeil positive,
          ← not_le, ceilDiv_le_iff_le_mul (toNat_ne_zero positive)] at many
        exact not_le.1 many
      refine ⟨scaled, doublings + 1, ?_, ?_, fits, ?_⟩
      · rw [scalePartSize, dif_neg positive, if_pos many]
        split
        next other doubled' =>
            rw [doubled] at doubled'
            cases doubled'
            exact found
        next stuck =>
            rw [doubled] at stuck
            cases stuck
      · rw [size', grown.1, Nat.pow_succ]
        ring
      · intro fewer below
        cases fewer with
        | zero => simpa using more
        | succ fewer =>
            have enough := least fewer (by omega)
            rw [grown.1] at enough
            rw [Nat.pow_succ]
            calc
              _ = 2 * partSize.toNat * 2 ^ fewer * maxParts.toNat := by ring
              _ < size.toNat := enough
  | case3 partSize _ many stuck =>
      -- A part size that cannot be doubled holds all of the body.
      exfalso
      have large : 2 ^ 63 ≤ partSize.toNat := by
        have two : (2 : UInt64).toNat = 2 := rfl
        rw [checkedMul, two] at stuck
        split at stuck
        · cases stuck
        · omega
      rw [gt_iff_lt, UInt64.lt_iff_toNat_lt, toNat_divCeil positive,
        ← not_le, ceilDiv_le_iff_le_mul (toNat_ne_zero positive)] at many
      apply many
      calc
        size.toNat ≤ partSize.toNat := by omega
        _ ≤ partSize.toNat * maxParts.toNat :=
          Nat.le_mul_of_pos_right _ allowed
  | case4 partSize _ few =>
      refine ⟨partSize, 0, ?_, ?_, ?_, ?_⟩
      · rw [scalePartSize, dif_neg positive, if_neg few]
      · rw [Nat.pow_zero, Nat.mul_one]
      · rw [gt_iff_lt, UInt64.lt_iff_toNat_lt, toNat_divCeil positive,
          not_lt, ceilDiv_le_iff_le_mul (toNat_ne_zero positive)] at few
        exact few
      · intro fewer below
        omega

/-! ## Plans -/

/-- Offset and length of a part. -/
def piece (part : UploadPart) : Nat × Nat :=
  (part.offset.toNat, part.length.toNat)

/-- Parts that are not empty, from offset 0 on without a gap, and few. -/
structure Planned (size maxParts : Nat) (parts : List UploadPart) :
    Prop where
  filled : ∀ part ∈ parts, 0 < part.length.toNat
  tiles : Tiles size 0 (parts.map piece)
  sum : (parts.map fun part => part.length.toNat).sum = size
  few : parts.length ≤ maxParts

/-- However often the target size is doubled: when the parts are few enough
they fit into a vector. -/
def Fits [Target] (size target maxParts : Nat) : Prop :=
  ∀ doublings,
    size ≤ target * 2 ^ doublings * maxParts →
    uploadPartSize * (size ⌈/⌉ (target * 2 ^ doublings)) ≤
      Target.isizeMax

/-- The parts of one size, and what is left. -/
def partsOf (size partSize : UInt64) : List UploadPart :=
  ((List.range (size / partSize).toNat).map fun index =>
    { offset := UInt64.ofNat index * partSize, length := partSize }) ++
    if size % partSize > 0 then
      [{ offset := size / partSize * partSize
         length := size % partSize }]
    else []

section Plan

variable {scaled : UInt64}

/-- The capacity of the plan's vector is found, when there is room. -/
theorem partCount_fits
    [Target]
    {full rest : Nat}
    (room : uploadPartSize * (full + rest) ≤ Target.isizeMax) :
    addUsize (min full usizeMax) rest = .ok (full + rest) := by
  rw [uploadPartSize] at room
  have below : full + rest ≤ usizeMax := by
    rw [usizeMax]
    omega
  rw [min_eq_left (by omega), addUsize, checkedAdd, if_pos below]

/-- Else the sum overflows, or the capacity does. -/
theorem partCount_panics
    [Target]
    {full rest : Nat}
    (crowded : Target.isizeMax < uploadPartSize * (full + rest)) :
    (addUsize (min full usizeMax) rest >>= withCapacity) ≠ .ok () := by
  intro counted
  rw [addUsize, checkedAdd] at counted
  by_cases below : min full usizeMax + rest ≤ usizeMax
  · rw [if_pos below] at counted
    simp only [Bind.bind, Except.bind, withCapacity] at counted
    rw [uploadPartSize] at crowded counted
    have wide := Target.wide
    by_cases large : full ≤ usizeMax
    · rw [min_eq_left large, if_neg (by omega)] at counted
      cases counted
    · rw [min_eq_right (by omega)] at counted
      have overfull : ¬ 16 * (usizeMax + rest) ≤ Target.isizeMax := by
        rw [usizeMax]
        omega
      rw [if_neg overfull] at counted
      cases counted
  · rw [if_neg below] at counted
    cases counted

theorem mul_eq_ok
    {left right : UInt64}
    (small : left.toNat * right.toNat < 2 ^ 64) :
    mul left right = .ok (left * right) := by
  rw [mul, checkedMul, if_pos small]

theorem toNat_mul
    {left right : UInt64}
    (small : left.toNat * right.toNat < 2 ^ 64) :
    (left * right).toNat = left.toNat * right.toNat := by
  rw [UInt64.toNat_mul, Nat.mod_eq_of_lt small]

/-- No offset of a full part overflows. -/
theorem offset_lt
    {index : Nat}
    (inside : index < (size / scaled).toNat) :
    (UInt64.ofNat index).toNat = index ∧
      index * scaled.toNat < 2 ^ 64 := by
  have bounded := size.toNat_lt
  have quotient := (size / scaled).toNat_lt
  have whole := Nat.div_mul_le_self size.toNat scaled.toNat
  rw [UInt64.toNat_div] at inside
  constructor
  · rw [UInt64.toNat_ofNat']
    exact Nat.mod_eq_of_lt (by rw [UInt64.toNat_div] at quotient; omega)
  · calc
      index * scaled.toNat ≤ size.toNat / scaled.toNat * scaled.toNat :=
        Nat.mul_le_mul_right _ inside.le
      _ ≤ size.toNat := whole
      _ < 2 ^ 64 := bounded

theorem fullParts_eq_ok (size scaled : UInt64) :
    ((List.range (size / scaled).toNat).mapM fun index => do
      let offset ← mul (UInt64.ofNat index) scaled
      return ({ offset := offset, length := scaled } : UploadPart)) =
      .ok ((List.range (size / scaled).toNat).map fun index =>
        { offset := UInt64.ofNat index * scaled, length := scaled }) := by
  rw [mapM_eq_ok, List.forall₂_map_right_iff, List.forall₂_same]
  intro index member
  rcases offset_lt (List.mem_range.1 member) with ⟨same, small⟩
  rw [mul_eq_ok (by rw [same]; exact small)]
  rfl

theorem rest_lt : (size / scaled).toNat * scaled.toNat < 2 ^ 64 := by
  rw [UInt64.toNat_div]
  exact
    Nat.lt_of_le_of_lt (Nat.div_mul_le_self size.toNat scaled.toNat)
      size.toNat_lt

theorem count_eq (filled : scaled ≠ 0) :
    (size / scaled).toNat + (if size % scaled > 0 then 1 else 0) =
      size.toNat ⌈/⌉ scaled.toNat := by
  rw [ceilDiv_eq (toNat_ne_zero filled), UInt64.toNat_div]
  congr 1

/-- With a part size, the plan is made or does not fit into a vector. -/
theorem planUploadParts_of_scaled
    [Target]
    (arguments : ¬ (size = 0 ∨ target = 0 ∨ maxParts = 0))
    (found : scalePartSize size target maxParts = .ok scaled)
    (filled : scaled ≠ 0) :
    (uploadPartSize * (size.toNat ⌈/⌉ scaled.toNat) ≤ Target.isizeMax →
      planUploadParts size target maxParts =
        .ok (partsOf size scaled)) ∧
    (Target.isizeMax < uploadPartSize * (size.toNat ⌈/⌉ scaled.toNat) →
      ∀ parts, planUploadParts size target maxParts ≠ .ok parts) := by
  rw [← count_eq filled]
  constructor
  · intro room
    have counted := partCount_fits room
    rw [planUploadParts, if_neg arguments, found]
    simp only [Bind.bind, Except.bind]
    rw [counted]
    simp only [withCapacity, if_pos room]
    have full := fullParts_eq_ok size scaled
    simp only [Bind.bind, Except.bind] at full
    rw [full]
    simp only [partsOf]
    split
    next rest =>
        rw [mul_eq_ok rest_lt]
        rfl
    next => simp [Pure.pure, Except.pure]
  · intro crowded parts planned
    have panics := partCount_panics crowded
    rw [planUploadParts, if_neg arguments, found] at planned
    rcases bind_eq_ok.1 planned with ⟨_, same, behindSize⟩
    cases same
    rcases bind_eq_ok.1 behindSize with ⟨count, counted, behindCount⟩
    rcases bind_eq_ok.1 behindCount with ⟨_, room, _⟩
    exact panics (bind_eq_ok.2 ⟨count, counted, room⟩)

theorem map_piece_full :
    ((List.range (size / scaled).toNat).map fun index =>
      piece { offset := UInt64.ofNat index * scaled, length := scaled }) =
      (List.range (size / scaled).toNat).map fun index =>
        (index * scaled.toNat, scaled.toNat) := by
  apply List.map_congr_left
  intro index member
  rcases offset_lt (List.mem_range.1 member) with ⟨same, small⟩
  rw [piece, toNat_mul (by rw [same]; exact small), same]

theorem tiles_partsOf (filled : scaled ≠ 0) :
    Tiles size.toNat 0 ((partsOf size scaled).map piece) := by
  have whole := Nat.div_add_mod' size.toNat scaled.toNat
  rw [← UInt64.toNat_div, ← UInt64.toNat_mod] at whole
  rw [partsOf, List.map_append, List.map_map]
  have full :
      Tiles ((size / scaled).toNat * scaled.toNat) 0
        ((List.range (size / scaled).toNat).map
          (piece ∘ fun index =>
            { offset := UInt64.ofNat index * scaled
              length := scaled })) := by
    have uniform :=
      tiles_uniform (toNat_ne_zero filled) (size / scaled).toNat
    rw [← map_piece_full] at uniform
    exact uniform
  apply full.append
  by_cases rest : size % scaled > 0
  · rw [if_pos rest, List.map_singleton, piece, toNat_mul rest_lt]
    exact ⟨rfl, UInt64.lt_iff_toNat_lt.1 rest, whole⟩
  · rw [if_neg rest]
    have none : (size % scaled).toNat = 0 := by
      rw [gt_iff_lt, UInt64.lt_iff_toNat_lt] at rest
      exact Nat.eq_zero_of_not_pos rest
    rw [none, Nat.add_zero] at whole
    exact whole

theorem length_partsOf (filled : scaled ≠ 0) :
    (partsOf size scaled).length = size.toNat ⌈/⌉ scaled.toNat := by
  rw [← count_eq filled, partsOf, List.length_append, List.length_map,
    List.length_range]
  split <;> rfl

theorem planned_partsOf
    (filled : scaled ≠ 0)
    (enough : size.toNat ≤ scaled.toNat * maxParts.toNat) :
    Planned size.toNat maxParts.toNat (partsOf size scaled) where
  filled := by
    intro part member
    exact (tiles_partsOf filled).filled (List.mem_map_of_mem member)
  tiles := tiles_partsOf filled
  sum := by
    have tiles : Tiles size.toNat 0 ((partsOf size scaled).map piece) :=
      tiles_partsOf filled
    have total := tiles.sum
    rw [Nat.zero_add, List.map_map] at total
    exact total
  few := by
    rw [length_partsOf filled,
      ceilDiv_le_iff_le_mul (toNat_ne_zero filled)]
    exact enough

/-- When a plan is made, and that it is right. -/
theorem plan_iff
    [Target]
    (body : 0 < size.toNat ∧ size.toNat < 2 ^ 63)
    (positive : 0 < target.toNat)
    (allowed : 0 < maxParts.toNat) :
    (∃ parts,
      planUploadParts size target maxParts = .ok parts ∧
        Planned size.toNat maxParts.toNat parts) ↔
      Fits size.toNat target.toNat maxParts.toNat := by
  have nonzero :
      ∀ value : UInt64, 0 < value.toNat → value ≠ 0 := by
    rintro value filled rfl
    exact absurd filled (by simp)
  have arguments : ¬ (size = 0 ∨ target = 0 ∨ maxParts = 0) := by
    simp [nonzero size body.1, nonzero target positive,
      nonzero maxParts allowed]
  rcases scalePartSize_eq_ok (nonzero target positive) allowed body.2 with
    ⟨scaled, doublings, found, same, enough, least⟩
  have scaledPositive : ∀ count, 0 < target.toNat * 2 ^ count :=
    fun count => Nat.mul_pos positive (Nat.two_pow_pos count)
  have filled : scaled ≠ 0 := by
    apply nonzero
    rw [same]
    exact scaledPositive doublings
  rcases planUploadParts_of_scaled arguments found filled with
    ⟨made, panics⟩
  rw [same] at made panics enough
  constructor
  · rintro ⟨parts, planned, _⟩ others few
    by_contra crowded
    have fewer : doublings ≤ others := by
      by_contra more
      exact absurd few (Nat.not_le.2 (least others (by omega)))
    have smaller :
        size.toNat ⌈/⌉ (target.toNat * 2 ^ others) ≤
          size.toNat ⌈/⌉ (target.toNat * 2 ^ doublings) := by
      rw [ceilDiv_le_iff_le_mul (scaledPositive others)]
      calc
        size.toNat ≤
            target.toNat * 2 ^ doublings *
              (size.toNat ⌈/⌉ (target.toNat * 2 ^ doublings)) :=
          le_smul_ceilDiv (scaledPositive doublings)
        _ ≤ _ :=
          Nat.mul_le_mul_right _
            (Nat.mul_le_mul_left _ (Nat.pow_le_pow_right two_pos fewer))
    refine panics (lt_of_lt_of_le (not_le.1 crowded) ?_) parts planned
    exact Nat.mul_le_mul_left _ smaller
  · intro fits
    refine ⟨_, made (fits doublings enough), ?_⟩
    apply planned_partsOf filled
    rw [same]
    exact enough

end Plan

/-! ## The committed object -/

variable {body : Bytes} {parts : List UploadPart}

theorem map_slicePart (body : Bytes) (parts : List UploadPart) :
    parts.map (slicePart body) = (parts.map piece).map (slice body) := by
  rw [List.map_map]
  rfl

/-- Naming the parts in the order of the plan commits the body. -/
theorem commit_stored
    {ν : Type}
    [DecidableEq ν]
    {name : Nat → ν}
    (distinct : ((List.range parts.length).map name).Nodup)
    (tiles : Tiles body.length 0 (parts.map piece))
    (arrival : Completion) :
    commit (stored name body parts arrival)
        ((List.range parts.length).map name) = some body := by
  have names :
      (List.range parts.length).map name =
        (parts.zipIdx.map Prod.swap).map fun entry => name entry.1 := by
    rw [List.map_map, List.range_eq_range', ← List.zipIdx_map_snd 0 parts,
      List.map_map]
    rfl
  have contents :
      (parts.zipIdx.map Prod.swap).map
          (fun entry => slicePart body entry.2) =
        parts.map (slicePart body) := by
    conv_rhs => rw [← List.zipIdx_map_fst 0 parts]
    rw [List.map_map, List.map_map]
    rfl
  rw [names] at distinct
  have found :
      ∀ entry ∈ parts.zipIdx.map Prod.swap,
        (stored name body parts arrival).lookup (name entry.1) =
          some (slicePart body entry.2) := by
    intro entry member
    have arrived :
        ((arrival.arrange (parts.zipIdx.map Prod.swap)).map
          fun entry => name entry.1).Nodup :=
      ((arrival.arrange_perm _).map _).nodup_iff.2 distinct
    exact lookup_collect arrived (Completion.mem_arrange.2 member)
  rw [commit, names, mapM_map_eq_some found, contents, Option.map_some,
    map_slicePart, tiles.flatten, List.drop_zero]

/-! ## S3 -/

section S3

variable {response : Nat → Except ObjectStoreError Text}

/-- What the tasks return, in the order in which they are started. -/
def s3Results
    (count : Nat)
    (response : Nat → Except ObjectStoreError Text) :
    List (Except ObjectStoreError CompletedPart) :=
  (List.range count).map fun idx =>
    (response idx).map fun eTag =>
      { partNumber := idx + 1, eTag := eTag }

/-- Every part number fits. -/
theorem s3Tasks_eq_ok
    (few : parts.length ≤ s3MaxParts.toNat) :
    s3Tasks parts response = .ok (s3Results parts.length response) := by
  have cap : s3MaxParts.toNat = 10000 := rfl
  rw [s3Tasks, s3Results, mapM_eq_ok, List.forall₂_map_right_iff,
    List.forall₂_same]
  intro idx member
  have inside := List.mem_range.1 member
  rw [partNumberFor, if_pos (by omega)]
  rfl

/-- The parts of a plan, in its order. -/
def InPlanOrder
    (response : Nat → Except ObjectStoreError Text)
    (count : Nat)
    (handed : List CompletedPart) : Prop :=
  List.Forall₂
    (fun idx part =>
      part.partNumber = idx + 1 ∧ response idx = .ok part.eTag)
    (List.range count) handed

theorem InPlanOrder.partNumbers
    {count : Nat}
    {handed : List CompletedPart}
    (ordered : InPlanOrder response count handed) :
    handed.map CompletedPart.partNumber =
      (List.range count).map (· + 1) := by
  rw [← List.forall₂_eq_eq_eq, List.forall₂_map_left_iff,
    List.forall₂_map_right_iff]
  exact ordered.flip.imp fun _ _ both => both.1

theorem inPlanOrder_of_s3Results
    {count : Nat}
    {started : List CompletedPart}
    (same : s3Results count response = started.map .ok) :
    InPlanOrder response count started := by
  rw [s3Results, ← List.forall₂_eq_eq_eq, List.forall₂_map_left_iff,
    List.forall₂_map_right_iff] at same
  refine same.imp fun idx part equal => ?_
  cases answered : response idx with
  | error error =>
      rw [answered] at equal
      cases equal
  | ok eTag =>
      rw [answered] at equal
      cases equal
      exact ⟨rfl, rfl⟩

/-- The order the parts are sorted by. -/
def NotAfter (left right : CompletedPart) : Prop :=
  left.partNumber ≤ right.partNumber

theorem pairwise_partNumbers (count : Nat) :
    ((List.range count).map (· + 1)).Pairwise (· < ·) := by
  rw [List.pairwise_map]
  exact (List.pairwise_lt_range).imp fun below => by omega

/-- Sorting by part number restores the order of the plan. -/
theorem joinCompletedParts_eq_ok
    {count : Nat}
    {completion : Completion}
    {handed : List CompletedPart}
    (joined :
      joinCompletedParts (completion.arrange (s3Results count response)) =
        .ok handed) :
    InPlanOrder response count handed := by
  rcases bind_eq_ok.1 joined with ⟨completed, collected, sorted⟩
  cases sorted
  rcases Completion.exists_of_mapM_arrange collected with
    ⟨started, same, permuted⟩
  have ordered := inPlanOrder_of_s3Results same
  have ascending :
      started.Pairwise fun left right =>
        left.partNumber < right.partNumber := by
    have numbers := pairwise_partNumbers count
    rw [← ordered.partNumbers, List.pairwise_map] at numbers
    exact numbers
  have restored :
      started =
        completed.mergeSort fun left right =>
          left.partNumber ≤ right.partNumber := by
    have antisymmetric :
        ∀ left right, left ∈ started →
          right ∈ (completed.mergeSort fun left right =>
            left.partNumber ≤ right.partNumber) →
          NotAfter left right → NotAfter right left → left = right := by
      intro left right first second below above
      have distinct : (started.map CompletedPart.partNumber).Nodup :=
        List.pairwise_map.2 (ascending.imp fun less => less.ne)
      have member : right ∈ started :=
        permuted.mem_iff.2 ((List.mergeSort_perm _ _).mem_iff.1 second)
      exact
        List.inj_on_of_nodup_map distinct first member
          (Nat.le_antisymm below above)
    have arranged :
        (completed.mergeSort fun left right =>
          left.partNumber ≤ right.partNumber).Pairwise
          fun left right =>
            decide (left.partNumber ≤ right.partNumber) = true :=
      List.pairwise_mergeSort
        (fun first second third => by
          simp only [decide_eq_true_eq]
          exact Nat.le_trans)
        (fun first second => by
          simp only [Bool.or_eq_true, decide_eq_true_eq]
          exact Nat.le_total _ _)
        completed
    have sorted :
        (completed.mergeSort fun left right =>
          left.partNumber ≤ right.partNumber).Pairwise NotAfter :=
      arranged.imp of_decide_eq_true
    exact
      List.Perm.eq_of_pairwise antisymmetric
        (ascending.imp fun less => less.le) sorted
        (permuted.trans (List.mergeSort_perm _ _).symm)
  rw [← restored]
  exact ordered

/-- All tasks that succeed are handed to the commit. -/
theorem exists_joinCompletedParts
    {count : Nat}
    (completion : Completion)
    (succeed : ∀ idx < count, ∃ eTag, response idx = .ok eTag) :
    ∃ handed,
      joinCompletedParts (completion.arrange (s3Results count response)) =
        .ok handed := by
  have each :
      ∀ outcome ∈ s3Results count response,
        ∃ part, outcome = .ok part := by
    intro outcome member
    rcases List.mem_map.1 member with ⟨idx, inside, rfl⟩
    rcases succeed idx (List.mem_range.1 inside) with ⟨eTag, answered⟩
    rw [answered]
    exact ⟨_, rfl⟩
  rcases completion.exists_mapM_arrange each with ⟨completed, collected⟩
  exact ⟨_, bind_eq_ok.2 ⟨completed, collected, rfl⟩⟩

end S3

/--
Uploads of a body to S3: every set of responses and every order of arrival
and of completion.
-/
def S3Reassembles [Target] (body : Bytes) (target : UInt64) : Prop :=
  ∃ parts,
    planUploadParts (UInt64.ofNat body.length) target s3MaxParts =
        .ok parts ∧
      ∀ response,
        ∃ tasks, s3Tasks parts response = .ok tasks ∧
          ∀ completion arrival : Completion,
            ((∀ idx < parts.length, ∃ eTag, response idx = .ok eTag) →
              ∃ handed,
                joinCompletedParts (completion.arrange tasks) =
                  .ok handed) ∧
            ∀ handed,
              joinCompletedParts (completion.arrange tasks) = .ok handed →
              InPlanOrder response parts.length handed ∧
                (handed.map CompletedPart.partNumber).Pairwise (· < ·) ∧
                commit (stored (· + 1) body parts arrival)
                    (handed.map CompletedPart.partNumber) =
                  some body

/-- With few parts, a plan always fits into a vector. -/
theorem fits_of_cap
    [Target]
    {size target cap : Nat}
    (positive : 0 < target)
    (capped : cap ≤ 50000) :
    Fits size target cap := by
  intro doublings few
  have count :
      size ⌈/⌉ (target * 2 ^ doublings) ≤ cap :=
    (ceilDiv_le_iff_le_mul
      (Nat.mul_pos positive (Nat.two_pow_pos doublings))).2 few
  have wide := Target.wide
  rw [uploadPartSize]
  omega

theorem exists_plan
    [Target]
    {cap : UInt64}
    (size : 0 < body.length ∧ body.length < 2 ^ 63)
    (positive : 0 < target.toNat)
    (capped : 0 < cap.toNat ∧ cap.toNat ≤ 50000) :
    ∃ parts,
      planUploadParts (UInt64.ofNat body.length) target cap = .ok parts ∧
        Planned body.length cap.toNat parts := by
  have length : (UInt64.ofNat body.length).toNat = body.length := by
    rw [UInt64.toNat_ofNat']
    exact Nat.mod_eq_of_lt (by omega)
  have bounded :
      0 < (UInt64.ofNat body.length).toNat ∧
        (UInt64.ofNat body.length).toNat < 2 ^ 63 := by
    rw [length]
    exact size
  have planned :=
    (plan_iff bounded positive capped.1).2 (fits_of_cap positive capped.2)
  rw [length] at planned
  exact planned

theorem s3Reassembles
    [Target]
    (size : 0 < body.length ∧ body.length < 2 ^ 63)
    (positive : 0 < target.toNat) :
    S3Reassembles body target := by
  have cap : 0 < s3MaxParts.toNat ∧ s3MaxParts.toNat ≤ 50000 := by
    decide
  rcases exists_plan size positive cap with ⟨parts, made, planned⟩
  refine ⟨parts, made, fun response => ?_⟩
  refine ⟨_, s3Tasks_eq_ok planned.few, fun completion arrival => ?_⟩
  refine ⟨exists_joinCompletedParts completion, fun handed joined => ?_⟩
  have ordered := joinCompletedParts_eq_ok joined
  have numbers := pairwise_partNumbers parts.length
  have distinct : ((List.range parts.length).map (· + 1)).Nodup :=
    numbers.imp fun less => less.ne
  refine ⟨ordered, ?_, ?_⟩
  · rw [ordered.partNumbers]
    exact numbers
  · rw [ordered.partNumbers]
    exact commit_stored distinct planned.tiles arrival

/-! ## Azure -/

/-- The number a block id spells. -/
def blockNumber (blockId : Bytes) : Nat :=
  blockId.foldl (fun number byte => 10 * number + (byte.toNat - 48)) 0

theorem foldl_digits
    {digits : Text}
    (decimal : ∀ digit ∈ digits, digit.isDigit = true)
    (number : Nat) :
    (digits.map fun digit => UInt8.ofNat digit.toNat).foldl
        (fun number byte => 10 * number + (byte.toNat - 48)) number =
      Nat.ofDigitChars 10 digits number := by
  induction digits generalizing number with
  | nil => rfl
  | cons digit rest hypothesis =>
      have small : digit.toNat < 256 := by
        have bounds := decimal digit List.mem_cons_self
        rw [Char.isDigit_iff_toNat] at bounds
        have nine : '9'.toNat = 57 := rfl
        omega
      have byte : (UInt8.ofNat digit.toNat).toNat = digit.toNat := by
        rw [UInt8.toNat_ofNat']
        exact Nat.mod_eq_of_lt small
      rw [List.map_cons, List.foldl_cons, byte,
        hypothesis fun other member =>
          decimal other (List.mem_cons_of_mem _ member),
        Nat.ofDigitChars_cons]
      rfl

theorem blockNumber_blockIdFor (idx : Nat) :
    blockNumber (blockIdFor idx) = idx + 1 := by
  have decimal :
      ∀ digit ∈ (Nat.toDigits 10 (idx + 1)).leftpad 32 '0',
        digit.isDigit = true := by
    intro digit member
    rw [List.leftpad, List.mem_append] at member
    rcases member with padding | written
    · rw [List.eq_of_mem_replicate padding]
      rfl
    · exact Nat.isDigit_of_mem_toDigits (by decide) (by decide) written
  rw [blockNumber, blockIdFor, foldl_digits decimal, List.leftpad,
    Nat.ofDigitChars_append, Nat.ofDigitChars_replicate_zero,
    Nat.mul_zero, Nat.ofDigitChars_toDigits (by decide) (by decide)]

theorem blockIdFor_injective : Function.Injective blockIdFor := by
  intro first second same
  have numbers := congrArg blockNumber same
  rw [blockNumber_blockIdFor, blockNumber_blockIdFor] at numbers
  exact Nat.succ.inj numbers

/-- The slots once all entries have been put into them. -/
def filled (entries : List (Nat × Bytes)) (staged : List (Option Bytes)) :
    List (Option Bytes) :=
  entries.foldl (fun slots entry => slots.set entry.1 (some entry.2)) staged

theorem fillSlots_eq_ok_iff
    {joined : List (Except ObjectStoreError (Nat × Bytes))}
    {staged result : List (Option Bytes)} :
    fillSlots joined staged = .ok result ↔
      ∃ entries, joined = entries.map .ok ∧
        (∀ entry ∈ entries, entry.1 < staged.length) ∧
        result = filled entries staged := by
  induction joined generalizing staged with
  | nil =>
      rw [fillSlots]
      constructor
      · intro same
        cases same
        exact ⟨[], rfl, by simp, rfl⟩
      · rintro ⟨entries, none, _, rfl⟩
        rw [List.map_eq_nil_iff.1 none.symm]
        rfl
  | cons first rest hypothesis =>
      cases first with
      | error error =>
          rw [fillSlots]
          constructor
          · exact fun impossible => nomatch impossible
          · rintro ⟨entries, same, _⟩
            cases entries with
            | nil => cases same
            | cons entry entries => cases same
      | ok entry =>
          rcases entry with ⟨idx, blockId⟩
          rw [fillSlots]
          constructor
          · intro run
            split at run
            next inside =>
                rcases hypothesis.1 run with ⟨entries, rfl, within, rfl⟩
                refine ⟨(idx, blockId) :: entries, rfl, ?_, rfl⟩
                intro entry member
                rcases List.mem_cons.1 member with rfl | later
                · exact inside
                · have below := within entry later
                  rwa [List.length_set] at below
            next => cases run
          · rintro ⟨entries, same, within, rfl⟩
            cases entries with
            | nil => cases same
            | cons entry entries =>
                rw [List.map_cons, List.cons.injEq] at same
                rcases same with ⟨head, rfl⟩
                cases head
                rw [if_pos (within _ List.mem_cons_self)]
                refine hypothesis.2 ⟨entries, rfl, ?_, rfl⟩
                intro other member
                rw [List.length_set]
                exact within other (List.mem_cons_of_mem _ member)

theorem length_filled
    (entries : List (Nat × Bytes))
    (staged : List (Option Bytes)) :
    (filled entries staged).length = staged.length := by
  induction entries generalizing staged with
  | nil => rfl
  | cons entry rest hypothesis =>
      exact (hypothesis _).trans (List.length_set ..)

/-- The slot of an entry holds the id of that entry. -/
theorem getElem?_filled
    {entries : List (Nat × Bytes)}
    {staged : List (Option Bytes)}
    {idx : Nat}
    (own : ∀ entry ∈ entries, entry.2 = blockIdFor entry.1)
    (inside : idx < staged.length) :
    (filled entries staged)[idx]? =
      if idx ∈ entries.map Prod.fst then some (some (blockIdFor idx))
      else staged[idx]? := by
  induction entries generalizing staged with
  | nil => rfl
  | cons entry rest hypothesis =>
      have later :
          (filled rest (staged.set entry.1 (some entry.2)))[idx]? = _ :=
        hypothesis
          (fun other member => own other (List.mem_cons_of_mem _ member))
          (by rwa [List.length_set])
      change (filled rest (staged.set entry.1 (some entry.2)))[idx]? = _
      rw [later, List.map_cons]
      by_cases again : idx ∈ rest.map Prod.fst
      · rw [if_pos again, if_pos (List.mem_cons_of_mem _ again)]
      · rw [if_neg again]
        by_cases here : idx = entry.1
        · subst here
          rw [if_pos List.mem_cons_self, List.getElem?_set_self inside,
            own entry List.mem_cons_self]
        · have absent : ¬ idx ∈ entry.1 :: rest.map Prod.fst := by
            rw [List.mem_cons, not_or]
            exact ⟨here, again⟩
          rw [if_neg absent, List.getElem?_set_ne (Ne.symm here)]

section Azure

variable {response : Nat → Except ObjectStoreError Unit} {count : Nat}

/-- What the tasks return, in the order in which they are started. -/
def azureResults
    (count : Nat)
    (response : Nat → Except ObjectStoreError Unit) :
    List (Except ObjectStoreError (Nat × Bytes)) :=
  (List.range count).map fun idx =>
    (response idx).map fun _ => (idx, blockIdFor idx)

theorem started_of_azureResults
    {started : List (Nat × Bytes)}
    (same : azureResults count response = started.map .ok) :
    started = (List.range count).map fun idx => (idx, blockIdFor idx) := by
  rw [azureResults, ← List.forall₂_eq_eq_eq, List.forall₂_map_left_iff,
    List.forall₂_map_right_iff] at same
  rw [← List.forall₂_eq_eq_eq, List.forall₂_map_right_iff]
  refine same.flip.imp fun entry idx equal => ?_
  cases answered : response idx with
  | error error =>
      rw [answered] at equal
      cases equal
  | ok _ =>
      rw [answered] at equal
      cases equal
      rfl

/-- The slots are filled in the order of the plan. -/
theorem filled_of_perm
    {entries : List (Nat × Bytes)}
    (permuted :
      ((List.range count).map fun idx => (idx, blockIdFor idx)).Perm
        entries) :
    filled entries (List.replicate count none) =
      ((List.range count).map blockIdFor).map some := by
  have own : ∀ entry ∈ entries, entry.2 = blockIdFor entry.1 := by
    intro entry member
    rcases List.mem_map.1 (permuted.mem_iff.2 member) with ⟨idx, _, rfl⟩
    rfl
  apply List.ext_getElem?
  intro idx
  by_cases inside : idx < count
  · have named : idx ∈ entries.map Prod.fst := by
      rw [List.mem_map]
      exact
        ⟨(idx, blockIdFor idx),
          permuted.mem_iff.1
            (List.mem_map_of_mem (List.mem_range.2 inside)), rfl⟩
    rw [getElem?_filled own (by simpa using inside), if_pos named]
    simp [inside]
  · rw [List.getElem?_eq_none (by simpa [length_filled] using inside),
      List.getElem?_eq_none (by simpa using inside)]

theorem slots_eq_ok (blockIds : List Bytes) :
    ((blockIds.map some).mapM fun slot =>
      match slot with
      | some blockId => Except.ok blockId
      | none => .error (Stop.error .other)) = .ok blockIds := by
  rw [mapM_eq_ok, List.forall₂_map_left_iff, List.forall₂_same]
  exact fun _ _ => rfl

/-- The ids are handed over in the order of the plan. -/
theorem joinStagedBlocks_eq_ok
    {completion : Completion}
    {handed : List Bytes}
    (joined :
      joinStagedBlocks (completion.arrange (azureResults count response))
          count = .ok handed) :
    handed = (List.range count).map blockIdFor := by
  rcases bind_eq_ok.1 joined with ⟨staged, filling, collected⟩
  rcases fillSlots_eq_ok_iff.1 filling with ⟨entries, same, _, rfl⟩
  rcases Completion.exists_of_mapM_arrange (mapM_id_eq_ok.2 same) with
    ⟨started, results, permuted⟩
  rw [started_of_azureResults results] at permuted
  rw [filled_of_perm permuted] at collected
  have same' := (slots_eq_ok ((List.range count).map blockIdFor)).symm.trans
    collected
  cases same'
  rfl

/-- When all tasks succeed, every slot is filled. -/
theorem exists_joinStagedBlocks
    (completion : Completion)
    (succeed : ∀ idx < count, response idx = .ok ()) :
    ∃ handed,
      joinStagedBlocks (completion.arrange (azureResults count response))
          count = .ok handed := by
  have each :
      ∀ outcome ∈ azureResults count response,
        ∃ entry, outcome = .ok entry := by
    intro outcome member
    rcases List.mem_map.1 member with ⟨idx, inside, rfl⟩
    rw [succeed idx (List.mem_range.1 inside)]
    exact ⟨_, rfl⟩
  rcases completion.exists_mapM_arrange each with ⟨entries, collected⟩
  rcases Completion.exists_of_mapM_arrange collected with
    ⟨started, results, permuted⟩
  have known := started_of_azureResults results
  have within :
      ∀ entry ∈ entries,
        entry.1 < (List.replicate count (none : Option Bytes)).length := by
    intro entry member
    have listed := permuted.mem_iff.2 member
    rw [known, List.mem_map] at listed
    rcases listed with ⟨idx, inside, rfl⟩
    rw [List.length_replicate]
    exact List.mem_range.1 inside
  have filling :=
    fillSlots_eq_ok_iff.2 ⟨entries, mapM_id_eq_ok.1 collected, within, rfl⟩
  rw [known] at permuted
  refine
    ⟨(List.range count).map blockIdFor, bind_eq_ok.2 ⟨_, filling, ?_⟩⟩
  rw [filled_of_perm permuted]
  exact slots_eq_ok _

end Azure

/--
Uploads of a body to Azure: every set of responses and every order of arrival
and of completion.
-/
def AzureReassembles [Target] (body : Bytes) (target : UInt64) : Prop :=
  ∃ parts,
    planUploadParts (UInt64.ofNat body.length) target azureMaxBlocks =
        .ok parts ∧
      ∀ (response : Nat → Except ObjectStoreError Unit)
        (completion arrival : Completion),
        ((∀ idx < parts.length, response idx = .ok ()) →
          ∃ handed,
            joinStagedBlocks (completion.arrange (azureTasks parts response))
              parts.length = .ok handed) ∧
        ∀ handed,
          joinStagedBlocks (completion.arrange (azureTasks parts response))
              parts.length = .ok handed →
          handed = (List.range parts.length).map blockIdFor ∧
            handed.Nodup ∧
            commit (stored blockIdFor body parts arrival) handed = some body

theorem azureReassembles
    [Target]
    (size : 0 < body.length ∧ body.length < 2 ^ 63)
    (positive : 0 < target.toNat) :
    AzureReassembles body target := by
  have cap : 0 < azureMaxBlocks.toNat ∧ azureMaxBlocks.toNat ≤ 50000 := by
    decide
  rcases exists_plan size positive cap with ⟨parts, made, planned⟩
  refine ⟨parts, made, fun response completion arrival => ?_⟩
  refine ⟨exists_joinStagedBlocks completion, fun handed joined => ?_⟩
  have ordered := joinStagedBlocks_eq_ok joined
  have distinct : ((List.range parts.length).map blockIdFor).Nodup :=
    List.nodup_range.map blockIdFor_injective
  subst ordered
  exact ⟨rfl, distinct, commit_stored distinct planned.tiles arrival⟩

/-! ## Plans and uploads -/

/--
A plan is made, and is right, exactly when it fits into a vector; under the
caps of both backends it is made, and what is committed is the body.
-/
theorem multipart_iff
    [Target]
    (size target maxParts : UInt64)
    (body : Bytes)
    (bounded : 0 < size.toNat ∧ size.toNat < 2 ^ 63)
    (length : body.length = size.toNat)
    (positive : 0 < target.toNat)
    (allowed : 0 < maxParts.toNat) :
    ((∃ parts,
      planUploadParts size target maxParts = .ok parts ∧
        Planned size.toNat maxParts.toNat parts) ↔
      Fits size.toNat target.toNat maxParts.toNat) ∧
    S3Reassembles body target ∧ AzureReassembles body target := by
  rw [← length] at bounded
  refine ⟨?_, s3Reassembles bounded positive,
    azureReassembles bounded positive⟩
  rw [length] at bounded
  exact plan_iff bounded positive allowed

/-! ## Small and large bodies -/

/-- A target of 64 bits. -/
@[reducible]
def wideTarget : Target where
  isizeMax := 2 ^ 63 - 1
  wide := by decide
  narrow := le_rfl

section Bodies

attribute [local instance] wideTarget

theorem multipart_iff_small :
    (∃ parts,
      planUploadParts 5 2 4 = .ok parts ∧ Planned 5 4 parts) ∧
    S3Reassembles [1, 2, 3, 4, 5] 2 ∧
    AzureReassembles [1, 2, 3, 4, 5] 2 := by
  have result :=
    multipart_iff 5 2 4 [1, 2, 3, 4, 5] (by decide) rfl (by decide)
      (by decide)
  exact ⟨result.1.2 (fits_of_cap (by decide) (by decide)), result.2⟩

/-- `i64::MAX` parts of one byte are no capacity of a vector. -/
theorem not_planned_wide :
    ¬ ∃ parts,
      planUploadParts 0x7fffffffffffffff 1 0xffffffffffffffff =
          .ok parts ∧
        Planned (2 ^ 63 - 1) (2 ^ 64 - 1) parts := by
  rintro ⟨parts, planned, _⟩
  have one : (1 : UInt64) ≠ 0 := by decide
  have scaled :
      scalePartSize 0x7fffffffffffffff 1 0xffffffffffffffff = .ok 1 := by
    rw [scalePartSize, dif_neg one, if_neg (by decide +kernel)]
  exact
    (planUploadParts_of_scaled (by decide +kernel) scaled one).2
      (by decide +kernel) parts planned

end Bodies

end GitRemoteObjectStore.Multipart
