import GitRemoteObjectStore.Compact
import GitRemoteObjectStore.Doctor

/-!
# Protecting a branch

The marker `<prefix>/<ref>/PROTECTED#` is written and removed under the
reference's lock.  Before writing it the branch is listed again, so that one
deleted in the meantime gets no marker; locks and an older marker do not
count as the branch.
-/

namespace GitRemoteObjectStore

open CallProgram Prog

variable [Platform]

/-- A branch that has objects, or none. -/
def openBranch
    (bucketPrefix : Option Text)
    (refName : RefName) : Program ManageError Unit := do
  let opened ←
    (Store.list (refListingPrefix bucketPrefix refName)).mapError .store
  if opened.isEmpty then .fail .branchNotFound else return ()

/-- Work under the lock; a failed release is only logged. -/
def withRefLock
    (bucketPrefix : Option Text)
    (refName : RefName)
    (ttl : Int)
    (work : Program ManageError Unit) : Program ManageError Unit := do
  let now ← nowUtc
  match ← (holdingLock (lockKey bucketPrefix refName) ttl now
      work).mapError .store with
  | none => .fail .lockContended
  | some (result, _) => Prog.ofExcept result

/-- Write the marker unless the branch is gone. -/
def protectUnderLock
    (bucketPrefix : Option Text)
    (refName : RefName) : Program ManageError Unit := do
  let fresh ←
    (Store.list (refListingPrefix bucketPrefix refName)).mapError .store
  if !Doctor.hasBranchData fresh then .fail .branchNotFound
  else
    (Store.putBytes (protectedMarkerKey bucketPrefix refName)
      (.text [])).mapError .store

/-- Delete the marker; one that is not there is no error. -/
def unprotectUnderLock
    (bucketPrefix : Option Text)
    (refName : RefName) : Program ManageError Unit := do
  match ← (Store.delete
      (protectedMarkerKey bucketPrefix refName)).attempt with
  | .ok () => return ()
  | .error (.notFound _) => return ()
  | .error error => .fail (.store error)

/-- Open a branch and protect it. -/
def protect
    (bucketPrefix : Option Text)
    (refName : RefName)
    (ttl : Int) : Program ManageError Unit := do
  openBranch bucketPrefix refName
  withRefLock bucketPrefix refName ttl
    (protectUnderLock bucketPrefix refName)

/-- Open a branch and unprotect it. -/
def unprotect
    (bucketPrefix : Option Text)
    (refName : RefName)
    (ttl : Int) : Program ManageError Unit := do
  openBranch bucketPrefix refName
  withRefLock bucketPrefix refName ttl
    (unprotectUnderLock bucketPrefix refName)

end GitRemoteObjectStore
