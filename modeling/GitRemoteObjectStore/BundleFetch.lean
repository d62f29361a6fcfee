import GitRemoteObjectStore.BundleHeader
import GitRemoteObjectStore.FetchClosure
import GitRemoteObjectStore.Repl
import GitRemoteObjectStore.ShallowFile

/-!
# Fetch under the bundle engine

The commands of a batch are tasks that run at the same time.  Each downloads
the bundle of its reference and name and installs it, unless this session has
done so already, and then collects where the history is to be cut off.  Once
all tasks have ended, and none has failed, the cuts are written.
-/

namespace GitRemoteObjectStore.BundleFetch

open CallProgram Prog Closure
open FetchClosure (atMoments)
open PercentEncoding (utf8)
open Repl (Depth)

/-! ## Unbundling -/

/-- How the system calls of an unbundling end. -/
structure UnbundleIo where
  /-- Opening the file and the repository, and making the pack directory. -/
  prepared : Except GitError Unit
  /-- `gix_pack::Bundle::write_to_directory` -/
  written : Except GitError Unit
  /-- Removing the `.keep` file. -/
  released : Except GitError Unit

/--
`bundle::unbundle`, with the objects of the pack after the header, and the
local database afterwards.
-/
def unbundle
    (packObjects : List UInt8 → Option (Finset Sha))
    (io : UnbundleIo)
    (odb : Odb)
    (bundleFile : List UInt8) : Except GitError Unit × Odb :=
  match io.prepared with
  | .error error => (.error error, odb)
  | .ok () =>
      match (BundleHeader.read bundleFile).1 with
      | .error _ => (.error .bundle, odb)
      | .ok header =>
          if header.prerequisites.any fun prereq => prereq ∉ odb then
            (.error .bundle, odb)
          else
            match packObjects (bundleFile.drop header.packOffset) with
            | none => (.error .bundle, odb)
            | some found =>
                match io.written with
                | .error error => (.error error, odb)
                | .ok () => (io.released, odb ∪ found)

/-! ## The commands -/

inductive FetchError where
  | parse (line : Text)
  | sha (hex : Text)
  | ref (name : Text)
  | store (error : ObjectStoreError)
  | git (error : GitError)
deriving DecidableEq

section Commands

variable [Platform]

/-- `parse_fetch_args` -/
def parseFetchArgs (args : Text) : Except FetchError (Sha × RefName) :=
  if ' ' ∉ args then .error (.parse args)
  else
    let hex := args.takeWhile (· ≠ ' ')
    let name := (args.dropWhile (· ≠ ' ')).drop 1
    if hex = [] ∨ name = [] ∨ ' ' ∈ name then .error (.parse args)
    else
      match fromHex? (utf8 hex) with
      | none => .error (.sha hex)
      | some sha =>
          match RefName.new name with
          | none => .error (.ref name)
          | some refName => .ok (sha, refName)

/-- What a task does to the session, the repository and the bucket. -/
inductive FetchCall where
  /-- `FetchedRefs::contains` -/
  | contains (sha : Sha)
  | getToFile (key : Text)
  | unbundleAt (body : Body)
  /-- `FetchedRefs::insert` -/
  | insert (sha : Sha)
  | shallowBoundaries (sha : Sha) (depth : Depth)
  /-- `ShallowBoundaries::extend` -/
  | extend (ids : List Sha)

abbrev FetchReply : FetchCall → Type
  | .contains _ => Bool
  | .getToFile _ => Except ObjectStoreError Body
  | .unbundleAt _ => Except GitError Unit
  | .insert _ => Unit
  | .shallowBoundaries _ _ => Except GitError (List Sha)
  | .extend _ => Unit

abbrev FetchProgram (α : Type) : Type :=
  Prog FetchCall FetchReply FetchError α

variable (bucketPrefix : Option Text) (depth : Option Depth)

/-- Download the bundle of a name and install it. -/
def installBundle (sha : Sha) (refName : RefName) : FetchProgram Unit :=
  .call (.getToFile (bundleKey bucketPrefix refName sha)) fun downloaded =>
    match downloaded with
    | .error error => .fail (.store error)
    | .ok body =>
        .call (.unbundleAt body) fun installed =>
          match installed with
          | .error error => .fail (.git error)
          | .ok () => .call (.insert sha) .done

/-- Collect where the history of a name is cut off. -/
def collectBoundaries (sha : Sha) : FetchProgram Unit :=
  match depth with
  | none => .done ()
  | some depth =>
      .call (.shallowBoundaries sha depth) fun found =>
        match found with
        | .error error => .fail (.git error)
        | .ok ids => .call (.extend ids) .done

/-- `fetch_one` -/
def fetchOne (sha : Sha) (refName : RefName) : FetchProgram Unit :=
  .call (.contains sha) fun fetched =>
    (if fetched then .done () else installBundle bucketPrefix sha refName)
      >>= fun _ => collectBoundaries depth sha

/-- The task of a command. -/
def fetchTask (cmd : Text) : FetchProgram Unit :=
  match parseFetchArgs cmd with
  | .error error => .fail error
  | .ok (sha, refName) => fetchOne bucketPrefix depth sha refName

end Commands

/-! ## What the tasks share -/

/-- The state of a session, at a moment of the bucket's. -/
structure Session where
  moment : Nat
  odb : Odb
  fetchedRefs : List Sha
  boundaries : List Sha

/-- The same session a moment later. -/
def Session.next (session : Session) : Session :=
  { session with moment := session.moment + 1 }

/-- What surrounds a session, moment by moment. -/
structure Surroundings where
  buckets : Nat → World
  faults : Nat → Option ObjectStoreError
  /-- `git::unbundle_at`, with the file's content. -/
  unbundleAt : Nat → Odb → Body → Except GitError Unit × Odb
  /-- `gix::open`, before the boundaries are looked for. -/
  opened : Nat → Except GitError Unit

section Batches

variable
    [Platform]
    (objects : Objects)
    (around : Surroundings)

/-- What the calls of the tasks do. -/
def serve : Handler FetchCall FetchReply Session
  | .contains sha, session =>
      (decide (sha ∈ session.fetchedRefs), session.next)
  | .getToFile key, session =>
      ((atMoments around.buckets around.faults (.get key)
          session.moment).1,
        session.next)
  | .unbundleAt body, session =>
      let unbundled := around.unbundleAt session.moment session.odb body
      (unbundled.1, { session.next with odb := unbundled.2 })
  | .insert sha, session =>
      ((), { session.next with fetchedRefs := sha :: session.fetchedRefs })
  | .shallowBoundaries sha depth, session =>
      (match around.opened session.moment with
        | .error error => .error error
        | .ok () =>
            shallowBoundaries objects session.odb sha depth.value,
        session.next)
  | .extend ids, session =>
      ((), { session.next with boundaries := session.boundaries ++ ids })

variable
    (bucketPrefix : Option Text)
    (depth : Option Depth)
    (cmds : List Text)

/-- The tasks of a batch; time passes between their calls. -/
def tasks :
    System Nat { cmd // cmd ∈ cmds } FetchCall FetchReply FetchError Unit
      Session where
  handler := fun _ => serve objects around
  begin := fun _ session => session
  elapse := fun duration session =>
    { session with moment := session.moment + duration }
  prepare := fun cmd =>
    fetchTask bucketPrefix depth cmd.1 >>= fun _ => .done (some ())
  work := fun _ => .done ()

/-- The tasks of a batch, between two steps. -/
abbrev Tasks : Type :=
  Pool Nat { cmd // cmd ∈ cmds } FetchCall FetchReply FetchError Unit
    Session

variable {cmds}

/-- Each task is spawned for its own command, and runs to its end. -/
def Spawned
    (_tasks : Tasks cmds) :
    Action Nat { cmd // cmd ∈ cmds } → Prop
  | .start task cmd => cmds[task]? = some cmd.1
  | .call _ => True
  | .elapse _ => True
  | _ => False

instance
    (tasks : Tasks cmds)
    (action : Action Nat { cmd // cmd ∈ cmds }) :
    Decidable (Spawned tasks action) :=
  match action with
  | .start task cmd => inferInstanceAs (Decidable (cmds[task]? = some cmd.1))
  | .call _ => .isTrue trivial
  | .elapse _ => .isTrue trivial
  | .settle _ => .isFalse id
  | .giveUp _ => .isFalse id
  | .lock _ => .isFalse id
  | .atomic _ => .isFalse id

/-- How a task has ended, if it has. -/
def outcome? :
    Phase { cmd // cmd ∈ cmds } FetchCall FetchReply FetchError Unit →
      Option (Except FetchError Unit)
  | .preparing _ (.done (some ())) => some (.ok ())
  | .preparing _ (.fail error) => some (.error error)
  | _ => none

/-- All tasks have ended and were joined in some order. -/
def Joined
    (tasks : Tasks cmds)
    (results : List (Except FetchError Unit)) : Prop :=
  ∃ order : List Nat,
    order.Perm (List.range cmds.length) ∧
      order.map (fun task => outcome? (tasks.phase task)) =
        results.map some

/-- The error to report so far, after one more result. -/
def keepFirst
    (first : Option FetchError) :
    Except FetchError Unit → Option FetchError
  | .ok () => first
  | .error error => first.or (some error)

/-- The first error among the joined results. -/
def firstErr (results : List (Except FetchError Unit)) :
    Option FetchError :=
  results.foldl keepFirst none

/--
What `fetch_batch` does once its tasks are joined, with the shallow file
there is before, if any, and the one there is afterwards.
-/
def finishBatch
    (io : ShallowIo)
    (results : List (Except FetchError Unit))
    (drained : List Sha)
    (odb : Odb)
    (file : Option (List UInt8)) :
    Except FetchError Unit × Option (List UInt8) :=
  match firstErr results, depth with
  | some error, _ => (.error error, file)
  | none, none => (.ok (), file)
  | none, some _ =>
      if results = [] then (.ok (), file)
      else
        let written := writeShallowFile objects odb io drained file
        (written.1.mapError .git, written.2)

end Batches

end GitRemoteObjectStore.BundleFetch
