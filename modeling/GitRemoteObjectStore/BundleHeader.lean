import GitRemoteObjectStore.Keys
import GitRemoteObjectStore.ObjectIds
import GitRemoteObjectStore.Library.BoundedRead

/-!
# The header of a bundle

A bundle begins with lines of text: the magic, the prerequisites, the
references and a blank line; behind it stands the pack.  The reader takes one
line after another under two caps, one on each line and one on all of them.
-/

namespace GitRemoteObjectStore

open PercentEncoding BoundedRead

/-! ## Reading -/

/-- First line of every bundle. -/
def bundleV2Magic : Text := lit "# v2 git bundle"

/-- First line of a bundle of the version that is not supported. -/
def bundleV3Magic : Text := lit "# v3 git bundle"

def maxHeaderLineBytes : Nat := 16 * 1024

def maxHeaderTotalBytes : Nat := 64 * 1024 * 1024

/-- Which line an object name is from. -/
inductive HeaderContext where
  | prerequisite
  | ref
deriving DecidableEq

/--
`BundleError`; the text of an `InvalidHeader` is made from what is kept here.
-/
inductive BundleError where
  | unsupportedVersion (version : Nat)
  | wrongMagic (found : Text)
  | totalExceeded
  | lineExceeded
  | unexpectedEnd
  | notUtf8
  | emptyRefLine (line : Text)
  | missingRefName (line : Text)
  | badSha (context : HeaderContext) (shaHex : Text)
  | truncatedPack
  | wrongPackMagic
deriving DecidableEq

structure BundleHeader where
  version : Nat
  prerequisites : List Sha
  refs : List (Sha × List UInt8)
  packOffset : Nat
deriving DecidableEq

/-- A file that is being read, and what its reader keeps. -/
structure HeaderReader where
  rest : List UInt8
  /-- How many bytes each line so far has taken from the file. -/
  taken : List Nat
  totalBytes : Nat

namespace HeaderReader

/-- `stream_position` -/
def streamPosition (reader : HeaderReader) : Nat :=
  reader.taken.sum

def start (file : List UInt8) : HeaderReader :=
  ⟨file, [], 0⟩

end HeaderReader

/-- What the next line may take. -/
def headerBudget (totalBytes : Nat) : Nat :=
  min maxHeaderLineBytes (maxHeaderTotalBytes - totalBytes)

/-- `read_header_line` -/
def readHeaderLine (reader : HeaderReader) :
    Except BundleError Text × HeaderReader :=
  let budget := headerBudget reader.totalBytes
  if budget = 0 then (.error .totalExceeded, reader)
  else
    let buf := (readUntil lineFeed budget reader.rest).1
    let rest := (readUntil lineFeed budget reader.rest).2
    let taken := reader.taken ++ [buf.length]
    if buf.length = 0 then
      (.error .unexpectedEnd, ⟨rest, taken, reader.totalBytes⟩)
    else if buf.length = budget ∧ buf.getLast? ≠ some lineFeed then
      (.error
          (if budget < maxHeaderLineBytes then .totalExceeded
          else .lineExceeded),
        ⟨rest, taken, reader.totalBytes⟩)
    else
      let after := ⟨rest, taken, reader.totalBytes + buf.length⟩
      match fromUtf8? buf with
      | none => (.error .notUtf8, after)
      | some line => (.ok line, after)

/-- An entry of the header. -/
inductive HeaderEntry where
  /-- The blank line. -/
  | headerEnd
  | prerequisite (oid : Sha)
  | ref (oid : Sha) (refName : List UInt8)
deriving DecidableEq

/-- `trim_end_matches(['\n', '\r'])` -/
def trimLineEnd (line : Text) : Text :=
  (line.reverse.dropWhile fun c => c = '\n' ∨ c = '\r').reverse

/-- `parse_header_oid` -/
def parseHeaderOid
    (shaHex : Text)
    (context : HeaderContext) : Except BundleError Sha :=
  match fromHex? (utf8 shaHex) with
  | some oid => .ok oid
  | none => .error (.badSha context shaHex)

/-- The part of `parse_header_entry` for a ref line. -/
def parseRefLine (trimmed : Text) : Except BundleError HeaderEntry :=
  let shaHex := trimmed.takeWhile (· ≠ ' ')
  if shaHex = [] then .error (.emptyRefLine trimmed)
  else
    match trimmed.dropWhile (· ≠ ' ') with
    | [] => .error (.missingRefName trimmed)
    | [_] => .error (.missingRefName trimmed)
    | _ :: refName =>
        (parseHeaderOid shaHex .ref).map fun oid =>
          .ref oid (utf8 refName)

/-- `parse_header_entry` -/
def parseHeaderEntry (line : Text) : Except BundleError HeaderEntry :=
  let trimmed := trimLineEnd line
  match trimmed with
  | [] => .ok .headerEnd
  | '-' :: rest =>
      (parseHeaderOid (rest.takeWhile (· ≠ ' ')) .prerequisite).map
        .prerequisite
  | _ => parseRefLine trimmed

/-- `verify_pack_magic` -/
def verifyPackMagic (rest : List UInt8) : Except BundleError Unit :=
  let buf := rest.take 4
  if buf.length < 4 then .error .truncatedPack
  else if buf ≠ utf8 (lit "PACK") then .error .wrongPackMagic
  else .ok ()

/-- A line that is read takes something from the file. -/
theorem length_rest_lt
    {reader after : HeaderReader}
    {line : Text}
    (read : readHeaderLine reader = (.ok line, after)) :
    after.rest.length < reader.rest.length := by
  have whole :=
    congrArg List.length
      (@readUntil_append _ _ lineFeed (headerBudget reader.totalBytes)
        reader.rest)
  rw [List.length_append] at whole
  unfold readHeaderLine at read
  simp only at read
  split at read
  · cases read
  split at read
  · cases read
  next some =>
      split at read
      · cases read
      split at read
      · cases read
      · cases read
        simp only
        omega

/-- The loop of `BundleHeader::read`. -/
def readEntries
    (reader : HeaderReader)
    (prerequisites : List Sha)
    (refs : List (Sha × List UInt8)) :
    Except BundleError (List Sha × List (Sha × List UInt8)) ×
      HeaderReader :=
  match _read : readHeaderLine reader with
  | (.error error, after) => (.error error, after)
  | (.ok line, after) =>
      match parseHeaderEntry line with
      | .error error => (.error error, after)
      | .ok .headerEnd => (.ok (prerequisites, refs), after)
      | .ok (.prerequisite oid) =>
          readEntries after (prerequisites ++ [oid]) refs
      | .ok (.ref oid refName) =>
          readEntries after prerequisites (refs ++ [(oid, refName)])
termination_by reader.rest.length
decreasing_by
  · exact length_rest_lt _read
  · exact length_rest_lt _read

/-- `BundleHeader::read`, of a file with these bytes. -/
def BundleHeader.read (file : List UInt8) :
    Except BundleError BundleHeader × HeaderReader :=
  match readHeaderLine (.start file) with
  | (.error error, after) => (.error error, after)
  | (.ok line, after) =>
      let magic := trimLineEnd line
      if magic = bundleV3Magic then (.error (.unsupportedVersion 3), after)
      else if magic ≠ bundleV2Magic then (.error (.wrongMagic magic), after)
      else
        match readEntries after [] [] with
        | (.error error, last) => (.error error, last)
        | (.ok (prerequisites, refs), last) =>
            match verifyPackMagic last.rest with
            | .error error => (.error error, last)
            | .ok () =>
                (.ok ⟨2, prerequisites, refs, last.streamPosition⟩, last)

/-- `write_bundle_header` -/
def writeBundleHeader (sha : Sha) (refName : Text) : List UInt8 :=
  utf8 (bundleV2Magic ++ ['\n']) ++
    utf8 (sha.text ++ ' ' :: refName ++ ['\n']) ++ utf8 ['\n']

end GitRemoteObjectStore
