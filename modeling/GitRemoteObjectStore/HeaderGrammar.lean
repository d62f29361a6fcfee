import Mathlib.Data.List.Induction
import GitRemoteObjectStore.BundleHeader
import GitRemoteObjectStore.Git
import GitRemoteObjectStore.Library.Separated

/-!
# What headers are accepted

A header is accepted exactly when its lines spell it: each within its cap, all
of them together within theirs.  What is read back is what was written, and
nothing that is read takes the reader past the caps.
-/

namespace GitRemoteObjectStore

open PercentEncoding BoundedRead

/-! ## The grammar -/

/-- Forty hex digits of either case that name an object. -/
def HexOf (digits : Text) (oid : Sha) : Prop :=
  digits.mapM lowerHex? = some oid.text

/-- The content of a line and the entry it stands for. -/
inductive Spells : Text → HeaderEntry → Prop
  | blank : Spells [] .headerEnd
  | prerequisite
      {digits : Text}
      {oid : Sha}
      (hex : HexOf digits oid) :
      Spells ('-' :: digits) (.prerequisite oid)
  | commented
      {digits comment : Text}
      {oid : Sha}
      (hex : HexOf digits oid) :
      Spells ('-' :: digits ++ ' ' :: comment) (.prerequisite oid)
  | ref
      {digits refName : Text}
      {oid : Sha}
      (hex : HexOf digits oid)
      (named : refName ≠ []) :
      Spells (digits ++ ' ' :: refName) (.ref oid (utf8 refName))

/-- A content is one line and does not end in what a line may end in. -/
def IsContent (content : Text) : Prop :=
  '\n' ∉ content ∧ content.getLast? ≠ some '\r'

/-- A line with its ending: carriage returns, if any, and a line feed. -/
structure LineOf (content : Text) (bytes : List UInt8) : Prop where
  isContent : IsContent content
  spelled :
    ∃ returns,
      bytes = utf8 (content ++ List.replicate returns '\r' ++ ['\n'])
  fits : bytes.length ≤ maxHeaderLineBytes

/-- The first line; one that the end of the file cuts off is one, too. -/
def FirstLineIs (content : Text) (file : List UInt8) : Prop :=
  (∃ bytes rest, LineOf content bytes ∧ file = bytes ++ rest) ∨
    ∃ returns,
      file = utf8 (content ++ List.replicate returns '\r') ∧
        file.length < maxHeaderLineBytes

/-- The object names of prerequisites. -/
def HeaderEntry.prerequisite? : HeaderEntry → Option Sha
  | .prerequisite oid => some oid
  | _ => none

/-- The names and objects of references. -/
def HeaderEntry.ref? : HeaderEntry → Option (Sha × List UInt8)
  | .ref oid refName => some (oid, refName)
  | _ => none

/-- A line of the body of a header. -/
def EntryLine (line : List UInt8 × HeaderEntry) : Prop :=
  line.2 ≠ .headerEnd ∧
    ∃ content, LineOf content line.1 ∧ Spells content line.2

/-- The lines of a header. -/
structure HeaderText where
  magic : List UInt8
  entries : List (List UInt8 × HeaderEntry)
  blank : List UInt8

namespace HeaderText

/-- The lines one after the other. -/
def bytes (text : HeaderText) : List UInt8 :=
  text.magic ++ (text.entries.flatMap Prod.fst ++ text.blank)

/-- What the lines say. -/
def header (text : HeaderText) : BundleHeader :=
  ⟨2, text.entries.filterMap fun line => line.2.prerequisite?,
    text.entries.filterMap fun line => line.2.ref?, text.bytes.length⟩

/-- The lines are of the grammar and within the caps. -/
structure WellFormed (text : HeaderText) : Prop where
  magic : LineOf bundleV2Magic text.magic
  entries : ∀ line ∈ text.entries, EntryLine line
  blank : LineOf [] text.blank
  fits : text.bytes.length ≤ maxHeaderTotalBytes

end HeaderText

/-- A file that begins with the lines of a header, and the header. -/
def HeaderOf (file : List UInt8) (header : BundleHeader) : Prop :=
  ∃ text : HeaderText,
    text.WellFormed ∧
      (∃ body, file = text.bytes ++ (utf8 (lit "PACK") ++ body)) ∧
      header = text.header

/-! ## Line ends -/

/-- Whether a character may end a line. -/
abbrev EndsLine (c : Char) : Prop :=
  c = '\n' ∨ c = '\r'

theorem trimLineEnd_append
    {front ending : Text}
    (ends : ∀ c ∈ ending, EndsLine c) :
    trimLineEnd (front ++ ending) = trimLineEnd front := by
  unfold trimLineEnd
  rw [List.reverse_append, List.dropWhile_append_of_pos]
  intro c member
  exact decide_eq_true (ends c (List.mem_reverse.1 member))

theorem trimLineEnd_isContent
    {content : Text}
    (isContent : IsContent content) :
    trimLineEnd content = content := by
  unfold trimLineEnd
  cases reversed : content.reverse with
  | nil =>
      rw [List.reverse_eq_nil_iff.1 reversed]
      rfl
  | cons last rest =>
      have same : content = rest.reverse ++ [last] := by
        rw [← List.reverse_reverse content, reversed, List.reverse_cons]
      rw [List.dropWhile_cons_of_neg, ← reversed, List.reverse_reverse]
      intro ends
      rcases of_decide_eq_true ends with rfl | rfl
      · apply isContent.1
        rw [same]
        exact List.mem_append_right _ List.mem_cons_self
      · apply isContent.2
        rw [same, List.getLast?_append_cons]
        rfl

/-- A line that is read is a content with an ending. -/
theorem exists_content
    {front : Text}
    (single : '\n' ∉ front) :
    ∃ content returns,
      IsContent content ∧ front = content ++ List.replicate returns '\r' := by
  induction front using List.reverseRecOn with
  | nil =>
      exact
        ⟨[], 0, ⟨List.not_mem_nil, fun impossible => by cases impossible⟩,
          rfl⟩
  | append_singleton front last hypothesis =>
      rw [List.mem_append, not_or, List.mem_singleton] at single
      by_cases return_ : last = '\r'
      · subst return_
        rcases hypothesis single.1 with
          ⟨content, returns, isContent, same⟩
        refine ⟨content, returns + 1, isContent, ?_⟩
        rw [same, List.append_assoc, ← List.replicate_succ']
      · refine ⟨front ++ [last], 0, ⟨?_, ?_⟩, ?_⟩
        · rw [List.mem_append, not_or, List.mem_singleton]
          exact single
        · rw [List.getLast?_append_cons]
          intro same
          cases same
          exact return_ rfl
        · rw [List.replicate_zero, List.append_nil]

/-- Trimming a line finds its content. -/
theorem trimLineEnd_line
    {content : Text}
    (isContent : IsContent content)
    (returns : Nat)
    {ending : Text}
    (ends : ∀ c ∈ ending, EndsLine c) :
    trimLineEnd (content ++ List.replicate returns '\r' ++ ending) =
      content := by
  rw [trimLineEnd_append ends, trimLineEnd_append,
    trimLineEnd_isContent isContent]
  intro c member
  exact Or.inr (List.eq_of_mem_replicate member)

/-! ## Entries -/

theorem fromHex?_iff {digits : Text} {oid : Sha} :
    fromHex? (utf8 digits) = some oid ↔ HexOf digits oid := by
  rw [fromHex?_utf8, HexOf]
  constructor
  · intro parsed
    rcases Option.bind_eq_some_iff.1 parsed with ⟨lower, mapped, valid⟩
    rw [mapped, Sha40.text_of_tryNew valid]
  · intro mapped
    rw [mapped, Option.bind_some, Sha40.tryNew_text]

theorem parseHeaderOid_ok
    {digits : Text}
    {context : HeaderContext}
    {oid : Sha} :
    parseHeaderOid digits context = .ok oid ↔ HexOf digits oid := by
  rw [← fromHex?_iff, parseHeaderOid]
  cases fromHex? (utf8 digits) with
  | none => simp
  | some found => simp

theorem lowerHex?_of_mem
    {digits lower : Text}
    (mapped : digits.mapM lowerHex? = some lower)
    {c : Char}
    (member : c ∈ digits) :
    lowerHex? c ≠ none := by
  induction digits generalizing lower with
  | nil => cases member
  | cons first rest hypothesis =>
      rw [List.mapM_cons] at mapped
      cases digit : lowerHex? first with
      | none =>
          rw [digit] at mapped
          cases mapped
      | some value =>
          rw [digit] at mapped
          cases others : rest.mapM lowerHex? with
          | none =>
              rw [others] at mapped
              cases mapped
          | some values =>
              rcases List.mem_cons.1 member with rfl | later
              · rw [digit]
                exact Option.some_ne_none value
              · exact hypothesis others later

namespace HexOf

variable {digits : Text} {oid : Sha}

theorem not_mem
    (hex : HexOf digits oid)
    {c : Char}
    (other : lowerHex? c = none) :
    c ∉ digits :=
  fun member => lowerHex?_of_mem hex member other

theorem ne_nil (hex : HexOf digits oid) : digits ≠ [] := by
  rintro rfl
  have length := oid.length_text
  rw [← Option.some.inj hex] at length
  cases length

theorem takeWhile_eq (hex : HexOf digits oid) (rest : Text) :
    (digits ++ ' ' :: rest).takeWhile (· ≠ ' ') = digits := by
  rw [List.takeWhile_append_of_pos, List.takeWhile_cons_of_neg,
    List.append_nil]
  · simp
  · rintro c member
    have different : c ≠ ' ' := by
      rintro rfl
      exact hex.not_mem (by decide) member
    exact decide_eq_true different

theorem dropWhile_eq (hex : HexOf digits oid) (rest : Text) :
    (digits ++ ' ' :: rest).dropWhile (· ≠ ' ') = ' ' :: rest := by
  rw [List.dropWhile_append_of_pos, List.dropWhile_cons_of_neg]
  · simp
  · rintro c member
    have different : c ≠ ' ' := by
      rintro rfl
      exact hex.not_mem (by decide) member
    exact decide_eq_true different

theorem takeWhile_self (hex : HexOf digits oid) :
    digits.takeWhile (· ≠ ' ') = digits := by
  rw [List.takeWhile_eq_self_iff]
  intro c member
  have different : c ≠ ' ' := by
    rintro rfl
    exact hex.not_mem (by decide) member
  exact decide_eq_true different

end HexOf

/-- What is left from the first space on begins with it. -/
theorem dropWhile_cases (text : Text) :
    text = text.takeWhile (· ≠ ' ') ∨
      ∃ rest, text = text.takeWhile (· ≠ ' ') ++ ' ' :: rest ∧
        text.dropWhile (· ≠ ' ') = ' ' :: rest := by
  have whole := List.takeWhile_append_dropWhile (p := (· ≠ ' ')) (l := text)
  cases left : text.dropWhile (· ≠ ' ') with
  | nil =>
      rw [left, List.append_nil] at whole
      exact Or.inl whole.symm
  | cons c rest =>
      have stop :=
        List.head?_dropWhile_not (fun c : Char => decide (c ≠ ' ')) text
      rw [left] at stop
      have space : c = ' ' := by simpa using stop
      subst space
      rw [left] at whole
      exact Or.inr ⟨rest, whole.symm, rfl⟩

theorem parseRefLine_ok {trimmed : Text} {entry : HeaderEntry} :
    parseRefLine trimmed = .ok entry ↔
      ∃ digits refName oid,
        trimmed = digits ++ ' ' :: refName ∧
          HexOf digits oid ∧
          refName ≠ [] ∧ entry = .ref oid (utf8 refName) := by
  constructor
  · intro parsed
    rw [parseRefLine] at parsed
    split at parsed
    · cases parsed
    rcases dropWhile_cases trimmed with whole | ⟨rest, whole, left⟩
    · have left : trimmed.dropWhile (· ≠ ' ') = [] := by
        have both :=
          List.takeWhile_append_dropWhile (p := (· ≠ ' ')) (l := trimmed)
        rw [← whole] at both
        exact List.append_cancel_left (both.trans (List.append_nil _).symm)
      rw [left] at parsed
      cases parsed
    · rw [left] at parsed
      cases rest with
      | nil => cases parsed
      | cons c rest =>
          cases read :
              parseHeaderOid (trimmed.takeWhile (· ≠ ' ')) .ref with
          | error error =>
              simp only [read, Except.map] at parsed
              cases parsed
          | ok oid =>
              simp only [read, Except.map] at parsed
              cases parsed
              exact
                ⟨_, c :: rest, oid, whole, parseHeaderOid_ok.1 read,
                  List.cons_ne_nil c rest, rfl⟩
  · rintro ⟨digits, refName, oid, rfl, hex, named, rfl⟩
    rw [parseRefLine]
    simp only [hex.takeWhile_eq, hex.dropWhile_eq, if_neg hex.ne_nil,
      parseHeaderOid_ok.2 hex]
    cases refName with
    | nil => exact absurd rfl named
    | cons c rest => rfl

/-- A line is parsed as the entry its content spells. -/
theorem parseHeaderEntry_ok {line : Text} {entry : HeaderEntry} :
    parseHeaderEntry line = .ok entry ↔
      Spells (trimLineEnd line) entry := by
  rw [parseHeaderEntry]
  generalize trimLineEnd line = trimmed
  constructor
  · intro parsed
    split at parsed
    · cases parsed
      exact .blank
    next rest =>
        cases read :
            parseHeaderOid (rest.takeWhile (· ≠ ' ')) .prerequisite with
        | error error =>
            rw [read] at parsed
            cases parsed
        | ok oid =>
            rw [read] at parsed
            cases parsed
            have hex := parseHeaderOid_ok.1 read
            rcases dropWhile_cases rest with whole | ⟨comment, whole, -⟩
            · rw [whole]
              exact .prerequisite hex
            · rw [whole]
              exact .commented hex
    · rcases parseRefLine_ok.1 parsed with
        ⟨digits, refName, oid, rfl, hex, named, rfl⟩
      exact .ref hex named
  · intro spelled
    cases spelled with
    | blank => rfl
    | prerequisite hex =>
        simp only [hex.takeWhile_self, parseHeaderOid_ok.2 hex]
        rfl
    | commented hex =>
        simp only [List.cons_append, hex.takeWhile_eq,
          parseHeaderOid_ok.2 hex]
        rfl
    | @ref digits refName oid hex named =>
        have parsed :=
          parseRefLine_ok.2 ⟨digits, refName, oid, rfl, hex, named, rfl⟩
        cases digits with
        | nil => exact absurd rfl hex.ne_nil
        | cons c digits =>
            have plain : c ≠ '-' := by
              rintro rfl
              exact hex.not_mem (by decide) List.mem_cons_self
            simp only [List.cons_append] at parsed ⊢
            split
            next impossible => cases impossible
            next same =>
                cases same
                exact absurd rfl plain
            · exact parsed

/-! ## Lines -/

theorem lineFeed_mem_utf8 {text : Text} :
    lineFeed ∈ utf8 text ↔ '\n' ∈ text :=
  @mem_utf8_of_ascii '\n' (by decide) text

theorem utf8_line (front : Text) :
    utf8 (front ++ ['\n']) = utf8 front ++ [lineFeed] := by
  rw [utf8_append]
  rfl

/-- What a line that is read has taken from the file. -/
structure LineRead
    (reader : HeaderReader)
    (line : Text)
    (after : HeaderReader) : Prop where
  nonempty : line ≠ []
  source : reader.rest = utf8 line ++ after.rest
  taken : after.taken = reader.taken ++ [(utf8 line).length]
  totalBytes : after.totalBytes = reader.totalBytes + (utf8 line).length
  fits : (utf8 line).length ≤ headerBudget reader.totalBytes
  /-- The line ends in its line feed, or with the file. -/
  ends :
    (∃ front, line = front ++ ['\n'] ∧ '\n' ∉ front) ∨
      '\n' ∉ line ∧
        after.rest = [] ∧
          (utf8 line).length < headerBudget reader.totalBytes

theorem lineRead_of_ok
    {reader after : HeaderReader}
    {line : Text}
    (read : readHeaderLine reader = (.ok line, after)) :
    LineRead reader line after := by
  have whole :=
    @readUntil_append _ _ lineFeed (headerBudget reader.totalBytes)
      reader.rest
  have bounded :=
    @length_readUntil_le _ _ lineFeed (headerBudget reader.totalBytes)
      reader.rest
  have ends :=
    @readUntil_cases _ _ lineFeed (headerBudget reader.totalBytes)
      reader.rest
  unfold readHeaderLine at read
  simp only at read
  split at read
  · cases read
  split at read
  · cases read
  next nonzero =>
  split at read
  · cases read
  next complete =>
  split at read
  · cases read
  next decoded =>
      cases read
      rw [fromUtf8?_eq_some] at decoded
      rw [decoded] at whole bounded ends complete nonzero
      constructor
      case nonempty =>
          rintro rfl
          exact nonzero rfl
      case source => exact whole.symm
      case taken => simp only [decoded]
      case totalBytes => simp only [decoded]
      case fits => exact bounded
      case ends =>
          rcases ends with ⟨front, same, free⟩ | ⟨free, stopped⟩
          · left
            have member : '\n' ∈ line := by
              rw [← lineFeed_mem_utf8, same]
              exact List.mem_append_right _ List.mem_cons_self
            rcases List.eq_append_cons_of_mem member with
              ⟨before, behind, rfl, single⟩
            have both :
                utf8 before ++ lineFeed :: utf8 behind =
                  front ++ lineFeed :: [] := by
              rw [← same, utf8_append]
              rfl
            have free' : lineFeed ∉ utf8 before := by
              rw [lineFeed_mem_utf8]
              exact single
            have empty :=
              ((Separated.separator_append_inj free' free).1 both).2
            have nothing : behind = [] := utf8_injective empty
            exact ⟨before, by rw [nothing], single⟩
          · right
            refine ⟨fun member => free (lineFeed_mem_utf8.2 member), ?_⟩
            have last : (utf8 line).getLast? ≠ some lineFeed := by
              intro same
              exact free (List.mem_of_getLast? same)
            have short :
                (utf8 line).length ≠ headerBudget reader.totalBytes :=
              fun full => complete ⟨full, last⟩
            rcases stopped with full | stopped
            · exact absurd full short
            · exact ⟨stopped, Nat.lt_of_le_of_ne bounded short⟩

/-- A line within its budget is read. -/
theorem readHeaderLine_line
    {reader : HeaderReader}
    {front : Text}
    {rest : List UInt8}
    (single : '\n' ∉ front)
    (source : reader.rest = utf8 (front ++ ['\n']) ++ rest)
    (fits :
      (utf8 (front ++ ['\n'])).length ≤ headerBudget reader.totalBytes) :
    readHeaderLine reader =
      (.ok (front ++ ['\n']),
        ⟨rest, reader.taken ++ [(utf8 (front ++ ['\n'])).length],
          reader.totalBytes + (utf8 (front ++ ['\n'])).length⟩) := by
  have length : (utf8 (front ++ ['\n'])).length = (utf8 front).length + 1 := by
    rw [utf8_line, List.length_append]
    rfl
  have free : lineFeed ∉ utf8 front := by
    rw [lineFeed_mem_utf8]
    exact single
  have taken :
      readUntil lineFeed (headerBudget reader.totalBytes) reader.rest =
        (utf8 (front ++ ['\n']), rest) := by
    rw [source, utf8_line, List.append_assoc, List.singleton_append]
    exact readUntil_terminated free (by omega) rest
  have last : (utf8 (front ++ ['\n'])).getLast? = some lineFeed := by
    rw [utf8_line, List.getLast?_append_cons]
    rfl
  unfold readHeaderLine
  simp only [taken]
  rw [if_neg (by omega), if_neg (by omega), if_neg, fromUtf8?_utf8]
  rintro ⟨-, other⟩
  exact other last

/-- What the end of the file cuts off is read as a line, too. -/
theorem readHeaderLine_last
    {reader : HeaderReader}
    {line : Text}
    (single : '\n' ∉ line)
    (nonempty : line ≠ [])
    (source : reader.rest = utf8 line)
    (fits : (utf8 line).length < headerBudget reader.totalBytes) :
    readHeaderLine reader =
      (.ok line,
        ⟨[], reader.taken ++ [(utf8 line).length],
          reader.totalBytes + (utf8 line).length⟩) := by
  have free : lineFeed ∉ utf8 line := by
    rw [lineFeed_mem_utf8]
    exact single
  have taken :
      readUntil lineFeed (headerBudget reader.totalBytes) reader.rest =
        (utf8 line, []) := by
    rw [source]
    exact readUntil_all free fits.le
  have some : (utf8 line).length ≠ 0 := by
    intro empty
    have nothing : utf8 line = utf8 [] := List.length_eq_zero_iff.1 empty
    exact nonempty (utf8_injective nothing)
  unfold readHeaderLine
  simp only [taken]
  rw [if_neg (by omega), if_neg some, if_neg, fromUtf8?_utf8]
  rintro ⟨full, -⟩
  omega

theorem headerBudget_le (totalBytes : Nat) :
    headerBudget totalBytes ≤ maxHeaderLineBytes :=
  Nat.min_le_left _ _

theorem LineRead.total_le
    {reader after : HeaderReader}
    {line : Text}
    (read : LineRead reader line after)
    (within : reader.totalBytes ≤ maxHeaderTotalBytes) :
    after.totalBytes ≤ maxHeaderTotalBytes := by
  have fits := read.fits
  have total := read.totalBytes
  rw [headerBudget, Nat.le_min] at fits
  omega

/-- A complete line that is read is one of the grammar. -/
theorem LineRead.lineOf
    {reader after : HeaderReader}
    {front : Text}
    (read : LineRead reader (front ++ ['\n']) after)
    (single : '\n' ∉ front) :
    LineOf (trimLineEnd (front ++ ['\n'])) (utf8 (front ++ ['\n'])) := by
  rcases exists_content single with ⟨content, returns, isContent, rfl⟩
  rw [trimLineEnd_line isContent]
  · exact
      ⟨isContent, ⟨returns, rfl⟩, read.fits.trans (headerBudget_le _)⟩
  · intro c member
    exact Or.inl (List.mem_singleton.1 member)

/-- The lines a reader has gone through, from one state to another. -/
structure Through
    (reader last : HeaderReader)
    (bytes : List UInt8) : Prop where
  source : reader.rest = bytes ++ last.rest
  position : last.streamPosition = reader.streamPosition + bytes.length
  totalBytes : last.totalBytes = reader.totalBytes + bytes.length

theorem Through.trans
    {reader middle last : HeaderReader}
    {bytes more : List UInt8}
    (first : Through reader middle bytes)
    (second : Through middle last more) :
    Through reader last (bytes ++ more) where
  source := by
    rw [first.source, second.source, List.append_assoc]
  position := by
    rw [second.position, first.position, List.length_append, Nat.add_assoc]
  totalBytes := by
    rw [second.totalBytes, first.totalBytes, List.length_append,
      Nat.add_assoc]

theorem LineRead.through
    {reader after : HeaderReader}
    {line : Text}
    (read : LineRead reader line after) :
    Through reader after (utf8 line) where
  source := read.source
  position := by
    rw [HeaderReader.streamPosition, read.taken, List.sum_append,
      List.sum_singleton]
    rfl
  totalBytes := read.totalBytes

/-- A line of the grammar is read, if the cap on all lines leaves room. -/
theorem LineOf.read
    {content : Text}
    {bytes : List UInt8}
    (lineOf : LineOf content bytes)
    {reader : HeaderReader}
    {rest : List UInt8}
    (source : reader.rest = bytes ++ rest)
    (room : reader.totalBytes + bytes.length ≤ maxHeaderTotalBytes) :
    ∃ line after,
      trimLineEnd line = content ∧
        readHeaderLine reader = (.ok line, after) ∧
        after.rest = rest ∧ Through reader after bytes := by
  rcases lineOf.spelled with ⟨returns, rfl⟩
  have read :=
    @readHeaderLine_line reader (content ++ List.replicate returns '\r') rest
      (by
        rw [List.mem_append, not_or]
        refine ⟨lineOf.isContent.1, ?_⟩
        intro member
        exact absurd (List.eq_of_mem_replicate member) (by decide))
      source
      (by
        have fits := lineOf.fits
        rw [headerBudget, Nat.le_min]
        exact ⟨fits, by omega⟩)
  refine ⟨_, _, ?_, read, rfl, (lineRead_of_ok read).through⟩
  apply trimLineEnd_line lineOf.isContent
  intro c member
  exact Or.inl (List.mem_singleton.1 member)

/-- Nothing is read at the end of the file. -/
theorem not_lineRead_of_rest
    {reader after : HeaderReader}
    {line : Text}
    (empty : reader.rest = []) :
    ¬ LineRead reader line after := by
  intro read
  have source := read.source
  rw [empty] at source
  have nothing : utf8 line = utf8 [] :=
    (List.append_eq_nil_iff.1 source.symm).1
  exact read.nonempty (utf8_injective nothing)

@[simp]
theorem streamPosition_start (file : List UInt8) :
    (HeaderReader.start file).streamPosition = 0 :=
  rfl

/-! ## The loop -/

/-- What the loop has read when it succeeds and the file goes on. -/
structure EntriesRead
    (reader last : HeaderReader)
    (prerequisites : List Sha)
    (refs : List (Sha × List UInt8))
    (found : List Sha × List (Sha × List UInt8))
    (entries : List (List UInt8 × HeaderEntry))
    (blank : List UInt8) : Prop where
  each : ∀ line ∈ entries, EntryLine line
  ending : LineOf [] blank
  through : Through reader last (entries.flatMap Prod.fst ++ blank)
  prerequisites :
    found.1 =
      prerequisites ++ entries.filterMap fun line => line.2.prerequisite?
  refs : found.2 = refs ++ entries.filterMap fun line => line.2.ref?
  fits : last.totalBytes ≤ maxHeaderTotalBytes

theorem readEntries_of_line
    {reader after : HeaderReader}
    {line : Text}
    (read : readHeaderLine reader = (.ok line, after))
    (prerequisites : List Sha)
    (refs : List (Sha × List UInt8)) :
    readEntries reader prerequisites refs =
      match parseHeaderEntry line with
      | .error error => (.error error, after)
      | .ok .headerEnd => (.ok (prerequisites, refs), after)
      | .ok (.prerequisite oid) =>
          readEntries after (prerequisites ++ [oid]) refs
      | .ok (.ref oid refName) =>
          readEntries after prerequisites (refs ++ [(oid, refName)]) := by
  rw [readEntries]
  split
  next failed =>
      rw [read] at failed
      cases failed
  next again =>
      rw [read] at again
      cases again
      rfl

theorem filterMap_cons_toList
    {α β : Type}
    (f : α → Option β)
    (item : α)
    (items : List α) :
    (item :: items).filterMap f = (f item).toList ++ items.filterMap f := by
  rw [List.filterMap_cons]
  cases f item <;> rfl

/-- The loop does not succeed at the end of the file. -/
theorem readEntries_of_empty
    {reader last : HeaderReader}
    {prerequisites : List Sha}
    {refs : List (Sha × List UInt8)}
    {found : List Sha × List (Sha × List UInt8)}
    (empty : reader.rest = []) :
    readEntries reader prerequisites refs ≠ (.ok found, last) := by
  intro read
  rw [readEntries] at read
  split at read
  · cases read
  next taken => exact not_lineRead_of_rest empty (lineRead_of_ok taken)

/-- One more line in front of what the loop has read. -/
theorem EntriesRead.cons
    {reader after last : HeaderReader}
    {line : Text}
    {entry : HeaderEntry}
    (read : LineRead reader line after)
    (parsed : parseHeaderEntry line = .ok entry)
    (proper : entry ≠ .headerEnd)
    {prerequisites : List Sha}
    {refs : List (Sha × List UInt8)}
    {found : List Sha × List (Sha × List UInt8)}
    {entries : List (List UInt8 × HeaderEntry)}
    {blank : List UInt8}
    (rest :
      EntriesRead after last
        (prerequisites ++ entry.prerequisite?.toList)
        (refs ++ entry.ref?.toList) found entries blank) :
    EntriesRead reader last prerequisites refs found
      ((utf8 line, entry) :: entries) blank where
  each := by
    intro other member
    rcases List.mem_cons.1 member with rfl | later
    · refine ⟨proper, trimLineEnd line, ?_, parseHeaderEntry_ok.1 parsed⟩
      rcases read.ends with ⟨front, rfl, single⟩ | ⟨-, empty, -⟩
      · exact read.lineOf single
      · have source := rest.through.source
        rw [empty] at source
        rcases rest.ending.spelled with ⟨returns, same⟩
        rw [same] at source
        have nothing := congrArg List.length source
        rw [utf8_line, List.length_append, List.length_append,
          List.length_append, List.length_singleton,
          List.length_nil] at nothing
        omega
    · exact rest.each other later
  ending := rest.ending
  through := by
    rw [List.flatMap_cons, List.append_assoc]
    exact read.through.trans rest.through
  prerequisites := by
    rw [rest.prerequisites, List.append_assoc, filterMap_cons_toList]
  refs := by
    rw [rest.refs, List.append_assoc, filterMap_cons_toList]
  fits := rest.fits

/-- A loop that succeeds has read lines of the grammar. -/
theorem exists_entriesRead
    {reader last : HeaderReader}
    {prerequisites : List Sha}
    {refs : List (Sha × List UInt8)}
    {found : List Sha × List (Sha × List UInt8)}
    (within : reader.totalBytes ≤ maxHeaderTotalBytes)
    (read : readEntries reader prerequisites refs = (.ok found, last))
    (more : last.rest ≠ []) :
    ∃ entries blank,
      EntriesRead reader last prerequisites refs found entries blank := by
  induction reader, prerequisites, refs using readEntries.induct with
  | case1 reader prerequisites refs error after failed =>
      rw [readEntries] at read
      split at read
      · cases read
      next again =>
          rw [failed] at again
          cases again
  | case2 reader prerequisites refs line after taken error failed =>
      rw [readEntries_of_line taken, failed] at read
      cases read
  | case3 reader prerequisites refs line after taken parsed =>
      rw [readEntries_of_line taken, parsed] at read
      cases read
      have lineRead := lineRead_of_ok taken
      refine ⟨[], utf8 line, ?_⟩
      constructor
      case each => exact fun _ member => by cases member
      case ending =>
          rcases lineRead.ends with ⟨front, rfl, single⟩ | ⟨-, empty, -⟩
          · have blank := lineRead.lineOf single
            have spelled := parseHeaderEntry_ok.1 parsed
            generalize trimLineEnd (front ++ ['\n']) = content at *
            cases spelled
            exact blank
          · exact absurd empty more
      case through => exact lineRead.through
      case prerequisites => exact (List.append_nil _).symm
      case refs => exact (List.append_nil _).symm
      case fits => exact lineRead.total_le within
  | case4 reader prerequisites refs line after taken oid parsed
      hypothesis =>
      have lineRead := lineRead_of_ok taken
      rw [readEntries_of_line taken, parsed] at read
      rcases hypothesis (lineRead.total_le within) read with
        ⟨entries, blank, rest⟩
      refine
        ⟨(utf8 line, .prerequisite oid) :: entries, blank,
          .cons lineRead parsed (by simp) ?_⟩
      simpa [HeaderEntry.prerequisite?, HeaderEntry.ref?] using rest
  | case5 reader prerequisites refs line after taken oid refName parsed
      hypothesis =>
      have lineRead := lineRead_of_ok taken
      rw [readEntries_of_line taken, parsed] at read
      rcases hypothesis (lineRead.total_le within) read with
        ⟨entries, blank, rest⟩
      refine
        ⟨(utf8 line, .ref oid refName) :: entries, blank,
          .cons lineRead parsed (by simp) ?_⟩
      simpa [HeaderEntry.prerequisite?, HeaderEntry.ref?] using rest

/-- Lines of the grammar are read by the loop. -/
theorem readEntries_lines
    {entries : List (List UInt8 × HeaderEntry)}
    (each : ∀ line ∈ entries, EntryLine line)
    {blank : List UInt8}
    (ending : LineOf [] blank)
    {reader : HeaderReader}
    {rest : List UInt8}
    (source :
      reader.rest = entries.flatMap Prod.fst ++ blank ++ rest)
    (room :
      reader.totalBytes + (entries.flatMap Prod.fst ++ blank).length ≤
        maxHeaderTotalBytes)
    (prerequisites : List Sha)
    (refs : List (Sha × List UInt8)) :
    ∃ last,
      readEntries reader prerequisites refs =
          (.ok
            (prerequisites ++
                entries.filterMap fun line => line.2.prerequisite?,
              refs ++ entries.filterMap fun line => line.2.ref?),
            last) ∧
        last.rest = rest ∧
        last.streamPosition =
          reader.streamPosition +
            (entries.flatMap Prod.fst ++ blank).length := by
  induction entries generalizing reader prerequisites refs with
  | nil =>
      rw [List.flatMap_nil, List.nil_append] at source room
      rcases ending.read source room with
        ⟨line, after, trimmed, read, left, through⟩
      have parsed : parseHeaderEntry line = .ok .headerEnd := by
        rw [parseHeaderEntry_ok, trimmed]
        exact .blank
      refine ⟨after, ?_, left, through.position⟩
      rw [readEntries_of_line read, parsed]
      simp only [List.filterMap_nil, List.append_nil]
  | cons line entries hypothesis =>
      rcases line with ⟨bytes, entry⟩
      rcases each (bytes, entry) List.mem_cons_self with
        ⟨proper, content, (lineOf : LineOf content bytes), spells⟩
      simp only [List.flatMap_cons, List.append_assoc] at source room
      rw [List.length_append] at room
      rcases lineOf.read source (by omega) with
        ⟨text, after, trimmed, read, left, through⟩
      have parsed : parseHeaderEntry text = .ok entry := by
        rw [parseHeaderEntry_ok, trimmed]
        exact spells
      have source' :
          after.rest = entries.flatMap Prod.fst ++ blank ++ rest := by
        rw [left, List.append_assoc]
      have room' :
          after.totalBytes +
              (entries.flatMap Prod.fst ++ blank).length ≤
            maxHeaderTotalBytes := by
        have total := through.totalBytes
        omega
      rcases
        hypothesis
          (fun other member => each other (List.mem_cons_of_mem _ member))
          source' room' (prerequisites ++ entry.prerequisite?.toList)
          (refs ++ entry.ref?.toList) with
        ⟨last, found, left', further⟩
      refine ⟨last, ?_, left', ?_⟩
      · rw [readEntries_of_line read, parsed, filterMap_cons_toList,
          filterMap_cons_toList, ← List.append_assoc, ← List.append_assoc,
          ← found]
        cases entry with
        | headerEnd => exact absurd rfl proper
        | prerequisite oid =>
            simp [HeaderEntry.prerequisite?, HeaderEntry.ref?]
        | ref oid refName =>
            simp [HeaderEntry.prerequisite?, HeaderEntry.ref?]
      · rw [further, through.position, List.flatMap_cons, List.append_assoc,
          @List.length_append _ bytes]
        omega

/-! ## Whole headers -/

theorem verifyPackMagic_ok {rest : List UInt8} :
    verifyPackMagic rest = .ok () ↔
      ∃ body, rest = utf8 (lit "PACK") ++ body := by
  have four : (utf8 (lit "PACK")).length = 4 := by decide +kernel
  rw [verifyPackMagic]
  constructor
  · intro verified
    split at verified
    · cases verified
    split at verified
    · cases verified
    next same =>
        rw [not_not] at same
        exact ⟨rest.drop 4, by rw [← same, List.take_append_drop]⟩
  · rintro ⟨body, rfl⟩
    have taken :
        (utf8 (lit "PACK") ++ body).take 4 = utf8 (lit "PACK") :=
      List.take_left' four
    simp only [taken]
    rw [if_neg (by omega), if_neg (not_not.2 rfl)]

theorem isContent_bundleV2Magic : IsContent bundleV2Magic := by
  constructor <;> decide +kernel

theorem isContent_bundleV3Magic : IsContent bundleV3Magic := by
  constructor <;> decide +kernel

/-- A first line that is complete is one of the grammar. -/
theorem LineRead.firstLineIs
    {file : List UInt8}
    {line : Text}
    {after : HeaderReader}
    (read : LineRead (.start file) line after) :
    FirstLineIs (trimLineEnd line) file := by
  rcases read.ends with ⟨front, rfl, single⟩ | ⟨single, empty, short⟩
  · exact Or.inl ⟨_, after.rest, read.lineOf single, read.source⟩
  · right
    rcases exists_content single with ⟨content, returns, isContent, rfl⟩
    have source : file = _ := read.source
    rw [empty, List.append_nil] at source
    have trimmed :=
      @trimLineEnd_line content isContent returns [] fun _ member => by
        cases member
    rw [List.append_nil] at trimmed
    refine ⟨returns, ?_, ?_⟩
    · rw [trimmed]
      exact source
    · rw [source]
      exact Nat.lt_of_lt_of_le short (headerBudget_le _)

/-- The first line is read when it is one. -/
theorem FirstLineIs.read
    {content : Text}
    {file : List UInt8}
    (first : FirstLineIs content file)
    (isContent : IsContent content)
    (nonempty : content ≠ []) :
    ∃ line after,
      readHeaderLine (.start file) = (.ok line, after) ∧
        trimLineEnd line = content := by
  rcases first with ⟨bytes, rest, lineOf, rfl⟩ | ⟨returns, rfl, short⟩
  · have room : 0 + bytes.length ≤ maxHeaderTotalBytes := by
      have fits := lineOf.fits
      have caps : maxHeaderLineBytes ≤ maxHeaderTotalBytes := by decide
      omega
    rcases
      @LineOf.read _ _ lineOf (.start (bytes ++ rest)) rest rfl room with
      ⟨line, after, trimmed, read, -, -⟩
    exact ⟨line, after, read, trimmed⟩
  · have single : '\n' ∉ content ++ List.replicate returns '\r' := by
      rw [List.mem_append, not_or]
      refine ⟨isContent.1, ?_⟩
      intro member
      exact absurd (List.eq_of_mem_replicate member) (by decide)
    have trimmed :=
      @trimLineEnd_line content isContent returns [] fun _ member => by
        cases member
    rw [List.append_nil] at trimmed
    exact
      ⟨_, _,
        readHeaderLine_last single (by simp [nonempty]) rfl short, trimmed⟩

/-- The errors that are made an `InvalidHeader`. -/
def InvalidHeader : BundleError → Prop
  | .unsupportedVersion _ => False
  | _ => True

theorem readHeaderLine_error
    {reader after : HeaderReader}
    {error : BundleError}
    (read : readHeaderLine reader = (.error error, after)) :
    InvalidHeader error := by
  unfold readHeaderLine at read
  simp only at read
  split at read
  · cases read
    trivial
  split at read
  · cases read
    trivial
  split at read
  · split at read <;> cases read <;> trivial
  split at read
  · cases read
    trivial
  · cases read

theorem parseHeaderOid_error
    {digits : Text}
    {context : HeaderContext}
    {error : BundleError}
    (parsed : parseHeaderOid digits context = .error error) :
    InvalidHeader error := by
  unfold parseHeaderOid at parsed
  split at parsed
  · cases parsed
  · cases parsed
    trivial

theorem map_parseHeaderOid_error
    {digits : Text}
    {context : HeaderContext}
    {entry : Sha → HeaderEntry}
    {error : BundleError}
    (parsed :
      (parseHeaderOid digits context).map entry = .error error) :
    InvalidHeader error := by
  cases read : parseHeaderOid digits context with
  | error first =>
      rw [read] at parsed
      cases parsed
      exact parseHeaderOid_error read
  | ok oid =>
      rw [read] at parsed
      cases parsed

theorem parseHeaderEntry_error
    {line : Text}
    {error : BundleError}
    (parsed : parseHeaderEntry line = .error error) :
    InvalidHeader error := by
  rw [parseHeaderEntry] at parsed
  split at parsed
  · cases parsed
  · exact map_parseHeaderOid_error parsed
  · rw [parseRefLine] at parsed
    split at parsed
    · cases parsed
      trivial
    split at parsed
    · cases parsed
      trivial
    · cases parsed
      trivial
    · exact map_parseHeaderOid_error parsed

theorem readEntries_error
    {reader last : HeaderReader}
    {prerequisites : List Sha}
    {refs : List (Sha × List UInt8)}
    {error : BundleError}
    (read : readEntries reader prerequisites refs = (.error error, last)) :
    InvalidHeader error := by
  induction reader, prerequisites, refs using readEntries.induct with
  | case1 reader prerequisites refs first after failed =>
      rw [readEntries] at read
      split at read
      next again =>
          cases read
          exact readHeaderLine_error again
      next again =>
          rw [failed] at again
          cases again
  | case2 reader prerequisites refs line after taken first failed =>
      rw [readEntries_of_line taken, failed] at read
      cases read
      exact parseHeaderEntry_error failed
  | case3 reader prerequisites refs line after taken parsed =>
      rw [readEntries_of_line taken, parsed] at read
      cases read
  | case4 reader prerequisites refs line after taken oid parsed
      hypothesis =>
      rw [readEntries_of_line taken, parsed] at read
      exact hypothesis read
  | case5 reader prerequisites refs line after taken oid refName parsed
      hypothesis =>
      rw [readEntries_of_line taken, parsed] at read
      exact hypothesis read

theorem verifyPackMagic_error
    {rest : List UInt8}
    {error : BundleError}
    (verified : verifyPackMagic rest = .error error) :
    InvalidHeader error := by
  rw [verifyPackMagic] at verified
  split at verified
  · cases verified
    trivial
  split at verified
  · cases verified
    trivial
  · cases verified

theorem bundleV2Magic_ne : bundleV2Magic ≠ bundleV3Magic := by
  decide +kernel

/-- The version that is not supported is told by the first line alone. -/
theorem read_unsupported {file : List UInt8} :
    (BundleHeader.read file).1 = .error (.unsupportedVersion 3) ↔
      FirstLineIs bundleV3Magic file := by
  constructor
  · intro refused
    unfold BundleHeader.read at refused
    split at refused
    next failed =>
        cases refused
        exact (readHeaderLine_error failed).elim
    next line after read =>
        simp only at refused
        split at refused
        next same =>
            rw [← same]
            exact (lineRead_of_ok read).firstLineIs
        split at refused
        · cases refused
        split at refused
        next failed =>
            cases refused
            exact (readEntries_error failed).elim
        · split at refused
          next failed =>
              cases refused
              exact (verifyPackMagic_error failed).elim
          · cases refused
  · intro first
    rcases
      first.read isContent_bundleV3Magic (by decide +kernel) with
      ⟨line, after, read, trimmed⟩
    unfold BundleHeader.read
    rw [read]
    simp only [trimmed, if_true]

/-- What is accepted is what the grammar has, with what it says. -/
theorem read_ok {file : List UInt8} {header : BundleHeader} :
    (BundleHeader.read file).1 = .ok header ↔ HeaderOf file header := by
  constructor
  · intro accepted
    unfold BundleHeader.read at accepted
    split at accepted
    · cases accepted
    next line after read =>
        simp only at accepted
        split at accepted
        · cases accepted
        split at accepted
        · cases accepted
        next magic =>
        rw [not_not] at magic
        split at accepted
        · cases accepted
        next prerequisites refs last entriesRead =>
        split at accepted
        · cases accepted
        next verified =>
            cases accepted
            rcases verifyPackMagic_ok.1 verified with ⟨body, pack⟩
            have lineRead := lineRead_of_ok read
            have more : last.rest ≠ [] := by
              intro empty
              rw [empty] at pack
              have length := congrArg List.length pack
              rw [List.length_append] at length
              have four : (utf8 (lit "PACK")).length = 4 := by
                decide +kernel
              rw [List.length_nil] at length
              omega
            rcases
              exists_entriesRead
                (lineRead.total_le (Nat.zero_le maxHeaderTotalBytes))
                entriesRead more with
              ⟨entries, blank, rest⟩
            have whole := lineRead.through.trans rest.through
            have total :
                (utf8 line ++ (entries.flatMap Prod.fst ++ blank)).length =
                  last.totalBytes := by
              have same := whole.totalBytes
              rw [HeaderReader.start, Nat.zero_add] at same
              exact same.symm
            refine ⟨⟨utf8 line, entries, blank⟩, ?_, ⟨body, ?_⟩, ?_⟩
            · constructor
              case magic =>
                  rw [← magic]
                  rcases lineRead.ends with
                    ⟨front, rfl, single⟩ | ⟨-, empty, -⟩
                  · exact lineRead.lineOf single
                  · exact (readEntries_of_empty empty entriesRead).elim
              case entries => exact rest.each
              case blank => exact rest.ending
              case fits =>
                  rw [HeaderText.bytes, total]
                  exact rest.fits
            · rw [← pack]
              exact whole.source
            · have found := rest.prerequisites
              have refsFound := rest.refs
              rw [List.nil_append] at found refsFound
              have position := whole.position
              rw [streamPosition_start, Nat.zero_add] at position
              rw [HeaderText.header, HeaderText.bytes, position]
              exact
                congrArg₂ (fun p r => BundleHeader.mk 2 p r _) found
                  refsFound
  · rintro ⟨text, wellFormed, ⟨body, rfl⟩, rfl⟩
    have fits := wellFormed.fits
    rw [HeaderText.bytes, List.length_append] at fits
    have room : 0 + text.magic.length ≤ maxHeaderTotalBytes := by omega
    have source :
        (HeaderReader.start
            (text.bytes ++ (utf8 (lit "PACK") ++ body))).rest =
          text.magic ++
            (text.entries.flatMap Prod.fst ++ text.blank ++
              (utf8 (lit "PACK") ++ body)) := by
      rw [HeaderReader.start, HeaderText.bytes, List.append_assoc]
    rcases wellFormed.magic.read source room with
      ⟨line, after, trimmed, read, left, through⟩
    have total := through.totalBytes
    have start := through.position
    rw [streamPosition_start, Nat.zero_add] at start
    rw [HeaderReader.start, Nat.zero_add] at total
    rcases
      readEntries_lines wellFormed.entries wellFormed.blank left
        (by omega) [] [] with
      ⟨last, entriesRead, left', position⟩
    rw [List.nil_append, List.nil_append] at entriesRead
    have verified : verifyPackMagic last.rest = .ok () :=
      verifyPackMagic_ok.2 ⟨body, left'⟩
    unfold BundleHeader.read
    rw [read]
    simp only [trimmed, if_neg bundleV2Magic_ne, ne_eq, not_true_eq_false,
      if_false, entriesRead, verified]
    rw [HeaderText.header, HeaderText.bytes, position, start,
      ← List.length_append]

/-! ## The caps -/

/-- A reader of a file that has kept to the caps. -/
structure Within (file : List UInt8) (reader : HeaderReader) : Prop where
  eachLine : ∀ count ∈ reader.taken, count ≤ maxHeaderLineBytes
  allLines : reader.streamPosition ≤ maxHeaderTotalBytes
  position :
    ∃ consumed,
      file = consumed ++ reader.rest ∧
        consumed.length = reader.streamPosition

theorem within_start (file : List UInt8) : Within file (.start file) where
  eachLine := fun _ member => by cases member
  allLines := Nat.zero_le _
  position := ⟨[], rfl, rfl⟩

/-- One more read within its budget keeps to the caps. -/
theorem Within.take
    {file : List UInt8}
    {reader : HeaderReader}
    (within : Within file reader)
    (counted : reader.totalBytes = reader.streamPosition)
    (totalBytes : Nat) :
    Within file
      ⟨(readUntil lineFeed (headerBudget reader.totalBytes)
          reader.rest).2,
        reader.taken ++
          [(readUntil lineFeed (headerBudget reader.totalBytes)
            reader.rest).1.length],
        totalBytes⟩ := by
  have whole :=
    @readUntil_append _ _ lineFeed (headerBudget reader.totalBytes)
      reader.rest
  have bounded :=
    @length_readUntil_le _ _ lineFeed (headerBudget reader.totalBytes)
      reader.rest
  generalize readUntil lineFeed (headerBudget reader.totalBytes)
    reader.rest = taken at whole bounded ⊢
  rw [headerBudget, Nat.le_min] at bounded
  have position (count : Nat) :
      HeaderReader.streamPosition
          ⟨taken.2, reader.taken ++ [count], totalBytes⟩ =
        reader.streamPosition + count := by
    rw [HeaderReader.streamPosition, List.sum_append, List.sum_singleton]
    rfl
  constructor
  case eachLine =>
      intro count member
      rcases List.mem_append.1 member with earlier | last
      · exact within.eachLine count earlier
      · rw [List.mem_singleton.1 last]
        exact bounded.1
  case allLines =>
      have all := within.allLines
      rw [position]
      omega
  case position =>
      rcases within.position with ⟨consumed, same, length⟩
      refine ⟨consumed ++ taken.1, ?_, ?_⟩
      · rw [List.append_assoc, whole]
        exact same
      · rw [position, List.length_append, length]

theorem Within.readHeaderLine
    {file : List UInt8}
    {reader : HeaderReader}
    (within : Within file reader)
    (counted : reader.totalBytes = reader.streamPosition) :
    Within file (readHeaderLine reader).2 := by
  unfold GitRemoteObjectStore.readHeaderLine
  simp only
  split
  · exact within
  split
  · exact within.take counted _
  split
  · exact within.take counted _
  split
  · exact within.take counted _
  · exact within.take counted _

theorem counted_of_through
    {reader after : HeaderReader}
    {bytes : List UInt8}
    (through : Through reader after bytes)
    (counted : reader.totalBytes = reader.streamPosition) :
    after.totalBytes = after.streamPosition := by
  rw [through.totalBytes, through.position, counted]

theorem Within.readEntries
    {file : List UInt8}
    {reader : HeaderReader}
    (within : Within file reader)
    (counted : reader.totalBytes = reader.streamPosition)
    (prerequisites : List Sha)
    (refs : List (Sha × List UInt8)) :
    Within file (readEntries reader prerequisites refs).2 := by
  have step := within.readHeaderLine counted
  induction reader, prerequisites, refs using
    GitRemoteObjectStore.readEntries.induct with
  | case1 reader prerequisites refs error after failed =>
      rw [failed] at step
      rw [GitRemoteObjectStore.readEntries]
      split
      next again =>
          rw [failed] at again
          cases again
          exact step
      next again =>
          rw [failed] at again
          cases again
  | case2 reader prerequisites refs line after taken error failed =>
      rw [taken] at step
      rw [readEntries_of_line taken, failed]
      exact step
  | case3 reader prerequisites refs line after taken parsed =>
      rw [taken] at step
      rw [readEntries_of_line taken, parsed]
      exact step
  | case4 reader prerequisites refs line after taken oid parsed
      hypothesis =>
      rw [taken] at step
      have next :=
        counted_of_through (lineRead_of_ok taken).through counted
      rw [readEntries_of_line taken, parsed]
      exact hypothesis step next (step.readHeaderLine next)
  | case5 reader prerequisites refs line after taken oid refName parsed
      hypothesis =>
      rw [taken] at step
      have next :=
        counted_of_through (lineRead_of_ok taken).through counted
      rw [readEntries_of_line taken, parsed]
      exact hypothesis step next (step.readHeaderLine next)

/-- Whatever is read, the reader has kept to the caps. -/
theorem within_read (file : List UInt8) :
    Within file (BundleHeader.read file).2 := by
  have start := (within_start file).readHeaderLine rfl
  unfold BundleHeader.read
  split
  next failed =>
      rw [failed] at start
      exact start
  next line after read =>
      rw [read] at start
      have counted :=
        counted_of_through (lineRead_of_ok read).through rfl
      have entries := start.readEntries counted [] []
      simp only
      split
      · exact start
      split
      · exact start
      split
      next failed =>
          rw [failed] at entries
          exact entries
      next found =>
          rw [found] at entries
          split
          · exact entries
          · exact entries

/-! ## Round trips -/

/-- The header that is written for a reference. -/
def writtenText (sha : Sha) (refName : Text) : HeaderText where
  magic := utf8 (bundleV2Magic ++ ['\n'])
  entries :=
    [(utf8 (sha.text ++ ' ' :: refName ++ ['\n']),
      .ref sha (utf8 refName))]
  blank := utf8 ['\n']

theorem bytes_writtenText (sha : Sha) (refName : Text) :
    (writtenText sha refName).bytes = writeBundleHeader sha refName := by
  simp [writtenText, HeaderText.bytes, writeBundleHeader]

theorem hexOf_text (sha : Sha) : HexOf sha.text sha :=
  mapM_lowerHex?_of_all sha.all_isLowerHex

theorem wellFormed_writtenText
    {sha : Sha}
    {refName : Text}
    (named : refName ≠ [])
    (single : '\n' ∉ refName)
    (plain : '\r' ∉ refName)
    (fits :
      (utf8 (sha.text ++ ' ' :: refName ++ ['\n'])).length ≤
        maxHeaderLineBytes) :
    (writtenText sha refName).WellFormed := by
  have magicLength :
      (utf8 (bundleV2Magic ++ ['\n'])).length = 16 := by
    decide +kernel
  have digits (c : Char) (member : c ∈ sha.text) : c ≠ '\n' := by
    rintro rfl
    exact (hexOf_text sha).not_mem (by decide) member
  constructor
  case magic =>
      refine ⟨isContent_bundleV2Magic, ⟨0, ?_⟩, ?_⟩
      · rw [List.replicate_zero, List.append_nil]
        rfl
      · rw [writtenText, magicLength]
        decide
  case entries =>
      intro line member
      rw [List.mem_singleton.1 member]
      refine
        ⟨by simp, sha.text ++ ' ' :: refName, ⟨⟨?_, ?_⟩, ⟨0, ?_⟩, fits⟩,
          .ref (hexOf_text sha) named⟩
      · intro member
        rcases List.mem_append.1 member with inDigits | inName
        · exact digits '\n' inDigits rfl
        · rcases List.mem_cons.1 inName with space | inName
          · cases space
          · exact single inName
      · rw [List.getLast?_append_cons]
        intro last
        rcases List.mem_cons.1 (List.mem_of_getLast? last) with
          space | inName
        · cases space
        · exact plain inName
      · rw [List.replicate_zero, List.append_nil]
  case blank =>
      refine ⟨⟨List.not_mem_nil, by simp⟩, ⟨0, rfl⟩, ?_⟩
      exact
        (by decide +kernel :
          (utf8 ['\n']).length ≤ maxHeaderLineBytes)
  case fits =>
      have blankLength : (utf8 ['\n']).length = 1 := by decide +kernel
      have caps : maxHeaderLineBytes + 17 ≤ maxHeaderTotalBytes := by
        decide
      rw [bytes_writtenText, writeBundleHeader, List.length_append,
        List.length_append, magicLength, blankLength]
      omega

/--
The reader keeps to the caps and tells version 3 by the first line; it
accepts exactly the headers of the grammar, and reads back every header that
is written for a valid name, if its line fits.
-/
theorem bundleHeader_codec
    [Platform]
    (names :
      ∀ name,
        Platform.isValidRefName name = true →
          name ≠ [] ∧ '\n' ∉ name ∧ '\r' ∉ name) :
    (∀ file,
        Within file (BundleHeader.read file).2 ∧
          ((BundleHeader.read file).1 = .error (.unsupportedVersion 3) ↔
            FirstLineIs bundleV3Magic file) ∧
          ∀ header,
            (BundleHeader.read file).1 = .ok header ↔
              HeaderOf file header) ∧
      ∀ (sha : Sha) (refName : RefName) (body : List UInt8),
        (utf8 (sha.text ++ ' ' :: refName.text ++ ['\n'])).length ≤
            maxHeaderLineBytes →
          (BundleHeader.read
              (writeBundleHeader sha refName.text ++
                (utf8 (lit "PACK") ++ body))).1 =
            .ok
              ⟨2, [], [(sha, utf8 refName.text)],
                (writeBundleHeader sha refName.text).length⟩ := by
  constructor
  · intro file
    exact
      ⟨within_read file, read_unsupported, fun header => read_ok⟩
  · intro sha refName body fits
    rcases names refName.text refName.valid with ⟨named, single, plain⟩
    apply read_ok.2
    refine
      ⟨writtenText sha refName.text,
        wellFormed_writtenText named single plain fits, ⟨body, ?_⟩, ?_⟩
    · rw [bytes_writtenText]
    · rw [HeaderText.header, bytes_writtenText]
      rfl

/-- A platform that accepts one name. -/
@[reducible]
def Platform.mainOnly : Platform :=
  { Platform.simple with
    isValidRefName := fun name => name = lit "refs/heads/main"
    slash_or_uppercase := by
      intro name valid
      rw [of_decide_eq_true valid]
      exact Or.inl (by decide +kernel) }

/-- What is written for that name is read back. -/
theorem bundleHeader_codec_main :
    (BundleHeader.read
        (writeBundleHeader (digitSha 'a' hex_a) (lit "refs/heads/main") ++
          (utf8 (lit "PACK") ++ []))).1 =
      .ok
        ⟨2, [], [(digitSha 'a' hex_a, utf8 (lit "refs/heads/main"))],
          (writeBundleHeader (digitSha 'a' hex_a)
            (lit "refs/heads/main")).length⟩ :=
  (@bundleHeader_codec .mainOnly (by
    intro name valid
    rw [of_decide_eq_true valid]
    refine ⟨?_, ?_, ?_⟩ <;> decide +kernel)).2 (digitSha 'a' hex_a)
      (@RefName.mk .mainOnly (lit "refs/heads/main") (by decide +kernel)) []
      (by decide +kernel)

end GitRemoteObjectStore
