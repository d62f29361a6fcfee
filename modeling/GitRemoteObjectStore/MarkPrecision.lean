import Mathlib.Data.List.Dedup
import GitRemoteObjectStore.Footprint
import GitRemoteObjectStore.Library.Chronicle

/-!
# What a mark may tombstone

A mark lists the packs, then the references, then reads every listed chain.
Any number of pushes, deletions and compactions may act between these calls,
and other marks as well.  Every call is recorded together with the bucket it
found; a tombstone is judged by the record of the mark that writes it.
-/

namespace GitRemoteObjectStore.MarkPrecision

open CallProgram Prog Packchain Separated

section Marks

variable [Platform]

/-! ## Pack objects -/

omit [Platform] in
/-- A listed content name is followed by one of two endings. -/
theorem exists_ending
    {key : Text}
    {sha : Sha40}
    (listed : packShaFromListing key = some sha) :
    lastSegment '/' key = sha.text ++ lit ".pack" ∨
      lastSegment '/' key = sha.text ++ lit ".idx" := by
  unfold packShaFromListing at listed
  cases stripped :
      (stripSuffix (lit ".pack") (lastSegment '/' key)).or
        (stripSuffix (lit ".idx") (lastSegment '/' key)) with
  | none =>
      simp only [stripped] at listed
      cases listed
  | some text =>
      simp only [stripped] at listed
      rw [Sha40.text_of_tryNew listed]
      rcases Option.or_eq_some_iff.1 stripped with pack | ⟨-, idx⟩
      · exact Or.inl (stripSuffix_eq_some.1 pack)
      · exact Or.inr (stripSuffix_eq_some.1 idx)

/-- Only packs and their indexes are listed under a content name. -/
theorem packShaFromListing_slot
    {bucketPrefix : Option Text}
    {slot : Slot}
    {sha : Sha40}
    (listed : packShaFromListing (slot.key bucketPrefix) = some sha) :
    slot = .pack sha ∨ slot = .idx sha := by
  have named := @lastSegment_key _ bucketPrefix slot
  have ends :
      slot.name.getLast? = some 'k' ∧ slot.name = sha.text ++ lit ".pack" ∨
        slot.name.getLast? = some 'x' ∧
          slot.name = sha.text ++ lit ".idx" := by
    rcases exists_ending listed with pack | idx
    · rw [named] at pack
      exact Or.inl ⟨by rw [pack]; simp [lit_eq], pack⟩
    · rw [named] at idx
      exact Or.inr ⟨by rw [idx]; simp [lit_eq], idx⟩
  cases slot with
  | pack other =>
      rcases ends with ⟨-, pack⟩ | ⟨last, -⟩
      · exact Or.inl (congrArg _ (Sha40.ext (List.append_cancel_right pack)))
      · simp [Slot.name, lit_eq] at last
  | idx other =>
      rcases ends with ⟨last, -⟩ | ⟨-, idx⟩
      · simp [Slot.name, lit_eq] at last
      · exact Or.inr (congrArg _ (Sha40.ext (List.append_cancel_right idx)))
  | ref refName entry =>
      exfalso
      cases entry with
      | lock =>
          rcases ends with ⟨-, pack⟩ | ⟨last, -⟩
          · have lengths := congrArg List.length pack
            rw [List.length_append, Sha40.length_text] at lengths
            simp [Slot.name, Entry.name, lit_eq] at lengths
          · simp [Slot.name, Entry.name, lit_eq] at last
      | _ =>
          rcases ends with ⟨last, -⟩ | ⟨last, -⟩ <;>
            simp [Slot.name, Entry.name, lit_eq] at last
  | tombstone label =>
      rcases ends with ⟨last, -⟩ | ⟨last, -⟩ <;>
        · rw [Slot.name, List.getLast?_append] at last
          simp [lit_eq] at last
  | baselineTombstone runId =>
      rcases ends with ⟨last, -⟩ | ⟨last, -⟩ <;>
        · rw [Slot.name, List.getLast?_append] at last
          simp [lit_eq] at last
  | _ =>
      rcases ends with ⟨last, -⟩ | ⟨last, -⟩ <;>
        simp [Slot.name, lit_eq] at last

/-! ## The clients -/

section Clients

variable (bucketPrefix : Option Text)

/-- The commands around a mark; a push of nothing deletes. -/
inductive Command where
  | push (repo : LocalRepo) (spec : PushSpec) (ttl now : Int)
  | compact (scratch : Scratch) (refName : RefName) (force : Bool)
      (ttl : Int)
  | deleteBranch (refName : RefName) (confirmed : Bool) (ttl : Int)
  | mark (completion : Arrivals.Completion) (dryRun : Bool)

/-- The whole run of a command, locking included. -/
def program : Command → Program Unit Unit
  | .push repo spec ttl now =>
      toEffect (pushOne bucketPrefix repo ttl now spec)
  | .compact scratch refName force ttl =>
      toEffect (compact bucketPrefix scratch refName force ttl)
  | .deleteBranch refName confirmed ttl =>
      toEffect (deleteBranch bucketPrefix refName confirmed ttl)
  | .mark completion dryRun =>
      toEffect (mark completion (prefixText bucketPrefix) dryRun)

/-- A call of a client, with the bucket it found. -/
abbrev Called (ι : Type) : Type :=
  Occurrence ι Call World

/-- Clients running commands on one repository, every call recorded. -/
def clients (ι : Type) [DecidableEq ι] :
    System ι Command Call Reply Unit Empty (Chronicle ι Call World) where
  handler := Chronicle.recording answer
  begin := fun _ chronicle => chronicle
  elapse := fun duration chronicle =>
    { chronicle with state := chronicle.state.wait duration }
  prepare := fun command =>
    program bucketPrefix command >>= fun _ => .done none
  work := Empty.elim

/-! ## Precision -/

variable {ι : Type}

/-- The chain of a reference names a pack. -/
def NamesPack (world : World) (refName : RefName) (sha : Sha40) : Prop :=
  ∃ manifest : ChainManifest,
    world.body? (chainKey bucketPrefix refName) =
        some (.chain manifest) ∧
      sha ∈ manifest.packShas

/-- An object under `packs/` that is a pack or an index by its name. -/
def HasPackObject (world : World) (sha : Sha40) : Prop :=
  ∃ key,
    join bucketPrefix (lit "packs/") <+: key ∧
      packShaFromListing key = some sha ∧ (world.get? key).isSome

/-- Calls that read listings and objects. -/
def isReading : Call → Bool
  | .list _ => true
  | .get _ => true
  | _ => false

variable [DecidableEq ι]

/-- The calls up to the last one by which a client reads. -/
def uptoLastReading
    (client : ι)
    (calls : List (Called ι)) : List (Called ι) :=
  calls.dropWhile fun call =>
    !(decide (call.client = client) && isReading call.request)

/-- The buckets from a listing to the last reading after it. -/
def window
    (client : ι)
    (between : List (Called ι))
    (listed : Called ι) : List World :=
  (uptoLastReading client between ++ [listed]).map Occurrence.state

/-- The latest listing of the packs by a client, in a record. -/
structure Listed
    (client : ι)
    (past between : List (Called ι))
    (listed : Called ι) : Prop where
  split : ∃ earlier, past = between ++ listed :: earlier
  own : listed.client = client
  listing : listed.request = .list (join bucketPrefix (lit "packs/"))
  latest :
    ∀ call ∈ between,
      call.client = client → call.request ≠ listed.request

/--
Every pack of a tombstone had an object when the packs were listed, and no
chain has named it ever since, up to the last reading of the mark.
-/
def PreciseMark
    (client : ι)
    (past : List (Called ι))
    (record : Tombstone) : Prop :=
  ∃ between listed,
    Listed bucketPrefix client past between listed ∧
      ∀ sha ∈ record.orphanPacks,
        HasPackObject bucketPrefix listed.state sha ∧
          ∀ refName : RefName,
            refName.UnderRefs →
              ¬ ∀ world ∈ window client between listed,
                NamesPack bucketPrefix world refName sha

/-- A tombstone is written by a precise mark only. -/
def Precise (call : Called ι) (past : List (Called ι)) : Prop :=
  ∀ runId markedAt record,
    call.request =
        .put (tombstoneKey (prefixText bucketPrefix) runId markedAt)
          (.tombstone record) →
      PreciseMark bucketPrefix call.client past record

variable {bucketPrefix}

/-! ## A mark, call by call -/

omit [Platform] in
theorem mem_window
    {client : ι}
    {between : List (Called ι)}
    {listed : Called ι}
    {world : World} :
    world ∈ window client between listed ↔
      (∃ call ∈ uptoLastReading client between, call.state = world) ∨
        listed.state = world := by
  simp [window, eq_comm]

omit [Platform] in
/-- Others' calls are no readings of a client. -/
theorem uptoLastReading_others
    {client : ι}
    {calls : List (Called ι)}
    (others : ∀ call ∈ calls, call.client ≠ client)
    (between : List (Called ι)) :
    uptoLastReading client (calls ++ between) =
      uptoLastReading client between := by
  apply List.dropWhile_append_of_pos
  intro call member
  simp [others call member]

omit [Platform] in
theorem uptoLastReading_reading
    {call : Called ι}
    (reading : isReading call.request = true)
    (between : List (Called ι)) :
    uptoLastReading call.client (call :: between) = call :: between := by
  apply List.dropWhile_cons_of_neg
  simp [reading]

omit [Platform] in
theorem uptoLastReading_other
    {client : ι}
    {call : Called ι}
    (silent : isReading call.request = false)
    (between : List (Called ι)) :
    uptoLastReading client (call :: between) =
      uptoLastReading client between := by
  apply List.dropWhile_cons_of_pos
  simp [silent]

omit [Platform] in
theorem uptoLastReading_subset
    (client : ι)
    (between : List (Called ι)) :
    uptoLastReading client between ⊆ between :=
  (List.dropWhile_sublist _).subset

omit [Platform] [DecidableEq ι] in
theorem Listed.others
    {client : ι}
    {past between calls : List (Called ι)}
    {listed : Called ι}
    (latest : Listed bucketPrefix client past between listed)
    (others : ∀ call ∈ calls, call.client ≠ client) :
    Listed bucketPrefix client (calls ++ past) (calls ++ between)
      listed := by
  rcases latest.split with ⟨earlier, rfl⟩
  refine
    ⟨⟨earlier, by rw [List.append_assoc]⟩, latest.own, latest.listing, ?_⟩
  intro call member own
  rcases List.mem_append.1 member with late | early
  · exact absurd own (others call late)
  · exact latest.latest call early own

omit [Platform] [DecidableEq ι] in
theorem Listed.own_call
    {client : ι}
    {past between : List (Called ι)}
    {listed call : Called ι}
    (latest : Listed bucketPrefix client past between listed)
    (other : call.request ≠ .list (join bucketPrefix (lit "packs/"))) :
    Listed bucketPrefix client (call :: past) (call :: between) listed := by
  rcases latest.split with ⟨earlier, rfl⟩
  refine ⟨⟨earlier, rfl⟩, latest.own, latest.listing, ?_⟩
  intro found member own
  rcases List.mem_cons.1 member with rfl | early
  · rw [latest.listing]
    exact other
  · exact latest.latest found early own

/-! ### What a mark knows -/

/--
A mark knows of every pack that is named throughout, but for the chains it
has still to read.
-/
structure Scanning
    (bucketPrefix : Option Text)
    (client : ι)
    (onBucket shas : List Sha40)
    (remaining : List ObjectMeta)
    (past between : List (Called ι))
    (listed : Called ι) : Prop where
  latest : Listed bucketPrefix client past between listed
  objects : ∀ sha ∈ onBucket, HasPackObject bucketPrefix listed.state sha
  known :
    ∀ sha, ∀ refName : RefName,
      refName.UnderRefs →
        (∀ world ∈ window client between listed,
          NamesPack bucketPrefix world refName sha) →
          sha ∈ shas ∨
            ∃ entry ∈ remaining, entry.key = chainKey bucketPrefix refName

/-- The scan of a chronicle. -/
def Scans
    (bucketPrefix : Option Text)
    (client : ι)
    (onBucket shas : List Sha40)
    (remaining : List ObjectMeta)
    (chronicle : Chronicle ι Call World) : Prop :=
  ∃ between listed,
    Scanning bucketPrefix client onBucket shas remaining chronicle.past
      between listed

section Scans

variable
    {client : ι}
    {onBucket shas : List Sha40}
    {remaining : List ObjectMeta}
    {chronicle : Chronicle ι Call World}

theorem Scans.stable
    {later : Chronicle ι Call World}
    (scans : Scans bucketPrefix client onBucket shas remaining chronicle)
    (changed : chronicle.Continues client later) :
    Scans bucketPrefix client onBucket shas remaining later := by
  rcases scans with ⟨between, listed, latest, objects, known⟩
  rcases changed with ⟨calls, past, others⟩
  refine ⟨calls ++ between, listed, ?_, objects, ?_⟩
  · rw [past]
    exact latest.others others
  · intro sha refName under named
    apply known sha refName under
    unfold window at named ⊢
    rwa [uptoLastReading_others others] at named

/-- A call that reads nothing teaches nothing. -/
theorem Scans.silent
    (scans : Scans bucketPrefix client onBucket shas remaining chronicle)
    (request : Call)
    (silent : isReading request = false)
    (state : World) :
    Scans bucketPrefix client onBucket shas remaining
      ⟨state, ⟨client, request, chronicle.state⟩ :: chronicle.past⟩ := by
  rcases scans with ⟨between, listed, latest, objects, known⟩
  refine
    ⟨⟨client, request, chronicle.state⟩ :: between, listed, ?_, objects, ?_⟩
  · apply latest.own_call
    rintro rfl
    cases silent
  · intro sha refName under named
    apply known sha refName under
    unfold window at named ⊢
    rwa [uptoLastReading_other silent] at named

end Scans

/-- A mark that has listed the packs only. -/
def Lists
    (bucketPrefix : Option Text)
    (client : ι)
    (onBucket : List Sha40)
    (chronicle : Chronicle ι Call World) : Prop :=
  ∃ between listed,
    Listed bucketPrefix client chronicle.past between listed ∧
      ∀ sha ∈ onBucket, HasPackObject bucketPrefix listed.state sha

omit [Platform] [DecidableEq ι] in
theorem Lists.stable
    {client : ι}
    {onBucket : List Sha40}
    {chronicle later : Chronicle ι Call World}
    (lists : Lists bucketPrefix client onBucket chronicle)
    (changed : chronicle.Continues client later) :
    Lists bucketPrefix client onBucket later := by
  rcases lists with ⟨between, listed, latest, objects⟩
  rcases changed with ⟨calls, past, others⟩
  refine ⟨calls ++ between, listed, ?_, objects⟩
  rw [past]
  exact latest.others others

/-! ## Tidy buckets -/

/-- Nothing under `packs/` but packs and indexes is named like one. -/
def TidyPacks (bucketPrefix : Option Text) (world : World) : Prop :=
  ∀ key sha,
    join bucketPrefix (lit "packs/") <+: key →
      packShaFromListing key = some sha →
        (world.get? key).isSome →
          key = packKey bucketPrefix sha ∨ key = packIdxKey bucketPrefix sha

/-- What is written is written under the key of a slot. -/
def SlotPuts (bucketPrefix : Option Text) (request : Call) : Prop :=
  ∀ key body,
    request = .put key body ∨ request = .putIfAbsent key body →
      ∃ slot : Slot, key = slot.key bucketPrefix

theorem slotPuts_reading
    {request : Call}
    (reads : request.Reads) :
    SlotPuts bucketPrefix request := by
  rintro key body (rfl | rfl)
  · exact reads.elim
  · exact reads.elim

/-- A tidy bucket stays tidy. -/
theorem TidyPacks.answer
    {request : Call}
    (slots : SlotPuts bucketPrefix request)
    {world : World}
    (tidy : TidyPacks bucketPrefix world) :
    TidyPacks bucketPrefix (answer request world).2 := by
  intro key sha under named present
  rcases present_of_answer present with before | writes
  · exact tidy key sha under named before
  · have slot : ∃ slot : Slot, key = slot.key bucketPrefix := by
      cases request with
      | put other body =>
          cases writes
          exact slots key body (Or.inl rfl)
      | putIfAbsent other body =>
          cases writes
          exact slots key body (Or.inr rfl)
      | delete other =>
          cases writes
          have gone := body?_answer_delete key world
          unfold World.body? at gone
          rw [Option.map_eq_none_iff] at gone
          rw [gone] at present
          cases present
      | _ => exact writes.elim
    rcases slot with ⟨slot, rfl⟩
    rw [packKey_eq, packIdxKey_eq]
    rcases packShaFromListing_slot named with rfl | rfl
    · exact Or.inl rfl
    · exact Or.inr rfl

/-- A bucket is tidy if it was at the start. -/
def StaysTidy
    (bucketPrefix : Option Text) (start world : World) : Prop :=
  TidyPacks bucketPrefix start → TidyPacks bucketPrefix world

/-! ## The calls of a mark -/

section Safety

variable
    {start : World}
    {client : ι}
    {command : Command}

/-- The terms of a command around a mark. -/
abbrev terms
    (bucketPrefix : Option Text)
    (start : World)
    (client : ι)
    (command : Command) : Contract Call (Chronicle ι Call World) :=
  (Chronicle.discipline (StaysTidy bucketPrefix start)
    (Precise bucketPrefix)).free client command

/-- A call that only reads leaves the bucket alone. -/
theorem safe_reading
    {ε α : Type}
    {post : Except ε α → Chronicle ι Call World → Prop}
    {request : Call}
    {next : Reply request → Program ε α}
    {chronicle : Chronicle ι Call World}
    (reads : request.Reads)
    (resume :
      ∀ later, chronicle.Continues client later →
        Safe (terms bucketPrefix start client command)
          (Chronicle.recording answer client) post
          (next (answer request later.state).1)
          ⟨(answer request later.state).2,
            ⟨client, request, later.state⟩ :: later.past⟩) :
    Safe (terms bucketPrefix start client command)
      (Chronicle.recording answer client) post (.call request next)
      chronicle := by
  apply Chronicle.safe_call _ _ resume
  · intro state stays tidy
    exact (stays tidy).answer (slotPuts_reading reads)
  · intro later _ runId markedAt record writes
    have same : request = _ := writes
    rw [same] at reads
    exact reads.elim

theorem safe_listPackShas (chronicle : Chronicle ι Call World) :
    Safe (terms bucketPrefix start client command)
      (Chronicle.recording answer client)
      (whenOk fun onBucket later =>
        Lists bucketPrefix client onBucket later)
      (listPackShas (prefixText bucketPrefix)) chronicle := by
  unfold listPackShas
  rw [join_some_prefixText]
  have reads :
      Call.Reads (.list (join bucketPrefix (lit "packs/"))) :=
    trivial
  apply safe_reading reads
  intro listed _ last changed _
  apply Lists.stable _ changed
  refine ⟨[], ⟨client, _, listed.state⟩, ⟨⟨_, rfl⟩, rfl, rfl, ?_⟩, ?_⟩
  · exact fun _ member => absurd member List.not_mem_nil
  · intro sha member
    rw [List.mem_dedup, List.mem_filterMap] at member
    rcases member with ⟨entry, inside, named⟩
    rcases World.exists_mem_listing.1 ⟨entry, inside, rfl⟩ with
      ⟨under, present⟩
    exact ⟨entry.key, under, named, present⟩

/-- Reading the next chain. -/
theorem safe_readChain
    {onBucket shas : List Sha40}
    {entry : ObjectMeta}
    {remaining : List ObjectMeta}
    {chronicle : Chronicle ι Call World}
    (scans :
      Scans bucketPrefix client onBucket shas (entry :: remaining)
        chronicle) :
    Safe (terms bucketPrefix start client command)
      (Chronicle.recording answer client)
      (whenOk fun next later =>
        Scans bucketPrefix client onBucket next remaining later)
      (readChain shas entry) chronicle := by
  have reads : Call.Reads (.get entry.key) := trivial
  apply safe_reading reads
  intro read changed
  rcases scans.stable changed with
    ⟨between, listed, latest, objects, known⟩
  simp only [answer]
  cases found : read.state.get? entry.key with
  | none => exact safe_fail
  | some object =>
      simp only [Prog.ofExcept, Prog.mapError, Prog.bind]
      cases parsed : ChainManifest.fromJsonBytes object.body with
      | error error => exact safe_fail
      | ok chain =>
          rcases ChainManifest.fromJsonBytes_ok.1 parsed with ⟨body, -⟩
          apply safe_ofExcept
          intro last more _
          cases inserted : insertSegments shas chain.segments with
          | error error => trivial
          | ok next =>
              have members (sha : Sha40) :=
                @mem_insertSegments_iff _ _ _ inserted sha
              apply Scans.stable _ more
              refine
                ⟨⟨client, .get entry.key, read.state⟩ :: between, listed,
                  latest.own_call (by simp), objects, ?_⟩
              intro sha refName under named
              have whole :=
                @uptoLastReading_reading _ _
                  ⟨client, .get entry.key, read.state⟩ rfl between
              have earlier :
                  ∀ world ∈ window client between listed,
                    NamesPack bucketPrefix world refName sha := by
                intro world member
                apply named
                rw [mem_window] at member ⊢
                rw [whole]
                rcases member with ⟨other, inside, same⟩ | same
                · exact
                    Or.inl
                      ⟨other,
                        List.mem_cons_of_mem _
                          (uptoLastReading_subset client between inside),
                        same⟩
                · exact Or.inr same
              rcases known sha refName under earlier with
                seen | ⟨pending, member, key⟩
              · exact Or.inl ((members sha).2 (Or.inl seen))
              · rcases List.mem_cons.1 member with rfl | rest
                · left
                  have here :
                      NamesPack bucketPrefix read.state refName sha := by
                    apply named
                    rw [mem_window, whole]
                    exact Or.inl ⟨_, List.mem_cons_self, rfl⟩
                  rcases here with ⟨manifest, stored, inside⟩
                  rw [← key, World.body?, found, Option.map_some, body]
                    at stored
                  cases stored
                  exact (members sha).2 (Or.inr inside)
                · exact Or.inr ⟨pending, rest, key⟩

/-- Reading every listed chain, in any order. -/
theorem safe_listReferencedPacks
    (completion : Arrivals.Completion)
    {onBucket : List Sha40}
    {chronicle : Chronicle ι Call World}
    (lists : Lists bucketPrefix client onBucket chronicle) :
    Safe (terms bucketPrefix start client command)
      (Chronicle.recording answer client)
      (whenOk fun referenced later =>
        Scans bucketPrefix client onBucket referenced [] later)
      (listReferencedPacks completion (prefixText bucketPrefix))
      chronicle := by
  unfold listReferencedPacks
  rw [join_some_prefixText]
  have reads :
      Call.Reads (.list (join bucketPrefix (lit "refs/"))) :=
    trivial
  have listing :
      Safe (terms bucketPrefix start client command)
        (Chronicle.recording answer client)
        (whenOk fun entries later =>
          Scans bucketPrefix client onBucket []
            (completion.arrange
              (entries.filter fun entry => isChainJsonKey entry.key))
            later)
        (Store.list (join bucketPrefix (lit "refs/"))) chronicle := by
    apply safe_reading reads
    intro found changed
    rcases lists.stable changed with ⟨between, listed, latest, objects⟩
    intro last more _
    apply Scans.stable _ more
    have other :
        Call.list (join bucketPrefix (lit "refs/")) ≠
          .list (join bucketPrefix (lit "packs/")) := by
      rw [join_eq, join_eq]
      intro same
      have tails := List.append_cancel_left (Call.list.inj same)
      exact absurd tails (by decide +kernel)
    refine
      ⟨⟨client, .list (join bucketPrefix (lit "refs/")), found.state⟩ ::
          between,
        listed, latest.own_call other, objects, ?_⟩
    intro sha refName under named
    right
    have here : NamesPack bucketPrefix found.state refName sha := by
      apply named
      rw [mem_window,
        @uptoLastReading_reading _ _
          ⟨client, .list (join bucketPrefix (lit "refs/")), found.state⟩
          rfl between]
      exact Or.inl ⟨_, List.mem_cons_self, rfl⟩
    rcases here with ⟨manifest, stored, -⟩
    have present := World.isSome_of_body? stored
    have begins :
        join bucketPrefix (lit "refs/") <+:
          chainKey bucketPrefix refName := by
      rw [chainKey_eq]
      exact refs_prefix_chain_iff.2 under
    rcases World.exists_mem_listing.2 ⟨begins, present⟩ with
      ⟨entry, member, key⟩
    refine ⟨entry, ?_, key⟩
    rw [Arrivals.Completion.mem_arrange, List.mem_filter]
    exact ⟨member, by rw [key, chainKey_eq, isChainJsonKey_chain]⟩
  apply listing.convert.andThen
  intro entries listed _ scans
  exact
    safe_foldEach (Scans bucketPrefix client onBucket)
      (fun _ _ _ _ changed scans => scans.stable changed)
      (fun _ _ _ _ _ scans => safe_readChain scans) scans

/-- A mark writes what its record bears out. -/
theorem safe_mark
    (completion : Arrivals.Completion)
    (dryRun : Bool)
    (chronicle : Chronicle ι Call World) :
    Safe (terms bucketPrefix start client command)
      (Chronicle.recording answer client) (whenOk fun _ _ => True)
      (mark completion (prefixText bucketPrefix) dryRun) chronicle := by
  unfold mark
  apply (safe_listPackShas chronicle).andThen
  intro onBucket afterPacks _ lists
  apply (safe_listReferencedPacks completion lists).andThen
  intro referenced afterChains _ scans
  have drawing : Call.Reads .newUuid := trivial
  have asking : Call.Reads .nowUtc := trivial
  apply safe_reading drawing
  intro drawn changed
  have scans := (scans.stable changed).silent .newUuid rfl
    (answer .newUuid drawn.state).2
  apply safe_reading asking
  intro asked more
  have scans := (scans.stable more).silent .nowUtc rfl
    (answer .nowUtc asked.state).2
  simp only [pure_eq]
  split
  · exact safe_end
  split
  · exact safe_end
  apply Chronicle.safe_call
  · intro state stays tidy
    apply (stays tidy).answer
    rintro key body (same | same)
    · cases same
      exact ⟨_, tombstoneKey_eq _ _ _⟩
    · cases same
  · intro writing since runId markedAt record same
    rcases scans.stable since with
      ⟨between, listed, latest, objects, known⟩
    injection same with _ sameBody
    injection sameBody with sameRecord
    refine ⟨between, listed, latest, ?_⟩
    intro sha member
    rw [← sameRecord, List.mem_filter] at member
    refine ⟨objects sha member.1, ?_⟩
    intro refName under named
    rcases known sha refName under named with seen | ⟨_, pending, _⟩
    · simp [seen] at member
    · cases pending
  · intro written _
    exact safe_end

/-! ## The other commands -/

/-- Calls that write under the keys of slots, and no pack tombstone. -/
def Beside (bucketPrefix : Option Text) (request : Call) : Prop :=
  SlotPuts bucketPrefix request ∧
    ∀ label body,
      request ≠ .put ((Slot.tombstone label).key bucketPrefix) body

theorem beside_reading
    {request : Call}
    (reads : request.Reads) :
    Beside bucketPrefix request := by
  refine ⟨slotPuts_reading reads, ?_⟩
  rintro label body rfl
  exact reads.elim

theorem beside_delete (key : Text) :
    Beside bucketPrefix (.delete key) := by
  constructor
  · rintro other body (same | same) <;> cases same
  · intro label body same
    cases same

theorem beside_putIfAbsent (slot : Slot) (body : Body) :
    Beside bucketPrefix (.putIfAbsent (slot.key bucketPrefix) body) := by
  constructor
  · rintro other found (same | same)
    · cases same
    · injection same with key _
      exact ⟨slot, key.symm⟩
  · intro label found same
    cases same

theorem beside_put
    {slot : Slot}
    (other : ∀ label, slot ≠ .tombstone label)
    (body : Body) :
    Beside bucketPrefix (.put (slot.key bucketPrefix) body) := by
  constructor
  · rintro key found (same | same)
    · injection same with key _
      exact ⟨slot, key.symm⟩
    · cases same
  · intro label found same
    injection same with key _
    exact other label ((Slot.key_inj bucketPrefix).1 key)

theorem permits_beside (refName : RefName) :
    Permits bucketPrefix refName .packchain (Beside bucketPrefix) where
  reads := fun _ reads => beside_reading reads
  lock := beside_putIfAbsent _ _
  unlock := beside_delete _
  put := by
    intro slot body written
    apply beside_put
    rintro label rfl
    exact written
  drop := fun _ => beside_delete _
  head := beside_putIfAbsent _ _
  format := beside_putIfAbsent _ _

theorem sweeps_beside (refName : RefName) :
    Sweeps bucketPrefix refName (Beside bucketPrefix) :=
  fun key _ => beside_delete key

/-- What writes no pack tombstone is judged by none. -/
theorem safe_beside
    {ε α : Type}
    {program : Program ε α}
    (issues : Issues Call.Credible (Beside bucketPrefix) program)
    (chronicle : Chronicle ι Call World) :
    Safe (terms bucketPrefix start client command)
      (Chronicle.recording answer client) (fun _ _ => True) program
      chronicle := by
  apply Chronicle.safe_issues credible_answer _ _ issues
  · intro request state beside stays tidy
    exact (stays tidy).answer beside.1
  · intro request state older beside runId markedAt record same
    rw [tombstoneKey_eq] at same
    exact absurd same (beside.2 _ _)

theorem safe_program
    (command : Command)
    (chronicle : Chronicle ι Call World) :
    Safe (terms bucketPrefix start client command)
      (Chronicle.recording answer client) (fun _ _ => True)
      (program bucketPrefix command) chronicle := by
  cases command with
  | push repo spec ttl now =>
      apply (safe_beside _ chronicle).toEffect
      exact
        issues_pushOrDelete (permits_beside spec.remoteRef)
          (sweeps_beside spec.remoteRef) repo ttl now spec.force
          spec.localSpec
  | compact scratch refName force ttl =>
      apply (safe_beside _ chronicle).toEffect
      exact issues_compact (permits_beside refName) scratch force ttl
  | deleteBranch refName confirmed ttl =>
      apply (safe_beside _ chronicle).toEffect
      exact
        issues_deleteBranch (permits_beside refName) (sweeps_beside refName)
          confirmed ttl
  | mark completion dryRun =>
      exact (safe_mark completion dryRun chronicle).toEffect

end Safety

/-! ## Every schedule -/

variable (bucketPrefix ι)

/-- The commands keep to these terms. -/
theorem follows_precision (start : World) :
    (clients bucketPrefix ι).Follows
      (Chronicle.discipline (StaysTidy bucketPrefix start)
        (Precise bucketPrefix))
      (fun _ _ _ _ => True) where
  ready_stable := fun _ _ _ _ _ _ ready => ready
  begin := by
    intro client chronicle holds
    refine ⟨holds, fun other _ => ?_⟩
    exact ⟨Chronicle.Continues.refl _ _, Chronicle.Continues.refl _ _⟩
  elapse := by
    intro duration chronicle holds
    refine ⟨holds, fun client => ?_⟩
    exact ⟨Chronicle.Continues.refl client _, Chronicle.Continues.refl client _⟩
  prepare := by
    intro client command chronicle _
    apply (safe_program command chronicle).keeping
    intro _ _ _ _ _ _ _ task _
    exact task.elim
  work := fun _ _ task => task.elim

variable {bucketPrefix ι}

omit [Platform] in
/-- In a tidy bucket, what is listed as a pack is a pack or an index. -/
theorem TidyPacks.exists_object
    {world : World}
    (tidy : TidyPacks bucketPrefix world)
    {sha : Sha40}
    (object : HasPackObject bucketPrefix world sha) :
    (world.get? (packKey bucketPrefix sha)).isSome ∨
      (world.get? (packIdxKey bucketPrefix sha)).isSome := by
  rcases object with ⟨key, under, named, present⟩
  rcases tidy key sha under named present with rfl | rfl
  · exact Or.inl present
  · exact Or.inr present

/--
Among any pushes, deletions, compactions and marks, a mark tombstones only
packs that had an object when it listed them and that no chain of a reference
has named throughout, from that listing to its last reading.
-/
theorem mark_precise
    {start : World}
    {pool :
      Pool ι Command Call Reply Unit Empty (Chronicle ι Call World)}
    (reached :
      (clients bucketPrefix ι).Reaches
        (fun pool => pool.Meets fun _ _ _ _ => True)
        (.quiet ⟨start, []⟩) pool)
    {newer older : List (Called ι)}
    {call : Called ι}
    (past : pool.state.past = newer ++ call :: older)
    {runId markedAt : Component}
    {record : Tombstone}
    (writes :
      call.request =
        .put (tombstoneKey (prefixText bucketPrefix) runId markedAt)
          (.tombstone record)) :
    PreciseMark bucketPrefix call.client older record ∧
      (TidyPacks bucketPrefix start →
        ∀ earlier ∈ pool.state.past, ∀ sha,
          HasPackObject bucketPrefix earlier.state sha →
            (earlier.state.get? (packKey bucketPrefix sha)).isSome ∨
              (earlier.state.get?
                (packIdxKey bucketPrefix sha)).isSome) := by
  have begins :
      (Pool.quiet (⟨start, []⟩ : Chronicle ι Call World) :
          Pool ι Command Call Reply Unit Empty
            (Chronicle ι Call World)).Ok
        (clients bucketPrefix ι)
        (Chronicle.discipline (StaysTidy bucketPrefix start)
          (Precise bucketPrefix))
        (fun _ _ _ _ => True) := by
    apply Pool.ok_quiet
    refine ⟨⟨fun tidy => tidy, ?_⟩, trivial⟩
    exact fun _ member => absurd member List.not_mem_nil
  have ok :=
    reached.ok (follows_precision bucketPrefix ι start)
      (fun _ _ allowed => allowed) begins
  rcases ok.invariant with ⟨⟨-, always⟩, justified⟩
  constructor
  · rw [past] at justified
    exact justified.good runId markedAt record writes
  · intro tidy earlier member sha object
    exact (always earlier member tidy).exists_object object

end Clients

end Marks

/-! ## A schedule -/

section Schedules

attribute [local instance] Platform.simple

/-- A push to the reference. -/
def pushMain (force : Bool) (localSpec : Text) : Command :=
  .push .linear ⟨force, localSpec, .main⟩ 0 0

/-- The pack of the first push is superseded while a mark is under way. -/
def supersededMeanwhile : List (Action Nat Command) :=
  .start 0 (pushMain false ['a']) :: Action.calls 0 11 ++
    .settle 0 ::
    .start 1 (.mark .inOrder false) :: Action.calls 1 1 ++
    .start 0 (pushMain true ['b']) :: Action.calls 0 15 ++
    Action.calls 1 5

/-- The latest call writes a tombstone that names a pack. -/
def wroteTombstone (past : List (Called Nat)) : Bool :=
  match past with
  | ⟨_, .put key (.tombstone record), _⟩ :: _ =>
      decide
          (key =
            tombstoneKey (prefixText none) (Platform.uuid 1)
              (Platform.rfc3339 0)) &&
        !record.orphanPacks.isEmpty
  | _ => false

theorem executed_supersededMeanwhile :
    ((clients none Nat).schedule?
        (fun pool => pool.Meets fun _ _ _ _ => True)
        supersededMeanwhile (.quiet ⟨.empty 0, []⟩)).map
      (fun pool => wroteTombstone pool.state.past) = some true := by
  decide +kernel

theorem mark_precise_superseded :
    ∃ pool call older record,
      (clients none Nat).schedule?
          (fun pool => pool.Meets fun _ _ _ _ => True)
          supersededMeanwhile (.quiet ⟨.empty 0, []⟩) =
        some pool ∧
      pool.state.past = call :: older ∧
      record.orphanPacks ≠ [] ∧
      PreciseMark none call.client older record := by
  rcases Option.map_eq_some_iff.1 executed_supersededMeanwhile with
    ⟨pool, reached, wrote⟩
  unfold wroteTombstone at wrote
  split at wrote
  next client key record state older past =>
      rw [Bool.and_eq_true, decide_eq_true_iff] at wrote
      rcases wrote with ⟨rfl, orphans⟩
      refine ⟨pool, _, older, record, reached, past, ?_, ?_⟩
      · intro none_
        rw [none_] at orphans
        cases orphans
      · exact
          (mark_precise (System.Reaches.refl.schedule reached)
            (past.trans (List.nil_append _).symm) rfl).1
  next => cases wrote

end Schedules

end GitRemoteObjectStore.MarkPrecision
