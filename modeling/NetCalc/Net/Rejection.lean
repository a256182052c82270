import NetCalc.Net.Client
import NetCalc.Net.Verdict

/-!
# Is failure told apart from success?

`Client.write_into_dir` tests one field of what it receives: a
`file_name_len` of zero marks the reply to a request that was rejected.
`send_error_header` sets this mark. But the reply to an accepted request echoes
the field of the request, which may be zero as well, so the mark means what the
client takes it for just when the request does not carry it itself
(`failure_told_apart_iff`).
-/

namespace NetCalc.Net

set_option autoImplicit false
open NetCalc.Lib NetCalc.Client

/-- The server rejects a request: one of its two checks does not succeed. -/
def Rejects (e : Inputs) (i : Input) : Prop :=
  ∃ err mem i', readNetHeader e (zeroed NET_HEADER_SIZE ++ e.heap) i = some (err, mem, i') ∧
    (err ≠ SUCCESS ∨ (checkHeader e i').err ≠ SUCCESS)

/-- The net header of a reply, if there is one, has a `file_name_len` of zero
exactly when the request was rejected. -/
def TellsApart (env : Env) (request : List Byte) : Prop :=
  ∀ w', handleNewConnection env (World.start request) = some w' →
    ∀ res, unpack ((sent w'.output.log).take netHeaderSize) = some res →
      (res.2.1 = 0 ↔ Rejects env.toInputs ⟨request, 0, 1⟩)

/-- An acceptable file header comes next, in one piece. -/
def HasFile (e : Inputs) (i : Input) : Prop :=
  ∃ file, file.length = HEADER_SIZE ∧ Arrives e i file ∧ ¬(FileHeader.ofBytes file).Refused

/-- There is memory for everything up to the net header of a reply. -/
structure ReplyAllocated (e : Inputs) : Prop where
  request : e.calloc .netHeader 0 = true
  equation : e.calloc .equation 1 = true
  file : e.calloc .fileHeader 2 = true
  reply : e.calloc .netHeader 3 = true

/-! ## What arrives -/

/-- Where no write fails, the messages of a reply are what arrives, and the
descriptor is closed after the last of them. -/
theorem handleNewConnection_arrives {env : Env} {w w' : World} (completes : ∀ k, env.writes k ≠ .fail)
    (served : handleNewConnection env w = some w') :
    ∃ items closes log, reply env.toInputs w.input = some (items, closes) ∧
      w'.output.log = w.output.log ++ (log ++ if closes then [.closed] else []) ∧
      sent log = items.flatten ∧ ∀ e ∈ log, ∃ xs, e = .wrote xs ∧ xs ≠ [] := by
  obtain ⟨items, closes, log, replied, serves⟩ := handleNewConnection_served served
  have fine := no_failure serves.results completes
  refine ⟨items, closes, log, replied, serves.log_eq, serves.attempts.complete fine, ?_⟩
  intro e member
  rcases serves.attempts.event member with failed | written
  · have accepted := fine e member
    rw [failed] at accepted
    cases accepted
  · exact written

/-- The mark depends on the messages alone. -/
theorem tellsApart_iff {env : Env} {request : List Byte} (completes : ∀ k, env.writes k ≠ .fail) :
    TellsApart env request ↔ ∀ items closes, reply env.toInputs ⟨request, 0, 0⟩ = some (items, closes) →
      ∀ res, unpack (items.flatten.take netHeaderSize) = some res →
        (res.2.1 = 0 ↔ Rejects env.toInputs ⟨request, 0, 1⟩) := by
  constructor
  · intro tells items closes replied res unpacked
    obtain ⟨w', _, served, _⟩ := handleNewConnection_replied (w := World.start request) replied
    apply tells w' served res
    obtain ⟨items', closes', log, replied', log_eq, arrived, _⟩ := handleNewConnection_arrives completes served
    cases replied.symm.trans replied'
    rw [log_eq, sent_append, sent_append, arrived]
    cases closes <;> simpa [World.start, Event.sent] using unpacked
  · intro tells w' served res unpacked
    obtain ⟨items, closes, log, replied, log_eq, arrived, _⟩ := handleNewConnection_arrives completes served
    apply tells items closes replied res
    rw [log_eq, sent_append, sent_append, arrived] at unpacked
    cases closes <;> simpa [World.start, Event.sent] using unpacked

/-! ## The two marks -/

theorem errorReply_cases (e : Inputs) (i : Input) :
    errorReply e i = [] ∨ errorReply e i = [errorHeader.written] := by
  unfold errorReply
  split
  · exact .inr rfl
  · exact .inl rfl

/-- An error reply is marked. -/
theorem unpack_errorHeader {items : List (List Byte)} (error : items = [] ∨ items = [errorHeader.written])
    {res : Nat × Nat × Nat × List Byte} (unpacked : unpack (items.flatten.take netHeaderSize) = some res) :
    res.2.1 = 0 := by
  rcases error with rfl | rfl
  · cases unpacked
  · have whole : ([errorHeader.written].flatten.take netHeaderSize) = errorHeader.toBytes := by decide
    rw [whole, unpack_toBytes _ (by decide)] at unpacked
    cases unpacked
    decide

/-- Any other reply is marked as the request is. -/
theorem unpack_replyNetHeader (header : NetHeader) (n : Int) (more : List (List Byte)) :
    ∃ size total name, unpack ((((replyNetHeader header n).written :: more).flatten).take netHeaderSize) =
      some (size, (ntohl header.fileNameLen).toNat, total, name) := by
  have width : (replyNetHeader header n).filename.length = MAX_FILENAME_LEN := strncpy_length _ _
  have front : (((replyNetHeader header n).written :: more).flatten).take netHeaderSize =
      (replyNetHeader header n).toBytes := by
    rw [List.flatten_cons, replyNetHeader_written]
    exact List.take_left' (NetHeader.toBytes_length width)
  have echoed : ntohl (replyNetHeader header n).fileNameLen = ntohl header.fileNameLen := by
    show ntohl (ntohl (ntohl header.fileNameLen)) = _
    unfold ntohl
    rw [byteSwap_byteSwap _ (by decide)]
  rw [front, unpack_toBytes _ width, echoed]
  exact ⟨_, _, _, rfl⟩

/-! ## The file stage -/

section File
variable {e : Inputs} {i : Input}

/-- Allocations have no part in what arrives. -/
theorem arrives_nalloc {bs : List Byte} (k : Nat) : Arrives e { i with nalloc := k } bs ↔ Arrives e i bs := by
  unfold Arrives
  rw [sysRead_nalloc]

theorem hasFile_nalloc (k : Nat) : HasFile e { i with nalloc := k } ↔ HasFile e i := by
  unfold HasFile
  simp only [arrives_nalloc]

theorem hasFile_iff : HasFile e i ↔ (checkHeader e i).err = SUCCESS := checkHeader_accepts_iff.symm

/-- Without an acceptable file header there is an error reply at most. -/
theorem streamReply_refused (refused : ¬HasFile e i) (header : NetHeader) :
    streamReply e i header = [] ∨ streamReply e i header = [errorHeader.written] := by
  unfold streamReply
  dsimp only
  split
  · exact .inl rfl
  · rw [if_pos]
    · exact errorReply_cases ..
    · intro accepted
      exact refused ((hasFile_nalloc _).mp (hasFile_iff.mpr accepted))

/-- There is memory for everything `parse_stream` allocates up to the net header. -/
def StreamAllocated (e : Inputs) (k : Nat) : Prop :=
  e.calloc .equation k = true ∧ e.calloc .fileHeader (k + 1) = true ∧ e.calloc .netHeader (k + 2) = true

/-- With one, the reply starts with a net header, or there is no memory for it. -/
theorem streamReply_accepted_cases (accepted : HasFile e i) (header : NetHeader) :
    (StreamAllocated e i.nalloc → ∃ n more, streamReply e i header = (replyNetHeader header n).written :: more) ∧
      (¬StreamAllocated e i.nalloc → streamReply e i header = []) := by
  obtain ⟨file, width, arrives, fields⟩ := (hasFile_nalloc (i.nalloc + 1 + 1)).mpr accepted
  have checked : checkHeader e (calloc e .fileHeader (calloc e .equation i).2).2 = _ :=
    checkHeader_arrives width arrives fields
  unfold streamReply
  dsimp only
  rw [checked]
  constructor
  · rintro ⟨equation, block, net⟩
    have allocated : ¬((calloc e .equation i).1 = false ∨
        (calloc e .fileHeader (calloc e .equation i).2).1 = false) := by
      simp [calloc, equation, block]
    rw [if_neg allocated, if_neg (by simp [SUCCESS]), if_neg (by simp [calloc, net])]
    exact ⟨_, _, rfl⟩
  · intro unallocated
    split
    · rfl
    · rename_i some_memory
      obtain ⟨equation, block⟩ := not_or.mp some_memory
      rw [if_neg (by simp [SUCCESS]), if_pos]
      by_contra net
      apply unallocated
      simp only [calloc, Bool.not_eq_false] at equation block net
      exact ⟨equation, block, net⟩

end File

/-! ## The whole request -/

section Request
variable {e : Inputs} {i : Input} {net request : List Byte}

theorem reply_unallocated (failed : e.calloc .netHeader 0 = false) :
    reply e ⟨request, 0, 0⟩ = some ([], false) := by
  unfold reply
  exact if_pos failed

theorem reply_allocated (request : List Byte) (allocated : e.calloc .netHeader 0 = true) :
    reply e ⟨request, 0, 0⟩ =
      (readNetHeader e (zeroed NET_HEADER_SIZE ++ e.heap) ⟨request, 0, 1⟩).map fun r =>
        (if r.1 ≠ SUCCESS then errorReply e r.2.2
          else streamReply e r.2.2 (NetHeader.ofBytes (slice 0 NET_HEADER_SIZE r.2.1)), true) := by
  unfold reply
  dsimp only [calloc]
  rw [allocated, if_neg (by simp), Option.map_eq_bind]
  rfl

/-- **What the server rejects**: a net header that is refused, and a file
header that is refused or does not come in one piece. -/
theorem rejects_iff (width : net.length = NET_HEADER_SIZE) (arrives : Arrives e i net)
    (inside : (readNetHeader e (zeroed NET_HEADER_SIZE ++ e.heap) i).isSome) :
    Rejects e i ↔ (NetHeader.ofBytes net).Refused ∨
      ¬HasFile e { i with rx := i.rx.drop NET_HEADER_SIZE, nread := i.nread + 1 } := by
  constructor
  · rintro ⟨err, mem, i', found, either⟩
    obtain ⟨refused_iff, _, rfl⟩ := readNetHeader_refuses_iff width arrives found
    rw [refused_iff] at either
    exact either.imp_right fun refused accepted => refused (hasFile_iff.mp accepted)
  · intro either
    obtain ⟨⟨err, mem, i'⟩, found⟩ := Option.isSome_iff_exists.mp inside
    obtain ⟨refused_iff, _, rfl⟩ := readNetHeader_refuses_iff width arrives found
    refine ⟨err, mem, _, found, ?_⟩
    rw [refused_iff]
    exact either.imp_right fun refused accepted => refused (hasFile_iff.mpr accepted)

/-- The messages that answer a request whose net header comes in one piece: for
one that is rejected an error reply at most, and for any other a reply that
starts with its net header, or nothing. -/
theorem reply_cases (width : net.length = NET_HEADER_SIZE) (arrives : Arrives e ⟨request, 0, 1⟩ net)
    (allocated : e.calloc .netHeader 0 = true) {items : List (List Byte)} {closes : Bool}
    (replied : reply e ⟨request, 0, 0⟩ = some (items, closes)) :
    (readNetHeader e (zeroed NET_HEADER_SIZE ++ e.heap) ⟨request, 0, 1⟩).isSome ∧
      (Rejects e ⟨request, 0, 1⟩ → items = [] ∨ items = [errorHeader.written]) ∧
      (¬Rejects e ⟨request, 0, 1⟩ →
        (StreamAllocated e 1 → ∃ n more, items = (replyNetHeader (NetHeader.ofBytes net) n).written :: more) ∧
          (¬StreamAllocated e 1 → items = [])) := by
  rw [reply_allocated request allocated] at replied
  obtain ⟨⟨err, mem, i'⟩, found, same⟩ := Option.map_eq_some_iff.mp replied
  have inside := Option.isSome_iff_exists.mpr ⟨_, found⟩
  obtain ⟨refused_iff, rfl, rfl⟩ := readNetHeader_refuses_iff width arrives found
  rw [slice_left (by omega), slice_all width] at same
  obtain ⟨rfl, rfl⟩ := by simpa using same
  rw [rejects_iff width arrives inside]
  refine ⟨inside, ?_, ?_⟩
  · intro rejected
    by_cases ok : err = SUCCESS
    · rw [if_pos ok]
      apply streamReply_refused
      exact rejected.resolve_left fun refused => refused_iff.mpr refused ok
    · rw [if_neg ok]
      exact errorReply_cases ..
  · intro accepted
    obtain ⟨valid, file⟩ := not_or.mp accepted
    rw [if_pos (not_not.mp (mt refused_iff.mp valid))]
    exact streamReply_accepted_cases (not_not.mp file) _

end Request

/-! ## What the mark means -/

/-- **Failure is told apart from success, exactly when the request is not marked
itself.** For every net header that one `recv` delivers, whatever follows it
and however that is delivered, where no write fails: the reply is marked if and
only if the request was rejected, just when one of the headers is refused, or
the announced length of the name is not zero, or there is no memory for a
reply. -/
theorem failure_told_apart_iff (env : Env) {net rest : List Byte} (width : net.length = NET_HEADER_SIZE)
    (arrives : Arrives env.toInputs ⟨net ++ rest, 0, 1⟩ net) (completes : ∀ k, env.writes k ≠ .fail) :
    TellsApart env (net ++ rest) ↔
      (NetHeader.ofBytes net).Refused ∨ ¬HasFile env.toInputs ⟨rest, 1, 1⟩ ∨
        (ntohl (NetHeader.ofBytes net).fileNameLen).toNat ≠ 0 ∨ ¬ReplyAllocated env.toInputs := by
  have rest_next : (net ++ rest).drop NET_HEADER_SIZE = rest := by rw [← width, List.drop_left]
  have rejects : (readNetHeader env.toInputs (zeroed NET_HEADER_SIZE ++ env.heap) ⟨net ++ rest, 0, 1⟩).isSome →
      (Rejects env.toInputs ⟨net ++ rest, 0, 1⟩ ↔ _) := rejects_iff width arrives
  rw [rest_next] at rejects
  rw [tellsApart_iff completes]
  constructor
  · intro tells
    by_contra unmarked
    obtain ⟨valid, file, zero, memory⟩ := by simpa only [not_or, not_not] using unmarked
    have ends : (0 : Byte) ∈ (NetHeader.ofBytes net).filename := by
      by_contra endless
      exact valid (refused_of_endless width endless)
    have verdict := readNetHeader_verdict env.heap width arrives ends
    have inside := Option.isSome_iff_exists.mpr ⟨_, verdict⟩
    have accepted : ¬Rejects env.toInputs ⟨net ++ rest, 0, 1⟩ := by
      rw [rejects inside]
      rintro (refused | no_file)
      · exact valid refused
      · exact no_file file
    have replied := reply_allocated (net ++ rest) memory.request
    rw [verdict, Option.map_some] at replied
    obtain ⟨_, _, starts⟩ := reply_cases width arrives memory.request replied
    obtain ⟨n, more, same⟩ := (starts accepted).1 ⟨memory.equation, memory.file, memory.reply⟩
    obtain ⟨size, total, name, unpacked⟩ := unpack_replyNetHeader (NetHeader.ofBytes net) n more
    rw [← same] at unpacked
    exact accepted ((tells _ _ replied _ unpacked).mp zero)
  · intro marked items closes replied res unpacked
    cases block : env.calloc .netHeader 0 with
    | false =>
      rw [reply_unallocated block] at replied
      cases replied
      cases unpacked
    | true =>
      obtain ⟨inside, error, starts⟩ := reply_cases width arrives block replied
      by_cases rejected : Rejects env.toInputs ⟨net ++ rest, 0, 1⟩
      · exact iff_of_true (unpack_errorHeader (error rejected) unpacked) rejected
      · have accepted := rejected
        rw [rejects inside, not_or] at accepted
        by_cases memory : StreamAllocated env.toInputs 1
        · obtain ⟨n, more, rfl⟩ := (starts rejected).1 memory
          obtain ⟨size, total, name, named⟩ := unpack_replyNetHeader (NetHeader.ofBytes net) n more
          rw [named] at unpacked
          cases unpacked
          refine iff_of_false ?_ rejected
          rcases marked with refused | no_file | nonzero | no_memory
          · exact absurd refused accepted.1
          · exact absurd no_file accepted.2
          · exact nonzero
          · exact absurd ⟨block, memory.1, memory.2.1, memory.2.2⟩ no_memory
        · rw [(starts rejected).2 memory] at unpacked
          cases unpacked

/-- A file of two sums. -/
def twoSumsFile : List Byte := unsolvedHeader 2 ++ equationRecords [⟨7, 0, 10, 1, 20⟩, ⟨9, 0, 3, 1, 4⟩]

/-- A request for it, named `a`. -/
theorem failure_told_apart_named : TellsApart Env.calm (namedHeader ++ twoSumsFile) :=
  (failure_told_apart_iff Env.calm (by decide) (DeliversAll.arrives (fun _ => rfl) ..)
    (fun _ => WriteAct.noConfusion)).mpr (.inr (.inr (.inl (by decide))))

/-- A net header that is named `a` and announces a name of no letters. -/
def unnamedHeader : List Byte := NetHeader.toBytes ⟨ntohl 48, ntohl 0, 0, strncpy [97] MAX_FILENAME_LEN⟩

/-- A request with it is accepted and answered with two solutions, in a reply
that is marked as an error. -/
theorem unnamed_request_marked :
    (handleNewConnection Env.calm (World.start (unnamedHeader ++ twoSumsFile))).any
        (fun w' => (sent w'.output.log).length = NET_HEADER_SIZE + HEADER_SIZE + SOLUTION_SIZE * 2) ∧
      ¬ TellsApart Env.calm (unnamedHeader ++ twoSumsFile) := by
  have answered : (handleNewConnection Env.calm (World.start (unnamedHeader ++ twoSumsFile))).any fun w' =>
      (sent w'.output.log).length = NET_HEADER_SIZE + HEADER_SIZE + SOLUTION_SIZE * 2 ∧
        (unpack ((sent w'.output.log).take netHeaderSize)).any fun res => res.2.1 = 0 := by
    decide +kernel
  obtain ⟨w', served, here⟩ := (Option.any_eq_true ..).mp answered
  obtain ⟨size, marked⟩ := of_decide_eq_true here
  obtain ⟨res, unpacked, zero⟩ := (Option.any_eq_true ..).mp marked
  refine ⟨by rw [served]; exact decide_eq_true size, ?_⟩
  intro tells
  have rejected := (tells w' served res unpacked).mp (of_decide_eq_true zero)
  have arrives := DeliversAll.arrives (e := Env.calm.toInputs) (fun _ => rfl) unnamedHeader twoSumsFile 0 1
  have inside : (readNetHeader Env.calm.toInputs (zeroed NET_HEADER_SIZE ++ Env.calm.heap)
      ⟨unnamedHeader ++ twoSumsFile, 0, 1⟩).isSome := by
    rw [readNetHeader_verdict _ (by decide) arrives (by decide)]
    rfl
  rcases (rejects_iff (by decide) arrives inside).mp rejected with refused | no_file
  · exact absurd refused (by decide)
  · apply no_file
    have file : HasFile Env.calm.toInputs ⟨twoSumsFile, 1, 1⟩ :=
      ⟨unsolvedHeader 2, by decide, DeliversAll.arrives (fun _ => rfl) .., by decide⟩
    exact file

end NetCalc.Net
