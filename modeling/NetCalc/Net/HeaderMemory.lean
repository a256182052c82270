import NetCalc.Net.Verdict

/-!
# Does `read_net_header` stay in its block?

Two ways lead out of the 48 bytes of a net header. The loop adds the number of
received bytes to a `net_header_t *`, so after a first chunk that is not the
whole header it writes, and the checks look, at another header's place
(`readNetHeader_inside_iff`). And a name that fills its field has no end in it,
so that `strlen` looks for one behind the block (`name_inside_iff`).

Memory that is mapped only as far as the block tells whether a run leaves it:
the functions are `none` where they touch a byte that is not there.
-/

namespace NetCalc.Net

set_option autoImplicit false
open NetCalc.Lib

/-! ## Chunks of a header -/

/-- What `recv` after `recv` delivers of `want` bytes, until nothing comes. -/
def receive (e : Inputs) (want : Nat) (i : Input) : List Byte :=
  match _found : sysRead e i want with
  | (.error _, _) => []
  | (.ok bs, i') => if _none_came : bs = [] then [] else bs ++ receive e (want - bs.length) i'
termination_by want
decreasing_by
  have bound := (sysRead_ok _found).1
  have pos := List.length_pos_iff.mpr _none_came
  omega

/-- Chunks make no difference to a header, and its block is never left: when 48
bytes arrive, verdict and header are those of any delivery in one piece, and
when fewer do, the verdict is an error. -/
structure HeaderWhole (e : Inputs) (i : Input) : Prop where
  inside : (readNetHeader e (zeroed NET_HEADER_SIZE) i).isSome
  whole : (receive e NET_HEADER_SIZE i).length = NET_HEADER_SIZE →
    ∀ e' i', Arrives e' i' (receive e NET_HEADER_SIZE i) →
      (readNetHeader e (zeroed NET_HEADER_SIZE) i).map (fun r => (r.1, r.2.1)) =
        (readNetHeader e' (zeroed NET_HEADER_SIZE) i').map fun r => (r.1, r.2.1)
  early : (receive e NET_HEADER_SIZE i).length < NET_HEADER_SIZE →
    (readNetHeader e (zeroed NET_HEADER_SIZE) i).map (fun r => r.1) = some ERROR

section Chunks
variable {e : Inputs} {i : Input} {mem bs header : List Byte}

theorem receive_error {want : Nat} {errno : Errno} (failed : (sysRead e i want).1 = .error errno) :
    receive e want i = [] := by
  rw [receive]
  split
  · rfl
  · rename_i found
    rw [found] at failed
    cases failed

theorem receive_ok {want : Nat} (found : (sysRead e i want).1 = .ok bs) :
    receive e want i = if bs = [] then [] else bs ++ receive e (want - bs.length) (sysRead e i want).2 := by
  rw [receive]
  split
  · rename_i failed
    rw [failed] at found
    cases found
  · rename_i same
    rw [same] at found
    cases found
    rw [same]
    split <;> rfl

/-- No more than `want` bytes are received, and they are the front of the stream. -/
theorem receive_front (e : Inputs) (want : Nat) (i : Input) :
    (receive e want i).length ≤ want ∧ receive e want i <+: i.rx := by
  fun_induction receive e want i with
  | case1 => exact ⟨Nat.zero_le _, List.nil_prefix⟩
  | case2 => exact ⟨Nat.zero_le _, List.nil_prefix⟩
  | case3 want i bs i' found none_came ih =>
    have bound := (sysRead_ok found).1
    obtain ⟨short, front⟩ := ih
    constructor
    · rw [List.length_append]
      omega
    · rw [sysRead_stream found]
      exact (List.prefix_append_right_inj bs).mpr front

/-- A patch changes no length. -/
theorem store_length {mem' : List Byte} {addr : Nat} (stored : store mem addr bs = some mem') :
    mem'.length = mem.length := by
  unfold store at stored
  split at stored
  · rename_i room
    cases stored
    simp only [patch, List.length_append, List.length_take, List.length_drop]
    omega
  · cases stored

/-- `buf` never points further to the front, and memory keeps its size. -/
theorem recvLoop_forward {buf total buf' : Nat} {mem' : List Byte} {i' : Input}
    (found : recvLoop e mem buf total i = some (mem', buf', i')) : buf ≤ buf' ∧ mem'.length = mem.length := by
  fun_induction recvLoop e mem buf total i with
  | case1 =>
    cases found
    exact ⟨Nat.le_refl _, rfl⟩
  | case2 => cases found
  | case3 mem buf total i bs i₁ read mem₁ stored done =>
    cases found
    exact ⟨Nat.le_refl _, store_length stored⟩
  | case4 mem buf total i bs i₁ read mem₁ stored goes_on ih =>
    obtain ⟨forward, same⟩ := ih found
    exact ⟨by omega, same.trans (store_length stored)⟩

/-- Behind the block nothing is there. -/
theorem load32_behind {addr : Nat} (width : mem.length = NET_HEADER_SIZE) (behind : NET_HEADER_SIZE ≤ addr) :
    load32 mem addr = none := by
  rw [load32, if_neg (by omega)]

/-- **A first chunk that is not the whole header leads out of the block.** -/
theorem readNetHeader_leaves (found : (sysRead e i NET_HEADER_SIZE).1 = .ok bs) (some_came : bs ≠ [])
    (split_there : bs.length ≠ NET_HEADER_SIZE) : readNetHeader e (zeroed NET_HEADER_SIZE) i = none := by
  have block : (zeroed NET_HEADER_SIZE).length = NET_HEADER_SIZE := List.length_replicate
  have some_bytes := List.length_pos_iff.mpr some_came
  have outside : ∀ mem buf i', recvLoop e (zeroed NET_HEADER_SIZE) 0 0 i = some (mem, buf, i') →
      mem.length = NET_HEADER_SIZE ∧ NET_HEADER_SIZE ≤ buf := by
    intro mem buf i' ended
    rw [recvLoop] at ended
    split at ended
    · rename_i failed
      rw [Nat.sub_zero] at failed
      rw [failed] at found
      cases found
    · rename_i delivered
      rw [Nat.sub_zero] at delivered
      rw [delivered] at found
      cases found
      split at ended
      · cases ended
      · rename_i stored
        rw [dif_neg (by unfold NET_HEADER_SIZE at *; omega)] at ended
        obtain ⟨forward, same⟩ := recvLoop_forward ended
        refine ⟨same.trans ((store_length stored).trans block), ?_⟩
        calc NET_HEADER_SIZE = 1 * NET_HEADER_SIZE := (Nat.one_mul _).symm
          _ ≤ bs.length * NET_HEADER_SIZE := Nat.mul_le_mul_right _ some_bytes
          _ ≤ buf := by omega
  unfold readNetHeader
  cases looped : recvLoop e (zeroed NET_HEADER_SIZE) 0 0 i with
  | none => rfl
  | some ended =>
    obtain ⟨width, behind⟩ := outside _ _ _ looped
    simp only [Option.bind_eq_bind, Option.bind_some, load32_behind width behind, Option.bind_none]

/-- With nothing received the header is zeros, which is no header. -/
theorem readNetHeader_nothing (nothing : ∀ bs, (sysRead e i NET_HEADER_SIZE).1 = .ok bs → bs = []) :
    (readNetHeader e (zeroed NET_HEADER_SIZE) i).map (fun r => r.1) = some ERROR := by
  have ended : ∃ i', recvLoop e (zeroed NET_HEADER_SIZE) 0 0 i = some (zeroed NET_HEADER_SIZE, 0, i') := by
    rw [recvLoop]
    split
    · exact ⟨_, rfl⟩
    · rename_i bs i' delivered
      obtain rfl : bs = [] := nothing bs (congrArg Prod.fst delivered)
      exact ⟨i', rfl⟩
  obtain ⟨i', ended⟩ := ended
  unfold readNetHeader
  rw [ended]
  rfl

/-- **Chunks make no difference to a header exactly when there is only one.**
For every header with a NUL in its name, of which the peer sends all or a part:
`read_net_header` stays in its block and gives the verdict of a delivery in one
piece if and only if the first `recv` delivers nothing or the whole header. -/
theorem readNetHeader_inside_iff (width : header.length = NET_HEADER_SIZE)
    (ends : (0 : Byte) ∈ (NetHeader.ofBytes header).filename) (sends : header <+: i.rx ∨ i.rx <+: header) :
    HeaderWhole e i ↔
      ∀ bs, (sysRead e i NET_HEADER_SIZE).1 = .ok bs → bs = [] ∨ bs.length = NET_HEADER_SIZE := by
  constructor
  · intro whole bs found
    by_contra neither
    obtain ⟨some_came, split_there⟩ := not_or.mp neither
    have inside := whole.inside
    rw [readNetHeader_leaves found some_came split_there] at inside
    cases inside
  · intro one_piece
    by_cases nothing : ∀ bs, (sysRead e i NET_HEADER_SIZE).1 = .ok bs → bs = []
    · have rejected := readNetHeader_nothing nothing
      have none_received : receive e NET_HEADER_SIZE i = [] := by
        cases found : (sysRead e i NET_HEADER_SIZE).1 with
        | error errno => exact receive_error found
        | ok bs => rw [receive_ok found, if_pos (nothing bs found)]
      refine ⟨?_, ?_, fun _ => rejected⟩
      · have present := congrArg Option.isSome rejected
        rwa [Option.isSome_map] at present
      · intro full
        rw [none_received] at full
        cases full
    · obtain ⟨bs, found, some_came⟩ : ∃ bs, (sysRead e i NET_HEADER_SIZE).1 = .ok bs ∧ bs ≠ [] := by
        simpa using nothing
      have full : bs.length = NET_HEADER_SIZE := (one_piece bs found).resolve_left some_came
      have arrives : Arrives e i bs := by
        unfold Arrives
        rw [full]
        exact found
      have received : receive e NET_HEADER_SIZE i = bs := by
        have none_left := (receive_front e 0 (sysRead e i NET_HEADER_SIZE).2).1
        rw [receive_ok found, if_neg some_came, full, Nat.sub_self,
          List.eq_nil_of_length_eq_zero (Nat.le_zero.mp none_left), List.append_nil]
      obtain rfl : bs = header := by
        have front : bs <+: i.rx := ⟨_, arrives.front.symm⟩
        rcases sends with all | part
        · exact (List.prefix_of_prefix_length_le front all (by omega)).eq_of_length (by omega)
        · exact (front.trans part).eq_of_length (by omega)
      have verdict : ∀ e' i', Arrives e' i' bs → readNetHeader e' (zeroed NET_HEADER_SIZE) i' =
          some (if (NetHeader.ofBytes bs).Refused then ERROR else SUCCESS, bs,
            { i' with rx := i'.rx.drop NET_HEADER_SIZE, nread := i'.nread + 1 }) := by
        intro e' i' arrives'
        have alone := readNetHeader_verdict [] full arrives' ends
        rwa [List.append_nil, List.append_nil] at alone
      refine ⟨?_, ?_, ?_⟩
      · rw [verdict e i arrives]
        rfl
      · rw [received]
        intro _ e' i' arrives'
        rw [verdict e i arrives, verdict e' i' arrives']
        rfl
      · rw [received]
        omega

end Chunks

/-- A header that comes in one piece. -/
theorem readNetHeader_inside_calm : HeaderWhole Env.calm.toInputs ⟨namedHeader, 0, 0⟩ := by
  apply (readNetHeader_inside_iff (by decide) (by decide : (0 : Byte) ∈ (NetHeader.ofBytes namedHeader).filename)
    (.inl List.prefix_rfl)).mpr
  intro bs found
  cases found
  exact .inr (by decide)

/-- Two chunks of 24 bytes: all 48 arrive, and the second is written behind the
block. -/
theorem header_in_two_chunks :
    (receive { Env.calm with reads := fun _ => .chunk 24 }.toInputs NET_HEADER_SIZE ⟨namedHeader, 0, 0⟩) =
        namedHeader ∧
      ¬ HeaderWhole { Env.calm with reads := fun _ => .chunk 24 }.toInputs ⟨namedHeader, 0, 0⟩ := by
  constructor
  · decide +kernel
  · intro whole
    have inside := whole.inside
    rw [readNetHeader_leaves rfl (by decide) (by decide)] at inside
    cases inside

/-! ## The end of the name -/

/-- What is decided about a header, and the name that is echoed, by its bytes
alone: the scan stops in the name, and whatever is mapped behind the block and
however the header came, verdict and echo are the same. -/
structure NameInside (bs : List Byte) : Prop where
  stops : (strlen (NetHeader.ofBytes bs).filename).isSome
  decided : ∃ verdict echo, ∀ (e : Inputs) (i : Input) (n : Int), Arrives e i bs → ∃ mem i',
    readNetHeader e (zeroed NET_HEADER_SIZE ++ e.heap) i = some (verdict, mem, i') ∧
      (replyNetHeader (NetHeader.ofBytes (slice 0 NET_HEADER_SIZE mem)) n).filename = echo

/-- **A header decides alone exactly when its name has an end.** For every
header of a correct size and a name length of at most 24: the scan for the end
of the name stays in the header if and only if the name holds a NUL. -/
theorem name_inside_iff {bs : List Byte} (width : bs.length = NET_HEADER_SIZE)
    (size : ntohl (NetHeader.ofBytes bs).headerSize = BitVec.ofNat 32 NET_HEADER_SIZE)
    (length : (ntohl (NetHeader.ofBytes bs).fileNameLen).toNat ≤ MAX_FILENAME_SIZE) :
    NameInside bs ↔ (0 : Byte) ∈ (NetHeader.ofBytes bs).filename := by
  constructor
  · intro inside
    by_contra endless
    obtain ⟨verdict, echo, decided⟩ := inside.decided
    -- memory ends with the block, and the scan goes on
    let e : Inputs := { Env.calm.toInputs with heap := [] }
    have arrives : Arrives e ⟨bs, 0, 0⟩ bs := by
      show Except.ok (bs.take bs.length) = Except.ok bs
      rw [List.take_length]
    obtain ⟨mem, i', found, _⟩ := decided e ⟨bs, 0, 0⟩ 0 arrives
    have scanned := readNetHeader_whole e.heap width arrives
    rw [if_neg (not_or.mpr ⟨not_not.mpr size, Nat.not_lt.mpr length⟩), strlen_of_not_mem _ endless,
      found] at scanned
    cases scanned
  · intro ends
    constructor
    · have stops := strlen_of_mem [] ends
      rw [List.append_nil] at stops
      rw [stops]
      rfl
    · refine ⟨if (NetHeader.ofBytes bs).Refused then ERROR else SUCCESS,
        strncpy (NetHeader.ofBytes bs).filename MAX_FILENAME_LEN, ?_⟩
      intro e i n arrives
      refine ⟨_, _, readNetHeader_verdict e.heap width arrives ends, ?_⟩
      rw [slice_left (by omega), slice_all width]
      rfl

/-- The header named `a`. -/
theorem name_inside_named : NameInside namedHeader :=
  (name_inside_iff (by decide) (by decide) (by decide)).mpr (by decide)

/-- A name of 32 letters. -/
theorem name_fills_its_field :
    (NetHeader.toBytes ⟨ntohl 48, ntohl 1, 0, List.replicate 32 65⟩).length = NET_HEADER_SIZE ∧
      ntohl (NetHeader.ofBytes (NetHeader.toBytes ⟨ntohl 48, ntohl 1, 0, List.replicate 32 65⟩)).headerSize =
        BitVec.ofNat 32 NET_HEADER_SIZE ∧
      (ntohl (NetHeader.ofBytes (NetHeader.toBytes
        ⟨ntohl 48, ntohl 1, 0, List.replicate 32 65⟩)).fileNameLen).toNat ≤ MAX_FILENAME_SIZE ∧
      ¬ NameInside (NetHeader.toBytes ⟨ntohl 48, ntohl 1, 0, List.replicate 32 65⟩) := by
  refine ⟨by decide, by decide, by decide, ?_⟩
  intro inside
  exact absurd inside.stops (by decide)

end NetCalc.Net
