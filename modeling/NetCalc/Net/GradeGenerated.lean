import NetCalc.Net.GradeDirs

/-!
# How generated files are graded

What is generated has operands so small that the only thing to go wrong is a
zero for a divisor. A directory of generated files that have been solved, each
as far as it can be, therefore passes exactly when no such zero was drawn for
one of its files, and otherwise the grader raises (`graded_generated`).
-/

namespace NetCalc.Grader

set_option autoImplicit false
open NetCalc.Lib

/-! ## Generated files and what they are answered with -/

/-- What an equation file is answered with, equations as far as they can be solved. -/
def solvedBy (t : Target) (content : List Byte) : List Byte :=
  solvedFile t (Client.getNumEquations content) (content.take Net.HEADER_SIZE) (content.drop Net.HEADER_SIZE)

section Generated
variable {t : Target} {fileId : BitVec 64} {draws : List Draw} {content : List Byte}

/-- The header and the equations of a generated file. -/
structure Shape (fileId : BitVec 64) (draws : List Draw) (content : List Byte) : Prop where
  content_eq : content = (generatedHeader fileId draws.length).toBytes ++ generatedStream draws
  width : (generatedHeader fileId draws.length).toBytes.length = Net.HEADER_SIZE
  fields : Net.FileHeader.ofBytes (generatedHeader fileId draws.length).toBytes =
    generatedHeader fileId draws.length
  count : (generatedHeader fileId draws.length).numEquations.toNat = draws.length
  solved : ∀ t, solvedBy t content =
    solvedFile t draws.length (generatedHeader fileId draws.length).toBytes (generatedStream draws)

theorem shape (made : generated fileId draws = some content) (few : draws.length < 2 ^ 64) :
    Shape fileId draws content := by
  have width : (generatedHeader fileId draws.length).toBytes.length = Net.HEADER_SIZE :=
    Net.FileHeader.toBytes_length _
  have fields := Net.FileHeader.ofBytes_toBytes (generatedHeader fileId draws.length)
  have count : (generatedHeader fileId draws.length).numEquations.toNat = draws.length :=
    (BitVec.toNat_ofNat ..).trans (Nat.mod_eq_of_lt few)
  rw [generated_eq few] at made
  obtain rfl := Option.some.inj made
  refine ⟨rfl, width, fields, count, fun t => ?_⟩
  rw [solvedBy, Client.getNumEquations_eq width, fields, count, List.take_left' width, List.drop_left' width]

theorem Shape.unpack (h : Shape fileId draws content) :
    UnpackedHeader.unpack content = some (.ofFile (generatedHeader fileId draws.length)) := by
  rw [h.content_eq, unpack_file h.width, h.fields]

theorem Shape.unpack_solvedBy (h : Shape fileId draws content) (t : Target) :
    UnpackedHeader.unpack (solvedBy t content) =
      some (.ofFile { generatedHeader fileId draws.length with isSolved := 1 }) := by
  rw [h.solved, solvedFile, unpack_solved h.width, h.fields]

/-- An equation is the draw in its place. -/
theorem draw_at {i : Nat} (small : i < draws.length) :
    block Net.EQUATION_SIZE i (generatedStream draws) = draws[i].equation.toBytes ∧
      equationAt (generatedStream draws) i = draws[i].equation :=
  ⟨block_generated (List.getElem?_eq_getElem small), equationAt_generated (List.getElem?_eq_getElem small)⟩

theorem generated_solvable_iff :
    AllSolvable t draws.length (generatedStream draws) ↔ ∀ d ∈ draws, ¬d.ByZero := by
  constructor
  · intro solvable d member
    obtain ⟨i, small, rfl⟩ := List.mem_iff_getElem.mp member
    have here := solvable i small
    rw [(draw_at small).1] at here
    exact draws[i].solvable_iff.mp here
  · intro nonzero i small
    rw [(draw_at small).1]
    exact draws[i].solvable_iff.mpr (nonzero _ (List.getElem_mem small))

theorem generated_counts : CountsBelow draws.length (generatedStream draws) := by
  intro i op small known has
  rw [(draw_at small).2] at known ⊢
  rw [draws[i].operator_known] at known
  obtain rfl := Option.some.inj known
  have count := draws[i].num2_le
  have unsigned : ¬draws[i].op.val ≤ 5 := by
    cases chosen : draws[i].op <;> rw [chosen] at has <;> first | exact False.elim has | decide
  rw [if_neg unsigned] at count
  rw [draws[i].num2_toNat]
  omega

/-- **How a generated file is graded** once it is solved: it passes unless it
divides by zero, and then the grader raises. -/
theorem Shape.graded (h : Shape fileId draws content) (shifts : FullShiftsAddNothing t) :
    (EquGrader.fail content (solvedBy t content) = some 0 ↔ ∀ d ∈ draws, ¬d.ByZero) ∧
      (EquGrader.fail content (solvedBy t content) = none ↔ ∃ d ∈ draws, d.ByZero) := by
  have counted : (Net.FileHeader.ofBytes (generatedHeader fileId draws.length).toBytes).numEquations.toNat =
      draws.length := by
    rw [h.fields, h.count]
  obtain ⟨raises, passes, _⟩ := answers_graded h.width (by rw [h.fields]; rfl) t draws.length counted
    (generatedStream_length draws) generated_counts
  rw [← h.content_eq, ← h.solved t, generated_solvable_iff] at raises passes
  constructor
  · rw [passes]
    refine and_iff_left_of_imp fun nonzero i op small known => ?_
    rw [(draw_at small).2] at known ⊢
    rw [draws[i].operator_known] at known
    obtain rfl := Option.some.inj known
    exact draws[i].alike shifts (nonzero _ (List.getElem_mem small))
  · rw [raises]
    simp only [not_forall, not_not, exists_prop]

end Generated

/-! ## The two directories -/

section Walks
variable {t : Target} {drawn : List (BitVec 64 × List Draw)} {dir : Dir} {inwalk outwalk : List (List Byte)}

theorem IsFile.shape {file : String × List Byte} {f : BitVec 64 × List Draw} (named : IsFile file f)
    (few : f.2.length < 2 ^ 64) : Shape f.1 f.2 file.2 := Grader.shape named.2 few

/-- The files of a generated directory, each with its solved one. -/
theorem generated_paired (filled : generateFiles drawn .empty = some dir)
    (few : ∀ f ∈ drawn, f.2.length < 2 ^ 64) (t : Target) :
    Paired (dir.files.map fun file => (file.2, solvedBy t file.2)) [] := by
  have each : ∀ file ∈ dir.files, ∃ f, IsFile file f ∧ Shape f.1 f.2 file.2 := by
    intro file member
    rcases (mem_generateFiles filled).mp member with ⟨before, _⟩ | ⟨f, survives, named⟩
    · cases before
    · exact ⟨f, named, named.shape (few f survives.mem)⟩
  have magic : (BitVec.ofNat 32 EQU_HDR_MAGIC).toNat = EQU_HDR_MAGIC := by decide
  constructor
  case unsolved =>
    intro p member
    obtain ⟨file, inside, rfl⟩ := List.mem_map.mp member
    obtain ⟨f, _, shape⟩ := each file inside
    rw [checkheader_unpacked shape.unpack, UnpackedHeader.ofFile, generatedHeader, if_pos magic]
    rfl
  case solved =>
    intro p member
    obtain ⟨file, inside, rfl⟩ := List.mem_map.mp member
    obtain ⟨f, _, shape⟩ := each file inside
    rw [checkheader_unpacked (shape.unpack_solvedBy t), UnpackedHeader.ofFile, generatedHeader, if_pos magic]
    rfl
  case own =>
    intro p member
    obtain ⟨file, inside, rfl⟩ := List.mem_map.mp member
    obtain ⟨f, _, shape⟩ := each file inside
    rw [matchfiles_unpacked shape.unpack (shape.unpack_solvedBy t)]
    exact congrArg some (decide_eq_true rfl)
  case others =>
    intro p member q member' other
    obtain ⟨file, inside, rfl⟩ := List.mem_map.mp member
    obtain ⟨file', inside', rfl⟩ := List.mem_map.mp member'
    obtain ⟨f, named, shape⟩ := each file inside
    obtain ⟨f', named', shape'⟩ := each file' inside'
    rw [matchfiles_unpacked shape.unpack (shape'.unpack_solvedBy t)]
    refine congrArg some (decide_eq_false fun same_id => other ?_)
    have same_name : file'.1 = file.1 := by
      rw [named.1, named'.1, BitVec.eq_of_toNat_eq (show f.1.toNat = f'.1.toNat from same_id)]
    rw [List.inj_on_of_nodup_map dir.distinct inside' inside same_name]
  case unsolved_missing => exact List.forall_mem_nil _
  case alone => exact List.forall_mem_nil _
  case distinct =>
    refine List.Nodup.map_on (fun file inside file' inside' same => ?_) dir.distinct.of_map
    obtain ⟨f, named, shape⟩ := each file inside
    obtain ⟨f', named', shape'⟩ := each file' inside'
    have header := shape.unpack
    have same_content : file.2 = file'.2 := congrArg Prod.fst same
    rw [same_content, shape'.unpack, Option.some.injEq] at header
    have same_id : f'.1.toNat = f.1.toNat := congrArg UnpackedHeader.fileid header
    have same_name : file.1 = file'.1 := by
      rw [named.1, named'.1, BitVec.eq_of_toNat_eq same_id]
    exact List.inj_on_of_nodup_map dir.distinct inside inside' same_name

/-- **How generated files are graded** where each has been solved. -/
theorem graded_generated (filled : generateFiles drawn .empty = some dir)
    (few : ∀ f ∈ drawn, f.2.length < 2 ^ 64) (shifts : FullShiftsAddNothing t)
    (ins : inwalk.Perm (dir.files.map Prod.snd))
    (outs : outwalk.Perm (dir.files.map fun file => solvedBy t file.2)) :
    (gradeDirs inwalk outwalk = some 0 ↔ ∀ f, Survives drawn f → ∀ d ∈ f.2, ¬d.ByZero) ∧
      (gradeDirs inwalk outwalk = none ↔ ∃ f, Survives drawn f ∧ ∃ d ∈ f.2, d.ByZero) := by
  have graded : gradeDirs inwalk outwalk = _ := gradeDirs_paired (generated_paired filled few t)
    (by rw [List.append_nil, List.map_map]; exact ins) (by rw [List.map_map]; exact outs)
  have kept : ∀ f, Survives drawn f → ∃ file ∈ dir.files, Shape f.1 f.2 file.2 := by
    intro f survives
    have here : generated f.1 f.2 = _ := generated_eq (few f survives.mem)
    refine ⟨(fileName f.1, _), (mem_generateFiles filled).mpr (.inr ⟨f, survives, rfl, here⟩), ?_⟩
    exact shape here (few f survives.mem)
  have drawn_each : ∀ file ∈ dir.files, ∃ f, Survives drawn f ∧ Shape f.1 f.2 file.2 := by
    intro file member
    rcases (mem_generateFiles filled).mp member with ⟨before, _⟩ | ⟨f, survives, named⟩
    · cases before
    · exact ⟨f, survives, named.shape (few f survives.mem)⟩
  rw [graded, summed_map]
  constructor
  · trans summed (fun file : String × List Byte => EquGrader.fail file.2 (solvedBy t file.2)) dir.files = some 0
    · cases summed (fun file : String × List Byte => EquGrader.fail file.2 (solvedBy t file.2)) dir.files <;> simp
    rw [summed_zero_iff]
    constructor
    · intro passes f survives
      obtain ⟨file, member, shape⟩ := kept f survives
      exact (shape.graded shifts).1.mp (passes file member)
    · intro nonzero file member
      obtain ⟨f, survives, shape⟩ := drawn_each file member
      exact (shape.graded shifts).1.mpr (nonzero f survives)
  · rw [Option.map_eq_none_iff, summed_none_iff]
    constructor
    · rintro ⟨file, member, raises⟩
      obtain ⟨f, survives, shape⟩ := drawn_each file member
      exact ⟨f, survives, (shape.graded shifts).2.mp raises⟩
    · rintro ⟨f, survives, by_zero⟩
      obtain ⟨file, member, shape⟩ := kept f survives
      exact ⟨file, member, (shape.graded shifts).2.mpr by_zero⟩

end Walks

end NetCalc.Grader
