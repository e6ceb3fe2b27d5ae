import BlueOs.MemoryMap

/-!
# The sums below the memory map

On a map whose entries lie end to end, apart from the text screen, the walk visits every
entry once and adds up the lengths of the usable ones. The summary is not always that of
the map. The last branch of the switch adds nothing, so the lengths of types it does not
know are missing among the reserved ones. The size of the kernel is a difference of
pointers to words, a quarter of its bytes. And a map that ends at the top of the address
space is not walked.
-/

namespace BlueOs.MemorySummary

open ByteMemory Programs ScreenMemory MemoryMap
open NumberPrinting (Printed printDec_eq toDigits_inj)

/-- Entries of size 20 or more, one after the other, from a place exactly to the end of
the map. -/
inductive EndToEnd (memory : Memory) (stop : Nat) : Nat → List Address → Prop where
  | nil : EndToEnd memory stop stop []
  | cons (place : Nat) (rest : List Address)
      (large : 20 ≤ (entryAt memory (BitVec.ofNat 32 place)).size.toNat)
      (within : place + ((entryAt memory (BitVec.ofNat 32 place)).size.toNat + 4) ≤ stop)
      (following : EndToEnd memory stop
        (place + ((entryAt memory (BitVec.ofNat 32 place)).size.toNat + 4)) rest) :
      EndToEnd memory stop place (BitVec.ofNat 32 place :: rest)

theorem endToEnd_nil (memory : Memory) (stop place : Nat)
    (laid : EndToEnd memory stop place []) : place = stop := by
  cases laid
  rfl

/-- The sum of the lengths of the entries of some types. -/
def total (memory : Memory) (counts : Word → Bool) (places : List Address) : Nat :=
  (places.map fun place =>
    if counts (entryAt memory place).type then (entryAt memory place).length.toNat else 0).sum

/-- Usable memory. -/
def usable (type : Word) : Bool := type = 1

/-- Everything else is reserved. -/
def reserved (type : Word) : Bool := !usable type

/-- The reserved types that the switch knows. -/
def known (type : Word) : Bool := type = 2 || type = 3 || type = 4

/-- The reserved types that it does not know. -/
def unknown (type : Word) : Bool := reserved type && !known type

theorem total_cons (memory : Memory) (counts : Word → Bool) (place : Address)
    (rest : List Address) :
    total memory counts (place :: rest) =
      (if counts (entryAt memory place).type then (entryAt memory place).length.toNat else 0) +
        total memory counts rest :=
  List.sum_cons

/-- The reserved entries are those of known and those of unknown types. -/
theorem total_reserved (memory : Memory) (places : List Address) :
    total memory reserved places = total memory known places + total memory unknown places := by
  induction places with
  | nil => rfl
  | cons place rest inductionHypothesis =>
    rw [total_cons, total_cons, total_cons, inductionHypothesis]
    have cases : reserved (entryAt memory place).type =
        (known (entryAt memory place).type || unknown (entryAt memory place).type) ∧
        (known (entryAt memory place).type && unknown (entryAt memory place).type) = false := by
      generalize (entryAt memory place).type = type
      simp only [unknown, reserved, usable, known]
      grind
    grind

theorem total_le (memory : Memory) (counts : Word → Bool) (places : List Address) :
    total memory counts places ≤ total memory (fun _ => true) places := by
  induction places with
  | nil => exact Nat.le_refl _
  | cons place rest inductionHypothesis =>
    rw [total_cons, total_cons]
    split <;> simp only [if_true] <;> omega

/-- What the switch adds for an entry that is not on the text screen. -/
theorem decode_totals {memory : Memory} {walk : Walk} (kept : Kept memory walk)
    (clear : OffScreen walk.mmap 24) :
    walk.decode.total_free = walk.total_free + BitVec.ofNat 64
        (if usable (entryAt memory walk.mmap).type then
          (entryAt memory walk.mmap).length.toNat else 0) ∧
      walk.decode.total_used = walk.total_used + BitVec.ofNat 64
        (if known (entryAt memory walk.mmap).type then
          (entryAt memory walk.mmap).length.toNat else 0) := by
  have read : walk.entry = entryAt memory walk.mmap := kept.entryAt walk.mmap clear
  have later (calls : List Printed) : (walk.print calls).entry = entryAt memory walk.mmap :=
    (kept.print calls).entryAt walk.mmap clear
  rw [Walk.decode, read, usable, known]
  generalize entryAt memory walk.mmap = mmap at later
  by_cases one : mmap.type = 1
  · simp [one, later]
  · by_cases two : mmap.type = 2
    · simp [two, later]
    · by_cases three : mmap.type = 3
      · simp [three, later]
      · by_cases four : mmap.type = 4
        · simp [four, later]
        · rw [if_neg one, if_neg two, if_neg three, if_neg four]
          simp only [one, two, three, four, decide_false, Bool.or_self, Bool.false_eq_true,
            if_false]
          exact ⟨(BitVec.add_zero _).symm, (BitVec.add_zero _).symm⟩

/-- The walk after the entries of a list. -/
structure Visits (memory : Memory) (places : List Address) (walk last : Walk) : Prop where
  free : last.total_free = walk.total_free + BitVec.ofNat 64 (total memory usable places)
  used : last.total_used = walk.total_used + BitVec.ofNat 64 (total memory known places)
  visited : last.visited = places.reverse ++ walk.visited

/-- One turn visits one entry. -/
theorem visits_cons {memory : Memory} {walk : Walk} (kept : Kept memory walk)
    (clear : OffScreen walk.mmap 24) (rest : List Address) (last : Walk)
    (visits : Visits memory rest (visit walk) last) :
    Visits memory (walk.mmap :: rest) walk last := by
  obtain ⟨free, used, visited⟩ := visits
  obtain ⟨freed, reservedToo⟩ := decode_totals (kept.print _) clear
  constructor
  · rw [free, total_cons, BitVec.ofNat_add, ← BitVec.add_assoc]
    exact congrArg (· + _) freed
  · rw [used, total_cons, BitVec.ofNat_add, ← BitVec.add_assoc]
    exact congrArg (· + _) reservedToo
  · rw [visited, visit_visited, List.reverse_cons, List.append_assoc]
    rfl

/-- The walk visits the entries of a map that does not end at the top of the address
space and is not on the text screen, each once and in order. -/
theorem walkMap_visits (mb_info : Address) (memory : Memory) (place : Nat)
    (places : List Address) (clear : OffScreen (mb_info + 44) 8)
    (away : OffScreen (infoAt memory mb_info).mmap_addr (infoAt memory mb_info).mmap_length.toNat)
    (below : (infoAt memory mb_info).stop < 2 ^ 32)
    (laid : EndToEnd memory (infoAt memory mb_info).stop place places)
    (above : (infoAt memory mb_info).mmap_addr.toNat ≤ place)
    (walk : Walk) (kept : Kept memory walk) (here : walk.mmap = BitVec.ofNat 32 place) :
    ∃ last, Returns (walkMap mb_info) walk last ∧ Visits memory places walk last := by
  induction laid generalizing walk with
  | nil =>
    have done : inMap mb_info walk = false := by
      rw [Bool.eq_false_iff, ne_eq, inMap_iff mb_info kept clear below, here,
        BitVec.toNat_ofNat, Nat.mod_eq_of_lt below]
      exact Nat.lt_irrefl _
    refine ⟨walk, returns_loop_done _ _ walk done, ?_, ?_, ?_⟩
    · exact (BitVec.add_zero _).symm
    · exact (BitVec.add_zero _).symm
    · rfl
  | cons place rest large within following inductionHypothesis =>
    have cursor : walk.mmap.toNat = place := by
      rw [here, BitVec.toNat_ofNat, Nat.mod_eq_of_lt (by omega)]
    have again : inMap mb_info walk = true := by
      rw [inMap_iff mb_info kept clear below, cursor]
      omega
    have offScreen : OffScreen walk.mmap 24 :=
      entry_clear _ away (by omega) (by omega)
    have moved : (visit walk).mmap = BitVec.ofNat 32
        (place + ((entryAt memory (BitVec.ofNat 32 place)).size.toNat + 4)) := by
      rw [visit_mmap, kept.lineSize offScreen, here]
      bv_omega
    obtain ⟨last, returned, visits⟩ :=
      inductionHypothesis (by omega) (visit walk) kept.visit moved
    rw [← here]
    exact ⟨last, returns_loop_again _ _ walk last again returned,
      visits_cons kept offScreen rest last visits⟩

/-- The last lines of the table, for three numbers. -/
def lines (kernel free used : Word) : List Printed :=
  [.text "--------------------------------------------------------\n",
    .text "Kernel Size: ", .dec kernel, .text " KB\n",
    .text "Free Memory: ", .dec free, .text " KB\n",
    .text "Used/Reserved: ", .dec used, .text " KB\n",
    .text "========================================================\n"]

/-- Every entry has been visited once, and the numerals printed are those of the map's
sums and of the kernel's bytes, in kilobytes rounded down. -/
structure Exact (memory : Memory) (places : List Address) (kernelStart kernelEnd : Address)
    (final : Walk) : Prop where
  visited : final.visited.reverse = places
  printed : ∃ above kernel free used, final.printed = above ++ lines kernel free used ∧
    (Printed.dec kernel).characters =
      Nat.toDigits 10 ((kernelEnd.toNat - kernelStart.toNat) / 1024) ∧
    (Printed.dec free).characters = Nat.toDigits 10 (total memory usable places / 1024) ∧
    (Printed.dec used).characters = Nat.toDigits 10 (total memory reserved places / 1024)

/-- What the summary prints is exact if its three numbers are. -/
theorem exact_summary_iff (memory : Memory) (places : List Address)
    (kernelStart kernelEnd : Address) (last : Walk) :
    Exact memory places kernelStart kernelEnd (summary kernelStart kernelEnd last) ↔
      last.visited.reverse = places ∧
      ((pointerDifference kernelEnd kernelStart).sdiv 1024).toNat =
        (kernelEnd.toNat - kernelStart.toNat) / 1024 ∧
      ((last.total_free / 1024).setWidth 32).toNat = total memory usable places / 1024 ∧
      ((last.total_used / 1024).setWidth 32).toNat = total memory reserved places / 1024 := by
  simp only [← toDigits_inj, ← printDec_eq]
  constructor
  · rintro ⟨visited, above, kernel, free, used, printed, numerals⟩
    obtain ⟨_, same⟩ := List.append_inj' printed rfl
    simp only [lines, List.cons.injEq, Printed.dec.injEq, true_and, and_true] at same
    obtain ⟨rfl, rfl, rfl⟩ := same
    exact ⟨visited, numerals⟩
  · rintro ⟨visited, numerals⟩
    exact ⟨visited, last.printed, _, _, _, rfl, numerals⟩

/-- The sum of lengths, divided, fits the number that is printed. -/
theorem kilobytes (sum : Nat) (small : sum < 2 ^ 42) :
    (((0 + BitVec.ofNat 64 sum) / 1024 : BitVec 64).setWidth 32).toNat = sum / 1024 := by
  rw [BitVec.toNat_setWidth, BitVec.toNat_udiv, show (0 : BitVec 64) = 0#64 from rfl,
    BitVec.zero_add, BitVec.toNat_ofNat, Nat.mod_eq_of_lt (show sum < 2 ^ 64 by omega),
    show (1024 : BitVec 64).toNat = 1024 from rfl]
  exact Nat.mod_eq_of_lt (by omega)

/-- A quarter of the kernel's bytes has the right number of kilobytes only if that is
none. -/
theorem kernel_kilobytes (kernelStart kernelEnd : Address)
    (ordered : kernelStart.toNat ≤ kernelEnd.toNat) :
    ((pointerDifference kernelEnd kernelStart).sdiv 1024).toNat =
        (kernelEnd.toNat - kernelStart.toNat) / 1024 ↔
      kernelEnd.toNat - kernelStart.toNat < 1024 := by
  have bytes : (kernelEnd - kernelStart).toNat = kernelEnd.toNat - kernelStart.toNat := by
    bv_omega
  have signed := BitVec.toInt_eq_toNat_cond (kernelEnd - kernelStart)
  have bound := (kernelEnd - kernelStart).isLt
  have words : (pointerDifference kernelEnd kernelStart).toInt =
      (kernelEnd - kernelStart).toInt / 4 := by
    rw [pointerDifference, BitVec.toInt_sshiftRight, Int.shiftRight_eq_div_pow]
    rfl
  have printed : ((pointerDifference kernelEnd kernelStart).sdiv 1024).toInt =
      (pointerDifference kernelEnd kernelStart).toInt.tdiv 1024 :=
    BitVec.toInt_sdiv_of_ne_or_ne _ 1024 (Or.inr (by decide))
  have unsigned := BitVec.toInt_eq_toNat_cond
    ((pointerDifference kernelEnd kernelStart).sdiv 1024)
  have printedBound := ((pointerDifference kernelEnd kernelStart).sdiv 1024).isLt
  have rounded := @Int.tdiv_eq_ediv (pointerDifference kernelEnd kernelStart).toInt 1024
  have sign : Int.sign 1024 = 1 := rfl
  rw [sign] at rounded
  rw [words] at rounded printed
  rw [← bytes]
  -- An extent of 2 GiB or more is a negative number of words.
  by_cases large : 2 * (kernelEnd - kernelStart).toNat < 2 ^ 32
  · rw [if_pos large] at signed
    split at rounded <;> split at unsigned <;> omega
  · rw [if_neg large] at signed
    split at rounded <;> split at unsigned <;> omega

theorem used_kilobytes (counted missing : Nat) :
    counted / 1024 = (counted + missing) / 1024 ↔ counted % 1024 + missing < 1024 := by
  omega

/-- The three conditions under which the summary is that of the map. -/
structure Summarised (memory : Memory) (info : MultibootInfo) (places : List Address)
    (kernelStart kernelEnd : Address) : Prop where
  walked : info.stop < 2 ^ 32
  kernel : kernelEnd.toNat - kernelStart.toNat < 1024
  missing : total memory known places % 1024 + total memory unknown places < 1024

/-- After the walk over the map, `meminfo` returns with its summary. -/
theorem meminfo_exact_iff (mb_info : Address) (memory : Memory) (places : List Address)
    (kernelStart kernelEnd : Address) (start last : Walk)
    (returned : Returns (walkMap mb_info) (header mb_info kernelStart kernelEnd start) last) :
    (∃ final, Returns (meminfo mb_info kernelStart kernelEnd) start final ∧
        Exact memory places kernelStart kernelEnd final) ↔
      Exact memory places kernelStart kernelEnd (summary kernelStart kernelEnd last) := by
  have whole : Returns (meminfo mb_info kernelStart kernelEnd) start
      (summary kernelStart kernelEnd last) := by
    rw [meminfo, returns_seq]
    refine ⟨_, (returns_step _ _ _).mpr rfl, ?_⟩
    rw [returns_seq]
    exact ⟨last, returned, (returns_step _ _ _).mpr rfl⟩
  constructor
  · rintro ⟨final, ended, exactly⟩
    rw [returns_unique _ start final _ ended whole] at exactly
    exact exactly
  · intro exactly
    exact ⟨_, whole, exactly⟩

/-- Of a walk that has visited every entry, the numerals decide. -/
theorem visited_exact_iff (memory : Memory) (places : List Address)
    (kernelStart kernelEnd : Address) (ordered : kernelStart.toNat ≤ kernelEnd.toNat)
    (bounded : total memory (fun _ => true) places < 2 ^ 42) (last : Walk)
    (visited : last.visited.reverse = places)
    (free : last.total_free = 0 + BitVec.ofNat 64 (total memory usable places))
    (used : last.total_used = 0 + BitVec.ofNat 64 (total memory known places)) :
    Exact memory places kernelStart kernelEnd (summary kernelStart kernelEnd last) ↔
      kernelEnd.toNat - kernelStart.toNat < 1024 ∧
        total memory known places % 1024 + total memory unknown places < 1024 := by
  have usableSum := total_le memory usable places
  have knownSum := total_le memory known places
  rw [exact_summary_iff, free, used, kilobytes _ (by omega), kilobytes _ (by omega),
    kernel_kilobytes kernelStart kernelEnd ordered, total_reserved, used_kilobytes]
  constructor
  · rintro ⟨_, kernel, _, missing⟩
    exact ⟨kernel, missing⟩
  · rintro ⟨kernel, missing⟩
    exact ⟨visited, kernel, rfl, missing⟩

section exactly

variable (mb_info : Address) (start : Walk) (places : List Address)
  (kernelStart kernelEnd : Address) (clear : OffScreen (mb_info + 44) 8)
  (away : OffScreen (infoAt start.memory mb_info).mmap_addr
    (infoAt start.memory mb_info).mmap_length.toNat)
  (laid : EndToEnd start.memory (infoAt start.memory mb_info).stop
    (infoAt start.memory mb_info).mmap_addr.toNat places)
include clear away laid

/-- On a map that is walked, the sums and the kernel decide. -/
theorem walked_exact_iff (below : (infoAt start.memory mb_info).stop < 2 ^ 32)
    (bounded : total start.memory (fun _ => true) places < 2 ^ 42)
    (ordered : kernelStart.toNat ≤ kernelEnd.toNat) :
    (∃ final, Returns (meminfo mb_info kernelStart kernelEnd) start final ∧
        Exact start.memory places kernelStart kernelEnd final) ↔
      kernelEnd.toNat - kernelStart.toNat < 1024 ∧
        total start.memory known places % 1024 + total start.memory unknown places < 1024 := by
  have first : (header mb_info kernelStart kernelEnd start).mmap =
      BitVec.ofNat 32 (infoAt start.memory mb_info).mmap_addr.toNat := by
    rw [header_mmap mb_info kernelStart kernelEnd start clear, BitVec.ofNat_toNat,
      BitVec.setWidth_eq]
  obtain ⟨last, returned, free, used, visited⟩ := walkMap_visits mb_info start.memory _ places
    clear away below laid (Nat.le_refl _) (header mb_info kernelStart kernelEnd start)
    (header_kept mb_info kernelStart kernelEnd start) first
  have entries : last.visited.reverse = places := by
    rw [visited]
    exact (congrArg List.reverse (List.append_nil _)).trans (List.reverse_reverse places)
  rw [meminfo_exact_iff mb_info start.memory places kernelStart kernelEnd start last returned]
  exact visited_exact_iff start.memory places kernelStart kernelEnd ordered bounded last entries
    free used

omit away in
/-- A map that ends at the top of the address space is not visited. -/
theorem top_not_exact (top : (infoAt start.memory mb_info).stop = 2 ^ 32) :
    ¬ ∃ final, Returns (meminfo mb_info kernelStart kernelEnd) start final ∧
      Exact start.memory places kernelStart kernelEnd final := by
  have done := inMap_top mb_info (header_kept mb_info kernelStart kernelEnd start) clear top
  rw [meminfo_exact_iff mb_info start.memory places kernelStart kernelEnd start _
    (returns_loop_done _ _ _ done)]
  rintro ⟨visited, -⟩
  change [] = places at visited
  rw [← visited] at laid
  have ended := endToEnd_nil start.memory _ _ laid
  have bound := (infoAt start.memory mb_info).mmap_addr.isLt
  omega

/-- On a map of whole entries, end to end and not on the text screen, `meminfo` visits each
entry once and prints the sums of the map and the size of the kernel exactly if the map
does not end at the top of the address space, the kernel is smaller than a kilobyte, and
the lengths of unknown types would not change the number of reserved kilobytes. -/
theorem summary_exact_iff (fits : (infoAt start.memory mb_info).stop ≤ 2 ^ 32)
    (bounded : total start.memory (fun _ => true) places < 2 ^ 42)
    (ordered : kernelStart.toNat ≤ kernelEnd.toNat) :
    (∃ final, Returns (meminfo mb_info kernelStart kernelEnd) start final ∧
        Exact start.memory places kernelStart kernelEnd final) ↔
      Summarised start.memory (infoAt start.memory mb_info) places kernelStart kernelEnd := by
  by_cases top : (infoAt start.memory mb_info).stop = 2 ^ 32
  · apply iff_of_false
    · exact top_not_exact mb_info start places kernelStart kernelEnd clear laid top
    · intro summarised
      exact absurd top (Nat.ne_of_lt summarised.walked)
  · have below := Nat.lt_of_le_of_ne fits top
    rw [walked_exact_iff mb_info start places kernelStart kernelEnd clear away laid below bounded
      ordered]
    constructor
    · rintro ⟨kernel, missing⟩
      exact ⟨below, kernel, missing⟩
    · rintro ⟨_, kernel, missing⟩
      exact ⟨kernel, missing⟩

end exactly

/-- An entry of a given type and length. -/
def typedEntry (type length : Word) : Memory :=
  store32 (store32 (withEntry 20) 0x100C length) 0x1014 type

/-- The fields that `typedEntry` stores are apart from the others. -/
theorem typedEntry_apart (type length : Word) (tested : Address)
    (behindLength : 4 ≤ (tested - 0x100C).toNat) (beforeLength : 4 ≤ (0x100C - tested).toNat)
    (behindType : 4 ≤ (tested - 0x1014).toNat) (beforeType : 4 ≤ (0x1014 - tested).toNat) :
    load32 (typedEntry type length) tested = load32 (withEntry 20) tested := by
  rw [typedEntry, load32_store32_apart _ _ _ _ behindType beforeType,
    load32_store32_apart _ _ _ _ behindLength beforeLength]

theorem typedEntry_info (type length : Word) :
    infoAt (typedEntry type length) 0x2000 = ⟨24, 0x1000⟩ := by
  rw [← withEntry_info 20, infoAt, infoAt,
    typedEntry_apart _ _ _ (by decide) (by decide) (by decide) (by decide),
    typedEntry_apart _ _ _ (by decide) (by decide) (by decide) (by decide)]

theorem typedEntry_endToEnd (type length : Word) :
    EndToEnd (typedEntry type length) 0x1018 0x1000 [0x1000] := by
  have size : (entryAt (typedEntry type length) (BitVec.ofNat 32 0x1000)).size = 20 := by
    rw [entryAt, typedEntry_apart _ _ _ (by decide) (by decide) (by decide) (by decide)]
    exact withEntry_size 20
  apply EndToEnd.cons 0x1000 []
  · rw [size]
    decide
  · rw [size]
    decide
  · rw [size]
    exact EndToEnd.nil

theorem typedEntry_away : OffScreen 0x1000 (24 : Word).toNat :=
  offScreen_of_apart _ _ (by decide) (by decide)

/-- One megabyte of usable memory, and a kernel of 512 bytes. -/
theorem summary_exact_iff_small :
    ∃ final, Returns (meminfo 0x2000 0x100000 0x100200) (atBoot (typedEntry 1 0x100000)) final ∧
      Exact (typedEntry 1 0x100000) [0x1000] 0x100000 0x100200 final := by
  have info : infoAt (atBoot (typedEntry 1 0x100000)).memory 0x2000 = ⟨24, 0x1000⟩ :=
    typedEntry_info 1 0x100000
  apply (summary_exact_iff 0x2000 (atBoot (typedEntry 1 0x100000)) [0x1000] 0x100000 0x100200
    info_clear (by rw [info]; exact typedEntry_away)
    (by rw [info]; exact typedEntry_endToEnd 1 0x100000) (by rw [info]; decide) (by decide)
    (by decide)).mpr
  rw [info]
  constructor
  · decide
  · decide
  · decide

/-- One megabyte of an unknown type, and a kernel of 512 kilobytes. -/
theorem summary_wrong :
    EndToEnd (typedEntry 5 0x100000) 0x1018 0x1000 [0x1000] ∧
      ¬ ∃ final, Returns (meminfo 0x2000 0x100000 0x180000) (atBoot (typedEntry 5 0x100000))
          final ∧
        Exact (typedEntry 5 0x100000) [0x1000] 0x100000 0x180000 final := by
  refine ⟨typedEntry_endToEnd 5 0x100000, ?_⟩
  have info : infoAt (atBoot (typedEntry 5 0x100000)).memory 0x2000 = ⟨24, 0x1000⟩ :=
    typedEntry_info 5 0x100000
  intro exactly
  obtain ⟨kernel, -⟩ := (walked_exact_iff 0x2000 (atBoot (typedEntry 5 0x100000)) [0x1000]
    0x100000 0x180000 info_clear (by rw [info]; exact typedEntry_away)
    (by rw [info]; exact typedEntry_endToEnd 5 0x100000) (by rw [info]; decide) (by decide)
    (by decide)).mp exactly
  exact absurd kernel (by decide)

end BlueOs.MemorySummary
