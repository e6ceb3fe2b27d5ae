import BlueOs.Library.Programs
import BlueOs.ScreenMemory

/-!
# The memory map of the boot loader

The boot loader leaves a list of packed entries in memory. `meminfo` walks it with a
cursor: an entry's own size field says where the next one begins, in wrapping
arithmetic, and only the start of an entry is compared with the end of the map.
Between the reads it prints, into a text screen that is memory too: a map that lies
there is overwritten while it is walked.

The walk is safe exactly if the entries it comes to are sound. For a map that is not on
the text screen these are the entries as the boot loader left them.
-/

namespace BlueOs.MemoryMap

open ByteMemory Programs ScreenMemory
open NumberPrinting (Printed)
open TextConsole (Position)

/-- `multiboot_mmap_entry` -/
structure Entry where
  size : Word
  base_addr : BitVec 64
  length : BitVec 64
  type : Word

/-- The packed entry at an address. -/
def entryAt (memory : Memory) (address : Address) : Entry where
  size := load32 memory address
  base_addr := load64 memory (address + 4)
  length := load64 memory (address + 12)
  type := load32 memory (address + 20)

/-- The two fields of `multiboot_info` that are used. -/
structure MultibootInfo where
  mmap_length : Word
  mmap_addr : Address
deriving DecidableEq

def infoAt (memory : Memory) (address : Address) : MultibootInfo where
  mmap_length := load32 memory (address + 44)
  mmap_addr := load32 memory (address + 48)

/-- The end of the map, as a number. -/
def MultibootInfo.stop (info : MultibootInfo) : Nat :=
  info.mmap_addr.toNat + info.mmap_length.toNat

/-- Memory with the position of `print`, the local variables, what has been printed,
and the entries that have been read, the newest first. -/
structure Walk where
  memory : Memory
  position : Position
  mmap : Address
  total_free : BitVec 64
  total_used : BitVec 64
  printed : List Printed
  visited : List Address

namespace Walk

variable (walk : Walk)

/-- `*mmap` -/
def entry : Entry := entryAt walk.memory walk.mmap

def print (calls : List Printed) : Walk :=
  { walk with
    memory := (printOn walk.memory walk.position calls).1
    position := (printOn walk.memory walk.position calls).2
    printed := walk.printed ++ calls }

/-- `total_free += mmap->length` -/
def addFree : Walk := { walk with total_free := walk.total_free + walk.entry.length }

/-- `total_used += mmap->length` -/
def addUsed : Walk := { walk with total_used := walk.total_used + walk.entry.length }

@[simp] theorem print_total_free (calls : List Printed) :
    (walk.print calls).total_free = walk.total_free := rfl

@[simp] theorem print_total_used (calls : List Printed) :
    (walk.print calls).total_used = walk.total_used := rfl

@[simp] theorem addFree_total_free :
    walk.addFree.total_free = walk.total_free + walk.entry.length := rfl

@[simp] theorem addFree_total_used : walk.addFree.total_used = walk.total_used := rfl

@[simp] theorem addUsed_total_free : walk.addUsed.total_free = walk.total_free := rfl

@[simp] theorem addUsed_total_used :
    walk.addUsed.total_used = walk.total_used + walk.entry.length := rfl

/-- The switch on the type of the entry. -/
def decode : Walk :=
  if walk.entry.type = 1 then (walk.print [.text "Free\n"]).addFree
  else if walk.entry.type = 2 then (walk.print [.text "Reserved\n"]).addUsed
  else if walk.entry.type = 3 then (walk.print [.text "ACPI reclaim\n"]).addUsed
  else if walk.entry.type = 4 then (walk.print [.text "ACPI NVS\n"]).addUsed
  else walk.print [.text "Other\n"]

/-- The line of an entry. -/
def line : Walk :=
  let start := walk.entry.base_addr.setWidth 32
  let last := start + walk.entry.length.setWidth 32
  (walk.print
    [.text "Memory Region        | ", .hex32 start, .text " | ", .hex32 last, .text " | "]).decode

end Walk

section meminfo

variable (mb_info : Address)

def inMap (walk : Walk) : Bool :=
  let info := infoAt walk.memory mb_info
  walk.mmap < info.mmap_addr + info.mmap_length

/-- The body of the loop. The size is read when the line has been printed. -/
def visit (walk : Walk) : Walk :=
  let lined := walk.line
  { lined with
    mmap := lined.mmap + lined.entry.size + 4
    visited := lined.mmap :: lined.visited }

/-- The walk over the map. -/
def walkMap : Program Walk := loop (inMap mb_info) visit

/-- The table above the map. -/
def table (kernelStart kernelEnd : Address) : List Printed :=
  [.text "\n================= MEMORY INFO =================\n",
    .text "Region Name         | Start Addr | End Addr   | Status\n",
    .text "--------------------------------------------------------\n",
    .text "BIOS Area           | 0x00000000 | 0x0009FFFF | Used (BIOS)\n",
    .text "Video/ROM           | 0x000A0000 | 0x000FFFFF | Used (ROM/VGA)\n",
    .text "Kernel              | ", .hex32 kernelStart, .text " | ", .hex32 kernelEnd,
    .text " | Used (kernel)\n"]

/-- The variables before the loop. -/
def locals (walk : Walk) : Walk :=
  { walk with
    total_free := 0
    total_used := 0
    mmap := (infoAt walk.memory mb_info).mmap_addr }

/-- `meminfo` up to the loop. -/
def header (kernelStart kernelEnd : Address) (start : Walk) : Walk :=
  locals mb_info
    ({ start with printed := [], visited := [] }.print (table kernelStart kernelEnd))

/-- The difference of two pointers to words counts words. -/
def pointerDifference (one other : Address) : Word := (one - other).sshiftRight 2

/-- The lines below the map. -/
def summary (kernelStart kernelEnd : Address) (walk : Walk) : Walk :=
  walk.print
    [.text "--------------------------------------------------------\n",
      .text "Kernel Size: ", .dec ((pointerDifference kernelEnd kernelStart).sdiv 1024),
      .text " KB\n",
      .text "Free Memory: ", .dec ((walk.total_free / 1024).setWidth 32), .text " KB\n",
      .text "Used/Reserved: ", .dec ((walk.total_used / 1024).setWidth 32), .text " KB\n",
      .text "========================================================\n"]

/-- `meminfo`, from any state of memory and of the printing before it. -/
def meminfo (kernelStart kernelEnd : Address) : Program Walk :=
  seq (step (header mb_info kernelStart kernelEnd))
    (seq (walkMap mb_info) (step (summary kernelStart kernelEnd)))

/-- An entry that lies in the map and leads on, without passing the top of the address
space. -/
structure Sound (info : MultibootInfo) (place : Address) (size : Word) : Prop where
  whole : place.toNat + 24 ≤ info.stop
  moves : size ≠ 0xFFFFFFFC
  room : place.toNat + (size + 4).toNat < 2 ^ 32

/-- Where entries begin in the map: at its start, and behind the size of an entry in it. -/
inductive Begins (memory : Memory) (info : MultibootInfo) : Address → Prop where
  | first : Begins memory info info.mmap_addr
  | next (place : Address) (begins : Begins memory info place) (inside : place.toNat < info.stop) :
      Begins memory info (place + (entryAt memory place).size + 4)

/-- What is asked of a turn of the walk: the entry read is wholly inside the map, and
the cursor goes forward. -/
structure SafeTurn (info : MultibootInfo) (walk : Walk) : Prop where
  lower : info.mmap_addr.toNat ≤ walk.mmap.toNat
  upper : walk.mmap.toNat + 24 ≤ info.stop
  forward : walk.mmap < (visit walk).mmap

/-- The walk ends, and all its turns are safe. -/
structure Safe (info : MultibootInfo) (start : Walk) : Prop where
  halts : Halts (walkMap mb_info) start
  turns : EachTurn (inMap mb_info) visit (SafeTurn info) start

end meminfo

/-- What printing and the sums keep, the line of an entry keeps. -/
theorem line_preserves (property : Walk → Prop)
    (printed : ∀ walk calls, property walk → property (walk.print calls))
    (freed : ∀ walk, property walk → property walk.addFree)
    (used : ∀ walk, property walk → property walk.addUsed) (walk : Walk) (held : property walk) :
    property walk.line := by
  rw [Walk.line, Walk.decode]
  split
  · exact freed _ (printed _ _ (printed _ _ held))
  · split
    · exact used _ (printed _ _ (printed _ _ held))
    · split
      · exact used _ (printed _ _ (printed _ _ held))
      · split
        · exact used _ (printed _ _ (printed _ _ held))
        · exact printed _ _ (printed _ _ held)

/-- The line moves neither the cursor nor the record of the entries. -/
theorem line_keeps (walk : Walk) :
    walk.line.mmap = walk.mmap ∧ walk.line.visited = walk.visited :=
  line_preserves (fun lined => lined.mmap = walk.mmap ∧ lined.visited = walk.visited)
    (fun _ _ held => held) (fun _ held => held) (fun _ held => held) walk ⟨rfl, rfl⟩

theorem visit_mmap (walk : Walk) :
    (visit walk).mmap = walk.mmap + (walk.line.entry.size + 4) := by
  simp only [visit, line_keeps, BitVec.add_assoc]

theorem visit_visited (walk : Walk) : (visit walk).visited = walk.mmap :: walk.visited := by
  simp only [visit, line_keeps]

/-- The cursor goes forward exactly if it moves and does not wrap. -/
theorem forward_iff (address stride : Word) :
    address < address + stride ↔ stride ≠ 0 ∧ address.toNat + stride.toNat < 2 ^ 32 := by
  have bound := address.isLt
  have size := stride.isLt
  constructor
  · intro forward
    constructor <;> bv_omega
  · rintro ⟨moves, room⟩
    bv_omega

/-- Only one size leads back to the entry itself. -/
theorem moves_iff (size : Word) : size + 4 ≠ 0 ↔ size ≠ 0xFFFFFFFC := by
  constructor <;> bv_omega

/-- What a turn with a sound entry does to the cursor, and only such a turn. -/
theorem visit_forward_iff (walk : Walk) :
    walk.mmap < (visit walk).mmap ↔ walk.line.entry.size ≠ 0xFFFFFFFC ∧
      walk.mmap.toNat + (walk.line.entry.size + 4).toNat < 2 ^ 32 := by
  rw [visit_mmap, forward_iff, moves_iff]

section shown

variable (mb_info kernelStart kernelEnd : Address) (start : Walk)

/-- Memory is as it was at the start but for what has been printed, as one sequence of
calls. -/
def Shown (walk : Walk) : Prop :=
  printOn start.memory start.position walk.printed = (walk.memory, walk.position)

variable {start}

theorem Shown.print {walk : Walk} (shown : Shown start walk) (calls : List Printed) :
    Shown start (walk.print calls) := by
  rw [Shown] at shown
  simp only [Shown, Walk.print, printOn_append, shown]

theorem Shown.line {walk : Walk} (shown : Shown start walk) : Shown start walk.line :=
  line_preserves (Shown start) (fun _ calls held => held.print calls) (fun _ held => held)
    (fun _ held => held) walk shown

theorem Shown.visit {walk : Walk} (shown : Shown start walk) : Shown start (visit walk) :=
  shown.line

theorem Shown.locals {walk : Walk} (shown : Shown start walk) :
    Shown start (locals mb_info walk) := shown

theorem header_shown : Shown start (header mb_info kernelStart kernelEnd start) := by
  have unprinted : Shown start { start with printed := [], visited := [] } :=
    printOn_nil start.memory start.position
  exact (unprinted.print (table kernelStart kernelEnd)).locals mb_info

/-- When `meminfo` returns, what it has printed is on the text screen, and no other byte
of memory has changed. -/
theorem meminfo_shown (final : Walk)
    (returned : Returns (meminfo mb_info kernelStart kernelEnd) start final) :
    Shown start final := by
  have ensured : Ensures (· = start) (meminfo mb_info kernelStart kernelEnd) (Shown start)
      fun _ => True := by
    apply ensures_seq _ (Shown start)
    · apply ensures_step
      rintro walk rfl
      exact header_shown mb_info kernelStart kernelEnd
    apply ensures_seq _ (Shown start)
    · apply ensures_loop _ _ _ _ _ (Shown start)
      · intro walk shown _
        exact shown.visit
      · exact fun _ shown => shown
      · exact fun _ shown _ => shown
      · exact fun _ _ => trivial
    · exact ensures_step _ _ _ _ fun _ shown => shown.print _
  exact ensures_returns ensured start final rfl returned

end shown

section safety

variable (mb_info : Address) (info : MultibootInfo)

/-- The walk is safe exactly if every entry is sound when its line has been printed. -/
theorem safe_iff_turns (start : Walk) (first : info.mmap_addr.toNat ≤ start.mmap.toNat) :
    Safe mb_info info start ↔
      EachTurn (inMap mb_info) visit (fun walk => Sound info walk.mmap walk.line.entry.size)
        start := by
  constructor
  · rintro ⟨-, turns⟩ count busy
    have safe := turns count busy
    obtain ⟨moves, room⟩ := (visit_forward_iff _).mp safe.forward
    exact ⟨safe.upper, moves, room⟩
  · intro each
    have advanced (walk : Walk) (sound : Sound info walk.mmap walk.line.entry.size) :
        walk.mmap < (visit walk).mmap :=
      (visit_forward_iff walk).mpr ⟨sound.moves, sound.room⟩
    constructor
    · apply halts_loop_of_turns (inMap mb_info) visit (fun walk => 2 ^ 32 - walk.mmap.toNat) _ _
        start each
      intro walk again sound
      have forward := advanced walk sound
      have bound := (visit walk).mmap.isLt
      bv_omega
    · have each := eachTurn_and_invariant (inMap mb_info) visit _
        (fun walk => info.mmap_addr.toNat ≤ walk.mmap.toNat)
        (fun walk _ sound above => above.trans (Nat.le_of_lt (advanced walk sound)))
        start first each
      intro count busy
      obtain ⟨sound, above⟩ := each count busy
      exact ⟨above, sound.whole, advanced _ sound⟩

/-- What has been printed is on the text screen. -/
def Kept (memory : Memory) (walk : Walk) : Prop :=
  ∀ tested, Off tested → walk.memory tested = memory tested

variable {memory : Memory} {walk : Walk}

theorem Kept.print (kept : Kept memory walk) (calls : List Printed) :
    Kept memory (walk.print calls) := by
  intro tested off
  exact (printOn_off walk.memory walk.position calls tested off).trans (kept tested off)

theorem Kept.line (kept : Kept memory walk) : Kept memory walk.line :=
  line_preserves (Kept memory) (fun _ calls held => held.print calls) (fun _ held => held)
    (fun _ held => held) walk kept

theorem Kept.visit (kept : Kept memory walk) : Kept memory (visit walk) := kept.line

theorem Kept.load32 (kept : Kept memory walk) (address : Address) (clear : OffScreen address 4) :
    load32 walk.memory address = ByteMemory.load32 memory address :=
  load32_congr _ _ address fun tested within => kept tested (clear tested within)

/-- An entry that is not on the text screen is as it was. -/
theorem Kept.entryAt (kept : Kept memory walk) (place : Address) (clear : OffScreen place 24) :
    entryAt walk.memory place = MemoryMap.entryAt memory place := by
  have word (offset : Address) (inside : offset.toNat + 4 ≤ 24) :
      ByteMemory.load32 walk.memory (place + offset) =
        ByteMemory.load32 memory (place + offset) := by
    apply kept.load32
    apply clear.within
    bv_omega
  have size : ByteMemory.load32 walk.memory place = ByteMemory.load32 memory place :=
    kept.load32 place (clear.within (by bv_omega))
  have long (offset : Address) (inside : offset.toNat + 8 ≤ 24) :
      load64 walk.memory (place + offset) = load64 memory (place + offset) := by
    rw [load64, load64, BitVec.add_assoc, word offset (by omega), word (offset + 4) (by bv_omega)]
  rw [MemoryMap.entryAt, MemoryMap.entryAt, size, long 4 (by decide), long 12 (by decide),
    word 20 (by decide)]

/-- So is the boot information. -/
theorem Kept.infoAt (kept : Kept memory walk) (clear : OffScreen (mb_info + 44) 8) :
    infoAt walk.memory mb_info = MemoryMap.infoAt memory mb_info := by
  rw [MemoryMap.infoAt, MemoryMap.infoAt, kept.load32 (mb_info + 44) (clear.within (by bv_omega)),
    kept.load32 (mb_info + 48) (clear.within (by bv_omega))]

theorem Kept.lineSize (kept : Kept memory walk) (clear : OffScreen walk.mmap 24) :
    walk.line.entry.size = (MemoryMap.entryAt memory walk.mmap).size := by
  rw [Walk.entry, (line_keeps walk).1, kept.line.entryAt walk.mmap clear]

theorem Kept.locals (kept : Kept memory walk) : Kept memory (locals mb_info walk) := kept

theorem locals_mmap (kept : Kept memory walk) (clear : OffScreen (mb_info + 44) 8) :
    (locals mb_info walk).mmap = (MemoryMap.infoAt memory mb_info).mmap_addr :=
  congrArg MultibootInfo.mmap_addr (kept.infoAt mb_info clear)

theorem printed_kept (calls : List Printed) (start : Walk) :
    Kept start.memory ({ start with printed := [], visited := [] }.print calls) := by
  have unprinted : Kept start.memory { start with printed := [], visited := [] } := fun _ _ => rfl
  exact unprinted.print calls

theorem header_kept (kernelStart kernelEnd : Address) (start : Walk) :
    Kept start.memory (header mb_info kernelStart kernelEnd start) :=
  (printed_kept (table kernelStart kernelEnd) start).locals mb_info

theorem header_mmap (kernelStart kernelEnd : Address) (start : Walk)
    (clear : OffScreen (mb_info + 44) 8) :
    (header mb_info kernelStart kernelEnd start).mmap =
      (MemoryMap.infoAt start.memory mb_info).mmap_addr :=
  locals_mmap mb_info (printed_kept (table kernelStart kernelEnd) start) clear

/-- Up to the top of the address space the comparison is that of numbers. -/
theorem inMap_iff (kept : Kept memory walk) (clear : OffScreen (mb_info + 44) 8)
    (below : (MemoryMap.infoAt memory mb_info).stop < 2 ^ 32) :
    inMap mb_info walk = true ↔ walk.mmap.toNat < (MemoryMap.infoAt memory mb_info).stop := by
  rw [MultibootInfo.stop] at below ⊢
  rw [inMap, kept.infoAt mb_info clear, decide_eq_true_iff]
  bv_omega

/-- A map that ends at the top of the address space is not walked at all. -/
theorem inMap_top (kept : Kept memory walk) (clear : OffScreen (mb_info + 44) 8)
    (top : (MemoryMap.infoAt memory mb_info).stop = 2 ^ 32) : inMap mb_info walk = false := by
  rw [MultibootInfo.stop] at top
  rw [inMap, kept.infoAt mb_info clear, decide_eq_false_iff_not]
  bv_omega

/-- An entry in a map off the text screen is off the text screen. -/
theorem entry_clear {place : Address}
    (clear : OffScreen info.mmap_addr info.mmap_length.toNat)
    (lower : info.mmap_addr.toNat ≤ place.toNat) (upper : place.toNat + 24 ≤ info.stop) :
    OffScreen place 24 := by
  rw [MultibootInfo.stop] at upper
  apply clear.within
  bv_omega

end safety

section followed

variable (mb_info : Address) (memory : Memory)

/-- The cursor is where an entry begins, and only the text screen has changed. -/
structure Follows (walk : Walk) : Prop where
  kept : Kept memory walk
  begins : Begins memory (infoAt memory mb_info) walk.mmap

variable {mb_info memory}

/-- A turn at an entry off the text screen leads to where the next one begins. -/
theorem Follows.visit {walk : Walk} (follows : Follows mb_info memory walk)
    (clear : OffScreen walk.mmap 24) (inside : walk.mmap.toNat < (infoAt memory mb_info).stop) :
    Follows mb_info memory (visit walk) := by
  refine ⟨follows.kept.visit, ?_⟩
  rw [visit_mmap, follows.kept.lineSize clear, ← BitVec.add_assoc]
  exact Begins.next walk.mmap follows.begins inside

variable (clear : OffScreen (mb_info + 44) 8)
  (away : OffScreen (infoAt memory mb_info).mmap_addr (infoAt memory mb_info).mmap_length.toNat)
  (below : (infoAt memory mb_info).stop < 2 ^ 32)
include clear away below

/-- A walk over sound entries comes to sound entries only. -/
theorem turns_of_sound
    (sound : ∀ place, Begins memory (infoAt memory mb_info) place →
      place.toNat < (infoAt memory mb_info).stop →
      Sound (infoAt memory mb_info) place (entryAt memory place).size)
    (start : Walk) (initial : Follows mb_info memory start) :
    EachTurn (inMap mb_info) visit
      (fun walk => Sound (infoAt memory mb_info) walk.mmap walk.line.entry.size) start := by
  have above (place : Address) (begins : Begins memory (infoAt memory mb_info) place) :
      (infoAt memory mb_info).mmap_addr.toNat ≤ place.toNat := by
    induction begins with
    | first => exact Nat.le_refl _
    | next place begins inside inductionHypothesis =>
      have room := (sound place begins inside).room
      rw [BitVec.add_assoc, BitVec.toNat_add, Nat.mod_eq_of_lt room]
      omega
  have entered (walk : Walk) (again : inMap mb_info walk = true)
      (follows : Follows mb_info memory walk) :
      walk.mmap.toNat < (infoAt memory mb_info).stop ∧ OffScreen walk.mmap 24 ∧
        Sound (infoAt memory mb_info) walk.mmap (entryAt memory walk.mmap).size := by
    have inside := (inMap_iff mb_info follows.kept clear below).mp again
    have here := sound walk.mmap follows.begins inside
    exact ⟨inside, entry_clear _ away (above _ follows.begins) here.whole, here⟩
  refine eachTurn_of_invariant _ _ _ (Follows mb_info memory) ?_ ?_ start initial
  · intro walk again follows
    obtain ⟨-, offScreen, here⟩ := entered walk again follows
    rw [follows.kept.lineSize offScreen]
    exact here
  · intro walk again follows
    obtain ⟨inside, offScreen, -⟩ := entered walk again follows
    exact follows.visit offScreen inside

/-- A safe walk comes to every place in the map where an entry begins. -/
theorem begins_reached (start : Walk) (initial : Follows mb_info memory start)
    (first : start.mmap = (infoAt memory mb_info).mmap_addr)
    (turns : EachTurn (inMap mb_info) visit (SafeTurn (infoAt memory mb_info)) start)
    (place : Address) (begins : Begins memory (infoAt memory mb_info) place)
    (inside : place.toNat < (infoAt memory mb_info).stop) :
    ∃ count, (∀ earlier ≤ count, inMap mb_info (visit^[earlier] start) = true) ∧
      (visit^[count] start).mmap = place ∧ Follows mb_info memory (visit^[count] start) := by
  induction begins with
  | first =>
    refine ⟨0, ?_, first, initial⟩
    intro earlier none
    rw [Nat.le_zero.mp none]
    apply (inMap_iff mb_info initial.kept clear below).mpr
    rw [first]
    exact inside
  | next place begins before inductionHypothesis =>
    obtain ⟨count, busy, here, follows⟩ := inductionHypothesis before
    have safe := turns count busy
    have offScreen := entry_clear _ away safe.lower safe.upper
    have following := follows.visit offScreen (here ▸ before)
    have moved : (visit (visit^[count] start)).mmap = place + (entryAt memory place).size + 4 := by
      rw [visit_mmap, follows.kept.lineSize offScreen, here, BitVec.add_assoc]
    refine ⟨count + 1, ?_, ?_, ?_⟩
    · intro earlier within
      rcases Nat.le_succ_iff.mp within with earlierToo | rfl
      · exact busy earlier earlierToo
      · rw [Function.iterate_succ_apply']
        apply (inMap_iff mb_info following.kept clear below).mpr
        rw [moved]
        exact inside
    · rw [Function.iterate_succ_apply', moved]
    · rw [Function.iterate_succ_apply']
      exact following

end followed

/-- For every map and every content of memory: the walk ends, goes forward in every turn
and reads inside the map, exactly if every entry it comes to is sound as it is when its
line has been printed. If the map is not on the text screen, these are the entries that
the boot loader left: the walk is safe exactly if all of them are sound, or the map ends at
the top of the address space, where it is not walked. -/
theorem safe_iff_sound (mb_info kernelStart kernelEnd : Address) (start : Walk)
    (clear : OffScreen (mb_info + 44) 8) (fits : (infoAt start.memory mb_info).stop ≤ 2 ^ 32) :
    let info := infoAt start.memory mb_info
    let entered := header mb_info kernelStart kernelEnd start
    (Safe mb_info info entered ↔
      EachTurn (inMap mb_info) visit (fun walk => Sound info walk.mmap walk.line.entry.size)
        entered) ∧
    (OffScreen info.mmap_addr info.mmap_length.toNat →
      (Safe mb_info info entered ↔ info.stop = 2 ^ 32 ∨
        ∀ place, Begins start.memory info place → place.toNat < info.stop →
          Sound info place (entryAt start.memory place).size)) := by
  intro info entered
  have kept : Kept start.memory entered := header_kept mb_info kernelStart kernelEnd start
  have first : entered.mmap = info.mmap_addr :=
    header_mmap mb_info kernelStart kernelEnd start clear
  have turns : Safe mb_info info entered ↔ _ :=
    safe_iff_turns mb_info info entered (Nat.le_of_eq (congrArg BitVec.toNat first.symm))
  refine ⟨turns, fun away => ?_⟩
  have initial : Follows mb_info start.memory entered := ⟨kept, first ▸ Begins.first⟩
  by_cases top : info.stop = 2 ^ 32
  · apply iff_of_true _ (Or.inl top)
    rw [turns]
    exact eachTurn_done _ _ _ _ (inMap_top mb_info kept clear top)
  · have below : info.stop < 2 ^ 32 := Nat.lt_of_le_of_ne fits top
    constructor
    · intro safe
      right
      intro place begins inside
      obtain ⟨count, busy, here, follows⟩ :=
        begins_reached clear away below entered initial first safe.turns place begins inside
      have turn := safe.turns count busy
      have sound : Sound info _ _ := turns.mp safe count busy
      rw [follows.kept.lineSize (entry_clear _ away turn.lower turn.upper), here] at sound
      exact sound
    · rintro (ends | sound)
      · exact absurd ends top
      · exact turns.mpr (turns_of_sound clear away below sound entered initial)

/-- Memory with the boot information at 0x2000 and a map of one entry of the given size at
0x1000. -/
def withEntry (size : Word) : Memory :=
  store32 (store32 (store32 (fun _ => 0) 0x1000 size) 0x202C 24) 0x2030 0x1000

def atBoot (memory : Memory) : Walk := ⟨memory, .corner, 0, 0, 0, [], []⟩

theorem withEntry_info (size : Word) : infoAt (withEntry size) 0x2000 = ⟨24, 0x1000⟩ := by
  rw [infoAt, withEntry]
  congr 1
  · rw [load32_store32_apart _ _ _ _ (by decide) (by decide)]
    exact load32_store32 _ _ _
  · exact load32_store32 _ _ _

theorem withEntry_size (size : Word) : (entryAt (withEntry size) 0x1000).size = size := by
  rw [entryAt, withEntry, load32_store32_apart _ _ _ _ (by decide) (by decide),
    load32_store32_apart _ _ _ _ (by decide) (by decide), load32_store32]

theorem info_clear : OffScreen (0x2000 + 44) 8 := offScreen_of_apart _ _ (by decide) (by decide)

/-- The one entry, and the end of the map. -/
theorem begins_withEntry (place : Address) (begins : Begins (withEntry 20) ⟨24, 0x1000⟩ place) :
    place = 0x1000 ∨ place = 0x1018 := by
  induction begins with
  | first => exact Or.inl rfl
  | next place begins inside inductionHypothesis =>
    rcases inductionHypothesis with rfl | rfl
    · rw [withEntry_size]
      exact Or.inr rfl
    · exact absurd inside (by decide)

/-- A map of one entry is walked safely. -/
theorem safe_iff_sound_one :
    Safe 0x2000 ⟨24, 0x1000⟩ (header 0x2000 0x100000 0x180000 (atBoot (withEntry 20))) := by
  have sound := (safe_iff_sound 0x2000 0x100000 0x180000 (atBoot (withEntry 20)) info_clear
    (by rw [atBoot, withEntry_info]; decide)).2
  rw [atBoot, withEntry_info] at sound
  refine (sound (offScreen_of_apart _ _ (by decide) (by decide))).mpr (Or.inr ?_)
  intro place begins inside
  rcases begins_withEntry place begins with rfl | rfl
  · rw [withEntry_size]
    constructor <;> decide
  · exact absurd inside (by decide)

/-- An entry whose size leads back to itself is never left. -/
theorem standing_walk :
    (infoAt (withEntry 0xFFFFFFFC) 0x2000).stop ≤ 2 ^ 32 ∧
      ¬ Halts (walkMap 0x2000) (header 0x2000 0x100000 0x180000 (atBoot (withEntry 0xFFFFFFFC))) ∧
      ¬ Safe 0x2000 (infoAt (withEntry 0xFFFFFFFC) 0x2000)
        (header 0x2000 0x100000 0x180000 (atBoot (withEntry 0xFFFFFFFC))) := by
  have runs : ¬ Halts (walkMap 0x2000)
      (header 0x2000 0x100000 0x180000 (atBoot (withEntry 0xFFFFFFFC))) := by
    apply not_halts_loop_of_invariant _ _ fun walk =>
      Kept (withEntry 0xFFFFFFFC) walk ∧ walk.mmap = 0x1000
    · rintro walk ⟨kept, here⟩
      refine ⟨kept.visit, ?_⟩
      have clear : OffScreen walk.mmap 24 := by
        rw [here]
        exact offScreen_of_apart _ _ (by decide) (by decide)
      rw [visit_mmap, kept.lineSize clear, here, withEntry_size]
      rfl
    · rintro walk ⟨kept, here⟩
      rw [inMap_iff 0x2000 kept info_clear (by rw [withEntry_info]; decide), here, withEntry_info]
      decide
    · refine ⟨header_kept _ _ _ _, (header_mmap _ _ _ _ info_clear).trans ?_⟩
      rw [atBoot, withEntry_info]
  refine ⟨by rw [withEntry_info]; decide, runs, ?_⟩
  intro safe
  exact runs safe.halts

/-- A map of three sound entries on the text screen, the first of them in the last column
of the title of the table. -/
def underTitle : Memory :=
  store32 (store32 (store32 (store32 (store32 (fun _ => 0) 0xB80FC 20) 0xB8114 20) 0xB812C 20)
    0x202C 72) 0x2030 0xB80FC

theorem begins_underTitle (place : Address) (begins : Begins underTitle ⟨72, 0xB80FC⟩ place) :
    place = 0xB80FC ∨ place = 0xB8114 ∨ place = 0xB812C ∨ place = 0xB8144 := by
  induction begins with
  | first => exact Or.inl rfl
  | next place begins inside inductionHypothesis =>
    rcases inductionHypothesis with rfl | rfl | rfl | rfl
    · exact Or.inr (Or.inl (by decide +kernel))
    · exact Or.inr (Or.inr (Or.inl (by decide +kernel)))
    · exact Or.inr (Or.inr (Or.inr (by decide +kernel)))
    · exact absurd inside (by decide)

/-- On the text screen sound entries are not enough: the title is printed over the first
size, and the walk goes on in the middle of the third entry. -/
theorem overwritten_walk :
    infoAt underTitle 0x2000 = ⟨72, 0xB80FC⟩ ∧
      (∀ place, Begins underTitle ⟨72, 0xB80FC⟩ place →
        place.toNat < MultibootInfo.stop ⟨72, 0xB80FC⟩ →
          Sound ⟨72, 0xB80FC⟩ place (entryAt underTitle place).size) ∧
      ¬ Safe 0x2000 ⟨72, 0xB80FC⟩ (header 0x2000 0x100000 0x180000 (atBoot underTitle)) := by
  refine ⟨by decide +kernel, ?_, ?_⟩
  · intro place begins inside
    have size : (entryAt underTitle 0xB80FC).size = 20 ∧ (entryAt underTitle 0xB8114).size = 20 ∧
        (entryAt underTitle 0xB812C).size = 20 := by decide +kernel
    obtain ⟨one, two, three⟩ := size
    rcases begins_underTitle place begins with rfl | rfl | rfl | rfl
    · rw [one]
      constructor <;> decide
    · rw [two]
      constructor <;> decide
    · rw [three]
      constructor <;> decide
    · exact absurd inside (by decide)
  · intro safe
    have busy : ∀ earlier ≤ 1, inMap 0x2000
        (visit^[earlier] (header 0x2000 0x100000 0x180000 (atBoot underTitle))) = true := by
      decide +kernel
    have upper := (safe.turns 1 busy).upper
    have place : (visit^[1] (header 0x2000 0x100000 0x180000 (atBoot underTitle))).mmap =
        0xB813D := by decide +kernel
    rw [place] at upper
    exact absurd upper (by decide)

end BlueOs.MemoryMap
