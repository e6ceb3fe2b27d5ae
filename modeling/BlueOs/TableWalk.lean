import BlueOs.ModeSetting

/-!
# The walk over the register table

`WriteRegisters` takes the table byte by byte through a pointer, and changes two bytes
of it in place. The changed places are counted from the pointer, which has passed six
bytes by then. Here the pointer, the memory it points to and the places touched are
part of the state; the walk does what `ModeSetting.writeRegisters` says of the devices,
whatever they are.

An adapter that protects the first CRTC registers ignores writes to them while the
lock bit is set. Since the walk clears the bit before it writes them, and the byte it
writes to the locking register has the bit clear, no write of the loops is ignored.
-/

namespace BlueOs.TableWalk

open Port ModeSetting IndexedRegisters

/-- The devices, the memory from the first byte of the table on, the place that the
pointer has reached, and all places read or written, the newest first. -/
structure Walk (δ : Type) where
  devices : δ
  memory : Nat → Byte
  registers : Nat
  touched : List Nat

namespace Walk

variable {δ : Type}

/-- `*(registers++)` -/
def next (walk : Walk δ) : Byte × Walk δ :=
  (walk.memory walk.registers,
    { walk with
      registers := walk.registers + 1
      touched := walk.registers :: walk.touched })

/-- `registers[index]` -/
def load (index : Nat) (walk : Walk δ) : Byte × Walk δ :=
  (walk.memory (walk.registers + index),
    { walk with touched := (walk.registers + index) :: walk.touched })

/-- `registers[index] = value` -/
def store (index : Nat) (value : Byte) (walk : Walk δ) : Walk δ :=
  { walk with
    memory := Function.update walk.memory (walk.registers + index) value
    touched := (walk.registers + index) :: walk.touched }

/-- Something done to the devices. -/
def perform (action : δ → δ) (walk : Walk δ) : Walk δ :=
  { walk with devices := action walk.devices }

/-- The table from the place that the pointer has reached. -/
def rest (walk : Walk δ) (place : Nat) : Byte := walk.memory (walk.registers + place)

/-- The pointer and the places touched have not gone past a limit. -/
structure Within (limit : Nat) (walk : Walk δ) : Prop where
  registers : walk.registers ≤ limit
  touched : ∀ place ∈ walk.touched, place < limit

end Walk

section driver

variable {δ : Type} (bus : Bus δ) (vga : Driver)

/-- The loop over the registers of one bank. -/
def writeBank (indexPort dataPort : Port8Bit) (count : Nat) (walk : Walk δ) : Walk δ :=
  (List.range count).foldl (fun walk i =>
    let walk := walk.perform (indexPort.write bus (BitVec.ofNat 8 i))
    let (value, walk) := walk.next
    walk.perform (dataPort.write bus value)) walk

/-- The loop over the attribute registers. -/
def writeAttributes (count : Nat) (walk : Walk δ) : Walk δ :=
  (List.range count).foldl (fun walk i =>
    let walk := walk.perform fun devices => (vga.attributeControllerResetPort.read bus devices).2
    let walk := walk.perform (vga.attributeControllerIndexPort.write bus (BitVec.ofNat 8 i))
    let (value, walk) := walk.next
    walk.perform (vga.attributeControllerWritePort.write bus value)) walk

/-- The changes to the table. -/
def modify (walk : Walk δ) : Walk δ :=
  let (value, walk) := walk.load 0x03
  let walk := walk.store 0x03 (value ||| 0x80)
  let (value, walk) := walk.load 0x11
  walk.store 0x11 (value &&& ~~~0x80)

/-- `VideoGraphicsArray::WriteRegisters` -/
def writeRegisters (walk : Walk δ) : Walk δ :=
  let (value, walk) := walk.next
  let walk := walk.perform (vga.miscPort.write bus value)
  let walk := writeBank bus vga.sequencerIndexPort vga.sequencerDataPort 5 walk
  let walk := walk.perform (unlock bus vga)
  let walk := modify walk
  let walk := writeBank bus vga.crtcIndexPort vga.crtcDataPort 25 walk
  let walk := writeBank bus vga.graphicsControllerIndexPort vga.graphicsControllerDataPort 9 walk
  let walk := writeAttributes bus vga 21 walk
  let walk := walk.perform fun devices => (vga.attributeControllerResetPort.read bus devices).2
  walk.perform (vga.attributeControllerIndexPort.write bus 0x20)

/-- Bytes have been taken one after the other, for what was done to the devices. -/
structure Takes (count : Nat) (before after : Walk δ) (devices : δ) : Prop where
  devices : after.devices = devices
  rest : after.rest = fun place => before.rest (count + place)
  registers : after.registers = before.registers + count
  within : ∀ limit, before.Within limit → before.registers + count ≤ limit → after.Within limit

/-- A turn that takes the next byte. -/
theorem takes_one (walk : Walk δ) (devices : δ) :
    Takes 1 walk { walk.next.2 with devices := devices } devices := by
  constructor
  · rfl
  · funext place
    exact congrArg walk.memory (Nat.add_assoc _ _ _)
  · rfl
  · intro limit within room
    refine ⟨room, ?_⟩
    rintro place (_ | ⟨_, earlier⟩)
    · exact room
    · exact within.touched place earlier

/-- A loop that takes one byte a turn. -/
theorem foldl_takes (turn : Walk δ → Nat → Walk δ) (action : Byte → Nat → δ → δ)
    (one : ∀ walk i, Takes 1 walk (turn walk i) (action (walk.rest 0) i walk.devices))
    (count : Nat) (walk : Walk δ) :
    Takes count walk ((List.range count).foldl turn walk)
      ((List.range count).foldl (fun devices i => action (walk.rest i) i devices)
        walk.devices) := by
  induction count with
  | zero =>
    constructor
    · rfl
    · funext place
      rw [Nat.zero_add]
      rfl
    · rfl
    · exact fun limit within _ => within
  | succ count inductionHypothesis =>
    obtain ⟨devices, rest, registers, within⟩ := inductionHypothesis
    rw [List.range_succ, List.foldl_concat, List.foldl_concat]
    obtain ⟨devices', rest', registers', within'⟩ :=
      one ((List.range count).foldl turn walk) count
    rw [rest, devices] at devices'
    rw [rest] at rest'
    constructor
    · exact devices'
    · simp only [rest', Nat.add_assoc]
    · omega
    · intro limit before room
      exact within' limit (within limit before (by omega)) (by omega)

theorem writeBank_takes (indexPort dataPort : Port8Bit) (count : Nat) (walk : Walk δ) :
    Takes count walk (writeBank bus indexPort dataPort count walk)
      (ModeSetting.writeBank bus indexPort dataPort count walk.rest walk.devices) := by
  apply foldl_takes _ fun value i devices =>
    dataPort.write bus value (indexPort.write bus (BitVec.ofNat 8 i) devices)
  exact fun walk i => takes_one walk _

theorem writeAttributes_takes (count : Nat) (walk : Walk δ) :
    Takes count walk (writeAttributes bus vga count walk)
      (ModeSetting.writeAttributes bus vga count walk.rest walk.devices) := by
  apply foldl_takes _ fun value i devices =>
    vga.attributeControllerWritePort.write bus value
      (vga.attributeControllerIndexPort.write bus (BitVec.ofNat 8 i)
        (vga.attributeControllerResetPort.read bus devices).2)
  exact fun walk i => takes_one walk _

/-- A change of the memory, seen from the pointer. -/
theorem store_rest (index : Nat) (value : Byte) (walk : Walk δ) :
    (walk.store index value).rest = Function.update walk.rest index value := by
  funext place
  change Function.update walk.memory (walk.registers + index) value (walk.registers + place) = _
  by_cases same : place = index
  · subst same
    rw [Function.update_self, Function.update_self]
  · rw [Function.update_of_ne same, Function.update_of_ne (by omega)]
    rfl

/-- The two changes, seen from the pointer. -/
theorem modify_rest (walk : Walk δ) :
    (modify walk).rest =
      let registers := Function.update walk.rest 0x03 (walk.rest 0x03 ||| 0x80)
      Function.update registers 0x11 (registers 0x11 &&& ~~~0x80) := by
  dsimp only
  rw [← store_rest, ← store_rest]
  rfl

theorem modify_within (walk : Walk δ) (limit : Nat) (within : walk.Within limit)
    (room : walk.registers + 0x12 ≤ limit) : (modify walk).Within limit := by
  refine ⟨within.registers, ?_⟩
  intro place member
  simp only [modify, Walk.load, Walk.store, List.mem_cons] at member
  rcases member with rfl | rfl | rfl | rfl | earlier
  · omega
  · omega
  · omega
  · omega
  · exact within.touched place earlier

/-- The walk does to the devices what the table asks for and stays in the table. -/
theorem writeRegisters_walks (table : Nat → Byte) (devices : δ) :
    (writeRegisters bus vga ⟨devices, table, 0, []⟩).devices =
        ModeSetting.writeRegisters bus vga table devices ∧
      ∀ place ∈ (writeRegisters bus vga ⟨devices, table, 0, []⟩).touched, place < 61 := by
  simp only [writeRegisters]
  have misc : Takes 1 (Walk.mk devices table 0 [])
      (Walk.perform (vga.miscPort.write bus (Walk.mk devices table 0 []).next.1)
        (Walk.mk devices table 0 []).next.2) (vga.miscPort.write bus (table 0) devices) :=
    takes_one _ _
  generalize Walk.perform (vga.miscPort.write bus (Walk.mk devices table 0 []).next.1)
    (Walk.mk devices table 0 []).next.2 = walk₁ at misc ⊢
  have sequencer := writeBank_takes bus vga.sequencerIndexPort vga.sequencerDataPort 5 walk₁
  generalize writeBank bus vga.sequencerIndexPort vga.sequencerDataPort 5 walk₁ = walk₂
    at sequencer ⊢
  have edited := modify_rest (walk₂.perform (unlock bus vga))
  have unlocked : (modify (walk₂.perform (unlock bus vga))).devices =
      unlock bus vga walk₂.devices := rfl
  have stays : (modify (walk₂.perform (unlock bus vga))).registers = walk₂.registers := rfl
  have edits := modify_within (walk₂.perform (unlock bus vga)) 61
  generalize modify (walk₂.perform (unlock bus vga)) = walk₃ at edited edits unlocked stays ⊢
  have crtc := writeBank_takes bus vga.crtcIndexPort vga.crtcDataPort 25 walk₃
  generalize writeBank bus vga.crtcIndexPort vga.crtcDataPort 25 walk₃ = walk₄ at crtc ⊢
  have graphics := writeBank_takes bus vga.graphicsControllerIndexPort
    vga.graphicsControllerDataPort 9 walk₄
  generalize writeBank bus vga.graphicsControllerIndexPort vga.graphicsControllerDataPort 9 walk₄ =
    walk₅ at graphics ⊢
  have attributes := writeAttributes_takes bus vga 21 walk₅
  generalize writeAttributes bus vga 21 walk₅ = walk₆ at attributes ⊢
  constructor
  · change vga.attributeControllerIndexPort.write bus 0x20
      (vga.attributeControllerResetPort.read bus walk₆.devices).2 = _
    have rest₁ : walk₁.rest = fun place => table (1 + place) := by
      rw [misc.rest]
      funext place
      exact congrArg table (Nat.zero_add _)
    have rest₂ : (walk₂.perform (unlock bus vga)).rest = fun place => table (1 + (5 + place)) := by
      change walk₂.rest = _
      rw [sequencer.rest, rest₁]
    rw [rest₂] at edited
    rw [attributes.devices, graphics.rest, graphics.devices, crtc.rest, crtc.devices, unlocked,
      edited, sequencer.devices, misc.devices, rest₁]
    rfl
  · -- The pointer has passed 1, 6, 31 and 40 bytes before the four loops, and 61 after them.
    have place₁ : walk₁.registers = 1 := misc.registers
    have place₂ := sequencer.registers
    have place₄ := crtc.registers
    have place₅ := graphics.registers
    have empty : (Walk.mk devices table 0 []).Within 61 :=
      ⟨Nat.zero_le 61, fun place none => by cases none⟩
    have within₁ := misc.within 61 empty (show 0 + 1 ≤ 61 by decide)
    have within₂ := sequencer.within 61 within₁ (by omega)
    have within₃ := edits ⟨within₂.registers, within₂.touched⟩ (by
      change walk₂.registers + 0x12 ≤ 61
      omega)
    have within₄ := crtc.within 61 within₃ (by omega)
    have within₅ := graphics.within 61 within₄ (by omega)
    exact (attributes.within 61 within₅ (by omega)).touched

end driver

/-- The first CRTC registers are locked. -/
def Locked (adapter : Adapter) : Prop := (adapter.crtc.value 0x11).getLsbD 7 = true

instance (adapter : Adapter) : Decidable (Locked adapter) := inferInstanceAs (Decidable (_ = _))

/-- An adapter whose CRTC ignores writes to registers 0 to 7 while they are locked. -/
def protectedBus : Bus Adapter :=
  { adapterBus with
    outb := fun port value adapter =>
      if port = 0x3D5 ∧ adapter.crtc.selected < 8 ∧ Locked adapter then adapter
      else adapterBus.outb port value adapter }

/-- The registers after the walk, for a table. -/
structure Holds (table : Nat → Byte) (adapter : Adapter) : Prop where
  misc : adapter.misc = table 0
  sequencer : ∀ i < 5, adapter.sequencer.value (BitVec.ofNat 8 i) = table (1 + i)
  crtc : ∀ i < 25, i ≠ 0x03 → i ≠ 0x11 →
    adapter.crtc.value (BitVec.ofNat 8 i) = table (6 + i)
  blanking : adapter.crtc.value 0x03 = table 9 ||| 0x80
  unlocked : adapter.crtc.value 0x11 = table 23 &&& ~~~0x80
  graphicsController : ∀ i < 9,
    adapter.graphicsController.value (BitVec.ofNat 8 i) = table (31 + i)
  attributeController : ∀ i < 21,
    adapter.attributeController.value (BitVec.ofNat 8 i) = table (40 + i)
  index : adapter.attributeController.selected = 0x20

/-- A bank's registers as the loops list them. -/
def listed (count : Nat) (registers : Nat → Byte) : List (Byte × Byte) :=
  (List.range count).map fun i => (BitVec.ofNat 8 i, registers i)

theorem listed_value (count : Nat) (small : count ≤ 256) (registers : Nat → Byte)
    (bank : Bank Byte Byte) (i : Nat) (inside : i < count) :
    (Bank.program (listed count registers) bank).value (BitVec.ofNat 8 i) = registers i := by
  apply Bank.program_value
  · rw [listed, List.map_map]
    apply List.Nodup.map_on _ List.nodup_range
    intro one first other second same
    rw [List.mem_range] at first second
    change BitVec.ofNat 8 one = BitVec.ofNat 8 other at same
    bv_omega
  · exact List.mem_map.mpr ⟨i, List.mem_range.mpr inside, rfl⟩

/-- A loop whose turns select and write a register of one bank programs the bank.
What is known of the bank may be used, if the turns keep it. -/
theorem foldl_bank (put : Bank Byte Byte → Adapter) (turn : Adapter → Nat → Adapter)
    (registers : Nat → Byte) (known : Bank Byte Byte → Prop) (indices : List Nat)
    (each : ∀ i ∈ indices, ∀ bank, known bank →
      turn (put bank) i = put ((bank.select (BitVec.ofNat 8 i)).write (registers i)) ∧
        known ((bank.select (BitVec.ofNat 8 i)).write (registers i)))
    (bank : Bank Byte Byte) (before : known bank) :
    indices.foldl turn (put bank) =
      put (Bank.program (indices.map fun i => (BitVec.ofNat 8 i, registers i)) bank) := by
  induction indices generalizing bank with
  | nil => rfl
  | cons i rest inductionHypothesis =>
    obtain ⟨written, after⟩ := each i List.mem_cons_self bank before
    rw [List.foldl_cons, written]
    exact inductionHypothesis (fun i member => each i (List.mem_cons_of_mem _ member)) _ after

theorem writeBank_sequencer (count : Nat) (registers : Nat → Byte) (adapter : Adapter) :
    ModeSetting.writeBank protectedBus construct.sequencerIndexPort construct.sequencerDataPort
        count registers adapter =
      { adapter with sequencer := Bank.program (listed count registers) adapter.sequencer } :=
  foldl_bank (fun bank => { adapter with sequencer := bank }) _ registers (fun _ => True) _
    (fun _ _ _ _ => ⟨rfl, trivial⟩) adapter.sequencer trivial

theorem writeBank_graphicsController (count : Nat) (registers : Nat → Byte) (adapter : Adapter) :
    ModeSetting.writeBank protectedBus construct.graphicsControllerIndexPort
        construct.graphicsControllerDataPort count registers adapter =
      { adapter with
        graphicsController :=
          Bank.program (listed count registers) adapter.graphicsController } :=
  foldl_bank (fun bank => { adapter with graphicsController := bank }) _ registers
    (fun _ => True) _ (fun _ _ _ _ => ⟨rfl, trivial⟩) adapter.graphicsController trivial

/-- With the lock open, and bytes that keep it open, no write to the CRTC is ignored. -/
theorem writeBank_crtc (registers : Nat → Byte) (adapter : Adapter)
    (opened : ¬ Locked adapter) (keeps : (registers 0x11).getLsbD 7 = false) :
    ModeSetting.writeBank protectedBus construct.crtcIndexPort construct.crtcDataPort 25
        registers adapter =
      { adapter with crtc := Bank.program (listed 25 registers) adapter.crtc } := by
  apply foldl_bank (fun bank => { adapter with crtc := bank }) _ registers
    (fun bank => (bank.value 0x11).getLsbD 7 = false) _ _ adapter.crtc
    (Bool.not_eq_true _ ▸ opened)
  intro i member bank unlocked
  constructor
  · have let_through : ¬ ((0x3D5 : BitVec 16) = 0x3D5 ∧ BitVec.ofNat 8 i < 8 ∧
        Locked { adapter with crtc := bank.select (BitVec.ofNat 8 i) }) := by
      rintro ⟨_, _, locked⟩
      exact absurd (unlocked.symm.trans locked) (by decide)
    exact if_neg let_through
  · change (Function.update bank.value (BitVec.ofNat 8 i) (registers i) 0x11).getLsbD 7 = false
    by_cases here : i = 0x11
    · subst here
      rw [show BitVec.ofNat 8 0x11 = 0x11 from rfl, Function.update_self]
      exact keeps
    · rw [List.mem_range] at member
      rw [Function.update_of_ne (by bv_omega)]
      exact unlocked

/-- Each turn resets the flip-flop before it writes an index and a value. -/
theorem writeAttributes_attributeController (count : Nat) (registers : Nat → Byte)
    (adapter : Adapter) :
    ModeSetting.writeAttributes protectedBus construct (count + 1) registers adapter =
      { adapter with
        attributeController :=
          Bank.program (listed (count + 1) registers) adapter.attributeController
        indexNext := true } := by
  -- The position of the flip-flop before the first turn makes no difference.
  have reset : ModeSetting.writeAttributes protectedBus construct (count + 1) registers adapter =
      ModeSetting.writeAttributes protectedBus construct (count + 1) registers
        { adapter with indexNext := true } := by
    rw [ModeSetting.writeAttributes, ModeSetting.writeAttributes, List.range_succ_eq_map,
      List.foldl_cons, List.foldl_cons]
    rfl
  rw [reset]
  exact foldl_bank
    (fun bank => { adapter with attributeController := bank, indexNext := true }) _ registers
    (fun _ => True) _ (fun _ _ _ _ => ⟨rfl, trivial⟩) adapter.attributeController trivial

/-- A write to a register that is not protected. -/
theorem protected_written (value : Byte) (adapter : Adapter)
    (later : ¬ adapter.crtc.selected < 8) :
    protectedBus.outb 0x3D5 value adapter = { adapter with crtc := adapter.crtc.write value } :=
  if_neg fun refused => later refused.2.1

/-- A write to the data port of the CRTC changes at most its bank. -/
theorem protected_crtc (value : Byte) (adapter : Adapter) :
    ∃ bank, protectedBus.outb 0x3D5 value adapter = { adapter with crtc := bank } := by
  by_cases refused : (0x3D5 : BitVec 16) = 0x3D5 ∧ adapter.crtc.selected < 8 ∧ Locked adapter
  · exact ⟨adapter.crtc, if_pos refused⟩
  · exact ⟨adapter.crtc.write value, if_neg refused⟩

/-- The second half of the unlocking clears the lock bit. -/
theorem unlock_clears (adapter : Adapter) :
    protectedBus.outb 0x3D5
        ((protectedBus.inb 0x3D5 (protectedBus.outb 0x3D4 0x11 adapter)).1 &&& ~~~0x80)
        (protectedBus.inb 0x3D5 (protectedBus.outb 0x3D4 0x11 adapter)).2 =
      { adapter with
        crtc := (adapter.crtc.select 0x11).write (adapter.crtc.value 0x11 &&& ~~~0x80) } :=
  protected_written (adapter.crtc.value 0x11 &&& ~~~0x80)
    { adapter with crtc := adapter.crtc.select 0x11 } (show ¬ (0x11 : Byte) < 8 by decide)

/-- After the unlocking the lock is open, whatever it was before. -/
theorem unlock_opens (adapter : Adapter) :
    ∃ bank, ModeSetting.unlock protectedBus construct adapter = { adapter with crtc := bank } ∧
      (bank.value 0x11).getLsbD 7 = false := by
  -- The write to register 0x03 may be ignored.
  obtain ⟨bank, written⟩ := protected_crtc (adapter.crtc.value 0x03 ||| 0x80)
    { adapter with crtc := adapter.crtc.select 0x03 }
  have cleared := unlock_clears (protectedBus.outb 0x3D5 (adapter.crtc.value 0x03 ||| 0x80)
    { adapter with crtc := adapter.crtc.select 0x03 })
  rw [written] at cleared
  refine ⟨(bank.select 0x11).write (bank.value 0x11 &&& ~~~0x80), ?_, ?_⟩
  · rw [← cleared, ← written]
    rfl
  · change (Function.update bank.value 0x11 (bank.value 0x11 &&& ~~~0x80) 0x11).getLsbD 7 = false
    rw [Function.update_self, BitVec.getLsbD_and]
    exact Bool.and_false _

/-- The changed table, from the first CRTC byte on. -/
def changed (table : Nat → Byte) (place : Nat) : Byte :=
  if place = 0x03 then table 9 ||| 0x80
  else if place = 0x11 then table 23 &&& ~~~0x80
  else table (6 + place)

theorem changed_eq (table : Nat → Byte) :
    Function.update
        (Function.update (fun place => table (1 + (5 + place))) 0x03
          (table (1 + (5 + 0x03)) ||| 0x80)) 0x11
        (Function.update (fun place => table (1 + (5 + place))) 0x03
          (table (1 + (5 + 0x03)) ||| 0x80) 0x11 &&& ~~~0x80) =
      changed table := by
  have value : Function.update (fun place => table (1 + (5 + place))) 0x03
      (table (1 + (5 + 0x03)) ||| 0x80) 0x11 = table 23 := Function.update_of_ne (by decide) _ _
  rw [value]
  funext place
  simp only [changed, Function.update_apply]
  by_cases lock : place = 0x11
  · subst lock
    rfl
  · rw [if_neg lock, if_neg lock, show 1 + (5 + place) = 6 + place by omega]

/-- The adapter's registers after the loops, for any table and any registers before. -/
theorem writeRegisters_final (table : Nat → Byte) (adapter : Adapter) :
    ∃ bank, ModeSetting.writeRegisters protectedBus construct table adapter =
      { misc := table 0
        sequencer := Bank.program (listed 5 fun place => table (1 + place)) adapter.sequencer
        crtc := Bank.program (listed 25 (changed table)) bank
        graphicsController := Bank.program (listed 9 fun place => changed table (25 + place))
          adapter.graphicsController
        attributeController := (Bank.program
          (listed 21 fun place => changed table (25 + (9 + place)))
          adapter.attributeController).select 0x20
        indexNext := false } := by
  obtain ⟨bank, opens, unlocked⟩ := unlock_opens
    { adapter with
      misc := table 0
      sequencer := Bank.program (listed 5 fun place => table (1 + place)) adapter.sequencer }
  have keeps : (changed table 0x11).getLsbD 7 = false := by
    change (table 23 &&& ~~~0x80).getLsbD 7 = false
    rw [BitVec.getLsbD_and]
    exact Bool.and_false _
  have misc : construct.miscPort.write protectedBus (table 0) adapter =
      { adapter with misc := table 0 } := rfl
  refine ⟨bank, ?_⟩
  simp only [ModeSetting.writeRegisters]
  rw [misc, writeBank_sequencer]
  dsimp only
  rw [opens, changed_eq, writeBank_crtc (changed table) _ _ keeps, writeBank_graphicsController,
    writeAttributes_attributeController]
  · rfl
  · exact Bool.eq_false_iff.mp unlocked

theorem writeRegisters_holds (table : Nat → Byte) (adapter : Adapter) :
    Holds table (ModeSetting.writeRegisters protectedBus construct table adapter) := by
  obtain ⟨bank, final⟩ := writeRegisters_final table adapter
  rw [final]
  constructor
  · rfl
  · intro i inside
    dsimp only
    rw [listed_value 5 (by decide) _ _ i inside]
  · intro i inside third lock
    dsimp only
    rw [listed_value 25 (by decide) _ _ i inside, changed, if_neg third, if_neg lock]
  · dsimp only
    rw [show (0x03 : Byte) = BitVec.ofNat 8 0x03 from rfl, listed_value 25 (by decide) _ _ 0x03
      (by decide)]
    rfl
  · dsimp only
    rw [show (0x11 : Byte) = BitVec.ofNat 8 0x11 from rfl, listed_value 25 (by decide) _ _ 0x11
      (by decide)]
    rfl
  · intro i inside
    dsimp only
    rw [listed_value 9 (by decide) _ _ i inside, changed, if_neg (by omega), if_neg (by omega),
      show 6 + (25 + i) = 31 + i by omega]
  · intro i inside
    change (Bank.program (listed 21 fun place => changed table (25 + (9 + place)))
      adapter.attributeController).value (BitVec.ofNat 8 i) = table (40 + i)
    rw [listed_value 21 (by decide) _ _ i inside, changed, if_neg (by omega), if_neg (by omega),
      show 6 + (25 + (9 + i)) = 40 + i by omega]
  · rfl

/-- Whatever the registers were, whether the first CRTC registers were locked, and
whichever of index and value the attribute port expected: after the walk the registers
hold the bytes of the table, two of them with a bit changed, and the walk has touched
no byte outside the table. -/
theorem writeRegisters_programs (table : Nat → Byte) (adapter : Adapter) :
    Holds table (writeRegisters protectedBus construct ⟨adapter, table, 0, []⟩).devices ∧
      ∀ place ∈ (writeRegisters protectedBus construct ⟨adapter, table, 0, []⟩).touched,
        place < 61 := by
  obtain ⟨devices, touched⟩ := writeRegisters_walks protectedBus construct table adapter
  rw [devices]
  exact ⟨writeRegisters_holds table adapter, touched⟩

end BlueOs.TableWalk
