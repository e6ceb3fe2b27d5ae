import Mathlib.Data.BitVec

/-!
# A cascaded pair of 8259 interrupt controllers

A controller remembers the vector of its first line, the masked lines and the
lines in service. The first initialization word restarts it and makes the next
three data words the vector base, the cascade wiring and the mode; every other
data word is the mask. A non-specific end of interrupt clears the line in service
of highest priority, which is the lowest bit set.

The slave hangs on line 2 of the master, so a line of the slave puts two bits in
service. Requests, edges and priority resolution between requests are not
modelled: delivery is an event.
-/

namespace Pic8259

abbrev Byte := BitVec 8

/-- What the next data word means. -/
inductive Stage where
  | vectorBase
  | wiring
  | mode
  | ready
deriving DecidableEq

structure Controller where
  stage : Stage
  base : Byte
  mask : Byte
  inService : Byte
deriving DecidableEq

namespace Controller

/-- Bit 4 marks the first initialization word. Of the operation words only the
non-specific end of interrupt changes the lines in service. -/
def writeCommand (controller : Controller) (value : Byte) : Controller :=
  if value &&& 0x10 ≠ 0 then
    { controller with stage := .vectorBase, mask := 0, inService := 0 }
  else if value &&& 0xF8 = 0x20 then
    { controller with inService := controller.inService &&& (controller.inService - 1) }
  else controller

/-- The low three bits of the vector base are the line's own. -/
def writeData (controller : Controller) (value : Byte) : Controller :=
  match controller.stage with
  | .vectorBase => { controller with stage := .wiring, base := value &&& 0xF8 }
  | .wiring => { controller with stage := .mode }
  | .mode => { controller with stage := .ready }
  | .ready => { controller with mask := value }

/-- The bit of one of the eight lines. -/
def lineBit (line : Fin 8) : Byte := 1 <<< line.val

def accept (controller : Controller) (line : Fin 8) : Controller :=
  { controller with inService := controller.inService ||| lineBit line }

def Serving (controller : Controller) (line : Fin 8) : Prop :=
  controller.inService &&& lineBit line ≠ 0

instance (controller : Controller) (line : Fin 8) : Decidable (controller.Serving line) :=
  inferInstanceAs (Decidable (_ ≠ _))

/-- An accepted line is in service. -/
theorem accept_serving (controller : Controller) (line : Fin 8) :
    (controller.accept line).Serving line := by
  have kept : ∀ served : Byte, (served ||| lineBit line) &&& lineBit line = lineBit line := by
    intro served
    ext index inside
    simp only [BitVec.getElem_and, BitVec.getElem_or]
    cases served[index] <;> cases (lineBit line)[index] <;> rfl
  have nonzero : ∀ tested : Fin 8, lineBit tested ≠ 0 := by decide
  simp only [Serving, accept, kept]
  exact nonzero line

end Controller

/-- The line of the master that the slave hangs on. -/
def cascadeLine : Fin 8 := 2

structure Pair where
  master : Controller
  slave : Controller
deriving DecidableEq

namespace Pair

/-- Deliver one of the sixteen lines: mark it in service, through the cascade if
it is the slave's, and name its vector. -/
def deliver (pair : Pair) (line : Fin 16) : Byte × Pair :=
  if own : line.val < 8 then
    (pair.master.base + BitVec.ofNat 8 line.val,
      { pair with master := pair.master.accept ⟨line.val, own⟩ })
  else
    (pair.slave.base + BitVec.ofNat 8 (line.val - 8),
      { master := pair.master.accept cascadeLine
        slave := pair.slave.accept ⟨line.val - 8, by omega⟩ })

/-- A bit that the delivery of a line set is still set. -/
def Serving (pair : Pair) (line : Fin 16) : Prop :=
  if own : line.val < 8 then pair.master.Serving ⟨line.val, own⟩
  else pair.master.Serving cascadeLine ∨ pair.slave.Serving ⟨line.val - 8, by omega⟩

instance (pair : Pair) (line : Fin 16) : Decidable (pair.Serving line) :=
  inferInstanceAs (Decidable (if own : line.val < 8 then pair.master.Serving ⟨line.val, own⟩
    else pair.master.Serving cascadeLine ∨ pair.slave.Serving ⟨line.val - 8, by omega⟩))

structure Idle (pair : Pair) : Prop where
  master : pair.master.inService = 0
  slave : pair.slave.inService = 0

theorem deliver_serving (pair : Pair) (line : Fin 16) : (pair.deliver line).2.Serving line := by
  by_cases own : line.val < 8
  · simpa [deliver, Serving, own] using pair.master.accept_serving ⟨line.val, own⟩
  · simpa [deliver, Serving, own] using Or.inl (pair.master.accept_serving cascadeLine)

/-- An idle pair serves no line. -/
theorem Idle.serving {pair : Pair} (idle : pair.Idle) (line : Fin 16) : ¬ pair.Serving line := by
  by_cases own : line.val < 8 <;>
    simp [Serving, Controller.Serving, own, idle.master, idle.slave]

end Pair

end Pic8259
