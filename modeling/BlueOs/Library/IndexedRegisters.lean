import Mathlib.Data.List.Nodup
import Mathlib.Logic.Function.Basic

/-!
# Indexed registers

Many registers behind two ports: one selects a register, the other writes or reads
the selected one. Registers keep what was written last, so after a list of writes
with distinct indices every listed register has its listed value and every other one
is unchanged.
-/

namespace IndexedRegisters

universe u v

structure Bank (ι : Type u) (α : Type v) where
  selected : ι
  value : ι → α

namespace Bank

variable {ι : Type u} {α : Type v} [DecidableEq ι]

def select (index : ι) (bank : Bank ι α) : Bank ι α := { bank with selected := index }

def write (value : α) (bank : Bank ι α) : Bank ι α :=
  { bank with value := Function.update bank.value bank.selected value }

def read (bank : Bank ι α) : α := bank.value bank.selected

/-- Select and write registers in order. -/
def program (registers : List (ι × α)) (bank : Bank ι α) : Bank ι α :=
  registers.foldl (fun bank register => (bank.select register.1).write register.2) bank

theorem program_cons (index : ι) (value : α) (rest : List (ι × α)) (bank : Bank ι α) :
    program ((index, value) :: rest) bank = program rest ((bank.select index).write value) := rfl

/-- A register that is not listed keeps its value. -/
theorem program_other (registers : List (ι × α)) (bank : Bank ι α) (index : ι)
    (unlisted : index ∉ registers.map Prod.fst) :
    (program registers bank).value index = bank.value index := by
  induction registers generalizing bank with
  | nil => rfl
  | cons register rest inductionHypothesis =>
    simp only [List.map_cons, List.mem_cons, not_or] at unlisted
    rw [program_cons, inductionHypothesis _ unlisted.2]
    exact Function.update_of_ne unlisted.1 ..

/-- A listed register has its listed value. -/
theorem program_value (registers : List (ι × α)) (bank : Bank ι α) (index : ι) (value : α)
    (distinct : (registers.map Prod.fst).Nodup) (listed : (index, value) ∈ registers) :
    (program registers bank).value index = value := by
  induction registers generalizing bank with
  | nil => cases listed
  | cons register rest inductionHypothesis =>
    rw [List.map_cons, List.nodup_cons] at distinct
    rw [program_cons]
    rcases List.mem_cons.mp listed with rfl | later
    · rw [program_other rest _ index distinct.1]
      exact Function.update_self ..
    · exact inductionHypothesis _ distinct.2 later

end Bank

end IndexedRegisters
