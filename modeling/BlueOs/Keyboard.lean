import BlueOs.Port
import BlueOs.PrintedText

/-!
# The keyboard driver

Every interrupt reads one scan code. The code of a released key is dropped; the code of
a pressed key prints its character, which also goes to the event handler if one is set,
or else a line with the code in hexadecimal.

A run is a sequence of interrupts. What it prints is a stream of messages, one for each
pressed key, and no character begins like such a line, so the stream can be read back.
-/

namespace BlueOs.Keyboard

open Port NumberPrinting PrintedText
open TextConsole (Console print)

abbrev Address := BitVec 32

structure KeyboardDriver where
  commandPort : Port8Bit
  dataPort : Port8Bit
  handler : Option Address

def construct : KeyboardDriver where
  commandPort := ⟨0x64⟩
  dataPort := ⟨0x60⟩
  handler := none

def KeyboardDriver.setEventHandler (driver : KeyboardDriver) (h : Option Address) :
    KeyboardDriver := { driver with handler := h }

/-- The cases of `scancode_to_ascii`, in the order of the source. -/
def scancodes : List (Byte × Char) :=
  [(0x02, '1'), (0x03, '2'), (0x04, '3'), (0x05, '4'), (0x06, '5'), (0x07, '6'), (0x08, '7'),
    (0x09, '8'), (0x0A, '9'), (0x0B, '0'), (0x0C, '-'), (0x0D, '='), (0x0E, '\x08'), (0x0F, '\t'),
    (0x10, 'q'), (0x11, 'w'), (0x12, 'e'), (0x13, 'r'), (0x14, 't'), (0x15, 'y'), (0x16, 'u'),
    (0x17, 'i'), (0x18, 'o'), (0x19, 'p'), (0x1E, 'a'), (0x1F, 's'), (0x20, 'd'), (0x21, 'f'),
    (0x22, 'g'), (0x23, 'h'), (0x24, 'j'), (0x25, 'k'), (0x26, 'l'), (0x2C, 'z'), (0x2D, 'x'),
    (0x2E, 'c'), (0x2F, 'v'), (0x30, 'b'), (0x31, 'n'), (0x32, 'm'), (0x1C, '\n'), (0x39, ' ')]

def scancodeToAscii (sc : Byte) : Byte :=
  match scancodes.find? fun entry => entry.1 = sc with
  | some entry => BitVec.ofNat 8 entry.2.toNat
  | none => 0

/-- The line printed for a key that has no character. -/
def msg (scancode : Byte) : List Byte :=
  let code := scancode.setWidth 32
  bytes (("KEY 0x00\n".toList.set 6 (hex ((code >>> 4) &&& 0xF))).set 7 (hex (code &&& 0xF)))

/-- The ports, the console, and what the event handlers act on. -/
structure Machine (δ ω : Type) where
  devices : δ
  console : Console
  world : ω

section driver

variable {δ ω : Type} (bus : Bus δ) (onKeyPress : Address → Byte → ω → ω)
  (driver : KeyboardDriver)

def handleInterrupt (esp : Word) (machine : Machine δ ω) : Word × Machine δ ω :=
  let (scancode, devices) := driver.dataPort.read bus machine.devices
  let machine := { machine with devices := devices }
  if scancode &&& 0x80 ≠ 0 then (esp, machine)
  else
    let c := scancodeToAscii scancode
    if c ≠ 0 then
      let machine := { machine with console := print machine.console [c, 0] }
      match driver.handler with
      | none => (esp, machine)
      | some handler => (esp, { machine with world := onKeyPress handler c machine.world })
    else (esp, { machine with console := print machine.console (msg scancode ++ [0]) })

end driver

/-- The scan code of a pressed key. -/
abbrev MakeCode := { scancode : Byte // scancode &&& 0x80 = 0 }

/-- The pressed keys among scan codes. -/
def pressed (codes : List Byte) : List MakeCode := codes.filterMap fun scancode =>
  if make : scancode &&& 0x80 = 0 then some ⟨scancode, make⟩ else none

/-- What is printed for a pressed key. -/
def message (code : MakeCode) : List Byte :=
  if scancodeToAscii code.val = 0 then msg code.val else [scancodeToAscii code.val]

/-- The character that goes to the event handler. -/
def character (code : MakeCode) : Option Byte :=
  if scancodeToAscii code.val = 0 then none else some (scancodeToAscii code.val)

theorem msg_eq (scancode : Byte) :
    msg scancode = [0x4B, 0x45, 0x59, 0x20, 0x30, 0x78] ++ bytes (printHex scancode) ++ [0x0A] :=
  rfl

/-- The key whose character is given. -/
def keyOf (c : Byte) : Option Byte :=
  (scancodes.find? fun entry => BitVec.ofNat 8 entry.2.toNat = c).map Prod.fst

/-- The key whose code is given in hexadecimal. -/
def codeOf (digits : List Byte) : Option Byte :=
  (readHex digits).map (BitVec.ofNat 8)

/-- Read one message: only the line of a key without a character begins with a `K`. -/
def readMessage : List Byte → Option (Byte × List Byte)
  | [] => none
  | first :: rest =>
    if first = 0x4B then (codeOf ((rest.drop 5).take 2)).map fun code => (code, rest.drop 8)
    else (keyOf first).map fun code => (code, rest)

/-- A character of a key is not a `K`, and determines the key. -/
theorem keyOf_scancodeToAscii : ∀ scancode : Byte, scancodeToAscii scancode ≠ 0 →
    scancodeToAscii scancode ≠ 0x4B ∧ keyOf (scancodeToAscii scancode) = some scancode := by
  decide

theorem codeOf_printHex (scancode : Byte) : codeOf (bytes (printHex scancode)) = some scancode := by
  rw [codeOf, readHex_printHex, Option.map_some, BitVec.ofNat_toNat, BitVec.setWidth_eq]

theorem readMessage_message (code : MakeCode) (rest : List Byte) :
    readMessage (message code ++ rest) = some (code.val, rest) := by
  by_cases unmapped : scancodeToAscii code.val = 0
  · have read := codeOf_printHex code.val
    rw [message, if_pos unmapped, msg_eq]
    change (codeOf (bytes (printHex code.val))).map (fun code => (code, rest)) = _
    rw [read]
    rfl
  · obtain ⟨lower, found⟩ := keyOf_scancodeToAscii code.val unmapped
    rw [message, if_neg unmapped, List.singleton_append, readMessage, if_neg lower, found]
    rfl

/-- The messages of pressed keys. -/
def format : Messages.Format MakeCode Byte where
  encode := message
  decode symbols := (readMessage symbols).bind fun first =>
    if make : first.1 &&& 0x80 = 0 then some (⟨first.1, make⟩, first.2) else none
  nonempty code none := by
    rw [message] at none
    split at none
    · cases none
    · cases none
  decode_encode code rest := by
    rw [readMessage_message, Option.bind_some, dif_pos code.property]

/-- The text of a sequence of pressed keys. -/
def typed (codes : List MakeCode) : List Byte := format.stream codes

section runs

variable {ω : Type} (onKeyPress : Address → Byte → ω → ω)

/-- The output buffer of the keyboard's controller, read at the data port. -/
def outputBuffer : Bus Byte where
  inb _ scancode := (scancode, scancode)
  outb _ _ scancode := scancode
  inw _ scancode := (0xFFFF, scancode)
  outw _ _ scancode := scancode

/-- An interrupt with a scan code in the output buffer. -/
def interrupt (driver : KeyboardDriver) (machine : Machine Byte ω) (event : Byte × Word) :
    Machine Byte ω :=
  (handleInterrupt outputBuffer onKeyPress driver event.2
    { machine with devices := event.1 }).2

/-- What a character does at the event handler. -/
def notify (driver : KeyboardDriver) (world : ω) (c : Byte) : ω :=
  match driver.handler with
  | none => world
  | some handler => onKeyPress handler c world

end runs

/-- No message has a NUL byte. -/
theorem message_proper (code : MakeCode) : ∀ c ∈ message code, c ≠ 0 := by
  by_cases unmapped : scancodeToAscii code.val = 0
  · rw [message, if_pos unmapped, msg_eq, List.forall_mem_append, List.forall_mem_append]
    refine ⟨⟨literal_proper _ (by decide), ?_⟩, literal_proper _ (by decide)⟩
    exact digits_proper _ (printHex_digits code.val)
  · rw [message, if_neg unmapped]
    intro c member
    rw [List.mem_singleton.mp member]
    exact unmapped

section runs

variable {ω : Type} (onKeyPress : Address → Byte → ω → ω) (driver : KeyboardDriver)

/-- An interrupt prints the message of a pressed key and hands its character to the
event handler; it returns the stack pointer it was given. -/
theorem handleInterrupt_eq {δ : Type} (bus : Bus δ) (esp : Word) (machine : Machine δ ω) :
    handleInterrupt bus onKeyPress driver esp machine =
      (esp,
        { devices := (driver.dataPort.read bus machine.devices).2
          console := print machine.console
            (typed (pressed [(driver.dataPort.read bus machine.devices).1]))
          world := ((pressed [(driver.dataPort.read bus machine.devices).1]).filterMap
            character).foldl (notify onKeyPress driver) machine.world }) := by
  rw [handleInterrupt]
  generalize driver.dataPort.read bus machine.devices = read
  obtain ⟨scancode, devices⟩ := read
  by_cases make : scancode &&& 0x80 = 0
  · have one : pressed [scancode] = [⟨scancode, make⟩] :=
      List.filterMap_cons_some (dif_pos make)
    have text : typed [⟨scancode, make⟩] = message ⟨scancode, make⟩ := List.append_nil _
    have proper := message_proper ⟨scancode, make⟩
    simp only [one, text, if_neg (not_not_intro make)]
    by_cases unmapped : scancodeToAscii scancode = 0
    · have none : character ⟨scancode, make⟩ = none := if_pos unmapped
      rw [message, if_pos unmapped] at proper ⊢
      rw [if_neg (not_not_intro unmapped), print_terminated _ _ proper, List.filterMap_cons_none none]
      rfl
    · have some : character ⟨scancode, make⟩ = some (scancodeToAscii scancode) := if_neg unmapped
      rw [message, if_neg unmapped] at proper ⊢
      have printed := print_terminated machine.console [scancodeToAscii scancode] proper
      rw [if_pos unmapped, List.filterMap_cons_some some, ← printed]
      cases attached : driver.handler with
      | none => simp [notify, attached]
      | some handler => simp [notify, attached]
  · have none : pressed [scancode] = [] := List.filterMap_cons_none (dif_neg make)
    simp only [none, if_pos make]
    rfl

theorem pressed_append (codes : List Byte) (scancode : Byte) :
    pressed (codes ++ [scancode]) = pressed codes ++ pressed [scancode] := List.filterMap_append

theorem typed_append (codes other : List MakeCode) :
    typed (codes ++ other) = typed codes ++ typed other := List.flatMap_append

theorem typed_proper (codes : List MakeCode) : ∀ c ∈ typed codes, c ≠ 0 := by
  intro c member
  obtain ⟨code, -, inside⟩ := List.mem_flatMap.mp member
  exact message_proper code c inside

/-- A sequence of interrupts prints the text of the pressed keys as one call of `print`
would, and hands their characters to the event handler in order; every interrupt
returns the stack pointer it was given. -/
theorem interrupts_typed (events : List (Byte × Word)) (machine : Machine Byte ω) :
    (events.foldl (interrupt onKeyPress driver) machine).console =
        print machine.console (typed (pressed (events.map Prod.fst))) ∧
      (events.foldl (interrupt onKeyPress driver) machine).world =
        ((pressed (events.map Prod.fst)).filterMap character).foldl (notify onKeyPress driver)
          machine.world ∧
      ∀ esp current, (handleInterrupt outputBuffer onKeyPress driver esp current).1 = esp := by
  refine ⟨?_, ?_, fun esp current => by rw [handleInterrupt_eq]⟩
  · induction events using List.reverseRecOn with
    | nil => rfl
    | append_singleton events event inductionHypothesis =>
      rw [List.foldl_append, List.map_append, List.map_singleton, pressed_append, typed_append,
        print_append _ _ _ (typed_proper _), ← inductionHypothesis, List.foldl_cons, List.foldl_nil,
        interrupt, handleInterrupt_eq]
      rfl
  · induction events using List.reverseRecOn with
    | nil => rfl
    | append_singleton events event inductionHypothesis =>
      rw [List.foldl_append, List.map_append, List.map_singleton, pressed_append,
        List.filterMap_append, List.foldl_append, ← inductionHypothesis, List.foldl_cons,
        List.foldl_nil, interrupt, handleInterrupt_eq]
      rfl

end runs

/-- What a sequence of scan codes prints is read back as the pressed keys. -/
theorem typed_read_back (codes : List Byte) :
    format.read (typed (pressed codes)) = some (pressed codes) :=
  format.read_stream (pressed codes)

example : typed (pressed [0x23, 0xA3, 0x17, 0x3B]) = bytes "hiKEY 0x3B\n".toList := by decide

end BlueOs.Keyboard
