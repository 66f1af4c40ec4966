import BlizzardBridge.ProgramLoop
import Mathlib.Data.Int.Notation

/-! The driver of the wireless DMX module: its power pin, its one button, and its three LEDs,
whose colour tells what the module does. The functions poll the LEDs; the environment decides
what each poll reads. Delays change nothing else and are left out. -/
namespace BlizzardBridge
open Program

/-- The levels of the LED pins at one poll. An LED is lit when its pin is low. -/
structure Leds where
  red : Bool
  green : Bool
  blue : Bool
  deriving DecidableEq, Repr

/-- The flags and the pins of the module. `polls` counts the polls of the LEDs, and `v14` is
the value last written to the pin V14 of the app. -/
structure Wdmx where
  enable : Bool
  powerOn : Bool
  busy : Bool
  powerPin : Bool
  buttonPin : Bool
  polls : ℕ
  v14 : ℕ
  deriving DecidableEq, Repr

-- What the program reports are the notifications of the app.
abbrev WdmxProg := Prog Wdmx String

@[match_pattern] abbrev WDMX_RED : ℕ := 0
@[match_pattern] abbrev WDMX_GREEN : ℕ := 1
@[match_pattern] abbrev WDMX_BLUE : ℕ := 2

@[match_pattern] abbrev WDMX_COLOR_OFF : ℕ := 0
@[match_pattern] abbrev WDMX_COLOR_RED : ℕ := 1
@[match_pattern] abbrev WDMX_COLOR_GREEN : ℕ := 2
@[match_pattern] abbrev WDMX_COLOR_BLUE : ℕ := 3
@[match_pattern] abbrev WDMX_COLOR_YELLOW : ℕ := 4
@[match_pattern] abbrev WDMX_COLOR_CYAN : ℕ := 5
@[match_pattern] abbrev WDMX_COLOR_MAGENTA : ℕ := 6
@[match_pattern] abbrev WDMX_COLOR_WHITE : ℕ := 7

def WDMX_MODE_TRANSMIT : ℕ := WDMX_COLOR_BLUE
def CONNECT_TIMEOUT : ℕ := 50
def CONNECT_ERROR : ℕ := 3
def CONNECT_SUCCESS : ℕ := 0
def WDMX_MAX_MODES : ℕ := 9

namespace Leds

def readWdmxLed (l : Leds) (index : ℕ) : Bool :=
  match index with
  | WDMX_RED => l.red
  | WDMX_GREEN => l.green
  | WDMX_BLUE => l.blue
  | _ => false

/-- The test of a colour on what the LEDs read. -/
def shows (l : Leds) (index : ℕ) : Bool :=
  match index with
  | WDMX_COLOR_RED =>
    !l.readWdmxLed WDMX_RED && l.readWdmxLed WDMX_GREEN && l.readWdmxLed WDMX_BLUE
  | WDMX_COLOR_GREEN =>
    l.readWdmxLed WDMX_RED && !l.readWdmxLed WDMX_GREEN && l.readWdmxLed WDMX_BLUE
  | WDMX_COLOR_BLUE =>
    l.readWdmxLed WDMX_RED && l.readWdmxLed WDMX_GREEN && !l.readWdmxLed WDMX_BLUE
  | WDMX_COLOR_YELLOW =>
    !l.readWdmxLed WDMX_RED && !l.readWdmxLed WDMX_GREEN && l.readWdmxLed WDMX_BLUE
  | WDMX_COLOR_WHITE =>
    !l.readWdmxLed WDMX_RED && !l.readWdmxLed WDMX_GREEN && !l.readWdmxLed WDMX_BLUE
  | WDMX_COLOR_CYAN =>
    l.readWdmxLed WDMX_RED && !l.readWdmxLed WDMX_GREEN && !l.readWdmxLed WDMX_BLUE
  | WDMX_COLOR_MAGENTA =>
    !l.readWdmxLed WDMX_RED && l.readWdmxLed WDMX_GREEN && !l.readWdmxLed WDMX_BLUE
  | WDMX_COLOR_OFF =>
    l.readWdmxLed WDMX_RED && l.readWdmxLed WDMX_GREEN && l.readWdmxLed WDMX_BLUE
  | _ => false

/-- The colour that the LEDs show. -/
def color (l : Leds) : ℕ :=
  let count := (if l.readWdmxLed WDMX_RED then 0 else 1) +
    (if l.readWdmxLed WDMX_BLUE then 0 else 2) + if l.readWdmxLed WDMX_GREEN then 0 else 4
  match count with
  | 0 => WDMX_COLOR_OFF
  | 1 => WDMX_COLOR_RED
  | 2 => WDMX_COLOR_BLUE
  | 4 => WDMX_COLOR_GREEN
  | 3 => WDMX_COLOR_MAGENTA
  | 5 => WDMX_COLOR_YELLOW
  | 6 => WDMX_COLOR_CYAN
  | 7 => WDMX_COLOR_WHITE
  | _ => 0

/-- The two ways to ask for the colour agree. -/
theorem shows_iff_color (l : Leds) (index : ℕ) : l.shows index = true ↔ index ≤ 7 ∧ l.color = index := by
  have hcolors : ∀ r g b : Bool, ∀ i : Fin 8,
      (Leds.mk r g b).shows i = true ↔ (Leds.mk r g b).color = i := by decide
  have hcolor : ∀ r g b : Bool, (Leds.mk r g b).color ≤ 7 := by decide
  by_cases hindex : index ≤ 7
  · have hone := hcolors l.red l.green l.blue ⟨index, Nat.lt_succ_of_le hindex⟩
    rw [and_iff_right hindex]
    exact hone
  · have hnone : l.shows index = false := by
      match index with
      | 0 | 1 | 2 | 3 | 4 | 5 | 6 | 7 => exact absurd (by decide) hindex
      | _ + 8 => rfl
    rw [hnone]
    exact iff_of_false Bool.false_ne_true fun h => hindex h.1

end Leds

namespace Wdmx

def isWDMXOn (s : Wdmx) : ℕ := s.powerOn.toNat

def isWDMXBusy (s : Wdmx) : Bool := s.busy

/-- A function that returns nothing does nothing when the module is disabled. -/
def whenEnabled (x : WdmxProg Unit) : WdmxProg Unit := do
  if ← get Wdmx.enable then x else pure ()

-- A bare `return;` leaves the caller without the value that it goes on with.
def valueEnabled {α : Type} (x : WdmxProg α) : WdmxProg α := do
  if ← get Wdmx.enable then x else crash

def turnOnWdmx : WdmxProg Unit := whenEnabled do
  modify fun s => { s with powerPin := true }
  modify fun s => { s with powerOn := true }

def turnOffWdmx : WdmxProg Unit := whenEnabled do
  modify fun s => { s with powerPin := false }
  modify fun s => { s with powerOn := false }

def switchWdmxButtonOn : WdmxProg Unit := whenEnabled (modify fun s => { s with buttonPin := true })

def switchWdmxButtonOff : WdmxProg Unit := whenEnabled (modify fun s => { s with buttonPin := false })

def pressWdmxButton : WdmxProg Unit := whenEnabled do
  modify fun s => { s with buttonPin := true }
  modify fun s => { s with buttonPin := false }

section poll
variable (leds : ℕ → Leds)

/-- One poll: each LED is read at most once in it. -/
def poll {α : Type} (f : Leds → α) : WdmxProg α :=
  step [] fun s => (f (leds s.polls), { s with polls := s.polls + 1 })

def checkWdmxColor (index : ℕ) : WdmxProg Bool := valueEnabled (poll leds fun l => l.shows index)

def getWdmxColor : WdmxProg ℕ := valueEnabled (poll leds Leds.color)

/-- A turn of a wait until the test of `index` gives `shown`, with its `timeout`. -/
def waitTurn (index : ℕ) (shown : Bool) (timeout : ℕ) : WdmxProg (ℕ ⊕ ℕ) := do
  let test ← checkWdmxColor leds index
  if test = shown then pure (.inr CONNECT_SUCCESS)
  else if timeout > CONNECT_TIMEOUT then pure (.inr CONNECT_ERROR)
  else pure (.inl (timeout + 1))

def waitColor (index : ℕ) (shown : Bool) (fuel : ℕ) : WdmxProg ℕ :=
  whileLoop (waitTurn leds index shown) fuel 0

def enterWdmxConfigMode (fuel : ℕ) : WdmxProg ℕ := valueEnabled do
  turnOffWdmx
  let off ← waitColor leds WDMX_COLOR_OFF true fuel
  if off ≠ CONNECT_SUCCESS then pure CONNECT_ERROR
  else do
    switchWdmxButtonOn
    let white ← waitColor leds WDMX_COLOR_WHITE true fuel
    if white ≠ CONNECT_SUCCESS then pure CONNECT_ERROR
    else do
      turnOnWdmx
      switchWdmxButtonOff
      let notWhite ← waitColor leds WDMX_COLOR_WHITE false fuel
      if notWhite ≠ CONNECT_SUCCESS then pure CONNECT_ERROR else pure CONNECT_SUCCESS

/-- A turn of the search for the mode: one press of the button leads to the next mode. -/
def modeTurn (mode i : ℕ) : WdmxProg (ℕ ⊕ ℕ) := do
  if ← checkWdmxColor leds mode then pure (.inr CONNECT_SUCCESS)
  else do
    -- The log line asks for the colour once more.
    let _ ← getWdmxColor leds
    pressWdmxButton
    if i > WDMX_MAX_MODES then pure (.inr CONNECT_ERROR) else pure (.inl (i + 1))

-- `while(!check_wdmx_color(WDMX_COLOR_WHITE)){;;}`
def whiteTurn (_ : Unit) : WdmxProg (Unit ⊕ Unit) := do
  if ← checkWdmxColor leds WDMX_COLOR_WHITE then pure (.inr ()) else pure (.inl ())

def selectWdmxMode (mode fuel : ℕ) : WdmxProg ℕ := valueEnabled do
  let _ ← getWdmxColor leds
  let found ← whileLoop (modeTurn leds mode) fuel 0
  if found ≠ CONNECT_SUCCESS then pure CONNECT_ERROR
  else do
    switchWdmxButtonOn
    whileLoop (whiteTurn leds) fuel ()
    switchWdmxButtonOff
    pure CONNECT_SUCCESS

def easyWdmxConnect (fuel : ℕ) : WdmxProg ℕ := valueEnabled do
  modify fun s => { s with busy := true }
  let entered ← enterWdmxConfigMode leds fuel
  if entered ≠ CONNECT_SUCCESS then do
    modify fun s => { s with busy := false }
    pure CONNECT_ERROR
  else do
    let selected ← selectWdmxMode leds WDMX_MODE_TRANSMIT fuel
    modify fun s => { s with busy := false }
    if selected ≠ CONNECT_SUCCESS then pure CONNECT_ERROR else pure CONNECT_SUCCESS

/-- `BLYNK_WRITE(V13)`, with the value that the app has written. -/
def blynkWriteV13 (fuel : ℕ) (param : ℤ) : WdmxProg Unit := do
  if ← get isWDMXBusy then pure ()
  else if param ≠ 0 then do
    let ret ← easyWdmxConnect leds fuel
    emit (if ret ≠ 0 then "Easy Connect(tm) Error. Wah Wah"
      else "Hooray! You set the thing to the thing!")
    if ret ≠ 0 then do
      switchWdmxButtonOff
      modify fun s => { s with v14 := 0 }
    else modify fun s => { s with v14 := 1 }
  else pure ()

end poll

end Wdmx

end BlizzardBridge
