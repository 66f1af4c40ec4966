import BlizzardBridge.Board

/-! The setters of `dmx.c`. Names and modes are written through to NVS, the numbers
of the node are kept in RAM only. -/
namespace BlizzardBridge
open CArray

def inputModeVar : ByteVar where
  key := .inputMode
  set x s := { s with inputMode := x }
  value_self _ _ := rfl
  value_other _ _ j hj := by cases j <;> first | rfl | exact absurd rfl hj

def outputModeVar : ByteVar where
  key := .outputMode
  set x s := { s with outputMode := x }
  value_self _ _ := rfl
  value_other _ _ j hj := by cases j <;> first | rfl | exact absurd rfl hj

def ownAddressVar : WordVar where
  key := .ownAddress
  set x s := { s with ownAddress := x }
  value_self _ _ := rfl
  value_other _ _ j hj := by cases j <;> first | rfl | exact absurd rfl hj

def ownUniverseVar : WordVar where
  key := .ownUniverse
  set x s := { s with ownUniverse := x }
  value_self _ _ := rfl
  value_other _ _ j hj := by cases j <;> first | rfl | exact absurd rfl hj

def ownIDVar : WordVar where
  key := .ownID
  set x s := { s with ownID := x }
  value_self _ _ := rfl
  value_other _ _ j hj := by cases j <;> first | rfl | exact absurd rfl hj

namespace Board

-- The string at the address that the getter returns.
def getName (b : Board) : CString := cString b.ram.deviceName NVS_STR_MAX

/-- Refused are lengths that do not fit. The test for an empty name compares with the
multi-character constant `'/0'`, which no `char` equals, so it refuses nothing. -/
def setName (name : Bytes) (length : ℕ) (b : Board) : Board :=
  if NAME_MAX_LENGTH ≤ length then b
  else
    let cleared := copyLoop b.ram.deviceName 0 (fun _ => 0) NAME_MAX_LENGTH
    let stored := terminate (copyTest name length 0 cleared)
    updateStrNvsVal .deviceName stored { b with ram := { b.ram with deviceName := stored } }

def setInputMode : UInt8 → Board → Board := setByte inputModeVar

def setOutputMode : UInt8 → Board → Board := setByte outputModeVar

def setOwnAddress : UInt16 → Board → Board := setWord ownAddressVar

def setOwnUniverse : UInt16 → Board → Board := setWord ownUniverseVar

def setSlots (count : UInt16) (b : Board) : Board :=
  if DMX_MAX_SLOTS ≤ count.toNat then b
  else if count.toNat < DMX_MIN_SLOTS then b
  else { b with ram := { b.ram with slots := count } }

def setOwnID : UInt16 → Board → Board := setWord ownIDVar

end Board

end BlizzardBridge
