import BlizzardBridge.CArray

namespace BlizzardBridge
open CArray

inductive Direction where
  | send
  | receive
  deriving DecidableEq, Repr

/-- 512 slots and the start byte. -/
def DMX_MAX_SLOTS : ℕ := 513
def DMX_MIN_SLOTS : ℕ := 24
def NAME_MAX_LENGTH : ℕ := 64

-- `for (i = lo; i < hi; i++) DMX[i] = v;`
def fillLoop (dmx : Bytes) (lo hi : ℕ) (v : UInt8) : Bytes :=
  copyLoop dmx lo (fun _ => v) (hi - lo)

def clearDMX (dmx : Bytes) : Bytes := fillLoop dmx 0 DMX_MAX_SLOTS 0

def maxDMX (dmx : Bytes) : Bytes := fillLoop dmx 1 DMX_MAX_SLOTS 0xFF

def setDMXData (slot : UInt16) (value : UInt8) (dmx : Bytes) : Bytes :=
  if DMX_MAX_SLOTS ≤ slot.toNat then dmx else Function.update dmx slot.toNat value

end BlizzardBridge
