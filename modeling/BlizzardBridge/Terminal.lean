import BlizzardBridge.ConnectionManager
import BlizzardBridge.Program

/-! The handler of the terminal, `BLYNK_WRITE(V12)`. It reports the indices that it
uses. A loop that is given too few turns crashes; one that needs more than any number
of turns never returns. -/
namespace BlizzardBridge
open CArray Program

def GEN_BUF_SIZE : ℕ := 64

def SPACE : UInt8 := 0x20
def DOT : UInt8 := 0x2E

def SETNAME : List UInt8 := ascii ['s', 'e', 't', 'n', 'a', 'm', 'e']
def SETIP : List UInt8 := ascii ['s', 'e', 't', 'i', 'p']
def SETDHCP : List UInt8 := ascii ['s', 'e', 't', 'd', 'h', 'c', 'p']

inductive Index where
  | genBuf (i : ℕ)
  | delimIndexes (i : ℕ)
  | ipIndex (i : ℕ)
  deriving DecidableEq, Repr

abbrev Terminal := Prog Board Index

def getChar (i : ℕ) : Terminal UInt8 := step [.genBuf i] fun b => (b.genBuf i, b)

def putChar (i : ℕ) (v : UInt8) : Terminal Unit :=
  step [.genBuf i] fun b => ((), { b with genBuf := Function.update b.genBuf i v })

-- `&gen_buf[i]`, as the memory from there on.
def charsAt (i : ℕ) : Terminal Bytes := step [.genBuf i] fun b => (fun k => b.genBuf (i + k), b)

-- `String(literal) == String(a)`.
def equalsString (a : Bytes) (literal : List UInt8) : Bool := cstr a (literal.length + 1) = literal

structure Delims where
  indexes : Bytes
  count : UInt8

-- `for (; i < val.length(); i++)`: a `uint8_t` runs through the text.
def fillGenBuf (val : List UInt8) : (fuel : ℕ) → (i : UInt8) → Delims → Terminal (UInt8 × Delims)
  | 0, _, _ => crash
  | fuel + 1, i, d =>
    if val.length ≤ i.toNat then pure (i, d)
    else if val.getD i.toNat 0 = SPACE then do
      putChar i.toNat 0
      emit (.delimIndexes d.count.toNat)
      fillGenBuf val fuel (i + 1)
        ⟨Function.update d.indexes d.count.toNat (i + 1), d.count + 1⟩
    else do
      putChar i.toNat (val.getD i.toNat 0)
      fillGenBuf val fuel (i + 1) d

-- `for (; i < 64; i++) gen_buf[i] = 0;`
def zeroGenBuf (i : ℕ) : Terminal Unit := loop (fun k _ => putChar (i + k) 0) (GEN_BUF_SIZE - i) ()

/-- Ends the parts of an address at its dots, for `k` more bytes; `j` counts the dots. -/
def splitIP (start : ℕ) : (k i : ℕ) → (ipIndex : Bytes) → (j : ℕ) → Terminal (Bytes × ℕ)
  | 0, _, ipIndex, j => pure (ipIndex, j)
  | k + 1, i, ipIndex, j => do
    let x ← getChar (start + i)
    if x = DOT then do
      putChar (start + i) 0
      emit (.ipIndex j)
      splitIP start k (i + 1) (Function.update ipIndex j (i + 1).toUInt8) (j + 1)
    else if x = 0 then pure (ipIndex, j)
    else splitIP start k (i + 1) ipIndex j

section commands
variable (toInt : List UInt8 → ℤ)

-- `ip[n] = (uint8_t) String(&gen_buf[i]).toInt();`
def putOctet (n i : ℕ) : Terminal Unit := do
  let chars ← charsAt i
  modify fun b => { b with ip := Function.update b.ip n (UInt8.ofInt (toInt (cstr chars NVS_STR_MAX))) }

def argumentAt (d : Delims) : Terminal ℕ :=
  step [.delimIndexes 0] fun b => ((d.indexes 0).toNat, b)

def setnameCommand (d : Delims) : Terminal Unit :=
  if d.count = 0 then pure ()
  else do
    let start ← argumentAt d
    let name ← charsAt start
    modify (Board.updateStrNvsVal .deviceName name)

def setipCommand (d : Delims) : Terminal Unit :=
  if d.count = 0 then pure ()
  else do
    let start ← argumentAt d
    let parts ← splitIP start 15 0 (fun _ => 0) 0
    if parts.2 ≠ 3 then pure ()
    else do
      putOctet toInt 3 start
      emit (.ipIndex 0)
      putOctet toInt 2 (start + (parts.1 0).toNat)
      emit (.ipIndex 1)
      putOctet toInt 1 (start + (parts.1 1).toNat)
      emit (.ipIndex 2)
      putOctet toInt 0 (start + (parts.1 2).toNat)
      modify fun b => b.setIP b.ip
      modify (Board.setDHCPEnable DISABLE)

def setdhcpCommand (d : Delims) : Terminal Unit :=
  if d.count = 0 then pure ()
  else do
    let start ← argumentAt d
    let argument ← charsAt start
    if equalsString argument (ascii ['e', 'n']) then modify (Board.setDHCPEnable ENABLE)
    else if equalsString argument (ascii ['d', 'i', 's']) then modify (Board.setDHCPEnable DISABLE)
    else pure ()

/-- `help` and `clear` only print. -/
def runCommand (val : List UInt8) (d : Delims) : Terminal Unit := do
  let word ← charsAt 0
  if val = ascii ['h', 'e', 'l', 'p'] then pure ()
  else if equalsString word SETNAME then setnameCommand d
  else if equalsString word SETIP then setipCommand toInt d
  else if equalsString word SETDHCP then setdhcpCommand d
  else pure ()

def blynkWriteV12 (fuel : ℕ) (val : List UInt8) : Terminal Unit := do
  let r ← fillGenBuf val fuel 0 ⟨fun _ => 0, 0⟩
  zeroGenBuf r.1.toNat
  runCommand toInt val r.2

end commands

end BlizzardBridge
