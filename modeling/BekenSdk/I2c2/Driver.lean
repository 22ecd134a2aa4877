import Mathlib.Tactic.Common

/-! The I2C2 driver (i2c2.c): a call of `i2c2_read` or `i2c2_write` and the interrupts that move its bytes. Hardware gives
back the interrupt mode that was written to the status register; the rest of a status word is up to it and to the peer.
-/

set_option autoImplicit false

namespace BekenSdk.I2c2

abbrev Word := BitVec 32

def smbCsMask : Word := 0x3#32 <<< 26

def ensmb : Word := 1#32 <<< 31

def smbusSi : Word := 1#32 <<< 0

def sclTimeout : Word := 1#32 <<< 1

def arbLost : Word := 1#32 <<< 3

def intModeMask : Word := 0x03#32 <<< 6

def smbusAck : Word := 1#32 <<< 8

def smbusStop : Word := 1#32 <<< 9

def smbusSta : Word := 1#32 <<< 10

def addrMatch : Word := 1#32 <<< 11

def txMode : Word := 1#32 <<< 13

def busy : Word := 1#32 <<< 15

def msgWorkModeRwBit : UInt8 := 1

def msgWorkModeMsBit : UInt8 := 2

def msgWorkModeAlBit : UInt8 := 4

def msgWorkModeIaBit : UInt8 := 8

/-- The fields of `I2C2_MSG_ST` that are about addresses and errors. -/
structure Msg where
  wkMode : UInt8
  innerAddr : UInt8
  sendAddr : UInt8
  slaveAddr : UInt8
  addrFlag : UInt8
  ackCheck : UInt8
  errorNO : UInt8

/-- The fields of `I2C2_MSG_ST` that are about the data of a call, and what the interrupts have done with them, the
latest first. -/
structure Transfer where
  currentNum : UInt32
  allDataNum : UInt32
  pData : Nat → UInt8
  transDone : UInt8
  /-- The indices of `pData` that were accessed. -/
  accessed : List Nat
  received : List UInt8
  /-- How often the transfer was completed, and the semaphore set. -/
  completed : Nat
  posted : Nat

structure State where
  msg : Msg
  transfer : Transfer
  sta : Word
  config : Word
  /-- What was written to the data register, the latest first. -/
  sent : List Word
  /-- Whether there is a semaphore. -/
  sema : Bool

/-- An interrupt: the status words that are read, the second one by a master that writes, and the bytes of the data
register. -/
structure Interrupt where
  status : Word
  again : Word
  data : Nat → UInt8

/-! ## The data of a call -/

namespace Transfer

def complete (sema : Bool) (t : Transfer) : Transfer :=
  { t with
    transDone := 1
    completed := t.completed + 1
    posted := if sema then t.posted + 1 else t.posted }

def store (byte : UInt8) (t : Transfer) : Transfer :=
  { t with
    pData := fun i => if i = t.currentNum.toNat then byte else t.pData i
    accessed := t.currentNum.toNat :: t.accessed
    received := byte :: t.received
    currentNum := t.currentNum + 1 }

def storeBurst (data : Nat → UInt8) : Nat → Transfer → Transfer
  | 0, t => t
  | n + 1, t => (storeBurst data n t).store (data n)

/-- The next byte of the buffer goes out. -/
def fetched (t : Transfer) : Transfer :=
  { t with
    accessed := t.currentNum.toNat :: t.accessed
    currentNum := t.currentNum + 1 }

def remainDataCnt (t : Transfer) : UInt16 := (t.allDataNum - t.currentNum).toUInt16

end Transfer

/-- The bytes that an interrupt mode stands for. -/
def dataNum (stat : Word) : Nat :=
  if stat &&& intModeMask = 0x00#32 then 12
  else if stat &&& intModeMask = 0x40#32 then 8
  else if stat &&& intModeMask = 0x80#32 then 4
  else if stat &&& intModeMask = 0xC0#32 then 1
  else 0

inductive WorkMode where
  | masterWrite
  | masterRead
  | slaveWrite
  | slaveRead
  deriving DecidableEq

/-- `WkMode & 0x03`; the last case is 0x03. -/
def workMode (wkMode : UInt8) : WorkMode :=
  if wkMode &&& 0x03 = 0x00 then .masterWrite
  else if wkMode &&& 0x03 = 0x01 then .masterRead
  else if wkMode &&& 0x03 = 0x02 then .slaveWrite
  else .slaveRead

namespace State
variable (s : State)

/-- A status word as it is read. -/
def present (word : Word) : Word := (word &&& ~~~intModeMask) ||| (s.sta &&& intModeMask)

def writeDat (value : Word) : State := { s with sent := value :: s.sent }

def setAddrFlag (flag : UInt8) : State := { s with msg := { s.msg with addrFlag := flag } }

def setErrorNO (error : UInt8) : State := { s with msg := { s.msg with errorNO := error } }

def setSendAddr (addr : UInt8) : State := { s with msg := { s.msg with sendAddr := addr } }

def complete : State := { s with transfer := s.transfer.complete s.sema }

def isTenBit : Bool := s.msg.wkMode &&& msgWorkModeAlBit ≠ 0

def hasInnerAddr : Bool := s.msg.wkMode &&& msgWorkModeIaBit ≠ 0

end State

def word (value : UInt8) : Word := BitVec.ofNat 32 value.toNat

/-- `((SendAddr >> 7) & 0x06) | 0xF1`. -/
def readAddr10 (sendAddr : UInt8) : Word := word (((sendAddr >>> 7) &&& 0x06) ||| 0xF1)

/-! ## The address phase -/

/-- The address phase of a master that writes. -/
def writeAddress (s : State) : State :=
  let uctemp := s.msg.addrFlag
  if s.isTenBit then
    if s.hasInnerAddr then
      if uctemp &&& 0x08 = 0 then
        if uctemp &&& 0x03 = 0x00 then s
        else if uctemp &&& 0x03 = 0x01 then
          let s := s.setSendAddr (s.msg.sendAddr &&& 0xFF)
          let s := s.writeDat (word s.msg.sendAddr)
          s.setAddrFlag (s.msg.addrFlag + 1)
        else
          let s := s.writeDat (word s.msg.innerAddr)
          s.setAddrFlag (s.msg.addrFlag ||| 0x1B)
      else s.setAddrFlag (s.msg.addrFlag ||| 0x13)
    else if uctemp &&& 0x03 = 0x00 then s
    else if uctemp &&& 0x03 = 0x01 then
      let s := s.setSendAddr (s.msg.sendAddr &&& 0xFF)
      let s := s.writeDat (word s.msg.sendAddr)
      s.setAddrFlag (s.msg.addrFlag ||| 0x13)
    else s.setAddrFlag (s.msg.addrFlag ||| 0x13)
  else if s.hasInnerAddr then
    if uctemp &&& 0x08 = 0 then
      let s := s.writeDat (word s.msg.innerAddr)
      s.setAddrFlag (s.msg.addrFlag ||| 0x13)
    else s.setAddrFlag (s.msg.addrFlag ||| 0x13)
  else s.setAddrFlag (s.msg.addrFlag ||| 0x13)

/-- The address phase of a master that reads. -/
def readAddress (s : State) (stat : Word) : State × Word :=
  let uctemp := s.msg.addrFlag
  if s.isTenBit then
    if s.hasInnerAddr then
      if uctemp &&& 0x08 = 0 then
        if uctemp &&& 0x03 = 0x00 then (s, stat)
        else if uctemp &&& 0x03 = 0x01 then
          let s := s.writeDat (word s.msg.sendAddr)
          (s.setAddrFlag (s.msg.addrFlag + 1), stat)
        else
          let s := s.writeDat (word s.msg.innerAddr)
          (s.setAddrFlag (s.msg.addrFlag ||| 0x08), stat)
      else if uctemp &&& 0x03 = 0x02 then
        let s := s.writeDat (readAddr10 s.msg.sendAddr)
        (s.setAddrFlag (s.msg.addrFlag ||| 0x13), stat ||| smbusSta)
      else (s, stat)
    else if uctemp &&& 0x03 = 0x00 then (s, stat)
    else if uctemp &&& 0x03 = 0x01 then
      let s := s.writeDat (word s.msg.sendAddr)
      (s.setAddrFlag (s.msg.addrFlag + 1), stat)
    else if uctemp &&& 0x03 = 0x02 then
      let s := s.writeDat (readAddr10 s.msg.sendAddr)
      (s.setAddrFlag (s.msg.addrFlag ||| 0x13), stat ||| smbusSta)
    else (s, stat)
  else if s.hasInnerAddr then
    if uctemp &&& 0x08 = 0 then
      let s := s.writeDat (word s.msg.innerAddr)
      (s.setAddrFlag ((s.msg.addrFlag &&& ~~~0x0B) ||| 0x0A), stat)
    else
      let s := s.writeDat ((word s.msg.sendAddr <<< 1) ||| 0x01)
      (s.setAddrFlag (s.msg.addrFlag ||| 0x13), stat ||| smbusSta)
  else (s.setAddrFlag (s.msg.addrFlag ||| 0x13), stat)

/-! ## The work modes of `i2c2_isr`: the state and the status word that is written in the end -/

def masterWrite (s : State) (stat again : Word) : State × Word :=
  let sta := stat &&& smbusSta
  let stat := stat &&& ~~~smbusSta
  let ack := again &&& smbusAck
  if sta ≠ 0 ∧ s.msg.ackCheck ≠ 0 ∧ ack = 0 then (s.complete.setErrorNO 1, stat ||| smbusStop)
  else
    let s := s.setErrorNO 0
    if s.msg.addrFlag &&& 0x10 ≠ 0 then
      -- all address bytes have been sent
      if s.transfer.remainDataCnt = 0 then (s.complete, stat ||| smbusStop)
      else if stat &&& smbusAck ≠ 0 then
        let remain := s.transfer.remainDataCnt - 1
        let s := s.writeDat (word (s.transfer.pData s.transfer.currentNum.toNat))
        let s := { s with transfer := s.transfer.fetched }
        if remain = 0 then (s.complete, stat) else (s, stat)
      else (s, stat)
    else (writeAddress s, stat)

def masterRead (s : State) (stat : Word) (data : Nat → UInt8) : State × Word :=
  let ack := stat &&& smbusAck
  let sta := stat &&& smbusSta
  let stat := stat &&& ~~~smbusSta
  if sta ≠ 0 ∧ s.msg.ackCheck ≠ 0 ∧ ack = 0 then (s.setErrorNO 1, stat ||| smbusStop)
  else
    let s := s.setErrorNO 0
    if s.msg.addrFlag &&& 0x10 ≠ 0 then
      if sta ≠ 0 then (s, stat ||| smbusAck)
      else
        let num := dataNum stat
        let remain := s.transfer.remainDataCnt - UInt16.ofNat num
        let s := { s with transfer := s.transfer.storeBurst data num }
        if remain = 0 then (s.complete, (stat &&& ~~~(smbusAck ||| smbusSta)) ||| smbusStop)
        else if remain.toNat < num then (s, stat ||| (smbusAck ||| intModeMask))
        else (s, stat ||| smbusAck)
    else readAddress s stat

/-- The status word of a slave that writes: a matched address is acknowledged. -/
def matchAddr (stat : Word) : Word := if stat &&& addrMatch ≠ 0 then stat ||| smbusAck else stat

def slaveWrite (s : State) (stat : Word) : State × Word :=
  let sto := stat &&& smbusStop
  if sto ≠ 0 then (s.complete, stat)
  else
    let stat := matchAddr stat
    if stat &&& txMode = 0 then (s, stat)
    else if stat &&& smbusAck ≠ 0 then
      let remain := s.transfer.remainDataCnt - 1
      let s := s.writeDat (word (s.transfer.pData s.transfer.currentNum.toNat))
      let s := { s with transfer := s.transfer.fetched }
      if remain = 0 then (s.complete, stat) else (s, stat)
    else (s, stat)

def slaveRead (s : State) (stat : Word) (data : Nat → UInt8) : State × Word :=
  let sto := stat &&& smbusStop
  if sto ≠ 0 then (s.complete, stat)
  else if stat &&& addrMatch ≠ 0 then (s, stat ||| smbusAck)
  else
    let num := dataNum stat
    let remain := s.transfer.remainDataCnt - UInt16.ofNat num
    let s := { s with transfer := s.transfer.storeBurst data num }
    if remain = 0 then (s.complete, stat &&& ~~~smbusAck)
    else if remain.toNat < num then (s, stat ||| smbusAck ||| intModeMask)
    else (s, stat ||| smbusAck)

def i2c2Isr (e : Interrupt) (s : State) : State :=
  let stat := s.present e.status
  if stat &&& smbusSi = 0 then
    let s := if stat &&& sclTimeout ≠ 0 then
      -- the clock was held down too long: close and open again
      let s := { s with config := s.config &&& ~~~ensmb }
      { s with config := s.config ||| ensmb } else s
    if stat &&& arbLost ≠ 0 then { s with sta := stat ||| arbLost } else s
  else
    let config := s.config
    let s := { s with config := config &&& ~~~smbCsMask }
    let (s, stat) := match workMode s.msg.wkMode with
      | .masterWrite => masterWrite s stat (s.present e.again)
      | .masterRead => masterRead s stat e.data
      | .slaveWrite => slaveWrite s stat
      | .slaveRead => slaveRead s stat e.data
    { s with config := config, sta := stat &&& ~~~smbusSi }

/-! ## A call -/

def sendAddr (s : State) : State :=
  if s.msg.wkMode &&& msgWorkModeAlBit = 0 then
    let txData : UInt8 := (s.msg.sendAddr <<< 1) &&& ~~~0x01
    let txData := if s.msg.wkMode = 0x01 then txData ||| 0x01 else txData
    let s := s.writeDat (word txData)
    let s := s.setAddrFlag (s.msg.addrFlag + 1)
    if s.msg.wkMode = 0x00 ∨ s.msg.wkMode = 0x01 then s.setAddrFlag (s.msg.addrFlag ||| 0x13) else s
  else
    let s := s.writeDat (word (((s.msg.sendAddr >>> 7) &&& 0x06) ||| 0xF0))
    s.setAddrFlag (s.msg.addrFlag + 1)

/-- The interrupt mode for the first bytes. -/
def intMode (s : State) : Word :=
  let allDataNum := s.transfer.allDataNum
  if s.msg.wkMode &&& msgWorkModeRwBit ≠ 0 then
    if allDataNum > 12 then 0x00
    else if allDataNum > 8 then 0x01
    else if allDataNum > 4 then 0x03
    else 0x03
  else if allDataNum < 1 ∨ s.msg.wkMode &&& msgWorkModeMsBit ≠ 0 then 0x00
  else if allDataNum < 4 then 0x01
  else if allDataNum < 8 then 0x02
  else 0x03

def sendStart (status : Word) (s : State) : State :=
  let mode := intMode s
  let cfgData := s.present status
  if s.msg.wkMode &&& msgWorkModeMsBit ≠ 0 then
    let cfgData := cfgData &&& 0xFFFB#32
    { s with sta := cfgData ||| (mode <<< 6) }
  else
    let s := sendAddr s
    let cfgData := cfgData &&& 0xFFFB#32
    let cfgData := cfgData ||| (mode <<< 6)
    { s with sta := cfgData ||| smbusSta }

/-- `i2c2_read` or `i2c2_write`, with the fields of `I2C_OP_ST` that they use and the status word at the start. -/
structure Call where
  reading : Bool
  userBuf : Nat → UInt8
  count : UInt32
  opAddr : UInt16
  salveId : UInt8
  slaveAddr : UInt8
  status : Word

/-- A call, up to its wait. It refuses while an earlier one is taken for completed. -/
def Call.start (call : Call) (s : State) : Option State :=
  if s.transfer.transDone ≠ 0 then none
  else
    let wkMode := if call.reading then s.msg.wkMode ||| msgWorkModeRwBit else s.msg.wkMode &&& ~~~msgWorkModeRwBit
    some (sendStart call.status
      { s with
        msg := ⟨wkMode, call.opAddr.toUInt8, call.salveId, call.slaveAddr, 0, 1, 0⟩
        transfer := ⟨0, call.count, call.userBuf, 0, [], [], 0, 0⟩ })

def getBusy (s : State) (status : Word) : Bool := s.present status &&& busy ≠ 0 || s.transfer.transDone = 0

/-- What goes on in a call: interrupts, and the end of its wait, for which it is not busy or has waited too long. -/
inductive Event where
  | interrupt (e : Interrupt)
  | leave (status : Word) (timeout : Bool)

def step : Event → State → Option State
  | .interrupt e, s => some (i2c2Isr e s)
  | .leave status timeout, s =>
    if getBusy s status ∧ ¬timeout then none
    else
      let s := if getBusy s status then s.setErrorNO 1 else s
      some { s with transfer := { s.transfer with transDone := 0 } }

end BekenSdk.I2c2
