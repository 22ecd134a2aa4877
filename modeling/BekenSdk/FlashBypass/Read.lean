import BekenSdk.Base.Bytes

/-! `flash_bypass_op_read` of flash_bypass.c, for BK7238 and BK7252N: with the interrupts off, the SPI block takes the
place of the flash controller, sends a command and reads the answer.
-/

set_option autoImplicit false

namespace BekenSdk.FlashBypass
open Base

/-- The registers that the function changes. -/
structure Regs where
  icuGlobalIntEn : UInt32
  icuPeriClkPwd : UInt32
  icuPwmClkMux : UInt32
  sctrlControl : UInt32
  gpio14 : UInt32
  gpio15 : UInt32
  gpio16 : UInt32
  gpio17 : UInt32
  gpioFuncCfg : UInt32
  gpioFuncCfg2 : UInt32
  spiCtrl : UInt32
  spiConfig : UInt32

def gintrFiqEn : UInt32 := (1 : UInt32) <<< 1
def gintrIrqEn : UInt32 := (1 : UInt32) <<< 0
def flashSpiMuxBit : UInt32 := (1 : UInt32) <<< 22
def spiTxEn : UInt32 := (1 : UInt32) <<< 0
def spiRxEn : UInt32 := (1 : UInt32) <<< 1
def spiTxFinishEn : UInt32 := (1 : UInt32) <<< 2
def spiTxTrahsLenPosi : UInt32 := 8
def spiRxTrahsLenPosi : UInt32 := 20

/-- The bits of the SPI clock in ICU_PERI_CLK_PWD and ICU_PWM_CLK_MUX, which differ between the chips. -/
structure Chip where
  pwdSpiClkBit : UInt32
  pclkPosiSpi : UInt32

/-- The value that `gpio_config` writes for GMODE_SET_HIGH_IMPENDANCE. -/
def highImpendance : UInt32 := 0x08

/-- What the SPI block shows when SPI_STAT is read: the bytes that have come since the last time, and the flags
TXFIFO_WR_READ and TX_FINISH_INT. -/
structure Sample where
  arriving : List UInt8
  txReady : Bool
  txFinish : Bool

/-- The registers, the receive FIFO, what was sent and what came since it was cleared, the times that SPI_STAT was read,
and `rx_buf` with the two counters. -/
structure State where
  regs : Regs
  rxFifo : List UInt8
  sent : List UInt8
  received : List UInt8
  time : Nat
  rxBuf : Cells
  useLess : Nat
  k : Nat

structure Stat where
  txReady : Bool
  rxReady : Bool
  txFinish : Bool

section
variable (spi : Nat → Sample)

/-- Reads SPI_STAT. No more bytes come than were sent; RXFIFO_RD_READ tells whether there is one. -/
def readStat (s : State) : Stat × State :=
  let sample := spi s.time
  let bytes := sample.arriving.take (s.sent.length - s.received.length)
  (⟨sample.txReady, !(s.rxFifo ++ bytes).isEmpty, sample.txFinish⟩,
    { s with rxFifo := s.rxFifo ++ bytes, received := s.received ++ bytes, time := s.time + 1 })

/-- Reads SPI_DAT. -/
def readDat (s : State) : UInt8 × State := (s.rxFifo.headD 0, { s with rxFifo := s.rxFifo.tail })

/-- Writes SPI_DAT. -/
def writeDat (b : UInt8) (s : State) : State := { s with sent := s.sent ++ [b] }

/-- Empties the receive FIFO. Here and below `fuel` bounds the passes; without enough of it there is no result. -/
def clearFifo : Nat → State → Option State
  | 0, _ => none
  | fuel + 1, s =>
    match readStat spi s with
    | (stat, s) => if stat.rxReady then clearFifo fuel (readDat s).2 else some s

variable (txLen rxLen : Nat)

/-- A byte is there: the echo of the command is skipped, then the answer is stored. -/
def takeByte (s : State) : State :=
  if s.useLess < txLen then { (readDat s).2 with useLess := s.useLess + 1 }
  else if s.k < rxLen then
    { (readDat s).2 with rxBuf := Function.update s.rxBuf s.k (readDat s).1, k := s.k + 1 }
  else (readDat s).2

/-- In the last two loops what is too much stays in the FIFO. -/
def takeWanted (s : State) : State :=
  if s.useLess < txLen then { (readDat s).2 with useLess := s.useLess + 1 }
  else if s.k < rxLen then
    { (readDat s).2 with rxBuf := Function.update s.rxBuf s.k (readDat s).1, k := s.k + 1 }
  else s

/-- The two sending loops: `byte i` for all `i` below `len`. False when the FIFO was not ready too often. -/
def sendLoop (len : Nat) (byte : Nat → UInt8) : Nat → Nat → Nat → State → Option (Bool × State)
  | 0, _, _, _ => none
  | fuel + 1, i, wait, s =>
    if i < len then
      match readStat spi s with
      | (stat, s) =>
        if stat.txReady = false ∧ wait + 1 > 100 then some (false, s)
        else
          let sending := if stat.txReady then writeDat (byte i) s else s
          match readStat spi sending with
          | (after, s) =>
            sendLoop len byte fuel (if stat.txReady then i + 1 else i) (if stat.txReady then 0 else wait + 1)
              (if after.rxReady then takeByte txLen rxLen s else s)
    else some (true, s)

/-- Waits for TX_FINISH_INT. -/
def finishLoop : Nat → State → Option State
  | 0, _ => none
  | fuel + 1, s =>
    match readStat spi s with
    | (stat, s) =>
      if stat.txFinish then some s
      else finishLoop fuel (if stat.rxReady then takeWanted txLen rxLen s else s)

/-- Waits for the rest of the answer. -/
def restLoop : Nat → Nat → State → Option State
  | 0, _, _ => none
  | fuel + 1, wait, s =>
    if s.k < rxLen then
      match readStat spi s with
      | (stat, s) =>
        if stat.rxReady then restLoop fuel 0 (takeWanted txLen rxLen s)
        else if wait + 1 > 100 then some s
        else restLoop fuel (wait + 1) s
    else some s

/-! ## The steps of the function -/

/-- Steps 0 and 1: the value of SPI_DAT is read too. -/
def disableInterrupts (s : State) : State :=
  let off := s.regs.icuGlobalIntEn &&& ~~~(gintrFiqEn ||| gintrIrqEn)
  (readDat { s with regs := { s.regs with icuGlobalIntEn := off } }).2

/-- Steps 3.2 to 4. -/
def configSpiMaster (chip : Chip) (r : Regs) : Regs :=
  let r := { r with icuPeriClkPwd := r.icuPeriClkPwd ||| chip.pwdSpiClkBit }
  let r := { r with spiCtrl := 0, spiConfig := 0 }
  let r := { r with icuPwmClkMux := r.icuPwmClkMux ||| chip.pclkPosiSpi }
  let r := { r with icuPeriClkPwd := r.icuPeriClkPwd &&& ~~~chip.pwdSpiClkBit }
  let r := { r with spiCtrl := 0xC00100 }
  { r with gpio14 := highImpendance, gpio15 := highImpendance, gpio16 := highImpendance, gpio17 := highImpendance }

/-- Step 7.1. -/
def takeCs (k : UInt32) (r : Regs) : Regs :=
  let reg := r.spiConfig
  let reg := reg &&& ~~~(0xFFFF <<< spiTxTrahsLenPosi)
  let reg := reg &&& ~~~(0xFFFF <<< spiRxTrahsLenPosi)
  let reg := reg ||| ((k &&& 0xFFFF) <<< spiTxTrahsLenPosi)
  let reg := reg ||| ((k &&& 0xFFFF) <<< spiRxTrahsLenPosi)
  { r with spiConfig := reg ||| (spiTxEn ||| spiRxEn ||| spiTxFinishEn) }

/-- Step 7.4. -/
def releaseCs (r : Regs) : Regs :=
  let reg := r.spiConfig &&& ~~~(0xFFFF <<< spiTxTrahsLenPosi)
  { r with spiConfig := reg &&& ~~~(spiTxEn ||| spiTxFinishEn) }

/-- Step 7.2 to the label `wr_exceptional`, with `exceptional_flag`. -/
def transfer (fuel : Nat) (txBuf : Nat → UInt8) (s : State) : Option (Int × State) :=
  match sendLoop spi txLen rxLen txLen txBuf fuel 0 0 { s with useLess := 0, k := 0 } with
  | none => none
  | some (false, s) => some (-1, s)
  | some (true, s) =>
    match sendLoop spi txLen rxLen rxLen (fun _ => 0xFF) fuel 0 0 s with
    | none => none
    | some (false, s) => some (-2, s)
    | some (true, s) =>
      match finishLoop spi txLen rxLen fuel s with
      | none => none
      | some s =>
        match restLoop spi txLen rxLen fuel 0 s with
        | none => none
        -- the counter is an int
        | some s => some (Int.bmod s.k (2 ^ 32), { s with regs := releaseCs s.regs })

/-- Steps 8 to 11, with the values saved at the start. -/
def restore (saved : Regs) (r : Regs) : Regs :=
  let r := { r with sctrlControl := r.sctrlControl &&& ~~~flashSpiMuxBit }
  let r := { r with icuPwmClkMux := saved.icuPwmClkMux, icuPeriClkPwd := saved.icuPeriClkPwd }
  let r := { r with gpio14 := saved.gpio14, gpio15 := saved.gpio15, gpio16 := saved.gpio16, gpio17 := saved.gpio17,
                    gpioFuncCfg := saved.gpioFuncCfg, gpioFuncCfg2 := saved.gpioFuncCfg2 }
  let r := { r with spiCtrl := saved.spiCtrl, spiConfig := saved.spiConfig }
  { r with icuGlobalIntEn := saved.icuGlobalIntEn }

end

/-- `flash_bypass_op_read`. `muxTaken` is whether the bit of step 5 can be set: otherwise the function stays there. -/
def flashBypassOpRead (spi : Nat → Sample) (chip : Chip) (muxTaken : Bool) (fuel : Nat) (txBuf : Nat → UInt8)
    (txLen rxLen : UInt32) (s : State) : Option (Int × State) :=
  let saved := s.regs
  match clearFifo spi fuel (disableInterrupts { s with sent := [], received := [] }) with
  | none => none
  | some s =>
    let s := { s with regs := configSpiMaster chip s.regs, sent := [], received := [] }
    if muxTaken then
      let s := { s with regs := { s.regs with sctrlControl := s.regs.sctrlControl ||| flashSpiMuxBit } }
      let s := { s with regs := takeCs (txLen + rxLen) s.regs }
      match transfer spi txLen.toNat rxLen.toNat fuel txBuf s with
      | none => none
      | some (exceptionalFlag, s) =>
        match clearFifo spi fuel { s with regs := { s.regs with spiConfig := 0 } } with
        | none => none
        | some s => some (exceptionalFlag, { s with regs := restore saved s.regs })
    else none

end BekenSdk.FlashBypass
