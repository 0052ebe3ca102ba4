import Mathlib.Data.Fintype.Basic
import Mathlib.Data.Fin.VecNotation
import W5500Udp.Wrapping

/-! # The W5500 as the driver sees it

The register file behind `w5500_ll::Registers`: eight sockets, each with the mode, status, port
and destination registers, the pointer and size registers of both buffers, and a 16-bit offset
space per buffer. A driver computation is state passing over the chip that also records each bus
access in order. The transport never fails here (every `?` on a register access is the `Ok`
path), and the chip runs a command when it is written. `Close` closes the socket and, as
`udp_bind` says of it, resets both buffers: nothing is left to receive (`Sn_RX_RSR` is 0) or to
send (`Sn_TX_FSR` is the whole transmit buffer); the pointer registers keep their values, the
chip's own pointers being brought to them. `Open` sets the status from the mode; what the
hardware does later for `Send` and `Recv` is outside the driver. -/
namespace W5500Udp

/-- `w5500_ll::Sn`, the eight sockets. -/
abbrev Sn := Fin 8

inductive SocketCommand where
  | «open»
  | close
  | send
  | recv
  deriving DecidableEq, Repr

/-- Modelled from the spec: `w5500_ll::SocketStatus` is not under src/; these are the states
the bind sequence and the `Open` command can produce. -/
inductive SocketStatus where
  | closed
  | init
  | udp
  | macraw
  deriving DecidableEq, Repr

/-- Modelled from the spec: `w5500_ll::Protocol`, the low nibble of `Sn_MR`. -/
inductive Protocol where
  | closed
  | tcp
  | udp
  | macraw
  deriving DecidableEq, Repr

def Protocol.raw : Protocol → UInt8
  | .closed => 0
  | .tcp => 1
  | .udp => 2
  | .macraw => 4

/-- Modelled from the spec: `w5500_ll::SocketMode`, the raw `Sn_MR` byte. -/
structure SocketMode where
  raw : UInt8
  deriving DecidableEq, Repr

def SocketMode.DEFAULT : SocketMode := ⟨0⟩

def SocketMode.setProtocol (m : SocketMode) (p : Protocol) : SocketMode :=
  ⟨(m.raw &&& 0xF0) ||| p.raw⟩

def SocketMode.statusAfterOpen (m : SocketMode) : SocketStatus :=
  if m.raw &&& 0x0F = Protocol.tcp.raw then .init
  else if m.raw &&& 0x0F = Protocol.udp.raw then .udp
  else if m.raw &&& 0x0F = Protocol.macraw.raw then .macraw
  else .closed

structure Ipv4Addr where
  octets : Fin 4 → UInt8
  deriving DecidableEq

def Ipv4Addr.new (a b c d : UInt8) : Ipv4Addr := ⟨![a, b, c, d]⟩

structure SocketAddrV4 where
  ip : Ipv4Addr
  port : UInt16
  deriving DecidableEq

/-- One socket's registers and buffers. Buffers are indexed by the 16-bit offset the pointer
registers hold; the chip's own reduction of an offset to its buffer size is below this view. -/
structure Socket where
  mr : SocketMode
  sr : SocketStatus
  port : UInt16
  dest : SocketAddrV4
  txFsr : UInt16
  txWr : UInt16
  rxRsr : UInt16
  rxRd : UInt16
  txBuf : UInt16 → UInt8
  rxBuf : UInt16 → UInt8
  -- `Sn_TXBUF_SIZE` in bytes: what `Sn_TX_FSR` shows when nothing is queued
  txSize : UInt16

abbrev Chip := Sn → Socket

def Socket.exec (s : Socket) : SocketCommand → Socket
  | .close => { s with sr := .closed, rxRsr := 0, txFsr := s.txSize }
  | .«open» => { s with sr := s.mr.statusAfterOpen }
  | .send | .recv => s

def writeRing (ring : UInt16 → UInt8) (ptr : UInt16) : List UInt8 → UInt16 → UInt8
  | [] => ring
  | b :: bs => writeRing (Function.update ring ptr b) (ptr + 1) bs

inductive Reg where
  | mr
  | sr
  | port
  | dest
  | txFsr
  | txWr
  | rxRsr
  | rxRd
  deriving DecidableEq, Repr

inductive Access where
  | read (sn : Sn) (reg : Reg)
  | write (sn : Sn) (reg : Reg)
  | command (sn : Sn) (cmd : SocketCommand)
  | rxBuf (sn : Sn) (ptr : UInt16) (len : Nat)
  | txBuf (sn : Sn) (ptr : UInt16) (len : Nat)
  deriving DecidableEq, Repr

def Access.sn : Access → Sn
  | .read sn _ | .write sn _ | .command sn _ | .rxBuf sn _ _ | .txBuf sn _ _ => sn

def Access.IsRead : Access → Prop
  | .read _ _ | .rxBuf _ _ _ => True
  | _ => False

structure Outcome (α : Type) where
  value : α
  chip : Chip
  trace : List Access

def Outcome.prepend {α} (t : List Access) (o : Outcome α) : Outcome α :=
  ⟨o.value, o.chip, t ++ o.trace⟩

/-- A driver computation: from the chip to its value, the chip after it, and its accesses. -/
def Bus (α : Type) : Type := Chip → Outcome α

instance : Monad Bus where
  pure a c := ⟨a, c, []⟩
  bind x f c := (f (x c).value (x c).chip).prepend (x c).trace

@[simp] theorem Bus.pure_apply {α} (a : α) (c : Chip) :
    (pure a : Bus α) c = ⟨a, c, []⟩ := rfl

@[simp] theorem Bus.bind_apply {α β} (x : Bus α) (f : α → Bus β) (c : Chip) :
    (x >>= f) c = (f (x c).value (x c).chip).prepend (x c).trace := rfl

@[simp] theorem Outcome.prepend_mk {α} (t t' : List Access) (a : α) (c : Chip) :
    Outcome.prepend t ⟨a, c, t'⟩ = ⟨a, c, t ++ t'⟩ := rfl

@[simp] theorem Outcome.prepend_value {α} (t : List Access) (o : Outcome α) :
    (o.prepend t).value = o.value := rfl

@[simp] theorem Outcome.prepend_chip {α} (t : List Access) (o : Outcome α) :
    (o.prepend t).chip = o.chip := rfl

@[simp] theorem Outcome.prepend_trace {α} (t : List Access) (o : Outcome α) :
    (o.prepend t).trace = t ++ o.trace := rfl

/-! ## The register accesses `udp.rs` makes -/

def readReg {α} (sn : Sn) (reg : Reg) (get : Socket → α) : Bus α :=
  fun c => ⟨get (c sn), c, [.read sn reg]⟩

def writeReg (sn : Sn) (reg : Reg) (set : Socket → Socket) : Bus Unit :=
  fun c => ⟨(), Function.update c sn (set (c sn)), [.write sn reg]⟩

def snSr (sn : Sn) : Bus SocketStatus := readReg sn .sr Socket.sr
def snTxFsr (sn : Sn) : Bus UInt16 := readReg sn .txFsr Socket.txFsr
def snTxWr (sn : Sn) : Bus UInt16 := readReg sn .txWr Socket.txWr
def snRxRsr (sn : Sn) : Bus UInt16 := readReg sn .rxRsr Socket.rxRsr
def snRxRd (sn : Sn) : Bus UInt16 := readReg sn .rxRd Socket.rxRd

def setSnMr (sn : Sn) (mode : SocketMode) : Bus Unit :=
  writeReg sn .mr fun s => { s with mr := mode }
def setSnPort (sn : Sn) (port : UInt16) : Bus Unit :=
  writeReg sn .port fun s => { s with port := port }
def setSnDest (sn : Sn) (addr : SocketAddrV4) : Bus Unit :=
  writeReg sn .dest fun s => { s with dest := addr }
def setSnTxWr (sn : Sn) (ptr : UInt16) : Bus Unit :=
  writeReg sn .txWr fun s => { s with txWr := ptr }
def setSnRxRd (sn : Sn) (ptr : UInt16) : Bus Unit :=
  writeReg sn .rxRd fun s => { s with rxRd := ptr }

def setSnCr (sn : Sn) (cmd : SocketCommand) : Bus Unit :=
  fun c => ⟨(), Function.update c sn ((c sn).exec cmd), [.command sn cmd]⟩

/-- `sn_rx_buf`: fills a slice of `n` bytes from the receive buffer at `ptr`. -/
def snRxBuf (sn : Sn) (ptr : UInt16) (n : Nat) : Bus (Fin n → UInt8) :=
  fun c => ⟨fun i => (c sn).rxBuf (ptr + UInt16.ofNat i), c, [.rxBuf sn ptr n]⟩

/-- `set_sn_tx_buf`: writes a slice into the transmit buffer at `ptr`. -/
def setSnTxBuf (sn : Sn) (ptr : UInt16) (data : List UInt8) : Bus Unit :=
  fun c => ⟨(), Function.update c sn { c sn with txBuf := writeRing (c sn).txBuf ptr data },
    [.txBuf sn ptr data.length]⟩

@[simp] theorem readReg_apply {α} (sn : Sn) (reg : Reg) (get : Socket → α) (c : Chip) :
    readReg sn reg get c = ⟨get (c sn), c, [.read sn reg]⟩ := rfl

@[simp] theorem writeReg_apply (sn : Sn) (reg : Reg) (set : Socket → Socket) (c : Chip) :
    writeReg sn reg set c = ⟨(), Function.update c sn (set (c sn)), [.write sn reg]⟩ := rfl

@[simp] theorem setSnCr_apply (sn : Sn) (cmd : SocketCommand) (c : Chip) :
    setSnCr sn cmd c = ⟨(), Function.update c sn ((c sn).exec cmd), [.command sn cmd]⟩ := rfl

@[simp] theorem snRxBuf_apply (sn : Sn) (ptr : UInt16) (n : Nat) (c : Chip) :
    snRxBuf sn ptr n c = ⟨fun i => (c sn).rxBuf (ptr + UInt16.ofNat i), c, [.rxBuf sn ptr n]⟩ :=
  rfl

@[simp] theorem setSnTxBuf_apply (sn : Sn) (ptr : UInt16) (data : List UInt8) (c : Chip) :
    setSnTxBuf sn ptr data c = ⟨(), Function.update c sn
      { c sn with txBuf := writeRing (c sn).txBuf ptr data }, [.txBuf sn ptr data.length]⟩ := rfl

/-! ## Byte writes into a ring -/

private theorem sub_succ_toNat (a p : UInt16) :
    (a - (p + 1)).toNat = if a = p then 65535 else (a - p).toNat - 1 := by
  have := u16_toNat_lt a
  have := u16_toNat_lt p
  simp only [u16_eq_iff, u16_toNat_sub, u16_toNat_add, u16_toNat_one]
  split <;> omega

theorem writeRing_apply (ring : UInt16 → UInt8) (ptr : UInt16) (data : List UInt8)
    (h : data.length ≤ 65536) (a : UInt16) :
    writeRing ring ptr data a =
      if (a - ptr).toNat < data.length then data.getD (a - ptr).toNat 0 else ring a := by
  induction data generalizing ring ptr with
  | nil => simp [writeRing]
  | cons b bs ih =>
    simp only [writeRing, List.length_cons] at h ⊢
    rw [ih _ _ (by omega), sub_succ_toNat]
    by_cases hp : a = ptr
    · subst a; simp; omega
    · have hk : (a - ptr).toNat ≠ 0 := fun h0 => hp (by
        rw [u16_eq_iff]; simp only [u16_toNat_sub] at h0
        have := u16_toNat_lt a; have := u16_toNat_lt ptr; omega)
      simp only [hp, if_false, Function.update_noteq hp]
      obtain ⟨k, hk'⟩ : ∃ k, (a - ptr).toNat = k + 1 :=
        ⟨_, (Nat.succ_pred_eq_of_ne_zero hk).symm⟩
      simp [hk']

theorem writeRing_of_le (ring : UInt16 → UInt8) (ptr : UInt16) (data : List UInt8)
    (h : data.length ≤ 65536) {a : UInt16} (ha : data.length ≤ (a - ptr).toNat) :
    writeRing ring ptr data a = ring a := by
  rw [writeRing_apply ring ptr data h, if_neg (by omega)]

end W5500Udp
