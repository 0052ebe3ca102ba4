import W5500Udp.Independence

/-! # The two halves of a socket

A socket's receive half is `Sn_RX_RSR`, `Sn_RX_RD` and the receive buffer; its transmit half is
`Sn_TX_FSR`, `Sn_TX_WR`, the transmit buffer and the destination. Every receive method reads and
writes the receive half of its socket only, and every send method the transmit half: what it
returns and leaves in its half depends on that half alone, and it leaves the other half, the
mode, status and port registers, the buffer size and the other sockets as they were. So a
receive call and a send call commute, on one socket as on two: a task that receives and a task
that sends may interleave their calls in any order. -/
namespace W5500Udp

variable {E α β : Type}

def Socket.rx (s : Socket) : UInt16 × UInt16 × (UInt16 → UInt8) := (s.rxRsr, s.rxRd, s.rxBuf)

def Socket.tx (s : Socket) : UInt16 × UInt16 × (UInt16 → UInt8) × SocketAddrV4 :=
  (s.txFsr, s.txWr, s.txBuf, s.dest)

/-- The registers in neither half: those `udp_bind` programs, and the transmit buffer's size. -/
def Socket.rest (s : Socket) : SocketMode × SocketStatus × UInt16 × UInt16 :=
  (s.mr, s.sr, s.port, s.txSize)

theorem Socket.ext_halves {s t : Socket} (hrx : s.rx = t.rx) (htx : s.tx = t.tx)
    (hr : s.rest = t.rest) : s = t := by
  simp only [Socket.rx, Socket.tx, Socket.rest, Prod.mk.injEq] at hrx htx hr
  cases s; cases t
  simp_all

section Halves

variable {H K : Type} {half : Socket → H} {other : Socket → K} {sn : Sn}

/-- `x` works on socket `sn` through `half` only: it leaves the other sockets, `other` and the
bind registers as they were, and what it returns and leaves in `half` depends on `half`
alone. -/
structure OnHalf (half : Socket → H) (other : Socket → K) (sn : Sn) (x : Bus α) : Prop where
  frame : ∀ c sn', sn' ≠ sn → (x c).chip sn' = c sn'
  other : ∀ c, other ((x c).chip sn) = other (c sn)
  rest : ∀ c, ((x c).chip sn).rest = (c sn).rest
  depends : ∀ c c', half (c sn) = half (c' sn) →
    (x c).value = (x c').value ∧ half ((x c).chip sn) = half ((x c').chip sn)

namespace OnHalf

theorem pure (a : α) : OnHalf half other sn (Pure.pure a : Bus α) :=
  ⟨fun _ _ _ => rfl, fun _ => rfl, fun _ => rfl, fun _ _ h => ⟨rfl, h⟩⟩

theorem bind_of {x : Bus α} {f : α → Bus β} (P : α → Prop) (hx : OnHalf half other sn x)
    (hP : ∀ c, P (x c).value) (hf : ∀ a, P a → OnHalf half other sn (f a)) :
    OnHalf half other sn (x >>= f) where
  frame c sn' h := by
    simp only [Bus.bind_apply, Outcome.prepend_chip]
    rw [(hf _ (hP c)).frame _ sn' h, hx.frame c sn' h]
  other c := by
    simp only [Bus.bind_apply, Outcome.prepend_chip]
    rw [(hf _ (hP c)).other, hx.other]
  rest c := by
    simp only [Bus.bind_apply, Outcome.prepend_chip]
    rw [(hf _ (hP c)).rest, hx.rest]
  depends c c' h := by
    obtain ⟨hv, hs⟩ := hx.depends c c' h
    simp only [Bus.bind_apply, Outcome.prepend_value, Outcome.prepend_chip, hv]
    exact (hf _ (hv ▸ hP c)).depends _ _ hs

theorem bind {x : Bus α} {f : α → Bus β} (hx : OnHalf half other sn x)
    (hf : ∀ a, OnHalf half other sn (f a)) : OnHalf half other sn (x >>= f) :=
  hx.bind_of (fun _ => True) (fun _ => trivial) fun a _ => hf a

theorem ite {p : Prop} [Decidable p] {x y : Bus α} (hx : OnHalf half other sn x)
    (hy : OnHalf half other sn y) : OnHalf half other sn (if p then x else y) := by
  split <;> assumption

end OnHalf

theorem readReg_onHalf {reg : Reg} {get : Socket → α}
    (hg : ∀ s t : Socket, half s = half t → get s = get t) :
    OnHalf half other sn (readReg sn reg get) :=
  ⟨fun _ _ _ => rfl, fun _ => rfl, fun _ => rfl, fun _ _ h => ⟨hg _ _ h, h⟩⟩

theorem writeReg_onHalf {reg : Reg} {set : Socket → Socket} (ho : ∀ s, other (set s) = other s)
    (hr : ∀ s, (set s).rest = s.rest)
    (hh : ∀ s t : Socket, half s = half t → half (set s) = half (set t)) :
    OnHalf half other sn (writeReg sn reg set) :=
  ⟨fun _ _ h => by simp [h], fun _ => by simp [ho], fun _ => by simp [hr],
    fun _ _ h => ⟨rfl, by simpa using hh _ _ h⟩⟩

theorem setSnCr_onHalf {cmd : SocketCommand} (hcmd : ∀ s : Socket, s.exec cmd = s) :
    OnHalf half other sn (setSnCr sn cmd) :=
  ⟨fun _ _ h => by simp [h], fun _ => by simp [hcmd], fun _ => by simp [hcmd],
    fun _ _ h => ⟨rfl, by simpa [hcmd] using h⟩⟩

end Halves

/-! ## The receive half -/

section Receive

variable {sn : Sn}

theorem snRxRsr_onRx : OnHalf Socket.rx Socket.tx sn (snRxRsr sn) :=
  readReg_onHalf fun _ _ h => congrArg Prod.fst h

theorem snRxRd_onRx : OnHalf Socket.rx Socket.tx sn (snRxRd sn) :=
  readReg_onHalf fun _ _ h => congrArg (fun r => r.2.1) h

theorem snRxBuf_onRx (ptr : UInt16) (n : Nat) : OnHalf Socket.rx Socket.tx sn (snRxBuf sn ptr n) :=
  ⟨fun _ _ _ => rfl, fun _ => rfl, fun _ => rfl, fun c c' h => ⟨by
    have hb : (c sn).rxBuf = (c' sn).rxBuf := congrArg (fun r => r.2.2) h
    simp only [snRxBuf_apply, hb], h⟩⟩

theorem setSnRxRd_onRx (ptr : UInt16) : OnHalf Socket.rx Socket.tx sn (setSnRxRd sn ptr) :=
  writeReg_onHalf (fun _ => rfl) (fun _ => rfl) fun _ _ h => by simp_all [Socket.rx]

theorem setSnCr_recv_onRx : OnHalf Socket.rx Socket.tx sn (setSnCr sn .recv) :=
  setSnCr_onHalf fun _ => rfl

theorem TcpReader.read_onRx (r : TcpReader) (buf : List UInt8) :
    OnHalf Socket.rx Socket.tx r.sn (r.read buf) := by
  unfold TcpReader.read
  exact .ite ((snRxBuf_onRx _ _).bind fun _ => .pure _) (.pure _)

theorem TcpReader.readExact_onRx (r : TcpReader) (buf : List UInt8) :
    OnHalf Socket.rx Socket.tx r.sn (r.readExact (E := E) buf) := by
  unfold TcpReader.readExact
  exact .ite (.pure _) ((snRxBuf_onRx _ _).bind fun _ => .pure _)

theorem ReaderProg.run_onRx (p : ReaderProg E α) :
    ∀ r : UdpReader, r.inner.sn = sn → OnHalf Socket.rx Socket.tx sn (p.run r) := by
  induction p with
  | pure a => exact fun _ _ => .pure _
  | read buf k ih =>
    refine fun r hr => OnHalf.bind_of (fun res => res.2.inner.sn = sn)
      (hr ▸ (TcpReader.read_onRx r.inner buf).bind fun _ => .pure _)
      (fun c => (TcpReader.read_sn r.inner buf c).trans hr) fun res h => ih res.1 res.2 h
  | readExact buf k ih =>
    refine fun r hr => OnHalf.bind_of (fun res => res.2.inner.sn = sn)
      (hr ▸ (TcpReader.readExact_onRx r.inner buf).bind fun _ => .pure _)
      (fun c => (TcpReader.readExact_sn r.inner buf c).trans hr) fun res h => ih res.1 res.2 h
  | seek pos k ih =>
    intro r hr
    simp only [ReaderProg.run]
    split
    · next r' h => exact ih _ r' ((UdpReader.seek_sn h).trans hr)
    · exact ih _ r hr
  | rewind k ih => exact fun r => ih r.rewind
  | unread k ih => exact fun r => ih r.unread
  | streamLen k ih | streamPosition k ih | remain k ih | isUnread k ih | header k ih =>
    exact fun r => ih _ r

end Receive

/-! ## The transmit half -/

section Transmit

variable {sn : Sn}

theorem snTxFsr_onTx : OnHalf Socket.tx Socket.rx sn (snTxFsr sn) :=
  readReg_onHalf fun _ _ h => congrArg Prod.fst h

theorem snTxWr_onTx : OnHalf Socket.tx Socket.rx sn (snTxWr sn) :=
  readReg_onHalf fun _ _ h => congrArg (fun t => t.2.1) h

theorem setSnTxWr_onTx (ptr : UInt16) : OnHalf Socket.tx Socket.rx sn (setSnTxWr sn ptr) :=
  writeReg_onHalf (fun _ => rfl) (fun _ => rfl) fun _ _ h => by simp_all [Socket.tx]

theorem setSnDest_onTx (addr : SocketAddrV4) : OnHalf Socket.tx Socket.rx sn (setSnDest sn addr) :=
  writeReg_onHalf (fun _ => rfl) (fun _ => rfl) fun _ _ h => by simp_all [Socket.tx]

theorem setSnTxBuf_onTx (ptr : UInt16) (data : List UInt8) :
    OnHalf Socket.tx Socket.rx sn (setSnTxBuf sn ptr data) :=
  ⟨fun _ _ h => by simp [h], fun _ => by simp [Socket.rx], fun _ => by simp [Socket.rest],
    fun _ _ h => ⟨rfl, by
      simp only [Socket.tx, Prod.mk.injEq, setSnTxBuf_apply, Function.update_same] at h ⊢
      exact ⟨h.1, h.2.1, by rw [h.2.2.1], h.2.2.2⟩⟩⟩

theorem setSnCr_send_onTx : OnHalf Socket.tx Socket.rx sn (setSnCr sn .send) :=
  setSnCr_onHalf fun _ => rfl

theorem Writer.write_onTx (w : Writer) (buf : List UInt8) :
    OnHalf Socket.tx Socket.rx w.sn (w.write buf) := by
  unfold Writer.write
  exact .ite ((setSnTxBuf_onTx _ _).bind fun _ => .pure _) (.pure _)

theorem Writer.writeAll_onTx (w : Writer) (buf : List UInt8) :
    OnHalf Socket.tx Socket.rx w.sn (w.writeAll (E := E) buf) := by
  unfold Writer.writeAll
  exact .ite (.pure _) ((setSnTxBuf_onTx _ _).bind fun _ => .pure _)

theorem WriterProg.run_onTx (p : WriterProg E α) :
    ∀ w : Writer, w.sn = sn → OnHalf Socket.tx Socket.rx sn (p.run w) := by
  induction p with
  | pure a => exact fun _ _ => .pure _
  | write buf k ih =>
    exact fun w hw => OnHalf.bind_of (fun res => res.2.sn = sn) (hw ▸ w.write_onTx buf)
      (fun c => (w.write_sn buf c).trans hw) fun res h => ih res.1 res.2 h
  | writeAll buf k ih =>
    exact fun w hw => OnHalf.bind_of (fun res => res.2.sn = sn) (hw ▸ w.writeAll_onTx buf)
      (fun c => (w.writeAll_sn buf c).trans hw) fun res h => ih res.1 res.2 h
  | abort k ih => exact fun w => ih { w with abort := true }
  | streamLen k ih | streamPosition k ih | remain k ih => exact fun w => ih _ w

end Transmit

/-! ## Receive and send calls commute -/

theorem OnHalf.commute {sn : Sn} {x : Bus α} {y : Bus β} (hx : OnHalf Socket.rx Socket.tx sn x)
    (hy : OnHalf Socket.tx Socket.rx sn y) (c : Chip) :
    (Bus.pair x y c).value = (Bus.pair y x c).value.swap ∧
      (Bus.pair x y c).chip = (Bus.pair y x c).chip := by
  have hy' := hy.depends _ c (hx.other c)
  have hx' := hx.depends _ c (hy.other c)
  simp only [Bus.pair, Bus.bind_apply, Bus.pure_apply, Outcome.prepend_value,
    Outcome.prepend_chip, Prod.swap_prod_mk, hx'.1, hy'.1, true_and]
  funext s
  by_cases h : s = sn
  · subst h
    refine Socket.ext_halves ?_ ?_ ?_
    · rw [hy.other, hx'.2]
    · rw [hy'.2, hx.other]
    · simp only [hx.rest, hy.rest]
  · rw [hy.frame _ _ h, hx.frame _ _ h, hx.frame _ _ h, hy.frame _ _ h]

namespace UdpCall

def isRecv : UdpCall E → Bool
  | recvFrom .. | peekFrom .. | peekFromHeader .. | reader .. => true
  | _ => false

def isSend : UdpCall E → Bool
  | send .. | sendIfFree .. | sendTo .. | sendToIfFree .. | writer .. | writerTo .. => true
  | _ => false

theorem run_onRx (op : UdpCall E) (h : op.isRecv = true) :
    OnHalf Socket.rx Socket.tx op.sn op.run := by
  cases op <;> simp only [isRecv, Bool.false_eq_true] at h <;>
    dsimp only [run, sn, udpRecvFrom, udpPeekFrom, udpPeekFromHeader, udpReader] <;>
    repeat' first
      | with_reducible exact .pure _ | with_reducible exact snRxRsr_onRx
      | with_reducible exact snRxRd_onRx | with_reducible exact snRxBuf_onRx _ _
      | with_reducible exact setSnRxRd_onRx _ | with_reducible exact setSnCr_recv_onRx
      | with_reducible exact ReaderProg.run_onRx _ _ rfl
      | with_reducible refine OnHalf.bind ?_ fun _ => ?_ | with_reducible refine OnHalf.ite ?_ ?_
      | split

theorem run_onTx (op : UdpCall E) (h : op.isSend = true) :
    OnHalf Socket.tx Socket.rx op.sn op.run := by
  cases op <;> simp only [isSend, Bool.false_eq_true] at h <;>
    dsimp only [run, sn, udpSend, udpSendIfFree, udpSendTo, udpSendToIfFree, udpWriter,
      udpWriterTo] <;>
    repeat' first
      | with_reducible exact .pure _ | with_reducible exact snTxFsr_onTx
      | with_reducible exact snTxWr_onTx | with_reducible exact setSnTxBuf_onTx _ _
      | with_reducible exact setSnTxWr_onTx _ | with_reducible exact setSnDest_onTx _
      | with_reducible exact setSnCr_send_onTx
      | with_reducible exact WriterProg.run_onTx _ _ rfl
      | with_reducible refine OnHalf.bind ?_ fun _ => ?_ | with_reducible refine OnHalf.ite ?_ ?_
      | split

end UdpCall

/-- A receive call and a send call commute, on one socket as on two: whichever runs first, the
two return the same results and leave the same chip, whatever the buffers, addresses and
bodies. -/
theorem receive_and_send_calls_commute (op op' : UdpCall E) (hr : op.isRecv = true)
    (hs : op'.isSend = true) (c : Chip) :
    (Bus.pair op.run op'.run c).value = (Bus.pair op'.run op.run c).value.swap ∧
      (Bus.pair op.run op'.run c).chip = (Bus.pair op'.run op.run c).chip := by
  rcases eq_or_ne op.sn op'.sn with h | h
  · exact (op.run_onRx hr).commute (h ▸ op'.run_onTx hs) c
  · exact (UdpCall.run_local op).commute (UdpCall.run_local op') h c

/-- A receive and a send on socket 0 commute. -/
theorem recv_and_send_on_one_socket_commute :
    (UdpCall.recvFrom (E := Unit) 0 []).isRecv = true ∧
      (UdpCall.send (E := Unit) 0 [7]).isSend = true ∧
      (Bus.pair (UdpCall.recvFrom (E := Unit) 0 []).run (UdpCall.send (E := Unit) 0 [7]).run
          (fun _ => idleSocket 5)).value =
        (Bus.pair (UdpCall.send (E := Unit) 0 [7]).run (UdpCall.recvFrom (E := Unit) 0 []).run
          (fun _ => idleSocket 5)).value.swap ∧
      (Bus.pair (UdpCall.recvFrom (E := Unit) 0 []).run (UdpCall.send (E := Unit) 0 [7]).run
          (fun _ => idleSocket 5)).chip =
        (Bus.pair (UdpCall.send (E := Unit) 0 [7]).run (UdpCall.recvFrom (E := Unit) 0 []).run
          (fun _ => idleSocket 5)).chip :=
  ⟨rfl, rfl, receive_and_send_calls_commute (.recvFrom 0 []) (.send 0 [7]) rfl rfl _⟩

end W5500Udp
