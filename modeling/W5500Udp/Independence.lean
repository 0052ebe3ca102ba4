import W5500Udp.Send

/-! # Sockets are independent

Every method of `Udp` takes the socket `sn` it works on and addresses only `sn`'s registers and
buffers. `Local sn x` says so of a bus computation: the other sockets are left as they were,
what it returns and what it leaves in `sn` depend on `sn` alone, and every access names `sn`.
The primitives are local, `pure`, `bind` and branching keep locality, so every method is local,
whatever body a reader or writer scope runs. Two local computations on distinct sockets then
commute: either order returns the same results and leaves the same chip. -/
namespace W5500Udp

variable {E T α β : Type}

section Locality

variable {sn : Sn}

/-- `x` works on socket `sn` only. -/
structure Local (sn : Sn) (x : Bus α) : Prop where
  frame : ∀ c sn', sn' ≠ sn → (x c).chip sn' = c sn'
  depends : ∀ c c', c sn = c' sn → (x c).value = (x c').value ∧ (x c).chip sn = (x c').chip sn
  names : ∀ c, ∀ a ∈ (x c).trace, a.sn = sn

namespace Local

theorem pure (a : α) : Local sn (Pure.pure a : Bus α) :=
  ⟨fun _ _ _ => rfl, fun _ _ h => ⟨rfl, h⟩, fun _ _ h => nomatch h⟩

theorem bind_of {x : Bus α} {f : α → Bus β} (P : α → Prop) (hx : Local sn x)
    (hP : ∀ c, P (x c).value) (hf : ∀ a, P a → Local sn (f a)) : Local sn (x >>= f) where
  frame c sn' h := by
    simp only [Bus.bind_apply, Outcome.prepend_chip]
    rw [(hf _ (hP c)).frame _ sn' h, hx.frame c sn' h]
  depends c c' h := by
    obtain ⟨hv, hs⟩ := hx.depends c c' h
    simp only [Bus.bind_apply, Outcome.prepend_value, Outcome.prepend_chip, hv]
    exact (hf _ (hv ▸ hP c)).depends _ _ hs
  names c a ha := by
    simp only [Bus.bind_apply, Outcome.prepend_trace, List.mem_append] at ha
    exact ha.elim (hx.names c a) ((hf _ (hP c)).names _ a)

theorem bind {x : Bus α} {f : α → Bus β} (hx : Local sn x) (hf : ∀ a, Local sn (f a)) :
    Local sn (x >>= f) :=
  hx.bind_of (fun _ => True) (fun _ => trivial) fun a _ => hf a

theorem ite {p : Prop} [Decidable p] {x y : Bus α} (hx : Local sn x) (hy : Local sn y) :
    Local sn (if p then x else y) := by
  split <;> assumption

end Local

/-! ## The register and buffer primitives -/

theorem readReg_local (reg : Reg) (get : Socket → α) : Local sn (readReg sn reg get) :=
  ⟨fun _ _ _ => rfl, fun _ _ h => by simp [h], fun _ _ h => by simp_all [Access.sn]⟩

theorem writeReg_local (reg : Reg) (set : Socket → Socket) : Local sn (writeReg sn reg set) :=
  ⟨fun _ _ h => by simp [h], fun _ _ h => by simp [h], fun _ _ h => by simp_all [Access.sn]⟩

theorem setSnCr_local (cmd : SocketCommand) : Local sn (setSnCr sn cmd) :=
  ⟨fun _ _ h => by simp [h], fun _ _ h => by simp [h], fun _ _ h => by simp_all [Access.sn]⟩

theorem snRxBuf_local (ptr : UInt16) (n : Nat) : Local sn (snRxBuf sn ptr n) :=
  ⟨fun _ _ _ => rfl, fun _ _ h => by simp [h], fun _ _ h => by simp_all [Access.sn]⟩

theorem setSnTxBuf_local (ptr : UInt16) (data : List UInt8) :
    Local sn (setSnTxBuf sn ptr data) :=
  ⟨fun _ _ h => by simp [h], fun _ _ h => by simp [h], fun _ _ h => by simp_all [Access.sn]⟩

/-! ## Reader and writer bodies

A body reaches the chip only through its scope's methods, and each method keeps the scope's
socket, so by induction on the body the whole run is local to that socket. -/

theorem TcpReader.read_local (r : TcpReader) (buf : List UInt8) : Local r.sn (r.read buf) := by
  unfold TcpReader.read
  exact .ite ((snRxBuf_local _ _).bind fun _ => .pure _) (.pure _)

theorem TcpReader.read_sn (r : TcpReader) (buf : List UInt8) (c : Chip) :
    ((r.read buf c).value.2).sn = r.sn := by
  unfold TcpReader.read
  split <;> rfl

theorem TcpReader.readExact_local (r : TcpReader) (buf : List UInt8) :
    Local r.sn (r.readExact (E := E) buf) := by
  unfold TcpReader.readExact
  exact .ite (.pure _) ((snRxBuf_local _ _).bind fun _ => .pure _)

theorem TcpReader.readExact_sn (r : TcpReader) (buf : List UInt8) (c : Chip) :
    ((r.readExact (E := E) buf c).value.2).sn = r.sn := by
  unfold TcpReader.readExact
  split <;> rfl

theorem UdpReader.seek_sn {r r' : UdpReader} {pos : SeekFrom}
    (h : r.seek (E := E) pos = .ok r') :
    r'.inner.sn = r.inner.sn := by
  simp only [UdpReader.seek, TcpReader.seek] at h
  split at h
  · cases h; rfl
  · cases h

theorem ReaderProg.run_local (p : ReaderProg E α) :
    ∀ r : UdpReader, r.inner.sn = sn → Local sn (p.run r) := by
  induction p with
  | pure a => exact fun _ _ => .pure _
  | read buf k ih =>
    refine fun r hr => Local.bind_of (fun res => res.2.inner.sn = sn)
      (hr ▸ (TcpReader.read_local r.inner buf).bind fun _ => .pure _)
      (fun c => (TcpReader.read_sn r.inner buf c).trans hr) fun res h => ih res.1 res.2 h
  | readExact buf k ih =>
    refine fun r hr => Local.bind_of (fun res => res.2.inner.sn = sn)
      (hr ▸ (TcpReader.readExact_local r.inner buf).bind fun _ => .pure _)
      (fun c => (TcpReader.readExact_sn r.inner buf c).trans hr) fun res h => ih res.1 res.2 h
  | seek pos k ih =>
    intro r hr
    simp only [ReaderProg.run]
    split
    · next r' h => exact ih _ r' ((UdpReader.seek_sn h).trans hr)
    · exact ih _ r hr
  | rewind k ih => exact fun r => ih r.rewind
  | unread k ih => exact fun r => ih r.unread
  | streamLen k ih | streamPosition k ih | remain k ih | isUnread k ih | header k ih =>
    exact fun r => ih _ r

theorem Writer.write_local (w : Writer) (buf : List UInt8) : Local w.sn (w.write buf) := by
  unfold Writer.write
  exact .ite ((setSnTxBuf_local _ _).bind fun _ => .pure _) (.pure _)

theorem Writer.write_sn (w : Writer) (buf : List UInt8) (c : Chip) :
    ((w.write buf c).value.2).sn = w.sn := by
  unfold Writer.write
  split <;> rfl

theorem Writer.writeAll_local (w : Writer) (buf : List UInt8) :
    Local w.sn (w.writeAll (E := E) buf) := by
  unfold Writer.writeAll
  exact .ite (.pure _) ((setSnTxBuf_local _ _).bind fun _ => .pure _)

theorem Writer.writeAll_sn (w : Writer) (buf : List UInt8) (c : Chip) :
    ((w.writeAll (E := E) buf c).value.2).sn = w.sn := by
  unfold Writer.writeAll
  split <;> rfl

theorem WriterProg.run_local (p : WriterProg E α) :
    ∀ w : Writer, w.sn = sn → Local sn (p.run w) := by
  induction p with
  | pure a => exact fun _ _ => .pure _
  | write buf k ih =>
    exact fun w hw => Local.bind_of (fun res => res.2.sn = sn) (hw ▸ w.write_local buf)
      (fun c => (w.write_sn buf c).trans hw) fun res h => ih res.1 res.2 h
  | writeAll buf k ih =>
    exact fun w hw => Local.bind_of (fun res => res.2.sn = sn) (hw ▸ w.writeAll_local buf)
      (fun c => (w.writeAll_sn buf c).trans hw) fun res h => ih res.1 res.2 h
  | abort k ih => exact fun w => ih { w with abort := true }
  | streamLen k ih | streamPosition k ih | remain k ih => exact fun w => ih _ w

/-! ## Every method of `Udp` -/

theorem pollStatus_local (status : SocketStatus) (fuel : Nat) :
    Local sn (pollStatus sn status fuel) := by
  induction fuel with
  | zero => exact .pure _
  | succ n ih => exact (readReg_local _ _).bind fun _ => .ite (.pure _) ih

theorem udpBind_local (fuel : Nat) (port : UInt16) : Local sn (udpBind fuel sn port) := by
  unfold udpBind
  refine (setSnCr_local _).bind fun _ => (pollStatus_local _ _).bind fun _ => .ite (.pure _) ?_
  exact (Local.pure _).bind fun _ => (writeReg_local _ _).bind fun _ =>
    (writeReg_local _ _).bind fun _ => (setSnCr_local _).bind fun _ => pollStatus_local _ _

end Locality

/-- One call of a method of the `Udp` trait, with its arguments; a reader or writer scope
carries its body. -/
inductive UdpCall (E : Type) : Type 1 where
  | bind (fuel : Nat) (sn : Sn) (port : UInt16)
  | recvFrom (sn : Sn) (buf : List UInt8)
  | peekFrom (sn : Sn) (buf : List UInt8)
  | peekFromHeader (sn : Sn)
  | sendTo (sn : Sn) (buf : List UInt8) (addr : SocketAddrV4)
  | sendToIfFree (sn : Sn) (buf : List UInt8) (addr : SocketAddrV4)
  | send (sn : Sn) (buf : List UInt8)
  | sendIfFree (sn : Sn) (buf : List UInt8)
  | reader {T : Type} (sn : Sn) (f : ReaderProg E (Except (Error E) T))
  | writer {T : Type} (sn : Sn) (f : WriterProg E (Except (Error E) T))
  | writerTo {T : Type} (sn : Sn) (addr : SocketAddrV4) (f : WriterProg E (Except (Error E) T))

namespace UdpCall

def sn : UdpCall E → Sn
  | bind _ sn _ | recvFrom sn _ | peekFrom sn _ | peekFromHeader sn | sendTo sn _ _
  | sendToIfFree sn _ _ | send sn _ | sendIfFree sn _ | reader sn _ | writer sn _
  | writerTo sn _ _ => sn

def Result : UdpCall E → Type
  | bind .. => Bool
  | recvFrom .. => Except (Error E) (UInt16 × SocketAddrV4) × List UInt8
  | peekFrom .. => Except (Error E) (UInt16 × UdpHeader) × List UInt8
  | peekFromHeader .. => Except (Error E) UdpHeader
  | sendTo .. | sendToIfFree .. | send .. | sendIfFree .. => UInt16
  | @reader _ T .. | @writer _ T .. | @writerTo _ T .. => Except (Error E) T

def run : (op : UdpCall E) → Bus op.Result
  | bind fuel sn port => udpBind fuel sn port
  | recvFrom sn buf => udpRecvFrom sn buf
  | peekFrom sn buf => udpPeekFrom sn buf
  | peekFromHeader sn => udpPeekFromHeader sn
  | sendTo sn buf addr => udpSendTo sn buf addr
  | sendToIfFree sn buf addr => udpSendToIfFree sn buf addr
  | send sn buf => udpSend sn buf
  | sendIfFree sn buf => udpSendIfFree sn buf
  | reader sn f => udpReader sn f
  | writer sn f => udpWriter sn f
  | writerTo sn addr f => udpWriterTo sn addr f

/-- Every method is local to the socket it is called on: each is built from primitives on that
socket by `bind` and branching. -/
theorem run_local (op : UdpCall E) : Local op.sn op.run := by
  cases op with
  | bind fuel sn port => exact udpBind_local fuel port
  | _ =>
    dsimp only [run, sn, udpRecvFrom, udpPeekFrom, udpPeekFromHeader, udpSendTo, udpSendToIfFree,
      udpSend, udpSendIfFree, udpReader, udpWriter, udpWriterTo, snTxFsr, snTxWr, snRxRsr, snRxRd,
      setSnDest, setSnTxWr, setSnRxRd]
    repeat' first
      | with_reducible exact .pure _ | with_reducible exact readReg_local _ _
      | with_reducible exact writeReg_local _ _ | with_reducible exact setSnCr_local _
      | with_reducible exact snRxBuf_local _ _ | with_reducible exact setSnTxBuf_local _ _
      | with_reducible exact ReaderProg.run_local _ _ rfl
      | with_reducible exact WriterProg.run_local _ _ rfl
      | with_reducible refine Local.bind ?_ fun _ => ?_
      | with_reducible refine Local.ite ?_ ?_ | split

end UdpCall

/-! ## Calls on distinct sockets commute -/

def Bus.pair (x : Bus α) (y : Bus β) : Bus (α × β) := do
  let a ← x
  let b ← y
  return (a, b)

theorem Local.commute {sn sn' : Sn} {x : Bus α} {y : Bus β} (hx : Local sn x) (hy : Local sn' y)
    (hne : sn ≠ sn') (c : Chip) :
    (Bus.pair x y c).value = (Bus.pair y x c).value.swap ∧
      (Bus.pair x y c).chip = (Bus.pair y x c).chip := by
  have hy' := hy.depends _ c (hx.frame c sn' hne.symm)
  have hx' := hx.depends _ c (hy.frame c sn hne)
  simp only [Bus.pair, Bus.bind_apply, Bus.pure_apply, Outcome.prepend_value,
    Outcome.prepend_chip, Prod.swap_prod_mk, hx'.1, hy'.1, true_and]
  funext s
  by_cases h : s = sn
  · subst h; rw [hy.frame _ _ hne, hx'.2]
  by_cases h' : s = sn'
  · subst h'; rw [hx.frame _ _ h, hy'.2]
  · rw [hy.frame _ _ h', hx.frame _ _ h, hx.frame _ _ h, hy.frame _ _ h']

theorem udp_calls_on_distinct_sockets_commute :
    (∀ op : UdpCall E, Local op.sn op.run) ∧
    ∀ op op' : UdpCall E, op.sn ≠ op'.sn → ∀ c : Chip,
      (Bus.pair op.run op'.run c).value = (Bus.pair op'.run op.run c).value.swap ∧
        (Bus.pair op.run op'.run c).chip = (Bus.pair op'.run op.run c).chip :=
  ⟨UdpCall.run_local, fun op op' h => (UdpCall.run_local op).commute (UdpCall.run_local op') h⟩

/-- A receive on socket 0 and a send on socket 1 commute. -/
theorem recv_on_zero_send_on_one_commute :
    (UdpCall.recvFrom (E := Unit) 0 []).sn ≠ (UdpCall.sendIfFree (E := Unit) 1 [7]).sn ∧
      (Bus.pair (UdpCall.recvFrom (E := Unit) 0 []).run (UdpCall.sendIfFree (E := Unit) 1 [7]).run
          (fun _ => idleSocket 5)).value =
        (Bus.pair (UdpCall.sendIfFree (E := Unit) 1 [7]).run (UdpCall.recvFrom (E := Unit) 0 []).run
          (fun _ => idleSocket 5)).value.swap ∧
      (Bus.pair (UdpCall.recvFrom (E := Unit) 0 []).run (UdpCall.sendIfFree (E := Unit) 1 [7]).run
          (fun _ => idleSocket 5)).chip =
        (Bus.pair (UdpCall.sendIfFree (E := Unit) 1 [7]).run (UdpCall.recvFrom (E := Unit) 0 []).run
          (fun _ => idleSocket 5)).chip :=
  ⟨by decide, udp_calls_on_distinct_sockets_commute.2 _ _ (by decide) _⟩

end W5500Udp
