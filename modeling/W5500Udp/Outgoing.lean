import W5500Udp.Transmit
import W5500Udp.Halves

/-! # Outgoing datagrams

On `Send` the chip transmits the bytes from its own read pointer up to `Sn_TX_WR` as one datagram,
and moves its read pointer there. No method moves `Sn_TX_WR` without issuing `Send` after it, so
the chip's read pointer never lags: every datagram it sends is exactly the payload of the one
call that issued the `Send` (the first `min(len, u16::MAX, Sn_TX_FSR)` bytes for `udp_send`, the
whole buffer for `udp_send_if_free`, what the body wrote for a writer scope), and bytes a call
writes without committing, as an aborted writer's, are never sent. -/
namespace W5500Udp

variable {E T : Type}

namespace UdpCall

def sendsOn (sn : Sn) (op : UdpCall E) (c : Chip) : Bool :=
  decide (Access.command sn .send ∈ (op.run c).trace)

end UdpCall

theorem writerExit_sends {sn : Sn} {dest : Option SocketAddrV4}
    {o : Outcome (Except (Error E) T × Writer)} (h : (o.value.1.isOk && !o.value.2.abort) = true) :
    Access.command sn .send ∈ (writerExit sn dest o).trace := by
  unfold writerExit
  split
  · rename_i e he; simp [he, Except.isOk, Except.toBool] at h
  · rename_i v hv
    simp only [hv, Except.isOk, Except.toBool, Bool.true_and, Bool.not_eq_true'] at h
    simp [h]

theorem writerExit_txWr_of_not_sends {sn : Sn} {dest : Option SocketAddrV4}
    {f : WriterProg E (Except (Error E) T)} {c : Chip}
    (h : Access.command sn .send ∉ (writerExit sn dest (f.run (openWriter sn (c sn)) c)).trace) :
    ((writerExit sn dest (f.run (openWriter sn (c sn)) c)).chip sn).txWr = (c sn).txWr := by
  rw [writerExit_txWr, if_neg (mt writerExit_sends h), (writer_body_tx_only sn f c).1.apply_self]

/-- No call moves `Sn_TX_WR` of a socket without issuing `Send` on it. -/
theorem txWr_moves_only_with_send (op : UdpCall E) {sn : Sn}
    (hb : op.sn = sn → op.isBind = false) (c : Chip) (h : op.sendsOn sn c = false) :
    ((op.run c).chip sn).txWr = (c sn).txWr := by
  rcases eq_or_ne op.sn sn with hs | hs
  · subst hs
    cases hr : op.isRecv
    · cases op <;> simp only [UdpCall.isRecv, UdpCall.sendsOn, UdpCall.sn, UdpCall.run,
        decide_eq_false_iff_not, Bool.true_eq_false] at hr h hb ⊢
      case bind => simp [UdpCall.isBind] at hb
      case send sn buf =>
        rw [udpSend_apply] at h ⊢
        split
        · rename_i hn; rw [if_pos hn] at h; simp [sendWrites] at h
        · rfl
      case sendTo sn buf addr =>
        rw [udpSendTo_eq, udpSend_apply] at h ⊢
        split
        · rename_i hn; rw [if_pos hn] at h; simp [sendWrites] at h
        · simp
      case sendIfFree sn buf =>
        rw [udpSendIfFree_apply] at h ⊢
        cases hn : u16TryFrom buf.length with
        | none => rfl
        | some n =>
          simp only [hn] at h ⊢
          split
          · rename_i hle; rw [if_pos hle] at h; simp [sendWrites] at h
          · rfl
      case sendToIfFree sn buf addr =>
        rw [udpSendToIfFree_eq, udpSendIfFree_apply] at h ⊢
        cases hn : u16TryFrom buf.length with
        | none => simp
        | some n =>
          simp only [hn] at h ⊢
          split
          · rename_i hle; rw [if_pos hle] at h; simp [sendWrites] at h
          · simp
      case writer T sn f =>
        rw [udpWriter_apply] at h ⊢
        simp only [Outcome.prepend_trace, List.mem_append, not_or] at h
        exact writerExit_txWr_of_not_sends h.2
      case writerTo T sn addr f =>
        rw [udpWriterTo_apply] at h ⊢
        simp only [Outcome.prepend_trace, List.mem_append, not_or] at h
        exact writerExit_txWr_of_not_sends h.2
    · exact congrArg (fun t => t.2.1) ((op.run_onRx hr).other c)
  · rw [(UdpCall.run_local op).frame c sn (Ne.symm hs)]

/-! ## Runs -/

/-- Runs in which the chip sends what it holds each time it is told to: calls of any method on
any socket but a bind of `sn`, the chip reporting any free space, and on each `Send` on `sn` the
chip sending the bytes from its read pointer `rd` up to `Sn_TX_WR` as one datagram and moving
`rd` there. `ds` are the datagrams sent, `ps` the payloads of the calls that issued `Send`, as
`queuedOn` words each method. -/
inductive SendLog (E : Type) (sn : Sn) (c : Chip) :
    Chip → UInt16 → List (List UInt8) → List (List UInt8) → Prop
  | nil : SendLog E sn c c (c sn).txWr [] []
  | send {c' : Chip} {rd : UInt16} {ds ps : List (List UInt8)} (op : UdpCall E) :
      SendLog E sn c c' rd ds ps → (op.sn = sn → op.isBind = false) →
      op.sendsOn sn c' = true →
      SendLog E sn c (op.run c').chip ((op.run c').chip sn).txWr
        (ds ++ [ringBefore ((op.run c').chip sn).txBuf ((op.run c').chip sn).txWr
          (((op.run c').chip sn).txWr - rd).toNat])
        (ps ++ [op.queuedOn sn c'])
  | keep {c' : Chip} {rd : UInt16} {ds ps : List (List UInt8)} (op : UdpCall E) :
      SendLog E sn c c' rd ds ps → (op.sn = sn → op.isBind = false) →
      op.sendsOn sn c' = false →
      SendLog E sn c (op.run c').chip rd ds ps
  | report {c' : Chip} {rd : UInt16} {ds ps : List (List UInt8)} (fsr : UInt16) :
      SendLog E sn c c' rd ds ps →
      SendLog E sn c (Function.update c' sn { c' sn with txFsr := fsr }) rd ds ps

/-- Over every run, the chip's read pointer is back at `Sn_TX_WR` after every call, and the
datagrams it sent are, one for one and in order, the payloads of the calls that issued `Send`:
`udp_send` the bytes it queued, `udp_send_if_free` the whole buffer, a writer scope what its body
wrote (an empty datagram when it wrote nothing). Calls that issue no `Send` queue nothing, so no
byte of theirs is ever sent. -/
theorem each_send_carries_its_call_payload {sn : Sn} {c c' : Chip} {rd : UInt16}
    {ds ps : List (List UInt8)} (h : SendLog E sn c c' rd ds ps) :
    ds = ps ∧ rd = (c' sn).txWr := by
  induction h with
  | nil => exact ⟨rfl, rfl⟩
  | @send c' rd ds ps op _ hb _ ih =>
    have hq := op.run_queues hb c'
    have hl : (op.queuedOn sn c').length < 65536 := by
      have := u16_toNat_lt (c' sn).txFsr; have := hq.fits; omega
    have hd := hq.ringBefore_append (by have := u16_toNat_lt (c' sn).txFsr; omega :
      0 + (c' sn).txFsr.toNat ≤ 65536)
    rw [Nat.zero_add] at hd
    have hn : (((op.run c').chip sn).txWr - (c' sn).txWr).toNat = (op.queuedOn sn c').length := by
      rw [hq.txWr, u16_sub_add_ofNat _ hl]
    refine ⟨?_, rfl⟩
    rw [ih.1, ih.2, hn, hd]
    simp [ringBefore]
  | @keep c' rd ds ps op _ hb hs ih =>
    exact ⟨ih.1, ih.2.trans (txWr_moves_only_with_send op hb c' hs).symm⟩
  | @report c' rd ds ps fsr _ ih => exact ⟨ih.1, by rw [ih.2, Function.update_same]⟩

/-- Three bytes sent on socket 0 of an idle chip, then a writer scope that writes a byte and
aborts: the chip sends one datagram, the three bytes, and never the aborted byte. -/
theorem send_then_abort_sends_one_datagram :
    ∃ c' rd ds ps, SendLog Unit 0 (fun _ => idleSocket 8) c' rd ds ps ∧
      ds = ps ∧ ps = [[1, 2, 3]] ∧ rd = (c' 0).txWr :=
  have h := SendLog.keep (E := Unit) (.writer 0 (.write [9] fun _ => .abort (.pure (.ok ()))))
    (SendLog.send (.send 0 [1, 2, 3]) .nil (fun _ => rfl) (by decide)) (fun _ => rfl) (by decide)
  ⟨_, _, _, _, h, (each_send_carries_its_call_payload h).1, by decide,
    (each_send_carries_its_call_payload h).2⟩

end W5500Udp
