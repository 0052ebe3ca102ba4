import W5500Udp.Independence
import W5500Udp.Framing
import W5500Udp.WriterStream

/-! # The transmit ring as a byte stream

The driver appends to the transmit ring at `Sn_TX_WR`; the chip sends from behind that point and
reports in `Sn_TX_FSR` the room left, so the bytes it has still to send lie just before
`Sn_TX_WR`. Every transmit method writes only into the free space and moves `Sn_TX_WR` past what
it queues. Over any interleaving of calls on every socket with the chip sending, what the chip
sent followed by what it still holds is what it held at the start followed by every byte queued:
no byte is lost, repeated, reordered or overwritten before it is sent. -/
namespace W5500Udp

variable {E T : Type}

/-- The `n` bytes of the ring before `wr`, oldest first. -/
def ringBefore (ring : UInt16 → UInt8) (wr : UInt16) (n : Nat) : List UInt8 :=
  List.ofFn fun i : Fin n => ring (wr - UInt16.ofNat n + UInt16.ofNat i)

/-- A transmit step from `s` to `s'` queued `data`: it fits in the free space and lands at
`Sn_TX_WR`, which moves past it, and no byte outside the free space changes. -/
structure Queues (s s' : Socket) (data : List UInt8) : Prop where
  fits : data.length ≤ s.txFsr.toNat
  lands : ∀ i (h : i < data.length), s'.txBuf (s.txWr + UInt16.ofNat i) = data[i]
  frame : ∀ a, s.txFsr.toNat ≤ (a - s.txWr).toNat → s'.txBuf a = s.txBuf a
  txWr : s'.txWr = s.txWr + UInt16.ofNat data.length

/-! ## The ring before the write pointer -/

section Ring

variable {ring : UInt16 → UInt8} {wr : UInt16}

@[simp] theorem ringBefore_length (ring : UInt16 → UInt8) (wr : UInt16) (n : Nat) :
    (ringBefore ring wr n).length = n :=
  List.length_ofFn _

theorem ringBefore_drop {k p : Nat} (hk : k ≤ p) :
    ringBefore ring wr (p - k) = (ringBefore ring wr p).drop k := by
  apply List.ext_getElem (by simp only [ringBefore_length, List.length_drop])
  intro i _ _
  simp only [ringBefore, List.getElem_ofFn, List.getElem_drop]
  rw [u16_sub_add_congr wr (show p - k + (k + i) = p + i by omega)]

theorem Queues.ringBefore_append {s s' : Socket} {data : List UInt8} (h : Queues s s' data)
    {p : Nat} (hp : p + s.txFsr.toNat ≤ 65536) :
    ringBefore s'.txBuf s'.txWr (p + data.length) = ringBefore s.txBuf s.txWr p ++ data := by
  have hl := h.fits
  apply List.ext_getElem (by simp only [ringBefore_length, List.length_append])
  intro i _ _
  simp only [ringBefore, List.getElem_ofFn, h.txWr, u16_add_sub_add]
  by_cases hi : i < p
  · rw [List.getElem_append_left (by rw [List.length_ofFn]; exact hi), List.getElem_ofFn]
    exact h.frame _ (by rw [u16_sub_add_sub _ (by omega) hi]; omega)
  · rw [List.getElem_append_right (by rw [List.length_ofFn]; omega)]
    simp only [u16_sub_add_eq_add _ (Nat.le_of_not_lt hi), List.length_ofFn]
    exact h.lands _ _

end Ring

/-! ## What each method queues -/

theorem Queues.of_tx {s s' : Socket} (hb : s'.txBuf = s.txBuf) (hw : s'.txWr = s.txWr) :
    Queues s s' [] :=
  ⟨Nat.zero_le _, fun _ h => absurd h (Nat.not_lt_zero _), fun _ _ => congrFun hb _,
    hw.trans (u16_add_ofNat_zero _).symm⟩

theorem Queues.of_dest {s s' : Socket} {data : List UInt8} {addr : SocketAddrV4}
    (h : Queues { s with dest := addr } s' data) : Queues s s' data :=
  ⟨h.fits, h.lands, h.frame, h.txWr⟩

theorem queued_queues {s : Socket} {data : List UInt8} {n : UInt16} (hn : data.length = n.toNat)
    (hf : n.toNat ≤ s.txFsr.toNat) : Queues s (queued s data n) data := by
  have hq := queued_txBuf s hn
  refine ⟨hn ▸ hf, fun i h => ?_, fun a ha => hq.2 a (hf.trans ha), ?_⟩
  · rw [hq.1 i (hn ▸ h), List.getD_eq_getElem _ _ h]
  · rw [hn, u16_ofNat_toNat]; rfl

theorem udpSend_queues (sn : Sn) (buf : List UInt8) (c : Chip) :
    Queues (c sn) ((udpSend sn buf c).chip sn)
      (buf.take (min (min buf.length 65535) (c sn).txFsr.toNat)) := by
  have hn := sendCount_toNat (c sn) buf
  rw [← hn, udpSend_apply]
  split
  · dsimp only
    rw [Function.update_same]
    exact queued_queues (by rw [List.length_take]; omega) (by omega)
  · rename_i h
    rw [not_not.1 h, UInt16.toNat_zero, List.take_zero]
    exact Queues.of_tx rfl rfl

theorem udpSendIfFree_queues (sn : Sn) (buf : List UInt8) (c : Chip) :
    Queues (c sn) ((udpSendIfFree sn buf c).chip sn)
      (if buf.length ≤ (c sn).txFsr.toNat then buf else []) := by
  have := u16_toNat_lt (c sn).txFsr
  rw [udpSendIfFree_apply]
  cases hn : u16TryFrom buf.length with
  | none =>
    have : 65536 ≤ buf.length := by
      by_contra hlt
      rw [u16TryFrom, if_pos (Nat.lt_of_not_le hlt)] at hn
      cases hn
    rw [if_neg (by omega)]
    exact Queues.of_tx rfl rfl
  | some n =>
    have hl := (u16TryFrom_eq_some.1 hn).2
    dsimp only
    split
    · rename_i hle
      dsimp only
      rw [Function.update_same, if_pos (by rw [u16_le_iff] at hle; omega)]
      exact queued_queues hl.symm hle
    · rename_i hgt
      rw [if_neg (by rw [u16_le_iff] at hgt; omega)]
      exact Queues.of_tx rfl rfl

def WriterProg.queued (f : WriterProg E (Except (Error E) T)) (room : Nat) : List UInt8 :=
  if (f.stream room [] false).1.isOk && !(f.stream room [] false).2.2 then
    (f.stream room [] false).2.1
  else []

theorem writer_queues (sn : Sn) (dest : Option SocketAddrV4) (f : WriterProg E (Except (Error E) T))
    (c : Chip) :
    Queues (c sn) ((writerExit sn dest (f.run (openWriter sn (c sn)) c)).chip sn)
      (f.queued (c sn).txFsr.toNat) := by
  obtain ⟨-, hl, hw⟩ := writerExit_stream sn dest f c
  have hle := f.stream_length_le (c sn).txFsr.toNat [] false (Nat.zero_le _)
  have hframe : ∀ a, (c sn).txFsr.toNat ≤ (a - (c sn).txWr).toNat →
      ((writerExit sn dest (f.run (openWriter sn (c sn)) c)).chip sn).txBuf a = (c sn).txBuf a := by
    intro a ha
    rw [writerExit_txBuf]
    refine (f.run_confined (openWriter sn (c sn)) c InWindow.start).effect.2 a ?_
    change ((c sn).txWr + (c sn).txFsr - (c sn).txWr).toNat ≤ _
    rwa [u16_add_sub_cancel_left]
  unfold WriterProg.queued
  split
  · rename_i hok
    exact ⟨hle, hl, hframe, by rw [hw, if_pos hok]⟩
  · rename_i hok
    exact ⟨Nat.zero_le _, fun _ h => absurd h (Nat.not_lt_zero _), hframe,
      by rw [hw, if_neg hok]; exact (u16_add_ofNat_zero _).symm⟩

namespace UdpCall

/-- Whether the call binds its socket. Binding opens the socket anew, which on the chip also
resets its buffer pointers, and the model of the chip does not follow that. -/
def isBind : UdpCall E → Bool
  | bind .. => true
  | _ => false

/-- The bytes a call queues on its socket, as the spec words each method: `udp_send` the first
`min(len, u16::MAX, Sn_TX_FSR)` bytes, `udp_send_if_free` all of them or none, a writer scope
what its body wrote when it commits, any other method nothing. -/
def queued : UdpCall E → Chip → List UInt8
  | send sn buf, c | sendTo sn buf _, c =>
    buf.take (min (min buf.length 65535) (c sn).txFsr.toNat)
  | sendIfFree sn buf, c | sendToIfFree sn buf _, c =>
    if buf.length ≤ (c sn).txFsr.toNat then buf else []
  | writer sn f, c => f.queued (c sn).txFsr.toNat
  | writerTo sn _ f, c => f.queued (c sn).txFsr.toNat
  | _, _ => []

def queuedOn (sn : Sn) (op : UdpCall E) (c : Chip) : List UInt8 :=
  if op.sn = sn then op.queued c else []

/-- Every call but a bind of `sn` queues on `sn` what `queuedOn` says, in the free space. -/
theorem run_queues (op : UdpCall E) {sn : Sn} (hb : op.sn = sn → op.isBind = false)
    (c : Chip) : Queues (c sn) ((op.run c).chip sn) (op.queuedOn sn c) := by
  unfold queuedOn
  split
  · rename_i hs
    cases op <;> dsimp only [UdpCall.sn, UdpCall.run] at hs hb ⊢ <;> subst hs
    case bind => cases hb rfl
    case recvFrom sn buf =>
      rcases udpRecvFrom_advances (E := E) sn buf c with h | h <;>
        exact Queues.of_tx (by rw [h]) (by rw [h])
    case peekFrom sn buf =>
      exact Queues.of_tx (by rw [udpPeekFrom_chip]) (by rw [udpPeekFrom_chip])
    case peekFromHeader sn =>
      exact Queues.of_tx (by rw [udpPeekFromHeader_chip]) (by rw [udpPeekFromHeader_chip])
    case sendTo sn buf addr =>
      have h := udpSend_queues sn buf (Function.update c sn { c sn with dest := addr })
      rw [Function.update_same] at h
      rw [udpSendTo_eq, Outcome.prepend_chip]
      exact h.of_dest
    case sendToIfFree sn buf addr =>
      have h := udpSendIfFree_queues sn buf (Function.update c sn { c sn with dest := addr })
      rw [Function.update_same] at h
      rw [udpSendToIfFree_eq, Outcome.prepend_chip]
      exact h.of_dest
    case send sn buf => exact udpSend_queues sn buf c
    case sendIfFree sn buf => exact udpSendIfFree_queues sn buf c
    case reader sn f =>
      rcases udpReader_socket sn f c with h | ⟨_, _, h⟩ <;>
        exact Queues.of_tx (by rw [h]) (by rw [h])
    case writer sn f =>
      rw [udpWriter_apply, Outcome.prepend_chip]
      exact writer_queues sn none f c
    case writerTo sn addr f =>
      rw [udpWriterTo_apply, Outcome.prepend_chip]
      exact writer_queues sn (some addr) f c
  · rename_i hs
    rw [op.run_local.frame c sn (Ne.symm hs)]
    exact Queues.of_tx rfl rfl

end UdpCall

/-! ## Runs -/

/-- Runs from chip `c`, which held `p₀` bytes still to send on socket `sn`: calls of any method
on any socket but a bind of `sn`, each made while `Sn_TX_FSR` leaves room for the bytes still to
send, and the chip sending the oldest `k` of those and reporting any free space. `q` is what the
calls queued on `sn`, `sent` what the chip sent, `p` the count it has still to send. -/
inductive TxLog (E : Type) (sn : Sn) (c : Chip) (p₀ : Nat) :
    Chip → List UInt8 → List UInt8 → Nat → Prop
  | nil : TxLog E sn c p₀ c [] [] p₀
  | call {c' : Chip} {q sent : List UInt8} {p : Nat} (op : UdpCall E) :
      TxLog E sn c p₀ c' q sent p → (op.sn = sn → op.isBind = false) →
      p + (c' sn).txFsr.toNat ≤ 65536 →
      TxLog E sn c p₀ (op.run c').chip (q ++ op.queuedOn sn c') sent
        (p + (op.queuedOn sn c').length)
  | transmit {c' : Chip} {q sent : List UInt8} {p : Nat} (k : Nat) (fsr : UInt16) :
      TxLog E sn c p₀ c' q sent p → k ≤ p →
      TxLog E sn c p₀ (Function.update c' sn { c' sn with txFsr := fsr }) q
        (sent ++ (ringBefore (c' sn).txBuf (c' sn).txWr p).take k) (p - k)

theorem TxLog.conserves {sn : Sn} {c c' : Chip} {p₀ p : Nat} {q sent : List UInt8}
    (h : TxLog E sn c p₀ c' q sent p) :
    ringBefore (c sn).txBuf (c sn).txWr p₀ ++ q =
        sent ++ ringBefore (c' sn).txBuf (c' sn).txWr p ∧
      (c' sn).txWr = (c sn).txWr + UInt16.ofNat q.length := by
  induction h with
  | nil => exact ⟨by rw [List.append_nil, List.nil_append], (u16_add_ofNat_zero _).symm⟩
  | @call c' q sent p op _ hb hp ih =>
    have hq := op.run_queues hb c'
    refine ⟨by rw [hq.ringBefore_append hp, ← List.append_assoc, ih.1, List.append_assoc], ?_⟩
    rw [hq.txWr, ih.2, u16_add_ofNat_add, List.length_append]
  | @transmit c' q sent p k fsr _ hk ih =>
    rw [Function.update_same]
    refine ⟨?_, ih.2⟩
    rw [ih.1, List.append_assoc, ringBefore_drop hk, List.take_append_drop]

/-- Over every run, what the chip sent followed by the bytes it still has to send, the `p`
before `Sn_TX_WR`, is what it had to send at the start followed by every byte the calls queued,
and `Sn_TX_WR` has moved by the count queued. -/
theorem tx_log_conserves_bytes {sn : Sn} {c c' : Chip} {p₀ p : Nat} {q sent : List UInt8}
    (h : TxLog E sn c p₀ c' q sent p) :
    ringBefore (c sn).txBuf (c sn).txWr p₀ ++ q =
        sent ++ ringBefore (c' sn).txBuf (c' sn).txWr p ∧
      (c' sn).txWr = (c sn).txWr + UInt16.ofNat q.length :=
  h.conserves

/-- Three bytes queued on socket 0 of an idle chip with eight bytes free, then two of them sent:
the two sent, and the third still held before `Sn_TX_WR`, are the three queued. -/
theorem send_three_then_transmit_two :
    TxLog Unit 0 (fun _ => idleSocket 8) 0
        (Function.update ((UdpCall.send (E := Unit) 0 [1, 2, 3]).run fun _ => idleSocket 8).chip 0
          { ((UdpCall.send (E := Unit) 0 [1, 2, 3]).run fun _ => idleSocket 8).chip 0 with
            txFsr := 5 })
        [1, 2, 3] [1, 2] 1 ∧
      ringBefore (idleSocket 8).txBuf (idleSocket 8).txWr 0 ++ [1, 2, 3] = [1, 2] ++
        ringBefore (((UdpCall.send (E := Unit) 0 [1, 2, 3]).run fun _ => idleSocket 8).chip 0).txBuf
          (((UdpCall.send (E := Unit) 0 [1, 2, 3]).run fun _ => idleSocket 8).chip 0).txWr 1 ∧
      (((UdpCall.send (E := Unit) 0 [1, 2, 3]).run fun _ => idleSocket 8).chip 0).txWr =
        (idleSocket 8).txWr + UInt16.ofNat 3 :=
  have h : TxLog Unit 0 (fun _ => idleSocket 8) 0 _ [1, 2, 3] [1, 2] 1 :=
    .transmit 2 5 (.call (.send 0 [1, 2, 3]) .nil (fun _ => rfl) (by decide)) (by decide)
  ⟨h, tx_log_conserves_bytes h⟩

end W5500Udp
