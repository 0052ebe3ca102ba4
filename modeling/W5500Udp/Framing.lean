import W5500Udp.Receive
import W5500Udp.Send

/-! # Datagram framing on the receive ring

The receive ring holds datagrams back to back, each an 8-byte header whose last two bytes give
the payload length `L`, then `L` bytes. A receive call that consumes moves `Sn_RX_RD` past one
whole datagram, so that the next call starts at the next header. `udp_recv_from` does so in
every state; `udp_peek_from` and `udp_peek_from_header` never move it. `udp_reader` commits the
end of its window, `Sn_RX_RD + 8 + min(L, Sn_RX_RSR - 8)`: a datagram boundary when the whole
datagram is buffered, a point inside the datagram when only part of it is. -/
namespace W5500Udp

variable {E T : Type}

def nextDatagram (ring : UInt16 → UInt8) (p : UInt16) : UInt16 :=
  p + UdpHeader.LEN + (UdpHeader.deser fun i => ring (p + UInt16.ofNat i)).len

/-- `p` is reached from `start` by stepping over whole datagrams. -/
inductive Boundary (ring : UInt16 → UInt8) (start : UInt16) : UInt16 → Prop
  | start : Boundary ring start start
  | next {p : UInt16} : Boundary ring start p → Boundary ring start (nextDatagram ring p)

def Advances (s s' : Socket) : Prop :=
  s' = s ∨ s' = { s with rxRd := nextDatagram s.rxBuf s.rxRd }

theorem nextDatagram_rxRd (s : Socket) :
    nextDatagram s.rxBuf s.rxRd = s.rxRd + 8 + (headerAt s).len := rfl

theorem Advances.boundary {s s' : Socket} {ring : UInt16 → UInt8} {start : UInt16}
    (h : Advances s s') (hr : s.rxBuf = ring) (hb : Boundary ring start s.rxRd) :
    s'.rxBuf = ring ∧ Boundary ring start s'.rxRd := by
  rcases h with rfl | rfl
  · exact ⟨hr, hb⟩
  · subst hr; exact ⟨rfl, hb.next⟩

/-! ## One call -/

theorem udpRecvFrom_advances (sn : Sn) (buf : List UInt8) (c : Chip) :
    Advances (c sn) ((udpRecvFrom (E := E) sn buf c).chip sn) := by
  rw [udpRecvFrom_apply]
  split
  · exact .inl rfl
  · split
    · exact .inl rfl
    · exact .inr (by simp only [Function.update_same, nextDatagram_rxRd])

theorem udpPeekFrom_chip (sn : Sn) (buf : List UInt8) (c : Chip) :
    (udpPeekFrom (E := E) sn buf c).chip = c := by
  rw [udpPeekFrom_apply]
  split
  · rfl
  · split <;> rfl

theorem udpPeekFromHeader_chip (sn : Sn) (c : Chip) :
    (udpPeekFromHeader (E := E) sn c).chip = c := by
  rw [udpPeekFromHeader_apply]
  split <;> rfl

theorem body_tailPtr (sn : Sn) (s : Socket) (rsr : UInt16) (f : ReaderProg E T) (c : Chip) :
    (f.run (openReader sn s rsr) c).value.2.inner.tailPtr = s.rxRd + 8 + min (headerAt s).len rsr :=
  congrArg (fun w : Window × UdpHeader => w.1.tail)
    (f.run_confined _ c (openReader_valid sn s rsr)).scope

theorem udpReader_socket (sn : Sn) (f : ReaderProg E (Except (Error E) T)) (c : Chip) :
    (udpReader sn f c).chip sn = c sn ∨
      ∃ rsr, checkedSub (c sn).rxRsr UdpHeader.LEN = some rsr ∧
        (udpReader sn f c).chip sn =
          { c sn with rxRd := (c sn).rxRd + 8 + min (headerAt (c sn)).len rsr } := by
  rw [udpReader_apply]
  cases hc : checkedSub (c sn).rxRsr UdpHeader.LEN with
  | none => exact .inl rfl
  | some rsr =>
    have he := (body_unobserved sn (c sn) rsr f c).1
    simp only [readerExit, Outcome.prepend_chip]
    split
    · exact .inl (congrFun he sn)
    · split
      · exact .inl (congrFun he sn)
      · exact .inr ⟨rsr, rfl, by simp only [Function.update_same, he, body_tailPtr]⟩

theorem udpReader_advances (sn : Sn) (f : ReaderProg E (Except (Error E) T)) {c : Chip}
    (hready : DatagramReady (c sn)) : Advances (c sn) ((udpReader sn f c).chip sn) := by
  rcases udpReader_socket sn f c with h | ⟨rsr, hc, h⟩
  · exact .inl h
  · have hle : (headerAt (c sn)).len ≤ rsr := by
      have := (ready_iff_of_checkedSub hc).1 hready
      rw [u16_lt_iff] at this; rw [u16_le_iff]; omega
    refine .inr (h.trans ?_)
    rw [nextDatagram_rxRd, u16_min_eq_left hle]

/-! ## A datagram only partly buffered -/

/-- On a datagram only partly buffered, `Sn_RX_RSR - 8 < L`, a reader scope whose body returns
`Ok` without `unread` moves `Sn_RX_RD` to the end of the buffered bytes, `Sn_RX_RD + Sn_RX_RSR`,
a point inside the datagram; `udp_recv_from` on the same chip blocks and moves nothing. -/
theorem udpReader_commits_inside_partial_datagram (sn : Sn) (f : ReaderProg E (Except (Error E) T))
    (buf : List UInt8) (c : Chip) (v : T) (h8 : 8 ≤ (c sn).rxRsr.toNat)
    (hpart : (c sn).rxRsr.toNat - 8 < (headerAt (c sn)).len.toNat)
    (hok : (f.run (openReader sn (c sn) ((c sn).rxRsr - 8)) c).value.1 = .ok v)
    (hkeep : (f.run (openReader sn (c sn) ((c sn).rxRsr - 8)) c).value.2.inner.isUnread = false) :
    (udpReader sn f c).value = .ok v ∧
      ((udpReader sn f c).chip sn).rxRd = (c sn).rxRd + (c sn).rxRsr ∧
      (((udpReader sn f c).chip sn).rxRd - (c sn).rxRd).toNat < 8 + (headerAt (c sn)).len.toNat ∧
      (udpRecvFrom (E := E) sn buf c).value.1 = .error .wouldBlock ∧
      (udpRecvFrom (E := E) sn buf c).chip = c := by
  have hc : checkedSub (c sn).rxRsr UdpHeader.LEN = some ((c sn).rxRsr - 8) :=
    checkedSub_eq_some.2 ⟨h8, rfl⟩
  have hlt : (c sn).rxRsr - 8 < (headerAt (c sn)).len := by
    rw [u16_lt_iff, u16_toNat_sub, u16_toNat_eight]; omega
  have ht : (f.run (openReader sn (c sn) ((c sn).rxRsr - 8)) c).value.2.inner.tailPtr =
      (c sn).rxRd + (c sn).rxRsr := by
    rw [body_tailPtr, u16_min_eq_right hlt, u16_eq_iff]
    simp only [u16_toNat_add, u16_toNat_sub, u16_toNat_eight]
    omega
  have hr : (udpReader sn f c).value = .ok v ∧
      (udpReader sn f c).chip sn = { c sn with rxRd := (c sn).rxRd + (c sn).rxRsr } := by
    rw [udpReader_apply, hc]
    simp only [readerExit, Outcome.prepend_value, Outcome.prepend_chip, hok, hkeep,
      Bool.false_eq_true, if_false, Function.update_same, (body_unobserved sn _ _ f c).1, ht,
      and_self]
  have hrecv := udpRecvFrom_apply (E := E) sn buf c
  simp only [hc, if_pos hlt] at hrecv
  refine ⟨hr.1, by rw [hr.2], ?_, by rw [hrecv], by rw [hrecv]⟩
  rw [hr.2, u16_add_sub_cancel_left]
  omega

/-- A socket whose ring holds, at `Sn_RX_RD = 0`, a header declaring 16 payload bytes, with
`Sn_RX_RSR = 10`: the header and two bytes of the payload. -/
def partlyBuffered : Socket :=
  { idleSocket 0 with rxRsr := 10, rxBuf := fun i => if i = 7 then 16 else 0 }

def wholeBuffered : Socket := { partlyBuffered with rxRsr := 24 }

/-- A reader scope whose body returns `Ok(())` at once commits `Sn_RX_RD = 10` into a datagram
that ends at 24, where `udp_recv_from` blocks. -/
theorem reader_commits_ten_into_sixteen_byte_datagram :
    8 ≤ partlyBuffered.rxRsr.toNat ∧
      partlyBuffered.rxRsr.toNat - 8 < (headerAt partlyBuffered).len.toNat ∧
      (udpReader (E := Unit) 0 (.pure (.ok ())) fun _ => partlyBuffered).value = .ok () ∧
      ((udpReader (E := Unit) 0 (.pure (.ok ())) fun _ => partlyBuffered).chip 0).rxRd =
        partlyBuffered.rxRd + partlyBuffered.rxRsr ∧
      (((udpReader (E := Unit) 0 (.pure (.ok ())) fun _ => partlyBuffered).chip 0).rxRd -
        partlyBuffered.rxRd).toNat < 8 + (headerAt partlyBuffered).len.toNat ∧
      (udpRecvFrom (E := Unit) 0 [] fun _ => partlyBuffered).value.1 = .error .wouldBlock ∧
      (udpRecvFrom (E := Unit) 0 [] fun _ => partlyBuffered).chip = fun _ => partlyBuffered :=
  ⟨by decide, by decide,
    udpReader_commits_inside_partial_datagram 0 (.pure (.ok ())) [] (fun _ => partlyBuffered) ()
      (by decide) (by decide) rfl rfl⟩

/-! ## Runs of receive calls -/

/-- Runs of receive calls on socket `sn`, between which the chip may report any `Sn_RX_RSR`;
a reader scope is opened only on a fully buffered datagram. -/
inductive RecvRun (E : Type) (sn : Sn) (c : Chip) : Chip → Prop
  | refl : RecvRun E sn c c
  | recvFrom {c' : Chip} (buf : List UInt8) :
      RecvRun E sn c c' → RecvRun E sn c (udpRecvFrom (E := E) sn buf c').chip
  | peekFrom {c' : Chip} (buf : List UInt8) :
      RecvRun E sn c c' → RecvRun E sn c (udpPeekFrom (E := E) sn buf c').chip
  | peekFromHeader {c' : Chip} :
      RecvRun E sn c c' → RecvRun E sn c (udpPeekFromHeader (E := E) sn c').chip
  | reader {c' : Chip} {T : Type} (f : ReaderProg E (Except (Error E) T)) :
      RecvRun E sn c c' → DatagramReady (c' sn) → RecvRun E sn c (udpReader sn f c').chip
  | report {c' : Chip} (rsr : UInt16) :
      RecvRun E sn c c' → RecvRun E sn c (Function.update c' sn { c' sn with rxRsr := rsr })

/-- Along every such run the ring is unchanged and `Sn_RX_RD` is a datagram boundary of the
queue that started at the first `Sn_RX_RD`. -/
theorem recv_run_stays_on_boundaries {sn : Sn} {c c' : Chip} (h : RecvRun E sn c c') :
    (c' sn).rxBuf = (c sn).rxBuf ∧ Boundary (c sn).rxBuf (c sn).rxRd (c' sn).rxRd := by
  induction h with
  | refl => exact ⟨rfl, .start⟩
  | recvFrom buf _ ih => exact (udpRecvFrom_advances sn buf _).boundary ih.1 ih.2
  | peekFrom buf _ ih => rwa [udpPeekFrom_chip]
  | peekFromHeader _ ih => rwa [udpPeekFromHeader_chip]
  | reader f _ hready ih => exact (udpReader_advances sn f hready).boundary ih.1 ih.2
  | report rsr _ ih => simpa only [Function.update_same] using ih

/-- A whole datagram consumed by `udp_recv_from`, then peeked at: `Sn_RX_RD` is on the boundary
at 24. -/
theorem recv_then_peek_on_boundary :
    RecvRun Unit 0 (fun _ => wholeBuffered) (udpPeekFrom (E := Unit) 0 []
        (udpRecvFrom (E := Unit) 0 [] fun _ => wholeBuffered).chip).chip ∧
      ((udpPeekFrom (E := Unit) 0 [] (udpRecvFrom (E := Unit) 0 [] fun _ => wholeBuffered).chip).chip
        0).rxBuf = wholeBuffered.rxBuf ∧
      Boundary wholeBuffered.rxBuf wholeBuffered.rxRd ((udpPeekFrom (E := Unit) 0 []
        (udpRecvFrom (E := Unit) 0 [] fun _ => wholeBuffered).chip).chip 0).rxRd :=
  have h := RecvRun.peekFrom [] (RecvRun.recvFrom [] .refl)
  ⟨h, recv_run_stays_on_boundaries h⟩

end W5500Udp
