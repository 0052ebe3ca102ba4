import W5500Udp.Framing

/-! # The one-shot methods as scopes

`udp_recv_from`, `udp_peek_from` and `udp_peek_from_header` do by hand what a `udp_reader` body
does through the reader's methods, and `udp_send` and `udp_send_if_free` what a `udp_writer`
body does through the writer's. Each one-shot method is set here beside the scope running the
body that makes the same calls, on every chip: where the two agree, the one-shot method is that
scope, and where they part the difference is stated. -/
namespace W5500Udp

variable {E : Type}

def handBack {α : Type} : Except (Error E) α × List UInt8 → Except (Error E) (α × List UInt8)
  | (v, buf) => v.map fun a => (a, buf)

/-- The body doing what `udp_recv_from` does: one `read` into `buf`, then the origin. -/
def recvFromBody (buf : List UInt8) :
    ReaderProg E (Except (Error E) ((UInt16 × SocketAddrV4) × List UInt8)) :=
  .read buf fun res => .header fun h => .pure (.ok ((res.1, h.origin), res.2))

def peekFromBody (buf : List UInt8) :
    ReaderProg E (Except (Error E) ((UInt16 × UdpHeader) × List UInt8)) :=
  .read buf fun res => .header fun h => .unread (.pure (.ok ((res.1, h), res.2)))

def peekFromHeaderBody : ReaderProg E (Except (Error E) UdpHeader) :=
  .header fun h => .unread (.pure (.ok h))

theorem openReader_read (sn : Sn) (c : Chip) (rsr : UInt16) (buf : List UInt8) {w n : UInt16}
    (hw : min (headerAt (c sn)).len rsr = w)
    (hn : min w ((u16TryFrom buf.length).getD u16Max) = n) :
    (openReader sn (c sn) rsr).read buf c =
      ⟨((n, payloadInto (c sn) n buf), ⟨⟨sn, (c sn).rxRd + 8, (c sn).rxRd + 8 + w,
          (c sn).rxRd + 8 + n, false⟩, headerAt (c sn)⟩), c,
        payloadRead sn ((c sn).rxRd + 8) n⟩ := by
  have hrem : (openReader sn (c sn) rsr).inner.remain = w := by
    simp only [TcpReader.remain, openReader, u16_add_sub_cancel_left, hw]
  simp only [UdpReader.read, TcpReader.read]
  generalize hm :
    min (openReader sn (c sn) rsr).inner.remain ((u16TryFrom buf.length).getD u16Max) = m
  rw [hrem, hn] at hm
  subst hm hw
  by_cases h0 : n = 0
  · simp only [h0, ne_eq, not_true_eq_false, if_false, Bus.bind_apply, Bus.pure_apply,
      payloadInto_zero, payloadRead, Outcome.prepend_mk]
    simp [openReader]
  · simp only [h0, ne_eq, not_false_eq_true, if_true, Bus.bind_apply, Bus.pure_apply,
      snRxBuf_apply, payloadRead, Outcome.prepend_mk]
    simp [openReader, payloadInto]

theorem openReader_read_ready (sn : Sn) (c : Chip) {rsr : UInt16}
    (hle : ¬ rsr < (headerAt (c sn)).len) (buf : List UInt8) :
    (openReader sn (c sn) rsr).read buf c =
      ⟨((recvCount (c sn) buf, payloadInto (c sn) (recvCount (c sn) buf) buf),
        ⟨⟨sn, (c sn).rxRd + 8, (c sn).rxRd + 8 + (headerAt (c sn)).len,
          (c sn).rxRd + 8 + recvCount (c sn) buf, false⟩, headerAt (c sn)⟩), c,
        payloadRead sn ((c sn).rxRd + 8) (recvCount (c sn) buf)⟩ :=
  openReader_read sn c rsr buf
    (u16_min_eq_left (by rw [u16_lt_iff] at hle; rw [u16_le_iff]; omega)) rfl

theorem ready_of_opened {c : Chip} {sn : Sn} {rsr : UInt16}
    (hc : checkedSub (c sn).rxRsr UdpHeader.LEN = some rsr)
    (h : DatagramReady (c sn) ∨ (c sn).rxRsr < UdpHeader.LEN) : ¬ rsr < (headerAt (c sn)).len :=
  (ready_iff_of_checkedSub hc).1 (h.resolve_right fun hl => by
    rw [checkedSub_eq_none.2 hl] at hc; cases hc)

theorem udpReader_recvFromBody (sn : Sn) (buf : List UInt8) (c : Chip)
    (h : DatagramReady (c sn) ∨ (c sn).rxRsr < UdpHeader.LEN) :
    udpReader sn (recvFromBody buf) c =
      ⟨handBack (udpRecvFrom (E := E) sn buf c).value, (udpRecvFrom (E := E) sn buf c).chip,
        (udpRecvFrom (E := E) sn buf c).trace⟩ := by
  rw [udpReader_apply, udpRecvFrom_apply]
  cases hc : checkedSub (c sn).rxRsr UdpHeader.LEN with
  | none => rfl
  | some rsr =>
    have hle := ready_of_opened hc h
    simp only [if_neg hle, recvFromBody, ReaderProg.run, Bus.bind_apply,
      openReader_read_ready sn c hle buf, Bus.pure_apply, Outcome.prepend_mk, readerExit,
      UdpReader.isUnread, TcpReader.isUnread]
    simp [handBack, Except.map]

theorem udpReader_peekFromBody (sn : Sn) (buf : List UInt8) (c : Chip)
    (h : DatagramReady (c sn) ∨ (c sn).rxRsr < UdpHeader.LEN) :
    udpReader sn (peekFromBody buf) c =
      ⟨handBack (udpPeekFrom (E := E) sn buf c).value, (udpPeekFrom (E := E) sn buf c).chip,
        (udpPeekFrom (E := E) sn buf c).trace⟩ := by
  rw [udpReader_apply, udpPeekFrom_apply]
  cases hc : checkedSub (c sn).rxRsr UdpHeader.LEN with
  | none => rfl
  | some rsr =>
    have hle := ready_of_opened hc h
    simp only [if_neg hle, peekFromBody, ReaderProg.run, Bus.bind_apply,
      openReader_read_ready sn c hle buf, Bus.pure_apply, Outcome.prepend_mk, readerExit,
      UdpReader.unread, UdpReader.isUnread, TcpReader.isUnread]
    simp [handBack, Except.map]

theorem udpReader_peekFromHeaderBody (sn : Sn) (c : Chip) :
    udpReader sn peekFromHeaderBody c = udpPeekFromHeader (E := E) sn c := by
  rw [udpReader_apply, udpPeekFromHeader_apply]
  cases hc : checkedSub (c sn).rxRsr UdpHeader.LEN with
  | none => rw [if_pos (checkedSub_eq_none.1 hc)]
  | some rsr =>
    rw [if_neg fun hl => by rw [checkedSub_eq_none.2 hl] at hc; cases hc]
    simp [peekFromHeaderBody, ReaderProg.run, readerExit, openReader, UdpReader.unread,
      UdpReader.isUnread, TcpReader.isUnread]

theorem udpReader_recvFromBody_partial (sn : Sn) (buf : List UInt8) (c : Chip)
    (h : ¬ (DatagramReady (c sn) ∨ (c sn).rxRsr < UdpHeader.LEN)) :
    ((udpReader sn (recvFromBody (E := E) buf) c).chip sn).rxRd ≠
      ((udpRecvFrom (E := E) sn buf c).chip sn).rxRd := by
  rw [not_or, u16_lt_iff] at h
  have h8 : UdpHeader.LEN ≤ (c sn).rxRsr := by rw [u16_le_iff]; omega
  have hc : checkedSub (c sn).rxRsr UdpHeader.LEN = some ((c sn).rxRsr - 8) :=
    checkedSub_eq_some.2 ⟨h8, rfl⟩
  have hlt := not_not.1 (mt (ready_iff_of_checkedSub hc).2 h.1)
  rw [udpReader_apply, udpRecvFrom_apply, hc]
  simp only [if_pos hlt, recvFromBody, ReaderProg.run, Bus.bind_apply,
    openReader_read sn c _ buf (u16_min_eq_right hlt) rfl, Bus.pure_apply, Outcome.prepend_mk,
    readerExit, UdpReader.isUnread, TcpReader.isUnread, Bool.false_eq_true, if_false,
    Outcome.prepend_chip, Function.update_same]
  have := u16_toNat_lt (c sn).rxRsr
  have := u16_toNat_lt (c sn).rxRd
  rw [Ne, u16_eq_iff]
  simp only [u16_toNat_add, u16_toNat_sub, u16_toNat_eight]
  simp only [UdpHeader.LEN, u16_le_iff, u16_toNat_eight] at h8
  omega

/-! ## Sending -/

/-- The body doing what `udp_send` does: one `write` of `buf`, answering the count. -/
def sendBody (buf : List UInt8) : WriterProg E (Except (Error E) UInt16) :=
  .write buf fun n => .pure (.ok n)

def sendIfFreeBody (buf : List UInt8) : WriterProg E (Except (Error E) UInt16) :=
  .writeAll buf fun r => .pure (r.map fun _ => UInt16.ofNat buf.length)

theorem openWriter_remain (sn : Sn) (s : Socket) : (openWriter sn s).remain = s.txFsr :=
  u16_add_sub_cancel_left _ _

theorem openWriter_write (sn : Sn) (buf : List UInt8) (c : Chip) :
    (openWriter sn (c sn)).write buf c =
      if sendCount (c sn) buf ≠ 0 then
        ⟨(sendCount (c sn) buf,
            { openWriter sn (c sn) with ptr := (c sn).txWr + sendCount (c sn) buf }),
          Function.update c sn { c sn with
            txBuf := writeRing (c sn).txBuf (c sn).txWr (buf.take (sendCount (c sn) buf).toNat) },
          [.txBuf sn (c sn).txWr (sendCount (c sn) buf).toNat]⟩
      else ⟨(0, openWriter sn (c sn)), c, []⟩ := by
  have hs : min (openWriter sn (c sn)).remain ((u16TryFrom buf.length).getD u16Max) =
      sendCount (c sn) buf := by
    rw [openWriter_remain, u16_min_comm]; rfl
  simp only [Writer.write, hs]
  split
  · simp only [Bus.bind_apply, setSnTxBuf_apply, Bus.pure_apply, Outcome.prepend_mk,
      List.append_nil, List.length_take, openWriter]
    rw [Nat.min_eq_left (by rw [sendCount_toNat]; omega)]
  · rfl

theorem openWriter_writeAll (sn : Sn) (buf : List UInt8) (c : Chip) :
    (openWriter sn (c sn)).writeAll (E := E) buf c =
      if buf.length ≤ (c sn).txFsr.toNat then
        ⟨(.ok (), { openWriter sn (c sn) with ptr := (c sn).txWr + UInt16.ofNat buf.length }),
          Function.update c sn { c sn with txBuf := writeRing (c sn).txBuf (c sn).txWr buf },
          [.txBuf sn (c sn).txWr buf.length]⟩
      else ⟨(.error .outOfMemory, openWriter sn (c sn)), c, []⟩ := by
  simp only [Writer.writeAll, openWriter_remain]
  split
  · rename_i h; rw [if_neg (Nat.not_le.2 h)]; rfl
  · rename_i h; rw [if_pos (Nat.le_of_not_lt h)]; rfl

theorem udpSendIfFree_of_fits {sn : Sn} {buf : List UInt8} {c : Chip}
    (hf : buf.length ≤ (c sn).txFsr.toNat) :
    udpSendIfFree sn buf c = ⟨UInt16.ofNat buf.length,
      Function.update c sn (queued (c sn) buf (UInt16.ofNat buf.length)),
      .read sn .txFsr :: sendWrites sn (c sn).txWr buf.length⟩ := by
  have hl : buf.length < 65536 := by have := u16_toNat_lt (c sn).txFsr; omega
  rw [udpSendIfFree_apply, u16TryFrom, if_pos hl]
  exact if_pos (by rw [u16_le_iff, u16_toNat_ofNat, Nat.mod_eq_of_lt hl]; exact hf)

theorem udpSendIfFree_chip_of_not_fits {sn : Sn} {buf : List UInt8} {c : Chip}
    (hf : ¬ buf.length ≤ (c sn).txFsr.toNat) : (udpSendIfFree sn buf c).chip = c := by
  rw [udpSendIfFree_apply]
  split
  · rfl
  · rename_i n hn
    rw [if_neg fun hle => hf (by rw [u16_le_iff] at hle; rwa [← (u16TryFrom_eq_some.1 hn).2])]

theorem udpWriter_sendBody (sn : Sn) (buf : List UInt8) (c : Chip) :
    udpWriter sn (sendBody (E := E) buf) c =
      ⟨.ok (udpSend sn buf c).value, (udpSend sn buf c).chip,
        (udpSend sn buf c).trace ++
          if sendCount (c sn) buf = 0 then [.read sn .txWr, .write sn .txWr, .command sn .send]
          else []⟩ := by
  rw [udpWriter_apply, udpSend_apply]
  simp only [sendBody, WriterProg.run, Bus.bind_apply, openWriter_write]
  by_cases h0 : sendCount (c sn) buf = 0
  · simp [h0, writerExit, openWriter]
  · simp [h0, writerExit, openWriter, queued, sendWrites]

theorem udpWriter_sendIfFreeBody (sn : Sn) (buf : List UInt8) (c : Chip) :
    udpWriter sn (sendIfFreeBody (E := E) buf) c =
      if buf.length ≤ (c sn).txFsr.toNat then
        ⟨.ok (udpSendIfFree sn buf c).value, (udpSendIfFree sn buf c).chip,
          (udpSendIfFree sn buf c).trace⟩
      else ⟨.error .outOfMemory, (udpSendIfFree sn buf c).chip,
        [.read sn .txFsr, .read sn .txWr]⟩ := by
  rw [udpWriter_apply]
  simp only [sendIfFreeBody, WriterProg.run, Bus.bind_apply, openWriter_writeAll]
  by_cases hf : buf.length ≤ (c sn).txFsr.toNat
  · simp [hf, udpSendIfFree_of_fits hf, writerExit, openWriter, queued, sendWrites, Except.map]
  · simp [hf, udpSendIfFree_chip_of_not_fits hf, writerExit, Except.map]

theorem udpWriterTo_sendBody (sn : Sn) (buf : List UInt8) (addr : SocketAddrV4) (c : Chip) :
    (udpWriterTo sn addr (sendBody (E := E) buf) c).value = .ok (udpSendTo sn buf addr c).value ∧
      (udpWriterTo sn addr (sendBody (E := E) buf) c).chip = (udpSendTo sn buf addr c).chip := by
  rw [udpWriterTo_apply, udpSendTo_eq, udpSend_apply]
  have hd : sendCount { c sn with dest := addr } buf = sendCount (c sn) buf := rfl
  simp only [sendBody, WriterProg.run, Bus.bind_apply, openWriter_write, Function.update_same, hd]
  by_cases h0 : sendCount (c sn) buf = 0
  · simp [h0, writerExit, openWriter]
  · simp [h0, writerExit, openWriter, queued]

theorem udpWriterTo_sendIfFreeBody (sn : Sn) (buf : List UInt8) (addr : SocketAddrV4)
    (c : Chip) :
    if buf.length ≤ (c sn).txFsr.toNat then
      (udpWriterTo sn addr (sendIfFreeBody (E := E) buf) c).value =
          .ok (udpSendToIfFree sn buf addr c).value ∧
        (udpWriterTo sn addr (sendIfFreeBody (E := E) buf) c).chip =
          (udpSendToIfFree sn buf addr c).chip
    else
      (udpWriterTo sn addr (sendIfFreeBody (E := E) buf) c).value = .error .outOfMemory ∧
        (udpWriterTo sn addr (sendIfFreeBody (E := E) buf) c).chip = c ∧
        (udpSendToIfFree sn buf addr c).chip = Function.update c sn { c sn with dest := addr } := by
  rw [udpWriterTo_apply, udpSendToIfFree_eq]
  simp only [sendIfFreeBody, WriterProg.run, Bus.bind_apply, openWriter_writeAll]
  have hc : (Function.update c sn { c sn with dest := addr } sn).txFsr = (c sn).txFsr := by simp
  by_cases hf : buf.length ≤ (c sn).txFsr.toNat
  · simp [hf, @udpSendIfFree_of_fits sn buf _ (hc ▸ hf), writerExit, openWriter, queued,
      Except.map]
  · simp [hf, @udpSendIfFree_chip_of_not_fits sn buf _ (hc ▸ hf), writerExit, Except.map]

/-! ## The agreements -/

/-- `udp_peek_from_header` is the reader scope whose body asks for the header and calls `unread`,
on every chip. `udp_recv_from` and `udp_peek_from` are the reader scopes whose body reads once
into the caller's buffer: where the datagram at `Sn_RX_RD` is whole, or not even a header has
arrived, each returns what its scope returns, leaves the same chip and makes the same accesses.
On a datagram only partly buffered they part: `udp_recv_from` blocks and its scope commits what
was buffered, so the two leave the same chip exactly off that case. -/
theorem one_shot_receives_are_reader_scopes (sn : Sn) (buf : List UInt8) (c : Chip) :
    udpReader sn peekFromHeaderBody c = udpPeekFromHeader (E := E) sn c ∧
    ((udpReader sn (recvFromBody (E := E) buf) c).chip = (udpRecvFrom (E := E) sn buf c).chip ↔
      DatagramReady (c sn) ∨ (c sn).rxRsr < UdpHeader.LEN) ∧
    (DatagramReady (c sn) ∨ (c sn).rxRsr < UdpHeader.LEN →
      udpReader sn (recvFromBody buf) c =
          ⟨handBack (udpRecvFrom (E := E) sn buf c).value, (udpRecvFrom (E := E) sn buf c).chip,
            (udpRecvFrom (E := E) sn buf c).trace⟩ ∧
        udpReader sn (peekFromBody buf) c =
          ⟨handBack (udpPeekFrom (E := E) sn buf c).value, (udpPeekFrom (E := E) sn buf c).chip,
            (udpPeekFrom (E := E) sn buf c).trace⟩) :=
  ⟨udpReader_peekFromHeaderBody sn c,
    ⟨fun he => Classical.not_not.1 fun h =>
        udpReader_recvFromBody_partial sn buf c h (by rw [he]),
      fun h => by rw [udpReader_recvFromBody sn buf c h]⟩,
    fun h => ⟨udpReader_recvFromBody sn buf c h, udpReader_peekFromBody sn buf c h⟩⟩

/-- On the whole sixteen-byte datagram, receiving four bytes by hand or by a reader scope is
the same. -/
theorem recv_from_is_reader_scope_on_sixteen_byte_datagram :
    (DatagramReady wholeBuffered ∨ wholeBuffered.rxRsr < UdpHeader.LEN) ∧
      udpReader 0 (recvFromBody [0, 0, 0, 0]) (fun _ => wholeBuffered) =
        ⟨handBack (udpRecvFrom (E := Unit) 0 [0, 0, 0, 0] fun _ => wholeBuffered).value,
          (udpRecvFrom (E := Unit) 0 [0, 0, 0, 0] fun _ => wholeBuffered).chip,
          (udpRecvFrom (E := Unit) 0 [0, 0, 0, 0] fun _ => wholeBuffered).trace⟩ :=
  ⟨.inl (by decide), ((one_shot_receives_are_reader_scopes 0 [0, 0, 0, 0] _).2.2
    (.inl (by decide))).1⟩

/-- `udp_send` is the writer scope whose body makes one `write` of the buffer: on every chip the
two return the same count and leave the same chip, and make the same accesses but when the count
is 0, where the scope still reads `Sn_TX_WR`, writes it back and issues `Send` with nothing
queued. `udp_send_to` and `udp_writer_to` return the same and leave the same chip.
`udp_send_if_free` is the scope whose body makes one `write_all`: when the buffer fits in
`Sn_TX_FSR` the two are the same; when it does not, both leave the chip as it was, the scope
returning `OutOfMemory` where `udp_send_if_free` returns a length, and `udp_send_to_if_free`
still writes the destination, which `udp_writer_to` leaves. -/
theorem one_shot_sends_are_writer_scopes (sn : Sn) (buf : List UInt8) (addr : SocketAddrV4)
    (c : Chip) :
    udpWriter sn (sendBody (E := E) buf) c =
        ⟨.ok (udpSend sn buf c).value, (udpSend sn buf c).chip,
          (udpSend sn buf c).trace ++
            if sendCount (c sn) buf = 0 then [.read sn .txWr, .write sn .txWr, .command sn .send]
            else []⟩ ∧
    (udpWriterTo sn addr (sendBody (E := E) buf) c).value = .ok (udpSendTo sn buf addr c).value ∧
    (udpWriterTo sn addr (sendBody (E := E) buf) c).chip = (udpSendTo sn buf addr c).chip ∧
    udpWriter sn (sendIfFreeBody (E := E) buf) c =
        (if buf.length ≤ (c sn).txFsr.toNat then
          ⟨.ok (udpSendIfFree sn buf c).value, (udpSendIfFree sn buf c).chip,
            (udpSendIfFree sn buf c).trace⟩
        else ⟨.error .outOfMemory, (udpSendIfFree sn buf c).chip,
          [.read sn .txFsr, .read sn .txWr]⟩) ∧
    if buf.length ≤ (c sn).txFsr.toNat then
      (udpWriterTo sn addr (sendIfFreeBody (E := E) buf) c).value =
          .ok (udpSendToIfFree sn buf addr c).value ∧
        (udpWriterTo sn addr (sendIfFreeBody (E := E) buf) c).chip =
          (udpSendToIfFree sn buf addr c).chip
    else
      (udpWriterTo sn addr (sendIfFreeBody (E := E) buf) c).value = .error .outOfMemory ∧
        (udpWriterTo sn addr (sendIfFreeBody (E := E) buf) c).chip = c ∧
        (udpSendToIfFree sn buf addr c).chip = Function.update c sn { c sn with dest := addr } :=
  ⟨udpWriter_sendBody sn buf c, (udpWriterTo_sendBody sn buf addr c).1,
    (udpWriterTo_sendBody sn buf addr c).2, udpWriter_sendIfFreeBody sn buf c,
    udpWriterTo_sendIfFreeBody sn buf addr c⟩

end W5500Udp
