import Mathlib.Data.List.OfFn
import Mathlib.Data.List.GetD
import W5500Udp.Send

/-! # The writer scope as a byte stream

Above the ring, a writer body just appends bytes to a list: `write` what fits in the room left,
`write_all` all or nothing. `WriterProg.stream` runs a body that way. The body run on the chip
refines it: the bytes between the window's head and the cursor are the list, whatever the
pointers' wrapping. So `udp_writer` queues exactly the bytes its body wrote, in order. -/
namespace W5500Udp

variable {E T α : Type}

def Writer.written (w : Writer) (c : Chip) : List UInt8 :=
  List.ofFn fun i : Fin (w.ptr - w.headPtr).toNat => (c w.sn).txBuf (w.headPtr + UInt16.ofNat i)

/-- A writer body over a byte list `out`, with `room` bytes in all: returns the body's result,
the bytes and whether it aborted. -/
def WriterProg.stream : WriterProg E α → Nat → List UInt8 → Bool → α × List UInt8 × Bool
  | .pure a, _, out, ab => (a, out, ab)
  | .write buf k, room, out, ab =>
    let n := min (room - out.length) (min buf.length 65535)
    (k (UInt16.ofNat n)).stream room (out ++ buf.take n) ab
  | .writeAll buf k, room, out, ab =>
    if room - out.length < buf.length then (k (.error .outOfMemory)).stream room out ab
    else (k (.ok ())).stream room (out ++ buf) ab
  | .abort k, room, out, _ => k.stream room out true
  | .streamLen k, room, out, ab => (k (UInt16.ofNat room)).stream room out ab
  | .streamPosition k, room, out, ab => (k (UInt16.ofNat out.length)).stream room out ab
  | .remain k, room, out, ab => (k (UInt16.ofNat (room - out.length))).stream room out ab

theorem WriterProg.stream_length_le (p : WriterProg E α) :
    ∀ room (out : List UInt8) ab, out.length ≤ room →
      (p.stream room out ab).2.1.length ≤ room := by
  induction p with
  | pure a => exact fun _ _ _ h => h
  | write buf k ih =>
    refine fun room out ab h => ih _ room _ ab ?_
    simp only [List.length_append, List.length_take]
    omega
  | writeAll buf k ih =>
    intro room out ab h
    simp only [WriterProg.stream]
    split
    · exact ih _ room out ab h
    · exact ih _ room _ ab (by simp only [List.length_append]; omega)
  | abort k ih => exact fun room out _ h => ih room out true h
  | streamLen k ih | streamPosition k ih | remain k ih =>
    exact fun room out ab h => ih _ room out ab h

/-! ## Writing into the ring extends the window's bytes -/

theorem written_length (w : Writer) (c : Chip) : (w.written c).length = (w.ptr - w.headPtr).toNat :=
  List.length_ofFn _

theorem ofFn_writeRing (ring : UInt16 → UInt8) (head ptr : UInt16) (data : List UInt8) {n : Nat}
    (hn : n = (ptr - head).toNat + data.length) (h : n ≤ 65536) :
    (List.ofFn fun i : Fin n => writeRing ring ptr data (head + UInt16.ofNat i)) =
      (List.ofFn fun i : Fin (ptr - head).toNat => ring (head + UInt16.ofNat i)) ++ data := by
  apply List.ext_getElem (by simp [hn])
  intro i h1 _
  have hi : i < n := by simpa using h1
  have hd := u16_add_ofNat_sub head ptr (i := i) (by omega)
  simp only [List.getElem_ofFn, List.getElem_append, List.length_ofFn]
  rw [writeRing_apply ring ptr data (by omega), hd]
  by_cases hp : i < (ptr - head).toNat
  · rw [dif_pos hp, if_neg (by omega)]
  · rw [dif_neg hp,
      show (65536 - (ptr - head).toNat + i) % 65536 = i - (ptr - head).toNat by omega,
      if_pos (by omega), List.getD_eq_getElem]

/-! ## Each method, then every body -/

section Writer

variable {w : Writer}

theorem remain_toNat (hw : writerKind.valid w) (c : Chip) :
    w.remain.toNat = (w.tailPtr - w.headPtr).toNat - (w.written c).length := by
  have := InWindow.position_add_remain hw
  rw [written_length, Writer.remain]
  omega

theorem Writer.write_stream (hw : writerKind.valid w) (buf : List UInt8) (c : Chip) :
    (w.write buf c).value.1 = UInt16.ofNat (min w.remain.toNat (min buf.length 65535)) ∧
      (w.write buf c).value.2.written (w.write buf c).chip =
        w.written c ++ buf.take (min w.remain.toNat (min buf.length 65535)) ∧
      (w.write buf c).value.2.abort = w.abort := by
  have hn : (min w.remain ((u16TryFrom buf.length).getD u16Max)).toNat =
      min w.remain.toNat (min buf.length 65535) := by rw [u16_toNat_min, u16TryFrom_getD_toNat]
  simp only [Writer.write]
  split
  · have hle : (min w.remain ((u16TryFrom buf.length).getD u16Max)).toNat ≤ w.remain.toNat := by
      rw [hn]; omega
    simp only [Bus.bind_apply, setSnTxBuf_apply, Bus.pure_apply, Outcome.prepend_value,
      Outcome.prepend_chip, Writer.written, Function.update_same]
    refine ⟨by rw [← hn, u16_ofNat_toNat], ?_, trivial⟩
    rw [← hn]
    refine ofFn_writeRing _ _ _ _ ?_ ?_
    · rw [(InWindow.advance hw hle).1, List.length_take]; omega
    · have := u16_toNat_lt (w.tailPtr - w.headPtr)
      have := (InWindow.advance hw hle).2
      unfold InWindow at this; omega
  · rename_i h0
    have h0' : min w.remain.toNat (min buf.length 65535) = 0 := by
      rw [← hn, not_not.1 h0]; rfl
    simp only [Bus.pure_apply, h0', List.take_zero, List.append_nil]
    exact ⟨rfl, trivial, trivial⟩

theorem Writer.writeAll_stream (hw : writerKind.valid w) (buf : List UInt8) (c : Chip) :
    (w.writeAll (E := E) buf c).value.1 =
        (if w.remain.toNat < buf.length then .error .outOfMemory else .ok ()) ∧
      (w.writeAll (E := E) buf c).value.2.written (w.writeAll (E := E) buf c).chip =
        (if w.remain.toNat < buf.length then w.written c else w.written c ++ buf) ∧
      (w.writeAll (E := E) buf c).value.2.abort = w.abort := by
  simp only [Writer.writeAll]
  split
  · rename_i h
    simp only [Bus.pure_apply, if_pos h]
    exact ⟨trivial, trivial, trivial⟩
  · rename_i h
    have hlen : (UInt16.ofNat buf.length).toNat = buf.length := by
      have := u16_toNat_lt w.remain; simp only [u16_toNat_ofNat]; omega
    have hle : (UInt16.ofNat buf.length).toNat ≤ w.remain.toNat := by omega
    simp only [Bus.bind_apply, setSnTxBuf_apply, Bus.pure_apply, Outcome.prepend_value,
      Outcome.prepend_chip, Writer.written, Function.update_same, if_neg h]
    refine ⟨trivial, ofFn_writeRing _ _ _ _ ?_ ?_, trivial⟩
    · rw [(InWindow.advance hw hle).1, hlen]
    · have := u16_toNat_lt (w.tailPtr - w.headPtr)
      have := (InWindow.advance hw hle).2
      unfold InWindow at this; omega

theorem room_of_scope {w' : Writer} (h : writerKind.scope w' = writerKind.scope w) :
    w'.tailPtr - w'.headPtr = w.tailPtr - w.headPtr := by
  simp only [writerKind, Window.mk.injEq] at h
  rw [h.2.1, h.2.2]

end Writer

/-- Every body run on the chip refines its run on a byte list: the same result, the window's
bytes up to the cursor are the list, and the same abort flag. -/
theorem WriterProg.run_stream (p : WriterProg E α) :
    ∀ (w : Writer) (c : Chip), writerKind.valid w →
      ((p.run w c).value.1, (p.run w c).value.2.written (p.run w c).chip,
          (p.run w c).value.2.abort) =
        p.stream (w.tailPtr - w.headPtr).toNat (w.written c) w.abort := by
  induction p with
  | pure a => exact fun _ _ _ => rfl
  | write buf k ih =>
    intro w c hw
    obtain ⟨h1, h2, h3⟩ := w.write_stream hw buf c
    have hc := w.write_confined hw buf c
    simp only [WriterProg.run, Bus.bind_apply, Outcome.prepend_value, Outcome.prepend_chip]
    rw [ih _ _ _ hc.valid, h1, h2, h3, room_of_scope hc.scope, remain_toNat hw c]
    rfl
  | writeAll buf k ih =>
    intro w c hw
    obtain ⟨h1, h2, h3⟩ := w.writeAll_stream (E := E) hw buf c
    have hc := w.writeAll_confined (E := E) hw buf c
    simp only [WriterProg.run, Bus.bind_apply, Outcome.prepend_value, Outcome.prepend_chip]
    rw [ih _ _ _ hc.valid, h1, h2, h3, room_of_scope hc.scope, remain_toNat hw c]
    simp only [WriterProg.stream]
    split <;> rfl
  | abort k ih => exact fun w c hw => ih { w with abort := true } c hw
  | streamLen k ih =>
    intro w c hw
    simp only [WriterProg.run, WriterProg.stream, Writer.streamLen, u16_ofNat_toNat]
    exact ih _ w c hw
  | streamPosition k ih =>
    intro w c hw
    simp only [WriterProg.run, WriterProg.stream, Writer.streamPosition, written_length,
      u16_ofNat_toNat]
    exact ih _ w c hw
  | remain k ih =>
    intro w c hw
    simp only [WriterProg.run, WriterProg.stream, ← remain_toNat hw c, u16_ofNat_toNat]
    exact ih _ w c hw

/-! ## The writer scopes -/

section Exit

variable {sn : Sn} {dest : Option SocketAddrV4} {o : Outcome (Except (Error E) T × Writer)}

theorem writerExit_value : (writerExit sn dest o).value = o.value.1 := by
  unfold writerExit; split <;> (try split) <;> simp_all

theorem writerExit_txBuf : ((writerExit sn dest o).chip sn).txBuf = (o.chip sn).txBuf := by
  unfold writerExit; split <;> (try split) <;> simp

theorem writerExit_txWr : ((writerExit sn dest o).chip sn).txWr =
    if o.value.1.isOk && !o.value.2.abort then o.value.2.ptr else (o.chip sn).txWr := by
  unfold writerExit; split <;> (try split) <;> simp_all [Except.isOk, Except.toBool]

end Exit

theorem writerExit_stream (sn : Sn) (dest : Option SocketAddrV4)
    (f : WriterProg E (Except (Error E) T)) (c : Chip) :
    (writerExit sn dest (f.run (openWriter sn (c sn)) c)).value =
        (f.stream (c sn).txFsr.toNat [] false).1 ∧
      (∀ i (h : i < (f.stream (c sn).txFsr.toNat [] false).2.1.length),
        ((writerExit sn dest (f.run (openWriter sn (c sn)) c)).chip sn).txBuf
          ((c sn).txWr + UInt16.ofNat i) = (f.stream (c sn).txFsr.toNat [] false).2.1[i]) ∧
      ((writerExit sn dest (f.run (openWriter sn (c sn)) c)).chip sn).txWr =
        if (f.stream (c sn).txFsr.toNat [] false).1.isOk &&
            !(f.stream (c sn).txFsr.toNat [] false).2.2 then
          (c sn).txWr + UInt16.ofNat (f.stream (c sn).txFsr.toNat [] false).2.1.length
        else (c sn).txWr := by
  have hc := f.run_confined (openWriter sn (c sn)) c InWindow.start
  have h0 : (openWriter sn (c sn)).written c = [] :=
    List.length_eq_zero.1 (by rw [written_length]; simp [openWriter])
  have hr := f.run_stream (openWriter sn (c sn)) c InWindow.start
  rw [h0, show (openWriter sn (c sn)).tailPtr - (openWriter sn (c sn)).headPtr = (c sn).txFsr from
    u16_add_sub_cancel_left _ _] at hr
  change _ = f.stream (c sn).txFsr.toNat [] false at hr
  generalize f.stream (c sn).txFsr.toNat [] false = s at hr ⊢
  generalize ho : f.run (openWriter sn (c sn)) c = o at hc hr
  obtain ⟨⟨v, w⟩, c', t⟩ := o
  obtain ⟨r, bytes, ab⟩ := s
  simp only [Prod.mk.injEq] at hr
  obtain ⟨rfl, hw, rfl⟩ := hr
  have hs := hc.scope
  have he : TxOnly sn c c' := hc.effect.1
  simp only [writerKind, openWriter, Window.mk.injEq] at hs
  obtain ⟨hsn, hhead, -⟩ := hs
  have hlen : (w.ptr - w.headPtr).toNat = bytes.length := by rw [← hw, written_length]
  refine ⟨writerExit_value, fun i h => ?_, ?_⟩
  · rw [writerExit_txBuf]
    simp only [← hw, Writer.written, List.getElem_ofFn, hsn, hhead]
    rfl
  · have htx : (c' sn).txWr = (c sn).txWr := by rw [TxOnly.apply_self he]
    have hptr : w.ptr = (c sn).txWr + UInt16.ofNat bytes.length := by
      have := u16_toNat_lt w.ptr; have := u16_toNat_lt w.headPtr
      rw [← hhead, u16_eq_iff]
      simp only [u16_toNat_add, u16_toNat_ofNat, u16_toNat_sub] at hlen ⊢
      omega
    rw [writerExit_txWr]
    simp only [hptr, htx]

/-- `udp_writer` and `udp_writer_to` queue exactly what the body wrote: each returns the body's
result; the transmit ring from the old `Sn_TX_WR` holds the body's bytes in order, never more
than `Sn_TX_FSR` of them; and `Sn_TX_WR` moves past them when the body returns `Ok` without
aborting, and stays otherwise. -/
theorem writer_queues_body_bytes (sn : Sn) (addr : SocketAddrV4)
    (f : WriterProg E (Except (Error E) T)) (c : Chip) :
    let s := f.stream (c sn).txFsr.toNat [] false
    s.2.1.length ≤ (c sn).txFsr.toNat ∧
      (udpWriter sn f c).value = s.1 ∧ (udpWriterTo sn addr f c).value = s.1 ∧
      (∀ i (h : i < s.2.1.length),
        ((udpWriter sn f c).chip sn).txBuf ((c sn).txWr + UInt16.ofNat i) = s.2.1[i] ∧
          ((udpWriterTo sn addr f c).chip sn).txBuf ((c sn).txWr + UInt16.ofNat i) = s.2.1[i]) ∧
      ((udpWriter sn f c).chip sn).txWr =
        (if s.1.isOk && !s.2.2 then (c sn).txWr + UInt16.ofNat s.2.1.length else (c sn).txWr) ∧
      ((udpWriterTo sn addr f c).chip sn).txWr =
        (if s.1.isOk && !s.2.2 then (c sn).txWr + UInt16.ofNat s.2.1.length else (c sn).txWr) := by
  obtain ⟨h1, h2, h3⟩ := writerExit_stream sn none f c
  obtain ⟨h1', h2', h3'⟩ := writerExit_stream sn (some addr) f c
  simp only [udpWriter_apply, udpWriterTo_apply, Outcome.prepend_value, Outcome.prepend_chip]
  exact ⟨f.stream_length_le _ [] false (Nat.zero_le _), h1, h1', fun i h => ⟨h2 i h, h2' i h⟩,
    h3, h3'⟩

end W5500Udp
