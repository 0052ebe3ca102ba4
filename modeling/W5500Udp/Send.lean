import W5500Udp.Udp
import W5500Udp.Scope

/-! # The transmit paths

One lemma per send method gives its whole outcome. `udp_send` queues what fits;
`udp_send_if_free` queues all or nothing but, when nothing fits, still returns the length it
did not queue. The writer scopes commit exactly when the body succeeds without aborting. -/
namespace W5500Udp

variable {E T α : Type}

@[simp] theorem Socket.exec_send (s : Socket) : s.exec .send = s := rfl

/-- The count `udp_send` queues: the buffer's length saturated at `u16::MAX`, cut to the free
space. -/
def sendCount (s : Socket) (buf : List UInt8) : UInt16 :=
  min ((u16TryFrom buf.length).getD u16Max) s.txFsr

/-- Queuing `data` at `Sn_TX_WR`: the bytes written from there, the pointer moved past them. -/
def queued (s : Socket) (data : List UInt8) (n : UInt16) : Socket :=
  { s with txBuf := writeRing s.txBuf s.txWr data, txWr := s.txWr + n }

def sendWrites (sn : Sn) (wr : UInt16) (n : Nat) : List Access :=
  [.read sn .txWr, .txBuf sn wr n, .write sn .txWr, .command sn .send]

theorem udpSend_apply (sn : Sn) (buf : List UInt8) (c : Chip) :
    udpSend sn buf c =
      if sendCount (c sn) buf ≠ 0 then
        ⟨sendCount (c sn) buf, Function.update c sn
            (queued (c sn) (buf.take (sendCount (c sn) buf).toNat) (sendCount (c sn) buf)),
          .read sn .txFsr :: sendWrites sn (c sn).txWr (sendCount (c sn) buf).toNat⟩
      else ⟨0, c, [.read sn .txFsr]⟩ := by
  simp only [udpSend, sendCount, Bus.bind_apply, snTxFsr, readReg_apply]
  split
  · rename_i h
    have hl : (List.take (sendCount (c sn) buf).toNat buf).length =
        (sendCount (c sn) buf).toNat := by
      simp only [List.length_take, sendCount, u16_toNat_min, u16TryFrom_getD_toNat]; omega
    simp only [sendCount] at hl
    simp only [snTxWr, Bus.bind_apply, readReg_apply, setSnTxBuf_apply, setSnTxWr, writeReg_apply,
      setSnCr_apply, Function.update_same, Socket.exec_send, Function.update_idem,
      Bus.pure_apply, Outcome.prepend_mk, hl, queued, sendWrites, List.singleton_append]
  · rename_i h
    simp only [not_not] at h
    simp only [h, Bus.bind_apply, Bus.pure_apply, Outcome.prepend_mk, List.append_nil]

theorem udpSendIfFree_apply (sn : Sn) (buf : List UInt8) (c : Chip) :
    udpSendIfFree sn buf c =
      match u16TryFrom buf.length with
      | none => ⟨0, c, []⟩
      | some n =>
        if n ≤ (c sn).txFsr then
          ⟨n, Function.update c sn (queued (c sn) buf n),
            .read sn .txFsr :: sendWrites sn (c sn).txWr buf.length⟩
        else ⟨n, c, [.read sn .txFsr]⟩ := by
  simp only [udpSendIfFree]
  cases u16TryFrom buf.length with
  | none => rfl
  | some n =>
    simp only [Bus.bind_apply, snTxFsr, readReg_apply]
    split
    · simp only [snTxWr, Bus.bind_apply, readReg_apply, setSnTxBuf_apply, setSnTxWr,
        writeReg_apply, setSnCr_apply, Function.update_same, Socket.exec_send,
        Function.update_idem, Bus.pure_apply, Outcome.prepend_mk, queued, sendWrites,
        List.singleton_append]
    · simp only [Bus.bind_apply, Bus.pure_apply, Outcome.prepend_mk, List.append_nil]

theorem sendCount_toNat (s : Socket) (buf : List UInt8) :
    (sendCount s buf).toNat = min (min buf.length 65535) s.txFsr.toNat := by
  rw [sendCount, u16_toNat_min, u16TryFrom_getD_toNat]

theorem queued_txBuf (s : Socket) {data : List UInt8} {n : UInt16} (hn : data.length = n.toNat) :
    (∀ i, i < n.toNat → (queued s data n).txBuf (s.txWr + UInt16.ofNat i) = data.getD i 0) ∧
    ∀ a, n.toNat ≤ (a - s.txWr).toNat → (queued s data n).txBuf a = s.txBuf a := by
  have hl : data.length ≤ 65536 := hn ▸ (u16_toNat_lt n).le
  refine ⟨fun i hi => ?_, fun a ha => writeRing_of_le _ _ _ hl (hn ▸ ha)⟩
  have hi' : i < 65536 := by have := u16_toNat_lt n; omega
  simp only [queued, writeRing_apply _ _ _ hl, u16_sub_add_ofNat _ hi', hn, if_pos hi]

theorem udpSendTo_eq (sn : Sn) (buf : List UInt8) (addr : SocketAddrV4) (c : Chip) :
    udpSendTo sn buf addr c =
      (udpSend sn buf (Function.update c sn { c sn with dest := addr })).prepend
        [.write sn .dest] := rfl

/-- `udp_send` queues `n = min(min(len buf, u16::MAX), Sn_TX_FSR)` bytes: the first `n` bytes of
`buf` land at `Sn_TX_WR + i`, no other byte and no other register changes but `Sn_TX_WR`, which
moves by `n`, and `Send` is issued exactly when `n` is not zero; with `n = 0` nothing is written
at all. `udp_send_to` is the same after writing the destination. -/
theorem udp_send_queues_what_fits (sn : Sn) (buf : List UInt8) (addr : SocketAddrV4)
    (c : Chip) :
    let s := c sn
    let o := udpSend sn buf c
    o.value.toNat = min (min buf.length 65535) s.txFsr.toNat ∧
    (∀ i, i < o.value.toNat → (o.chip sn).txBuf (s.txWr + UInt16.ofNat i) = buf.getD i 0) ∧
    (∀ a, o.value.toNat ≤ (a - s.txWr).toNat → (o.chip sn).txBuf a = s.txBuf a) ∧
    o.chip = Function.update c sn { s with txBuf := (o.chip sn).txBuf, txWr := s.txWr + o.value } ∧
    (Access.command sn .send ∈ o.trace ↔ 0 < o.value.toNat) ∧
    (o.value = 0 → o.chip = c ∧ ∀ a ∈ o.trace, a.IsRead) ∧
    udpSendTo sn buf addr c =
      (udpSend sn buf (Function.update c sn { s with dest := addr })).prepend [.write sn .dest] := by
  have hn := sendCount_toNat (c sn) buf
  by_cases h : sendCount (c sn) buf = 0
  · have happ : udpSend sn buf c = ⟨0, c, [.read sn .txFsr]⟩ := by
      rw [udpSend_apply, if_neg (not_not.2 h)]
    have h0 : min (min buf.length 65535) (c sn).txFsr.toNat = 0 := by rw [← hn, h]; rfl
    have hwr : (c sn).txWr + 0 = (c sn).txWr := by
      rw [u16_eq_iff]; simp [Nat.mod_eq_of_lt (u16_toNat_lt _)]
    dsimp only
    rw [happ]
    refine ⟨by rw [UInt16.toNat_zero, h0], fun i hi => absurd hi (Nat.not_lt_zero _),
      fun _ _ => rfl, ?_, by simp, fun _ => ⟨rfl, by simp [Access.IsRead]⟩,
      udpSendTo_eq sn buf addr c⟩
    rw [hwr]
    exact (Function.update_eq_self sn c).symm
  · have happ := udpSend_apply sn buf c
    rw [if_pos h] at happ
    have hpos : 0 < (sendCount (c sn) buf).toNat :=
      Nat.pos_of_ne_zero fun h0 => h ((u16_eq_iff _ _).2 h0)
    have hq := @queued_txBuf (c sn) (buf.take (sendCount (c sn) buf).toNat) (sendCount (c sn) buf)
      (by simp only [List.length_take]; omega)
    dsimp only
    rw [happ]
    simp only [Function.update_same]
    refine ⟨hn, fun i hi => ?_, hq.2, rfl, by simp [sendWrites, hpos], fun h0 => absurd h0 h,
      udpSendTo_eq sn buf addr c⟩
    rw [hq.1 i hi, List.getD_eq_getElem?_getD, List.getElem?_take_of_lt hi,
      List.getD_eq_getElem?_getD]

theorem udpSendToIfFree_eq (sn : Sn) (buf : List UInt8) (addr : SocketAddrV4) (c : Chip) :
    udpSendToIfFree sn buf addr c =
      (udpSendIfFree sn buf (Function.update c sn { c sn with dest := addr })).prepend
        [.write sn .dest] := rfl

/-- `udp_send_if_free` queues all of `buf` or nothing: either the whole buffer lands at
`Sn_TX_WR`, the pointer moves by its length, `Send` is issued and the length is returned, or
the chip is left as it was with nothing but reads on the bus. `udp_send_to_if_free` is the same
after writing the destination. -/
theorem udp_send_if_free_all_or_nothing (sn : Sn) (buf : List UInt8) (addr : SocketAddrV4)
    (c : Chip) :
    let o := udpSendIfFree sn buf c
    ((o.value.toNat = buf.length ∧
        o.chip = Function.update c sn (queued (c sn) buf o.value) ∧
        o.trace = .read sn .txFsr :: sendWrites sn (c sn).txWr buf.length) ∨
      (o.chip = c ∧ ∀ a ∈ o.trace, a.IsRead)) ∧
    udpSendToIfFree sn buf addr c =
      (udpSendIfFree sn buf (Function.update c sn { c sn with dest := addr })).prepend
        [.write sn .dest] := by
  refine ⟨?_, udpSendToIfFree_eq sn buf addr c⟩
  dsimp only
  rw [udpSendIfFree_apply]
  cases h : u16TryFrom buf.length with
  | none => exact .inr ⟨rfl, by simp⟩
  | some n =>
    simp only
    split
    · exact .inl ⟨(u16TryFrom_eq_some.1 h).2, rfl, rfl⟩
    · exact .inr ⟨rfl, by simp [Access.IsRead]⟩

theorem udpSendIfFree_of_full {sn : Sn} {buf : List UInt8} {c : Chip} (hb : buf.length < 65536)
    (hf : (c sn).txFsr.toNat < buf.length) :
    udpSendIfFree sn buf c = ⟨UInt16.ofNat buf.length, c, [.read sn .txFsr]⟩ := by
  have h : u16TryFrom buf.length = some (UInt16.ofNat buf.length) := by simp [u16TryFrom, hb]
  have hn : ¬ UInt16.ofNat buf.length ≤ (c sn).txFsr := by
    rw [u16_le_iff, u16_toNat_ofNat, Nat.mod_eq_of_lt hb]; omega
  rw [udpSendIfFree_apply, h]
  simp only [if_neg hn]

def idleSocket (free : UInt16) : Socket :=
  { mr := SocketMode.DEFAULT, sr := .udp, port := 0, dest := ⟨⟨fun _ => 0⟩, 0⟩, txFsr := free,
    txWr := 0, rxRsr := 0, rxRd := 0, txBuf := fun _ => 0, rxBuf := fun _ => 0, txSize := free }

/-- Ten bytes offered with five free: nothing is written, `Sn_TX_WR` stays, no `Send` is issued,
and `udp_send_if_free` returns 10. -/
theorem udpSendIfFree_ten_into_five :
    (udpSendIfFree 0 (List.replicate 10 0) (fun _ => idleSocket 5)).value = 10 ∧
    (udpSendIfFree 0 (List.replicate 10 0) (fun _ => idleSocket 5)).chip = (fun _ => idleSocket 5) ∧
    Access.command 0 .send ∉ (udpSendIfFree 0 (List.replicate 10 0) (fun _ => idleSocket 5)).trace := by
  rw [udpSendIfFree_of_full (by decide) (by decide)]
  exact ⟨rfl, rfl, by decide⟩

/-! ## Writer scopes -/

def openWriter (sn : Sn) (s : Socket) : Writer :=
  ⟨sn, s.txWr, s.txWr + s.txFsr, s.txWr, false⟩

/-- What the writer scopes do once the body returned: pass its error on, or, unless the body
aborted, write the destination when one is given, move `Sn_TX_WR` to the cursor, and send. -/
def writerExit (sn : Sn) (dest : Option SocketAddrV4) (o : Outcome (Except (Error E) T × Writer)) :
    Outcome (Except (Error E) T) :=
  match o.value.1 with
  | .error e => ⟨.error e, o.chip, o.trace⟩
  | .ok v =>
    if o.value.2.abort then ⟨.ok v, o.chip, o.trace⟩
    else ⟨.ok v, Function.update o.chip sn
        { o.chip sn with dest := dest.getD (o.chip sn).dest, txWr := o.value.2.ptr },
      o.trace ++ (dest.map fun _ => [Access.write sn .dest]).getD [] ++
        [.write sn .txWr, .command sn .send]⟩

theorem udpWriter_apply (sn : Sn) (f : WriterProg E (Except (Error E) T)) (c : Chip) :
    udpWriter sn f c = (writerExit sn none (f.run (openWriter sn (c sn)) c)).prepend
      [.read sn .txFsr, .read sn .txWr] := by
  simp only [udpWriter, Bus.bind_apply, snTxFsr, snTxWr, readReg_apply, Outcome.prepend_mk,
    openWriter, writerExit]
  generalize f.run _ c = o
  obtain ⟨⟨v, w⟩, c', t⟩ := o
  cases v with
  | error e => simp
  | ok v =>
    by_cases ha : w.abort
    · simp [ha]
    · simp [ha, setSnTxWr]

theorem udpWriterTo_apply (sn : Sn) (addr : SocketAddrV4) (f : WriterProg E (Except (Error E) T))
    (c : Chip) :
    udpWriterTo sn addr f c = (writerExit sn (some addr) (f.run (openWriter sn (c sn)) c)).prepend
      [.read sn .txFsr, .read sn .txWr] := by
  simp only [udpWriterTo, Bus.bind_apply, snTxFsr, snTxWr, readReg_apply, Outcome.prepend_mk,
    openWriter, writerExit]
  generalize f.run _ c = o
  obtain ⟨⟨v, w⟩, c', t⟩ := o
  cases v with
  | error e => simp
  | ok v =>
    by_cases ha : w.abort
    · simp [ha]
    · simp [ha, setSnTxWr, setSnDest]

theorem writerExit_of_commit {sn : Sn} {dest : Option SocketAddrV4}
    {o : Outcome (Except (Error E) T × Writer)} {v : T} (hv : o.value.1 = .ok v)
    (ha : o.value.2.abort = false) :
    writerExit sn dest o = ⟨.ok v, Function.update o.chip sn
        { o.chip sn with dest := dest.getD (o.chip sn).dest, txWr := o.value.2.ptr },
      o.trace ++ (dest.map fun _ => [Access.write sn .dest]).getD [] ++
        [.write sn .txWr, .command sn .send]⟩ := by
  simp [writerExit, hv, ha]

theorem writerExit_of_keep {sn : Sn} {dest : Option SocketAddrV4}
    {o : Outcome (Except (Error E) T × Writer)}
    (h : (∃ e, o.value.1 = .error e) ∨ o.value.2.abort = true) :
    writerExit sn dest o = ⟨o.value.1, o.chip, o.trace⟩ := by
  unfold writerExit
  split
  · rename_i e he; rw [he]
  · rename_i v hv
    rcases h with ⟨e, he⟩ | ha
    · rw [hv] at he; cases he
    · rw [if_pos ha, hv]

theorem TxOnly.apply_self {sn : Sn} {c c' : Chip} (h : TxOnly sn c c') :
    c' sn = { c sn with txBuf := (c' sn).txBuf } := by
  conv_lhs => rw [h]
  simp

theorem writer_body_tx_only (sn : Sn) (f : WriterProg E α) (c : Chip) :
    TxOnly sn c (f.run (openWriter sn (c sn)) c).chip ∧
      ∀ a ∈ (f.run (openWriter sn (c sn)) c).trace, ∃ p n, a = .txBuf sn p n := by
  have h := f.run_confined (openWriter sn (c sn)) c InWindow.start
  refine ⟨h.effect.1, fun a ha => ?_⟩
  have hc := h.covers a ha
  rcases a with _ | _ | _ | _ | ⟨sn', p, n⟩ <;> simp only [writerKind, Window.CoversTx] at hc
  exact ⟨p, n, by rw [hc.1]; rfl⟩

/-- The writer scopes open a writer at `Sn_TX_WR` spanning `Sn_TX_FSR` bytes. When the body
returns `Ok` without aborting, `Sn_TX_WR` moves to the writer's cursor and one `Send` follows,
`udp_writer_to` writing the destination first; when it aborts or fails, `Sn_TX_WR`, the
destination and the command register are untouched and the body's result is returned as it
is. The body itself writes nothing but transmit-buffer bytes. -/
theorem writer_commits_iff_body_succeeds (sn : Sn) (addr : SocketAddrV4)
    (f : WriterProg E (Except (Error E) T)) (c : Chip) :
    let w := openWriter sn (c sn)
    let o := f.run w c
    let pre := [Access.read sn .txFsr, .read sn .txWr]
    w.headPtr = (c sn).txWr ∧ w.ptr = w.headPtr ∧ w.tailPtr - w.headPtr = (c sn).txFsr ∧
    udpWriter sn f c = (writerExit sn none o).prepend pre ∧
    udpWriterTo sn addr f c = (writerExit sn (some addr) o).prepend pre ∧
    (∀ a ∈ o.trace, ∃ p n, a = .txBuf sn p n) ∧
    (∀ v, o.value.1 = .ok v → o.value.2.abort = false →
      (udpWriter sn f c).value = .ok v ∧ ((udpWriter sn f c).chip sn).txWr = o.value.2.ptr ∧
      (udpWriter sn f c).trace = pre ++ o.trace ++ [.write sn .txWr, .command sn .send] ∧
      (udpWriterTo sn addr f c).value = .ok v ∧
      ((udpWriterTo sn addr f c).chip sn).txWr = o.value.2.ptr ∧
      ((udpWriterTo sn addr f c).chip sn).dest = addr ∧
      (udpWriterTo sn addr f c).trace =
        pre ++ o.trace ++ [.write sn .dest, .write sn .txWr, .command sn .send]) ∧
    ((∃ e, o.value.1 = .error e) ∨ o.value.2.abort = true →
      (udpWriter sn f c).value = o.value.1 ∧ (udpWriterTo sn addr f c).value = o.value.1 ∧
      (udpWriter sn f c).chip = o.chip ∧ (udpWriterTo sn addr f c).chip = o.chip ∧
      (o.chip sn).txWr = (c sn).txWr ∧ (o.chip sn).dest = (c sn).dest ∧
      (udpWriter sn f c).trace = pre ++ o.trace ∧ (udpWriterTo sn addr f c).trace = pre ++ o.trace) := by
  intro w o pre
  obtain ⟨htx, hbody⟩ := writer_body_tx_only sn f c
  have hw := udpWriter_apply sn f c
  have hwt := udpWriterTo_apply sn addr f c
  refine ⟨rfl, rfl, u16_add_sub_cancel_left _ _, hw, hwt, hbody, fun v hv ha => ?_,
    fun hk => ?_⟩
  · rw [hw, hwt, writerExit_of_commit hv ha, writerExit_of_commit hv ha]
    simp [pre]
  · rw [hw, hwt, writerExit_of_keep hk, writerExit_of_keep hk]
    have hs := htx.apply_self
    refine ⟨rfl, rfl, rfl, rfl, by rw [hs], by rw [hs], rfl, rfl⟩

end W5500Udp
