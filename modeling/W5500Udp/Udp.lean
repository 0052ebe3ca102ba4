import W5500Udp.Io

/-! # The `Udp` trait

`udp.rs` on the register model, one definition per method. This is the release build: the
`debug_assert!`s are compiled out, so the port check over the other sockets and the status
reads they make are not performed (the debug build is modelled with the bind lifecycle). A
`&mut [u8]` argument is passed in and handed back with the result; the paths that return early
hand it back unchanged. -/
namespace W5500Udp

variable {E T : Type}

/-- `SocketMode::DEFAULT.set_protocol(Protocol::Udp)`. -/
def udpMode : SocketMode := SocketMode.DEFAULT.setProtocol .udp

/-- `loop { if self.sn_sr(sn)? == Ok(status) { break } }`, polling at most `fuel` times;
`false` when the status has not shown by then. -/
def pollStatus (sn : Sn) (status : SocketStatus) : Nat → Bus Bool
  | 0 => pure false
  | fuel + 1 => do
    if (← snSr sn) = status then pure true else pollStatus sn status fuel

/-- `Udp::udp_bind`, each wait bounded by `fuel` polls; `true` when both ended. -/
def udpBind (fuel : Nat) (sn : Sn) (port : UInt16) : Bus Bool := do
  setSnCr sn .close
  if !(← pollStatus sn .closed fuel) then return false
  setSnPort sn port
  setSnMr sn udpMode
  setSnCr sn .«open»
  pollStatus sn .udp fuel

def udpRecvFrom (sn : Sn) (buf : List UInt8) :
    Bus (Except (Error E) (UInt16 × SocketAddrV4) × List UInt8) := do
  let some rsr := checkedSub (← snRxRsr sn) UdpHeader.LEN
    | return (.error .wouldBlock, buf)
  let ptr ← snRxRd sn
  let header ← snRxBuf sn ptr UdpHeader.LEN_USIZE
  let ptr := ptr + UdpHeader.LEN
  let header := UdpHeader.deser header
  if rsr < header.len then
    return (.error .wouldBlock, buf)
  let readSize := min header.len ((u16TryFrom buf.length).getD u16Max)
  let buf ← if readSize ≠ 0 then do
      let data ← snRxBuf sn ptr readSize.toNat
      pure (List.ofFn data ++ buf.drop readSize.toNat)
    else pure buf
  let ptr := ptr + header.len
  setSnRxRd sn ptr
  setSnCr sn .recv
  return (.ok (readSize, header.origin), buf)

def udpPeekFrom (sn : Sn) (buf : List UInt8) :
    Bus (Except (Error E) (UInt16 × UdpHeader) × List UInt8) := do
  let some rsr := checkedSub (← snRxRsr sn) UdpHeader.LEN
    | return (.error .wouldBlock, buf)
  let ptr ← snRxRd sn
  let header ← snRxBuf sn ptr UdpHeader.LEN_USIZE
  let ptr := ptr + UdpHeader.LEN
  let header := UdpHeader.deser header
  if rsr < header.len then
    return (.error .wouldBlock, buf)
  let readSize := min header.len ((u16TryFrom buf.length).getD u16Max)
  let buf ← if readSize ≠ 0 then do
      let data ← snRxBuf sn ptr readSize.toNat
      pure (List.ofFn data ++ buf.drop readSize.toNat)
    else pure buf
  return (.ok (readSize, header), buf)

def udpPeekFromHeader (sn : Sn) : Bus (Except (Error E) UdpHeader) := do
  let rsr ← snRxRsr sn
  if rsr < UdpHeader.LEN then
    return .error .wouldBlock
  let ptr ← snRxRd sn
  let header ← snRxBuf sn ptr UdpHeader.LEN_USIZE
  return .ok (UdpHeader.deser header)

def udpSend (sn : Sn) (buf : List UInt8) : Bus UInt16 := do
  let dataLen := (u16TryFrom buf.length).getD u16Max
  let freeSize ← snTxFsr sn
  let txBytes := min dataLen freeSize
  if txBytes ≠ 0 then
    let ptr ← snTxWr sn
    setSnTxBuf sn ptr (buf.take txBytes.toNat)
    setSnTxWr sn (ptr + txBytes)
    setSnCr sn .send
  return txBytes

def udpSendTo (sn : Sn) (buf : List UInt8) (addr : SocketAddrV4) : Bus UInt16 := do
  setSnDest sn addr
  udpSend sn buf

def udpSendIfFree (sn : Sn) (buf : List UInt8) : Bus UInt16 := do
  let some dataLen := u16TryFrom buf.length
    | return 0
  let freeSize ← snTxFsr sn
  if dataLen ≤ freeSize then
    let ptr ← snTxWr sn
    setSnTxBuf sn ptr buf
    setSnTxWr sn (ptr + dataLen)
    setSnCr sn .send
  return dataLen

def udpSendToIfFree (sn : Sn) (buf : List UInt8) (addr : SocketAddrV4) : Bus UInt16 := do
  setSnDest sn addr
  udpSendIfFree sn buf

def udpReader (sn : Sn) (f : ReaderProg E (Except (Error E) T)) : Bus (Except (Error E) T) := do
  let some rsr := checkedSub (← snRxRsr sn) UdpHeader.LEN
    | return .error .wouldBlock
  let snRxRd ← snRxRd sn
  let header ← snRxBuf sn snRxRd UdpHeader.LEN_USIZE
  let header := UdpHeader.deser header
  let rsrOrDatagramLen := min header.len rsr
  let headPtr := snRxRd + UdpHeader.LEN
  let reader : UdpReader :=
    ⟨⟨sn, headPtr, headPtr + rsrOrDatagramLen, headPtr, false⟩, header⟩
  let res ← f.run reader
  match res.1 with
  | .error e => return .error e
  | .ok ret =>
    if !res.2.inner.isUnread then
      setSnRxRd sn res.2.inner.tailPtr
      setSnCr sn .recv
    return .ok ret

def udpWriter (sn : Sn) (f : WriterProg E (Except (Error E) T)) : Bus (Except (Error E) T) := do
  let snTxFsr ← snTxFsr sn
  let snTxWr ← snTxWr sn
  let writer : Writer := ⟨sn, snTxWr, snTxWr + snTxFsr, snTxWr, false⟩
  let res ← f.run writer
  match res.1 with
  | .error e => return .error e
  | .ok ret =>
    if !res.2.abort then
      setSnTxWr sn res.2.ptr
      setSnCr sn .send
    return .ok ret

def udpWriterTo (sn : Sn) (addr : SocketAddrV4) (f : WriterProg E (Except (Error E) T)) :
    Bus (Except (Error E) T) := do
  let snTxFsr ← snTxFsr sn
  let snTxWr ← snTxWr sn
  let writer : Writer := ⟨sn, snTxWr, snTxWr + snTxFsr, snTxWr, false⟩
  let res ← f.run writer
  match res.1 with
  | .error e => return .error e
  | .ok ret =>
    if !res.2.abort then
      setSnDest sn addr
      setSnTxWr sn res.2.ptr
      setSnCr sn .send
    return .ok ret

/-! ## Binding -/

theorem udpMode_statusAfterOpen : udpMode.statusAfterOpen = .udp := rfl

theorem pollStatus_apply (sn : Sn) (status : SocketStatus) (fuel : Nat) (c : Chip) :
    pollStatus sn status fuel c =
      if (c sn).sr = status then
        ⟨decide (0 < fuel), c, List.replicate (min fuel 1) (.read sn .sr)⟩
      else ⟨false, c, List.replicate fuel (.read sn .sr)⟩ := by
  induction fuel with
  | zero => split <;> rfl
  | succ n ih =>
    simp only [pollStatus, Bus.bind_apply, snSr, readReg_apply]
    split
    · rename_i h; simp [h]
    · rename_i h; simp [h, ih, List.replicate_succ]

theorem udpBind_apply (fuel : Nat) (sn : Sn) (port : UInt16) (c : Chip) :
    udpBind fuel sn port c =
      if 0 < fuel then
        ⟨true, Function.update c sn
            { (c sn).exec .close with sr := .udp, port := port, mr := udpMode },
          [.command sn .close, .read sn .sr, .write sn .port, .write sn .mr, .command sn .open,
            .read sn .sr]⟩
      else ⟨false, Function.update c sn ((c sn).exec .close), [.command sn .close]⟩ := by
  cases fuel with
  | zero => rfl
  | succ n =>
    simp [udpBind, pollStatus_apply, Socket.exec, setSnPort, setSnMr, udpMode_statusAfterOpen]

end W5500Udp
