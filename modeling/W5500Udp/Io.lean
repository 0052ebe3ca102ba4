import W5500Udp.Header

/-! # Scoped readers and writers

`TcpReader` and `Writer` are outside src/; `udp.rs` builds them field by field and hands them
to a caller's body. Their methods follow the spec's cursor contract. A body reaches the chip
only through those methods, so it is a program of method calls, each with a continuation that
takes the call's result: between calls it may compute anything. -/
namespace W5500Udp

/-- Modelled from the spec: `w5500_hl::Error`, not under src/. -/
inductive Error (E : Type) where
  | other (e : E)
  | wouldBlock
  | truncated
  | outOfMemory
  deriving DecidableEq, Repr

/-- Modelled from the spec: `SeekFrom`, not under src/; a target relative to the start of the
scope, its end, or the current position. -/
inductive SeekFrom where
  | start (n : Nat)
  | «end» (n : Int)
  | current (n : Int)
  deriving DecidableEq, Repr

def SeekFrom.offset (pos : SeekFrom) (len position : UInt16) : Int :=
  match pos with
  | .start n => n
  | .«end» n => len.toNat + n
  | .current n => position.toNat + n

variable {E α : Type}

/-! ## `TcpReader`, modelled from the spec

`rewind` resets `ptr` to `head_ptr`; `seek` moves `ptr` within `[head_ptr, tail_ptr]`, and a
target outside fails with nothing moved; `read` copies `min(len buf, remain)` bytes from `ptr`
into the front of `buf` and moves `ptr` past them; `read_exact` fills all of `buf`, or fails
when fewer bytes remain, with `ptr` left where it was; `unread` sets the flag that cancels the
commit. -/

/-- The fields `udp_reader` gives a `TcpReader`. -/
structure TcpReader where
  sn : Sn
  headPtr : UInt16
  tailPtr : UInt16
  ptr : UInt16
  unread : Bool
  deriving DecidableEq, Repr

namespace TcpReader

def streamLen (r : TcpReader) : UInt16 := r.tailPtr - r.headPtr
def streamPosition (r : TcpReader) : UInt16 := r.ptr - r.headPtr
def remain (r : TcpReader) : UInt16 := r.tailPtr - r.ptr
def isUnread (r : TcpReader) : Bool := r.unread

def rewind (r : TcpReader) : TcpReader := { r with ptr := r.headPtr }

def seek (r : TcpReader) (pos : SeekFrom) : Except (Error E) TcpReader :=
  let target := pos.offset r.streamLen r.streamPosition
  if 0 ≤ target ∧ target ≤ r.streamLen.toNat then
    .ok { r with ptr := r.headPtr + UInt16.ofNat target.toNat }
  else .error .truncated

def read (r : TcpReader) (buf : List UInt8) : Bus ((UInt16 × List UInt8) × TcpReader) :=
  let readSize := min r.remain ((u16TryFrom buf.length).getD u16Max)
  if readSize ≠ 0 then do
    let data ← snRxBuf r.sn r.ptr readSize.toNat
    return ((readSize, List.ofFn data ++ buf.drop readSize.toNat),
      { r with ptr := r.ptr + readSize })
  else
    return ((0, buf), r)

def readExact (r : TcpReader) (buf : List UInt8) :
    Bus (Except (Error E) (List UInt8) × TcpReader) :=
  if r.remain.toNat < buf.length then
    pure (.error .truncated, r)
  else do
    let data ← snRxBuf r.sn r.ptr buf.length
    return (.ok (List.ofFn data), { r with ptr := r.ptr + UInt16.ofNat buf.length })

end TcpReader

structure UdpReader where
  inner : TcpReader
  header : UdpHeader
  deriving DecidableEq

namespace UdpReader

def seek (r : UdpReader) (pos : SeekFrom) : Except (Error E) UdpReader :=
  (r.inner.seek pos).map fun inner => { r with inner }

def rewind (r : UdpReader) : UdpReader := { r with inner := r.inner.rewind }
def streamLen (r : UdpReader) : UInt16 := r.inner.streamLen
def streamPosition (r : UdpReader) : UInt16 := r.inner.streamPosition
def remain (r : UdpReader) : UInt16 := r.inner.remain

def read (r : UdpReader) (buf : List UInt8) : Bus ((UInt16 × List UInt8) × UdpReader) := do
  let res ← r.inner.read buf
  return (res.1, { r with inner := res.2 })

def readExact (r : UdpReader) (buf : List UInt8) :
    Bus (Except (Error E) (List UInt8) × UdpReader) := do
  let res ← r.inner.readExact buf
  return (res.1, { r with inner := res.2 })

def unread (r : UdpReader) : UdpReader := { r with inner := { r.inner with unread := true } }

def isUnread (r : UdpReader) : Bool := r.inner.isUnread

end UdpReader

/-- A caller's body over the public methods of a `UdpReader`. -/
inductive ReaderProg (E α : Type) where
  | pure (a : α)
  | read (buf : List UInt8) (k : UInt16 × List UInt8 → ReaderProg E α)
  | readExact (buf : List UInt8) (k : Except (Error E) (List UInt8) → ReaderProg E α)
  | seek (pos : SeekFrom) (k : Except (Error E) Unit → ReaderProg E α)
  | rewind (k : ReaderProg E α)
  | streamLen (k : UInt16 → ReaderProg E α)
  | streamPosition (k : UInt16 → ReaderProg E α)
  | remain (k : UInt16 → ReaderProg E α)
  | unread (k : ReaderProg E α)
  | isUnread (k : Bool → ReaderProg E α)
  | header (k : UdpHeader → ReaderProg E α)

def ReaderProg.run : ReaderProg E α → UdpReader → Bus (α × UdpReader)
  | .pure a, r => Pure.pure (a, r)
  | .read buf k, r => r.read buf >>= fun res => (k res.1).run res.2
  | .readExact buf k, r => r.readExact buf >>= fun res => (k res.1).run res.2
  | .seek pos k, r =>
    match r.seek pos with
    | .ok r' => (k (.ok ())).run r'
    | .error e => (k (.error e)).run r
  | .rewind k, r => k.run r.rewind
  | .streamLen k, r => (k r.streamLen).run r
  | .streamPosition k, r => (k r.streamPosition).run r
  | .remain k, r => (k r.remain).run r
  | .unread k, r => k.run r.unread
  | .isUnread k, r => (k r.isUnread).run r
  | .header k, r => (k r.header).run r

/-! ## `Writer`, modelled from the spec

`write` copies as much of `buf` as fits at `ptr` and moves `ptr` past it; `write_all` writes all
of `buf`, or fails with nothing written when it does not fit; `abort` sets the flag that cancels
the commit. -/

/-- The fields `udp_writer` gives a `Writer`. -/
structure Writer where
  sn : Sn
  headPtr : UInt16
  tailPtr : UInt16
  ptr : UInt16
  abort : Bool
  deriving DecidableEq, Repr

namespace Writer

def streamLen (w : Writer) : UInt16 := w.tailPtr - w.headPtr
def streamPosition (w : Writer) : UInt16 := w.ptr - w.headPtr
def remain (w : Writer) : UInt16 := w.tailPtr - w.ptr

def write (w : Writer) (buf : List UInt8) : Bus (UInt16 × Writer) :=
  let writeSize := min w.remain ((u16TryFrom buf.length).getD u16Max)
  if writeSize ≠ 0 then do
    setSnTxBuf w.sn w.ptr (buf.take writeSize.toNat)
    return (writeSize, { w with ptr := w.ptr + writeSize })
  else
    return (0, w)

def writeAll (w : Writer) (buf : List UInt8) : Bus (Except (Error E) Unit × Writer) :=
  if w.remain.toNat < buf.length then
    pure (.error .outOfMemory, w)
  else do
    setSnTxBuf w.sn w.ptr buf
    return (.ok (), { w with ptr := w.ptr + UInt16.ofNat buf.length })

end Writer

/-- A caller's body over the public methods of a `Writer`. -/
inductive WriterProg (E α : Type) where
  | pure (a : α)
  | write (buf : List UInt8) (k : UInt16 → WriterProg E α)
  | writeAll (buf : List UInt8) (k : Except (Error E) Unit → WriterProg E α)
  | abort (k : WriterProg E α)
  | streamLen (k : UInt16 → WriterProg E α)
  | streamPosition (k : UInt16 → WriterProg E α)
  | remain (k : UInt16 → WriterProg E α)

def WriterProg.run : WriterProg E α → Writer → Bus (α × Writer)
  | .pure a, w => Pure.pure (a, w)
  | .write buf k, w => w.write buf >>= fun res => (k res.1).run res.2
  | .writeAll buf k, w => w.writeAll buf >>= fun res => (k res.1).run res.2
  | .abort k, w => k.run { w with abort := true }
  | .streamLen k, w => (k w.streamLen).run w
  | .streamPosition k, w => (k w.streamPosition).run w
  | .remain k, w => (k w.remain).run w

end W5500Udp
