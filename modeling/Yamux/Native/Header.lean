import Yamux.Native.Bio

/-!
# Frame headers

A header is twelve bytes: version, type, flags, stream id and length, the last
three in network byte order. A frame is a header with the payload that its type
and length call for.
-/

namespace Yamux

/-- `VERSION`. -/
def VERSION : UInt8 := 0

def TYPE_DATA : UInt8 := 0x00
def TYPE_WINDOW_UPDATE : UInt8 := 0x01
def TYPE_PING : UInt8 := 0x02
def TYPE_GO_AWAY : UInt8 := 0x03

def FLAG_SYN : UInt16 := 0x01
def FLAG_ACK : UInt16 := 0x02
def FLAG_FIN : UInt16 := 0x04
def FLAG_RST : UInt16 := 0x08

def GO_AWAY_NORMAL : UInt32 := 0x00
def GO_AWAY_PROTO_ERR : UInt32 := 0x01
def GO_AWAY_INTERNAL_ERR : UInt32 := 0x02

/-- The size of a header. -/
def hdrSize : Nat := 12

/-- `htons`, as the two bytes it stores. -/
def be16 (v : UInt16) : Bytes := [UInt8.ofNat (v.toNat / 2 ^ 8), UInt8.ofNat v.toNat]

/-- `htonl`, as the four bytes it stores. -/
def be32 (v : UInt32) : Bytes :=
  [UInt8.ofNat (v.toNat / 2 ^ 24), UInt8.ofNat (v.toNat / 2 ^ 16),
    UInt8.ofNat (v.toNat / 2 ^ 8), UInt8.ofNat v.toNat]

/-- `hdr_encode`. -/
def hdrEncode (type : UInt8) (flags : UInt16) (id len : UInt32) : Bytes :=
  [VERSION, type] ++ be16 flags ++ be32 id ++ be32 len

/-- `ntohs` of the two bytes at position `i`. -/
def ntohs (h : Bytes) (i : Nat) : UInt16 :=
  UInt16.ofNat ((h.getD i 0).toNat * 2 ^ 8 + (h.getD (i + 1) 0).toNat)

/-- `ntohl` of the four bytes at position `i`. -/
def ntohl (h : Bytes) (i : Nat) : UInt32 :=
  UInt32.ofNat ((h.getD i 0).toNat * 2 ^ 24 + (h.getD (i + 1) 0).toNat * 2 ^ 16 +
    (h.getD (i + 2) 0).toNat * 2 ^ 8 + (h.getD (i + 3) 0).toNat)

/-- `hdr_version`. -/
def hdrVersion (h : Bytes) : UInt8 := h.getD 0 0

/-- `hdr_type`. -/
def hdrType (h : Bytes) : UInt8 := h.getD 1 0

/-- `hdr_flags`. -/
def hdrFlags (h : Bytes) : UInt16 := ntohs h 2

/-- `hdr_stream_id`. -/
def hdrStreamId (h : Bytes) : UInt32 := ntohl h 4

/-- `hdr_length`. -/
def hdrLength (h : Bytes) : UInt32 := ntohl h 8

/-! ## Round trips -/

section RoundTrip

variable (type : UInt8) (flags : UInt16) (id len : UInt32)

@[simp] theorem length_hdrEncode : (hdrEncode type flags id len).length = hdrSize := rfl

@[simp] theorem hdrVersion_hdrEncode : hdrVersion (hdrEncode type flags id len) = VERSION := rfl

@[simp] theorem hdrType_hdrEncode : hdrType (hdrEncode type flags id len) = type := rfl

theorem ofNat_be16 (v : UInt16) :
    UInt16.ofNat ((UInt8.ofNat (v.toNat / 2 ^ 8)).toNat * 2 ^ 8 + (UInt8.ofNat v.toNat).toNat) =
      v := by
  apply UInt16.toNat_inj.mp
  have := v.toNat_lt
  simp only [UInt16.toNat_ofNat', UInt8.toNat_ofNat']
  omega

theorem ofNat_be32 (v : UInt32) :
    UInt32.ofNat ((UInt8.ofNat (v.toNat / 2 ^ 24)).toNat * 2 ^ 24 +
      (UInt8.ofNat (v.toNat / 2 ^ 16)).toNat * 2 ^ 16 +
      (UInt8.ofNat (v.toNat / 2 ^ 8)).toNat * 2 ^ 8 + (UInt8.ofNat v.toNat).toNat) = v := by
  apply UInt32.toNat_inj.mp
  have := v.toNat_lt
  simp only [UInt32.toNat_ofNat', UInt8.toNat_ofNat']
  omega

@[simp] theorem hdrFlags_hdrEncode : hdrFlags (hdrEncode type flags id len) = flags :=
  ofNat_be16 flags

@[simp] theorem hdrStreamId_hdrEncode : hdrStreamId (hdrEncode type flags id len) = id :=
  ofNat_be32 id

@[simp] theorem hdrLength_hdrEncode : hdrLength (hdrEncode type flags id len) = len :=
  ofNat_be32 len

end RoundTrip

/-! ## Frames -/

/-- A header and the payload that follows it on the wire. -/
structure Frame where
  hdr : Bytes
  payload : Bytes
  hdr_length : hdr.length = hdrSize
  payload_length : payload.length = if hdrType hdr = TYPE_DATA then (hdrLength hdr).toNat else 0

namespace Frame

/-- The bytes of a frame. -/
def bytes (f : Frame) : Bytes := f.hdr ++ f.payload

def type (f : Frame) : UInt8 := hdrType f.hdr

def flags (f : Frame) : UInt16 := hdrFlags f.hdr

def id (f : Frame) : UInt32 := hdrStreamId f.hdr

def length (f : Frame) : UInt32 := hdrLength f.hdr

/-- The bytes of a sequence of frames. -/
def encode (fs : List Frame) : Bytes := fs.flatMap bytes

@[simp] theorem encode_nil : encode [] = [] := rfl

@[simp] theorem encode_cons (f : Frame) (fs : List Frame) :
    encode (f :: fs) = f.hdr ++ (f.payload ++ encode fs) := by
  simp [encode, bytes]

@[simp] theorem encode_append (fs gs : List Frame) :
    encode (fs ++ gs) = encode fs ++ encode gs := by
  simp [encode]

/-- A frame without payload: anything but DATA. -/
def control (type : UInt8) (flags : UInt16) (id len : UInt32) (h : type ≠ TYPE_DATA) : Frame where
  hdr := hdrEncode type flags id len
  payload := []
  hdr_length := rfl
  payload_length := by simp [h]

/-- A DATA frame. -/
def data (flags : UInt16) (id : UInt32) (payload : Bytes) (h : payload.length < 2 ^ 32) :
    Frame where
  hdr := hdrEncode TYPE_DATA flags id (UInt32.ofNat payload.length)
  payload := payload
  hdr_length := rfl
  payload_length := by
    simp [UInt32.toNat_ofNat']
    omega

/-- A WINDOW_UPDATE frame. -/
def windowUpdate (flags : UInt16) (id delta : UInt32) : Frame :=
  control TYPE_WINDOW_UPDATE flags id delta (by decide)

end Frame

end Yamux
