import Yamux.Native.Stream

/-!
# Frames on the wire

Cutting a byte string into frames, what a sequence of frames carries for one
stream, and the order that SYN frames impose on a sequence of frames.
-/

namespace Yamux

namespace Frame

/-! ## Cutting bytes into frames -/

/-- The size of the payload that follows a header. -/
def payloadSize (h : Bytes) : Nat := if hdrType h = TYPE_DATA then (hdrLength h).toNat else 0

/-- The first frame of a byte string, if all of it is there, and what follows. -/
def parse (b : Bytes) : Option (Frame × Bytes) :=
  if h : hdrSize + payloadSize (b.take hdrSize) ≤ b.length then
    some ({
      hdr := b.take hdrSize
      payload := (b.drop hdrSize).take (payloadSize (b.take hdrSize))
      hdr_length := by
        rw [List.length_take]
        omega
      payload_length := by
        rw [List.length_take, List.length_drop, min_eq_left (by omega)]
        rfl }, b.drop (hdrSize + payloadSize (b.take hdrSize)))
  else none

/-- At most `fuel` frames from the front of a byte string. -/
def decodeUpTo : Nat → Bytes → List Frame
  | 0, _ => []
  | fuel + 1, b =>
    match parse b with
    | none => []
    | some (f, rest) => f :: decodeUpTo fuel rest

/-- The frames of a byte string, up to the first that is not complete. -/
def decode (b : Bytes) : List Frame := decodeUpTo b.length b

theorem length_bytes (f : Frame) : f.bytes.length = hdrSize + f.payload.length := by
  rw [bytes, List.length_append, f.hdr_length]

/-- A frame is read back from its bytes, whatever follows. -/
theorem parse_bytes (f : Frame) (rest : Bytes) : parse (f.bytes ++ rest) = some (f, rest) := by
  have hhdr : (f.bytes ++ rest).take hdrSize = f.hdr := by
    rw [bytes, List.append_assoc, List.take_left' f.hdr_length]
  have hsize : payloadSize f.hdr = f.payload.length := f.payload_length.symm
  have hle : hdrSize + payloadSize ((f.bytes ++ rest).take hdrSize) ≤
      (f.bytes ++ rest).length := by
    rw [hhdr, hsize, List.length_append, length_bytes]
    omega
  have hpay : ((f.bytes ++ rest).drop hdrSize).take (payloadSize f.hdr) = f.payload := by
    rw [bytes, List.append_assoc, List.drop_left' f.hdr_length, List.take_left' hsize.symm]
  have hrest : (f.bytes ++ rest).drop (hdrSize + payloadSize f.hdr) = rest :=
    List.drop_left' (by rw [length_bytes, hsize])
  unfold parse
  rw [dif_pos hle]
  simp only [hhdr, hpay, hrest]

theorem decodeUpTo_encode {fuel : Nat} (fs : List Frame) (h : fs.length ≤ fuel) :
    decodeUpTo fuel (encode fs) = fs := by
  induction fs generalizing fuel with
  | nil =>
    cases fuel with
    | zero => rfl
    | succ fuel => rfl
  | cons f fs ih =>
    cases fuel with
    | zero => simp at h
    | succ fuel =>
      have hcons : encode (f :: fs) = f.bytes ++ encode fs := rfl
      rw [hcons, decodeUpTo, parse_bytes]
      simp only [ih (Nat.le_of_succ_le_succ h)]

theorem length_le_encode (fs : List Frame) : fs.length ≤ (encode fs).length := by
  induction fs with
  | nil => exact Nat.le_refl _
  | cons f fs ih =>
    rw [encode_cons, List.length_cons, List.length_append, List.length_append, f.hdr_length]
    unfold hdrSize
    omega

/-- Frames are read back from their bytes. -/
@[simp] theorem decode_encode (fs : List Frame) : decode (encode fs) = fs :=
  decodeUpTo_encode fs (length_le_encode fs)

/-- A byte string that holds a header and is made of frames starts with a frame. -/
theorem encode_eq_cons {fs : List Frame} {b rest : Bytes} (h : b ++ rest = encode fs)
    (hlen : hdrSize ≤ b.length) : ∃ f gs, fs = f :: gs ∧ b.take hdrSize = f.hdr ∧
      b.drop hdrSize ++ rest = f.payload ++ encode gs := by
  cases fs with
  | nil =>
    have := congrArg List.length h
    simp only [List.length_append, encode_nil, List.length_nil] at this
    unfold hdrSize at hlen
    omega
  | cons f gs =>
    rw [encode_cons] at h
    refine ⟨f, gs, rfl, ?_, ?_⟩
    · have := congrArg (List.take hdrSize) h
      rwa [List.take_append_of_le_length hlen, List.take_left' f.hdr_length] at this
    · have := congrArg (List.drop hdrSize) h
      rwa [List.drop_append_of_le_length hlen, List.drop_left' f.hdr_length] at this

theorem length_payload {f : Frame} (h : f.type = TYPE_DATA) :
    f.payload.length = f.length.toNat := by
  rw [f.payload_length]
  exact if_pos h

theorem payload_eq_nil {f : Frame} (h : f.type ≠ TYPE_DATA) : f.payload = [] := by
  rw [← List.length_eq_zero_iff, f.payload_length]
  exact if_neg h

/-! ## What frames carry for a stream -/

/-- The payload bytes for a stream. -/
def payloadFor (id : UInt32) (fs : List Frame) : Bytes :=
  fs.flatMap fun f => if f.id = id then f.payload else []

/-- The credit that a frame grants to a stream. -/
def grant (id : UInt32) (f : Frame) : Nat :=
  if f.type = TYPE_WINDOW_UPDATE ∧ f.id = id then f.length.toNat else 0

/-- The credit that frames grant to a stream. -/
def grantFor (id : UInt32) (fs : List Frame) : Nat := (fs.map (grant id)).sum

theorem grant_data {f : Frame} (h : f.type = TYPE_DATA) (id : UInt32) : grant id f = 0 := by
  rw [grant, if_neg]
  rintro ⟨hu, -⟩
  rw [h] at hu
  exact absurd hu (by decide)

theorem grant_update {f : Frame} (h : f.type = TYPE_WINDOW_UPDATE) :
    grant f.id f = f.length.toNat := by
  rw [grant, if_pos ⟨h, rfl⟩]

section Carry

variable (id : UInt32) (f : Frame) (fs gs : List Frame)

@[simp] theorem payloadFor_nil : payloadFor id [] = [] := rfl

@[simp] theorem payloadFor_cons :
    payloadFor id (f :: fs) = (if f.id = id then f.payload else []) ++ payloadFor id fs := by
  simp [payloadFor]

@[simp] theorem payloadFor_append :
    payloadFor id (fs ++ gs) = payloadFor id fs ++ payloadFor id gs := by
  simp [payloadFor]

@[simp] theorem grantFor_nil : grantFor id [] = 0 := rfl

@[simp] theorem grantFor_cons : grantFor id (f :: fs) = grant id f + grantFor id fs := by
  simp [grantFor]

@[simp] theorem grantFor_append : grantFor id (fs ++ gs) = grantFor id fs + grantFor id gs := by
  simp [grantFor]

end Carry

/-- Frames for other streams carry nothing. -/
theorem payloadFor_of_ne {id i : UInt32} {fs : List Frame} (h : ∀ f ∈ fs, f.id = id)
    (hi : i ≠ id) : payloadFor i fs = [] := by
  induction fs with
  | nil => rfl
  | cons f fs ih =>
    have hf : f.id ≠ i := fun he => hi (he ▸ h f List.mem_cons_self)
    rw [payloadFor_cons, if_neg hf, ih fun g hg => h g (List.mem_cons_of_mem f hg)]
    rfl

theorem grantFor_of_ne {id i : UInt32} {fs : List Frame} (h : ∀ f ∈ fs, f.id = id)
    (hi : i ≠ id) : grantFor i fs = 0 := by
  induction fs with
  | nil => rfl
  | cons f fs ih =>
    have hf : ¬ (f.type = TYPE_WINDOW_UPDATE ∧ f.id = i) :=
      fun he => hi (he.2 ▸ h f List.mem_cons_self)
    rw [grantFor_cons, grant, if_neg hf, ih fun g hg => h g (List.mem_cons_of_mem f hg)]

/-! ## The order of frames -/

/-- Whether a frame declares a stream. -/
def Syn (f : Frame) : Prop := hasFlag f.flags FLAG_SYN = true

/-- A stream is declared by the first frame with its id, and by no other one. -/
def Ordered (known : UInt32 → Prop) : List Frame → Prop
  | [] => True
  | f :: fs => (f.Syn ↔ ¬ known f.id) ∧ Ordered (fun i => known i ∨ i = f.id) fs

variable {known known' : UInt32 → Prop} {fs gs : List Frame} {f : Frame}

theorem Ordered.congr (h : Ordered known fs) (hk : ∀ i, known i ↔ known' i) :
    Ordered known' fs := by
  have : known = known' := funext fun i => propext (hk i)
  exact this ▸ h

/-- Knowing more streams only matters to the frames that declare one. -/
theorem Ordered.mono (h : Ordered known fs) (hk : ∀ i, known i → known' i)
    (hs : ∀ f ∈ fs, f.Syn → known' f.id → known f.id) : Ordered known' fs := by
  induction fs generalizing known known' with
  | nil => trivial
  | cons f fs ih =>
    obtain ⟨hf, hfs⟩ := h
    constructor
    · constructor
      · intro hsyn hk'
        exact hf.mp hsyn (hs f List.mem_cons_self hsyn hk')
      · intro hk'
        exact hf.mpr fun hkn => hk' (hk _ hkn)
    · apply ih hfs
      · rintro i (hi | hi)
        · exact .inl (hk i hi)
        · exact .inr hi
      · rintro g hg hsyn (hi | hi)
        · exact .inl (hs g (List.mem_cons_of_mem f hg) hsyn hi)
        · exact .inr hi

/-- What follows a sequence of frames is ordered by all the streams known then. -/
theorem ordered_append : Ordered known (fs ++ gs) ↔
    Ordered known fs ∧ Ordered (fun i => known i ∨ ∃ f ∈ fs, f.id = i) gs := by
  induction fs generalizing known with
  | nil =>
    simp only [List.nil_append, List.not_mem_nil, false_and, exists_false, or_false]
    exact ⟨fun h => ⟨trivial, h⟩, fun h => h.2⟩
  | cons f fs ih =>
    have hk (i : UInt32) : ((known i ∨ i = f.id) ∨ ∃ g ∈ fs, g.id = i) ↔
        (known i ∨ ∃ g ∈ f :: fs, g.id = i) := by
      rw [List.exists_mem_cons_iff, or_assoc, eq_comm (a := i)]
    rw [List.cons_append, Ordered, ih, Ordered, and_assoc]
    constructor
    · rintro ⟨hf, hfs, hgs⟩
      exact ⟨hf, hfs, hgs.congr hk⟩
    · rintro ⟨hf, hfs, hgs⟩
      exact ⟨hf, hfs, hgs.congr fun i => (hk i).symm⟩

/-- A frame for a stream that is not known yet comes behind one that declares it. -/
theorem Ordered.declared (h : Ordered known fs) (hf : f ∈ fs) (hk : ¬ known f.id) :
    ∃ g ∈ fs, g.id = f.id ∧ g.Syn := by
  induction fs generalizing known with
  | nil => cases hf
  | cons g fs ih =>
    by_cases hid : g.id = f.id
    · rw [← hid] at hk
      exact ⟨g, List.mem_cons_self, hid, h.1.mpr hk⟩
    · have hmem : f ∈ fs := by
        rcases List.mem_cons.mp hf with he | hmem
        · exact absurd (congrArg Frame.id he.symm) hid
        · exact hmem
      obtain ⟨g', hg', hid', hsyn⟩ := ih h.2 hmem fun hkn => hkn.elim hk fun he => hid he.symm
      exact ⟨g', List.mem_cons_of_mem g hg', hid', hsyn⟩

end Frame

end Yamux
