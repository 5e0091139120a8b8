import Yamux.Buffer.Native

/-!
# A tail queue in memory

The elements of a queue are listed with their addresses; each of them points to the next one,
and the head to the first one and to the last link. The macros of `queue.h` that change a queue
are shown to change the list.
-/

namespace Yamux.Buffer

open Core HeapM

/-- An element in memory: where its record is, where its block is, and the bytes there. -/
structure Piece where
  addr : ℕ
  data : ℕ
  bytes : Bytes

/-- The record of an element. -/
def Piece.record (x : Piece) (next : Ptr) : BufferRecord := ⟨next, x.bytes.length, some x.data⟩

/-- An element with its block. -/
def Piece.lay (x : Piece) (next : Ptr) : Region Cell :=
  .cell x.addr (.buffer (x.record next)) * .cell x.data (.block x.bytes)

/-- What points to elements that end in `p`. -/
def firstOf : List Piece → Ptr → Ptr
  | [], p => p
  | x :: _, _ => some x.addr

/-- Elements in a row, the last of which points to `p`. -/
def layPieces : List Piece → Ptr → Region Cell
  | [], _ => 1
  | x :: xs, p => x.lay (firstOf xs p) * layPieces xs p

/-- The last link of a queue. -/
def lastSlot (bio : ℕ) (xs : List Piece) : Slot :=
  match xs.getLast? with
  | some x => .next x.addr
  | none => .first bio

/-- What a `bio` holds. -/
structure Chain where
  pieces : List Piece
  offset : ℕ
  len : ℕ

namespace Chain

def record (c : Chain) (bio : ℕ) : BioRecord :=
  ⟨firstOf c.pieces none, lastSlot bio c.pieces, c.offset, c.len⟩

/-- A `bio` in memory. -/
def lay (c : Chain) (bio : ℕ) : Region Cell :=
  .cell bio (.bio (c.record bio)) * layPieces c.pieces none

end Chain

theorem layPieces_append (xs ys : List Piece) (p : Ptr) :
    layPieces (xs ++ ys) p = layPieces xs (firstOf ys p) * layPieces ys p := by
  induction xs with
  | nil => rw [List.nil_append, layPieces, one_mul]
  | cons x xs ih =>
    have hfirst : firstOf (xs ++ ys) p = firstOf xs (firstOf ys p) := by
      cases xs <;> rfl
    rw [List.cons_append, layPieces, layPieces, ih, hfirst, mul_assoc]

@[simp] theorem lastSlot_concat (bio : ℕ) (xs : List Piece) (x : Piece) :
    lastSlot bio (xs ++ [x]) = .next x.addr := by
  simp [lastSlot]

theorem lastSlot_cons (bio : ℕ) (x y : Piece) (xs : List Piece) :
    lastSlot bio (x :: y :: xs) = lastSlot bio (y :: xs) := by
  simp [lastSlot, List.getLast?_cons_cons]

theorem firstOf_eq_none {xs : List Piece} : firstOf xs none = none ↔ xs = [] := by
  cases xs <;> simp [firstOf]

/-! ## Fields -/

section Fields

variable {g : ℕ} {bio a : ℕ} {b : BioRecord} {r : BufferRecord} {bytes : Bytes}

theorem does_loadBio : Does (loadBio bio) g (.cell bio (.bio b)) b g (.cell bio (.bio b)) :=
  (Does.load bio _ g).bind (.pure _ _ _)

theorem does_setBio (f : BioRecord → BioRecord) :
    Does (setBio bio f) g (.cell bio (.bio b)) () g (.cell bio (.bio (f b))) :=
  does_loadBio.bind (.store bio _ _ g)

theorem does_loadBuffer : Does (loadBuffer (some a)) g (.cell a (.buffer r)) r g
    (.cell a (.buffer r)) :=
  (Does.deref a g _).bind ((Does.load a _ g).bind (.pure _ _ _))

theorem does_setBuffer (f : BufferRecord → BufferRecord) : Does (setBuffer (some a) f) g
    (.cell a (.buffer r)) () g (.cell a (.buffer (f r))) :=
  does_loadBuffer.bind ((Does.deref a g _).bind (.store a _ _ g))

theorem does_loadBlock : Does (loadBlock (some a)) g (.cell a (.block bytes)) bytes g
    (.cell a (.block bytes)) :=
  (Does.deref a g _).bind ((Does.load a _ g).bind (.pure _ _ _))

/-- A copy that fills a block. -/
theorem does_copyIn {old : Bytes} (h : old.length = bytes.length) :
    Does (copyIn (some a) bytes) g (.cell a (.block old)) () g (.cell a (.block bytes)) := by
  apply does_loadBlock.bind
  rw [if_pos h.ge, ← h, List.drop_length, List.append_nil]
  exact (Does.deref a g _).bind (.store a _ _ g)

/-- A copy that stays inside both buffers. -/
theorem does_copyOut {offset size room : ℕ} (h : offset + size ≤ bytes.length) (hr : size ≤ room) :
    Does (copyOut (some a) offset size room) g (.cell a (.block bytes))
      ((bytes.drop offset).take size) g (.cell a (.block bytes)) := by
  apply does_loadBlock.bind
  rw [if_pos ⟨h, hr⟩]
  exact .pure _ _ _

end Fields

/-! ## The macros -/

section Macros

variable {g : ℕ} {bio : ℕ} {c : Chain} {x : Piece} {xs : List Piece}

theorem does_stailqFirst :
    Does (stailqFirst bio) g (c.lay bio) (firstOf c.pieces none) g (c.lay bio) := by
  have hload : Does (stailqFirst bio) g (.cell bio (.bio (c.record bio))) (c.record bio).first g
      (.cell bio (.bio (c.record bio))) := does_loadBio.bind (.pure _ _ _)
  exact hload.frame _

theorem does_stailqNext (p : Ptr) : Does (stailqNext (some x.addr)) g (x.lay p) p g (x.lay p) := by
  have hload : Does (stailqNext (some x.addr)) g (.cell x.addr (.buffer (x.record p)))
      (x.record p).next g (.cell x.addr (.buffer (x.record p))) := does_loadBuffer.bind (.pure _ _ _)
  exact hload.frame _

/-- The fields of a `bio` besides its queue. -/
theorem does_setChain (f : BioRecord → BioRecord) {c' : Chain} (hp : c'.pieces = c.pieces)
    (hf : f (c.record bio) = c'.record bio) :
    Does (setBio bio f) g (c.lay bio) () g (c'.lay bio) := by
  rw [Chain.lay, Chain.lay, hp, ← hf]
  exact (does_setBio f).frame _

/-- The link of an element. -/
theorem does_setNext (p q : Ptr) :
    Does (setSlot q (.next x.addr)) g (x.lay p) () g (x.lay q) :=
  (does_setBuffer fun b => { b with next := q }).frame _

/-- Writing to the last link, which was null. -/
theorem does_setSlot (bio elm : ℕ) (xs : List Piece) (b : BioRecord) (hb : b.first = firstOf xs none) :
    Does (setSlot (some elm) (lastSlot bio xs)) g (.cell bio (.bio b) * layPieces xs none) () g
      (.cell bio (.bio { b with first := firstOf xs (some elm) }) * layPieces xs (some elm)) := by
  rcases List.eq_nil_or_concat xs with rfl | ⟨ys, y, rfl⟩
  · exact (does_setBio _).frame _
  · have hfirst : { b with first := firstOf (ys.concat y) (some elm) } = b := by
      have : firstOf (ys.concat y) (some elm) = b.first := by
        rw [hb]
        cases ys <;> rfl
      rw [this]
    rw [hfirst, List.concat_eq_append, lastSlot_concat, layPieces_append, layPieces_append]
    simp only [layPieces, mul_one, firstOf]
    apply (does_setNext none (some elm)).within (F := .cell bio (.bio b) * layPieces ys (some y.addr))
    · ac_rfl
    · ac_rfl

/-- `STAILQ_INSERT_TAIL` puts an element behind the others. -/
theorem does_stailqInsertTail (p : Ptr) : Does (stailqInsertTail bio x.addr) g (c.lay bio * x.lay p) ()
    g (({ c with pieces := c.pieces ++ [x] } : Chain).lay bio) := by
  have hnull : Does (setBuffer (some x.addr) fun b => { b with next := none }) g (x.lay p) () g
      (x.lay none) := (does_setBuffer _).frame _
  have hslot := does_setSlot (g := g) bio x.addr c.pieces (c.record bio) rfl
  apply hnull.step (mul_comm _ _)
  rw [Chain.lay]
  apply does_loadBio.step (mul_left_comm _ _ _)
  apply hslot.step (F := x.lay none) (by ac_rfl)
  apply (does_setBio _).within (F := layPieces c.pieces (some x.addr) * x.lay none) (by ac_rfl)
  simp only [Chain.lay, Chain.record, lastSlot_concat, layPieces_append, layPieces, mul_one, firstOf]
  cases c.pieces <;> rfl

/-- `STAILQ_REMOVE_HEAD` takes the first element out. -/
theorem does_stailqRemoveHead (hc : c.pieces = x :: xs) : Does (stailqRemoveHead bio) g (c.lay bio)
    () g (({ c with pieces := xs } : Chain).lay bio * x.lay (firstOf xs none)) := by
  apply does_stailqFirst.bind
  rw [hc, Chain.lay, hc, layPieces, firstOf]
  apply (does_stailqNext _).step (mul_left_comm _ _ _)
  apply (does_setBio _).step (mul_left_comm _ _ _)
  cases xs with
  | nil =>
    apply (does_setBio _).within rfl
    simp only [Chain.lay, Chain.record, layPieces, firstOf, lastSlot, hc, List.getLast?_nil]
    ac_rfl
  | cons y ys =>
    have hne : ¬ firstOf (y :: ys) none = none := by simp [firstOf]
    rw [if_neg hne]
    have hrecord : ({ c.record bio with first := firstOf (y :: ys) none } : BioRecord) =
        Chain.record { c with pieces := y :: ys } bio := by
      rw [Chain.record, Chain.record, hc, lastSlot_cons]
    rw [hrecord, Chain.lay, mul_assoc, mul_comm (layPieces _ _)]
    exact .pure _ _ _

theorem does_bufferFree (p : Ptr) : Does (bufferFree (some x.addr)) g (x.lay p) () g 1 := by
  apply does_loadBuffer.step rfl
  apply (Does.free x.data _ g).step (mul_comm _ _)
  rw [one_mul]
  exact Does.free x.addr _ g

/-- The first element is taken out and freed. -/
theorem does_dropFirst (hc : c.pieces = x :: xs) : Does (dropFirst bio (some x.addr)) g (c.lay bio)
    () g (({ c with pieces := xs } : Chain).lay bio) := by
  apply (does_stailqRemoveHead hc).bind
  apply (does_bufferFree _).within (mul_comm _ _)
  rw [one_mul]

end Macros

end Yamux.Buffer
