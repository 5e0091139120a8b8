import Yamux.Core.Separation
import Yamux.Core.RedBlack

/-!
# The trees of `tree.h`

`RB_GENERATE` makes red-black trees out of records that carry pointers to their children and
to their parent. The head of a tree points to the root. The macros for left and right mirror
each other and are one definition with a side; loops have a number of rounds.
-/

namespace Yamux.Tree

open Core HeapM

/-- A pointer to a record. -/
abbrev Ptr := Option ℕ

/-- `RB_ENTRY`. -/
structure Entry where
  left : Ptr
  right : Ptr
  parent : Ptr
  color : Color
  deriving DecidableEq, Repr

def Entry.child (e : Entry) : Dir → Ptr
  | .left => e.left
  | .right => e.right

def Entry.withChild (e : Entry) (d : Dir) (p : Ptr) : Entry :=
  match d with
  | .left => { e with left := p }
  | .right => { e with right := p }

def Entry.withParent (e : Entry) (p : Ptr) : Entry := { e with parent := p }

def Entry.withColor (e : Entry) (c : Color) : Entry := { e with color := c }

/-- A record of the tree: what it is compared by, and its entry. -/
structure Node (K : Type) where
  key : K
  entry : Entry
  deriving DecidableEq, Repr

variable {K : Type}

/-- Programs on the records, with `rbh_root`. -/
abbrev RbM (K : Type) := HeapM Ptr (Node K)

/-! ## Fields -/

/-- The record that a pointer points to. -/
def record (elm : Ptr) : RbM K (Node K) := do
  let a ← deref elm
  load a

def keyOf (elm : Ptr) : RbM K K := do return (← record elm).key

/-- `RB_LEFT` and `RB_RIGHT`. -/
def rbChild (d : Dir) (elm : Ptr) : RbM K Ptr := do return (← record elm).entry.child d

def rbLeft : Ptr → RbM K Ptr := rbChild .left
def rbRight : Ptr → RbM K Ptr := rbChild .right

/-- `RB_PARENT`. -/
def rbParent (elm : Ptr) : RbM K Ptr := do return (← record elm).entry.parent

/-- `RB_COLOR`. -/
def rbColor (elm : Ptr) : RbM K Color := do return (← record elm).entry.color

/-- `RB_ROOT`. -/
def rbRoot : RbM K Ptr := globals

def setRoot (p : Ptr) : RbM K Unit := setGlobals p

/-- Write to the entry of a record. -/
def setEntry (elm : Ptr) (f : Entry → Entry) : RbM K Unit := do
  let a ← deref elm
  let node ← load a
  store a { node with entry := f node.entry }

def setChild (d : Dir) (elm p : Ptr) : RbM K Unit := setEntry elm fun e => e.withChild d p

def setLeft : Ptr → Ptr → RbM K Unit := setChild .left
def setRight : Ptr → Ptr → RbM K Unit := setChild .right

def setParent (elm p : Ptr) : RbM K Unit := setEntry elm fun e => e.withParent p

def setColor (elm : Ptr) (c : Color) : RbM K Unit := setEntry elm fun e => e.withColor c

/-- `RB_SET`. -/
def rbSet (elm parent : Ptr) : RbM K Unit := setEntry elm fun _ => ⟨none, none, parent, .red⟩

/-- `RB_SET_BLACKRED`. -/
def rbSetBlackRed (black red : Ptr) : RbM K Unit := do
  setColor black .black
  setColor red .red

/-- The test `elm && RB_COLOR(elm) == RB_RED`. -/
def isRed (elm : Ptr) : RbM K Bool := do
  if elm = none then pure false else return (← rbColor elm) = .red

/-- `if (elm) RB_COLOR(elm) = RB_BLACK`. -/
def blacken (elm : Ptr) : RbM K Unit := if elm = none then pure () else setColor elm .black

/-- `if (elm) RB_PARENT(elm) = parent`. -/
def adopt (elm parent : Ptr) : RbM K Unit := if elm = none then pure () else setParent elm parent

/-- Let what points to `elm` point to `tmp`: a child of the parent, or the head. -/
def replaceChild (parent elm tmp : Ptr) : RbM K Unit :=
  if parent = none then setRoot tmp
  else do
    if (← rbLeft parent) = elm then setLeft parent tmp else setRight parent tmp

/-! ## Rotations -/

/-- `RB_ROTATE_LEFT` and `RB_ROTATE_RIGHT`: the child on the other side moves up. -/
def rbRotate (d : Dir) (elm : Ptr) : RbM K Unit := do
  let tmp ← rbChild d.other elm
  let inner ← rbChild d tmp
  setChild d.other elm inner
  adopt inner elm
  let parent ← rbParent elm
  setParent tmp parent
  replaceChild parent elm tmp
  setChild d tmp elm
  setParent elm tmp

def rbRotateLeft : Ptr → RbM K Unit := rbRotate .left
def rbRotateRight : Ptr → RbM K Unit := rbRotate .right

/-! ## Insertion -/

/-- A round of the loop of `RB_INSERT_COLOR`, where `parent` is the child of `gparent` on the
side `d`. -/
def rbInsertColorRound (d : Dir) (elm parent gparent : Ptr) : RbM K Ptr := do
  let tmp ← rbChild d.other gparent
  if ← isRed tmp then do
    setColor tmp .black
    rbSetBlackRed parent gparent
    pure gparent
  else do
    let inner ← rbChild d.other parent
    if inner = elm then do
      rbRotate d parent
      rbSetBlackRed elm gparent
      rbRotate d.other gparent
      pure parent
    else do
      rbSetBlackRed parent gparent
      rbRotate d.other gparent
      pure elm

/-- The loop of `RB_INSERT_COLOR`. -/
def rbInsertColorLoop : ℕ → Ptr → RbM K Unit
  | 0, _ => fail .rounds
  | fuel + 1, elm => do
    let parent ← rbParent elm
    if ← isRed parent then do
      let gparent ← rbParent parent
      let left ← rbLeft gparent
      let elm ← rbInsertColorRound (if parent = left then .left else .right) elm parent gparent
      rbInsertColorLoop fuel elm
    else pure ()

/-- `RB_INSERT_COLOR`. -/
def rbInsertColor (fuel : ℕ) (elm : Ptr) : RbM K Unit := do
  rbInsertColorLoop fuel elm
  let root ← rbRoot
  setColor root .black

variable (cmp : K → K → Int)

/-- The loop of `RB_INSERT`: where it ended, the last record and how it compared. -/
def rbInsertLoop (k : K) : ℕ → Ptr → Ptr → Int → RbM K (Ptr × Ptr × Int)
  | 0, _, _, _ => fail .rounds
  | fuel + 1, tmp, parent, comp =>
    if tmp = none then pure (tmp, parent, comp)
    else do
      let comp := cmp k (← keyOf tmp)
      if comp < 0 then do
        let next ← rbLeft tmp
        rbInsertLoop k fuel next tmp comp
      else if 0 < comp then do
        let next ← rbRight tmp
        rbInsertLoop k fuel next tmp comp
      else pure (tmp, tmp, comp)

/-- Point to a new record from the record where the search ended, or from the head. -/
def rbLink (elm parent : Ptr) (comp : Int) : RbM K Unit :=
  if parent = none then setRoot elm
  else setChild (if comp < 0 then .left else .right) parent elm

/-- `RB_INSERT`: the record that is in the way, if there is one. -/
def rbInsert (fuel : ℕ) (elm : Ptr) : RbM K Ptr := do
  let k ← keyOf elm
  let root ← rbRoot
  let (tmp, parent, comp) ← rbInsertLoop cmp k fuel root none 0
  if tmp = none then do
    rbSet elm parent
    rbLink elm parent comp
    rbInsertColor fuel elm
    pure none
  else pure tmp

/-! ## Removal -/

/-- The first part of a round of `RB_REMOVE_COLOR`: a red sibling moves up, and a black record
is the sibling then. -/
def rbRemoveColorTurn (d : Dir) (parent tmp : Ptr) : RbM K Ptr := do
  if (← rbColor tmp) = .red then
    rbSetBlackRed tmp parent
    rbRotate d parent
    rbChild d.other parent
  else pure tmp

/-- A sibling with a red child on the inner side only moves down behind it. -/
def rbRemoveColorInner (d : Dir) (parent tmp : Ptr) (far : Bool) : RbM K Ptr := do
  if far then pure tmp
  else do
    let inner ← rbChild d tmp
    blacken inner
    setColor tmp .red
    rbRotate d.other tmp
    rbChild d.other parent

/-- The second part of a round, with a black sibling `tmp`: where to go on, or that the loop
is left. -/
def rbRemoveColorRest (d : Dir) (parent tmp : Ptr) : RbM K (Option (Ptr × Ptr)) := do
  let near ← isRed (← rbChild d tmp)
  let far ← isRed (← rbChild d.other tmp)
  if near || far then do
    let tmp ← rbRemoveColorInner d parent tmp far
    let color ← rbColor parent
    setColor tmp color
    setColor parent .black
    let outer ← rbChild d.other tmp
    blacken outer
    rbRotate d parent
    pure none
  else do
    setColor tmp .red
    let up ← rbParent parent
    pure (some (up, parent))

/-- A round of the loop of `RB_REMOVE_COLOR`, for the child of `parent` on the side `d`. -/
def rbRemoveColorRound (d : Dir) (parent : Ptr) : RbM K (Option (Ptr × Ptr)) := do
  let tmp ← rbChild d.other parent
  let tmp ← rbRemoveColorTurn d parent tmp
  rbRemoveColorRest d parent tmp

/-- What follows a round: the loop goes on, or it was left. -/
def rbRemoveColorNext (loop : Ptr → Ptr → RbM K Ptr) : Option (Ptr × Ptr) → RbM K Ptr
  | some (parent, elm) => loop parent elm
  | none => rbRoot

/-- The loop of `RB_REMOVE_COLOR`: where it ended. -/
def rbRemoveColorLoop : ℕ → Ptr → Ptr → RbM K Ptr
  | 0, _, _ => fail .rounds
  | fuel + 1, parent, elm => do
    let red ← isRed elm
    let root ← rbRoot
    if red || elm = root then pure elm
    else do
      let left ← rbLeft parent
      let next ← rbRemoveColorRound (if left = elm then .left else .right) parent
      rbRemoveColorNext (rbRemoveColorLoop fuel) next

/-- `RB_REMOVE_COLOR`. -/
def rbRemoveColor (fuel : ℕ) (parent elm : Ptr) : RbM K Unit := do
  let elm ← rbRemoveColorLoop fuel parent elm
  blacken elm

/-- The way down on one side: `while ((left = RB_LEFT(elm))) elm = left`. -/
def rbOuter (d : Dir) : ℕ → Ptr → RbM K Ptr
  | 0, _ => fail .rounds
  | fuel + 1, elm => do
    let next ← rbChild d elm
    if next = none then pure elm else rbOuter d fuel next

/-- The loop that calls `RB_AUGMENT`, which does nothing, on the way up to the root. -/
def rbAugmentUp : ℕ → Ptr → RbM K Unit
  | 0, _ => fail .rounds
  | fuel + 1, left => do
    let left ← rbParent left
    if left = none then pure () else rbAugmentUp fuel left

def rbAugment (fuel : ℕ) (parent : Ptr) : RbM K Unit :=
  if parent = none then pure () else rbAugmentUp fuel parent

/-- Put the only child of a record into its place. -/
def rbUnlink (elm child : Ptr) : RbM K (Ptr × Color) := do
  let parent ← rbParent elm
  let color ← rbColor elm
  adopt child parent
  replaceChild parent elm child
  pure (parent, color)

/-- Put the record `elm`, which is in no place, into the place of `old`. -/
def rbExchange (old elm : Ptr) : RbM K Unit := do
  let node ← record old
  setEntry elm fun _ => node.entry
  let parent ← rbParent old
  replaceChild parent old elm
  let left ← rbLeft old
  setParent left elm
  let right ← rbRight old
  adopt right elm

/-- The part of `RB_REMOVE` for a record with two children, whose place its successor takes. -/
def rbSplice (fuel : ℕ) (old : Ptr) : RbM K (Ptr × Ptr × Color) := do
  let right ← rbRight old
  let elm ← rbOuter .left fuel right
  let child ← rbRight elm
  let (parent, color) ← rbUnlink elm child
  let above ← rbParent elm
  let parent := if above = old then elm else parent
  rbExchange old elm
  rbAugment fuel parent
  pure (parent, child, color)

/-- The part of `RB_REMOVE` before the colours: where a record is missing, and its colour. -/
def rbDetach (fuel : ℕ) (elm left right : Ptr) : RbM K (Ptr × Ptr × Color) :=
  if left = none then do
    let (parent, color) ← rbUnlink elm right
    pure (parent, right, color)
  else if right = none then do
    let (parent, color) ← rbUnlink elm left
    pure (parent, left, color)
  else rbSplice fuel elm

/-- `RB_REMOVE`. -/
def rbRemove (fuel : ℕ) (elm : Ptr) : RbM K Ptr := do
  let left ← rbLeft elm
  let right ← rbRight elm
  let (parent, child, color) ← rbDetach fuel elm left right
  if color = .black then do
    rbRemoveColor fuel parent child
    pure elm
  else pure elm

/-! ## Search and order -/

/-- The loop of `RB_FIND`. -/
def rbFindLoop (k : K) : ℕ → Ptr → RbM K Ptr
  | 0, _ => fail .rounds
  | fuel + 1, tmp =>
    if tmp = none then pure none
    else do
      let comp := cmp k (← keyOf tmp)
      if comp < 0 then do
        let next ← rbLeft tmp
        rbFindLoop k fuel next
      else if 0 < comp then do
        let next ← rbRight tmp
        rbFindLoop k fuel next
      else pure tmp

/-- `RB_FIND`. -/
def rbFind (fuel : ℕ) (k : K) : RbM K Ptr := do
  let root ← rbRoot
  rbFindLoop cmp k fuel root

/-- How `session_find_stream` and `find_event` search: what was found has to have the key. -/
def rbLookup [DecidableEq K] (fuel : ℕ) (k : K) : RbM K Ptr := do
  let res ← rbFind cmp fuel k
  if res = none then pure none
  else do
    let found ← keyOf res
    if found = k then pure res else pure none

/-- `RB_MINMAX`, with `RB_MIN` for the left side. -/
def rbMinmax (d : Dir) (fuel : ℕ) : RbM K Ptr := do
  let root ← rbRoot
  if root = none then pure none else rbOuter d fuel root

/-- The way up in `RB_NEXT`: while the record is the child on the side `d`. -/
def rbClimb (d : Dir) : ℕ → Ptr → RbM K Ptr
  | 0, _ => fail .rounds
  | fuel + 1, elm => do
    let parent ← rbParent elm
    if parent = none then pure none
    else do
      if elm = (← rbChild d parent) then rbClimb d fuel parent else pure parent

/-- `RB_NEXT` for the right side and `RB_PREV` for the left one. -/
def rbAdvance (d : Dir) (fuel : ℕ) (elm : Ptr) : RbM K Ptr := do
  let child ← rbChild d elm
  if child = none then do
    let parent ← rbParent elm
    if parent = none then rbClimb d fuel elm
    else do
      if elm = (← rbChild d.other parent) then pure parent else rbClimb d fuel elm
  else rbOuter d.other fuel child

def rbNext (fuel : ℕ) : Ptr → RbM K Ptr := rbAdvance .right fuel

end Yamux.Tree
