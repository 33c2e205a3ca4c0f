/-
Values of JSON text, read as what is wanted in their place. Blanks before a
value are passed over; a value of another kind is named in the fault.

Lists and objects are read item by item. The number of items is bounded by
the number of octets at hand, which is the bound under which the loops run.
-/
import SymbolGraph.Codec.Json.Scanner

namespace SymbolGraph.Json

-- =============================================== values of another kind

/-- Names the value that begins with the octet `b`. A number or a text is
read to its end for that, so its own fault comes first. -/
def found (b : UInt8) : Reader Found := do
  if b = 0x6e then advance; wordNull; return .null
  else if b = 0x74 then advance; wordTrue; return .truth true
  else if b = 0x66 then advance; wordFalse; return .truth false
  else if b = 0x2d ∨ isDigit b then
    if b = 0x2d then advance
    match ← numberAfterSign (b = 0x2d) with
    | .natural n => return .integer n
    | .negative n => return .integer (-n)
    | .float x => return .float x
  else if b = 0x22 then advance; return .text (← textBody)
  else if b = 0x5b then return .sequence
  else if b = 0x7b then return .map
  else throw .malformed

/-- Refuses the value that begins with the octet `b`. -/
def unwanted {α : Type} (wanted : String) (b : UInt8) : Reader α := do
  throw (.mismatch (.type (← found b) wanted))

/-- The first octet of the value at hand. -/
def firstOctet : Reader UInt8 := do
  match ← peekSolid with
  | none => throw .truncated
  | some b => return b

-- ============================================================= scalars

/-- A number; anything else is refused. -/
def numberValue (wanted : String) : Reader Number := do
  let b ← firstOctet
  if b = 0x2d then advance; numberAfterSign true
  else if isDigit b then numberAfterSign false
  else unwanted wanted b

/-- A number from 0 to below `limit`. -/
def unsigned (limit : Nat) (wanted : String) : Reader Nat := do
  match ← numberValue wanted with
  | .natural n =>
    if n < limit then return n
    else throw (.mismatch (.value (.integer n) wanted))
  | .negative n => throw (.mismatch (.value (.integer (-n)) wanted))
  | .float x => throw (.mismatch (.type (.float x) wanted))

def u8Value : Reader UInt8 := return UInt8.ofNat (← unsigned 0x100 "u8")

def u32Value : Reader UInt32 := return UInt32.ofNat (← unsigned 0x100000000 "u32")

def u64Value : Reader UInt64 := return UInt64.ofNat (← unsigned 0x10000000000000000 "u64")

def i32Value : Reader Int32 := do
  match ← numberValue "i32" with
  | .natural n =>
    if n < 0x80000000 then return Int32.ofInt n
    else throw (.mismatch (.value (.integer n) "i32"))
  | .negative n =>
    if n ≤ 0x80000000 then return Int32.ofInt (-n)
    else throw (.mismatch (.value (.integer (-n)) "i32"))
  | .float x => throw (.mismatch (.type (.float x) "i32"))

def boolValue : Reader Bool := do
  let b ← firstOctet
  if b = 0x74 then advance; wordTrue; return true
  else if b = 0x66 then advance; wordFalse; return false
  else unwanted "a boolean" b

def textValue : Reader String := do
  let b ← firstOctet
  if b = 0x22 then advance; textBody
  else unwanted "a string" b

-- =============================================================== lists

/-- Is there another item before the closing bracket? A comma before it is
passed over. -/
def nextItem (isFirst : Bool) : Reader Bool := do
  let b ← firstOctet
  if b = 0x5d then return false
  else if isFirst then return true
  else if b = 0x2c then
    advance
    if (← firstOctet) = 0x5d then throw .malformed
    return true
  else throw .malformed

/-- The closing bracket of a list all of whose items have been read. -/
def endList : Reader Unit := do
  let b ← firstOctet
  if b = 0x5d then advance else throw .malformed

def items {α : Type} (item : Reader α) : Nat → Bool → Reader (List α)
  | 0, _ => throw .truncated
  | fuel + 1, isFirst => do
    if ← nextItem isFirst then
      let a ← item
      return a :: (← items item fuel false)
    else return []

/-- A bound for the items still to come. -/
def itemBound : Reader Nat := return (← get).length + 1

def listValue {α : Type} (item : Reader α) : Reader (List α) := do
  let b ← firstOctet
  if b = 0x5b then
    advance
    let l ← items item (← itemBound) true
    endList
    return l
  else unwanted "a sequence" b

-- ============================================================= objects

/-- Is there another key before the closing brace? -/
def nextKey (isFirst : Bool) : Reader Bool := do
  let b ← firstOctet
  if b = 0x7d then return false
  else
    let b ←
      if isFirst then pure b
      else if b = 0x2c then advance; firstOctet
      else throw .malformed
    if b = 0x22 then return true else throw .malformed

def colon : Reader Unit := do
  let b ← firstOctet
  if b = 0x3a then advance else throw .malformed

def endObject : Reader Unit := do
  let b ← firstOctet
  if b = 0x7d then advance else throw .malformed

/-- A key that is a 32-bit number in quotes. -/
def idKey : Reader UInt32 := do
  advance
  match ← peek with
  | some b => unless isDigit b || b == 0x2d do throw .malformed
  | none => throw .malformed
  let key ← u32Value
  match ← peek with
  | some 0x22 => advance; return key
  | _ => throw .malformed

def idMembers {α : Type} (value : Reader α) :
    Nat → Bool → Reader (List (UInt32 × α))
  | 0, _ => throw .truncated
  | fuel + 1, isFirst => do
    if ← nextKey isFirst then
      let key ← idKey
      colon
      let v ← value
      return (key, v) :: (← idMembers value fuel false)
    else return []

/-- An object whose keys are ids. -/
def idMapValue {α : Type} (value : Reader α) : Reader (List (UInt32 × α)) := do
  let b ← firstOctet
  if b = 0x7b then
    advance
    let l ← idMembers value (← itemBound) true
    endObject
    return l
  else unwanted "a map" b

-- ====================================================== skipped values

/-- Where the skipping of a value stands: before a value, behind a value or
the opening of a container, or before the next item of a container. -/
inductive Skipping where
  | value
  | behind (comma : Bool)
  | item

/-- Skips a value. `containers` holds the containers that are open, innermost
first, and for each whether it is an object. -/
def skip : Nat → List Bool → Skipping → Reader Unit
  | 0, _, _ => throw .truncated
  | fuel + 1, containers, .value => do
    let b ← firstOctet
    if b = 0x5b ∨ b = 0x7b then
      advance
      skip fuel ((b = 0x7b : Bool) :: containers) (.behind false)
    else
      if b = 0x6e then advance; wordNull
      else if b = 0x74 then advance; wordTrue
      else if b = 0x66 then advance; wordFalse
      else if b = 0x2d then advance; skipNumberAfterSign
      else if isDigit b then skipNumberAfterSign
      else if b = 0x22 then advance; skipTextBody
      else throw .malformed
      if containers.isEmpty then return ()
      skip fuel containers (.behind true)
  | _ + 1, [], .behind _ => return ()
  | fuel + 1, isObject :: outer, .behind comma => do
    let b ← firstOctet
    if b = (if isObject then 0x7d else 0x5d) then
      advance
      skip fuel outer (.behind true)
    else if comma then
      if b = 0x2c then
        advance
        skip fuel (isObject :: outer) .item
      else throw .malformed
    else skip fuel (isObject :: outer) .item
  | fuel + 1, containers, .item => do
    if containers.head? = some true then
      let b ← firstOctet
      unless b = 0x22 do throw .malformed
      advance
      skipTextBody
      colon
    skip fuel containers .value

/-- Skips a value of any kind. -/
def skipValue : Reader Unit := do
  skip (3 * (← get).length + 3) [] .value

-- ============================================================= records

/-- A member of a record of type `P` that is being put together. -/
structure Member (P : Type) where
  name : String
  /-- Reads the member into the record. -/
  read : P → Reader P
  isPresent : P → Bool
  isOptional : Bool := false

/-- The members of an object, in any order. Unknown ones are skipped. -/
def objectMembers {P : Type} (members : List (Member P)) :
    Nat → Bool → P → Reader P
  | 0, _, _ => throw .truncated
  | fuel + 1, isFirst, p => do
    if ← nextKey isFirst then
      advance
      let key ← textBody
      match members.find? fun m => m.name == key with
      | some m =>
        if m.isPresent p then throw (.mismatch (.repeated m.name))
        colon
        let p ← m.read p
        objectMembers members fuel false p
      | none =>
        colon
        skipValue
        objectMembers members fuel false p
    else return p

/-- The members of a record that stands as a list, in their order. -/
def listMembers {P : Type} (wanted : String) :
    List (Member P) → Nat → Bool → P → Reader P
  | [], _, _, p => return p
  | m :: rest, index, isFirst, p => do
    if ← nextItem isFirst then
      listMembers wanted rest (index + 1) false (← m.read p)
    else if m.isOptional then listMembers wanted rest (index + 1) isFirst p
    else throw (.mismatch (.length index wanted))

/-- A record: an object with these members, or a list of them. The first
missing member is reported where the object ends. -/
def recordValue {P : Type} (name : String) (members : List (Member P))
    (empty : P) : Reader P := do
  let b ← firstOctet
  if b = 0x7b then
    advance
    let p ← objectMembers members (← itemBound) true empty
    match members.find? fun m => !m.isOptional && !m.isPresent p with
    | some m => throw (.mismatch (.missing m.name))
    | none =>
      endObject
      return p
  else if b = 0x5b then
    advance
    let wanted := s!"struct {name} with {members.length} elements"
    let p ← listMembers wanted members 0 true empty
    endList
    return p
  else unwanted s!"struct {name}" b

end SymbolGraph.Json
