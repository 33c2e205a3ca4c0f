/-
A program database as a source of types. The handle of a type is its index;
aliases are symbols and have handles of their own. Qualifiers and fields of
bits are looked through, and so are types that are only announced, if their
definition is known by name. Such chains are followed for a bounded number
of steps.

A description gives each field a fresh id, which is all that is remembered
from one description to the next.
-/
import SymbolGraph.Pdb.TypeTable
import SymbolGraph.Text.Numeral

namespace SymbolGraph.Pdb

inductive Handle where
  | type (index : TypeIndex)
  /-- An alias, under an id of its own. -/
  | typedef (id : UInt32) (name : String) (target : TypeIndex)

-- ============================================================== faults

/-- Why a handle is no type that can be described. -/
inductive TypeFault where
  | unreadable (fault : Fault)
  | chainTooDeep (index : TypeIndex)
  | signature (index : TypeIndex)
  | unsupported (index : TypeIndex)

def TypeFault.message : TypeFault → String
  | unreadable fault => fault.message
  | chainTooDeep index => "type chain too deep at " ++ Text.hex index.toNat
  | signature index =>
    "function signature " ++ Text.hex index.toNat ++ " is not a type symbol"
  | unsupported index => "unsupported type record " ++ Text.hex index.toNat

-- =============================================================== types

/-- The types of a program database. -/
structure Types where
  table : TypeTable
  /-- The definitions by key; of several the first counts. -/
  definitions : List (String × TypeIndex)
  /-- The size of the machine's pointers. -/
  pointerSize : Nat

/-- How long chains of types may be. -/
def chainBound : Nat := 32

/-- How many lists the fields of one type may be spread over. -/
def fieldListBound : Nat := 65535

namespace Types

variable (t : Types)

def find (index : TypeIndex) : Except TypeFault TypeRecord :=
  (t.table.find index).mapError .unreadable

/-- The definition of a type that was only announced; the type itself if
there is none. -/
def definition (head : Declared) (index : TypeIndex) : TypeIndex :=
  (t.definitions.lookup head.key).getD index

/-- The type that carries the layout, at most so many steps away. -/
def resolveWithin : Nat → TypeIndex → Except TypeFault TypeIndex
  | 0, index => .error (.chainTooDeep index)
  | bound + 1, index =>
    if index.isPrimitive then .ok index
    else
      match t.find index with
      | .error fault => .error fault
      | .ok (.wrapper underlying) => resolveWithin bound underlying
      | .ok (.aggregate _ head _ _) =>
        .ok (if head.forward then t.definition head index else index)
      | .ok (.enum head _) =>
        .ok (if head.forward then t.definition head index else index)
      | .ok _ => .ok index

/-- The type that carries the layout. -/
def resolve (index : TypeIndex) : Except TypeFault TypeIndex :=
  t.resolveWithin chainBound index

/-- The record of the type that carries the layout. -/
def resolved (index : TypeIndex) : Except TypeFault TypeRecord := do
  t.find (← t.resolve index)

/-- The name of a type that has fields or enumerators. -/
def declaredName? (index : TypeIndex) : Option String :=
  match t.resolved index with
  | .ok (.aggregate _ head _ _) => some head.name
  | .ok (.enum head _) => some head.name
  | _ => none

/-- Is the type a function signature? -/
def isSignature (index : TypeIndex) : Bool :=
  match t.resolved index with
  | .ok (.procedure ..) => true
  | _ => false

/-- The size of an enumeration, that of its underlying type if it is a base
type. -/
def enumSize (underlying : TypeIndex) : Nat :=
  match t.resolved underlying with
  | .ok (.primitive p) => p.length
  | _ => 4

-- ============================================================== fields

/-- Why a chain of field lists was left. -/
inductive Stop where
  | noList (index : TypeIndex)
  | unreadable (index : TypeIndex) (fault : TypeFault)

def Stop.message : Stop → String
  | noList index => Text.hex index.toNat ++ " is not a field list"
  | unreadable index fault =>
    "failed to read field list " ++ Text.hex index.toNat ++ ": "
      ++ fault.message

/-- The members in a chain of field lists, at most so many lists long.
`found` holds those of the lists before, last list first. -/
def membersWithin :
    Nat → Option TypeIndex → List (List Member) →
    List (List Member) × Option Stop
  | 0, _, found => (found, none)
  | _, none, found => (found, none)
  | bound + 1, some index, found =>
    match t.find index with
    | .ok (.fieldList members next) =>
      membersWithin bound next (members :: found)
    | .ok _ => (found, some (.noList index))
    | .error fault => (found, some (.unreadable index fault))

/-- The members of a type, in order, and why there are no more. -/
def members (list : Option TypeIndex) : List Member × Option Stop :=
  let (found, stop) := t.membersWithin fieldListBound list []
  (found.reverse.flatten, stop)

/-- The id behind an id; 0 is left out. -/
def nextId (id : UInt32) : UInt32 := if id + 1 = 0 then 1 else id + 1

/-- An offset in 32 bits; offsets beyond stay at the greatest. -/
def offset32 (n : Nat) : Int32 := Int32.ofNat (min n 0x7fffffff)

/-- Fields with fresh ids from an id on, and the id behind them. -/
def number (id : UInt32) : List Member → List (FieldNode Handle) × UInt32
  | [] => ([], id)
  | m :: rest =>
    let (fields, next) := number (nextId id) rest
    ({ id, name := m.name, offset := offset32 m.offset, type := .type m.type }
      :: fields, next)

/-- The fields of a type. -/
def fields (list : Option TypeIndex) (id : UInt32) :
    Logged (List (Option (FieldNode Handle)) × UInt32) := do
  let (members, stop) := t.members list
  if let some stop := stop then Logged.warn stop.message
  let (fields, next) := number id members
  return (fields.map some, next)

-- ========================================================= description

/-- The name, size and shape of the type at an index. -/
def node (index : TypeIndex) (id : UInt32) :
    TypeRecord → Logged (Except TypeFault (Node Handle) × UInt32)
  | .primitive p =>
    return (.ok {
      name := none, length := UInt64.ofNat p.length, shape := p.shape }, id)
  | .aggregate kind head list size => do
    let (fields, next) ← t.fields list id
    return (.ok {
      name := some head.name, length := UInt64.ofNat size
      shape := .aggregate kind fields }, next)
  | .enum head underlying =>
    return (.ok {
      name := some head.name
      length := UInt64.ofNat (t.enumSize underlying)
      shape := .enum }, id)
  | .pointer size =>
    let size := if size = 0 then t.pointerSize else size
    return (.ok {
      name := none, length := UInt64.ofNat size, shape := .pointer }, id)
  | .array dimensions =>
    return (.ok {
      name := none, length := UInt64.ofNat (dimensions.foldl max 0)
      shape := .array }, id)
  | .procedure .. => return (.error (.signature index), id)
  | _ => return (.error (.unsupported index), id)

/-- What an alias stands for; none if that is nothing or a function
signature. -/
def aliasTarget (target : TypeIndex) : Option Handle :=
  if target = 0 ∨ t.isSignature target then none else some (.type target)

/-- The type behind a handle; `id` is the id of the next field. -/
def describe (handle : Handle) (id : UInt32) :
    Logged (Except TypeFault (Node Handle) × UInt32) := do
  match handle with
  | .typedef _ name target =>
    return (.ok {
      name := some name, length := 0
      shape := .typedef (t.aliasTarget target) }, id)
  | .type index =>
    match t.resolve index with
    | .error fault => return (.error fault, id)
    | .ok index =>
      match t.find index with
      | .error fault => return (.error fault, id)
      | .ok record =>
        let (described, next) ← t.node index id record
        if let .ok node := described then
          let word := Text.column "pdb type"
          let place := Text.hex index.toNat
          let shown := node.name.getD "<anonymous>"
          Logged.trace s!"{word} {place}: {shown}"
        return (described, next)

/-- The id of the type behind a handle. -/
def typeId : Handle → Option UInt32
  | .typedef id _ _ => some id
  | .type index => if index = 0 then none else (t.resolve index).toOption

/-- The types as a source. Its state is the id of the next field. -/
def source : Source UInt32 Handle TypeFault where
  typeId handle := return t.typeId handle
  describe := t.describe
  message := TypeFault.message

-- ========================================================= definitions

/-- What a record defines. -/
def defined? : Except Fault TypeRecord → Option Declared
  | .ok (.aggregate _ head _ _) => if head.forward then none else some head
  | .ok (.enum head _) => if head.forward then none else some head
  | _ => none

/-- Does a record stand for a type that is built for its own sake? -/
def isRoot (record : Except Fault TypeRecord) : Bool :=
  match record with
  | .ok (.pointer _) => true
  | record => (defined? record).isSome

/-- Takes in one more definition, unless its key is taken. -/
def define (definitions : List (String × TypeIndex))
    (entry : TypeIndex × Except Fault TypeRecord) :
    List (String × TypeIndex) :=
  match defined? entry.2 with
  | none => definitions
  | some head =>
    if (definitions.lookup head.key).isSome then definitions
    else definitions ++ [(head.key, entry.1)]

/-- The types of a table. -/
def ofTable (table : TypeTable) (pointerSize : Nat) : Types :=
  { table, pointerSize, definitions := table.entries.foldl define [] }

/-- The types that are built for their own sake. -/
def roots : List TypeIndex :=
  (t.table.entries.filter fun e => isRoot e.2).map Prod.fst

end Types

end SymbolGraph.Pdb
