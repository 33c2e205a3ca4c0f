/-
The canonical names of base types. They depend on the class of the type
and its width only, so the same type gets the same name from every debug
information format.
-/
namespace SymbolGraph

/-- The class of a base type, whatever the debug format. -/
inductive Primitive where
  | noType | void | char | wchar | int | uint | float | bool | long | ulong
  | char8 | char16 | char32 | other
deriving DecidableEq, Inhabited

/-- The name of a base type of `width` bytes. -/
def Primitive.typeName (p : Primitive) (width : UInt64) : String :=
  match p with
  | .char => "char"
  | .wchar => "wchar"
  | .int =>
    if width = 1 then "int8_t" else if width = 2 then "int16_t"
    else if width = 4 then "int32_t" else if width = 8 then "int64_t"
    else "int"
  | .uint =>
    if width = 1 then "uint8_t" else if width = 2 then "uint16_t"
    else if width = 4 then "uint32_t" else if width = 8 then "uint64_t"
    else "uint"
  | .float =>
    if width = 8 then "double"
    else if width = 10 ∨ width = 12 ∨ width = 16 then "long double"
    else "float"
  | .bool => "bool"
  | .long => "long"
  | .ulong => "unsigned long"
  | .char8 => "char8_t"
  | .char16 => "char16_t"
  | .char32 => "char32_t"
  | .noType | .void | .other => "void"

end SymbolGraph
