import Breakpoint.Digest

/-! Class identity. A class is known by a 64-bit code that depends on its qualified name alone, so
every party to an evaluation agrees on it without sharing a registry. -/

namespace Breakpoint

/-- The digits of `n` in base sixteen, exactly `width` of them, most significant first. -/
def hexDigits : Nat → Nat → List Char
  | 0, _ => []
  | width + 1, n => hexDigits width (n / 16) ++ [Nat.digitChar (n % 16)]

/-- A class, interface or enum, identified by the code of its qualified name. -/
structure ClassId where
  code : UInt64
deriving DecidableEq, Repr, Inhabited

namespace ClassId

/-- Mixed into every code, so that class codes differ from bare digests of the same text. -/
def domain : UInt64 := 0x2fac10b63a6cc57c

/-- The class with the given qualified name. -/
def ofName (name : String) : ClassId :=
  ⟨domain ^^^ Digest.ofBytes 0 name.toByteArray.data.toList⟩

/-- `0x` and the sixteen hexadecimal digits of the code. -/
def render (id : ClassId) : String :=
  "0x" ++ String.ofList (hexDigits 16 id.code.toNat)

def object : ClassId := ofName "java.lang.Object"
def string : ClassId := ofName "java.lang.String"
def boolean : ClassId := ofName "java.lang.Boolean"
def byte : ClassId := ofName "java.lang.Byte"
def short : ClassId := ofName "java.lang.Short"
def character : ClassId := ofName "java.lang.Character"
def integer : ClassId := ofName "java.lang.Integer"
def long : ClassId := ofName "java.lang.Long"
def float : ClassId := ofName "java.lang.Float"
def double : ClassId := ofName "java.lang.Double"

/-- The classes that the conversion rules mention. -/
def wellKnown : List ClassId :=
  [object, string, boolean, byte, short, character, integer, long, float, double]

end ClassId

end Breakpoint
