import OperandStack.Number.Written
import OperandStack.Text.Quoted

/-!
# Compile-time constants

The constants a stack entry can be known to hold. Integers are machine words of their type
and floating point numbers are the bits of their format, so equality of constants is
equality of what the machine would hold.
-/

namespace OperandStack

inductive Constant where
  | null
  | int (value : Int32)
  | long (value : Int64)
  | float (bits : UInt32)
  | double (bits : UInt64)
  | string (text : Text)
deriving DecidableEq, Repr

namespace Constant

/-- Names of the kinds of constant, by number; the first stands for an unknown one. -/
def kindNames : List Text := ["none", "null", "int", "long", "float", "double", "string"]

/-- The name of the kind with the given number. -/
def kindName (n : Nat) : Text := (kindNames[n]?).getD ("ConstKind(" ++ Text.ofNat n ++ ")")

def kind : Constant → Nat
  | .null => 1
  | .int _ => 2
  | .long _ => 3
  | .float _ => 4
  | .double _ => 5
  | .string _ => 6

/-- Longs and floating point numbers carry a letter that tells their type. -/
def toText : Constant → Text
  | .null => "null"
  | .int v => Text.ofInt v.toInt
  | .long v => Text.ofInt v.toInt ++ "L"
  | .float bits => Format.single.write bits.toNat ++ "F"
  | .double bits => Format.double.write bits.toNat ++ "D"
  | .string t => Text.quote t

end Constant

end OperandStack
