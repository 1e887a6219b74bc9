/-
Baselib.Core.NumberUtils — coercing a number from one integer type to
another.

`safeCoerceTo` picks one of two helpers by the sizes and the signs of the
types: one checks the lower bound only, the other both bounds. The model
keeps the comparisons which the code makes, in the order it makes them, each
with its two operands as they stand in the source. They are decided the way
the language does it, through the common type of the operands.

The callback is what the caller passes to be called instead of an exception:
it returns or throws. A call without one throws.
-/
import Baselib.Lib.IntTypes

namespace Baselib.Core.NumberUtils

open Lib (IntType)
open Lib.IntType (less equal)

inductive Operator where
  | less
  | greater
  | equal
  deriving DecidableEq, Repr

/-- A comparison the code makes. -/
structure Comparison where
  {T U : IntType}
  left : T.Value
  op : Operator
  right : U.Value

/-- What the comparison evaluates to. -/
def Comparison.holds (c : Comparison) : Bool :=
  match c.op with
  | .less => less c.left c.right
  | .greater => less c.right c.left
  | .equal => equal c.left c.right

/-- What it says about the integers compared. -/
def Comparison.says (c : Comparison) : Prop :=
  match c.op with
  | .less => c.left.val < c.right.val
  | .greater => c.right.val < c.left.val
  | .equal => c.left.val = c.right.val

inductive Exception (ε : Type) where
  /-- `NumberCoerceException` with its message. -/
  | numberCoerce (message : String)
  /-- What the callback threw. -/
  | callback (e : ε)
  /-- A failed `BL_ASSERT`, in a build which has them. -/
  | assertion
  deriving DecidableEq, Repr

/-- A computation beside the comparisons it has made. -/
abbrev Coercion (ε α : Type) := ExceptT (Exception ε) (StateM (List Comparison)) α

section

variable {ε : Type}

def compare (c : Comparison) : Coercion ε Bool := do
  modify (· ++ [c])
  return c.holds

def assert (debug : Bool) (c : Comparison) : Coercion ε Unit := do
  if debug then
    if ← compare c then
      return
    else
      throw .assertion
  else
    return

/-- `ehCallback()` where there is a callback, `BL_THROW` otherwise. -/
def callOrThrow (ehCallback : Option (Except ε Unit)) (message : String) : Coercion ε Unit :=
  match ehCallback with
  | some (.ok ()) => return
  | some (.error e) => throw (.callback e)
  | none => throw (.numberCoerce message)

def signText (T : IntType) : String := if T.isSigned then "signed" else "unsigned"

/-- The message for a number below the minimum. -/
def belowMinimumMessage (T : IntType) {U : IntType} (value : U.Value) : String :=
  s!"Cannot coerce number {(IntType.int64.cast value).val} into a numeric type of size {T.size}" ++
    s!" (in bytes) which is {signText T} and can hold a minimum value of " ++
    s!"{(IntType.int64.cast T.minimum).val}"

/-- The message for a number above the maximum. -/
def aboveMaximumMessage (T : IntType) {U : IntType} (value : U.Value) : String :=
  s!"Cannot coerce number {(IntType.uint64.cast value).val} into a smaller numeric type of size " ++
    s!"{T.size} (in bytes) which is also {signText T} and can hold a maximum value of " ++
    s!"{(IntType.uint64.cast T.maximum).val}"

/-- The local `isBelowMinimum` of `chkNumberLowerBound`. -/
def isBelowMinimum (T : IntType) {U : IntType} (value : U.Value) : Coercion ε Bool :=
  if T.isSigned = false then compare ⟨value, .less, U.ofInt 0⟩
  else if T.size < U.size then compare ⟨value, .less, U.cast T.minimum⟩
  else return false

/-- `chkNumberLowerBound`, the overload for a source type with a sign. -/
def chkNumberLowerBoundSigned (T : IntType) {U : IntType} (value : U.Value)
    (ehCallback : Option (Except ε Unit)) : Coercion ε Unit := do
  if ← isBelowMinimum T value then
    callOrThrow ehCallback (belowMinimumMessage T value)
  else
    return

/-- An unsigned source has no lower bound to violate. -/
def chkNumberLowerBound (T : IntType) {U : IntType} (value : U.Value)
    (ehCallback : Option (Except ε Unit)) : Coercion ε Unit :=
  if U.isSigned then chkNumberLowerBoundSigned T value ehCallback else return

/-- `NumberCoerceHelper< false >::safeCoerceTo` -/
def coerceChecked (debug : Bool) (T : IntType) {U : IntType} (value : U.Value)
    (ehCallback : Option (Except ε Unit)) : Coercion ε T.Value := do
  chkNumberLowerBound T value ehCallback
  assert debug ⟨U.cast (T.cast value), .equal, value⟩
  return T.cast value

/-- `NumberCoerceHelper< true >::safeCoerceTo` -/
def coerceCheckedIfItFits (debug : Bool) (T : IntType) {U : IntType} (value : U.Value)
    (ehCallback : Option (Except ε Unit)) : Coercion ε T.Value := do
  chkNumberLowerBound T value ehCallback
  if ← compare ⟨value, .greater, U.cast T.maximum⟩ then
    callOrThrow ehCallback (aboveMaximumMessage T value)
  else
    assert debug ⟨U.cast (T.cast value), .equal, value⟩
  return T.cast value

/-- Which of the helpers is used. -/
def checkIfItFits (T U : IntType) : Prop :=
  T.size < U.size ∨ T.size = U.size ∧ T.isSigned = true ∧ U.isSigned = false

instance (T U : IntType) : Decidable (checkIfItFits T U) :=
  inferInstanceAs (Decidable (_ ∨ _))

def safeCoerceTo (debug : Bool) (T : IntType) {U : IntType} (value : U.Value)
    (ehCallback : Option (Except ε Unit)) : Coercion ε T.Value :=
  if checkIfItFits T U then coerceCheckedIfItFits debug T value ehCallback
  else coerceChecked debug T value ehCallback

/-- What the code comes to, with the comparisons it has made. -/
def evaluate {α : Type} (m : Coercion ε α) : Except (Exception ε) α × List Comparison := m.run.run []

end

end Baselib.Core.NumberUtils
