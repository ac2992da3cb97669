namespace BytePattern

/-!
# Operators of the pattern language

Every operator is a single byte.  Four of them are typed by the author of a
pattern; the fifth, concatenation, is only ever inserted between two adjacent
operands, which is why its byte is reserved.

Concatenation binds loosest of all, looser than alternation.  Thus `ab|c`
is `a` followed by one of `b` and `c`, and a choice between two words needs
parentheses.
-/

inductive Operator where
  | concat
  | alternate
  | optional
  | plus
  | star
deriving DecidableEq, Repr

namespace Operator

/-- The operators, loosest first. -/
def all : List Operator :=
  [concat, alternate, optional, plus, star]

/-- The byte that stands for the operator in a pattern. -/
def byte : Operator -> UInt8
  | concat => 0x2e
  | alternate => 0x7c
  | optional => 0x3f
  | plus => 0x2b
  | star => 0x2a

/-- The name used in messages. -/
def name : Operator -> String
  | concat => "Concat"
  | alternate => "Alternation"
  | optional => "Optional"
  | plus => "Plus"
  | star => "Star"

/-- Binding strength.  The three repetitions share the highest one, so a run
of them applies from left to right. -/
def precedence : Operator -> Nat
  | concat => 0
  | alternate => 1
  | optional => 2
  | plus => 2
  | star => 2

/-- How many operands stand before the operator in postorder. -/
def arity : Operator -> Nat
  | concat => 2
  | alternate => 2
  | optional => 1
  | plus => 1
  | star => 1

/-- A repetition follows its one operand. -/
def isRepetition (operator : Operator) : Bool :=
  operator.precedence = 2

/-- The operator that a byte stands for, if any. -/
def ofByte? (byte : UInt8) : Option Operator :=
  all.find? fun operator => operator.byte = byte

theorem mem_all (operator : Operator) : operator ∈ all := by
  cases operator <;> decide

theorem byte_injective {first second : Operator} (same : first.byte = second.byte) :
    first = second := by
  cases first <;> cases second <;> first | rfl | exact absurd same (by decide)

theorem ofByte?_byte (operator : Operator) : ofByte? operator.byte = some operator := by
  cases found : ofByte? operator.byte with
  | none =>
    have missed := List.find?_eq_none.1 found operator (mem_all operator)
    simp at missed
  | some other =>
    have same : other.byte = operator.byte := by simpa using List.find?_some found
    rw [byte_injective same]

theorem ofByte?_eq_some_iff {byte : UInt8} {operator : Operator} :
    ofByte? byte = some operator <-> operator.byte = byte := by
  constructor
  · intro found
    unfold ofByte? at found
    simpa only [decide_eq_true_eq] using List.find?_some found
  · intro same
    rw [← same, ofByte?_byte]

end Operator

/-- The complaint about a byte that stands for no operator. -/
structure UnknownOperator where
  byte : UInt8
deriving DecidableEq, Repr

namespace UnknownOperator

def message (unknown : UnknownOperator) : String :=
  "No discriminant in enum `Operator` matches the value `" ++ toString unknown.byte.toNat ++ "`"

end UnknownOperator

/-- Reads a byte as an operator, naming the byte when there is none. -/
def Operator.ofByte (byte : UInt8) : Except UnknownOperator Operator :=
  match ofByte? byte with
  | some operator => .ok operator
  | none => .error ⟨byte⟩

theorem Operator.ofByte_eq_ok_iff {byte : UInt8} {operator : Operator} :
    ofByte byte = .ok operator <-> operator.byte = byte := by
  rw [← ofByte?_eq_some_iff, ofByte]
  cases ofByte? byte <;> simp

/-- The complaint is about the byte itself, and is never made of an operator. -/
theorem Operator.ofByte_eq_error_iff {byte : UInt8} {unknown : UnknownOperator} :
    ofByte byte = .error unknown <->
      unknown.byte = byte ∧ forall operator : Operator, operator.byte ≠ byte := by
  have absent : ofByte? byte = none <-> forall operator : Operator, operator.byte ≠ byte := by
    simp only [Option.eq_none_iff_forall_ne_some, ne_eq, ofByte?_eq_some_iff]
  rcases unknown with ⟨other⟩
  rw [← absent, ofByte]
  cases ofByte? byte <;> simp [eq_comm]

end BytePattern
