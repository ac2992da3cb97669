import BytePattern.Token.Basic

namespace BytePattern

/-!
# Writing out concatenations

Two operands that stand side by side are concatenated.  The later stages only
know operators, so a concatenation mark is written between any token that can
end an operand and a following token that can begin one.  Whether a mark is due
depends on the two neighbours alone, and a mark is neither kind of token.
Marks that are already present therefore stay as they are, and a second pass
would find nothing left to do.
-/

namespace Token

/-- Whether two neighbours are operands side by side. -/
def adjoins (left right : Token) : Bool :=
  left.endsOperand && right.beginsOperand

/-- The token list with every implicit concatenation written out. -/
def marked : List Token -> List Token
  | [] => []
  | [token] => [token]
  | left :: right :: rest =>
    if left.adjoins right then left :: operator .concat :: marked (right :: rest)
    else left :: marked (right :: rest)

theorem adjoins_concat_left (right : Token) : (operator .concat).adjoins right = false := rfl

theorem adjoins_concat_right (left : Token) : left.adjoins (operator .concat) = false := by
  unfold adjoins
  exact Bool.and_false _

end Token

end BytePattern
