import PlZero.Proofs.Grammar.Portable
import PlZero.Proofs.Stmt.Tokenwise

/-! # Phrases with trees in front of another text

Expressions, statements and blocks stay what they are if the text behind them is replaced by one
that starts alike.
-/

namespace PlZero

theorem Portable.tokenwise : Tokenwise Portable where
  symbol _ hsymbol := hsymbol.portable
  loneWord _ hword := hword.portable
  integer hint := hint.portable
  quoted hquoted := hquoted.portable
  nil := .nil
  comp := .comp
  mono := .mono

variable {input rest : List Char}

theorem Expr.Derives.portable {tier : Tier} {value : Expr}
    (hderives : Derives tier input value rest) : Portable (Derives tier · value ·) input rest :=
  Portable.tokenwise.expr hderives

theorem Stmt.Derives.portable {stmt : Stmt} (hstmt : Stmt.Derives input stmt rest) :
    Portable (Stmt.Derives · stmt ·) input rest :=
  Portable.tokenwise.stmt hstmt

theorem Block.Derives.portable {block : Block} (hblock : Block.Derives input block rest) :
    Portable (Block.Derives · block ·) input rest :=
  Portable.tokenwise.block hblock

theorem Block.Braced.portable {block : Block} (hblock : Block.Braced input block rest) :
    Portable (Block.Braced · block ·) input rest :=
  Portable.tokenwise.braced hblock

end PlZero
