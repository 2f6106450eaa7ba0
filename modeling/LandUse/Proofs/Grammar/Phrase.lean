import LandUse.Equation.Parser
import Mathlib.Tactic.Common

/-! The grammar of equations, in five levels. A phrase is a derivation tree that keeps every token. -/

namespace LandUse.Grammar

open LandUse.Parser

structure Mark where
  lexeme : String
  pos : Nat

abbrev Mark.token (m : Mark) (kind : TokenKind) : Token := ⟨kind, m.lexeme, m.pos⟩

mutual

inductive Phrase where
  | number (x : Float) (mark : Mark)
  | group (left : Mark) (body : Phrase) (right : Mark)
  | loop (keyword : Keyword) (pos : Nat) (brace dim unbrace left : Mark) (body : Phrase) (right : Mark)
  | call (fn : Function) (pos : Nat) (left : Mark) (args : Arguments) (right : Mark)
  | decision (name : Mark) (subs : Brackets)
  | parameter (name : Mark) (subs : Brackets)
  | equation (name : Mark)
  | minus (sign : Mark) (arg : Phrase)
  | plus (sign : Mark) (arg : Phrase)
  | binary (lhs : Phrase) (op : Operator) (mark : Mark) (rhs : Phrase)

inductive Arguments where
  | last (arg : Phrase)
  | more (arg : Phrase) (comma : Mark) (rest : Arguments)

inductive Brackets where
  | done
  | dim (left name right : Mark) (rest : Brackets)
  | option (left name right : Mark) (index : Nat) (rest : Brackets)
  | constant (left : Mark) (value : Phrase) (right : Mark) (index : Nat) (rest : Brackets)

end

mutual

def Phrase.tokens : Phrase → List Token
  | .number x mark => [mark.token (.number x)]
  | .group left body right => left.token .lparen :: (body.tokens ++ [right.token .rparen])
  | .loop keyword pos brace dim unbrace left body right =>
    ⟨.ident, keyword.name, pos⟩ :: brace.token .lbrace :: dim.token .ident :: unbrace.token .rbrace ::
      left.token .lparen :: (body.tokens ++ [right.token .rparen])
  | .call fn pos left args right =>
    ⟨.ident, fn.name, pos⟩ :: left.token .lparen :: (args.tokens ++ [right.token .rparen])
  | .decision name subs => name.token .ident :: subs.tokens
  | .parameter name subs => name.token .ident :: subs.tokens
  | .equation name => [name.token .ident]
  | .minus sign arg => sign.token (.operator .minus) :: arg.tokens
  | .plus sign arg => sign.token (.operator .plus) :: arg.tokens
  | .binary lhs op mark rhs => lhs.tokens ++ mark.token (.operator op) :: rhs.tokens

def Arguments.tokens : Arguments → List Token
  | .last arg => arg.tokens
  | .more arg comma rest => arg.tokens ++ comma.token .comma :: rest.tokens

def Brackets.tokens : Brackets → List Token
  | .done => []
  | .dim left name right rest =>
    left.token .lbracket :: name.token .ident :: right.token .rbracket :: rest.tokens
  | .option left name right _ rest =>
    left.token .lbracket :: name.token .ident :: right.token .rbracket :: rest.tokens
  | .constant left value right _ rest =>
    left.token .lbracket :: (value.tokens ++ right.token .rbracket :: rest.tokens)

end

def Arguments.phrases : Arguments → List Phrase
  | .last arg => [arg]
  | .more arg _ rest => arg :: rest.phrases

def Arguments.seps : Arguments → List Int
  | .last _ => []
  | .more _ comma rest => (comma.pos : Int) :: rest.seps

def Brackets.length : Brackets → Nat
  | .done => 0
  | .dim _ _ _ rest | .option _ _ _ _ rest | .constant _ _ _ _ rest => rest.length + 1

def Brackets.phrases : Brackets → List Phrase
  | .done => []
  | .dim _ _ _ rest | .option _ _ _ _ rest => rest.phrases
  | .constant _ value _ _ rest => value :: rest.phrases

def Brackets.stop (stop : Int) : Brackets → Int
  | .done => stop
  | .dim _ _ right rest | .option _ _ right _ rest | .constant _ _ right _ rest => rest.stop right.pos

mutual

def Phrase.expr (d : Depth) : Phrase → Expr
  | .number x mark => .number ⟨mark.pos, (mark.token (.number x)).last⟩ mark.lexeme x
  | .group left body right => .group ⟨left.pos, right.pos⟩ (body.expr d)
  | .loop keyword pos _ dim _ left body right =>
    .loop ⟨pos, right.pos⟩ keyword dim.lexeme ⟨dim.pos, (dim.token .ident).last⟩ d.loops
      ⟨left.pos + 1, right.pos - 1⟩ (body.expr { d with loops := d.loops + 1 })
  | .call fn pos left args right =>
    .call ⟨pos, right.pos⟩ fn d.calls ⟨left.pos + 1, right.pos - 1⟩ args.seps
      (args.exprs { d with calls := d.calls + 1 })
  | .decision name subs =>
    .param ⟨name.pos, subs.stop (name.token .ident).last⟩ name.lexeme true (subs.subscripts d)
  | .parameter name subs =>
    .param ⟨name.pos, subs.stop (name.token .ident).last⟩ name.lexeme false (subs.subscripts d)
  | .equation name => .equation ⟨name.pos, (name.token .ident).last⟩ name.lexeme
  | .minus sign arg =>
    .negate ⟨sign.pos, (arg.expr d).span.stop⟩ ⟨sign.pos, (sign.token (.operator .minus)).last⟩ (arg.expr d)
  | .plus _ arg => arg.expr d
  | .binary lhs op mark rhs => binaryExpr op (mark.token (.operator op)) (lhs.expr d) (rhs.expr d)

def Arguments.exprs (d : Depth) : Arguments → List Expr
  | .last arg => [arg.expr d]
  | .more arg _ rest => arg.expr d :: rest.exprs d

def Brackets.subscripts (d : Depth) : Brackets → List Subscript
  | .done => []
  | .dim left name right rest => .dim ⟨left.pos + 1, right.pos - 1⟩ name.lexeme :: rest.subscripts d
  | .option left name right index rest =>
    .option ⟨left.pos + 1, right.pos - 1⟩ name.lexeme index :: rest.subscripts d
  | .constant left value right index rest =>
    .index ⟨left.pos + 1, right.pos - 1⟩ index (keptExpr (value.expr d)) :: rest.subscripts d

end

inductive Denotes : Phrase → Float → Prop
  | number (x mark) : Denotes (.number x mark) x
  | group {p x} (left right) : Denotes p x → Denotes (.group left p right) x
  | plus {p x} (sign) : Denotes p x → Denotes (.plus sign p) x
  | minus {p x y} (sign) : Denotes p x → Opcode.apply .neg [x] = .ok y → Denotes (.minus sign p) y
  | binary {p q x y z op} (mark) : Denotes p x → Denotes q y → op.opcode.apply [x, y] = .ok z →
      Denotes (.binary p op mark q) z

def IsIndex (x : Float) (i : Nat) : Prop :=
  ¬ x < 0 ∧ (Number.isIntegral x ∨ x.isInf) ∧ (Number.truncate x).toNat = i

def Brackets.Resolved (c : Context) : Brackets → Prop
  | .done => True
  | .dim _ name _ rest => c.isDimension name.lexeme = true ∧ rest.Resolved c
  | .option _ name _ index rest =>
    c.isDimension name.lexeme = false ∧ c.symbols.optionIndex? name.lexeme = some index ∧ rest.Resolved c
  | .constant _ value _ index rest => (∃ x, Denotes value x ∧ IsIndex x index) ∧ rest.Resolved c

inductive Level where
  | rel | add | mul | pow | prim
deriving DecidableEq

def Level.tighter : Level → Level
  | rel => add
  | add => mul
  | mul => pow
  | pow | prim => prim

def levelOf : Operator → Level
  | .lt | .le | .eq | .same | .ge | .gt | .ne => .rel
  | .plus | .minus => .add
  | .times | .div | .rem => .mul
  | .pow => .pow

inductive Derives (c : Context) : Level → Phrase → Prop
  | tighter {l p} : l ≠ .prim → Derives c l.tighter p → Derives c l p
  | operation {l p op q} (mark) : levelOf op = l → l ≠ .pow → Derives c l p → Derives c l.tighter q →
      Derives c l (.binary p op mark q)
  | power {p q} (mark) : Derives c .prim p → Derives c .pow q → Derives c .pow (.binary p .pow mark q)
  | minus {p} (sign) : Derives c .pow p → Derives c .pow (.minus sign p)
  | plus {p} (sign) : Derives c .pow p → Derives c .pow (.plus sign p)
  | number (x mark) : Derives c .prim (.number x mark)
  | group {p} (left right) : Derives c .rel p → Derives c .prim (.group left p right)
  | loop {p} {dim : Mark} (keyword pos brace unbrace left right) : c.isDimension dim.lexeme = true →
      Derives c .rel p → Derives c .prim (.loop keyword pos brace dim unbrace left p right)
  | call {fn args} (pos left right) : (∀ p ∈ args.phrases, Derives c .rel p) →
      fn.accepts args.phrases.length = true → Derives c .prim (.call fn pos left args right)
  | decision {name subs} : c.symbols.variableArity? name.lexeme = some subs.length →
      (∀ p ∈ subs.phrases, Derives c .rel p) → subs.Resolved c → Derives c .prim (.decision name subs)
  | parameter {name subs} : c.symbols.variableArity? name.lexeme = none →
      c.symbols.isParameter name.lexeme = true →
      (∀ p ∈ subs.phrases, Derives c .rel p) → subs.Resolved c → Derives c .prim (.parameter name subs)
  | equation {name} : c.symbols.variableArity? name.lexeme = none →
      c.symbols.isParameter name.lexeme = false → c.symbols.isEquation name.lexeme = true →
      name.lexeme ≠ c.self → Derives c .prim (.equation name)

end LandUse.Grammar
