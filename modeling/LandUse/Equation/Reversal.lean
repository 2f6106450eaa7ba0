import LandUse.Equation.Elements
import LandUse.Equation.Parser

/-! An equation from right to left. Elements are units, and a sign stays in front of its operand; in front of `^` it
needs parentheses. -/

namespace LandUse

open Text Alphabet

structure RangeError where
  equation : String
  start : Int
  stop : Int

def RangeError.message (e : RangeError) : String :=
  "range [" ++ toString e.start ++ "," ++ toString e.stop ++ "] out of bounds"

structure Reversal where
  src : Bytes
  elements : Elements

namespace Reversal

def byteAt? (r : Reversal) (pos : Int) : Option UInt8 := if pos < 0 then none else r.src[pos.toNat]?

def isBlankAt (r : Reversal) (pos : Int) : Bool := (r.byteAt? pos).any isBlankByte

def cut (r : Reversal) (a b : Int) : Bytes := slice r.src a.toNat b.toNat

def skipBack (r : Reversal) : Nat → Int → Int → Int
  | 0, pos, _ => pos
  | fuel + 1, pos, limit => if limit ≤ pos && r.isBlankAt pos then r.skipBack fuel (pos - 1) limit else pos

def skipForth (r : Reversal) : Nat → Int → Int → Int
  | 0, pos, _ => pos
  | fuel + 1, pos, limit => if pos ≤ limit && r.isBlankAt pos then r.skipForth fuel (pos + 1) limit else pos

def back (r : Reversal) (pos limit : Int) : Int := r.skipBack r.src.length pos limit

def forth (r : Reversal) (pos limit : Int) : Int := r.skipForth r.src.length pos limit

def isPower (r : Reversal) (pos : Int) : Bool :=
  match (r.elements.endingAt pos).find? (·.kind = .operator) with
  | some (.operator symbol _ unary _ _) => !unary && symbol == Operator.pow.symbol
  | _ => false

def powerBefore (r : Reversal) (pos start : Int) : Bool :=
  let q := r.back (pos - 1) start
  start ≤ q && r.isPower q

def powerAfter (r : Reversal) (pos stop : Int) : Bool :=
  let q := r.forth (pos + 1) stop
  q ≤ stop && r.isPower q

def turned (b : UInt8) : UInt8 := if b == 40 then 41 else if b == 41 then 40 else b

def unitAt? (r : Reversal) (pos start : Int) : Option Element :=
  (r.elements.endingAt pos).find? fun e => start ≤ e.span.start

/-- A pair of parentheses around nothing but a signed operand, of which the right one is at `pos`. -/
structure SignedGroup where
  opening : Int
  inner : Int
  sign : Element

def signedGroup? (r : Reversal) (pos start : Int) : Option SignedGroup :=
  if r.byteAt? pos != some 41 then none
  else
    let q := r.back (pos - 1) start
    if q < start then none
    else match (r.elements.endingAt q).find? Element.isSign with
      | none => none
      | some e =>
        let opening := r.back (e.span.start - 1) start
        if opening < start || r.byteAt? opening != some 40 then none else some ⟨opening, q, e⟩

mutual

def range (r : Reversal) : Nat → Int → Int → Except RangeError Bytes
  | 0, start, stop => .error ⟨r.elements.equation, start, stop⟩
  | fuel + 1, start, stop =>
    if start < 0 || (r.src.length : Int) ≤ stop then .error ⟨r.elements.equation, start, stop⟩
    else r.downFrom fuel start stop stop

def downFrom (r : Reversal) : Nat → Int → Int → Int → Except RangeError Bytes
  | 0, start, stop, _ => .error ⟨r.elements.equation, start, stop⟩
  | fuel + 1, start, stop, pos =>
    if pos < start then .ok []
    else match r.unitAt? pos start with
      | some e => do
        let body ← r.unit fuel e
        let rest ← r.downFrom fuel start stop (e.span.start - 1)
        if e.isSign && r.powerBefore e.span.start start then return 40 :: (body ++ 41 :: rest)
        else return body ++ rest
      | none =>
        match r.signedGroup? pos start with
        | some g => do
          let body ← r.unit fuel g.sign
          let rest ← r.downFrom fuel start stop (g.opening - 1)
          if !r.powerAfter pos stop || r.powerBefore g.opening start then
            return 40 :: (r.cut (g.inner + 1) pos).reverse ++ body ++
              (r.cut (g.opening + 1) g.sign.span.start).reverse ++ 41 :: rest
          else return body ++ rest
        | none => do
          let rest ← r.downFrom fuel start stop (pos - 1)
          return (r.cut pos (pos + 1)).map turned ++ rest

def unit (r : Reversal) : Nat → Element → Except RangeError Bytes
  | 0, e => .error ⟨r.elements.equation, e.span.start, e.span.stop⟩
  | fuel + 1, e =>
    match e with
    | .loop _ _ _ span body => do
      let inner ← r.range fuel body.start body.stop
      return r.cut span.start body.start ++ inner ++ r.cut (body.stop + 1) (span.stop + 1)
    | .call _ _ span body _ args => do
      let inner ← r.arguments fuel args
      return r.cut span.start body.start ++ inner ++ r.cut (body.stop + 1) (span.stop + 1)
    | .param _ subs _ span => r.subscripts fuel span.start span.stop subs
    | .operator _ _ true span operand => do
      let inner ← r.range fuel operand.start operand.stop
      return r.cut span.start operand.start ++ inner
    | e => return r.cut e.span.start (e.span.stop + 1)

def arguments (r : Reversal) : Nat → List Span → Except RangeError Bytes
  | _, [] => .ok []
  | 0, s :: _ => .error ⟨r.elements.equation, s.start, s.stop⟩
  | fuel + 1, s :: ss => do
    let later ← r.arguments fuel ss
    let first ← r.range fuel s.start s.stop
    if ss.isEmpty then return first else return later ++ 44 :: first

def subscripts (r : Reversal) : Nat → Int → Int → List Subscript → Except RangeError Bytes
  | _, cursor, stop, [] => .ok (r.cut cursor (stop + 1))
  | 0, cursor, stop, _ :: _ => .error ⟨r.elements.equation, cursor, stop⟩
  | fuel + 1, cursor, stop, s :: ss => do
    let inner ← match s with
      | .index span _ (some _) => r.range fuel span.start span.stop
      | s => Except.ok (r.cut s.span.start (s.span.stop + 1))
    let rest ← r.subscripts fuel (s.span.stop + 1) stop ss
    return r.cut cursor s.span.start ++ inner ++ rest

end

def fuel (r : Reversal) : Nat := 8 * (r.src.length + 2)

end Reversal

def reverseRange (src : Bytes) (elements : Elements) (start stop : Int) : Except RangeError Bytes :=
  let r : Reversal := ⟨src, elements⟩
  r.range r.fuel start stop

inductive ReverseError where
  | parse (e : ParseError)
  | range (e : RangeError)

def reverseBytes (symbols : Symbols) (self : String) (src : Bytes) : Except ReverseError Bytes :=
  match parseBytes symbols self src with
  | .error e => .error (.parse e)
  | .ok tree =>
    match reverseRange src (.ofExpr self true tree) 0 (src.length - 1) with
    | .ok text => .ok text
    | .error e => .error (.range e)

end LandUse
